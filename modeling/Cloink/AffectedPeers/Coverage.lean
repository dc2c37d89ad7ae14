import Cloink.AffectedPeers.Resolver
import Cloink.AffectedPeers.ResourceAlike

/-!
# Whom the resolver finds

The groups and peers that the parts of the resolver's walk add, in terms of the account the
collections were loaded from: the routing peers of a network and the peers on a side of a rule are
among the affected ones.
-/

namespace Cloink

open NetworkMapComponents NetworkMapData Affected AList List

namespace Affected

/-- The peer is one of those added, or a member of one of the groups added. -/
def Has (x : Affected) (groups : StrMap Group) (p : String) : Prop :=
  (∃ gid ∈ x.groups, p ∈ (groups.lookup gid).elim [] (·.peers)) ∨ p ∈ x.peers

variable {α : Type} {x y : Affected} {groups : StrMap Group} {p : String} {l : List α}
  {f : α → Affected} {cond : Bool}

@[simp] theorem has_append : (x ++ y).Has groups p ↔ x.Has groups p ∨ y.Has groups p := by
  simp only [Has, mem_groups_append, mem_peers_append, or_and_right, exists_or]
  exact or_or_or_comm

@[simp] theorem has_collect : (collect l f).Has groups p ↔ ∃ a ∈ l, (f a).Has groups p := by
  simp only [Has, mem_groups_collect, mem_peers_collect]
  constructor
  · rintro (⟨gid, ⟨a, ha, hg⟩, hp⟩ | ⟨a, ha, hp⟩)
    · exact ⟨a, ha, .inl ⟨gid, hg, hp⟩⟩
    · exact ⟨a, ha, .inr hp⟩
  · rintro ⟨a, ha, ⟨gid, hg, hp⟩ | hp⟩
    · exact .inl ⟨gid, ⟨a, ha, hg⟩, hp⟩
    · exact .inr ⟨a, ha, hp⟩

@[simp] theorem has_onlyIf : (onlyIf cond x).Has groups p ↔ cond ∧ x.Has groups p := by
  cases cond <;> simp [onlyIf, Has]

end Affected

theorem Snapshot.mem_expand_of_has {snap : Snapshot} {c : Change} (hc : c.isEmpty = false)
    {p : String} (hp : (newResolver snap c).walk.Has snap.groups p) : p ∈ snap.expand c := by
  rw [mem_expand hc]
  rcases hp with hp | hp
  · exact .inl hp
  · exact .inr (.inl hp)

/-- The collections that lead from resources to peers are those of the account. -/
structure Snapshot.LoadedFrom (snap : Snapshot) (a : Account) : Prop where
  policies : snap.policies = a.policies
  routers : snap.routers = a.networkRouters
  resources : snap.resources = a.networkResources
  groups : snap.groups = a.groups

variable {a : Account} {P : String}

/-- A side of a rule has the peers that it names. -/
theorem has_ruleSide {rule : PolicyRule} (side : PolicySide)
    (hside : P ∈ sideIDs a.groups (ruleSideResource rule side) (ruleSideGroups rule side)) :
    (ruleSide rule side).Has a.groups P := by
  unfold sideIDs at hside
  split at hside
  · rename_i hpr
    refine .inr ?_
    rw [mem_singleton.1 hside]
    simp [ruleSide, directPeer, hpr]
  · obtain ⟨gid, hgd, g, hg, hp⟩ := inGroups_of_mem_uniquePeers hside
    exact .inl ⟨gid, hgd, by simpa [hg] using hp⟩

theorem has_routerSide {rt : AccountRouter} (hP : P ∈ a.routingPeerIDs rt) :
    (Resolver.routerSide rt).Has a.groups P := by
  unfold Account.routingPeerIDs at hP
  split at hP
  · rename_i hpr
    refine .inr ?_
    rw [mem_singleton.1 hP]
    simp [Resolver.routerSide, hpr]
  · obtain ⟨gid, hg, hp⟩ := mem_flatMap.1 hP
    exact .inl ⟨gid, hg, hp⟩

namespace Resolver

variable {r : Resolver} (hl : r.snap.LoadedFrom a)

include hl

/-- The routers of a network are found through the network. -/
theorem has_foldRoutersOnNetworks {nids : List String} {n : String} (hn : n ∈ nids)
    (hP : P ∈ a.toNetworkMapData.networkRouters n) :
    (r.foldRoutersOnNetworks nids).Has a.groups P := by
  obtain ⟨rt, hr, he, hnt, hp⟩ := Account.mem_networkRouters.1 hP
  refine has_collect.2 ⟨rt, ?_, has_routerSide hp⟩
  rw [mem_filter, networkRouters, mem_filter, hl.routers, hnt]
  exact ⟨⟨hr, he⟩, contains_iff_mem.2 hn⟩

end Resolver

namespace Account

/-- A peer that is left out is found on no walk. -/
theorem not_has_walk {s : Account} {c : Change} {snap : Snapshot} (hc : c.isEmpty = false)
    (hl : snap.LoadedFrom s) (hn : P ∉ snap.expand c) :
    ¬(newResolver snap c).walk.Has s.groups P := fun hp =>
  hn (Snapshot.mem_expand_of_has hc (by rw [hl.groups]; exact hp))

/-- A change of policies, groups, resources, routers or networks loads what leads to peers. -/
theorem loadedFrom_load (s : Account) {c : Change}
    (hc : c.policies ≠ [] ∨ c.linkGroups ≠ [] ∨ c.resources ≠ [] ∨ c.routers ≠ [] ∨
      c.networks ≠ []) : (s.load c).LoadedFrom s := by
  have he : c.isEmpty = false := by
    rcases hc with hc | hc | hc | hc | hc <;> simp [Change.isEmpty, hc]
  unfold load
  simp only [he, Bool.false_eq_true, ↓reduceIte]
  rcases hc with hc | hc | hc | hc | hc <;> constructor <;> simp [hc]

/-- One of the resources of the group has the id. -/
def Lists (a : Account) (gid rid : String) : Prop :=
  ∃ g, a.groups.lookup gid = some g ∧ ∃ res ∈ g.resources, res.id = rid

theorem any_resourceGroups (h : a.WellFormed) {rid : String} {dests : List String} :
    ((a.getNetworkResourceGroups rid).any fun group => dests.contains group.id) = true ↔
      ∃ gid ∈ dests, a.Lists gid rid := by
  simp only [any_eq_true, getNetworkResourceGroups, mem_flatMap, mem_map,
    mem_filter, contains_iff_mem, decide_eq_true_eq]
  constructor
  · rintro ⟨g, ⟨-, ⟨e, he, rfl⟩, res, ⟨hr, hid⟩, rfl⟩, hg⟩
    have hl := mem_lookup_iff.2 he
    rw [h.group_id e.1 e.2 hl] at hg
    exact ⟨e.1, hg, e.2, hl, res, hr, hid⟩
  · rintro ⟨gid, hgd, g, hg, res, hr, hid⟩
    refine ⟨g, ⟨g, ⟨⟨gid, g⟩, mem_lookup_iff.1 hg, rfl⟩, res, ⟨hr, hid⟩, rfl⟩, ?_⟩
    rw [h.group_id gid g hg]
    exact hgd

/-- A rule leads to a resource by name or through a group. -/
theorem leadsTo_iff (h : a.WellFormed) {rid : String} {rule : PolicyRule} : a.leadsTo rule rid ↔
      rule.destinationResource.id = rid ∨ ∃ gid ∈ rule.destinations, a.Lists gid rid := by
  unfold leadsTo
  rw [Bool.or_eq_true, any_resourceGroups h, decide_eq_true_eq]

end Account

end Cloink
