import Cloink.NetworkMap.PeerACL
import Cloink.NetworkMap.Slicing

/-!
# Visibility of peers

A peer sees another when its network map has the other among its connected or offline peers: through
a policy that has them on its two sides, or because one of them routes a network resource that the
other may use. The second relation is not symmetric between two routers of one resource when only
one of them is a source peer.
-/

namespace Cloink

open NetworkMapComponents AList List

namespace NetworkMapComponents

variable {c : NetworkMapComponents} {env : Env} {pid : String}

theorem mem_addRoutingPeers {res : ResourceRoutes} {P : String}
    (hn : res.isRoutingPeer = false → res.allSourcePeers = []) {ps ex : List Peer} {q : Peer} :
    q ∈ c.addNetworksRoutingPeers res.routes P ps ex res.isRoutingPeer res.allSourcePeers ↔
      q ∈ ps ∨ ∃ p, (p ∈ res.allSourcePeers ∨ p ∈ res.routes.map (·.peerID)) ∧
        p ∉ P :: (ps ++ ex).map (·.id) ∧
        (c.getPeerInfo p).or (c.getRouterPeerInfo p) = some q := by
  unfold addNetworksRoutingPeers
  dsimp only
  rw [ResourceRoutes.ite_isRoutingPeer hn, mem_append, mem_filterMap]
  refine or_congr_right (exists_congr fun p => ?_)
  simp only [mem_insertAll, mem_filter, Bool.not_eq_true', contains_eq_mem, decide_eq_false_iff_not]
  tauto

variable (c env) in
theorem mem_filterByExpiration {q : Peer} {l : List Peer} :
    q ∈ (c.filterPeersByLoginExpiration env l).1 ++ (c.filterPeersByLoginExpiration env l).2 ↔
      q ∈ l := by
  simp only [filterPeersByLoginExpiration, mem_append, mem_filter]
  cases c.accountSettings.peerLoginExpirationEnabled &&
    q.loginExpired env c.accountSettings.peerLoginExpiration <;> simp

/-- The connectable peers: those of the policies that have not expired, and the routing partners
that no policy leads to, expired or not. -/
theorem mem_calculate_peers {q : Peer} : q ∈ (c.calculate env).peers ↔
      q ∈ (c.filterPeersByLoginExpiration env (c.policyPeers env)).1 ∨
      ∃ pid, c.RoutingPartner pid ∧ pid ≠ c.peerID ∧ ¬c.PolicyPartner pid ∧
        (c.getPeerInfo pid).or (c.getRouterPeerInfo pid) = some q := by
  set res := c.getNetworkResourcesRoutesToSync env c.peerID
  set split := c.filterPeersByLoginExpiration env (c.policyPeers env) with hs
  have hp : (c.calculate env).peers = c.addNetworksRoutingPeers res.routes c.peerID split.1
    split.2 res.isRoutingPeer res.allSourcePeers := rfl
  rw [hp, mem_addRoutingPeers sources_of_not_routing]
  refine or_congr_right (exists_congr fun pid => ?_)
  rw [mem_networkResources_iff]
  simp only [mem_cons, not_or, mem_map, hs, mem_filterByExpiration,
    exists_mem_policyPeers_iff env, and_assoc]

/-- The peers of the calculated map: those of the policies and the routing partners, when all
peers are known under their ids. -/
theorem mem_ids_calculate (hid : ∀ pid info, c.getPeerInfo pid = some info → info.id = pid) :
    pid ∈ ((c.calculate env).peers ++ (c.calculate env).offlinePeers).map (·.id) ↔
      c.PolicyPartner pid ∨ (pid ≠ c.peerID ∧ c.RoutingPartner pid) := by
  have hinfo {p : String} (hp : c.RoutingPartner p) :
      ∃ info, c.getPeerInfo p = some info ∧ info.id = p := by
    have hm := hp.mem_peers fun id info hi => by
      rw [hid id info hi]
      exact mem_of_lookup hi
    obtain ⟨info, hi⟩ := mem_iff_lookup.1 hm
    exact ⟨info, hi, hid p info hi⟩
  have ho : (c.calculate env).offlinePeers =
    (c.filterPeersByLoginExpiration env (c.policyPeers env)).2 := rfl
  -- the peers of the policies are all there, on one side of the split
  have hm (q : Peer) : q ∈ (c.calculate env).peers ++ (c.calculate env).offlinePeers ↔
      q ∈ c.policyPeers env ∨ ∃ p, c.RoutingPartner p ∧ p ≠ c.peerID ∧ ¬c.PolicyPartner p ∧
        (c.getPeerInfo p).or (c.getRouterPeerInfo p) = some q := by
    rw [mem_append, mem_calculate_peers, ho, or_right_comm, ← mem_append, mem_filterByExpiration]
  simp only [mem_map, hm]
  constructor
  · rintro ⟨q, hq | ⟨p, hp, hne, -, hl⟩, rfl⟩
    · exact .inl ((exists_mem_policyPeers_iff env).1 ⟨q, hq, rfl⟩)
    · obtain ⟨info, hi, hpd⟩ := hinfo hp
      rw [hi] at hl
      obtain rfl : info = q := Option.some.inj hl
      rw [hpd]
      exact .inr ⟨hne, hp⟩
  · intro h
    by_cases hk : c.PolicyPartner pid
    · obtain ⟨q, hq, he⟩ := (exists_mem_policyPeers_iff env).2 hk
      exact ⟨q, .inl hq, he⟩
    · obtain ⟨hne, hp⟩ := h.resolve_left hk
      obtain ⟨info, hi, hpd⟩ := hinfo hp
      exact ⟨info, .inr ⟨pid, hp, hne, hk, by rw [hi]; rfl⟩, hpd⟩

end NetworkMapComponents

namespace NetworkMapData

variable (nmd : NetworkMapData) (env : Env)

/-- The peer `A` has `B` among the peers of its network map. -/
def Sees (zone : CustomZone) (A B : String) : Prop :=
  B ∈ (((nmd.getPeerNetworkMapComponents env A zone).calculate env).peers ++
    ((nmd.getPeerNetworkMapComponents env A zone).calculate env).offlinePeers).map (·.id)

instance (zone : CustomZone) (A B : String) : Decidable (nmd.Sees env zone A B) :=
  inferInstanceAs (Decidable (B ∈ List.map _ _))

/-- A policy of the resource that is in force lets the peer in. -/
def ResourceSource (resource : NetworkResource) (p : String) : Prop :=
  ∃ policy ∈ usablePolicies (nmd.resourcePolicies.setAt resource.id),
    p ∈ nmd.resourcePolicyPeers policy ∧ nmd.Admits env policy.sourcePostureChecks p

/-- An enabled rule of an enabled policy has the peers on its two sides. -/
def PolicyConnected (A B : String) : Prop :=
  ∃ policy ∈ nmd.policies, policy.enabled ∧ ∃ rule ∈ policy.rules, rule.enabled ∧
    ((nmd.OnSource env policy rule A ∧ nmd.OnDestination rule B) ∨
      (nmd.OnDestination rule A ∧ nmd.OnSource env policy rule B))

/-- The peer `A` routes a resource that `B` may use, or does not route it, may use it, and `B`
routes it. -/
def ResourceConnected (A B : String) : Prop :=
  ∃ resource ∈ nmd.networkResources, resource.enabled ∧
    ((A ∈ nmd.networkRouters resource.networkID ∧ nmd.ResourceSource env resource B) ∨
      (A ∉ nmd.networkRouters resource.networkID ∧ nmd.ResourceSource env resource A ∧
        B ∈ nmd.networkRouters resource.networkID))

variable {nmd env}

variable {A B : String}

theorem PolicyConnected.symm (h : nmd.PolicyConnected env A B) : nmd.PolicyConnected env B A := by
  obtain ⟨pol, hp, hpe, rule, hr, hre, hsd⟩ := h
  refine ⟨pol, hp, hpe, rule, hr, hre, ?_⟩
  rcases hsd with ⟨hs, hd⟩ | ⟨hd, hs⟩
  · exact .inr ⟨hd, hs⟩
  · exact .inl ⟨hs, hd⟩

/-- Two routers of one resource are both source peers of it or both not. -/
def RoutersAlike (nmd : NetworkMapData) (env : Env) (A B : String) : Prop :=
  ∀ resource ∈ nmd.networkResources, resource.enabled →
    A ∈ nmd.networkRouters resource.networkID → B ∈ nmd.networkRouters resource.networkID →
      (nmd.ResourceSource env resource A ↔ nmd.ResourceSource env resource B)

theorem RoutersAlike.symm (h : nmd.RoutersAlike env A B) : nmd.RoutersAlike env B A :=
  fun res hr he hB hA => (h res hr he hA hB).symm

theorem ResourceConnected.symm (h : nmd.ResourceConnected env A B)
    (ha : nmd.RoutersAlike env A B) : nmd.ResourceConnected env B A := by
  obtain ⟨res, hr, he, ⟨hA, hB⟩ | ⟨-, hA, hB⟩⟩ := h
  · by_cases hrt : B ∈ nmd.networkRouters res.networkID
    · exact ⟨res, hr, he, .inl ⟨hrt, (ha res hr he hA hrt).2 hB⟩⟩
    · exact ⟨res, hr, he, .inr ⟨hrt, hB, hA⟩⟩
  · exact ⟨res, hr, he, .inl ⟨hB, hA⟩⟩

/-! ### Over the account -/

section

variable {A B : String} {zone : CustomZone} (h : nmd.WellFormed env)

include h

theorem policyPartner_account (hall : ∀ p ∈ [A, B], AllHolds nmd.groups p) (hA : A ∈ nmd.peers)
    (hv : nmd.isValidated A) :
    (nmd.accountComponents env A zone).PolicyPartner B ↔ B ≠ A ∧ nmd.PolicyConnected env A B := by
  obtain ⟨tgt, ht⟩ := mem_iff_lookup.1 hA
  have hm : (nmd.accountComponents env A zone).peerID ∈ (nmd.accountComponents env A zone).peers :=
    mem_of_lookup (getPeerInfo_account.2 ⟨hv, ht⟩)
  constructor
  · rintro ⟨-, ⟨pol, rule⟩, hpr, q, rfl, hs⟩
    obtain ⟨hp, hpe, hr, hre⟩ := mem_enabledRules.1 hpr
    rcases hs with ⟨hs, hq⟩ | ⟨hd, hq⟩
    · obtain ⟨hne, hd⟩ := (exists_getSidePeers_account h).1 ⟨q, rfl, hq⟩
      exact ⟨hne, pol, hp, hpe, rule, hr, hre, .inl ⟨InSource.onSource
        ((getSidePeers_account_snd A zone h _ _ _ A).1 hs) h, InDestination.onDestination hd⟩⟩
    · obtain ⟨hne, hs⟩ := (exists_getSidePeers_account h).1 ⟨q, rfl, hq⟩
      exact ⟨hne, pol, hp, hpe, rule, hr, hre, .inr ⟨InDestination.onDestination
        ((getSidePeers_account_snd A zone h _ _ _ A).1 hd), InSource.onSource hs h⟩⟩
  · rintro ⟨hne, pol, hp, hpe, rule, hr, hre, hs⟩
    have hpr := mem_enabledRules.2 ⟨hp, hpe, hr, hre⟩
    have hlA := hall A mem_cons_self
    have hlB := hall B (mem_cons_of_mem _ mem_cons_self)
    rcases hs with ⟨hs, hd⟩ | ⟨hd, hs⟩
    · obtain ⟨q, hid, hq⟩ := (exists_getSidePeers_account h).2 ⟨hne, (inDestination_iff hlB).2 hd⟩
      exact ⟨hm, (pol, rule), hpr, q, hid, .inl
        ⟨(getSidePeers_account_snd A zone h _ _ _ A).2 ((inSource_iff h hlA).2 hs), hq⟩⟩
    · obtain ⟨q, hid, hq⟩ := (exists_getSidePeers_account h).2 ⟨hne, (inSource_iff h hlB).2 hs⟩
      exact ⟨hm, (pol, rule), hpr, q, hid, .inr
        ⟨(getSidePeers_account_snd A zone h _ _ _ A).2 ((inDestination_iff hlA).2 hd), hq⟩⟩

theorem letsIn_account {res : NetworkResource} {p : String} :
    (nmd.accountComponents env A zone).LetsIn res p ↔ nmd.ResourceSource env res p := by
  unfold LetsIn ResourceSource
  simp only [validate_account h]
  rfl

/-- Apart from `A` itself, the routers that serve `A` are all the routers, when `A` is none and may
use the resource. -/
theorem serves_account (hne : B ≠ A) (hB : B ∈ nmd.peers) (hv : nmd.isValidated B)
    {res : NetworkResource} :
    (∃ rid info, (nmd.accountComponents env A zone).Serves res rid ∧
      (nmd.accountComponents env A zone).getPeerInfo rid = some info ∧ info.id = B) ↔
      A ∉ nmd.networkRouters res.networkID ∧ nmd.ResourceSource env res A ∧
        B ∈ nmd.networkRouters res.networkID := by
  constructor
  · rintro ⟨rid, info, ⟨hrd, -, hs⟩, hi, rfl⟩
    obtain rfl := h.peer_id rid info (getPeerInfo_account.1 hi).2
    split at hs
    · exact absurd hs hne
    · rename_i hno
      exact ⟨hno, (letsIn_account h).1 hs, hrd⟩
  · rintro ⟨hno, hs, hrd⟩
    obtain ⟨info, hi⟩ := mem_iff_lookup.1 hB
    obtain ⟨pol, hp, -⟩ := id hs
    refine ⟨B, info, ⟨hrd, ne_nil_of_mem (mem_filter.1 hp).1, ?_⟩,
      getPeerInfo_account.2 ⟨hv, hi⟩, h.peer_id B info hi⟩
    rw [if_neg (by exact hno)]
    exact (letsIn_account h).2 hs

theorem routingPartner_account (hne : B ≠ A) (hB : B ∈ nmd.peers) (hv : nmd.isValidated B) :
    (nmd.accountComponents env A zone).RoutingPartner B ↔ nmd.ResourceConnected env A B := by
  refine exists_congr fun res => ?_
  have he : res ∈ (nmd.accountComponents env A zone).networkResources ∧ res.enabled ↔
      res ∈ nmd.networkResources ∧ res.enabled := by
    rw [← mem_filter, enabledResources_account, mem_filter]
  rw [← and_assoc, he, and_assoc, letsIn_account h, serves_account h hne hB hv]
  rfl

end

/-! ### Who sees whom -/

/-- A validated peer sees another one exactly when a policy or a network resource connects
them. -/
theorem sees_iff {zone : CustomZone} (h : nmd.WellFormed env)
    (hall : ∀ p ∈ [A, B], AllHolds nmd.groups p) (hf : nmd.ResourcePoliciesInForce)
    (hA : A ∈ nmd.peers) (hv : nmd.isValidated A) (hB : B ∈ nmd.peers) (hvl : nmd.isValidated B) :
    nmd.Sees env zone A B ↔ B ≠ A ∧ (nmd.injectProxyPolicies.PolicyConnected env A B ∨
      nmd.injectProxyPolicies.ResourceConnected env A B) := by
  obtain ⟨peer, hpr⟩ := mem_iff_lookup.1 hA
  let t := Target.inject ⟨A, peer, zone, h, hpr, hv, hall A mem_cons_self⟩
  have hB' : B ∈ nmd.injectProxyPolicies.peers ∧ nmd.injectProxyPolicies.isValidated B := by
    rw [injectProxy_eq]
    exact ⟨hB, hvl⟩
  obtain ⟨hp, ho⟩ := calculate_peers_slice t hf.inject
  have hid : t.account.peerID = A := rfl
  have hA' : A ∈ nmd.injectProxyPolicies.peers := t.mem
  have hl' : ∀ p ∈ [A, B], AllHolds nmd.injectProxyPolicies.groups p := by
    rw [injectProxy_eq]
    exact hall
  unfold Sees getPeerNetworkMapComponents
  rw [t.peerComponents_eq, hp, ho, mem_ids_calculate fun pid info hi =>
      h.inject.peer_id pid info (getPeerInfo_account.1 hi).2]
  rw [hid, policyPartner_account h.inject hl' hA' t.valid]
  by_cases hne : B = A
  · simp [hne]
  · rw [routingPartner_account h.inject hne hB'.1 hB'.2]
    simp [hne]

/-- Visibility is symmetric between two validated peers that are source peers of the same
resources among those they both route. -/
theorem sees_comm (nmd : NetworkMapData) (env : Env) (zone zone' : CustomZone) (A B : String)
    (h : nmd.WellFormed env) (hforce : nmd.ResourcePoliciesInForce) (hA : A ∈ nmd.peers)
    (hvalA : nmd.isValidated A) (hallA : AllHolds nmd.groups A) (hB : B ∈ nmd.peers)
    (hvalB : nmd.isValidated B) (hallB : AllHolds nmd.groups B)
    (halike : nmd.injectProxyPolicies.RoutersAlike env A B) :
    nmd.Sees env zone A B ↔ nmd.Sees env zone' B A := by
  rw [sees_iff h (by simp [hallA, hallB]) hforce hA hvalA hB hvalB,
    sees_iff h (by simp [hallA, hallB]) hforce hB hvalB hA hvalA]
  constructor
  · rintro ⟨hne, hc | hc⟩
    · exact ⟨hne.symm, .inl hc.symm⟩
    · exact ⟨hne.symm, .inr (hc.symm halike)⟩
  · rintro ⟨hne, hc | hc⟩
    · exact ⟨hne.symm, .inl hc.symm⟩
    · exact ⟨hne.symm, .inr (hc.symm halike.symm)⟩

/-! ### Two routers of one resource -/

/-- Two routers of a network, and a policy that lets the members of a group use a resource of
it. -/
def twoRouters (users : List String) : NetworkMapData :=
  let policy : Policy :=
    { id := "p"
      rules := [{ id := "r", sources := ["users"], destinationResource := ⟨"db", resourceTypeHost⟩ }] }
  { peers := (AList.insert "a" { id := "a", key := "k1", ip := .from4 100 64 0 1 } ∅).insert
      "b" { id := "b", key := "k2", ip := .from4 100 64 0 2 }
    groups := AList.insert "users" { id := "users", peers := users } ∅
    policies := [policy]
    networkResources := [{ id := "db", networkID := "net", type := resourceTypeHost }]
    validatedPeers := ["a", "b"]
    resourcePolicies := AList.insert "db" [policy] ∅
    routers := AList.insert "net" ((AList.insert "a" {} ∅).insert "b" {}) ∅ }

theorem wellFormed_twoRouters (users : List String) (env : Env) :
    (twoRouters users).WellFormed env where
  peer_id := forall_of_entries (by change ∀ e ∈ (twoRouters []).peers.entries, _; decide)
  check_id := notMem_empty ""
  cached checkID p peer valid _ hc := by
    simp [twoRouters, cachedPostureCheckResult] at hc

theorem allHolds_twoRouters (users : List String) (p : String) :
    AllHolds (twoRouters users).groups p := by
  intro gid g hg ha
  obtain ⟨-, rfl⟩ | ⟨-, hg⟩ := lookup_insert_some.1 hg
  · simp [Group.isGroupAll, groupAllName] at ha
  · simp at hg

theorem resourcePoliciesInForce_twoRouters (users : List String) :
    (twoRouters users).ResourcePoliciesInForce := by
  refine ⟨forall_of_entries ?_, forall_of_entries ?_⟩
  all_goals
    change ∀ e ∈ (twoRouters []).resourcePolicies.entries, _
    decide +kernel

/-- A router sees the other router when that one may use the resource; the other does not see
it. -/
theorem router_sees_source_router :
    (twoRouters ["b"]).WellFormed Env.plain ∧ (twoRouters ["b"]).ResourcePoliciesInForce ∧
      "a" ∈ (twoRouters ["b"]).peers ∧ (twoRouters ["b"]).isValidated "a" ∧
      "b" ∈ (twoRouters ["b"]).peers ∧ (twoRouters ["b"]).isValidated "b" ∧
      (∀ p, AllHolds (twoRouters ["b"]).groups p) ∧
      (twoRouters ["b"]).Sees Env.plain {} "a" "b" ∧ ¬(twoRouters ["b"]).Sees Env.plain {} "b" "a" :=
  ⟨wellFormed_twoRouters _ _, resourcePoliciesInForce_twoRouters _, by decide +kernel,
    by decide +kernel, by decide +kernel, by decide +kernel, allHolds_twoRouters _, by decide +kernel,
    by decide +kernel⟩

theorem sees_comm_twoRouters : (twoRouters ["a", "b"]).Sees Env.plain {} "a" "b" ↔
      (twoRouters ["a", "b"]).Sees Env.plain {} "b" "a" := by
  refine sees_comm _ _ _ _ _ _ (wellFormed_twoRouters _ _) (resourcePoliciesInForce_twoRouters _)
    (by decide +kernel) (by decide +kernel) (allHolds_twoRouters _ _) (by decide +kernel)
    (by decide +kernel) (allHolds_twoRouters _ _) ?_
  have hs (p : String) (hp : p ∈ ["a", "b"]) : (twoRouters ["a", "b"]).ResourceSource Env.plain
      { id := "db", networkID := "net", type := resourceTypeHost } p := by
    refine ⟨_, mem_cons_self, ?_, ?_, ?_, by simp⟩
    all_goals
      rcases mem_cons.1 hp with rfl | hp
      · decide +kernel
      · rw [mem_singleton.1 hp]
        decide +kernel
  intro resource hr _ _ _
  obtain rfl := mem_singleton.1 hr
  exact ⟨fun _ => hs "b" (by simp), fun _ => hs "a" (by simp)⟩

end NetworkMapData

end Cloink
