import Cloink.Lib.Interleaving
import Cloink.NetworkMap.Data

/-!
# Status watchers of routing peers

The watcher of a network's routes (`client/internal/routemanager/client/client.go`) has a goroutine
for each peer with a route, and a channel by which it ends it. The channels are kept by peer, while
an update is compared with the routes by route id: a route that goes closes the channel of its peer,
and one that keeps its id and changes its peer closes none. The loops over maps come in any order.
-/

namespace Cloink.RouteManager

open Interleaving AList List

/-- The channels are numbered as they are made. -/
structure Watcher where
  routes : StrMap Route := ∅
  routePeersNotifiers : StrMap Nat := ∅
  made : Nat := 0
  closed : List Nat := []
  /-- The goroutines started, with their peers and channels. -/
  goroutines : List (String × Nat) := []

/-- An update, with the orders in which the maps of the old and of the new routes are gone through. -/
structure RoutesUpdate where
  routes : List Route
  oldOrder : List Route
  newOrder : List Route

/-- The routes of a map. -/
def routesOf (m : StrMap Route) : List Route := m.entries.map (·.2)

def RoutesUpdate.updateMap (u : RoutesUpdate) : StrMap Route :=
  u.routes.foldl (fun m r => m.insert r.id r) ∅

namespace Watcher

/-- A channel that is nil or closed cannot be closed. -/
def closeNotifier (w : Watcher) (peer : String) : Option Watcher :=
  match w.routePeersNotifiers.lookup peer with
  | none => none
  | some c =>
    if c ∈ w.closed then none
    else
      some { w with
        closed := c :: w.closed
        routePeersNotifiers := w.routePeersNotifiers.erase peer }

def classifyUpdate (w : Watcher) (u : RoutesUpdate) : Option Watcher :=
  ((u.oldOrder.filter fun r => r.id ∉ u.updateMap).map (·.peer)).foldlM closeNotifier w |>.map
    fun w => { w with routes := u.updateMap }

def startNewPeerStatusWatcher (w : Watcher) (peer : String) : Watcher :=
  if peer ∈ w.routePeersNotifiers then w
  else { w with
    routePeersNotifiers := w.routePeersNotifiers.insert peer w.made
    made := w.made + 1
    goroutines := (peer, w.made) :: w.goroutines }

def handleRouteUpdate (w : Watcher) (u : RoutesUpdate) : Option Watcher :=
  (w.classifyUpdate u).map fun w =>
    (u.newOrder.map (·.peer)).foldl startNewPeerStatusWatcher w

/-- The goroutines that have not been told to end. -/
def running (w : Watcher) : List (String × Nat) := w.goroutines.filter (·.2 ∉ w.closed)

def peers (m : StrMap Route) : List String := (routesOf m).map (·.peer)

/-- The peers of the routes that go. -/
def leaving (w : Watcher) (m : StrMap Route) : List String :=
  ((routesOf w.routes).filter fun r => r.id ∉ m).map (·.peer)

/-- The orders are those of the maps. -/
def Ordered (w : Watcher) (u : RoutesUpdate) : Prop :=
  u.oldOrder.Perm (routesOf w.routes) ∧ u.newOrder.Perm (routesOf u.updateMap)

/-- No two routes of one peer go, and a peer that has no route any more is one of a route that
goes. -/
def ByPeer (w : Watcher) (u : RoutesUpdate) : Prop :=
  (w.leaving u.updateMap).Nodup ∧
    ∀ peer ∈ peers w.routes, peer ∈ w.leaving u.updateMap ∨ peer ∈ peers u.updateMap

instance (w : Watcher) (u : RoutesUpdate) : Decidable (w.Ordered u) :=
  inferInstanceAs (Decidable (_ ∧ _))

instance (w : Watcher) (u : RoutesUpdate) : Decidable (w.ByPeer u) :=
  inferInstanceAs (Decidable (_ ∧ _))

/-- The channels that are kept are the open ones, each with one goroutine. -/
structure Sound (w : Watcher) : Prop where
  lookup_iff : ∀ peer c, w.routePeersNotifiers.lookup peer = some c ↔ (peer, c) ∈ w.running
  nodup : (w.goroutines.map Prod.snd).Nodup
  lt_made : ∀ g ∈ w.goroutines, g.2 < w.made
  closed_lt : ∀ c ∈ w.closed, c < w.made

/-- The notifiers are those of the peers of the routes. -/
structure Follows (w : Watcher) : Prop extends Sound w where
  mem_iff : ∀ peer, peer ∈ w.routePeersNotifiers ↔ peer ∈ peers w.routes

variable {w w' : Watcher} {u : RoutesUpdate} {peer : String}

theorem mem_running {g : String × Nat} : g ∈ w.running ↔ g ∈ w.goroutines ∧ g.2 ∉ w.closed := by
  simp [running]

theorem Sound.closeNotifier (h : w.Sound) (hp : peer ∈ w.routePeersNotifiers) :
    ∃ w', w.closeNotifier peer = some w' ∧ w'.Sound ∧
      w'.routePeersNotifiers = w.routePeersNotifiers.erase peer := by
  obtain ⟨c, hc⟩ := mem_iff_lookup.1 hp
  obtain ⟨hg, hnc⟩ := mem_running.1 ((h.lookup_iff peer c).1 hc)
  have hcl : w.closeNotifier peer = some { w with
      closed := c :: w.closed
      routePeersNotifiers := w.routePeersNotifiers.erase peer } := by
    rw [Watcher.closeNotifier, hc]
    exact if_neg hnc
  refine ⟨_, hcl, ⟨fun q d => ?_, h.nodup, h.lt_made, ?_⟩, rfl⟩
  · -- another goroutine has another channel
    have hne : q ≠ peer → (q, d) ∈ w.goroutines → d ≠ c := by
      rintro hq hgd rfl
      exact hq (congrArg Prod.fst (inj_on_of_nodup_map h.nodup hgd hg rfl))
    rw [lookup_erase_some, h.lookup_iff, mem_running, mem_running, mem_cons, not_or]
    constructor
    · rintro ⟨hq, hgd, hd⟩
      exact ⟨hgd, hne hq hgd, hd⟩
    · rintro ⟨hgd, hdc, hd⟩
      refine ⟨fun hq => hdc ?_, hgd, hd⟩
      have hl := (h.lookup_iff q d).2 (mem_running.2 ⟨hgd, hd⟩)
      rw [hq, hc] at hl
      exact (Option.some.inj hl).symm
  · intro d hd
    rcases mem_cons.1 hd with rfl | hd
    · exact h.lt_made _ hg
    · exact h.closed_lt d hd

/-- Channels are closed without a fault exactly when no peer comes twice and each has one. -/
theorem Sound.closeNotifiers (h : w.Sound) (l : List String) :
    (l.Nodup ∧ (∀ peer ∈ l, peer ∈ w.routePeersNotifiers) ∧
      ∃ w', l.foldlM Watcher.closeNotifier w = some w' ∧ w'.Sound ∧
        ∀ peer, peer ∈ w'.routePeersNotifiers ↔ peer ∈ w.routePeersNotifiers ∧ peer ∉ l) ∨
    ¬(l.Nodup ∧ ∀ peer ∈ l, peer ∈ w.routePeersNotifiers) ∧
      l.foldlM Watcher.closeNotifier w = none := by
  induction l generalizing w with
  | nil => exact .inl ⟨nodup_nil, by simp, w, rfl, h, by simp⟩
  | cons p l ih =>
    rw [foldlM_cons]
    by_cases hp : p ∈ w.routePeersNotifiers
    · obtain ⟨w₁, hw₁, hs₁, hn⟩ := h.closeNotifier hp
      rw [hw₁, Option.bind_eq_bind, Option.bind_some]
      rcases ih hs₁ with ⟨hnd, hm, w₂, hw₂, hs₂, hiff⟩ | ⟨hnot, hnone⟩
      · rw [hn] at hm hiff
        refine .inl ⟨nodup_cons.2 ⟨fun hpl => ?_, hnd⟩, ?_, w₂, hw₂, hs₂, fun q => ?_⟩
        · simpa using hm p hpl
        · rintro q (_ | ⟨_, hq⟩)
          · exact hp
          · exact (mem_erase.1 (hm q hq)).2
        · rw [hiff, mem_erase, mem_cons, not_or]
          tauto
      · refine .inr ⟨fun ⟨hnd, hm⟩ => hnot ⟨(nodup_cons.1 hnd).2, fun q hq => ?_⟩, hnone⟩
        rw [hn, mem_erase]
        exact ⟨fun e => (nodup_cons.1 hnd).1 (e ▸ hq), hm q (mem_cons_of_mem p hq)⟩
    · refine .inr ⟨fun ⟨_, hm⟩ => hp (hm p mem_cons_self), ?_⟩
      rw [Watcher.closeNotifier, lookup_eq_none.2 hp]
      rfl

theorem Sound.startNewPeerStatusWatcher (h : w.Sound) (peer : String) :
    (w.startNewPeerStatusWatcher peer).Sound := by
  unfold Watcher.startNewPeerStatusWatcher
  split
  · exact h
  next hp =>
    refine ⟨fun q d => ?_, ?_, ?_, fun c hc => Nat.lt_succ_of_lt (h.closed_lt c hc)⟩
    · have hnew : w.made ∉ w.closed := fun hc => absurd (h.closed_lt _ hc) (lt_irrefl _)
      have hold : q = peer → (q, d) ∉ w.running := by
        rintro rfl hg
        exact hp (mem_of_lookup ((h.lookup_iff q d).2 hg))
      rw [lookup_insert_some, h.lookup_iff, mem_running, mem_running, mem_cons, Prod.mk.injEq]
      rw [mem_running] at hold
      grind
    · refine nodup_cons.2 ⟨fun hm => ?_, h.nodup⟩
      obtain ⟨g, hg, he⟩ := mem_map.1 hm
      exact absurd (he ▸ h.lt_made g hg) (lt_irrefl _)
    · rintro g (_ | ⟨_, hg⟩)
      · exact Nat.lt_succ_self _
      · exact Nat.lt_succ_of_lt (h.lt_made g hg)

theorem startNewPeerStatusWatchers_spec (h : w.Sound) (l : List String) :
    let w' := l.foldl startNewPeerStatusWatcher w
    w'.Sound ∧ w'.routes = w.routes ∧
      ∀ peer, peer ∈ w'.routePeersNotifiers ↔ peer ∈ w.routePeersNotifiers ∨ peer ∈ l := by
  induction l generalizing w with
  | nil => exact ⟨h, rfl, by simp⟩
  | cons p l ih =>
    obtain ⟨hs, hr, hm⟩ := ih (h.startNewPeerStatusWatcher p)
    refine ⟨hs, hr.trans ?_, fun q => (hm q).trans ?_⟩
    · unfold Watcher.startNewPeerStatusWatcher
      split <;> rfl
    · have hq : q ∈ (w.startNewPeerStatusWatcher p).routePeersNotifiers ↔
          q ∈ w.routePeersNotifiers ∨ q = p := by
        unfold Watcher.startNewPeerStatusWatcher
        split
        next hp =>
          refine ⟨.inl, ?_⟩
          rintro (hq | rfl)
          · exact hq
          · exact hp
        · rw [AList.mem_insert, or_comm]
      rw [hq, mem_cons, or_assoc]

/-- An update is handled without a fault, and the notifiers follow the routes again, exactly when it
is one by peers. -/
theorem Follows.handleRouteUpdate_iff (h : w.Follows) (ho : w.Ordered u) :
    (∃ w', w.handleRouteUpdate u = some w' ∧ w'.Follows) ↔ w.ByPeer u := by
  have hl : ((u.oldOrder.filter fun r => r.id ∉ u.updateMap).map (·.peer)).Perm
      (w.leaving u.updateMap) := (ho.1.filter _).map _
  have hin : ∀ peer ∈ w.leaving u.updateMap, peer ∈ w.routePeersNotifiers := by
    intro peer hp
    rw [h.mem_iff]
    exact (filter_sublist.map _).subset hp
  unfold Watcher.handleRouteUpdate Watcher.classifyUpdate
  rcases h.closeNotifiers ((u.oldOrder.filter fun r => r.id ∉ u.updateMap).map (·.peer)) with
    ⟨hnd, -, w₁, hw₁, hs₁, hm₁⟩ | ⟨hnot, hnone⟩
  · have hs : Sound { w₁ with routes := u.updateMap } :=
      ⟨hs₁.lookup_iff, hs₁.nodup, hs₁.lt_made, hs₁.closed_lt⟩
    obtain ⟨hs₂, hr₂, hm₂⟩ := startNewPeerStatusWatchers_spec hs (u.newOrder.map (·.peer))
    have hnew (peer : String) : peer ∈ u.newOrder.map (·.peer) ↔ peer ∈ peers u.updateMap :=
      (ho.2.map _).mem_iff
    rw [hw₁]
    constructor
    · rintro ⟨w', hw', hf⟩
      cases hw'
      refine ⟨hl.nodup_iff.1 hnd, fun peer hp => or_iff_not_imp_left.2 fun hnl => ?_⟩
      have := (hf.mem_iff peer).1 ((hm₂ peer).2 (.inl ((hm₁ peer).2
        ⟨(h.mem_iff peer).2 hp, fun hc => hnl (hl.mem_iff.1 hc)⟩)))
      rwa [hr₂] at this
    · rintro ⟨-, hb⟩
      refine ⟨_, rfl, hs₂, fun peer => ?_⟩
      rw [hm₂, hnew, hr₂]
      refine ⟨?_, .inr⟩
      rintro (hp | hp)
      · obtain ⟨hp, hnl⟩ := (hm₁ peer).1 hp
        exact (hb peer ((h.mem_iff peer).1 hp)).resolve_left fun hc => hnl (hl.mem_iff.2 hc)
      · exact hp
  · rw [hnone]
    simp only [Option.map_none, reduceCtorEq, false_and, exists_false, false_iff]
    exact fun hb => hnot ⟨hl.nodup_iff.2 hb.1, fun peer hp => hin peer (hl.mem_iff.1 hp)⟩

/-- After each of a sequence of updates by peers the notifiers are those of the peers of the routes,
each with an open channel and one goroutine. The next update is handled without a fault and with
the same result exactly when it is one by peers. -/
theorem notifiers_follow (h : Reaches handleRouteUpdate (fun w u => w.Ordered u ∧ w.ByPeer u) {} w) :
    ((∀ peer, peer ∈ w.routePeersNotifiers ↔ peer ∈ peers w.routes) ∧
      (∀ peer c, w.routePeersNotifiers.lookup peer = some c ↔ (peer, c) ∈ w.running) ∧
      w.running.Nodup) ∧
    ∀ u, w.Ordered u → ((∃ w', w.handleRouteUpdate u = some w' ∧ w'.Follows) ↔ w.ByPeer u) := by
  have hf : w.Follows := by
    refine h.invariant ⟨⟨by simp [running], by simp, by simp, by simp⟩, by simp [peers, routesOf]⟩ ?_
    intro w u w' hf ⟨ho, hb⟩ hs
    obtain ⟨w'', hw'', hf'⟩ := (hf.handleRouteUpdate_iff ho).2 hb
    rwa [← Option.some.inj (hw''.symm.trans hs)]
  exact ⟨⟨hf.mem_iff, hf.lookup_iff, hf.nodup.of_map.filter _⟩, fun u => hf.handleRouteUpdate_iff⟩

/-- The route of a peer. -/
def via (id peer : String) : Route := { id, peer }

/-- An update that is gone through in the order of its routes. -/
def inOrder (old new : List Route) : RoutesUpdate := ⟨new, old, new⟩

theorem notifiers_follow_leaving :
    ∃ w, Reaches handleRouteUpdate (fun w u => w.Ordered u ∧ w.ByPeer u) {} w ∧
      peers w.routes = ["b"] ∧ "a" ∉ w.routePeersNotifiers := by
  obtain ⟨w, hr, hw⟩ : ∃ w, Reaches handleRouteUpdate (fun w u => w.Ordered u ∧ w.ByPeer u) {} w ∧
      peers w.routes = ["b"] :=
    exists_reaches [inOrder [] [via "1" "a", via "2" "b"],
      inOrder [via "1" "a", via "2" "b"] [via "2" "b"]] (by decide +kernel)
  refine ⟨w, hr, hw, ?_⟩
  rw [(notifiers_follow hr).1.1, hw]
  decide

/-- Two routes of one peer go, and the second one closes a nil channel. A route that changes its
peer leaves the notifier of the old one. -/
theorem notifiers_stray :
    (∃ w u, Reaches handleRouteUpdate Ordered {} w ∧ w.Ordered u ∧ w.handleRouteUpdate u = none) ∧
    ∃ w, Reaches handleRouteUpdate Ordered {} w ∧ peers w.routes = ["b"] ∧
      "a" ∈ w.routePeersNotifiers := by
  constructor
  · obtain ⟨w, hr, ho, hn⟩ : ∃ w, Reaches handleRouteUpdate Ordered {} w ∧
        w.Ordered (inOrder [via "1" "a", via "2" "a"] []) ∧
        (w.handleRouteUpdate (inOrder [via "1" "a", via "2" "a"] [])).isNone :=
      exists_reaches [inOrder [] [via "1" "a", via "2" "a"]] (by decide +kernel)
    exact ⟨w, _, hr, ho, Option.isNone_iff_eq_none.1 hn⟩
  · exact exists_reaches [inOrder [] [via "1" "a"], inOrder [via "1" "a"] [via "1" "b"]]
      (by decide +kernel)

end Watcher

end Cloink.RouteManager
