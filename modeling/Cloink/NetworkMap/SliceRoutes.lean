import Cloink.NetworkMap.Connections
import Cloink.NetworkMap.SliceConnections

/-!
# Routes over the slice

Slicing leaves out the routes that neither the peer serves nor one of its groups receives. A
serving peer takes each route id once, so leaving a route out only goes unnoticed when no other
route takes its id.
-/

namespace Cloink

open NetworkMapComponents List

namespace NetworkMapComponents

/-- Taking each id once, for the routes that are kept, when routes with one id are kept or left
out together. -/
theorem filter_foldl_takeRoute {p : Route → Bool} (l taken : List Route)
    (hp : ∀ a ∈ taken ++ l, ∀ b ∈ taken ++ l, a.id = b.id → p a = p b) :
    (l.foldl takeRoute taken).filter p = (l.filter p).foldl takeRoute (taken.filter p) := by
  induction l generalizing taken with
  | nil => rfl
  | cons x l ih =>
    have hs : (takeRoute taken x).filter p =
        if p x then takeRoute (taken.filter p) x else taken.filter p := by
      have hm : p x → (x.id ∈ (taken.filter p).map (·.id) ↔ x.id ∈ taken.map (·.id)) := by
        intro hx
        simp only [mem_map, mem_filter]
        constructor
        · rintro ⟨a, ⟨ha, -⟩, he⟩
          exact ⟨a, ha, he⟩
        · rintro ⟨a, ha, he⟩
          exact ⟨a, ⟨ha, (hp a (by simp [ha]) x (by simp) he).trans hx⟩, he⟩
      unfold takeRoute
      cases hx : p x with
      | false => split <;> simp [hx]
      | true =>
        by_cases ht : x.id ∈ taken.map (·.id)
        · rw [if_pos ht, if_pos rfl, if_pos ((hm hx).2 ht)]
        · rw [if_neg ht, if_pos rfl, if_neg fun h => ht ((hm hx).1 h)]
          simp [hx]
    have hsb : takeRoute taken x ++ l ⊆ taken ++ x :: l := by
      unfold takeRoute
      split
      · exact append_subset.2 ⟨subset_append_left _ _,
          subset_append_of_subset_right _ (subset_cons_self x l)⟩
      · simp
    rw [foldl_cons, ih _ fun a ha b hb => hp a (hsb ha) b (hsb hb), hs]
    cases hx : p x with
    | false => rw [filter_cons_of_neg (by simp [hx])]; rfl
    | true => rw [filter_cons_of_pos hx, foldl_cons]; rfl

theorem mem_of_mem_foldl_takeRoute {l taken : List Route} {r : Route}
    (hr : r ∈ l.foldl takeRoute taken) : r ∈ taken ∨ r ∈ l := by
  induction l generalizing taken with
  | nil => exact .inl hr
  | cons x l ih =>
    rcases ih hr with hr | hr
    · unfold takeRoute at hr
      split at hr
      · exact .inl hr
      · rcases mem_append.1 hr with hr | hr
        · exact .inl hr
        · exact .inr (mem_singleton.1 hr ▸ mem_cons_self)
    · exact .inr (mem_cons_of_mem x hr)

section

variable (q key : String) (e : Route × Bool)

@[simp] theorem peerRoute_groups : (peerRoute q key e).groups = e.1.groups := by
  unfold peerRoute
  split <;> rfl

@[simp] theorem peerRoute_accessGroups :
    (peerRoute q key e).accessControlGroups = e.1.accessControlGroups := by
  unfold peerRoute
  split <;> rfl

@[simp] theorem peerRoute_enabled : (peerRoute q key e).enabled = e.1.enabled := by
  unfold peerRoute
  split <;> rfl

end

theorem exists_entry_of_mem_routingRoutes {c : NetworkMapComponents} {q : String} {r : Route}
    (hr : r ∈ (c.getRoutingPeerRoutes q).1) :
    ∃ e ∈ c.routesByPeer q, ∃ key, r = peerRoute q key e ∧ e.1.enabled := by
  unfold getRoutingPeerRoutes at hr
  cases hi : (c.getPeerInfo q).or (c.getRouterPeerInfo q) with
  | none => simp [hi] at hr
  | some info =>
    simp only [hi, mem_filter] at hr
    obtain ⟨e, he, rfl⟩ := mem_map.1 ((mem_of_mem_foldl_takeRoute hr.1).resolve_left not_mem_nil)
    exact ⟨e, he, info.key, rfl, (peerRoute_enabled _ _ _).symm.trans hr.2⟩

end NetworkMapComponents

namespace NetworkMapData

variable {nmd : NetworkMapData} {env : Env} {P : String} {peer : Peer} {zone : CustomZone}

/-- No two routes have the same id, and none has the id another gets when a peer serves it
through a group. -/
structure RouteIDsDistinct (nmd : NetworkMapData) : Prop where
  inj : ∀ r ∈ nmd.routes, ∀ r' ∈ nmd.routes, r.id = r'.id → r = r'
  plain : ∀ r ∈ nmd.routes, ∀ r' ∈ nmd.routes, ∀ q, r.id ≠ r'.id ++ ":" ++ q

/-- The entries of a route under a peer that serves it. -/
def routeEntries (groups : StrMap Group) (q : String) (r : Route) : List (Route × Bool) :=
  (r.peerGroups.flatMap fun groupID => match groups.lookup groupID with
    | none => []
    | some group => (group.peers.filter (· = q)).map fun _ => (r, true)) ++
  if r.peer ≠ "" && r.peer = q then [(r, false)] else []

theorem routesByPeer_eq (c : NetworkMapComponents) (q : String) :
    c.routesByPeer q = c.routes.flatMap (routeEntries c.groups q) := rfl

theorem fst_of_mem_routeEntries {groups : StrMap Group} {q : String} {r : Route}
    {e : Route × Bool} (h : e ∈ routeEntries groups q r) : e.1 = r := by
  rcases mem_append.1 h with h | h
  · obtain ⟨gid, -, h⟩ := mem_flatMap.1 h
    cases hg : groups.lookup gid with
    | none => simp [hg] at h
    | some g =>
      simp only [hg, mem_map] at h
      obtain ⟨-, -, rfl⟩ := h
      rfl
  · split at h
    · rw [mem_singleton.1 h]
    · cases h

/-- Routes of a peer with one id come from one route. -/
theorem RouteIDsDistinct.eq_of_peerRoute_id (hd : nmd.RouteIDsDistinct) {q key : String}
    {a b : Route × Bool} (ha : a.1 ∈ nmd.routes) (hb : b.1 ∈ nmd.routes)
    (h : (peerRoute q key a).id = (peerRoute q key b).id) : a.1 = b.1 := by
  obtain ⟨r, g⟩ := a
  obtain ⟨r', g'⟩ := b
  unfold peerRoute at h
  cases g <;> cases g'
  · exact hd.inj r ha r' hb h
  · exact absurd h (hd.plain r ha r' hb q)
  · exact absurd h.symm (hd.plain r' hb r ha q)
  · refine hd.inj r ha r' hb ?_
    have h' : r.id ++ (":" ++ q) = r'.id ++ (":" ++ q) := by simpa [String.append_assoc] using h
    exact String.append_left_inj _ |>.1 h'

theorem routeEntries_self_irrelevant {r : Route} (hr : nmd.routeRelevant P r = false) :
    routeEntries nmd.groups P r = [] := by
  simp only [routeRelevant, Bool.or_eq_false_iff, decide_eq_false_iff_not] at hr
  obtain ⟨⟨hne, hgr⟩, -⟩ := hr
  unfold routeEntries
  rw [append_eq_nil_iff]
  refine ⟨flatMap_eq_nil_iff.2 fun gid hgd => ?_, if_neg (by simp [hne])⟩
  cases hg : nmd.groups.lookup gid with
  | none => rfl
  | some g =>
    simp only [map_eq_nil_iff, filter_eq_nil_iff, decide_eq_true_eq]
    rintro p hp rfl
    have hm : gid ∈ nmd.getPeerGroups p := mem_memberGroups.2 ⟨g, hg, hp⟩
    exact absurd (any_eq_true.2 ⟨gid, hgd, contains_iff_mem.2 hm⟩) (by simp [hgr])

/-- The route is enabled and distributed to one of the groups of the peer. -/
def sentTo (nmd : NetworkMapData) (P : String) (r : Route) : Bool :=
  r.enabled && r.groups.any (nmd.getPeerGroups P).contains

theorem sentTo_peerRoute (q key : String) (e : Route × Bool) :
    nmd.sentTo P (peerRoute q key e) = nmd.sentTo P e.1 := by
  unfold peerRoute
  split <;> rfl

/-- What is sent of the routes a peer serves: selecting them before or after taking each id once
is the same. -/
theorem sent_foldl_takeRoute (hd : nmd.RouteIDsDistinct) (q key : String)
    {entries : List (Route × Bool)} (he : ∀ e ∈ entries, e.1 ∈ nmd.routes) :
    ((entries.map (peerRoute q key)).foldl takeRoute []).filter (nmd.sentTo P) =
      ((entries.map (peerRoute q key)).filter (nmd.sentTo P)).foldl takeRoute [] := by
  refine filter_foldl_takeRoute _ [] fun a ha b hb hid => ?_
  obtain ⟨x, hx, rfl⟩ := mem_map.1 ha
  obtain ⟨y, hy, rfl⟩ := mem_map.1 hb
  rw [sentTo_peerRoute, sentTo_peerRoute, hd.eq_of_peerRoute_id (he x hx) (he y hy) hid]

section

variable (t : nmd.Target env)

theorem routes_slice : t.slice.routes = nmd.routes.filter (nmd.routeRelevant t.id) :=
  (routes_collected t).trans (relevant_routes t.id t.peer.sshEnabled t.wf.noEmptyCheck)

theorem contains_getPeerGroups_slice : (t.slice.getPeerGroups t.id).contains =
      (nmd.getPeerGroups t.id).contains := by
  have hs := sound_collected t
  have hsl := self_collected t
  funext gid
  rw [Bool.eq_iff_iff, contains_iff_mem, contains_iff_mem]
  refine mem_memberGroups.trans (Iff.trans ?_ mem_memberGroups.symm)
  have hi : InGroups t.slice.groups [gid] t.id ↔ InGroups nmd.groups [gid] t.id :=
    inGroups_filterPeers hs.groups_sub hsl fun gid g hg hp =>
      own_groups_collected t hg hp
  simpa [InGroups] using hi

variable {q : String}

/-- A peer that is kept serves the same relevant routes. -/
theorem routeEntries_slice (hq : q ∈ t.collected.peers) {r : Route}
    (hr : r ∈ nmd.routes) (hrl : nmd.routeRelevant t.id r) :
    routeEntries t.slice.groups q r = routeEntries nmd.groups q r := by
  refine congrArg (· ++ _) (flatMap_congr fun gid hg => ?_)
  have hl := lookup_group_slice t fun hm =>
    (base_le_collected t).2.1 gid
      (relevant_route_groups t.id t.peer.sshEnabled t.wf.noEmptyCheck hr hrl
        (by simp [routeGroupIDs, hg]) hm)
  rw [hl]
  cases nmd.groups.lookup gid with
  | none => rfl
  | some g =>
    simp only [Option.map_some]
    rw [filter_filter]
    congr 1
    refine filter_congr fun p _ => ?_
    by_cases hpq : p = q
    · simp [hpq, hq]
    · simp [hpq]

theorem routesByPeer_slice (hq : q ∈ t.collected.peers) : t.slice.routesByPeer q =
      (nmd.routes.filter (nmd.routeRelevant t.id)).flatMap (routeEntries nmd.groups q) := by
  rw [routesByPeer_eq, routes_slice t]
  refine flatMap_congr fun r hr => ?_
  obtain ⟨hr, hrl⟩ := mem_filter.1 hr
  exact routeEntries_slice t hq hr hrl

/-- The routes that the peer itself serves are those of the account. -/
theorem routingRoutes_self_slice : t.slice.getRoutingPeerRoutes t.id =
      t.account.getRoutingPeerRoutes t.id := by
  have hs := self_collected t
  have hr : t.slice.routesByPeer t.id = t.account.routesByPeer t.id := by
    rw [routesByPeer_slice t hs]
    exact flatMap_filter_eq fun r _ hrl => routeEntries_self_irrelevant hrl
  have hi := getPeerInfo_slice t hs
  unfold getRoutingPeerRoutes
  rw [hi, t.getPeerInfo_self, hr]
  rfl

/-- Of another peer, the routes sent to the peer are the same. -/
theorem filterRoutesByGroups_slice (hd : nmd.RouteIDsDistinct)
    (hq : q ∈ t.collected.peers) : filterRoutesByGroups (t.slice.getRoutingPeerRoutes q).1
        (t.slice.getPeerGroups t.id) =
      filterRoutesByGroups (t.account.getRoutingPeerRoutes q).1 (t.account.getPeerGroups t.id) := by
  obtain ⟨info, hi⟩ := AList.mem_iff_lookup.1 hq
  have hs : t.slice.getPeerInfo q = some info := hi
  have ha := (getPeerInfo_slice t hq).symm.trans hs
  have hsn (l : List Route) : filterRoutesByGroups (l.filter (·.enabled))
        (t.slice.getPeerGroups t.id) = l.filter (nmd.sentTo t.id) ∧
      filterRoutesByGroups (l.filter (·.enabled))
        (t.account.getPeerGroups t.id) = l.filter (nmd.sentTo t.id) := by
    unfold filterRoutesByGroups sentTo
    rw [filter_filter, filter_filter, contains_getPeerGroups_slice t]
    exact ⟨filter_congr fun r _ => Bool.and_comm _ _, filter_congr fun r _ => Bool.and_comm _ _⟩
  have hf {l : List Route} {e : Route × Bool}
      (he : e ∈ l.flatMap (routeEntries nmd.groups q)) : e.1 ∈ l := by
    obtain ⟨r, hr, he⟩ := mem_flatMap.1 he
    rwa [fst_of_mem_routeEntries he]
  have hrt : t.account.routesByPeer q = nmd.routes.flatMap (routeEntries nmd.groups q) := rfl
  unfold getRoutingPeerRoutes
  rw [hs, ha, routesByPeer_slice t hq, hrt]
  dsimp only [Option.or]
  rw [(hsn _).1, (hsn _).2, sent_foldl_takeRoute hd _ _ fun e he => hf he,
    sent_foldl_takeRoute hd _ _ fun e he => mem_of_mem_filter (hf he)]
  congr 1
  rw [map_flatMap, map_flatMap, filter_flatMap, filter_flatMap]
  refine flatMap_filter_eq fun r _ hrl => ?_
  rw [filter_eq_nil_iff]
  rintro x hx
  obtain ⟨e, he, rfl⟩ := mem_map.1 hx
  rw [sentTo_peerRoute, fst_of_mem_routeEntries he]
  intro hsr
  have hr' : nmd.routeRelevant t.id r := Bool.or_eq_true_iff.2 (.inr hsr)
  simp [hrl] at hr'

/-- The routes to sync are the same. -/
theorem routesToSync_slice (hd : nmd.RouteIDsDistinct) {acl : List Peer}
    (ha : ∀ q ∈ acl, q.id ∈ t.collected.peers) :
    t.slice.getRoutesToSync env t.id acl (t.slice.getPeerGroups t.id) =
      t.account.getRoutesToSync env t.id acl (t.account.getPeerGroups t.id) := by
  unfold getRoutesToSync
  rw [routingRoutes_self_slice t]
  refine congrArg _ (flatMap_congr fun q hq => ?_)
  rw [filterRoutesByGroups_slice t hd (ha q hq)]

/-! ### Name servers -/

/-- So are the name server groups. -/
theorem nsGroups_slice : t.slice.getPeerNSGroupsFromGroups t.id (t.slice.getPeerGroups t.id) =
      t.account.getPeerNSGroupsFromGroups t.id (t.account.getPeerGroups t.id) := by
  have ha : t.account.getPeerGroups t.id = nmd.getPeerGroups t.id := rfl
  have hns : t.slice.nameServerGroups = t.base.nameServerGroups := by
    have hf := congrArg NetworkMapComponents.nameServerGroups (frame_collected t)
    exact hf
  unfold getPeerNSGroupsFromGroups
  rw [getPeerInfo_slice t (self_collected t), contains_getPeerGroups_slice t, ha, hns]
  cases t.account.getPeerInfo t.id with
  | none => rfl
  | some info =>
    change (List.filter _ (List.filter _ nmd.nameServerGroups)) = List.filter _ nmd.nameServerGroups
    rw [filter_filter]
    refine filter_congr fun ns _ => ?_
    -- a group of the peer that the name servers are given to is part of the slice
    cases han : ns.groups.any (nmd.getPeerGroups t.id).contains with
    | false => simp
    | true =>
      obtain ⟨gid, hgd, hin⟩ := any_eq_true.1 han
      obtain ⟨g, hg, hpg⟩ := mem_memberGroups.1 (contains_iff_mem.1 hin)
      have hr : ns.groups.any (fun gid => decide
          (gid ∈ (nmd.getPeersGroupsPoliciesRoutes env t.id t.peer.sshEnabled).groups)) = true :=
        any_eq_true.2 ⟨gid, hgd,
          decide_eq_true (relevant_own_groups t.id t.peer.sshEnabled t.wf.noEmptyCheck hg hpg)⟩
      rw [hr]
      cases ns.enabled <;> simp

end

end NetworkMapData

end Cloink
