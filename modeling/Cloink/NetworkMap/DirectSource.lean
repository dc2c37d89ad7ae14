import Cloink.NetworkMap.RouteRules
import Cloink.NetworkMap.SliceRoutes

/-!
# Peers named directly as a source

Naming a peer as the source of a rule is meant to have the effect of listing a group with this one
member. The calculated map stays the same when the rule has no other sources, when it is the only
rule of its policy as far as network resources are concerned, and when the peer does not look at
itself: the peers that a rule lets reach a route leave out the routing peer only if it comes from a
group.
-/

namespace Cloink

open AList List NetworkMapData Bool Policy

/-- The rule with a group in the place of the peer it names as its source. -/
def PolicyRule.withSourceGroup (rule : PolicyRule) (g : String) : PolicyRule :=
  { rule with sourceResource := {}, sources := [g] }

def Policy.mapRules (policy : Policy) (f : PolicyRule → PolicyRule) : Policy :=
  { policy with rules := policy.rules.map f }

namespace NetworkMapComponents

variable (c : NetworkMapComponents) (g : String) (group : Group) (sel : PolicyRule → Bool)

/-- The replacement on one rule. -/
def groupSource (rule : PolicyRule) : PolicyRule :=
  if sel rule then rule.withSourceGroup g else rule

/-- The components with a further group, which the selected rules have as their source. -/
def withSourceGroup : NetworkMapComponents :=
  { c with
    groups := c.groups.insert g group
    policies := c.policies.map (·.mapRules (groupSource g sel))
    resourcePoliciesMap :=
      c.resourcePoliciesMap.mapVals fun _ => map (·.mapRules (groupSource g sel)) }

/-- The policies of the components, those of their resources included. -/
def AnyPolicy (policy : Policy) : Prop :=
  policy ∈ c.policies ∨ ∃ id, policy ∈ c.resourcePoliciesMap.setAt id

/-- The group is not there and nothing refers to it. -/
structure FreshGroup : Prop where
  groups : g ∉ c.groups
  rules : ∀ policy, c.AnyPolicy policy → ∀ rule ∈ policy.rules,
    g ∉ rule.sources ∧ g ∉ rule.destinations
  routes : ∀ r ∈ c.routes, g ∉ r.groups ∧ g ∉ r.peerGroups
  dns : g ∉ c.dnsSettings.disabledManagementGroups
  nameServers : ∀ ns ∈ c.nameServerGroups, g ∉ ns.groups

/-- The selected rules name the peer `p` as their source and have no other one. A policy of a
resource with such a rule has no further rule. -/
structure DirectSource (p : String) : Prop where
  named : ∀ policy, c.AnyPolicy policy → ∀ rule ∈ policy.rules, sel rule →
    rule.sourceResource.isPeer ∧ rule.sourceResource.id = p ∧ rule.sources = []
  alone : ∀ id, ∀ policy ∈ c.resourcePoliciesMap.setAt id, ∀ rule ∈ policy.rules, sel rule →
    policy.rules = [rule]

/-- The target peer serves no route with access control groups and routes no resource. -/
def NotRouting : Prop :=
  (∀ r ∈ (c.getRoutingPeerRoutes c.peerID).1, r.accessControlGroups = []) ∧
    ∀ resource ∈ c.networkResources, resource.enabled → c.peerID ∉ c.resourceRouters resource

variable {c g group}

/-- A group that is not listed adds nothing. -/
theorem uniquePeerIDs_insert {groups : StrMap Group} {l : List String} {alone : Bool} (hl : g ∉ l)
    (peerIDs : List String) :
    uniquePeerIDs (groups.insert g group) alone peerIDs l = uniquePeerIDs groups alone peerIDs l := by
  induction l generalizing peerIDs with
  | nil => rfl
  | cons gid l ih =>
    have hne : gid ≠ g := fun h => hl (h ▸ mem_cons_self)
    have hr : g ∉ l := fun h => hl (mem_cons_of_mem gid h)
    rw [uniquePeerIDs, uniquePeerIDs, lookup_insert_ne hne]
    cases groups.lookup gid with
    | none => exact ih hr peerIDs
    | some group' => simp only [ih hr]

theorem isPeer_empty : ({} : Resource).isPeer = false := by decide

theorem groups_of_mem_routingRoutes {peerID : String} {r : Route}
    (hr : r ∈ (c.getRoutingPeerRoutes peerID).1) : ∃ r₀ ∈ c.routes, r.groups = r₀.groups := by
  obtain ⟨e, he, key, rfl, -⟩ := exists_entry_of_mem_routingRoutes hr
  rw [routesByPeer_eq] at he
  obtain ⟨r₀, hr₀, he⟩ := mem_flatMap.1 he
  obtain rfl := fst_of_mem_routeEntries he
  exact ⟨e.1, hr₀, peerRoute_groups _ _ _⟩

/-- Components with rules that name a peer, and a fresh group with this one member. -/
structure Replacement where
  c : NetworkMapComponents
  g : String
  group : Group
  sel : PolicyRule → Bool
  p : String
  fresh : c.FreshGroup g
  named : c.DirectSource sel p
  peers : group.peers = [p]

namespace Replacement

variable (s : Replacement)

/-- The components with the group in the place of the peer. -/
abbrev after : NetworkMapComponents := s.c.withSourceGroup s.g s.group s.sel

abbrev onRule : PolicyRule → PolicyRule := groupSource s.g s.sel

abbrev onPolicy (policy : Policy) : Policy := policy.mapRules s.onRule

variable {env : Env} {policy : Policy} {rule : PolicyRule} {l : List String} {peerID : String}

theorem getGroupInfo {gid : String} (hne : gid ≠ s.g) :
    s.after.getGroupInfo gid = s.c.getGroupInfo gid :=
  lookup_insert_ne hne

theorem uniquePeerIDs_old (hl : s.g ∉ l) : getUniquePeerIDsFromGroupsIDs s.after.groups l =
    getUniquePeerIDsFromGroupsIDs s.c.groups l :=
  uniquePeerIDs_insert hl []

/-- The new group stands for the peer. -/
theorem uniquePeerIDs_new : getUniquePeerIDsFromGroupsIDs s.after.groups [s.g] = [s.p] := by
  simp [getUniquePeerIDsFromGroupsIDs, uniquePeerIDs, withSourceGroup, s.peers]

/-! ### Policies and groups -/

theorem getSidePeers_old {res : Resource} {gids : List String} (hg : s.g ∉ gids) (peerID : String)
    (cks : List String) :
    s.after.getSidePeers res gids peerID cks = s.c.getSidePeers res gids peerID cks := by
  unfold getSidePeers getAllPeersFromGroups
  split
  · rfl
  · rw [s.uniquePeerIDs_old hg]
    rfl

/-- The enabled rules are replaced one by one. -/
theorem enabledRules (pols : List Policy) :
    enabledRules (pols.map s.onPolicy) = (enabledRules pols).map fun pr =>
      (s.onPolicy pr.1, s.onRule pr.2) := by
  have he (rule : PolicyRule) : (s.onRule rule).enabled = rule.enabled := by
    unfold onRule groupSource
    split <;> rfl
  unfold NetworkMapComponents.enabledRules
  rw [filter_map, flatMap_map, map_flatMap]
  refine flatMap_congr fun policy _ => ?_
  change ((policy.rules.map s.onRule).filter (·.enabled)).map _ = _
  rw [filter_map, map_map, map_map]
  simp only [Function.comp_def, he]

theorem routePolicies (groups : List String) : s.after.getAllRoutePoliciesFromGroups groups =
    (s.c.getAllRoutePoliciesFromGroups groups).map s.onPolicy := by
  have hd (rule : PolicyRule) : (s.onRule rule).destinations = rule.destinations := by
    unfold onRule groupSource
    split <;> rfl
  have hp : s.after.policies = s.c.policies.map s.onPolicy := rfl
  unfold getAllRoutePoliciesFromGroups
  rw [map_flatMap]
  refine flatMap_congr fun gid _ => ?_
  rw [hp, flatMap_map, map_flatMap]
  refine flatMap_congr fun policy _ => ?_
  change ((policy.rules.map s.onRule).filter _).map _ = _
  rw [filter_map, map_map, map_map]
  simp only [Function.comp_def, hd]

theorem usablePolicies (pols : List Policy) :
    usablePolicies (pols.map s.onPolicy) = (usablePolicies pols).map s.onPolicy := by
  unfold NetworkMapComponents.usablePolicies
  rw [filter_map]
  refine congrArg _ (filter_congr fun policy _ => ?_)
  simp [mapRules]

/-- The policies of a resource are replaced one by one. -/
theorem setAt (id : String) : s.after.resourcePoliciesMap.setAt id =
    (s.c.resourcePoliciesMap.setAt id).map s.onPolicy := by
  have hl : s.after.resourcePoliciesMap.lookup id =
      (s.c.resourcePoliciesMap.lookup id).map (map s.onPolicy) :=
    lookup_mapVals _ _ _
  rw [AList.setAt, AList.setAt, hl]
  cases s.c.resourcePoliciesMap.lookup id <;> rfl

theorem any_getPeerGroups (hl : s.g ∉ l) (peerID : String) :
    l.any (s.after.getPeerGroups peerID).contains = l.any (s.c.getPeerGroups peerID).contains := by
  rw [Bool.eq_iff_iff, any_eq_true, any_eq_true]
  refine exists_congr fun gid => and_congr_right fun hg => ?_
  have hlk : s.after.groups.lookup gid = s.c.groups.lookup gid :=
    s.getGroupInfo fun h => hl (h ▸ hg)
  rw [contains_iff_mem, contains_iff_mem, getPeerGroups, getPeerGroups,
    mem_memberGroups, mem_memberGroups, hlk]

/-! ### Routes and DNS -/

theorem routingRoutes (peerID : String) :
    s.after.getRoutingPeerRoutes peerID = s.c.getRoutingPeerRoutes peerID := by
  have he : s.after.routesByPeer peerID = s.c.routesByPeer peerID := by
    rw [routesByPeer_eq, routesByPeer_eq]
    refine flatMap_congr fun r hr => ?_
    unfold routeEntries
    congr 1
    refine flatMap_congr fun gid hg => ?_
    have hl : s.after.groups.lookup gid = s.c.groups.lookup gid :=
      s.getGroupInfo fun h => (s.fresh.routes r hr).2 (h ▸ hg)
    rw [hl]
  unfold getRoutingPeerRoutes
  rw [he]
  rfl

theorem routesToSync (peerID : String) (acl : List Peer) :
    s.after.getRoutesToSync env peerID acl (s.after.getPeerGroups peerID) =
      s.c.getRoutesToSync env peerID acl (s.c.getPeerGroups peerID) := by
  have hf (pid : String) : filterRoutesByGroups (s.c.getRoutingPeerRoutes pid).1
      (s.after.getPeerGroups peerID) =
        filterRoutesByGroups (s.c.getRoutingPeerRoutes pid).1 (s.c.getPeerGroups peerID) := by
    refine filter_congr fun r hr => ?_
    obtain ⟨r₀, hr₀, he⟩ := groups_of_mem_routingRoutes hr
    rw [he]
    exact s.any_getPeerGroups (s.fresh.routes r₀ hr₀).1 peerID
  unfold getRoutesToSync
  simp only [s.routingRoutes, hf]

theorem dnsUpdate (peerID : String) : s.after.dnsUpdate peerID (s.after.getPeerGroups peerID) =
    s.c.dnsUpdate peerID (s.c.getPeerGroups peerID) := by
  have hs : s.after.getPeerDNSManagementStatusFromGroups (s.after.getPeerGroups peerID) =
      s.c.getPeerDNSManagementStatusFromGroups (s.c.getPeerGroups peerID) :=
    congrArg (! ·) (s.any_getPeerGroups s.fresh.dns peerID)
  have hns : s.after.getPeerNSGroupsFromGroups peerID (s.after.getPeerGroups peerID) =
      s.c.getPeerNSGroupsFromGroups peerID (s.c.getPeerGroups peerID) := by
    have hi : s.after.getPeerInfo peerID = s.c.getPeerInfo peerID := rfl
    unfold getPeerNSGroupsFromGroups
    rw [hi]
    cases s.c.getPeerInfo peerID with
    | none => rfl
    | some target =>
      refine filter_congr fun ns hns => ?_
      rw [s.any_getPeerGroups (s.fresh.nameServers ns hns)]
  unfold NetworkMapComponents.dnsUpdate
  rw [hs, hns]
  rfl

theorem groupMembers (hp : s.c.AnyPolicy policy) (hr : rule ∈ policy.rules) {gid : String}
    (hg : gid ∈ rule.sources) : s.after.groupMembers gid = s.c.groupMembers gid := by
  have hne : gid ≠ s.g := fun h => (s.fresh.rules policy hp rule hr).1 (h ▸ hg)
  rw [NetworkMapComponents.groupMembers, s.getGroupInfo hne, NetworkMapComponents.groupMembers]

/-! ### Rules -/

/-- A replaced side has the same peers. -/
theorem getSidePeers (hp : s.c.AnyPolicy policy) (hr : rule ∈ policy.rules) (peerID : String)
    (cks : List String) :
    s.after.getSidePeers (s.onRule rule).sourceResource (s.onRule rule).sources peerID cks =
      s.c.getSidePeers rule.sourceResource rule.sources peerID cks := by
  by_cases hs : s.sel rule
  · obtain ⟨hpr, hid, -⟩ := s.named.named policy hp rule hr hs
    simp only [onRule, groupSource, hs, if_true, PolicyRule.withSourceGroup,
      NetworkMapComponents.getSidePeers, isPeer_empty, hpr, false_eq_true, if_false,
      getAllPeersFromGroups, getPeerFromResource, s.uniquePeerIDs_new, hid]
    rfl
  · rw [onRule, groupSource, if_neg hs]
    exact s.getSidePeers_old (s.fresh.rules policy hp rule hr).1 peerID cks

/-- A replaced rule makes the same connections. -/
theorem connectRule (hp : s.c.AnyPolicy policy) (hr : rule ∈ policy.rules) (tgt : Peer)
    (peerID : String) (cks : List String) (st : PeerConnections) :
    s.after.connectRule env tgt peerID cks st (s.onRule rule) =
      s.c.connectRule env tgt peerID cks st rule := by
  have hs := s.getSidePeers hp hr peerID cks
  have hd : s.after.getSidePeers (s.onRule rule).destinationResource (s.onRule rule).destinations
      peerID [] = s.c.getSidePeers rule.destinationResource rule.destinations peerID [] := by
    have hf : (s.onRule rule).destinationResource = rule.destinationResource ∧
        (s.onRule rule).destinations = rule.destinations := by
      unfold onRule groupSource
      split <;> exact ⟨rfl, rfl⟩
    rw [hf.1, hf.2]
    exact s.getSidePeers_old (s.fresh.rules policy hp rule hr).2 peerID []
  unfold NetworkMapComponents.connectRule
  rw [hs, hd]
  -- the rest of a rule is not changed
  unfold onRule groupSource
  split <;> rfl

/-- The connections stay the same. -/
theorem connections (peerID : String) : s.after.getPeerConnectionResources env peerID =
    s.c.getPeerConnectionResources env peerID := by
  have hi : s.after.getPeerInfo peerID = s.c.getPeerInfo peerID := rfl
  have hp : s.after.policies = s.c.policies.map s.onPolicy := rfl
  unfold getPeerConnectionResources
  rw [hi, hp, s.enabledRules]
  cases s.c.getPeerInfo peerID with
  | none => rfl
  | some tgt =>
    simp only [foldl_map]
    refine foldl_ext _ _ _ fun st pr hpr => ?_
    obtain ⟨hpl, -, hr, -⟩ := mem_enabledRules.1 hpr
    exact s.connectRule (.inl hpl) hr tgt peerID _ st

/-- The peers a rule lets reach a route are the same, unless the routing peer is the source. -/
theorem getRulePeers (hp : s.c.AnyPolicy policy) (hr : rule ∈ policy.rules) (hne : s.p ≠ peerID)
    (cks dist : List String) : s.after.getRulePeers (s.onRule rule) cks peerID dist =
      s.c.getRulePeers rule cks peerID dist := by
  by_cases hs : s.sel rule
  · obtain ⟨hpr, hid, hsr⟩ := s.named.named policy hp rule hr hs
    have hi : s.after.getGroupInfo s.g = some s.group := lookup_insert _
    have hv (q : String) : s.after.validatePostureChecksOnPeer q cks =
      s.c.validatePostureChecksOnPeer q cks := rfl
    have hf : [s.p].filter (fun pID => decide (pID ≠ peerID) &&
        (dist.contains pID && s.c.validatePostureChecksOnPeer pID cks)) =
          if dist.contains s.p && s.c.validatePostureChecksOnPeer s.p cks then [s.p]
          else [] := by
      rw [filter_cons, decide_eq_true hne, Bool.true_and, filter_nil]
    unfold NetworkMapComponents.getRulePeers onRule groupSource
    simp only [hs, if_true, PolicyRule.withSourceGroup, isPeer_empty, hpr, hsr, hi, s.peers, hid,
      hv, foldl_cons, foldl_nil, Option.elim_some, Bool.false_and, Bool.true_and,
      false_eq_true, if_false, hf]
    split <;> rfl
  · rw [onRule, groupSource, if_neg hs]
    refine getRulePeers_congr (fun gid hg => ?_) (fun _ _ _ => rfl) (fun _ _ => rfl) fun _ _ _ => rfl
    exact (s.groupMembers hp hr hg).trans (filter_true _).symm

theorem getRouteFirewallRules {pols : List Policy} (hp : ∀ policy ∈ pols, s.c.AnyPolicy policy)
    (hne : s.p ≠ peerID) (route : Route) (dist : List String) (v6 : Bool) :
    s.after.getRouteFirewallRules peerID (pols.map s.onPolicy) route dist v6 =
      s.c.getRouteFirewallRules peerID pols route dist v6 := by
  unfold NetworkMapComponents.getRouteFirewallRules
  rw [s.enabledRules, flatMap_map]
  refine flatMap_congr fun pr hpr => ?_
  obtain ⟨hpl, -, hrl, -⟩ := mem_enabledRules.1 hpr
  have hr := s.getRulePeers (hp _ hpl) hrl hne pr.1.sourcePostureChecks dist
  rw [show (s.onPolicy pr.1).sourcePostureChecks = pr.1.sourcePostureChecks from rfl, hr]
  unfold onRule groupSource
  split <;> rfl

/-- So do the firewall rules of the routes, unless the peer is the target. -/
theorem routeRules
    (hne : s.p ≠ peerID ∨ ∀ r ∈ (s.c.getRoutingPeerRoutes peerID).1, r.accessControlGroups = [])
    (v6 : Bool) : s.after.getPeerRoutesFirewallRules peerID v6 =
      s.c.getPeerRoutesFirewallRules peerID v6 := by
  unfold getPeerRoutesFirewallRules
  rw [s.routingRoutes]
  refine flatMap_congr fun r hr => ?_
  by_cases ha : r.accessControlGroups.isEmpty
  · rw [if_pos ha, if_pos ha]
  · have hne : s.p ≠ peerID := hne.resolve_right fun h => ha (by rw [h r hr]; rfl)
    have hd : s.after.getDistributionGroupsPeers r = s.c.getDistributionGroupsPeers r := by
      obtain ⟨r₀, hr₀, he⟩ := groups_of_mem_routingRoutes hr
      refine foldl_ext _ _ _ fun peers gid hg => ?_
      have hne : gid ≠ s.g := fun h => (s.fresh.routes r₀ hr₀).1 (he ▸ h ▸ hg)
      rw [s.getGroupInfo hne]
    rw [if_neg ha, if_neg ha]
    refine flatMap_congr fun accessGroup _ => ?_
    rw [hd, s.routePolicies]
    refine s.getRouteFirewallRules (fun policy hp => ?_) hne r _ _
    obtain ⟨gid, -, hp⟩ := mem_flatMap.1 hp
    obtain ⟨policy', hp', hp⟩ := mem_flatMap.1 hp
    obtain ⟨-, -, rfl⟩ := mem_map.1 hp
    exact .inl hp'

/-! ### Network resources -/

/-- The peers a policy of a resource lets in are the same: a replaced rule is the only one. -/
theorem getResourcePolicyPeers {id : String} (hp : policy ∈ s.c.resourcePoliciesMap.setAt id) :
    s.after.getResourcePolicyPeers (s.onPolicy policy) = s.c.getResourcePolicyPeers policy := by
  by_cases han : ∃ rule ∈ policy.rules, s.sel rule
  · obtain ⟨rule, hr, hs⟩ := han
    obtain ⟨hpr, hid, -⟩ := s.named.named policy (.inr ⟨id, hp⟩) rule hr hs
    have ha := s.named.alone id policy hp rule hr hs
    simp [NetworkMapComponents.getResourcePolicyPeers, onPolicy, mapRules, ha, onRule, groupSource, hs,
      PolicyRule.withSourceGroup, isPeer_empty, hpr, hid, sourceGroups, s.uniquePeerIDs_new]
  · have hsm : s.onPolicy policy = policy := by
      have hrl : policy.rules.map s.onRule = policy.rules :=
        (map_congr_left fun rule hr => if_neg fun hs => han ⟨rule, hr, hs⟩).trans (map_id _)
      unfold onPolicy mapRules
      rw [hrl]
    have hg : s.g ∉ policy.sourceGroups := fun h => by
      obtain ⟨rule, hr, hm⟩ := mem_sourceGroups.1 h
      exact (s.fresh.rules policy (.inr ⟨id, hp⟩) rule hr).1 hm
    rw [hsm]
    unfold NetworkMapComponents.getResourcePolicyPeers
    rw [s.uniquePeerIDs_old hg]

theorem resourceRoutes (peerID : String) (res : NetworkResource) :
    s.after.resourceRoutes env peerID res = s.c.resourceRoutes env peerID res := by
  have hr (pid : String) (rt : NetworkRouter) : s.after.getNetworkResourcesRoutes env res pid rt =
      s.c.getNetworkResourcesRoutes env res pid rt := by
    unfold getNetworkResourcesRoutes
    rw [s.setAt, isEmpty_map]
    rfl
  have ha : (NetworkMapComponents.usablePolicies (s.after.resourcePoliciesMap.setAt res.id)).any
      (s.after.admitsSource peerID) = (NetworkMapComponents.usablePolicies
        (s.c.resourcePoliciesMap.setAt res.id)).any (s.c.admitsSource peerID) := by
    rw [s.setAt, s.usablePolicies, any_map, Bool.eq_iff_iff, any_eq_true, any_eq_true]
    refine exists_congr fun policy => and_congr_right fun hp => ?_
    rw [Function.comp_apply, admitsSource, s.getResourcePolicyPeers (mem_filter.1 hp).1]
    rfl
  unfold NetworkMapComponents.resourceRoutes
  simp only [processResourcePolicies_eq, hr, ha]
  rfl

theorem resourceSources (peerID : String) (res : NetworkResource) :
    s.after.resourceSources peerID res = s.c.resourceSources peerID res := by
  have hs : s.after.resourceSourcePeers res = s.c.resourceSourcePeers res := by
    unfold resourceSourcePeers
    rw [s.setAt, s.usablePolicies, flatMap_map]
    refine flatMap_congr fun policy hp => ?_
    rw [s.getResourcePolicyPeers (mem_filter.1 hp).1]
    rfl
  unfold NetworkMapComponents.resourceSources
  rw [hs]
  rfl

/-- So do the routes to network resources. -/
theorem resourcesToSync (peerID : String) : s.after.getNetworkResourcesRoutesToSync env peerID =
    s.c.getNetworkResourcesRoutesToSync env peerID := by
  rw [resourcesToSync_eq, resourcesToSync_eq, funext (s.resourceRoutes peerID),
    funext (s.resourceSources peerID)]
  rfl

theorem policiesSources {pols : List Policy} (hp : ∀ policy ∈ pols, s.c.AnyPolicy policy) :
    s.after.getPoliciesSourcePeers (pols.map s.onPolicy) = s.c.getPoliciesSourcePeers pols := by
  have hrl : (pols.map s.onPolicy).flatMap (·.rules) = (pols.flatMap (·.rules)).map s.onRule := by
    rw [flatMap_map, map_flatMap]
    rfl
  unfold getPoliciesSourcePeers
  rw [hrl, foldl_map]
  refine foldl_ext _ _ _ fun sourcePeers rule hr => ?_
  obtain ⟨policy, hpl, hr⟩ := mem_flatMap.1 hr
  by_cases hs : s.sel rule
  · obtain ⟨hpr, hid, hsr⟩ := s.named.named policy (hp policy hpl) rule hr hs
    have hi : s.after.getGroupInfo s.g = some s.group := lookup_insert _
    simp [onRule, groupSource, hs, PolicyRule.withSourceGroup, isPeer_empty, hpr, hsr, hi, s.peers, hid]
  · have hf := foldl_ext (fun peers id => peers.insertAll (s.after.groupMembers id))
      (fun peers id => peers.insertAll (s.c.groupMembers id)) sourcePeers fun peers gid hg =>
        congrArg peers.insertAll (s.groupMembers (hp policy hpl) hr hg)
    unfold NetworkMapComponents.groupMembers at hf
    simp only [onRule, groupSource, if_neg hs, hf]

theorem resourceRules (hne : s.p ≠ peerID) (routes : List Route) (v6 : Bool) :
    s.after.getPeerNetworkResourceFirewallRules peerID routes v6 =
      s.c.getPeerNetworkResourceFirewallRules peerID routes v6 := by
  have hi : s.after.getPeerInfo peerID = s.c.getPeerInfo peerID := rfl
  unfold getPeerNetworkResourceFirewallRules
  rw [hi]
  cases s.c.getPeerInfo peerID with
  | none => rfl
  | some info =>
    refine flatMap_congr fun r _ => ?_
    have ha : ∀ policy ∈ s.c.resourcePoliciesMap.setAt r.getResourceID, s.c.AnyPolicy policy :=
      fun policy hp => .inr ⟨_, hp⟩
    simp only [s.setAt, s.policiesSources ha, s.getRouteFirewallRules ha hne]

/-- The whole network map stays the same. -/
theorem calculate (hne : s.p ≠ s.c.peerID ∨ s.c.NotRouting) :
    s.after.calculate env = s.c.calculate env := by
  have hid : s.after.peerID = s.c.peerID := rfl
  have hv6 : s.after.includeIPv6 s.c.peerID = s.c.includeIPv6 s.c.peerID := rfl
  -- the rules of resources are only looked at for a routing peer
  have hr (routes : List Route) (v6 : Bool) :
      (if (s.c.getNetworkResourcesRoutesToSync env s.c.peerID).isRoutingPeer then
        s.after.getPeerNetworkResourceFirewallRules s.c.peerID routes v6 else []) =
      if (s.c.getNetworkResourcesRoutesToSync env s.c.peerID).isRoutingPeer then
        s.c.getPeerNetworkResourceFirewallRules s.c.peerID routes v6 else [] := by
    rcases hne with hne | ⟨-, hn⟩
    · rw [s.resourceRules hne]
    · have hrn : (s.c.getNetworkResourcesRoutesToSync env s.c.peerID).isRoutingPeer = false := by
        rw [resourcesToSync_eq]
        simpa using hn
      simp [hrn]
  unfold NetworkMapComponents.calculate
  simp only [hid, hv6, hr, s.connections, s.routesToSync, s.dnsUpdate,
    s.routeRules (hne.imp_right And.left), s.resourcesToSync]
  rfl

end Replacement

end NetworkMapComponents

namespace NetworkMapComponents

/-- A rule that lets the peer `p` use a resource. -/
def directRule (p : String) : PolicyRule :=
  { id := "rule"
    sourceResource := ⟨p, resourceTypePeer⟩
    destinationResource := ⟨"db", resourceTypeHost⟩ }

/-- The components of a router of the resource. -/
def resourceRouter (p : String) : NetworkMapComponents where
  peerID := "router"
  peers := (insert "router" { id := "router", key := "k1", ip := .from4 100 64 0 1 }
    ∅).insert "client" { id := "client", key := "k2", ip := .from4 100 64 0 2 }
  policies := [{ id := "policy", rules := [directRule p] }]
  networkResources := [{ id := "db", networkID := "net", type := resourceTypeHost }]
  resourcePoliciesMap := insert "db" [{ id := "policy", rules := [directRule p] }] ∅
  routersMap := insert "net" (insert "router" {} ∅) ∅

variable {p : String}

theorem mem_setAt_resourceRouter {id : String} {policy : Policy}
    (h : policy ∈ (resourceRouter p).resourcePoliciesMap.setAt id) :
    policy.rules = [directRule p] := by
  by_cases hid : id = "db"
  · subst hid
    rw [resourceRouter, setAt, lookup_insert] at h
    rw [mem_singleton.1 h]
  · rw [resourceRouter, setAt, lookup_insert_ne hid, lookup_empty] at h
    exact absurd h not_mem_nil

theorem rules_resourceRouter {policy : Policy} (h : (resourceRouter p).AnyPolicy policy) :
    policy.rules = [directRule p] := by
  rcases h with h | ⟨id, h⟩
  · rw [mem_singleton.1 h]
  · exact mem_setAt_resourceRouter h

theorem freshGroup_resourceRouter (p : String) : (resourceRouter p).FreshGroup "g" where
  groups := notMem_empty "g"
  rules policy hp rule hrl := by
    rw [rules_resourceRouter hp] at hrl
    rw [mem_singleton.1 hrl]
    exact ⟨not_mem_nil, not_mem_nil⟩
  routes r hr := absurd hr not_mem_nil
  dns := not_mem_nil
  nameServers ns hns := absurd hns not_mem_nil

theorem directSource_resourceRouter (hp : p ≠ "") :
    (resourceRouter p).DirectSource (fun _ => true) p where
  named policy hpl rule hr _ := by
    rw [rules_resourceRouter hpl] at hr
    rw [mem_singleton.1 hr]
    exact ⟨by simp [directRule, Resource.isPeer, hp], rfl, rfl⟩
  alone id policy hpl rule hr _ := by
    have hrl := mem_setAt_resourceRouter hpl
    rw [hrl] at hr
    rw [hrl, mem_singleton.1 hr]

end NetworkMapComponents

end Cloink
