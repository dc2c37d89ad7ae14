import Cloink.AffectedPeers.RouteAccess
import Cloink.NetworkMap.SlicePeers
import Mathlib.Data.List.TakeWhile

/-!
# Network resources in two states of an account

What a network resource adds to the network map of a peer in two states of an account with
the same groups. A resource with the same policies adds the same as long as the peer routes its
network in the same way, and the routers are the same if the peer is let in.
-/

namespace Cloink

open NetworkMapComponents AList List

namespace NetworkMapData

variable {nmd nmd' : NetworkMapData} {env : Env} {P : String} {resource : NetworkResource}

/-- The resource has the same policies, the peer routes its network in the same way, and all routers
are the same if the peer is let in. -/
structure ResourceAlike (nmd nmd' : NetworkMapData) (env : Env) (P : String)
    (resource : NetworkResource) : Prop where
  policies : nmd'.resourcePolicies.lookup resource.id = nmd.resourcePolicies.lookup resource.id
  router : (nmd'.networkRouters resource.networkID).lookup P =
    (nmd.networkRouters resource.networkID).lookup P
  routers : (∃ policy ∈ usablePolicies (nmd.resourcePolicies.setAt resource.id),
      nmd.letsIn env P policy = true) →
    nmd'.networkRouters resource.networkID = nmd.networkRouters resource.networkID

theorem ResourceAlike.setAt (hr : ResourceAlike nmd nmd' env P resource) :
    nmd'.resourcePolicies.setAt resource.id = nmd.resourcePolicies.setAt resource.id := by
  unfold AList.setAt
  rw [hr.policies]

theorem ResourceAlike.mem_iff (hr : ResourceAlike nmd nmd' env P resource) :
    P ∈ nmd'.networkRouters resource.networkID ↔ P ∈ nmd.networkRouters resource.networkID := by
  rw [mem_iff_lookup, mem_iff_lookup, hr.router]

namespace Twin

variable (t : Twin nmd nmd' env)

include t in
theorem policyPeers (policy : Policy) :
    nmd'.resourcePolicyPeers policy = nmd.resourcePolicyPeers policy := by
  unfold resourcePolicyPeers
  simp only [t.store.groups]

/-- Policies let the same peers in. -/
theorem letsIn : nmd'.letsIn env t.id = nmd.letsIn env t.id := by
  funext policy
  rw [Bool.eq_iff_iff, letsIn_iff t.other, letsIn_iff t.toTarget,
    t.policyPeers, t.admits_iff]

theorem networkRoutes
    (hpl : nmd'.resourcePolicies.setAt resource.id = nmd.resourcePolicies.setAt resource.id)
    (q : String) (rt : NetworkRouter) : t.account'.getNetworkResourcesRoutes env resource q rt =
      t.account.getNetworkResourcesRoutes env resource q rt := by
  have hp : t.account'.resourcePoliciesMap.setAt resource.id =
    t.account.resourcePoliciesMap.setAt resource.id := hpl
  unfold getNetworkResourcesRoutes
  rw [hp, t.getPeerInfo]

section

variable (hr : ResourceAlike nmd nmd' env t.id resource)

include hr

/-- A resource that is alike has the same routes. -/
theorem resourceRoutes : t.account'.resourceRoutes env t.id resource =
    t.account.resourceRoutes env t.id resource := by
  have hl : (t.account'.resourceRouters resource).lookup t.id =
    (t.account.resourceRouters resource).lookup t.id := hr.router
  have hpl : t.account'.resourcePoliciesMap.setAt resource.id =
    t.account.resourcePoliciesMap.setAt resource.id := hr.setAt
  unfold NetworkMapComponents.resourceRoutes
  rw [hl]
  split
  · exact t.networkRoutes hr.setAt _ _
  · rw [processResourcePolicies_eq, processResourcePolicies_eq, hpl,
      admitsSource_account t.other, admitsSource_account t.toTarget, t.letsIn]
    split
    · rename_i hin
      have hrt : t.account'.resourceRouters resource = t.account.resourceRouters resource :=
        hr.routers (any_eq_true.1 hin)
      rw [hrt]
      exact flatMap_congr fun e _ => t.networkRoutes hr.setAt _ _
    · rfl

/-- It has the same source peers. -/
theorem resourceSources : t.account'.resourceSources t.id resource =
    t.account.resourceSources t.id resource := by
  have hmm : t.id ∈ t.account'.resourceRouters resource ↔
    t.id ∈ t.account.resourceRouters resource := hr.mem_iff
  have hpl : t.account'.resourcePoliciesMap.setAt resource.id =
    t.account.resourcePoliciesMap.setAt resource.id := hr.setAt
  have hpp (policy : Policy) : t.account'.getResourcePolicyPeers policy =
    t.account.getResourcePolicyPeers policy := t.policyPeers policy
  unfold NetworkMapComponents.resourceSources resourceSourcePeers getPostureValidPeers
  simp only [hmm, hpl, hpp, t.validate]

/-- Such a resource brings in the same peers, but for routers of its network that a peer which
routes it sees. -/
theorem resourceBrings {q : String} (hq : t.id ∈ nmd.networkRouters resource.networkID →
      (q ∈ nmd'.networkRouters resource.networkID ↔ q ∈ nmd.networkRouters resource.networkID)) :
    nmd'.ResourceBrings env t.id resource q ↔ nmd.ResourceBrings env t.id resource q := by
  have hkp : nmd'.keepsResource env t.id resource = nmd.keepsResource env t.id resource := by
    unfold keepsResource
    simp only [hr.policies, hr.mem_iff, t.letsIn]
  have hc : nmd'.collectedPolicies env t.id resource = nmd.collectedPolicies env t.id resource := by
    unfold collectedPolicies
    simp only [hr.setAt, hr.mem_iff, t.letsIn]
  have hrr (hk : nmd.keepsResource env t.id resource) :
      q ∈ nmd'.networkRouters resource.networkID ↔ q ∈ nmd.networkRouters resource.networkID := by
    by_cases hrt : t.id ∈ nmd.networkRouters resource.networkID
    · exact hq hrt
    · rw [hr.routers]
      cases hl : nmd.resourcePolicies.lookup resource.id with
      | none => simp [keepsResource, hl] at hk
      | some l =>
        rw [setAt_of_lookup hl]
        simpa [keepsResource, hl, hrt] using hk
  unfold ResourceBrings
  simp only [hkp, hc, t.policyPeers, t.admits_iff, t.store.isValidated, t.store.peers]
  exact or_congr_left (and_congr_right fun hk => and_congr_left fun _ => hrr hk)

end

theorem getRouteFirewallRules (pols : List Policy) (r : Route) (dist : List String) (v6 : Bool) :
    t.account'.getRouteFirewallRules t.id pols r dist v6 =
      t.account.getRouteFirewallRules t.id pols r dist v6 := by
  refine flatMap_congr fun ⟨policy, rule⟩ _ => congrArg (generateRouteFirewallRules r rule · v6) ?_
  refine getRulePeers_congr (fun gid _ => ?_) (fun _ _ _ => rfl)
    (fun q _ => by rw [t.validate]) fun q _ _ => t.getPeerInfo q
  exact (congrArg (fun groups => (groups.lookup gid).elim [] (·.peers)) t.store.groups).trans
    (filter_true _).symm

theorem resourceRules {routes : List Route} (hrt : ∀ r ∈ routes, r.peer = t.peer.key →
      nmd'.resourcePolicies.setAt r.getResourceID = nmd.resourcePolicies.setAt r.getResourceID)
    (v6 : Bool) : t.account'.getPeerNetworkResourceFirewallRules t.id routes v6 =
      t.account.getPeerNetworkResourceFirewallRules t.id routes v6 := by
  have hsr (pols : List Policy) :
      t.account'.getPoliciesSourcePeers pols = t.account.getPoliciesSourcePeers pols := by
    have hg (gid : String) : t.account'.groupMembers gid = t.account.groupMembers gid :=
      congrArg (fun groups => (groups.lookup gid).elim [] (·.peers)) t.store.groups
    unfold groupMembers at hg
    unfold getPoliciesSourcePeers
    simp only [hg]
  unfold getPeerNetworkResourceFirewallRules
  rw [t.getPeerInfo, t.getPeerInfo_self]
  refine flatMap_congr fun r hr => congrArg (List.filter _) ?_
  obtain ⟨hr, hk⟩ := mem_filter.1 hr
  have hpl : t.account'.resourcePoliciesMap.setAt r.getResourceID =
    t.account.resourcePoliciesMap.setAt r.getResourceID := hrt r hr (of_decide_eq_true hk)
  rw [hpl, hsr]
  exact t.getRouteFirewallRules ..

/-! ### The peers of the slice -/

/-- A rule brings the same peers into the slice. -/
theorem ruleBrings (cks : List String) (rule : PolicyRule) (q : String) :
    nmd'.RuleBrings env t.id cks rule q ↔ nmd.RuleBrings env t.id cks rule q := by
  unfold RuleBrings InSource InDestination
  simp only [t.store.groups, t.admits_iff]

theorem mem_collected {q : String}
    (hrs : (∃ policy ∈ nmd'.policies, policy.enabled ∧ ∃ rule ∈ policy.rules, rule.enabled ∧
        nmd.RuleBrings env t.id policy.sourcePostureChecks rule q) ↔
      ∃ policy ∈ nmd.policies, policy.enabled ∧ ∃ rule ∈ policy.rules, rule.enabled ∧
        nmd.RuleBrings env t.id policy.sourcePostureChecks rule q)
    (hr : (∃ resource ∈ nmd'.networkResources, resource.enabled ∧
        nmd'.ResourceBrings env t.id resource q) ↔
      ∃ resource ∈ nmd.networkResources, resource.enabled ∧
        nmd.ResourceBrings env t.id resource q) :
    q ∈ t.other.collected.peers ↔ q ∈ t.collected.peers := by
  have hg : nmd'.getPeerGroups t.id = nmd.getPeerGroups t.id :=
    congrArg (memberGroups · t.id) t.store.groups
  have hrl (r : Route) : nmd'.routeRelevant t.id r = nmd.routeRelevant t.id r := by
    unfold routeRelevant
    rw [hg]
  have hi (r : Route) : nmd'.routePeerIDs r = nmd.routePeerIDs r := by
    unfold routePeerIDs
    simp only [t.store.groups]
  rw [mem_collected_peers, mem_collected_peers]
  simp only [t.store.routes, t.store.isValidated, t.store.peers, hrl, hi, t.ruleBrings, hrs, hr]

end Twin

end NetworkMapData

end Cloink
