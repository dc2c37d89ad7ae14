import Cloink.NetworkMap.SliceConnections

/-!
# Network resources over the slice and over the account

The routes to network resources and the source peers of routed resources come out the same from a
peer's slice of the account and from the whole account. The routes a router has itself need some
policy of the resource to be in force; the source peers need that policies in force have no rule
switched off, since the slice keeps the groups of enabled rules only.
-/

namespace Cloink

open NetworkMapComponents AList List

namespace NetworkMapData

variable {nmd : NetworkMapData} {env : Env} {P : String} {peer : Peer} {zone : CustomZone}

variable {pol : Policy}

theorem policyPeers_eq {rule : PolicyRule} {rest : List PolicyRule}
    (hrl : pol.rules = rule :: rest) :
    nmd.resourcePolicyPeers pol = sideIDs nmd.groups rule.sourceResource pol.sourceGroups := by
  simp [resourcePolicyPeers, hrl, sideIDs]

theorem getPolicyPeers_eq (c : NetworkMapComponents) {rule : PolicyRule}
    {rest : List PolicyRule} (hrl : pol.rules = rule :: rest) :
    c.getResourcePolicyPeers pol = sideIDs c.groups rule.sourceResource pol.sourceGroups := by
  simp [getResourcePolicyPeers, hrl, sideIDs]

/-- A policy is usable if it is enabled and has rules. -/
theorem mem_usablePolicies {l : List Policy} : pol ∈ usablePolicies l ↔
      pol ∈ l ∧ pol.enabled ∧ pol.rules ≠ [] := by
  simp [usablePolicies]

/-- A policy lets the peer in when it is one of its admitted sources. -/
theorem letsIn_iff (t : nmd.Target env) : nmd.letsIn env t.id pol ↔
    t.id ∈ nmd.resourcePolicyPeers pol ∧ nmd.Admits env pol.sourcePostureChecks t.id := by
  have hv : (nmd.validatePostureChecksOnPeerGetFailed env pol.sourcePostureChecks t.id).1 ↔
      nmd.Admits env pol.sourcePostureChecks t.id := by
    rcases getFailed_cases nmd env
        pol.sourcePostureChecks t.id with ⟨hno, -⟩ | ⟨hp, hps, heq⟩ | ⟨-, id, hid, hf, heq⟩
    · exact absurd t.mem hno
    · rw [heq]
      exact ⟨fun _ => ⟨hp, t.valid, hps⟩, fun _ => rfl⟩
    · simp only [heq, Bool.false_eq_true, false_iff]
      exact fun ha => ha.2.2 id hid hf
  have hs : nmd.peerInResourceSources pol t.id ↔ t.id ∈ nmd.resourcePolicyPeers pol := by
    unfold peerInResourceSources
    cases hrl : pol.rules with
    | nil => simp [resourcePolicyPeers, hrl]
    | cons rule rest =>
      rw [policyPeers_eq hrl, sideIDs]
      dsimp only
      split
      · simp [eq_comm]
      · rw [mem_uniquePeers t.all]
        simp only [any_eq_true, InGroups]
        refine exists_congr fun gid => and_congr_right fun _ => ?_
        cases nmd.groups.lookup gid <;> simp
  rw [letsIn, Bool.and_eq_true, hv, hs]

theorem admitsSource_account (t : nmd.Target env) :
    t.account.admitsSource t.id = nmd.letsIn env t.id := by
  funext pol
  rw [Bool.eq_iff_iff, letsIn_iff t, admitsSource, Bool.and_eq_true, contains_iff_mem,
    validate_account t.wf]
  rfl

section

variable (t : nmd.Target env) {res : NetworkResource} (hr : res ∈ nmd.networkResources)
  (he : res.enabled) (hk : nmd.keepsResource env t.id res)

include hr he hk

theorem resourceRouters_slice : t.slice.resourceRouters res = nmd.networkRouters res.networkID := by
  have hc := resource_collected t hr he hk
  obtain ⟨m, hm⟩ := mem_iff_lookup.1 hc.routers
  have hl : t.slice.routersMap.lookup res.networkID = some m := hm
  rw [resourceRouters, hl, (sound_collected t).routers _ m hm]
  rfl

/-- The slice has the policies of a resource that is kept. -/
theorem resourcePolicies_slice {l : List Policy}
    (hl : nmd.resourcePolicies.lookup res.id = some l) (hu : usablePolicies l ≠ []) :
    t.slice.resourcePoliciesMap.lookup res.id = some l := by
  have hc := resource_collected t hr he hk
  have hs := sound_collected t
  exact (hs.policies_sub.lookup_eq (hc.policies l hl hu)).trans hl

omit hr he hk in
theorem setAt_slice {l : List Policy} (hl : nmd.resourcePolicies.lookup res.id = some l) :
    t.slice.resourcePoliciesMap.setAt res.id = l ∨
      t.slice.resourcePoliciesMap.setAt res.id = [] := by
  cases hl' : t.slice.resourcePoliciesMap.lookup res.id with
  | none => exact .inr (by rw [AList.setAt, hl', Option.getD_none])
  | some l' =>
    have hs := (sound_collected t).policies_sub _ _ hl'
    rw [setAt_of_lookup hl']
    exact .inl (Option.some.inj (hs.symm.trans hl))

/-- The usable ones are those of the account. -/
theorem usablePolicies_slice : usablePolicies (t.slice.resourcePoliciesMap.setAt res.id) =
    usablePolicies (nmd.resourcePolicies.setAt res.id) := by
  cases hl : nmd.resourcePolicies.lookup res.id with
  | none => simp [keepsResource, hl] at hk
  | some l =>
    by_cases hu : usablePolicies l = []
    · rw [setAt_of_lookup hl, hu]
      rcases setAt_slice t hl with hs | hs
      · rw [hs, hu]
      · rw [hs, usablePolicies, filter_nil]
    · rw [setAt_of_lookup hl, setAt_of_lookup (resourcePolicies_slice t hr he hk hl hu)]

variable {p : String}

theorem getPeerInfo_router_slice (hp : p ∈ nmd.networkRouters res.networkID) :
    t.slice.getPeerInfo p = t.account.getPeerInfo p := by
  have hc := resource_collected t hr he hk
  by_cases hm : p ∈ t.collected.peers
  · exact getPeerInfo_slice t hm
  · have hno : ¬(p ∈ nmd.peers ∧ nmd.isValidated p) := fun hv =>
      hm (hc.routerPeers p hp hv.2 hv.1)
    have hs : t.slice.getPeerInfo p = none :=
      lookup_eq_none.2 hm
    have ha : t.account.getPeerInfo p = none := by
      refine lookup_eq_none.2 fun hp' => hno ?_
      exact mem_restrict.1 hp'
    rw [hs, ha]

/-- A router has the same routes to the resource. -/
theorem networkRoutes_slice {rt : NetworkRouter} (hp : p ∈ nmd.networkRouters res.networkID)
    (hem : (t.slice.resourcePoliciesMap.setAt
      res.id).isEmpty = (nmd.resourcePolicies.setAt res.id).isEmpty) :
    t.slice.getNetworkResourcesRoutes env res p rt =
      t.account.getNetworkResourcesRoutes env res p rt := by
  unfold getNetworkResourcesRoutes
  rw [getPeerInfo_router_slice t hr he hk hp, hem]
  rfl

/-- The sources of its policies are admitted in both or in neither. -/
theorem validate_resource_slice {l : List Policy}
    (hl : nmd.resourcePolicies.lookup res.id = some l) {pol : Policy}
    (hp : pol ∈ usablePolicies l) (hrc : p ∈ t.collected.peers →
      ¬nmd.Admits env pol.sourcePostureChecks p → ∃ id ∈ pol.sourcePostureChecks,
        p ∈ t.collected.postureFailedPeers.setAt id) :
    t.slice.validatePostureChecksOnPeer p pol.sourcePostureChecks ↔
      p ∈ t.collected.peers ∧ nmd.Admits env pol.sourcePostureChecks p := by
  have hkp := resourcePolicies_slice t hr he hk hl (ne_nil_of_mem hp)
  exact validate_finish (sound_collected t)
    (.inr ⟨res.id, l, hkp, (mem_usablePolicies.1 hp).1⟩) hrc

/-- A peer that does not route the resource is let in alike. -/
theorem processPolicies_slice
    (hno : t.id ∉ nmd.networkRouters res.networkID) (routers : StrMap NetworkRouter)
    (hrt : ∀ p ∈ routers, p ∈ nmd.networkRouters res.networkID) :
    t.slice.processResourcePolicies env t.id res routers =
      t.account.processResourcePolicies env t.id res routers := by
  cases hl : nmd.resourcePolicies.lookup res.id with
  | none => simp [keepsResource, hl] at hk
  | some l =>
    have hlt : (usablePolicies l).any (nmd.letsIn env t.id) = true := by
      simpa [keepsResource, hl, hno] using hk
    obtain ⟨pol, hp, hin⟩ := any_eq_true.1 hlt
    obtain ⟨hm, had⟩ := (letsIn_iff t).1 hin
    obtain ⟨rule, rest, hrl⟩ := exists_cons_of_ne_nil (mem_usablePolicies.1 hp).2.2
    rw [policyPeers_eq hrl] at hm
    have hkp := resourcePolicies_slice t hr he hk hl (ne_nil_of_mem hp)
    have ha : t.account.resourcePoliciesMap.lookup res.id = some l := hl
    have hs : (usablePolicies l).any (t.slice.admitsSource t.id) = true := by
      refine any_eq_true.2 ⟨pol, hp, Bool.and_eq_true_iff.2 ⟨contains_iff_mem.2 ?_, ?_⟩⟩
      · rw [getPolicyPeers_eq _ hrl]
        exact (self_mem_sideIDs_slice t _ _).2 hm
      · refine (validate_resource_slice t hr he hk hl hp fun _ hn => ?_).2
          ⟨self_collected t, had⟩
        exact absurd had hn
    rw [processResourcePolicies_eq, processResourcePolicies_eq, setAt_of_lookup hkp,
      setAt_of_lookup ha, admitsSource_account t, if_pos hs, if_pos hlt]
    refine flatMap_congr fun e hm => ?_
    refine networkRoutes_slice t hr he hk (hrt e.1 ?_) ?_
    · exact mem_keys.2 (mem_map.2 ⟨e, hm, rfl⟩)
    · rw [setAt_of_lookup hkp, setAt_of_lookup hl]

/-- A router of the resource knows all its source peers. -/
theorem resourceSourcePeers_slice (hforce : nmd.ResourcePoliciesInForce)
    (hrt : t.id ∈ nmd.networkRouters res.networkID) :
    t.slice.resourceSourcePeers res = t.account.resourceSourcePeers res := by
  have hc := resource_collected t hr he hk
  have hs := sound_collected t
  unfold resourceSourcePeers
  rw [usablePolicies_slice t hr he hk]
  cases hl : nmd.resourcePolicies.lookup res.id with
  | none => simp [keepsResource, hl] at hk
  | some l =>
    have hac : t.account.resourcePoliciesMap.lookup res.id = some l := hl
    rw [setAt_of_lookup hl, setAt_of_lookup hac]
    refine flatMap_congr fun pol hp => ?_
    have hsr := hc.sources hrt l hl pol hp
    obtain ⟨rule, rest, hrl⟩ := exists_cons_of_ne_nil (mem_usablePolicies.1 hp).2.2
    rw [getPolicyPeers_eq _ hrl, getPolicyPeers_eq _ hrl]
    have hgr (g : String) (hg : g ∈ pol.sourceGroups) :=
      hsr.groups g (hforce.sources_enabled _ l hl pol hp hg)
    refine filter_sideIDs_slice t hgr fun p hps => ?_
    rw [← policyPeers_eq hrl] at hps
    rw [Bool.eq_iff_iff, validate_account t.wf,
      validate_resource_slice t hr he hk hl hp fun hpc hn =>
        hsr.failed p hps (hs.peers_sub.mem hpc) (hs.validated p hpc) hn]
    exact ⟨fun hv => hv.2, fun ha => ⟨hsr.peers p hps ha, ha⟩⟩

theorem resourceSources_slice (hforce : nmd.ResourcePoliciesInForce) :
    t.slice.resourceSources t.id res = t.account.resourceSources t.id res := by
  have hrt := resourceRouters_slice t hr he hk
  unfold resourceSources
  rw [hrt]
  change _ = if t.id ∈ nmd.networkRouters res.networkID then _ else []
  split
  · rename_i hrr
    exact resourceSourcePeers_slice t hr he hk hforce hrr
  · rfl

/-- The routes to one resource are those of the account. -/
theorem resourceRoutes_slice (hforce : nmd.ResourcePoliciesInForce) :
    t.slice.resourceRoutes env t.id res = t.account.resourceRoutes env t.id res := by
  have hrr := resourceRouters_slice t hr he hk
  have ha : t.account.resourceRouters res = nmd.networkRouters res.networkID := rfl
  unfold resourceRoutes
  rw [hrr, ha]
  cases hrt : (nmd.networkRouters res.networkID).lookup t.id with
  | none =>
    exact processPolicies_slice t hr he hk (lookup_eq_none.1 hrt) _
      fun _ hp => hp
  | some router =>
    refine networkRoutes_slice t hr he hk (mem_of_lookup hrt) ?_
    cases hl : nmd.resourcePolicies.lookup res.id with
    | none => simp [keepsResource, hl] at hk
    | some l =>
      by_cases hn : l = []
      · rcases setAt_slice t hl with hs | hs
        · rw [hs, setAt_of_lookup hl]
        · rw [hs, setAt_of_lookup hl, hn]
      · have hu := hforce.some_usable _ l hl hn
        rw [setAt_of_lookup hl, setAt_of_lookup (resourcePolicies_slice t hr he hk hl hu)]

end

/-! ### Resources that are not kept, and all resources -/

section

variable (t : nmd.Target env)

/-- A resource that is not kept adds nothing over the account either. -/
theorem resource_dropped {res : NetworkResource} (hk : nmd.keepsResource env t.id res = false) :
    t.account.resourceRoutes env t.id res = [] ∧ t.account.resourceSources t.id res = [] := by
  unfold resourceRoutes resourceSources getNetworkResourcesRoutes resourceSourcePeers
  rw [processResourcePolicies_eq]
  cases hl : nmd.resourcePolicies.lookup res.id with
  | none =>
    have hs : t.account.resourcePoliciesMap.setAt res.id = [] := by
      change (nmd.resourcePolicies.lookup res.id).getD [] = []
      rw [hl]
      rfl
    rw [hs]
    constructor
    · split <;> simp [usablePolicies]
    · simp [usablePolicies]
  | some l =>
    have hno : t.id ∉ nmd.networkRouters res.networkID ∧
        (usablePolicies l).any (nmd.letsIn env t.id) = false := by
      simpa [keepsResource, hl] using hk
    have hs : t.account.resourcePoliciesMap.setAt res.id = l :=
      setAt_of_lookup hl
    have hrt : t.account.resourceRouters res = nmd.networkRouters res.networkID := rfl
    rw [hs, hrt, lookup_eq_none.2 hno.1, admitsSource_account t]
    exact ⟨if_neg (by simp [hno.2]), if_neg hno.1⟩

theorem networkResources_slice : t.slice.networkResources.filter (·.enabled) =
      (nmd.networkResources.filter (·.enabled)).filter (nmd.keepsResource env t.id) := by
  have hrs : t.slice.networkResources = _ :=
    resources_collected t
  rw [hrs, filter_filter, filter_filter, filter_filter]
  refine filter_congr fun r _ => ?_
  cases r.enabled <;> simp

variable (hforce : nmd.ResourcePoliciesInForce)

include hforce

/-- The routes to all resources are. -/
theorem routes_resources_slice : (t.slice.getNetworkResourcesRoutesToSync env t.id).routes =
      (t.account.getNetworkResourcesRoutesToSync env t.id).routes := by
  rw [resourcesToSync_eq, resourcesToSync_eq]
  rw [networkResources_slice t, enabledResources_account,
    ← flatMap_filter_eq fun r _ hk => (resource_dropped t hk).1]
  refine flatMap_congr fun r hr => ?_
  obtain ⟨hr, hk⟩ := mem_filter.1 hr
  obtain ⟨hr, he⟩ := mem_filter.1 hr
  exact resourceRoutes_slice t hr he hk hforce

/-- The source peers of all resources are. -/
theorem sources_resources_slice :
    (t.slice.getNetworkResourcesRoutesToSync env t.id).allSourcePeers =
      (t.account.getNetworkResourcesRoutesToSync env t.id).allSourcePeers := by
  rw [resourcesToSync_eq, resourcesToSync_eq]
  dsimp only
  rw [networkResources_slice t, enabledResources_account,
    ← flatMap_filter_eq fun r _ hk => (resource_dropped t hk).2]
  refine congrArg _ (flatMap_congr fun r hr => ?_)
  obtain ⟨hr, hk⟩ := mem_filter.1 hr
  obtain ⟨hr, he⟩ := mem_filter.1 hr
  exact resourceSources_slice t hr he hk hforce

end

end NetworkMapData

end Cloink
