import Cloink.NetworkMap.Admission

/-!
# The components of the whole account

The unsliced components of a peer: all validated peers, all groups, policies, routes and enabled
resources, and every check that fails on a validated peer. They say what the calculation would
yield if nothing were left out, and slicing is measured against them.
-/

namespace Cloink

open NetworkMapComponents AList List Option

namespace NetworkMapData

variable (nmd : NetworkMapData) (env : Env)

/-- The check rejects the peer, which exists. -/
def failsCheck (checkID p : String) : Bool :=
  (nmd.peers.lookup p).elim false fun peer => !nmd.postureCheckPasses env checkID p peer

/-- The components of a peer with nothing of the account left out. -/
def accountComponents (peerID : String) (peersCustomZone : CustomZone) : NetworkMapComponents where
  peerID := peerID
  accountSettings := nmd.accountSettings
  dnsSettings := nmd.dnsSettings
  customZoneDomain := peersCustomZone.domain
  allDNSRecords := peersCustomZone.records
  peers := nmd.peers.restrict nmd.isValidated
  groups := nmd.groups
  policies := nmd.policies
  routes := nmd.routes
  nameServerGroups := nmd.nameServerGroups
  accountZones := nmd.appliedZones (nmd.getPeerGroups peerID) ++
    nmd.privateServiceZones (nmd.getPeerGroups peerID)
  resourcePoliciesMap := nmd.resourcePolicies
  routersMap := nmd.routers
  networkResources := nmd.networkResources.filter (·.enabled)
  groupIDToUserIDs := nmd.groupIDToUserIDs
  allowedUserIDs := nmd.allowedUserIDs
  postureFailedPeers := nmd.postureChecks.mapVals fun checkID _ =>
    (nmd.peers.keys.filter nmd.isValidated).filter (nmd.failsCheck env checkID)
  routerPeers := nmd.peers.restrict fun p =>
    nmd.isValidated p && nmd.routers.entries.any fun e => decide (p ∈ e.2)
  networkXIDToPublicID := nmd.networkXIDToPublicID
  postureCheckXIDToPublicID := nmd.postureCheckXIDToPublicID
  forceRoutingPeerDNSResolution := nmd.forcesRoutingPeerDNSResolution peerID

/-- What the builders of the account data provide: peers are stored under their ids, and posture
results computed ahead are those of the checks, none of which has an empty id. -/
structure WellFormed : Prop where
  peer_id : ∀ id peer, nmd.peers.lookup id = some peer → peer.id = id
  check_id : "" ∉ nmd.postureChecks
  cached : ∀ checkID p peer valid, nmd.peers.lookup p = some peer →
    nmd.cachedPostureCheckResult checkID p = some valid →
    valid = (nmd.postureChecks.lookup checkID).elim true fun pc => pc.passes env peer

variable {nmd env}

variable {p peerID : String} {zone : CustomZone}

theorem failsCheck_iff {cid : String} : nmd.failsCheck env cid p ↔ nmd.FailsCheck env cid p := by
  unfold failsCheck FailsCheck
  cases nmd.peers.lookup p <;> simp

namespace WellFormed

variable (h : nmd.WellFormed env)

include h

theorem failsCheck_iff {cid p : String} : nmd.FailsCheck env cid p ↔
    ∃ peer, nmd.peers.lookup p = some peer ∧
      ∃ pc, nmd.postureChecks.lookup cid = some pc ∧ pc.passes env peer = false := by
  refine exists_congr fun peer => and_congr_right fun hp => ?_
  have hps : nmd.postureCheckPasses env cid p peer =
      (nmd.postureChecks.lookup cid).elim true fun pc => pc.passes env peer := by
    unfold postureCheckPasses
    cases hc : nmd.cachedPostureCheckResult cid p with
    | none => rfl
    | some valid => exact h.cached cid p peer valid hp hc
  rw [hps]
  cases nmd.postureChecks.lookup cid <;> simp

theorem noEmptyCheck : nmd.NoEmptyCheck env := by
  intro p hf
  obtain ⟨-, -, pc, hpc, -⟩ := h.failsCheck_iff.1 hf
  exact h.check_id (mem_of_lookup hpc)

end WellFormed

/-- The account has every validated peer. -/
theorem getPeerInfo_account {q : Peer} :
    (nmd.accountComponents env peerID zone).getPeerInfo p = some q ↔
      nmd.isValidated p ∧ nmd.peers.lookup p = some q := by
  change (nmd.peers.restrict nmd.isValidated).lookup p = some q ↔ _
  rw [lookup_restrict]
  split <;> simp_all

theorem enabledResources_account :
    (nmd.accountComponents env peerID zone).networkResources.filter (·.enabled) =
      nmd.networkResources.filter (·.enabled) := by
  simp [accountComponents, List.filter_filter]

/-- It has every failure of a validated peer. -/
theorem mem_failed_account (h : nmd.WellFormed env) {cid : String} :
    p ∈ (nmd.accountComponents env peerID zone).postureFailedPeers.setAt cid ↔
      nmd.isValidated p ∧ nmd.FailsCheck env cid p := by
  simp only [accountComponents, AList.setAt, lookup_mapVals]
  cases hc : nmd.postureChecks.lookup cid with
  | none =>
    simp only [map_none, getD_none, not_mem_nil, false_iff, not_and]
    intro _ hfl
    obtain ⟨-, -, pc, hpc, -⟩ := h.failsCheck_iff.1 hfl
    rw [hc] at hpc
    cases hpc
  | some pc =>
    simp only [map_some, getD_some, mem_filter, NetworkMapData.failsCheck_iff]
    constructor
    · rintro ⟨⟨-, hv⟩, hf⟩
      exact ⟨hv, hf⟩
    · rintro ⟨hv, hf⟩
      obtain ⟨peer, hp, -⟩ := id hf
      exact ⟨⟨mem_keys.1 (mem_of_lookup hp), hv⟩, hf⟩

/-- A peer passes exactly when it is admitted. -/
theorem validate_account (h : nmd.WellFormed env) {cks : List String} :
    (nmd.accountComponents env peerID zone).validatePostureChecksOnPeer p cks ↔
      nmd.Admits env cks p := by
  have hm : p ∈ (nmd.accountComponents env peerID zone).peers ↔
      p ∈ nmd.peers ∧ nmd.isValidated p := AList.mem_restrict
  unfold validatePostureChecksOnPeer
  simp only [Bool.and_eq_true, decide_eq_true_eq, hm, List.all_eq_true, Bool.not_eq_true',
    List.contains_eq_mem, decide_eq_false_iff_not, mem_failed_account h, not_and, Admits, and_assoc]
  constructor
  · rintro ⟨hp, hv, hf⟩
    exact ⟨hp, hv, fun id hid => hf id hid hv⟩
  · rintro ⟨hp, hv, hf⟩
    exact ⟨hp, hv, fun id hid _ => hf id hid⟩

/-! ### Posture results computed ahead -/

private theorem lookup_evaluateChecks {pc : PostureChecks} {valid : Bool}
    (peerIDs : List String) (results : StrMap Bool) (hr : ∀ p valid, results.lookup p = some valid →
      ∃ peer, nmd.peers.lookup p = some peer ∧ valid = pc.passes env peer)
    (h : (peerIDs.foldl (nmd.addPostureResult (pc.getChecks env)) results).lookup p = some valid) :
    ∃ peer, nmd.peers.lookup p = some peer ∧ valid = pc.passes env peer := by
  induction peerIDs generalizing results with
  | nil => exact hr p valid h
  | cons q l ih =>
    refine ih _ (fun p' valid' h' => ?_) h
    unfold addPostureResult at h'
    cases hq : nmd.peers.lookup q with
    | none =>
      simp only [hq] at h'
      exact hr p' valid' h'
    | some peer =>
      simp only [hq] at h'
      by_cases hp : p' = q
      · subst hp
        exact ⟨peer, hq, (some.inj ((lookup_insert _).symm.trans h')).symm⟩
      · exact hr p' valid' ((lookup_insert_ne hp).symm.trans h')

/-- The cached results are those of the checks. -/
theorem cached_precompute {id : String} {peer : Peer} {valid : Bool}
    (hp : nmd.peers.lookup p = some peer)
    (hc : (nmd.precomputePostureValidation env).cachedPostureCheckResult id p = some valid) :
    valid = (nmd.postureChecks.lookup id).elim true fun pc => pc.passes env peer := by
  by_cases he : nmd.postureChecks.entries.isEmpty
  · simp [cachedPostureCheckResult, precomputePostureValidation, he] at hc
  · simp only [cachedPostureCheckResult, precomputePostureValidation, he,
      lookup_mapVals, Bool.false_eq_true, ↓reduceIte] at hc
    cases hi : nmd.checkPeerIDs.lookup id with
    | none => simp [hi] at hc
    | some ids =>
      simp only [hi, map_some, evaluatePostureChecksForPeers] at hc
      cases hpc : nmd.postureChecks.lookup id with
      | none => simpa [hpc, eq_comm] using hc
      | some pc =>
        simp only [hpc, map_some] at hc
        obtain ⟨peer', hp', hv⟩ := lookup_evaluateChecks ids ∅ (by simp) hc
        obtain rfl : peer = peer' := some.inj (hp.symm.trans hp')
        exact hv

/-- The precomputed results make the data well formed. -/
theorem WellFormed.precompute (hid : ∀ id peer, nmd.peers.lookup id = some peer → peer.id = id)
    (hch : "" ∉ nmd.postureChecks) : (nmd.precomputePostureValidation env).WellFormed env where
  peer_id := hid
  check_id := hch
  cached _ _ _ _ := cached_precompute

/-! ### Reverse-proxy policies -/

/-- Some policy of every non-empty list of a resource is in force, and the source groups of a
policy that is in force are groups of its enabled rules. -/
structure ResourcePoliciesInForce (nmd : NetworkMapData) : Prop where
  some_usable : ∀ id l, nmd.resourcePolicies.lookup id = some l → l ≠ [] → usablePolicies l ≠ []
  sources_enabled : ∀ id l, nmd.resourcePolicies.lookup id = some l →
    ∀ policy ∈ usablePolicies l, policy.sourceGroups ⊆ policyGroupIDs policy

/-- A policy that is enabled and has rules, all of them enabled. -/
def FullyEnabled (policy : Policy) : Prop :=
  policy.enabled ∧ policy.rules ≠ [] ∧ ∀ rule ∈ policy.rules, rule.enabled

theorem FullyEnabled.sourceGroups_subset {pol : Policy} (h : FullyEnabled pol) :
    pol.sourceGroups ⊆ policyGroupIDs pol := by
  intro g hg
  obtain ⟨r, hr, hgr⟩ := Policy.mem_sourceGroups.1 hg
  exact mem_flatMap.2 ⟨r, mem_filter.2 ⟨hr, h.2.2 r hr⟩, mem_append.2 (.inl hgr)⟩

theorem fullyEnabled_servicePolicies (svc : Service) :
    ∀ pol ∈ nmd.servicePolicies svc, FullyEnabled pol := by
  intro pol hp
  have hpx (tgt : ServiceTarget) (peer : Peer) (port : UInt16) :
      FullyEnabled (proxyAccessPolicy svc tgt peer port) :=
    ⟨rfl, cons_ne_nil _ _, fun rule h => by rw [mem_singleton.1 h]⟩
  have hpr (peer : Peer) (groups : List String) :
      FullyEnabled (privateAccessPolicy svc peer groups) :=
    ⟨rfl, cons_ne_nil _ _, fun rule h => by rw [mem_singleton.1 h]⟩
  rcases mem_append.1 hp with hp | hp
  · obtain ⟨tgt, -, hp⟩ := mem_flatMap.1 hp
    split at hp
    · simp at hp
    · obtain ⟨peer, -, rfl⟩ := mem_map.1 hp
      exact hpx _ _ _
  · split at hp
    · obtain ⟨peer, -, rfl⟩ := mem_map.1 hp
      exact hpr _ _
    · simp at hp

/-- The policies added for the reverse-proxy services. -/
def injectedPolicies (nmd : NetworkMapData) : List Policy :=
  (nmd.services.filter (·.enabled)).flatMap nmd.servicePolicies

theorem foldl_addInjectedPolicy_eq (l : List Policy) (nmd : NetworkMapData) :
    l.foldl addInjectedPolicy nmd =
      { nmd with
        policies := nmd.policies ++ l
        resourcePolicies := (l.foldl addInjectedPolicy nmd).resourcePolicies } := by
  induction l generalizing nmd with
  | nil => simp
  | cons policy l ih =>
    rw [foldl_cons, ih]
    simp [addInjectedPolicy]

/-- The injection in closed form: policies are appended. -/
theorem injectProxy_eq (nmd : NetworkMapData) : nmd.injectProxyPolicies =
    { nmd with
      policies := nmd.policies ++ nmd.injectedPolicies
      resourcePolicies := nmd.injectProxyPolicies.resourcePolicies } :=
  foldl_addInjectedPolicy_eq _ nmd

/-- The injection keeps the data well formed. -/
theorem WellFormed.inject (h : nmd.WellFormed env) : nmd.injectProxyPolicies.WellFormed env := by
  rw [injectProxy_eq]
  exact ⟨h.peer_id, h.check_id, h.cached⟩

theorem ResourcePoliciesInForce.addInjectedPolicy (h : nmd.ResourcePoliciesInForce)
    {pol : Policy} (hp : FullyEnabled pol) :
    (nmd.addInjectedPolicy pol).ResourcePoliciesInForce := by
  unfold NetworkMapData.addInjectedPolicy
  cases hr : nmd.injectedResource pol with
  | none => exact ⟨h.some_usable, h.sources_enabled⟩
  | some rid =>
    have hs (id : String) (l : List Policy)
        (hl : (nmd.resourcePolicies.insert rid (nmd.resourcePolicies.setAt rid ++ [pol])).lookup id
          = some l) :
        nmd.resourcePolicies.lookup id = some l ∨ l = nmd.resourcePolicies.setAt rid ++ [pol] := by
      by_cases hid : id = rid
      · subst hid
        exact .inr (some.inj ((lookup_insert _).symm.trans hl)).symm
      · exact .inl ((lookup_insert_ne hid).symm.trans hl)
    have hu : pol ∈ usablePolicies (nmd.resourcePolicies.setAt rid ++ [pol]) := by
      simp [usablePolicies, hp.1, hp.2.1]
    refine ⟨fun id l hl hne => ?_, fun id l hl q hq => ?_⟩
    · rcases hs id l hl with hl | rfl
      · exact h.some_usable id l hl hne
      · exact ne_nil_of_mem hu
    · rcases hs id l hl with hl | rfl
      · exact h.sources_enabled id l hl q hq
      · simp only [usablePolicies, filter_append, mem_append] at hq
        rcases hq with hq | hq
        · cases ho : nmd.resourcePolicies.lookup rid with
          | none => simp [AList.setAt, ho] at hq
          | some old =>
            rw [setAt_of_lookup ho] at hq
            exact h.sources_enabled rid old ho q hq
        · obtain rfl := mem_singleton.1 (mem_filter.1 hq).1
          exact hp.sourceGroups_subset

/-- It keeps the policies of resources in force. -/
theorem ResourcePoliciesInForce.inject (h : nmd.ResourcePoliciesInForce) :
    nmd.injectProxyPolicies.ResourcePoliciesInForce := by
  refine List.foldlRecOn _ _ h fun nmd' h' pol hp => h'.addInjectedPolicy ?_
  obtain ⟨svc, -, hp⟩ := mem_flatMap.1 hp
  exact fullyEnabled_servicePolicies svc pol hp

end NetworkMapData

end Cloink
