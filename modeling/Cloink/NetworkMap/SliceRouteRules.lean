import Cloink.NetworkMap.RouteRules
import Cloink.NetworkMap.SliceResources
import Cloink.NetworkMap.SliceRoutes

/-!
# Firewall rules of routes over the slice

For the routes whose access is controlled by groups, the slice of a routing peer stands for the
account cut down to the peers of the slice: a source peer that the slice does not have is missing
from the rules. For the network resources that the peer routes, all source peers are part of the
slice, and the rules are those of the account.
-/

namespace Cloink

open NetworkMapComponents AList List

/-- The peer serves the route, by itself or as a member of a group. -/
def Route.ServedBy (groups : StrMap Group) (P : String) (r : Route) : Prop :=
  (r.peer ≠ "" ∧ r.peer = P) ∨ InGroups groups r.peerGroups P

namespace NetworkMapData

/-- The components of the account with the peers that are known. -/
def knownComponents (nmd : NetworkMapData) (env : Env) (P : String) (zone : CustomZone)
    (known : String → Bool) : NetworkMapComponents :=
  { nmd.accountComponents env P zone with peers := nmd.peers.restrict known }

variable {nmd : NetworkMapData} {env : Env} {P : String} {peer : Peer} {zone : CustomZone}

variable {r : Route}

theorem mem_routeEntries {groups : StrMap Group} {q : String} {e : Route × Bool}
    (he : e ∈ routeEntries groups q r) : r.ServedBy groups q := by
  rcases mem_append.1 he with he | he
  · obtain ⟨gid, hgd, he⟩ := mem_flatMap.1 he
    cases hg : groups.lookup gid with
    | none => simp [hg] at he
    | some g =>
      simp only [hg, mem_map, mem_filter, decide_eq_true_eq] at he
      obtain ⟨q', ⟨hp, rfl⟩, -⟩ := he
      exact .inr ⟨gid, hgd, g, hg, hp⟩
  · split at he
    · rename_i hpeer
      exact .inl (by simpa using hpeer)
    · cases he

theorem routeRelevant_of_servedBy (hs : r.ServedBy nmd.groups P) : nmd.routeRelevant P r := by
  unfold routeRelevant
  rcases hs with ⟨-, hp⟩ | ⟨gid, hgd, g, hg, hp⟩
  · simp [hp]
  · have hm : gid ∈ nmd.getPeerGroups P := mem_memberGroups.2 ⟨g, hg, hp⟩
    have ha := any_eq_true.2 ⟨gid, hgd, contains_iff_mem.2 hm⟩
    simp [ha]

/-! ### The account with the peers of the slice -/

section

variable (t : nmd.Target env)

/-- The account with the peers of the slice. -/
abbrev Target.known : NetworkMapComponents :=
  nmd.knownComponents env t.id t.zone fun q => decide (q ∈ t.collected.peers)

/-- There, a peer passes if it is kept and admitted. -/
theorem validate_known {q : String} {cks : List String} :
    t.known.validatePostureChecksOnPeer q cks ↔ q ∈ t.collected.peers ∧ nmd.Admits env cks q := by
  have hm : q ∈ t.known.peers ↔ q ∈ nmd.peers ∧ decide (q ∈ t.collected.peers) := mem_restrict
  have hv := (sound_collected t).validated q
  have hfd (id : String) : q ∈ t.account.postureFailedPeers.setAt id ↔
      nmd.isValidated q ∧ nmd.FailsCheck env id q := mem_failed_account t.wf
  rw [validate_iff, hm, decide_eq_true_eq]
  constructor
  · rintro ⟨⟨hp, hk⟩, hf⟩
    exact ⟨hk, hp, hv hk, fun id hid hfl => hf id hid ((hfd id).2 ⟨hv hk, hfl⟩)⟩
  · rintro ⟨hk, hp, -, hf⟩
    exact ⟨⟨hp, hk⟩, fun id hid hfl => hf id hid ((hfd id).1 hfl).2⟩

theorem getPeerInfo_known {q : String} (hk : q ∈ t.collected.peers) :
    t.known.getPeerInfo q = nmd.peers.lookup q :=
  (lookup_restrict _ _ _).trans (if_pos (decide_eq_true hk))

theorem routingRoutes_known :
    t.known.getRoutingPeerRoutes t.id = t.account.getRoutingPeerRoutes t.id := by
  have hkn := (getPeerInfo_known t (self_collected t)).trans t.lookup
  unfold getRoutingPeerRoutes
  rw [hkn, t.getPeerInfo_self]
  rfl

/-- A route that the peer serves is an enabled one of the account. -/
theorem exists_served_of_mem (hr : r ∈ (t.known.getRoutingPeerRoutes t.id).1) :
    ∃ r₀ ∈ nmd.routes, r₀.enabled ∧ r₀.ServedBy nmd.groups t.id ∧ r.groups = r₀.groups ∧
      r.accessControlGroups = r₀.accessControlGroups := by
  rw [routingRoutes_known] at hr
  obtain ⟨e, he, key, rfl, hen⟩ := exists_entry_of_mem_routingRoutes hr
  rw [routesByPeer_eq] at he
  obtain ⟨r₀, hr₀, he⟩ := mem_flatMap.1 he
  obtain rfl := fst_of_mem_routeEntries he
  exact ⟨e.1, hr₀, hen, mem_routeEntries he, peerRoute_groups _ _ _, peerRoute_accessGroups _ _ _⟩

end

theorem groupMembers_account (gid : String) : (nmd.accountComponents env P zone).groupMembers gid =
      (nmd.groups.lookup gid).elim [] (·.peers) := rfl

/-- A peer that a rule names is on its source side. -/
theorem mem_sideIDs_of_names (t : nmd.Target env) {rule : PolicyRule}
    (hex : rule.sourceResource.isPeer → rule.sources = []) {q : String}
    (ha : AllHolds nmd.groups q) (hn : t.account.Names rule q) :
    q ∈ sideIDs nmd.groups rule.sourceResource rule.sources := by
  unfold sideIDs
  rcases hn with ⟨gid, hgd, hm⟩ | ⟨hp, rfl⟩
  · have hnp : ¬rule.sourceResource.isPeer := fun hp => by simp [hex hp] at hgd
    rw [if_neg hnp, mem_uniquePeers ha]
    rw [groupMembers_account] at hm
    cases hg : nmd.groups.lookup gid with
    | none => simp [hg] at hm
    | some g => exact ⟨gid, hgd, g, hg, by simpa [hg] using hm⟩
  · rw [if_pos hp]
    exact mem_singleton.2 rfl

section

variable (t : nmd.Target env)

theorem groupMembers_slice {gid : String} (hg : gid ∈ nmd.groups → gid ∈ t.collected.groups) :
    t.slice.groupMembers gid = (t.account.groupMembers gid).filter fun q =>
        decide (q ∈ t.collected.peers) := by
  have hl := lookup_group_slice t hg
  rw [groupMembers_account, groupMembers, getGroupInfo, hl]
  cases nmd.groups.lookup gid <;> rfl

variable (hall : ∀ q ∈ nmd.peers, AllHolds nmd.groups q)

include hall in
/-- The sources of a rule that controls the access to a route. -/
theorem getRulePeers_access_slice {r : Route} (hr : r ∈ nmd.routes)
    (hrl : nmd.routeRelevant t.id r) (hen : r.enabled) {ag : String}
    (hac : ag ∈ r.accessControlGroups) {pol : Policy} (hpl : pol ∈ nmd.policies)
    (hpe : pol.enabled) {rule : PolicyRule} (hru : rule ∈ pol.rules) (hre : rule.enabled)
    (hex : rule.sourceResource.isPeer → rule.sources = []) (hag : ag ∈ rule.destinations)
    (hkp : pol ∈ t.collected.policies) {r' : Route}
    (hg : r'.groups = r.groups) :
    t.slice.getRulePeers rule pol.sourcePostureChecks t.id (t.slice.getDistributionGroupsPeers r') =
      t.known.getRulePeers rule pol.sourcePostureChecks t.id
          (t.known.getDistributionGroupsPeers r') := by
  have hs := sound_collected t
  have hb := (base_le_collected t).2.1
  have hsr (gid : String) (hgd : gid ∈ rule.sources) :=
    groupMembers_slice t fun hn => hb gid
      (relevant_access_groups t.id t.peer.sshEnabled t.wf.noEmptyCheck hr hrl hen hac hpl hpe hru hre
        hag (mem_append.2 (.inl hgd)) hn)
  have hds (gid : String) (hgd : gid ∈ r'.groups) :=
    groupMembers_slice t fun hn => hb gid
      (relevant_route_groups t.id t.peer.sshEnabled t.wf.noEmptyCheck hr hrl
        (by simp [routeGroupIDs, ← hg, hgd]) hn)
  have hc {q : String} (hv : t.slice.validatePostureChecksOnPeer q pol.sourcePostureChecks) :
      q ∈ t.collected.peers := (validate_iff.1 hv).1
  refine getRulePeers_congr hsr (fun q _ hv => decide_eq_true (hc hv)) (fun q hq => ?_)
    fun q hv _ => ?_
  · rw [Bool.eq_iff_iff, Bool.and_eq_true, Bool.and_eq_true, validate_known]
    have hvl (hp : q ∈ nmd.peers) := validate_source_slice t hpl hpe hru hre hkp
      (mem_sideIDs_of_names t hex (hall q hp) hq)
    have hrc (hk : q ∈ t.collected.peers) : (t.slice.getDistributionGroupsPeers r').contains q ↔
        (t.known.getDistributionGroupsPeers r').contains q = true := by
      rw [contains_iff_mem, contains_iff_mem, mem_distributionPeers, mem_distributionPeers]
      refine exists_congr fun gid => and_congr_right fun hgd => ?_
      rw [hds gid hgd, mem_filter]
      exact ⟨fun hm => hm.1, fun hm => ⟨hm, decide_eq_true hk⟩⟩
    constructor
    · rintro ⟨hd, hv⟩
      have hk := hc hv
      have hp := hs.peers_sub.mem hk
      exact ⟨(hrc hk).1 hd, hk, ((hvl hp).1 hv).2⟩
    · rintro ⟨hd, hk, ha⟩
      exact ⟨(hrc hk).2 hd, (hvl ha.1).2 ⟨hk, ha⟩⟩
  · rw [getPeerInfo_known t (hc hv)]
    exact hs.peers_sub.lookup_eq (hc hv)

/-- The rules that do so are all in the slice. -/
theorem enabledRules_access_slice (hsn : ∀ pol ∈ nmd.policies, pol.SingleRule) {r : Route}
    (hr : r ∈ nmd.routes) (hrel : nmd.routeRelevant t.id r) (hen : r.enabled) {ag : String}
    (hac : ag ∈ r.accessControlGroups) : enabledRules (t.slice.getAllRoutePoliciesFromGroups [ag]) =
      enabledRules (t.account.getAllRoutePoliciesFromGroups [ag]) := by
  obtain ⟨ags, hpl, ha⟩ :=
    relevant_policies_of_routes t.id t.peer.sshEnabled t.wf.noEmptyCheck
  have hsl : t.slice.policies =
      (nmd.policies.filter (·.enabled)).filter (nmd.policyRelevant env t.id ags) :=
    (policies_collected t).trans hpl
  rw [enabledRules_routePolicies, enabledRules_routePolicies, hsl]
  have hnl {pol : Policy} (hno : ∀ rule ∈ pol.rules, pol.enabled → rule.enabled →
      ag ∉ rule.destinations) (hs : pol.SingleRule) : enabledRules
        ((pol.rules.filter (·.destinations.contains ag)).map fun _ => pol) = [] := by
    obtain ⟨rule, hrl, -⟩ := hs
    refine eq_nil_iff_forall_not_mem.2 fun pr hpr => ?_
    obtain ⟨hm, hpe, hru, hre⟩ := mem_enabledRules.1 (show (pr.1, pr.2) ∈ _ from hpr)
    obtain ⟨rule', hr', heq⟩ := mem_map.1 hm
    rw [← heq] at hpe hru
    rw [hrl, mem_filter, mem_singleton] at hr'
    rw [hrl, mem_singleton] at hru
    refine hno pr.2 (by simp [hrl, hru]) hpe hre ?_
    rw [hru, ← hr'.1]
    exact contains_iff_mem.1 hr'.2
  refine (flatMap_filter_eq fun pol hp hn => ?_).trans (flatMap_filter_eq fun pol hp hn => ?_)
  · obtain ⟨hp, hpe⟩ := mem_filter.1 hp
    refine hnl (fun rule hru _ hre hag => ?_) (hsn pol hp)
    have hin : ag ∈ ags := (ha ag).2 ⟨r, hr, hrel, hen, hac⟩
    have hy : nmd.policyRelevant env t.id ags pol :=
      (policyRelevant_iff t.wf.noEmptyCheck t.id).2 ⟨rule, hru, hre, .inl ⟨ag, hag, hin⟩⟩
    simp [hn] at hy
  · exact hnl (fun rule _ hpe => absurd hpe (by simp [hn])) (hsn pol hp)

include hall in
/-- The firewall rules of the routes a peer serves: the slice stands for the account with the
peers of the slice. -/
theorem routeRules_slice (hsn : ∀ pol ∈ nmd.policies, pol.SingleRule)
    (includeIPv6 : Bool) : t.slice.getPeerRoutesFirewallRules t.id includeIPv6 =
      t.known.getPeerRoutesFirewallRules t.id includeIPv6 := by
  refine routeRules_congr hsn ?_ (fun r hr ag hag => ?_)
    (fun r hr ag hag pol hk hp hpe rule hru hre hd hex => ?_) includeIPv6
  · rw [routingRoutes_self_slice t, routingRoutes_known]
  · obtain ⟨r₀, hr₀, hen, hs, -, ha⟩ := exists_served_of_mem t hr
    exact enabledRules_access_slice t hsn hr₀ (routeRelevant_of_servedBy hs) hen
      (ha ▸ hag)
  · obtain ⟨r₀, hr₀, hen, hs, hg, ha⟩ := exists_served_of_mem t hr
    exact getRulePeers_access_slice t hall hr₀ (routeRelevant_of_servedBy hs) hen
      (ha ▸ hag) hp hpe hru hre hex hd hk hg

include hall in
theorem getRulePeers_resource_slice {res : NetworkResource}
    (hr : res ∈ nmd.networkResources) (he : res.enabled)
    (hrt : t.id ∈ nmd.networkRouters res.networkID) {l : List Policy}
    (hl : nmd.resourcePolicies.lookup res.id = some l) {pol : Policy}
    (hp : pol ∈ usablePolicies l) {rule : PolicyRule}
    (hrl : pol.rules = [rule]) (hre : rule.enabled)
    (hex : rule.sourceResource.isPeer → rule.sources = []) :
    t.slice.getRulePeers rule pol.sourcePostureChecks t.id (t.slice.getPoliciesSourcePeers l) =
      t.account.getRulePeers rule pol.sourcePostureChecks t.id
        (t.account.getPoliciesSourcePeers l) := by
  have hk : nmd.keepsResource env t.id res := by simp [keepsResource, hl, hrt]
  have hs := sound_collected t
  have hsc := (resource_collected t hr he hk).sources hrt l hl pol hp
  have hmm := (mem_usablePolicies.1 hp).1
  have hsr (gid : String) (hgd : gid ∈ rule.sources) :=
    groupMembers_slice t fun hn => hsc.groups gid
      (by simp [policyGroupIDs, hrl, hre, hgd]) hn
  have hcl {q : String} (hv : t.slice.validatePostureChecksOnPeer q pol.sourcePostureChecks) :
      q ∈ t.collected.peers :=
    (validate_iff.1 hv).1
  refine getRulePeers_congr hsr (fun q _ hv => decide_eq_true (hcl hv)) (fun q hq => ?_)
    fun q hv _ => getPeerInfo_slice t (hcl hv)
  -- every source peer of the rule is one the slice was made to have
  have hsd (hq' : q ∈ nmd.peers) : q ∈ nmd.resourcePolicyPeers pol := by
    have hg : pol.sourceGroups = rule.sources := by simp [Policy.sourceGroups, hrl]
    rw [policyPeers_eq hrl, hg]
    exact mem_sideIDs_of_names t hex (hall q hq') hq
  have hvl (hq' : q ∈ nmd.peers) := validate_resource_slice t hr he hk
    hl hp fun hpc hn => hsc.failed q (hsd hq') (hs.peers_sub.mem hpc) (hs.validated q hpc) hn
  have hds := contains_iff_mem.2 (mem_policiesSources.2 ⟨pol, hmm, rule, by simp [hrl], hq⟩)
  have hd' (hc : q ∈ t.collected.peers) : (t.slice.getPoliciesSourcePeers l).contains q := by
    refine contains_iff_mem.2 (mem_policiesSources.2 ⟨pol, hmm, rule, by simp [hrl], ?_⟩)
    rcases hq with ⟨gid, hgd, hm⟩ | hd
    · refine .inl ⟨gid, hgd, ?_⟩
      rw [hsr gid hgd]
      exact mem_filter.2 ⟨hm, decide_eq_true hc⟩
    · exact .inr hd
  rw [Bool.eq_iff_iff, Bool.and_eq_true, Bool.and_eq_true, validate_account t.wf]
  constructor
  · rintro ⟨-, hv⟩
    exact ⟨hds, ((hvl (hs.peers_sub.mem (hcl hv))).1 hv).2⟩
  · rintro ⟨-, ha⟩
    have hc := hsc.peers q (hsd ha.1) ha
    exact ⟨hd' hc, (hvl ha.1).2 ⟨hc, ha⟩⟩

theorem setAt_resourcePolicies_slice (hf : nmd.ResourcePoliciesInForce)
    {res : NetworkResource} (hr : res ∈ nmd.networkResources) (he : res.enabled)
    (hrt : t.id ∈ nmd.networkRouters res.networkID) :
    t.slice.resourcePoliciesMap.setAt res.id = nmd.resourcePolicies.setAt res.id := by
  have hs := sound_collected t
  by_cases hn : nmd.resourcePolicies.setAt res.id = []
  · rw [hn]
    cases hl' : t.slice.resourcePoliciesMap.lookup res.id with
    | none => simp [AList.setAt, hl']
    | some l' =>
      rw [setAt_of_lookup (hs.policies_sub _ _ hl')] at hn
      rw [setAt_of_lookup hl', hn]
  · obtain ⟨l, hl, hne⟩ := exists_lookup_of_setAt hn
    have hk : nmd.keepsResource env t.id res := by simp [keepsResource, hl, hrt]
    rw [setAt_of_lookup hl,
      setAt_of_lookup (resourcePolicies_slice t hr he hk hl (hf.some_usable _ l hl hne))]

include hall in
/-- The firewall rules of resources in the slice. -/
theorem resourceRules_slice (hf : nmd.ResourcePoliciesInForce)
    (hs : ∀ id l, nmd.resourcePolicies.lookup id = some l → ∀ pol ∈ l, pol.SingleRule)
    {routes : List Route} (hrs : ∀ r ∈ routes, r.peer = t.peer.key → ∃ res ∈ nmd.networkResources,
      res.enabled ∧ t.id ∈ nmd.networkRouters res.networkID ∧
        r.getResourceID = res.id) (includeIPv6 : Bool) :
    t.slice.getPeerNetworkResourceFirewallRules t.id routes includeIPv6 =
      t.account.getPeerNetworkResourceFirewallRules t.id routes includeIPv6 := by
  have hsl := (getPeerInfo_slice t (self_collected t)).trans t.getPeerInfo_self
  unfold getPeerNetworkResourceFirewallRules
  rw [hsl, t.getPeerInfo_self]
  refine flatMap_congr fun r hr => congrArg (List.filter _) ?_
  obtain ⟨hr, hk⟩ := mem_filter.1 hr
  obtain ⟨res, hres, he, hrt, hid⟩ := hrs r hr (of_decide_eq_true hk)
  have hsm : t.account.resourcePoliciesMap.setAt res.id = nmd.resourcePolicies.setAt res.id := rfl
  rw [hid, setAt_resourcePolicies_slice t hf hres he hrt, hsm]
  refine flatMap_congr fun ⟨pol, rule⟩ hpr => congrArg (generateRouteFirewallRules r rule
    · includeIPv6) ?_
  obtain ⟨hp, hpe, hru, hre⟩ := mem_enabledRules.1 hpr
  cases hl : nmd.resourcePolicies.lookup res.id with
  | none => simp [AList.setAt, hl] at hp
  | some l =>
    rw [setAt_of_lookup hl] at hp ⊢
    obtain ⟨rule', hrl, hex⟩ := hs res.id l hl pol hp
    rw [hrl, mem_singleton] at hru
    subst hru
    have hu : pol ∈ usablePolicies l :=
      mem_usablePolicies.2 ⟨hp, hpe, by simp [hrl]⟩
    exact getRulePeers_resource_slice t hall hres he hrt hl hu hrl hre hex

end

end NetworkMapData

end Cloink
