import Cloink.AffectedPeers.ResourceAlike

/-!
# Changes of policies

Two states of an account, one of which has some more policies. A peer that is on no side of their
rules and routes none of the resources they lead to keeps its network map, as long as they do not
control the access to a route that it serves, and do not bring a peer that may use such a route into
its slice.
-/

namespace Cloink

open NetworkMapComponents NetworkMapData AList List

def PolicyRule.Outside (groups : StrMap Group) (P : String) (rule : PolicyRule) : Prop :=
  P ∉ sideIDs groups rule.sourceResource rule.sources ∧
    P ∉ sideIDs groups rule.destinationResource rule.destinations

namespace NetworkMapData

variable {nmd nmd' : NetworkMapData} {env : Env} {resource : NetworkResource}
  {front added back : List Policy}

theorem enabledRules_append (l l' : List Policy) :
    enabledRules (l ++ l') = enabledRules l ++ enabledRules l' := by
  simp [enabledRules]

theorem Twin.connections_added (t : Twin nmd nmd' env) (hpol : nmd.policies = front ++ back)
    (hpol' : nmd'.policies = front ++ added ++ back)
    (ho : ∀ pol ∈ added, pol.enabled → ∀ rule ∈ pol.rules, rule.enabled →
      rule.Outside nmd.groups t.id) :
    t.account'.getPeerConnectionResources env t.id =
      t.account.getPeerConnectionResources env t.id := by
  have hpl : t.account.policies = front ++ back := hpol
  have hpl' : t.account'.policies = front ++ added ++ back := hpol'
  have hsk (st : PeerConnections) : (enabledRules added).foldl (fun st pr =>
      t.account.connectRule env t.peer t.id pr.1.sourcePostureChecks st pr.2) st = st := by
    rw [← foldl_filter_eq (p := fun _ => false) fun st pr hpr _ => ?_]
    · simp
    · obtain ⟨hp, hpe, hr, hre⟩ := mem_enabledRules.1 hpr
      have hrl := ho _ hp hpe _ hr hre
      exact connectRule_outside t.wf (fun hin => hrl.1 hin.1) (fun hin => hrl.2 hin.1) st
  unfold getPeerConnectionResources
  rw [t.getPeerInfo, t.getPeerInfo_self, hpl, hpl']
  simp only [t.connectRule, enabledRules_append, foldl_append, hsk]

/-- The resource has some more policies. None of these lets the peer in, and there are none if the
peer routes the resource. -/
structure ResourceAdded (nmd nmd' : NetworkMapData) (env : Env) (P : String)
    (resource : NetworkResource) (front added back : List Policy) : Prop where
  before : nmd.resourcePolicies.lookup resource.id = some (front ++ back)
  after : nmd'.resourcePolicies.lookup resource.id = some (front ++ added ++ back)
  routers : nmd'.networkRouters resource.networkID = nmd.networkRouters resource.networkID
  closed : ∀ policy ∈ added, nmd.letsIn env P policy = false
  routed : P ∈ nmd.networkRouters resource.networkID → added = []

/-- In a list with further elements that fail a test, the same elements come after the first one
that passes it, but for the further ones. -/
theorem exists_mem_tail_dropWhile {α : Type} {p : α → Bool} {X : α → Prop} (front : List α)
    {added back : List α} (hp : ∀ x ∈ added, p x)
    (hX : (∃ x ∈ front ++ back, p x = false) → ∀ x ∈ added, ¬X x) :
    (∃ x ∈ ((front ++ added ++ back).dropWhile p).tail, X x) ↔
      ∃ x ∈ ((front ++ back).dropWhile p).tail, X x := by
  induction front with
  | nil => rw [nil_append, nil_append, dropWhile_append_of_pos hp]
  | cons x front ih =>
    cases hx : p x with
    | true =>
      simp only [cons_append, dropWhile_cons_of_pos hx]
      exact ih fun ⟨y, hy, hpy⟩ => hX ⟨y, mem_cons_of_mem x hy, hpy⟩
    | false =>
      have hn := hX ⟨x, mem_cons_self, hx⟩
      simp only [cons_append, dropWhile_cons, hx, Bool.false_eq_true, ↓reduceIte,
        tail_cons, mem_append]
      constructor
      · rintro ⟨y, (hy | hy) | hy, hXy⟩
        · exact ⟨y, .inl hy, hXy⟩
        · exact absurd hXy (hn y hy)
        · exact ⟨y, .inr hy, hXy⟩
      · rintro ⟨y, hy | hy, hXy⟩
        · exact ⟨y, .inl (.inl hy), hXy⟩
        · exact ⟨y, .inr hy, hXy⟩

theorem usablePolicies_append (l l' : List Policy) :
    usablePolicies (l ++ l') = usablePolicies l ++ usablePolicies l' :=
  filter_append _ _

namespace ResourceAdded

variable {t : Twin nmd nmd' env} (hr : ResourceAdded nmd nmd' env t.id resource front added back)

include hr

theorem setAt : nmd.resourcePolicies.setAt resource.id = front ++ back :=
  setAt_of_lookup hr.before

theorem setAt' : nmd'.resourcePolicies.setAt resource.id = front ++ added ++ back :=
  setAt_of_lookup hr.after

/-- For a router of the resource, the added policies make no difference. -/
theorem alike (hrt : t.id ∈ nmd.networkRouters resource.networkID) :
    ResourceAlike nmd nmd' env t.id resource where
  policies := by rw [hr.after, hr.before, hr.routed hrt, append_nil]
  router := by rw [hr.routers]
  routers _ := hr.routers

theorem closed_usable : ∀ pol ∈ usablePolicies added, nmd.letsIn env t.id pol = false :=
  fun pol hp => hr.closed pol (mem_usablePolicies.1 hp).1

/-- They do not let the peer in. -/
theorem any_letsIn : (usablePolicies (front ++ added ++ back)).any (nmd.letsIn env t.id) =
    (usablePolicies (front ++ back)).any (nmd.letsIn env t.id) := by
  have hn : (usablePolicies added).any (nmd.letsIn env t.id) = false :=
    any_eq_false.2 fun pol hp => by simp [hr.closed_usable pol hp]
  simp only [usablePolicies_append, any_append, hn, Bool.or_false]

/-- The routes to the resource stay the same. -/
theorem routes : t.account'.resourceRoutes env t.id resource =
    t.account.resourceRoutes env t.id resource := by
  by_cases hrt : t.id ∈ nmd.networkRouters resource.networkID
  · exact t.resourceRoutes (hr.alike hrt)
  · have hl : (t.account.resourceRouters resource).lookup t.id = none := lookup_eq_none.2 hrt
    have hrr : t.account'.resourceRouters resource = t.account.resourceRouters resource :=
      hr.routers
    have hpol : t.account.resourcePoliciesMap.setAt resource.id = front ++ back := hr.setAt
    have hp' : t.account'.resourcePoliciesMap.setAt resource.id = front ++ added ++ back :=
      hr.setAt'
    unfold resourceRoutes
    rw [hrr, hl]
    dsimp only
    rw [processResourcePolicies_eq, processResourcePolicies_eq, hpol, hp',
      admitsSource_account t.other, admitsSource_account t.toTarget, t.letsIn, hr.any_letsIn]
    split
    · rename_i hin
      -- a policy lets the peer in, so that neither list is empty
      obtain ⟨pol, hp, -⟩ := any_eq_true.1 hin
      have hmm := (mem_usablePolicies.1 hp).1
      have hne : (front ++ back).isEmpty = false :=
        isEmpty_eq_false_iff_exists_mem.2 ⟨pol, hmm⟩
      have hne' : (front ++ added ++ back).isEmpty = false := by
        refine isEmpty_eq_false_iff_exists_mem.2 ⟨pol, ?_⟩
        rcases mem_append.1 hmm with hmm | hmm <;> simp [hmm]
      refine flatMap_congr fun e _ => ?_
      unfold getNetworkResourcesRoutes
      rw [hpol, hp', hne, hne', t.getPeerInfo]
    · rfl

/-- So do its source peers. -/
theorem sources : t.account'.resourceSources t.id resource =
    t.account.resourceSources t.id resource := by
  by_cases hrt : t.id ∈ nmd.networkRouters resource.networkID
  · exact t.resourceSources (hr.alike hrt)
  · have hn : t.id ∉ t.account.resourceRouters resource := hrt
    have hrr : t.account'.resourceRouters resource = t.account.resourceRouters resource :=
      hr.routers
    unfold resourceSources
    rw [hrr, if_neg hn, if_neg hn]

/-- Such a resource brings in the same peers, but for sources of the further policies if the peer is
let in. -/
theorem brings {q : String} (hq : (∃ pol ∈ usablePolicies (front ++ back), nmd.letsIn env t.id pol) →
      ∀ pol ∈ added, q ∉ nmd.resourcePolicyPeers pol) :
    nmd'.ResourceBrings env t.id resource q ↔ nmd.ResourceBrings env t.id resource q := by
  by_cases hrt : t.id ∈ nmd.networkRouters resource.networkID
  · refine t.resourceBrings (hr.alike hrt) fun _ => ?_
    rw [hr.routers]
  · have hk : nmd'.keepsResource env t.id resource = nmd.keepsResource env t.id resource := by
      unfold keepsResource
      simp only [hr.before, hr.after, hr.routers, t.letsIn, Option.elim_some, hr.any_letsIn]
    have hc : (∃ pol ∈ nmd'.collectedPolicies env t.id resource,
          q ∈ nmd.resourcePolicyPeers pol ∧ nmd.Admits env pol.sourcePostureChecks q) ↔
        ∃ pol ∈ nmd.collectedPolicies env t.id resource,
          q ∈ nmd.resourcePolicyPeers pol ∧ nmd.Admits env pol.sourcePostureChecks q := by
      unfold collectedPolicies
      simp only [hr.routers, hrt, ↓reduceIte, hr.setAt, hr.setAt', t.letsIn, usablePolicies_append]
      refine exists_mem_tail_dropWhile _ (fun pol hp => by simp [hr.closed_usable pol hp]) ?_
      rintro ⟨pol, hp, hin⟩ pol' hp' hXp
      refine hq ⟨pol, ?_, by simpa using hin⟩ pol' (mem_usablePolicies.1 hp').1 hXp.1
      rw [usablePolicies_append]
      exact hp
    unfold ResourceBrings
    simp only [hk, hr.routers, t.store.isValidated, t.store.peers, t.policyPeers, t.admits_iff, hc]

end ResourceAdded

end NetworkMapData

namespace Account

variable {a : Account} {env : Env} {P : String} {front added back : List Policy}

def withPolicies (a : Account) (policies : List Policy) : Account := { a with policies }

/-- The policies, which the account does not have, would not reach the peer: it is on no side of
their rules and routes none of the resources these lead to. The rules lead to no access-control group
of a route the peer serves, and where the peer is let into a resource they do not bring in a peer
that may use such a route. -/
structure Bypassed (a : Account) (env : Env) (P : String) (policies : List Policy) : Prop where
  outside : ∀ policy ∈ policies, policy.enabled → ∀ rule ∈ policy.rules, rule.enabled →
    rule.Outside a.groups P
  router : ∀ policy ∈ policies, policy.enabled → ∀ rule ∈ policy.rules, rule.enabled →
    ∀ r ∈ a.networkResources, r.enabled → a.leadsTo rule r.id →
      P ∉ (a.mapData env).networkRouters r.networkID
  access : ∀ policy ∈ policies, policy.enabled → ∀ rule ∈ policy.rules, rule.enabled →
    ∀ r ∈ a.routes, r.enabled → r.ServedBy a.groups P → ∀ ag ∈ r.accessControlGroups,
      ag ∉ rule.destinations
  source : ∀ policy ∈ policies, policy.enabled → ∀ rule ∈ policy.rules, rule.enabled →
    ∀ r ∈ a.networkResources, r.enabled → a.leadsTo rule r.id →
      (∃ other ∈ usablePolicies ((a.mapData env).resourcePolicies.setAt r.id),
        (a.mapData env).letsIn env P other = true) →
      ∀ q ∈ sideIDs a.groups rule.sourceResource rule.sources, ¬(a.mapData env).MayUse env P q

theorem Bypassed.mono {policies pols' : List Policy} (h : a.Bypassed env P policies)
    (hsb : ∀ pol ∈ pols', pol ∈ policies) : a.Bypassed env P pols' where
  outside pol hp := h.outside pol (hsb pol hp)
  router pol hp := h.router pol (hsb pol hp)
  access pol hp := h.access pol (hsb pol hp)
  source pol hp := h.source pol (hsb pol hp)

theorem WellFormed.withPolicies (h : a.WellFormed) {policies : List Policy}
    (hsn : ∀ pol ∈ policies, pol.SingleRule) : (a.withPolicies policies).WellFormed :=
  { h with single_rule := hsn }

/-- Other policies leave the stored data alone. -/
theorem sameStore_withPolicies (a : Account) (policies : List Policy) (env : Env) :
    SameStore (a.mapData env) ((a.withPolicies policies).mapData env) := by
  rw [mapData_eq a, mapData_eq (a.withPolicies policies)]
  exact ⟨rfl, rfl, rfl, rfl, rfl, rfl, rfl, rfl⟩

theorem proxyPolicies_withPolicies (a : Account) (policies : List Policy) :
    (a.withPolicies policies).proxyPolicies = a.proxyPolicies := rfl

/-- A validated peer of an account, in a further state with other policies. -/
abbrev WellFormed.twin {policies : List Policy} (h : a.WellFormed)
    (h' : (a.withPolicies policies).WellFormed) {peer : Peer} (hpr : a.peers.lookup P = some peer)
    (hv : P ∈ a.validatedPeers) (env : Env) (zone : CustomZone) :
    Twin (a.mapData env) ((a.withPolicies policies).mapData env) env where
  id := P
  peer := peer
  zone := zone
  wf := h.mapData env
  lookup := by rw [mapData_peers]; exact hpr
  valid := isValidated_mapData hv
  all := by rw [mapData_groups]; exact h.all_holds P (mem_of_lookup hpr)
  wf' := h'.mapData env
  store := sameStore_withPolicies a policies env

theorem networkRouters_withPolicies (a : Account) (policies : List Policy) (n : String) :
    ((a.withPolicies policies).mapData env).networkRouters n = (a.mapData env).networkRouters n := by
  rw [networkRouters_mapData, networkRouters_mapData]
  rfl

variable (a) in
/-- The policies of the list that lead to the resource. -/
def appliedPolicies (resourceID : String) (policies : List Policy) : List Policy :=
  (policies.filter (·.enabled)).flatMap fun policy =>
    appliedPolicy (a.getNetworkResourceGroups resourceID) resourceID policy policy.rules

theorem appliedPolicies_append (rid : String) (l l' : List Policy) :
    a.appliedPolicies rid (l ++ l') = a.appliedPolicies rid l ++ a.appliedPolicies rid l' := by
  simp [appliedPolicies]

/-- A policy applies to a resource by an enabled rule that leads to it. -/
theorem mem_appliedPolicies {rid : String} {l : List Policy} {pol : Policy} :
    pol ∈ a.appliedPolicies rid l ↔ pol ∈ l ∧ pol.enabled ∧
      ∃ rule ∈ pol.rules, rule.enabled ∧ a.leadsTo rule rid :=
  mem_policiesForResource (a := a.withPolicies l)

theorem exists_rule_of_applied (env : Env) (hsn : ∀ pol ∈ added, pol.SingleRule)
    {rid : String} {pol : Policy} (hp : pol ∈ a.appliedPolicies rid added) :
    pol ∈ added ∧ pol.enabled ∧ ∃ rule ∈ pol.rules, rule.enabled ∧ a.leadsTo rule rid ∧
        (a.mapData env).resourcePolicyPeers pol =
          sideIDs a.groups rule.sourceResource rule.sources := by
  obtain ⟨hmm, hpe, rule, hr, hre, hl⟩ := mem_appliedPolicies.1 hp
  obtain ⟨rule', ho, -⟩ := hsn pol hmm
  rw [ho, mem_singleton] at hr
  subst hr
  refine ⟨hmm, hpe, rule, by simp [ho], hre, hl, ?_⟩
  rw [policyPeers_eq ho, mapData_groups]
  simp [Policy.sourceGroups, ho]

section

variable (h : a.WellFormed) (h' : (a.withPolicies (front ++ added ++ back)).WellFormed)
  (hpol : a.policies = front ++ back)
  {t : Twin (a.mapData env) ((a.withPolicies (front ++ added ++ back)).mapData env) env}
  (hby : a.Bypassed env t.id added)

include h' in
theorem singleRule_added : ∀ pol ∈ added, pol.SingleRule := fun pol hp =>
  h'.single_rule pol (mem_append.2 (.inl (mem_append.2 (.inr hp))))

include h' hpol hby

theorem resourceAdded {r : NetworkResource} (hr : r ∈ a.networkResources) (he : r.enabled) :
    ResourceAdded (a.mapData env) ((a.withPolicies (front ++ added ++ back)).mapData env) env t.id r
      (a.appliedPolicies r.id front) (a.appliedPolicies r.id added)
      (a.appliedPolicies r.id back ++
        a.proxyPolicies.filter fun pol => a.proxyResource pol = some r.id) where
  before := by
    have hl : a.getPoliciesForNetworkResource r.id = a.appliedPolicies r.id (front ++ back) := by
      rw [← hpol]
      rfl
    rw [lookup_mapData hr he, hl, appliedPolicies_append, append_assoc]
  after := by
    have hl : (a.withPolicies (front ++ added ++ back)).getPoliciesForNetworkResource r.id =
        a.appliedPolicies r.id (front ++ added ++ back) := rfl
    rw [lookup_mapData (a := a.withPolicies (front ++ added ++ back)) hr he, hl,
      proxyPolicies_withPolicies, appliedPolicies_append, appliedPolicies_append, append_assoc]
    rfl
  routers := networkRouters_withPolicies a _ _
  closed := fun pol hp => by
    obtain ⟨hmm, hpe, rule, hru, hre, -, hpr⟩ :=
      exists_rule_of_applied env (singleRule_added h') hp
    rw [Bool.eq_false_iff, ne_eq, letsIn_iff t.toTarget, hpr]
    exact fun hin => (hby.outside pol hmm hpe rule hru hre).1 hin.1
  routed := fun hrt => by
    refine eq_nil_iff_forall_not_mem.2 fun pol hp => ?_
    obtain ⟨hmm, hpe, rule, hru, hre, hld⟩ := mem_appliedPolicies.1 hp
    exact hby.router pol hmm hpe rule hru hre r hr he hld hrt

/-- No rule is added for an access-control group of a route that the peer serves. -/
theorem enabledRules_added {r : Route} (hr : r ∈ a.routes) (he : r.enabled)
    (hsr : r.ServedBy a.groups t.id) {ag : String} (hag : ag ∈ r.accessControlGroups) :
    enabledRules (t.account'.getAllRoutePoliciesFromGroups [ag]) =
      enabledRules (t.account.getAllRoutePoliciesFromGroups [ag]) := by
  have hn : (added.flatMap fun pol => enabledRules
      ((pol.rules.filter (·.destinations.contains ag)).map fun _ => pol)) = [] := by
    refine flatMap_eq_nil_iff.2 fun pol hp => eq_nil_iff_forall_not_mem.2 ?_
    rintro ⟨policy', rule⟩ hpr
    obtain ⟨hp', hpe, hru, hre⟩ := mem_enabledRules.1 hpr
    obtain ⟨rule', hru', rfl⟩ := mem_map.1 hp'
    obtain ⟨hru', hin⟩ := mem_filter.1 hru'
    obtain ⟨only, ho, -⟩ := singleRule_added h' pol hp
    rw [ho, mem_singleton] at hru hru'
    subst hru hru'
    exact hby.access pol hp hpe rule' (by simp [ho]) hre r hr he hsr ag hag
      (contains_iff_mem.1 hin)
  have hpl : t.account.policies = front ++ back ++ a.proxyPolicies := by
    rw [← hpol]
    exact mapData_policies
  have hpl' : t.account'.policies = front ++ added ++ back ++ a.proxyPolicies :=
    mapData_policies.trans (congrArg (front ++ added ++ back ++ ·) (proxyPolicies_withPolicies a _))
  simp only [enabledRules_routePolicies, hpl, hpl', flatMap_append, hn, append_nil]

omit h' hpol in
/-- An added rule brings no peer into the slice. -/
theorem not_ruleBrings {pol : Policy} (hp : pol ∈ added) (hpe : pol.enabled)
    {rule : PolicyRule} (hr : rule ∈ pol.rules) (hre : rule.enabled) (q : String) :
    ¬(a.mapData env).RuleBrings env t.id pol.sourcePostureChecks rule q := by
  have ho : rule.Outside (a.mapData env).groups t.id := by
    rw [mapData_groups]
    exact hby.outside pol hp hpe rule hr hre
  rintro ⟨-, ⟨hin, -⟩ | ⟨hin, -⟩⟩
  · exact ho.1 hin.1
  · exact ho.2 hin.1

theorem resourceBrings_added {q : String} (hq : (a.mapData env).MayUse env t.id q)
    {r : NetworkResource} (hr : r ∈ a.networkResources) (he : r.enabled) :
    ((a.withPolicies (front ++ added ++ back)).mapData env).ResourceBrings env t.id r q ↔
      (a.mapData env).ResourceBrings env t.id r q := by
  have ha := resourceAdded h' hpol hby hr he
  refine ha.brings fun ⟨other, ho, hlt⟩ policy hp hin => ?_
  obtain ⟨hmm, hpe, rule, hru, hre, hl, hpr⟩ := exists_rule_of_applied env (singleRule_added h') hp
  rw [hpr] at hin
  rw [← ha.setAt] at ho
  exact hby.source policy hmm hpe rule hru hre r hr he hl ⟨other, ho, hlt⟩ q hin hq

include h in
variable (t) in
/-- A peer that the further policies do not reach has the same network map without them. -/
theorem same_withPolicies : (a.networkMap env t.zone t.id).Same
    ((a.withPolicies (front ++ added ++ back)).networkMap env t.zone t.id) := by
  have ha {r : NetworkResource} (hr : r ∈ a.networkResources) (he : r.enabled) :=
    resourceAdded h' hpol hby hr he
  have hpl : (a.mapData env).policies = front ++ (back ++ a.proxyPolicies) := by
    rw [mapData_policies, hpol, append_assoc]
  have hpl' : ((a.withPolicies (front ++ added ++ back)).mapData env).policies =
      front ++ added ++ (back ++ a.proxyPolicies) := by
    rw [mapData_policies, proxyPolicies_withPolicies]
    exact append_assoc _ _ _
  refine same_of_parts h h' t ⟨t.connections_added hpl hpl' (by simpa using hby.outside), ?_, ?_,
    fun v6 => ?_, fun v6 => ?_⟩
  · rw [resourcesToSync_eq, resourcesToSync_eq]
    rw [enabledResources_mapData, enabledResources_mapData]
    refine flatMap_congr fun r hr => ?_
    obtain ⟨hr, he⟩ := mem_filter.1 hr
    exact (ha hr he).routes
  · rw [resourcesToSync_eq, resourcesToSync_eq]
    dsimp only
    rw [enabledResources_mapData, enabledResources_mapData]
    refine congrArg _ (flatMap_congr fun r hr => ?_)
    obtain ⟨hr, he⟩ := mem_filter.1 hr
    exact (ha hr he).sources
  · refine t.resourceRules (fun r hr hk => ?_) v6
    obtain ⟨resource, hres, he, hrt, hid⟩ := exists_routed_of_mem_routes h t.toTarget hr hk
    rw [hid]
    exact ((ha hres he).alike hrt).setAt
  · refine t.routeRules (h.allHolds env) h.singleRule (fun r hr he hsr ag hag => ?_) (fun q hq => ?_) v6
    · rw [mapData_routes] at hr
      rw [mapData_groups] at hsr
      exact enabledRules_added h' hpol hby hr he hsr hag
    · refine t.mem_collected ?_ ?_
      · rw [hpl, hpl']
        constructor
        · rintro ⟨pol, hp, hpe, rule, hru, hre, hb⟩
          rcases mem_append.1 hp with hp | hp
          · rcases mem_append.1 hp with hp | hp
            · exact ⟨pol, mem_append_left _ hp, hpe, rule, hru, hre, hb⟩
            · exact absurd hb (not_ruleBrings hby hp hpe hru hre q)
          · exact ⟨pol, mem_append_right _ hp, hpe, rule, hru, hre, hb⟩
        · rintro ⟨pol, hp, hrs⟩
          refine ⟨pol, ?_, hrs⟩
          rcases mem_append.1 hp with hp | hp
          · exact mem_append_left _ (mem_append_left _ hp)
          · exact mem_append_right _ hp
      · rw [mapData_networkResources, mapData_networkResources]
        exact exists_congr fun r => and_congr_right fun hr => and_congr_right fun he =>
          resourceBrings_added h' hpol hby hq hr he

end

end Account

end Cloink
