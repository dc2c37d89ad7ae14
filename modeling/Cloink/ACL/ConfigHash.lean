import Cloink.ACL.Passes
import Mathlib.Algebra.Order.Group.Multiset

/-!
# Skipping unchanged configurations

The ACL manager skips a network map whose hash is that of the last map it applied. The hash combines
the elements of every slice by exclusive or, so rules that occur twice are not seen, and neither are
bytes that occur twice in an id or in the sources of a peer rule. For maps without such repetitions
equal hashes mean equal rules.

## Main definitions

* `AlikeLists`: lists that the hash does not tell apart.
* `Remembers`: the tables belong to the hash that is kept.

## Main results

* `ruleIDs_iff_of_hash_eq`: equal hashes mean equal rules.
* `remembers_run`: this holds in every run.
-/

namespace Cloink

open Netip Firewall List Option Proto.PortInfo PeerRuleKey ConfigHash Prefix

/-! ### Hashes of slices -/

theorem perm_of_xorHash_eq {α : Type} [DecidableEq α] {l l' : List α} (h : l.Nodup)
    (h' : l'.Nodup) (he : xorHash l = xorHash l') : l.Perm l' := by
  cases l with
  | nil =>
    cases l' with
    | nil => exact .rfl
    | cons a l' => cases he
  | cons a l =>
    cases l' with
    | nil => cases he
    | cons a' l' => exact perm_of_xorSum_eq h h' (some.inj he)

/-- Both lists are empty or neither is, and every element occurs an even number of times in both or
an odd number of times in both. -/
def AlikeLists {α : Type} [DecidableEq α] (l l' : List α) : Prop :=
  (l = [] ↔ l' = []) ∧ ∀ a, l.count a % 2 = l'.count a % 2

theorem alikeLists_of_xorHash_eq {α : Type} [DecidableEq α] {l l' : List α}
    (he : xorHash l = xorHash l') : AlikeLists l l' := by
  unfold xorHash at he
  cases l with
  | nil =>
    cases l' with
    | nil => exact ⟨Iff.rfl, fun _ => rfl⟩
    | cons a l' => cases he
  | cons a l =>
    cases l' with
    | nil => cases he
    | cons a' l' => exact ⟨by simp, xorSum_eq_iff.1 (some.inj he)⟩

theorem isEmpty_of_xorHash_eq {α : Type} [DecidableEq α] {l l' : List α}
    (he : xorHash l = xorHash l') : l.isEmpty = l'.isEmpty := by
  cases l <;> cases l' <;> first | rfl | cases he

/-! ### Ports -/

/-- Ports are at most 65535. -/
def Proto.PortsFit : Option Proto.PortInfo → Prop
  | some ⟨some (.port n)⟩ => n.toNat < 65536
  | some ⟨some (.range (some r))⟩ => r.start.toNat < 65536 ∧ r.end.toNat < 65536
  | _ => True

theorem toUInt16_eq_zero_iff {n : UInt32} (h : n.toNat < 65536) : n.toUInt16 = 0 ↔ n = 0 := by
  rw [← UInt16.toNat_inj, ← UInt32.toNat_inj, UInt32.toNat_toUInt16]
  change n.toNat % 65536 = 0 ↔ n.toNat = 0
  omega

/-- The port of the groups with a selector. -/
def PeerRuleKey.groupPort (k : PeerRuleKey) : Option (Option Port) :=
  if k.port ≠ 0 then some (some { values := [k.port] })
  else if k.rangeStart ≠ 0 ∧ k.rangeEnd ≠ 0 then
    some (some { isRange := true, values := [k.rangeStart, k.rangeEnd] })
  else if k.legacyPort ≠ "" then
    (Strconv.parseUint 16 k.legacyPort).map fun value => some { values := [UInt16.ofNat value] }
  else some none

variable {r r' : Proto.FirewallRule} {sources : List Prefix}

theorem resolveGroupPort_ruleGroup (h : Proto.PortsFit r.portInfo) (v6 : Bool)
    (sources : List Prefix) :
    (ruleGroup r sources).resolveGroupPort = (ruleGroupKey r v6).groupPort := by
  unfold PeerRuleGroup.resolveGroupPort groupPort ruleGroup ruleGroupKey
  generalize r.portInfo = info at h
  match info, h with
  | none, _ => simp [portInfoEmpty]
  | some ⟨none⟩, _ => simp [portInfoEmpty, getPort, getRange]
  | some ⟨some (.range none)⟩, _ =>
    simp [portInfoEmpty, getPort, getRange]
  | some ⟨some (.port n)⟩, h =>
    have hn := toUInt16_eq_zero_iff h
    by_cases h0 : n = 0
    · simp [portInfoEmpty, getPort, getRange, h0]
    · simp [portInfoEmpty, getPort, convertPortInfo, h0, hn]
  | some ⟨some (.range (some r))⟩, h =>
    have hs := toUInt16_eq_zero_iff h.1
    have he := toUInt16_eq_zero_iff h.2
    by_cases h0 : r.start = 0 ∨ r.end = 0
    · rcases h0 with h0 | h0 <;> simp [portInfoEmpty, getPort, getRange, h0]
    · obtain ⟨hs0, he0⟩ := not_or.1 h0
      simp [portInfoEmpty, getPort, getRange, convertPortInfo, hs0, he0, hs, he]

/-! ### Peer rules -/

/-- Groups with one selector ask for the same rule, each for its sources. -/
theorem request_of_key_eq (hf : Proto.PortsFit r.portInfo) (hf' : Proto.PortsFit r'.portInfo)
    {v6 v6' : Bool} (hk : ruleGroupKey r v6 = ruleGroupKey r' v6') (sources sources' : List Prefix)
    (stateful : Bool) : (ruleGroup r' sources').request stateful =
      ((ruleGroup r sources).request stateful).map
        (Option.map fun req => { req with sources := sources' }) := by
  have hpr : (ruleGroup r' sources').resolveGroupPort = (ruleGroup r sources).resolveGroupPort := by
    rw [resolveGroupPort_ruleGroup hf v6, resolveGroupPort_ruleGroup hf' v6', hk]
  have hd : r'.direction = r.direction := congrArg direction hk.symm
  have ha : r'.action = r.action := congrArg action hk.symm
  have hp : r'.protocol = r.protocol := congrArg protocol hk.symm
  have hpl : r'.policyID = r.policyID := congrArg policyID hk.symm
  unfold PeerRuleGroup.request
  rw [hpr]
  simp only [ruleGroup, hd, ha, hp, hpl]
  split
  · split
    · rfl
    · split <;> rfl
    · rfl
  · rfl

theorem ruleID_with_sources {req : Request} (h : (sources : Multiset Prefix) = req.sources) :
    { req with sources := sources }.ruleID = req.ruleID := by
  have hm : ((sources.map unmapPrefix : List Prefix) : Multiset Prefix) =
      (req.sources.map unmapPrefix : List Prefix) := by
    rw [← Multiset.map_coe, ← Multiset.map_coe, h]
  simp only [Request.ruleID, hm, h]

/-- The sources of the groups that a rule opens, in no order. -/
def sourceSets (l : List (PeerRuleKey × PeerRuleGroup)) : List (PeerRuleKey × Multiset Prefix) :=
  l.map (Prod.map id fun g => (g.sources : Multiset Prefix))

/-- The rules asked for depend on the selectors and the sources of each rule only. -/
theorem peerRuleIDs_of_perm {stateful : Bool} {rules rules' : List Proto.FirewallRule}
    (hf : ∀ r ∈ rules, Proto.PortsFit r.portInfo) (hf' : ∀ r ∈ rules', Proto.PortsFit r.portInfo)
    (h : (rules.map fun r => sourceSets (keyedGroups r)).Perm
      (rules'.map fun r => sourceSets (keyedGroups r))) {id : RuleID}
    (hid : peerRuleIDs stateful (groupPeerRules rules).1 id) :
    peerRuleIDs stateful (groupPeerRules rules').1 id := by
  have hsr (g g' : PeerRuleGroup) : ((mergeSources g g').sources : Multiset Prefix) =
      (g.sources : Multiset Prefix) + (g'.sources : Multiset Prefix) := rfl
  have hp : (sourceSets (rules.flatMap keyedGroups)).Perm
      (sourceSets (rules'.flatMap keyedGroups)) := by
    rw [sourceSets, sourceSets, map_flatMap, map_flatMap]
    exact h.flatten
  obtain ⟨_, hm, req, hre, rfl⟩ := hid
  obtain ⟨⟨k, g⟩, hg, rfl⟩ := mem_map.1 hm
  obtain ⟨g', hg', hs⟩ := exists_mem_mergeAll_of_perm hsr hp hg
  obtain ⟨r, hr, ⟨v6, hk⟩, hgr⟩ := exists_rule_of_mem_mergeAll hg
  obtain ⟨r', hr', ⟨v6', hk'⟩, hgr'⟩ := exists_rule_of_mem_mergeAll hg'
  have hrq := request_of_key_eq (hf r hr) (hf' r' hr') (hk.symm.trans hk') g.sources
    g'.sources stateful
  rw [← hgr, ← hgr', hre] at hrq
  refine ⟨g', mem_map.2 ⟨_, hg', rfl⟩, _, hrq, ruleID_with_sources ?_⟩
  rw [hs, (PeerRuleGroup.ruleID_of_request hre).2.2]

theorem extractRuleSources_perm (hip : r.peerIP = r'.peerIP)
    (h : r.sourcePrefixes.Perm r'.sourcePrefixes) (hs : extractRuleSources r = some sources) :
    ∃ sources', extractRuleSources r' = some sources' ∧ sources.Perm sources' := by
  unfold extractRuleSources at hs ⊢
  cases he : r'.sourcePrefixes.isEmpty with
  | true =>
    have hn := isEmpty_iff.1 he
    rw [hn] at h
    rw [perm_nil.1 h, hip] at hs
    exact ⟨sources, hs, .rfl⟩
  | false =>
    rw [h.isEmpty_eq, he] at hs
    exact h.mapM_option hs

theorem sourceSets_ruleFamilies (hk : ∀ v6, ruleGroupKey r v6 = ruleGroupKey r' v6)
    {sources' : List Prefix} (h : sources.Perm sources') :
    sourceSets (ruleFamilies r sources) = sourceSets (ruleFamilies r' sources') := by
  have hs (v6 : Bool) {l l' : List Prefix} (hl : l.Perm l') :
      (if l.isEmpty then none else some (ruleGroupKey r v6, ruleGroup r l)).map
          (Prod.map id fun g => (g.sources : Multiset Prefix)) =
        (if l'.isEmpty then none else some (ruleGroupKey r' v6, ruleGroup r' l')).map
          (Prod.map id fun g => (g.sources : Multiset Prefix)) := by
    rw [hl.isEmpty_eq, hk]
    split
    · rfl
    · exact congrArg (fun s => some (ruleGroupKey r' v6, s)) (Multiset.coe_eq_coe.2 hl)
  rw [sourceSets, sourceSets, ruleFamilies, ruleFamilies, map_filterMap, map_filterMap]
  simp only [filterMap_cons, filterMap_nil, hs false (h.filter _), hs true (h.filter _)]

/-- The two peer rules are the same but for their policy and their sources, and the bytes of these
occur in both an even or in both an odd number of times. -/
structure Proto.FirewallRule.Alike (r r' : Proto.FirewallRule) : Prop where
  fields : { r with policyID := "", sourcePrefixes := [] } =
    { r' with policyID := "", sourcePrefixes := [] }
  policyID : AlikeLists r.policyID.toUTF8.data.toList r'.policyID.toUTF8.data.toList
  sourcePrefixes : (r.sourcePrefixes = [] ↔ r'.sourcePrefixes = []) ∧
    ∀ b, r.sourcePrefixes.flatten.count b % 2 = r'.sourcePrefixes.flatten.count b % 2

theorem alike_of_peerRuleHash_eq (h : peerRuleHash r = peerRuleHash r') : r.Alike r' := by
  simp only [peerRuleHash, PeerRuleHash.mk.injEq] at h
  obtain ⟨hip, hd, ha, hp, hpr, hi, hpl, hc, hs⟩ := h
  refine ⟨by simp only [hip, hd, ha, hp, hpr, hi, hc], alikeLists_of_xorHash_eq hpl, ?_⟩
  cases hl : r.sourcePrefixes with
  | nil =>
    cases hl' : r'.sourcePrefixes with
    | nil => exact ⟨Iff.rfl, fun _ => rfl⟩
    | cons p l => simp [hl, hl'] at hs
  | cons p l =>
    cases hl' : r'.sourcePrefixes with
    | nil => simp [hl, hl'] at hs
    | cons p' l' =>
      simp only [hl, hl', isEmpty_cons, Bool.false_eq_true, ↓reduceIte, some.injEq] at hs
      exact ⟨by simp, xorSum_eq_iff.1 hs⟩

theorem sourceSets_of_alike (h : r.Alike r') (hpl : r.policyID = r'.policyID)
    (hs : r.sourcePrefixes.Perm r'.sourcePrefixes) :
    sourceSets (keyedGroups r) = sourceSets (keyedGroups r') := by
  have hf := h.fields
  simp only [Proto.FirewallRule.mk.injEq] at hf
  obtain ⟨hip, hd, ha, hp, hpr, hi, -⟩ := hf
  have hk (v6 : Bool) : ruleGroupKey r v6 = ruleGroupKey r' v6 := by
    simp only [ruleGroupKey, hpl, hd, ha, hp, hpr, hi]
  unfold keyedGroups
  cases he : extractRuleSources r with
  | none =>
    cases he' : extractRuleSources r' with
    | none => rfl
    | some sources' =>
      obtain ⟨sources, hsr, -⟩ := extractRuleSources_perm hip.symm hs.symm he'
      rw [he] at hsr
      cases hsr
  | some sources =>
    obtain ⟨sources', he', hpm⟩ := extractRuleSources_perm hip hs he
    rw [he', elim_some, elim_some]
    exact sourceSets_ruleFamilies hk hpm

/-! ### Route rules -/

/-- The sources and the domains of the rule do not repeat, and the sources of a dynamic rule are of
one family. -/
structure Proto.RouteFirewallRule.Plain (r : Proto.RouteFirewallRule) : Prop where
  sources : r.sourceRanges.Nodup
  domains : r.domains.Nodup
  family : r.isDynamic = true → ∀ s ∈ r.sourceRanges, ∀ s' ∈ r.sourceRanges, ∀ p p',
    parsePrefix s = some p → parsePrefix s' = some p' →
      (unmapPrefix p).addr.is6 = (unmapPrefix p').addr.is6

/-- The two route rules are the same but for their policy, and for their sources and domains, which
occur in both an even or in both an odd number of times. -/
structure Proto.RouteFirewallRule.Alike (r r' : Proto.RouteFirewallRule) : Prop where
  fields : { r with policyID := "", sourceRanges := [], domains := [] } =
    { r' with policyID := "", sourceRanges := [], domains := [] }
  policyID : AlikeLists r.policyID.toUTF8.data.toList r'.policyID.toUTF8.data.toList
  sourceRanges : AlikeLists r.sourceRanges r'.sourceRanges
  domains : AlikeLists r.domains r'.domains

theorem alike_of_routeRuleHash_eq {r r' : Proto.RouteFirewallRule}
    (h : routeRuleHash r = routeRuleHash r') : r.Alike r' := by
  simp only [routeRuleHash, RouteRuleHash.mk.injEq] at h
  obtain ⟨hrn, hac, hds, hpt, hi, hdy, hdm, hcp, hpl, hrt⟩ := h
  exact ⟨by simp only [hac, hds, hpt, hi, hdy, hcp, hrt], alikeLists_of_xorHash_eq hpl,
    alikeLists_of_xorHash_eq hrn, alikeLists_of_xorHash_eq hdm⟩

theorem determineDestination_congr {r r' : Proto.RouteFirewallRule} {flag : Bool}
    {sources' : List Prefix} (hdy : r.isDynamic = r'.isDynamic)
    (hds : r.destination = r'.destination) (hdm : r.domains.Perm r'.domains)
    (hf : r.isDynamic → (sources.headD zero).addr.is6 = (sources'.headD zero).addr.is6) :
    determineDestination r flag sources = determineDestination r' flag sources' := by
  have hl : ((r.domains.map fun d => String.ofList (d.toList.map Char.toLower) :
      List String) : Multiset String) =
        (r'.domains.map fun d => String.ofList (d.toList.map Char.toLower) : List String) :=
    Multiset.coe_eq_coe.2 (hdm.map _)
  unfold determineDestination
  rw [← hdy, ← hds, hl, hdm.isEmpty_eq]
  cases hd : r.isDynamic with
  | true =>
    have hdf : getDefault (sources.headD zero) = getDefault (sources'.headD zero) := by
      rw [getDefault, getDefault, hf hd]
    rw [hdf]
  | false => rfl

theorem routeRequest_of_hash_eq {r r' : Proto.RouteFirewallRule} {flag : Bool} (hr : r.Plain)
    (hr' : r'.Plain) (h : routeRuleHash r = routeRuleHash r') {req : Request}
    (hrq : routeRequest r flag = some req) :
    ∃ req', routeRequest r' flag = some req' ∧ req'.ruleID = req.ruleID := by
  simp only [routeRuleHash, RouteRuleHash.mk.injEq] at h
  obtain ⟨hrn, hac, hds, hpt, hi, hdy, hdm, -⟩ := h
  have hrn := perm_of_xorHash_eq hr.sources hr'.sources hrn
  have hdm := perm_of_xorHash_eq hr.domains hr'.domains hdm
  simp only [routeRequest, Option.bind_eq_bind, Option.bind_eq_some_iff, Option.pure_def,
    some.injEq] at hrq ⊢
  obtain ⟨sources, hs, dst, hd, proto, hp, action, ha, rfl⟩ := hrq
  obtain ⟨sources', hs', hpr⟩ := hrn.mapM_option hs
  have hf (hdn : r.isDynamic) : (sources.headD zero).addr.is6 = (sources'.headD zero).addr.is6 := by
    cases sources with
    | nil => rw [nil_perm.1 hpr]
    | cons p ps =>
      cases sources' with
      | nil => cases perm_nil.1 hpr
      | cons p' ps' =>
        rw [mapM_option_iff, forall₂_cons_right_iff] at hs hs'
        obtain ⟨s, _, hps, -, hl⟩ := hs
        obtain ⟨s', _, hps', -, hl'⟩ := hs'
        obtain ⟨q, hq, rfl⟩ := map_eq_some_iff.1 hps
        obtain ⟨q', hq', rfl⟩ := map_eq_some_iff.1 hps'
        exact hr.family hdn s (by simp [hl]) s' (hrn.symm.subset (by simp [hl'])) q q' hq hq'
  have hd' : determineDestination r flag sources = determineDestination r' flag sources' :=
    determineDestination_congr hdy hds hdm hf
  refine ⟨_, ⟨sources', hs', dst, hd'.symm.trans hd, proto, hpt ▸ hp, action, hac ▸ ha, rfl⟩, ?_⟩
  have hsr := Multiset.coe_eq_coe.2 hpr
  have hmp := Multiset.coe_eq_coe.2 (hpr.map unmapPrefix)
  simp only [Request.ruleID, hsr, hmp, hi]

/-! ### Maps -/

namespace Proto.NetworkMap

/-- The rules that a map asks for. -/
def ruleIDs (m : Proto.NetworkMap) (stateful flag : Bool) (id : RuleID) : Prop :=
  peerRuleIDs stateful (peerGroups m) id ∨ routeRuleIDs flag m.routesFirewallRules id

/-- No two rules are alike, ports are ports, and the lists within route rules do not repeat. -/
structure Plain (m : Proto.NetworkMap) : Prop where
  peers : m.firewallRules.Pairwise fun r r' => ¬r.Alike r'
  ports : ∀ r ∈ m.firewallRules, Proto.PortsFit r.portInfo
  routes : m.routesFirewallRules.Pairwise fun r r' => ¬r.Alike r'
  lists : ∀ r ∈ m.routesFirewallRules, r.Plain

/-- Peer rules of the two maps that are alike have the same policy and the same sources. -/
def AlikeAgree (m m' : Proto.NetworkMap) : Prop :=
  ∀ r ∈ m.firewallRules, ∀ r' ∈ m'.firewallRules, r.Alike r' →
    r.policyID = r'.policyID ∧ r.sourcePrefixes.Perm r'.sourcePrefixes

variable {m m' : Proto.NetworkMap} {stateful flag flag' : Bool}

theorem Plain.nodup_peers (hm : m.Plain) : (m.firewallRules.map peerRuleHash).Nodup :=
  pairwise_map.2 (hm.peers.imp fun hn he => hn (alike_of_peerRuleHash_eq he))

theorem Plain.nodup_routes (hm : m.Plain) : (m.routesFirewallRules.map routeRuleHash).Nodup :=
  pairwise_map.2 (hm.routes.imp fun hn he => hn (alike_of_routeRuleHash_eq he))

theorem peerRuleIDs_of_hash_eq (hm : m.Plain) (hm' : m'.Plain) (hf : m.AlikeAgree m')
    (h : firewallConfigHash m flag = firewallConfigHash m' flag') {id : RuleID}
    (hid : peerRuleIDs stateful (peerGroups m) id) : peerRuleIDs stateful (peerGroups m') id := by
  have hp := congrArg peerRules h
  have hfl : m.firewallRulesIsEmpty = m'.firewallRulesIsEmpty :=
    congrArg peerRulesIsEmpty h
  have hem : m.firewallRules.isEmpty = m'.firewallRules.isEmpty := by
    simpa using isEmpty_of_xorHash_eq hp
  have hpr := perm_of_xorHash_eq hm.nodup_peers hm'.nodup_peers hp
  unfold peerGroups effectivePeerRules at hid ⊢
  rw [← hfl, ← hem]
  split
  · rename_i hd
    rwa [if_pos hd] at hid
  · rename_i hrl
    rw [if_neg hrl] at hid
    refine peerRuleIDs_of_perm hm.ports hm'.ports (hpr.map_of_map ?_) hid
    intro r hr r' hr' he
    have ha := alike_of_peerRuleHash_eq he
    obtain ⟨hpl, hs⟩ := hf r hr r' hr' ha
    exact sourceSets_of_alike ha hpl hs

theorem routeRuleIDs_of_hash_eq (hm : m.Plain) (hm' : m'.Plain)
    (h : firewallConfigHash m flag = firewallConfigHash m' flag') {id : RuleID}
    (hid : routeRuleIDs flag m.routesFirewallRules id) :
    routeRuleIDs flag' m'.routesFirewallRules id := by
  have hrt := congrArg routeRules h
  obtain rfl : flag = flag' := congrArg dnsRouteFeatureFlag h
  have hp := perm_of_xorHash_eq hm.nodup_routes hm'.nodup_routes hrt
  obtain ⟨r, hr, hne, req, hrq, rfl⟩ := hid
  obtain ⟨r', hr', he⟩ := mem_map.1 (hp.subset (mem_map.2 ⟨r, hr, rfl⟩))
  have hem := isEmpty_of_xorHash_eq (congrArg RouteRuleHash.sourceRanges he.symm)
  have hne' : r'.sourceRanges ≠ [] := by
    rw [ne_eq, ← List.isEmpty_iff, ← hem, List.isEmpty_iff]
    exact hne
  obtain ⟨req', hrq', hid⟩ :=
    routeRequest_of_hash_eq (hm.lists r hr) (hm'.lists r' hr') he.symm hrq
  exact ⟨r', hr', hne', req', hrq', hid⟩

/-- Maps with one hash ask for the same rules. -/
theorem ruleIDs_iff_of_hash_eq (hm : m.Plain) (hm' : m'.Plain) (hf : m.AlikeAgree m')
    (hf' : m'.AlikeAgree m) (h : firewallConfigHash m flag = firewallConfigHash m' flag')
    (id : RuleID) : m.ruleIDs stateful flag id ↔ m'.ruleIDs stateful flag' id :=
  ⟨.imp (peerRuleIDs_of_hash_eq hm hm' hf h) (routeRuleIDs_of_hash_eq hm hm' h),
    .imp (peerRuleIDs_of_hash_eq hm' hm hf' h.symm) (routeRuleIDs_of_hash_eq hm' hm h.symm)⟩

end Proto.NetworkMap

namespace DefaultManager

variable {env : FirewallEnv}

/-! ### Runs -/

/-- The remembered hash is that of a map of the run whose rules are installed. -/
def Remembers (env : FirewallEnv) (l : List (Proto.NetworkMap × Bool)) (d : DefaultManager) :
    Prop :=
  d.hasAppliedConfig = true → ∃ p ∈ l, d.previousConfigHash = firewallConfigHash p.1 p.2 ∧
    ∀ id, d.firewall.tables.Has id ↔ p.1.ruleIDs env.stateful p.2 id

variable {d : DefaultManager} {flag : Bool} {m : Proto.NetworkMap}

/-- After a pass without errors the tables have the rules of the map. -/
theorem has_applyPass (h : d.Tracked) (he : (d.applyPass env m flag).2 = []) (id : RuleID) :
    (d.applyPass env m flag).1.firewall.tables.Has id ↔ m.ruleIDs env.stateful flag id :=
  (pass_applyPass env h m flag).ids he id

theorem has_applyFiltering (h : d.Tracked) (hu : d.unchanged m flag = false)
    (he : (d.applyFiltering env m flag).2 = []) (id : RuleID) :
    (d.applyFiltering env m flag).1.firewall.tables.Has id ↔ m.ruleIDs env.stateful flag id := by
  obtain ⟨hfw, her⟩ := applyFiltering_eq env hu
  rw [hfw]
  exact (pass_applyPass env h m flag).ids (her ▸ he) id

theorem remembered_applyFiltering (hu : d.unchanged m flag = false)
    (ha : (d.applyFiltering env m flag).1.hasAppliedConfig) : (d.applyFiltering env m flag).2 = [] ∧
      (d.applyFiltering env m flag).1.previousConfigHash = firewallConfigHash m flag := by
  cases hp : d.applyPass env m flag with
  | mk d' errs =>
    simp only [applyFiltering, hu, Bool.false_eq_true, if_false, hp] at ha ⊢
    cases errs with
    | nil => exact ⟨rfl, rfl⟩
    | cons err errs => cases ha

/-- The tables have the rules of the map whose hash is kept. -/
theorem remembers_run (l : List (Proto.NetworkMap × Bool)) : Remembers env l (run env {} l) := by
  induction l using reverseRecOn with
  | nil => exact nofun
  | append_singleton l p ih =>
    rw [run, foldl_append]
    change Remembers env (l ++ [p]) ((run env {} l).applyFiltering env p.1 p.2).1
    cases hu : (run env {} l).unchanged p.1 p.2 with
    | true =>
      rw [applyFiltering, hu, if_pos rfl]
      intro ha
      obtain ⟨q, hq, hh, hhs⟩ := ih ha
      exact ⟨q, mem_append_left _ hq, hh, hhs⟩
    | false =>
      intro ha
      obtain ⟨he, hh⟩ := remembered_applyFiltering hu ha
      exact ⟨p, by simp, hh, has_applyFiltering (tracked_run env l) hu he⟩

/-- For maps in which no two rules are alike, and alike rules of two maps are the same: maps with one
hash that are applied without an error in one state leave the same rules installed; and after any
run, a call that reports no error, whether it was skipped or not, leaves exactly the rules of the
latest map. -/
theorem skip_sound (env : FirewallEnv) (l : List (Proto.NetworkMap × Bool)) (m : Proto.NetworkMap)
    (flag : Bool) (hplain : ∀ p ∈ l ++ [(m, flag)], p.1.Plain)
    (hagree : ∀ p ∈ l ++ [(m, flag)], ∀ p' ∈ l ++ [(m, flag)], p.1.AlikeAgree p'.1) :
    (∀ p ∈ l, firewallConfigHash p.1 p.2 = firewallConfigHash m flag → ∀ l',
      ((run env {} l').applyPass env p.1 p.2).2 = [] →
      ((run env {} l').applyPass env m flag).2 = [] → ∀ id,
        (((run env {} l').applyPass env p.1 p.2).1.firewall.tables.Has id ↔
          ((run env {} l').applyPass env m flag).1.firewall.tables.Has id)) ∧
    (((run env {} l).applyFiltering env m flag).2 = [] → ∀ id,
      (((run env {} l).applyFiltering env m flag).1.firewall.tables.Has id ↔
        m.ruleIDs env.stateful flag id)) := by
  have hl : (m, flag) ∈ l ++ [(m, flag)] := by simp
  have hs {p : Proto.NetworkMap × Bool} (hp : p ∈ l)
      (hh : firewallConfigHash p.1 p.2 = firewallConfigHash m flag) (id : RuleID) :
      p.1.ruleIDs env.stateful p.2 id ↔ m.ruleIDs env.stateful flag id := by
    have hm : p ∈ l ++ [(m, flag)] := mem_append_left _ hp
    exact Proto.NetworkMap.ruleIDs_iff_of_hash_eq (hplain p hm) (hplain _ hl)
      (hagree p hm _ hl) (hagree _ hl p hm) hh id
  constructor
  · intro p hp hh l' he he' id
    rw [has_applyPass (tracked_run env l') he, has_applyPass (tracked_run env l') he']
    exact hs hp hh id
  · intro he id
    cases hu : (run env {} l).unchanged m flag with
    | false => exact has_applyFiltering (tracked_run env l) hu he id
    | true =>
      obtain ⟨ha, hpr⟩ := Bool.and_eq_true_iff.1 hu
      obtain ⟨p, hp, hh, hhs⟩ := remembers_run l ha
      rw [applyFiltering, hu, if_pos rfl, hhs]
      exact hs hp (hh.symm.trans (of_decide_eq_true hpr)) id

/-- A route rule from one peer to a network. -/
def routeTo (network : String) : Proto.RouteFirewallRule where
  sourceRanges := ["100.64.0.7/32"]
  destination := network
  protocol := .ALL
  routeID := network

/-- The route rules of a map without peer rules. -/
def routesMap (rules : List Proto.RouteFirewallRule) : Proto.NetworkMap where
  firewallRulesIsEmpty := true
  routesFirewallRules := rules

/-- What is installed for a route to the first network. -/
def firstRouteRequest : Request where
  mgmtID := ""
  sources := [prefixFrom (.from4 100 64 0 7) 32]
  destination := .ofPrefix (prefixFrom (.from4 10 0 0 0) 24)
  proto := .ALL
  action := .accept

/-- Two copies of a route rule cancel in the hash: the map that drops them is skipped, and the
route stays open. -/
theorem duplicate_rules_go_stale :
    let first := routeTo "10.0.0.0/24"
    let second := routeTo "10.1.0.0/24"
    let maps := [(routesMap [first, first, second], false)]
    let env : FirewallEnv := { fails := fun _ => false }
    firewallConfigHash (routesMap [first, first, second]) false =
        firewallConfigHash (routesMap [second]) false ∧
      ((run env {} maps).applyFiltering env (routesMap [second]) false).2 = [] ∧
      ((run env {} maps).applyFiltering env (routesMap [second]) false).1.firewall.tables.Has
        firstRouteRequest.ruleID ∧
      ¬(routesMap [second]).ruleIDs env.stateful false firstRouteRequest.ruleID := by
  intro first second maps env
  refine ⟨by decide +kernel, by decide +kernel, by decide +kernel, ?_⟩
  rintro (⟨g, hg, -⟩ | ⟨rule, hr, -, req, hrq, hid⟩)
  · cases hg
  · obtain rfl := mem_singleton.1 hr
    have hne : (routeRequest second false).map Request.ruleID ≠ some firstRouteRequest.ruleID := by
      decide +kernel
    exact hne (by rw [hrq, map_some, hid])

theorem plain_routesMap (network : String) : (routesMap [routeTo network]).Plain where
  peers := .nil
  ports r hr := absurd hr not_mem_nil
  routes := pairwise_singleton _ _
  lists r hr := by
    obtain rfl := mem_singleton.1 hr
    exact ⟨nodup_singleton _, nodup_nil, fun hd => absurd hd Bool.false_ne_true⟩

/-- The second of two calls with one map is skipped, and the rule of the map is installed. -/
theorem skip_sound_routesMap :
    let m := routesMap [routeTo "10.0.0.0/24"]
    let env : FirewallEnv := { fails := fun _ => false }
    (run env {} [(m, false)]).unchanged m false = true ∧
      ∀ id, ((run env {} [(m, false)]).applyFiltering env m false).1.firewall.tables.Has id ↔
        m.ruleIDs env.stateful false id := by
  intro m env
  have hm : ∀ p ∈ [(m, false)] ++ [(m, false)], p.1 = m := by
    intro p hp
    rcases mem_pair.1 hp with rfl | rfl <;> rfl
  refine ⟨by decide +kernel, (skip_sound env [(m, false)] m false (fun p hp => ?_)
    (fun p hp p' hp' => ?_)).2 (by decide +kernel)⟩
  · rw [hm p hp]
    exact plain_routesMap _
  · rw [hm p hp]
    exact fun r hr => absurd hr not_mem_nil

end DefaultManager

end Cloink
