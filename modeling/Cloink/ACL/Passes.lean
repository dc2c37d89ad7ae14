import Cloink.ACL.Tracking

/-!
# Passes of the ACL manager

Over any sequence of network maps and any failures of the backend, the ACL manager knows every rule
that is installed, and after a pass without failures exactly the rules of the map are installed.
Route rules are installed whether or not a deny has failed, so the pass as a whole fails closed only
when its accept rules were there before.

## Main definitions

* `peerGroups`: the groups of peer rules that a map asks for.

## Main results

* `pass_applyPass`: what one pass installs, whatever fails.
* `tracked_run`: every rule installed is tracked.
-/

namespace Cloink

open Netip Firewall AList List PeerRuleGroup PassError Option

/-! ### The rules of a map -/

def peerGroups (m : Proto.NetworkMap) : List PeerRuleGroup :=
  (groupPeerRules (effectivePeerRules m)).1

theorem exists_of_mem_keyedGroups {r : Proto.FirewallRule} {p : PeerRuleKey × PeerRuleGroup}
    (h : p ∈ keyedGroups r) : ∃ v6 sources, p = (ruleGroupKey r v6, ruleGroup r sources) := by
  unfold keyedGroups at h
  cases hs : extractRuleSources r with
  | none => simp [hs] at h
  | some sources =>
    rw [hs, elim_some, ruleFamilies, mem_filterMap] at h
    obtain ⟨sub, -, hsb⟩ := h
    exact ⟨sub.1, sub.2, (some.inj (ite_none_left_eq_some.1 hsb).2).symm⟩

theorem exists_rule_of_mem_mergeAll {rules : List Proto.FirewallRule} {k : PeerRuleKey}
    {g : PeerRuleGroup} (h : (k, g) ∈ List.mergeAll mergeSources (rules.flatMap keyedGroups)) :
    ∃ r ∈ rules, (∃ v6, k = ruleGroupKey r v6) ∧ g = ruleGroup r g.sources := by
  let selector (g : PeerRuleGroup) : PeerRuleGroup := { g with sources := [] }
  have hm (g g' : PeerRuleGroup) : selector (mergeSources g g') = selector g := rfl
  obtain ⟨p, hp, rfl, hg⟩ := exists_mem_of_mem_mergeAll hm h
  obtain ⟨r, hr, hp⟩ := mem_flatMap.1 hp
  obtain ⟨v6, sources, rfl⟩ := exists_of_mem_keyedGroups hp
  refine ⟨r, hr, ⟨v6, rfl⟩, ?_⟩
  simp only [selector, ruleGroup, PeerRuleGroup.mk.injEq, and_true] at hg
  obtain ⟨h₁, h₂, h₃, h₄, h₅, h₆⟩ := hg
  rw [ruleGroup, h₁, h₂, h₃, h₄, h₅, h₆]

theorem exists_rule_of_mem_peerGroups {m : Proto.NetworkMap} {g : PeerRuleGroup}
    (h : g ∈ peerGroups m) : ∃ r ∈ effectivePeerRules m, r.action = g.action := by
  obtain ⟨⟨k, g'⟩, hg, rfl⟩ := mem_map.1 h
  obtain ⟨r, hr, -, hg'⟩ := exists_rule_of_mem_mergeAll hg
  exact ⟨r, hr, (congrArg action hg').symm⟩

theorem peerRuleIDs_filter {stateful : Bool} (groups : List PeerRuleGroup) {id : RuleID} :
    peerRuleIDs stateful groups id ↔ peerRuleIDs stateful (groups.filter (·.action = .DROP)) id ∨
        peerRuleIDs stateful (groups.filter (·.action ≠ .DROP)) id := by
  simp only [peerRuleIDs, mem_filter, decide_eq_true_eq]
  constructor
  · rintro ⟨g, hg, hr⟩
    by_cases hd : g.action = .DROP
    · exact .inl ⟨g, ⟨hg, hd⟩, hr⟩
    · exact .inr ⟨g, ⟨hg, hd⟩, hr⟩
  · rintro (⟨g, ⟨hg, -⟩, hr⟩ | ⟨g, ⟨hg, -⟩, hr⟩)
    · exact ⟨g, hg, hr⟩
    · exact ⟨g, hg, hr⟩

theorem action_of_deny {stateful : Bool} {groups : List PeerRuleGroup} {id : RuleID}
    (h : peerRuleIDs stateful (groups.filter (·.action = .DROP)) id) : id.action = .drop := by
  obtain ⟨g, hg, req, hr, rfl⟩ := h
  have ha := (ruleID_of_request hr).2.1
  have hd : g.action = .DROP := by simpa using (mem_filter.1 hg).2
  rw [hd] at ha
  exact (some.inj ha).symm

namespace DefaultManager

variable {env : FirewallEnv}

/-! ### The peer half -/

/-- The rules in both tables are the tracked ones. -/
structure Tracked (d : DefaultManager) : Prop extends d.PeersTracked where
  routes : RoutesOK d.routeRules
  route_mem : ∀ id, id.isPeer = false → (d.firewall.tables.Has id ↔ id ∈ d.routeRules)

variable {d d' : DefaultManager} {errs : List PassError} {m : Proto.NetworkMap} {flag : Bool}
  {id : RuleID}

theorem Tracked.of_frame (h : d.Tracked) (ht : d'.PeersTracked) (hf : PeerFrame d d') :
    d'.Tracked :=
  ⟨ht, hf.routeRules ▸ h.routes, fun id hid => by
    rw [hf.has id hid, hf.routeRules, h.route_mem id hid]⟩

/-- A deny rule could not be decoded or installed. -/
def DenyFailed (errs : List PassError) : Prop := .decode .DROP ∈ errs ∨ .install .DROP ∈ errs

instance (errs : List PassError) : Decidable (DenyFailed errs) :=
  inferInstanceAs (Decidable (_ ∨ _))

/-- What the peer half of a pass leads to. -/
structure PeerPass (env : FirewallEnv) (m : Proto.NetworkMap) (d d' : DefaultManager)
    (errs : List PassError) : Prop where
  tracked : d'.Tracked
  frame : PeerFrame d d'
  has : ∀ id, d'.firewall.tables.Has id →
    d.firewall.tables.Has id ∨ peerRuleIDs env.stateful (peerGroups m) id
  fail_closed : DenyFailed errs → ∀ id, id.action = .accept → d'.firewall.tables.Has id →
    d.firewall.tables.Has id
  ids : errs = [] → ∀ id, id.isPeer = true →
    (d'.firewall.tables.Has id ↔ peerRuleIDs env.stateful (peerGroups m) id)
  denies : DenyFailed errs → ∃ r ∈ effectivePeerRules m, r.action = .DROP

theorem PeerPass.of_denies (h : d.Tracked) {pairs pairs' : RulePairs} {err : PassError}
    (hi : Installs env true ((peerGroups m).filter (·.action = .DROP)) d pairs d' pairs'
      (err :: errs)) : PeerPass env m d d' (err :: errs) where
  tracked := h.of_frame hi.tracked hi.frame
  frame := hi.frame
  has id hid := (hi.has id hid).imp_right fun hd => (peerRuleIDs_filter _).2 (.inl hd)
  fail_closed _ id ha hid := by
    refine (hi.has id hid).resolve_right fun hd => ?_
    rw [action_of_deny hd] at ha
    cases ha
  ids := nofun
  denies _ := by
    obtain ⟨g, hg, -⟩ := hi.errors err mem_cons_self
    obtain ⟨hm, hdr⟩ := mem_filter.1 hg
    obtain ⟨r, hr, hac⟩ := exists_rule_of_mem_peerGroups hm
    exact ⟨r, hr, hac.trans (of_decide_eq_true hdr)⟩

/-- A pass that installs the denies, then the other groups, and then removes what is not part of
the map. -/
theorem PeerPass.of_all {d₁ d₂ : DefaultManager} (h : d.Tracked) {pairs₁ pairs₂ pairs' : RulePairs}
    {failed : List Proto.RuleAction} (hfl : .DROP ∉ failed) {errs' : List PassError}
    {b : Backend}
    (h₁ : Installs env true ((peerGroups m).filter (·.action = .DROP)) d ∅ d₁ pairs₁ [])
    (h₂ : Installs env false ((peerGroups m).filter (·.action ≠ .DROP)) d₁ pairs₁ d₂ pairs₂ errs)
    (hp : PairsOK pairs') (ht : Teardown true d₂.firewall (· ∈ pairs₂) b (· ∈ pairs') errs') :
    PeerPass env m d { d₂ with firewall := b, peerRulesPairs := pairs' }
      (failed.map .decode ++ errs ++ errs') := by
  have hf : PeerFrame d { d₂ with firewall := b, peerRulesPairs := pairs' } :=
    (h₁.frame.trans h₂.frame).trans ⟨ht.frame, rfl⟩
  -- only accepts can fail here
  have hno : ¬DenyFailed (failed.map .decode ++ errs ++ errs') := by
    have her {e : PassError} (he : e = .decode .DROP ∨ e = .install .DROP) :
        e ∉ failed.map decode ++ errs ++ errs' := by
      intro hm
      rcases mem_append.1 hm with hm | hm
      · rcases mem_append.1 hm with hm | hm
        · obtain ⟨a, ha, rfl⟩ := mem_map.1 hm
          rcases he with he | he
          · exact hfl (decode.inj he ▸ ha)
          · cases he
        · obtain ⟨g, hg, rfl⟩ := h₂.errors e hm
          rcases he with he | he
          · cases he
          · exact of_decide_eq_true (mem_filter.1 hg).2 (install.inj he)
      · obtain ⟨id, rfl⟩ := ht.errors e hm
        rcases he with he | he <;> cases he
    rintro (he | he)
    · exact her (.inl rfl) he
    · exact her (.inr rfl) he
  refine ⟨h.of_frame ⟨ht.wellFormed, hp, ht.mem⟩ hf, hf, fun id hid => ?_,
    fun hd => absurd hd hno, fun he id hpr => ?_, fun hd => absurd hd hno⟩
  · rcases h₂.has id (ht.has id hid) with hid | hid
    · exact (h₁.has id hid).imp_right fun hid => (peerRuleIDs_filter _).2 (.inl hid)
    · exact .inr ((peerRuleIDs_filter _).2 (.inr hid))
  · obtain ⟨he, he'⟩ := append_eq_nil_iff.1 he
    have hi := h₂.ids (append_eq_nil_iff.1 he).2 id
    rw [h₁.ids rfl id] at hi
    rw [ht.mem id hpr, ht.ids he' id, hi, peerRuleIDs_filter (peerGroups m)]
    simp

variable (env) in
/-- What a pass over the peer rules does. -/
theorem peerPass_applyPeerACLs (h : d.Tracked) (m : Proto.NetworkMap) :
    let r := d.applyPeerACLs env m
    PeerPass env m d r.1 r.2 := by
  have hm {a : Proto.RuleAction} (ha : a ∈ (groupPeerRules (effectivePeerRules m)).2) :
      ∃ r ∈ effectivePeerRules m, r.action = a := by
    obtain ⟨r, hr, rfl⟩ := mem_map.1 ha
    exact ⟨r, (mem_filter.1 hr).1, rfl⟩
  unfold applyPeerACLs
  dsimp only
  split
  · -- a deny that cannot be decoded
    rename_i hd
    refine ⟨h, .refl d, fun _ => .inl, fun _ _ _ => id, fun he => ?_, fun _ => hm (by
      simpa using hd)⟩
    rw [map_eq_nil_iff.1 he] at hd
    cases hd
  · rename_i hd
    have h₁ := installs_installPeerGroups env true ((groupPeerRules (effectivePeerRules m)).1.filter
      (·.action = .DROP)) [] h.toPeersTracked (.empty _)
    dsimp only at h₁
    generalize installPeerGroups env true _ [] d ∅ = r₁ at h₁ ⊢
    obtain ⟨d₁, pairs₁, _ | ⟨err, errs₁⟩⟩ := r₁
    · have h₂ := installs_installPeerGroups env false ((peerGroups m).filter (·.action ≠ .DROP)) []
        h₁.tracked (h₁.sub (.inr rfl))
      have hs := h₂.sub (.inl rfl)
      obtain ⟨hp, ht⟩ := teardown_teardownPeer env _ (AList.nodupKeys _)
        (fun e he => h₂.tracked.pairs e.1 e.2 (mem_lookup_iff.2 he)) h₂.tracked.wellFormed
        (fun id rules hl => h₂.tracked.pairs id rules (hs id rules hl))
        (fun id hid => (h₂.tracked.mem id hid).trans
          ⟨.inr, fun hid => hid.elim hs.mem fun hid => hid⟩)
      exact .of_all h (by simpa using hd) h₁ h₂ hp ht
    · exact .of_denies h h₁

/-! ### The route half -/

/-- What the route half of a pass leads to. -/
structure RoutePass (flag : Bool) (routes : List Proto.RouteFirewallRule) (d d' : DefaultManager)
    (errs : List PassError) : Prop where
  tracked : d'.Tracked
  frame : ∀ id, id.isPeer = true → (d'.firewall.tables.Has id ↔ d.firewall.tables.Has id)
  has : ∀ id, d'.firewall.tables.Has id → d.firewall.tables.Has id ∨ routeRuleIDs flag routes id
  ids : errs = [] → ∀ id, id.isPeer = false →
    (d'.firewall.tables.Has id ↔ routeRuleIDs flag routes id)
  denies : DenyFailed errs → ∃ r ∈ routes, r.action = .DROP

theorem isPeer_of_routeRuleIDs {routes : List Proto.RouteFirewallRule}
    (h : routeRuleIDs flag routes id) : id.isPeer = false := by
  obtain ⟨rule, -, -, req, hr, rfl⟩ := h
  exact (ruleID_of_routeRequest hr).1

variable (env) in
/-- What a pass over the route rules does. -/
theorem routePass_applyRouteACLs (h : d.Tracked) (routes : List Proto.RouteFirewallRule)
    (flag : Bool) :
    let r := d.applyRouteACLs env routes flag
    RoutePass flag routes d r.1 r.2 := by
  have hem : RoutesOK ∅ := fun id rule hl => by simp at hl
  have h₁ := installsRoutes_installRouteRules env flag routes h.wellFormed hem
    fun id hid => absurd hid (notMem_empty id)
  unfold applyRouteACLs
  dsimp only at h₁ ⊢
  generalize installRouteRules env flag routes d.firewall ∅ = r₁ at h₁ ⊢
  have hm₁ {id : RuleID} (hid : id ∈ r₁.2.1) : routeRuleIDs flag routes id :=
    (h₁.sub id hid).resolve_left (by simp)
  obtain ⟨hok, ht⟩ := teardown_teardownRoute env _ d.routeRules.nodupKeys
    (fun e he => h.routes e.1 e.2 (mem_lookup_iff.2 he)) h₁.wellFormed h₁.routesOK fun id hid => by
      rw [h₁.has, h.route_mem id hid, or_comm, AList.mem_keys]
      rfl
  generalize teardownRoute env r₁.1 r₁.2.1 d.routeRules.entries = r at hok ht ⊢
  have hf (id : RuleID) (hid : id.isPeer) : r.1.tables.Has id ↔ d.firewall.tables.Has id := by
    rw [ht.frame id hid, h₁.has]
    refine ⟨fun hh => hh.resolve_right fun hm => ?_, .inl⟩
    rw [isPeer_of_routeRuleIDs (hm₁ hm)] at hid
    cases hid
  refine ⟨⟨⟨ht.wellFormed, h.pairs, fun id hid => ?_⟩, hok, ht.mem⟩, hf, fun id hid => ?_,
    fun he id hid => ?_, fun hd => ?_⟩
  · rw [hf id hid, h.mem id hid]
  · exact ((h₁.has id).1 (ht.has id hid)).imp_right hm₁
  · obtain ⟨he, he'⟩ := append_eq_nil_iff.1 he
    rw [ht.mem id hid, ht.ids he' id, h₁.ids he id]
    simp
  · have her {e : PassError} (he : e ∈ r₁.2.2 ++ r.2.2) :
        (∃ r ∈ routes, e = .install r.action) ∨ ∃ id, e = .delete id :=
      (mem_append.1 he).imp (h₁.errors e) (ht.errors e)
    rcases hd with he | he
    · rcases her he with ⟨r, -, hr⟩ | ⟨id, hid⟩
      · cases hr
      · cases hid
    · rcases her he with ⟨r, hr, ha⟩ | ⟨id, hid⟩
      · exact ⟨r, hr, (install.inj ha).symm⟩
      · cases hid

/-! ### Whole passes -/

/-- What a pass leads to: its rules come from the map, all of them if nothing failed, and a deny
that fails is one of its half. -/
structure Pass (env : FirewallEnv) (m : Proto.NetworkMap) (flag : Bool) (d d' : DefaultManager)
    (errs : List PassError) : Prop where
  tracked : d'.Tracked
  ids : errs = [] → ∀ id, d'.firewall.tables.Has id ↔
    peerRuleIDs env.stateful (peerGroups m) id ∨ routeRuleIDs flag m.routesFirewallRules id
  denies : DenyFailed errs → ((∃ r ∈ effectivePeerRules m, r.action = .DROP) ∧
      ∀ id, id.action = .accept → d'.firewall.tables.Has id →
        d.firewall.tables.Has id ∨ routeRuleIDs flag m.routesFirewallRules id) ∨
    ((∃ r ∈ m.routesFirewallRules, r.action = .DROP) ∧
      ∀ id, d'.firewall.tables.Has id → d.firewall.tables.Has id ∨
        peerRuleIDs env.stateful (peerGroups m) id ∨ routeRuleIDs flag m.routesFirewallRules id)

theorem isPeer_of_peerRuleIDs {stateful : Bool} {groups : List PeerRuleGroup}
    (h : peerRuleIDs stateful groups id) : id.isPeer := by
  obtain ⟨g, -, req, hr, rfl⟩ := h
  exact (ruleID_of_request hr).1

theorem denyFailed_append {errs' : List PassError} :
    DenyFailed (errs ++ errs') ↔ DenyFailed errs ∨ DenyFailed errs' := by
  simp only [DenyFailed, mem_append]
  tauto

variable (env) in
theorem pass_applyPass (h : d.Tracked) (m : Proto.NetworkMap) (flag : Bool) :
    let r := d.applyPass env m flag
    Pass env m flag d r.1 r.2 := by
  have h₁ := peerPass_applyPeerACLs env h m
  have h₂ := routePass_applyRouteACLs env h₁.tracked m.routesFirewallRules flag
  refine ⟨⟨⟨h₂.tracked.wellFormed, h₂.tracked.pairs, h₂.tracked.mem⟩, h₂.tracked.routes,
    h₂.tracked.route_mem⟩, fun he id => ?_, fun hd => ?_⟩
  · obtain ⟨he, -⟩ := append_eq_nil_iff.1 he
    obtain ⟨he₁, he₂⟩ := append_eq_nil_iff.1 he
    cases hid : id.isPeer with
    | true =>
      have hr : ¬routeRuleIDs flag m.routesFirewallRules id := fun hr => by
        rw [isPeer_of_routeRuleIDs hr] at hid
        cases hid
      exact (h₂.frame id hid).trans ((h₁.ids he₁ id hid).trans (or_iff_left hr).symm)
    | false =>
      have hp : ¬peerRuleIDs env.stateful (peerGroups m) id := fun hp => by
        rw [isPeer_of_peerRuleIDs hp] at hid
        cases hid
      exact (h₂.ids he₂ id hid).trans (or_iff_right hp).symm
  · have hf (ok : Bool) : ¬DenyFailed (if ok then [] else [.flush]) := by
      cases ok <;> simp [DenyFailed]
    rcases denyFailed_append.1 hd with hd | hd
    · rcases denyFailed_append.1 hd with hd | hd
      · refine .inl ⟨h₁.denies hd, fun id ha hid => ?_⟩
        exact (h₂.has id hid).imp_left (h₁.fail_closed hd id ha)
      · refine .inr ⟨h₂.denies hd, fun id hid => ?_⟩
        rcases h₂.has id hid with hid | hid
        · exact (h₁.has id hid).imp_right .inl
        · exact .inr (.inr hid)
    · exact absurd hd (hf _)

theorem tracked_init : ({} : DefaultManager).Tracked := by
  have hh (id : RuleID) : ¬({} : Tables).Has id := by
    unfold Tables.Has Tables.table
    split <;> exact notMem_empty id
  refine ⟨⟨⟨fun id rule hl => ?_, fun id rule hl => ?_⟩, fun id rules hl => ?_, fun id _ => ?_⟩,
    fun id rule hl => ?_, fun id _ => ?_⟩
  · simp at hl
  · simp at hl
  · simp at hl
  · exact iff_of_false (hh id) (notMem_empty id)
  · simp at hl
  · exact iff_of_false (hh id) (notMem_empty id)

theorem Tracked.remember (h : d.Tracked) (ha : ConfigHash) (applied : Bool) :
    { d with previousConfigHash := ha, hasAppliedConfig := applied }.Tracked :=
  ⟨⟨h.wellFormed, h.pairs, h.mem⟩, h.routes, h.route_mem⟩

variable (env) in
theorem tracked_applyFiltering (h : d.Tracked) (m : Proto.NetworkMap) (flag : Bool) :
    (d.applyFiltering env m flag).1.Tracked := by
  have ht := (pass_applyPass env h m flag).tracked
  unfold applyFiltering
  split
  · exact h
  · dsimp only
    split
    · exact ht.remember _ true
    · exact ht.remember _ false

variable (env) in
/-- In every run, the rules installed are tracked. -/
theorem tracked_run (l : List (Proto.NetworkMap × Bool)) : (run env {} l).Tracked := by
  induction l using List.reverseRecOn with
  | nil => exact tracked_init
  | append_singleton l m ih =>
    rw [run, foldl_append]
    exact tracked_applyFiltering env ih m.1 m.2

/-- What one call leaves: every rule in the tables is tracked under its id, and a pass without
failures leaves exactly the rules of the map. -/
structure Sound (env : FirewallEnv) (d : DefaultManager) (m : Proto.NetworkMap) (flag : Bool) :
    Prop where
  peer_tracked : ∀ id rule,
    (d.applyFiltering env m flag).1.firewall.tables.peerRules.lookup id = some rule →
      ∃ rules, (d.applyFiltering env m flag).1.peerRulesPairs.lookup id = some rules ∧
        rule.id ∈ rules.map (·.id)
  route_tracked : ∀ id rule,
    (d.applyFiltering env m flag).1.firewall.tables.routeRules.lookup id = some rule →
      ∃ tracked, (d.applyFiltering env m flag).1.routeRules.lookup id = some tracked ∧
        tracked.id = rule.id
  ids : d.unchanged m flag = false → (d.applyFiltering env m flag).2 = [] → ∀ id,
    ((d.applyFiltering env m flag).1.firewall.tables.Has id ↔
      peerRuleIDs env.stateful (peerGroups m) id ∨ routeRuleIDs flag m.routesFirewallRules id)

/-- A call that fails to decode or install a deny adds no accept rule. -/
def FailsClosed (env : FirewallEnv) (d : DefaultManager) (m : Proto.NetworkMap) (flag : Bool) :
    Prop :=
  DenyFailed (d.applyFiltering env m flag).2 → ∀ id, id.action = .accept →
    (d.applyFiltering env m flag).1.firewall.tables.Has id → d.firewall.tables.Has id

/-- What a deny that fails must find installed: the accept rules for routes when a peer rule
denies, and all accept rules when a route rule denies. -/
structure AcceptsInstalled (stateful : Bool) (d : DefaultManager) (m : Proto.NetworkMap)
    (flag : Bool) : Prop where
  of_peer : (∃ r ∈ effectivePeerRules m, r.action = .DROP) → ∀ id, id.action = .accept →
    routeRuleIDs flag m.routesFirewallRules id → d.firewall.tables.Has id
  of_route : (∃ r ∈ m.routesFirewallRules, r.action = .DROP) → ∀ id, id.action = .accept →
    peerRuleIDs stateful (peerGroups m) id ∨ routeRuleIDs flag m.routesFirewallRules id →
      d.firewall.tables.Has id

theorem Tracked.peer_tracked (h : d.Tracked) {rule : Rule}
    (hl : d.firewall.tables.peerRules.lookup id = some rule) :
    ∃ rules, d.peerRulesPairs.lookup id = some rules ∧ rule.id ∈ rules.map (·.id) := by
  obtain ⟨hid, hp⟩ := h.wellFormed.peer id rule hl
  have hh := ((Tables.mem_peerRules h.wellFormed).1 (mem_of_lookup hl)).1
  obtain ⟨rules, hrl⟩ := mem_iff_lookup.1 ((h.mem id hp).1 hh)
  obtain ⟨-, r, rfl, hr⟩ := h.pairs id rules hrl
  exact ⟨_, hrl, by simp [hid, hr]⟩

theorem Tracked.route_tracked (h : d.Tracked) {rule : Rule}
    (hl : d.firewall.tables.routeRules.lookup id = some rule) :
    ∃ tracked, d.routeRules.lookup id = some tracked ∧ tracked.id = rule.id := by
  obtain ⟨hid, hr⟩ := h.wellFormed.route id rule hl
  have hh := ((Tables.mem_routeRules h.wellFormed).1 (mem_of_lookup hl)).1
  obtain ⟨tracked, ht⟩ := mem_iff_lookup.1 ((h.route_mem id hr).1 hh)
  exact ⟨tracked, ht, (h.routes id tracked ht).1.trans hid.symm⟩

variable (env) in
/-- What the tables and the errors of a call are: those of the pass, unless it was skipped. -/
theorem applyFiltering_eq (hu : d.unchanged m flag = false) :
    (d.applyFiltering env m flag).1.firewall = (d.applyPass env m flag).1.firewall ∧
      (d.applyFiltering env m flag).2 = (d.applyPass env m flag).2 := by
  rw [applyFiltering, hu]
  simp only [Bool.false_eq_true, if_false]
  split <;> exact ⟨rfl, trivial⟩

/-- After any run, a call keeps every installed rule tracked and installs exactly the rules of its
map if nothing fails; and it fails closed if the accept rules that the map would add beside a deny
are there already. -/
theorem sound_run (env : FirewallEnv) (l : List (Proto.NetworkMap × Bool)) (m : Proto.NetworkMap)
    (flag : Bool) : Sound env (run env {} l) m flag ∧
      (AcceptsInstalled env.stateful (run env {} l) m flag →
        FailsClosed env (run env {} l) m flag) := by
  have hrn := tracked_run env l
  have ht := tracked_applyFiltering env hrn m flag
  generalize run env {} l = d at hrn ht
  refine ⟨⟨fun id rule => ht.peer_tracked, fun id rule => ht.route_tracked,
    fun hu he id => ?_⟩, fun h hd id ha hid => ?_⟩
  · obtain ⟨hfw, her⟩ := applyFiltering_eq env hu
    rw [hfw]
    exact (pass_applyPass env hrn m flag).ids (her ▸ he) id
  · cases hu : d.unchanged m flag with
    | true => simp [applyFiltering, hu, DenyFailed] at hd
    | false =>
      obtain ⟨hfw, her⟩ := applyFiltering_eq env hu
      rw [hfw] at hid
      rw [her] at hd
      rcases (pass_applyPass env hrn m flag).denies hd with ⟨hp, hh⟩ | ⟨hr, hh⟩
      · exact (hh id ha hid).elim (fun hid => hid) (h.of_peer hp id ha)
      · exact (hh id hid).elim (fun hid => hid) (h.of_route hr id ha)

/-- A route that is open to one peer. -/
def officeRoute : Proto.RouteFirewallRule where
  sourceRanges := ["100.64.0.7/32"]
  action := .ACCEPT
  destination := "10.0.0.0/24"
  protocol := .ALL

/-- A map that denies a peer and opens a route. -/
def denyAndRoute : Proto.NetworkMap where
  firewallRules := [{ peerIP := "100.64.0.9", action := .DROP, protocol := .TCP }]
  routesFirewallRules := [officeRoute]

def officeRequest : Request where
  mgmtID := ""
  sources := [prefixFrom (.from4 100 64 0 7) 32]
  destination := .ofPrefix (prefixFrom (.from4 10 0 0 0) 24)
  proto := .ALL
  action := .accept

theorem routeRequest_officeRoute : routeRequest officeRoute false = some officeRequest := by
  decide +kernel

/-- The backend refuses the deny, its first call, and the route is opened all the same. -/
theorem route_opened_after_failed_deny :
    ¬FailsClosed { fails := (· = 0) } {} denyAndRoute false := by
  intro h
  have hd : DenyFailed (applyFiltering { fails := (· = 0) } {} denyAndRoute false).2 := by
    decide +kernel
  have hh : (applyFiltering { fails := (· = 0) } {} denyAndRoute false).1.firewall.tables.Has
      officeRequest.ruleID := by decide +kernel
  have hb : ¬({} : DefaultManager).firewall.tables.Has officeRequest.ruleID := by
    decide +kernel
  exact hb (h hd _ rfl hh)

/-- A map that only opens the route. -/
def routeOnly : Proto.NetworkMap where
  firewallRulesIsEmpty := true
  routesFirewallRules := [officeRoute]

/-- The same map fails closed once the route is open; the deny is the third call. -/
theorem sound_run_denyAndRoute :
    let env : FirewallEnv := { fails := (· = 2) }
    DenyFailed ((run env {} [(routeOnly, false)]).applyFiltering env denyAndRoute false).2 ∧
      FailsClosed env (run env {} [(routeOnly, false)]) denyAndRoute false := by
  intro env
  have hh : (run env {} [(routeOnly, false)]).firewall.tables.Has officeRequest.ruleID := by
    decide +kernel
  have hd : DenyFailed
      ((run env {} [(routeOnly, false)]).applyFiltering env denyAndRoute false).2 := by
    decide +kernel
  refine ⟨hd, (sound_run env _ _ _).2 ⟨fun _ id _ hid => ?_, fun hrt => ?_⟩⟩
  · obtain ⟨rule, hr, -, req, hrq, rfl⟩ := hid
    obtain rfl := mem_singleton.1 hr
    obtain rfl := some.inj (routeRequest_officeRoute.symm.trans hrq)
    exact hh
  · obtain ⟨rule, hr, hdr⟩ := hrt
    obtain rfl := mem_singleton.1 hr
    cases hdr

end DefaultManager

end Cloink
