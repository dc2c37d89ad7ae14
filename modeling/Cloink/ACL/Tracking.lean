import Cloink.ACL.Manager

/-!
# Tracking of installed rules

The loops of a pass of the ACL manager, for any failures of the backend: installing groups of peer
rules with a rollback, installing route rules, and removing what is no longer part of the map.
Each of them keeps the record of the manager in step with the tables of the backend.
-/

namespace Cloink

open Firewall AList List Option

/-! ### Requests -/

theorem PeerRuleGroup.ruleID_of_request {g : PeerRuleGroup} {stateful : Bool} {req : Request}
    (h : g.request stateful = some (some req)) :
    req.ruleID.isPeer ∧ convertFirewallAction g.action = some req.ruleID.action ∧
      req.sources = g.sources := by
  unfold request at h
  split at h
  · rename_i protocol action port hp ha hpr
    split at h
    · obtain rfl := some.inj (some.inj h)
      exact ⟨rfl, ha, rfl⟩
    · split at h
      · cases h
      · obtain rfl := some.inj (some.inj h)
        exact ⟨rfl, ha, rfl⟩
    · cases h
  · cases h

theorem ruleID_of_routeRequest {rule : Proto.RouteFirewallRule} {flag : Bool} {req : Request}
    (h : routeRequest rule flag = some req) :
    req.ruleID.isPeer = false ∧ convertFirewallAction rule.action = some req.ruleID.action := by
  simp only [routeRequest, Option.bind_eq_bind, Option.bind_eq_some_iff, Option.pure_def,
    some.injEq] at h
  obtain ⟨sources, -, dst, hd, proto, -, action, ha, rfl⟩ := h
  refine ⟨?_, ha⟩
  have hne : dst ≠ .zero := by
    unfold determineDestination at hd
    rintro rfl
    split at hd
    · split at hd <;> cases hd
    · obtain ⟨p, -, hp⟩ := Option.map_eq_some_iff.1 hd
      cases hp
  simpa [Request.ruleID, RuleID.isPeer] using hne

/-- The rules that the groups of a map ask for. -/
def peerRuleIDs (stateful : Bool) (groups : List PeerRuleGroup) (id : RuleID) : Prop :=
  ∃ g ∈ groups, ∃ req, g.request stateful = some (some req) ∧ req.ruleID = id

/-- The rules that the route rules of a map ask for. -/
def routeRuleIDs (flag : Bool) (rules : List Proto.RouteFirewallRule) (id : RuleID) : Prop :=
  ∃ rule ∈ rules, rule.sourceRanges ≠ [] ∧
    ∃ req, routeRequest rule flag = some req ∧ req.ruleID = id

theorem peerRuleIDs_cons {stateful : Bool} {g : PeerRuleGroup} {groups : List PeerRuleGroup}
    {id : RuleID} : peerRuleIDs stateful (g :: groups) id ↔
      (∃ req, g.request stateful = some (some req) ∧ req.ruleID = id) ∨
        peerRuleIDs stateful groups id := by
  simp [peerRuleIDs]

theorem routeRuleIDs_cons {flag : Bool} {rule : Proto.RouteFirewallRule}
    {rules : List Proto.RouteFirewallRule} {id : RuleID} : routeRuleIDs flag (rule :: rules) id ↔
      (rule.sourceRanges ≠ [] ∧ ∃ req, routeRequest rule flag = some req ∧ req.ruleID = id) ∨
        routeRuleIDs flag rules id := by
  simp [routeRuleIDs]

/-! ### Tracked rules -/

/-- Each tracked pair holds the one rule it is named after. -/
def PairsOK (pairs : RulePairs) : Prop :=
  ∀ id rules, pairs.lookup id = some rules →
    id.isPeer = true ∧ ∃ rule, rules = [rule] ∧ rule.id = id

theorem PairsOK.insert {pairs : RulePairs} (h : PairsOK pairs) {rule : Rule}
    (hp : rule.id.isPeer) : PairsOK (pairs.insert rule.id [rule]) := by
  intro id rules hl
  rcases lookup_insert_some.1 hl with ⟨rfl, rfl⟩ | ⟨-, ho⟩
  · exact ⟨hp, rule, rfl, rfl⟩
  · exact h id rules ho

theorem PairsOK.erase {pairs : RulePairs} (h : PairsOK pairs) (pairID : RuleID) :
    PairsOK (pairs.erase pairID) := by
  intro id rules hl
  by_cases he : id = pairID
  · rw [he, lookup_erase] at hl
    cases hl
  · exact h id rules (by rwa [lookup_erase_ne he] at hl)

/-- Each tracked route rule stands under its id. -/
def RoutesOK (rules : RuleTable) : Prop :=
  ∀ id rule, rules.lookup id = some rule → rule.id = id ∧ id.isPeer = false

theorem RoutesOK.insert {rules : RuleTable} (h : RoutesOK rules) {rule : Rule}
    (hr : rule.id.isPeer = false) : RoutesOK (rules.insert rule.id rule) := by
  intro id r hl
  rcases lookup_insert_some.1 hl with ⟨rfl, rfl⟩ | ⟨-, ho⟩
  · exact ⟨rfl, hr⟩
  · exact h id r ho

namespace DefaultManager

variable {env : FirewallEnv}

variable {b : Backend} {rule : Rule} {d₁ d d' : DefaultManager} {pairs pairs' : RulePairs}
  {errs : List PassError} {g : PeerRuleGroup} {groups : List PeerRuleGroup}

variable (env) in
theorem deleteRules_singleton (h : b.tables.WellFormed) (rule : Rule) :
    let r := deleteRules env b [rule]
    r.2.tables.WellFormed ∧ ((r.1 = [rule] ∧ r.2.tables = b.tables) ∨
        (r.1 = [] ∧ ∀ id, r.2.tables.Has id ↔ id ≠ rule.id ∧ b.tables.Has id)) := by
  obtain ⟨hwf, ⟨hok, ht⟩ | ⟨hok, ht⟩⟩ := Backend.deleteFilterRule_spec env.fails h rule
  · exact ⟨hwf, .inl ⟨by simp [deleteRules, hok], ht⟩⟩
  · exact ⟨hwf, .inr ⟨by simp [deleteRules, hok], ht⟩⟩

/-- The rules in the peer table are the tracked pairs. -/
structure PeersTracked (d : DefaultManager) : Prop where
  wellFormed : d.firewall.tables.WellFormed
  pairs : PairsOK d.peerRulesPairs
  mem : ∀ id, id.isPeer = true → (d.firewall.tables.Has id ↔ id ∈ d.peerRulesPairs)

/-- What an operation on peer rules leaves alone: the route rules of both sides. -/
structure PeerFrame (d d' : DefaultManager) : Prop where
  has : ∀ id, id.isPeer = false → (d'.firewall.tables.Has id ↔ d.firewall.tables.Has id)
  routeRules : d'.routeRules = d.routeRules

theorem PeerFrame.refl (d : DefaultManager) : PeerFrame d d := ⟨fun _ _ => .rfl, rfl⟩

theorem PeerFrame.trans {d₂ d₃ : DefaultManager} (h : PeerFrame d₁ d₂) (h' : PeerFrame d₂ d₃) :
    PeerFrame d₁ d₃ :=
  ⟨fun id hid => (h'.has id hid).trans (h.has id hid), h'.routeRules.trans h.routeRules⟩

/-! ### Rollback -/

variable (h : d.PeersTracked)

include h

theorem PeersTracked.erase {pairID : RuleID} (hn : pairID ∉ d.peerRulesPairs) :
    { d with peerRulesPairs := d.peerRulesPairs.erase pairID }.PeersTracked := by
  have hne {id : RuleID} (hid : id ∈ d.peerRulesPairs) : id ≠ pairID := fun he => hn (he ▸ hid)
  refine ⟨h.wellFormed, h.pairs.erase pairID, fun id hid => ?_⟩
  rw [mem_erase]
  exact (h.mem id hid).trans ⟨fun hm => ⟨hne hm, hm⟩, And.right⟩

/-- A rule is deleted from the tables and from the pairs. -/
theorem PeersTracked.delete (hp : rule.id.isPeer) (hwf : b.tables.WellFormed)
    (hb : ∀ id, b.tables.Has id ↔ id ≠ rule.id ∧ d.firewall.tables.Has id) :
    let d' := { d with firewall := b, peerRulesPairs := d.peerRulesPairs.erase rule.id }
    d'.PeersTracked ∧ PeerFrame d d' := by
  refine ⟨⟨hwf, h.pairs.erase rule.id, fun id hid => ?_⟩, fun id hid => ?_, rfl⟩
  · rw [mem_erase, hb, h.mem id hid]
  · rw [hb, and_iff_right_iff_imp]
    rintro - rfl
    rw [hp] at hid
    cases hid

theorem PeersTracked.same_tables (hb : b.tables = d.firewall.tables)
    (hp : PairsOK pairs) (hm : ∀ id, id ∈ pairs ↔ id ∈ d.peerRulesPairs) :
    let d' := { d with firewall := b, peerRulesPairs := pairs }
    d'.PeersTracked ∧ PeerFrame d d' := by
  refine ⟨⟨hb ▸ h.wellFormed, hp, fun id hid => ?_⟩, fun id _ => ?_, rfl⟩
  · rw [hm, hb, h.mem id hid]
  · rw [hb]

variable (env) in
/-- Undoing one pair keeps the tables tracked and only removes peer rules. -/
theorem rollbackPair_spec (pairID : RuleID) :
    (d.rollbackPair env pairID).PeersTracked ∧ PeerFrame d (d.rollbackPair env pairID) ∧
      ∀ id, (d.rollbackPair env pairID).firewall.tables.Has id → d.firewall.tables.Has id := by
  unfold rollbackPair
  cases hl : d.peerRulesPairs.lookup pairID with
  | none =>
    exact ⟨h.erase (lookup_eq_none.1 hl), ⟨fun _ _ => .rfl, rfl⟩, fun _ => id⟩
  | some rules =>
    obtain ⟨hp, rule, rfl, rfl⟩ := h.pairs _ _ hl
    rw [getD_some]
    have hd := deleteRules_singleton env h.wellFormed rule
    generalize deleteRules env d.firewall [rule] = r at hd ⊢
    obtain ⟨remaining, b⟩ := r
    obtain ⟨hwf, ⟨rfl, ht⟩ | ⟨rfl, ht⟩⟩ := hd
    · have hm : ∀ id, id ∈ d.peerRulesPairs.insert rule.id [rule] ↔ id ∈ d.peerRulesPairs := by
        intro id
        rw [mem_insert]
        exact ⟨fun hid => hid.elim (fun he => he ▸ mem_of_lookup hl) fun hid => hid, .inr⟩
      obtain ⟨htr, hf⟩ := h.same_tables ht (h.pairs.insert hp) hm
      exact ⟨htr, hf, fun id hid => ht ▸ hid⟩
    · obtain ⟨htr, hf⟩ := h.delete hp hwf ht
      exact ⟨htr, hf, fun id hid => ((ht id).1 hid).2⟩

variable (env) in
/-- A rollback only takes rules away, and tracks what is left. -/
theorem rollbackInstalled_spec (pairIDs : List RuleID) :
    (d.rollbackInstalled env pairIDs).PeersTracked ∧ PeerFrame d (d.rollbackInstalled env pairIDs) ∧
      ∀ id, (d.rollbackInstalled env pairIDs).firewall.tables.Has id →
        d.firewall.tables.Has id := by
  induction pairIDs generalizing d with
  | nil => exact ⟨h, .refl d, fun _ => id⟩
  | cons pairID pairIDs ih =>
    obtain ⟨ht, hf, hh⟩ := rollbackPair_spec env h pairID
    obtain ⟨ht', hf', hh'⟩ := ih ht
    exact ⟨ht', hf.trans hf', fun id hid => hh id (hh' id hid)⟩

/-! ### Installing groups -/

/-- What installing groups of peer rules from `d` and `pairs` leads to. -/
structure Installs (env : FirewallEnv) (atomic : Bool) (groups : List PeerRuleGroup)
    (d : DefaultManager) (pairs : RulePairs) (d' : DefaultManager) (pairs' : RulePairs)
    (errs : List PassError) : Prop where
  tracked : d'.PeersTracked
  frame : PeerFrame d d'
  has : ∀ id, d'.firewall.tables.Has id →
    d.firewall.tables.Has id ∨ peerRuleIDs env.stateful groups id
  errors : ∀ e ∈ errs, ∃ g ∈ groups, e = .install g.action
  sub : atomic = false ∨ errs = [] → pairs'.Sub d'.peerRulesPairs
  ids : errs = [] → ∀ id, id ∈ pairs' ↔ id ∈ pairs ∨ peerRuleIDs env.stateful groups id

/-- A rule that is installed is tracked. -/
theorem PeersTracked.add (hp : rule.id.isPeer) (hwf : b.tables.WellFormed)
    (hb : ∀ id, b.tables.Has id ↔ id = rule.id ∨ d.firewall.tables.Has id) :
    let d' := { d with
      firewall := b, peerRulesPairs := d.peerRulesPairs.insert rule.id [rule] }
    d'.PeersTracked ∧ PeerFrame d d' := by
  refine ⟨⟨hwf, h.pairs.insert hp, fun id hid => ?_⟩, fun id hid => ?_, rfl⟩
  · rw [mem_insert, hb, h.mem id hid]
  · rw [hb]
    refine ⟨fun hid' => hid'.resolve_left ?_, .inr⟩
    rintro rfl
    rw [hp] at hid
    cases hid

omit h

theorem sub_insert (h : pairs.Sub pairs') (id : RuleID) (rules : List Rule) :
    (pairs.insert id rules).Sub (pairs'.insert id rules) := by
  intro id' rules' hl
  rcases lookup_insert_some.1 hl with ⟨rfl, rfl⟩ | ⟨hne, ho⟩
  · exact lookup_insert _
  · rw [lookup_insert_ne hne]
    exact h id' rules' ho

/-- A group without a rule is passed over. -/
theorem Installs.skip {atomic : Bool} (hg : g.request env.stateful = some none)
    (h : Installs env atomic groups d pairs d' pairs' errs) :
    Installs env atomic (g :: groups) d pairs d' pairs' errs := by
  have hi (id : RuleID) : peerRuleIDs env.stateful (g :: groups) id ↔
      peerRuleIDs env.stateful groups id := by
    rw [peerRuleIDs_cons, hg]
    simp
  refine { h with has := ?_, errors := ?_, ids := ?_ }
  · intro id hid
    rw [hi]
    exact h.has id hid
  · intro e he
    obtain ⟨g', hg', rfl⟩ := h.errors e he
    exact ⟨g', mem_cons_of_mem g hg', rfl⟩
  · intro he id
    rw [hi]
    exact h.ids he id

/-- A rule that fails leaves the tables alone, and the others are installed. -/
theorem Installs.fail (hf : PeerFrame d d₁) (hd₁ : d₁.firewall.tables = d.firewall.tables)
    (h : Installs env false groups d₁ pairs d' pairs' errs) :
    Installs env false (g :: groups) d pairs d' pairs' (.install g.action :: errs) := by
  refine ⟨h.tracked, hf.trans h.frame, ?_, ?_, fun _ => h.sub (.inl rfl), nofun⟩
  · intro id hid
    rw [peerRuleIDs_cons, ← hd₁]
    exact (h.has id hid).imp_right .inr
  · intro e he
    rcases mem_cons.1 he with rfl | he
    · exact ⟨g, mem_cons_self, rfl⟩
    · obtain ⟨g', hg', rfl⟩ := h.errors e he
      exact ⟨g', mem_cons_of_mem g hg', rfl⟩

theorem Installs.install {atomic : Bool} {req : Request}
    (hg : g.request env.stateful = some (some req)) (hid : rule.id = req.ruleID)
    (hf : PeerFrame d d₁)
    (hd₁ : ∀ id, d₁.firewall.tables.Has id ↔ id = rule.id ∨ d.firewall.tables.Has id)
    (h : Installs env atomic groups d₁ (pairs.insert rule.id [rule]) d' pairs' errs) :
    Installs env atomic (g :: groups) d pairs d' pairs' errs := by
  have hi (id : RuleID) : peerRuleIDs env.stateful (g :: groups) id ↔
      id = rule.id ∨ peerRuleIDs env.stateful groups id := by
    rw [peerRuleIDs_cons, hg]
    simp [hid, eq_comm]
  refine ⟨h.tracked, hf.trans h.frame, ?_, ?_, h.sub, ?_⟩
  · intro id hid
    rw [hi]
    rcases h.has id hid with hid | hid
    · rcases (hd₁ id).1 hid with he | hid
      · exact .inr (.inl he)
      · exact .inl hid
    · exact .inr (.inr hid)
  · intro e he
    obtain ⟨g', hg', rfl⟩ := h.errors e he
    exact ⟨g', mem_cons_of_mem g hg', rfl⟩
  · intro he id
    rw [h.ids he id, mem_insert, hi]
    tauto

/-- In an atomic pass, a rule that fails undoes the pass. -/
theorem Installs.rollback (fresh : List RuleID) (hf : PeerFrame d d₁)
    (ht : d₁.PeersTracked) (hd₁ : d₁.firewall.tables = d.firewall.tables) :
    Installs env true (g :: groups) d pairs (d₁.rollbackInstalled env fresh) pairs
      [.install g.action] := by
  obtain ⟨ht', hf', hh⟩ := rollbackInstalled_spec env ht fresh
  refine ⟨ht', hf.trans hf', ?_, ?_, nofun, nofun⟩
  · intro id hid
    exact .inl (hd₁ ▸ hh id hid)
  · intro e he
    exact ⟨g, mem_cons_self, mem_singleton.1 he⟩

variable (env) in
/-- The loop over the groups, by induction over them. -/
theorem installs_installPeerGroups (atomic : Bool) (groups : List PeerRuleGroup)
    (fresh : List RuleID) (h : d.PeersTracked) (hs : pairs.Sub d.peerRulesPairs) :
    let r := installPeerGroups env atomic groups fresh d pairs
    Installs env atomic groups d pairs r.1 r.2.1 r.2.2 := by
  induction groups generalizing fresh d pairs with
  | nil =>
    exact ⟨h, .refl d, fun _ => .inl, nofun, fun _ => hs,
      fun _ id => by simp [installPeerGroups, peerRuleIDs]⟩
  | cons g groups ih =>
    -- a failure before or in the backend, which leaves the tables as they are
    have hfl {d₁ : DefaultManager} (hf : PeerFrame d d₁) (htr : d₁.PeersTracked)
        (hpr : d₁.peerRulesPairs = d.peerRulesPairs)
        (hd₁ : d₁.firewall.tables = d.firewall.tables) :
        let r := if atomic then
            (d₁.rollbackInstalled env fresh, pairs, [.install g.action])
          else
            let r := installPeerGroups env atomic groups fresh d₁ pairs
            (r.1, r.2.1, .install g.action :: r.2.2)
        Installs env atomic (g :: groups) d pairs r.1 r.2.1 r.2.2 := by
      cases atomic with
      | true => exact .rollback fresh hf htr hd₁
      | false => exact .fail hf hd₁ (ih fresh htr (hpr ▸ hs))
    rw [installPeerGroups]
    cases hg : g.request env.stateful with
    | none => exact hfl (.refl d) h rfl rfl
    | some oreq =>
      cases oreq with
      | none => exact .skip hg (ih fresh h hs)
      | some req =>
        have hp := (PeerRuleGroup.ruleID_of_request hg).1
        have ha := Backend.addFilterRule_spec env.fails h.wellFormed req
        simp only [add]
        generalize d.firewall.addFilterRule env.fails req = r at ha ⊢
        obtain ⟨r, b⟩ := r
        obtain ⟨hwf, ⟨rfl, ht⟩ | ⟨rule, rfl, hid, ht⟩⟩ := ha
        · obtain ⟨htr, hf⟩ := h.same_tables ht h.pairs fun _ => .rfl
          exact hfl hf htr rfl ht
        · rw [← hid] at hp ht
          obtain ⟨htr, hf⟩ := h.add hp hwf ht
          exact .install hg hid hf ht (ih _ htr (sub_insert hs rule.id [rule]))

/-! ### Teardown -/

/-- What the removal of the rules of one kind that are not in `new` leads to: those that stay
installed are in `new'`. -/
structure Teardown (isPeer : Bool) (b : Backend) (new : RuleID → Prop) (b' : Backend)
    (new' : RuleID → Prop) (errs : List PassError) : Prop where
  wellFormed : b'.tables.WellFormed
  mem : ∀ id, id.isPeer = isPeer → (b'.tables.Has id ↔ new' id)
  frame : ∀ id, id.isPeer = !isPeer → (b'.tables.Has id ↔ b.tables.Has id)
  has : ∀ id, b'.tables.Has id → b.tables.Has id
  ids : errs = [] → ∀ id, new' id ↔ new id
  errors : ∀ e ∈ errs, ∃ id, e = .delete id

variable {isPeer : Bool} {b b₁ b' : Backend} {new new₁ new' : RuleID → Prop}
  {errs : List PassError}

theorem Teardown.removed (hp : rule.id.isPeer = isPeer)
    (hb : ∀ id, b₁.tables.Has id ↔ id ≠ rule.id ∧ b.tables.Has id)
    (h : Teardown isPeer b₁ new b' new' errs) : Teardown isPeer b new b' new' errs := by
  refine { h with frame := fun id hid => ?_, has := fun id hid => ((hb id).1 (h.has id hid)).2 }
  rw [h.frame id hid, hb, and_iff_right_iff_imp]
  rintro - rfl
  simp [hp] at hid

theorem Teardown.kept (id : RuleID) (hb : b₁.tables = b.tables)
    (h : Teardown isPeer b₁ new₁ b' new' errs) :
    Teardown isPeer b new b' new' (.delete id :: errs) := by
  refine ⟨h.wellFormed, h.mem, hb ▸ h.frame, hb ▸ h.has, nofun, fun e he => ?_⟩
  rcases mem_cons.1 he with rfl | he
  · exact ⟨id, rfl⟩
  · exact h.errors e he

theorem has_removed_iff {keys : List RuleID}
    (hb : ∀ id, b₁.tables.Has id ↔ id ≠ rule.id ∧ b.tables.Has id) (ho : ¬new rule.id)
    (hn : rule.id ∉ keys) {id : RuleID} (h : b.tables.Has id ↔ new id ∨ id = rule.id ∨ id ∈ keys) :
    b₁.tables.Has id ↔ new id ∨ id ∈ keys := by
  rw [hb, h]
  constructor
  · rintro ⟨hne, h | rfl | h⟩
    · exact .inl h
    · exact absurd rfl hne
    · exact .inr h
  · rintro (h | h)
    · exact ⟨fun he => ho (he ▸ h), .inl h⟩
    · exact ⟨fun he => hn (he ▸ h), .inr (.inr h)⟩

theorem has_skipped_iff {keys : List RuleID} {id id' : RuleID} (hin : new id')
    (h : b.tables.Has id ↔ new id ∨ id = id' ∨ id ∈ keys) : b.tables.Has id ↔ new id ∨ id ∈ keys :=
  h.trans ⟨fun h => h.elim .inl fun h => h.elim (fun he => .inl (he ▸ hin)) .inr,
    fun h => h.imp_right .inr⟩

variable (env) in
/-- The loop that removes old peer rules; what cannot be deleted stays tracked. -/
theorem teardown_teardownPeer (es : List (Sigma fun _ : RuleID => List Rule))
    (hn : (es.map Sigma.fst).Nodup)
    (hes : ∀ e ∈ es, e.1.isPeer ∧ ∃ rule, e.2 = [rule] ∧ rule.id = e.1)
    (hwf : b.tables.WellFormed) (hp : PairsOK pairs)
    (hm : ∀ id, id.isPeer → (b.tables.Has id ↔ id ∈ pairs ∨ id ∈ es.map Sigma.fst)) :
    let r := teardownPeer env b pairs es
    PairsOK r.2.1 ∧ Teardown true b (· ∈ pairs) r.1 (· ∈ r.2.1) r.2.2 := by
  induction es generalizing b pairs with
  | nil =>
    refine ⟨hp, hwf, fun id hid => ?_, fun _ _ => .rfl, fun _ => id, fun _ _ => .rfl, nofun⟩
    simpa [teardownPeer] using hm id hid
  | cons e es ih =>
    obtain ⟨pairID, rules⟩ := e
    obtain ⟨hpr, rule, hr, hid⟩ := hes _ mem_cons_self
    obtain rfl : rules = [rule] := hr
    obtain rfl : rule.id = pairID := hid
    obtain ⟨hnt, hn⟩ := nodup_cons.1 hn
    have hes' := fun e he => hes e (mem_cons_of_mem _ he)
    simp only [map_cons, mem_cons] at hm
    rw [teardownPeer]
    split
    · rename_i hin
      exact ih hn hes' hwf hp fun id hid => has_skipped_iff hin (hm id hid)
    · rename_i ho
      obtain ⟨hw₁, ⟨hrm, ht⟩ | ⟨hrm, ht⟩⟩ := deleteRules_singleton env hwf rule
      · -- the backend refuses: the pair stays tracked
        obtain ⟨hok, h⟩ := ih hn hes' hw₁ (hp.insert hpr) fun id hid => by
          rw [ht, hm id hid, mem_insert]
          tauto
        simp only [hrm]
        exact ⟨hok, h.kept rule.id ht⟩
      · obtain ⟨hok, h⟩ := ih hn hes' hw₁ hp
          fun id hid => has_removed_iff ht ho hnt (hm id hid)
        simp only [hrm]
        exact ⟨hok, h.removed hpr ht⟩

variable (env) in
/-- The same loop for route rules. -/
theorem teardown_teardownRoute (es : List (Sigma fun _ : RuleID => Rule))
    (hn : (es.map Sigma.fst).Nodup) (hes : ∀ e ∈ es, e.2.id = e.1 ∧ e.1.isPeer = false)
    (hwf : b.tables.WellFormed) {rules : RuleTable} (hr : RoutesOK rules)
    (hm : ∀ id, id.isPeer = false → (b.tables.Has id ↔ id ∈ rules ∨ id ∈ es.map Sigma.fst)) :
    let r := teardownRoute env b rules es
    RoutesOK r.2.1 ∧ Teardown false b (· ∈ rules) r.1 (· ∈ r.2.1) r.2.2 := by
  induction es generalizing b rules with
  | nil =>
    refine ⟨hr, hwf, fun id hid => ?_, fun _ _ => .rfl, fun _ => id, fun _ _ => .rfl, nofun⟩
    simpa [teardownRoute] using hm id hid
  | cons e es ih =>
    obtain ⟨ruleID, rule⟩ := e
    obtain ⟨hid, hrt⟩ := hes _ mem_cons_self
    obtain rfl : rule.id = ruleID := hid
    obtain ⟨hnt, hn⟩ := nodup_cons.1 hn
    have hes' := fun e he => hes e (mem_cons_of_mem _ he)
    simp only [map_cons, mem_cons] at hm
    rw [teardownRoute]
    split
    · rename_i hin
      exact ih hn hes' hwf hr fun id hid => has_skipped_iff hin (hm id hid)
    · rename_i ho
      have hd := Backend.deleteFilterRule_spec env.fails hwf rule
      generalize b.deleteFilterRule env.fails rule = r at hd ⊢
      obtain ⟨ok, b₁⟩ := r
      obtain ⟨hw₁, ⟨rfl, ht⟩ | ⟨rfl, ht⟩⟩ := hd
      · obtain ⟨hok, h⟩ := ih hn hes' hw₁ (hr.insert hrt) fun id hid => by
          rw [ht, hm id hid, mem_insert]
          tauto
        exact ⟨hok, h.kept rule.id ht⟩
      · obtain ⟨hok, h⟩ := ih hn hes' hw₁ hr
          fun id hid => has_removed_iff ht ho hnt (hm id hid)
        exact ⟨hok, h.removed hrt ht⟩

/-! ### Installing route rules -/

/-- What installing route rules from `b` and `rules` leads to. -/
structure InstallsRoutes (flag : Bool) (routes : List Proto.RouteFirewallRule) (b : Backend)
    (rules : RuleTable) (b' : Backend) (rules' : RuleTable) (errs : List PassError) : Prop where
  wellFormed : b'.tables.WellFormed
  routesOK : RoutesOK rules'
  has : ∀ id, b'.tables.Has id ↔ b.tables.Has id ∨ id ∈ rules'
  mono : ∀ id ∈ rules, id ∈ rules'
  sub : ∀ id ∈ rules', id ∈ rules ∨ routeRuleIDs flag routes id
  errors : ∀ e ∈ errs, ∃ rule ∈ routes, e = .install rule.action
  ids : errs = [] → ∀ id, id ∈ rules' ↔ id ∈ rules ∨ routeRuleIDs flag routes id

variable (env) in
/-- The loop over the route rules, which goes on after a failure. -/
theorem installsRoutes_installRouteRules (flag : Bool) (routes : List Proto.RouteFirewallRule)
    (hwf : b.tables.WellFormed) {rules : RuleTable} (hrl : RoutesOK rules)
    (hin : ∀ id ∈ rules, b.tables.Has id) :
    let r := installRouteRules env flag routes b rules
    InstallsRoutes flag routes b rules r.1 r.2.1 r.2.2 := by
  induction routes generalizing b rules with
  | nil =>
    exact ⟨hwf, hrl, fun id => ⟨.inl, fun h => h.elim (fun h => h) (hin id)⟩, fun _ => id,
      fun _ => .inl, nofun, fun _ id => by simp [installRouteRules, routeRuleIDs]⟩
  | cons rule routes ih =>
    have hc {id : RuleID} (h : routeRuleIDs flag routes id) :
        routeRuleIDs flag (rule :: routes) id := routeRuleIDs_cons.2 (.inr h)
    have her {errs : List PassError} (h : ∀ e ∈ errs, ∃ r ∈ routes, e = .install r.action) :
        ∀ e ∈ errs, ∃ r ∈ rule :: routes, e = .install r.action := fun e he => by
      obtain ⟨r, hr, rfl⟩ := h e he
      exact ⟨r, mem_cons_of_mem rule hr, rfl⟩
    -- a rule that is malformed or that the backend refuses
    have hf {b₁ : Backend} (hw₁ : b₁.tables.WellFormed) (hb₁ : b₁.tables = b.tables) :
        let r := installRouteRules env flag routes b₁ rules
        InstallsRoutes flag (rule :: routes) b rules r.1 r.2.1 (.install rule.action :: r.2.2) := by
      have h := ih hw₁ hrl (hb₁ ▸ hin)
      refine ⟨h.wellFormed, h.routesOK, hb₁ ▸ h.has, h.mono,
        fun id hid => (h.sub id hid).imp_right hc, fun e he => ?_, by simp⟩
      rcases mem_cons.1 he with rfl | he
      · exact ⟨rule, mem_cons_self, rfl⟩
      · exact her h.errors e he
    rw [installRouteRules]
    split
    · rename_i hem
      have h := ih hwf hrl hin
      have hi (id : RuleID) : routeRuleIDs flag (rule :: routes) id ↔
          routeRuleIDs flag routes id := by
        simp [routeRuleIDs_cons, isEmpty_iff.1 hem]
      exact ⟨h.wellFormed, h.routesOK, h.has, h.mono,
        fun id hid => (h.sub id hid).imp_right hc, her h.errors,
        fun he id => by rw [hi]; exact h.ids he id⟩
    · rename_i hem
      cases hrq : routeRequest rule flag with
      | none => exact hf hwf rfl
      | some req =>
        have hrt := (ruleID_of_routeRequest hrq).1
        have hi (id : RuleID) : routeRuleIDs flag (rule :: routes) id ↔
            id = req.ruleID ∨ routeRuleIDs flag routes id := by
          have hne : rule.sourceRanges ≠ [] := fun he => hem (by simp [he])
          simp [routeRuleIDs_cons, hrq, hne, eq_comm]
        have had := Backend.addFilterRule_spec env.fails hwf req
        dsimp only
        generalize b.addFilterRule env.fails req = r at had ⊢
        obtain ⟨r, b₁⟩ := r
        obtain ⟨hw₁, ⟨rfl, ht⟩ | ⟨added, rfl, hid, ht⟩⟩ := had
        · exact hf hw₁ ht
        · rw [← hid] at hrt
          have h := ih hw₁ (hrl.insert hrt) fun id hm => by
            rw [ht, ← hid]
            exact (mem_insert _).1 hm |>.imp_right (hin id)
          have ha := h.mono _ ((mem_insert _).2 (.inl rfl))
          refine ⟨h.wellFormed, h.routesOK, fun id => ?_,
            fun id hm => h.mono id ((mem_insert _).2 (.inr hm)), fun id hm => ?_,
            her h.errors, fun he id => ?_⟩
          · rw [h.has, ht, ← hid]
            constructor
            · rintro ((rfl | hh) | hm)
              · exact .inr ha
              · exact .inl hh
              · exact .inr hm
            · exact fun hh => hh.imp_left .inr
          · rw [hi, ← hid]
            rcases h.sub id hm with hm | hm
            · exact (mem_insert _).1 hm |>.elim (.inr ∘ .inl) .inl
            · exact .inr (.inr hm)
          · rw [h.ids he id, mem_insert, hi, hid]
            tauto

end DefaultManager

end Cloink
