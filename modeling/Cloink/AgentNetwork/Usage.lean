import Cloink.AgentNetwork.Selection
import Mathlib.Algebra.Order.Ring.Nat

/-!
# Booking the usage of a request

`RecordUsage` books the tokens and the cost of a served request on the counters of the user and of
the attribution group in the window that the selection handed out, and on those of every rule of the
account that binds the caller. A selection hands out one window, that of the token limit when it is
enabled, so the counters of a budget limit with another window are not booked.
-/

namespace Cloink.AgentNetwork

open List Except Consumption

variable {USD : Type}

/-! ### The store -/

section

instance [Add USD] : Add (Consumption USD) :=
  ⟨fun a b => ⟨a.tokensInput + b.tokensInput, a.tokensOutput + b.tokensOutput,
    a.costUSD + b.costUSD⟩⟩

/-- Adds the usage to the row of a key, which is created when it is not there. -/
def upsert [Add USD] (accountID : String) (usage : Consumption USD) (table : ConsumptionTable USD)
    (key : ConsumptionKey) : ConsumptionTable USD :=
  table.insert (accountID, key) (((table.lookup (accountID, key)).map (· + usage)).getD usage)

/-- Usage is not negative. -/
def validUsage [LinearOrder USD] [Zero USD] (usage : Consumption USD) : Bool :=
  0 ≤ usage.tokensInput && 0 ≤ usage.tokensOutput && 0 ≤ usage.costUSD

/-- `IncrementAgentNetworkConsumptionBatch`: one transaction over the keys. -/
def incrementBatch [LinearOrder USD] [Zero USD] [Add USD] (store : Store USD) (accountID : String)
    (keys : List ConsumptionKey) (usage : Consumption USD) : Except Error (Store USD) := do
  reject (accountID = "") Error.accountIDRequired
  reject (!validUsage usage) Error.usageDeltas
  reject (keys.any fun k => k.dimID = "" || k.windowSeconds ≤ 0) Error.consumptionKey
  let table ← store.answer .increment (keys.foldl (upsert accountID usage) store.consumption)
  return { store with consumption := table }

end

/-! ### Recording -/

structure RecordUsageInput (USD : Type) where
  accountID : String
  userID : String
  attributionGroupID : String
  groupIDs : List String
  windowSeconds : Int
  usage : Consumption USD

def ruleWindows (r : AccountBudgetRule USD) : List Int :=
  let tl := r.limits.tokenLimit
  let bl := r.limits.budgetLimit
  let windows := if tl.enabled && tl.windowSeconds > 0 then [tl.windowSeconds] else []
  if bl.enabled && bl.windowSeconds > 0 && windows.head? ≠ some bl.windowSeconds then
    windows ++ [bl.windowSeconds]
  else windows

/-- Adds the keys of the windows of a rule. -/
def addRuleKeys (inp : PolicySelectionInput) (now : Int) (set : List ConsumptionKey)
    (r : AccountBudgetRule USD) : Except Error (List ConsumptionKey) :=
  (ruleWindows r).foldlM (fun set window =>
    addLimitKeys set inp.userID (lowestIntersect r.targetGroups inp.groupIDs) window now) set

def addAccountBudgetKeys (set : List ConsumptionKey) (inp : PolicySelectionInput)
    (rules : List (AccountBudgetRule USD)) (now : Int) : Except Error (List ConsumptionKey) :=
  (applicableRules rules inp).foldlM (addRuleKeys inp now) set

def usageKeys (inp : RecordUsageInput USD) (rules : List (AccountBudgetRule USD)) (now : Int) :
    Except Error (List ConsumptionKey) := do
  let set ← (if inp.windowSeconds > 0 then
    addLimitKeys [] inp.userID inp.attributionGroupID inp.windowSeconds now else .ok [])
  addAccountBudgetKeys set ⟨inp.accountID, inp.userID, inp.groupIDs, "", ""⟩ rules now

def recordUsage [LinearOrder USD] [Zero USD] [Add USD] (store : Store USD)
    (inp : RecordUsageInput USD) (now : Int) : Except Error (Store USD) := do
  reject (inp.accountID = "") Error.accountIDRequired
  reject (!validUsage inp.usage) Error.usageDeltas
  let rules ← store.answer .budgetRules (store.budgetRules inp.accountID)
  let keys ← usageKeys inp rules now
  if keys.isEmpty then return store
  incrementBatch store inp.accountID keys inp.usage

/-! ### Keys -/

section

variable {inp : RecordUsageInput USD} {rules : List (AccountBudgetRule USD)} {now : Int}
  {key : ConsumptionKey}

theorem mem_ruleWindows {r : AccountBudgetRule USD} {w : Int} :
    w ∈ ruleWindows r ↔ r.limits.TokenActive ∧ w = r.limits.tokenLimit.windowSeconds ∨
      r.limits.BudgetActive ∧ w = r.limits.budgetLimit.windowSeconds := by
  simp only [ruleWindows, PolicyLimits.TokenActive, PolicyLimits.BudgetActive]
  grind

theorem mem_addRuleKeys {inp : PolicySelectionInput} {set set' : List ConsumptionKey}
    {r : AccountBudgetRule USD} (h : addRuleKeys inp now set r = .ok set') :
    key ∈ set' ↔ key ∈ set ∨ ∃ w ∈ ruleWindows r,
      LimitKey inp.userID (lowestIntersect r.targetGroups inp.groupIDs) w now key :=
  foldlM_iff_exists (p := (key ∈ ·)) (fun _ _ _ => mem_addLimitKeys) h

/-- The key is one on which the usage is booked. -/
def UsageKey (inp : RecordUsageInput USD) (rules : List (AccountBudgetRule USD)) (now : Int)
    (key : ConsumptionKey) : Prop :=
  LimitKey inp.userID inp.attributionGroupID inp.windowSeconds now key ∨
  ∃ r ∈ applicableRules rules ⟨inp.accountID, inp.userID, inp.groupIDs, "", ""⟩,
    ∃ w ∈ ruleWindows r,
      LimitKey inp.userID (lowestIntersect r.targetGroups inp.groupIDs) w now key

variable {keys : List ConsumptionKey}

theorem mem_usageKeys (h : usageKeys inp rules now = .ok keys) :
    key ∈ keys ↔ UsageKey inp rules now key := by
  obtain ⟨set, hs, h⟩ := bind_eq_ok_iff.1 h
  have hr := foldlM_iff_exists (p := (key ∈ ·)) (fun _ (r : AccountBudgetRule USD) _ hs =>
    mem_addRuleKeys (r := r) hs) h
  refine hr.trans (or_congr ?_ Iff.rfl)
  split at hs
  next => simpa using mem_addLimitKeys hs
  next hw =>
    cases hs
    exact iff_of_false not_mem_nil fun hk => hw hk.1

theorem nodup_usageKeys (h : usageKeys inp rules now = .ok keys) : keys.Nodup := by
  have ha (user group : String) (w : Int) (set set' : List ConsumptionKey) (hs : set.Nodup)
      (h : addLimitKeys set user group w now = .ok set') : set'.Nodup := by
    rcases addLimitKeys_eq_ok.1 h with ⟨-, rfl⟩ | ⟨-, ws, -, rfl⟩
    · exact hs
    · exact hs.insertAll _
  obtain ⟨set, hs, h⟩ := bind_eq_ok_iff.1 h
  refine foldlM_invariant (p := Nodup) (fun set r set' hs h => ?_) h ?_
  · exact foldlM_invariant (p := Nodup) (fun set w set' => ha _ _ w set set') h hs
  · split at hs
    · exact ha _ _ _ _ _ nodup_nil hs
    · cases hs
      exact nodup_nil

end

/-! ### Counters after a booking -/

section

variable [LinearOrder USD] [AddLeftCancelMonoid USD] {store store' : Store USD}
  {accountID : String} {usage : Consumption USD}

omit [LinearOrder USD] in
theorem counter_upsert (table : ConsumptionTable USD) (k key : ConsumptionKey) :
    counter (upsert accountID usage table k) accountID key =
      if key = k then counter table accountID key + usage else counter table accountID key := by
  unfold counter upsert
  by_cases hk : key = k
  · subst hk
    rw [if_pos rfl, AList.lookup_insert, Option.getD_some]
    cases table.lookup (accountID, key) with
    | some row => rfl
    | none =>
      show usage = ⟨0 + usage.tokensInput, 0 + usage.tokensOutput, 0 + usage.costUSD⟩
      rw [zero_add, zero_add, zero_add]
  · rw [if_neg hk, AList.lookup_insert_ne (by simpa using hk)]

variable (accountID usage) in
omit [LinearOrder USD] in
theorem counter_foldl_upsert {keys : List ConsumptionKey} (hky : keys.Nodup)
    (table : ConsumptionTable USD) (key : ConsumptionKey) :
    counter (keys.foldl (upsert accountID usage) table) accountID key =
      if key ∈ keys then counter table accountID key + usage else counter table accountID key := by
  induction keys generalizing table with
  | nil => simp
  | cons k keys ih =>
    rw [nodup_cons] at hky
    rw [foldl_cons, ih hky.2, counter_upsert]
    by_cases hk : key = k
    · subst hk
      simp [hky.1]
    · simp [hk]

theorem counter_recordUsage {inp : RecordUsageInput USD} {now : Int}
    (h : recordUsage store inp now = .ok store') (key : ConsumptionKey) :
    (UsageKey inp (store.budgetRules inp.accountID) now key →
      counter store'.consumption inp.accountID key =
        counter store.consumption inp.accountID key + inp.usage) ∧
    (¬UsageKey inp (store.budgetRules inp.accountID) now key →
      counter store'.consumption inp.accountID key =
        counter store.consumption inp.accountID key) := by
  simp only [recordUsage, bind_eq_ok_iff, answer_eq_ok] at h
  obtain ⟨-, -, -, -, _, ⟨-, rfl⟩, keys, hk, h⟩ := h
  simp only [← mem_usageKeys hk]
  split at h
  next he =>
    obtain rfl := ok.inj h
    simp [isEmpty_iff.1 he]
  next =>
    simp only [incrementBatch, bind_eq_ok_iff, answer_eq_ok] at h
    obtain ⟨-, -, -, -, -, -, _, ⟨-, rfl⟩, h⟩ := h
    obtain rfl := ok.inj h
    have hc := counter_foldl_upsert inp.accountID inp.usage
      (nodup_usageKeys hk) store.consumption key
    exact ⟨fun hm => hc.trans (if_pos hm), fun hm => hc.trans (if_neg hm)⟩

end

/-! ### Every cap is booked -/

section

variable (inp : PolicySelectionInput) (rules : List (AccountBudgetRule USD)) (d : Decision USD)

/-- The limits bind the request: they are those of the selected policy or of a rule that binds the
caller. Their caps count for the given group. -/
def Binds (limits : PolicyLimits USD) (attrGroup : String) : Prop :=
  (∃ c, d = .pays c ∧ limits = c.policy.limits ∧
    attrGroup = lowestIntersect c.policy.sourceGroups inp.groupIDs) ∨
  ∃ r ∈ applicableRules rules inp,
    limits = r.limits ∧ attrGroup = lowestIntersect r.targetGroups inp.groupIDs

/-- The usage of a request with the window and the group of its selection. -/
def bookingOf (usage : Consumption USD) : RecordUsageInput USD where
  accountID := inp.accountID
  userID := inp.userID
  attributionGroupID := d.result.attributionGroupID
  groupIDs := inp.groupIDs
  windowSeconds := d.result.windowSeconds
  usage := usage

/-- Both times are in one period of every window of the enabled limits that bind the request. -/
def SamePeriods (t₁ t₂ : Int) : Prop :=
  ∀ limits attrGroup, Binds inp rules d limits attrGroup →
    (limits.TokenActive → windowStart t₁ limits.tokenLimit.windowSeconds =
      windowStart t₂ limits.tokenLimit.windowSeconds) ∧
    (limits.BudgetActive → windowStart t₁ limits.budgetLimit.windowSeconds =
      windowStart t₂ limits.budgetLimit.windowSeconds)

/-- The budget limit of the policy has the window of the token limit, or the rules that bind the
caller have its window: any of them for the counter of the user, and one that counts for the same
group for the counter of the group. -/
def BudgetCovered [LinearOrder USD] [Zero USD] (p : Policy USD) : Prop :=
  p.limits.TokenActive → p.limits.BudgetActive →
    p.limits.tokenLimit.windowSeconds ≠ p.limits.budgetLimit.windowSeconds →
    (0 < p.limits.budgetLimit.userCapUsd → inp.userID ≠ "" →
      ∃ r ∈ applicableRules rules inp, p.limits.budgetLimit.windowSeconds ∈ ruleWindows r) ∧
    (0 < p.limits.budgetLimit.groupCapUsd → lowestIntersect p.sourceGroups inp.groupIDs ≠ "" →
      ∃ r ∈ applicableRules rules inp, p.limits.budgetLimit.windowSeconds ∈ ruleWindows r ∧
        lowestIntersect r.targetGroups inp.groupIDs = lowestIntersect p.sourceGroups inp.groupIDs)

variable {inp rules d}

theorem window_of_tokenActive {p : Policy USD} (h : p.limits.TokenActive) :
    effectiveWindowSeconds p = p.limits.tokenLimit.windowSeconds := by
  simp [effectiveWindowSeconds, h.1, h.2]

theorem window_of_budgetActive {p : Policy USD} (h : ¬p.limits.TokenActive)
    (hb : p.limits.BudgetActive) :
    effectiveWindowSeconds p = p.limits.budgetLimit.windowSeconds := by
  have hn : (p.limits.tokenLimit.enabled && p.limits.tokenLimit.windowSeconds > 0) = false := by
    rw [Bool.eq_false_iff]
    exact fun ht => h (by simpa [PolicyLimits.TokenActive] using ht)
  simp [effectiveWindowSeconds, hn, hb.1, hb.2]

theorem LimitKey.congr {user group : String} {w t₁ t₂ : Int} {key : ConsumptionKey}
    (h : LimitKey user group w t₁ key) (ht : windowStart t₁ w = windowStart t₂ w) :
    LimitKey user group w t₂ key :=
  ⟨h.1, ht ▸ h.2⟩

variable [LinearOrder USD] [AddLeftCancelMonoid USD] {t₁ t₂ : Int} {usage : Consumption USD}
  {key : ConsumptionKey}

theorem usageKey_of_rule (hp : SamePeriods inp rules d t₁ t₂)
    {r : AccountBudgetRule USD} (hr : r ∈ applicableRules rules inp)
    (h : Reads inp.userID (lowestIntersect r.targetGroups inp.groupIDs) r.limits t₁ key) :
    UsageKey (bookingOf inp d usage) rules t₂ key := by
  obtain ⟨ht, hb⟩ := hp _ _ (.inr ⟨r, hr, rfl, rfl⟩)
  refine .inr ⟨r, hr, ?_⟩
  rcases h with ⟨ha, hk⟩ | ⟨ha, hk⟩
  · exact ⟨_, mem_ruleWindows.2 (.inl ⟨ha, rfl⟩), (hk.limitKey ha.2).congr (ht ha)⟩
  · exact ⟨_, mem_ruleWindows.2 (.inr ⟨ha, rfl⟩), (hk.limitKey ha.2).congr (hb ha)⟩

variable {p : Policy USD}

/-- What the selected policy reads is booked, when its budget caps are covered. -/
theorem usageKey_of_policy (hp : SamePeriods inp rules (.pays (candidateOf inp p)) t₁ t₂)
    (hc : BudgetCovered inp rules p)
    (h : Reads inp.userID (lowestIntersect p.sourceGroups inp.groupIDs) p.limits t₁ key) :
    UsageKey (bookingOf inp (.pays (candidateOf inp p)) usage) rules t₂ key := by
  have he (h : LimitKey inp.userID (lowestIntersect p.sourceGroups inp.groupIDs)
      (effectiveWindowSeconds p) t₂ key) :
      UsageKey (bookingOf inp (.pays (candidateOf inp p)) usage) rules t₂ key := .inl h
  obtain ⟨ht, hb⟩ := hp p.limits _ (.inl ⟨_, rfl, rfl, rfl⟩)
  rcases h with ⟨ha, hk⟩ | ⟨ha, hk⟩
  · apply he
    rw [window_of_tokenActive ha]
    exact (hk.limitKey ha.2).congr (ht ha)
  · have hl := (hk.limitKey ha.2).congr (hb ha)
    by_cases hbt : p.limits.TokenActive
    · by_cases hs : p.limits.tokenLimit.windowSeconds = p.limits.budgetLimit.windowSeconds
      · apply he
        rwa [window_of_tokenActive hbt, hs]
      · -- the counters of the budget are booked for a rule of the account
        obtain ⟨hu, hg⟩ := hc hbt ha hs
        obtain ⟨ws, hws, hk⟩ := hk
        rw [hb ha] at hws
        rcases mem_capKeys.1 hk with ⟨⟨hcp, hne⟩, rfl⟩ | ⟨⟨hcp, hne⟩, rfl⟩
        · obtain ⟨r, hr, hw⟩ := hu hcp hne
          exact .inr ⟨r, hr, _, hw, ha.2, ws, hws, mem_limitKeys.2 (.inl ⟨hne, rfl⟩)⟩
        · obtain ⟨r, hr, hw, hat⟩ := hg hcp hne
          refine .inr ⟨r, hr, _, hw, ha.2, ws, hws, mem_limitKeys.2 (.inr ⟨hat ▸ hne, ?_⟩)⟩
          rw [← hat]
          rfl
    · apply he
      rwa [window_of_budgetActive hbt ha]

/-- When everything that the selected policy reads is booked, its budget caps are covered. -/
theorem budgetCovered_of_usageKey (hdv : p.limits.Divisible)
    (h : ∀ key, Reads inp.userID (lowestIntersect p.sourceGroups inp.groupIDs) p.limits t₁ key →
      UsageKey (bookingOf inp (.pays (candidateOf inp p)) usage) rules t₂ key) :
    BudgetCovered inp rules p := by
  intro hb ha hd
  obtain ⟨ws, hws⟩ := (exists_windowStart_iff ha.2 (t := t₁)).2 (hdv.budget ha)
  have hrl : ∀ key : ConsumptionKey, key.windowSeconds = p.limits.budgetLimit.windowSeconds →
      Reads inp.userID (lowestIntersect p.sourceGroups inp.groupIDs) p.limits t₁ key →
      ∃ r ∈ applicableRules rules inp, p.limits.budgetLimit.windowSeconds ∈ ruleWindows r ∧
        LimitKey inp.userID (lowestIntersect r.targetGroups inp.groupIDs)
          p.limits.budgetLimit.windowSeconds t₂ key := by
    intro key hwn hrd
    rcases h key hrd with ⟨-, _, -, hk⟩ | ⟨r, hr, w, hw, hk⟩
    · obtain ⟨-, rfl⟩ | ⟨-, rfl⟩ := mem_limitKeys.1 hk
      all_goals exact absurd ((window_of_tokenActive hb).symm.trans hwn) hd
    · obtain rfl : w = p.limits.budgetLimit.windowSeconds := by
        obtain ⟨-, _, -, hk⟩ := hk
        obtain ⟨-, rfl⟩ | ⟨-, rfl⟩ := mem_limitKeys.1 hk <;> exact hwn
      exact ⟨r, hr, hw, hk⟩
  constructor
  · intro hc hu
    obtain ⟨r, hr, hw, -⟩ := hrl _ rfl
      (.inr ⟨ha, ws, hws, mem_capKeys.2 (.inl ⟨⟨hc, hu⟩, rfl⟩)⟩)
    exact ⟨r, hr, hw⟩
  · intro hc hg
    obtain ⟨r, hr, hw, -, _, -, hk⟩ := hrl _ rfl
      (.inr ⟨ha, ws, hws, mem_capKeys.2 (.inr ⟨⟨hc, hg⟩, rfl⟩)⟩)
    obtain ⟨-, heq⟩ | ⟨-, heq⟩ := mem_limitKeys.1 hk
    · exact absurd (congrArg ConsumptionKey.kind heq) (by simp)
    · exact ⟨r, hr, hw, (congrArg ConsumptionKey.dimID heq).symm⟩

omit [LinearOrder USD] in
theorem eq_zero_of_eq_add {row : Consumption USD} (h : row = row + usage) : usage = 0 := by
  have hin := congrArg tokensInput h
  have ho := congrArg tokensOutput h
  have hc : row.costUSD = row.costUSD + usage.costUSD := congrArg costUSD h
  obtain ⟨tokensInput, tokensOutput, costUSD⟩ := usage
  rw [show tokensInput = 0 from left_eq_add.1 hin, show tokensOutput = 0 from left_eq_add.1 ho,
    show costUSD = 0 from left_eq_add.1 hc]
  rfl

omit [LinearOrder USD] in
theorem add_zero_usage (row : Consumption USD) : row + 0 = row := by
  obtain ⟨tokensInput, tokensOutput, costUSD⟩ := row
  show mk (tokensInput + 0) (tokensOutput + 0) (costUSD + 0) = _
  rw [add_zero, add_zero, add_zero]

/-- Every counter that a cap reads for the caller grows by the usage of the request, exactly when
there is no usage or the budget caps of the selected policy are covered. Between the selection and
the booking other requests may have been booked. -/
theorem booked_iff {text : Text} {fmtUSD : USD → String} {store before after : Store USD}
    (hd : selectDecision text fmtUSD store inp t₁ = .ok d)
    (hrules : before.budgetRules inp.accountID = store.budgetRules inp.accountID)
    (hrecorded : recordUsage before (bookingOf inp d usage) t₂ = .ok after)
    (hperiods : SamePeriods inp (store.budgetRules inp.accountID) d t₁ t₂) :
    (∀ limits attrGroup key, Binds inp (store.budgetRules inp.accountID) d limits attrGroup →
      Reads inp.userID attrGroup limits t₁ key → counter after.consumption inp.accountID key =
          counter before.consumption inp.accountID key + usage) ↔
      usage = 0 ∨ ∀ c, d = .pays c →
        BudgetCovered inp (store.budgetRules inp.accountID) c.policy := by
  have hct := counter_recordUsage hrecorded
  simp only [bookingOf, hrules] at hct
  have hp := (selectDecision_exact hd).pays
  constructor
  · intro hgr
    refine or_iff_not_imp_left.2 fun hu c hc => ?_
    obtain ⟨-, -, hcn⟩ := hp c hc
    have hb : ∀ key, Reads inp.userID (lowestIntersect c.policy.sourceGroups inp.groupIDs)
        c.policy.limits t₁ key → UsageKey (bookingOf inp (.pays (candidateOf inp c.policy)) usage)
          (store.budgetRules inp.accountID) t₂ key := by
      intro key hrd
      by_contra hn
      have hg := hgr _ _ key (.inl ⟨c, hc, rfl, rfl⟩) hrd
      rw [← hcn, ← hc] at hn
      rw [(hct key).2 hn] at hg
      exact hu (eq_zero_of_eq_add hg)
    have hdv : c.policy.limits.Divisible :=
      have he := (hp c hc).2.1.1
      (windowsDivisible_of_pays (hc ▸ hd)).policies _ he.mem he.applies he.permits
    exact budgetCovered_of_usageKey hdv hb
  · rintro (rfl | hcv) limits attrGroup key hbn hrd
    · rw [add_zero_usage]
      by_cases hk : UsageKey (bookingOf inp d 0) (store.budgetRules inp.accountID) t₂ key
      · exact ((hct key).1 hk).trans (add_zero_usage _)
      · exact (hct key).2 hk
    · refine (hct key).1 ?_
      rcases hbn with ⟨c, hc, rfl, rfl⟩ | ⟨r, hr, rfl, rfl⟩
      · obtain ⟨-, -, hcn⟩ := hp c hc
        rw [hc, hcn] at hperiods ⊢
        exact usageKey_of_policy hperiods (hcv c hc) hrd
      · exact usageKey_of_rule hperiods hr hrd

end

/-! ### A policy with two limits -/

section

/-- A policy with tokens for a minute, and dollars in a window of the given length. -/
def twoLimits (window : Int) : Policy Nat where
  id := "ainpol_1"
  enabled := true
  sourceGroups := ["g1"]
  destinationProviderIDs := ["ainp_1"]
  guardrailIDs := []
  limits := ⟨{ enabled := true, groupCap := 1000, windowSeconds := 60 }, ⟨true, 10, 0, window⟩⟩
  createdAt := 0

def twoLimitsStore (window : Int) : Store Nat where
  account _ := {
    policies := [twoLimits window]
    guardrails := []
    providers := []
    nodup := nodup_nil }
  budgetRules _ := []
  consumption := ∅

/-- The selection of the policy for the request of `tierRequest`. -/
def twoLimitsDecision (window : Int) : Decision Nat :=
  .pays (candidateOf tierRequest (twoLimits window))

/-- A request of 150 tokens for 20 dollars. -/
def usageSample : Consumption Nat := ⟨100, 50, 20⟩

/-- The counters of the group for the budget, after the request was booked. -/
def budgetAfter (window : Int) : Except Error (Consumption Nat) :=
  (recordUsage (twoLimitsStore window) (bookingOf tierRequest (twoLimitsDecision window)
    usageSample) 0).map fun after => counter after.consumption "acc" ⟨.group, "g1", window, 0⟩

theorem exists_after {window : Int} {row : Consumption Nat} (h : budgetAfter window = .ok row) :
    ∃ after, recordUsage (twoLimitsStore window) (bookingOf tierRequest (twoLimitsDecision window)
      usageSample) 0 = .ok after ∧
        counter after.consumption "acc" ⟨.group, "g1", window, 0⟩ = row := by
  unfold budgetAfter at h
  cases hr : recordUsage (twoLimitsStore window) (bookingOf tierRequest
      (twoLimitsDecision window) usageSample) 0 with
  | error e => rw [hr] at h; cases h
  | ok after => rw [hr] at h; exact ⟨after, rfl, ok.inj h⟩

/-- The dollars of the group over a day are capped at 10. A request for 20 is booked in the window
of a minute only, and the counter that the cap reads stays at zero. -/
theorem budget_not_booked :
    selectDecision sampleText Nat.repr (twoLimitsStore 86400) tierRequest 0 =
      .ok (twoLimitsDecision 86400) ∧
    Reads "u1" "g1" (twoLimits 86400).limits 0 ⟨.group, "g1", 86400, 0⟩ ∧
    ∃ after, recordUsage (twoLimitsStore 86400) (bookingOf tierRequest (twoLimitsDecision 86400)
      usageSample) 0 = .ok after ∧
        counter after.consumption "acc" ⟨.group, "g1", 86400, 0⟩ = ⟨0, 0, 0⟩ := by
  refine ⟨by decide +kernel, .inr ⟨⟨rfl, by decide⟩, 0, by decide +kernel, by decide⟩,
    exists_after ?_⟩
  decide +kernel

theorem booked_oneWindow :
    ∃ after, recordUsage (twoLimitsStore 60) (bookingOf tierRequest (twoLimitsDecision 60)
      usageSample) 0 = .ok after ∧
        counter after.consumption "acc" ⟨.group, "g1", 60, 0⟩ = ⟨100, 50, 20⟩ := by
  have hs : selectDecision sampleText Nat.repr (twoLimitsStore 60) tierRequest 0 =
      .ok (twoLimitsDecision 60) := by decide +kernel
  have hr : budgetAfter 60 = .ok usageSample := by decide +kernel
  obtain ⟨after, ha, -⟩ := exists_after hr
  have hcv : ∀ c, twoLimitsDecision 60 = .pays c → BudgetCovered tierRequest [] c.policy := by
    rintro c hc - - hd
    cases hc
    exact absurd rfl hd
  have hg := (booked_iff hs rfl ha fun _ _ _ => ⟨fun _ => rfl, fun _ => rfl⟩).2 (.inr hcv)
  have hb : Binds tierRequest [] (twoLimitsDecision 60) (twoLimits 60).limits "g1" :=
    .inl ⟨_, rfl, rfl, by decide +kernel⟩
  have hrd : Reads "u1" "g1" (twoLimits 60).limits 0 ⟨.group, "g1", 60, 0⟩ :=
    .inr ⟨⟨rfl, by decide⟩, 0, by decide +kernel, by decide⟩
  have hz : counter (twoLimitsStore 60).consumption "acc" ⟨.group, "g1", 60, 0⟩ +
      usageSample = ⟨100, 50, 20⟩ := by decide +kernel
  exact ⟨after, ha, (hg _ _ _ hb hrd).trans hz⟩

end

end Cloink.AgentNetwork
