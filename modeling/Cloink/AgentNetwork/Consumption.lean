import Cloink.AgentNetwork.Models
import Cloink.Lib.Except
import Cloink.Lib.Fold
import Mathlib.Algebra.Order.Ring.Int

/-!
# Consumption counters and caps

What users and groups have consumed is counted in windows of fixed length, aligned to the epoch. A
limit caps the tokens or the amount of the user and of the group that the request is attributed to,
each in the limit's own window. A selection reads its counters in one query, `getBatch`. Amounts are
of any ordered type `USD`; the sum of a row's tokens is that of 64-bit integers. `WindowStart`
divides by the length of the window in nanoseconds, which wraps around in 64 bits and may be zero:
every function that calls it may fail.
-/

namespace Cloink.AgentNetwork

open AList List Option Except

/-- The accesses to the store. -/
inductive Query where
  | budgetRules
  | policies
  | guardrails
  | provider
  | consumption
  | increment
  deriving DecidableEq

/-- Errors that are returned, and the panic of `WindowStart`. -/
inductive Error where
  | accountIDRequired
  | usageDeltas
  | consumptionKey
  | store (query : Query)
  | divideByZero
  deriving DecidableEq

/-! ### Counters -/

inductive ConsumptionDimension where
  | user
  | group
  deriving DecidableEq

structure ConsumptionKey where
  kind : ConsumptionDimension
  dimID : String
  windowSeconds : Int
  windowStartUTC : Int
  deriving DecidableEq

structure Consumption (USD : Type) where
  tokensInput : Int
  tokensOutput : Int
  costUSD : USD
  deriving DecidableEq

abbrev ConsumptionTable (USD : Type) := AList fun _ : String × ConsumptionKey => Consumption USD

def wrap64 (n : Int) : Int := n.bmod (2 ^ 64)

/-- The length of the windows in nanoseconds, in 64 bits. -/
def windowStep (windowSeconds : Int) : Int := wrap64 (windowSeconds * 10 ^ 9)

/-- The start of the window that contains the time, in nanoseconds since the epoch; none when the
division fails. `UnixNano` has 64 bits. -/
def windowStart (t windowSeconds : Int) : Option Int :=
  if windowSeconds ≤ 0 then some t
  else
    let step := windowStep windowSeconds
    if step = 0 then none else some ((wrap64 t).tdiv step * step)

/-- The start of a window exists unless its length wraps to zero. -/
theorem exists_windowStart_iff {t w : Int} (hw : 0 < w) :
    (∃ ws, windowStart t w = some ws) ↔ windowStep w ≠ 0 := by
  simp [windowStart, not_le.2 hw]

section

variable {USD : Type}

instance [Zero USD] : Zero (Consumption USD) := ⟨⟨0, 0, 0⟩⟩

/-- The counters of a key, zero when there is no row. -/
def counter [Zero USD] (table : ConsumptionTable USD) (accountID : String) (key : ConsumptionKey) :
    Consumption USD :=
  (table.lookup (accountID, key)).getD 0

/-- The rows of an account whose id, length and start are among those of the keys. -/
def queryRows (table : ConsumptionTable USD) (accountID : String) (keys : List ConsumptionKey) :
    List (Sigma fun _ : String × ConsumptionKey => Consumption USD) :=
  table.entries.filter fun e =>
    e.1.1 = accountID && (keys.map (·.dimID)).contains e.1.2.dimID &&
      (keys.map (·.windowSeconds)).contains e.1.2.windowSeconds &&
      (keys.map (·.windowStartUTC)).contains e.1.2.windowStartUTC

/-- `GetAgentNetworkConsumptionBatch`: of the rows of the query those of the keys. -/
def getBatch (table : ConsumptionTable USD) (accountID : String) (keys : List ConsumptionKey) :
    AList fun _ : ConsumptionKey => Consumption USD :=
  ((queryRows table accountID keys).filter fun e => keys.contains e.1.2).foldl
    (fun out e => out.insert e.1.2 e.2) ∅

variable {table : ConsumptionTable USD} {accountID : String} {keys : List ConsumptionKey}

theorem mem_wantedRows {e : Sigma fun _ : String × ConsumptionKey => Consumption USD} :
    (e ∈ (queryRows table accountID keys).filter fun e => keys.contains e.1.2) ↔
      e ∈ table.entries ∧ e.1.1 = accountID ∧ e.1.2 ∈ keys := by
  simp only [queryRows, mem_filter, Bool.and_eq_true, decide_eq_true_eq, contains_iff_mem]
  constructor
  · rintro ⟨⟨he, ⟨⟨ha, -⟩, -⟩, -⟩, hk⟩
    exact ⟨he, ha, hk⟩
  · rintro ⟨he, ha, hk⟩
    exact ⟨⟨he, ⟨⟨ha, mem_map_of_mem hk⟩, mem_map_of_mem hk⟩, mem_map_of_mem hk⟩, hk⟩

theorem nodup_wantedRows :
    (((queryRows table accountID keys).filter fun e => keys.contains e.1.2).map
      fun e => e.1.2).Nodup := by
  have hk : (table.entries.map Sigma.fst).Nodup := table.nodupKeys
  refine List.Nodup.map_on ?_ (((List.Nodup.of_map _ hk).filter _).filter _)
  intro e he e' he' heq
  obtain ⟨hm, ha, -⟩ := mem_wantedRows.1 he
  obtain ⟨hm', ha', -⟩ := mem_wantedRows.1 he'
  exact inj_on_of_nodup_map hk hm hm' (Prod.ext (ha.trans ha'.symm) heq)

/-- The batch has the rows of the wanted keys. -/
theorem lookup_getBatch {key : ConsumptionKey} (hk : key ∈ keys) :
    (getBatch table accountID keys).lookup key = table.lookup (accountID, key) := by
  cases hr : table.lookup (accountID, key) with
  | some row =>
    have hen := mem_wantedRows.2 ⟨mem_lookup_iff.1 hr, rfl, hk⟩
    exact lookup_foldl_insert_key _ _ nodup_wantedRows ∅ hen
  | none =>
    have hn : key ∉ ((queryRows table accountID keys).filter
        fun e => keys.contains e.1.2).map fun e => e.1.2 := by
      rw [List.mem_map]
      rintro ⟨⟨⟨acc, k⟩, row⟩, he, rfl⟩
      obtain ⟨hen, rfl, -⟩ := mem_wantedRows.1 he
      rw [mem_lookup_iff.2 hen] at hr
      cases hr
    exact lookup_foldl_insert_key_of_not_mem _ _ hn ∅

end

/-! ### Keys of a limit -/

/-- The keys of a user and a group in the window with the given length and start. -/
def limitKeys (userID attrGroup : String) (windowSeconds ws : Int) : List ConsumptionKey :=
  (if userID ≠ "" then [⟨.user, userID, windowSeconds, ws⟩] else []) ++
    if attrGroup ≠ "" then [⟨.group, attrGroup, windowSeconds, ws⟩] else []

/-- Adds the keys of the current window to a set. -/
def addLimitKeys (set : List ConsumptionKey) (userID attrGroup : String)
    (windowSeconds now : Int) : Except Error (List ConsumptionKey) :=
  if windowSeconds ≤ 0 then .ok set
  else do
    let ws ← expect .divideByZero (windowStart now windowSeconds)
    return set.insertAll (limitKeys userID attrGroup windowSeconds ws)

/-- The key is one of the user or the group in the current window. -/
def LimitKey (userID attrGroup : String) (windowSeconds now : Int) (key : ConsumptionKey) : Prop :=
  0 < windowSeconds ∧ ∃ ws, windowStart now windowSeconds = some ws ∧
    key ∈ limitKeys userID attrGroup windowSeconds ws

section

variable {set set' : List ConsumptionKey} {userID attrGroup : String} {windowSeconds now ws : Int}
  {key : ConsumptionKey}

theorem mem_limitKeys : key ∈ limitKeys userID attrGroup windowSeconds ws ↔
    userID ≠ "" ∧ key = ⟨.user, userID, windowSeconds, ws⟩ ∨
      attrGroup ≠ "" ∧ key = ⟨.group, attrGroup, windowSeconds, ws⟩ := by
  rw [limitKeys, mem_append, mem_ite_nil_right, mem_ite_nil_right, mem_singleton, mem_singleton]

theorem addLimitKeys_eq_ok :
    addLimitKeys set userID attrGroup windowSeconds now = .ok set' ↔
      windowSeconds ≤ 0 ∧ set = set' ∨ 0 < windowSeconds ∧ ∃ ws,
        windowStart now windowSeconds = some ws ∧
          set.insertAll (limitKeys userID attrGroup windowSeconds ws) = set' := by
  unfold addLimitKeys
  split
  next h => simp [h]
  next h =>
    simp only [h, not_le.1 h, false_and, false_or, true_and, bind_eq_ok_iff, expect_eq_ok_iff]
    exact exists_congr fun ws => and_congr_right fun _ => ⟨fun h => ok.inj h, fun h => h ▸ rfl⟩

/-- The keys of a limit are added to the set. -/
theorem mem_addLimitKeys (h : addLimitKeys set userID attrGroup windowSeconds now = .ok set') :
    key ∈ set' ↔ key ∈ set ∨ LimitKey userID attrGroup windowSeconds now key := by
  rcases addLimitKeys_eq_ok.1 h with ⟨hw, rfl⟩ | ⟨hw, ws, hws, rfl⟩
  · simp [LimitKey, not_lt.2 hw]
  · simp [LimitKey, hw, hws]

/-- Collecting keys fails only on a window that cannot be divided by. -/
theorem addLimitKeys_isOk_iff :
    (∃ set', addLimitKeys set userID attrGroup windowSeconds now = .ok set') ↔
      (0 < windowSeconds → windowStep windowSeconds ≠ 0) := by
  by_cases hw : 0 < windowSeconds
  · rw [← exists_windowStart_iff hw (t := now)]
    simp [addLimitKeys_eq_ok, hw, not_le.2 hw]
  · simp [addLimitKeys_eq_ok, hw, not_lt.1 hw]

end

/-! ### Caps -/

section

variable {USD : Type} [LinearOrder USD] [Zero USD]

/-- The tokens of a row, as the 64-bit sum. -/
def Consumption.used (row : Consumption USD) : Int := wrap64 (row.tokensInput + row.tokensOutput)

/-- The reason when a cap is set, concerns someone, and is reached. -/
def evalCap {α : Type} [LinearOrder α] [Zero α] (cap used : α) (dimID reason : String) :
    Option String :=
  if cap > 0 && dimID ≠ "" && used ≥ cap then some reason else none

/-- A cap is silent while the amount used is below it. -/
theorem evalCap_eq_none_iff {α : Type} [LinearOrder α] [Zero α] {cap used : α}
    {dimID reason : String} :
    evalCap cap used dimID reason = none ↔ (0 < cap → dimID ≠ "" → used < cap) := by
  simp [evalCap]

theorem evalCap_congr {α : Type} [LinearOrder α] [Zero α] {cap used used' : α} {dimID : String}
    (reason : α → String) (h : 0 < cap → dimID ≠ "" → used = used') :
    evalCap cap used dimID (reason used) = evalCap cap used' dimID (reason used') := by
  by_cases hr : 0 < cap ∧ dimID ≠ ""
  · rw [h hr.1 hr.2]
  · have hs : ∀ b : Bool, (cap > 0 && dimID ≠ "" && b) = false := by
      intro b
      rw [Bool.and_eq_false_iff]
      exact .inl (by simpa using hr)
    simp only [evalCap, hs, Bool.false_eq_true, if_false]

section

variable (fmtUSD : USD → String) (get : ConsumptionKey → Consumption USD)

/-- The cap of the user and then that of the group, against the counters that `get` reads in the
window. -/
def evalCaps {α : Type} [LinearOrder α] [Zero α] (amount : Consumption USD → α)
    (reason : String → α → α → String) (userCap groupCap : α) (windowSeconds : Int)
    (userID attrGroup : String) (now : Int) : Except Error (Option String) := do
  let ws ← expect .divideByZero (windowStart now windowSeconds)
  let user := amount (get ⟨.user, userID, windowSeconds, ws⟩)
  let group := amount (get ⟨.group, attrGroup, windowSeconds, ws⟩)
  return (evalCap userCap user userID (reason "user" user userCap)).or
    (evalCap groupCap group attrGroup (reason "group" group groupCap))

def tokenReason (label dimension : String) (used cap : Int) : String :=
  s!"{dimension} token cap exhausted on {label} (used {used} of {cap})"

/-- Amounts are written with four digits by `fmtUSD`. -/
def budgetReason (label dimension : String) (used cap : USD) : String :=
  dimension ++ " budget cap exhausted on " ++ label ++ " (used $" ++ fmtUSD used ++ " of $" ++
    fmtUSD cap ++ ")"

/-- The reason why the token limit is exhausted, if it is. -/
def evalTokenCap (userID attrGroup : String) (tl : PolicyTokenLimit) (now : Int) (label : String) :
    Except Error (Option String) :=
  evalCaps get Consumption.used (tokenReason label) tl.userCap tl.groupCap tl.windowSeconds
    userID attrGroup now

/-- The reason why the budget limit is exhausted, if it is. -/
def evalBudgetCap (userID attrGroup : String) (bl : PolicyBudgetLimit USD) (now : Int)
    (label : String) : Except Error (Option String) :=
  evalCaps get Consumption.costUSD (budgetReason fmtUSD label) bl.userCapUsd bl.groupCapUsd
    bl.windowSeconds userID attrGroup now

inductive CapKind where
  | token
  | budget
  deriving DecidableEq

/-- A limit is evaluated when it is enabled and has a window. -/
def whenActive (enabled : Bool) (windowSeconds : Int) (eval : Except Error (Option String)) :
    Except Error (Option String) :=
  if enabled && windowSeconds > 0 then eval else .ok none

/-- The limit that is exhausted and the reason, the token limit first. Policies and the rules of
the account are evaluated alike. -/
def evalLimits (userID attrGroup : String) (limits : PolicyLimits USD) (now : Int)
    (label : String) : Except Error (Option (CapKind × String)) := do
  let tl := limits.tokenLimit
  let bl := limits.budgetLimit
  let token ← whenActive tl.enabled tl.windowSeconds
    (evalTokenCap get userID attrGroup tl now label)
  match token with
  | some reason => return some (.token, reason)
  | none =>
    let budget ← whenActive bl.enabled bl.windowSeconds
      (evalBudgetCap fmtUSD get userID attrGroup bl now label)
    return budget.map (CapKind.budget, ·)

/-- The caps of the user and the group are above what was consumed in the window. -/
def Below {α : Type} [LinearOrder α] [Zero α] (amount : Consumption USD → α)
    (userCap groupCap : α) (windowSeconds : Int) (userID attrGroup : String) (now : Int) : Prop :=
  ∀ ws, windowStart now windowSeconds = some ws →
    (0 < userCap → userID ≠ "" → amount (get ⟨.user, userID, windowSeconds, ws⟩) < userCap) ∧
    (0 < groupCap → attrGroup ≠ "" → amount (get ⟨.group, attrGroup, windowSeconds, ws⟩) < groupCap)

/-- Every enabled cap of the limits is above what was consumed in its own window. -/
structure HasHeadroom (userID attrGroup : String) (limits : PolicyLimits USD) (now : Int) :
    Prop where
  tokens : limits.tokenLimit.enabled = true → 0 < limits.tokenLimit.windowSeconds →
    Below get Consumption.used limits.tokenLimit.userCap limits.tokenLimit.groupCap
      limits.tokenLimit.windowSeconds userID attrGroup now
  budget : limits.budgetLimit.enabled = true → 0 < limits.budgetLimit.windowSeconds →
    Below get Consumption.costUSD limits.budgetLimit.userCapUsd limits.budgetLimit.groupCapUsd
      limits.budgetLimit.windowSeconds userID attrGroup now

end

variable {fmtUSD : USD → String} {get get' : ConsumptionKey → Consumption USD}
  {userID attrGroup label : String} {limits : PolicyLimits USD} {now : Int}

section

variable {α : Type} [LinearOrder α] [Zero α] {amount : Consumption USD → α}
  {reason : String → α → α → String} {userCap groupCap : α} {windowSeconds : Int}

omit [LinearOrder USD] [Zero USD] in
/-- Both caps are silent while both amounts are below them. -/
theorem evalCaps_eq_none_iff {r : Option String}
    (h : evalCaps get amount reason userCap groupCap windowSeconds userID attrGroup now = .ok r) :
    r = none ↔ Below get amount userCap groupCap windowSeconds userID attrGroup now := by
  obtain ⟨ws, hws, hr⟩ := bind_eq_ok_iff.1 h
  rw [expect_eq_ok_iff] at hws
  obtain rfl := ok.inj hr
  simp [evalCap_eq_none_iff, Below, hws]

omit [LinearOrder USD] [Zero USD] in
theorem evalCaps_isOk (h : windowStep windowSeconds ≠ 0) (hw : 0 < windowSeconds) :
    ∃ r, evalCaps get amount reason userCap groupCap windowSeconds userID attrGroup now = .ok r := by
  obtain ⟨ws, hws⟩ := (exists_windowStart_iff hw (t := now)).2 h
  exact ⟨_, bind_eq_ok_iff.2 ⟨ws, expect_eq_ok_iff.2 hws, rfl⟩⟩

/-- The keys of the counters that the caps of a limit read in a window. -/
def capKeys (userCap groupCap : α) (windowSeconds : Int) (userID attrGroup : String) (ws : Int) :
    List ConsumptionKey :=
  (if 0 < userCap ∧ userID ≠ "" then [⟨.user, userID, windowSeconds, ws⟩] else []) ++
  if 0 < groupCap ∧ attrGroup ≠ "" then [⟨.group, attrGroup, windowSeconds, ws⟩] else []

/-- The key is one that the caps of a limit read in the current window. -/
def CapKey (userCap groupCap : α) (windowSeconds : Int) (userID attrGroup : String) (now : Int)
    (key : ConsumptionKey) : Prop :=
  ∃ ws, windowStart now windowSeconds = some ws ∧
    key ∈ capKeys userCap groupCap windowSeconds userID attrGroup ws

theorem mem_capKeys {key : ConsumptionKey} {ws : Int} :
    key ∈ capKeys userCap groupCap windowSeconds userID attrGroup ws ↔
      (0 < userCap ∧ userID ≠ "") ∧ key = ⟨.user, userID, windowSeconds, ws⟩ ∨
      (0 < groupCap ∧ attrGroup ≠ "") ∧ key = ⟨.group, attrGroup, windowSeconds, ws⟩ := by
  rw [capKeys, mem_append, mem_ite_nil_right, mem_ite_nil_right, mem_singleton, mem_singleton]

theorem CapKey.limitKey {key : ConsumptionKey} (hw : 0 < windowSeconds)
    (h : CapKey userCap groupCap windowSeconds userID attrGroup now key) :
    LimitKey userID attrGroup windowSeconds now key := by
  obtain ⟨ws, hws, hk⟩ := h
  exact ⟨hw, ws, hws, mem_limitKeys.2
    ((mem_capKeys.1 hk).imp (fun h => ⟨h.1.2, h.2⟩) fun h => ⟨h.1.2, h.2⟩)⟩

variable (amount reason) in
omit [LinearOrder USD] [Zero USD] in
/-- The caps read the counters of their own keys only. -/
theorem evalCaps_congr (h : ∀ key,
      CapKey userCap groupCap windowSeconds userID attrGroup now key → get key = get' key) :
    evalCaps get amount reason userCap groupCap windowSeconds userID attrGroup now =
      evalCaps get' amount reason userCap groupCap windowSeconds userID attrGroup now := by
  unfold evalCaps
  cases hws : windowStart now windowSeconds with
  | none => rfl
  | some ws =>
    have hu := fun hc hne => congrArg amount (h _ ⟨ws, hws, mem_capKeys.2 (.inl ⟨⟨hc, hne⟩, rfl⟩)⟩)
    have hg := fun hc hne => congrArg amount (h _ ⟨ws, hws, mem_capKeys.2 (.inr ⟨⟨hc, hne⟩, rfl⟩)⟩)
    exact congrArg ok (congrArg₂ Option.or (evalCap_congr (reason "user" · userCap) hu)
      (evalCap_congr (reason "group" · groupCap) hg))

end

def PolicyLimits.TokenActive (limits : PolicyLimits USD) : Prop :=
  limits.tokenLimit.enabled = true ∧ 0 < limits.tokenLimit.windowSeconds

def PolicyLimits.BudgetActive (limits : PolicyLimits USD) : Prop :=
  limits.budgetLimit.enabled = true ∧ 0 < limits.budgetLimit.windowSeconds

/-- No window of an enabled limit wraps around to zero nanoseconds. -/
structure PolicyLimits.Divisible (limits : PolicyLimits USD) : Prop where
  token : limits.TokenActive → windowStep limits.tokenLimit.windowSeconds ≠ 0
  budget : limits.BudgetActive → windowStep limits.budgetLimit.windowSeconds ≠ 0

theorem whenActive_eq_none_iff {enabled : Bool} {w : Int} {eval : Except Error (Option String)}
    {r : Option String} {p : Prop} (hp : ∀ r, eval = .ok r → (r = none ↔ p))
    (h : whenActive enabled w eval = .ok r) : r = none ↔ (enabled = true → 0 < w → p) := by
  unfold whenActive at h
  by_cases ha : enabled = true ∧ 0 < w
  · rw [if_pos (by simpa using ha)] at h
    simp [hp r h, ha]
  · rw [if_neg (by simpa using ha)] at h
    cases h
    exact ⟨fun _ he hw => absurd ⟨he, hw⟩ ha, fun _ => rfl⟩

theorem whenActive_isOk {enabled : Bool} {w : Int} (eval : Except Error (Option String))
    (h : enabled = true ∧ 0 < w → ∃ r, eval = .ok r) : ∃ r, whenActive enabled w eval = .ok r := by
  unfold whenActive
  split
  next ha => exact h (by simpa using ha)
  next => exact ⟨none, rfl⟩

theorem whenActive_congr {enabled : Bool} {w : Int} {eval eval' : Except Error (Option String)}
    (h : enabled = true ∧ 0 < w → eval = eval') :
    whenActive enabled w eval = whenActive enabled w eval' :=
  ite_congr rfl (fun ha => h (by simpa using ha)) fun _ => rfl

/-- The limits are silent exactly when there is headroom. -/
theorem evalLimits_eq_none_iff {r : Option (CapKind × String)}
    (h : evalLimits fmtUSD get userID attrGroup limits now label = .ok r) :
    r = none ↔ HasHeadroom get userID attrGroup limits now := by
  obtain ⟨token, ht, h⟩ := bind_eq_ok_iff.1 h
  have ht := whenActive_eq_none_iff (fun _ => evalCaps_eq_none_iff) ht
  cases token with
  | some reason =>
    obtain rfl := ok.inj h
    exact ⟨nofun, fun hh => nomatch ht.2 hh.tokens⟩
  | none =>
    obtain ⟨budget, hb, h⟩ := bind_eq_ok_iff.1 h
    obtain rfl := ok.inj h
    have hb := whenActive_eq_none_iff (fun _ => evalCaps_eq_none_iff) hb
    rw [map_eq_none_iff, hb]
    exact ⟨fun h => ⟨ht.1 rfl, h⟩, fun h => h.budget⟩

/-- They can be evaluated when their windows can be divided by. -/
theorem evalLimits_isOk (h : limits.Divisible) :
    ∃ r, evalLimits fmtUSD get userID attrGroup limits now label = .ok r := by
  obtain ⟨token, ht⟩ := whenActive_isOk (evalTokenCap get userID attrGroup
    limits.tokenLimit now label) fun ha => evalCaps_isOk (h.token ha) ha.2
  obtain ⟨budget, hb⟩ := whenActive_isOk (evalBudgetCap fmtUSD get userID attrGroup
    limits.budgetLimit now label) fun ha => evalCaps_isOk (h.budget ha) ha.2
  cases token with
  | some reason => exact ⟨_, bind_eq_ok_iff.2 ⟨_, ht, rfl⟩⟩
  | none => exact ⟨_, bind_eq_ok_iff.2 ⟨_, ht, bind_eq_ok_iff.2 ⟨_, hb, rfl⟩⟩⟩

/-- The key is one that the enabled limits have in their windows. -/
def EnabledKey (userID attrGroup : String) (limits : PolicyLimits USD) (now : Int)
    (key : ConsumptionKey) : Prop :=
  limits.tokenLimit.enabled = true ∧
    LimitKey userID attrGroup limits.tokenLimit.windowSeconds now key ∨
  limits.budgetLimit.enabled = true ∧
    LimitKey userID attrGroup limits.budgetLimit.windowSeconds now key

/-- The key of a counter that evaluation reads for the caller, in the window of the limit. -/
def Reads (userID attrGroup : String) (limits : PolicyLimits USD) (now : Int)
    (key : ConsumptionKey) : Prop :=
  limits.TokenActive ∧ CapKey limits.tokenLimit.userCap limits.tokenLimit.groupCap
      limits.tokenLimit.windowSeconds userID attrGroup now key ∨
  limits.BudgetActive ∧ CapKey limits.budgetLimit.userCapUsd limits.budgetLimit.groupCapUsd
      limits.budgetLimit.windowSeconds userID attrGroup now key

theorem Reads.enabledKey {key : ConsumptionKey} (h : Reads userID attrGroup limits now key) :
    EnabledKey userID attrGroup limits now key :=
  h.imp (fun ⟨ha, hk⟩ => ⟨ha.1, hk.limitKey ha.2⟩) fun ⟨ha, hk⟩ => ⟨ha.1, hk.limitKey ha.2⟩

/-- They read the counters of their own keys only. -/
theorem evalLimits_congr (h : ∀ key, Reads userID attrGroup limits now key → get key = get' key) :
    evalLimits fmtUSD get userID attrGroup limits now label =
      evalLimits fmtUSD get' userID attrGroup limits now label := by
  have ht := whenActive_congr fun ha : limits.TokenActive =>
    evalCaps_congr Consumption.used (tokenReason label)
      fun key hk => h key (.inl ⟨ha, hk⟩)
  have hb := whenActive_congr fun ha : limits.BudgetActive =>
    evalCaps_congr Consumption.costUSD (budgetReason fmtUSD label)
      fun key hk => h key (.inr ⟨ha, hk⟩)
  simp only [evalLimits, evalTokenCap, evalBudgetCap, ht, hb]

end

end Cloink.AgentNetwork
