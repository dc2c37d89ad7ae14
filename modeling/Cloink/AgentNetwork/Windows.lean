import Cloink.AgentNetwork.Consumption

/-!
# Window lengths and overflow

The handler of policies accepts every window length from a minute on, and `WindowStart` multiplies
it by the nanoseconds of a second in 64 bits. From about 292 years on the product wraps around; it
can be zero, and then the division by it fails.
-/

namespace Cloink.AgentNetwork

open Option

def minWindowSeconds : Int := 60

/-- The checks of an enabled limit; the caps of the budget are in dollars. -/
def validateLimit {α : Type} [Zero α] [LinearOrder α] (limit unit : String)
    (windowSeconds : Int) (groupCap userCap : α) : Option String :=
  let group := "group_cap" ++ unit
  let user := "user_cap" ++ unit
  if windowSeconds < minWindowSeconds then
    some (limit ++ ".window_seconds must be at least 60 (one minute) when enabled")
  else if groupCap < 0 then some (limit ++ "." ++ group ++ " must not be negative")
  else if userCap < 0 then some (limit ++ "." ++ user ++ " must not be negative")
  else if groupCap = 0 ∧ userCap = 0 then
    some (limit ++ " requires " ++ group ++ " or " ++ user ++
      " to be greater than zero when enabled")
  else none

theorem le_of_validateLimit {α : Type} [Zero α] [LinearOrder α] {limit unit : String} {w : Int}
    {g u : α} (h : validateLimit limit unit w g u = none) : 60 ≤ w := by
  unfold validateLimit at h
  split at h
  · cases h
  · exact not_lt.1 ‹_›

section

variable {USD : Type} [Zero USD] [LinearOrder USD]

def validatePolicyLimits (l : PolicyLimits USD) : Option String :=
  (if l.tokenLimit.enabled then validateLimit "limits.token_limit" "" l.tokenLimit.windowSeconds
    l.tokenLimit.groupCap l.tokenLimit.userCap else none).or
  (if l.budgetLimit.enabled then validateLimit "limits.budget_limit" "_usd"
    l.budgetLimit.windowSeconds l.budgetLimit.groupCapUsd l.budgetLimit.userCapUsd else none)

/-- The length of a window that is used for the limits. -/
def HasWindow (l : PolicyLimits USD) (w : Int) : Prop :=
  l.tokenLimit.enabled ∧ l.tokenLimit.windowSeconds = w ∨
    l.budgetLimit.enabled ∧ l.budgetLimit.windowSeconds = w

theorem minWindowSeconds_le {l : PolicyLimits USD} {w : Int} (h : validatePolicyLimits l = none)
    (hw : HasWindow l w) : 60 ≤ w := by
  obtain ⟨ht, hb⟩ := or_eq_none_iff.1 h
  rcases hw with ⟨he, rfl⟩ | ⟨he, rfl⟩
  · exact le_of_validateLimit ((if_pos he).symm.trans ht)
  · exact le_of_validateLimit ((if_pos he).symm.trans hb)

end

/-- The window is a period of its length, and the time is in it. -/
def InWindow (t w : Int) : Prop :=
  ∃ s, windowStart t w = some s ∧ w * 10 ^ 9 ∣ s ∧ s ≤ t ∧ t < s + w * 10 ^ 9

section

variable {t t' w : Int}

theorem wrap64_of_lt (ht : 0 ≤ t) (h : t < 2 ^ 63) : wrap64 t = t :=
  Int.bmod_eq_of_le_mul_two (by omega) (by omega)

theorem tdiv_mul (ht : 0 ≤ t) (d : Int) : t.tdiv d * d = t / |d| * |d| := by
  rcases abs_choice d with h | h <;> rw [h]
  · rw [Int.tdiv_eq_ediv_of_nonneg ht]
  · rw [Int.ediv_neg, ← Int.tdiv_eq_ediv_of_nonneg ht, neg_mul_neg]

theorem windowStart_eq (hw : 0 < w) (ht : 0 ≤ t) (ht' : t < 2 ^ 63) (hs : windowStep w ≠ 0) :
    windowStart t w = some (t / |windowStep w| * |windowStep w|) := by
  rw [windowStart, if_neg (not_le.2 hw)]
  dsimp only
  rw [if_neg hs, wrap64_of_lt ht ht', tdiv_mul ht]

/-- A length that wraps around is longer than the time since the epoch. -/
theorem lt_of_windowStep_ne (hw : 0 < w) (ht' : t < 2 ^ 63) (h : windowStep w ≠ w * 10 ^ 9) :
    t < w * 10 ^ 9 := by
  by_contra hle
  exact h (wrap64_of_lt (by omega) (by omega))

theorem inWindow_iff (hw : 0 < w) (ht : 0 ≤ t) (ht' : t < 2 ^ 63) :
    InWindow t w ↔ windowStep w ≠ 0 ∧ (windowStep w = w * 10 ^ 9 ∨ t < |windowStep w|) := by
  by_cases hs : windowStep w = 0
  · simp [InWindow, windowStart, hs, hw]
  have hpos : 0 < |windowStep w| := abs_pos.2 hs
  have hle := Int.ediv_mul_le t hpos.ne'
  have hlt := Int.lt_ediv_add_one_mul_self t hpos
  simp only [InWindow, windowStart_eq hw ht ht' hs, Option.some.injEq, exists_eq_left', ne_eq, hs,
    not_false_eq_true, true_and]
  by_cases hd : windowStep w = w * 10 ^ 9
  · have habs : |windowStep w| = w * 10 ^ 9 := by rw [hd, abs_of_pos (by omega)]
    rw [habs, add_mul, one_mul] at hlt
    rw [habs] at hle ⊢
    exact ⟨fun _ => .inl hd, fun _ => ⟨Int.dvd_mul_left _ _, hle, hlt⟩⟩
  · have hw' := lt_of_windowStep_ne hw ht' hd
    constructor
    · rintro ⟨hdvd, -, -⟩
      -- the only multiple of the length up to the time is zero
      have hzero := Int.eq_zero_of_dvd_of_nonneg_of_lt
        (mul_nonneg (Int.ediv_nonneg ht hpos.le) hpos.le) (hle.trans_lt hw') hdvd
      rw [add_mul, one_mul, hzero, zero_add] at hlt
      exact .inr hlt
    · rintro (h | h)
      · exact absurd h hd
      · rw [Int.ediv_eq_zero_of_lt ht h, zero_mul, zero_add]
        exact ⟨Int.dvd_zero _, ht, hw'⟩

theorem InWindow.start (hw : 0 < w) (h : InWindow t w) :
    windowStart t w = some (w * 10 ^ 9 * (t / (w * 10 ^ 9))) := by
  obtain ⟨s, hs, ⟨k, rfl⟩, hle, hlt⟩ := h
  have hk : t / (w * 10 ^ 9) = k :=
    (Int.ediv_eq_iff_of_pos (by omega)).2 ⟨by rwa [mul_comm], by rwa [mul_comm k]⟩
  rw [hs, hk]

end

/-- Before the year 2262, the windows of an accepted length partition time exactly when the length
in nanoseconds does not wrap around, or wraps around to more than the time since the epoch. -/
theorem partition_iff {USD : Type} [Zero USD] [LinearOrder USD] {l : PolicyLimits USD} {t w : Int}
    (h : validatePolicyLimits l = none) (hw : HasWindow l w) (ht : 0 ≤ t) (ht' : t < 2 ^ 63) :
    (InWindow t w ↔ windowStep w ≠ 0 ∧ (windowStep w = w * 10 ^ 9 ∨ t < |windowStep w|)) ∧
      ∀ t', InWindow t w → InWindow t' w →
        (windowStart t w = windowStart t' w ↔ t / (w * 10 ^ 9) = t' / (w * 10 ^ 9)) := by
  have hpos : 0 < w := by
    have := minWindowSeconds_le h hw
    omega
  refine ⟨inWindow_iff hpos ht ht', fun t' h h' => ?_⟩
  rw [h.start hpos, h'.start hpos, some.injEq, mul_right_inj' (by omega)]

/-- Tokens are capped over windows of the length. -/
def tokensOver (w : Int) : PolicyLimits Int := ⟨⟨true, 1, 0, w⟩, ⟨false, 0, 0, 0⟩⟩

theorem partition_day : InWindow (10 ^ 18) 86400 := by
  have h := partition_iff (l := tokensOver 86400) (t := 10 ^ 18) (by decide) (.inl ⟨rfl, rfl⟩)
    (by decide) (by decide)
  exact h.1.2 (by decide)

/-- A length that is accepted, and for which the division fails at every time. -/
theorem windowStart_fails : validatePolicyLimits (tokensOver (2 ^ 55)) = none ∧
    HasWindow (tokensOver (2 ^ 55)) (2 ^ 55) ∧ ∀ t, windowStart t (2 ^ 55) = none :=
  ⟨by decide, .inl ⟨rfl, rfl⟩, fun _ => (if_neg (by decide)).trans (if_pos (by decide))⟩

end Cloink.AgentNetwork
