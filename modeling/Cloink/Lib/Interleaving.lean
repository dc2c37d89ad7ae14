import Mathlib.Algebra.BigOperators.Group.Finset.Piecewise

/-!
# Runs of a step function

Concurrent parties are modelled by one step function on their common state: an action names the
party and what it does next, and is refused while it is not enabled. A run is any sequence of
actions that are not refused, so a statement about every run is one about every interleaving. A
condition on the steps restricts the runs.

## Main definitions

* `run`, `Reaches`: runs of a step function, and the states they reach.
* `Along`: a relation holds at every step of a run.

## Main results

* `Reaches.invariant`: the rule of invariants.
* `along_congr`: relations that agree under an invariant.
-/

namespace Interleaving

open Finset Function

variable {σ α : Type} {step : σ → α → Option σ}

variable (step) in
/-- The states reached from `s₀` by steps that meet the condition. -/
inductive Reaches (ok : σ → α → Prop) (s₀ : σ) : σ → Prop
  | refl : Reaches ok s₀ s₀
  | tail {s s' : σ} {a : α} : Reaches ok s₀ s → ok s a → step s a = some s' → Reaches ok s₀ s'

variable {ok : σ → α → Prop} {s₀ s : σ}

variable {p : σ → Prop} {s' : σ}

theorem Reaches.invariant (hi : p s₀)
    (hst : ∀ s a s', p s → ok s a → step s a = some s' → p s') (h : Reaches step ok s₀ s) :
    p s := by
  induction h with
  | refl => exact hi
  | tail _ hok hs ih => exact hst _ _ _ ih hok hs

theorem Reaches.mono {ok' : σ → α → Prop} (hok : ∀ s a, ok s a → ok' s a)
    (h : Reaches step ok s₀ s) : Reaches step ok' s₀ s := by
  induction h with
  | refl => exact .refl
  | tail _ ha hs ih => exact .tail ih (hok _ _ ha) hs

theorem Reaches.trans (h : Reaches step ok s₀ s) (h' : Reaches step ok s s') :
    Reaches step ok s₀ s' := by
  induction h' with
  | refl => exact h
  | tail _ ha hs ih => exact .tail ih ha hs

variable (step ok) in
/-- The state after the actions; none when one of them is refused or does not meet the condition. -/
def run [∀ s a, Decidable (ok s a)] (s : σ) : List α → Option σ
  | [] => some s
  | a :: l => if ok s a then (step s a).bind fun s' => run s' l else none

theorem reaches_of_run [∀ s a, Decidable (ok s a)] {l : List α} (h : run step ok s l = some s') :
    Reaches step ok s s' := by
  induction l generalizing s with
  | nil =>
    cases h
    exact .refl
  | cons a l ih =>
    unfold run at h
    split at h
    · rename_i hok
      obtain ⟨s₁, hs₁, hr⟩ := Option.bind_eq_some_iff.1 h
      exact (Reaches.tail .refl hok hs₁).trans (ih hr)
    · cases h

theorem exists_reaches [∀ s a, Decidable (ok s a)] [DecidablePred p] (l : List α)
    (h : (run step ok s₀ l).any fun s => decide (p s)) : ∃ s, Reaches step ok s₀ s ∧ p s := by
  cases hr : run step ok s₀ l with
  | none => simp [hr] at h
  | some s =>
    rw [hr] at h
    exact ⟨s, reaches_of_run hr, of_decide_eq_true h⟩

/-! ### Every step of a run -/

variable (step) in
/-- The relation holds at every step of the run of the actions, until one is refused. -/
def Along (r : σ → α → σ → Prop) (s : σ) : List α → Prop
  | [] => True
  | a :: l => ∀ s', step s a = some s' → r s a s' ∧ Along r s' l

/-- Two relations hold along the same runs if they agree at the states with an invariant that the
second one keeps. -/
theorem along_congr {r q : σ → α → σ → Prop}
    (hst : ∀ s a s', p s → step s a = some s' → (r s a s' ↔ q s a s') ∧ (q s a s' → p s'))
    (hs : p s) (l : List α) : Along step r s l ↔ Along step q s l := by
  induction l generalizing s with
  | nil => exact Iff.rfl
  | cons a l ih =>
    refine forall₂_congr fun s' hs' => ?_
    obtain ⟨hrq, hp⟩ := hst s a s' hs hs'
    rw [hrq]
    exact and_congr_right fun hq => ih (hp hq)

/-! ### Runs that end -/

theorem length_add_measure_le [∀ s a, Decidable (ok s a)] {μ : σ → ℕ}
    (hst : ∀ s a s', p s → ok s a → step s a = some s' → p s' ∧ μ s' < μ s) {l : List α}
    (hs : p s) (h : run step ok s l = some s') : l.length + μ s' ≤ μ s := by
  induction l generalizing s with
  | nil =>
    cases h
    simp
  | cons a l ih =>
    unfold run at h
    split at h
    · rename_i hok
      obtain ⟨s₁, hs₁, hr⟩ := Option.bind_eq_some_iff.1 h
      obtain ⟨hp, hlt⟩ := hst s a s₁ hs hok hs₁
      have hle := ih hp hr
      rw [List.length_cons]
      omega
    · cases h

theorem sum_update_add {β : Type} (w : β → ℕ) (f : ℕ → β) {k n : ℕ} (hk : k < n) (b : β) :
    (∑ j ∈ range n, w (update f k b j)) + w (f k) = (∑ j ∈ range n, w (f j)) + w b := by
  have hm : k ∈ range n := mem_range.2 hk
  simp only [apply_update fun _ => w, sum_update_of_mem hm,
    sum_eq_add_sum_sdiff_singleton_of_mem hm fun j => w (f j)]
  omega

end Interleaving
