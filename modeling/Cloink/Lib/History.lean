import Mathlib.Data.List.Induction

/-!
# Histories of records

A system takes one step for each event. What its state holds at the end was brought in by some
event and has been held ever since: from the step rule "a record that is held after a step was
born in it, or was held before and kept" follows the same for whole runs.
-/

namespace List

variable {σ ε ρ : Type} {step : σ → ε → σ} {init : σ}

/-- A record that is held after a run was born in one of its events; it was held after each event
since then, and each of them has kept it. -/
theorem exists_origin (held : σ → ρ → Prop) (born kept : σ → ε → ρ → Prop) (hi : ∀ r, ¬held init r)
    (hst : ∀ s e r, held (step s e) r → born s e r ∨ held s r ∧ kept s e r) {l : List ε} {r : ρ}
    (h : held (l.foldl step init) r) :
    ∃ pre e post, l = pre ++ e :: post ∧ born (pre.foldl step init) e r ∧
      ∀ mid e' rest, post = mid ++ e' :: rest → held ((pre ++ e :: mid).foldl step init) r ∧
          kept ((pre ++ e :: mid).foldl step init) e' r := by
  induction l using reverseRecOn with
  | nil => exact absurd h (hi r)
  | append_singleton l e ih =>
    rw [foldl_append] at h
    rcases hst _ e r h with hb | ⟨hh, hk⟩
    · refine ⟨l, e, [], rfl, hb, fun mid e' rest hp => ?_⟩
      simp at hp
    · obtain ⟨pre, e₀, post, rfl, hb, hs⟩ := ih hh
      refine ⟨pre, e₀, post ++ [e], by simp, hb, fun mid e' rest hp => ?_⟩
      rcases eq_nil_or_concat rest with rfl | ⟨rest, e'', rfl⟩
      · obtain ⟨rfl, he⟩ := append_inj' hp rfl
        obtain rfl := singleton_inj.1 he
        exact ⟨hh, hk⟩
      · rw [concat_eq_append, ← cons_append, ← append_assoc] at hp
        exact hs mid e' rest (append_inj' hp rfl).1

end List
