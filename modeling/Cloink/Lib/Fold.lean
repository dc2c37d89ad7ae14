import Mathlib.Data.List.Basic
import Mathlib.Order.Basic

/-!
# Loops that only add

Rules for a loop `l.foldl f s` whose steps never remove anything from the state, stated as
`s ≤ f s a` for a preorder on the states: what one step has added is there at the end.
-/

namespace List

section

variable {α σ : Type} [Preorder σ] {f : σ → α → σ} {l : List α}

theorem le_foldl (hf : ∀ s, ∀ a ∈ l, s ≤ f s a) (s : σ) : s ≤ l.foldl f s :=
  List.foldlRecOn l f le_rfl fun b hb a ha => le_trans hb (hf b a ha)

theorem exists_le_foldl (hf : ∀ s, ∀ a ∈ l, s ≤ f s a) (s : σ) {a : α} (ha : a ∈ l) :
    ∃ s', s ≤ s' ∧ f s' a ≤ l.foldl f s := by
  induction l generalizing s with
  | nil => nomatch ha
  | cons x l ih =>
    have hr : ∀ s, ∀ a ∈ l, s ≤ f s a := fun s a h => hf s a (mem_cons_of_mem x h)
    rcases mem_cons.1 ha with rfl | ha
    · exact ⟨s, le_rfl, le_foldl hr _⟩
    · obtain ⟨s', hs, he⟩ := ih hr (f s x) ha
      exact ⟨s', le_trans (hf s x mem_cons_self) hs, he⟩

end

variable {α : Type}

/-- A property that single steps bring about holds at the end when it held at the start or one of
the steps has brought it about. -/
theorem foldl_iff_exists {σ : Type} {f : σ → α → σ} {p : σ → Prop} {q : α → Prop}
    (h : ∀ s a, p (f s a) ↔ p s ∨ q a) (l : List α) (s : σ) :
    p (l.foldl f s) ↔ p s ∨ ∃ a ∈ l, q a := by
  induction l generalizing s with
  | nil => simp
  | cons a l ih => simp [ih, h, or_assoc]

theorem foldl_filter_eq {σ : Type} {f : σ → α → σ} {p : α → Bool} {l : List α}
    (h : ∀ s, ∀ a ∈ l, p a = false → f s a = s) (s : σ) : (l.filter p).foldl f s = l.foldl f s := by
  rw [foldl_filter]
  refine foldl_ext _ _ _ fun s a ha => ?_
  split
  · rfl
  · exact (h s a ha (Bool.eq_false_iff.2 ‹_›)).symm

theorem flatMap_filter_eq {β : Type} {f : α → List β} {p : α → Bool} {l : List α}
    (h : ∀ a ∈ l, p a = false → f a = []) : (l.filter p).flatMap f = l.flatMap f := by
  induction l with
  | nil => rfl
  | cons x l ih =>
    have hr := ih fun a ha => h a (mem_cons_of_mem x ha)
    cases hx : p x with
    | false =>
      rw [filter_cons_of_neg (by simp [hx]), hr, flatMap_cons, h x mem_cons_self hx, nil_append]
    | true => rw [filter_cons_of_pos hx, flatMap_cons, hr, flatMap_cons]

end List
