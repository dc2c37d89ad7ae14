import Mathlib.Logic.Basic

/-!
# Fallible computations

Steps of a computation in `Except`, and what is known of a computation that returned a value: all
its steps did. Loops are `foldlM` and `findSomeM?`.
-/

namespace Except

variable {ε α β : Type}

/-- Stops with the error when the condition holds. -/
def reject (cond : Bool) (e : ε) : Except ε Unit := if cond then .error e else .ok ()

/-- The value, or the error where there is none. -/
def expect (e : ε) : Option α → Except ε α
  | none => .error e
  | some a => .ok a

theorem bind_eq_ok_iff {x : Except ε α} {f : α → Except ε β} {b : β} :
    x >>= f = .ok b ↔ ∃ a, x = .ok a ∧ f a = .ok b := by
  cases x <;> simp [bind, Except.bind]

theorem map_eq_ok_iff {x : Except ε α} {f : α → β} {b : β} :
    x.map f = .ok b ↔ ∃ a, x = .ok a ∧ f a = b := by
  cases x <;> simp [Except.map]

theorem reject_eq_ok_iff {cond : Bool} {e : ε} {u : Unit} :
    reject cond e = .ok u ↔ cond = false := by
  cases cond <;> simp [reject]

theorem expect_eq_ok_iff {e : ε} {o : Option α} {a : α} : expect e o = .ok a ↔ o = some a := by
  cases o <;> simp [expect]

/-! ### Loops -/

variable {σ : Type} {f g : σ → α → Except ε σ} {l : List α} {s s' : σ}

theorem foldlM_cons_eq_ok {a : α} :
    (a :: l).foldlM f s = .ok s' ↔ ∃ t, f s a = .ok t ∧ l.foldlM f t = .ok s' := by
  rw [List.foldlM_cons, bind_eq_ok_iff]

/-- What every step that returns keeps holds at the end. -/
theorem foldlM_invariant {p : σ → Prop} (h : ∀ s a s', p s → f s a = .ok s' → p s')
    (hl : l.foldlM f s = .ok s') (hs : p s) : p s' := by
  induction l generalizing s with
  | nil => cases hl; exact hs
  | cons a l ih =>
    obtain ⟨t, ht, hl⟩ := foldlM_cons_eq_ok.1 hl
    exact ih hl (h s a t hs ht)

/-- A property that single steps bring about holds at the end when it held at the start or one of
the steps has brought it about. -/
theorem foldlM_iff_exists {p : σ → Prop} {q : α → Prop}
    (h : ∀ s a s', f s a = .ok s' → (p s' ↔ p s ∨ q a)) (hl : l.foldlM f s = .ok s') :
    p s' ↔ p s ∨ ∃ a ∈ l, q a := by
  induction l generalizing s with
  | nil => cases hl; simp
  | cons a l ih =>
    obtain ⟨t, ht, hl⟩ := foldlM_cons_eq_ok.1 hl
    simp [ih hl, h s a t ht, or_assoc]

/-- Where it does not depend on the state whether a step returns, the loop returns if all its steps
do. -/
theorem foldlM_isOk_iff {q : α → Prop} (h : ∀ s a, (∃ s', f s a = .ok s') ↔ q a) (l : List α)
    (s : σ) : (∃ s', l.foldlM f s = .ok s') ↔ ∀ a ∈ l, q a := by
  induction l generalizing s with
  | nil => exact ⟨fun _ a ha => absurd ha List.not_mem_nil, fun _ => ⟨s, rfl⟩⟩
  | cons a l ih =>
    rw [List.forall_mem_cons, ← h s a]
    constructor
    · rintro ⟨s', hs⟩
      obtain ⟨t, ht, hl⟩ := foldlM_cons_eq_ok.1 hs
      exact ⟨⟨t, ht⟩, (ih t).1 ⟨s', hl⟩⟩
    · rintro ⟨⟨t, ht⟩, hl⟩
      obtain ⟨s', hs⟩ := (ih t).2 hl
      exact ⟨s', foldlM_cons_eq_ok.2 ⟨t, ht, hs⟩⟩

theorem foldlM_congr (h : ∀ s, ∀ a ∈ l, f s a = g s a) : l.foldlM f s = l.foldlM g s := by
  induction l generalizing s with
  | nil => rfl
  | cons a l ih =>
    rw [List.foldlM_cons, List.foldlM_cons, h s a List.mem_cons_self]
    exact congrArg _ (funext fun t => ih fun s b hb => h s b (List.mem_cons_of_mem a hb))

variable {k k' : α → Except ε (Option β)} {r : Option β}

theorem findSomeM?_cons_eq_ok {a : α} : (a :: l).findSomeM? k = .ok r ↔
    ∃ b, k a = .ok b ∧ (b = none ∧ l.findSomeM? k = .ok r ∨ b.isSome ∧ b = r) := by
  rw [List.findSomeM?_cons, bind_eq_ok_iff]
  refine exists_congr fun b => and_congr_right fun _ => ?_
  cases b <;> simp [pure, Except.pure]

/-- A search that returns finds nothing exactly if no element is one to be found. -/
theorem findSomeM?_eq_none_iff {p : α → Prop} (h : ∀ a r, k a = .ok r → (r = none ↔ p a))
    (hl : l.findSomeM? k = .ok r) : r = none ↔ ∀ a ∈ l, p a := by
  induction l with
  | nil => cases hl; simp
  | cons a l ih =>
    obtain ⟨b, hb, ⟨rfl, hl⟩ | ⟨hs, rfl⟩⟩ := findSomeM?_cons_eq_ok.1 hl
    · simp [ih hl, ← h a _ hb]
    · rw [List.forall_mem_cons, ← h a _ hb]
      exact ⟨fun hn => by simp [hn] at hs, fun hn => hn.1⟩

theorem findSomeM?_isOk (h : ∀ a ∈ l, ∃ r, k a = .ok r) : ∃ r, l.findSomeM? k = .ok r := by
  induction l with
  | nil => exact ⟨none, rfl⟩
  | cons a l ih =>
    obtain ⟨b, hb⟩ := h a List.mem_cons_self
    obtain ⟨r, hr⟩ := ih fun a' ha => h a' (List.mem_cons_of_mem a ha)
    cases b with
    | none => exact ⟨r, findSomeM?_cons_eq_ok.2 ⟨none, hb, .inl ⟨rfl, hr⟩⟩⟩
    | some b => exact ⟨some b, findSomeM?_cons_eq_ok.2 ⟨some b, hb, .inr ⟨rfl, rfl⟩⟩⟩

theorem findSomeM?_congr (h : ∀ a ∈ l, k a = k' a) : l.findSomeM? k = l.findSomeM? k' := by
  induction l with
  | nil => rfl
  | cons a l ih =>
    rw [List.findSomeM?_cons, List.findSomeM?_cons, h a List.mem_cons_self,
      ih fun b hb => h b (List.mem_cons_of_mem a hb)]

end Except
