import Cloink.Lib.FinMap
import Mathlib.Data.List.Perm.Subperm
import Mathlib.Data.List.Induction

/-!
# Sets that are added to and overwritten

A set, kept as a list, is changed by a sequence of updates. Each one adds elements, and some of them
forget first what was there, so the outcome may depend on the order of the updates.
-/

/-- A change of a set: what is added, and whether the elements before are forgotten. -/
structure SetUpdate (α : Type) where
  resets : Bool := false
  added : List α := []
  deriving DecidableEq

namespace SetUpdate

open List

variable {α : Type} [DecidableEq α] {u v : SetUpdate α} {s : List α} {x : α}

def apply (u : SetUpdate α) (s : List α) : List α :=
  if u.resets then u.added else s.insertAll u.added

/-- The update that has the effect of `u` and then `v`. -/
def seq (u v : SetUpdate α) : SetUpdate α where
  resets := u.resets || v.resets
  added := v.apply u.added

/-- The update that has the effect of all updates of a list, the first one first. -/
def comp : List (SetUpdate α) → SetUpdate α
  | [] => {}
  | u :: l => u.seq (comp l)

/-- All updates of a list, the first one first. -/
def run (l : List (SetUpdate α)) (s : List α) : List α := l.foldl (fun s u => u.apply s) s

@[simp] theorem apply_skip : ({} : SetUpdate α).apply s = s := rfl

theorem mem_apply : x ∈ u.apply s ↔ x ∈ u.added ∨ (u.resets = false ∧ x ∈ s) := by
  unfold apply
  cases u.resets <;> simp [or_comm]

theorem apply_seq : (u.seq v).apply s = v.apply (u.apply s) := by
  cases hu : u.resets <;> cases hv : v.resets <;> simp [apply, seq, hu, hv, insertAll_insertAll]

theorem run_append (l l' : List (SetUpdate α)) : run (l ++ l') s = run l' (run l s) :=
  foldl_append

theorem run_cons (l : List (SetUpdate α)) : run (u :: l) s = run l (u.apply s) := rfl

theorem apply_comp (l : List (SetUpdate α)) : (comp l).apply s = run l s := by
  induction l generalizing s with
  | nil => rfl
  | cons u l ih => rw [comp, apply_seq, ih, run_cons]

variable {l : List (SetUpdate α)}

theorem resets_comp : (comp l).resets ↔ ∃ u ∈ l, u.resets := by
  induction l with
  | nil => simp [comp]
  | cons u l ih => simp [comp, seq, ih]

theorem run_concat (l : List (SetUpdate α)) : run (l ++ [u]) s = u.apply (run l s) :=
  run_append l [u]

theorem foldl_eq_run {σ β : Type} {f : σ → β → σ} (part : σ → List α) {update : β → SetUpdate α}
    (h : ∀ st b, part (f st b) = (update b).apply (part st)) (l : List β) (st : σ) :
    part (l.foldl f st) = run (l.map update) (part st) := by
  induction l generalizing st with
  | nil => rfl
  | cons b l ih => rw [foldl_cons, ih, h, map_cons, run_cons]

/-- When every overwriting update has all that the updates add, the outcome is what they add. -/
theorem mem_run (h : ∀ u ∈ l, u.resets → ∀ v ∈ l, v.added ⊆ u.added) :
    x ∈ run l [] ↔ ∃ u ∈ l, x ∈ u.added := by
  induction l using reverseRecOn with
  | nil => simp [run]
  | append_singleton l w ih =>
    have hl : ∀ u ∈ l, u.resets → ∀ v ∈ l, v.added ⊆ u.added := fun u hu hr v hv =>
      h u (mem_append_left _ hu) hr v (mem_append_left _ hv)
    rw [run_concat, mem_apply, ih hl]
    simp only [mem_append, mem_singleton]
    constructor
    · rintro (hx | ⟨-, u, hu, hx⟩)
      · exact ⟨w, .inr rfl, hx⟩
      · exact ⟨u, .inl hu, hx⟩
    · rintro ⟨u, hu | rfl, hx⟩
      · cases hr : w.resets with
        | false => exact .inr ⟨rfl, u, hu, hx⟩
        | true => exact .inl (h w (by simp) hr u (mem_append_left _ hu) hx)
      · exact .inl hx

/-- Two different updates can be brought to the end of the list, in either order. -/
theorem exists_perm_concat (hu : u ∈ l) (hv : v ∈ l) (hne : u ≠ v) :
    ∃ rest, (rest ++ [u, v]).Perm l ∧ (rest ++ [v, u]).Perm l := by
  have hv' : v ∈ l.erase u := (mem_erase_of_ne hne.symm).2 hv
  have hp : l.Perm (u :: v :: (l.erase u).erase v) :=
    (perm_cons_erase hu).trans ((perm_cons_erase hv').cons u)
  refine ⟨(l.erase u).erase v, (perm_append_comm.trans hp.symm), ?_⟩
  exact perm_append_comm.trans ((List.Perm.swap u v _).trans hp.symm)

/-- The order of the updates does not matter exactly when every overwriting update has all that
the updates add. -/
theorem run_perm_iff (l : List (SetUpdate α)) :
    (∀ l', l'.Perm l → ∀ x, x ∈ run l' [] ↔ x ∈ run l []) ↔
      ∀ u ∈ l, u.resets → ∀ v ∈ l, v.added ⊆ u.added := by
  constructor
  · intro h u hu hr v hv x hx
    by_cases hne : u = v
    · rwa [hne]
    · obtain ⟨rest, huv, hvu⟩ := exists_perm_concat hu hv hne
      -- the updates end with `u`, which overwrites, then with `v`, which adds `x`
      have hl : x ∈ run (rest ++ [u, v]) [] := by
        rw [append_cons, run_concat, mem_apply]
        exact .inl hx
      rw [h _ huv, ← h _ hvu, append_cons, run_concat, mem_apply] at hl
      simpa [hr] using hl
  · intro h l' hl' x
    rw [mem_run h, mem_run fun u hu hr v hv => h u (hl'.mem_iff.1 hu) hr v (hl'.mem_iff.1 hv)]
    simp only [hl'.mem_iff]

end SetUpdate
