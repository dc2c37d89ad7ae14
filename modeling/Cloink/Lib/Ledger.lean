import Mathlib.Order.BooleanAlgebra.Set
import Mathlib.Data.List.Count

/-!
# Ledgers of openings and closings

A ledger is balanced for the set of known records and the set of live ones when every known record
was opened once, every record that is no longer live was closed once, and no record was closed
before it was opened.
-/

namespace Ledger

open List

inductive Entry (ι : Type) where
  | opened (i : ι)
  | closed (i : ι)
  deriving DecidableEq

variable {ι : Type} [DecidableEq ι]

structure Balanced (known live : Set ι) (l : List (Entry ι)) : Prop where
  live_subset : live ⊆ known
  count_opened : ∀ i ∈ known, l.count (.opened i) = 1
  known_of_opened : ∀ i, .opened i ∈ l → i ∈ known
  count_closed : ∀ i ∈ known, i ∉ live → l.count (.closed i) = 1
  notMem_of_closed : ∀ i, .closed i ∈ l → i ∉ live
  opened_before : ∀ before after i, l = before ++ .closed i :: after → .opened i ∈ before

namespace Balanced

variable {known live : Set ι} {l : List (Entry ι)}

theorem nil : Balanced (∅ : Set ι) ∅ [] where
  live_subset := Set.Subset.rfl
  count_opened := by simp
  known_of_opened := by simp
  count_closed := by simp
  notMem_of_closed := by simp
  opened_before := by simp

variable {i : ι}

variable (h : Balanced known live l)

include h

theorem known_of_closed (hi : .closed i ∈ l) : i ∈ known := by
  obtain ⟨before, after, hl⟩ := append_of_mem hi
  refine h.known_of_opened i ?_
  rw [hl]
  exact mem_append_left _ (h.opened_before before after i hl)

/-- Nothing is closed twice. -/
theorem count_closed_le (i : ι) : l.count (.closed i) ≤ 1 := by
  by_cases hi : Entry.closed i ∈ l
  · exact (h.count_closed i (h.known_of_closed hi) (h.notMem_of_closed i hi)).le
  · rw [count_eq_zero_of_not_mem hi]
    exact Nat.zero_le 1

theorem opened_before_append {e : Entry ι}
    (he : ∀ i, e = .closed i → .opened i ∈ l) (before after : List (Entry ι)) (i : ι)
    (hl : l ++ [e] = before ++ .closed i :: after) : .opened i ∈ before := by
  rcases eq_nil_or_concat after with rfl | ⟨after, e', rfl⟩
  · obtain ⟨rfl, he'⟩ := append_inj' hl rfl
    exact he i (singleton_inj.1 he')
  · rw [concat_eq_append, ← cons_append, ← append_assoc] at hl
    exact h.opened_before before after i (append_inj' hl rfl).1

/-- A new item is opened. -/
theorem opening (hi : i ∉ known) :
    Balanced (insert i known) (insert i live) (l ++ [.opened i]) where
  live_subset := Set.insert_subset_insert h.live_subset
  count_opened := by
    rintro j (rfl | hj)
    · rw [count_append, count_eq_zero_of_not_mem fun hj => hi (h.known_of_opened j hj)]
      simp
    · have hne : i ≠ j := fun heq => hi (heq ▸ hj)
      simp [count_append, h.count_opened j hj, hne]
  known_of_opened := by
    intro j hj
    rcases mem_append.1 hj with hj | hj
    · exact Set.mem_insert_of_mem i (h.known_of_opened j hj)
    · obtain rfl : j = i := by simpa using hj
      exact Set.mem_insert j known
  count_closed := by
    rintro j (rfl | hj) hl
    · exact absurd (Set.mem_insert j live) hl
    · have hc := h.count_closed j hj fun hm => hl (Set.mem_insert_of_mem i hm)
      simp [count_append, hc]
  notMem_of_closed := by
    intro j hj hl
    have hm : Entry.closed j ∈ l := by simpa using hj
    rcases hl with rfl | hl
    · exact hi (h.known_of_closed hm)
    · exact h.notMem_of_closed j hm hl
  opened_before := h.opened_before_append fun _ he => nomatch he

theorem closing (hi : i ∈ live) : Balanced known (live \ {i}) (l ++ [.closed i]) where
  live_subset := Set.sdiff_subset.trans h.live_subset
  count_opened := by
    intro j hj
    simp [count_append, h.count_opened j hj]
  known_of_opened := by
    intro j hj
    exact h.known_of_opened j (by simpa using hj)
  count_closed := by
    intro j hj hl
    by_cases hij : j = i
    · subst hij
      rw [count_append, count_eq_zero_of_not_mem fun hj => h.notMem_of_closed j hj hi]
      simp
    · have hc := h.count_closed j hj fun hm => hl ⟨hm, hij⟩
      simp [count_append, hc, Ne.symm hij]
  notMem_of_closed := by
    rintro j hj ⟨hl, hne⟩
    rcases mem_append.1 hj with hj | hj
    · exact h.notMem_of_closed j hj hl
    · exact hne (by simpa using hj)
  opened_before := h.opened_before_append fun j he => by
    obtain rfl := Entry.closed.inj he
    have hc := h.count_opened i (h.live_subset hi)
    exact count_pos_iff.1 (by omega)

/-- A list of live items is closed. -/
theorem closingAll {ids : List ι} (hn : ids.Nodup) (hid : ∀ i ∈ ids, i ∈ live) :
    Balanced known (live \ {i | i ∈ ids}) (l ++ ids.map .closed) := by
  induction ids generalizing live l with
  | nil => simpa using h
  | cons i ids ih =>
    obtain ⟨hi, hn⟩ := nodup_cons.1 hn
    have hr : ∀ j ∈ ids, j ∈ live \ {i} := fun j hj =>
      ⟨hid j (mem_cons_of_mem i hj), fun heq => hi (heq ▸ hj)⟩
    have hc := ih (h.closing (hid i mem_cons_self)) hn hr
    rw [Set.sdiff_sdiff] at hc
    have hs : ({i} ∪ {j | j ∈ ids} : Set ι) = {j | j ∈ i :: ids} := by
      ext j
      simp
    rwa [hs, append_assoc, singleton_append] at hc

end Balanced

end Ledger
