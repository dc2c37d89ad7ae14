import Cloink.Lib.FinMap
import Mathlib.Algebra.BigOperators.Group.List.Basic
import Mathlib.Algebra.Ring.Nat

/-!
# Sums over a map, and tallies

The sum of a weight over the entries of a map, and what inserting or deleting an entry does to it. A
tally says how many references each holder has: it is a map from holders to positive counts, in
which a holder without references is absent.
-/

namespace AList

open List

variable {α β : Type} (w : α → β → ℕ) (m : AList fun _ : α => β)

/-- The sum of a weight over the entries. -/
def sumOver : ℕ := (m.entries.map fun e => w e.1 e.2).sum

@[simp] theorem sumOver_empty : (∅ : AList fun _ : α => β).sumOver w = 0 := rfl

variable [DecidableEq α]

theorem sum_kerase_add {M : Type} [AddCommMonoid M] (w : α → β → M)
    (l : List (Sigma fun _ : α => β)) (a : α) :
    ((l.kerase a).map fun e => w e.1 e.2).sum + (l.dlookup a).elim 0 (w a) =
      (l.map fun e => w e.1 e.2).sum := by
  induction l with
  | nil => simp
  | cons e l ih =>
    obtain ⟨b, n⟩ := e
    by_cases hab : a = b
    · subst hab
      simp [add_comm]
    · rw [kerase_cons_ne hab, dlookup_cons_ne _ _ hab, map_cons, map_cons,
        sum_cons, sum_cons, add_assoc, ih]

/-- The sum without a key. -/
theorem sumOver_erase_add (a : α) :
    (m.erase a).sumOver w + (m.lookup a).elim 0 (w a) = m.sumOver w :=
  sum_kerase_add w m.entries a

/-- The sum after an insertion. -/
theorem sumOver_insert_add (a : α) (b : β) :
    (m.insert a b).sumOver w + (m.lookup a).elim 0 (w a) = m.sumOver w + w a b := by
  have hs := sum_kerase_add w m.entries a
  simp only [sumOver, entries_insert, map_cons, sum_cons, lookup]
  omega

variable {m} in
/-- An entry is at most the sum. -/
theorem le_sumOver {a : α} {b : β} (h : m.lookup a = some b) : w a b ≤ m.sumOver w := by
  have hs := m.sumOver_erase_add w a
  rw [h] at hs
  exact hs ▸ Nat.le_add_left _ _

variable {w m} in
theorem sumOver_congr {w' : α → β → ℕ} (h : ∀ a b, m.lookup a = some b → w a b = w' a b) :
    m.sumOver w = m.sumOver w' := by
  unfold sumOver
  congr 1
  exact map_congr_left fun e he => h e.1 e.2 (mem_lookup_iff.2 he)

variable {w m} in
/-- The sum is zero when all entries are. -/
theorem sumOver_eq_zero_iff : m.sumOver w = 0 ↔ ∀ a b, m.lookup a = some b → w a b = 0 := by
  constructor
  · intro h a b hab
    have hle := le_sumOver w hab
    omega
  · intro h
    refine sum_eq_zero fun n hn => ?_
    obtain ⟨e, he, rfl⟩ := mem_map.1 hn
    exact h e.1 e.2 (mem_lookup_iff.2 he)

end AList

/-- A map from holders to positive counts. -/
structure Tally (α : Type) [DecidableEq α] where
  counts : AList fun _ : α => ℕ
  pos : ∀ a n, counts.lookup a = some n → 0 < n

namespace Tally

variable {α : Type} [DecidableEq α] (t : Tally α)

instance : EmptyCollection (Tally α) := ⟨⟨∅, by simp⟩⟩

variable (a : α)

/-- The references of a holder. -/
def count : ℕ := (t.counts.lookup a).elim 0 id

/-- The references of all holders. -/
def total : ℕ := t.counts.sumOver fun _ => id

def holders : List α := t.counts.keys

def incr : Tally α where
  counts := t.counts.insert a (t.count a + 1)
  pos b n h := by
    obtain ⟨-, rfl⟩ | ⟨-, h⟩ := AList.lookup_insert_some.1 h
    · omega
    · exact t.pos b n h

/-- One reference less; a holder that has no other is removed. -/
def decr : Tally α :=
  if h : t.count a ≤ 1 then
    { counts := t.counts.erase a
      pos := fun b n hb => t.pos b n (AList.lookup_erase_some.1 hb).2 }
  else
    { counts := t.counts.insert a (t.count a - 1)
      pos := fun b n hb => by
        obtain ⟨-, rfl⟩ | ⟨-, hb⟩ := AList.lookup_insert_some.1 hb
        · omega
        · exact t.pos b n hb }

/-! ### Counts -/

@[simp] theorem count_empty : (∅ : Tally α).count a = 0 := rfl

@[simp] theorem count_incr (a b : α) :
    (t.incr a).count b = if b = a then t.count a + 1 else t.count b := by
  rw [count, incr, AList.lookup_insert_ite]
  split <;> rfl

theorem counts_decr : (t.decr a).counts =
    if t.count a ≤ 1 then t.counts.erase a else t.counts.insert a (t.count a - 1) := by
  unfold decr
  split <;> rfl

@[simp] theorem count_decr (a b : α) :
    (t.decr a).count b = if b = a then t.count a - 1 else t.count b := by
  unfold count
  rw [counts_decr]
  split
  · rename_i h
    rw [AList.lookup_erase_ite]
    split
    · exact (Nat.sub_eq_zero_of_le h).symm
    · rfl
  · rw [AList.lookup_insert_ite]
    split <;> rfl

/-- The holders are those with a count. -/
theorem mem_holders {a : α} : a ∈ t.holders ↔ 0 < t.count a := by
  rw [holders, ← AList.mem_keys, AList.mem_iff_lookup, count]
  constructor
  · rintro ⟨n, hn⟩
    rw [hn]
    exact t.pos a n hn
  · intro h
    cases hl : t.counts.lookup a with
    | none => simp [hl] at h
    | some n => exact ⟨n, rfl⟩

/-! ### The sum -/

@[simp] theorem total_incr : (t.incr a).total = t.total + 1 := by
  have hs := t.counts.sumOver_insert_add (fun _ => id) a (t.count a + 1)
  unfold total incr
  unfold count at hs ⊢
  simp only [id] at hs ⊢
  omega

/-- A holder that gives one back. -/
theorem total_decr_add_one {a : α} (ha : 0 < t.count a) : (t.decr a).total + 1 = t.total := by
  unfold total
  rw [counts_decr]
  split
  · have hs := t.counts.sumOver_erase_add (fun _ => id) a
    unfold count at *
    omega
  · have hs := t.counts.sumOver_insert_add (fun _ => id) a (t.count a - 1)
    unfold count at *
    simp only [id] at *
    omega

theorem count_le_total : t.count a ≤ t.total := by
  have hs := t.counts.sumOver_erase_add (fun _ => id) a
  unfold count total
  omega

/-- There is no holder when the total is zero. -/
theorem holders_eq_nil_iff : t.holders = [] ↔ t.total = 0 := by
  constructor
  · intro h
    have hn : t.counts.entries = [] := List.map_eq_nil_iff.1 h
    simp [total, AList.sumOver, hn]
  · intro h
    refine List.eq_nil_iff_forall_not_mem.2 fun a ha => ?_
    have hp := t.mem_holders.1 ha
    have hle := t.count_le_total a
    omega

end Tally
