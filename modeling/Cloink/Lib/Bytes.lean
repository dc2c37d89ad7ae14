import Mathlib.Data.Nat.Bitwise

/-!
# Numbers as bytes

The number that bytes spell, most significant first, and the bytes of a number. The bits of the
number are those of the bytes.
-/

namespace Bytes

/-- The number of bytes, least significant first. -/
def leNat : List UInt8 → ℕ
  | [] => 0
  | b :: l => b.toNat + 256 * leNat l

/-- The number of bytes, most significant first. -/
def beNat (l : List UInt8) : ℕ := leNat l.reverse

/-- The `i`-th byte of a number, from the least significant one. -/
def byteOf (n i : ℕ) : UInt8 := UInt8.ofNat (n / 256 ^ i)

theorem leNat_lt (l : List UInt8) : leNat l < 2 ^ (8 * l.length) := by
  induction l with
  | nil => simp [leNat]
  | cons b l ih =>
    have hb := b.toNat_lt
    rw [List.length_cons, Nat.mul_succ, Nat.pow_add, leNat]
    omega

theorem beNat_lt (l : List UInt8) : beNat l < 2 ^ (8 * l.length) := by
  simpa [beNat] using leNat_lt l.reverse

/-- Numbers of one length determine their bytes. -/
theorem leNat_inj {l l' : List UInt8} (hl : l.length = l'.length) (h : leNat l = leNat l') :
    l = l' := by
  induction l generalizing l' with
  | nil => exact (List.length_eq_zero_iff.1 hl.symm).symm
  | cons b l ih =>
    obtain _ | ⟨b', l'⟩ := l'
    · cases hl
    · have hb := b.toNat_lt
      have hb' := b'.toNat_lt
      simp only [leNat] at h
      rw [ih (Nat.succ.inj hl) (by omega), UInt8.toNat_inj.1 (by omega : b.toNat = b'.toNat)]

theorem beNat_inj {l l' : List UInt8} (hl : l.length = l'.length) (h : beNat l = beNat l') :
    l = l' :=
  List.reverse_inj.1 (leNat_inj (by simpa) h)

theorem leNat_replicate (k : ℕ) : leNat (List.replicate k 0) = 0 := by
  induction k with
  | zero => rfl
  | succ k ih => simp [List.replicate_succ, leNat, ih]

/-- The bits of a number, byte by byte. -/
theorem testBit_leNat (l : List UInt8) (j : ℕ) :
    (leNat l).testBit j = (l.getD (j / 8) 0).toNat.testBit (j % 8) := by
  induction l generalizing j with
  | nil => simp [leNat]
  | cons b l ih =>
    rw [leNat, Nat.add_comm, show 256 = 2 ^ 8 from rfl, Nat.testBit_two_pow_mul_add _ b.toNat_lt]
    split_ifs with hj
    · rw [Nat.div_eq_of_lt hj, Nat.mod_eq_of_lt hj]
      rfl
    · obtain ⟨j, rfl⟩ := Nat.exists_eq_add_of_le' (Nat.le_of_not_lt hj)
      rw [Nat.add_sub_cancel, ih, Nat.add_div_right _ (by decide), Nat.add_mod_right]
      rfl

variable {k : ℕ}

theorem testBit_beNat (b : Vector UInt8 k) {i j : ℕ} (hi : i < k) (hj : j < 8) :
    (beNat b.toList).testBit (8 * (k - 1 - i) + j) = b[i].toNat.testBit j := by
  rw [beNat, testBit_leNat, Nat.mul_add_mod, Nat.mod_eq_of_lt hj, Nat.mul_add_div (by decide),
    Nat.div_eq_of_lt hj, Nat.add_zero, List.getD_eq_getElem _ _ (by simp; omega), List.getElem_reverse]
  have hr : k - 1 - (k - 1 - i) = i := by omega
  simp [hr]

theorem beNat_eq_of_testBit {b : Vector UInt8 k} {n : ℕ} (hn : n < 2 ^ (8 * k))
    (h : ∀ i, (hi : i < k) → ∀ j < 8, b[i].toNat.testBit j = n.testBit (8 * (k - 1 - i) + j)) :
    beNat b.toList = n := by
  refine Nat.eq_of_testBit_eq fun m => ?_
  by_cases hm : m < 8 * k
  · have hi : k - 1 - m / 8 < k := by omega
    have hj := Nat.mod_lt m (show 0 < 8 by decide)
    have hb : 8 * (k - 1 - (k - 1 - m / 8)) + m % 8 = m := by omega
    rw [← hb, testBit_beNat b hi hj, h _ hi _ hj]
  · have hle := Nat.pow_le_pow_right (show 0 < 2 by decide) (Nat.le_of_not_lt hm)
    have hlt := beNat_lt b.toList
    rw [Vector.length_toList] at hlt
    rw [Nat.testBit_lt_two_pow (hlt.trans_le hle), Nat.testBit_lt_two_pow (hn.trans_le hle)]

/-- Writing a number in big-endian order, and reading it back. -/
theorem beNat_byteOf (n : ℕ) :
    beNat (Vector.ofFn fun i : Fin k => byteOf n (k - 1 - i)).toList = n % 2 ^ (8 * k) := by
  refine beNat_eq_of_testBit (Nat.mod_lt _ (Nat.two_pow_pos _)) fun i hi j hj => ?_
  have hp : 256 ^ (k - 1 - i) = 2 ^ (8 * (k - 1 - i)) := by rw [Nat.pow_mul]
  have hlt : 8 * (k - 1 - i) + j < 8 * k := by omega
  rw [Nat.testBit_mod_two_pow, decide_eq_true hlt, Vector.getElem_ofFn, byteOf, UInt8.toNat_ofNat',
    hp, Nat.testBit_mod_two_pow, Nat.testBit_div_two_pow, decide_eq_true hj, Nat.add_comm]

end Bytes
