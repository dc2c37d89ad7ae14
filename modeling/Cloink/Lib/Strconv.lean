import Mathlib.Data.Nat.Digits.Defs

/-!
# Decimal numbers in text

The conversions of the `strconv` package between decimal text and integers. `parseUint` accepts a
non-empty sequence of digits, `atoi` also one sign in front of them; numbers that do not fit the
requested width are rejected.
-/

namespace Strconv

open Option

def digitVal (c : Char) : Option Nat := if c.isDigit then some (c.toNat - '0'.toNat) else none

/-- The number whose decimal digits are those of `n` followed by the given characters. -/
def digitsVal : List Char → Nat → Option Nat
  | [], n => some n
  | c :: l, n => (digitVal c).bind fun d => digitsVal l (10 * n + d)

/-- The number written by a non-empty list of digits. -/
def decVal (l : List Char) : Option Nat := if l.isEmpty then none else digitsVal l 0

def parseUint (bits : Nat) (s : String) : Option Nat :=
  (decVal s.toList).filter (· < 2 ^ bits)

/-- `Atoi(s)`, on a platform whose integers have 64 bits. -/
def atoi (s : String) : Option Int :=
  let signed (neg : Bool) (l : List Char) : Option Int :=
    ((decVal l).map fun n : Nat => if neg then -(n : Int) else (n : Int)).filter
      fun n => -(2 ^ 63) ≤ n && n < 2 ^ 63
  match s.toList with
  | '-' :: l => signed true l
  | '+' :: l => signed false l
  | l => signed false l

/-! ### Digits -/

theorem digitVal_eq_some {c : Char} (h : c.isDigit) : digitVal c = some (c.toNat - '0'.toNat) :=
  if_pos h

theorem digitsVal_of_isDigit {l : List Char} (h : ∀ c ∈ l, c.isDigit) (n : Nat) :
    digitsVal l n = some (Nat.ofDigitChars 10 l n) := by
  induction l generalizing n with
  | nil => simp [digitsVal]
  | cons c l ih =>
    rw [digitsVal, digitVal_eq_some (h c List.mem_cons_self), bind_some,
      ih fun d hd => h d (List.mem_cons_of_mem c hd), Nat.ofDigitChars_cons]

theorem decVal_toDigits (n : Nat) : decVal (Nat.toDigits 10 n) = some n := by
  have hd : ∀ c ∈ Nat.toDigits 10 n, c.isDigit := fun c hc =>
    Nat.isDigit_of_mem_toDigits (by omega) (by omega) hc
  have hne : (Nat.toDigits 10 n).isEmpty = false := by simp
  rw [decVal, hne, if_neg (by simp), digitsVal_of_isDigit hd,
    Nat.ofDigitChars_toDigits (by omega) (by omega)]

variable {bits n : Nat}

/-- A number that is printed is read back. -/
theorem parseUint_repr (h : n < 2 ^ bits) : parseUint bits n.repr = some n := by
  rw [parseUint, Nat.toList_repr, decVal_toDigits]
  exact filter_eq_some_iff.2 ⟨rfl, decide_eq_true h⟩

/-! ### Signs -/

theorem decVal_of_parseUint {s : String} (h : parseUint bits s = some n) :
    decVal s.toList = some n ∧ n < 2 ^ bits ∧ ∀ c l, s.toList = c :: l → c.isDigit := by
  obtain ⟨hv, hlt⟩ : decVal s.toList = some n ∧ n < 2 ^ bits := by
    simpa [parseUint, filter_eq_some_iff] using h
  refine ⟨hv, hlt, fun c l hl => ?_⟩
  by_contra hc
  simp [hl, decVal, digitsVal, digitVal, hc] at hv

theorem atoi_of_parseUint {s : String} (h : parseUint bits s = some n) (hb : bits ≤ 63) :
    atoi s = some (n : Int) := by
  obtain ⟨hv, hlt, hd⟩ := decVal_of_parseUint h
  have h63 : n < 2 ^ 63 := hlt.trans_le (Nat.pow_le_pow_right (by omega) hb)
  unfold atoi
  split
  · exact absurd (hd _ _ ‹_›) (by decide)
  · exact absurd (hd _ _ ‹_›) (by decide)
  · simp only [hv, map_some, Bool.false_eq_true, if_false]
    exact filter_eq_some_iff.2 ⟨rfl, by simp; omega⟩

/-- `ParseUint` reads what `Atoi` does, without a plus sign. -/
theorem parseUint_eq_some_iff {s : String} (hb : bits ≤ 63) (hn : 0 < n) :
    parseUint bits s = some n ↔
      atoi s = some (n : Int) ∧ n < 2 ^ bits ∧ s.toList.head? ≠ some '+' := by
  constructor
  · intro h
    obtain ⟨-, hlt, hd⟩ := decVal_of_parseUint h
    refine ⟨atoi_of_parseUint h hb, hlt, fun hh => ?_⟩
    obtain ⟨l, hl⟩ := List.head?_eq_some_iff.1 hh
    exact absurd (hd _ _ hl) (by decide)
  · rintro ⟨h, hlt, hp⟩
    unfold atoi at h
    split at h
    · -- a minus sign: the number is not positive
      simp only [filter_eq_some_iff, map_eq_some_iff, if_true] at h
      obtain ⟨⟨m, -, hm⟩, -⟩ := h
      omega
    · rename_i l hl
      exact absurd (by rw [hl]; rfl) hp
    · simp only [filter_eq_some_iff, map_eq_some_iff, Bool.false_eq_true, if_false] at h
      obtain ⟨⟨m, hm, hmn⟩, -⟩ := h
      obtain rfl : m = n := by exact_mod_cast hmn
      exact filter_eq_some_iff.2 ⟨hm, decide_eq_true hlt⟩

end Strconv
