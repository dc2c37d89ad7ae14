import Mathlib.Data.List.Basic

/-!
# Base64

The standard encoding of bytes with padding, and its decoder as the `encoding/base64` package has
it: line breaks are skipped wherever they stand, padding may only end the text, and the bits that
padding leaves over are not looked at.
-/

namespace Base64

/-- The character that stands for six bits. -/
def sextet (n : Nat) : Char :=
  if n < 26 then Char.ofNat ('A'.toNat + n)
  else if n < 52 then Char.ofNat ('a'.toNat + (n - 26))
  else if n < 62 then Char.ofNat ('0'.toNat + (n - 52))
  else if n = 62 then '+'
  else '/'

/-- The six bits a character stands for. -/
def value (c : Char) : Option Nat :=
  if 'A' ≤ c && c ≤ 'Z' then some (c.toNat - 'A'.toNat)
  else if 'a' ≤ c && c ≤ 'z' then some (c.toNat - 'a'.toNat + 26)
  else if '0' ≤ c && c ≤ '9' then some (c.toNat - '0'.toNat + 52)
  else if c = '+' then some 62
  else if c = '/' then some 63
  else none

def encodeBytes : List UInt8 → List Char
  | [] => []
  | [a] => [sextet (a.toNat / 4), sextet (a.toNat % 4 * 16), '=', '=']
  | [a, b] =>
    [sextet (a.toNat / 4), sextet (a.toNat % 4 * 16 + b.toNat / 16), sextet (b.toNat % 16 * 4), '=']
  | a :: b :: c :: l =>
    sextet (a.toNat / 4) :: sextet (a.toNat % 4 * 16 + b.toNat / 16) ::
      sextet (b.toNat % 16 * 4 + c.toNat / 64) :: sextet (c.toNat % 64) :: encodeBytes l

/-- The first byte of a quantum, from its first two characters. -/
def byte1 (x y : Nat) : UInt8 := UInt8.ofNat (x * 4 + y / 16)

/-- The second byte of a quantum, from its second and third character. -/
def byte2 (y z : Nat) : UInt8 := UInt8.ofNat (y % 16 * 16 + z / 4)

/-- The third byte of a quantum, from its last two characters. -/
def byte3 (z w : Nat) : UInt8 := UInt8.ofNat (z % 4 * 64 + w)

/-- Decodes text without line breaks, four characters at a time. -/
def decodeQuanta : List Char → Option (List UInt8)
  | [] => some []
  | c :: d :: e :: f :: l =>
    match value c, value d with
    | some x, some y =>
      match value e, value f with
      | some z, some w => (decodeQuanta l).map ([byte1 x y, byte2 y z, byte3 z w] ++ ·)
      | some z, none => if f = '=' && l.isEmpty then some [byte1 x y, byte2 y z] else none
      | none, _ => if e = '=' && f = '=' && l.isEmpty then some [byte1 x y] else none
    | _, _ => none
  | _ => none

def encode (l : List UInt8) : String := String.ofList (encodeBytes l)

def decode (s : String) : Option (List UInt8) :=
  decodeQuanta (s.toList.filter fun c => c ≠ '\r' && c ≠ '\n')

end Base64
