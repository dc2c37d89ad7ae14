import Cloink.Lib.Netip
import Cloink.Lib.Strconv

/-!
# Reading IP addresses and prefixes

`ParseAddr` and `ParsePrefix` of `net/netip`, with an error as the absence of a result. The loops
of the package are recursions on the characters that are left.
-/

namespace Netip

open Option

/-! ### IPv4 -/

/-- The four numbers between dots; `fields` are the complete ones, and `val` is the value of the
`digLen` digits read of the current one. -/
def parseIPv4Fields : List Char → List UInt8 → Nat → Nat → Option (List UInt8)
  | [], fields, val, _ =>
    if fields.length < 3 then none else some (fields ++ [UInt8.ofNat val])
  | c :: cs, fields, val, digLen =>
    if c.isDigit then
      if digLen = 1 && val = 0 then none
      else
        let val := val * 10 + (c.toNat - '0'.toNat)
        if val > 255 then none else parseIPv4Fields cs fields val (digLen + 1)
    else if c = '.' then
      if digLen = 0 || cs.isEmpty then none
      else if fields.length = 3 then none
      else parseIPv4Fields cs (fields ++ [UInt8.ofNat val]) 0 0
    else none

variable (s : List Char)

def parseIPv4 : Option Addr :=
  match parseIPv4Fields s [] 0 0 with
  | some [a, b, c, d] => some (.from4 a b c d)
  | _ => none

/-! ### IPv6 -/

def hexVal (c : Char) : Option Nat :=
  if c.isDigit then some (c.toNat - '0'.toNat)
  else if 'a' ≤ c && c ≤ 'f' then some (c.toNat - 'a'.toNat + 10)
  else if 'A' ≤ c && c ≤ 'F' then some (c.toNat - 'A'.toNat + 10)
  else none

/-- The hexadecimal digits at the head, at most four: their value, their number and the rest. -/
def hexField : List Char → Nat → Nat → Option (Nat × Nat × List Char)
  | [], acc, off => some (acc, off, [])
  | c :: cs, acc, off =>
    match hexVal c with
    | some d => if off > 3 then none else hexField cs (acc * 16 + d) (off + 1)
    | none => some (acc, off, c :: cs)

/-- The fields between colons, at most the given number: the bytes read, the position of the `::`
and the characters left. -/
def ipv6Fields : Nat → List Char → List UInt8 → Option Nat →
    Option (List UInt8 × Option Nat × List Char)
  | 0, s, bytes, ellipsis => some (bytes, ellipsis, s)
  | k + 1, s, bytes, ellipsis =>
    match hexField s 0 0 with
    | none => none
    | some (acc, off, rest) =>
      let bytes' := bytes ++ [UInt8.ofNat (acc / 256), UInt8.ofNat (acc % 256)]
      if off = 0 then none
      else match rest with
        | [] => some (bytes', ellipsis, [])
        | '.' :: _ =>
          -- an IPv4 address in place of the last two fields
          if ellipsis.isNone && bytes.length ≠ 12 then none
          else if bytes.length + 4 > 16 then none
          else (parseIPv4Fields s [] 0 0).map fun f => (bytes ++ f, ellipsis, [])
        | [_] => none
        | c :: d :: rest =>
          if c ≠ ':' then none
          else if d = ':' then
            if ellipsis.isSome then none
            else if rest.isEmpty then some (bytes', some bytes'.length, [])
            else ipv6Fields k rest bytes' (some bytes'.length)
          else ipv6Fields k (d :: rest) bytes' ellipsis

/-- The bytes of the address, with the zero fields that `::` stands for. -/
def expandEllipsis (bytes : List UInt8) (ellipsis : Option Nat) : Option (List UInt8) :=
  if bytes.length < 16 then
    ellipsis.map fun e =>
      bytes.take e ++ List.replicate (16 - bytes.length) 0 ++ bytes.drop e
  else if ellipsis.isSome then none
  else some bytes

def addrFrom16 (bytes : List UInt8) (zone : String) : Option Addr :=
  if h : bytes.length = 16 then some (.from16 bytes h zone) else none

/-- The sixteen bytes of the text in front of the zone. -/
def parseIPv6Bytes : Option (List UInt8) :=
  let parse (s : List Char) (ellipsis : Option Nat) : Option (List UInt8) :=
    match ipv6Fields 8 s [] ellipsis with
    | some (bytes, ellipsis, []) => expandEllipsis bytes ellipsis
    | _ => none
  match s with
  | [':', ':'] => some (List.replicate 16 0)
  | ':' :: ':' :: rest => parse rest (some 0)
  | _ => parse s none

def parseIPv6 : Option Addr :=
  let addr := s.takeWhile (· ≠ '%')
  let zone := (s.dropWhile (· ≠ '%')).drop 1
  if s.contains '%' && zone.isEmpty then none
  else (parseIPv6Bytes addr).bind fun bytes => addrFrom16 bytes (String.ofList zone)

/-! ### Addresses and prefixes -/

/-- The first dot, colon or percent sign decides how the text is read. -/
def parseAddrChars : Option Addr :=
  match s.find? fun c => c = '.' || c = ':' || c = '%' with
  | some '.' => parseIPv4 s
  | some ':' => parseIPv6 s
  | _ => none

def parseAddr (s : String) : Option Addr := parseAddrChars s.toList

theorem isValid_of_parseAddr {s : String} {a : Addr} (h : parseAddr s = some a) : a.isValid := by
  have hv4 : ∀ {l}, parseIPv4 l = some a → a.isValid := by
    intro l hl
    unfold parseIPv4 at hl
    split at hl
    · exact some.inj hl ▸ rfl
    · cases hl
  have hv6 : ∀ {l}, parseIPv6 l = some a → a.isValid := by
    intro l hl
    simp only [parseIPv6, addrFrom16, ite_none_left_eq_some, bind_eq_some_iff,
      dite_none_right_eq_some] at hl
    obtain ⟨-, bytes, -, hln, hb⟩ := hl
    exact some.inj hb ▸ rfl
  unfold parseAddr parseAddrChars at h
  split at h
  · exact hv4 h
  · exact hv6 h
  · cases h

/-- The text behind the last slash, and the one in front of it. -/
def splitLastSlash : Option (List Char × List Char) :=
  let bits := s.reverse.takeWhile (· ≠ '/')
  match s.reverse.dropWhile (· ≠ '/') with
  | [] => none
  | _ :: addr => some (addr.reverse, bits.reverse)

def parsePrefix (s : String) : Option Prefix :=
  match splitLastSlash s.toList with
  | none => none
  | some (addr, bits) =>
    match parseAddrChars addr with
    | none => none
    | some ip =>
      if ip.hasZone then none
      else if 1 < bits.length && !(bits.head?.elim false fun c => '1' ≤ c && c ≤ '9') then none
      else match Strconv.atoi (String.ofList bits) with
        | none => none
        | some n =>
          if n < 0 || (if ip.is6 then 128 else 32) < n then none
          else some (prefixFrom ip n.toNat)

example : parseAddr "::ffff:1.2.3.4" =
    some (.v6 #v[0, 0, 0, 0, 0, 0, 0, 0, 0, 0, 0xff, 0xff, 1, 2, 3, 4] "") := by decide +kernel

example : parseAddr "fd00::1:2" =
    some (.v6 #v[0xfd, 0, 0, 0, 0, 0, 0, 0, 0, 0, 0, 0, 0, 1, 0, 2] "") := by decide +kernel

end Netip
