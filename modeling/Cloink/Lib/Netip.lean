import Mathlib.Data.Vector.Basic

/-!
# IP addresses and prefixes

Addresses and prefixes as the `net/netip` package has them: an address is the invalid zero value,
four bytes, or sixteen bytes with a zone; a prefix is an address without a zone and a length, absent
when the prefix is not valid.
-/

namespace Netip

open Vector

/-- An IP address: the zero value, IPv4, or IPv6 with a zone. -/
inductive Addr where
  | invalid
  | v4 (bytes : Vector UInt8 4)
  | v6 (bytes : Vector UInt8 16) (zone : String)
  deriving DecidableEq, Repr

namespace Addr

def isValid : Addr → Bool
  | invalid => false
  | _ => true

def is4 : Addr → Bool
  | v4 _ => true
  | _ => false

def is6 : Addr → Bool
  | v6 _ _ => true
  | _ => false

/-- The first twelve bytes of the addresses `::ffff:a.b.c.d`. -/
def mappedHead : List UInt8 := [0, 0, 0, 0, 0, 0, 0, 0, 0, 0, 0xff, 0xff]

/-- The address is an IPv4 address mapped into IPv6. -/
def is4In6 : Addr → Bool
  | v6 b _ => b.toList.take 12 == mappedHead
  | _ => false

/-- The IPv4 address in the last four bytes. -/
def low4 (b : Vector UInt8 16) : Vector UInt8 4 := #v[b[12], b[13], b[14], b[15]]

/-- Replaces a mapped address by the IPv4 address it holds. -/
def unmap : Addr → Addr
  | v6 b z => if b.toList.take 12 == mappedHead then v4 (low4 b) else v6 b z
  | a => a

/-- The number of bits of the address, `0` for the zero value. -/
def bitLen : Addr → Nat
  | invalid => 0
  | v4 _ => 32
  | v6 _ _ => 128

def withoutZone : Addr → Addr
  | v6 b _ => v6 b ""
  | a => a

def ipv4Unspecified : Addr := v4 (replicate 4 0)

def ipv6Unspecified : Addr := v6 (replicate 16 0) ""

variable (a : Addr)

/-- The address is `0.0.0.0` or `::` (without a zone). -/
def isUnspecified : Bool := a = ipv4Unspecified || a = ipv6Unspecified

/-- The bytes of the address, four or sixteen; none for the zero value. -/
def asSlice : Addr → List UInt8
  | invalid => []
  | v4 b => b.toList
  | v6 b _ => b.toList

/-- The IPv4 address of the four bytes. -/
def from4 (a b c d : UInt8) : Addr := v4 #v[a, b, c, d]

/-- The IPv6 address of the sixteen bytes in the list. -/
def from16 (l : List UInt8) (h : l.length = 16) (zone : String) : Addr :=
  v6 ⟨l.toArray, by simp [h]⟩ zone

/-- The address with the given bytes, of which there must be four or sixteen. -/
def ofSlice : List UInt8 → Option Addr
  | [a, b, c, d] => some (from4 a b c d)
  | l => if h : l.length = 16 then some (from16 l h "") else none

variable (n : Nat)

/-- The byte with all but its first `n` bits cleared. -/
def maskByte (b : UInt8) : UInt8 :=
  UInt8.ofNat (b.toNat / 2 ^ (8 - n) * 2 ^ (8 - n))

/-- The address without its zone and with all but its first `n` bits cleared. -/
def mask : Addr → Addr
  | invalid => invalid
  | v4 b => v4 (ofFn fun i => maskByte (n - 8 * i) b[i])
  | v6 b _ => v6 (ofFn fun i => maskByte (n - 8 * i) b[i]) ""

def hasZone : Addr → Bool
  | v6 _ z => z ≠ ""
  | _ => false

/-! ### Text form -/

/-- The lower-case hexadecimal digit of `n`. -/
def hexDigit : Char :=
  if n < 10 then Char.ofNat ('0'.toNat + n) else Char.ofNat ('a'.toNat + (n - 10))

/-- A group of sixteen bits in hexadecimal without leading zeros. -/
def hexGroup : List Char :=
  if n < 16 then [hexDigit n]
  else if n < 256 then [hexDigit (n / 16), hexDigit (n % 16)]
  else if n < 4096 then [hexDigit (n / 256), hexDigit (n / 16 % 16), hexDigit (n % 16)]
  else [hexDigit (n / 4096), hexDigit (n / 256 % 16), hexDigit (n / 16 % 16), hexDigit (n % 16)]

def decByte (b : UInt8) : List Char := b.toNat.repr.toList

def dotted (b : Vector UInt8 4) : List Char :=
  List.intercalate ['.'] (b.toList.map decByte)

def groups : List UInt8 → List Nat
  | hi :: lo :: l => (hi.toNat * 256 + lo.toNat) :: groups l
  | _ => []

/-- The length of the run of zero groups at the head. -/
def zeroRun : List Nat → Nat
  | 0 :: l => zeroRun l + 1
  | _ => 0

/-- The start and length of the first longest run of zero groups, of those with at least two
groups; `best` is the run found in front of position `i`. -/
def longestZeroRun : List Nat → Nat → Option (Nat × Nat) → Option (Nat × Nat)
  | [], _, best => best
  | l@(_ :: t), i, best =>
    let n := zeroRun l
    let best := if 2 ≤ n && (best.elim 0 Prod.snd) < n then some (i, n) else best
    longestZeroRun t (i + 1) best

def colons (l : List Nat) : List Char := List.intercalate [':'] (l.map hexGroup)

/-- Eight groups with the first longest run of zero groups written `::`. -/
def hexText (l : List Nat) : List Char :=
  match longestZeroRun l 0 none with
  | some (i, n) => colons (l.take i) ++ [':', ':'] ++ colons (l.drop (i + n))
  | none => colons l

def zoneText (zone : String) : List Char := if zone = "" then [] else '%' :: zone.toList

def text : Addr → List Char
  | invalid => "invalid IP".toList
  | v4 b => dotted b
  | v6 b z =>
    if b.toList.take 12 == mappedHead then "::ffff:".toList ++ dotted (low4 b) ++ zoneText z
    else hexText (groups b.toList) ++ zoneText z

def string : String := String.ofList a.text

/-! ### Mapped addresses -/

theorem unmap_unmap : a.unmap.unmap = a.unmap := by
  cases a with
  | invalid => rfl
  | v4 b => rfl
  | v6 b z => by_cases h : b.toList.take 12 = mappedHead <;> simp [unmap, h]

theorem is4In6_unmap : a.unmap.is4In6 = false := by
  cases a with
  | invalid => rfl
  | v4 b => rfl
  | v6 b z => by_cases h : b.toList.take 12 = mappedHead <;> simp [unmap, is4In6, h]

@[simp] theorem bitLen_mask : (a.mask n).bitLen = a.bitLen := by
  cases a <;> rfl

@[simp] theorem bitLen_withoutZone : a.withoutZone.bitLen = a.bitLen := by
  cases a <;> rfl

theorem withoutZone_of_not_hasZone {a : Addr} (h : a.hasZone = false) : a.withoutZone = a := by
  cases a <;> simp_all [withoutZone, hasZone]

/-! ### Masks -/

/-- A masked byte as a number. -/
theorem toNat_maskByte (b : UInt8) :
    (maskByte n b).toNat = b.toNat / 2 ^ (8 - n) * 2 ^ (8 - n) := by
  have hle : b.toNat / 2 ^ (8 - n) * 2 ^ (8 - n) ≤ b.toNat := Nat.div_mul_le_self _ _
  simpa [maskByte] using hle.trans_lt b.toNat_lt

theorem maskByte_maskByte {n n' : Nat} (h : n ≤ n') (b : UInt8) :
    maskByte n (maskByte n' b) = maskByte n b := by
  have hp : 2 ^ (8 - n) = 2 ^ (8 - n') * 2 ^ (n' - n - (n' - 8)) := by
    rw [← Nat.pow_add]
    congr 1
    omega
  have hd : b.toNat / 2 ^ (8 - n') * 2 ^ (8 - n') / 2 ^ (8 - n) = b.toNat / 2 ^ (8 - n) := by
    rw [hp, Nat.mul_comm, Nat.mul_div_mul_left _ _ (Nat.two_pow_pos _), Nat.div_div_eq_div_mul]
  rw [maskByte, toNat_maskByte, hd, maskByte]

theorem maskByte_of_le {n : Nat} (h : 8 ≤ n) (b : UInt8) : maskByte n b = b := by
  simp [maskByte, Nat.sub_eq_zero_of_le h]

/-- The shorter of two masks counts. -/
theorem mask_mask_of_le {n n' : Nat} (h : n ≤ n') (a : Addr) : (a.mask n').mask n = a.mask n := by
  cases a with
  | invalid => rfl
  | v4 b => simp [mask, maskByte_maskByte (Nat.sub_le_sub_right h _)]
  | v6 b z => simp [mask, maskByte_maskByte (Nat.sub_le_sub_right h _)]

@[simp] theorem mask_mask : (a.mask n).mask n = a.mask n :=
  mask_mask_of_le le_rfl a

/-- A mask of 96 bits or more keeps the first twelve bytes, which tell a mapped address. -/
theorem is4In6_mask {n : Nat} (h : 96 ≤ n) (a : Addr) : (a.mask n).is4In6 = a.is4In6 := by
  cases a with
  | invalid => rfl
  | v4 b => rfl
  | v6 b z =>
    have hh : (ofFn fun i : Fin 16 => maskByte (n - 8 * i) b[i]).toList.take 12 =
        b.toList.take 12 := by
      refine List.ext_getElem (by simp) fun i hi _ => ?_
      have hi12 : i < 12 := by simpa using hi
      simp [maskByte_of_le (show 8 ≤ n - 8 * i by omega)]
    simp only [mask, is4In6, hh]

end Addr

/-- An address without a zone and a prefix length; a prefix without a length is not valid. -/
structure Prefix where
  addr : Addr
  bits : Option Nat
  deriving DecidableEq, Repr

namespace Prefix

/-- The zero value, which is not valid. -/
def zero : Prefix := ⟨.invalid, none⟩

instance : Inhabited Prefix := ⟨zero⟩

variable (p : Prefix)

def isValid : Bool := p.bits.isSome

/-- The prefix with the bits behind its length cleared. -/
def masked : Prefix :=
  match p.bits with
  | some n => ⟨p.addr.mask n, some n⟩
  | none => zero

/-- The address lies in the prefix; an address with a zone lies in none. -/
def contains (a : Addr) : Bool :=
  match p.bits with
  | some n => !a.hasZone && p.addr.bitLen == a.bitLen && a.mask n == p.addr.mask n
  | none => false

/-- The prefix lies among the addresses that map IPv4 into IPv6. -/
def isMapped : Bool :=
  match p.bits with
  | some n => p.addr.is4In6 && 96 ≤ n
  | none => false

/-- Replaces a prefix of mapped addresses by the prefix of the IPv4 addresses they hold. -/
def unmap : Prefix :=
  if p.isMapped then ⟨p.addr.unmap, p.bits.map (· - 96)⟩ else p

def text : List Char :=
  match p.bits with
  | some n => p.addr.text ++ '/' :: n.repr.toList
  | none => "invalid Prefix".toList

def string : String := String.ofList p.text

/-- The host bits of a prefix do not matter. -/
theorem contains_masked (a : Addr) : p.masked.contains a = p.contains a := by
  obtain ⟨ip, _ | n⟩ := p
  · rfl
  · simp [masked, contains]

variable {a : Addr} {p : Prefix}

theorem contains_of_isMapped (hp : p.isMapped) (ha : a.is4In6 = false) : p.contains a = false := by
  obtain ⟨ip, _ | n⟩ := p
  · rfl
  · obtain ⟨hip, hn⟩ : ip.is4In6 ∧ 96 ≤ n := by simpa [isMapped] using hp
    rw [Bool.eq_false_iff]
    intro hc
    have hms : a.mask n = ip.mask n := by simp_all [contains]
    have hm : a.is4In6 := by
      rw [← Addr.is4In6_mask hn, hms, Addr.is4In6_mask hn, hip]
    exact absurd hm (by simp [ha])

/-- Membership survives unmapping. -/
theorem contains_unmap (ha : a.is4In6 = false) (h : p.contains a) :
    p.unmap.contains a.withoutZone := by
  by_cases hp : p.isMapped
  · exact absurd h (by simp [contains_of_isMapped hp ha])
  · have hz : a.hasZone = false := by
      obtain ⟨ip, _ | n⟩ := p <;> simp_all [contains]
    rwa [unmap, if_neg hp, Addr.withoutZone_of_not_hasZone hz]

/-- The converse, without zones. -/
theorem contains_of_unmap (hp : p.isMapped = false) (ha : a.hasZone = false)
    (h : p.unmap.contains a.withoutZone) : p.contains a := by
  rwa [unmap, if_neg (by simp [hp]), Addr.withoutZone_of_not_hasZone ha] at h

end Prefix

/-- The prefix of `n` bits of `a`; not valid when `a` is the zero value or `n` is too large. -/
def prefixFrom (a : Addr) (n : Nat) : Prefix :=
  ⟨a.withoutZone, if a.isValid && n ≤ a.bitLen then some n else none⟩

end Netip
