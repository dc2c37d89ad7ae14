import Cloink.Lib.Netip

/-!
# Compact encoding of prefixes

The encoding of IP prefixes in the messages of the management service (`netiputil`): the four or
sixteen bytes of the address, then one byte with the prefix length. Addresses are unmapped before
they are encoded.
-/

namespace Netip

namespace Addr

theorem withoutZone_withoutZone (a : Addr) : a.withoutZone.withoutZone = a.withoutZone := by
  cases a <;> rfl

theorem isValid_withoutZone (a : Addr) : a.withoutZone.isValid = a.isValid := by
  cases a <;> rfl

theorem isValid_unmap (a : Addr) : a.unmap.isValid = a.isValid := by
  cases a with
  | invalid => rfl
  | v4 b => rfl
  | v6 b z =>
    unfold unmap
    dsimp only
    split <;> rfl

theorem unmap_withoutZone (a : Addr) : a.withoutZone.unmap = a.unmap.withoutZone := by
  cases a with
  | invalid => rfl
  | v4 b => rfl
  | v6 b z =>
    simp only [withoutZone, unmap]
    split <;> rfl

/-- The bytes of an address lose its zone only. -/
theorem ofSlice_asSlice {a : Addr} (h : a.isValid) : ofSlice a.asSlice = some a.withoutZone := by
  cases a with
  | invalid => cases h
  | v4 b =>
    obtain ⟨⟨l⟩, hl⟩ := b
    match l, hl with
    | [x, y, z, w], _ => rfl
  | v6 b z =>
    have hln : b.toList.length = 16 := by simp
    have hne : ∀ x y z w, b.toList ≠ [x, y, z, w] := fun x y z w he => by simp [he] at hln
    unfold asSlice ofSlice
    split
    · exact absurd ‹_› (hne _ _ _ _)
    · rw [dif_pos hln]
      exact congrArg (fun v => some (v6 v "")) (Vector.toArray_inj.1 Array.toArray_toList)

end Addr

theorem prefixFrom_withoutZone (a : Addr) (n : Nat) : prefixFrom a.withoutZone n = prefixFrom a n := by
  simp [prefixFrom, Addr.withoutZone_withoutZone, Addr.bitLen_withoutZone, Addr.isValid_withoutZone]

end Netip

namespace Cloink

open Netip List Addr

/-- The address is unmapped and the length put behind its bytes; an invalid prefix has length
`-1`, which is the byte 255. -/
def encodePrefix (p : Prefix) : Option (List UInt8) :=
  let addr := p.addr.unmap
  if addr.is4 && 32 < p.bits.getD 0 then none
  else some (addr.asSlice ++ [p.bits.elim 255 UInt8.ofNat])

def decodePrefix (b : List UInt8) : Option Prefix :=
  if b.length = 5 then
    let bits := (b.getLastD 0).toNat
    if 32 < bits then none else (ofSlice b.dropLast).map (prefixFrom · bits)
  else if b.length = 17 then
    (ofSlice b.dropLast).bind fun ip6 =>
      let addr := ip6.unmap
      let bits := (b.getLastD 0).toNat
      if addr.is4 then if 32 < bits then none else some (prefixFrom addr bits)
      else if 128 < bits then none
      else some (prefixFrom addr bits)
  else none

def encodeAddr (a : Addr) : Option (List UInt8) :=
  let a := a.unmap
  encodePrefix (prefixFrom a (if a.is4 then 32 else 128))

def decodeAddr (b : List UInt8) : Option Addr := (decodePrefix b).map (·.addr)

/-- An address and a length decode to their prefix. -/
theorem decodePrefix_append {a : Addr} (hv : a.isValid) (hu : a.unmap = a) {n : Nat}
    (hn : n ≤ a.bitLen) : decodePrefix (a.asSlice ++ [UInt8.ofNat n]) = some (prefixFrom a n) := by
  have hs := ofSlice_asSlice hv
  have hb : (UInt8.ofNat n).toNat = n := by
    have hle : a.bitLen ≤ 128 := by cases a <;> simp [bitLen]
    exact UInt8.toNat_ofNat_of_lt (show n < 256 by omega)
  unfold decodePrefix
  cases a with
  | invalid => cases hv
  | v4 b =>
    have h4 : (v4 b).asSlice.length = 4 := by simp [asSlice]
    have hn' : ¬32 < n := by simpa [bitLen] using hn
    rw [if_pos (by simp [h4])]
    simp [hb, hs, if_neg hn', prefixFrom_withoutZone]
  | v6 b z =>
    have h16 : (v6 b z).asSlice.length = 16 := by simp [asSlice]
    have hn' : ¬128 < n := by simpa [bitLen] using hn
    have hun : (v6 b z).withoutZone.unmap = (v6 b z).withoutZone := by
      rw [unmap_withoutZone, hu]
    rw [if_neg (by simp [h16]), if_pos (by simp [h16])]
    simp only [getLastD_concat, dropLast_concat, hb, hs, Option.bind_some, hun,
      if_neg hn', prefixFrom_withoutZone]
    rfl

/-- The round trip of a prefix. -/
theorem decodePrefix_encodePrefix {p : Prefix} {n : Nat} (hp : p.bits = some n)
    (hv : p.addr.isValid) (hn : n ≤ p.addr.unmap.bitLen) :
    (encodePrefix p).bind decodePrefix = some (prefixFrom p.addr.unmap n) := by
  have hok : ¬(p.addr.unmap.is4 && decide (32 < (some n).getD 0)) = true := by
    cases ha : p.addr.unmap with
    | v4 b =>
      have hle : n ≤ 32 := by rw [ha] at hn; exact hn
      simpa [is4] using hle
    | invalid => simp [is4]
    | v6 b z => simp [is4]
  unfold encodePrefix
  rw [hp, if_neg hok]
  exact decodePrefix_append ((isValid_unmap _).trans hv) (unmap_unmap _) hn

/-- An address comes back as its host prefix. -/
theorem decodePrefix_encodeAddr {a : Addr} (hv : a.isValid) :
    (encodeAddr a).bind decodePrefix = some (prefixFrom a.unmap a.unmap.bitLen) := by
  have hv' : a.unmap.isValid := (isValid_unmap a).trans hv
  have hb : (if a.unmap.is4 then 32 else 128) = a.unmap.bitLen := by
    cases ha : a.unmap with
    | invalid => simp [ha, isValid] at hv'
    | v4 b => rfl
    | v6 b z => rfl
  unfold encodeAddr
  dsimp only
  rw [hb, decodePrefix_encodePrefix (n := a.unmap.bitLen)]
  · change some (prefixFrom a.unmap.withoutZone.unmap _) = _
    rw [unmap_withoutZone, unmap_unmap, prefixFrom_withoutZone]
  · simp [prefixFrom, hv']
  · exact (isValid_withoutZone _).trans hv'
  · change _ ≤ a.unmap.withoutZone.unmap.bitLen
    rw [unmap_withoutZone, unmap_unmap, bitLen_withoutZone]

end Cloink
