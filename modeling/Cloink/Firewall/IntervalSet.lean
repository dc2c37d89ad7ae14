import Cloink.Lib.Bytes
import Cloink.Lib.Netip

/-!
# Interval sets

The nftables backend keeps prefixes in sets of half-open intervals
(`client/firewall/nftables/ipset_linux.go`). It first merges the prefixes, looking only at the last
one that is merged, and then gives each as a first key and the key behind the last address. There is
no such key when the last address is the last of all, which only a prefix of no bits expects.
-/

namespace Cloink.Firewall

open Netip Bytes Option Addr Vector

/-! ### Merged prefixes -/

/-- One round of the loop of `MergeIPRanges`; the last of the merged prefixes stands apart. -/
def mergeNext (merged : List Prefix × Prefix) (p : Prefix) : List Prefix × Prefix :=
  if merged.2.contains p.addr then merged
  else if p.contains merged.2.addr then (merged.1, p)
  else (merged.1 ++ [merged.2], p)

def mergeIPRanges : List Prefix → List Prefix
  | [] => []
  | p :: prefixes => let merged := prefixes.foldl mergeNext ([], p); merged.1 ++ [merged.2]

/-- Two prefixes of a family have a common address. -/
def overlap (p q : Prefix) : Bool := p.contains q.addr || q.contains p.addr

/-- The round keeps the merged prefixes exact: a prefix whose base is in the last one has addresses of
the merged ones only, and any other overlaps none of them but the last. -/
def Fits (merged : List Prefix × Prefix) (p : Prefix) : Prop :=
  if merged.2.contains p.addr then
    ∀ a, p.contains a = true → ∃ q ∈ merged.1 ++ [merged.2], q.contains a = true
  else ∀ q ∈ merged.1, overlap q p = false

/-- Every round of the loop does. -/
def FitFrom (merged : List Prefix × Prefix) : List Prefix → Prop
  | [] => True
  | p :: l => Fits merged p ∧ FitFrom (mergeNext merged p) l

def Fit : List Prefix → Prop
  | [] => True
  | p :: l => FitFrom ([], p) l

/-- The prefixes that overlap a prefix follow it directly, and those with their base in it are not
larger. -/
def Grouped : List Prefix → Prop
  | [] => True
  | p :: l => (∀ q ∈ l, p.contains q.addr → p.bits.getD 0 ≤ q.bits.getD 0) ∧
      (∀ q ∈ l.dropWhile (overlap p), overlap p q = false) ∧ Grouped l

/-- The prefix is valid, and its addresses have so many bits. -/
structure OfFamily (w : ℕ) (p : Prefix) : Prop where
  valid : p.isValid = true
  bitLen : p.addr.bitLen = w
  noZone : p.addr.hasZone = false

variable {w : ℕ} {p q : Prefix} {a : Addr}

variable (hp : OfFamily w p)

include hp

theorem contains_iff (ha : a.hasZone = false) (hl : a.bitLen = w) :
    p.contains a ↔ a.mask (p.bits.getD 0) = p.addr.mask (p.bits.getD 0) := by
  obtain ⟨n, hn⟩ := isSome_iff_exists.1 hp.valid
  simp [Prefix.contains, hn, ha, hl, hp.bitLen]

theorem family_of_contains (h : p.contains a) : a.hasZone = false ∧ a.bitLen = w := by
  obtain ⟨n, hn⟩ := isSome_iff_exists.1 hp.valid
  have hl := hp.bitLen
  simp only [Prefix.contains, hn, Bool.and_eq_true, Bool.not_eq_true', beq_iff_eq] at h
  exact ⟨h.1.1, h.1.2.symm.trans hl⟩

theorem contains_of_common (hq : OfFamily w q)
    (hle : p.bits.getD 0 ≤ q.bits.getD 0) (hpa : p.contains a) (hqa : q.contains a)
    {b : Addr} (hb : q.contains b) : p.contains b := by
  obtain ⟨ha, hln⟩ := family_of_contains hp hpa
  obtain ⟨hz, hl⟩ := family_of_contains hq hb
  rw [contains_iff hp ha hln] at hpa
  rw [contains_iff hq ha hln] at hqa
  rw [contains_iff hq hz hl] at hb
  rw [contains_iff hp hz hl, ← mask_mask_of_le hle, hb, ← hqa, mask_mask_of_le hle, hpa]

theorem contains_addr : p.contains p.addr :=
  (contains_iff hp hp.noZone hp.bitLen).2 rfl

/-- Prefixes overlap exactly when they share an address. -/
theorem overlap_iff (hq : OfFamily w q) : overlap p q ↔ ∃ a, p.contains a ∧ q.contains a := by
  rw [overlap, Bool.or_eq_true]
  constructor
  · rintro (h | h)
    · exact ⟨_, h, contains_addr hq⟩
    · exact ⟨_, contains_addr hp, h⟩
  · rintro ⟨a, hpa, hqa⟩
    obtain hle | hle := Nat.le_total (p.bits.getD 0) (q.bits.getD 0)
    · exact .inl (contains_of_common hp hq hle hpa hqa (contains_addr hq))
    · exact .inr (contains_of_common hq hp hle hqa hpa (contains_addr hp))

omit hp

/-- The merged prefixes have no common address, and have the addresses of others. -/
structure Exact (prefixes merged : List Prefix) : Prop where
  disjoint : merged.Pairwise fun p q => ∀ a, p.contains a = true → q.contains a = false
  covers : ∀ a, (∃ p ∈ merged, p.contains a = true) ↔ ∃ p ∈ prefixes, p.contains a = true

theorem disjoint_iff (hp : OfFamily w p) (hq : OfFamily w q) :
    (∀ a, p.contains a = true → q.contains a = false) ↔ overlap p q = false := by
  rw [← Bool.not_eq_true, overlap_iff hp hq]
  simp

/-- A prefix that has the base of another, which does not have its own, contains the other. -/
theorem contains_of_replaces (hp : OfFamily w p) (hq : OfFamily w q) (hn : ¬p.contains q.addr)
    (hc : q.contains p.addr) (h : p.contains a) : q.contains a := by
  obtain hle | hle := Nat.le_total (q.bits.getD 0) (p.bits.getD 0)
  · exact contains_of_common hq hp hle hc (contains_addr hp) h
  · exact absurd (contains_of_common hp hq hle (contains_addr hp) hc (contains_addr hq)) hn

theorem exists_mem_concat {l : List Prefix} :
    (∃ p ∈ l ++ [q], p.contains a) ↔ (∃ p ∈ l, p.contains a) ∨ q.contains a := by
  simp [or_and_right, exists_or]

variable {merged : List Prefix × Prefix} {pre : List Prefix}

/-- A round keeps the merged prefixes exact if and only if its prefix fits. -/
theorem exact_mergeNext_iff (hm : ∀ p ∈ merged.1 ++ [merged.2], OfFamily w p) (hq : OfFamily w q)
    (h : Exact pre (merged.1 ++ [merged.2])) :
    Exact (pre ++ [q]) ((mergeNext merged q).1 ++ [(mergeNext merged q).2]) ↔ Fits merged q := by
  obtain ⟨l, last⟩ := merged
  have hl : OfFamily w last := hm last (by simp)
  have hd (p : Prefix) (hp : p ∈ l) := disjoint_iff (hm p (by simp [hp])) hq
  obtain ⟨hdis, hcov⟩ := h
  obtain ⟨hdl, -, hdn⟩ := List.pairwise_append.1 hdis
  unfold Fits mergeNext
  by_cases hs : last.contains q.addr = true
  · simp only [if_pos hs]
    constructor
    · exact fun h a ha => (h.covers a).2 ⟨q, by simp, ha⟩
    · refine fun h => ⟨hdis, fun a => (hcov a).trans ⟨fun ⟨p, hp, ha⟩ => ⟨p, by simp [hp], ha⟩, ?_⟩⟩
      rintro ⟨p, hp, ha⟩
      rcases List.mem_append.1 hp with hp | hp
      · exact ⟨p, hp, ha⟩
      · exact (hcov a).1 (h a (List.mem_singleton.1 hp ▸ ha))
  · simp only [if_neg hs]
    by_cases hc : q.contains last.addr = true
    · -- the last prefix gives way to one that contains it
      simp only [if_pos hc]
      constructor
      · exact fun h p hp => (hd p hp).1 ((List.pairwise_append.1 h.disjoint).2.2 p hp q (by simp))
      · refine fun h => ⟨List.pairwise_append.2 ⟨hdl, List.pairwise_singleton _ _,
          fun p hp x hx => List.mem_singleton.1 hx ▸ (hd p hp).2 (h p hp)⟩, fun a => ?_⟩
        have hi := contains_of_replaces hl hq hs hc (a := a)
        rw [exists_mem_concat, exists_mem_concat, ← hcov a, exists_mem_concat]
        exact ⟨.imp_left .inl, fun h => h.elim (.imp_right hi) .inr⟩
    · simp only [if_neg hc]
      have hlq : overlap last q = false := by simp [overlap, hs, hc]
      constructor
      · exact fun h p hp => (hd p hp).1
          ((List.pairwise_append.1 h.disjoint).2.2 p (by simp [hp]) q (by simp))
      · refine fun h => ⟨List.pairwise_append.2 ⟨hdis, List.pairwise_singleton _ _, ?_⟩, fun a => ?_⟩
        · intro p hp x hx
          obtain rfl := List.mem_singleton.1 hx
          rcases List.mem_append.1 hp with hp | hp
          · exact (hd p hp).2 (h p hp)
          · exact List.mem_singleton.1 hp ▸ (disjoint_iff hl hq).2 hlq
        · rw [exists_mem_concat, hcov a, exists_mem_concat]

theorem mem_mergeNext (h : p ∈ (mergeNext merged q).1 ++ [(mergeNext merged q).2]) :
    p ∈ merged.1 ++ [merged.2] ∨ p = q := by
  unfold mergeNext at h
  split_ifs at h <;> simp_all <;> tauto

variable (merged) in
theorem exact_from_iff {l : List Prefix} (hm : ∀ p ∈ merged.1 ++ [merged.2], OfFamily w p)
    (hf : ∀ p ∈ l, OfFamily w p) (h : Exact pre (merged.1 ++ [merged.2])) :
    (∀ k, k <+: l → Exact (pre ++ k)
      ((k.foldl mergeNext merged).1 ++ [(k.foldl mergeNext merged).2])) ↔ FitFrom merged l := by
  induction l generalizing merged pre with
  | nil =>
    refine iff_of_true (fun k hk => ?_) trivial
    rw [List.prefix_nil.1 hk]
    simpa using h
  | cons q l ih =>
    obtain ⟨hq, hr⟩ := List.forall_mem_cons.1 hf
    have hst := exact_mergeNext_iff hm hq h
    have hm' : ∀ p ∈ (mergeNext merged q).1 ++ [(mergeNext merged q).2], OfFamily w p :=
      fun p hp => (mem_mergeNext hp).elim (hm p) (fun he => he ▸ hq)
    constructor
    · intro hk
      have hx := hk [q] (List.prefix_cons_inj q |>.2 (List.nil_prefix))
      refine ⟨hst.1 hx, (ih _ hm' hr hx).1 fun k hkl => ?_⟩
      simpa using hk (q :: k) ((List.prefix_cons_inj q).2 hkl)
    · rintro ⟨hfq, hfl⟩ k hk
      have hx := hst.2 hfq
      cases k with
      | nil => simpa using h
      | cons x k =>
        obtain ⟨rfl, hkl⟩ := List.cons_prefix_cons.1 hk
        simpa using (ih _ hm' hr hx).2 hfl k hkl

theorem fitFrom_of_grouped {l rest : List Prefix} {last : Prefix}
    (hf : ∀ p ∈ last :: rest, OfFamily w p) (hg : Grouped (last :: rest))
    (hap : ∀ p ∈ l, ∀ q ∈ last :: rest, overlap p q = false) : FitFrom (l, last) rest := by
  induction rest generalizing l last with
  | nil => trivial
  | cons q rest ih =>
    obtain ⟨hls, hq, hr⟩ := List.forall_mem_cons.1 hf |>.imp_right List.forall_mem_cons.1
    obtain ⟨hsm, hd, hg'⟩ := hg
    unfold FitFrom Fits mergeNext
    by_cases hs : last.contains q.addr = true
    · simp only [if_pos hs]
      rw [List.dropWhile_cons_of_pos (by simp [overlap, hs])] at hd
      refine ⟨fun a ha => ⟨last, by simp, contains_of_common hls hq (hsm q (.head _) hs) hs
          (contains_addr hq) ha⟩, ih (List.forall_mem_cons.2 ⟨hls, hr⟩)
        ⟨fun x hx => hsm x (.tail _ hx), hd, hg'.2.2⟩ fun p hp x hx => hap p hp x ?_⟩
      exact (List.mem_cons.1 hx).elim (fun he => he ▸ .head _) fun hx => .tail _ (.tail _ hx)
    · simp only [if_neg hs]
      refine ⟨fun p hp => hap p hp q (by simp), ?_⟩
      by_cases hc : q.contains last.addr = true
      · rw [if_pos hc]
        exact ih (List.forall_mem_cons.2 ⟨hq, hr⟩) hg' fun p hp x hx => hap p hp x (.tail _ hx)
      · rw [if_neg hc]
        rw [List.dropWhile_cons_of_neg (by simp [overlap, hs, hc])] at hd
        refine ih (List.forall_mem_cons.2 ⟨hq, hr⟩) hg' fun p hp x hx => ?_
        rcases List.mem_append.1 hp with hp | hp
        · exact hap p hp x (.tail _ hx)
        · exact List.mem_singleton.1 hp ▸ hd x hx

/-- Four prefixes, of which the first contains the second and the last contains the third. -/
def samplePrefixes : List Prefix :=
  [prefixFrom (.from4 10 0 0 0) 8, prefixFrom (.from4 10 0 0 0) 24,
    prefixFrom (.from4 192 168 1 128) 25, prefixFrom (.from4 192 168 1 0) 24]

/-- `b[i/8] |= 1 << (7 - i%8)` -/
def setBit (b : Vector UInt8 16) (i : ℕ) : Vector UInt8 16 :=
  ofFn fun k => if i / 8 = k then b.get k ||| UInt8.ofNat (2 ^ (7 - i % 8)) else b.get k

def calculateLastIP (p : Prefix) : Addr :=
  let bits := p.bits.getD 0
  match p.masked.addr with
  | .v4 b =>
    let hostMask := (2 ^ 32 - 1) >>> bits
    let lastIP := beNat b.toList ||| hostMask
    .v4 (ofFn fun i => byteOf lastIP (3 - i))
  | .v6 b _ => .v6 ((List.range' bits (128 - bits)).foldl setBit b) ""
  | .invalid => .invalid

/-- The next address, which is invalid behind the last one. -/
def next : Addr → Addr
  | .v4 b =>
    let ip := beNat b.toList + 1
    if ip = 2 ^ 32 then .invalid else .v4 (ofFn fun i => byteOf ip (3 - i))
  | .v6 b zone =>
    let ip := beNat b.toList + 1
    if ip = 2 ^ 128 then .invalid else .v6 (ofFn fun i => byteOf ip (15 - i)) zone
  | .invalid => .invalid

structure SetElement where
  key : List UInt8
  intervalEnd : Bool

/-- `addrLen` is the address length of the family, in bytes. -/
def convertPrefixesToSet (addrLen : ℕ) (prefixes : List Prefix) : List SetElement :=
  prefixes.flatMap fun p =>
    let lastKey :=
      if p.bits = some 0 then List.replicate addrLen 0 else (next (calculateLastIP p)).asSlice
    [⟨p.addr.asSlice, false⟩, ⟨lastKey, true⟩]

/-- The addresses of the prefix are those from the first key on, before the last key unless it is
zero. -/
def Denotes (p : Prefix) (first last : List UInt8) : Prop :=
  ∀ a : Addr, a.hasZone = false → a.bitLen = p.addr.bitLen → (p.contains a = true ↔
    beNat first ≤ beNat a.asSlice ∧ (beNat a.asSlice < beNat last ∨ beNat last = 0))

theorem length_asSlice (a : Addr) : 8 * a.asSlice.length = a.bitLen := by
  cases a <;> simp [asSlice, bitLen]

theorem beNat_asSlice_lt (a : Addr) : beNat a.asSlice < 2 ^ a.bitLen := by
  simpa [length_asSlice] using beNat_lt a.asSlice

theorem eq_of_beNat_eq {a b : Addr} (ha : a.hasZone = false) (hb : b.hasZone = false)
    (hl : a.bitLen = b.bitLen) (h : beNat a.asSlice = beNat b.asSlice) : a = b := by
  have hs := beNat_inj (by have := length_asSlice a; have := length_asSlice b; omega) h
  cases a <;> cases b <;> simp_all [bitLen, asSlice, hasZone, toList_inj]

theorem testBit_floor (x s j : ℕ) :
    (x / 2 ^ s * 2 ^ s).testBit j = (decide (s ≤ j) && x.testBit j) := by
  rw [Nat.testBit_mul_two_pow, Nat.testBit_div_two_pow]
  by_cases h : s ≤ j <;> simp [h]

theorem beNat_maskByte {k : ℕ} (b : Vector UInt8 k) {n : ℕ} :
    beNat (ofFn fun i : Fin k => maskByte (n - 8 * i) b[i]).toList =
      beNat b.toList / 2 ^ (8 * k - n) * 2 ^ (8 * k - n) := by
  have hlt := beNat_lt b.toList
  rw [Vector.length_toList] at hlt
  refine beNat_eq_of_testBit ((Nat.div_mul_le_self _ _).trans_lt hlt) fun i hi j hj => ?_
  rw [testBit_floor, testBit_beNat b hi hj, getElem_ofFn, toNat_maskByte, testBit_floor]
  congr 2
  simp only [eq_iff_iff]
  omega

theorem beNat_mask (a : Addr) (n : ℕ) : beNat (a.mask n).asSlice =
    beNat a.asSlice / 2 ^ (a.bitLen - n) * 2 ^ (a.bitLen - n) := by
  cases a with
  | invalid => simp [mask, asSlice, beNat, leNat]
  | v4 b => exact beNat_maskByte b
  | v6 b z => exact beNat_maskByte b

theorem beNat_setBit (b : Vector UInt8 16) {i : ℕ} (hi : i < 128) :
    beNat (setBit b i).toList = beNat b.toList ||| 2 ^ (127 - i) := by
  have hlt := beNat_lt b.toList
  refine beNat_eq_of_testBit (Nat.or_lt_two_pow (by simpa using hlt)
    (Nat.pow_lt_pow_right (by decide) (by omega))) fun k hk j hj => ?_
  rw [Nat.testBit_or, testBit_beNat b hk hj, Nat.testBit_two_pow, setBit, getElem_ofFn]
  have hb : (127 - i = 8 * (16 - 1 - k) + j) = (i / 8 = k ∧ 7 - i % 8 = j) := by
    simp only [eq_iff_iff]
    omega
  have hpw : 2 ^ (7 - i % 8) % 256 = 2 ^ (7 - i % 8) :=
    Nat.mod_eq_of_lt (Nat.pow_lt_pow_right (show 1 < 2 by decide) (show 7 - i % 8 < 8 by omega))
  have hg : b.get ⟨k, hk⟩ = b[k] := rfl
  by_cases h : i / 8 = k <;> simp [hb, h, hpw, hg, Nat.testBit_two_pow]

theorem testBit_foldl_setBit (b : Vector UInt8 16) {l : List ℕ} (hl : ∀ i ∈ l, i < 128) (j : ℕ) :
    (beNat (l.foldl setBit b).toList).testBit j =
      ((beNat b.toList).testBit j || decide (∃ i ∈ l, 127 - i = j)) := by
  induction l generalizing b with
  | nil => simp
  | cons i l ih =>
    rw [List.forall_mem_cons] at hl
    rw [List.foldl_cons, ih _ hl.2, beNat_setBit b hl.1, Nat.testBit_or, Nat.testBit_two_pow]
    simp [Bool.or_assoc]

/-- The last address has all host bits set. -/
theorem beNat_calculateLastIP {n : ℕ} (hb : p.bits = some n) : beNat (calculateLastIP p).asSlice =
        beNat (p.addr.mask n).asSlice ||| (2 ^ (p.addr.bitLen - n) - 1) ∧
      (calculateLastIP p).bitLen = p.addr.bitLen := by
  have hm : p.masked.addr = p.addr.mask n := by simp [Prefix.masked, hb]
  unfold calculateLastIP
  simp only [hm, hb, getD_some]
  cases ha : p.addr with
  | invalid => simp [mask, asSlice, bitLen, beNat, leNat]
  | v4 b =>
    refine ⟨?_, rfl⟩
    have hms : (2 ^ 32 - 1) >>> n = 2 ^ (32 - n) - 1 := by
      refine Nat.eq_of_testBit_eq fun j => ?_
      simp only [Nat.testBit_shiftRight, Nat.testBit_two_pow_sub_one]
      congr 1
      simp only [eq_iff_iff]
      omega
    have hlt := beNat_asSlice_lt (mask n (.v4 b))
    refine (beNat_byteOf (k := 4) _).trans ?_
    rw [hms]
    exact Nat.mod_eq_of_lt (Nat.or_lt_two_pow hlt ((Nat.sub_lt (Nat.two_pow_pos _)
      (by decide)).trans_le (Nat.pow_le_pow_right (by decide) (Nat.sub_le _ _))))
  | v6 b z =>
    refine ⟨Nat.eq_of_testBit_eq fun j => ?_, rfl⟩
    have hs : (∃ i ∈ List.range' n (128 - n), 127 - i = j) ↔ j < 128 - n := by
      simp only [List.mem_range'_1]
      refine ⟨?_, fun hj => ⟨127 - j, by omega, by omega⟩⟩
      rintro ⟨i, hi, rfl⟩
      omega
    refine (testBit_foldl_setBit _ (fun i hi => ?_) j).trans ?_
    · rw [List.mem_range'_1] at hi
      omega
    · simp only [hs, Nat.testBit_or, Nat.testBit_two_pow_sub_one]
      rfl

theorem next_spec (a : Addr) (hlt : beNat a.asSlice + 1 < 2 ^ a.bitLen) :
    beNat (next a).asSlice = beNat a.asSlice + 1 ∧ (next a).bitLen = a.bitLen := by
  cases a with
  | invalid => simp [bitLen] at hlt
  | v4 b =>
    have hne : beNat b.toList + 1 ≠ 2 ^ 32 := hlt.ne
    simp only [next, hne, if_false]
    exact ⟨(beNat_byteOf (k := 4) _).trans (Nat.mod_eq_of_lt hlt), rfl⟩
  | v6 b z =>
    have hne : beNat b.toList + 1 ≠ 2 ^ 128 := hlt.ne
    simp only [next, hne, if_false]
    exact ⟨(beNat_byteOf (k := 16) _).trans (Nat.mod_eq_of_lt hlt), rfl⟩

theorem asSlice_next_of_last {a : Addr} (h : beNat a.asSlice + 1 = 2 ^ a.bitLen) :
    (next a).asSlice = [] := by
  cases a with
  | invalid => rfl
  | v4 b => simp [next, show beNat b.toList + 1 = 2 ^ 32 from h, asSlice]
  | v6 b z => simp [next, show beNat b.toList + 1 = 2 ^ 128 from h, asSlice]

/-- A prefix is an interval of numbers. -/
theorem contains_iff_beNat (hp : OfFamily w p) {n : ℕ} (hb : p.bits = some n)
    (hm : p.addr.mask n = p.addr) (ha : a.hasZone = false) (hl : a.bitLen = w) :
    p.contains a ↔ beNat p.addr.asSlice ≤ beNat a.asSlice ∧
      beNat a.asSlice < beNat p.addr.asSlice + 2 ^ (w - n) := by
  have hz : (a.mask n).hasZone = false := by cases a <;> rfl
  have hv := beNat_mask p.addr n
  rw [hm, hp.bitLen] at hv
  rw [contains_iff hp ha hl, hb, getD_some, hm]
  have heq : a.mask n = p.addr ↔ beNat (a.mask n).asSlice = beNat p.addr.asSlice :=
    ⟨fun h => h ▸ rfl, eq_of_beNat_eq hz hp.noZone (by simp [hl, hp.bitLen])⟩
  have hps := Nat.two_pow_pos (w - n)
  rw [heq, beNat_mask, hl, hv, Nat.mul_left_inj hps.ne', Nat.div_eq_iff hps]
  omega

/-- The elements of a prefix denote it unless its last address is the last of all and it has bits;
then the second key is empty. -/
theorem convertPrefixesToSet_denotes (hp : OfFamily w p) {n : ℕ} (hbits : p.bits = some n)
    (hn : n ≤ w) (hmasked : p.addr.mask n = p.addr) :
    ∃ first last, convertPrefixesToSet (w / 8) [p] = [⟨first, false⟩, ⟨last, true⟩] ∧
      ((first.length = w / 8 ∧ last.length = w / 8 ∧ Denotes p first last) ↔
        n = 0 ∨ beNat p.addr.asSlice + 2 ^ (w - n) ≠ 2 ^ w) := by
  refine ⟨_, _, rfl, ?_⟩
  have hln := length_asSlice p.addr
  have hps := Nat.two_pow_pos (w - n)
  have hv := beNat_mask p.addr n
  obtain ⟨hls, hl⟩ := beNat_calculateLastIP hbits
  have hlt := beNat_asSlice_lt (calculateLastIP p)
  rw [hmasked, hp.bitLen] at hv
  rw [hp.bitLen] at hln
  -- the last address is one before the first of the next prefix of the length
  have he : beNat (calculateLastIP p).asSlice + 1 = beNat p.addr.asSlice + 2 ^ (w - n) := by
    rw [hls, hmasked, hp.bitLen, hv, Nat.mul_comm, ← Nat.two_pow_add_eq_or_of_lt (by omega)]
    omega
  rw [hl, hp.bitLen] at hlt
  have hc (b : Addr) := contains_iff_beNat (a := b) hp hbits hmasked
  by_cases hz : n = 0
  · subst hz
    have hf := beNat_asSlice_lt p.addr
    rw [hp.bitLen] at hf
    rw [Nat.sub_zero, Nat.div_eq_of_lt hf, Nat.zero_mul] at hv
    have hnn : beNat (List.replicate (w / 8) 0) = 0 := by simp [beNat, leNat_replicate]
    simp only [hbits, if_true, List.length_replicate]
    refine iff_of_true ⟨by omega, trivial, fun b hb hln => ?_⟩ (by simp)
    have hlt' := beNat_asSlice_lt b
    rw [hln, hp.bitLen] at hlt'
    rw [hc b hb (hln.trans hp.bitLen), hnn, hv, Nat.sub_zero]
    omega
  · simp only [hbits, some.injEq, hz, if_false, false_or]
    have hw := (length_asSlice (calculateLastIP p)).trans (hl.trans hp.bitLen)
    by_cases ht : beNat p.addr.asSlice + 2 ^ (w - n) = 2 ^ w
    · have hnl := asSlice_next_of_last (a := calculateLastIP p) (by rw [he, ht, hl, hp.bitLen])
      refine iff_of_false (fun h => ?_) (not_not.2 ht)
      rw [hnl, List.length_nil] at h
      omega
    · obtain ⟨hnt, hnx⟩ := next_spec (calculateLastIP p) (by rw [hl, hp.bitLen]; omega)
      have hk := (length_asSlice (next (calculateLastIP p))).trans (hnx.trans (hl.trans hp.bitLen))
      refine iff_of_true ⟨by omega, by omega, fun b hb hln => ?_⟩ ht
      rw [hc b hb (hln.trans hp.bitLen), hnt, he]
      omega

theorem convertPrefixesToSet_denotes_sample :
    let p := prefixFrom (.from4 10 0 0 0) 8
    ∃ first last, convertPrefixesToSet 4 [p] = [⟨first, false⟩, ⟨last, true⟩] ∧
      Denotes p first last := by
  intro p
  obtain ⟨first, last, heq, hi⟩ := convertPrefixesToSet_denotes (p := p) (w := 32) (n := 8)
    ⟨rfl, rfl, rfl⟩ rfl (by decide) (by decide)
  exact ⟨first, last, heq, (hi.2 (.inr (by decide))).2.2⟩

/-- The upper half of the addresses, and the broadcast address, have an empty second key. -/
theorem convertPrefixesToSet_empty_key : (convertPrefixesToSet 4 [prefixFrom (.from4 128 0 0 0) 1,
      prefixFrom (.from4 255 255 255 255) 32]).map (·.key.length) = [4, 0, 4, 0] := by
  decide +kernel

end Cloink.Firewall
