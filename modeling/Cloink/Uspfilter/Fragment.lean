import Cloink.Lib.FinMap
import Cloink.Lib.History
import Cloink.Lib.Netip

/-!
# Verdicts of fragments

The userspace firewall inspects the first fragment of a datagram and lets the others inherit its
verdict (`client/firewall/uspfilter`). The verdict is kept with the end of the inspected payload; a
fragment that starts before it, or a new first fragment, ends it. What the connection tracker and
the rules say to a first fragment is given with it, as is the time of each call.
-/

namespace Cloink.Uspfilter

open Netip AList List UInt16

/-! ### The verdict table -/

structure FragmentKey where
  srcIP : Addr
  dstIP : Addr
  id : UInt32
  proto : UInt8
  deriving DecidableEq

structure FragmentEntry where
  headerEndOctets : UInt16
  recordedAt : Int
  deriving DecidableEq

inductive FragmentVerdict where
  | deny
  | allow
  | overlap
  deriving DecidableEq

structure FragmentConfig where
  timeout : Int
  maxEntries : Nat

structure FragmentTracker where
  entries : AList fun _ : FragmentKey => FragmentEntry := ∅
  atCapacity : Bool := false

namespace FragmentTracker

variable (cfg : FragmentConfig) (t : FragmentTracker)

/-- Records the verdict of a first fragment, unless the table is full. -/
def recordAllowed (key : FragmentKey) (headerEndOctets : UInt16) (now : Int) : FragmentTracker :=
  if key ∉ t.entries ∧ cfg.maxEntries ≤ t.entries.entries.length then { t with atCapacity := true }
  else { t with entries := t.entries.insert key ⟨headerEndOctets, now⟩ }

/-- Drops the verdict of a datagram. -/
def poison (key : FragmentKey) : FragmentTracker := { t with entries := t.entries.erase key }

/-- The verdict of a fragment with an offset; one that overlaps drops the verdict. -/
def verdict (key : FragmentKey) (fragOffsetOctets : UInt16) (now : Int) :
    FragmentVerdict × FragmentTracker :=
  match t.entries.lookup key with
  | none => (.deny, t)
  | some entry =>
    if now - entry.recordedAt > cfg.timeout then (.deny, t.poison key)
    else if fragOffsetOctets < entry.headerEndOctets then (.overlap, t.poison key)
    else (.allow, t)

def cleanup (now : Int) : FragmentTracker :=
  let entries := t.entries.select fun _ entry => !(now - entry.recordedAt > cfg.timeout)
  { entries, atCapacity := t.atCapacity && !(entries.entries.length < cfg.maxEntries) }

end FragmentTracker

/-! ### Fragments -/

/-- The network layer of a packet: the fields of an IPv4 header with its payload, or the payload of
an IPv6 header, which starts with the fragment header. -/
inductive NetworkLayer where
  | ipv4 (id : UInt16) (flags : UInt8) (fragOffset : UInt16) (protocol : UInt8)
      (payload : List UInt8)
  | ipv6 (payload : List UInt8)
  | other

def NetworkLayer.payload : NetworkLayer → List UInt8
  | ipv4 _ _ _ _ payload => payload
  | ipv6 payload => payload
  | other => []

/-- A fragment, which is no longer than an IP packet can be. -/
structure Fragment where
  srcIP : Addr
  dstIP : Addr
  layer : NetworkLayer
  length_lt : layer.payload.length < 65536

structure FragmentMeta where
  key : FragmentKey
  offset : UInt16
  moreFragments : Bool
  proto : UInt8
  l4payload : List UInt8
  headerEndOctets : UInt16

/-- A length in bytes as whole octets, rounded up. -/
def octets (nbytes : Nat) : UInt16 := ofNat ((nbytes + 7) / 8)

def ipv4MoreFragments : UInt8 := 1

/-- The two bytes as a number, the first one being the higher. -/
def beUint16 (hi lo : UInt8) : UInt16 := hi.toUInt16 <<< 8 ||| lo.toUInt16

/-- The four bytes as a number, the first one being the highest. -/
def beUint32 (b₀ b₁ b₂ b₃ : UInt8) : UInt32 :=
  (beUint16 b₀ b₁).toUInt32 <<< 16 ||| (beUint16 b₂ b₃).toUInt32

/-- What identifies a fragment and its place; none for one that cannot be read. -/
def fragmentMetadata (frag : Fragment) : Option FragmentMeta :=
  match frag.layer with
  | .ipv4 id flags fragOffset protocol payload => some
    { key := ⟨frag.srcIP, frag.dstIP, id.toUInt32, protocol⟩
      offset := fragOffset
      moreFragments := flags &&& ipv4MoreFragments != 0
      proto := protocol
      l4payload := payload
      headerEndOctets := octets payload.length }
  | .ipv6 (nextHeader :: _ :: o₀ :: o₁ :: i₀ :: i₁ :: i₂ :: i₃ :: l4) => some
    { key := ⟨frag.srcIP, frag.dstIP, beUint32 i₀ i₁ i₂ i₃, nextHeader⟩
      offset := beUint16 o₀ o₁ >>> 3
      moreFragments := beUint16 o₀ o₁ &&& 1 != 0
      proto := nextHeader
      l4payload := l4
      headerEndOctets := octets l4.length }
  | _ => none

/-- The size of the header of a transport protocol that is known. -/
def transportMinLen (proto : UInt8) : Option Nat :=
  if proto = 6 then some 20
  else if proto = 17 then some 8
  else if proto = 1 then some 8
  else if proto = 58 then some 8
  else none

/-- Reads the transport header of a first fragment; `decodes` is the decoder of the protocol, which
is not asked when the header is not complete. -/
def decodeTransport (decodes : UInt8 → List UInt8 → Bool) (proto : UInt8) (payload : List UInt8) :
    Bool :=
  match transportMinLen proto with
  | none => false
  | some minLen => !(payload.length < minLen) && decodes proto payload

/-- What the firewall finds for a first fragment: it keeps state and has a connection for it, it is
for this host and denied by the rules for peers, routing is on, native, or allowed by the rules for
routes. -/
structure Pipeline where
  stateful : Bool
  trackedConnection : Bool
  localIP : Bool
  peerACLsBlock : Bool
  routingEnabled : Bool
  nativeRouter : Bool
  routeACLsPass : Bool

/-- The first fragment passes the connection tracker or the rules. -/
def Pipeline.passes (p : Pipeline) : Bool :=
  if p.stateful && p.trackedConnection then true
  else if p.localIP then !p.peerACLsBlock
  else if !p.routingEnabled then false
  else if p.nativeRouter then true
  else p.routeACLsPass

section

variable (cfg : FragmentConfig) (decodes : UInt8 → List UInt8 → Bool) (t : FragmentTracker)

/-- Keeps the verdict of a first fragment for the others; a complete datagram has none. -/
def recordFirstFragment (fm : FragmentMeta) (now : Int) : FragmentTracker :=
  if fm.moreFragments then t.recordAllowed cfg fm.key fm.headerEndOctets now else t

def filterFirstFragment (fm : FragmentMeta) (pipeline : Pipeline)
    (now : Int) : Bool × FragmentTracker :=
  if pipeline.passes then (false, recordFirstFragment cfg t fm now) else (true, t)

def filterTrailingFragment (fm : FragmentMeta) (now : Int) : Bool × FragmentTracker :=
  let (verdict, t) := t.verdict cfg fm.key fm.offset now
  (verdict ≠ .allow, t)

/-- Whether the fragment is dropped. -/
def filterInboundFragment (frag : Fragment) (pipeline : Pipeline)
    (now : Int) : Bool × FragmentTracker :=
  match fragmentMetadata frag with
  | none => (true, t)
  | some fm =>
    if fm.offset ≠ 0 then filterTrailingFragment cfg t fm now
    else
      -- a new first fragment ends the verdict of the one before
      let t := t.poison fm.key
      if !decodeTransport decodes fm.proto fm.l4payload then (true, t)
      else filterFirstFragment cfg t fm pipeline now

/-! ### Runs -/

namespace FragmentTracker

inductive Event where
  | fragment (frag : Fragment) (pipeline : Pipeline) (now : Int)
  | cleanup (now : Int)

def step (t : FragmentTracker) : Event → FragmentTracker
  | .fragment frag pipeline now => (filterInboundFragment cfg decodes t frag pipeline now).2
  | .cleanup now => t.cleanup cfg now

def run (l : List Event) : FragmentTracker := l.foldl (step cfg decodes) {}

end FragmentTracker

end

/-! ### Places of fragments -/

theorem toNat_octets {n : Nat} (h : n < 65536) : (octets n).toNat = (n + 7) / 8 := by
  rw [octets, toNat_ofNat']
  exact Nat.mod_eq_of_lt (by omega)

theorem toNat_headerEndOctets {frag : Fragment} {fm : FragmentMeta}
    (h : fragmentMetadata frag = some fm) :
    fm.headerEndOctets.toNat = (fm.l4payload.length + 7) / 8 := by
  have hlt := frag.length_lt
  unfold fragmentMetadata at h
  split at h
  · rename_i hl
    cases h
    rw [hl] at hlt
    exact toNat_octets hlt
  · rename_i hl
    cases h
    simp only [hl, NetworkLayer.payload, length_cons] at hlt
    exact toNat_octets (by omega)
  · cases h

/-- An offset that is no less than the end of a payload starts behind its last byte. -/
theorem length_le_of_headerEndOctets_le {frag : Fragment} {fm : FragmentMeta}
    (h : fragmentMetadata frag = some fm) {offset : UInt16} (hle : fm.headerEndOctets ≤ offset) :
    fm.l4payload.length ≤ 8 * offset.toNat := by
  have he := toNat_headerEndOctets h
  have hle : fm.headerEndOctets.toNat ≤ offset.toNat := le_iff_toNat_le.1 hle
  omega

namespace FragmentTracker

/-! ### Recorded verdicts -/

/-- A first fragment of a datagram with more to come was read and passed. -/
structure FirstPassed (decodes : UInt8 → List UInt8 → Bool) (frag : Fragment)
    (pipeline : Pipeline) (fm : FragmentMeta) : Prop where
  metadata : fragmentMetadata frag = some fm
  offset : fm.offset = 0
  moreFragments : fm.moreFragments = true
  decoded : decodeTransport decodes fm.proto fm.l4payload = true
  passes : pipeline.passes = true

def Recorded (t : FragmentTracker) (r : FragmentKey × FragmentEntry) : Prop :=
  t.entries.lookup r.1 = some r.2

/-- The event records the verdict. -/
def Records (decodes : UInt8 → List UInt8 → Bool) (e : Event) (r : FragmentKey × FragmentEntry) :
    Prop :=
  ∃ frag pipeline now fm, e = .fragment frag pipeline now ∧
    FirstPassed decodes frag pipeline fm ∧ fm.key = r.1 ∧ ⟨fm.headerEndOctets, now⟩ = r.2

/-- The event is not a fragment that ends the verdict. -/
def Keeps (e : Event) (r : FragmentKey × FragmentEntry) : Prop :=
  ∀ frag pipeline now fm, e = .fragment frag pipeline now → fragmentMetadata frag = some fm →
    fm.key = r.1 → fm.offset ≠ 0 ∧ r.2.headerEndOctets ≤ fm.offset

variable {cfg : FragmentConfig} {decodes : UInt8 → List UInt8 → Bool} {t : FragmentTracker}
  {r : FragmentKey × FragmentEntry}

variable {key : FragmentKey} {now : Int}

theorem recorded_poison (h : (t.poison key).Recorded r) : r.1 ≠ key ∧ t.Recorded r := by
  unfold Recorded at h ⊢
  by_cases hk : r.1 = key
  · rw [poison, hk, lookup_erase] at h
    cases h
  · rw [poison, lookup_erase_ne hk] at h
    exact ⟨hk, h⟩

theorem recorded_recordAllowed {headerEndOctets : UInt16}
    (h : (t.recordAllowed cfg key headerEndOctets now).Recorded r) :
    (key = r.1 ∧ ⟨headerEndOctets, now⟩ = r.2) ∨ t.Recorded r := by
  unfold recordAllowed at h
  split at h
  · exact .inr h
  · rcases lookup_insert_some.1 h with ⟨hk, hr⟩ | ⟨-, ho⟩
    · exact .inl ⟨hk.symm, hr⟩
    · exact .inr ho

theorem recorded_verdict {offset : UInt16} (h : (t.verdict cfg key offset now).2.Recorded r) :
    t.Recorded r ∧ (key = r.1 → r.2.headerEndOctets ≤ offset) := by
  have hp (h : (t.poison key).Recorded r) :
      t.Recorded r ∧ (key = r.1 → r.2.headerEndOctets ≤ offset) := by
    obtain ⟨hk, hol⟩ := recorded_poison h
    exact ⟨hol, fun he => absurd he.symm hk⟩
  unfold verdict at h
  split at h
  · rename_i hn
    refine ⟨h, fun hk => ?_⟩
    rw [hk] at hn
    cases hn.symm.trans h
  · rename_i entry hl
    split at h
    · exact hp h
    · split at h
      · exact hp h
      · rename_i ho
        refine ⟨h, fun hk => ?_⟩
        rw [hk] at hl
        obtain rfl := Option.some.inj (hl.symm.trans h)
        exact UInt16.not_lt.1 ho

theorem entry_of_allow {offset : UInt16} (h : (t.verdict cfg key offset now).1 = .allow) :
    ∃ entry, t.entries.lookup key = some entry ∧ now - entry.recordedAt ≤ cfg.timeout ∧
      entry.headerEndOctets ≤ offset := by
  unfold verdict at h
  split at h
  · cases h
  · rename_i entry hl
    split at h
    · cases h
    · rename_i ht
      split at h
      · cases h
      · rename_i ho
        exact ⟨entry, hl, not_lt.1 ht, UInt16.not_lt.1 ho⟩

theorem recorded_step {e : Event} (h : (step cfg decodes t e).Recorded r) :
    Records decodes e r ∨ t.Recorded r ∧ Keeps e r := by
  cases e with
  | cleanup now =>
    exact .inr ⟨(lookup_select_some.1 h).1, fun _ _ _ _ he => nomatch he⟩
  | fragment frag pl now =>
    simp only [step, filterInboundFragment] at h
    cases hm : fragmentMetadata frag with
    | none =>
      rw [hm] at h
      refine .inr ⟨h, fun frag' _ _ fm' he hm' => ?_⟩
      cases he
      cases hm.symm.trans hm'
    | some fm =>
      rw [hm] at h
      dsimp only at h
      -- the fragment is the one that has been read
      have hkp (hke : fm.key = r.1 → fm.offset ≠ 0 ∧ r.2.headerEndOctets ≤ fm.offset) :
          Keeps (.fragment frag pl now) r := by
        intro frag' pipeline' now' fm' he hm'
        cases he
        obtain rfl := Option.some.inj (hm.symm.trans hm')
        exact hke
      split at h
      · rename_i ho
        obtain ⟨hol, hov⟩ := recorded_verdict h
        exact .inr ⟨hol, hkp fun hk => ⟨ho, hov hk⟩⟩
      · rename_i ho
        have hp (h : (t.poison fm.key).Recorded r) :
            t.Recorded r ∧ Keeps (.fragment frag pl now) r := by
          obtain ⟨hk, hol⟩ := recorded_poison h
          exact ⟨hol, hkp fun he => absurd he.symm hk⟩
        split at h
        · exact .inr (hp h)
        · rename_i hd
          unfold filterFirstFragment recordFirstFragment at h
          split at h
          · rename_i hps
            split at h
            · rename_i hmr
              rcases recorded_recordAllowed h with ⟨hk, hr⟩ | hol
              · exact .inl ⟨frag, pl, now, fm, rfl, ⟨hm, not_not.1 ho, hmr,
                  by simpa using hd, hps⟩, hk, hr⟩
              · exact .inr (hp hol)
            · exact .inr (hp h)
          · exact .inr (hp h)

/-! ### Runs -/

theorem length_recordAllowed_le {headerEndOctets : UInt16}
    (h : t.entries.entries.length ≤ cfg.maxEntries) :
    (t.recordAllowed cfg key headerEndOctets now).entries.entries.length ≤ cfg.maxEntries := by
  unfold recordAllowed
  split
  · exact h
  · rename_i hr
    have hl : (t.entries.insert key ⟨headerEndOctets, now⟩).entries.length =
        (t.entries.entries.kerase key).length + 1 := by
      rw [entries_insert, length_cons]
    rw [hl]
    by_cases hk : key ∈ t.entries
    · obtain ⟨entry, he⟩ := mem_iff_lookup.1 hk
      have hm : ⟨key, entry⟩ ∈ t.entries.entries := mem_lookup_iff.1 he
      rw [List.kerase, length_eraseP_add_one hm (by simp)]
      exact h
    · have hlt : t.entries.entries.length < cfg.maxEntries :=
        not_le.1 fun hle => hr ⟨hk, hle⟩
      have hle : (t.entries.entries.kerase key).length ≤ t.entries.entries.length :=
        (kerase_sublist key _).length_le
      omega

theorem length_poison_le (key : FragmentKey) :
    (t.poison key).entries.entries.length ≤ t.entries.entries.length :=
  (kerase_sublist key t.entries.entries).length_le

theorem length_step_le (e : Event) (h : t.entries.entries.length ≤ cfg.maxEntries) :
    (step cfg decodes t e).entries.entries.length ≤ cfg.maxEntries := by
  have hp (key : FragmentKey) : (t.poison key).entries.entries.length ≤ cfg.maxEntries :=
    (length_poison_le key).trans h
  cases e with
  | cleanup now => exact (length_filter_le _ _).trans h
  | fragment frag pipeline now =>
    simp only [step, filterInboundFragment]
    split
    · exact h
    · split
      · change (t.verdict cfg _ _ now).2.entries.entries.length ≤ cfg.maxEntries
        unfold verdict
        split
        · exact h
        · split
          · exact hp _
          · split
            · exact hp _
            · exact h
      · split
        · exact hp _
        · unfold filterFirstFragment recordFirstFragment
          split
          · split
            · exact length_recordAllowed_le (hp _)
            · exact hp _
          · exact hp _

variable (cfg decodes) in
/-- After any sequence of fragments the table is within its limit, and a fragment with an offset
only passes if a first fragment of its datagram with more to come was read with its whole header,
passed, and is no older than the timeout; since then no first fragment of the datagram has come at
all, and no fragment that starts before the end of the payload that was inspected; and neither does
this one. -/
theorem trailing_passes (l : List Event) :
    (run cfg decodes l).entries.entries.length ≤ cfg.maxEntries ∧
      ∀ frag pipeline now fm, fragmentMetadata frag = some fm → fm.offset ≠ 0 →
        (filterInboundFragment cfg decodes (run cfg decodes l) frag pipeline now).1 = false →
        ∃ pre first fpipeline fnow post ffm, l = pre ++ .fragment first fpipeline fnow :: post ∧
          FirstPassed decodes first fpipeline ffm ∧ ffm.key = fm.key ∧
          (filterInboundFragment cfg decodes (run cfg decodes pre) first fpipeline fnow).1 = false ∧
          now - fnow ≤ cfg.timeout ∧ ffm.l4payload.length ≤ 8 * fm.offset.toNat ∧
          ∀ frag' pipeline' now' fm', .fragment frag' pipeline' now' ∈ post →
            fragmentMetadata frag' = some fm' → fm'.key = fm.key →
              fm'.offset ≠ 0 ∧ ffm.l4payload.length ≤ 8 * fm'.offset.toNat := by
  refine ⟨foldlRecOn
    (motive := fun t : FragmentTracker => t.entries.entries.length ≤ cfg.maxEntries) l _
    (Nat.zero_le _) fun t ht e _ => length_step_le e ht, ?_⟩
  intro frag pipeline now fm hm ho hp
  have ha : ((run cfg decodes l).verdict cfg fm.key fm.offset now).1 = .allow := by
    simpa [filterInboundFragment, hm, ho, filterTrailingFragment] using hp
  obtain ⟨entry, hl, ht, hen⟩ := entry_of_allow ha
  obtain ⟨pre, e, post, rfl, ⟨first, fpipeline, fnow, ffm, rfl, hf, hky, he⟩, hs⟩ :=
    exists_origin Recorded (fun _ => Records decodes) (fun _ => Keeps)
      (fun r hr => by simp [Recorded] at hr) (fun t e r => recorded_step) (r := (fm.key, entry)) hl
  obtain rfl : _ = entry := he
  refine ⟨pre, first, fpipeline, fnow, post, ffm, rfl, hf, hky, ?_, ht,
    length_le_of_headerEndOctets_le hf.metadata hen, ?_⟩
  · simp [filterInboundFragment, hf.metadata, hf.offset, hf.decoded, filterFirstFragment, hf.passes]
  · intro frag' pipeline' now' fm' hmm hm' hk'
    obtain ⟨mid, rest, hps⟩ := append_of_mem hmm
    obtain ⟨-, hk⟩ := hs mid _ rest hps
    obtain ⟨hne, hle⟩ := hk frag' pipeline' now' fm' rfl hm' hk'
    exact ⟨hne, length_le_of_headerEndOctets_le hf.metadata hle⟩

/-- A fragment of a UDP datagram. -/
def udpFragment (flags : UInt8) (fragOffset : UInt16) : Fragment where
  srcIP := .from4 100 64 0 2
  dstIP := .from4 100 64 0 1
  layer := .ipv4 7 flags fragOffset 17 (List.replicate 16 0)
  length_lt := by simp [NetworkLayer.payload]

/-- A packet for this host that the rules let in. -/
def localAllowed : Pipeline where
  stateful := true
  trackedConnection := false
  localIP := true
  peerACLsBlock := false
  routingEnabled := false
  nativeRouter := false
  routeACLsPass := false

/-- The second fragment of a datagram passes after the first one. -/
theorem trailing_passes_udp :
    let cfg : FragmentConfig := { timeout := 30000000000, maxEntries := 16384 }
    let l := [Event.fragment (udpFragment ipv4MoreFragments 0) localAllowed 0]
    ∃ pre first fpl fnow post ffm, l = pre ++ .fragment first fpl fnow :: post ∧
        FirstPassed (fun _ _ => true) first fpl ffm ∧ 1 - fnow ≤ cfg.timeout ∧
        ffm.l4payload.length ≤ 8 * 2 := by
  intro cfg l
  have hp : (filterInboundFragment cfg (fun _ _ => true) (run cfg (fun _ _ => true) l)
      (udpFragment 0 2) localAllowed 1).1 = false := by decide +kernel
  obtain ⟨pre, first, fpl, fnow, post, ffm, hl, hf, -, -, ht, hln, -⟩ :=
    (trailing_passes cfg (fun _ _ => true) l).2 (udpFragment 0 2) localAllowed 1 _ rfl
      (by decide) hp
  exact ⟨pre, first, fpl, fnow, post, ffm, hl, hf, ht, hln⟩

end FragmentTracker

end Cloink.Uspfilter
