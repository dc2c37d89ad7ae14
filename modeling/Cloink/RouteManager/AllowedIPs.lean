import Cloink.Lib.Netip
import Cloink.Lib.Tally
import Cloink.RouteManager.RefCounter
import Mathlib.Data.List.Induction
import Mathlib.Data.List.Sort

/-!
# The allowed IPs of the WireGuard peers

WireGuard accepts a prefix on one peer only
(`client/internal/routemanager/refcounter/allowedips.go`). The counter keeps the references of every
peer and the peer that is installed; when that one releases its last reference the prefix is handed
over to a peer that still has one. How the two callbacks answer is part of the call, and one that
fails leaves the device as it was. The device refuses the empty key.
-/

namespace Cloink.RouteManager

open Netip AList List Option

/-- The references to one prefix; `active` is empty when no peer is installed. -/
structure AllowedIPsEntry where
  peers : Tally String := ∅
  active : String := ""
  total : ℕ := 0

/-- The errors of the counter, with the prefix and the peer they name. -/
inductive CounterError where
  | addFailed (pfx : Prefix) (peerKey : String)
  | removeFailed (pfx : Prefix) (peerKey : String)
  | swapFailed (pfx : Prefix) (peerKey : String)
  deriving DecidableEq

/-- The peer each prefix is installed on in WireGuard. -/
abbrev Device := AList fun _ : Prefix => String

/-- Installs a prefix on a peer, which takes it from any other. -/
def Device.addAllowedIP (d : Device) (pfx : Prefix) (peerKey : String) (answer : Option AddError) :
    Device × Option AddError :=
  if peerKey = "" then (d, some .failed)
  else match answer with
    | none => (d.insert pfx peerKey, none)
    | some err => (d, some err)

/-- Takes a prefix from a peer; that the peer does not have it is no error. -/
def Device.removeAllowedIP (d : Device) (pfx : Prefix) (peerKey : String) (fails : Bool) :
    Device × Bool :=
  if fails then (d, true)
  else (if d.lookup pfx = some peerKey then d.erase pfx else d, false)

/-- The lowest of the peers that still reference a prefix. -/
def pickSurvivor (peers : Tally String) : Option String :=
  (peers.holders.insertionSort (· ≤ ·)).head?

/-- The counter and the device it programs. -/
structure AllowedIPsRefCounter where
  entries : AList fun _ : Prefix => AllowedIPsEntry := ∅
  device : Device := ∅

namespace AllowedIPsRefCounter

variable (rm : AllowedIPsRefCounter)

/-- The entries after a failed first installation: an entry without references is dropped. -/
def dropUnused (pfx : Prefix) (e : AllowedIPsEntry) : AList fun _ : Prefix => AllowedIPsEntry :=
  if e.total = 0 then rm.entries.erase pfx else rm.entries.insert pfx e

/-- Counts a reference of a peer in the entry of a prefix. -/
def countRef (device : Device) (pfx : Prefix) (peerKey : String) (e : AllowedIPsEntry) :
    AllowedIPsRefCounter × Ref String :=
  let e := { e with peers := e.peers.incr peerKey, total := e.total + 1 }
  (⟨rm.entries.insert pfx e, device⟩, ⟨e.total, e.active⟩)

/-- Adds a reference to a prefix for a peer; the device is programmed only if no peer is installed. -/
def increment (pfx : Prefix) (peerKey : String) (answer : Option AddError) :
    AllowedIPsRefCounter × Ref String × Option CounterError :=
  let e := (rm.entries.lookup pfx).getD {}
  if e.active = "" then
    match rm.device.addAllowedIP pfx peerKey answer with
    | (device, some .ignore) => (⟨rm.dropUnused pfx e, device⟩, ⟨e.total, e.active⟩, none)
    | (device, some .failed) =>
      (⟨rm.dropUnused pfx e, device⟩, ⟨0, ""⟩, some (.addFailed pfx peerKey))
    | (device, none) =>
      let (rm, ref) := rm.countRef device pfx peerKey { e with active := peerKey }
      (rm, ref, none)
  else
    let (rm, ref) := rm.countRef rm.device pfx peerKey e
    (rm, ref, none)

/-- Installs a surviving peer, or drops the entry when none is left; no peer is installed before. -/
def handOver (device : Device) (pfx : Prefix) (e : AllowedIPsEntry) (answer : Option AddError) :
    AllowedIPsRefCounter × Ref String × Option CounterError :=
  match pickSurvivor e.peers with
  | some survivor =>
    match device.addAllowedIP pfx survivor answer with
    | (device, some _) =>
      (⟨rm.entries.insert pfx e, device⟩, ⟨e.total, ""⟩, some (.swapFailed pfx survivor))
    | (device, none) =>
      (⟨rm.entries.insert pfx { e with active := survivor }, device⟩, ⟨e.total, survivor⟩, none)
  | none => (⟨rm.entries.erase pfx, device⟩, ⟨0, ""⟩, none)

/-- The entry with one reference of a peer less, if it has one. -/
def release (e : AllowedIPsEntry) (peerKey : String) : AllowedIPsEntry :=
  if 0 < e.peers.count peerKey then
    { e with peers := e.peers.decr peerKey, total := e.total - 1 }
  else e

/-- Removes a reference to a prefix for a peer. When the installed peer has none left, the prefix is
handed over to a surviving peer or removed. -/
def decrement (pfx : Prefix) (peerKey : String) (removeFails : Bool) (answer : Option AddError) :
    AllowedIPsRefCounter × Ref String × Option CounterError :=
  match rm.entries.lookup pfx with
  | none => (rm, ⟨0, ""⟩, none)
  | some e =>
    let e := release e peerKey
    if e.active ≠ "" ∧ 0 < e.peers.count e.active then
      (⟨rm.entries.insert pfx e, rm.device⟩, ⟨e.total, e.active⟩, none)
    else if e.active ≠ "" then
      match rm.device.removeAllowedIP pfx e.active removeFails with
      | (device, true) =>
        (⟨rm.entries.insert pfx e, device⟩, ⟨e.total, e.active⟩, some (.removeFailed pfx e.active))
      | (device, false) => rm.handOver device pfx { e with active := "" } answer
    else rm.handOver rm.device pfx e answer

/-! ### Runs -/

/-- A call with the answers its callbacks get. -/
inductive Call where
  | increment (pfx : Prefix) (peerKey : String) (answer : Option AddError)
  | decrement (pfx : Prefix) (peerKey : String) (removeFails : Bool) (answer : Option AddError)
  deriving DecidableEq

def Call.pfx : Call → Prefix
  | .increment pfx _ _ => pfx
  | .decrement pfx _ _ _ => pfx

/-- What a call does and returns. -/
def exec : Call → AllowedIPsRefCounter × Ref String × Option CounterError
  | .increment pfx peerKey answer => rm.increment pfx peerKey answer
  | .decrement pfx peerKey removeFails answer => rm.decrement pfx peerKey removeFails answer

def run (calls : List Call) : AllowedIPsRefCounter := calls.foldl (fun rm c => (rm.exec c).1) rm

def references (pfx : Prefix) : ℕ := ((rm.entries.lookup pfx).getD {}).total

def held (pfx : Prefix) (peerKey : String) : ℕ :=
  ((rm.entries.lookup pfx).getD {}).peers.count peerKey

def recorded (pfx : Prefix) : String := ((rm.entries.lookup pfx).getD {}).active

/-- A referenced prefix is installed on a peer that references it, another one is not installed. -/
def Settled (pfx : Prefix) : Prop :=
  (0 < rm.references pfx → ∃ k, rm.device.lookup pfx = some k ∧ 0 < rm.held pfx k) ∧
    (rm.references pfx = 0 → rm.device.lookup pfx = none)

/-- For one prefix: the sum is that of the counts, and the recorded peer is the installed one. -/
structure ConsistentAt (pfx : Prefix) : Prop where
  total_eq : ∀ e, rm.entries.lookup pfx = some e → e.total = e.peers.total
  installed_iff : ∀ k, rm.device.lookup pfx = some k ↔ rm.recorded pfx = k ∧ k ≠ ""

/-- A new reference settles its prefix unless the recorded peer has no reference left and is not
the new holder, or nothing is installed for the other references and the callback declines. -/
def Covers : Call → Prop
  | .increment pfx peerKey answer =>
    (rm.recorded pfx ≠ "" → 0 < rm.held pfx (rm.recorded pfx) ∨ peerKey = rm.recorded pfx) ∧
      (rm.recorded pfx = "" → answer = some .ignore → rm.references pfx = 0)
  | .decrement .. => True

variable {rm} {pfx : Prefix} {e : AllowedIPsEntry} {device : Device} {peerKey : String}

/-! ### The device -/

/-- The device is programmed, or it is left alone with an error. -/
theorem addAllowedIP_cases (d : Device) (pfx : Prefix) (peerKey : String)
    (ans : Option AddError) : (peerKey ≠ "" ∧ ans = none ∧
        d.addAllowedIP pfx peerKey ans = (d.insert pfx peerKey, none)) ∨
      ∃ err, (err = .ignore → ans = some .ignore) ∧
        d.addAllowedIP pfx peerKey ans = (d, some err) := by
  unfold Device.addAllowedIP
  split
  · exact .inr ⟨.failed, by simp, rfl⟩
  · rename_i hk
    cases ans with
    | none => exact .inl ⟨hk, rfl, rfl⟩
    | some err => exact .inr ⟨err, by simp, rfl⟩

variable {q : Prefix} {rm' : AllowedIPsRefCounter}

theorem lookup_addAllowedIP_of_ne (d : Device) (hq : q ≠ pfx) (peerKey : String)
    (ans : Option AddError) : (d.addAllowedIP pfx peerKey ans).1.lookup q = d.lookup q := by
  obtain ⟨-, -, h⟩ | ⟨err, -, h⟩ := addAllowedIP_cases d pfx peerKey ans
  · rw [h]
    exact lookup_insert_ne hq
  · rw [h]

theorem lookup_removeAllowedIP_of_ne (d : Device) (hq : q ≠ pfx) (peerKey : String) (fails : Bool) :
    (d.removeAllowedIP pfx peerKey fails).1.lookup q = d.lookup q := by
  unfold Device.removeAllowedIP
  split
  · rfl
  · split
    · exact lookup_erase_ne hq
    · rfl

/-! ### Other prefixes -/

/-- Two states that agree on a prefix. -/
def SameAt (rm rm' : AllowedIPsRefCounter) (q : Prefix) : Prop :=
  rm'.entries.lookup q = rm.entries.lookup q ∧ rm'.device.lookup q = rm.device.lookup q

theorem SameAt.settled_iff (h : SameAt rm rm' q) : rm'.Settled q ↔ rm.Settled q := by
  simp only [Settled, references, held, h.1, h.2]

theorem SameAt.consistentAt (h : SameAt rm rm' q) (hc : rm.ConsistentAt q) :
    rm'.ConsistentAt q where
  total_eq := by
    rw [h.1]
    exact hc.total_eq
  installed_iff := by
    rw [h.2, recorded, h.1]
    exact hc.installed_iff

theorem sameAt_increment (hq : q ≠ pfx) (ans : Option AddError) :
    SameAt rm (rm.increment pfx peerKey ans).1 q := by
  have hdv := lookup_addAllowedIP_of_ne rm.device hq peerKey ans
  have hd : ∀ e, (rm.dropUnused pfx e).lookup q = rm.entries.lookup q := fun e => by
    unfold dropUnused
    split
    · exact lookup_erase_ne hq
    · exact lookup_insert_ne hq
  unfold increment
  dsimp only
  split
  · split <;> rename_i heq <;> rw [heq] at hdv
    · exact ⟨hd _, hdv⟩
    · exact ⟨hd _, hdv⟩
    · exact ⟨lookup_insert_ne hq, hdv⟩
  · exact ⟨lookup_insert_ne hq, rfl⟩

theorem sameAt_handOver (hq : q ≠ pfx) (hd : device.lookup q = rm.device.lookup q)
    (ans : Option AddError) : SameAt rm (rm.handOver device pfx e ans).1 q := by
  unfold handOver
  split
  · rename_i sv _
    have ha := lookup_addAllowedIP_of_ne device hq sv ans
    split <;> rename_i heq <;> rw [heq] at ha
    · exact ⟨lookup_insert_ne hq, ha.trans hd⟩
    · exact ⟨lookup_insert_ne hq, ha.trans hd⟩
  · exact ⟨lookup_erase_ne hq, hd⟩

theorem sameAt_decrement (hq : q ≠ pfx) (rf : Bool) (ans : Option AddError) :
    SameAt rm (rm.decrement pfx peerKey rf ans).1 q := by
  unfold decrement
  split
  · exact ⟨rfl, rfl⟩
  · rename_i e _
    dsimp only
    have hr := lookup_removeAllowedIP_of_ne rm.device hq (release e peerKey).active rf
    split
    · exact ⟨lookup_insert_ne hq, rfl⟩
    · split
      · split <;> rename_i heq <;> rw [heq] at hr
        · exact ⟨lookup_insert_ne hq, hr⟩
        · exact sameAt_handOver hq hr ans
      · exact sameAt_handOver hq rfl ans

/-- A call does not touch other prefixes. -/
theorem sameAt_exec {c : Call} (hq : q ≠ c.pfx) : SameAt rm (rm.exec c).1 q := by
  cases c with
  | increment pfx peerKey ans => exact sameAt_increment hq ans
  | decrement pfx peerKey rf ans => exact sameAt_decrement hq rf ans

/-! ### The prefix of the call -/

theorem pickSurvivor_eq_some {peers : Tally String} {k : String} (h : pickSurvivor peers = some k) :
    0 < peers.count k := by
  have hm : k ∈ peers.holders.insertionSort (· ≤ ·) := mem_of_mem_head? h
  exact peers.mem_holders.1 ((mem_insertionSort _).1 hm)

theorem pickSurvivor_eq_none {peers : Tally String} (h : pickSurvivor peers = none) :
    peers.total = 0 := by
  rw [pickSurvivor, List.head?_eq_none_iff] at h
  refine peers.holders_eq_nil_iff.1 (eq_nil_iff_forall_not_mem.2 fun k hk => ?_)
  have hm := (mem_insertionSort (· ≤ ·)).2 hk
  rw [h] at hm
  exact not_mem_nil hm

/-- What a prefix needs of its entry and of the device to be consistent. -/
def Matches (device : Device) (pfx : Prefix) (e : AllowedIPsEntry) : Prop :=
  e.total = e.peers.total ∧ ∀ k, device.lookup pfx = some k ↔ e.active = k ∧ k ≠ ""

theorem ConsistentAt.matches (h : rm.ConsistentAt pfx) :
    Matches rm.device pfx ((rm.entries.lookup pfx).getD {}) := by
  refine ⟨?_, h.installed_iff⟩
  cases hl : rm.entries.lookup pfx with
  | none => rfl
  | some e => exact h.total_eq e hl

theorem Matches.lookup_eq_none (h : Matches device pfx e) (he : e.active = "") :
    device.lookup pfx = none := by
  cases hd : device.lookup pfx with
  | none => rfl
  | some k => exact absurd (((h.2 k).1 hd).1.symm.trans he) ((h.2 k).1 hd).2

variable (entries : AList fun _ : Prefix => AllowedIPsEntry)

theorem Matches.consistentAt
    (h : Matches device pfx e) : ConsistentAt ⟨entries.insert pfx e, device⟩ pfx where
  total_eq e' he' := by
    rw [lookup_insert, some.injEq] at he'
    rw [← he']
    exact h.1
  installed_iff := by
    simpa [recorded] using h.2

theorem consistentAt_erase
    (h : device.lookup pfx = none) : ConsistentAt ⟨entries.erase pfx, device⟩ pfx where
  total_eq := by simp
  installed_iff k := by
    simp only [h, recorded, lookup_erase, getD_none, reduceCtorEq, false_iff, not_and, not_not]
    exact fun hk => hk.symm

/-- When a prefix with an entry is settled. -/
theorem settled_insert : Settled ⟨entries.insert pfx e, device⟩ pfx ↔
      (0 < e.total → ∃ k, device.lookup pfx = some k ∧ 0 < e.peers.count k) ∧
        (e.total = 0 → device.lookup pfx = none) := by
  simp [Settled, references, held]

theorem settled_erase : Settled ⟨entries.erase pfx, device⟩ pfx ↔ device.lookup pfx = none := by
  simp [Settled, references]

theorem matches_insert (device : Device) (ht : e.total = e.peers.total) (hk : peerKey ≠ "") :
    Matches (device.insert pfx peerKey) pfx { e with active := peerKey } := by
  refine ⟨ht, fun k => ?_⟩
  rw [lookup_insert, some.injEq]
  constructor
  · rintro rfl
    exact ⟨rfl, hk⟩
  · exact fun h => h.1

theorem Matches.incr (h : Matches device pfx e) (peerKey : String) :
    Matches device pfx { e with peers := e.peers.incr peerKey, total := e.total + 1 } :=
  ⟨by simp [h.1], h.2⟩

/-- A reference that is given back does not change the device. -/
theorem Matches.release (h : Matches device pfx e) (peerKey : String) :
    Matches device pfx (release e peerKey) := by
  unfold AllowedIPsRefCounter.release
  split
  · rename_i hp
    have ht := e.peers.total_decr_add_one hp
    exact ⟨by simp only [h.1]; omega, h.2⟩
  · exact h

theorem Matches.dropUnused (h : Matches device pfx e) (he : e.active = "") :
    ConsistentAt ⟨rm.dropUnused pfx e, device⟩ pfx := by
  unfold AllowedIPsRefCounter.dropUnused
  split
  · exact consistentAt_erase _ (h.lookup_eq_none he)
  · exact h.consistentAt _

/-- An increment keeps the entry and the device consistent. -/
theorem consistentAt_increment (h : rm.ConsistentAt pfx) (ans : Option AddError) :
    (rm.increment pfx peerKey ans).1.ConsistentAt pfx := by
  unfold increment
  dsimp only
  have hm := h.matches
  generalize (rm.entries.lookup pfx).getD {} = e at hm ⊢
  split
  · rename_i hac
    obtain ⟨hk, -, ha⟩ | ⟨err, -, ha⟩ := addAllowedIP_cases rm.device pfx peerKey ans
    · rw [ha]
      exact ((matches_insert rm.device hm.1 hk).incr peerKey).consistentAt _
    · rw [ha]
      cases err <;> exact hm.dropUnused hac
  · exact (hm.incr peerKey).consistentAt _

/-- The hand-over keeps the prefix consistent, and settles it unless it fails. -/
theorem handOver_spec (hm : Matches device pfx e) (he : e.active = "") (ans : Option AddError) :
    (rm.handOver device pfx e ans).1.ConsistentAt pfx ∧ ((rm.handOver device pfx e ans).2.2 = none →
        (rm.handOver device pfx e ans).1.Settled pfx) := by
  unfold handOver
  cases hs : pickSurvivor e.peers with
  | none =>
    have hn := hm.lookup_eq_none he
    exact ⟨consistentAt_erase _ hn, fun _ => (settled_erase _).2 hn⟩
  | some sv =>
    have hp := pickSurvivor_eq_some hs
    dsimp only
    obtain ⟨hk, -, ha⟩ | ⟨err, -, ha⟩ := addAllowedIP_cases device pfx sv ans
    · rw [ha]
      refine ⟨(matches_insert device hm.1 hk).consistentAt _, fun _ => (settled_insert _).2 ⟨?_, ?_⟩⟩
      · exact fun _ => ⟨sv, lookup_insert _, hp⟩
      · intro hz
        have hle := e.peers.count_le_total sv
        have ht := hm.1
        simp only at hz
        omega
    · rw [ha]
      exact ⟨hm.consistentAt _, fun h => by cases h⟩

/-- So does a decrement; one without an error settles the prefix. -/
theorem decrement_spec (h : rm.ConsistentAt pfx) (rf : Bool) (ans : Option AddError) :
    (rm.decrement pfx peerKey rf ans).1.ConsistentAt pfx ∧
      ((rm.decrement pfx peerKey rf ans).2.2 = none →
        (rm.decrement pfx peerKey rf ans).1.Settled pfx) := by
  have hm := h.matches
  unfold decrement
  cases hl : rm.entries.lookup pfx with
  | none =>
    rw [hl] at hm
    refine ⟨h, fun _ => ?_⟩
    simp [Settled, references, hl, hm.lookup_eq_none rfl]
  | some e =>
    rw [hl, getD_some] at hm
    replace hm := hm.release peerKey
    dsimp only
    generalize release e peerKey = e at hm ⊢
    split
    · rename_i ha
      refine ⟨hm.consistentAt _, fun _ => (settled_insert _).2 ⟨fun _ => ?_, fun hz => ?_⟩⟩
      · exact ⟨e.active, (hm.2 _).2 ⟨rfl, ha.1⟩, ha.2⟩
      · have hle := e.peers.count_le_total e.active
        have ht := hm.1
        omega
    · split
      · rename_i hne
        cases rf with
        | true => exact ⟨hm.consistentAt _, fun h => by cases h⟩
        | false =>
          have hr : rm.device.removeAllowedIP pfx e.active false = (rm.device.erase pfx, false) := by
            simp [Device.removeAllowedIP, (hm.2 e.active).2 ⟨rfl, hne⟩]
          rw [hr]
          have hn : Matches (rm.device.erase pfx) pfx { e with active := "" } := by
            refine ⟨hm.1, fun k => ?_⟩
            rw [lookup_erase]
            simp only [reduceCtorEq, false_iff, not_and, not_not]
            exact fun hk => hk.symm
          exact handOver_spec hn rfl ans
      · rename_i ha
        exact handOver_spec hm (not_not.1 ha) ans

/-- An increment without an error settles the prefix exactly when it covers it. -/
theorem settled_increment_iff (h : rm.ConsistentAt pfx) {ans : Option AddError}
    (hok : (rm.increment pfx peerKey ans).2.2 = none) :
    (rm.increment pfx peerKey ans).1.Settled pfx ↔ rm.Covers (.increment pfx peerKey ans) := by
  have hm := h.matches
  unfold Covers recorded held references
  unfold increment at hok ⊢
  dsimp only at hok ⊢
  generalize (rm.entries.lookup pfx).getD {} = e at hm hok ⊢
  by_cases ha : e.active = ""
  · rw [if_pos ha] at hok ⊢
    obtain ⟨hk, han, had⟩ | ⟨err, hi, had⟩ := addAllowedIP_cases rm.device pfx peerKey ans
    · rw [had]
      simp [countRef, settled_insert, ha, han]
    · rw [had] at hok ⊢
      cases err with
      | failed => cases hok
      | ignore =>
        have hn := hm.lookup_eq_none ha
        by_cases hz : e.total = 0 <;>
          simp [dropUnused, hz, settled_erase, settled_insert, hn, ha, hi rfl]
  · rw [if_neg ha]
    have hin : rm.device.lookup pfx = some e.active := (hm.2 _).2 ⟨rfl, ha⟩
    simp [countRef, settled_insert, ha, hin]
    by_cases hka : e.active = peerKey
    · simp [hka]
    · simp [hka, Ne.symm hka]

/-! ### References of one peer -/

theorem SameAt.held_eq (h : SameAt rm rm' q) (k : String) : rm'.held q k = rm.held q k := by
  simp only [held, h.1]

theorem count_release (e : AllowedIPsEntry) (peerKey k : String) :
    (release e peerKey).peers.count k = e.peers.count k - if k = peerKey then 1 else 0 := by
  unfold release
  split
  · rw [Tally.count_decr]
    split
    · rename_i hk
      rw [hk]
    · rfl
  · split
    · rename_i hk
      subst hk
      omega
    · rfl

theorem held_handOver (device : Device) (pfx : Prefix) (e : AllowedIPsEntry)
    (ans : Option AddError) (k : String) :
    (rm.handOver device pfx e ans).1.held pfx k = e.peers.count k := by
  unfold handOver
  split
  · split <;> simp [held]
  · rename_i hn
    have hle := e.peers.count_le_total k
    rw [pickSurvivor_eq_none hn] at hle
    simp [held]
    omega

/-- A decrement takes a reference from one peer at one prefix. -/
theorem held_decrement (pfx q : Prefix) (peerKey k : String) (rf : Bool)
    (ans : Option AddError) : (rm.decrement pfx peerKey rf ans).1.held q k =
      rm.held q k - if q = pfx ∧ k = peerKey then 1 else 0 := by
  by_cases hq : q = pfx
  · subst hq
    simp only [true_and]
    unfold decrement
    cases hl : rm.entries.lookup q with
    | none => simp [held, hl]
    | some e =>
      have hh : rm.held q k = e.peers.count k := by simp [held, hl]
      dsimp only
      rw [hh, ← count_release e peerKey k]
      split
      · simp [held]
      · split
        · split
          · simp [held]
          · exact held_handOver _ _ _ _ _
        · exact held_handOver _ _ _ _ _
  · rw [(sameAt_decrement hq rf ans).held_eq]
    simp [hq]

/-- An increment adds one. -/
theorem held_increment (pfx q : Prefix) (hky : peerKey ≠ "") (k : String) :
    (rm.increment pfx peerKey none).1.held q k =
      rm.held q k + if q = pfx ∧ k = peerKey then 1 else 0 := by
  by_cases hq : q = pfx
  · subst hq
    have hc : ∀ e : AllowedIPsEntry, (e.peers.incr peerKey).count k =
        e.peers.count k + if k = peerKey then 1 else 0 := fun e => by
      rw [Tally.count_incr]
      split
      · rename_i hk
        rw [hk]
      · rfl
    unfold increment Device.addAllowedIP
    simp only [if_neg hky, true_and]
    split <;> simp [held, countRef, hc]
  · rw [(sameAt_increment hq none).held_eq]
    simp [hq]

theorem consistentAt_exec (c : Call) (h : ∀ q, rm.ConsistentAt q) (q : Prefix) :
    (rm.exec c).1.ConsistentAt q := by
  by_cases hq : q = c.pfx
  · subst hq
    cases c with
    | increment pfx peerKey ans => exact consistentAt_increment (h pfx) ans
    | decrement pfx peerKey rf ans =>
      exact (decrement_spec (h pfx) rf ans).1
  · exact (sameAt_exec hq).consistentAt (h q)

/-! ### Every run -/

/-- After every sequence of calls, whatever their callbacks answer, the sums are right and the
recorded peers are the installed ones. -/
theorem consistentAt_run (calls : List Call) (q : Prefix) : (run {} calls).ConsistentAt q := by
  induction calls using List.reverseRecOn generalizing q with
  | nil => exact ⟨by simp [run], by simp [run, recorded, eq_comm]⟩
  | append_singleton calls c ih =>
    rw [run, foldl_append]
    exact consistentAt_exec c ih q

/-- The same for every call. -/
theorem settled_exec_iff {c : Call} (h : rm.ConsistentAt c.pfx) (hok : (rm.exec c).2.2 = none) :
    (rm.exec c).1.Settled c.pfx ↔ rm.Covers c := by
  cases c with
  | increment pfx peerKey ans => exact settled_increment_iff h hok
  | decrement pfx peerKey rf ans =>
    exact iff_of_true ((decrement_spec h rf ans).2 hok) trivial

/-- Calls on other prefixes leave a prefix as it is. -/
theorem settled_run_iff {calls : List Call} (hq : ∀ c ∈ calls, c.pfx ≠ q) :
    (rm.run calls).Settled q ↔ rm.Settled q := by
  induction calls generalizing rm with
  | nil => rfl
  | cons c calls ih =>
    have hc : q ≠ c.pfx := (hq c mem_cons_self).symm
    exact (ih fun d hd => hq d (mem_cons_of_mem c hd)).trans (sameAt_exec hc).settled_iff

/-- In every run the sums are right and the recorded peers are the installed ones. The prefix of a
call that returns no error is on a peer that references it, until the next call on that prefix, if
and only if the call does not count a reference beside a recorded peer without one. -/
theorem follows_holder_iff (calls : List Call) : (∀ q, (run {} calls).ConsistentAt q) ∧
      ∀ c later, ((run {} calls).exec c).2.2 = none → (∀ d ∈ later, d.pfx ≠ c.pfx) →
        ((run {} (calls ++ c :: later)).Settled c.pfx ↔ (run {} calls).Covers c) := by
  refine ⟨consistentAt_run calls, fun c later hok hl => ?_⟩
  have hr : run {} (calls ++ c :: later) = ((run {} calls).exec c).1.run later := by
    simp [run]
  rw [hr, settled_run_iff hl]
  exact settled_exec_iff (consistentAt_run calls c.pfx) hok

/-- The host prefix of an address of a documentation network. -/
def samplePrefix : Prefix := prefixFrom (.from4 192 0 2 1) 32

/-- A reference that is released and taken again while the device does as it is told. -/
theorem follows_holder_iff_retaken : let calls : List Call :=
      [.increment samplePrefix "a" none, .increment samplePrefix "b" none]
    ((run {} calls).exec (.decrement samplePrefix "a" false none)).2.2 = none ∧
      ((run {} (calls ++ [.decrement samplePrefix "a" false none])).Settled samplePrefix ↔
        (run {} calls).Covers (.decrement samplePrefix "a" false none)) := by
  refine ⟨by decide +kernel, ?_⟩
  exact (follows_holder_iff _).2 (.decrement samplePrefix "a" false none) [] (by decide +kernel)
    (by simp)

/-- The device refuses to take the prefix from the peer that released it. The next peer that
references the prefix is told that all is well, and the prefix stays where it was. -/
theorem increment_beside_released_peer : let calls : List Call :=
      [.increment samplePrefix "a" none, .decrement samplePrefix "a" true none]
    let c : Call := .increment samplePrefix "b" none
    ((run {} calls).exec c).2 = (⟨1, "a"⟩, none) ∧ ¬(run {} (calls ++ [c])).Settled samplePrefix := by
  refine ⟨by decide +kernel, fun h => ?_⟩
  obtain ⟨k, hk, hp⟩ := h.1 (by decide +kernel)
  have ha : (run {} [.increment samplePrefix "a" none, .decrement samplePrefix "a" true none,
      .increment samplePrefix "b" none]).device.lookup samplePrefix = some "a" := by decide +kernel
  obtain rfl := some.inj (ha.symm.trans hk)
  exact absurd hp (by decide +kernel)

end AllowedIPsRefCounter

end Cloink.RouteManager
