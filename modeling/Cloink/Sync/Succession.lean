import Cloink.Sync.Streams

/-!
# Streams that replace each other

In the store the session of a stream is fenced by its token. The channel, the place on the list of
ephemeral peers and the refresh are kept by the id of the peer alone, so the cleanup of an older
stream takes them away from a newer one, unless the streams take the lock of the peer in turn.
-/

namespace Cloink.Sync

open Interleaving Option

namespace Phase

@[simp]
def holdsLock : Phase → Bool
  | .locked | .computed _ | .marked _ | .initialSent _ | .announced _ | .created | .refreshed
  | .cleaning _ => true
  | _ => false

/-- The stream has not had the lock of the peer yet. -/
@[simp]
def fresh : Phase → Bool
  | .idle | .waiting => true
  | _ => false

/-- The ephemeral peer has been taken off the list for the stream. -/
@[simp]
def live : Phase → Bool
  | .announced _ | .created | .refreshed | .handling => true
  | _ => false

@[simp]
def hasChannel : Phase → Bool
  | .created | .refreshed | .handling => true
  | _ => false

@[simp]
def hasRefresh : Phase → Bool
  | .refreshed | .handling => true
  | _ => false

end Phase

/-- The stream whose cleanup the action is a step of. -/
def Action.cleanupOf : Action → Option Nat
  | .markPeerDisconnected i | .closeChannel i | .onPeerDisconnected i _ | .cancelRefresh i
  | .releaseCleanupLock i => some i
  | _ => none

namespace State

variable (cfg : Config) (s : State)

/-- A stream takes the lock, for its call or its cleanup, only while no later stream has created its
channel. -/
def InTurn : Action → Prop
  | .acquirePeerLock i | .acquireCleanupLock i =>
    ∀ j < s.started, i < j → (s.channels j).made = false
  | _ => True

instance : DecidablePred s.InTurn := fun a => by
  apply a.casesOn (motive := fun a => Decidable (s.InTurn a)) <;> intros <;>
    dsimp only [InTurn] <;> infer_instance

/-- A step to `s'` closes the channel of the stream, puts the peer on the list of disconnected
ephemeral peers, or cancels the refresh of the stream. -/
def Disturbs (s' : State) (j : Nat) : Prop :=
  ((s.channels j).closed = false ∧ (s'.channels j).closed) ∨
  (s.onEphemeralList = false ∧ s'.onEphemeralList) ∨
  (s.turnCancel = some j ∧ s'.turnCancel ≠ some j) ∨
  (s.relayCancel = some j ∧ s'.relayCancel ≠ some j)

/-- The stream has what it needs, as far as it has got: the peer is not on the list, the channel is
open and is the one of the peer, and the refresh is running. -/
structure Intact (j : Nat) : Prop where
  unlisted : (s.streams j).phase.live → s.onEphemeralList = false
  channel : (s.streams j).phase.hasChannel → s.peerChannel = some j ∧ (s.channels j).closed = false
  refresh : (s.streams j).phase.hasRefresh → s.turnCancel = (if cfg.turn then some j else none) ∧
      s.relayCancel = (if cfg.relay then some j else none)

/-- No later stream has had the lock of the peer. -/
def Latest (j : Nat) : Prop := ∀ k < s.started, j < k → (s.streams k).phase.fresh

instance (j : Nat) : Decidable (s.Latest j) := inferInstanceAs (Decidable (∀ _ < _, _))

/-! ### What the steps keep -/

structure Orderly : Prop where
  started_of_phase : ∀ i, (s.streams i).phase ≠ .idle → i < s.started
  made_started : ∀ i, (s.channels i).made → i < s.started
  made_of_phase : ∀ i, (s.streams i).phase.hasChannel → (s.channels i).made
  lock_of_phase : ∀ i, (s.streams i).phase.holdsLock → s.lock = some i
  no_successor : ∀ i, (s.streams i).phase.holdsLock → ∀ j, i < j → (s.channels j).made = false
  unlisted : cfg.ephemeral = false → s.onEphemeralList = false
  intact : ∀ j, s.Latest j → s.Intact cfg j

variable {cfg s} {s' : State}

variable {i j : Nat} {p : Phase}

variable (h : s.Orderly cfg)

include h

theorem Orderly.eq_of_live (hi : (s.streams i).phase.holdsLock)
    (hlt : s.Latest j) (hj : (s.streams j).phase.live) : j = i := by
  rcases Nat.lt_trichotomy i j with hij | hij | hij
  · -- the later stream has a channel, which is too early, or has the lock as well
    have hcs : (s.streams j).phase.hasChannel ∨ (s.streams j).phase.holdsLock := by
      cases hp : (s.streams j).phase <;> simp_all
    rcases hcs with hc | hl
    · exact absurd (h.made_of_phase j hc) (by simp [h.no_successor i hi j hij])
    · exact some.inj ((h.lock_of_phase j hl).symm.trans (h.lock_of_phase i hi))
  · exact hij.symm
  · have hf := hlt i (h.started_of_phase i fun hid => by simp [hid] at hi) hij
    cases hp : (s.streams i).phase <;> simp_all

omit h in
theorem Intact.of_not_live (hj : (s.streams j).phase.live = false) : s.Intact cfg j := by
  constructor <;> cases hp : (s.streams j).phase <;> simp_all

/-- A step of the stream that has the lock: only what it leaves for that stream is to be shown. -/
theorem Orderly.holder (hi : (s.streams i).phase.holdsLock)
    (hs : s'.started = s.started) (hsl : (s'.streams i).phase = p)
    (ho : ∀ j, j ≠ i → s'.streams j = s.streams j)
    (hm : ∀ j, j ≠ i → (s'.channels j).made = (s.channels j).made)
    (hmade_self : p.hasChannel → (s'.channels i).made) (hlc : p.holdsLock → s'.lock = some i)
    (hu : cfg.ephemeral = false → s'.onEphemeralList = false)
    (hin : s.Latest i → s'.Intact cfg i) (hf : p.fresh = false) : s'.Orderly cfg := by
  have hne : (s.streams i).phase ≠ .idle := by
    intro hid
    simp [hid] at hi
  have hlt := h.started_of_phase i hne
  refine ⟨fun j hj => ?_, fun j hj => ?_, fun j hj => ?_, fun j hj => ?_, fun j hj k hjk => ?_,
    hu, fun j hj => ?_⟩
  · rw [hs]
    by_cases hji : j = i
    · exact hji ▸ hlt
    · exact h.started_of_phase j (ho j hji ▸ hj)
  · rw [hs]
    by_cases hji : j = i
    · exact hji ▸ hlt
    · exact h.made_started j (hm j hji ▸ hj)
  · by_cases hji : j = i
    · subst hji
      exact hmade_self (hsl ▸ hj)
    · rw [hm j hji]
      exact h.made_of_phase j (ho j hji ▸ hj)
  · by_cases hji : j = i
    · subst hji
      exact hlc (hsl ▸ hj)
    · have hlj := h.lock_of_phase j (ho j hji ▸ hj)
      exact absurd (some.inj (hlj.symm.trans (h.lock_of_phase i hi))) hji
  · -- the stream with the lock is the same before and after
    by_cases hji : j = i
    · subst hji
      rw [hm k (Nat.ne_of_gt hjk)]
      exact h.no_successor j hi k hjk
    · have hlj := h.lock_of_phase j (ho j hji ▸ hj)
      exact absurd (some.inj (hlj.symm.trans (h.lock_of_phase i hi))) hji
  · by_cases hji : j = i
    · subst hji
      exact hin fun k hks hk => ho k (Nat.ne_of_gt hk) ▸ hj k (hs ▸ hks) hk
    · -- another stream that is live would have been live before
      refine Intact.of_not_live (Bool.eq_false_iff.2 fun hl => ?_)
      rw [ho j hji] at hl
      refine hji (h.eq_of_live hi (fun k hks hk => ?_) hl)
      have hk' := hj k (hs ▸ hks) hk
      by_cases hki : k = i
      · subst hki
        rw [hsl, hf] at hk'
        cases hk'
      · exact ho k hki ▸ hk'

/-- The states agree on what the streams share. -/
structure SameShared (s s' : State) : Prop where
  made : ∀ j, (s'.channels j).made = (s.channels j).made := by intro _; rfl
  closed : ∀ j, (s'.channels j).closed = (s.channels j).closed := by intro _; rfl
  peerChannel : s'.peerChannel = s.peerChannel := by rfl
  onEphemeralList : s'.onEphemeralList = s.onEphemeralList := by rfl
  turnCancel : s'.turnCancel = s.turnCancel := by rfl
  relayCancel : s'.relayCancel = s.relayCancel := by rfl

omit h in
theorem Intact.congr (h : s.Intact cfg j) (hs : SameShared s s')
    (hp : (s'.streams j).phase = (s.streams j).phase) : s'.Intact cfg j where
  unlisted hj := hs.onEphemeralList ▸ h.unlisted (hp ▸ hj)
  channel hj := by
    rw [hs.peerChannel, hs.closed]
    exact h.channel (hp ▸ hj)
  refresh hj := by
    rw [hs.turnCancel, hs.relayCancel]
    exact h.refresh (hp ▸ hj)

/-- A step that leaves the lock and what is shared; streams may start and begin to end. -/
theorem Orderly.frame (hs : SameShared s s') (hst : s.started ≤ s'.started) (hl : s'.lock = s.lock)
    (hph : ∀ j, (s'.streams j).phase = (s.streams j).phase ∨
      (s.streams j).phase = .handling ∧ (s'.streams j).phase = .ending ∨
      (s'.streams j).phase = .waiting ∧ j < s'.started ∧ (s.streams j).phase.fresh) :
    s'.Orderly cfg := by
  refine ⟨fun j hj => ?_, fun j hj => ?_, fun j hj => ?_, fun j hj => ?_, fun j hj k hjk => ?_,
    fun he => hs.onEphemeralList ▸ h.unlisted he, fun j hj => ?_⟩
  · rcases hph j with hp | ⟨hp, -⟩ | ⟨-, hlt, -⟩
    · exact Nat.lt_of_lt_of_le (h.started_of_phase j (hp ▸ hj)) hst
    · exact Nat.lt_of_lt_of_le (h.started_of_phase j (by simp [hp])) hst
    · exact hlt
  · exact Nat.lt_of_lt_of_le (h.made_started j (hs.made j ▸ hj)) hst
  · rw [hs.made]
    rcases hph j with hp | ⟨-, hp⟩ | ⟨hp, -⟩
    · exact h.made_of_phase j (hp ▸ hj)
    · simp [hp] at hj
    · simp [hp] at hj
  · rw [hl]
    rcases hph j with hp | ⟨-, hp⟩ | ⟨hp, -⟩
    · exact h.lock_of_phase j (hp ▸ hj)
    · simp [hp] at hj
    · simp [hp] at hj
  · rw [hs.made]
    rcases hph j with hp | ⟨-, hp⟩ | ⟨hp, -⟩
    · exact h.no_successor j (hp ▸ hj) k hjk
    · simp [hp] at hj
    · simp [hp] at hj
  · rcases hph j with hp | ⟨-, hp⟩ | ⟨hp, -⟩
    · refine (h.intact j fun k hks hk => ?_).congr hs hp
      have hfr := hj k (Nat.lt_of_lt_of_le hks hst) hk
      rcases hph k with hp | ⟨-, hp⟩ | ⟨-, -, hf⟩
      · exact hp ▸ hfr
      · simp [hp] at hfr
      · exact hf
    · exact Intact.of_not_live (by simp [hp])
    · exact Intact.of_not_live (by simp [hp])

theorem Orderly.acquire {q : Phase} (hq : (s.streams i).phase = q)
    (hi : q ≠ .idle) (hlc : s.lock = none) (hlv : p.live = false) (hfr : p.fresh = false)
    (ht : ∀ j < s.started, i < j → (s.channels j).made = false) :
    State.Orderly cfg { s.setPhase i p with lock := some i } := by
  have hs : ((s.setPhase i p).streams i).phase = p := by simp
  have ho {j : Nat} (hj : j ≠ i) : (s.setPhase i p).streams j = s.streams j := by
    simp [hj]
  have hf {j : Nat} (hj : j ≠ i) : ((s.setPhase i p).streams j).phase.holdsLock = false := by
    rw [ho hj]
    refine Bool.eq_false_iff.2 fun hl => ?_
    have hlj := h.lock_of_phase j hl
    rw [hlc] at hlj
    cases hlj
  refine ⟨fun j hj => ?_, h.made_started, fun j hj => ?_, fun j hj => ?_, fun j hj k hjk => ?_,
    h.unlisted, fun j hj => ?_⟩
  · by_cases hji : j = i
    · exact h.started_of_phase j (by rw [hji, hq]; exact hi)
    · exact h.started_of_phase j (ho hji ▸ hj)
  · by_cases hji : j = i
    · subst hji
      rw [show _ = p from hs] at hj
      cases p <;> simp_all
    · exact h.made_of_phase j (ho hji ▸ hj)
  · by_cases hji : j = i
    · rw [hji]
    · exact absurd hj (Bool.eq_false_iff.1 (hf hji))
  · by_cases hji : j = i
    · subst hji
      by_cases hk : k < s.started
      · exact ht k hk hjk
      · exact Bool.eq_false_iff.2 fun hm => hk (h.made_started k hm)
    · exact absurd hj (Bool.eq_false_iff.1 (hf hji))
  · by_cases hji : j = i
    · subst hji
      exact Intact.of_not_live ((congrArg Phase.live hs).trans hlv)
    · -- a later stream does not have the lock, so this one is not later
      refine (h.intact j fun k hks hk => ?_).congr {}
        (congrArg Stream.phase (ho hji))
      have hk' := hj k hks hk
      by_cases hki : k = i
      · subst hki
        rw [show _ = p from hs, hfr] at hk'
        cases hk'
      · exact ho hki ▸ hk'

theorem Orderly.ending (hi : (s.streams i).phase = .handling) :
    (s.setPhase i .ending).Orderly cfg := by
  refine h.frame {} (Nat.le_refl _) rfl fun j => ?_
  by_cases hji : j = i
  · subst hji
    exact .inr (.inl ⟨hi, by simp⟩)
  · exact .inl (by simp [hji])

omit h in
theorem sameShared_sendToChannel (s : State) (m : Message) : SameShared s (s.sendToChannel m) := by
  unfold State.sendToChannel
  split
  · exact {}
  · rename_i c hc
    split
    · refine ⟨fun j => ?_, fun j => ?_, rfl, rfl, rfl, rfl⟩
      all_goals
        by_cases hjc : j = c
        · subst hjc
          simp
        · simp [hjc]
    · exact {}

theorem Orderly.move {q : Phase} (hq : (s.streams i).phase = q)
    (hl : q.holdsLock) (hsl : (s'.streams i).phase = p)
    (ho : ∀ j, j ≠ i → s'.streams j = s.streams j) (hs : s'.started = s.started)
    (hc : s'.channels = s.channels) (hlc : p.holdsLock → s'.lock = s.lock)
    (hu : cfg.ephemeral = false → s'.onEphemeralList = false) (hf : p.fresh = false)
    (hch : p.hasChannel → q.hasChannel) (hi : p.live → s.Latest i → s'.Intact cfg i) :
    s'.Orderly cfg := by
  subst hq
  refine h.holder hl hs hsl ho (fun j _ => by rw [hc]) (fun hp => ?_)
    (fun hp => (hlc hp).trans (h.lock_of_phase i hl)) hu (fun hlt => ?_) hf
  · rw [hc]
    exact h.made_of_phase i (hch hp)
  · by_cases hp : p.live = true
    · exact hi hp hlt
    · exact Intact.of_not_live (by rw [hsl]; simpa using hp)

theorem Orderly.createChannel {v : Nat} (hp : (s.streams i).phase = .announced v) :
    State.Orderly cfg { (s.closePeerChannel.setPhase i .created).setChannel i { made := true } with
      peerChannel := some i } := by
  obtain ⟨hs, hst, hlc, hls, hm⟩ := s.closePeerChannel_frame
  have hl : (s.streams i).phase.holdsLock := by simp [hp]
  refine h.holder (p := .created) hl hst ?_ (fun j hj => ?_) (fun j hj => ?_) (fun _ => ?_)
    (fun _ => hlc.trans (h.lock_of_phase i hl)) (fun he => hls.trans (h.unlisted he))
    (fun hlt => ?_) rfl
  · simp
  · simp [hj, hs]
  · rw [← hm j]
    simp [hj]
  · simp
  · refine ⟨fun _ => hls.trans ((h.intact i hlt).unlisted (by simp [hp])), fun _ => ⟨rfl, ?_⟩,
      fun hr => ?_⟩
    · simp
    · simp at hr

theorem Orderly.start :
    State.Orderly cfg { s.setPhase s.started .waiting with started := s.started + 1 } := by
  refine h.frame {} (Nat.le_succ _) rfl fun j => ?_
  by_cases hj : j = s.started
  · subst hj
    refine .inr (.inr ⟨by simp, Nat.lt_succ_self _, ?_⟩)
    by_contra hne
    refine absurd (h.started_of_phase s.started fun hid => hne ?_) (Nat.lt_irrefl _)
    rw [hid]
    rfl
  · exact .inl (by simp [hj])

/-- A stream that has the lock moves to a phase in which it owns nothing that is shared. -/
theorem Orderly.advance {q : Phase} (hq : (s.streams i).phase = q) (hl : q.holdsLock)
    (hs' : s'.streams = (s.setPhase i p).streams) (hs : s'.started = s.started)
    (hc : s'.channels = s.channels) (hlc : p.holdsLock → s'.lock = s.lock)
    (hu : s'.onEphemeralList = s.onEphemeralList) (hf : p.fresh = false) (hlv : p.live = false) :
    s'.Orderly cfg := by
  refine h.move hq hl (by simp [hs']) (fun j hj => by simp [hs', hj]) hs hc hlc
    (fun he => hu.trans (h.unlisted he)) hf (fun hp => ?_)
    fun hp => absurd (hlv.symm.trans hp) (by decide)
  cases p <;> simp_all

theorem Orderly.onPeerConnected {v : Nat} (hp : (s.streams i).phase = .initialSent v) :
    State.Orderly cfg { s.setPhase i (.announced v) with
      onEphemeralList := if cfg.ephemeral then false else s.onEphemeralList } := by
  -- the peer is off the list, also if it never gets there
  have hls : (if cfg.ephemeral = true then false else s.onEphemeralList) = false := by
    split
    · rfl
    · rename_i he
      exact h.unlisted (Bool.eq_false_iff.2 he)
  refine h.move (p := .announced v) hp rfl (by simp) (fun j hj => by simp [hj]) rfl rfl
    (fun _ => rfl) (fun _ => hls) rfl (by simp) fun _ _ => ⟨fun _ => hls, fun hc => ?_, fun hr => ?_⟩
  · simp at hc
  · simp at hr

/-- Up to the release of the lock, what the stream has created is there. -/
theorem Orderly.connect {q : Phase} (hq : (s.streams i).phase = q) (hl : q.holdsLock)
    (hs' : s'.streams = (s.setPhase i p).streams) (hs : s'.started = s.started)
    (hc : s'.channels = s.channels) (hlc : p.holdsLock → s'.lock = s.lock)
    (hu : s'.onEphemeralList = s.onEphemeralList) (hpc : s'.peerChannel = s.peerChannel)
    (hq' : q.live ∧ q.hasChannel) (hf : p.fresh = false)
    (hr : s.Latest i → p.hasRefresh → s'.turnCancel = (if cfg.turn then some i else none) ∧
      s'.relayCancel = (if cfg.relay then some i else none)) : s'.Orderly cfg := by
  have hp' : (s'.streams i).phase = p := by simp [hs']
  refine h.move hq hl hp' (fun j hj => by simp [hs', hj]) hs hc hlc
    (fun he => hu.trans (h.unlisted he)) hf (fun _ => hq'.2) fun _ hlt => ?_
  have hi := h.intact i hlt
  rw [← hq] at hq'
  refine ⟨fun _ => hu.trans (hi.unlisted hq'.1), fun _ => ?_, fun hp => hr hlt (hp' ▸ hp)⟩
  rw [hpc, hc]
  exact hi.channel hq'.2

theorem Orderly.closeChannel (hp : (s.streams i).phase = .cleaning .channel) :
    State.Orderly cfg (s.closePeerChannel.setPhase i (.cleaning .ephemeral)) := by
  obtain ⟨hst, hsr, hl, hls, hm⟩ := s.closePeerChannel_frame
  refine h.holder (p := .cleaning .ephemeral) (by simp [hp]) hsr (by simp) (fun j hj => ?_)
    (fun j _ => hm j) (by simp) (fun _ => hl.trans (h.lock_of_phase i (by simp [hp])))
    (fun he => hls.trans (h.unlisted he)) (fun _ => Intact.of_not_live (by simp)) rfl
  simp [hj, hst]

/-- A step that keeps the phases of the streams, and what they share. -/
theorem Orderly.samePhases (hp : ∀ j, (s'.streams j).phase = (s.streams j).phase)
    (hsr : s'.started = s.started) (hl : s'.lock = s.lock) (hs : SameShared s s') :
    s'.Orderly cfg :=
  h.frame hs (Nat.le_of_eq hsr.symm) hl fun j => .inl (hp j)

theorem Orderly.step {a : Action} (ht : s.InTurn a)
    (hcl : a ≠ .closeChannels) (hsp : Sync.step cfg s a = some s') : s'.Orderly cfg := by
  cases a <;> simp only [Sync.step, ite_none_right_eq_some, some.injEq] at hsp <;>
    first | subst hsp | obtain ⟨hp, rfl⟩ := hsp | skip
  case start => exact h.start
  case acquirePeerLock | acquireCleanupLock =>
    exact h.acquire hp.1 (by simp) hp.2 rfl rfl ht
  case markPeerDisconnected | cancelRefresh | releaseCleanupLock =>
    exact h.advance hp rfl rfl rfl rfl (by simp) rfl rfl rfl
  case syncPeer i succeeds =>
    obtain ⟨hp, hsp⟩ := hsp
    cases succeeds <;> cases hsp <;> exact h.advance hp rfl rfl rfl rfl (by simp) rfl rfl rfl
  case markPeerConnected =>
    split at hsp <;> cases hsp
    rename_i hp
    exact h.advance hp rfl rfl rfl rfl (by simp) rfl rfl rfl
  case sendInitialSync i succeeds =>
    cases succeeds <;> split at hsp <;> cases hsp <;> rename_i v hp
    · exact h.advance hp rfl rfl rfl rfl (by simp) rfl rfl rfl
    · exact h.move (p := .initialSent v) hp rfl (by simp)
        (fun j hj => by simp [hj]) rfl rfl (fun _ => rfl) h.unlisted rfl
        (by simp) (by simp)
  case onPeerConnected i succeeds =>
    cases succeeds <;> split at hsp <;> cases hsp <;> rename_i v hp
    · exact h.advance hp rfl rfl rfl rfl (by simp) rfl rfl rfl
    · exact h.onPeerConnected hp
  case createChannel =>
    split at hsp <;> cases hsp
    exact h.createChannel (by assumption)
  case setupRefresh i =>
    exact h.connect hp rfl rfl rfl rfl (fun _ => rfl) rfl rfl ⟨rfl, rfl⟩ rfl fun _ _ => ⟨rfl, rfl⟩
  case releasePeerLock i =>
    exact h.connect hp rfl rfl rfl rfl (by simp) rfl rfl ⟨rfl, rfl⟩ rfl
      fun hlt _ => (h.intact i hlt).refresh (by simp [hp])
  case receiveUpdate i =>
    split at hsp <;> cases hsp
    refine h.samePhases (fun j => ?_) rfl rfl ⟨fun j => ?_, fun j => ?_, rfl, rfl, rfl, rfl⟩
    all_goals
      by_cases hj : j = i
      · subst hj
        simp
      · simp [hj]
  case timerExpired i =>
    refine h.samePhases (fun j => ?_) rfl rfl {}
    by_cases hj : j = i
    · subst hj
      simp
    · simp [hj]
  case channelClosed => exact h.ending hp.1
  case contextDone | sendFailed => exact h.ending hp
  case closeChannel => exact h.closeChannel hp
  case onPeerDisconnected =>
    refine h.move (p := .cleaning .refresh) hp rfl (by simp) (fun j hj => by simp [hj]) rfl rfl
      (fun _ => rfl) (fun he => ?_) rfl (by simp) (by simp)
    simpa [he] using h.unlisted he
  case commit | loadAccount => exact h.samePhases (fun _ => rfl) rfl rfl {}
  case hasPeersConnected | hasChannel =>
    split at hsp <;> cases hsp
    exact h.samePhases (fun _ => rfl) rfl rfl {}
  case sendUpdate k =>
    split at hsp <;> cases hsp
    rename_i v _
    have hs := sameShared_sendToChannel s (.networkMap v)
    obtain ⟨-, hsr, hst, hl⟩ := s.sendToChannel_frame (.networkMap v)
    exact h.samePhases (fun j => congrArg (fun f => (f j).phase) hst) hsr hl
      ⟨hs.1, hs.2, hs.3, hs.4, hs.5, hs.6⟩
  case pushControlConfig content =>
    obtain ⟨-, hsr, hst, hl⟩ := s.sendToChannel_frame (.controlConfig content)
    exact h.samePhases (fun j => by rw [hst]) hsr hl
      (sameShared_sendToChannel s (.controlConfig content))
  case closeChannels => exact absurd rfl hcl

end State

/-! ### Every run -/

theorem cleaning_of_step {cfg : Config} {s s' : State} {a : Action} {i : Nat}
    (hs : step cfg s a = some s') (ha : a.cleanupOf = some i) :
    ∃ c, (s.streams i).phase = .cleaning c := by
  cases a <;> simp only [Action.cleanupOf, some.injEq, reduceCtorEq] at ha <;> subst ha <;>
    simp only [step, ite_none_right_eq_some] at hs <;> exact ⟨_, hs.1⟩

/-- In every run of streams that are in turn, no step of a cleanup disturbs a later stream that has
created its channel; and the latest stream has its channel and its refresh, and the peer is not on
the list of disconnected ephemeral peers. -/
theorem successor_undisturbed (cfg : Config) (s : State)
    (h : Reaches (step cfg) (fun s a => s.InTurn a ∧ a ≠ .closeChannels) {} s) :
    (∀ a s' i j, step cfg s a = some s' → a.cleanupOf = some i → i < j → (s.channels j).made →
      ¬ s.Disturbs s' j) ∧ ∀ j, s.Latest j → s.Intact cfg j := by
  have hi : State.Orderly cfg {} :=
    ⟨by simp, by simp, by simp, by simp, by simp, by simp, fun j _ => State.Intact.of_not_live rfl⟩
  have hin : s.Orderly cfg := h.invariant hi fun s a s' hs hok hst =>
    hs.step hok.1 hok.2 hst
  refine ⟨fun a s' i j hst ha hij hm => ?_, hin.intact⟩
  obtain ⟨c, hp⟩ := cleaning_of_step hst ha
  have hl : (s.streams i).phase.holdsLock := by rw [hp]; rfl
  rw [hin.no_successor i hl j hij] at hm
  cases hm

/-- The second stream closes the channel of the first; the cleanup of the first then closes the
channel of the second, puts the peer on the list, and cancels the refresh of the second. -/
theorem cleanup_tears_down_successor :
    ∃ s, Reaches (step { ephemeral := true, turn := true, relay := true }) (fun _ _ => True) {} s ∧
      (s.streams 0).phase = .cleaning .unlock ∧ (s.streams 1).phase = .handling ∧
      s.session = some 1 ∧ (s.channels 1).closed ∧ s.onEphemeralList ∧ s.turnCancel = none ∧
      s.relayCancel = none := by
  refine exists_reaches ([.start, .start] ++ connecting 0 ++ connecting 1 ++
    [.channelClosed 0, .acquireCleanupLock 0, .markPeerDisconnected 0, .closeChannel 0,
      .onPeerDisconnected 0 true, .cancelRefresh 0]) ?_
  decide +kernel

/-- The first stream has cleaned up before the second takes the lock. -/
theorem successor_undisturbed_after_cleanup :
    ∃ s : State, (s.streams 0).phase = .ended ∧ (s.streams 1).phase = .handling ∧
      s.peerChannel = some 1 ∧ (s.channels 1).closed = false ∧ s.onEphemeralList = false := by
  obtain ⟨s, hs, h0, h1, hl⟩ : ∃ s, Reaches (step { ephemeral := true })
      (fun s a => s.InTurn a ∧ a ≠ .closeChannels) {} s ∧ (s.streams 0).phase = .ended ∧
        (s.streams 1).phase = .handling ∧ s.Latest 1 := by
    refine exists_reaches ([.start, .start] ++ connecting 0 ++
      [.contextDone 0, .acquireCleanupLock 0, .markPeerDisconnected 0, .closeChannel 0,
        .onPeerDisconnected 0 true, .cancelRefresh 0, .releaseCleanupLock 0] ++ connecting 1) ?_
    decide +kernel
  have hi := (successor_undisturbed { ephemeral := true } s hs).2 1 hl
  obtain ⟨hp, ho⟩ := hi.channel (by rw [h1]; rfl)
  exact ⟨s, h0, h1, hp, ho, hi.unlisted (by rw [h1]; rfl)⟩

end Cloink.Sync
