import Cloink.Lib.Interleaving

/-!
# Job streams of one peer

A job stream makes a channel for the peer, which replaces and closes the channel of the stream
before it, and sends the jobs that come there. When the loop of a stream ends, a deferred
`CloseChannel` closes the channel that the peer has then and fails all pending jobs of the peer,
also when they are those of the next stream. Channels have the numbers of their streams.
-/

namespace Cloink.Jobs

open Interleaving

/-- A job and the channel that it is sent through. -/
structure Event where
  jobID : Nat
  channel : Nat
  deriving DecidableEq

structure Manager where
  made : Nat := 0
  jobChannel : Option Nat := none
  closed : List Nat := []
  /-- The streams whose loop has ended. -/
  ended : List Nat := []
  /-- Calls of `SendJob` that have the channel and have not tracked the job yet. -/
  sending : List Event := []
  pending : List Event := []
  failed : List Event := []
  deriving DecidableEq

namespace Manager

variable (jm : Manager)

def createJobChannel : Manager :=
  { jm with
    made := jm.made + 1
    jobChannel := some jm.made
    closed := jm.jobChannel.toList ++ jm.closed }

def closeChannel (stream : Nat) : Manager :=
  { jm with
    ended := stream :: jm.ended
    jobChannel := none
    closed := jm.jobChannel.toList ++ jm.closed
    pending := []
    failed := jm.pending ++ jm.failed }

/-- `cleanup` runs when the channel did not take the job. -/
inductive Action
  | createJobChannel
  | sendJob (jobID : Nat)
  | track (ev : Event)
  | cleanup (ev : Event)
  | handleResponse (ev : Event)
  | closeChannel (stream : Nat)

def step : Action → Option Manager
  | .createJobChannel => some jm.createJobChannel
  | .sendJob jobID => jm.jobChannel.map fun ch => { jm with sending := ⟨jobID, ch⟩ :: jm.sending }
  | .track ev =>
    if ev ∈ jm.sending then
      some { jm with sending := jm.sending.erase ev, pending := ev :: jm.pending }
    else none
  | .cleanup ev => some <| if ev ∈ jm.pending then
      { jm with pending := jm.pending.erase ev, failed := ev :: jm.failed } else jm
  | .handleResponse ev => some { jm with pending := jm.pending.erase ev }
  | .closeChannel stream =>
    if stream < jm.made ∧ stream ∉ jm.ended then some (jm.closeChannel stream) else none

/-- The channels after that of the stream stay as they are; of the jobs sent through them, the
pending ones stay pending, and no further one fails. -/
def Undisturbed (stream : Nat) (jm' : Manager) : Prop :=
  (∀ ch, stream < ch → (ch ∈ jm'.closed ↔ ch ∈ jm.closed)) ∧
    (∀ ev : Event, stream < ev.channel → ev ∈ jm.pending → ev ∈ jm'.pending) ∧
    jm'.failed.filter (stream < ·.channel) = jm.failed.filter (stream < ·.channel)

variable {jm}

theorem open_of_reaches (h : Reaches step (fun _ _ => True) {} jm) :
    (∀ ch ∈ jm.jobChannel, ch ∉ jm.closed ∧ ch < jm.made) ∧ ∀ ch ∈ jm.closed, ch < jm.made := by
  refine h.invariant (p := fun jm => (∀ ch ∈ jm.jobChannel, ch ∉ jm.closed ∧ ch < jm.made) ∧
    ∀ ch ∈ jm.closed, ch < jm.made) (by simp) fun jm a jm' hi _ hs => ?_
  cases a <;> simp only [step] at hs
  case createJobChannel =>
    cases hs
    simp only [createJobChannel]
    grind
  case sendJob =>
    obtain ⟨ch, -, rfl⟩ := Option.map_eq_some_iff.1 hs
    exact hi
  case closeChannel =>
    split at hs <;> cases hs
    simp only [closeChannel]
    grind
  all_goals grind

/-- The end of a stream leaves its successors alone exactly when the channel of none of them is the
one of the peer, and no job sent through one is pending. -/
theorem undisturbed_iff {stream : Nat} (h : Reaches step (fun _ _ => True) {} jm) :
    jm.Undisturbed stream (jm.closeChannel stream) ↔
      (∀ ch ∈ jm.jobChannel, ch ≤ stream) ∧ ∀ ev ∈ jm.pending, ev.channel ≤ stream := by
  obtain ⟨hopen, -⟩ := open_of_reaches h
  simp only [Undisturbed, closeChannel, List.mem_append, Option.mem_toList, List.not_mem_nil]
  constructor
  · rintro ⟨hch, hev, -⟩
    exact ⟨fun ch hc => not_lt.1 fun hlt => (hopen ch hc).1 ((hch ch hlt).1 (.inl hc)),
      fun ev he => not_lt.1 fun hlt => hev ev hlt he⟩
  · rintro ⟨hch, hev⟩
    refine ⟨fun ch hlt => or_iff_right fun hc => hlt.not_ge (hch ch hc),
      fun ev hlt he => hlt.not_ge (hev ev he), ?_⟩
    simpa using hev

theorem undisturbed_first : ∃ jm, Reaches step (fun _ _ => True) {} jm ∧
    jm.pending = [⟨7, 0⟩] ∧ jm.Undisturbed 0 (jm.closeChannel 0) := by
  have h : ∃ jm, Reaches step (fun _ _ => True) {} jm ∧ jm.pending = [⟨7, 0⟩] ∧
      (∀ ch ∈ jm.jobChannel, ch ≤ 0) ∧ ∀ ev ∈ jm.pending, ev.channel ≤ 0 :=
    exists_reaches [.createJobChannel, .sendJob 7, .track ⟨7, 0⟩] (by decide)
  obtain ⟨jm, hr, hp, hc⟩ := h
  exact ⟨jm, hr, hp, (undisturbed_iff hr).2 hc⟩

/-- The second stream has replaced the first one, and has sent a job. The end of the first one
closes its channel and fails the job. -/
theorem successor_closed : ∃ jm, Reaches step (fun _ _ => True) {} jm ∧ jm.ended = [0] ∧
    jm.closed = [1, 0] ∧ jm.failed = [⟨7, 1⟩] :=
  exists_reaches [.createJobChannel, .createJobChannel, .sendJob 7, .track ⟨7, 1⟩, .closeChannel 0]
    (by decide)

end Manager

end Cloink.Jobs
