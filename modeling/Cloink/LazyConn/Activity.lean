import Cloink.Lib.Interleaving

/-!
# Activity listeners

The activity manager (`client/internal/lazyconn/activity`) keeps one listener for a connection, and a
goroutine that waits for its traffic. The goroutine takes the entry of the connection out of the map
and reports the activity, whichever listener the entry has by then. Its own may have been removed
and a new one registered while it waited for the mutex.
-/

namespace Cloink.LazyConn

open Interleaving

/-- The goroutine of a listener reads, has returned from `ReadPackets`, or has ended. -/
inductive Waiting where
  | reading
  | returned
  | ended
  deriving DecidableEq

/-- The activity manager for one connection. An event has the listener whose goroutine reports it and
the one that was registered. -/
structure Activity where
  /-- The number of listeners created. -/
  made : Nat := 0
  /-- The entry of the connection in `peers`. -/
  registered : Option Nat := none
  goroutine : Nat → Waiting := fun _ => .ended
  events : List (Nat × Nat) := []

namespace Activity

inductive Action where
  | monitorPeerActivity (created : Bool)
  | removePeer
  | readReturns (l : Nat)
  | waitForTraffic (l : Nat)

/-- The state after the action. `Close` returns when `ReadPackets` has. -/
def step (s : Activity) : Action → Option Activity
  | .monitorPeerActivity created =>
    if s.registered = none ∧ created then
      some { s with
        made := s.made + 1
        registered := some s.made
        goroutine := Function.update s.goroutine s.made .reading }
    else some s
  | .removePeer =>
    match s.registered with
    | none => some s
    | some l =>
      some { s with registered := none, goroutine := Function.update s.goroutine l .returned }
  | .readReturns l =>
    if s.goroutine l = .reading then
      some { s with goroutine := Function.update s.goroutine l .returned }
    else none
  | .waitForTraffic l =>
    if s.goroutine l = .returned then
      some { s with
        registered := none
        goroutine := Function.update s.goroutine l .ended
        events := s.events ++ (s.registered.map (l, ·)).toList }
    else none

/-- The condition on an action: a listener is registered when the goroutines of the earlier ones have
ended. -/
def InTurn (s : Activity) : Action → Prop
  | .monitorPeerActivity _ => s.registered = none → ∀ l < s.made, s.goroutine l = .ended
  | _ => True

structure Current (s : Activity) : Prop where
  fresh : ∀ l, s.goroutine l ≠ .ended → l < s.made
  reading : ∀ l, s.goroutine l = .reading → s.registered = some l
  returned : ∀ l, s.goroutine l = .returned → s.registered = none ∨ s.registered = some l
  registered : ∀ l, s.registered = some l → s.goroutine l ≠ .ended
  events : ∀ e ∈ s.events, e.1 = e.2

theorem Current.step {s s' : Activity} {a : Action} (h : s.Current) (hok : s.InTurn a)
    (hs : s.step a = some s') : s'.Current := by
  obtain ⟨hfresh, hreading, hreturned, hregistered, hevents⟩ := h
  cases a <;> simp only [Activity.step] at hs
  case monitorPeerActivity created =>
    split at hs
    · cases hs
      constructor <;> grind [InTurn]
    · grind [Current]
  case removePeer =>
    split at hs
    · grind [Current]
    · cases hs
      constructor <;> grind
  case readReturns l =>
    split at hs
    · cases hs
      constructor <;> grind
    · cases hs
  case waitForTraffic l =>
    split at hs
    · cases hs
      constructor <;> grind
    · cases hs

/-- Every event is of the listener that was registered, and a listener that is not registered has
returned from `ReadPackets`. -/
theorem event_of_registered {s : Activity} (h : Reaches step InTurn {} s) :
    (∀ e ∈ s.events, e.1 = e.2) ∧ ∀ l, s.registered ≠ some l → s.goroutine l ≠ .reading := by
  have hcurrent : s.Current :=
    h.invariant ⟨by simp, by simp, by simp, by simp, by simp⟩ fun _ _ _ hs hok hstep =>
      hs.step hok hstep
  exact ⟨hcurrent.events, fun l hl hreading => hl (hcurrent.reading l hreading)⟩

instance (s : Activity) : DecidablePred s.InTurn := fun a => by
  cases a <;> unfold InTurn <;> infer_instance

/-- Traffic of the first listener is reported, the second one is removed without any, and the third
one reads. -/
theorem event_of_registered_again : ∃ s, Reaches step InTurn {} s ∧ s.registered = some 2 ∧
    s.events = [(0, 0)] ∧ (∀ e ∈ s.events, e.1 = e.2) ∧ s.goroutine 1 ≠ .reading := by
  have h : ∃ s, Reaches step InTurn {} s ∧ s.registered = some 2 ∧ s.events = [(0, 0)] :=
    exists_reaches [.monitorPeerActivity true, .readReturns 0, .waitForTraffic 0,
      .monitorPeerActivity true, .removePeer, .waitForTraffic 1, .monitorPeerActivity true]
      (by decide)
  obtain ⟨s, hs, hregistered, hevents⟩ := h
  obtain ⟨hown, hreading⟩ := event_of_registered hs
  exact ⟨s, hs, hregistered, hevents, hown, hreading 1 (by simp [hregistered])⟩

/-- A listener is removed and another registered before the goroutine of the first one has the
mutex: it reports activity of the second one, which still reads and is not registered any more. -/
theorem event_of_removed : ∃ s, Reaches step (fun _ _ => True) {} s ∧ s.events = [(0, 1)] ∧
    s.registered = none ∧ s.goroutine 1 = .reading :=
  exists_reaches [.monitorPeerActivity true, .removePeer, .monitorPeerActivity true,
    .waitForTraffic 0] (by decide)

end Activity

end Cloink.LazyConn
