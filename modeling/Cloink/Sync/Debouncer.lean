import Cloink.Sync.Streams

/-!
# The debouncer and the loop that feeds it

`HandleUpdates` passes every update of a peer to the debouncer and sends what it releases: the first
update at once, the others when the timer has expired. Of the updates, only network maps that are
followed by another network map are left out.
-/

namespace Cloink.Sync

open Interleaving List UpdateDebouncer

/-- The second list is the first one without some network maps, each of which is followed by a
network map there. -/
inductive Thinned : List Message → List Message → Prop
  | nil : Thinned [] []
  | keep {u : Message} {l s : List Message} : Thinned l s → Thinned (u :: l) (u :: s)
  | drop {u v : Message} {l s : List Message} : u.isNetworkMap → v.isNetworkMap →
    Thinned (v :: l) s → Thinned (u :: v :: l) s

namespace Thinned

variable {l s pending : List Message} {m u : Message}

theorem getLast? (h : Thinned l s) : s.getLast? = l.getLast? := by
  induction h with
  | nil => rfl
  | keep _ ih => simp only [getLast?_cons, ih]
  | drop _ _ _ ih => rw [ih, getLast?_cons_cons]

theorem eq_nil (h : Thinned l []) : l = [] := by
  simpa using h.getLast?.symm

theorem concat (h : Thinned l s) (u : Message) : Thinned (l ++ [u]) (s ++ [u]) := by
  induction h with
  | nil => exact .keep .nil
  | keep _ ih => exact .keep ih
  | drop hu hv _ ih => exact .drop hu hv ih

/-- A network map at the end is replaced by one that comes after it. -/
theorem replace (h : Thinned l (s ++ [m])) (hm : m.isNetworkMap) (hu : u.isNetworkMap) :
    Thinned (l ++ [u]) (s ++ [u]) := by
  generalize ht : s ++ [m] = t at h
  induction h generalizing s with
  | nil => simp at ht
  | @keep v l t h ih =>
    cases s with
    | nil =>
      obtain ⟨rfl, rfl⟩ : m = v ∧ [] = t := by simpa using ht
      rw [h.eq_nil]
      exact .drop hm hu (.keep .nil)
    | cons w s =>
      obtain ⟨rfl, hs⟩ : w = v ∧ s ++ [m] = t := by simpa using ht
      exact .keep (ih hs)
  | drop hv hw _ ih => exact .drop hv hw (ih ht)

theorem sublist (h : Thinned l s) : s <+ l := by
  induction h with
  | nil => exact .slnil
  | keep _ ih => exact ih.cons_cons _
  | drop _ _ _ ih => exact ih.cons _

/-- No other message is left out, repeated or moved. -/
theorem filter_eq (h : Thinned l s) :
    s.filter (fun u => !u.isNetworkMap) = l.filter fun u => !u.isNetworkMap := by
  induction h with
  | nil => rfl
  | keep _ ih => simp only [filter_cons, ih]
  | drop hu _ _ ih => exact ih.trans (filter_cons_of_neg (by simp [hu])).symm

theorem coalesce (h : Thinned l (s ++ pending)) (u : Message) :
    Thinned (l ++ [u]) (s ++ UpdateDebouncer.coalesce pending u) := by
  unfold UpdateDebouncer.coalesce
  split
  · next hm =>
    obtain ⟨hu, hlast⟩ := Bool.and_eq_true_iff.1 hm
    obtain ⟨m, hp, hm⟩ := (Option.any_eq_true _ _).1 hlast
    have hp' := dropLast_append_getLast? m hp
    rw [← hp', ← append_assoc] at h
    simpa using h.replace hm hu
  · simpa using h.concat u

end Thinned

/-- The loop, with what it has received and sent. -/
structure UpdateHandler where
  debouncer : UpdateDebouncer := {}
  received : List Message := []
  sent : List Message := []

namespace UpdateHandler

inductive Event
  | update (u : Message)
  | timer

variable {h h' : UpdateHandler}

def step (h : UpdateHandler) : Event → Option UpdateHandler
  | .update u =>
    let (debouncer, now) := h.debouncer.processUpdate u
    some ⟨debouncer, h.received ++ [u], if now then h.sent ++ [u] else h.sent⟩
  | .timer =>
    if h.debouncer.timer then
      let (debouncer, pending) := h.debouncer.getPendingUpdates
      some { h with debouncer, sent := h.sent ++ pending }
    else none

structure Inv (h : UpdateHandler) : Prop where
  thinned : Thinned h.received (h.sent ++ h.debouncer.pendingUpdates)
  quiet : h.debouncer.timer = false → h.debouncer.pendingUpdates = []

theorem Inv.step {e : Event} (hi : h.Inv) (hs : h.step e = some h') : h'.Inv := by
  cases e with
  | update u =>
    cases ht : h.debouncer.timer with
    | false =>
      simp only [UpdateHandler.step, processUpdate, ht, Bool.not_false, if_true] at hs
      cases hs
      exact ⟨by simpa [hi.quiet ht] using hi.thinned.concat u, by simp⟩
    | true =>
      simp only [UpdateHandler.step, processUpdate, ht, Bool.not_true, Bool.false_eq_true,
        if_false] at hs
      cases hs
      exact ⟨hi.thinned.coalesce u, by simp⟩
  | timer =>
    simp only [UpdateHandler.step] at hs
    split at hs
    · cases hs
      unfold getPendingUpdates
      split
      · next hp => exact ⟨by simpa [List.isEmpty_iff.1 hp] using hi.thinned, by simp⟩
      · exact ⟨by simpa using hi.thinned, by simp⟩
    · cases hs

/-- When no timer runs, everything that was received has been sent in its order, but for network
maps that were followed by a network map: the other updates are all there, once and in their order,
and so is the last update. -/
theorem sent_of_quiet (hr : Reaches step (fun _ _ => True) {} h)
    (hq : h.debouncer.timer = false) : Thinned h.received h.sent ∧ h.sent <+ h.received ∧
      (h.sent.filter fun u => !u.isNetworkMap) = (h.received.filter fun u => !u.isNetworkMap) ∧
      h.sent.getLast? = h.received.getLast? := by
  have hi : h.Inv := hr.invariant ⟨.nil, fun _ => rfl⟩ fun _ _ _ hi _ hs => hi.step hs
  have ht := hi.thinned
  rw [hi.quiet hq, append_nil] at ht
  exact ⟨ht, ht.sublist, ht.filter_eq, ht.getLast?⟩

/-- Of the network maps that follow each other, the last one is sent, and both control
configurations are. -/
theorem sent_of_quiet_five : ∃ h, Reaches step (fun _ _ => True) {} h ∧
    h.sent = [.networkMap 1, .controlConfig 5, .networkMap 3, .controlConfig 6] ∧
    Thinned h.received h.sent := by
  have hr : ∃ h, Reaches step (fun _ _ => True) {} h ∧ h.debouncer.timer = false ∧
      h.sent = [.networkMap 1, .controlConfig 5, .networkMap 3, .controlConfig 6] :=
    exists_reaches [.update (.networkMap 1), .update (.controlConfig 5), .update (.networkMap 2),
      .update (.networkMap 3), .update (.controlConfig 6), .timer, .timer] (by decide)
  obtain ⟨h, hr, hq, hs⟩ := hr
  exact ⟨h, hr, hs, (sent_of_quiet hr hq).1⟩

end UpdateHandler

end Cloink.Sync
