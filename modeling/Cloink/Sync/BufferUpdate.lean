import Cloink.Lib.Interleaving

/-!
# Buffered updates of an account

`BufferUpdateAccountPeers` lets one call at a time send. A call that finds the lock taken raises a
flag and returns; the worker of the call that has the lock looks at the flag after its send, and
arms a timer for one more send when the flag is up. A flag that is raised after the worker has
looked is seen by nobody: the lock is still taken, and no timer is armed.
-/

namespace Cloink.Sync

open Interleaving Function

namespace BufferUpdate

inductive CallPhase
  | absent
  | begun
  | locked
  | refused
  | returned
  deriving DecidableEq

/-- A call, with the number of sends that had started when it was made. -/
structure Call where
  phase : CallPhase := .absent
  sendsBefore : Nat := 0

/-- The holder of the lock: the call `k` that has just taken it, then the goroutine it starts. -/
inductive Worker
  | locked (k : Nat)
  | starting
  | sent
  | flagged
  | cleared
  | finished
  deriving DecidableEq

end BufferUpdate

/-- `bufferUpdate` of one account, with the calls made for it and the sends started. -/
structure BufferUpdate where
  /-- The holder of `mu`. -/
  worker : Option BufferUpdate.Worker := none
  update : Bool := false
  /-- The timer, once there is one, and whether it is armed. -/
  next : Option Bool := none
  /-- The goroutines of the timer that have not started their send. -/
  fired : Nat := 0
  /-- The number of calls made. -/
  made : Nat := 0
  calls : Nat → BufferUpdate.Call := fun _ => {}
  /-- The number of sends started. -/
  sends : Nat := 0

namespace BufferUpdate

inductive Action
  | call
  | tryLock (k : Nat)
  | raiseFlag (k : Nat)
  | stopTimer
  | startSend
  | loadFlag
  | clearFlag
  | setTimer
  | unlock
  | fire
  | timerSend
  deriving DecidableEq

variable (b : BufferUpdate)

def setCall (k : Nat) (phase : CallPhase) : BufferUpdate :=
  { b with calls := Function.update b.calls k { b.calls k with phase } }

variable {k : Nat} {a : Action} {phase : CallPhase}

/-- The state after the action, if it is enabled. -/
def step (b : BufferUpdate) : Action → Option BufferUpdate
  | .call =>
    some { b with
      made := b.made + 1
      calls := Function.update b.calls b.made ⟨.begun, b.sends⟩ }
  | .tryLock k =>
    if (b.calls k).phase = .begun then
      match b.worker with
      | none => some { b.setCall k .locked with worker := some (.locked k) }
      | some _ => some (b.setCall k .refused)
    else none
  | .raiseFlag k =>
    if (b.calls k).phase = .refused then some { b.setCall k .returned with update := true }
    else none
  | .stopTimer =>
    match b.worker with
    | some (.locked k) =>
      -- the call starts the goroutine and returns
      some { b.setCall k .returned with
        worker := some .starting
        next := b.next.map fun _ => false }
    | _ => none
  | .startSend =>
    if b.worker = some .starting then some { b with worker := some .sent, sends := b.sends + 1 }
    else none
  | .loadFlag =>
    if b.worker = some .sent then
      some { b with worker := some (if b.update then .flagged else .finished) }
    else none
  | .clearFlag =>
    if b.worker = some .flagged then some { b with worker := some .cleared, update := false }
    else none
  | .setTimer =>
    if b.worker = some .cleared then some { b with worker := some .finished, next := some true }
    else none
  | .unlock =>
    if b.worker = some .finished then some { b with worker := none } else none
  | .fire =>
    if b.next = some true then some { b with next := some false, fired := b.fired + 1 } else none
  | .timerSend =>
    if 0 < b.fired then some { b with fired := b.fired - 1, sends := b.sends + 1 } else none

/-- No step but a further call is enabled. -/
def Settled : Prop := ∀ a, a ≠ .call → b.step a = none

/-- The call has returned and a send has started since it was made. -/
def Served (k : Nat) : Prop := (b.calls k).sendsBefore < b.sends

instance (k : Nat) : Decidable (b.Served k) := inferInstanceAs (Decidable (_ < _))

/-! ### The condition -/

/-- The worker has still to send, to look at the flag, or to arm the timer. -/
def Worker.active : Worker → Bool
  | .finished => false
  | _ => true

/-- A call that has been refused raises the flag while the worker has still to look at it, while a
send of the timer is to come, or after a send that has started since the call was made. -/
def InTime : Action → Prop
  | .raiseFlag k =>
    b.worker.any Worker.active ∨ b.next = some true ∨ 0 < b.fired ∨
      (b.calls k).sendsBefore < b.sends
  | _ => True

instance : DecidablePred b.InTime := fun a => by
  cases a <;> unfold InTime <;> infer_instance

/-! ### What the steps keep -/

/-- A send will start. -/
def SendComing : Prop :=
  (∃ k, b.worker = some (.locked k)) ∨ b.worker = some .starting ∨
    (b.worker = some .sent ∧ b.update) ∨ b.worker = some .flagged ∨ b.worker = some .cleared ∨
    b.next = some true ∨ 0 < b.fired

/-- The calls that have been made are the first ones. -/
structure Numbered : Prop where
  made_of_phase : ∀ k, (b.calls k).phase ≠ .absent → k < b.made
  made_of_worker : ∀ k, b.worker = some (.locked k) → k < b.made

/-- Every call that has returned is served or will be. -/
structure Serving : Prop where
  sends_before : ∀ k, (b.calls k).sendsBefore ≤ b.sends
  returned : ∀ k, (b.calls k).phase = .returned → b.Served k ∨ b.SendComing

variable {b} {b' : BufferUpdate}

theorem Serving.keep (h : b.Serving) (hcl : b'.calls = b.calls) (hs : b.sends ≤ b'.sends)
    (hcm : b.SendComing → b'.SendComing ∨ b.sends < b'.sends) : b'.Serving := by
  refine ⟨fun k => ?_, fun k hk => ?_⟩
  · rw [hcl]
    exact Nat.le_trans (h.sends_before k) hs
  · rw [hcl] at hk
    have hb := h.sends_before k
    unfold Served
    rw [hcl]
    rcases h.returned k hk with hsr | hc
    · exact .inl (Nat.lt_of_lt_of_le hsr hs)
    · rcases hcm hc with hc | hlt
      · exact .inr hc
      · exact .inl (Nat.lt_of_le_of_lt hb hlt)

theorem Serving.setCall (h : b.Serving) (hc : b'.calls = (b.setCall k phase).calls)
    (hs : b'.sends = b.sends) (hcm : b.SendComing → b'.SendComing)
    (hr : phase = .returned → b.Served k ∨ b'.SendComing) : b'.Serving := by
  constructor
  · rw [hc, hs]
    exact (forall_update_iff b.calls fun _ c => c.sendsBefore ≤ b.sends).2
      ⟨h.sends_before k, fun j _ => h.sends_before j⟩
  · unfold Served
    rw [hc, hs]
    exact (forall_update_iff b.calls fun _ c =>
      c.phase = .returned → c.sendsBefore < b.sends ∨ b'.SendComing).2
        ⟨hr, fun j _ hj => (h.returned j hj).imp_right hcm⟩

/-- One step in time keeps the calls served. -/
theorem Serving.step (h : b.Serving) (ht : b.InTime a) (hst : b.step a = some b') : b'.Serving := by
  cases a <;>
    simp only [BufferUpdate.step, Option.ite_none_right_eq_some, Option.some.injEq] at hst <;>
    first | subst hst | obtain ⟨hw, rfl⟩ := hst | skip
  case call =>
    constructor
    · exact (forall_update_iff b.calls fun _ c => c.sendsBefore ≤ b.sends).2
        ⟨le_rfl, fun k _ => h.sends_before k⟩
    · exact (forall_update_iff b.calls fun _ c =>
        c.phase = .returned → c.sendsBefore < b.sends ∨ b.SendComing).2
          ⟨by simp, fun k _ => h.returned k⟩
  case tryLock k =>
    split at hst <;> cases hst.2
    · exact h.setCall rfl rfl (fun _ => .inl ⟨k, rfl⟩) (by simp)
    · exact h.setCall rfl rfl id (by simp)
  case raiseFlag =>
    refine h.setCall rfl rfl (fun hc => ?_) fun _ => ?_
    · rcases hc with hc | hc | ⟨hc, -⟩ | hc
      · exact .inl hc
      · exact .inr (.inl hc)
      · exact .inr (.inr (.inl ⟨hc, rfl⟩))
      · exact .inr (.inr (.inr hc))
    · -- the flag is seen, or a send comes anyway
      rcases ht with ha | hn | hf | hs
      · right
        cases hw : b.worker with
        | none => simp [hw] at ha
        | some w =>
          cases w <;> simp_all [SendComing, Worker.active, BufferUpdate.setCall]
      · exact .inr (.inr (.inr (.inr (.inr (.inr (.inl hn))))))
      · exact .inr (.inr (.inr (.inr (.inr (.inr (.inr hf))))))
      · exact .inl hs
  case stopTimer =>
    split at hst <;> cases hst
    exact h.setCall rfl rfl (fun _ => .inr (.inl rfl)) fun _ => .inr (.inr (.inl rfl))
  case startSend | timerSend =>
    exact h.keep rfl (Nat.le_succ _) fun _ => .inr (Nat.lt_succ_self _)
  case loadFlag =>
    refine h.keep rfl (Nat.le_refl _) fun hc => .inl ?_
    by_cases hu : b.update = true
    · simp [SendComing, hu]
    · simpa [SendComing, hw, hu] using hc
  case unlock =>
    exact h.keep rfl (Nat.le_refl _) fun hc => .inl (by simpa [SendComing, hw] using hc)
  case clearFlag | setTimer | fire =>
    exact h.keep rfl (Nat.le_refl _) fun _ => .inl (by simp [SendComing])

/-! ### Settled states -/

/-- Nothing is under way. -/
def Quiet (b : BufferUpdate) : Prop :=
  b.worker = none ∧ b.next ≠ some true ∧ b.fired = 0 ∧ ∀ k < b.made, (b.calls k).phase = .returned

instance : Decidable b.Quiet := inferInstanceAs (Decidable (_ ∧ _))

theorem Settled.not_sendComing (h : b.Settled) : ¬ b.SendComing := by
  rintro (⟨k, hw⟩ | hw | ⟨hw, -⟩ | hw | hw | hn | hf)
  · simpa [step, hw] using h .stopTimer
  · simpa [step, hw] using h .startSend
  · simpa [step, hw] using h .loadFlag
  · simpa [step, hw] using h .clearFlag
  · simpa [step, hw] using h .setTimer
  · simpa [step, hn] using h .fire
  · have hnn := h .timerSend (by simp)
    simp only [step, if_pos hf] at hnn
    cases hnn

/-- When nothing is under way, only a new call can be a step. -/
theorem Numbered.settled_of_quiet (h : b.Numbered) (hq : b.Quiet) : b.Settled := by
  obtain ⟨hw, hn, hf, hc⟩ := hq
  have hp (k : Nat) : (b.calls k).phase = .absent ∨ (b.calls k).phase = .returned := by
    by_cases hk : (b.calls k).phase = .absent
    · exact .inl hk
    · exact .inr (hc k (h.made_of_phase k hk))
  intro a ha
  cases a with
  | call => exact absurd rfl ha
  | tryLock k | raiseFlag k => rcases hp k with hk | hk <;> simp [BufferUpdate.step, hk]
  | fire => simp [BufferUpdate.step, hn]
  | timerSend => simp [BufferUpdate.step, hf]
  | _ => simp [BufferUpdate.step, hw]

/-! ### Termination -/

def CallPhase.weight : CallPhase → Nat
  | .begun => 10
  | .refused => 1
  | _ => 0

def Worker.weight : Worker → Nat
  | .locked _ => 8
  | .starting => 7
  | .sent => 6
  | .flagged => 5
  | .cleared => 4
  | .finished => 1

/-- What the calls have still to do. -/
def callWork (b : BufferUpdate) : Nat := ∑ k ∈ Finset.range b.made, (b.calls k).phase.weight

/-- What the holder of the lock has still to do. -/
def workerWork (b : BufferUpdate) : Nat := b.worker.elim 0 Worker.weight

/-- What the timer has still to do. -/
def timerWork (b : BufferUpdate) : Nat := (if b.next = some true then 2 else 0) + b.fired

/-- A bound on the steps that may come without a further call. -/
def remaining (b : BufferUpdate) : Nat := b.callWork + b.workerWork + b.timerWork

/-- The calls stay numbered, and after a step that is not a call there is less to do. -/
def Advances (b : BufferUpdate) (a : Action) (b' : BufferUpdate) : Prop :=
  b'.Numbered ∧ (a ≠ .call → b'.remaining < b.remaining)

theorem Numbered.keep (h : b.Numbered) (hc : b'.calls = b.calls) (hm : b'.made = b.made)
    (hw : ∀ k, b'.worker = some (.locked k) → b.worker = some (.locked k))
    (hlt : b'.workerWork + b'.timerWork < b.workerWork + b.timerWork) : b.Advances a b' := by
  refine ⟨⟨fun k hk => ?_, fun k hk => ?_⟩, fun _ => ?_⟩
  · rw [hc] at hk
    rw [hm]
    exact h.made_of_phase k hk
  · rw [hm]
    exact h.made_of_worker k (hw k hk)
  · unfold remaining callWork
    rw [hc, hm]
    omega

theorem Numbered.setCall (h : b.Numbered)
    (hk : (b.calls k).phase ≠ .absent ∨ b.worker = some (.locked k))
    (hc : b'.calls = (b.setCall k phase).calls) (hm : b'.made = b.made)
    (hw : ∀ j, b'.worker = some (.locked j) → j = k ∨ b.worker = some (.locked j))
    (hlt : phase.weight + b'.workerWork + b'.timerWork <
      (b.calls k).phase.weight + b.workerWork + b.timerWork) : b.Advances a b' := by
  have hkm : k < b.made := hk.elim (h.made_of_phase k) (h.made_of_worker k)
  refine ⟨⟨?_, fun j hj => ?_⟩, fun _ => ?_⟩
  · rw [hc, hm]
    exact (forall_update_iff b.calls fun j c => c.phase ≠ .absent → j < b.made).2
      ⟨fun _ => hkm, fun j _ => h.made_of_phase j⟩
  · rw [hm]
    rcases hw j hj with rfl | hj
    · exact hkm
    · exact h.made_of_worker j hj
  · have hs : (b.setCall k phase).callWork + (b.calls k).phase.weight = b.callWork + phase.weight :=
      sum_update_add (fun c : Call => c.phase.weight) b.calls hkm { b.calls k with phase }
    have hcw : b'.callWork = (b.setCall k phase).callWork := by rw [callWork, hc, hm]; rfl
    unfold remaining
    omega

/-- One step lowers what remains to be done. -/
theorem Numbered.step (h : b.Numbered) (hs : b.step a = some b') : b.Advances a b' := by
  have hrest {w w' x y : Nat} (hlt : w < w') : w + x + y < w' + x + y := by omega
  cases a <;>
    simp only [BufferUpdate.step, Option.ite_none_right_eq_some, Option.some.injEq] at hs <;>
    first | subst hs | obtain ⟨hw, rfl⟩ := hs | skip
  case call =>
    refine ⟨⟨?_, fun k hk => Nat.lt_succ_of_lt (h.made_of_worker k hk)⟩, fun ha => absurd rfl ha⟩
    exact (forall_update_iff b.calls fun k c => c.phase ≠ .absent → k < b.made + 1).2
      ⟨fun _ => Nat.lt_succ_self _, fun k _ hk => Nat.lt_succ_of_lt (h.made_of_phase k hk)⟩
  case tryLock =>
    obtain ⟨hk, hs⟩ := hs
    split at hs <;> cases hs <;> rename_i hw
    · refine h.setCall (.inl (by simp [hk])) rfl rfl (by simp [eq_comm]) ?_
      simp [workerWork, timerWork, CallPhase.weight, Worker.weight, hk, hw, BufferUpdate.setCall]
    · exact h.setCall (.inl (by simp [hk])) rfl rfl (fun _ => Or.inr)
        (hrest (by simp [hk, CallPhase.weight]))
  case raiseFlag =>
    exact h.setCall (.inl (by simp [hw])) rfl rfl (fun _ => Or.inr)
      (hrest (by simp [hw, CallPhase.weight]))
  case stopTimer =>
    split at hs <;> cases hs
    rename_i hw
    refine h.setCall (.inr hw) rfl rfl (by simp) ?_
    cases b.next <;>
      simp [workerWork, timerWork, CallPhase.weight, Worker.weight, hw, BufferUpdate.setCall] <;>
      omega
  case startSend | clearFlag | unlock =>
    exact h.keep rfl rfl (by simp) (by simp [workerWork, timerWork, Worker.weight, hw])
  case loadFlag =>
    refine h.keep rfl rfl (fun k hk => ?_) ?_
    · split at hk <;> simp at hk
    · cases b.update <;> simp [workerWork, timerWork, Worker.weight, hw]
  case setTimer =>
    refine h.keep rfl rfl (by simp) ?_
    simp only [workerWork, timerWork, hw, Option.elim, Worker.weight, if_true]
    omega
  case fire =>
    refine h.keep rfl rfl (fun _ => id) ?_
    have ht : b.timerWork = 2 + b.fired := by simp [timerWork, hw]
    show b.workerWork + (0 + (b.fired + 1)) < b.workerWork + b.timerWork
    omega
  case timerSend =>
    refine h.keep rfl rfl (fun _ => id) ?_
    simp only [workerWork, timerWork]
    omega

/-! ### Every run -/

theorem numbered_of_reaches {ok : BufferUpdate → Action → Prop} (h : Reaches step ok {} b) :
    b.Numbered :=
  h.invariant ⟨by simp, by simp⟩ fun _ _ _ hb _ hs => (hb.step hs).1

theorem serving_of_reaches (h : Reaches step InTime {} b) : b.Serving :=
  h.invariant ⟨by simp, by simp⟩ fun _ _ _ hb ht hs => hb.step ht hs

/-- Without new calls, a run is no longer than what remains. -/
theorem length_le_remaining {ok : BufferUpdate → Action → Prop} (h : Reaches step ok {} b)
    {l : List Action} (hr : run step (fun _ a => a ≠ .call) b l = some b') :
    l.length ≤ b.remaining := by
  have hle := length_add_measure_le (p := Numbered) (fun b a b' hb ha hs =>
    ⟨(hb.step hs).1, (hb.step hs).2 ha⟩) (numbered_of_reaches h) hr
  omega

/-- When nothing happens any more, a send has started after every call that has returned. -/
theorem served_of_settled (h : Reaches step InTime {} b) (hs : b.Settled)
    (hk : (b.calls k).phase = .returned) : b.Served k :=
  ((serving_of_reaches h).returned k hk).resolve_right hs.not_sendComing

end BufferUpdate

end Cloink.Sync
