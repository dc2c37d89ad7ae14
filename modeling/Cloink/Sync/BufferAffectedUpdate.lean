import Cloink.Lib.FinMap
import Cloink.Sync.BufferUpdate

/-!
# Buffered updates of affected peers

`BufferUpdateAffectedPeers` collects the ids of the peers to update. A call adds its ids; the one
that gets the lock takes all ids that are there and sends. After its send the worker looks for ids
that have come in since, and arms a timer that takes them. Ids that are added after the worker has
looked are left behind when their call finds the lock still taken.
-/

namespace Cloink.Sync

open Interleaving List Option BufferUpdate Function

namespace BufferAffectedUpdate

inductive CallPhase
  | absent
  | begun
  | added
  | locked
  | returned
  deriving DecidableEq

/-- A call, with its ids and the number of sends that had started when it was made. -/
structure Call where
  phase : CallPhase := .absent
  ids : List String := []
  sendsBefore : Nat := 0

/-- The holder of the lock: the call `k` that has taken it, then the goroutine it starts, which has
the ids it sends. -/
inductive Worker
  | locked (k : Nat)
  | stopped (k : Nat)
  | drained (ids : List String)
  | sent
  | pending
  | finished
  deriving DecidableEq

end BufferAffectedUpdate

/-- `bufferAffectedUpdate` of one account, with the calls made for it and the sends started. -/
structure BufferAffectedUpdate where
  /-- The holder of `sendMu`. -/
  worker : Option BufferAffectedUpdate.Worker := none
  peerIDs : List String := []
  /-- The timer, once there is one, and whether it is armed. -/
  next : Option Bool := none
  /-- The goroutines of the timer that have not taken the ids. -/
  fired : Nat := 0
  /-- The ids that goroutines of the timer have taken and not sent. -/
  flushing : List (List String) := []
  /-- The number of calls made. -/
  made : Nat := 0
  calls : Nat → BufferAffectedUpdate.Call := fun _ => {}
  /-- The ids of the sends started, in order. -/
  sends : List (List String) := []

namespace BufferAffectedUpdate

inductive Action
  | call (ids : List String)
  | addPeerIDs (k : Nat)
  | tryLock (k : Nat)
  | stopTimer
  | drainPeerIDs
  | startSend
  | hasPending
  | setTimer
  | unlock
  | fire
  | timerDrain
  | timerSend (n : Nat)
  deriving DecidableEq

def Action.isCall : Action → Bool
  | .call _ => true
  | _ => false

variable (b : BufferAffectedUpdate)

def setCall (k : Nat) (phase : CallPhase) : BufferAffectedUpdate :=
  { b with calls := update b.calls k { b.calls k with phase } }

variable {k : Nat} {a : Action} {phase : CallPhase}

/-- The state after the action, if it is enabled. -/
def step (b : BufferAffectedUpdate) : Action → Option BufferAffectedUpdate
  | .call ids =>
    -- a call without ids returns at once
    let phase := if ids.isEmpty then .returned else .begun
    some { b with
      made := b.made + 1
      calls := update b.calls b.made ⟨phase, ids, b.sends.length⟩ }
  | .addPeerIDs k =>
    if (b.calls k).phase = .begun then
      some { b.setCall k .added with peerIDs := b.peerIDs.insertAll (b.calls k).ids }
    else none
  | .tryLock k =>
    if (b.calls k).phase = .added then
      match b.worker with
      | none => some { b.setCall k .locked with worker := some (.locked k) }
      | some _ => some (b.setCall k .returned)
    else none
  | .stopTimer =>
    match b.worker with
    | some (.locked k) =>
      some { b with worker := some (.stopped k), next := b.next.map fun _ => false }
    | _ => none
  | .drainPeerIDs =>
    match b.worker with
    | some (.stopped k) =>
      -- the call starts the goroutine and returns
      some { b.setCall k .returned with worker := some (.drained b.peerIDs), peerIDs := [] }
    | _ => none
  | .startSend =>
    match b.worker with
    | some (.drained ids) => some { b with worker := some .sent, sends := b.sends ++ [ids] }
    | _ => none
  | .hasPending =>
    if b.worker = some .sent then
      some { b with worker := some (if b.peerIDs.isEmpty then .finished else .pending) }
    else none
  | .setTimer =>
    if b.worker = some .pending then some { b with worker := some .finished, next := some true }
    else none
  | .unlock =>
    if b.worker = some .finished then some { b with worker := none } else none
  | .fire =>
    if b.next = some true then some { b with next := some false, fired := b.fired + 1 } else none
  | .timerDrain =>
    if 0 < b.fired then
      some { b with
        fired := b.fired - 1
        peerIDs := []
        flushing := if b.peerIDs.isEmpty then b.flushing else b.flushing ++ [b.peerIDs] }
    else none
  | .timerSend n =>
    match b.flushing[n]? with
    | some ids => some { b with flushing := b.flushing.eraseIdx n, sends := b.sends ++ [ids] }
    | none => none

/-- No step but a further call is enabled. -/
def Settled : Prop := ∀ a : Action, a.isCall = false → b.step a = none

/-- A send with all ids of the call has started since it was made. -/
def Served (k : Nat) : Prop :=
  ∃ ids ∈ b.sends.drop (b.calls k).sendsBefore, (b.calls k).ids ⊆ ids

instance (k : Nat) : Decidable (b.Served k) :=
  inferInstanceAs (Decidable (∃ ids ∈ b.sends.drop (b.calls k).sendsBefore, (b.calls k).ids ⊆ ids))

/-! ### The condition -/

/-- The worker has still to take the ids or to look for them. -/
def Worker.active : Worker → Bool
  | .finished => false
  | _ => true

/-- Someone will take the ids that are there. -/
def DrainComing : Prop :=
  b.worker.any Worker.active ∨ b.next = some true ∨ 0 < b.fired

instance : Decidable b.DrainComing := inferInstanceAs (Decidable (_ ∨ _))

/-- A call has ids, and finds the lock taken only while someone will still take its ids, or when they
have been taken. -/
def InTime : Action → Prop
  | .call ids => ids ≠ []
  | .tryLock k => b.worker = none ∨ b.DrainComing ∨ ¬ (b.calls k).ids ⊆ b.peerIDs
  | _ => True

instance : DecidablePred b.InTime := fun a => by
  cases a <;> unfold InTime <;> infer_instance

/-! ### What the steps keep -/

/-- The ids of the call are on their way or have been sent. -/
def Taken (k : Nat) : Prop :=
  b.Served k ∨ (∃ ids, b.worker = some (.drained ids) ∧ (b.calls k).ids ⊆ ids) ∨
    ∃ ids ∈ b.flushing, (b.calls k).ids ⊆ ids

/-- The ids of the call are taken, or they wait and will be; before the call has tried the lock it
may have to take them itself. -/
def Tended (k : Nat) : Prop :=
  b.Taken k ∨ ((b.calls k).ids ⊆ b.peerIDs ∧ ((b.calls k).phase = .added ∨ b.DrainComing))

def CallPhase.hasAdded : CallPhase → Bool
  | .added | .locked | .returned => true
  | _ => false

/-- The call `k` has the lock and has not started its goroutine. -/
def Holds (k : Nat) : Prop := b.worker = some (.locked k) ∨ b.worker = some (.stopped k)

/-- The calls that have been made are the first ones, and the one that holds the lock knows it. -/
structure Numbered : Prop where
  made_of_phase : ∀ k, (b.calls k).phase ≠ .absent → k < b.made
  locked_of_holds : ∀ k, b.Holds k → (b.calls k).phase = .locked

/-- Every call that has added its ids is tended. -/
structure Serving : Prop where
  sends_before : ∀ k, (b.calls k).sendsBefore ≤ b.sends.length
  has_ids : ∀ k, (b.calls k).phase ≠ .absent → (b.calls k).ids ≠ []
  tended : ∀ k, (b.calls k).phase.hasAdded → b.Tended k

variable {b} {b' : BufferAffectedUpdate}

theorem Taken.mono (h : b.Taken k) (new : List (List String))
    (hi : (b'.calls k).ids = (b.calls k).ids)
    (hb : (b'.calls k).sendsBefore = (b.calls k).sendsBefore)
    (hle : (b.calls k).sendsBefore ≤ b.sends.length) (hsn : b'.sends = b.sends ++ new)
    (hwr : ∀ ids, b.worker = some (.drained ids) → b'.worker = some (.drained ids) ∨ ids ∈ new)
    (hf : ∀ ids ∈ b.flushing, ids ∈ b'.flushing ∨ ids ∈ new) : b'.Taken k := by
  have hd : b'.sends.drop (b.calls k).sendsBefore =
      b.sends.drop (b.calls k).sendsBefore ++ new := by
    rw [hsn, drop_append_of_le_length hle]
  have hs {ids : List String} (hn : ids ∈ new) (hsb : (b.calls k).ids ⊆ ids) : b'.Served k := by
    unfold Served
    rw [hi, hb, hd]
    exact ⟨ids, mem_append_right _ hn, hsb⟩
  rcases h with ⟨ids, hm, hsb⟩ | ⟨ids, hw, hsb⟩ | ⟨ids, hm, hsb⟩
  · left
    unfold Served
    rw [hi, hb, hd]
    exact ⟨ids, mem_append_left _ hm, hsb⟩
  · rcases hwr ids hw with hw | hn
    · exact .inr (.inl ⟨ids, hw, hi ▸ hsb⟩)
    · exact .inl (hs hn hsb)
  · rcases hf ids hm with hm | hn
    · exact .inr (.inr ⟨ids, hm, hi ▸ hsb⟩)
    · exact .inl (hs hn hsb)

theorem Serving.keep (h : b.Serving) (new : List (List String)) (hc : b'.calls = b.calls)
    (hs : b'.sends = b.sends ++ new) (hwr : ∀ ids, b.worker = some (.drained ids) →
      b'.worker = some (.drained ids) ∨ ids ∈ new)
    (hf : ∀ ids ∈ b.flushing, ids ∈ b'.flushing ∨ ids ∈ new)
    (hw : ∀ ids, ids ≠ [] → ids ⊆ b.peerIDs → (∃ ids' ∈ b'.flushing, ids ⊆ ids') ∨
      (ids ⊆ b'.peerIDs ∧ (b.DrainComing → b'.DrainComing))) : b'.Serving := by
  refine ⟨fun k => ?_, fun k hk => ?_, fun k hk => ?_⟩
  · rw [hc, hs, length_append]
    exact Nat.le_add_right_of_le (h.sends_before k)
  · rw [hc] at hk ⊢
    exact h.has_ids k hk
  · rw [hc] at hk
    have hne : (b.calls k).phase ≠ .absent := fun ha => by simp [ha, CallPhase.hasAdded] at hk
    rcases h.tended k hk with ht | ⟨hsb, hp⟩
    · exact .inl (ht.mono new (by rw [hc]) (by rw [hc]) (h.sends_before k) hs hwr hf)
    · rcases hw _ (h.has_ids k hne) hsb with ⟨ids, hm, hi⟩ | ⟨hs', hcm⟩
      · exact .inl (.inr (.inr ⟨ids, hm, by rwa [hc]⟩))
      · right
        rw [hc]
        exact ⟨hs', hp.imp_right hcm⟩

/-- A call goes on, and the ids that wait are kept or taken by the holder of the lock. -/
theorem Serving.setCall (h : b.Serving) (hk : (b.calls k).phase ≠ .absent)
    (hcl : b'.calls = (b.setCall k phase).calls) (hs : b'.sends = b.sends)
    (hf : b'.flushing = b.flushing)
    (hwr : ∀ ids, b.worker = some (.drained ids) → b'.worker = some (.drained ids))
    (hwt : ∀ ids, ids ⊆ b.peerIDs → b'.worker = some (.drained b.peerIDs) ∨
      (ids ⊆ b'.peerIDs ∧ (b.DrainComing → b'.DrainComing)))
    (hsl : b.Taken k ∨ ((b.calls k).ids ⊆ b.peerIDs ∧ b'.worker = some (.drained b.peerIDs)) ∨
      ((b.calls k).ids ⊆ b'.peerIDs ∧ (phase = .added ∨ b'.DrainComing))) : b'.Serving := by
  have hib : ∀ j, (b'.calls j).ids = (b.calls j).ids ∧
      (b'.calls j).sendsBefore = (b.calls j).sendsBefore := by
    rw [hcl]
    exact (forall_update_iff b.calls fun j c =>
      c.ids = (b.calls j).ids ∧ c.sendsBefore = (b.calls j).sendsBefore).2
        ⟨⟨rfl, rfl⟩, fun _ _ => ⟨rfl, rfl⟩⟩
  have htk {j : Nat} (hj : b.Taken j) : b'.Taken j :=
    hj.mono [] (hib j).1 (hib j).2 (h.sends_before j) (by rw [hs, append_nil])
      (fun ids hw => .inl (hwr ids hw)) fun ids hm => .inl (hf ▸ hm)
  have hd {j : Nat} (hw : b'.worker = some (.drained b.peerIDs))
      (hsb : (b.calls j).ids ⊆ b.peerIDs) : b'.Taken j :=
    .inr (.inl ⟨b.peerIDs, hw, by rwa [(hib j).1]⟩)
  refine ⟨fun j => ?_, ?_, ?_⟩
  · rw [(hib j).2, hs]
    exact h.sends_before j
  · rw [hcl]
    exact (forall_update_iff b.calls fun _ c => c.phase ≠ .absent → c.ids ≠ []).2
      ⟨fun _ => h.has_ids k hk, fun j _ => h.has_ids j⟩
  · unfold Tended
    rw [hcl]
    refine (forall_update_iff b.calls fun j c => c.phase.hasAdded → b'.Taken j ∨
      c.ids ⊆ b'.peerIDs ∧ (c.phase = .added ∨ b'.DrainComing)).2 ⟨fun _ => ?_, fun j _ hj => ?_⟩
    · rcases hsl with ht | ⟨hsb, hw⟩ | hws
      · exact .inl (htk ht)
      · exact .inl (hd hw hsb)
      · exact .inr hws
    · rcases h.tended j hj with ht | ⟨hsb, hp⟩
      · exact .inl (htk ht)
      · rcases hwt _ hsb with hw | ⟨hs', hcm⟩
        · exact .inl (hd hw hsb)
        · exact .inr ⟨hs', hp.imp_right hcm⟩

theorem Serving.step (h : b.Serving) (hn : b.Numbered) (htm : b.InTime a)
    (hst : b.step a = some b') : b'.Serving := by
  have hp {ids : List String} (hne : ids ≠ []) (hsb : ids ⊆ b.peerIDs) : b.peerIDs ≠ [] :=
    fun hnl => hne (subset_nil.1 (hnl ▸ hsb))
  cases a <;> simp only [BufferAffectedUpdate.step, ite_none_right_eq_some, some.injEq] at hst <;>
    first | subst hst | obtain ⟨hw, rfl⟩ := hst | skip
  case call ids =>
    have hne : ids ≠ [] := htm
    have hph : (if ids.isEmpty then CallPhase.returned else .begun) = .begun := by simp [hne]
    simp only [hph]
    refine ⟨?_, ?_, ?_⟩
    · exact (forall_update_iff b.calls fun _ c => c.sendsBefore ≤ b.sends.length).2
        ⟨le_rfl, fun k _ => h.sends_before k⟩
    · exact (forall_update_iff b.calls fun _ c => c.phase ≠ .absent → c.ids ≠ []).2
        ⟨fun _ => hne, fun k _ => h.has_ids k⟩
    · simp only [Tended, Taken, Served]
      exact (forall_update_iff b.calls fun _ c => c.phase.hasAdded →
        ((∃ ids ∈ b.sends.drop c.sendsBefore, c.ids ⊆ ids) ∨
          (∃ ids, b.worker = some (.drained ids) ∧ c.ids ⊆ ids) ∨ ∃ ids ∈ b.flushing, c.ids ⊆ ids) ∨
        c.ids ⊆ b.peerIDs ∧ (c.phase = .added ∨ b.DrainComing)).2
          ⟨by simp [CallPhase.hasAdded], fun k _ => h.tended k⟩
  case addPeerIDs =>
    refine h.setCall (by simp [hw]) rfl rfl rfl (fun _ => id)
      (fun ids hsb => .inr ⟨fun x hx => ?_, id⟩) (.inr (.inr ⟨fun x hx => ?_, .inl rfl⟩))
    · exact mem_insertAll.2 (.inl (hsb hx))
    · exact mem_insertAll.2 (.inr hx)
  case tryLock k =>
    obtain ⟨hk, hst⟩ := hst
    have htd := h.tended k (by simp [hk, CallPhase.hasAdded])
    split at hst <;> cases hst <;> rename_i hw
    · refine h.setCall (by simp [hk]) rfl rfl rfl (by simp [hw])
        (fun ids hsb => .inr ⟨hsb, fun _ => .inl rfl⟩) ?_
      exact htd.imp_right fun ⟨hsb, _⟩ => .inr ⟨hsb, .inr (.inl rfl)⟩
    · refine h.setCall (by simp [hk]) rfl rfl rfl (fun _ => id) (fun ids hsb => .inr ⟨hsb, id⟩) ?_
      rcases htd with ht | ⟨hsb, -⟩
      · exact .inl ht
      · -- someone will still take the ids
        rcases htm with hnn | hcm | hnt
        · simp [hw] at hnn
        · exact .inr (.inr ⟨hsb, .inr hcm⟩)
        · exact absurd hsb hnt
  case stopTimer =>
    split at hst <;> cases hst
    rename_i hw
    exact h.keep [] rfl (append_nil _).symm (by simp [hw]) (fun _ => Or.inl)
      fun ids _ hsb => .inr ⟨hsb, fun _ => .inl rfl⟩
  case drainPeerIDs =>
    split at hst <;> cases hst
    rename_i k hw
    have hl := hn.locked_of_holds k (.inr hw)
    refine h.setCall (by simp [hl]) rfl rfl rfl (by simp [hw]) (fun ids _ => .inl rfl) ?_
    exact (h.tended k (by simp [hl, CallPhase.hasAdded])).imp_right
      fun ⟨hsb, _⟩ => .inl ⟨hsb, rfl⟩
  case startSend =>
    split at hst <;> cases hst
    rename_i ids hw
    refine h.keep [ids] rfl rfl (fun ids' hi' => .inr ?_) (fun _ => Or.inl)
      fun _ _ hsb => .inr ⟨hsb, fun _ => .inl rfl⟩
    rw [hw, some.injEq, Worker.drained.injEq] at hi'
    simp [hi']
  case hasPending =>
    -- the worker sees the ids that wait
    exact h.keep [] rfl (append_nil _).symm (by simp [hw]) (fun _ => Or.inl)
      fun ids hne hsb => .inr ⟨hsb, fun _ => Or.inl (by simp [hp hne hsb, Worker.active])⟩
  case setTimer =>
    exact h.keep [] rfl (append_nil _).symm (by simp [hw])
      (fun _ => Or.inl) fun _ _ hsb => .inr ⟨hsb, fun _ => .inr (.inl rfl)⟩
  case unlock =>
    refine h.keep [] rfl (append_nil _).symm (by simp [hw])
      (fun _ => Or.inl) fun _ _ hsb => .inr ⟨hsb, fun hc => ?_⟩
    simpa [DrainComing, hw, Worker.active] using hc
  case fire =>
    exact h.keep [] rfl (append_nil _).symm (fun _ => Or.inl) (fun _ => Or.inl)
      fun _ _ hsb => .inr ⟨hsb, fun _ => .inr (.inr (Nat.succ_pos _))⟩
  case timerDrain =>
    refine h.keep [] rfl (append_nil _).symm (fun _ => Or.inl) (fun ids hm => .inl ?_)
      fun ids hne hsb => .inl ⟨b.peerIDs, by simp [hp hne hsb], hsb⟩
    split
    · exact hm
    · exact mem_append_left _ hm
  case timerSend n =>
    split at hst <;> cases hst
    rename_i ids hn
    refine h.keep [ids] rfl rfl (fun _ => Or.inl) (fun ids' hm => ?_)
      fun _ _ hsb => .inr ⟨hsb, id⟩
    obtain ⟨i, hi⟩ := mem_iff_getElem?.1 hm
    by_cases hin : i = n
    · rw [hin, hn, some.injEq] at hi
      exact .inr (by simp [hi])
    · exact .inl (mem_eraseIdx_iff_getElem?.2 ⟨i, hin, hi⟩)

/-! ### Settled states -/

/-- Nothing is under way. -/
def Quiet (b : BufferAffectedUpdate) : Prop :=
  b.worker = none ∧ b.next ≠ some true ∧ b.fired = 0 ∧ b.flushing = [] ∧
    ∀ k < b.made, (b.calls k).phase = .returned

instance : Decidable b.Quiet := inferInstanceAs (Decidable (_ ∧ _))

theorem Settled.not_drainComing (h : b.Settled) : ¬ b.DrainComing := by
  rintro (hw | hn | hf)
  · obtain ⟨w, hw, ha⟩ := any_eq_true _ _ |>.1 hw
    cases w with
    | locked k => simpa [step, hw] using h .stopTimer rfl
    | stopped k => simpa [step, hw] using h .drainPeerIDs rfl
    | drained ids => simpa [step, hw] using h .startSend rfl
    | sent => simpa [step, hw] using h .hasPending rfl
    | pending => simpa [step, hw] using h .setTimer rfl
    | finished => cases ha
  · simpa [step, hn] using h .fire rfl
  · have hnn := h .timerDrain rfl
    simp only [step, if_pos hf] at hnn
    cases hnn

theorem Settled.served_of_taken (h : b.Settled) (ht : b.Taken k) : b.Served k := by
  rcases ht with hs | ⟨ids, hw, -⟩ | ⟨ids, hm, -⟩
  · exact hs
  · simpa [step, hw] using h .startSend rfl
  · obtain ⟨n, hn⟩ := mem_iff_getElem?.1 hm
    simpa [step, hn] using h (.timerSend n) rfl

theorem Numbered.settled_of_quiet (h : b.Numbered) (hq : b.Quiet) : b.Settled := by
  obtain ⟨hw, hn, hf, hfl, hc⟩ := hq
  have hp (k : Nat) : (b.calls k).phase = .absent ∨ (b.calls k).phase = .returned := by
    by_cases hk : (b.calls k).phase = .absent
    · exact .inl hk
    · exact .inr (hc k (h.made_of_phase k hk))
  intro a ha
  cases a with
  | call => cases ha
  | addPeerIDs k | tryLock k =>
    rcases hp k with hk | hk <;> simp [BufferAffectedUpdate.step, hk]
  | fire => simp [BufferAffectedUpdate.step, hn]
  | timerDrain => simp [BufferAffectedUpdate.step, hf]
  | timerSend n => simp [BufferAffectedUpdate.step, hfl]
  | _ => simp [BufferAffectedUpdate.step, hw]

/-! ### Termination -/

def CallPhase.weight : CallPhase → Nat
  | .begun => 12
  | .added => 11
  | _ => 0

def Worker.weight : Worker → Nat
  | .locked _ => 9
  | .stopped _ => 8
  | .drained _ => 7
  | .sent => 6
  | .pending => 5
  | .finished => 1

/-- What the calls have still to do. -/
def callWork (b : BufferAffectedUpdate) : Nat :=
  ∑ k ∈ Finset.range b.made, (b.calls k).phase.weight

/-- What the holder of the lock has still to do. -/
def workerWork (b : BufferAffectedUpdate) : Nat := b.worker.elim 0 Worker.weight

/-- What the timer has still to do. -/
def timerWork (b : BufferAffectedUpdate) : Nat :=
  (if b.next = some true then 3 else 0) + 2 * b.fired + b.flushing.length

/-- A bound on the steps that may come without a further call. -/
def remaining (b : BufferAffectedUpdate) : Nat := b.callWork + b.workerWork + b.timerWork

/-- The calls stay numbered, and after a step that is not a call there is less to do. -/
def Advances (b : BufferAffectedUpdate) (a : Action) (b' : BufferAffectedUpdate) : Prop :=
  b'.Numbered ∧ (a.isCall = false → b'.remaining < b.remaining)

theorem Numbered.keep (h : b.Numbered) (hc : b'.calls = b.calls) (hm : b'.made = b.made)
    (hh : ∀ k, b'.Holds k → b.Holds k)
    (hlt : b'.workerWork + b'.timerWork < b.workerWork + b.timerWork) : b.Advances a b' := by
  refine ⟨⟨fun k hk => ?_, fun k hk => ?_⟩, fun _ => ?_⟩
  · rw [hc] at hk
    rw [hm]
    exact h.made_of_phase k hk
  · rw [hc]
    exact h.locked_of_holds k (hh k hk)
  · unfold remaining callWork
    rw [hc, hm]
    omega

theorem Numbered.setCall (h : b.Numbered) (hk : (b.calls k).phase ≠ .absent)
    (hc : b'.calls = (b.setCall k phase).calls) (hm : b'.made = b.made)
    (hs : b'.Holds k → phase = .locked) (hh : ∀ j ≠ k, b'.Holds j → b.Holds j)
    (hlt : phase.weight + b'.workerWork + b'.timerWork <
      (b.calls k).phase.weight + b.workerWork + b.timerWork) : b.Advances a b' := by
  have hkm := h.made_of_phase k hk
  refine ⟨⟨?_, ?_⟩, fun _ => ?_⟩
  · rw [hc, hm]
    exact (forall_update_iff b.calls fun j c => c.phase ≠ .absent → j < b.made).2
      ⟨fun _ => hkm, fun j _ => h.made_of_phase j⟩
  · rw [hc]
    exact (forall_update_iff b.calls fun j c => b'.Holds j → c.phase = .locked).2
      ⟨hs, fun j hj hb => h.locked_of_holds j (hh j hj hb)⟩
  · have hs : (b.setCall k phase).callWork + (b.calls k).phase.weight = b.callWork + phase.weight :=
      sum_update_add (fun c : Call => c.phase.weight) b.calls hkm { b.calls k with phase }
    have hcw : b'.callWork = (b.setCall k phase).callWork := by rw [callWork, hc, hm]; rfl
    unfold remaining
    omega

theorem Numbered.step (h : b.Numbered) (hs : b.step a = some b') : b.Advances a b' := by
  have hfree {k : Nat} {q : CallPhase} (hk : (b.calls k).phase ≠ .locked) (hh : b.Holds k) :
      q = .locked := absurd (h.locked_of_holds k hh) hk
  have hrest {w w' x y : Nat} (hlt : w < w') : w + x + y < w' + x + y := by omega
  cases a <;> simp only [BufferAffectedUpdate.step, ite_none_right_eq_some, some.injEq] at hs <;>
    first | subst hs | obtain ⟨hw, rfl⟩ := hs | skip
  case call =>
    refine ⟨⟨?_, fun k hk => ?_⟩, fun ha => by cases ha⟩
    · exact (forall_update_iff b.calls fun k c => c.phase ≠ .absent → k < b.made + 1).2
        ⟨fun _ => Nat.lt_succ_self _, fun k _ hk => Nat.lt_succ_of_lt (h.made_of_phase k hk)⟩
    · have hl : (b.calls k).phase = .locked := h.locked_of_holds k hk
      have hkm : k ≠ b.made := Nat.ne_of_lt (h.made_of_phase k (by simp [hl]))
      simp only [update_of_ne hkm]
      exact hl
  case addPeerIDs =>
    exact h.setCall (by simp [hw]) rfl rfl (hfree (by simp [hw])) (fun _ _ => id)
      (hrest (by simp [hw, CallPhase.weight]))
  case tryLock =>
    obtain ⟨hk, hs⟩ := hs
    split at hs <;> cases hs <;> rename_i hw
    · refine h.setCall (by simp [hk]) rfl rfl (fun _ => rfl)
        (by simp +contextual [Holds, eq_comm]) ?_
      simp [workerWork, timerWork, CallPhase.weight, Worker.weight, hk, hw,
        BufferAffectedUpdate.setCall]
    · exact h.setCall (by simp [hk]) rfl rfl (hfree (by simp [hk])) (fun _ _ => id)
        (hrest (by simp [hk, CallPhase.weight]))
  case drainPeerIDs =>
    split at hs <;> cases hs
    rename_i k hw
    have hl := h.locked_of_holds k (.inr hw)
    refine h.setCall (by simp [hl]) rfl rfl (by simp [Holds]) (by simp [Holds]) ?_
    simp [workerWork, timerWork, CallPhase.weight, Worker.weight, hl, hw,
      BufferAffectedUpdate.setCall]
  case stopTimer =>
    split at hs <;> cases hs
    rename_i hw
    refine h.keep rfl rfl (by simp [Holds, hw]) ?_
    cases b.next <;> simp [workerWork, timerWork, Worker.weight, hw] <;> omega
  case startSend =>
    split at hs <;> cases hs
    rename_i hw
    exact h.keep rfl rfl (by simp [Holds]) (by simp [workerWork, timerWork, Worker.weight, hw])
  case unlock =>
    exact h.keep rfl rfl (by simp [Holds]) (by simp [workerWork, timerWork, Worker.weight, hw])
  case hasPending =>
    refine h.keep rfl rfl (fun k hk => ?_) ?_
    · simp only [Holds] at hk
      split at hk <;> simp at hk
    · cases b.peerIDs <;> simp [workerWork, timerWork, Worker.weight, hw]
  case setTimer =>
    refine h.keep rfl rfl (by simp [Holds]) ?_
    simp only [workerWork, timerWork, hw, Option.elim, Worker.weight, if_true]
    omega
  case fire =>
    refine h.keep rfl rfl (fun _ => id) ?_
    simp only [workerWork, timerWork, hw, some.injEq, Bool.false_eq_true, if_false, if_true]
    omega
  case timerDrain =>
    refine h.keep rfl rfl (fun _ => id) ?_
    have hln : (if b.peerIDs.isEmpty then b.flushing else b.flushing ++ [b.peerIDs]).length ≤
        b.flushing.length + 1 := by
      split <;> simp
    simp only [workerWork, timerWork]
    omega
  case timerSend =>
    split at hs <;> cases hs
    rename_i hn
    refine h.keep rfl rfl (fun _ => id) ?_
    obtain ⟨hlt, -⟩ := List.getElem?_eq_some_iff.1 hn
    simp only [workerWork, timerWork, length_eraseIdx_of_lt hlt]
    omega

/-! ### Every run -/

theorem numbered_of_reaches {ok : BufferAffectedUpdate → Action → Prop}
    (h : Reaches step ok {} b) : b.Numbered :=
  h.invariant ⟨by simp, by simp [Holds]⟩ fun _ _ _ hb _ hs => (hb.step hs).1

theorem serving_of_reaches (h : Reaches step InTime {} b) : b.Serving :=
  (h.invariant (p := fun b => b.Numbered ∧ b.Serving)
    ⟨⟨by simp, by simp [Holds]⟩, by simp, by simp, by simp [CallPhase.hasAdded]⟩
    fun _ _ _ hb ht hs => ⟨(hb.1.step hs).1, hb.2.step hb.1 ht hs⟩).2

theorem length_le_remaining {ok : BufferAffectedUpdate → Action → Prop}
    (h : Reaches step ok {} b) {l : List Action}
    (hr : run step (fun _ a => a.isCall = false) b l = some b') : l.length ≤ b.remaining := by
  have hle := length_add_measure_le (p := Numbered) (fun b a b' hb ha hs =>
    ⟨(hb.step hs).1, (hb.step hs).2 ha⟩) (numbered_of_reaches h) hr
  omega

/-- When nothing happens any more, the ids of every call that has returned have been sent. -/
theorem served_of_settled (h : Reaches step InTime {} b) (hs : b.Settled)
    (hk : (b.calls k).phase = .returned) : b.Served k := by
  rcases (serving_of_reaches h).tended k (by simp [hk, CallPhase.hasAdded]) with ht | ⟨-, hc⟩
  · exact hs.served_of_taken ht
  · rcases hc with ha | hc
    · simp [hk] at ha
    · exact absurd hc hs.not_drainComing

end BufferAffectedUpdate

/-! ### Both kinds of buffered updates -/

/-- In every run whose steps are in time, the steps without a further call come to an end, and then
a send has started after every call that has returned; for affected peers one with all ids of the
call. -/
theorem buffered_updates_sent {b : BufferUpdate}
    (hb : Reaches step BufferUpdate.InTime {} b) {c : BufferAffectedUpdate}
    (hc : Reaches BufferAffectedUpdate.step BufferAffectedUpdate.InTime {} c) :
    ((∀ l b', run step (fun _ a => a ≠ .call) b l = some b' → l.length ≤ b.remaining) ∧
      (b.Settled → ∀ k, (b.calls k).phase = .returned → b.Served k)) ∧
    (∀ l c', run BufferAffectedUpdate.step (fun _ a => a.isCall = false) c l = some c' →
        l.length ≤ c.remaining) ∧
      (c.Settled → ∀ k, (c.calls k).phase = .returned → c.Served k) := by
  refine ⟨⟨fun l b' hr => ?_, fun hs k hk => ?_⟩, fun l c' hr => ?_, fun hs k hk => ?_⟩
  · exact length_le_remaining hb hr
  · exact served_of_settled hb hs hk
  · exact BufferAffectedUpdate.length_le_remaining hc hr
  · exact BufferAffectedUpdate.served_of_settled hc hs hk

/-- The second call finds the lock taken after the worker has looked: nothing is sent for it. -/
theorem late_call_lost : (∃ b, Reaches step (fun _ _ => True) {} b ∧ b.Settled ∧
      (b.calls 1).phase = .returned ∧ ¬ b.Served 1) ∧
    (∃ b, Reaches BufferAffectedUpdate.step (fun _ _ => True) {} b ∧ b.Settled ∧
      (b.calls 1).ids = ["q"] ∧ (b.calls 1).phase = .returned ∧ ¬ b.Served 1) := by
  constructor
  · have hr : ∃ b, Reaches step (fun _ _ => True) {} b ∧ b.Quiet ∧
        (b.calls 1).phase = .returned ∧ ¬ b.Served 1 :=
      exists_reaches [.call, .tryLock 0, .stopTimer, .startSend, .loadFlag, .call, .tryLock 1,
        .raiseFlag 1, .unlock] (by decide +kernel)
    obtain ⟨b, hb, hq, hl⟩ := hr
    exact ⟨b, hb, (numbered_of_reaches hb).settled_of_quiet hq, hl⟩
  · have hr : ∃ b, Reaches BufferAffectedUpdate.step (fun _ _ => True) {} b ∧ b.Quiet ∧
        (b.calls 1).ids = ["q"] ∧ (b.calls 1).phase = .returned ∧ ¬ b.Served 1 :=
      exists_reaches [.call ["p"], .addPeerIDs 0, .tryLock 0, .stopTimer, .drainPeerIDs,
        .startSend, .hasPending, .call ["q"], .addPeerIDs 1, .tryLock 1, .unlock]
        (by decide +kernel)
    obtain ⟨b, hb, hq, hl⟩ := hr
    exact ⟨b, hb, (BufferAffectedUpdate.numbered_of_reaches hb).settled_of_quiet hq, hl⟩

/-- A second call that comes while the worker sends is served by the timer. -/
theorem buffered_updates_sent_by_timer : (∃ b, Reaches step BufferUpdate.InTime {} b ∧ b.Settled ∧
      (b.calls 1).phase = .returned ∧ b.Served 1) ∧
    (∃ b, Reaches BufferAffectedUpdate.step BufferAffectedUpdate.InTime {} b ∧ b.Settled ∧
      (b.calls 1).phase = .returned ∧ b.Served 1) := by
  have hrn : ∃ b, Reaches step BufferUpdate.InTime {} b ∧ b.Quiet ∧ (b.calls 1).phase = .returned :=
    exists_reaches [.call, .tryLock 0, .stopTimer, .startSend, .call, .tryLock 1, .raiseFlag 1,
      .loadFlag, .clearFlag, .setTimer, .unlock, .fire, .timerSend] (by decide +kernel)
  obtain ⟨b, hb, hq, hr⟩ := hrn
  have hrn' : ∃ b, Reaches BufferAffectedUpdate.step BufferAffectedUpdate.InTime {} b ∧
      b.Quiet ∧ (b.calls 1).phase = .returned :=
    exists_reaches [.call ["p"], .addPeerIDs 0, .tryLock 0, .stopTimer, .drainPeerIDs,
      .startSend, .call ["q"], .addPeerIDs 1, .tryLock 1, .hasPending, .setTimer, .unlock, .fire,
      .timerDrain, .timerSend 0] (by decide +kernel)
  obtain ⟨c, hc, hq', hr'⟩ := hrn'
  have hs := (numbered_of_reaches hb).settled_of_quiet hq
  have hs' := (BufferAffectedUpdate.numbered_of_reaches hc).settled_of_quiet hq'
  obtain ⟨⟨-, hsr⟩, -, hsr'⟩ := buffered_updates_sent hb hc
  exact ⟨⟨b, hb, hs, hr, hsr hs 1 hr⟩, c, hc, hs', hr', hsr' hs' 1 hr'⟩

end Cloink.Sync
