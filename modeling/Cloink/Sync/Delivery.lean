import Cloink.Sync.Streams

/-!
# Delivery of changes

A connected peer is to be sent a network map that includes every change whose update is through. The
initial map of a stream is computed before the channel of the stream exists, so an update that
passes the peer in between is lost. So is one that has loaded an older state of the store and comes
last, when the debouncer still holds the newer map.
-/

namespace Cloink.Sync

open Function Interleaving List UpdateDebouncer List.Subset Option

/-- The state of the store the initial map was computed from, while the stream has no channel. -/
@[simp]
def Phase.awaiting : Phase → Option Nat
  | .computed v | .marked v | .initialSent v | .announced v => some v
  | _ => none

/-- The same, once the initial map has been sent. -/
@[simp]
def Phase.initial : Phase → Option Nat
  | .initialSent v | .announced v => some v
  | _ => none

/-- The stream has not created its channel yet. -/
@[simp]
def Phase.early : Phase → Bool
  | .idle | .waiting | .locked | .computed _ | .marked _ | .initialSent _ | .announced _ => true
  | _ => false

/-- The stream has created its channel and has not begun to end. -/
@[simp]
def Phase.connected : Phase → Bool
  | .created | .refreshed | .handling => true
  | _ => false

/-- A stream may go from one phase to the other without computing or sending a map and without
creating its channel. -/
def Phase.Advances (q p : Phase) : Prop :=
  q ≠ .idle ∧ (p.early → q.early) ∧ (∀ w ∈ p.initial, w ∈ q.initial) ∧
    (∀ w ∈ p.awaiting, w ∈ q.awaiting) ∧ (p.connected → q.connected)

/-- The state of the store an update has loaded. -/
def Update.version : Update → Option Nat
  | .loaded v | .scanning v | .sending v | .done v => some v
  | _ => none

/-- The state of the store of a network map. -/
def Message.version : Message → Option Nat
  | .networkMap v => some v
  | .controlConfig _ => none

/-- The debouncer lets a message through, or appends it to those it holds back, where a network map
may take the place of the one before it. -/
theorem UpdateDebouncer.processUpdate_cases (d : UpdateDebouncer) (m : Message) :
    ((d.processUpdate m).2 ∧ (d.processUpdate m).1.pendingUpdates = d.pendingUpdates) ∨
    ((d.processUpdate m).2 = false ∧
      ((d.processUpdate m).1.pendingUpdates = d.pendingUpdates ++ [m] ∨
        ∃ l u v, d.pendingUpdates = l ++ [.networkMap u] ∧ m = .networkMap v ∧
          (d.processUpdate m).1.pendingUpdates = l ++ [m])) := by
  unfold processUpdate
  split
  · exact .inl ⟨rfl, rfl⟩
  · refine .inr ⟨rfl, ?_⟩
    unfold coalesce
    split
    · rename_i hmp
      rw [Bool.and_eq_true] at hmp
      obtain ⟨hm, hls⟩ := hmp
      obtain ⟨v, rfl⟩ : ∃ v, m = .networkMap v := by
        cases m with
        | networkMap v => exact ⟨v, rfl⟩
        | controlConfig => cases hm
      rcases eq_nil_or_concat d.pendingUpdates with hn | ⟨l, last, hl⟩
      · rw [hn] at hls
        cases hls
      · rw [hl] at hls ⊢
        cases last with
        | networkMap u => exact .inr ⟨l, u, v, by simp, rfl, by simp⟩
        | controlConfig => simp [Message.isNetworkMap] at hls
    · exact .inl rfl

namespace State

variable (s : State)

/-! ### Conditions on a step -/

/-- The state of the store of the update that is through with the peer after the action: it skips
the peer, which has no channel, or sends to its channel. -/
def passing : Action → Option Nat
  | .hasPeersConnected k others =>
    match s.updates k with
    | .loaded v => if others || s.peerChannel.isSome then none else some v
    | _ => none
  | .hasChannel k =>
    match s.updates k with
    | .scanning v => if s.peerChannel.isSome then none else some v
    | _ => none
  | .sendUpdate k =>
    match s.updates k with
    | .sending v => some v
    | _ => none
  | _ => none

/-- No update with a newer state of the store passes the peer while a stream has computed its
initial map and has not created its channel. -/
def Timely (a : Action) : Prop :=
  ∀ v ∈ s.passing a, ∀ i < s.started, ∀ w ∈ (s.streams i).phase.awaiting, v ≤ w

instance (a : Action) : Decidable (s.Timely a) := inferInstanceAs (Decidable (∀ v ∈ _, _))

/-- The messages of the stream that have not been sent: first those the debouncer holds back. -/
def waiting (i : Nat) : List Message :=
  (s.streams i).debouncer.pendingUpdates ++ (s.channels i).queue

/-- No network map is put behind one of a newer state of the store. -/
def InOrder (a : Action) : Prop :=
  ∀ v ∈ s.passing a, ∀ i ∈ s.peerChannel, ∀ w ∈ (s.waiting i).filterMap Message.version, w ≤ v

instance (a : Action) : Decidable (s.InOrder a) := inferInstanceAs (Decidable (∀ v ∈ _, _))

def NotFull : Action → Prop
  | .sendUpdate _ | .pushControlConfig _ =>
    ∀ i ∈ s.peerChannel, (s.channels i).queue.length < channelBufferSize
  | _ => True

instance : DecidablePred s.NotFull := fun a => by
  cases a <;> unfold NotFull <;> infer_instance

/-! ### Open streams -/

/-- The stream is handling updates and its channel is open. -/
def IsOpen (i : Nat) : Prop :=
  (s.streams i).phase = .handling ∧ (s.channels i).closed = false

instance (i : Nat) : Decidable (s.IsOpen i) := inferInstanceAs (Decidable (_ ∧ _))

def Drained (i : Nat) : Prop := s.waiting i = []

instance (i : Nat) : Decidable (s.Drained i) := inferInstanceAs (Decidable (_ = _))

/-! ### What the steps keep -/

/-- An update that is through has left its change with every stream that needs it: in the initial
map, or in a message that has been sent or waits to be sent. -/
structure Delivering : Prop where
  committed : ∀ k, s.updates k ≠ .absent → k ≤ s.version
  loaded : ∀ k, ∀ v ∈ (s.updates k).version, k ≤ v ∧ v ≤ s.version
  started_of_phase : ∀ i, (s.streams i).phase ≠ .idle → i < s.started
  none_pending : ∀ i, (s.streams i).phase.early → (s.streams i).debouncer.pendingUpdates = []
  initial_sent : ∀ i, ∀ w ∈ (s.streams i).phase.initial, .networkMap w ∈ (s.streams i).sent
  through_awaiting : ∀ k v, s.updates k = .done v → ∀ i, ∀ w ∈ (s.streams i).phase.awaiting, v ≤ w
  through_channel : ∀ k v, s.updates k = .done v → ∀ i ∈ s.peerChannel,
    ∃ w, .networkMap w ∈ (s.streams i).sent ++ s.waiting i ∧ v ≤ w
  ordered : ∀ i ∈ s.peerChannel, ((s.waiting i).filterMap Message.version).Pairwise (· ≤ ·)
  registered : ∀ i, (s.channels i).made → (s.channels i).closed = false → s.peerChannel = some i
  made_of_phase : ∀ i, (s.streams i).phase.connected → (s.channels i).made

/-- The two states agree on what delivery depends on. -/
structure Agree (t : State) : Prop where
  version : s.version = t.version := by rfl
  updates : s.updates = t.updates := by rfl
  started : s.started = t.started := by rfl
  streams : s.streams = t.streams := by rfl
  channels : s.channels = t.channels := by rfl
  peerChannel : s.peerChannel = t.peerChannel := by rfl

variable {s} {t : State}

theorem Delivering.congr (h : t.Delivering) (ha : s.Agree t) : s.Delivering := by
  obtain ⟨h1, h2, h3, h4, h5, h6⟩ := ha
  constructor <;> simp only [waiting, h1, h2, h3, h4, h5, h6]
  exacts [h.committed, h.loaded, h.started_of_phase, h.none_pending, h.initial_sent,
    h.through_awaiting, h.through_channel, h.ordered, h.registered, h.made_of_phase]

variable {i k v : Nat} {queue : List Message}

variable (h : s.Delivering)

include h

/-- A stream goes on and moves messages on: it sends no less, none of its network maps goes without a
map of the same or a newer state of the store, and the order stays. -/
theorem Delivering.relay {st : Stream} (hi : i < s.started)
    (he : st.phase.early → st.debouncer.pendingUpdates = [])
    (hin : ∀ w ∈ st.phase.initial, .networkMap w ∈ st.sent)
    (ha : ∀ k v, s.updates k = .done v → ∀ w ∈ st.phase.awaiting, v ≤ w)
    (hmd : st.phase.connected → (s.channels i).made) (hsn : (s.streams i).sent ⊆ st.sent)
    (hwt : (st.debouncer.pendingUpdates ++ queue).Sublist (s.waiting i))
    (hkp : ((s.waiting i).filterMap Message.version).Pairwise (· ≤ ·) →
      ∀ v, .networkMap v ∈ s.waiting i →
        ∃ w, .networkMap w ∈ st.sent ++ (st.debouncer.pendingUpdates ++ queue) ∧ v ≤ w) :
    ((s.setChannel i { s.channels i with queue }).setStream i st).Delivering := by
  set s' := (s.setChannel i { s.channels i with queue }).setStream i st with hs'
  have hs : s'.streams i = st := by simp [hs']
  have ho {j : Nat} (hj : j ≠ i) : s'.streams j = s.streams j := by
    simp [hs', hj]
  have hch (j : Nat) : (s'.channels j).made = (s.channels j).made ∧
      (s'.channels j).closed = (s.channels j).closed := by
    by_cases hj : j = i
    · subst hj
      simp [hs']
    · simp [hs', hj]
  have hself_waiting : s'.waiting i = st.debouncer.pendingUpdates ++ queue := by
    simp [hs', waiting]
  have hother_waiting {j : Nat} (hj : j ≠ i) : s'.waiting j = s.waiting j := by
    simp [hs', waiting, hj]
  refine ⟨h.committed, h.loaded, fun j hj => ?_, fun j hj => ?_, fun j w hw => ?_,
    fun k u hk j w hw => ?_, fun k v hk j hj => ?_, fun j hj => ?_, fun j hm hc => ?_,
    fun j hj => ?_⟩
  · by_cases hji : j = i
    · exact hji ▸ hi
    · exact h.started_of_phase j (ho hji ▸ hj)
  · by_cases hji : j = i
    · subst hji
      rw [hs] at hj ⊢
      exact he hj
    · rw [ho hji] at hj ⊢
      exact h.none_pending j hj
  · by_cases hji : j = i
    · subst hji
      rw [hs] at hw ⊢
      exact hin w hw
    · rw [ho hji] at hw ⊢
      exact h.initial_sent j w hw
  · by_cases hji : j = i
    · subst hji
      exact ha k u hk w (hs ▸ hw)
    · exact h.through_awaiting k u hk j w (ho hji ▸ hw)
  · obtain ⟨w, hw, hvw⟩ := h.through_channel k v hk j hj
    by_cases hji : j = i
    · subst hji
      rw [hs, hself_waiting]
      rcases mem_append.1 hw with hw | hw
      · exact ⟨w, mem_append_left _ (hsn hw), hvw⟩
      · obtain ⟨u, hu, hwu⟩ := hkp (h.ordered j hj) w hw
        exact ⟨u, hu, Nat.le_trans hvw hwu⟩
    · rw [ho hji, hother_waiting hji]
      exact ⟨w, hw, hvw⟩
  · by_cases hji : j = i
    · subst hji
      rw [hself_waiting]
      exact (h.ordered j hj).sublist (hwt.filterMap _)
    · rw [hother_waiting hji]
      exact h.ordered j hj
  · exact h.registered j ((hch j).1 ▸ hm) ((hch j).2 ▸ hc)
  · rw [(hch j).1]
    by_cases hji : j = i
    · subst hji
      exact hmd (hs ▸ hj)
    · exact h.made_of_phase j (ho hji ▸ hj)

theorem Delivering.setStream {t : Stream} (hi : i < s.started)
    (hd : t.debouncer = (s.streams i).debouncer) (hs : (s.streams i).sent ⊆ t.sent)
    (her : t.phase.early → (s.streams i).phase.early)
    (hin : ∀ w ∈ t.phase.initial, .networkMap w ∈ t.sent)
    (ha : ∀ k v, s.updates k = .done v → ∀ w ∈ t.phase.awaiting, v ≤ w)
    (hm : t.phase.connected → (s.channels i).made) : (s.setStream i t).Delivering := by
  have hn := h.relay hi (fun he => hd ▸ h.none_pending i (her he)) hin ha hm hs (by rw [hd]; rfl)
    fun _ v hv => ⟨v, mem_append_right _ (by rw [hd]; exact hv), Nat.le_refl v⟩
  exact hn.congr ⟨rfl, rfl, rfl, rfl, (update_eq_self i s.channels).symm, rfl⟩

theorem Delivering.advance {p q : Phase} {s' : State}
    (hq : (s.streams i).phase = q) (hs' : s'.Agree (s.setPhase i p)) (hqp : q.Advances p) :
    s'.Delivering := by
  subst hq
  obtain ⟨hid, he, hi, ha, hm⟩ := hqp
  have hn : (s.setPhase i p).Delivering :=
    h.setStream (h.started_of_phase i hid) rfl (refl _) he
      (fun w hw => h.initial_sent i w (hi w hw))
      (fun k v hk w hw => h.through_awaiting k v hk i w (ha w hw))
      fun hp => h.made_of_phase i (hm hp)
  exact hn.congr hs'

theorem Delivering.setUpdate {u : Update} (hk : k ≤ s.version)
    (hl : ∀ v ∈ u.version, k ≤ v ∧ v ≤ s.version)
    (ha : ∀ v, u = .done v → ∀ i, ∀ w ∈ (s.streams i).phase.awaiting, v ≤ w)
    (hc : ∀ v, u = .done v → ∀ i ∈ s.peerChannel,
      ∃ w, .networkMap w ∈ (s.streams i).sent ++ s.waiting i ∧ v ≤ w) :
    (s.setUpdate k u).Delivering := by
  refine ⟨fun j hj => ?_, fun j => ?_, h.started_of_phase, h.none_pending, h.initial_sent,
    fun j v hj => ?_, fun j v hj => ?_, h.ordered, h.registered, h.made_of_phase⟩
  · by_cases hjk : j = k
    · exact hjk ▸ hk
    · exact h.committed j (by simpa [hjk] using hj)
  · by_cases hjk : j = k
    · subst hjk
      simpa using hl
    · simpa [hjk] using h.loaded j
  · by_cases hjk : j = k
    · subst hjk
      exact ha v (by simpa using hj)
    · exact h.through_awaiting j v (by simpa [hjk] using hj)
  · by_cases hjk : j = k
    · subst hjk
      exact hc v (by simpa using hj)
    · exact h.through_channel j v (by simpa [hjk] using hj)

theorem Delivering.closePeerChannel : s.closePeerChannel.Delivering := by
  unfold State.closePeerChannel
  split
  · exact h
  · rename_i c hc
    refine ⟨h.committed, h.loaded, h.started_of_phase, h.none_pending, h.initial_sent,
      h.through_awaiting, fun k v _ i hi => (nomatch hi), fun i hi => (nomatch hi),
      fun i hm hcl => ?_, fun i hi => ?_⟩
    · by_cases hic : i = c
      · subst hic
        simp at hcl
      · have hr := h.registered i (by simpa [hic] using hm) (by simpa [hic] using hcl)
        rw [hc] at hr
        exact absurd (some.inj hr).symm hic
    · have hm := h.made_of_phase i hi
      by_cases hic : i = c
      · subst hic
        simpa using hm
      · simpa [hic] using hm

theorem Delivering.sendToChannel {m : Message}
    (hf : ∀ i ∈ s.peerChannel, (s.channels i).queue.length < channelBufferSize)
    (ho : ∀ i ∈ s.peerChannel, ∀ v ∈ m.version,
      ∀ w ∈ (s.waiting i).filterMap Message.version, w ≤ v) :
    (s.sendToChannel m).Delivering ∧
      ∀ i ∈ (s.sendToChannel m).peerChannel, m ∈ (s.sendToChannel m).waiting i := by
  unfold State.sendToChannel
  split
  · rename_i hn
    exact ⟨h, fun i hi => by simp [hn] at hi⟩
  · rename_i c hc
    rw [if_pos (hf c hc)]
    set s' := s.setChannel c { s.channels c with queue := (s.channels c).queue ++ [m] } with hs'
    have hwt : s'.waiting c = s.waiting c ++ [m] := by
      simp [hs', waiting]
    have hp {i : Nat} (hi : i ∈ s'.peerChannel) : i = c :=
      some.inj (hi.symm.trans hc)
    refine ⟨⟨h.committed, h.loaded, h.started_of_phase, h.none_pending, h.initial_sent,
      h.through_awaiting, fun k v hk i hi => ?_, fun i hi => ?_, fun i hmd hcl => ?_,
      fun i hi => ?_⟩, fun i hi => ?_⟩
    · obtain rfl := hp hi
      obtain ⟨w, hw, hvw⟩ := h.through_channel k v hk i hi
      refine ⟨w, ?_, hvw⟩
      rw [hwt, ← append_assoc]
      exact mem_append_left _ hw
    · obtain rfl := hp hi
      rw [hwt, filterMap_append, pairwise_append]
      refine ⟨h.ordered i hi, ?_, fun w hw v hv => ?_⟩
      · cases hm : m.version <;> simp [hm]
      · refine ho i hc v ?_ w hw
        simpa using hv
    · by_cases hic : i = c
      · exact hic ▸ hc
      · exact h.registered i (by simpa [hs', hic] using hmd) (by simpa [hs', hic] using hcl)
    · have hmd := h.made_of_phase i hi
      by_cases hic : i = c
      · subst hic
        simpa [hs'] using hmd
      · simpa [hs', hic] using hmd
    · obtain rfl := hp hi
      rw [hwt]
      exact mem_append_right _ mem_cons_self

/-- The initial map has the changes of all updates that are through. -/
theorem Delivering.register (hn : s.peerChannel = none)
    (hphase : (s.streams i).phase = .announced v) :
    State.Delivering { s.setChannel i { made := true } with peerChannel := some i } := by
  refine { h with
    through_channel := fun k u hk j hj => ?_
    ordered := fun j hj => ?_
    registered := fun j hm hc => ?_
    made_of_phase := fun j hj => ?_ }
  · obtain rfl : i = j := some.inj hj
    exact ⟨v, mem_append_left _ (h.initial_sent i v (by simp [hphase])),
      h.through_awaiting k u hk i v (by simp [hphase])⟩
  · obtain rfl : i = j := some.inj hj
    have hp := h.none_pending i (by simp [hphase])
    simp [waiting, hp]
  · by_cases hji : j = i
    · rw [hji]
    · have hr := h.registered j (by simpa [hji] using hm) (by simpa [hji] using hc)
      rw [hn] at hr
      cases hr
  · by_cases hji : j = i
    · simp [hji]
    · simpa [hji] using h.made_of_phase j hj

theorem Delivering.createChannel (hphase : (s.streams i).phase = .announced v) :
    State.Delivering { (s.closePeerChannel.setPhase i .created).setChannel i { made := true } with
      peerChannel := some i } := by
  have hp' : (s.closePeerChannel.streams i).phase = .announced v := by
    rw [s.closePeerChannel_frame.1, hphase]
  have hr := h.closePeerChannel.register s.peerChannel_closePeerChannel hp'
  exact hr.setStream (t := { s.closePeerChannel.streams i with phase := .created })
    (hr.started_of_phase i (by simp [hp'])) rfl (refl _) (by simp) (by simp)
    (by simp) (by simp)

variable (hphase : (s.streams i).phase = .handling)

include hphase

theorem Delivering.handle {debouncer : UpdateDebouncer} {sent : List Message}
    (hs : (s.streams i).sent ⊆ sent)
    (hw : (debouncer.pendingUpdates ++ queue).Sublist (s.waiting i))
    (hk : ((s.waiting i).filterMap Message.version).Pairwise (· ≤ ·) →
      ∀ v, .networkMap v ∈ s.waiting i →
        ∃ w, .networkMap w ∈ sent ++ (debouncer.pendingUpdates ++ queue) ∧ v ≤ w) :
    ((s.setChannel i { s.channels i with queue }).setStream i
      { s.streams i with debouncer, sent }).Delivering :=
  h.relay (h.started_of_phase i (by simp [hphase])) (by simp [hphase]) (by simp [hphase])
    (by simp [hphase]) (fun _ => h.made_of_phase i (by simp [hphase])) hs hw hk

theorem Delivering.receiveUpdate {m : Message} (hq : (s.channels i).queue = m :: queue) :
    ((s.setChannel i { s.channels i with queue }).setStream i { s.streams i with
      debouncer := ((s.streams i).debouncer.processUpdate m).1
      sent := if ((s.streams i).debouncer.processUpdate m).2 then (s.streams i).sent ++ [m]
        else (s.streams i).sent }).Delivering := by
  have hw : s.waiting i = (s.streams i).debouncer.pendingUpdates ++ m :: queue := by
    rw [waiting, hq]
  rcases processUpdate_cases (s.streams i).debouncer m with ⟨hn, hp⟩ |
    ⟨hn, hp | ⟨l, u, v, hl, rfl, hp⟩⟩
  · -- sent at once
    refine h.handle hphase ?_ ?_ fun _ v hv => ⟨v, ?_, Nat.le_refl v⟩
    · rw [if_pos hn]
      exact subset_append_left _ _
    · rw [hp, hw]
      exact (List.Sublist.refl _).append (sublist_cons_self m queue)
    · rw [hp, if_pos hn]
      rw [hw] at hv
      simp only [mem_append, mem_cons, not_mem_nil, or_false] at hv ⊢
      tauto
  · -- held back behind the others
    have hs : ((s.streams i).debouncer.processUpdate m).1.pendingUpdates ++ queue =
        s.waiting i := by
      rw [hp, hw, append_assoc, singleton_append]
    refine h.handle hphase ?_ ?_ fun _ v hv => ⟨v, ?_, Nat.le_refl v⟩
    · rw [hn]
      exact refl _
    · rw [hs]
    · rw [hs]
      exact mem_append_right _ hv
  · -- held back in the place of the last one, which is not newer
    have hol : s.waiting i = l ++ .networkMap u :: .networkMap v :: queue := by
      rw [hw, hl, append_assoc, singleton_append]
    have hnw : ((s.streams i).debouncer.processUpdate (.networkMap v)).1.pendingUpdates ++ queue =
        l ++ .networkMap v :: queue := by
      rw [hp, append_assoc, singleton_append]
    refine h.handle hphase ?_ ?_ fun ho x hx => ?_
    · rw [hn]
      exact refl _
    · rw [hnw, hol]
      exact (List.Sublist.refl l).append (sublist_cons_self _ _)
    · rw [hnw]
      rw [hol] at ho hx
      have huv : u ≤ v := by
        rw [filterMap_append, pairwise_append] at ho
        exact rel_of_pairwise_cons ho.2.1 mem_cons_self
      rcases mem_append.1 hx with hx | hx
      · exact ⟨x, by simp [hx], Nat.le_refl x⟩
      · rcases mem_cons.1 hx with hx | hx
        · obtain rfl : x = u := by simpa using hx
          exact ⟨v, by simp, huv⟩
        · exact ⟨x, mem_append_right _ (mem_append_right _ hx), Nat.le_refl x⟩

theorem Delivering.timerExpired : (s.setStream i { s.streams i with
      debouncer := (s.streams i).debouncer.getPendingUpdates.1
      sent := (s.streams i).sent ++ (s.streams i).debouncer.getPendingUpdates.2 }).Delivering := by
  have hp : (s.streams i).debouncer.getPendingUpdates.1.pendingUpdates = [] := by
    unfold getPendingUpdates
    split <;> rfl
  have hu : (s.streams i).debouncer.getPendingUpdates.2 =
      (s.streams i).debouncer.pendingUpdates := by
    unfold getPendingUpdates
    split
    · rename_i he
      exact (isEmpty_iff.1 he).symm
    · rfl
  have hr : ((s.setChannel i { s.channels i with queue := (s.channels i).queue }).setStream i
      { s.streams i with
        debouncer := (s.streams i).debouncer.getPendingUpdates.1
        sent := (s.streams i).sent ++
          (s.streams i).debouncer.getPendingUpdates.2 }).Delivering := by
    refine h.handle hphase (subset_append_left _ _) ?_ fun _ v hv => ⟨v, ?_, Nat.le_refl v⟩
    · rw [hp]
      exact sublist_append_right _ _
    · rw [hp, hu, nil_append, append_assoc]
      exact mem_append_right _ hv
  refine hr.congr ⟨rfl, rfl, rfl, rfl, ?_, rfl⟩
  exact (update_eq_self i s.channels).symm

omit hphase

theorem Delivering.start :
    State.Delivering { s.setPhase s.started .waiting with started := s.started + 1 } := by
  have hid : (s.streams s.started).phase = .idle := by
    by_contra hne
    exact absurd (h.started_of_phase s.started hne) (Nat.lt_irrefl _)
  have hc : State.Delivering { s with started := s.started + 1 } :=
    { h with started_of_phase := fun i hi => Nat.lt_succ_of_lt (h.started_of_phase i hi) }
  have hn : (State.setStream { s with started := s.started + 1 } s.started
      { s.streams s.started with phase := .waiting }).Delivering :=
    hc.setStream (Nat.lt_succ_self _) rfl (refl _) (by simp [hid]) (by simp) (by simp) (by simp)
  exact hn.congr {}

theorem Delivering.proceed {u : Update} (hv : v ∈ (s.updates k).version)
    (hu : u.version = some v) (hd : ∀ w, u ≠ .done w) : (s.setUpdate k u).Delivering := by
  obtain ⟨hk, hle⟩ := h.loaded k v hv
  refine h.setUpdate (Nat.le_trans hk hle) (fun w hw => ?_) (fun w hw => absurd hw (hd w))
    fun w hw => absurd hw (hd w)
  obtain rfl : v = w := some.inj (hu.symm.trans hw)
  exact ⟨hk, hle⟩

theorem Delivering.through (hv : v ∈ (s.updates k).version)
    (ha : ∀ i < s.started, ∀ w ∈ (s.streams i).phase.awaiting, v ≤ w)
    (hc : ∀ i ∈ s.peerChannel, .networkMap v ∈ s.waiting i) :
    (s.setUpdate k (.done v)).Delivering := by
  obtain ⟨hk, hle⟩ := h.loaded k v hv
  refine h.setUpdate (Nat.le_trans hk hle) (fun w hw => ?_) (fun u hu i w hw => ?_)
    fun u hu i hi => ?_
  · obtain rfl : v = w := some.inj hw
    exact ⟨hk, hle⟩
  · obtain rfl : v = u := Update.done.inj hu
    refine ha i (h.started_of_phase i fun hid => ?_) w hw
    rw [hid] at hw
    cases hw
  · obtain rfl : v = u := Update.done.inj hu
    exact ⟨v, mem_append_right _ (hc i hi), Nat.le_refl v⟩

theorem Delivering.step {cfg : Config} {a : Action} {s' : State}
    (hf : s.NotFull a) (ht : s.Timely a) (ho : s.InOrder a)
    (hsp : Sync.step cfg s a = some s') : s'.Delivering := by
  cases a <;> simp only [Sync.step, ite_none_right_eq_some, some.injEq] at hsp <;>
    first | subst hsp | obtain ⟨hp, rfl⟩ := hsp | skip
  case start => exact h.start
  case acquirePeerLock | acquireCleanupLock | channelClosed =>
    exact h.advance hp.1 {} (by simp [Phase.Advances])
  case setupRefresh | releasePeerLock | contextDone | sendFailed | markPeerDisconnected
    | onPeerDisconnected | cancelRefresh | releaseCleanupLock =>
    exact h.advance hp {} (by simp [Phase.Advances])
  case markPeerConnected =>
    split at hsp <;> cases hsp
    exact h.advance (by assumption) {} (by simp [Phase.Advances])
  case syncPeer i succeeds =>
    obtain ⟨hp, hsp⟩ := hsp
    cases succeeds with
    | false =>
      cases hsp
      exact h.advance hp {} (by simp [Phase.Advances])
    | true =>
      cases hsp
      -- the store is not older than what any update has loaded
      refine h.setStream (h.started_of_phase i (by simp [hp])) rfl (refl _)
        (by simp [hp]) (by simp) (fun k v hk w hw => ?_) (by simp)
      obtain rfl : s.version = w := some.inj hw
      exact (h.loaded k v (by rw [hk]; rfl)).2
  case sendInitialSync i succeeds =>
    cases succeeds <;> split at hsp <;> cases hsp <;> rename_i v hp
    · exact h.advance hp {} (by simp [Phase.Advances])
    · refine h.setStream (h.started_of_phase i (by simp [hp])) rfl (subset_append_left _ _)
        (by simp [hp]) (fun w hw => ?_) (fun k u hk w hw => ?_) (by simp)
      · obtain rfl : v = w := some.inj hw
        exact mem_append_right _ mem_cons_self
      · exact h.through_awaiting k u hk i w (by rw [hp]; exact hw)
  case onPeerConnected i succeeds =>
    cases succeeds <;> split at hsp <;> cases hsp <;>
      exact h.advance (by assumption) {} (by simp [Phase.Advances])
  case createChannel =>
    split at hsp <;> cases hsp
    exact h.createChannel (by assumption)
  case receiveUpdate =>
    split at hsp <;> cases hsp
    exact h.receiveUpdate (by assumption) (by assumption)
  case timerExpired => exact h.timerExpired hp.1
  case closeChannel =>
    refine h.closePeerChannel.advance (q := .cleaning .channel) ?_ {} (by simp [Phase.Advances])
    rw [s.closePeerChannel_frame.1]
    exact hp
  case commit =>
    have hn : State.Delivering { s with version := s.version + 1 } :=
      { h with
        committed := fun k hk => Nat.le_succ_of_le (h.committed k hk)
        loaded := fun k v hv => ⟨(h.loaded k v hv).1, Nat.le_succ_of_le (h.loaded k v hv).2⟩ }
    have hnx : (State.setUpdate { s with version := s.version + 1 } (s.version + 1)
        .committed).Delivering :=
      hn.setUpdate (Nat.le_refl _) (by simp [Update.version]) (by simp) (by simp)
    exact hnx.congr {}
  case loadAccount k =>
    have hle := h.committed k (by simp [hp])
    refine h.setUpdate hle (fun v hv => ?_) (by simp) (by simp)
    obtain rfl : s.version = v := some.inj hv
    exact ⟨hle, Nat.le_refl _⟩
  case hasPeersConnected k _ | hasChannel k =>
    split at hsp <;> cases hsp
    rename_i v hk
    have hv : v ∈ (s.updates k).version := by rw [hk]; rfl
    split
    · exact h.proceed hv rfl (by simp)
    · rename_i hsk
      have hnn : s.peerChannel = none := by simp_all
      exact h.through hv (ht v (by simp [passing, hk, hsk])) (by simp [hnn])
  case sendUpdate k =>
    split at hsp <;> cases hsp
    rename_i v hk
    have hps : v ∈ s.passing (.sendUpdate k) := by simp [passing, hk]
    obtain ⟨hsn, hm⟩ := h.sendToChannel (m := .networkMap v) hf fun i hi w hw =>
      some.inj hw ▸ ho v hps i hi
    obtain ⟨hu, hs, hst, -⟩ := s.sendToChannel_frame (.networkMap v)
    refine hsn.through (by rw [hu, hk]; rfl) ?_ hm
    rw [hs, hst]
    exact ht v hps
  case pushControlConfig => exact (h.sendToChannel hf (by simp [Message.version])).1
  case closeChannels => exact h.closePeerChannel

end State

/-! ### Every run -/

/-- In every run in which updates are timely and in order and the channel is never full, a stream
that is open and drained has sent a map with every change whose update is through. -/
theorem change_delivered (cfg : Config) (s : State)
    (h : Reaches (step cfg) (fun s a => s.NotFull a ∧ s.Timely a ∧ s.InOrder a) {} s) (k v : Nat)
    (hk : s.updates k = .done v) (i : Nat) (hopen : s.IsOpen i) (hdrained : s.Drained i) :
    ∃ w, .networkMap w ∈ (s.streams i).sent ∧ k ≤ w := by
  have hi : State.Delivering {} := by
    constructor <;> simp [State.waiting, Update.version]
  have hin : s.Delivering := h.invariant hi fun s a s' hs hok hst =>
    hs.step hok.1 hok.2.1 hok.2.2 hst
  have hm := hin.made_of_phase i (by rw [hopen.1]; rfl)
  obtain ⟨w, hw, hvw⟩ := hin.through_channel k v hk i (hin.registered i hm hopen.2)
  rw [hdrained, append_nil] at hw
  exact ⟨w, hw, Nat.le_trans (hin.loaded k v (by rw [hk]; rfl)).1 hvw⟩

/-- A change, the update for it, and the peer without a channel in between: the initial map is older
and nothing comes after it. And a map that takes the place of a newer one in the debouncer. -/
theorem late_update_lost :
    (∃ s, Reaches (step {}) State.NotFull {} s ∧ s.updates 1 = .done 1 ∧ s.IsOpen 0 ∧ s.Drained 0 ∧
      ∀ i < s.started, ∀ m ∈ (s.streams i).sent, m = .networkMap 0) ∧
    ∃ s, Reaches (step {}) State.NotFull {} s ∧ s.updates 2 = .done 2 ∧ s.IsOpen 0 ∧ s.Drained 0 ∧
      ∀ i < s.started, .networkMap 2 ∉ (s.streams i).sent := by
  constructor
  · refine exists_reaches ([.start] ++ (connecting 0).take 2 ++
      [.commit, .loadAccount 1, .hasPeersConnected 1 false] ++ (connecting 0).drop 2) ?_
    decide +kernel
  · refine exists_reaches ([.start] ++ connecting 0 ++
      [.commit, .loadAccount 1, .commit, .loadAccount 2, .hasPeersConnected 1 false,
        .hasPeersConnected 2 false, .hasChannel 1, .hasChannel 2, .pushControlConfig 7,
        .receiveUpdate 0, .sendUpdate 2, .receiveUpdate 0, .sendUpdate 1, .receiveUpdate 0,
        .timerExpired 0]) ?_
    decide +kernel

/-- An update after the channel has been created. -/
theorem change_delivered_connected : ∃ s : State, s.updates 1 = .done 1 ∧ s.IsOpen 0 ∧ s.Drained 0 ∧
      ∃ w, .networkMap w ∈ (s.streams 0).sent ∧ 1 ≤ w := by
  obtain ⟨s, hs, hk, ho, hd⟩ : ∃ s, Reaches (step {})
      (fun s a => s.NotFull a ∧ s.Timely a ∧ s.InOrder a) {} s ∧
        s.updates 1 = .done 1 ∧ s.IsOpen 0 ∧ s.Drained 0 := by
    refine exists_reaches ([.start] ++ connecting 0 ++
      [.commit, .loadAccount 1, .hasPeersConnected 1 false, .hasChannel 1, .sendUpdate 1,
        .receiveUpdate 0]) ?_
    decide +kernel
  exact ⟨s, hk, ho, hd, change_delivered {} s hs 1 1 hk 0 ho hd⟩

end Cloink.Sync
