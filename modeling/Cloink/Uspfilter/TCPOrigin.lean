import Cloink.Lib.History
import Cloink.Uspfilter.TCPTracker

/-!
# Origins of TCP connections

An incoming packet that the tracker finds valid belongs to a connection that an earlier tracked
packet of the other direction has opened with a legal SYN, and which has been alive ever since. The
tracker does not ask which way that packet went: an incoming packet that claims to come from this
side opens the connection just as an outgoing one does.
-/

namespace Cloink.Conntrack

open AList List TCPConnTrack

namespace TCPConnTrack

variable (conn : TCPConnTrack) (flags : Flags) (packetDir : Direction) (now : Int)

/-- A packet changes neither the flow nor the translated port, and a dead connection stays so. -/
theorem updateState_keeps :
    let conn' := conn.updateState flags packetDir now
    conn'.flowId = conn.flowId ∧ conn'.dnatOrigPort = conn.dnatOrigPort ∧
      (conn'.tombstone = false → conn.tombstone = false) := by
  unfold updateState handleRst
  dsimp only
  repeat' split
  all_goals simp +contextual

theorem flowId_updateState : (conn.updateState flags packetDir now).flowId = conn.flowId :=
  (conn.updateState_keeps flags packetDir now).1

variable {conn flags}

theorem tombstone_of_not_superseded (h : ¬ conn.isSupersededBy flags) : conn.tombstone = false := by
  cases ht : conn.tombstone with
  | false => rfl
  | true => simp [isSupersededBy, ht] at h

end TCPConnTrack

namespace TCPTracker

/-- The table holds a connection of the flow that is not dead. -/
def Alive (t : TCPTracker) (f : ConnKey × Nat) : Prop :=
  ∃ conn, t.connections.lookup f.1 = some conn ∧ conn.flowId = f.2 ∧ conn.tombstone = false

/-- The packet is tracked, in one direction or the other. -/
def Event.Tracks (e : Event) (q : Packet) : Prop :=
  (∃ now order, e = .trackOutbound q now order) ∨
    ∃ dnatOrigPort now order, e = .trackInbound q dnatOrigPort now order

/-- A packet with a legal SYN opens the flow: its key has no connection that goes on. -/
structure Opens (t : TCPTracker) (q : Packet) (f : ConnKey × Nat) : Prop where
  key : q.key = f.1
  syn : isSet q.flags TCPSyn = true
  legal : isValidFlagCombination q.flags = true
  superseded : ∀ conn, t.connections.lookup f.1 = some conn → conn.isSupersededBy q.flags = true
  flow : f.2 = t.flows

variable {cfg : TCPConfig} {t : TCPTracker}

/-! ### Single operations -/

variable {f : ConnKey × Nat} {key : ConnKey} {direction : Direction} {now : Int}

theorem alive_of_update {conn : TCPConnTrack} (hl : t.connections.lookup key = some conn)
    (flags : Flags) (direction : Direction) (now : Int) (h : Alive
      { t with connections := t.connections.insert key (conn.updateState flags direction now) } f) :
    t.Alive f := by
  obtain ⟨conn', hl', hf, ha⟩ := h
  rcases lookup_insert_some.1 hl' with ⟨hk, rfl⟩ | ⟨-, ho⟩
  · rw [flowId_updateState] at hf
    exact ⟨conn, hk ▸ hl, hf, (updateState_keeps _ _ _ _).2.2 ha⟩
  · exact ⟨conn', ho, hf, ha⟩

theorem updateIfExists_eq_some {flags : Flags} {r : UInt16 × TCPTracker}
    (h : t.updateIfExists key flags direction now = some r) :
    ∃ conn, t.connections.lookup key = some conn ∧ ¬ conn.isSupersededBy flags ∧
      r = (conn.dnatOrigPort, { t with
        connections := t.connections.insert key (conn.updateState flags direction now) }) := by
  unfold updateIfExists at h
  split at h
  · cases h
  · rename_i conn hl
    obtain ⟨hs, hr⟩ := Option.ite_none_left_eq_some.1 h
    exact ⟨conn, hl, hs, (Option.some.inj hr).symm⟩

theorem alive_of_updateIfExists {flags : Flags} {r : UInt16 × TCPTracker}
    (hu : t.updateIfExists key flags direction now = some r) (h : r.2.Alive f) : t.Alive f := by
  obtain ⟨conn, hl, -, rfl⟩ := updateIfExists_eq_some hu
  exact alive_of_update hl flags direction now h

theorem superseded_of_updateIfExists {flags : Flags}
    (hu : t.updateIfExists key flags direction now = none) (conn : TCPConnTrack)
    (hl : t.connections.lookup key = some conn) : conn.isSupersededBy flags := by
  simpa [updateIfExists, hl] using hu

theorem lookup_of_lookup_evictFrom {conns : Connections} (order : List ConnKey)
    (cand : Option (ConnKey × Int)) (smp : Nat) {conn : TCPConnTrack}
    (h : (evictFrom conns order cand smp).lookup key = some conn) :
    conns.lookup key = some conn := by
  induction order generalizing cand smp with
  | nil =>
    cases cand with
    | none => exact h
    | some c => exact (lookup_erase_some.1 h).2
  | cons k order ih =>
    rw [evictFrom] at h
    split at h
    · exact ih _ _ h
    · split at h
      · exact (lookup_erase_some.1 h).2
      · dsimp only at h
        split at h
        · exact (lookup_erase_some.1 h).2
        · exact ih _ _ h

theorem alive_track {q : Packet} {op : UInt16} {order : List ConnKey}
    (h : (t.track cfg q direction op now order).Alive f) : Opens t q f ∨ t.Alive f := by
  unfold track at h
  cases hu : t.updateIfExists q.key q.flags direction now with
  | some r =>
    rw [hu] at h
    exact .inr (alive_of_updateIfExists hu h)
  | none =>
    rw [hu] at h
    dsimp only at h
    split at h
    · exact .inr h
    · rename_i hlg
      obtain ⟨hs, hlg⟩ : isSet q.flags TCPSyn ∧ isValidFlagCombination q.flags := by
        simpa using hlg
      obtain ⟨conn, hl, hf, ha⟩ := h
      rcases lookup_insert_some.1 hl with ⟨hk, rfl⟩ | ⟨-, ho⟩
      · rw [flowId_updateState] at hf
        exact .inl ⟨hk.symm, hs, hlg, hk ▸ superseded_of_updateIfExists hu, hf.symm⟩
      · refine .inr ⟨conn, ?_, hf, ha⟩
        split at ho
        · exact lookup_of_lookup_evictFrom order none 0 ho
        · exact ho

/-! ### Runs -/

theorem alive_step {e : Event} (h : (step cfg t e).Alive f) :
    (∃ q, e.Tracks q ∧ Opens t q f) ∨ t.Alive f := by
  cases e with
  | trackOutbound q now order =>
    simp only [step, trackOutbound] at h
    cases hu : t.updateIfExists q.key.reverse q.flags .egress now with
    | some r =>
      rw [hu] at h
      exact .inr (alive_of_updateIfExists hu h)
    | none =>
      rw [hu] at h
      exact (alive_track h).imp_left fun ho => ⟨q, .inl ⟨now, order, rfl⟩, ho⟩
  | trackInbound q dnatOrigPort now order =>
    exact (alive_track h).imp_left fun ho => ⟨q, .inr ⟨dnatOrigPort, now, order, rfl⟩, ho⟩
  | isValidInbound p now =>
    simp only [step, isValidInbound] at h
    cases hl : t.connections.lookup p.key.reverse with
    | none =>
      rw [hl] at h
      exact .inr h
    | some conn =>
      simp only [hl] at h
      split at h
      · exact .inr h
      · exact .inr (alive_of_update hl _ _ _ h)
  | cleanup now =>
    obtain ⟨conn, hl, hf, ha⟩ := h
    exact .inr ⟨conn, (lookup_select_some.1 hl).1, hf, ha⟩

theorem alive_of_isValidInbound {p : Packet} (h : (t.isValidInbound p now).1) :
    ∃ flow, t.Alive (p.key.reverse, flow) := by
  unfold isValidInbound at h
  cases hl : t.connections.lookup p.key.reverse with
  | none => simp [hl] at h
  | some conn =>
    simp only [hl] at h
    split at h
    · cases h
    · rename_i hv
      simp only [Bool.or_eq_true, not_or] at hv
      exact ⟨conn.flowId, conn, hl, rfl, tombstone_of_not_superseded hv.1.1⟩

/-- A valid incoming packet belongs to a connection that an earlier packet of the other direction,
tracked as outgoing or as incoming, has opened with a SYN and legal flags when its key had no
connection or one that it superseded; after every call since then the table has held that very
connection, neither reset nor closed. -/
theorem isValidInbound_origin (cfg : TCPConfig) (l : List Event) (p : Packet) (now : Int)
    (h : ((run cfg l).isValidInbound p now).1 = true) :
    ∃ pre e post q, l = pre ++ e :: post ∧ e.Tracks q ∧
      Opens (run cfg pre) q (p.key.reverse, (run cfg pre).flows) ∧
      ∀ mid rest, post = mid ++ rest →
        (run cfg (pre ++ e :: mid)).Alive (p.key.reverse, (run cfg pre).flows) := by
  obtain ⟨flow, ha⟩ := alive_of_isValidInbound h
  obtain ⟨pre, e, post, rfl, ⟨q, ht, ho⟩, hs⟩ :=
    exists_origin Alive (fun t e f => ∃ q, e.Tracks q ∧ Opens t q f) (fun _ _ _ => True)
      (fun f ⟨conn, hl, _⟩ => by simp at hl)
      (fun t e f hf => (alive_step hf).imp_right fun hf => ⟨hf, trivial⟩) ha
  obtain rfl : flow = (run cfg pre).flows := ho.flow
  refine ⟨pre, e, post, q, rfl, ht, ho, fun mid rest hp => ?_⟩
  cases rest with
  | nil =>
    rw [append_nil] at hp
    exact hp ▸ ha
  | cons e' rest => exact (hs mid e' rest hp).1

/-- The default settings of a desktop client. -/
def defaultTCPConfig : TCPConfig where
  timeout := 10800000000000
  waitTimeout := 240000000000
  finWaitTimeout := 60000000000
  closeWaitTimeout := 60000000000
  lastAckTimeout := 30000000000
  maxEntries := 65536

/-- A packet from this host to a server. -/
def hostPacket (flags : Flags) : Packet :=
  ⟨.from4 100 64 0 1, .from4 100 64 0 2, 40000, 443, flags⟩

/-- A packet from the server to this host. -/
def serverPacket (flags : Flags) : Packet :=
  ⟨.from4 100 64 0 2, .from4 100 64 0 1, 443, 40000, flags⟩

/-- Two incoming packets and no outgoing one: a SYN in the name of this host opens the connection,
and the next packet of the server is valid. -/
theorem inbound_syn_opens :
    let l := [Event.trackInbound (hostPacket TCPSyn) 0 0 []]
    ((run defaultTCPConfig l).isValidInbound (serverPacket TCPAck) 1).1 = true ∧
      ∀ q now order, Event.trackOutbound q now order ∉ l := by
  refine ⟨by decide +kernel, fun q now order h => ?_⟩
  cases mem_singleton.1 h

/-- The answer of the server to a connection of this host is valid. -/
theorem isValidInbound_origin_outbound :
    let l := [Event.trackOutbound (hostPacket TCPSyn) 0 []]
    ((run defaultTCPConfig l).isValidInbound (serverPacket (TCPSyn ||| TCPAck)) 1).1 = true ∧
      ∃ pre e post q, l = pre ++ e :: post ∧ e.Tracks q ∧ Opens (run defaultTCPConfig pre) q
          ((serverPacket (TCPSyn ||| TCPAck)).key.reverse, (run defaultTCPConfig pre).flows) ∧
        ∀ mid rest, post = mid ++ rest → (run defaultTCPConfig (pre ++ e :: mid)).Alive
          ((serverPacket (TCPSyn ||| TCPAck)).key.reverse, (run defaultTCPConfig pre).flows) := by
  intro l
  have hv : ((run defaultTCPConfig l).isValidInbound (serverPacket (TCPSyn ||| TCPAck)) 1).1 =
      true := by decide +kernel
  exact ⟨hv, isValidInbound_origin defaultTCPConfig l _ 1 hv⟩

end TCPTracker

end Cloink.Conntrack
