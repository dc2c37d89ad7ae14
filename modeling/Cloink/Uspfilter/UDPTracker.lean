import Cloink.Uspfilter.TCPOrigin

/-!
# Marks of connections

The table of UDP connections (`client/firewall/uspfilter/conntrack`), and what both tables do to the
mark of a connection: its flow and the port that was translated when it was opened. Packet counters,
flow events and logging are left out.
-/

namespace Cloink.Conntrack

open AList Option TCPConnTrack

/-! ### The UDP tracker -/

structure UDPConnTrack where
  flowId : Nat
  direction : Direction
  lastSeen : Int := 0
  dnatOrigPort : UInt16 := 0
  deriving DecidableEq

def UDPConnTrack.timeoutExceeded (conn : UDPConnTrack) (timeout now : Int) : Bool :=
  now - conn.lastSeen > timeout

abbrev UDPConnections := AList fun _ : ConnKey => UDPConnTrack

structure UDPConfig where
  timeout : Int
  maxEntries : Nat

structure UDPTracker where
  connections : UDPConnections := ∅
  flows : Nat := 0

namespace UDPTracker

variable (cfg : UDPConfig) (t : UDPTracker) (key : ConnKey)

/-- Refreshes the connection of a key and returns the port to restore, if there is one. -/
def updateIfExists (now : Int) : Option (UInt16 × UDPTracker) :=
  match t.connections.lookup key with
  | none => none
  | some conn => some (conn.dnatOrigPort,
      { t with connections := t.connections.insert key { conn with lastSeen := now } })

/-- Removes the connection not seen for longest among those sampled. -/
def evictFrom (conns : UDPConnections) :
    List ConnKey → Option (ConnKey × Int) → Nat → UDPConnections
  | [], cand, _ => cand.elim conns fun c => conns.erase c.1
  | k :: order, cand, sampled =>
    match conns.lookup k with
    | none => evictFrom conns order cand sampled
    | some conn =>
      let cand := cand.elim (k, conn.lastSeen) fun c =>
        if conn.lastSeen < c.2 then (k, conn.lastSeen) else c
      if sampled + 1 ≥ evictSampleSize then conns.erase cand.1
      else evictFrom conns order (some cand) (sampled + 1)

def evictOneLocked (conns : UDPConnections) (order : List ConnKey) : UDPConnections :=
  evictFrom conns order none 0

def track (direction : Direction) (origPort : UInt16) (now : Int)
    (order : List ConnKey) : UDPTracker :=
  match t.updateIfExists key now with
  | some (_, t) => t
  | none =>
    let conn : UDPConnTrack :=
      { flowId := t.flows, direction, dnatOrigPort := origPort, lastSeen := now }
    let conns := if cfg.maxEntries > 0 ∧ cfg.maxEntries ≤ t.connections.entries.length then
      evictOneLocked t.connections order else t.connections
    { connections := conns.insert key conn, flows := t.flows + 1 }

/-- Records an outgoing packet and returns the port to restore, if any. -/
def trackOutbound (now : Int) (order : List ConnKey) : UInt16 × UDPTracker :=
  match t.updateIfExists key.reverse now with
  | some (origPort, t) => (origPort, t)
  | none => (0, t.track cfg key .egress 0 now order)

/-- Records an incoming packet that was let in. -/
def trackInbound (dnatOrigPort : UInt16) (now : Int) (order : List ConnKey) : UDPTracker :=
  t.track cfg key .ingress dnatOrigPort now order

/-- Whether an incoming packet belongs to a tracked connection. -/
def isValidInbound (now : Int) : Bool × UDPTracker :=
  match t.connections.lookup key.reverse with
  | none => (false, t)
  | some conn =>
    if conn.timeoutExceeded cfg.timeout now then (false, t)
    else (true, { t with
      connections := t.connections.insert key.reverse { conn with lastSeen := now } })

def cleanup (now : Int) : UDPTracker :=
  { t with connections := t.connections.select fun _ conn => !conn.timeoutExceeded cfg.timeout now }

end UDPTracker

/-! ### Marks -/

/-- The flow and the translated port of each connection of a table, and the number of flows that
were given out. -/
structure Marks where
  at? : ConnKey → Option (Nat × UInt16)
  flows : Nat

namespace Marks

/-- Connections may go, but none comes and none changes its mark. -/
structure Keeps (m m' : Marks) : Prop where
  flows : m'.flows = m.flows
  mark : ∀ key a, m'.at? key = some a → m.at? key = some a

/-- The same, but for one connection that is opened with the port. -/
structure Opens (m : Marks) (origPort : UInt16) (m' : Marks) : Prop where
  flows : m'.flows = m.flows + 1
  mark : ∀ key a, m'.at? key = some a → m.at? key = some a ∨ a = (m.flows, origPort)

theorem Keeps.refl (m : Marks) : m.Keeps m := ⟨rfl, fun _ _ h => h⟩

theorem Keeps.trans {m m' m'' : Marks} (h : m.Keeps m') (h' : m'.Keeps m'') : m.Keeps m'' :=
  ⟨h'.flows.trans h.flows, fun key a ha => h.mark key a (h'.mark key a ha)⟩

/-- An entry may be opened after some were dropped. -/
theorem Keeps.trans_opens {m m' m'' : Marks} {op : UInt16} (h : m.Keeps m')
    (h' : m'.Opens op m'') : m.Opens op m'' where
  flows := by rw [h'.flows, h.flows]
  mark key a ha := (h'.mark key a ha).imp (h.mark key a) fun heq => by rw [heq, h.flows]

end Marks

def TCPConnTrack.mark (conn : TCPConnTrack) : Nat × UInt16 := (conn.flowId, conn.dnatOrigPort)

def UDPConnTrack.mark (conn : UDPConnTrack) : Nat × UInt16 := (conn.flowId, conn.dnatOrigPort)

def TCPTracker.marks (t : TCPTracker) : Marks :=
  ⟨fun key => (t.connections.lookup key).map mark, t.flows⟩

def UDPTracker.marks (t : UDPTracker) : Marks :=
  ⟨fun key => (t.connections.lookup key).map UDPConnTrack.mark, t.flows⟩

/-- A change of state keeps the flow and the port. -/
theorem TCPConnTrack.mark_updateState (conn : TCPConnTrack) (flags : Flags) (dir : Direction)
    (now : Int) : (conn.updateState flags dir now).mark = conn.mark :=
  Prod.ext (conn.flowId_updateState flags dir now) (conn.updateState_keeps flags dir now).2.1

/-! ### Marks of the tables -/

section

variable {C : Type} {mark : C → Nat × UInt16} {conns conns' : AList fun _ : ConnKey => C}
  {key : ConnKey} {conn conn' : C}

theorem map_lookup_insert (hc : conns.lookup key = some conn) (hm : mark conn' = mark conn)
    (k : ConnKey) : ((conns.insert key conn').lookup k).map mark = (conns.lookup k).map mark := by
  by_cases hk : k = key
  · subst hk
    rw [lookup_insert, hc, map_some, map_some, hm]
  · rw [lookup_insert_ne hk]

theorem map_lookup_of_le (hle : ∀ k c, conns'.lookup k = some c → conns.lookup k = some c)
    {k : ConnKey} {a : Nat × UInt16} (h : (conns'.lookup k).map mark = some a) :
    (conns.lookup k).map mark = some a := by
  obtain ⟨c, hc, rfl⟩ := map_eq_some_iff.1 h
  rw [hle k c hc, map_some]

theorem map_lookup_insert_of_le (hle : ∀ k c, conns'.lookup k = some c → conns.lookup k = some c)
    {k : ConnKey} {a : Nat × UInt16} (h : ((conns'.insert key conn).lookup k).map mark = some a) :
    (conns.lookup k).map mark = some a ∨ a = mark conn := by
  by_cases hk : k = key
  · subst hk
    rw [lookup_insert, map_some] at h
    exact .inr (some.inj h).symm
  · rw [lookup_insert_ne hk] at h
    exact .inl (map_lookup_of_le hle h)

end

namespace TCPTracker

variable {cfg : TCPConfig} {t : TCPTracker}

theorem keeps_insert {key : ConnKey} {conn : TCPConnTrack}
    (hc : t.connections.lookup key = some conn) (flags : Flags) (dir : Direction)
    (now : Int) : t.marks.Keeps (marks { t with
      connections := t.connections.insert key (conn.updateState flags dir now) }) :=
  ⟨rfl, fun k _ ha =>
    (map_lookup_insert hc (conn.mark_updateState flags dir now) k).symm.trans ha⟩

/-- An update keeps the entries and returns the port of its own. -/
theorem updateIfExists_marks {key : ConnKey} {flags : Flags} {dir : Direction} {now : Int}
    {r : UInt16 × TCPTracker} (h : t.updateIfExists key flags dir now = some r) :
    t.marks.Keeps r.2.marks ∧ ∃ i, t.marks.at? key = some (i, r.1) := by
  obtain ⟨conn, hc, -, rfl⟩ := updateIfExists_eq_some h
  refine ⟨keeps_insert hc flags dir now, conn.flowId, ?_⟩
  simp [marks, hc, mark]

/-- Tracking keeps the entries or opens one. -/
theorem marks_track (p : Packet) (dir : Direction) (op : UInt16) (now : Int)
    (order : List ConnKey) : t.marks.Keeps (t.track cfg p dir op now order).marks ∨
      t.marks.Opens op (t.track cfg p dir op now order).marks := by
  unfold track
  split
  · rename_i he
    exact .inl (updateIfExists_marks he).1
  · split
    · exact .inl (Marks.Keeps.refl _)
    · refine .inr ⟨rfl, fun k a ha => ?_⟩
      have hle : ∀ k c, (if cfg.maxEntries > 0 ∧ cfg.maxEntries ≤ t.connections.entries.length then
          evictOneLocked t.connections order else t.connections).lookup k = some c →
          t.connections.lookup k = some c := by
        intro k c hc
        split at hc
        · exact lookup_of_lookup_evictFrom _ _ _ hc
        · exact hc
      have hm := map_lookup_insert_of_le hle ha
      rwa [mark_updateState] at hm

/-- An outbound packet opens an entry without a port, or gets that of its flow. -/
theorem marks_trackOutbound (p : Packet) (now : Int) (order : List ConnKey) :
    (t.marks.Keeps (t.trackOutbound cfg p now order).2.marks ∨
      t.marks.Opens 0 (t.trackOutbound cfg p now order).2.marks) ∧
    ((t.trackOutbound cfg p now order).1 ≠ 0 →
      ∃ i, t.marks.at? p.key.reverse = some (i, (t.trackOutbound cfg p now order).1)) := by
  unfold trackOutbound
  split
  · rename_i he
    obtain ⟨hk, hp⟩ := updateIfExists_marks he
    exact ⟨.inl hk, fun _ => hp⟩
  · exact ⟨marks_track p .egress 0 now order, fun hne => absurd rfl hne⟩

/-- A check keeps the entries. -/
theorem keeps_isValidInbound (p : Packet) (now : Int) :
    t.marks.Keeps (t.isValidInbound p now).2.marks := by
  unfold isValidInbound
  split
  · exact Marks.Keeps.refl _
  · rename_i conn hc
    split
    · exact Marks.Keeps.refl _
    · exact keeps_insert hc p.flags .ingress now

/-- The cleanup only drops entries. -/
theorem keeps_cleanup (now : Int) : t.marks.Keeps (t.cleanup cfg now).marks :=
  ⟨rfl, fun _ _ ha => map_lookup_of_le (fun _ _ hc => (lookup_select_some.1 hc).1) ha⟩

end TCPTracker

namespace UDPTracker

variable {cfg : UDPConfig} {t : UDPTracker}

variable {key : ConnKey}

theorem keeps_insert {conn : UDPConnTrack} (hc : t.connections.lookup key = some conn)
    (now : Int) : t.marks.Keeps (marks { t with
      connections := t.connections.insert key { conn with lastSeen := now } }) :=
  have hm : UDPConnTrack.mark { conn with lastSeen := now } = conn.mark := rfl
  ⟨rfl, fun k _ ha => (map_lookup_insert hc hm k).symm.trans ha⟩

theorem updateIfExists_marks {now : Int} {r : UInt16 × UDPTracker}
    (h : t.updateIfExists key now = some r) :
    t.marks.Keeps r.2.marks ∧ ∃ i, t.marks.at? key = some (i, r.1) := by
  unfold updateIfExists at h
  split at h
  · cases h
  · rename_i conn hc
    cases h
    refine ⟨keeps_insert hc now, conn.flowId, ?_⟩
    simp [marks, hc, UDPConnTrack.mark]

/-- An eviction leaves the other entries as they are. -/
theorem lookup_of_lookup_evictFrom {conns : UDPConnections} (order : List ConnKey)
    (cand : Option (ConnKey × Int)) (smp : Nat) {conn : UDPConnTrack}
    (h : (evictFrom conns order cand smp).lookup key = some conn) :
    conns.lookup key = some conn := by
  induction order generalizing cand smp with
  | nil =>
    cases cand with
    | none => exact h
    | some c => exact (lookup_erase_some.1 h).2
  | cons k order ih =>
    rw [evictFrom] at h
    split at h
    · exact ih _ _ h
    · dsimp only at h
      split at h
      · exact (lookup_erase_some.1 h).2
      · exact ih _ _ h

theorem marks_track (key : ConnKey) (dir : Direction) (op : UInt16) (now : Int)
    (order : List ConnKey) : t.marks.Keeps (t.track cfg key dir op now order).marks ∨
      t.marks.Opens op (t.track cfg key dir op now order).marks := by
  unfold track
  split
  · rename_i he
    exact .inl (updateIfExists_marks he).1
  · refine .inr ⟨rfl, fun k a ha => ?_⟩
    refine map_lookup_insert_of_le (fun k c hc => ?_) ha
    split at hc
    · exact lookup_of_lookup_evictFrom _ _ _ hc
    · exact hc

theorem marks_trackOutbound (key : ConnKey) (now : Int) (order : List ConnKey) :
    (t.marks.Keeps (t.trackOutbound cfg key now order).2.marks ∨
      t.marks.Opens 0 (t.trackOutbound cfg key now order).2.marks) ∧
    ((t.trackOutbound cfg key now order).1 ≠ 0 →
      ∃ i, t.marks.at? key.reverse = some (i, (t.trackOutbound cfg key now order).1)) := by
  unfold trackOutbound
  split
  · rename_i he
    obtain ⟨hk, hp⟩ := updateIfExists_marks he
    exact ⟨.inl hk, fun _ => hp⟩
  · exact ⟨marks_track key .egress 0 now order, fun hne => absurd rfl hne⟩

theorem keeps_isValidInbound (key : ConnKey) (now : Int) :
    t.marks.Keeps (t.isValidInbound cfg key now).2.marks := by
  unfold isValidInbound
  split
  · exact Marks.Keeps.refl _
  · rename_i conn hc
    split
    · exact Marks.Keeps.refl _
    · exact keeps_insert hc now

theorem keeps_cleanup (now : Int) : t.marks.Keeps (t.cleanup cfg now).marks :=
  ⟨rfl, fun _ _ ha => map_lookup_of_le (fun _ _ hc => (lookup_select_some.1 hc).1) ha⟩

end UDPTracker

end Cloink.Conntrack
