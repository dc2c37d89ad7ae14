import Cloink.Lib.FinMap
import Cloink.Lib.Netip

/-!
# The TCP connection tracker

The table of TCP connections of the userspace firewall (`client/firewall/uspfilter/conntrack`).
A connection is stored under the source and destination of its first packet and is looked up in
either direction. Times are given with each call, in nanoseconds, and the order in which Go goes
through the table with each call that may evict. Packet counters, flow events and logging are left
out.
-/

namespace Cloink.Conntrack

open Netip

/-! ### Flags -/

abbrev Flags := UInt8

def TCPFin : Flags := 0x01
def TCPSyn : Flags := 0x02
def TCPRst : Flags := 0x04
def TCPAck : Flags := 0x10

def isSet (flags flag : Flags) : Bool := flags &&& flag != 0

variable (flags : Flags)

def isValidFlagCombination : Bool :=
  !(isSet flags TCPSyn && isSet flags TCPFin) &&
    !(isSet flags TCPRst && (isSet flags TCPSyn || isSet flags TCPFin))

/-! ### States -/

inductive Direction where
  | ingress
  | egress
  deriving DecidableEq

inductive TCPState where
  | new
  | synSent
  | synReceived
  | established
  | finWait1
  | finWait2
  | closing
  | timeWait
  | closeWait
  | lastAck
  | closed
  deriving DecidableEq

def transNew (connDir : Direction) : Option TCPState :=
  if isSet flags TCPSyn && !isSet flags TCPAck then
    if connDir = .egress then some .synSent else some .synReceived
  else none

variable (same : Bool)

def transSynSent : Option TCPState :=
  if isSet flags TCPSyn && isSet flags TCPAck then
    -- a simultaneous open
    if same then some .synReceived else some .established
  else none

def transSynReceived : Option TCPState :=
  if isSet flags TCPAck && !isSet flags TCPSyn && same then some .established else none

def transEstablished : Option TCPState :=
  if !isSet flags TCPFin then none else if same then some .finWait1 else some .closeWait

def transFinWait1 : Option TCPState :=
  if same then none
  else if isSet flags TCPFin && isSet flags TCPAck then some .timeWait
  else if isSet flags TCPFin then some .closing
  else if isSet flags TCPAck then some .finWait2
  else none

def transFinWait2 : Option TCPState :=
  if isSet flags TCPFin && !same then some .timeWait else none

def transClosing : Option TCPState :=
  if isSet flags TCPAck && !same then some .timeWait else none

def transCloseWait : Option TCPState :=
  if isSet flags TCPFin && same then some .lastAck else none

def transLastAck : Option TCPState :=
  if isSet flags TCPAck && !same then some .closed else none

/-- The state after a packet, or none when the packet does not change it. -/
def nextState (currentState : TCPState) (connDir packetDir : Direction) (flags : Flags) :
    Option TCPState :=
  let same := packetDir = connDir
  match currentState with
  | .new => transNew flags connDir
  | .synSent => transSynSent flags same
  | .synReceived => transSynReceived flags same
  | .established => transEstablished flags same
  | .finWait1 => transFinWait1 flags same
  | .finWait2 => transFinWait2 flags same
  | .closing => transClosing flags same
  | .closeWait => transCloseWait flags same
  | .lastAck => transLastAck flags same
  | .timeWait => none
  | .closed => none

/-- The flags are expected in the state; their combination is known to be legal. -/
def isValidStateForFlags (state : TCPState) (flags : Flags) : Bool :=
  if isSet flags TCPRst then
    if state = .synSent then isSet flags TCPAck else true
  else match state with
    | .new => isSet flags TCPSyn && !isSet flags TCPAck
    | .synSent => isSet flags TCPSyn && isSet flags TCPAck
    | .synReceived => isSet flags TCPAck
    | .established => isSet flags TCPAck
    | .finWait1 => isSet flags TCPFin || isSet flags TCPAck
    | .finWait2 => isSet flags TCPFin || isSet flags TCPAck
    | .closing => isSet flags TCPAck
    | .timeWait => isSet flags TCPAck
    | .closeWait => isSet flags TCPFin || isSet flags TCPAck
    | .lastAck => isSet flags TCPAck
    | .closed => isSet flags TCPAck

/-! ### Connections -/

structure ConnKey where
  srcIP : Addr
  dstIP : Addr
  srcPort : UInt16
  dstPort : UInt16
  deriving DecidableEq

def ConnKey.reverse (k : ConnKey) : ConnKey := ⟨k.dstIP, k.srcIP, k.dstPort, k.srcPort⟩

structure TCPConnTrack where
  flowId : Nat
  direction : Direction
  lastSeen : Int := 0
  dnatOrigPort : UInt16 := 0
  state : TCPState := .new
  tombstone : Bool := false
  deriving DecidableEq

namespace TCPConnTrack

variable (conn : TCPConnTrack)

/-- A connection that a packet with these flags replaces: a dead one, or one in TIME-WAIT when a
new connection is opened. -/
def isSupersededBy (flags : Flags) : Bool :=
  conn.tombstone || (isSet flags TCPSyn && !isSet flags TCPAck && conn.state = .timeWait)

def handleRst (packetDir : Direction) : TCPConnTrack :=
  if conn.state = .timeWait then conn
  else if conn.state = .synSent ∧ packetDir = conn.direction then conn
  else { conn with state := .closed, tombstone := true }

/-- A packet of the connection; malformed ones neither refresh nor change it. -/
def updateState (flags : Flags) (packetDir : Direction) (now : Int) : TCPConnTrack :=
  if !isValidFlagCombination flags then conn
  else
    let conn := { conn with lastSeen := now }
    if isSet flags TCPRst then conn.handleRst packetDir
    else match nextState conn.state conn.direction packetDir flags with
      | none => conn
      | some newState =>
        { conn with state := newState, tombstone := conn.tombstone || newState = .closed }

def timeoutExceeded (timeout now : Int) : Bool :=
  now - conn.lastSeen > timeout

end TCPConnTrack

/-! ### The tracker -/

abbrev Connections := AList fun _ : ConnKey => TCPConnTrack

structure TCPConfig where
  timeout : Int
  waitTimeout : Int
  finWaitTimeout : Int
  closeWaitTimeout : Int
  lastAckTimeout : Int
  maxEntries : Nat

def tcpHandshakeTimeout : Int := 60000000000

def evictSampleSize : Nat := 8

/-- The connections and the number of flow ids that were given out. -/
structure TCPTracker where
  connections : Connections := ∅
  flows : Nat := 0

/-- A packet: where it comes from and goes to, and its flags. -/
structure Packet where
  srcIP : Addr
  dstIP : Addr
  srcPort : UInt16
  dstPort : UInt16
  flags : Flags
  deriving DecidableEq

def Packet.key (p : Packet) : ConnKey := ⟨p.srcIP, p.dstIP, p.srcPort, p.dstPort⟩

namespace TCPTracker

variable (cfg : TCPConfig) (t : TCPTracker)

/-- Updates the connection of a key unless the packet supersedes it. -/
def updateIfExists (key : ConnKey) (flags : Flags) (direction : Direction) (now : Int) :
    Option (UInt16 × TCPTracker) :=
  match t.connections.lookup key with
  | none => none
  | some conn =>
    if conn.isSupersededBy flags then none
    else some (conn.dnatOrigPort,
      { t with connections := t.connections.insert key (conn.updateState flags direction now) })

/-- Removes the first dead connection among those sampled, or the one not seen for longest. -/
def evictFrom (conns : Connections) : List ConnKey → Option (ConnKey × Int) → Nat → Connections
  | [], cand, _ => cand.elim conns fun c => conns.erase c.1
  | k :: order, cand, sampled =>
    match conns.lookup k with
    | none => evictFrom conns order cand sampled
    | some conn =>
      if conn.tombstone then conns.erase k
      else
        let cand := cand.elim (k, conn.lastSeen) fun c =>
          if conn.lastSeen < c.2 then (k, conn.lastSeen) else c
        if sampled + 1 ≥ evictSampleSize then conns.erase cand.1
        else evictFrom conns order (some cand) (sampled + 1)

def evictOneLocked (conns : Connections) (order : List ConnKey) : Connections :=
  evictFrom conns order none 0

/-- Updates the connection of a packet, or records a new one for a legal SYN. -/
def track (p : Packet) (direction : Direction) (origPort : UInt16) (now : Int)
    (order : List ConnKey) : TCPTracker :=
  match t.updateIfExists p.key p.flags direction now with
  | some (_, t) => t
  | none =>
    if !isSet p.flags TCPSyn || !isValidFlagCombination p.flags then t
    else
      let conn : TCPConnTrack := { flowId := t.flows, direction, dnatOrigPort := origPort }
      let conns := if cfg.maxEntries > 0 ∧ cfg.maxEntries ≤ t.connections.entries.length then
        evictOneLocked t.connections order else t.connections
      { connections := conns.insert p.key (conn.updateState p.flags direction now)
        flows := t.flows + 1 }

/-- Records an outgoing packet and returns the port to restore, if any. -/
def trackOutbound (p : Packet) (now : Int) (order : List ConnKey) : UInt16 × TCPTracker :=
  match t.updateIfExists p.key.reverse p.flags .egress now with
  | some (origPort, t) => (origPort, t)
  | none => (0, t.track cfg p .egress 0 now order)

/-- Records an incoming packet that was let in. -/
def trackInbound (p : Packet) (dnatOrigPort : UInt16) (now : Int) (order : List ConnKey) :
    TCPTracker :=
  t.track cfg p .ingress dnatOrigPort now order

/-- Whether an incoming packet belongs to a tracked connection. -/
def isValidInbound (p : Packet) (now : Int) : Bool × TCPTracker :=
  match t.connections.lookup p.key.reverse with
  | none => (false, t)
  | some conn =>
    if conn.isSupersededBy p.flags || !isValidFlagCombination p.flags ||
        !isValidStateForFlags conn.state p.flags then (false, t)
    else (true, { t with
      connections := t.connections.insert p.key.reverse (conn.updateState p.flags .ingress now) })

/-- How long a connection in a state may stay unseen. -/
def stateTimeout : TCPState → Int
  | .timeWait => cfg.waitTimeout
  | .established => cfg.timeout
  | .finWait1 | .finWait2 | .closing => cfg.finWaitTimeout
  | .closeWait => cfg.closeWaitTimeout
  | .lastAck => cfg.lastAckTimeout
  | _ => tcpHandshakeTimeout

def cleanup (now : Int) : TCPTracker :=
  { t with connections := t.connections.select fun _ conn =>
      !conn.tombstone && !conn.timeoutExceeded (stateTimeout cfg conn.state) now }

/-! ### Runs -/

inductive Event where
  | trackOutbound (p : Packet) (now : Int) (order : List ConnKey)
  | trackInbound (p : Packet) (dnatOrigPort : UInt16) (now : Int) (order : List ConnKey)
  | isValidInbound (p : Packet) (now : Int)
  | cleanup (now : Int)

def step (t : TCPTracker) : Event → TCPTracker
  | .trackOutbound p now order => (t.trackOutbound cfg p now order).2
  | .trackInbound p dnatOrigPort now order => t.trackInbound cfg p dnatOrigPort now order
  | .isValidInbound p now => (t.isValidInbound p now).2
  | .cleanup now => t.cleanup cfg now

def run (l : List Event) : TCPTracker := l.foldl (step cfg) {}

end TCPTracker

end Cloink.Conntrack
