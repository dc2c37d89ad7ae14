import Cloink.Lib.Interleaving

/-!
# Sync streams and network map updates of one peer

The management server keeps, for a peer, one update channel, the cancel channels of its secrets
refresh, a place on the list of disconnected ephemeral peers and the token of the session in the
store. A `Sync` call computes the initial network map, sends it, creates the update channel and
sends what arrives there; when it ends it cleans up. A change is committed to the store, and the
update that follows loads the store and sends every connected peer its map.

Streams are numbered in the order in which they start, and the number of a stream stands for its
token, its channel and its refresh. A network map stands for the number of changes committed to the
store it was computed from.
-/

namespace Cloink.Sync

open Function

/-! ### Messages and the debouncer -/

/-- A message for the peer: a network map of a state of the store, or a control configuration, which
stands for its content. -/
inductive Message
  | networkMap (version : Nat)
  | controlConfig (content : Nat)
  deriving DecidableEq

def Message.isNetworkMap : Message → Bool
  | .networkMap _ => true
  | .controlConfig _ => false

/-- Holds back the messages that follow one closely. The timer runs from the first message until a
period without any. -/
structure UpdateDebouncer where
  timer : Bool := false
  pendingUpdates : List Message := []
  deriving DecidableEq

namespace UpdateDebouncer

/-- The queue with one more message, in which a network map replaces a network map at the end. -/
def coalesce (pending : List Message) (update : Message) : List Message :=
  if update.isNetworkMap && (pending.getLast?.any Message.isNetworkMap) then
    pending.dropLast ++ [update]
  else pending ++ [update]

/-- Takes a message in, and says whether it is to be sent at once. -/
def processUpdate (d : UpdateDebouncer) (update : Message) : UpdateDebouncer × Bool :=
  if !d.timer then ({ d with timer := true }, true)
  else ({ d with pendingUpdates := coalesce d.pendingUpdates update }, false)

/-- The messages held back, when the timer has expired. -/
def getPendingUpdates (d : UpdateDebouncer) : UpdateDebouncer × List Message :=
  if d.pendingUpdates.isEmpty then ({ d with timer := false, pendingUpdates := [] }, [])
  else ({ d with pendingUpdates := [] }, d.pendingUpdates)

end UpdateDebouncer

/-! ### States -/

/-- What the cleanup of a stream does next. -/
inductive Cleanup
  | session
  | channel
  | ephemeral
  | refresh
  | unlock
  deriving DecidableEq

/-- Where a `Sync` call is. From `locked` to `refreshed`, and during `cleaning`, it has the lock of
the peer. -/
inductive Phase
  | idle
  | waiting
  | locked
  | computed (version : Nat)
  | marked (version : Nat)
  | initialSent (version : Nat)
  | announced (version : Nat)
  | created
  | refreshed
  | handling
  | ending
  | cleaning (next : Cleanup)
  | ended
  deriving DecidableEq

/-- A `Sync` call, with the messages it has sent to the peer. -/
structure Stream where
  phase : Phase := .idle
  debouncer : UpdateDebouncer := {}
  sent : List Message := []

/-- The channel a stream has made. -/
structure Channel where
  made : Bool := false
  closed : Bool := false
  queue : List Message := []

def channelBufferSize : Nat := 100

/-- Where the update for a change is; from `loaded` on with the state of the store it has loaded. -/
inductive Update
  | absent
  | committed
  | loaded (version : Nat)
  | scanning (version : Nat)
  | sending (version : Nat)
  | done (version : Nat)
  deriving DecidableEq

/-- What does not change: whether the peer is ephemeral, and which credentials are refreshed. -/
structure Config where
  ephemeral : Bool := false
  turn : Bool := false
  relay : Bool := false

structure State where
  /-- The number of changes committed to the store. -/
  version : Nat := 0
  updates : Nat → Update := fun _ => .absent
  /-- The number of streams started. -/
  started : Nat := 0
  streams : Nat → Stream := fun _ => {}
  channels : Nat → Channel := fun _ => {}
  /-- The stream whose channel the update manager has for the peer. -/
  peerChannel : Option Nat := none
  /-- The stream that has the lock of the peer. -/
  lock : Option Nat := none
  /-- The session in the store. -/
  session : Option Nat := none
  /-- The peer is on the list of disconnected ephemeral peers. -/
  onEphemeralList : Bool := false
  /-- The streams whose refresh of credentials is running. -/
  turnCancel : Option Nat := none
  relayCancel : Option Nat := none

/-! ### Steps -/

/-- One atomic step, of a stream, of the update for a change, or of the server. -/
inductive Action
  -- `Sync`
  | start
  | acquirePeerLock (i : Nat)
  | syncPeer (i : Nat) (succeeds : Bool)
  | markPeerConnected (i : Nat)
  | sendInitialSync (i : Nat) (succeeds : Bool)
  | onPeerConnected (i : Nat) (succeeds : Bool)
  | createChannel (i : Nat)
  | setupRefresh (i : Nat)
  | releasePeerLock (i : Nat)
  -- `HandleUpdates`
  | receiveUpdate (i : Nat)
  | timerExpired (i : Nat)
  | channelClosed (i : Nat)
  | contextDone (i : Nat)
  | sendFailed (i : Nat)
  -- `cancelPeerRoutines`
  | acquireCleanupLock (i : Nat)
  | markPeerDisconnected (i : Nat)
  | closeChannel (i : Nat)
  | onPeerDisconnected (i : Nat) (succeeds : Bool)
  | cancelRefresh (i : Nat)
  | releaseCleanupLock (i : Nat)
  -- a change and `UpdateAccountPeers`
  | commit
  | loadAccount (k : Nat)
  | hasPeersConnected (k : Nat) (others : Bool)
  | hasChannel (k : Nat)
  | sendUpdate (k : Nat)
  -- the rest of the server
  | pushControlConfig (content : Nat)
  | closeChannels
  deriving DecidableEq

namespace State

variable (s : State)

@[simp]
def setStream (i : Nat) (st : Stream) : State := { s with streams := update s.streams i st }

@[simp]
def setPhase (i : Nat) (phase : Phase) : State := s.setStream i { s.streams i with phase }

@[simp]
def setChannel (i : Nat) (c : Channel) : State := { s with channels := update s.channels i c }

@[simp]
def setUpdate (k : Nat) (u : Update) : State := { s with updates := update s.updates k u }

/-- Puts a message into the channel of the peer, unless there is none or it is full. -/
def sendToChannel (m : Message) : State :=
  match s.peerChannel with
  | none => s
  | some i =>
    if (s.channels i).queue.length < channelBufferSize then
      s.setChannel i { s.channels i with queue := (s.channels i).queue ++ [m] }
    else s

/-- Closes the channel of the peer, if there is one. -/
def closePeerChannel : State :=
  match s.peerChannel with
  | none => s
  | some i =>
    { s.setChannel i { s.channels i with closed := true } with peerChannel := none }

theorem sendToChannel_frame (m : Message) :
    (s.sendToChannel m).updates = s.updates ∧ (s.sendToChannel m).started = s.started ∧
      (s.sendToChannel m).streams = s.streams ∧ (s.sendToChannel m).lock = s.lock := by
  unfold sendToChannel
  split
  · exact ⟨rfl, rfl, rfl, rfl⟩
  · split <;> exact ⟨rfl, rfl, rfl, rfl⟩

theorem peerChannel_closePeerChannel : s.closePeerChannel.peerChannel = none := by
  unfold closePeerChannel
  split
  · assumption
  · rfl

theorem closePeerChannel_frame :
    s.closePeerChannel.streams = s.streams ∧ s.closePeerChannel.started = s.started ∧
      s.closePeerChannel.lock = s.lock ∧
      s.closePeerChannel.onEphemeralList = s.onEphemeralList ∧
      ∀ j, (s.closePeerChannel.channels j).made = (s.channels j).made := by
  unfold closePeerChannel
  split
  · exact ⟨rfl, rfl, rfl, rfl, fun _ => rfl⟩
  · rename_i c hc
    refine ⟨rfl, rfl, rfl, rfl, fun j => ?_⟩
    by_cases hjc : j = c
    · subst hjc
      simp
    · simp [hjc]

end State

/-- The state after the action, if it is enabled. -/
def step (cfg : Config) (s : State) : Action → Option State
  | .start =>
    some { s.setPhase s.started .waiting with started := s.started + 1 }
  | .acquirePeerLock i =>
    if (s.streams i).phase = .waiting ∧ s.lock = none then
      some { s.setPhase i .locked with lock := some i }
    else none
  | .syncPeer i succeeds =>
    if (s.streams i).phase = .locked then
      if succeeds then some (s.setPhase i (.computed s.version))
      else some { s.setPhase i .ended with lock := none }
    else none
  | .markPeerConnected i =>
    match (s.streams i).phase with
    | .computed v =>
      -- only a newer session replaces the one in the store
      some { s.setPhase i (.marked v) with
        session := if s.session.all (· < i) then some i else s.session }
    | _ => none
  | .sendInitialSync i succeeds =>
    match (s.streams i).phase with
    | .marked v =>
      if succeeds then
        some (s.setStream i { s.streams i with
          phase := .initialSent v
          sent := (s.streams i).sent ++ [.networkMap v] })
      else some (s.setPhase i (.cleaning .session))
    | _ => none
  | .onPeerConnected i succeeds =>
    match (s.streams i).phase with
    | .initialSent v =>
      if succeeds then
        some { s.setPhase i (.announced v) with
          onEphemeralList := if cfg.ephemeral then false else s.onEphemeralList }
      else some (s.setPhase i (.cleaning .session))
    | _ => none
  | .createChannel i =>
    match (s.streams i).phase with
    | .announced _ =>
      some { (s.closePeerChannel.setPhase i .created).setChannel i { made := true } with
        peerChannel := some i }
    | _ => none
  | .setupRefresh i =>
    if (s.streams i).phase = .created then
      some { s.setPhase i .refreshed with
        turnCancel := if cfg.turn then some i else none
        relayCancel := if cfg.relay then some i else none }
    else none
  | .releasePeerLock i =>
    if (s.streams i).phase = .refreshed then some { s.setPhase i .handling with lock := none }
    else none
  | .receiveUpdate i =>
    match (s.streams i).phase, (s.channels i).queue with
    | .handling, m :: queue =>
      let (debouncer, now) := (s.streams i).debouncer.processUpdate m
      let sent := if now then (s.streams i).sent ++ [m] else (s.streams i).sent
      some ((s.setChannel i { s.channels i with queue }).setStream i
        { s.streams i with debouncer, sent })
    | _, _ => none
  | .timerExpired i =>
    if (s.streams i).phase = .handling ∧ (s.streams i).debouncer.timer then
      let (debouncer, updates) := (s.streams i).debouncer.getPendingUpdates
      some (s.setStream i { s.streams i with debouncer, sent := (s.streams i).sent ++ updates })
    else none
  | .channelClosed i =>
    if (s.streams i).phase = .handling ∧ (s.channels i).closed ∧ (s.channels i).queue = [] then
      some (s.setPhase i .ending)
    else none
  | .contextDone i | .sendFailed i =>
    if (s.streams i).phase = .handling then some (s.setPhase i .ending) else none
  | .acquireCleanupLock i =>
    if (s.streams i).phase = .ending ∧ s.lock = none then
      some { s.setPhase i (.cleaning .session) with lock := some i }
    else none
  | .markPeerDisconnected i =>
    if (s.streams i).phase = .cleaning .session then
      -- only the session of this stream is ended
      some { s.setPhase i (.cleaning .channel) with
        session := if s.session = some i then none else s.session }
    else none
  | .closeChannel i =>
    if (s.streams i).phase = .cleaning .channel then
      some (s.closePeerChannel.setPhase i (.cleaning .ephemeral))
    else none
  | .onPeerDisconnected i succeeds =>
    if (s.streams i).phase = .cleaning .ephemeral then
      some { s.setPhase i (.cleaning .refresh) with
        onEphemeralList := if succeeds && cfg.ephemeral then true else s.onEphemeralList }
    else none
  | .cancelRefresh i =>
    if (s.streams i).phase = .cleaning .refresh then
      some { s.setPhase i (.cleaning .unlock) with turnCancel := none, relayCancel := none }
    else none
  | .releaseCleanupLock i =>
    if (s.streams i).phase = .cleaning .unlock then
      some { s.setPhase i .ended with lock := none }
    else none
  | .commit =>
    some { s.setUpdate (s.version + 1) .committed with version := s.version + 1 }
  | .loadAccount k =>
    if s.updates k = .committed then some (s.setUpdate k (.loaded s.version)) else none
  | .hasPeersConnected k others =>
    match s.updates k with
    | .loaded v =>
      some (s.setUpdate k (if others || s.peerChannel.isSome then .scanning v else .done v))
    | _ => none
  | .hasChannel k =>
    match s.updates k with
    | .scanning v => some (s.setUpdate k (if s.peerChannel.isSome then .sending v else .done v))
    | _ => none
  | .sendUpdate k =>
    match s.updates k with
    | .sending v => some ((s.sendToChannel (.networkMap v)).setUpdate k (.done v))
    | _ => none
  | .pushControlConfig content => some (s.sendToChannel (.controlConfig content))
  | .closeChannels => some s.closePeerChannel

/-- The steps of a stream from the lock to its updates. -/
def connecting (i : Nat) : List Action :=
  [.acquirePeerLock i, .syncPeer i true, .markPeerConnected i, .sendInitialSync i true,
    .onPeerConnected i true, .createChannel i, .setupRefresh i, .releasePeerLock i]

end Cloink.Sync
