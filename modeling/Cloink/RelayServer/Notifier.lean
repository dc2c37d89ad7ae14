import Cloink.Lib.Interleaving
import Cloink.Lib.TaskPool

/-!
# The peers of a relay server and those who wait for them

A connection is put into the store under the id of its peer, in place of an older one, and taken out
when its read loop has ended, unless it was replaced; after either the listeners are told. The store
is changed under its own lock, so the two halves can fall between those of other connections. The
model follows one subscriber that stays connected: its listener, the goroutine that collects the
events and writes the messages, and the subscriptions that its read loop handles.
-/

namespace Cloink.RelayServer

open TaskPool (Pool)

variable {PeerID : Type} [DecidableEq PeerID]

/-! ### The listener -/

section

/-- An event in the queue, and what a message says of one peer. -/
structure Event (PeerID : Type) where
  peerID : PeerID
  online : Bool
  deriving DecidableEq

structure Listener (PeerID : Type) where
  eventChan : List (Event PeerID) := []
  interestedPeersForOffline : Finset PeerID := ∅
  interestedPeersForOnline : Finset PeerID := ∅

def eventChanSize : ℕ := 244

variable (l : Listener PeerID) (peerID : PeerID)

def Listener.addInterestedPeers (peerIDs : List PeerID) : Listener PeerID :=
  { l with
    interestedPeersForOnline := l.interestedPeersForOnline ∪ peerIDs.toFinset
    interestedPeersForOffline := l.interestedPeersForOffline ∪ peerIDs.toFinset }

def Listener.removeInterestedPeer (peerIDs : List PeerID) : Listener PeerID :=
  { l with
    interestedPeersForOnline := l.interestedPeersForOnline \ peerIDs.toFinset
    interestedPeersForOffline := l.interestedPeersForOffline \ peerIDs.toFinset }

/-- Waits while the queue is full. -/
def Listener.send (online : Bool) : Option (Listener PeerID) :=
  if l.eventChan.length < eventChanSize then
    some { l with eventChan := l.eventChan ++ [⟨peerID, online⟩] }
  else none

def Listener.peerWentOffline : Option (Listener PeerID) :=
  if peerID ∈ l.interestedPeersForOffline then l.send peerID false else some l

/-- A peer is reported online once for each subscription. -/
def Listener.peerComeOnline : Option (Listener PeerID) :=
  if peerID ∈ l.interestedPeersForOnline then
    (l.send peerID true).map fun l =>
      { l with interestedPeersForOnline := l.interestedPeersForOnline.erase peerID }
  else some l

end

/-! ### The server -/

/-- The loop of `listenForEvents`. -/
inductive Loop (PeerID : Type) where
  | waiting
  /-- Drains the queue. -/
  | collecting (peersOnline peersOffline : List PeerID)
  /-- The online messages are written. -/
  | offline (peersOffline : List PeerID)

/-- The peers collected in the current round that are not written yet. -/
def Loop.peersOnline : Loop PeerID → List PeerID
  | .collecting peersOnline _ => peersOnline
  | _ => []

def Loop.peersOffline : Loop PeerID → List PeerID
  | .waiting => []
  | .collecting _ peersOffline => peersOffline
  | .offline peersOffline => peersOffline

section

variable (peersOnline peersOffline : List PeerID)

omit [DecidableEq PeerID]

@[simp]
theorem Loop.peersOnline_collecting :
    (Loop.collecting peersOnline peersOffline).peersOnline = peersOnline := rfl

@[simp]
theorem Loop.peersOffline_collecting :
    (Loop.collecting peersOnline peersOffline).peersOffline = peersOffline := rfl

@[simp]
theorem Loop.peersOnline_offline : (Loop.offline peersOffline).peersOnline = [] := rfl

@[simp]
theorem Loop.peersOffline_offline : (Loop.offline peersOffline).peersOffline = peersOffline := rfl

@[simp]
theorem Loop.peersOnline_waiting : (Loop.waiting : Loop PeerID).peersOnline = [] := rfl

@[simp]
theorem Loop.peersOffline_waiting : (Loop.waiting : Loop PeerID).peersOffline = [] := rfl

end

/-- The store, with connections as numbers, and the subscriber. -/
structure Server (PeerID : Type) where
  store : PeerID → Option ℕ := fun _ => none
  nextConn : ℕ := 0
  listener : Listener PeerID := {}
  loop : Loop PeerID := .waiting
  /-- The answer to a subscription; `notificationMutex` is held until it is written. -/
  response : Option (List PeerID) := none
  /-- What the subscriber has been sent, oldest first. -/
  sent : List (Event PeerID) := []

/-- What a connection has left to do. -/
inductive Task (PeerID : Type) where
  /-- The listeners have to be told that it is in the store. -/
  | added (conn : ℕ) (peerID : PeerID)
  /-- `Work`. -/
  | working (conn : ℕ) (peerID : PeerID)
  /-- Its read loop has ended. -/
  | ended (conn : ℕ) (peerID : PeerID)
  /-- The listeners have to be told that it is not in the store any more. -/
  | deleted (peerID : PeerID)
  deriving DecidableEq

/-- What the subscriber is told last by a list of messages. -/
def lastMessage (peerID : PeerID) (sent : List (Event PeerID)) : Option Bool :=
  ((sent.filter fun e => e.peerID = peerID).getLast?).map Event.online

section

variable (s : Server PeerID)

/-- `AddPeer`. The connection that it replaces is closed: its read loop may end, as it may at any
other time. -/
def addPeer (peerID : PeerID) : Server PeerID × List (Task PeerID) :=
  ({ s with
      store := Function.update s.store peerID (some s.nextConn)
      nextConn := s.nextConn + 1 }, [.added s.nextConn peerID])

/-- `DeletePeer`, which leaves a connection alone that has taken the place of this one. -/
def deletePeer (conn : ℕ) (peerID : PeerID) : Server PeerID × List (Task PeerID) :=
  if s.store peerID = some conn then
    ({ s with store := Function.update s.store peerID none }, [.deleted peerID])
  else (s, [])

/-- The next action of a connection. -/
def act : Task PeerID → Option (Server PeerID × List (Task PeerID))
  | .added conn peerID =>
    (s.listener.peerComeOnline peerID).map fun l =>
      ({ s with listener := l }, [.working conn peerID])
  | .working conn peerID => some (s, [.ended conn peerID])
  | .ended conn peerID => some (deletePeer s conn peerID)
  | .deleted peerID =>
    (s.listener.peerWentOffline peerID).map fun l => ({ s with listener := l }, [])

/-- `handleSubscribePeerState`: the interest is registered under the locks of the whole store. -/
def subscribe (peerIDs : List PeerID) : Option (Server PeerID) :=
  if s.response.isSome then none
  else
    let onlinePeers := peerIDs.filter fun id => (s.store id).isSome
    some { s with
      listener := s.listener.addInterestedPeers peerIDs
      response := if onlinePeers.isEmpty then none else some onlinePeers }

def sendPeersOnline (peers : List PeerID) : Server PeerID :=
  { s with sent := s.sent ++ peers.map (⟨·, true⟩) }

/-- The end of a subscription. -/
def respond : Option (Server PeerID) :=
  s.response.map fun onlinePeers => { sendPeersOnline s onlinePeers with response := none }

def unsubscribe (peerIDs : List PeerID) : Option (Server PeerID) :=
  if s.response.isSome then none
  else some { s with listener := s.listener.removeInterestedPeer peerIDs }

/-- A round begins with an event and goes on while there are more. -/
def receive : Option (Server PeerID) :=
  match s.listener.eventChan, s.loop with
  | [], _ => none
  | _ :: _, .offline _ => none
  | e :: rest, loop =>
    some { s with
      listener := { s.listener with eventChan := rest }
      loop := if e.online then .collecting (loop.peersOnline ++ [e.peerID]) loop.peersOffline
        else .collecting loop.peersOnline (loop.peersOffline ++ [e.peerID]) }

/-- The queue is drained: those who have come online are reported. -/
def flush : Option (Server PeerID) :=
  match s.listener.eventChan, s.loop with
  | [], .collecting peersOnline peersOffline =>
    some { sendPeersOnline s peersOnline with loop := .offline peersOffline }
  | _, _ => none

/-- The end of a round. `sendPeersWentOffline` waits for the answer to a subscription. -/
def sendPeersWentOffline : Option (Server PeerID) :=
  match s.response, s.loop with
  | _, .offline [] => some { s with loop := .waiting }
  | none, .offline peersOffline =>
    some { s with sent := s.sent ++ peersOffline.map (⟨·, false⟩), loop := .waiting }
  | _, _ => none

end

inductive Action (PeerID : Type) where
  | accept (peerID : PeerID)
  | run (t : Task PeerID)
  | subscribe (peerIDs : List PeerID)
  | respond
  | unsubscribe (peerIDs : List PeerID)
  | receive
  | flush
  | sendPeersWentOffline

/-- An action of the subscriber starts no task. -/
def alone (s : Option (Server PeerID)) : Option (Server PeerID × List (Task PeerID)) :=
  s.map fun s => (s, [])

def step (p : Pool (Server PeerID) (Task PeerID)) :
    Action PeerID → Option (Pool (Server PeerID) (Task PeerID))
  | .accept peerID => p.spawn (some (addPeer p.shared peerID))
  | .run t => p.resume t (act p.shared t)
  | .subscribe peerIDs => p.spawn (alone (subscribe p.shared peerIDs))
  | .respond => p.spawn (alone (respond p.shared))
  | .unsubscribe peerIDs => p.spawn (alone (unsubscribe p.shared peerIDs))
  | .receive => p.spawn (alone (receive p.shared))
  | .flush => p.spawn (alone (flush p.shared))
  | .sendPeersWentOffline => p.spawn (alone (sendPeersWentOffline p.shared))

end Cloink.RelayServer
