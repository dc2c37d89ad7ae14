import Cloink.Relay.Manager

/-!
# Listeners for a closed relay

The connection of a peer through a relay registers a listener with `AddCloseListener`, which
`notifyOnDisconnectListeners` calls when the client of the relay disconnects. Two listeners are the
same to `addListener` when they have the same code pointer. The workers of all peers register the
same method, so only the first of them is kept.
-/

namespace Cloink.Relay

open List AList

/-- The client that `AddCloseListener` adds a listener to, none when it returns an error. -/
def Manager.listenerClient (m : Manager) (serverAddress : String) : Option ℕ :=
  m.relayClient.bind fun home => (m.clients home).instanceURL.bind fun rAddr =>
    if rAddr ≠ serverAddress then
      match m.relayClients serverAddress with
      | some (.connected client) => some client
      | _ => none
    else some home

variable {Worker : Type}

/-- A method value: the code pointer that `reflect` sees, and the receiver. -/
structure CloseListener (Worker : Type) where
  pointer : ℕ
  receiver : Worker

abbrev CloseListeners (Worker : Type) := AList fun _ : ℕ => List (CloseListener Worker)

/-- The method value `w.onRelayClientDisconnected`, with the code at `code`. -/
def onRelayClientDisconnected (code : ℕ) (w : Worker) : CloseListener Worker := ⟨code, w⟩

namespace CloseListeners

variable (ls : CloseListeners Worker)

def addListener (relayClient : ℕ) (l : CloseListener Worker) : CloseListeners Worker :=
  if (ls.setAt relayClient).any (·.pointer = l.pointer) then ls
  else ls.insert relayClient (ls.setAt relayClient ++ [l])

/-- The listeners that are called, and those that are left. -/
def notifyOnDisconnectListeners (relayClient : ℕ) :
    List (CloseListener Worker) × CloseListeners Worker :=
  (ls.setAt relayClient, ls.erase relayClient)

end CloseListeners

/-- A worker that registers its listener for the server, in a state of the manager. -/
structure Registration (Worker : Type) where
  manager : Manager
  serverAddress : String
  worker : Worker

namespace Registration

variable (code : ℕ) (client : ℕ)

/-- `AddCloseListener`; an error leaves the listeners alone. -/
def addCloseListener (ls : CloseListeners Worker) (r : Registration Worker) :
    CloseListeners Worker :=
  match r.manager.listenerClient r.serverAddress with
  | none => ls
  | some relayClient => ls.addListener relayClient (onRelayClientDisconnected code r.worker)

/-- The workers that registered on the client. -/
def workers (rs : List (Registration Worker)) : List Worker :=
  (rs.filter fun r => r.manager.listenerClient r.serverAddress = some client).map worker

variable {code client} {ls : CloseListeners Worker} {r : Registration Worker}
  {ws : List Worker}

theorem setAt_addCloseListener
    (h : ls.setAt client = (ws.take 1).map (onRelayClientDisconnected code)) :
    (addCloseListener code ls r).setAt client =
      ((ws ++ workers client [r]).take 1).map (onRelayClientDisconnected code) := by
  unfold addCloseListener
  cases hc : r.manager.listenerClient r.serverAddress with
  | none => simp [workers, hc, h]
  | some relayClient =>
    by_cases he : relayClient = client
    · subst he
      dsimp only
      unfold CloseListeners.addListener
      rw [h]
      cases ws <;> simp [workers, hc, h, setAt_insert, onRelayClientDisconnected]
    · have hne : client ≠ relayClient := fun hn => he hn.symm
      dsimp only
      unfold CloseListeners.addListener
      split <;> simp [workers, hc, h, setAt_insert, he, hne]

/-- Only the listener of the first worker is kept. -/
theorem setAt_foldl (rs : List (Registration Worker))
    (h : ls.setAt client = (ws.take 1).map (onRelayClientDisconnected code)) :
    (rs.foldl (addCloseListener code) ls).setAt client =
      ((ws ++ workers client rs).take 1).map (onRelayClientDisconnected code) := by
  induction rs generalizing ls ws with
  | nil => simpa [workers] using h
  | cons r rs ih =>
    have hw : workers client (r :: rs) = workers client [r] ++ workers client rs := by
      rw [← singleton_append, workers, filter_append, map_append]
      rfl
    rw [foldl_cons, ih (setAt_addCloseListener h), hw, append_assoc]

end Registration

open Registration

/-- When a client without listeners disconnects after some registrations, the listener of every
worker that registered on it is called exactly once, if and only if there is only one such
worker. -/
theorem listeners_called_iff [DecidableEq Worker] (code client : ℕ) (ls : CloseListeners Worker)
    (hnew : client ∉ ls) (rs : List (Registration Worker)) :
    (∀ w ∈ workers client rs, (((rs.foldl (addCloseListener code)
      ls).notifyOnDisconnectListeners client).1.map CloseListener.receiver).count w = 1) ↔
      ∀ w ∈ workers client rs, ∀ w' ∈ workers client rs, w = w' := by
  have hs : ls.setAt client = (([] : List Worker).take 1).map (onRelayClientDisconnected code) := by
    simp [setAt, lookup_eq_none.2 hnew]
  unfold CloseListeners.notifyOnDisconnectListeners
  rw [setAt_foldl rs hs]
  cases workers client rs with
  | nil => simp
  | cons w ws =>
    have hc (v : Worker) : count v [w] = 1 ↔ w = v := by
      by_cases he : w = v <;> simp [he]
    simp only [nil_append, take_succ_cons, take_zero, map_cons, map_nil, onRelayClientDisconnected,
      hc]
    constructor
    · intro h v hv v' hv'
      exact (h v hv).symm.trans (h v' hv')
    · intro h v hv
      exact h w mem_cons_self v hv

/-- Registrations of workers, with the home relay or with another one. -/
def registrations (workers : List (String × String)) : List (Registration String) :=
  let client (url : String) : Client := { connectionURL := url, instanceURL := some url }
  let manager : Manager :=
    { clients := fun c => client (if c = 0 then "rels://home" else "rels://other")
      relayClient := some 0
      relayClients := fun url => if url = "rels://other" then some (.connected 1) else none
      config := ⟨[], ∅, ""⟩
      picker := ⟨[], ∅, ""⟩ }
  workers.map fun w => ⟨manager, w.2, w.1⟩

/-- Of two peers that share the relay, the second is not told. -/
theorem second_listener_not_called :
    let rs := registrations [("p", "rels://home"), ("q", "rels://home")]
    workers 0 rs = ["p", "q"] ∧ ((rs.foldl (addCloseListener 1) ∅).notifyOnDisconnectListeners
      0).1.map CloseListener.receiver = ["p"] := by
  decide +kernel

/-- One worker registers twice with the home relay, and another one with the other relay. -/
theorem only_listener_called :
    let rs := registrations [("p", "rels://home"), ("q", "rels://other"), ("p", "rels://home")]
    workers 0 rs = ["p", "p"] ∧ ∀ w ∈ workers 0 rs,
      (((rs.foldl (addCloseListener 1) ∅).notifyOnDisconnectListeners 0).1.map
        CloseListener.receiver).count w = 1 := by
  intro rs
  have hw : workers 0 rs = ["p", "p"] := by decide +kernel
  refine ⟨hw, (listeners_called_iff 1 0 ∅ (notMem_empty 0) rs).2 ?_⟩
  simp [hw]

end Cloink.Relay
