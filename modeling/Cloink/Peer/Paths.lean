import Cloink.Lib.Interleaving
import Cloink.Peer.Conn

/-!
# The two paths of a connection

Two of the reports of the workers do not say which path they are about. An ICE agent that was
connected reports its loss whether or not its path was ever taken, and the listener at the relay
manager stays when the connection moves to another relay client.

## Main definitions

* `Does`: what a step may do to the connection.

## Main results

* `relayKept_iff_spares`: which steps keep the relay path.
* `oneListener_of_reaches`: only the current relay proxy reports.
-/

namespace Cloink.Peer

open Interleaving Option

/-- Whose listener the relay manager has for a relay client. -/
inductive ListenerOwner where
  | self
  | other
  deriving DecidableEq

/-- The connection and its workers. `iceReady` and `relayReady` are the paths that were opened and
are not handed to the connection yet. The manager keeps one listener for a relay client: it compares
the code of the functions, which is the same for the listeners of all peers. -/
structure Link where
  conn : Conn := {}
  ice : WorkerICE := {}
  iceReady : List ConnPriority := []
  relayReady : List RelayConnInfo := []
  listeners : List (Nat × ListenerOwner) := []
  deriving DecidableEq

inductive Action where
  /-- an offer reaches the ICE worker -/
  | iceOffer (sessionID : Option String) (agentFails : Bool)
  /-- the agent reports that it is connected -/
  | iceConnected (agent : Nat)
  /-- the agent reports that it failed, lost its connection or was closed -/
  | iceLost (agent : Nat) (switchFails : Bool)
  /-- the dial of the agent fails -/
  | iceDialFailed (agent : Nat)
  /-- the dial of the agent succeeds and its connection is committed -/
  | iceCommit (agent : Nat) (turn : Bool)
  /-- a committed connection is handed over -/
  | iceDeliver (k : Nat) (info : ICEConnInfo)
  /-- a connection over a relay is opened and the listener registered -/
  | relayOpen (rci : RelayConnInfo)
  | relayDeliver (k : Nat) (newProxyFails configureFails : Bool)
  /-- another peer registers its listener -/
  | otherListens (client : Nat)
  /-- a relay client loses its connection -/
  | clientDisconnected (client : Nat)
  /-- the manager closes a relay client that was replaced (`closeRetiredHomeRelay`) -/
  | clientRetired (client : Nat)
  /-- the connection behind a proxy breaks -/
  | proxyDisconnected (id : Nat)
  /-- WireGuard reports a timeout, or a handshake -/
  | wgTimeout
  | wgHandshake
  | retiredExpired (id : Nat)
  deriving DecidableEq

namespace Link

variable (s : Link) (client : Nat)

def addListener (owner : ListenerOwner) : Link :=
  if s.listeners.any (·.1 = client) then s
  else { s with listeners := s.listeners ++ [(client, owner)] }

def dropListeners : Link :=
  { s with listeners := s.listeners.filter (·.1 ≠ client) }

/-- The listener of this peer is registered for the relay client. -/
def Registered : Prop := (client, ListenerOwner.self) ∈ s.listeners

instance (client : Nat) : Decidable (s.Registered client) := inferInstanceAs (Decidable (_ ∈ _))

/-- The callback of an agent that lost its connection (`onConnectionStateChange`). -/
def iceLost (agent : Nat) (switchFails : Bool) : Link :=
  let (sessionChanged, ice) := s.ice.closeAgent agent
  if ice.lastKnownState = .connected then
    { s with
      ice := { ice with lastKnownState := .disconnected }
      conn := s.conn.onICEStateDisconnected sessionChanged switchFails }
  else { s with ice }

/-- `notifyOnDisconnectListeners`, with what the listener of this peer does. -/
def clientDisconnected : Link :=
  let s' := s.dropListeners client
  if s.Registered client then { s' with conn := s.conn.handleRelayDisconnectedLocked } else s'

/-- The proxy notifies its listener, if it has one, and closes. -/
def proxyDisconnected (id : Nat) : Link :=
  if id ∈ s.conn.listening then
    { s with conn := s.conn.handleRelayDisconnectedLocked.closeProxy id }
  else s

def wgTimeout : Link :=
  match s.conn.currentConnPriority with
  | .relay => { s with conn := s.conn.handleRelayDisconnectedLocked }
  | .iceP2P => { s with ice := s.ice.abandonNegotiation }
  | .iceTurn => { s with ice := s.ice.abandonNegotiation }
  | .none => s

def step : Action → Option Link
  | .iceOffer sessionID agentFails => some { s with ice := s.ice.onNewOffer sessionID agentFails }
  | .iceConnected agent =>
    if agent < s.ice.agents then
      some { s with ice := { s.ice with lastKnownState := .connected } }
    else none
  | .iceLost agent switchFails =>
    if agent < s.ice.agents then some (s.iceLost agent switchFails) else none
  | .iceDialFailed agent =>
    if agent < s.ice.agents then some { s with ice := (s.ice.closeAgent agent).2 } else none
  | .iceCommit agent turn =>
    if s.ice.agent = some agent then
      some { s with
        ice := { s.ice with agentConnecting := false }
        iceReady := s.iceReady ++ [if turn then .iceTurn else .iceP2P] }
    else none
  | .iceDeliver k info => s.iceReady[k]?.map fun priority =>
      { s with
        conn := s.conn.onICEConnectionIsReady priority info
        iceReady := s.iceReady.eraseIdx k }
  | .relayOpen rci =>
    let s := s.addListener rci.client .self
    some { s with relayReady := s.relayReady ++ [rci] }
  | .relayDeliver k newProxyFails configureFails => s.relayReady[k]?.map fun rci =>
      { s with
        conn := s.conn.onRelayConnectionIsReady rci newProxyFails configureFails
        relayReady := s.relayReady.eraseIdx k }
  | .otherListens client => some (s.addListener client .other)
  | .clientDisconnected client => some (s.clientDisconnected client)
  | .clientRetired client => some (s.dropListeners client)
  | .proxyDisconnected id => some (s.proxyDisconnected id)
  | .wgTimeout => some s.wgTimeout
  | .wgHandshake => some { s with conn := s.conn.closeRetiredRelayProxiesLocked }
  | .retiredExpired id => some { s with conn := s.conn.expireRetiredRelayProxy id }

/-! ### What a step does to the connection -/

/-- The handlers of the connection that a step may call, and their arguments. -/
inductive Does (s : Link) : Action → Conn → Prop
  | nothing (a : Action) : Does s a s.conn
  | iceReady {priority : ConnPriority} (k : Nat) (info : ICEConnInfo) (h : priority ∈ s.iceReady) :
    Does s (.iceDeliver k info) (s.conn.onICEConnectionIsReady priority info)
  | iceDisconnected (agent : Nat) (switchFails : Bool) (h : s.ice.lastKnownState = .connected) :
    Does s (.iceLost agent switchFails)
      (s.conn.onICEStateDisconnected s.ice.remoteSessionChanged switchFails)
  | relayReady (a : Action) (rci : RelayConnInfo) (newProxyFails configureFails : Bool) :
    Does s a (s.conn.onRelayConnectionIsReady rci newProxyFails configureFails)
  | relayDisconnected (a : Action) : Does s a s.conn.handleRelayDisconnectedLocked
  | proxyClosed (a : Action) (id : Nat) :
    Does s a (s.conn.handleRelayDisconnectedLocked.closeProxy id)
  | handshake (a : Action) : Does s a s.conn.closeRetiredRelayProxiesLocked
  | expired (a : Action) (id : Nat) : Does s a (s.conn.expireRetiredRelayProxy id)

theorem addListener_eq (owner : ListenerOwner) : (s.addListener client owner).conn = s.conn ∧
    (s.addListener client owner).iceReady = s.iceReady := by
  unfold addListener
  split <;> exact ⟨rfl, rfl⟩

/-- A step calls at most one handler, and only paths over ICE wait to be handed over. -/
theorem step_spec {s s' : Link} {a : Action} (hs : s.step a = some s') :
    s.Does a s'.conn ∧ s'.iceReady ⊆ s.iceReady ++ [.iceTurn, .iceP2P] := by
  have hsub : s.iceReady ⊆ s.iceReady ++ [.iceTurn, .iceP2P] := List.subset_append_left _ _
  cases a with
  | iceLost agent switchFails =>
    simp only [step, ite_none_right_eq_some, some.injEq] at hs
    obtain ⟨-, rfl⟩ := hs
    unfold iceLost
    dsimp only
    split
    · rename_i hk
      exact ⟨.iceDisconnected agent switchFails
        ((WorkerICE.lastKnownState_closeAgent s.ice agent).symm.trans hk), hsub⟩
    · exact ⟨.nothing _, hsub⟩
  | iceCommit agent turn =>
    simp only [step, ite_none_right_eq_some, some.injEq] at hs
    obtain ⟨-, rfl⟩ := hs
    exact ⟨.nothing _, by cases turn <;> simp⟩
  | iceDeliver k info =>
    obtain ⟨priority, hk, rfl⟩ := map_eq_some_iff.1 hs
    exact ⟨.iceReady k info (List.mem_of_getElem? hk),
      fun _ hp => hsub (List.mem_of_mem_eraseIdx hp)⟩
  | relayDeliver k newProxyFails configureFails =>
    obtain ⟨rci, -, rfl⟩ := map_eq_some_iff.1 hs
    exact ⟨.relayReady _ _ _ _, hsub⟩
  | clientDisconnected client =>
    cases hs
    unfold clientDisconnected
    split
    · exact ⟨.relayDisconnected _, hsub⟩
    · exact ⟨.nothing _, hsub⟩
  | proxyDisconnected id =>
    cases hs
    unfold proxyDisconnected
    split
    · exact ⟨.proxyClosed _ id, hsub⟩
    · exact ⟨.nothing _, hsub⟩
  | wgTimeout =>
    cases hs
    unfold wgTimeout
    split
    · exact ⟨.relayDisconnected _, hsub⟩
    all_goals exact ⟨.nothing _, hsub⟩
  | relayOpen rci =>
    cases hs
    obtain ⟨hc, hr⟩ := s.addListener_eq rci.client .self
    exact ⟨hc.symm ▸ .nothing _, hr.symm ▸ hsub⟩
  | otherListens client =>
    cases hs
    obtain ⟨hc, hr⟩ := s.addListener_eq client .other
    exact ⟨hc.symm ▸ .nothing _, hr.symm ▸ hsub⟩
  | iceConnected agent =>
    obtain ⟨-, rfl⟩ := by simpa [step] using hs
    exact ⟨.nothing _, hsub⟩
  | iceDialFailed agent =>
    obtain ⟨-, rfl⟩ := by simpa [step] using hs
    exact ⟨.nothing _, hsub⟩
  | iceOffer sessionID agentFails => cases hs; exact ⟨.nothing _, hsub⟩
  | clientRetired client => cases hs; exact ⟨.nothing _, hsub⟩
  | wgHandshake => cases hs; exact ⟨.handshake _, hsub⟩
  | retiredExpired id => cases hs; exact ⟨.expired _ id, hsub⟩

/-! ### Losing ICE -/

/-- A relay path that is there is the active one, and WireGuard has an endpoint. -/
def RelayKept (c : Conn) : Prop :=
  c.wgProxyRelay.isSome → c.currentConnPriority = .relay ∧ c.endpointRemoved = false

/-- The action is a loss of ICE that is handed to the connection. -/
def Loses (s : Link) : Action → Prop
  | .iceLost _ _ => s.ice.lastKnownState = .connected
  | _ => False

/-- A relay path that is there does not carry the traffic yet; and if the controlling side has removed
the endpoint because of a new session, WireGuard takes that of the relay. -/
def Spares (s : Link) : Action → Prop
  | .iceLost _ switchFails => s.conn.wgProxyRelay.isSome → s.conn.currentConnPriority ≠ .relay ∧
      ¬(switchFails ∧ s.ice.remoteSessionChanged ∧ s.conn.controller)
  | _ => True

/-- The connection is settled, and the paths that ICE has opened are paths over ICE. -/
structure Settled (s : Link) : Prop where
  conn : s.conn.Settled
  ready : s.iceReady ⊆ [.iceTurn, .iceP2P]

theorem Settled.step {s s' : Link} {a : Action} (h : s.Settled) (hs : s.step a = some s')
    (ha : s.Loses a → s.Spares a) : s'.Settled := by
  obtain ⟨hd, hr⟩ := step_spec hs
  refine ⟨?_, fun p hp => (List.mem_append.1 (hr hp)).elim (h.ready ·) fun hp => hp⟩
  generalize s'.conn = c at hd
  cases hd with
  | nothing => exact h.conn
  | iceReady k info hp => exact h.conn.onICEConnectionIsReady (by simpa using h.ready hp) info
  | iceDisconnected agent switchFails hk =>
    exact .onICEStateDisconnected (fun hr => (ha hk hr).1) _ _
  | relayReady rci nf cf => exact h.conn.onRelayConnectionIsReady _ _ _
  | relayDisconnected => exact h.conn.handleRelayDisconnectedLocked
  | proxyClosed id => exact h.conn.handleRelayDisconnectedLocked.congr rfl rfl rfl
  | handshake =>
    obtain ⟨l, -, he⟩ := s.conn.closeRetired_eq
    exact he ▸ h.conn.congr rfl rfl rfl
  | expired id => exact h.conn.expireRetiredRelayProxy _

theorem relayKept_iff_spares {s s' : Link} {a : Action} (h : s.Settled) (hs : s.step a = some s')
    (ha : s.Loses a) : RelayKept s'.conn ↔ s.Spares a := by
  obtain ⟨agent, switchFails, rfl⟩ : ∃ agent switchFails, a = .iceLost agent switchFails := by
    cases a <;> first | exact ⟨_, _, rfl⟩ | cases ha
  simp only [Link.step, ite_none_right_eq_some, some.injEq] at hs
  obtain ⟨-, rfl⟩ := hs
  have hk : (s.ice.closeAgent agent).2.lastKnownState = .connected :=
    (WorkerICE.lastKnownState_closeAgent s.ice agent).trans ha
  have hc : (s.iceLost agent switchFails).conn =
      s.conn.onICEStateDisconnected s.ice.remoteSessionChanged switchFails := by
    simp only [iceLost, if_pos hk]
    rfl
  rw [hc]
  unfold RelayKept Spares Conn.onICEStateDisconnected
  cases hr : s.conn.wgProxyRelay.isSome with
  | false => simp [Conn.isReadyToUpgrade, hr]
  | true =>
    by_cases hp : s.conn.currentConnPriority = .relay
    · simp [Conn.isReadyToUpgrade, hr, hp]
    · have he : s.conn.endpointRemoved = false := by
        refine h.conn.endpoint ?_
        have hn := h.conn.active hr
        cases hq : s.conn.currentConnPriority <;> simp_all
      simp [Conn.isReadyToUpgrade, hr, hp, he]

/-- What the connection says about its relay path. -/
def view (s : Link) : Option RelayProxy × String × WorkerStatus × ConnPriority :=
  (s.conn.wgProxyRelay, s.conn.activeRelayAddress, s.conn.statusRelay, s.conn.currentConnPriority)

theorem OneListener.step {s s' : Link} {a : Action} (h : s.conn.OneListener)
    (hs : s.step a = some s') : s'.conn.OneListener := by
  have hd := (step_spec hs).1
  generalize s'.conn = c at hd
  cases hd with
  | nothing => exact h
  | iceReady k info hp => exact h.onICEConnectionIsReady _ info
  | iceDisconnected agent switchFails hk => exact h.onICEStateDisconnected _ _
  | relayReady rci nf cf => exact h.onRelayConnectionIsReady _ _ _
  | relayDisconnected => exact h.handleRelayDisconnectedLocked
  | proxyClosed id => exact h.handleRelayDisconnectedLocked.closeProxy _
  | handshake => exact h.closeRetiredRelayProxiesLocked
  | expired id => exact h.expireRetiredRelayProxy _

theorem oneListener_of_reaches {controller : Bool} {s : Link}
    (h : Reaches step (fun _ _ => True) { conn := { controller } } s) : s.conn.OneListener :=
  h.invariant (p := fun s => s.conn.OneListener) (fun _ hid => nomatch hid)
    fun _ _ _ hi _ hs => OneListener.step hi hs

theorem view_clientDisconnected {s : Link} {b : RelayProxy} (hb : s.conn.wgProxyRelay = some b)
    (client : Nat) : (s.clientDisconnected client).view = s.view ↔ ¬ s.Registered client := by
  unfold clientDisconnected
  split
  · rename_i hr
    have hne : (view { s.dropListeners client with
        conn := s.conn.handleRelayDisconnectedLocked }).1 ≠ s.view.1 := by
      change s.conn.handleRelayDisconnectedLocked.wgProxyRelay ≠ s.conn.wgProxyRelay
      rw [(Conn.relayDisconnected_spec _).1, hb]
      exact nofun
    exact iff_of_false (fun h => hne (congrArg Prod.fst h)) (not_not_intro hr)
  · rename_i hr
    exact iff_of_true rfl hr

/-- A relay path that the connection has replaced by one over another relay client can go, its
client first or its proxy first, and the current path stays as it is, exactly when the listener of
this peer is not registered for the client of the old path any more. -/
theorem superseded_iff {controller : Bool} {s : Link}
    (h : Reaches step (fun _ _ => True) { conn := { controller } } s) {a b : RelayProxy}
    (hb : s.conn.wgProxyRelay = some b) (hid : a.id ≠ b.id) :
    ((s.clientDisconnected a.client).view = s.view ∧ (s.proxyDisconnected a.id).view = s.view) ↔
      ¬ s.Registered a.client := by
  have hpr : s.proxyDisconnected a.id = s := by
    refine if_neg fun hm => ?_
    obtain ⟨p, hp, hpd⟩ := oneListener_of_reaches h a.id hm
    rw [hb] at hp
    cases hp
    exact hid hpd.symm
  rw [hpr, view_clientDisconnected hb]
  exact and_iff_left rfl

/-- The connection moves from client 0 to client 1, and the manager closes client 0, which it has
replaced. -/
theorem superseded_iff_retired : ∃ s : Link, s.conn.wgProxyRelay = some ⟨1, 1⟩ ∧
    ¬ s.Registered 0 ∧ (((s.clientDisconnected 0).view = s.view ∧
      (s.proxyDisconnected 0).view = s.view) ↔ ¬ s.Registered 0) := by
  have hr : ∃ s, Reaches step (fun _ _ => True) ({} : Link) s ∧
      s.conn.wgProxyRelay = some ⟨1, 1⟩ ∧ ¬ s.Registered 0 := by
    refine exists_reaches [.relayOpen ⟨0, "rels://a"⟩, .relayDeliver 0 false false,
      .relayOpen ⟨1, "rels://b"⟩, .relayDeliver 0 false false, .clientRetired 0] ?_
    decide +kernel
  obtain ⟨s, hs, hb, hrg⟩ := hr
  exact ⟨s, hb, hrg, superseded_iff (a := ⟨0, 0⟩) hs hb (by decide)⟩

/-- The connection moves from client 0 to client 1, and client 0 loses its connection: the path over
client 1 is torn down. -/
theorem current_path_torn_down : ∃ s, Reaches step (fun _ _ => True) ({} : Link) s ∧
    s.view = (some ⟨1, 1⟩, "rels://b", .connected, .relay) ∧
    (s.clientDisconnected 0).view = (none, "", .disconnected, .none) := by
  refine exists_reaches [.relayOpen ⟨0, "rels://a"⟩, .relayDeliver 0 false false,
    .relayOpen ⟨1, "rels://b"⟩, .relayDeliver 0 false false] ?_
  decide +kernel

end Link

end Cloink.Peer
