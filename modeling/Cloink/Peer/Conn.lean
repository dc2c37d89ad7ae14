import Mathlib.Data.List.Basic

/-!
# The connection to a peer

A connection (`client/internal/peer/conn.go`) has up to two paths to its peer: a direct one that ICE
finds, and one over a relay. The one with the higher priority carries the traffic of WireGuard. Two
workers open the paths and report what becomes of them under the lock of the connection. Every
operation on WireGuard that may fail is given with its report. Left out are what the proxies do with
packets, the watcher of handshakes, keys, status and metrics.
-/

namespace Cloink.Peer

/-! ### The handlers of the connection -/

inductive ConnPriority where
  | none
  | relay
  | iceTurn
  | iceP2P
  deriving DecidableEq

def ConnPriority.level : ConnPriority → Nat
  | .none => 0
  | .relay => 1
  | .iceTurn => 2
  | .iceP2P => 3

inductive WorkerStatus where
  | disconnected
  | connected
  deriving DecidableEq

/-- A proxy between WireGuard and a connection over the relay client `client`. -/
structure RelayProxy where
  id : Nat
  client : Nat
  deriving DecidableEq

/-- `listening` has the proxies with a disconnect listener, `proxies` counts those that were made,
and `endpointRemoved` says that the endpoint was removed from WireGuard and not set since. -/
structure Conn where
  controller : Bool := false
  statusRelay : WorkerStatus := .disconnected
  statusICE : WorkerStatus := .disconnected
  currentConnPriority : ConnPriority := .none
  activeRelayAddress : String := ""
  wgProxyICE : Option Nat := none
  wgProxyRelay : Option RelayProxy := none
  retiredRelayProxies : List RelayProxy := []
  listening : List Nat := []
  proxies : Nat := 0
  endpointRemoved : Bool := false
  deriving DecidableEq

/-- An ICE connection and what fails on the way to WireGuard. -/
structure ICEConnInfo where
  remoteConnNil : Bool := false
  relayedOnLocal : Bool := false
  newProxyFails : Bool := false
  resolveFails : Bool := false
  configureFails : Bool := false
  deriving DecidableEq

/-- A connection over a relay client. -/
structure RelayConnInfo where
  client : Nat
  relayAddress : String
  deriving DecidableEq

namespace Conn

variable (c : Conn)

def isReadyToUpgrade : Bool := c.wgProxyRelay.isSome && c.currentConnPriority ≠ .relay

def isICEActive : Bool :=
  (c.currentConnPriority = .iceP2P || c.currentConnPriority = .iceTurn) && c.statusICE = .connected

/-- Closing a proxy drops its listener. -/
def closeProxy (id : Nat) : Conn := { c with listening := c.listening.filter (· ≠ id) }

def onICEConnectionIsReady (priority : ConnPriority) (info : ICEConnInfo) : Conn :=
  if info.remoteConnNil then c
  else if c.currentConnPriority.level > priority.level then { c with statusICE := .connected }
  else if info.relayedOnLocal then
    if info.newProxyFails then c
    else
      let c := { c with wgProxyICE := some c.proxies, proxies := c.proxies + 1 }
      if info.configureFails then c
      else
        { c with
          currentConnPriority := priority
          statusICE := .connected
          endpointRemoved := false }
  else if info.resolveFails || info.configureFails then c
  else
    { c with
      currentConnPriority := priority
      statusICE := .connected
      endpointRemoved := false }

/-- `switchFails` says that WireGuard does not take the endpoint of the relay. -/
def onICEStateDisconnected (sessionChanged switchFails : Bool) : Conn :=
  let c := if c.isReadyToUpgrade then
      { c with
        currentConnPriority := .relay
        endpointRemoved := switchFails && (sessionChanged && c.controller || c.endpointRemoved) }
    else { c with currentConnPriority := .none, endpointRemoved := true }
  { c with statusICE := .disconnected }

/-- Puts a proxy in the place of the current one, which is closed or goes on without listener. -/
def setRelayedProxy (proxy : RelayProxy) (preserveOld : Bool) : Conn :=
  let c := match c.wgProxyRelay with
    | none => c
    | some retired =>
      let c := c.closeProxy retired.id
      if preserveOld then { c with retiredRelayProxies := c.retiredRelayProxies ++ [retired] } else c
  { c with wgProxyRelay := some proxy }

def onRelayConnectionIsReady (rci : RelayConnInfo) (newProxyFails configureFails : Bool) : Conn :=
  if newProxyFails then c
  else
    let proxy : RelayProxy := ⟨c.proxies, rci.client⟩
    let prevRelayAddress := c.activeRelayAddress
    let c := { c with
      proxies := c.proxies + 1
      listening := c.listening ++ [proxy.id]
      activeRelayAddress := rci.relayAddress }
    if c.isICEActive then { c.setRelayedProxy proxy false with statusRelay := .connected }
    else
      let migratingActiveRelay := c.wgProxyRelay.isSome && c.currentConnPriority = .relay
      if configureFails then
        { c.closeProxy proxy.id with activeRelayAddress := prevRelayAddress }
      else
        { c.setRelayedProxy proxy migratingActiveRelay with
          currentConnPriority := .relay
          statusRelay := .connected
          endpointRemoved := false }

def closeRetiredRelayProxiesLocked : Conn :=
  { c.retiredRelayProxies.foldl (fun c p => c.closeProxy p.id) c with retiredRelayProxies := [] }

def handleRelayDisconnectedLocked : Conn :=
  let c := if c.currentConnPriority = .relay then
      { c with currentConnPriority := .none, endpointRemoved := true }
    else c
  let c := { c with activeRelayAddress := "" }
  let c := match c.wgProxyRelay with
    | none => c
    | some proxy => { c.closeProxy proxy.id with wgProxyRelay := none }
  { c.closeRetiredRelayProxiesLocked with statusRelay := .disconnected }

/-- Closes one of the retired proxies (`expireRetiredRelayProxy`). -/
def expireRetiredRelayProxy (id : Nat) : Conn :=
  if c.retiredRelayProxies.any (·.id = id) then
    { c.closeProxy id with
      retiredRelayProxies := c.retiredRelayProxies.filter (·.id ≠ id) }
  else c

/-! ### Which proxies report -/

/-- Only the current relay proxy has a disconnect listener. -/
def OneListener : Prop := ∀ id ∈ c.listening, ∃ p, c.wgProxyRelay = some p ∧ p.id = id

variable {c}

theorem mem_listening_closeProxy {id k : Nat} :
    k ∈ (c.closeProxy id).listening ↔ k ∈ c.listening ∧ k ≠ id := by
  simp [closeProxy]

theorem OneListener.closeProxy (h : c.OneListener) (id : Nat) : (c.closeProxy id).OneListener :=
  fun k hk => h k (mem_listening_closeProxy.1 hk).1

theorem OneListener.congr {c' : Conn} (h : c.OneListener) (hl : c'.listening = c.listening)
    (hp : c'.wgProxyRelay = c.wgProxyRelay) : c'.OneListener := by
  intro id hid
  rw [hp]
  exact h id (hl ▸ hid)

variable (c) in
/-- Closing the retired proxies takes their listeners away and nothing else. -/
theorem closeRetired_eq : ∃ l ⊆ c.listening,
    c.closeRetiredRelayProxiesLocked = { c with listening := l, retiredRelayProxies := [] } := by
  have hf : ∀ (l : List RelayProxy) (c : Conn), ∃ k ⊆ c.listening,
      l.foldl (fun c p => c.closeProxy p.id) c = { c with listening := k } := by
    intro l
    induction l with
    | nil => exact fun c => ⟨c.listening, List.Subset.refl _, rfl⟩
    | cons p l ih =>
      intro c
      obtain ⟨k, hk, he⟩ := ih (c.closeProxy p.id)
      exact ⟨k, fun id hid => (mem_listening_closeProxy.1 (hk hid)).1, he⟩
  obtain ⟨k, hk, he⟩ := hf c.retiredRelayProxies c
  exact ⟨k, hk, by rw [closeRetiredRelayProxiesLocked, he]⟩

/-- A new proxy takes the place of the listening one. -/
theorem OneListener.setRelayedProxy {proxy : RelayProxy} {keep : Bool}
    (h : ∀ id ∈ c.listening, id = proxy.id ∨ ∃ p, c.wgProxyRelay = some p ∧ p.id = id) :
    (c.setRelayedProxy proxy keep).OneListener := by
  intro id hid
  refine ⟨proxy, rfl, ?_⟩
  cases ho : c.wgProxyRelay with
  | none =>
    have hm : id ∈ c.listening := by simpa [Conn.setRelayedProxy, ho] using hid
    rcases h id hm with rfl | ⟨p, hp, _⟩
    · rfl
    · rw [ho] at hp
      cases hp
  | some retired =>
    have hm : id ∈ (c.closeProxy retired.id).listening := by
      cases keep <;> simpa [Conn.setRelayedProxy, ho] using hid
    obtain ⟨hm, hne⟩ := mem_listening_closeProxy.1 hm
    rcases h id hm with rfl | ⟨p, hp, rfl⟩
    · rfl
    · rw [ho] at hp
      exact absurd (by rw [Option.some.inj hp]) hne

variable (h : c.OneListener)

include h

theorem OneListener.onICEConnectionIsReady (priority : ConnPriority)
    (info : ICEConnInfo) : (c.onICEConnectionIsReady priority info).OneListener := by
  unfold Conn.onICEConnectionIsReady
  split_ifs <;> exact h.congr rfl rfl

/-- The loss of ICE keeps one listening proxy. -/
theorem OneListener.onICEStateDisconnected (ch sf : Bool) :
    (c.onICEStateDisconnected ch sf).OneListener := by
  unfold Conn.onICEStateDisconnected
  split_ifs <;> exact h.congr rfl rfl

/-- So does a new relay connection. -/
theorem OneListener.onRelayConnectionIsReady (rci : RelayConnInfo)
    (newProxyFails configureFails : Bool) :
    (c.onRelayConnectionIsReady rci newProxyFails configureFails).OneListener := by
  have hn : ∀ id ∈ c.listening ++ [c.proxies],
      id = c.proxies ∨ ∃ p, c.wgProxyRelay = some p ∧ p.id = id := by
    intro id hid
    rcases List.mem_append.1 hid with hid | hid
    · exact .inr (h id hid)
    · exact .inl (List.mem_singleton.1 hid)
  unfold Conn.onRelayConnectionIsReady
  split
  · exact h
  · dsimp only
    split
    · exact (setRelayedProxy hn).congr rfl rfl
    · split
      · -- the proxy that was not taken is closed again
        intro id hid
        obtain ⟨hid, hne⟩ := mem_listening_closeProxy.1 hid
        exact (hn id hid).resolve_left hne
      · exact (setRelayedProxy hn).congr rfl rfl

theorem OneListener.closeRetiredRelayProxiesLocked :
    c.closeRetiredRelayProxiesLocked.OneListener := by
  obtain ⟨l, hl, he⟩ := closeRetired_eq c
  rw [he]
  exact fun id hid => h id (hl hid)

theorem OneListener.handleRelayDisconnectedLocked :
    c.handleRelayDisconnectedLocked.OneListener := by
  have hpri : ∀ c' : Conn, c'.OneListener → (match c'.wgProxyRelay with
        | none => c'
        | some proxy =>
          { c'.closeProxy proxy.id with wgProxyRelay := none }).OneListener := by
    intro c' h'
    split
    · exact h'
    · rename_i proxy hpr
      intro id hid
      obtain ⟨hid, hne⟩ := mem_listening_closeProxy.1 hid
      obtain ⟨p, hp, rfl⟩ := h' id hid
      rw [hpr] at hp
      exact absurd (by rw [Option.some.inj hp]) hne
  refine congr (closeRetiredRelayProxiesLocked (hpri _ ?_)) rfl rfl
  split <;> exact h.congr rfl rfl

theorem OneListener.expireRetiredRelayProxy (id : Nat) :
    (c.expireRetiredRelayProxy id).OneListener := by
  unfold Conn.expireRetiredRelayProxy
  split
  · exact (h.closeProxy id).congr rfl rfl
  · exact h

omit h

variable (c) in
/-- After the loss of the relay there is no relay path, and a path over ICE is as it was. -/
theorem relayDisconnected_spec : c.handleRelayDisconnectedLocked.wgProxyRelay = none ∧
    (c.handleRelayDisconnectedLocked.currentConnPriority = .none ∨
      c.handleRelayDisconnectedLocked.currentConnPriority = c.currentConnPriority ∧
        c.handleRelayDisconnectedLocked.endpointRemoved = c.endpointRemoved) := by
  unfold handleRelayDisconnectedLocked
  extract_lets c₁ c₂ c₃ c₄
  obtain ⟨l, -, he⟩ : ∃ l ⊆ c₃.listening, c₄ = { c₃ with listening := l, retiredRelayProxies := [] } :=
    closeRetired_eq c₃
  have h₃ : c₃.wgProxyRelay = none ∧ c₃.currentConnPriority = c₁.currentConnPriority ∧
      c₃.endpointRemoved = c₁.endpointRemoved := by
    cases hp : c₁.wgProxyRelay <;> simp [c₃, c₂, hp, closeProxy]
  rw [he]
  refine ⟨h₃.1, ?_⟩
  dsimp only
  rw [h₃.2.1, h₃.2.2]
  by_cases hr : c.currentConnPriority = .relay <;> simp [c₁, hr]

/-! ### Which path is active -/

/-- A relay path is only there together with an active path, and WireGuard has an endpoint while ICE
is the active one. -/
structure Settled (c : Conn) : Prop where
  active : c.wgProxyRelay.isSome → c.currentConnPriority ≠ .none
  endpoint : c.currentConnPriority = .iceTurn ∨ c.currentConnPriority = .iceP2P →
    c.endpointRemoved = false

theorem Settled.congr {c' : Conn} (h : c.Settled) (hr : c'.wgProxyRelay = c.wgProxyRelay)
    (hp : c'.currentConnPriority = c.currentConnPriority)
    (he : c'.endpointRemoved = c.endpointRemoved) : c'.Settled :=
  ⟨by rw [hr, hp]; exact h.active, by rw [hp, he]; exact h.endpoint⟩

theorem Settled.onICEConnectionIsReady (h : c.Settled) {priority : ConnPriority}
    (hp : priority = .iceTurn ∨ priority = .iceP2P) (info : ICEConnInfo) :
    (c.onICEConnectionIsReady priority info).Settled := by
  have hn : priority ≠ .none := by rcases hp with rfl | rfl <;> decide
  unfold Conn.onICEConnectionIsReady
  split_ifs <;> first | exact h.congr rfl rfl rfl | exact ⟨fun _ => hn, fun _ => rfl⟩

/-- A loss of ICE settles the connection unless the relay was active. -/
theorem Settled.onICEStateDisconnected (hn : c.wgProxyRelay.isSome → c.currentConnPriority ≠ .relay)
    (ch sf : Bool) : (c.onICEStateDisconnected ch sf).Settled := by
  unfold Conn.onICEStateDisconnected
  by_cases hr : c.isReadyToUpgrade
  · exact ⟨by simp [hr], by simp [hr]⟩
  · have ha : c.wgProxyRelay.isSome = false := by
      by_contra hs
      rw [Bool.not_eq_false] at hs
      exact hr (by simp [isReadyToUpgrade, hs, hn hs])
    rw [if_neg hr]
    exact ⟨by simp [ha], by simp⟩

/-- A new relay connection keeps it settled. -/
theorem Settled.onRelayConnectionIsReady (h : c.Settled) (rci : RelayConnInfo)
    (newProxyFails configureFails : Bool) :
    (c.onRelayConnectionIsReady rci newProxyFails configureFails).Settled := by
  have hs (c : Conn) (proxy : RelayProxy) (keep : Bool) :
      (c.setRelayedProxy proxy keep).currentConnPriority = c.currentConnPriority ∧
        (c.setRelayedProxy proxy keep).endpointRemoved = c.endpointRemoved := by
    cases hw : c.wgProxyRelay <;> cases keep <;> simp [setRelayedProxy, hw, closeProxy]
  unfold Conn.onRelayConnectionIsReady
  split
  · exact h
  · dsimp only
    split
    · rename_i hi
      have hp : c.currentConnPriority = .iceP2P ∨ c.currentConnPriority = .iceTurn := by
        simpa [isICEActive] using (Bool.and_eq_true_iff.1 hi).1
      constructor
      · intro _
        rw [(hs _ _ _).1]
        rcases hp with hp | hp <;> simp [hp]
      · intro _
        rw [(hs _ _ _).2]
        exact h.endpoint hp.symm
    · split
      · exact h.congr rfl rfl rfl
      · exact ⟨by simp, by simp⟩

/-- So does the loss of the relay. -/
theorem Settled.handleRelayDisconnectedLocked (h : c.Settled) :
    c.handleRelayDisconnectedLocked.Settled := by
  obtain ⟨hr, hp⟩ := relayDisconnected_spec c
  refine ⟨by simp [hr], fun hi => ?_⟩
  rcases hp with hp | ⟨hp, he⟩
  · simp [hp] at hi
  · rw [he]
    exact h.endpoint (hp ▸ hi)

theorem Settled.expireRetiredRelayProxy (h : c.Settled) (id : Nat) :
    (c.expireRetiredRelayProxy id).Settled := by
  unfold Conn.expireRetiredRelayProxy
  split
  · exact h.congr rfl rfl rfl
  · exact h

end Conn

/-! ### The workers -/

/-- `remoteSessionChanged` says that an offer of a new session has replaced an agent, and
`agents` counts the agents that were made. -/
structure WorkerICE where
  agent : Option Nat := none
  agents : Nat := 0
  agentConnecting : Bool := false
  remoteSessionID : String := ""
  remoteSessionChanged : Bool := false
  lastKnownState : WorkerStatus := .disconnected
  deriving DecidableEq

namespace WorkerICE

variable (w : WorkerICE)

def abandonNegotiation : WorkerICE :=
  { w with agent := none, agentConnecting := false, remoteSessionID := "" }

/-- Makes an agent for an offer, unless there is one for the same session. -/
def onNewOffer (sessionID : Option String) (agentFails : Bool) : WorkerICE :=
  if (w.agent.isSome || w.agentConnecting) && (sessionID = none || sessionID = some w.remoteSessionID)
  then w
  else
    let w := if w.agent.isSome || w.agentConnecting then
      { w with remoteSessionChanged := true }.abandonNegotiation else w
    if agentFails then w
    else
      { w with
        agent := some w.agents
        agents := w.agents + 1
        agentConnecting := true
        remoteSessionID := sessionID.getD "" }

/-- Closes an agent; the state of the worker goes only with its current one. -/
def closeAgent (agent : Nat) : Bool × WorkerICE :=
  let sessionChanged := w.remoteSessionChanged
  let w := { w with remoteSessionChanged := false }
  (sessionChanged, if w.agent = some agent then w.abandonNegotiation else w)

theorem lastKnownState_closeAgent (agent : Nat) :
    (w.closeAgent agent).2.lastKnownState = w.lastKnownState := by
  unfold closeAgent
  dsimp only
  split <;> rfl

end WorkerICE

end Cloink.Peer
