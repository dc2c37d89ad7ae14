import Cloink.Lib.Interleaving
import Cloink.Lib.TaskPool
import Cloink.Relay.Priorities

/-!
# The relay manager of a client

The manager (`shared/relay/client/manager.go`) keeps the connection to the home relay, and those to
foreign relays that peers have as their home. The home relay is replaced by
`switchHomeRelayIfNeeded`, `probeTick`, `failbackTick` and `recoverRelayDataPlane`. The old home
stays as a foreign relay until its connections have gone (`retireHomeRelay`). When the home relay
disconnects, the guard (`shared/relay/client/guard.go`) tries to connect again.

All of these run as goroutines. A task of the model is what one of them has left to do, and its next
action is what it does under one lock, or without any. A client that has been dialled gets its
number when it is installed or dropped; whether its connection is still up by then is part of the
choices of an action, as are the results of dials and the time. Left out are the notifications of
peer connections, the names of forced relays, the cooldown of servers, and locks that only delay an
action.
-/

namespace Cloink.Relay

open TaskPool (Pool)

/-! ### The state -/

/-- A connection to a relay server. -/
structure Client where
  connectionURL : String
  /-- The address that the server goes by; set while the service is running. -/
  instanceURL : Option String := none
  /-- The read loop of the connection has not ended. -/
  reading : Bool := false
  onDisconnectListener : Bool := false
  hasConns : Bool := false

def Client.ready (c : Client) : Bool := c.instanceURL.isSome

/-- A foreign relay. Tracks have numbers while the dial goes on. -/
inductive Track where
  | dialing (track : ℕ)
  | failed (track : ℕ)
  | connected (client : ℕ)
  deriving DecidableEq

structure Manager where
  clients : ℕ → Client := fun _ => ⟨"", none, false, false, false⟩
  clientCount : ℕ := 0
  relayClient : Option ℕ := none
  relayClients : String → Option Track := fun _ => none
  trackCount : ℕ := 0
  config : Config
  picker : PickerConfig
  relayConfigGeneration : ℕ := 1
  switchMu : Bool := false
  /-- The channel on which the guard hands over a new client, by its URL. -/
  onNewRelayClient : Option String := none
  rttCache : RTTCache := ∅
  slowStreaks : StrMap ℕ := ∅
  healthyStreaks : StrMap ℕ := ∅
  ctxDone : Bool := false

/-- The operations that swap the home relay. A recovery may have closed it before, when there is no
other server. -/
inductive Op where
  | recovery (only : Bool)
  | priority
  | migration
  deriving DecidableEq

/-- The client that is to become the home relay: a foreign relay, or one that has been dialled. -/
inductive Candidate where
  | foreign (client : ℕ)
  | dialled (url : String)
  deriving DecidableEq

/-- What the environment decides for an action. -/
structure Choice where
  /-- The server that a dial ends with, none when it fails. -/
  server : Option String := none
  /-- The address that a server goes by. -/
  instanceURL : String := ""
  /-- The connection of a client that was dialled before is still up. -/
  up : Bool := true
  /-- A server is in its failure cooldown. -/
  cooling : Bool := false
  now : Int := 0

/-! ### Tasks -/

/-- The end of a change of the configuration, after the lock was released. -/
inductive Reconfigure where
  /-- The weights are read when the picker is told, if they are not given. -/
  | storeConfig (urls : List String) (weights : Option (StrMap Int)) (forcedURL : String)
    (changed : Bool)
  | bump (urls : List String) (changed : Bool)
  deriving DecidableEq

inductive SwitchHome where
  | lock (serverURLs : List String) (generation : ℕ)
  | home (serverURLs : List String) (generation : ℕ)
  | close (oldClient : ℕ)
  | candidates (oldClient : ℕ) (serverURLs : List String) (generation : ℕ)
  | foreign (oldClient : ℕ) (candidateURLs serverURLs : List String) (generation : ℕ)
  | dial (oldClient : ℕ) (candidateURLs serverURLs : List String) (generation : ℕ)
  | validate (oldClient : ℕ) (candidate : Candidate) (serverURLs : List String) (generation : ℕ)
  deriving DecidableEq

inductive Recover where
  | lock (relayAddress : String)
  | home (relayAddress : String)
  | load (home : ℕ)
  | plan (home : ℕ) (generation : ℕ)
  | dial (home : ℕ) (candidateURLs : List String) (generation : ℕ)
  | detach (home : ℕ) (generation : ℕ)
  | close (home : ℕ) (generation : ℕ)
  | dialOnly (home : ℕ) (generation : ℕ)
  | foreign (relayAddress : String)
  | closeForeign (client : ℕ)
  deriving DecidableEq

/-- `swapHomeRelay`, first without its lock and then with it. -/
inductive Swap where
  | check (op : Op) (oldClient : ℕ) (candidate : Candidate) (generation : ℕ)
  | install (op : Op) (oldClient : ℕ) (candidate : Candidate) (generation : ℕ)
  | listen (op : Op) (oldClient : ℕ) (client : ℕ)
  deriving DecidableEq

/-- The goroutine of `retireHomeRelay`, with `closeRetiredHomeRelay`. -/
inductive Retire where
  | wait (client : ℕ)
  | detach (client : ℕ)
  | close (client : ℕ)
  deriving DecidableEq

/-- The loop of `probeTick`, with `maybeMigrateOnRTT` and `migrateHomeRelayTo`. -/
inductive Probe where
  | loop
  | decide (group : List String)
  | migrate (targetURL : String)
  | load (home : ℕ) (targetURL : String)
  | dial (home : ℕ) (targetURL : String) (generation : ℕ)
  deriving DecidableEq

/-- The loop of `failbackTick`. -/
inductive Failback where
  | loop
  | home (weights : StrMap Int) (configuredURLs : List String)
  | load (serverURLs : List String)
  deriving DecidableEq

/-- An attempt of the guard to reconnect, `StartReconnectTrys`. -/
inductive Attempt where
  | quick (relayClient : Option ℕ)
  | connect (relayClient : ℕ)
  | valid (relayClient : ℕ)
  | ticker
  | drain (url : String)
  | send (url : String)
  deriving DecidableEq

/-- The loop of `listenGuardEvent`. -/
inductive GuardEvent where
  | loop
  | valid (url : String)
  | store (url : String)
  | listen (client : ℕ)
  deriving DecidableEq

/-- The end of a client's read loop. -/
inductive Disconnect where
  | exiting (client : ℕ)
  | notify (client : ℕ)
  | onServerDisconnected (client : ℕ)
  deriving DecidableEq

/-- `openConnVia`, and the end of `cleanUpUnusedRelays`. -/
inductive Foreign where
  | dial (serverAddress : String) (track : ℕ)
  | failed (serverAddress : String)
  | close (client : ℕ)
  deriving DecidableEq

inductive Task where
  | reconfigure (t : Reconfigure)
  | switchHome (t : SwitchHome)
  | recover (t : Recover)
  | swap (t : Swap)
  | retire (t : Retire)
  | probe (t : Probe)
  | failback (t : Failback)
  | attempt (t : Attempt)
  | guardEvent (t : GuardEvent)
  | disconnect (t : Disconnect)
  | foreign (t : Foreign)
  deriving DecidableEq

/-! ### Small operations -/

namespace Manager

variable (s : Manager)

def url (c : ℕ) : String := (s.clients c).connectionURL

def ready (c : ℕ) : Bool := (s.clients c).ready

def currentRelayURL : String := (s.relayClient.map s.url).getD ""

def setClient (c : ℕ) (client : Client) : Manager :=
  { s with clients := Function.update s.clients c client }

/-- `SetOnDisconnectListener`, with the handler of the manager or with nil. -/
def setListener (c : ℕ) (on : Bool) : Manager :=
  s.setClient c { s.clients c with onDisconnectListener := on }

/-- `Close` of a client. The read loop ends when the connection is closed. -/
def close (c : ℕ) : Manager × List Task :=
  if s.ready c then
    (s.setClient c { s.clients c with instanceURL := none, reading := false, hasConns := false },
      if (s.clients c).reading then [.disconnect (.exiting c)] else [])
  else (s, [])

/-- `Connect` of a client that exists. -/
def connect (c : ℕ) (instanceURL : String) : Manager :=
  if s.ready c then s
  else s.setClient c { s.clients c with instanceURL := some instanceURL, reading := true }

/-- Gives a number to a client that was dialled. -/
def enroll (url : String) (listener : Bool) (ch : Choice) : Manager :=
  { s.setClient s.clientCount
      { connectionURL := url
        instanceURL := if ch.up then some ch.instanceURL else none
        reading := ch.up
        onDisconnectListener := listener } with
    clientCount := s.clientCount + 1 }

def unlock : Manager := { s with switchMu := false }

def evictForeignRelayClient (serverAddress : String) (client : ℕ) : Manager :=
  if s.relayClients serverAddress = some (.connected client) then
    { s with relayClients := Function.update s.relayClients serverAddress none }
  else s

def candidateURL : Candidate → String
  | .foreign client => s.url client
  | .dialled url => url

def candidateReady (ch : Choice) : Candidate → Bool
  | .foreign client => s.ready client
  | .dialled _ => ch.up

/-- What there is in the way of foreign relays among the candidates: the first that is connected,
unless a dial is under way before it. -/
inductive ForeignCandidate where
  | found (client : ℕ)
  | dialing
  | absent

def foreignRelayCandidate : List String → ForeignCandidate
  | [] => .absent
  | relayURL :: candidateURLs =>
    match s.relayClients relayURL with
    | none => foreignRelayCandidate candidateURLs
    | some (.dialing _) => .dialing
    | some (.failed _) => foreignRelayCandidate candidateURLs
    | some (.connected client) =>
      if s.ready client then .found client else foreignRelayCandidate candidateURLs

end Manager

/-! ### Actions -/

section

variable (s : Manager) (ch : Choice)

def Reconfigure.act : Reconfigure → Option (Manager × List Task)
  | .storeConfig urls weights forcedURL changed =>
    some ({ s with picker := ⟨urls, weights.getD s.config.relayWeights, forcedURL⟩ },
      [.reconfigure (.bump urls changed)])
  | .bump urls changed =>
    let generation := if changed then s.relayConfigGeneration + 1 else s.relayConfigGeneration
    some ({ s with relayConfigGeneration := generation }, [.switchHome (.lock urls generation)])

def SwitchHome.act : SwitchHome → Option (Manager × List Task)
  | .lock serverURLs generation =>
    if s.switchMu then none
    else if generation ≠ s.relayConfigGeneration then some (s, [])
    else some ({ s with switchMu := true }, [.switchHome (.home serverURLs generation)])
  | .home serverURLs generation =>
    match s.relayClient with
    | none => some (s.unlock, [])
    | some oldClient =>
      if serverURLs = [] then
        some ({ s.setListener oldClient false with relayClient := none },
          [.switchHome (.close oldClient)])
      else if s.config.stillHighestPriority (s.url oldClient) serverURLs then some (s.unlock, [])
      else some (s, [.switchHome (.candidates oldClient serverURLs generation)])
  | .close oldClient => some ((s.close oldClient).1.unlock, (s.close oldClient).2)
  | .candidates oldClient serverURLs generation =>
    let candidateURLs := s.config.migrationCandidateURLs s.picker (s.url oldClient) serverURLs
    if candidateURLs = [] then some (s.unlock, [])
    else some (s, [.switchHome (.foreign oldClient candidateURLs serverURLs generation)])
  | .foreign oldClient candidateURLs serverURLs generation =>
    match s.foreignRelayCandidate candidateURLs with
    | .found client =>
      some (s, [.switchHome (.validate oldClient (.foreign client) serverURLs generation)])
    | .dialing => some (s.unlock, [])
    | .absent => some (s, [.switchHome (.dial oldClient candidateURLs serverURLs generation)])
  | .dial oldClient candidateURLs serverURLs generation =>
    match ch.server with
    | none => some (s.unlock, [])
    | some url =>
      if url ∈ candidateURLs then
        some (s, [.switchHome (.validate oldClient (.dialled url) serverURLs generation)])
      else none
  | .validate oldClient candidate serverURLs generation =>
    if s.config.isValidPriorityMigration (s.url oldClient) (s.candidateURL candidate)
        serverURLs then
      some (s, [.swap (.check .priority oldClient candidate generation)])
    else some (s.unlock, [])

def Recover.act : Recover → Option (Manager × List Task)
  | .lock relayAddress =>
    if s.switchMu then none
    else if s.ctxDone then some (s, [])
    else some ({ s with switchMu := true }, [.recover (.home relayAddress)])
  | .home relayAddress =>
    match s.relayClient with
    | none => some (s, [.recover (.foreign relayAddress)])
    | some homeClient =>
      if relayAddress = s.url homeClient ∨ (s.clients homeClient).instanceURL = some relayAddress then
        some (s, [.recover (.load homeClient)])
      else some (s, [.recover (.foreign relayAddress)])
  | .load homeClient => some (s, [.recover (.plan homeClient s.relayConfigGeneration)])
  | .plan homeClient generation =>
    let candidateURLs := s.config.recoveryCandidateURLs (s.url homeClient)
    if candidateURLs = [] then some (s, [.recover (.detach homeClient generation)])
    else some (s, [.recover (.dial homeClient candidateURLs generation)])
  | .dial homeClient candidateURLs generation =>
    match ch.server with
    | none => some (s.unlock, [])
    | some url =>
      if url ∈ candidateURLs then
        some (s, [.swap (.check (.recovery false) homeClient (.dialled url) generation)])
      else none
  | .detach homeClient generation =>
    some (s.setListener homeClient false, [.recover (.close homeClient generation)])
  | .close homeClient generation =>
    some ((s.close homeClient).1, .recover (.dialOnly homeClient generation) :: (s.close homeClient).2)
  | .dialOnly homeClient generation =>
    match ch.server with
    | none => some (s.unlock, [.attempt (.quick (some homeClient))])
    | some url =>
      if url ∈ s.picker.serverURLs then
        some (s, [.swap (.check (.recovery true) homeClient (.dialled url) generation)])
      else none
  | .foreign relayAddress =>
    match s.relayClients relayAddress with
    | some (.connected client) => some (s, [.recover (.closeForeign client)])
    | _ => some (s.unlock, [])
  | .closeForeign client => some ((s.close client).1.unlock, (s.close client).2)

/-- An operation ends: it releases the lock, or the probe loop goes on. -/
def Op.finish : Op → Manager × List Task
  | .migration => (s, [.probe .loop])
  | _ => (s.unlock, [])

/-- The candidate becomes the home relay, and the old one a foreign relay. -/
def Manager.installHome (oldClient client : ℕ) : Manager :=
  let s' := s.evictForeignRelayClient (s.url client) client
  { s'.setListener oldClient true with
    relayClients :=
      Function.update s'.relayClients (s.url oldClient) (some (.connected oldClient))
    relayClient := some client }

def Swap.act : Swap → Option (Manager × List Task)
  | .check op oldClient candidate generation =>
    if s.candidateReady ch candidate && generation = s.relayConfigGeneration then
      some (s, [.swap (.install op oldClient candidate generation)])
    else some (op.finish s)
  | .install op oldClient candidate generation =>
    if !s.ctxDone && s.relayClient = some oldClient && generation = s.relayConfigGeneration then
      match candidate with
      | .foreign client => some (s.installHome oldClient client, [.swap (.listen op oldClient client)])
      | .dialled url =>
        some ((s.enroll url false ch).installHome oldClient s.clientCount,
          [.swap (.listen op oldClient s.clientCount)])
    else some (op.finish s)
  | .listen op oldClient client =>
    let r := op.finish (s.setListener client true)
    some (r.1, .retire (.wait oldClient) :: r.2)

/-- The goroutine waits until the client has no connections any more. -/
def Retire.act : Retire → Option (Manager × List Task)
  | .wait client =>
    if (s.clients client).hasConns && !s.ctxDone then none
    else some (s.evictForeignRelayClient (s.url client) client, [.retire (.detach client)])
  | .detach client => some (s.setListener client false, [.retire (.close client)])
  | .close client => some (s.close client)

def Probe.act : Probe → Option (Manager × List Task)
  | .loop =>
    if s.ctxDone then some (s, [])
    else if s.switchMu then some (s, [.probe .loop])
    else
      let group := topPriorityGroup s.config.relayWeights s.config.configuredRelayURLs
      if group.length < 2 then some ({ s with slowStreaks := ∅ }, [.probe .loop])
      else some (s, [.probe (.decide group)])
  | .decide group =>
    let r := migrateOnRTT s.rttCache ch.now s.currentRelayURL group s.slowStreaks
    some ({ s with slowStreaks := r.1 }, match r.2 with
      | none => [.probe .loop]
      | some targetURL => [.probe (.migrate targetURL)])
  | .migrate targetURL =>
    match s.relayClient with
    | none => some (s, [.probe .loop])
    | some home =>
      if s.ctxDone || s.url home = targetURL then some (s, [.probe .loop])
      else some (s, [.probe (.load home targetURL)])
  | .load home targetURL => some (s, [.probe (.dial home targetURL s.relayConfigGeneration)])
  | .dial home targetURL generation =>
    match ch.server with
    | none => some (s, [.probe .loop])
    | some url =>
      if url = targetURL then
        some (s, [.swap (.check .migration home (.dialled targetURL) generation)])
      else none

def relayFailbackStableChecks : ℕ := 2

def Failback.act : Failback → Option (Manager × List Task)
  | .loop =>
    if s.ctxDone then some (s, [])
    else if s.config.forcedRelayURL ≠ "" then
      some ({ s with healthyStreaks := ∅ }, [.failback .loop])
    else some (s, [.failback (.home s.config.relayWeights s.config.configuredRelayURLs)])
  | .home weights configuredURLs =>
    let homeURL := s.currentRelayURL
    let target := highestWeightRelay weights configuredURLs
    if homeURL = "" ∨ target.1 = "" ∨ target.1 = homeURL ∨
        target.2 ≤ relayWeightOrDefault weights homeURL then
      some ({ s with healthyStreaks := ∅ }, [.failback .loop])
    else if ch.cooling then some ({ s with healthyStreaks := ∅ }, [.failback .loop])
    else
      -- the streaks of all other servers are dropped
      let streak := (s.healthyStreaks.lookup target.1).getD 0 + 1
      if streak < relayFailbackStableChecks then
        some ({ s with healthyStreaks := AList.insert target.1 streak ∅ }, [.failback .loop])
      else
        some ({ s with healthyStreaks := ∅ },
          [.failback (.load (sortRelayURLsByWeight weights configuredURLs))])
  | .load serverURLs =>
    some (s, [.failback .loop, .switchHome (.lock serverURLs s.relayConfigGeneration)])

def Attempt.act : Attempt → Option (Manager × List Task)
  | .quick none => some (s, [.attempt .ticker])
  | .quick (some relayClient) =>
    if s.url relayClient ∈ s.picker.serverURLs then some (s, [.attempt (.connect relayClient)])
    else some (s, [.attempt .ticker])
  | .connect relayClient =>
    match ch.server with
    | none => some (s, [.attempt .ticker])
    | some _ => some (s.connect relayClient ch.instanceURL, [.attempt (.valid relayClient)])
  | .valid relayClient =>
    if s.url relayClient ∈ s.picker.serverURLs then some (s, [])
    else some ((s.close relayClient).1, .attempt .ticker :: (s.close relayClient).2)
  | .ticker =>
    if s.ctxDone then some (s, [])
    else
      match ch.server with
      | none => some (s, [.attempt .ticker])
      | some url => if url ∈ s.picker.serverURLs then some (s, [.attempt (.drain url)]) else none
  | .drain url =>
    -- a client that was waiting in the channel is dropped, and stays connected
    some (match s.onNewRelayClient with
      | none => s
      | some dropped => { s.enroll dropped false ch with onNewRelayClient := none },
      [.attempt (.send url)])
  | .send url =>
    if s.onNewRelayClient.isSome then none
    else some ({ s with onNewRelayClient := some url }, [])

def GuardEvent.act : GuardEvent → Option (Manager × List Task)
  | .loop =>
    match s.onNewRelayClient with
    | none => none
    | some url => some ({ s with onNewRelayClient := none }, [.guardEvent (.valid url)])
  | .valid url =>
    if url ∈ s.picker.serverURLs then some (s, [.guardEvent (.store url)])
    else some (s, [.guardEvent .loop])
  | .store url =>
    some ({ s.enroll url false ch with relayClient := some s.clientCount },
      [.guardEvent (.listen s.clientCount)])
  | .listen client => some (s.setListener client true, [.guardEvent .loop])

/-- A read loop that has ended closes the client, which may be connected anew by then. -/
def Disconnect.act : Disconnect → Option (Manager × List Task)
  | .exiting client => some ((s.close client).1, .disconnect (.notify client) :: (s.close client).2)
  | .notify client =>
    some (s, if (s.clients client).onDisconnectListener then
      [.disconnect (.onServerDisconnected client)] else [])
  | .onServerDisconnected client =>
    if s.relayClient = some client then some (s, [.attempt (.quick (some client))])
    else some (s.evictForeignRelayClient (s.url client) client, [])

def Foreign.act : Foreign → Option (Manager × List Task)
  | .dial serverAddress track =>
    match ch.server with
    | none =>
      some (if s.relayClients serverAddress = some (.dialing track) then
          { s with relayClients :=
            Function.update s.relayClients serverAddress (some (.failed track)) }
        else s, [.foreign (.failed serverAddress)])
    | some _ =>
      let s' := s.enroll serverAddress true ch
      some (if s.relayClients serverAddress = some (.dialing track) then
          { s' with relayClients :=
            Function.update s.relayClients serverAddress (some (.connected s.clientCount)) }
        else s', [])
  | .failed serverAddress =>
    some ({ s with relayClients := Function.update s.relayClients serverAddress none }, [])
  | .close client => some (s.close client)

end

/-- The next action of a goroutine, none while it has to wait. -/
def act (s : Manager) (ch : Choice) : Task → Option (Manager × List Task)
  | .reconfigure t => t.act s
  | .switchHome t => t.act s ch
  | .recover t => t.act s ch
  | .swap t => t.act s ch
  | .retire t => t.act s
  | .probe t => t.act s ch
  | .failback t => t.act s ch
  | .attempt t => t.act s ch
  | .guardEvent t => t.act s ch
  | .disconnect t => t.act s
  | .foreign t => t.act s ch

/-! ### Steps -/

inductive Action where
  | run (t : Task) (ch : Choice)
  /-- `ReportDataPlaneFailure`, when the failures add up. -/
  | reportDataPlaneFailure (relayAddress : String)
  | updateServerURLs (serverURLs : List String) (relayWeights : List (String × Int))
  /-- None clears the forced relay. -/
  | setForcedRelay (relayURL : Option String)
  /-- `openConnVia` for a server that is not known. -/
  | openConnVia (serverAddress : String)
  /-- Peer connections on a client are opened or closed. -/
  | peerConns (client : ℕ) (hasConns : Bool)
  /-- The connection of a client breaks. -/
  | drop (client : ℕ)
  /-- An unused foreign relay is cleaned up. -/
  | cleanUpUnusedRelay (serverAddress : String)
  | sample (relayURL : String) (rtt now : Int)
  | cancel

/-- What the environment does, with the tasks that it starts. -/
def environment (smooth : Int → Int → Int) (s : Manager) : Action → Option (Manager × List Task)
  | .run _ _ => none
  | .reportDataPlaneFailure relayAddress => some (s, [.recover (.lock relayAddress)])
  | .updateServerURLs serverURLs relayWeights =>
    let config := s.config.update serverURLs relayWeights
    some ({ s with config := config },
      [.reconfigure (.storeConfig config.effectiveRelayURLs (some config.relayWeights)
        config.forcedRelayURL (s.config.changed config))])
  | .setForcedRelay relayURL =>
    if ∀ url ∈ relayURL, url ∈ s.config.configuredRelayURLs then
      let config := { s.config with forcedRelayURL := relayURL.getD "" }
      some ({ s with config := config },
        [.reconfigure (.storeConfig config.effectiveRelayURLs none config.forcedRelayURL true)])
    else none
  | .openConnVia serverAddress =>
    if s.relayClients serverAddress = none then
      some ({ s with
          relayClients :=
            Function.update s.relayClients serverAddress (some (.dialing s.trackCount))
          trackCount := s.trackCount + 1 }, [.foreign (.dial serverAddress s.trackCount)])
    else none
  | .peerConns client hasConns =>
    if s.ready client then
      some (s.setClient client { s.clients client with hasConns := hasConns }, [])
    else none
  | .drop client =>
    if (s.clients client).reading then
      some (s.setClient client { s.clients client with reading := false },
        [.disconnect (.exiting client)])
    else none
  | .cleanUpUnusedRelay serverAddress =>
    match s.relayClients serverAddress with
    | some (.connected client) =>
      if (s.clients client).hasConns then none
      else
        some ({ s.setListener client false with
            relayClients := Function.update s.relayClients serverAddress none },
          [.foreign (.close client)])
    | _ => none
  | .sample relayURL rtt now =>
    some ({ s with rttCache := s.rttCache.set smooth now relayURL rtt }, [])
  | .cancel => some ({ s with ctxDone := true }, [])

def step (smooth : Int → Int → Int) (p : Pool Manager Task) : Action → Option (Pool Manager Task)
  | .run t ch => p.resume t (act p.shared ch t)
  | a => p.spawn (environment smooth p.shared a)

/-! ### The start -/

def newManager (serverURLs : List String) : Manager where
  config := ⟨serverURLs, relayWeightsFromURLs serverURLs, ""⟩
  picker := ⟨serverURLs, relayWeightsFromURLs serverURLs, ""⟩

/-- `Serve` stores the client that it has picked, or leaves it to the guard. -/
def serve (serverURLs : List String) (autoFailback : Bool) (picked : Option String) :
    Pool Manager Task where
  shared := newManager serverURLs
  tasks :=
    (match picked with
      | none => [.attempt (.quick none), .guardEvent .loop]
      | some url => [.guardEvent (.store url)]) ++
    (if autoFailback then [.failback .loop] else []) ++ [.probe .loop]

end Cloink.Relay
