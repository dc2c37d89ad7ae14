import Cloink.Lib.FinMap
import Cloink.Lib.NetipParse
import Mathlib.Data.Finset.Basic

/-!
# Lazy connections

The client opens the connection to a peer when there is traffic for it: the manager
(`client/internal/lazyconn/manager`) keeps a listener for each such peer. Peers that are not lazy by
policy are on an exclude list. The engine applies a network map to the peers (`reconcilePeers`) and
hands the new exclude list over afterwards (`conn_mgr.go`), unless it was applied last. Left out are
the events between two network maps and the status recorder. `Open` succeeds.
-/

namespace Cloink.LazyConn

open Netip AList List

/-! ### The manager -/

/-- What the manager knows about the connection to a peer. -/
structure PeerConfig where
  publicKey : String
  allowedIPs : List Prefix
  peerConnID : Nat
  deriving DecidableEq

inductive WatcherType where
  | activity
  | inactivity
  deriving DecidableEq

structure ManagedPeer where
  peerCfg : PeerConfig
  expectedWatcher : WatcherType

/-- `listeners` has the connections whose activity listener is armed. -/
structure Manager where
  managedPeers : StrMap PeerConfig := ∅
  managedPeersByConnID : AList (fun _ : Nat => ManagedPeer) := ∅
  excludes : StrMap PeerConfig := ∅
  listeners : Finset Nat := ∅
  haGroupToPeers : List (List String) := []

namespace Manager

variable (m : Manager)

/-- A group needs two peers. -/
def updateRouteHAMap (haMap : List (List String)) : Manager :=
  { m with haGroupToPeers := (haMap.map List.dedup).filter fun peers => 1 < peers.length }

def removePeer (peerID : String) : Manager :=
  match m.managedPeers.lookup peerID with
  | none => m
  | some cfg =>
    { m with
      managedPeers := m.managedPeers.erase peerID
      managedPeersByConnID := m.managedPeersByConnID.erase cfg.peerConnID
      listeners := m.listeners.erase cfg.peerConnID }

def addActivePeer (peerCfg : PeerConfig) : Manager :=
  if peerCfg.publicKey ∈ m.managedPeers then m
  else
    { m with
      managedPeers := m.managedPeers.insert peerCfg.publicKey peerCfg
      managedPeersByConnID :=
        m.managedPeersByConnID.insert peerCfg.peerConnID ⟨peerCfg, .inactivity⟩ }

/-- The map that the exclude list is turned into. -/
def excludeMap (peerConfigs : List PeerConfig) : StrMap PeerConfig :=
  peerConfigs.foldl (fun l cfg => l.insert cfg.publicKey cfg) ∅

/-- Replaces the exclude list: new members are no longer managed, and former ones are managed as
active peers. Returns the new members. -/
def excludePeer (peerConfigs : List PeerConfig) : List String × Manager :=
  let excludes := excludeMap peerConfigs
  let added := excludes.keys.filter (· ∉ m.excludes)
  let dropped := m.excludes.entries.filter (·.1 ∉ excludes)
  let m := added.foldl removePeer m
  let m := (dropped.map Sigma.snd).foldl addActivePeer m
  (added, { m with excludes })

/-- Another member of a group of the peer is active. -/
def shouldActivateNewPeer (peerID : String) : Bool :=
  m.haGroupToPeers.any fun peers => peerID ∈ peers && peers.any fun groupPeerID =>
    groupPeerID ≠ peerID && (m.managedPeers.lookup groupPeerID).any fun cfg =>
      (m.managedPeersByConnID.lookup cfg.peerConnID).any (·.expectedWatcher = .inactivity)

def armActivityListener (peerCfg : PeerConfig) : Manager :=
  { m with
    managedPeers := m.managedPeers.insert peerCfg.publicKey peerCfg
    managedPeersByConnID := m.managedPeersByConnID.insert peerCfg.peerConnID ⟨peerCfg, .activity⟩
    listeners := insert peerCfg.peerConnID m.listeners }

/-- Moves a peer whose listener was armed on to the watch for inactivity. -/
def activateSinglePeer (peerCfg : PeerConfig) : Manager :=
  { m with
    managedPeersByConnID :=
      m.managedPeersByConnID.insert peerCfg.peerConnID ⟨peerCfg, .inactivity⟩
    listeners := m.listeners.erase peerCfg.peerConnID }

/-! ### The loops of the manager -/

theorem lookup_removePeers (l : List String) (k : String) :
    (l.foldl removePeer m).managedPeers.lookup k =
      if k ∈ l then none else m.managedPeers.lookup k := by
  induction l generalizing m with
  | nil => simp
  | cons a l ih =>
    have hs : (m.removePeer a).managedPeers.lookup k =
        if k = a then none else m.managedPeers.lookup k := by
      unfold removePeer
      split
      · by_cases hk : k = a
        · subst hk
          simpa
        · simp [hk]
      · exact lookup_erase_ite _ a k
    rw [foldl_cons, ih, hs]
    by_cases hl : k ∈ l <;> by_cases hk : k = a <;> simp [hl, hk]

theorem mem_listeners_removePeers {l : List String} {id : Nat} (hid : id ∈ m.listeners)
    (hne : ∀ k ∈ l, ∀ cfg, m.managedPeers.lookup k = some cfg → cfg.peerConnID ≠ id) :
    id ∈ (l.foldl removePeer m).listeners := by
  induction l generalizing m with
  | nil => exact hid
  | cons a l ih =>
    have hl : ∀ k cfg, (m.removePeer a).managedPeers.lookup k = some cfg →
        m.managedPeers.lookup k = some cfg := by
      intro k cfg hk
      have h := m.lookup_removePeers [a] k
      rw [foldl_cons, foldl_nil, hk] at h
      split at h
      · cases h
      · exact h.symm
    refine ih (m.removePeer a) ?_ fun k hk cfg hc =>
      hne k (mem_cons_of_mem a hk) cfg (hl k cfg hc)
    unfold removePeer
    split
    · exact hid
    · rename_i cfg hc
      exact Finset.mem_erase.2 ⟨(hne a mem_cons_self cfg hc).symm, hid⟩

theorem listeners_addActivePeers (l : List PeerConfig) :
    (l.foldl addActivePeer m).listeners = m.listeners := by
  induction l generalizing m with
  | nil => rfl
  | cons cfg l ih =>
    rw [foldl_cons, ih]
    unfold addActivePeer
    split <;> rfl

/-- The peers added are managed, unless they are already. -/
theorem lookup_addActivePeers (l : List PeerConfig) (k : String) :
    (l.foldl addActivePeer m).managedPeers.lookup k =
      (m.managedPeers.lookup k).or (l.find? (·.publicKey = k)) := by
  induction l generalizing m with
  | nil => simp
  | cons cfg l ih =>
    rw [foldl_cons, ih, List.find?_cons]
    unfold addActivePeer
    by_cases hk : cfg.publicKey = k
    · subst hk
      split
      · rename_i hm
        obtain ⟨old, ho⟩ := mem_iff_lookup.1 hm
        simp [ho]
      · rename_i hm
        simp [lookup_eq_none.2 hm]
    · split <;> simp [hk, Ne.symm hk]

/-- The peers that are not on the new list. -/
def dropped (excludes : StrMap PeerConfig) : List PeerConfig :=
  (m.excludes.entries.filter (·.1 ∉ excludes)).map Sigma.snd

theorem find_dropped (hk : ∀ k cfg, m.excludes.lookup k = some cfg → cfg.publicKey = k)
    (excludes : StrMap PeerConfig) (k : String) (cfg : PeerConfig) :
    (m.dropped excludes).find? (·.publicKey = k) = some cfg ↔
      m.excludes.lookup k = some cfg ∧ k ∉ excludes := by
  have hs : ∀ cfg, (m.dropped excludes).find? (·.publicKey = k) = some cfg →
      m.excludes.lookup k = some cfg ∧ k ∉ excludes := by
    intro cfg hf
    have hp : cfg.publicKey = k := by simpa using List.find?_some hf
    obtain ⟨⟨k', cfg'⟩, hm, rfl⟩ := mem_map.1 (mem_of_find?_eq_some hf)
    obtain ⟨hm, hne⟩ := mem_filter.1 hm
    have hl : m.excludes.lookup k' = some cfg' := mem_lookup_iff.2 hm
    obtain rfl : k' = k := (hk k' cfg' hl).symm.trans hp
    exact ⟨hl, by simpa using hne⟩
  refine ⟨hs cfg, fun ⟨hl, hne⟩ => ?_⟩
  cases hf : (m.dropped excludes).find? (·.publicKey = k) with
  | some cfg' => exact (hs cfg' hf).1.symm.trans hl
  | none =>
    have hm : cfg ∈ m.dropped excludes :=
      mem_map.2 ⟨⟨k, cfg⟩, mem_filter.2 ⟨mem_lookup_iff.1 hl, by simpa⟩, rfl⟩
    exact absurd (hk k cfg hl) (by simpa using List.find?_eq_none.1 hf cfg hm)

/-- The peers newly excluded. -/
theorem mem_excludePeer_added {cfgs : List PeerConfig} {k : String} :
    k ∈ (m.excludePeer cfgs).1 ↔ k ∈ excludeMap cfgs ∧ k ∉ m.excludes := by
  simp [excludePeer, AList.mem_keys]

theorem excludePeer_snd (cfgs : List PeerConfig) : (m.excludePeer cfgs).2 =
    { (m.dropped (excludeMap cfgs)).foldl addActivePeer
        ((m.excludePeer cfgs).1.foldl removePeer m) with
      excludes := excludeMap cfgs } :=
  rfl

/-- Excluded peers are not managed, and those dropped from the list are again. -/
theorem lookup_excludePeer (hk : ∀ k cfg, m.excludes.lookup k = some cfg → cfg.publicKey = k)
    (cfgs : List PeerConfig) (k : String) (cfg : PeerConfig) :
    (m.excludePeer cfgs).2.managedPeers.lookup k = some cfg ↔
      m.managedPeers.lookup k = some cfg ∧ k ∉ (m.excludePeer cfgs).1 ∨
      m.managedPeers.lookup k = none ∧ m.excludes.lookup k = some cfg ∧ k ∉ excludeMap cfgs := by
  rw [excludePeer_snd, lookup_addActivePeers, lookup_removePeers, Option.or_eq_some_iff,
    find_dropped m hk]
  by_cases ha : k ∈ (m.excludePeer cfgs).1
  · have hn := (m.mem_excludePeer_added.1 ha).1
    simp [ha, hn]
  · simp [ha]

/-- Listeners of peers that are not newly excluded stay. -/
theorem mem_listeners_excludePeer {cfgs : List PeerConfig} {id : Nat}
    (hid : id ∈ m.listeners) (hne : ∀ k ∈ (m.excludePeer cfgs).1, ∀ cfg,
      m.managedPeers.lookup k = some cfg → cfg.peerConnID ≠ id) :
    id ∈ (m.excludePeer cfgs).2.listeners := by
  rw [excludePeer_snd, listeners_addActivePeers]
  exact m.mem_listeners_removePeers hid hne

end Manager

/-! ### The connections -/

inductive LazyState where
  | default
  | lazy
  | eager
  deriving DecidableEq

inductive LazyForce where
  | none
  | on
  | off
  deriving DecidableEq

structure Conn where
  connID : Nat
  allowedIps : List Prefix
  agentVersion : String
  opened : Bool := false

def Conn.lazyPeerCfg (conn : Conn) (peerKey : String) : PeerConfig :=
  ⟨peerKey, conn.allowedIps, conn.connID⟩

structure RemotePeerConfig where
  wgPubKey : String
  allowedIps : List String
  agentVersion : String
  lazyState : LazyState

/-- The part of a network map that is read here. `haMap` has the peers of each group of routes. -/
structure NetworkMap where
  lazyConnectionEnabled : Option Bool := none
  haMap : List (List String) := []
  remotePeers : List RemotePeerConfig
  remotePeersIsEmpty : Bool := false
  listenerFails : List String := []

/-- What does not change while the engine runs. -/
structure Env where
  localPubKey : String
  hasIPv6 : Bool
  force : LazyForce
  isSupported : String → Bool

/-- The connection manager and the peer store. `conns` counts the connections that were made. -/
structure ConnMgr where
  peerStore : StrMap Conn := ∅
  conns : Nat := 0
  remoteLazyEnabled : Bool := false
  lazyConnMgr : Manager := {}
  appliedExcludeList : Finset String := ∅

/-- `filterAllowedIPs` and `compareNetIPLists`: the usable addresses are those of the list, in any
order. -/
def sameAllowedIPs (env : Env) (allowedIps : List Prefix) (ips : List String) : Bool :=
  let usable := if env.hasIPv6 then ips
    else ips.filter fun ip => (parsePrefix ip).all fun p => !p.addr.is6
  match usable.mapM parsePrefix with
  | none => false
  | some parsed => (allowedIps.map Prefix.string).isPerm (parsed.map Prefix.string)

/-- The addresses of a new connection, if all are well formed and some are usable. -/
def usableIPs (env : Env) (ips : List String) : Option (List Prefix) :=
  match ips.mapM parsePrefix with
  | none => none
  | some parsed =>
    let peerIPs := parsed.filter fun p => !(p.addr.is6 && !env.hasIPv6)
    if peerIPs.isEmpty then none else some peerIPs

namespace ConnMgr

variable (env : Env) (e : ConnMgr)

def peerLazyDefault (state : LazyState) : Bool :=
  match env.force with
  | .on => true
  | .off => false
  | .none => match state with
    | .lazy => true
    | .eager => false
    | .default => e.remoteLazyEnabled

def openConn (peerKey : String) : ConnMgr :=
  match e.peerStore.lookup peerKey with
  | none => e
  | some conn => { e with peerStore := e.peerStore.insert peerKey { conn with opened := true } }

@[simp] theorem lazyConnMgr_openConn (k : String) : (e.openConn k).lazyConnMgr = e.lazyConnMgr := by
  unfold openConn
  split <;> rfl

/-- `Manager.AddPeer`, none when the listener cannot be created; otherwise whether the peer is on
the exclude list. -/
def addPeer (peerCfg : PeerConfig) (listenerFails : Bool) : Option Bool × ConnMgr :=
  if peerCfg.publicKey ∈ e.lazyConnMgr.excludes then (some true, e)
  else if peerCfg.publicKey ∈ e.lazyConnMgr.managedPeers then (some false, e)
  else if listenerFails then (none, e)
  else
    let m := e.lazyConnMgr.armActivityListener peerCfg
    if m.shouldActivateNewPeer peerCfg.publicKey then
      (some false,
        { e with lazyConnMgr := m.activateSinglePeer peerCfg }.openConn peerCfg.publicKey)
    else (some false, { e with lazyConnMgr := m })

def addPeerConn (peerKey : String) (conn : Conn) (permanent listenerFails : Bool) : ConnMgr :=
  if peerKey ∈ e.peerStore then e
  else
    let e := { e with peerStore := e.peerStore.insert peerKey conn }
    if permanent || !env.isSupported conn.agentVersion then e.openConn peerKey
    else
      match e.addPeer (conn.lazyPeerCfg peerKey) listenerFails with
      | (some false, e) => e
      | (_, e) => e.openConn peerKey

def removePeerConn (peerKey : String) : ConnMgr :=
  if peerKey ∈ e.peerStore then
    { e with
      peerStore := e.peerStore.erase peerKey
      lazyConnMgr := e.lazyConnMgr.removePeer peerKey }
  else e

def setExcludeList (peerIDs : List String) : ConnMgr :=
  if peerIDs.toFinset = e.appliedExcludeList then e
  else
    let excludedPeers := peerIDs.filterMap fun peerID =>
      (e.peerStore.lookup peerID).map (·.lazyPeerCfg peerID)
    let (added, lazyConnMgr) := e.lazyConnMgr.excludePeer excludedPeers
    added.foldl openConn { e with lazyConnMgr, appliedExcludeList := peerIDs.toFinset }

/-! ### The engine -/

/-- None when the addresses of the peer are refused. -/
def addNewPeer (listenerFails : List String) (p : RemotePeerConfig) : Option ConnMgr :=
  if p.wgPubKey ∈ e.peerStore then some e
  else (usableIPs env p.allowedIps).map fun peerIPs =>
    { e with conns := e.conns + 1 }.addPeerConn env p.wgPubKey
      ⟨e.conns, peerIPs, p.agentVersion, false⟩ (!e.peerLazyDefault env p.lazyState)
      (p.wgPubKey ∈ listenerFails)

/-- Stops at the first peer that is refused, and says whether there was none. -/
def addNewPeers (listenerFails : List String) : List RemotePeerConfig → ConnMgr → ConnMgr × Bool
  | [], e => (e, true)
  | p :: l, e => match e.addNewPeer env listenerFails p with
    | none => (e, false)
    | some e => addNewPeers listenerFails l e

/-- The stored connection of the peer does not fit what the network map says. -/
def isModified (p : RemotePeerConfig) : Bool :=
  (e.peerStore.lookup p.wgPubKey).any fun conn =>
    conn.agentVersion ≠ p.agentVersion || !sameAllowedIPs env conn.allowedIps p.allowedIps

def modifyPeers (listenerFails : List String) (peersUpdate : List RemotePeerConfig) :
    ConnMgr × Bool :=
  let modified := peersUpdate.filter (e.isModified env)
  addNewPeers env listenerFails modified ((modified.map (·.wgPubKey)).foldl removePeerConn e)

def removePeers (peersUpdate : List RemotePeerConfig) : ConnMgr :=
  (e.peerStore.keys.filter (· ∉ peersUpdate.map (·.wgPubKey))).foldl removePeerConn e

variable (x : NetworkMap)

/-- The peers of a network map but the own one. -/
def remotePeers : List RemotePeerConfig :=
  x.remotePeers.filter (·.wgPubKey ≠ env.localPubKey)

def reconcilePeers : ConnMgr × Bool :=
  if x.remotePeersIsEmpty then (e.peerStore.keys.foldl removePeerConn e, true)
  else
    let peers := remotePeers env x
    match (e.removePeers peers).modifyPeers env x.listenerFails peers with
    | (e, false) => (e, false)
    | (e, true) => addNewPeers env x.listenerFails peers e

/-- What is taken from a network map before the peers: the account flag and the groups. -/
def updateFlags : ConnMgr :=
  { e with
    remoteLazyEnabled := x.lazyConnectionEnabled.getD e.remoteLazyEnabled
    lazyConnMgr := e.lazyConnMgr.updateRouteHAMap x.haMap }

/-- The peers that are not lazy by policy. -/
def toExcludedLazyPeers : List String :=
  (((remotePeers env x).filter fun p => !e.peerLazyDefault env p.lazyState).map (·.wgPubKey)).dedup

def sync : ConnMgr :=
  match (e.updateFlags x).reconcilePeers env x with
  | (e, false) => e
  | (e, true) => e.setExcludeList (e.toExcludedLazyPeers env x)

/-! ### The exclude list -/

/-- The exclude list as the peers are stored. -/
def excludeConfigs (peerIDs : List String) : StrMap PeerConfig :=
  Manager.excludeMap (peerIDs.filterMap fun peerID =>
    (e.peerStore.lookup peerID).map (·.lazyPeerCfg peerID))

theorem lookup_excludeConfigs (peerIDs : List String) (k : String) :
    (e.excludeConfigs peerIDs).lookup k =
      if k ∈ peerIDs then (e.peerStore.lookup k).map (·.lazyPeerCfg k) else none := by
  have hf : ∀ (l : List String) (acc : StrMap PeerConfig),
      ((l.filterMap fun peerID => (e.peerStore.lookup peerID).map (·.lazyPeerCfg peerID)).foldl
        (fun l cfg => l.insert cfg.publicKey cfg) acc).lookup k =
      if k ∈ l then ((e.peerStore.lookup k).map (·.lazyPeerCfg k)).or (acc.lookup k)
      else acc.lookup k := by
    intro l
    induction l with
    | nil => simp
    | cons a l ih =>
      intro acc
      cases ha : e.peerStore.lookup a with
      | none =>
        rw [filterMap_cons_none (by simp [ha]), ih]
        by_cases hk : k = a
        · subst hk
          simp [ha]
        · simp [hk]
      | some conn =>
        rw [filterMap_cons_some (b := conn.lazyPeerCfg a) (by simp [ha]), foldl_cons, ih]
        by_cases hk : k = a
        · subst hk
          simp [ha, Conn.lazyPeerCfg]
        · simp [hk, Conn.lazyPeerCfg]
  unfold excludeConfigs Manager.excludeMap
  rw [hf]
  simp

end ConnMgr

end Cloink.LazyConn
