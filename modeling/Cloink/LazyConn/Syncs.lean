import Cloink.Lib.Interleaving
import Cloink.LazyConn.Manager

/-!
# Lazy connections along the network maps

After a network map was applied, the managed peers should be peers of the store with their current
connections, and every stored peer should wait for traffic or have its connection opened. The
exclude list breaks this: it has the connections that its peers had when they came on it, and a peer
that leaves it is managed with that connection.
-/

namespace Cloink.LazyConn

open Interleaving AList List Option

namespace ConnMgr

variable {env : Env} {e e' : ConnMgr} {x : NetworkMap}

/-! ### Opening connections -/

@[simp] theorem conns_openConn (e : ConnMgr) (k : String) : (e.openConn k).conns = e.conns := by
  unfold openConn
  split <;> rfl

@[simp] theorem appliedExcludeList_openConn (e : ConnMgr) (k : String) :
    (e.openConn k).appliedExcludeList = e.appliedExcludeList := by
  unfold openConn
  split <;> rfl

theorem lookup_openConn (e : ConnMgr) (k k' : String) : (e.openConn k).peerStore.lookup k' =
      (e.peerStore.lookup k').map fun c => { c with opened := c.opened || k' = k } := by
  unfold openConn
  cases hk : e.peerStore.lookup k with
  | none =>
    by_cases hk' : k' = k
    · subst hk'
      simp [hk]
    · simp [hk']
  | some conn =>
    by_cases hk' : k' = k
    · subst hk'
      simp [hk]
    · simp [hk', lookup_insert_ne hk']

/-- Opening connections marks those that are stored. -/
theorem lookup_openConns (e : ConnMgr) (l : List String) (k : String) :
    (l.foldl openConn e).peerStore.lookup k =
      (e.peerStore.lookup k).map fun c => { c with opened := c.opened || k ∈ l } := by
  induction l generalizing e with
  | nil => simp
  | cons a l ih =>
    rw [List.foldl_cons, ih, lookup_openConn, Option.map_map]
    congr 1
    funext c
    simp [Bool.or_assoc]

theorem openConns_rest (e : ConnMgr) (l : List String) :
    (l.foldl openConn e).lazyConnMgr = e.lazyConnMgr ∧ (l.foldl openConn e).conns = e.conns ∧
      (l.foldl openConn e).appliedExcludeList = e.appliedExcludeList := by
  induction l generalizing e with
  | nil => exact ⟨rfl, rfl, rfl⟩
  | cons a l ih => simpa using ih (e.openConn a)

/-! ### What holds between the steps -/

/-- The managed peers are stored, and managed with their current connection. -/
def ManagedStored (e : ConnMgr) : Prop :=
  ∀ k cfg, e.lazyConnMgr.managedPeers.lookup k = some cfg →
    ∃ c, e.peerStore.lookup k = some c ∧ cfg.peerConnID = c.connID ∧ cfg.allowedIPs = c.allowedIps

/-- The connection waits for traffic or has been opened. -/
def Awake (e : ConnMgr) (c : Conn) : Prop := c.connID ∈ e.lazyConnMgr.listeners ∨ c.opened = true

structure Tracks (e : ConnMgr) : Prop where
  managed : e.ManagedStored
  awake : ∀ k c, e.peerStore.lookup k = some c → k ∉ e.appliedExcludeList → e.Awake c

/-- An entry of the exclude list of the manager. -/
structure Excluded (e : ConnMgr) (k : String) (cfg : PeerConfig) : Prop where
  key : cfg.publicKey = k
  connID_lt : cfg.peerConnID < e.conns
  unmanaged : e.lazyConnMgr.managedPeers.lookup k = none
  opened : ∀ c, e.peerStore.lookup k = some c → c.opened = true
  allowedIPs : ∀ c, e.peerStore.lookup k = some c → cfg.peerConnID = c.connID →
    cfg.allowedIPs = c.allowedIps
  applied : k ∈ e.appliedExcludeList

structure Kept (e : ConnMgr) : Prop where
  connID_lt : ∀ k c, e.peerStore.lookup k = some c → c.connID < e.conns
  connID_inj : ∀ k k' c c', e.peerStore.lookup k = some c → e.peerStore.lookup k' = some c' →
    c.connID = c'.connID → k = k'
  excluded : ∀ k cfg, e.lazyConnMgr.excludes.lookup k = some cfg → e.Excluded k cfg
  managed : e.ManagedStored
  awake : ∀ k c, e.peerStore.lookup k = some c → e.Awake c

theorem Kept.tracks (h : e.Kept) : e.Tracks := ⟨h.managed, fun k c hk _ => h.awake k c hk⟩

/-- An empty manager keeps the invariant. -/
theorem Kept.init : ({} : ConnMgr).Kept where
  connID_lt _ _ h := nomatch h
  connID_inj _ _ _ _ h := nomatch h
  excluded _ _ h := nomatch h
  managed _ _ h := nomatch h
  awake _ _ h := nomatch h

/-! ### Removing peers -/

theorem lookup_removePeerConn (e : ConnMgr) (k k' : String) :
    (e.removePeerConn k).peerStore.lookup k' = if k' = k then none else e.peerStore.lookup k' := by
  unfold removePeerConn
  by_cases hk : k' = k
  · subst hk
    split
    · simp
    · simpa using lookup_eq_none.2 ‹_›
  · split
    · simp [lookup_erase_ne hk]
    · simp

theorem lookup_removePeerConns (e : ConnMgr) (l : List String) (k : String) :
    (l.foldl removePeerConn e).peerStore.lookup k =
      if k ∈ l then none else e.peerStore.lookup k := by
  induction l generalizing e with
  | nil => simp
  | cons a l ih =>
    rw [foldl_cons, ih, lookup_removePeerConn]
    by_cases hl : k ∈ l <;> by_cases hk : k = a <;> simp [hl, hk]

theorem excludes_removePeer (m : Manager) (k : String) : (m.removePeer k).excludes = m.excludes := by
  unfold Manager.removePeer
  split <;> rfl

/-- The exclude lists and the flag stay. -/
structure SameLists (e e' : ConnMgr) : Prop where
  excludes : e'.lazyConnMgr.excludes = e.lazyConnMgr.excludes := by rfl
  applied : e'.appliedExcludeList = e.appliedExcludeList := by rfl
  flag : e'.remoteLazyEnabled = e.remoteLazyEnabled := by rfl

theorem SameLists.trans {e'' : ConnMgr} (h : SameLists e e') (h' : SameLists e' e'') :
    SameLists e e'' :=
  ⟨h'.excludes.trans h.excludes, h'.applied.trans h.applied, h'.flag.trans h.flag⟩

/-- Peers go, and the rest stays. -/
structure SameRest (e e' : ConnMgr) : Prop extends SameLists e e' where
  conns : e'.conns = e.conns := by rfl

theorem SameRest.trans {e'' : ConnMgr} (h : SameRest e e') (h' : SameRest e' e'') :
    SameRest e e'' :=
  ⟨h.toSameLists.trans h'.toSameLists, h'.conns.trans h.conns⟩

theorem removePeerConn_rest (e : ConnMgr) (k : String) : SameRest e (e.removePeerConn k) := by
  unfold removePeerConn
  split
  · exact { excludes := excludes_removePeer _ k }
  · exact {}

theorem removePeerConns_rest (e : ConnMgr) (l : List String) :
    SameRest e (l.foldl removePeerConn e) :=
  List.foldlRecOn l _ {} fun _ h k _ => h.trans (removePeerConn_rest _ k)

/-- Removing a peer keeps the invariant. -/
theorem Kept.removePeerConn (h : e.Kept) (k : String) : (e.removePeerConn k).Kept := by
  have hs : ∀ k' c, (e.removePeerConn k).peerStore.lookup k' = some c →
      k' ≠ k ∧ e.peerStore.lookup k' = some c := by
    intro k' c hk'
    rw [lookup_removePeerConn] at hk'
    split at hk'
    · cases hk'
    · exact ⟨‹_›, hk'⟩
  obtain ⟨⟨he, ha, -⟩, hcn⟩ := removePeerConn_rest e k
  by_cases hmm : k ∈ e.peerStore
  swap
  · rwa [ConnMgr.removePeerConn, if_neg hmm]
  have hmg : (e.removePeerConn k).lazyConnMgr = [k].foldl Manager.removePeer e.lazyConnMgr := by
    rw [ConnMgr.removePeerConn, if_pos hmm]
    rfl
  have hm : ∀ k' cfg, (e.removePeerConn k).lazyConnMgr.managedPeers.lookup k' = some cfg →
      k' ≠ k ∧ e.lazyConnMgr.managedPeers.lookup k' = some cfg := by
    intro k' cfg hk'
    rw [hmg, Manager.lookup_removePeers] at hk'
    split at hk'
    · cases hk'
    · rename_i hne
      exact ⟨fun heq => hne (mem_singleton.2 heq), hk'⟩
  refine ⟨?_, ?_, ?_, ?_, ?_⟩
  · intro k' c hc
    rw [hcn]
    exact h.connID_lt k' c (hs k' c hc).2
  · intro k₁ k₂ c₁ c₂ h₁ h₂
    exact h.connID_inj k₁ k₂ c₁ c₂ (hs _ _ h₁).2 (hs _ _ h₂).2
  · intro k' cfg hcf
    rw [he] at hcf
    have hx := h.excluded k' cfg hcf
    refine ⟨hx.key, hcn ▸ hx.connID_lt, ?_, fun c hc => hx.opened c (hs _ _ hc).2,
      fun c hc => hx.allowedIPs c (hs _ _ hc).2, ha ▸ hx.applied⟩
    rw [hmg, Manager.lookup_removePeers, hx.unmanaged, ite_self]
  · intro k' cfg hcf
    obtain ⟨hne, hcf⟩ := hm k' cfg hcf
    obtain ⟨c, hc, hr⟩ := h.managed k' cfg hcf
    exact ⟨c, by rw [lookup_removePeerConn, if_neg hne, hc], hr⟩
  · intro k' c hc
    obtain ⟨hne, hc⟩ := hs k' c hc
    refine (h.awake k' c hc).imp_left fun hid => ?_
    rw [hmg]
    refine e.lazyConnMgr.mem_listeners_removePeers hid fun k₁ hk₁ cfg hcf heq => hne ?_
    -- the listener of the removed peer is that of its own connection
    obtain ⟨c₁, hc₁, hi₁, -⟩ := h.managed k₁ cfg hcf
    rw [mem_singleton.1 hk₁] at hc₁
    exact h.connID_inj k' k c c₁ hc hc₁ (heq.symm.trans hi₁)

theorem Kept.removePeerConns (h : e.Kept) (l : List String) :
    (l.foldl ConnMgr.removePeerConn e).Kept :=
  List.foldlRecOn l _ h fun _ h k _ => Kept.removePeerConn h k

/-! ### Adding peers -/

/-- What adding a peer with a new connection does: the connection is stored, and unless it is opened
its listener is armed. -/
structure Added (e : ConnMgr) (k : String) (conn : Conn) (e' : ConnMgr) : Prop
    extends SameRest e e' where
  stored : ∃ o, e'.peerStore.lookup k = some { conn with opened := o } ∧
    e'.Awake { conn with opened := o } ∧ (k ∈ e.lazyConnMgr.excludes → o = true)
  rest : ∀ k', k' ≠ k → e'.peerStore.lookup k' = e.peerStore.lookup k'
  managed : e'.lazyConnMgr.managedPeers = e.lazyConnMgr.managedPeers ∨ k ∉ e.lazyConnMgr.excludes ∧
      e'.lazyConnMgr.managedPeers = e.lazyConnMgr.managedPeers.insert k (conn.lazyPeerCfg k)
  listeners : ∀ id ∈ e.lazyConnMgr.listeners, id ≠ conn.connID → id ∈ e'.lazyConnMgr.listeners

/-- The connection is opened, whatever the manager does with the peer. -/
theorem added_opened (e : ConnMgr) (k : String) (conn : Conn) (m : Manager)
    (hx : m.excludes = e.lazyConnMgr.excludes)
    (hm : m.managedPeers = e.lazyConnMgr.managedPeers ∨ k ∉ e.lazyConnMgr.excludes ∧
      m.managedPeers = e.lazyConnMgr.managedPeers.insert k (conn.lazyPeerCfg k))
    (hl : ∀ id ∈ e.lazyConnMgr.listeners, id ≠ conn.connID → id ∈ m.listeners) :
    Added e k conn
      ({ e with peerStore := e.peerStore.insert k conn, lazyConnMgr := m }.openConn k) := by
  refine ⟨⟨⟨by simpa using hx, by simp, ?_⟩, by simp⟩, ⟨true, ?_, .inr rfl, fun _ => rfl⟩, ?_,
    by simpa using hm, by simpa using hl⟩
  · unfold openConn
    split <;> rfl
  · simp [lookup_openConn]
  · intro k' hk'
    rw [lookup_openConn]
    simp [hk', lookup_insert_ne hk']

theorem added_openConn (e : ConnMgr) (k : String) (conn : Conn) :
    Added e k conn ({ e with peerStore := e.peerStore.insert k conn }.openConn k) :=
  added_opened e k conn e.lazyConnMgr rfl (.inl rfl) fun _ hid _ => hid

variable {k : String} {peerIDs : List String}

theorem added_armed (e : ConnMgr) (he : k ∉ e.lazyConnMgr.excludes) (conn : Conn) :
    Added e k conn { e with
      peerStore := e.peerStore.insert k conn
      lazyConnMgr := e.lazyConnMgr.armActivityListener (conn.lazyPeerCfg k) } where
  stored := ⟨conn.opened, lookup_insert _, .inl (Finset.mem_insert_self _ _), fun h => absurd h he⟩
  rest _ hk' := lookup_insert_ne hk'
  managed := .inr ⟨he, rfl⟩
  listeners _ hid _ := Finset.mem_insert_of_mem hid

theorem added_activated (e : ConnMgr) (he : k ∉ e.lazyConnMgr.excludes) (conn : Conn) :
    Added e k conn ({ e with
      peerStore := e.peerStore.insert k conn
      lazyConnMgr := (e.lazyConnMgr.armActivityListener (conn.lazyPeerCfg k)).activateSinglePeer
        (conn.lazyPeerCfg k) }.openConn k) :=
  added_opened e k conn _ rfl (.inr ⟨he, rfl⟩) fun _ hid hne =>
    Finset.mem_erase.2 ⟨hne, Finset.mem_insert_of_mem hid⟩

/-- A new peer is opened, armed or activated. -/
theorem added_addPeerConn (env : Env) (conn : Conn) (hk : k ∉ e.peerStore)
    (hu : k ∉ e.lazyConnMgr.managedPeers) (perm lf : Bool) :
    Added e k conn (e.addPeerConn env k conn perm lf) := by
  have hky : (conn.lazyPeerCfg k).publicKey = k := rfl
  unfold addPeerConn
  rw [if_neg hk]
  split
  · exact added_openConn e k conn
  · unfold addPeer
    by_cases he : k ∈ e.lazyConnMgr.excludes
    · simp only [hky, he, if_true]
      exact added_openConn e k conn
    · cases lf with
      | true =>
        simp only [hky, he, hu, if_false, if_true]
        exact added_openConn e k conn
      | false =>
        by_cases hha : (e.lazyConnMgr.armActivityListener
            (conn.lazyPeerCfg k)).shouldActivateNewPeer k
        · simp only [hky, he, hu, hha, Bool.false_eq_true, if_false, if_true]
          exact added_activated e he conn
        · simp only [hky, he, hu, hha, Bool.false_eq_true, if_false]
          exact added_armed e he conn

/-- Adding a peer keeps the invariant. -/
theorem Kept.added {conn : Conn} (h : e.Kept) (hk : k ∉ e.peerStore) (hid : conn.connID = e.conns)
    (had : Added { e with conns := e.conns + 1 } k conn e') : e'.Kept := by
  obtain ⟨o, hst, ha, ho⟩ := had.stored
  have hn := lookup_eq_none.2 hk
  -- a stored connection is the new one or an old one
  have hs : ∀ k' c, e'.peerStore.lookup k' = some c →
      (k' = k ∧ c = { conn with opened := o }) ∨ (k' ≠ k ∧ e.peerStore.lookup k' = some c) := by
    intro k' c hc
    by_cases hkk : k' = k
    · subst hkk
      rw [hst] at hc
      exact .inl ⟨rfl, (some.inj hc).symm⟩
    · rw [had.rest k' hkk] at hc
      exact .inr ⟨hkk, hc⟩
  have hcn : e'.conns = e.conns + 1 := had.conns
  refine ⟨?_, ?_, ?_, ?_, ?_⟩
  · intro k' c hc
    rw [hcn]
    rcases hs k' c hc with ⟨-, rfl⟩ | ⟨-, hc⟩
    · exact hid ▸ Nat.lt_succ_self _
    · exact Nat.lt_succ_of_lt (h.connID_lt k' c hc)
  · intro k₁ k₂ c₁ c₂ h₁ h₂ heq
    rcases hs k₁ c₁ h₁ with ⟨rfl, rfl⟩ | ⟨-, h₁⟩ <;> rcases hs k₂ c₂ h₂ with ⟨rfl, rfl⟩ | ⟨-, h₂⟩
    · rfl
    · exact absurd (heq.symm.trans hid) (h.connID_lt k₂ c₂ h₂).ne
    · exact absurd (heq.trans hid) (h.connID_lt k₁ c₁ h₁).ne
    · exact h.connID_inj k₁ k₂ c₁ c₂ h₁ h₂ heq
  · intro k' cfg hcf
    rw [had.excludes] at hcf
    have hx := h.excluded k' cfg hcf
    refine ⟨hx.key, hcn ▸ Nat.lt_succ_of_lt hx.connID_lt, ?_, ?_, ?_, had.applied ▸ hx.applied⟩
    · rcases had.managed with heq | ⟨he, heq⟩
      · exact heq ▸ hx.unmanaged
      · have hne : k' ≠ k := fun hkk => he (hkk ▸ mem_of_lookup hcf)
        rw [heq, lookup_insert_ne hne]
        exact hx.unmanaged
    · intro c hc
      rcases hs k' c hc with ⟨rfl, rfl⟩ | ⟨-, hc⟩
      · exact ho (mem_of_lookup hcf)
      · exact hx.opened c hc
    · intro c hc heq
      rcases hs k' c hc with ⟨-, rfl⟩ | ⟨-, hc⟩
      · exact absurd (heq.trans hid) hx.connID_lt.ne
      · exact hx.allowedIPs c hc heq
  · intro k' cfg hcf
    have hol : e.lazyConnMgr.managedPeers.lookup k' = some cfg →
        ∃ c, e'.peerStore.lookup k' = some c ∧ cfg.peerConnID = c.connID ∧
          cfg.allowedIPs = c.allowedIps := by
      intro hcf
      obtain ⟨c, hc, hr⟩ := h.managed k' cfg hcf
      have hne : k' ≠ k := fun hkk => by
        rw [hkk, hn] at hc
        cases hc
      exact ⟨c, (had.rest k' hne).trans hc, hr⟩
    rcases had.managed with heq | ⟨-, heq⟩
    · exact hol (heq ▸ hcf)
    · rw [heq, lookup_insert_some] at hcf
      rcases hcf with ⟨rfl, rfl⟩ | ⟨-, hcf⟩
      · exact ⟨_, hst, rfl, rfl⟩
      · exact hol hcf
  · intro k' c hc
    rcases hs k' c hc with ⟨-, rfl⟩ | ⟨-, hc⟩
    · exact ha
    · refine (h.awake k' c hc).imp_left fun hm => had.listeners _ hm ?_
      rw [hid]
      exact (h.connID_lt k' c hc).ne

/-- What adding peers leaves alone: connections are only added, and with new identifiers. -/
structure Extends (e e' : ConnMgr) : Prop extends SameLists e e' where
  conns : e.conns ≤ e'.conns
  old : ∀ k c, e.peerStore.lookup k = some c → e'.peerStore.lookup k = some c
  new : ∀ k c, e'.peerStore.lookup k = some c → e.peerStore.lookup k = none → e.conns ≤ c.connID

theorem Extends.refl (e : ConnMgr) : Extends e e where
  conns := le_rfl
  old _ _ h := h
  new _ _ h h' := by
    rw [h] at h'
    cases h'

theorem Extends.trans {e'' : ConnMgr} (h : Extends e e') (h' : Extends e' e'') : Extends e e'' where
  toSameLists := h.toSameLists.trans h'.toSameLists
  conns := h.conns.trans h'.conns
  old k c hc := h'.old k c (h.old k c hc)
  new k c hc hn := by
    cases hm : e'.peerStore.lookup k with
    | none => exact h.conns.trans (h'.new k c hc hm)
    | some c' =>
      obtain rfl : c' = c := some.inj ((h'.old k c' hm).symm.trans hc)
      exact h.new k c' hm hn

theorem Extends.mem (h : Extends e e') (hk : k ∈ e.peerStore) : k ∈ e'.peerStore := by
  obtain ⟨c, hc⟩ := mem_iff_lookup.1 hk
  exact mem_of_lookup (h.old k c hc)

theorem Kept.unmanaged (h : e.Kept) (hk : k ∉ e.peerStore) : k ∉ e.lazyConnMgr.managedPeers := by
  intro hm
  obtain ⟨cfg, hcf⟩ := mem_iff_lookup.1 hm
  obtain ⟨c, hc, -⟩ := h.managed k cfg hcf
  exact hk (mem_of_lookup hc)

theorem Kept.addNewPeer {lf : List String} {p : RemotePeerConfig} (h : e.Kept)
    (had : e.addNewPeer env lf p = some e') :
    e'.Kept ∧ Extends e e' ∧ p.wgPubKey ∈ e'.peerStore := by
  unfold ConnMgr.addNewPeer at had
  split at had
  · rename_i hm
    cases had
    exact ⟨h, .refl e, hm⟩
  · rename_i hm
    obtain ⟨ips, -, rfl⟩ := map_eq_some_iff.1 had
    have ha := added_addPeerConn (e := { e with conns := e.conns + 1 }) env
      ⟨e.conns, ips, p.agentVersion, false⟩ hm (h.unmanaged hm)
      (!e.peerLazyDefault env p.lazyState) (p.wgPubKey ∈ lf)
    obtain ⟨o, hs, -⟩ := ha.stored
    have hn := lookup_eq_none.2 hm
    refine ⟨h.added hm rfl ha, ⟨⟨ha.excludes, ha.applied, ha.flag⟩, ?_, ?_, ?_⟩, mem_of_lookup hs⟩
    · exact ha.conns ▸ Nat.le_succ _
    · intro k c hc
      have hne : k ≠ p.wgPubKey := by
        rintro rfl
        rw [hn] at hc
        cases hc
      exact (ha.rest k hne).trans hc
    · intro k c hc hk
      by_cases hkk : k = p.wgPubKey
      · subst hkk
        rw [hs] at hc
        cases hc
        exact le_rfl
      · rw [ha.rest k hkk, hk] at hc
        cases hc

/-- Adding peers keeps the invariant and the peers that were there. -/
theorem Kept.addNewPeers (h : e.Kept) (env : Env) (lf : List String) (l : List RemotePeerConfig) :
    (addNewPeers env lf l e).1.Kept ∧ Extends e (addNewPeers env lf l e).1 ∧
      ((addNewPeers env lf l e).2 →
        ∀ p ∈ l, p.wgPubKey ∈ (addNewPeers env lf l e).1.peerStore) := by
  induction l generalizing e with
  | nil => exact ⟨h, .refl e, fun _ _ hp => nomatch hp⟩
  | cons p l ih =>
    unfold addNewPeers
    split
    · exact ⟨h, .refl e, fun hf => nomatch hf⟩
    · rename_i e₁ ha
      obtain ⟨hk, he, hm⟩ := h.addNewPeer ha
      obtain ⟨hk', he', hm'⟩ := ih hk
      refine ⟨hk', he.trans he', fun hok q hq => ?_⟩
      rcases mem_cons.1 hq with rfl | hq
      · exact he'.mem hm
      · exact hm' hok q hq

/-! ### Applying the peers of a network map -/

/-- The network map leaves the connection of the peer alone: it has the peer, and nothing it says
about the peer asks for another connection. -/
def Keeps (env : Env) (e : ConnMgr) (x : NetworkMap) (k : String) : Prop :=
  x.remotePeersIsEmpty = false ∧ k ∈ (remotePeers env x).map (·.wgPubKey) ∧
    ∀ p ∈ remotePeers env x, p.wgPubKey = k → e.isModified env p = false

/-- What the peers of a network map do to the store. -/
structure Reconciled (env : Env) (e : ConnMgr) (x : NetworkMap) (r : ConnMgr × Bool) : Prop
    extends SameLists e r.1 where
  kept : r.1.Kept
  old : ∀ k c, Keeps env e x k → e.peerStore.lookup k = some c → r.1.peerStore.lookup k = some c
  new : ∀ k c, r.1.peerStore.lookup k = some c →
    Keeps env e x k ∧ e.peerStore.lookup k = some c ∨ e.conns ≤ c.connID
  complete : r.2 = true → x.remotePeersIsEmpty = false →
    ∀ p ∈ remotePeers env x, p.wgPubKey ∈ r.1.peerStore
  empty : x.remotePeersIsEmpty = true → ∀ k, r.1.peerStore.lookup k = none

theorem lookup_removePeers (e : ConnMgr) (peers : List RemotePeerConfig) (k : String) :
    (e.removePeers peers).peerStore.lookup k =
      if k ∈ peers.map (·.wgPubKey) then e.peerStore.lookup k else none := by
  unfold removePeers
  rw [lookup_removePeerConns]
  by_cases hk : k ∈ peers.map (·.wgPubKey)
  · simp only [hk, if_true, mem_filter, decide_not, decide_true, Bool.not_true,
      Bool.false_eq_true, and_false, if_false]
  · rw [if_neg hk]
    split
    · rfl
    · rename_i hn
      refine lookup_eq_none.2 fun hm => hn ?_
      exact mem_filter.2 ⟨mem_keys.1 hm, decide_eq_true hk⟩

/-- The store after the peers were removed that are gone or have changed. -/
def pruned (env : Env) (e : ConnMgr) (x : NetworkMap) : ConnMgr :=
  let e := e.removePeers (remotePeers env x)
  (((remotePeers env x).filter (e.isModified env)).map (·.wgPubKey)).foldl removePeerConn e

/-- The peers that are kept stay as they are, and the others go. -/
theorem lookup_pruned (env : Env) (e : ConnMgr) (hx : x.remotePeersIsEmpty = false) (k : String) :
    (Keeps env e x k → (pruned env e x).peerStore.lookup k = e.peerStore.lookup k) ∧
      (¬ Keeps env e x k → (pruned env e x).peerStore.lookup k = none) := by
  have hm : ∀ p ∈ remotePeers env x,
      (e.removePeers (remotePeers env x)).isModified env p = e.isModified env p := by
    intro p hp
    unfold isModified
    rw [lookup_removePeers, if_pos (mem_map_of_mem hp)]
  unfold pruned
  rw [lookup_removePeerConns, lookup_removePeers]
  constructor
  · rintro ⟨-, hk, hu⟩
    rw [if_neg, if_pos hk]
    intro hmm
    obtain ⟨p, hp, rfl⟩ := mem_map.1 hmm
    obtain ⟨hp, hpm⟩ := mem_filter.1 hp
    rw [hm p hp, hu p hp rfl] at hpm
    cases hpm
  · intro hn
    split
    · rfl
    · rename_i hu
      refine if_neg fun hk => hn ⟨hx, hk, fun p hp hpk => ?_⟩
      by_contra hpm
      refine hu (mem_map.2 ⟨p, mem_filter.2 ⟨hp, ?_⟩, hpk⟩)
      rw [hm p hp]
      exact Bool.eq_true_of_not_eq_false hpm

/-- After the removals, peers are only added, and all of them unless the network map is refused. -/
theorem reconcilePeers_extends (h : (pruned env e x).Kept) (hx : x.remotePeersIsEmpty = false) :
    (e.reconcilePeers env x).1.Kept ∧ Extends (pruned env e x) (e.reconcilePeers env x).1 ∧
      ((e.reconcilePeers env x).2 →
        ∀ p ∈ remotePeers env x, p.wgPubKey ∈ (e.reconcilePeers env x).1.peerStore) := by
  have hm := h.addNewPeers env x.listenerFails
    ((remotePeers env x).filter ((e.removePeers (remotePeers env x)).isModified env))
  simp only [reconcilePeers, hx, Bool.false_eq_true, if_false]
  have hm' : (e.removePeers (remotePeers env x)).modifyPeers env x.listenerFails
      (remotePeers env x) = addNewPeers env x.listenerFails
      ((remotePeers env x).filter ((e.removePeers (remotePeers env x)).isModified env))
      (pruned env e x) := rfl
  rw [hm']
  rcases hr : addNewPeers env x.listenerFails
      ((remotePeers env x).filter ((e.removePeers (remotePeers env x)).isModified env))
      (pruned env e x) with ⟨e₁, ok⟩
  rw [hr] at hm
  cases ok with
  | false => exact ⟨hm.1, hm.2.1, by simp⟩
  | true =>
    obtain ⟨hk, he, hmm⟩ := hm.1.addNewPeers env x.listenerFails (remotePeers env x)
    exact ⟨hk, hm.2.1.trans he, hmm⟩

/-- A reconciliation keeps the invariant. -/
theorem Kept.reconcilePeers (h : e.Kept) (env : Env) (x : NetworkMap) :
    Reconciled env e x (e.reconcilePeers env x) := by
  cases hx : x.remotePeersIsEmpty with
  | true =>
    have heq : e.reconcilePeers env x = (e.peerStore.keys.foldl ConnMgr.removePeerConn e, true) := by
      unfold ConnMgr.reconcilePeers
      rw [hx]
      rfl
    have hn : ∀ k, (e.reconcilePeers env x).1.peerStore.lookup k = none := by
      intro k
      rw [heq, lookup_removePeerConns]
      split
      · rfl
      · rename_i hnt
        exact lookup_eq_none.2 fun hmm => hnt (mem_keys.1 hmm)
    refine ⟨heq ▸ (removePeerConns_rest e e.peerStore.keys).toSameLists,
      heq ▸ h.removePeerConns _, ?_, ?_, ?_, fun _ => hn⟩
    · rintro k c ⟨hf, -⟩
      rw [hx] at hf
      cases hf
    · intro k c hc
      rw [hn] at hc
      cases hc
    · intro _ hf
      rw [hx] at hf
      cases hf
  | false =>
    have hp : (pruned env e x).Kept := (h.removePeerConns _).removePeerConns _
    obtain ⟨hkp, hex, hmm⟩ := reconcilePeers_extends hp hx
    obtain ⟨hsl, hcn⟩ : SameRest e (pruned env e x) :=
      (removePeerConns_rest _ _).trans (removePeerConns_rest _ _)
    refine ⟨hsl.trans hex.toSameLists, hkp, ?_, ?_, fun hok _ => hmm hok, fun ht => ?_⟩
    · intro k c hk hc
      exact hex.old k c (((lookup_pruned env e hx k).1 hk).trans hc)
    · intro k c hc
      cases hm : (pruned env e x).peerStore.lookup k with
      | none => exact .inr (hcn ▸ hex.new k c hc hm)
      | some c' =>
        obtain rfl : c' = c := some.inj ((hex.old k c' hm).symm.trans hc)
        have hk : Keeps env e x k := by
          by_contra hnt
          rw [(lookup_pruned env e hx k).2 hnt] at hm
          cases hm
        exact .inl ⟨hk, ((lookup_pruned env e hx k).1 hk).symm.trans hm⟩
    · rw [hx] at ht
      cases ht

/-! ### Replacing the exclude list -/

/-- The peers that leave the exclude list of the manager are stored with the connection it has. -/
def DroppedStored (e : ConnMgr) (peerIDs : List String) : Prop :=
  ∀ k cfg, e.lazyConnMgr.excludes.lookup k = some cfg → k ∉ e.excludeConfigs peerIDs →
    ∃ c, e.peerStore.lookup k = some c ∧ cfg.peerConnID = c.connID

/-- The state after an exclude list that is not the one applied last. -/
structure ExcludeSet (e : ConnMgr) (peerIDs : List String) (added : List String) (e' : ConnMgr) :
    Prop where
  mem_added : ∀ k, k ∈ added ↔ k ∈ e.excludeConfigs peerIDs ∧ k ∉ e.lazyConnMgr.excludes
  store : ∀ k, e'.peerStore.lookup k =
    (e.peerStore.lookup k).map fun c => { c with opened := c.opened || k ∈ added }
  conns : e'.conns = e.conns
  applied : e'.appliedExcludeList = peerIDs.toFinset
  excludes : e'.lazyConnMgr.excludes = e.excludeConfigs peerIDs
  managed : ∀ k cfg, e'.lazyConnMgr.managedPeers.lookup k = some cfg ↔
    e.lazyConnMgr.managedPeers.lookup k = some cfg ∧ k ∉ added ∨
    e.lazyConnMgr.managedPeers.lookup k = none ∧ e.lazyConnMgr.excludes.lookup k = some cfg ∧
      k ∉ e.excludeConfigs peerIDs
  listeners : ∀ id ∈ e.lazyConnMgr.listeners,
    (∀ k ∈ added, ∀ cfg, e.lazyConnMgr.managedPeers.lookup k = some cfg → cfg.peerConnID ≠ id) →
    id ∈ e'.lazyConnMgr.listeners

/-- A new exclude list moves peers in and out of the lazy manager. -/
theorem Kept.excludeSet (h : e.Kept) (hne : peerIDs.toFinset ≠ e.appliedExcludeList) :
    ∃ added, ExcludeSet e peerIDs added (e.setExcludeList peerIDs) := by
  have hky : ∀ k cfg, e.lazyConnMgr.excludes.lookup k = some cfg → cfg.publicKey = k :=
    fun k cfg hcg => (h.excluded k cfg hcg).key
  set cfgs := peerIDs.filterMap fun peerID =>
    (e.peerStore.lookup peerID).map (·.lazyPeerCfg peerID) with hcf
  have hs : e.setExcludeList peerIDs = (e.lazyConnMgr.excludePeer cfgs).1.foldl openConn
      { e with
        lazyConnMgr := (e.lazyConnMgr.excludePeer cfgs).2
        appliedExcludeList := peerIDs.toFinset } := by
    rw [setExcludeList, if_neg hne]
  obtain ⟨hm, hc, ha⟩ := openConns_rest
    { e with
      lazyConnMgr := (e.lazyConnMgr.excludePeer cfgs).2
      appliedExcludeList := peerIDs.toFinset } (e.lazyConnMgr.excludePeer cfgs).1
  refine ⟨(e.lazyConnMgr.excludePeer cfgs).1, fun k => e.lazyConnMgr.mem_excludePeer_added, ?_, ?_,
    ?_, ?_, ?_, ?_⟩
  · intro k
    rw [hs]
    exact lookup_openConns _ _ k
  · rw [hs, hc]
  · rw [hs, ha]
  · rw [hs, hm]
    rfl
  · intro k cfg
    rw [hs, hm]
    exact e.lazyConnMgr.lookup_excludePeer hky cfgs k cfg
  · intro id hid hk
    rw [hs, hm]
    exact e.lazyConnMgr.mem_listeners_excludePeer hid hk

/-- The new exclude list leaves the manager and the store in agreement, when the peers that leave
the old one are stored with the connection it has. -/
theorem Kept.setExcludeList (h : e.Kept)
    (hd : peerIDs.toFinset ≠ e.appliedExcludeList → DroppedStored e peerIDs) :
    (e.setExcludeList peerIDs).Kept := by
  by_cases hne : peerIDs.toFinset = e.appliedExcludeList
  · rwa [ConnMgr.setExcludeList, if_pos hne]
  obtain ⟨added, hst⟩ := h.excludeSet hne
  -- a stored connection is the one from before, up to being opened
  have hs : ∀ k c, (e.setExcludeList peerIDs).peerStore.lookup k = some c →
      ∃ c₀, e.peerStore.lookup k = some c₀ ∧ c.connID = c₀.connID ∧ c.allowedIps = c₀.allowedIps ∧
        (c.opened ↔ c₀.opened ∨ k ∈ added) := by
    intro k c hc
    rw [hst.store] at hc
    obtain ⟨c₀, hc₀, rfl⟩ := map_eq_some_iff.1 hc
    exact ⟨c₀, hc₀, rfl, rfl, by simp⟩
  refine ⟨?_, ?_, ?_, ?_, ?_⟩
  · intro k c hc
    obtain ⟨c₀, hc₀, hid, -⟩ := hs k c hc
    rw [hst.conns, hid]
    exact h.connID_lt k c₀ hc₀
  · intro k₁ k₂ c₁ c₂ h₁ h₂ heq
    obtain ⟨d₁, hd₁, hi₁, -⟩ := hs k₁ c₁ h₁
    obtain ⟨d₂, hd₂, hi₂, -⟩ := hs k₂ c₂ h₂
    exact h.connID_inj k₁ k₂ d₁ d₂ hd₁ hd₂ (hi₁ ▸ hi₂ ▸ heq)
  · intro k cfg hcf
    rw [hst.excludes] at hcf
    have hm : k ∈ e.excludeConfigs peerIDs := mem_of_lookup hcf
    rw [lookup_excludeConfigs] at hcf
    split at hcf
    swap
    · cases hcf
    rename_i hid
    obtain ⟨c₀, hc₀, rfl⟩ := map_eq_some_iff.1 hcf
    have hol : k ∉ added → ∃ old, e.lazyConnMgr.excludes.lookup k = some old := by
      intro ha
      rw [hst.mem_added] at ha
      exact mem_iff_lookup.1 (not_not.1 fun hno => ha ⟨hm, hno⟩)
    refine ⟨rfl, hst.conns ▸ h.connID_lt k c₀ hc₀, ?_, ?_, ?_, ?_⟩
    · refine eq_none_iff_forall_ne_some.2 fun cfg hcf => ?_
      rcases (hst.managed k cfg).1 hcf with ⟨hcf, ha⟩ | ⟨-, -, hno⟩
      · obtain ⟨old, hol⟩ := hol ha
        rw [(h.excluded k old hol).unmanaged] at hcf
        cases hcf
      · exact hno hm
    · intro c hc
      obtain ⟨c₁, hc₁, -, -, ho⟩ := hs k c hc
      by_cases ha : k ∈ added
      · exact ho.2 (.inr ha)
      · obtain ⟨old, hol⟩ := hol ha
        exact ho.2 (.inl ((h.excluded k old hol).opened c₁ hc₁))
    · intro c hc _
      obtain ⟨c₁, hc₁, -, hi, -⟩ := hs k c hc
      rw [hi, some.inj (hc₁.symm.trans hc₀)]
      rfl
    · rw [hst.applied]
      exact mem_toFinset.2 hid
  · intro k cfg hcf
    have hf : ∃ c, e.peerStore.lookup k = some c ∧ cfg.peerConnID = c.connID ∧
        cfg.allowedIPs = c.allowedIps := by
      rcases (hst.managed k cfg).1 hcf with ⟨hcf, -⟩ | ⟨-, he, hno⟩
      · exact h.managed k cfg hcf
      · obtain ⟨c, hc, hid⟩ := hd hne k cfg he hno
        exact ⟨c, hc, hid, (h.excluded k cfg he).allowedIPs c hc hid⟩
    obtain ⟨c, hc, hid, hi⟩ := hf
    refine ⟨{ c with opened := c.opened || k ∈ added }, ?_, hid, hi⟩
    rw [hst.store, hc]
    rfl
  · intro k c hc
    obtain ⟨c₀, hc₀, hid, -, ho⟩ := hs k c hc
    by_cases ha : k ∈ added
    · exact .inr (ho.2 (.inr ha))
    · rcases h.awake k c₀ hc₀ with hm | hop
      · refine .inl (hid ▸ hst.listeners _ hm fun k₁ hk₁ cfg hcf heq => ?_)
        -- a listener that goes is that of a peer that was added to the list
        obtain ⟨c₁, hc₁, hi₁, -⟩ := h.managed k₁ cfg hcf
        exact ha (h.connID_inj k₁ k c₁ c₀ hc₁ hc₀ (hi₁.symm.trans heq) ▸ hk₁)
      · exact .inr (ho.2 (.inl hop))

/-- Otherwise such a peer is managed with a connection it does not have. -/
theorem Kept.droppedStored (h : e.Kept) (hne : peerIDs.toFinset ≠ e.appliedExcludeList)
    (ht : (e.setExcludeList peerIDs).ManagedStored) : DroppedStored e peerIDs := by
  obtain ⟨added, hs⟩ := h.excludeSet hne
  intro k cfg hcf hno
  have hm := (hs.managed k cfg).2 (.inr ⟨(h.excluded k cfg hcf).unmanaged, hcf, hno⟩)
  obtain ⟨c, hc, hid, -⟩ := ht k cfg hm
  rw [hs.store] at hc
  obtain ⟨c₀, hc₀, rfl⟩ := map_eq_some_iff.1 hc
  exact ⟨c₀, hc₀, hid⟩

/-! ### Applying network maps -/

/-- The network map is applied to the end: no peer is refused. -/
def Completes (env : Env) (e : ConnMgr) (x : NetworkMap) : Prop :=
  ((e.updateFlags x).reconcilePeers env x).2 = true

/-- The exclude list is the same as before, or every peer that leaves it has kept the connection
with which it came on it and keeps it now. -/
def ExcludedKeep (env : Env) (e : ConnMgr) (x : NetworkMap) : Prop :=
  ((e.updateFlags x).toExcludedLazyPeers env x).toFinset = e.appliedExcludeList ∨
  ∀ k cfg, e.lazyConnMgr.excludes.lookup k = some cfg →
    x.remotePeersIsEmpty = false ∧ k ∈ (e.updateFlags x).toExcludedLazyPeers env x ∨
    Keeps env e x k ∧ ∃ c, e.peerStore.lookup k = some c ∧ cfg.peerConnID = c.connID

theorem Kept.updateFlags (h : e.Kept) (x : NetworkMap) : (e.updateFlags x).Kept where
  connID_lt := h.connID_lt
  connID_inj := h.connID_inj
  excluded k cfg hc :=
    have hx := h.excluded k cfg hc
    ⟨hx.key, hx.connID_lt, hx.unmanaged, hx.opened, hx.allowedIPs, hx.applied⟩
  managed := h.managed
  awake := h.awake

theorem toExcludedLazyPeers_congr (h : e'.remoteLazyEnabled = e.remoteLazyEnabled)
    (x : NetworkMap) : e'.toExcludedLazyPeers env x = e.toExcludedLazyPeers env x := by
  unfold toExcludedLazyPeers peerLazyDefault
  rw [h]

theorem sync_of_completes (hx : e.Completes env x) :
    e.sync env x = (((e.updateFlags x).reconcilePeers env x).1).setExcludeList
      (((e.updateFlags x).reconcilePeers env x).1.toExcludedLazyPeers env x) := by
  unfold sync Completes at *
  generalize (e.updateFlags x).reconcilePeers env x = r at *
  obtain ⟨e₁, ok⟩ := r
  obtain rfl : ok = true := hx
  rfl

theorem sync_of_not_completes (hx : ¬ e.Completes env x) :
    e.sync env x = ((e.updateFlags x).reconcilePeers env x).1 := by
  unfold sync Completes at *
  generalize (e.updateFlags x).reconcilePeers env x = r at *
  obtain ⟨e₁, ok⟩ := r
  cases ok with
  | false => rfl
  | true => exact absurd rfl hx

theorem mem_excludeConfigs : k ∈ e.excludeConfigs peerIDs ↔ k ∈ peerIDs ∧ k ∈ e.peerStore := by
  rw [mem_iff_lookup, mem_iff_lookup, lookup_excludeConfigs]
  by_cases hk : k ∈ peerIDs <;> simp [hk]

theorem mem_remotePeers_of_excluded (hk : k ∈ e.toExcludedLazyPeers env x) :
    ∃ p ∈ remotePeers env x, p.wgPubKey = k := by
  obtain ⟨p, hp, hpk⟩ := mem_map.1 (mem_dedup.1 hk)
  exact ⟨p, (mem_filter.1 hp).1, hpk⟩

/-- The condition, seen when the peers of the network map have been applied. -/
theorem Kept.droppedStored_iff (h : e.Kept) (hx : e.Completes env x) :
    DroppedStored ((e.updateFlags x).reconcilePeers env x).1
        ((e.updateFlags x).toExcludedLazyPeers env x) ↔
      ∀ k cfg, e.lazyConnMgr.excludes.lookup k = some cfg →
        x.remotePeersIsEmpty = false ∧ k ∈ (e.updateFlags x).toExcludedLazyPeers env x ∨
        Keeps env e x k ∧ ∃ c, e.peerStore.lookup k = some c ∧ cfg.peerConnID = c.connID := by
  have hr := (h.updateFlags x).reconcilePeers env x
  unfold DroppedStored
  rw [show ((e.updateFlags x).reconcilePeers env x).1.lazyConnMgr.excludes =
    e.lazyConnMgr.excludes from hr.excludes]
  refine forall_congr' fun k => forall_congr' fun cfg => imp_congr_right fun hcf => ?_
  rw [mem_excludeConfigs]
  constructor
  · intro hs
    by_cases hm : k ∈ (e.updateFlags x).toExcludedLazyPeers env x ∧
        k ∈ ((e.updateFlags x).reconcilePeers env x).1.peerStore
    · refine .inl ⟨?_, hm.1⟩
      by_contra he
      have hn := hr.empty (Bool.eq_true_of_not_eq_false he) k
      exact lookup_eq_none.1 hn hm.2
    · obtain ⟨c, hc, hid⟩ := hs hm
      rcases hr.new k c hc with ⟨hk, ho⟩ | hf
      · exact .inr ⟨hk, c, ho, hid⟩
      · -- a new connection is not the one of the exclude list
        exact absurd (hid ▸ (h.excluded k cfg hcf).connID_lt) (not_lt.2 hf)
  · rintro (⟨hne, hm⟩ | ⟨hk, c, hc, hid⟩) hnt
    · obtain ⟨p, hp, rfl⟩ := mem_remotePeers_of_excluded hm
      exact absurd ⟨hm, hr.complete hx hne p hp⟩ hnt
    · exact ⟨c, hr.old k c hk hc, hid⟩

/-- A sync keeps the invariant while every excluded peer is kept. -/
theorem Kept.sync (h : e.Kept) (hx : e.Completes env x → e.ExcludedKeep env x) :
    (e.sync env x).Kept := by
  have hr := (h.updateFlags x).reconcilePeers env x
  by_cases hc : e.Completes env x
  swap
  · rw [sync_of_not_completes hc]
    exact hr.kept
  rw [sync_of_completes hc, toExcludedLazyPeers_congr hr.flag]
  refine hr.kept.setExcludeList fun hne => (h.droppedStored_iff hc).2 ?_
  rw [hr.applied] at hne
  exact (hx hc).resolve_left hne

/-- In every run whose network maps meet the condition, the manager and the store agree after each
of them. From each state of such a run, a network map that is applied to the end leaves them in
agreement exactly when it meets the condition as well. -/
theorem tracks_sync_iff (h : Reaches (fun e x => some (sync env e x))
    (fun e x => e.Completes env x → e.ExcludedKeep env x) {} e) :
    e.Tracks ∧ ∀ x, e.Completes env x → ((e.sync env x).Tracks ↔ e.ExcludedKeep env x) := by
  have hk : e.Kept := by
    refine h.invariant (p := Kept) Kept.init ?_
    intro e x e' he hok hs
    cases hs
    exact he.sync hok
  refine ⟨hk.tracks, fun x hx => ⟨fun ht => ?_, fun hok => (hk.sync fun _ => hok).tracks⟩⟩
  have hr := (hk.updateFlags x).reconcilePeers env x
  rw [sync_of_completes hx, toExcludedLazyPeers_congr hr.flag] at ht
  refine or_iff_not_imp_left.2 fun hne => (hk.droppedStored_iff hx).1 ?_
  exact hr.kept.droppedStored (fun heq => hne (heq.trans hr.applied)) ht.managed

/-- A client without IPv6 and without a local override, whose peers all support lazy connections. -/
def plainEnv : Env := ⟨"self", false, .none, fun _ => true⟩

def remotePeer (key ip : String) (lazyState : LazyState) : RemotePeerConfig :=
  ⟨key, [ip], "0.60.0", lazyState⟩

/-- A peer that is not lazy by policy becomes lazy and keeps its connection. -/
theorem tracks_sync_iff_flipped :
    ∃ e, Tracks e ∧ "a" ∈ e.lazyConnMgr.excludes ∧
      ((e.sync plainEnv { remotePeers := [remotePeer "a" "100.64.0.1/32" .lazy] }).Tracks ↔
        e.ExcludedKeep plainEnv { remotePeers := [remotePeer "a" "100.64.0.1/32" .lazy] }) := by
  have h : Reaches (fun e x => some (sync plainEnv e x))
      (fun e x => e.Completes plainEnv x → e.ExcludedKeep plainEnv x) {}
      (sync plainEnv {} { remotePeers := [remotePeer "a" "100.64.0.1/32" .eager] }) :=
    .tail .refl (fun _ => .inr fun _ _ hc => nomatch hc) rfl
  obtain ⟨ht, hn⟩ := tracks_sync_iff h
  refine ⟨_, ht, by decide +kernel, hn _ ?_⟩
  unfold Completes
  decide +kernel

/-- A peer that is not lazy by policy leaves the network map and comes back as a lazy one. It was
managed while it was away, so its new connection neither waits for traffic nor is opened. -/
theorem returned_peer_unreachable :
    ∃ e, Reaches (fun e x => some (sync plainEnv e x)) (fun _ _ => True) {} e ∧
      "a" ∉ e.appliedExcludeList ∧
      (e.peerStore.lookup "a").any (fun c => c.connID = 2 && !c.opened) ∧
      2 ∉ e.lazyConnMgr.listeners ∧
      (e.lazyConnMgr.managedPeers.lookup "a").any (·.peerConnID = 0) := by
  refine exists_reaches [
    { remotePeers := [remotePeer "a" "100.64.0.1/32" .eager, remotePeer "b" "100.64.0.2/32" .lazy] },
    { remotePeers := [remotePeer "b" "100.64.0.2/32" .lazy] },
    { remotePeers := [remotePeer "a" "100.64.0.1/32" .lazy, remotePeer "b" "100.64.0.2/32" .lazy] }]
    ?_
  decide +kernel

end ConnMgr

end Cloink.LazyConn
