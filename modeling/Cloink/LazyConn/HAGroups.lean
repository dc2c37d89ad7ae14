import Cloink.LazyConn.Manager
import Cloink.Lib.Interleaving

/-!
# HA groups wake and sleep together

Peers that route one network form an HA group. A peer that wakes up wakes the managed peers of its
groups, a new peer of a group with an active member is active at once, and a peer that has timed out
stays active while another active member of one of its groups has not timed out. Each of the calls
looks one group ahead, which is not enough where groups overlap.
-/

namespace Cloink.LazyConn

open AList List Option Manager Function

/-! ### The manager -/

namespace Manager

variable (m : Manager)

def isActive (peerID : String) : Bool :=
  (m.managedPeers.lookup peerID).any fun cfg =>
    (m.managedPeersByConnID.lookup cfg.peerConnID).any (·.expectedWatcher = .inactivity)

def getPeerForActivation (peerID : String) : Option PeerConfig :=
  match m.managedPeers.lookup peerID with
  | none => none
  | some cfg =>
    match m.managedPeersByConnID.lookup cfg.peerConnID with
    | none => none
    | some mp => if mp.expectedWatcher = .inactivity then none else some cfg

/-- The other members of the groups of a peer. -/
def peersToActivate (peerID : String) : List String :=
  (m.haGroupToPeers.filter (peerID ∈ ·)).flatten.filter (· ≠ peerID)

/-- Another member of the group is active and has not timed out. -/
def checkHaGroupActivity (haGroup : List String) (peerID : String) (inactivePeers : List String) :
    Bool :=
  haGroup.any fun groupPeerID =>
    groupPeerID ≠ peerID && m.isActive groupPeerID && groupPeerID ∉ inactivePeers

def shouldDeferIdleForHA (inactivePeers : List String) (peerID : String) : Bool :=
  m.haGroupToPeers.any fun haGroup =>
    peerID ∈ haGroup && m.checkHaGroupActivity haGroup peerID inactivePeers

def watchActivity (peerCfg : PeerConfig) (listenerFails : Bool) : Manager :=
  { m with
    managedPeersByConnID := m.managedPeersByConnID.insert peerCfg.peerConnID ⟨peerCfg, .activity⟩
    listeners := if listenerFails then m.listeners else insert peerCfg.peerConnID m.listeners }

end Manager

namespace ConnMgr

variable (e : ConnMgr)

def closeConn (peerKey : String) : ConnMgr :=
  match e.peerStore.lookup peerKey with
  | none => e
  | some conn => { e with peerStore := e.peerStore.insert peerKey { conn with opened := false } }

/-- One of the peers of the groups is woken, unless it is active. -/
def activateGroupPeer (peerID : String) : ConnMgr :=
  match e.lazyConnMgr.getPeerForActivation peerID with
  | none => e
  | some cfg =>
    { e with lazyConnMgr := e.lazyConnMgr.activateSinglePeer cfg }.openConn cfg.publicKey

def activateHAGroupPeers (peerID : String) : ConnMgr :=
  (e.lazyConnMgr.peersToActivate peerID).foldl activateGroupPeer e

/-- `Manager.ActivatePeer`, on a message of the peer. The caller opens the connection. -/
def activatePeer (peerID : String) : Bool × ConnMgr :=
  match e.lazyConnMgr.getPeerForActivation peerID with
  | none => (false, e)
  | some cfg =>
    (true, { e with lazyConnMgr := e.lazyConnMgr.activateSinglePeer cfg }.activateHAGroupPeers
      cfg.publicKey)

def onPeerActivity (peerConnID : Nat) : ConnMgr :=
  match e.lazyConnMgr.managedPeersByConnID.lookup peerConnID with
  | none => e
  | some mp =>
    if mp.expectedWatcher ≠ .activity then e
    else
      ({ e with lazyConnMgr := e.lazyConnMgr.activateSinglePeer mp.peerCfg }.activateHAGroupPeers
        mp.peerCfg.publicKey).openConn mp.peerCfg.publicKey

/-- One of the peers that have timed out. -/
def peerTimedOut (peerIDs listenerFails : List String) (peerID : String) : ConnMgr :=
  match e.lazyConnMgr.managedPeers.lookup peerID with
  | none => e
  | some peerCfg =>
    match e.lazyConnMgr.managedPeersByConnID.lookup peerCfg.peerConnID with
    | none => e
    | some mp =>
      if mp.expectedWatcher ≠ .inactivity then e
      else if e.lazyConnMgr.shouldDeferIdleForHA peerIDs mp.peerCfg.publicKey then e
      else
        let e := e.closeConn mp.peerCfg.publicKey
        { e with
          lazyConnMgr := e.lazyConnMgr.watchActivity mp.peerCfg (peerID ∈ listenerFails) }

/-- The peers that have timed out, in the order in which the map is iterated. -/
def onPeerInactivityTimedOut (peerIDs listenerFails : List String) : ConnMgr :=
  peerIDs.foldl (fun e peerID => e.peerTimedOut peerIDs listenerFails peerID) e

end ConnMgr

inductive Call where
  | addPeer (peerCfg : PeerConfig) (listenerFails : Bool)
  | activatePeer (peerID : String)
  | onPeerActivity (peerConnID : Nat)
  | onPeerInactivityTimedOut (peerIDs listenerFails : List String)

def ConnMgr.call (e : ConnMgr) : Call → ConnMgr
  | .addPeer peerCfg listenerFails => (e.addPeer peerCfg listenerFails).2
  | .activatePeer peerID => (e.activatePeer peerID).2
  | .onPeerActivity peerConnID => e.onPeerActivity peerConnID
  | .onPeerInactivityTimedOut peerIDs listenerFails =>
    e.onPeerInactivityTimedOut peerIDs listenerFails

/-! ### What is watched for -/

namespace Manager

/-- None for a peer that is not managed; otherwise it is idle while activity is watched for, and
active while inactivity is. -/
def watcher (m : Manager) (peerID : String) : Option WatcherType :=
  (m.managedPeers.lookup peerID).bind fun cfg =>
    (m.managedPeersByConnID.lookup cfg.peerConnID).map ManagedPeer.expectedWatcher

/-- The two maps of the manager belong together. -/
structure Linked (m : Manager) : Prop where
  managed : ∀ k cfg, m.managedPeers.lookup k = some cfg →
    cfg.publicKey = k ∧ ∃ w, m.managedPeersByConnID.lookup cfg.peerConnID = some ⟨cfg, w⟩
  byConnID : ∀ id mp, m.managedPeersByConnID.lookup id = some mp →
    mp.peerCfg.peerConnID = id ∧ m.managedPeers.lookup mp.peerCfg.publicKey = some mp.peerCfg

variable {m m' : Manager} {k : String} {cfg : PeerConfig} {w : WatcherType}

theorem isActive_iff : m.isActive k ↔ m.watcher k = some .inactivity := by
  unfold isActive watcher
  cases m.managedPeers.lookup k with
  | none => simp
  | some cfg =>
    cases hmp : m.managedPeersByConnID.lookup cfg.peerConnID with
    | none => simp [hmp]
    | some mp => simp [hmp]

variable (h : m.Linked)

include h

theorem Linked.watcher_eq_none : m.watcher k = none ↔ m.managedPeers.lookup k = none := by
  unfold watcher
  cases hk : m.managedPeers.lookup k with
  | none => simp
  | some cfg =>
    obtain ⟨-, w, hw⟩ := h.managed k cfg hk
    simp [hw]

/-- The manager after what is watched for has changed for one peer. -/
structure Sets (m : Manager) (k : String) (w : WatcherType) (m' : Manager) : Prop where
  linked : m'.Linked
  groups : m'.haGroupToPeers = m.haGroupToPeers
  watcher : m'.watcher = update m.watcher k (some w)

/-- The peer and its connection are entered in both maps, where no other peer has the connection and
no other connection the peer. -/
theorem Linked.sets (hky : cfg.publicKey = k)
    (hp : ∀ q cfg', q ≠ k → m.managedPeers.lookup q = some cfg' → cfg'.peerConnID ≠ cfg.peerConnID)
    (hcn : ∀ id mp, id ≠ cfg.peerConnID → m.managedPeersByConnID.lookup id = some mp →
      mp.peerCfg.publicKey ≠ k)
    (hs : m'.managedPeers.lookup k = some cfg)
    (hr : ∀ q, q ≠ k → m'.managedPeers.lookup q = m.managedPeers.lookup q)
    (hc : m'.managedPeersByConnID = m.managedPeersByConnID.insert cfg.peerConnID ⟨cfg, w⟩)
    (hg : m'.haGroupToPeers = m.haGroupToPeers) : Sets m k w m' := by
  refine ⟨⟨fun q cfg' hc' => ?_, fun id mp hmp => ?_⟩, hg, ?_⟩
  · by_cases hq : q = k
    · subst hq
      obtain rfl := some.inj (hs.symm.trans hc')
      exact ⟨hky, w, by rw [hc, lookup_insert]⟩
    · rw [hr q hq] at hc'
      obtain ⟨hk', w', hw'⟩ := h.managed q cfg' hc'
      exact ⟨hk', w', by rw [hc, lookup_insert_ne (hp q cfg' hq hc'), hw']⟩
  · rw [hc] at hmp
    by_cases hid : id = cfg.peerConnID
    · subst hid
      rw [lookup_insert] at hmp
      cases hmp
      exact ⟨rfl, hky ▸ hs⟩
    · rw [lookup_insert_ne hid] at hmp
      rw [hr _ (hcn id mp hid hmp)]
      exact h.byConnID id mp hmp
  · funext q
    by_cases hq : q = k
    · subst hq
      simp [watcher, hs, hc, lookup_insert]
    · rw [update_of_ne hq]
      unfold watcher
      rw [hr q hq]
      cases hc' : m.managedPeers.lookup q with
      | none => rfl
      | some cfg' =>
        simp only [bind_some]
        rw [hc, lookup_insert_ne (hp q cfg' hq hc')]

variable (hk : m.managedPeers.lookup k = some cfg)

include hk

theorem Linked.sets_of_lookup (hm : m'.managedPeers = m.managedPeers)
    (hc : m'.managedPeersByConnID = m.managedPeersByConnID.insert cfg.peerConnID ⟨cfg, w⟩)
    (hg : m'.haGroupToPeers = m.haGroupToPeers) : Sets m k w m' := by
  obtain ⟨hky, w₀, hw₀⟩ := h.managed k cfg hk
  refine h.sets hky (fun q cfg' hq hc' heq => ?_) (fun id mp hid hmp heq => ?_)
    (hm ▸ hk) (fun q _ => by rw [hm]) hc hg
  · obtain ⟨hk', w', hw'⟩ := h.managed q cfg' hc'
    rw [heq, hw₀] at hw'
    have hcf : cfg = cfg' := congrArg ManagedPeer.peerCfg (some.inj hw')
    exact hq (hk'.symm.trans ((congrArg PeerConfig.publicKey hcf).symm.trans hky))
  · obtain ⟨hid', hmp'⟩ := h.byConnID id mp hmp
    rw [heq, hk] at hmp'
    exact hid (hid'.symm.trans (congrArg PeerConfig.peerConnID (some.inj hmp')).symm)

/-- An activation makes the inactivity watcher watch the peer. -/
theorem Linked.activateSinglePeer : Sets m k .inactivity (m.activateSinglePeer cfg) :=
  h.sets_of_lookup hk rfl rfl rfl

theorem Linked.watchActivity (b : Bool) : Sets m k .activity (m.watchActivity cfg b) :=
  h.sets_of_lookup hk rfl rfl rfl

omit hk

theorem Linked.armActivityListener (hk : cfg.publicKey ∉ m.managedPeers)
    (hc : cfg.peerConnID ∉ m.managedPeersByConnID) :
    Sets m cfg.publicKey .activity (m.armActivityListener cfg) := by
  refine h.sets rfl (fun q cfg' _ hc' heq => ?_) (fun id mp _ hmp heq => ?_)
    (lookup_insert _) (fun q hq => lookup_insert_ne hq) rfl rfl
  · obtain ⟨-, w', hw'⟩ := h.managed q cfg' hc'
    rw [heq, lookup_eq_none.2 hc] at hw'
    cases hw'
  · have hmp' := (h.byConnID id mp hmp).2
    rw [heq, lookup_eq_none.2 hk] at hmp'
    cases hmp'

theorem Linked.getPeerForActivation :
    m.getPeerForActivation k = none ∧ m.watcher k ≠ some .activity ∨
    ∃ cfg, m.getPeerForActivation k = some cfg ∧ m.watcher k = some .activity ∧
      cfg.publicKey = k ∧ m.managedPeers.lookup k = some cfg := by
  unfold Manager.getPeerForActivation Manager.watcher
  cases hk : m.managedPeers.lookup k with
  | none => simp
  | some cfg =>
    obtain ⟨hky, w, hw⟩ := h.managed k cfg hk
    cases w <;> simp [hw, hky]

omit h

/-- The peers of a list are woken, as far as they are managed. -/
structure Wakes (m : Manager) (l : List String) (m' : Manager) : Prop where
  linked : m'.Linked
  watcher : ∀ q, m'.watcher q =
    if q ∈ l ∧ (m.watcher q).isSome then some .inactivity else m.watcher q

/-- The peers to activate share a group with the peer. -/
theorem mem_peersToActivate {p q : String} : q ∈ m.peersToActivate p ↔
    q ≠ p ∧ ∃ g ∈ m.haGroupToPeers, p ∈ g ∧ q ∈ g := by
  simp only [peersToActivate, mem_filter, mem_flatten, decide_eq_true_eq, ne_eq]
  constructor
  · rintro ⟨⟨g, ⟨hg, hp⟩, hq⟩, hne⟩
    exact ⟨hne, g, hg, hp, hq⟩
  · rintro ⟨hne, g, hg, hp, hq⟩
    exact ⟨⟨g, ⟨hg, hp⟩, hq⟩, hne⟩

/-- A peer stays awake for one of its group that is awake. -/
theorem shouldDeferIdleForHA_iff {idle : List String} :
    m.shouldDeferIdleForHA idle k ↔ ∃ g ∈ m.haGroupToPeers, k ∈ g ∧
      ∃ q ∈ g, q ≠ k ∧ m.watcher q = some .inactivity ∧ q ∉ idle := by
  simp [shouldDeferIdleForHA, checkHaGroupActivity, isActive_iff, and_assoc]

theorem shouldActivateNewPeer_iff : m.shouldActivateNewPeer k ↔
    ∃ g ∈ m.haGroupToPeers, k ∈ g ∧ ∃ q ∈ g, q ≠ k ∧ m.watcher q = some .inactivity := by
  simp only [← isActive_iff, shouldActivateNewPeer, List.any_eq_true, Bool.and_eq_true,
    decide_eq_true_eq, ne_eq]
  rfl

end Manager

/-! ### The loops -/

namespace ConnMgr

variable {e : ConnMgr}

@[simp] theorem lazyConnMgr_closeConn (k : String) :
    (e.closeConn k).lazyConnMgr = e.lazyConnMgr := by
  unfold closeConn
  split <;> rfl

variable (h : e.lazyConnMgr.Linked)

include h

theorem lazyConnMgr_activateGroupPeer (p : String) : (e.lazyConnMgr.watcher p = some .activity ∧
        Sets e.lazyConnMgr p .inactivity (e.activateGroupPeer p).lazyConnMgr) ∨
      e.lazyConnMgr.watcher p ≠ some .activity ∧ e.activateGroupPeer p = e := by
  unfold activateGroupPeer
  rcases h.getPeerForActivation (k := p) with ⟨hn, hw⟩ | ⟨cfg, hs, hw, hky, hc⟩
  · rw [hn]
    exact .inr ⟨hw, rfl⟩
  · rw [hs]
    refine .inl ⟨hw, ?_⟩
    rw [lazyConnMgr_openConn]
    exact h.activateSinglePeer hc

theorem wakes_foldl (l : List String) :
    Wakes e.lazyConnMgr l (l.foldl activateGroupPeer e).lazyConnMgr := by
  induction l generalizing e with
  | nil => exact ⟨h, fun q => by simp⟩
  | cons p l ih =>
    rw [foldl_cons]
    rcases e.lazyConnMgr_activateGroupPeer h p with ⟨hw, hs⟩ | ⟨hw, heq⟩
    · obtain ⟨hl, hr⟩ := ih hs.linked
      refine ⟨hl, fun q => ?_⟩
      rw [hr q, hs.watcher]
      by_cases hq : q = p
      · subst hq
        simp [hw]
      · simp [hq]
    · rw [heq]
      obtain ⟨hl, hr⟩ := ih h
      refine ⟨hl, fun q => ?_⟩
      rw [hr q]
      by_cases hq : q = p
      · subst hq
        cases hwq : e.lazyConnMgr.watcher q with
        | none => simp
        | some w => cases w <;> simp_all
      · simp [hq]

/-- An activation wakes the peer and those of its groups. -/
theorem wakes_activate {p : String} {cfg : PeerConfig}
    (hc : e.lazyConnMgr.managedPeers.lookup p = some cfg) :
    Wakes e.lazyConnMgr (p :: e.lazyConnMgr.peersToActivate p)
      ({ e with lazyConnMgr := e.lazyConnMgr.activateSinglePeer cfg }.activateHAGroupPeers
        p).lazyConnMgr := by
  have hs := h.activateSinglePeer hc
  obtain ⟨hl, hr⟩ := wakes_foldl
    (show ({ e with lazyConnMgr := e.lazyConnMgr.activateSinglePeer cfg } :
      ConnMgr).lazyConnMgr.Linked from hs.linked) (e.lazyConnMgr.peersToActivate p)
  refine ⟨hl, fun q => (hr q).trans ?_⟩
  have hsm : (e.lazyConnMgr.watcher p).isSome := by
    rw [isSome_iff_ne_none, ne_eq, h.watcher_eq_none, hc]
    simp
  rw [hs.watcher]
  by_cases hq : q = p
  · subst hq
    simp [hsm]
  · simp [hq]

theorem lazyConnMgr_activatePeer (p : String) : (e.lazyConnMgr.watcher p = some .activity ∧
        Wakes e.lazyConnMgr (p :: e.lazyConnMgr.peersToActivate p)
          (e.activatePeer p).2.lazyConnMgr) ∨
      e.lazyConnMgr.watcher p ≠ some .activity ∧ (e.activatePeer p).2 = e := by
  unfold activatePeer
  rcases h.getPeerForActivation (k := p) with ⟨hn, hw⟩ | ⟨cfg, hs, hw, rfl, hc⟩
  · rw [hn]
    exact .inr ⟨hw, rfl⟩
  · rw [hs]
    exact .inl ⟨hw, wakes_activate h hc⟩

theorem lazyConnMgr_onPeerActivity (id : Nat) :
    (∃ mp, e.lazyConnMgr.managedPeersByConnID.lookup id = some mp ∧ mp.expectedWatcher = .activity ∧
      Wakes e.lazyConnMgr
        (mp.peerCfg.publicKey :: e.lazyConnMgr.peersToActivate mp.peerCfg.publicKey)
        (e.onPeerActivity id).lazyConnMgr) ∨
    (∀ mp, e.lazyConnMgr.managedPeersByConnID.lookup id = some mp →
      mp.expectedWatcher ≠ .activity) ∧ e.onPeerActivity id = e := by
  unfold onPeerActivity
  cases hmp : e.lazyConnMgr.managedPeersByConnID.lookup id with
  | none => exact .inr ⟨nofun, rfl⟩
  | some mp =>
    by_cases hw : mp.expectedWatcher = .activity
    · refine .inl ⟨mp, rfl, hw, ?_⟩
      simp only [hw, ne_eq, not_true_eq_false, if_false, lazyConnMgr_openConn]
      exact wakes_activate h (h.byConnID id mp hmp).2
    · refine .inr ⟨fun mp' hmp' => some.inj hmp' ▸ hw, ?_⟩
      simp [hw]

omit h

/-! ### Timing out -/

/-- The peer has timed out, and so have all active members of its groups. -/
def Idles (m : Manager) (peerIDs : List String) (p : String) : Prop :=
  p ∈ peerIDs ∧ m.watcher p = some .inactivity ∧ ¬m.shouldDeferIdleForHA peerIDs p

theorem lazyConnMgr_peerTimedOut (h : e.lazyConnMgr.Linked) (peerIDs lf : List String)
    (p : String) : (e.lazyConnMgr.watcher p = some .inactivity ∧
        ¬e.lazyConnMgr.shouldDeferIdleForHA peerIDs p ∧
        Sets e.lazyConnMgr p .activity (e.peerTimedOut peerIDs lf p).lazyConnMgr) ∨
      (e.lazyConnMgr.watcher p = some .inactivity → e.lazyConnMgr.shouldDeferIdleForHA peerIDs p) ∧
        e.peerTimedOut peerIDs lf p = e := by
  unfold peerTimedOut
  cases hp : e.lazyConnMgr.managedPeers.lookup p with
  | none => exact .inr ⟨fun hw => by simp [watcher, hp] at hw, rfl⟩
  | some cfg =>
    obtain ⟨hky, w, hmp⟩ := h.managed p cfg hp
    have hw : e.lazyConnMgr.watcher p = some w := by simp [watcher, hp, hmp]
    simp only [hmp, hky]
    cases w with
    | activity => exact .inr ⟨fun hi => by simp [hw] at hi, by simp⟩
    | inactivity =>
      by_cases hd : e.lazyConnMgr.shouldDeferIdleForHA peerIDs p
      · exact .inr ⟨fun _ => hd, by simp [hd]⟩
      · refine .inl ⟨hw, hd, ?_⟩
        simp only [ne_eq, not_true_eq_false, if_false, hd, Bool.false_eq_true,
          lazyConnMgr_closeConn]
        exact h.watchActivity hp _

theorem shouldDeferIdleForHA_congr {m m' : Manager} {peerIDs : List String} {p : String}
    (hg : m'.haGroupToPeers = m.haGroupToPeers)
    (hw : ∀ q, q ∉ peerIDs → m'.watcher q = m.watcher q) :
    m'.shouldDeferIdleForHA peerIDs p ↔ m.shouldDeferIdleForHA peerIDs p := by
  rw [shouldDeferIdleForHA_iff, shouldDeferIdleForHA_iff, hg]
  refine exists_congr fun g => and_congr_right fun _ => and_congr_right fun _ =>
    exists_congr fun q => and_congr_right fun _ => and_congr_right fun _ => ?_
  constructor
  · rintro ⟨hq, hn⟩
    exact ⟨hw q hn ▸ hq, hn⟩
  · rintro ⟨hq, hn⟩
    exact ⟨(hw q hn).trans hq, hn⟩

/-- The manager after some peers have gone idle. -/
structure Sleeps (m : Manager) (asleep : String → Prop) (m' : Manager) : Prop where
  linked : m'.Linked
  groups : m'.haGroupToPeers = m.haGroupToPeers
  idle : ∀ q, asleep q → m'.watcher q = some .activity
  rest : ∀ q, ¬asleep q → m'.watcher q = m.watcher q

variable {m m' : Manager} {asleep asleep' : String → Prop} {peerIDs : List String} {p : String}

theorem Sleeps.congr (h : Sleeps m asleep m') (hi : ∀ q, asleep q ↔ asleep' q) :
    Sleeps m asleep' m' where
  linked := h.linked
  groups := h.groups
  idle q hq := h.idle q ((hi q).2 hq)
  rest q hq := h.rest q fun ha => hq ((hi q).1 ha)

theorem Sleeps.sets {m'' : Manager} (h : Sleeps m asleep m') (hs : Sets m' p .activity m'') :
    Sleeps m (fun q => q = p ∨ asleep q) m'' where
  linked := hs.linked
  groups := hs.groups.trans h.groups
  idle q hq := by
    rw [hs.watcher]
    by_cases hqp : q = p
    · subst hqp
      exact update_self ..
    · rw [update_of_ne hqp]
      exact h.idle q (hq.resolve_left hqp)
  rest q hq := by
    rw [hs.watcher, update_of_ne fun hqp => hq (.inl hqp)]
    exact h.rest q fun ha => hq (.inr ha)

/-- The order of the peers does not matter: one that goes idle has timed out, and the check passes
over those anyway. -/
theorem sleeps_foldl (lf : List String) {l : List String} (hl : ∀ p ∈ l, p ∈ peerIDs)
    (hn : l.Nodup) (ha : ∀ q, asleep q → q ∈ peerIDs ∧ q ∉ l)
    (h : Sleeps m asleep e.lazyConnMgr) : Sleeps m (fun q => asleep q ∨ q ∈ l ∧ Idles m peerIDs q)
      (l.foldl (fun e p => e.peerTimedOut peerIDs lf p) e).lazyConnMgr := by
  induction l generalizing e asleep with
  | nil => exact h.congr fun q => by simp
  | cons p l ih =>
    obtain ⟨hp, hn⟩ := nodup_cons.1 hn
    have ht : ∀ q, asleep q → q ∈ peerIDs ∧ q ∉ l := fun q hq =>
      ⟨(ha q hq).1, fun hm => (ha q hq).2 (mem_cons_of_mem _ hm)⟩
    have hpw := h.rest p fun hm => (ha p hm).2 mem_cons_self
    have hdf := shouldDeferIdleForHA_congr (p := p) h.groups
      fun q hq => h.rest q fun hm => hq (ha q hm).1
    have hl' : ∀ q ∈ l, q ∈ peerIDs := fun q hq => hl q (mem_cons_of_mem _ hq)
    rw [foldl_cons]
    rcases e.lazyConnMgr_peerTimedOut h.linked peerIDs lf p with
      ⟨hw, hnt, hs⟩ | ⟨hw, heq⟩
    · have hid : Idles m peerIDs p :=
        ⟨hl p mem_cons_self, hpw ▸ hw, fun hd => hnt (hdf.2 hd)⟩
      have hnx : ∀ q, q = p ∨ asleep q → q ∈ peerIDs ∧ q ∉ l := by
        rintro q (rfl | hq)
        · exact ⟨hl q mem_cons_self, hp⟩
        · exact ht q hq
      refine (ih hl' hn hnx (h.sets hs)).congr fun q => ?_
      rw [mem_cons]
      constructor
      · rintro ((rfl | hq) | ⟨hq, hi⟩)
        · exact .inr ⟨.inl rfl, hid⟩
        · exact .inl hq
        · exact .inr ⟨.inr hq, hi⟩
      · rintro (hq | ⟨rfl | hq, hi⟩)
        · exact .inl (.inr hq)
        · exact .inl (.inl rfl)
        · exact .inr ⟨hq, hi⟩
    · rw [heq]
      have hid : ¬Idles m peerIDs p := fun hi => hi.2.2 (hdf.1 (hw (hpw.trans hi.2.1)))
      refine (ih hl' hn ht h).congr fun q => or_congr_right ?_
      rw [mem_cons]
      constructor
      · rintro ⟨hq, hi⟩
        exact ⟨.inr hq, hi⟩
      · rintro ⟨rfl | hq, hi⟩
        · exact absurd hi hid
        · exact ⟨hq, hi⟩

/-- After a timeout the peers sleep that have no reason to stay awake. -/
theorem sleeps_timedOut (h : e.lazyConnMgr.Linked) (hn : peerIDs.Nodup)
    (lf : List String) : Sleeps e.lazyConnMgr (Idles e.lazyConnMgr peerIDs)
      (e.onPeerInactivityTimedOut peerIDs lf).lazyConnMgr := by
  have hs : Sleeps e.lazyConnMgr (fun _ => False) e.lazyConnMgr :=
    ⟨h, rfl, fun _ hq => hq.elim, fun _ _ => rfl⟩
  refine (sleeps_foldl lf (fun _ hp => hp) hn (fun _ hq => hq.elim) hs).congr fun q => ?_
  exact ⟨fun hq => (hq.resolve_left id).2, fun hi => .inr ⟨hi.1, hi⟩⟩

theorem lazyConnMgr_addPeer (h : e.lazyConnMgr.Linked) {cfg : PeerConfig} {lf : Bool}
    (hc : cfg.publicKey ∉ e.lazyConnMgr.managedPeers →
      cfg.peerConnID ∉ e.lazyConnMgr.managedPeersByConnID) :
    (cfg.publicKey ∉ e.lazyConnMgr.excludes ∧ cfg.publicKey ∉ e.lazyConnMgr.managedPeers ∧
        lf = false ∧ Sets e.lazyConnMgr cfg.publicKey
          (if e.lazyConnMgr.shouldActivateNewPeer cfg.publicKey then .inactivity else .activity)
          (e.addPeer cfg lf).2.lazyConnMgr) ∨
      ¬(cfg.publicKey ∉ e.lazyConnMgr.excludes ∧ cfg.publicKey ∉ e.lazyConnMgr.managedPeers ∧
        lf = false) ∧ (e.addPeer cfg lf).2 = e := by
  by_cases he : cfg.publicKey ∈ e.lazyConnMgr.excludes
  · exact .inr ⟨fun hn => hn.1 he, by simp [addPeer, he]⟩
  by_cases hm : cfg.publicKey ∈ e.lazyConnMgr.managedPeers
  · exact .inr ⟨fun hn => hn.2.1 hm, by simp [addPeer, he, hm]⟩
  cases lf with
  | true => exact .inr ⟨fun hn => by simp at hn, by simp [addPeer, he, hm]⟩
  | false =>
    refine .inl ⟨he, hm, rfl, ?_⟩
    simp only [addPeer, he, hm, if_false, Bool.false_eq_true]
    have har := h.armActivityListener hm (hc hm)
    have ha : (e.lazyConnMgr.armActivityListener cfg).shouldActivateNewPeer cfg.publicKey ↔
        e.lazyConnMgr.shouldActivateNewPeer cfg.publicKey := by
      rw [shouldActivateNewPeer_iff, shouldActivateNewPeer_iff, har.groups]
      refine exists_congr fun g => and_congr_right fun _ => and_congr_right fun _ =>
        exists_congr fun q => and_congr_right fun _ => and_congr_right fun hq => ?_
      rw [har.watcher, update_of_ne hq]
    by_cases hnw : e.lazyConnMgr.shouldActivateNewPeer cfg.publicKey
    · simp only [ha.2 hnw, hnw, if_true, lazyConnMgr_openConn]
      obtain ⟨hl, hg, hw⟩ :=
        har.linked.activateSinglePeer (lookup_insert e.lazyConnMgr.managedPeers)
      refine ⟨hl, hg.trans har.groups, ?_⟩
      rw [hw, har.watcher, update_idem]
    · simp only [mt ha.1 hnw, hnw, if_false, Bool.false_eq_true]
      exact har

end ConnMgr

/-! ### The groups stay together -/

section

open ConnMgr (Idles Sleeps)
open Interleaving (Reaches)
open Manager (Linked Sets Wakes)

/-- Two peers are in one group. -/
def Manager.Shares (m : Manager) (p q : String) : Prop :=
  ∃ g ∈ m.haGroupToPeers, p ∈ g ∧ q ∈ g

/-- The managers before and after a call: with a peer that is woken, every managed member of its
groups is active, and with a peer that goes idle every other one is idle. -/
structure Together (m m' : Manager) : Prop where
  woken : ∀ p, m.watcher p ≠ some .inactivity → m'.watcher p = some .inactivity →
    ∀ q, m.Shares p q → (m'.watcher q).isSome → m'.watcher q = some .inactivity
  slept : ∀ p, m.watcher p = some .inactivity → m'.watcher p = some .activity →
    ∀ q, q ≠ p → m.Shares p q → (m'.watcher q).isSome → m'.watcher q = some .activity

/-- The idle members of the groups of the peer have no other idle peers in their groups. -/
def ClosedAround (m : Manager) (p : String) : Prop :=
  ∀ q r, m.Shares p q → m.watcher q = some .activity → m.Shares q r →
    m.watcher r = some .activity → m.Shares p r

/-- The condition on a call. A new peer finds its groups all idle or all active. A peer that wakes
up has `ClosedAround`. If all active members of the groups of a peer have timed out with it, then so
have those of the groups of these members. -/
def Closed (m : Manager) : Call → Prop
  | .addPeer peerCfg listenerFails =>
    peerCfg.publicKey ∉ m.excludes → peerCfg.publicKey ∉ m.managedPeers → listenerFails = false →
      ∀ q r, m.Shares peerCfg.publicKey q → m.watcher q = some .inactivity →
        m.Shares peerCfg.publicKey r → m.watcher r ≠ some .activity
  | .activatePeer peerID => m.watcher peerID = some .activity → ClosedAround m peerID
  | .onPeerActivity peerConnID => ∀ mp, m.managedPeersByConnID.lookup peerConnID = some mp →
    mp.expectedWatcher = .activity → ClosedAround m mp.peerCfg.publicKey
  | .onPeerInactivityTimedOut peerIDs _ => ∀ p ∈ peerIDs, m.watcher p = some .inactivity →
    (∀ q, m.Shares p q → m.watcher q = some .inactivity → q ∈ peerIDs) →
      ∀ q r, m.Shares p q → m.watcher q = some .inactivity →
        m.Shares q r → m.watcher r = some .inactivity → r ∈ peerIDs

/-- A new peer has a connection of its own, and a peer times out once. -/
def Valid (e : ConnMgr) : Call → Prop
  | .addPeer peerCfg _ => peerCfg.publicKey ∉ e.lazyConnMgr.managedPeers →
    peerCfg.peerConnID ∉ e.lazyConnMgr.managedPeersByConnID
  | .onPeerInactivityTimedOut peerIDs _ => peerIDs.Nodup
  | _ => True

variable {m m' : Manager} {p q : String}

theorem Manager.Shares.left (h : m.Shares p q) : m.Shares p p := by
  obtain ⟨g, hg, hp, -⟩ := h
  exact ⟨g, hg, hp, hp⟩

theorem Together.refl (m : Manager) : Together m m where
  woken _ hn hw := absurd hw hn
  slept _ hw hi := by simp [hw] at hi

theorem mem_wakes : q ∈ p :: m.peersToActivate p ↔ q = p ∨ m.Shares p q := by
  rw [mem_cons, mem_peersToActivate]
  by_cases hq : q = p
  · simp [hq]
  · simp [hq, Manager.Shares]

/-- When a peer is woken its groups stay together if they are closed around it. -/
theorem together_wakes_iff (h : Wakes m (p :: m.peersToActivate p) m') :
    Together m m' ↔ ClosedAround m p := by
  have hin : ∀ q, q = p ∨ m.Shares p q → (m.watcher q).isSome →
      m'.watcher q = some .inactivity := by
    intro q hq hs
    rw [h.watcher q, if_pos ⟨mem_wakes.2 hq, hs⟩]
  have ho : ∀ q, ¬(q = p ∨ m.Shares p q) → m'.watcher q = m.watcher q := by
    intro q hq
    rw [h.watcher q, if_neg fun hm => hq (mem_wakes.1 hm.1)]
  have hs : ∀ q, (m'.watcher q).isSome → (m.watcher q).isSome := by
    intro q hq
    rw [h.watcher q] at hq
    split at hq
    next hm => exact hm.2
    next => exact hq
  constructor
  · intro ht q r hpq hq hqr hr
    by_contra hpr
    have hrp : ¬(r = p ∨ m.Shares p r) := by
      rintro (rfl | hsh)
      · exact hpr hpq.left
      · exact hpr hsh
    have hrw := ht.woken q (by simp [hq]) (hin q (.inr hpq) (by simp [hq])) r hqr (by
      rw [ho r hrp, hr]
      rfl)
    rw [ho r hrp, hr] at hrw
    cases hrw
  · intro hc
    refine ⟨fun q hq hqw r hqr hr => ?_, fun q hq hi => ?_⟩
    · have hqn : q = p ∨ m.Shares p q := by
        by_contra hn
        exact hq ((ho q hn).symm.trans hqw)
      by_cases hrn : r = p ∨ m.Shares p r
      · exact hin r hrn (hs r hr)
      · rw [ho r hrn] at hr ⊢
        obtain ⟨w, hw⟩ := isSome_iff_exists.1 hr
        cases w with
        | inactivity => exact hw
        | activity =>
          rcases hqn with rfl | hpq
          · exact absurd (.inr hqr) hrn
          · obtain ⟨wq, hwq⟩ := isSome_iff_exists.1 (hs q (by rw [hqw]; rfl))
            cases wq with
            | inactivity => exact absurd hwq hq
            | activity => exact absurd (.inr (hc q r hpq hwq hqr hw)) hrn
    · by_cases hqn : q = p ∨ m.Shares p q
      · rw [hin q hqn (by simp [hq])] at hi
        cases hi
      · rw [ho q hqn, hq] at hi
        cases hi

theorem together_addPeer_iff (hn : m.watcher p = none)
    (h : Sets m p (if m.shouldActivateNewPeer p then .inactivity else .activity) m') :
    Together m m' ↔ ∀ q r, m.Shares p q → m.watcher q = some .inactivity →
      m.Shares p r → m.watcher r ≠ some .activity := by
  have ha : m.shouldActivateNewPeer p ↔ ∃ q, m.Shares p q ∧ m.watcher q = some .inactivity := by
    rw [shouldActivateNewPeer_iff]
    constructor
    · rintro ⟨g, hg, hpg, q, hqg, -, hq⟩
      exact ⟨q, ⟨g, hg, hpg, hqg⟩, hq⟩
    · rintro ⟨q, ⟨g, hg, hpg, hqg⟩, hq⟩
      exact ⟨g, hg, hpg, q, hqg, fun heq => by simp [heq, hn] at hq, hq⟩
  constructor
  · intro ht q r hpq hq hpr hr
    have hac : m.shouldActivateNewPeer p := ha.2 ⟨q, hpq, hq⟩
    have hrp : r ≠ p := fun heq => by simp [heq, hn] at hr
    have hrw := ht.woken p (by simp [hn]) (by rw [h.watcher]; simp [hac]) r hpr (by
      rw [h.watcher, update_of_ne hrp, hr]
      rfl)
    rw [h.watcher, update_of_ne hrp, hr] at hrw
    cases hrw
  · intro hc
    refine ⟨fun q hq hqw r hqr hr => ?_, fun q hq hi => ?_⟩
    · have hqp : q = p := by
        by_contra hne
        rw [h.watcher, update_of_ne hne] at hqw
        exact hq hqw
      subst hqp
      have hac : m.shouldActivateNewPeer q := by
        by_contra hnt
        rw [h.watcher] at hqw
        simp [hnt] at hqw
      by_cases hrq : r = q
      · rw [hrq]
        exact hqw
      · rw [h.watcher, update_of_ne hrq] at hr ⊢
        obtain ⟨q', hqq', hq'⟩ := ha.1 hac
        obtain ⟨w, hw⟩ := isSome_iff_exists.1 hr
        cases w with
        | inactivity => exact hw
        | activity => exact absurd hw (hc q' r hqq' hq' hqr)
    · have hqp : q ≠ p := fun heq => by simp [heq, hn] at hq
      rw [h.watcher, update_of_ne hqp, hq] at hi
      cases hi

/-- A peer that has timed out goes idle when all active members of its groups have timed out. -/
theorem idles_iff {peerIDs : List String} : Idles m peerIDs p ↔
    p ∈ peerIDs ∧ m.watcher p = some .inactivity ∧
      ∀ q, m.Shares p q → m.watcher q = some .inactivity → q ∈ peerIDs := by
  refine and_congr_right fun hp => and_congr_right fun _ => ?_
  rw [shouldDeferIdleForHA_iff]
  constructor
  · rintro hn q ⟨g, hg, hpg, hqg⟩ hq
    by_contra hm
    exact hn ⟨g, hg, hpg, q, hqg, fun heq => hm (heq ▸ hp), hq, hm⟩
  · rintro ha ⟨g, hg, hpg, q, hqg, -, hq, hm⟩
    exact hm (ha q ⟨g, hg, hpg, hqg⟩ hq)

/-- The same for peers that fall asleep. -/
theorem together_sleeps_iff {peerIDs : List String} (h : Sleeps m (Idles m peerIDs) m') :
    Together m m' ↔ ∀ p ∈ peerIDs, m.watcher p = some .inactivity →
      (∀ q, m.Shares p q → m.watcher q = some .inactivity → q ∈ peerIDs) →
      ∀ q r, m.Shares p q → m.watcher q = some .inactivity →
        m.Shares q r → m.watcher r = some .inactivity → r ∈ peerIDs := by
  constructor
  · intro ht p hp hpw ha q r hpq hq hqr hr
    have hi : Idles m peerIDs p := idles_iff.2 ⟨hp, hpw, ha⟩
    by_cases hqp : q = p
    · exact ha r (hqp ▸ hqr) hr
    · have hqi : Idles m peerIDs q := by
        by_contra hn
        have hid := ht.slept p hpw (h.idle p hi) q hqp hpq (by
          rw [h.rest q hn, hq]
          rfl)
        rw [h.rest q hn, hq] at hid
        cases hid
      exact (idles_iff.1 hqi).2.2 r hqr hr
  · intro hc
    refine ⟨fun p hp hpw => ?_, fun p hp hpw q hqp hpq hq => ?_⟩
    · by_cases hi : Idles m peerIDs p
      · rw [h.idle p hi] at hpw
        cases hpw
      · exact absurd ((h.rest p hi).symm.trans hpw) hp
    · have hi : Idles m peerIDs p := by
        by_contra hn
        rw [h.rest p hn, hp] at hpw
        cases hpw
      obtain ⟨hm, -, ha⟩ := idles_iff.1 hi
      by_cases hqi : Idles m peerIDs q
      · exact h.idle q hqi
      · rw [h.rest q hqi] at hq ⊢
        obtain ⟨w, hw⟩ := isSome_iff_exists.1 hq
        cases w with
        | activity => exact hw
        | inactivity =>
          exact absurd (idles_iff.2 ⟨ha q hpq hw, hw, fun r => hc p hm hp ha q r hpq hw⟩)
            hqi

variable {e e₀ : ConnMgr} {c : Call}

/-- One call: it keeps the maps linked, and groups together if they are closed. -/
theorem call_spec (h : e.lazyConnMgr.Linked) (hc : Valid e c) : (e.call c).lazyConnMgr.Linked ∧
      (Together e.lazyConnMgr (e.call c).lazyConnMgr ↔ Closed e.lazyConnMgr c) := by
  cases c with
  | addPeer cfg fails =>
    rcases e.lazyConnMgr_addPeer h hc with ⟨he, hm, hf, hst⟩ | ⟨hn, heq⟩
    · have hnw : e.lazyConnMgr.watcher cfg.publicKey = none :=
        h.watcher_eq_none.2 (lookup_eq_none.2 hm)
      refine ⟨hst.linked, (together_addPeer_iff hnw hst).trans ?_⟩
      exact ⟨fun hcl _ _ _ => hcl, fun hcl => hcl he hm hf⟩
    · rw [ConnMgr.call, heq]
      exact ⟨h, fun _ he hm hf => absurd ⟨he, hm, hf⟩ hn, fun _ => .refl _⟩
  | activatePeer p =>
    rcases e.lazyConnMgr_activatePeer h p with ⟨hw, hwk⟩ | ⟨hw, heq⟩
    · refine ⟨hwk.linked, (together_wakes_iff hwk).trans ?_⟩
      exact ⟨fun hcl _ => hcl, fun hcl => hcl hw⟩
    · rw [ConnMgr.call, heq]
      exact ⟨h, fun _ ha => absurd ha hw, fun _ => .refl _⟩
  | onPeerActivity id =>
    rcases e.lazyConnMgr_onPeerActivity h id with ⟨mp, hmp, hw, hwk⟩ | ⟨hw, heq⟩
    · refine ⟨hwk.linked, (together_wakes_iff hwk).trans ?_⟩
      refine ⟨fun hcl mp' hmp' _ => ?_, fun hcl => hcl mp hmp hw⟩
      obtain rfl := some.inj (hmp.symm.trans hmp')
      exact hcl
    · rw [ConnMgr.call, heq]
      exact ⟨h, fun _ mp hmp ha => absurd ha (hw mp hmp), fun _ => .refl _⟩
  | onPeerInactivityTimedOut peerIDs fails =>
    have hs := e.sleeps_timedOut h hc fails
    exact ⟨hs.linked, together_sleeps_iff hs⟩

/-- With the groups of an HA map, in every run of calls: a call keeps the groups together exactly
when it meets the condition. -/
theorem together_step_iff (h₀ : e₀.lazyConnMgr.Linked) (haMap : List (List String))
    (h : Reaches (fun e c => some (e.call c)) Valid
      { e₀ with lazyConnMgr := e₀.lazyConnMgr.updateRouteHAMap haMap } e) (hc : Valid e c) :
    Together e.lazyConnMgr (e.call c).lazyConnMgr ↔ Closed e.lazyConnMgr c := by
  have hl : e.lazyConnMgr.Linked := by
    refine h.invariant (p := fun e => e.lazyConnMgr.Linked) ⟨h₀.managed, h₀.byConnID⟩ ?_
    intro e c e' he hc hs
    cases hs
    exact (call_spec he hc).1
  exact (call_spec hl hc).2

instance (e : ConnMgr) : DecidablePred (Valid e) := fun c => by
  unfold Valid
  split <;> infer_instance

/-- Three peers are added. -/
def threePeers : List Call :=
  [.addPeer ⟨"a", [], 0⟩ false, .addPeer ⟨"b", [], 1⟩ false, .addPeer ⟨"c", [], 2⟩ false]

/-- A manager without peers, for the groups of an HA map. -/
def newManager (haMap : List (List String)) : ConnMgr :=
  { lazyConnMgr := updateRouteHAMap {} haMap }

/-- In two groups with a common member, the peer that wakes up wakes this member, and the third peer
stays idle. -/
theorem third_peer_idle :
    ∃ e, Reaches (fun e c => some (e.call c)) Valid (newManager [["a", "b"], ["b", "c"]]) e ∧
      ¬Together e.lazyConnMgr (e.call (.activatePeer "a")).lazyConnMgr := by
  have hrn : ∃ e, Reaches (fun e c => some (e.call c)) Valid
      (newManager [["a", "b"], ["b", "c"]]) e ∧
      e.lazyConnMgr.haGroupToPeers = [["a", "b"], ["b", "c"]] ∧
      e.lazyConnMgr.watcher "b" = some .activity ∧
      (e.call (.activatePeer "a")).lazyConnMgr.watcher "b" = some .inactivity ∧
      (e.call (.activatePeer "a")).lazyConnMgr.watcher "c" = some .activity :=
    Interleaving.exists_reaches threePeers (by decide +kernel)
  obtain ⟨e, hr, hg, hb, hb', hc'⟩ := hrn
  refine ⟨e, hr, fun ht => ?_⟩
  have hs : e.lazyConnMgr.Shares "b" "c" := ⟨["b", "c"], by simp [hg], by simp, by simp⟩
  have hc := ht.woken "b" (by simp [hb]) hb' "c" hs (by simp [hc'])
  rw [hc'] at hc
  cases hc

/-- A group that wakes up as a whole. -/
theorem together_oneGroup :
    ∃ e, Reaches (fun e c => some (e.call c)) Valid (newManager [["a", "b", "c"]]) e ∧
      e.lazyConnMgr.watcher "b" = some .activity ∧
      Together e.lazyConnMgr (e.call (.activatePeer "a")).lazyConnMgr := by
  have hrn : ∃ e, Reaches (fun e c => some (e.call c)) Valid (newManager [["a", "b", "c"]]) e ∧
      e.lazyConnMgr.haGroupToPeers = [["a", "b", "c"]] ∧
      e.lazyConnMgr.watcher "b" = some .activity :=
    Interleaving.exists_reaches threePeers (by decide +kernel)
  obtain ⟨e, hrc, hgr, hb⟩ := hrn
  have hl : ({} : ConnMgr).lazyConnMgr.Linked :=
    ⟨nofun, nofun⟩
  have hv : Valid e (.activatePeer "a") := trivial
  refine ⟨e, hrc, hb, (together_step_iff hl [["a", "b", "c"]] hrc hv).2 ?_⟩
  rintro - q r ⟨g, hg, ha, hq⟩ - ⟨g', hg', hq', hr⟩ -
  rw [hgr, mem_singleton] at hg hg'
  subst hg hg'
  exact ⟨_, by rw [hgr]; exact mem_singleton_self _, ha, hr⟩

end

end Cloink.LazyConn
