import Cloink.AffectedPeers.Stored

/-!
# When the network map of a peer stays the same

Two states of an account give a peer the same network map when they agree on what the map is made
of: the rules that have the peer on one of their sides, the routes it is sent, the network resources
that concern it, and the firewall rules of the routes it serves.
-/

namespace Cloink

open NetworkMapComponents NetworkMapData AList List

/-- The same peers, routes, firewall rules and SSH users, as sets. -/
structure NetworkMap.Same (m m' : NetworkMap) : Prop where
  peers : ∀ p, p ∈ m'.peers ↔ p ∈ m.peers
  offlinePeers : ∀ p, p ∈ m'.offlinePeers ↔ p ∈ m.offlinePeers
  routes : ∀ r, r ∈ m'.routes ↔ r ∈ m.routes
  firewallRules : ∀ rule, rule ∈ m'.firewallRules ↔ rule ∈ m.firewallRules
  routesFirewallRules : ∀ rule, rule ∈ m'.routesFirewallRules ↔ rule ∈ m.routesFirewallRules
  authorizedUsers : ∀ localUser id,
    id ∈ m'.authorizedUsers.setAt localUser ↔ id ∈ m.authorizedUsers.setAt localUser

namespace NetworkMap

variable {m m' m'' : NetworkMap}

theorem Same.refl (m : NetworkMap) : m.Same m :=
  ⟨fun _ => Iff.rfl, fun _ => Iff.rfl, fun _ => Iff.rfl, fun _ => Iff.rfl, fun _ => Iff.rfl,
    fun _ _ => Iff.rfl⟩

theorem Same.symm (h : m.Same m') : m'.Same m where
  peers p := (h.peers p).symm
  offlinePeers p := (h.offlinePeers p).symm
  routes r := (h.routes r).symm
  firewallRules rule := (h.firewallRules rule).symm
  routesFirewallRules rule := (h.routesFirewallRules rule).symm
  authorizedUsers u id := (h.authorizedUsers u id).symm

theorem Same.trans (h : m.Same m') (h' : m'.Same m'') : m.Same m'' where
  peers p := (h'.peers p).trans (h.peers p)
  offlinePeers p := (h'.offlinePeers p).trans (h.offlinePeers p)
  routes r := (h'.routes r).trans (h.routes r)
  firewallRules rule := (h'.firewallRules rule).trans (h.firewallRules rule)
  routesFirewallRules rule := (h'.routesFirewallRules rule).trans (h.routesFirewallRules rule)
  authorizedUsers u id := (h'.authorizedUsers u id).trans (h.authorizedUsers u id)

theorem not_same_of_routes (hm : m.routes = []) (hm' : m'.routes ≠ []) : ¬m.Same m' := fun hsm => by
  obtain ⟨r, hr⟩ := exists_mem_of_ne_nil _ hm'
  have hin := (hsm.routes r).1 hr
  rw [hm] at hin
  cases hin

/-- Maps differ when only one has a route rule of some kind. -/
theorem not_same_of_routeRules (p : RouteFirewallRule → Prop)
    (hm : ∀ rule ∈ m.routesFirewallRules, ¬p rule) (hm' : ∃ rule ∈ m'.routesFirewallRules, p rule) :
    ¬m.Same m' := fun hsm => by
  obtain ⟨rule, hr, hp⟩ := hm'
  exact hm rule ((hsm.routesFirewallRules rule).1 hr) hp

end NetworkMap

namespace NetworkMapData

/-- What a change of policies leaves alone. -/
structure SameStore (nmd nmd' : NetworkMapData) : Prop where
  peers : nmd'.peers = nmd.peers
  groups : nmd'.groups = nmd.groups
  validatedPeers : nmd'.validatedPeers = nmd.validatedPeers
  postureChecks : nmd'.postureChecks = nmd.postureChecks
  accountSettings : nmd'.accountSettings = nmd.accountSettings
  routes : nmd'.routes = nmd.routes
  groupIDToUserIDs : nmd'.groupIDToUserIDs = nmd.groupIDToUserIDs
  allowedUserIDs : nmd'.allowedUserIDs = nmd.allowedUserIDs

variable {nmd nmd' : NetworkMapData} {env : Env}

theorem SameStore.isValidated (hs : SameStore nmd nmd') (q : String) :
    nmd'.isValidated q = nmd.isValidated q := by
  unfold NetworkMapData.isValidated
  rw [hs.validatedPeers]

/-- Peers are admitted alike. -/
theorem SameStore.admits_iff (hs : SameStore nmd nmd') (h : nmd.WellFormed env)
    (h' : nmd'.WellFormed env) {cks : List String} {q : String} :
    nmd'.Admits env cks q ↔ nmd.Admits env cks q := by
  unfold Admits
  simp only [h.failsCheck_iff, h'.failsCheck_iff, hs.peers, hs.postureChecks, hs.isValidated]

theorem Target.getPeerInfo_or_router (t : nmd.Target env) (q : String) :
    (t.account.getPeerInfo q).or (t.account.getRouterPeerInfo q) = t.account.getPeerInfo q := by
  cases hi : t.account.getPeerInfo q with
  | some info => rfl
  | none =>
    cases hr : t.account.getRouterPeerInfo q with
    | none => rfl
    | some info =>
      have hl := (lookup_restrict nmd.peers _ q).symm.trans hr
      split at hl
      · rename_i hv
        rw [getPeerInfo_account.2 ⟨(Bool.and_eq_true_iff.1 hv).1, hl⟩] at hi
        cases hi
      · cases hl

/-- A validated peer in two states of an account. -/
structure Twin (nmd nmd' : NetworkMapData) (env : Env) extends nmd.Target env where
  wf' : nmd'.WellFormed env
  store : SameStore nmd nmd'

namespace Twin

variable (t : Twin nmd nmd' env)

/-- The peer in the second state. -/
abbrev other : nmd'.Target env :=
  { t with
    wf := t.wf'
    lookup := by rw [t.store.peers]; exact t.lookup
    valid := (t.store.isValidated t.id).trans t.valid
    all := by rw [t.store.groups]; exact t.all }

abbrev account' : NetworkMapComponents := t.other.account

theorem getPeerInfo (q : String) : t.account'.getPeerInfo q = t.account.getPeerInfo q := by
  change (nmd'.peers.restrict nmd'.isValidated).lookup q = (nmd.peers.restrict _).lookup q
  rw [lookup_restrict, lookup_restrict, t.store.peers, t.store.isValidated]

include t in
theorem admits_iff {cks : List String} {q : String} :
    nmd'.Admits env cks q ↔ nmd.Admits env cks q :=
  t.store.admits_iff t.wf t.wf'

theorem validate (q : String) (cks : List String) :
    t.account'.validatePostureChecksOnPeer q cks = t.account.validatePostureChecksOnPeer q cks := by
  rw [Bool.eq_iff_iff, validate_account t.wf', validate_account t.wf, t.admits_iff]

/-- A side of a rule has the same peers. -/
theorem getSidePeers (res : Resource) (gids : List String) (q : String) (cks : List String) :
    t.account'.getSidePeers res gids q cks = t.account.getSidePeers res gids q cks := by
  have hi : Cloink.sideIDs t.account'.groups res gids = Cloink.sideIDs t.account.groups res gids :=
    congrArg (Cloink.sideIDs · res gids) t.store.groups
  rw [getSidePeers_eq, getSidePeers_eq, hi]
  unfold filterPolicyPeers
  simp only [t.validate]
  exact Prod.ext (filterMap_congr fun p _ => t.getPeerInfo p) rfl

/-- A rule makes the same connections. -/
theorem connectRule (tgt : Peer) (cks : List String) (st : PeerConnections) (rule : PolicyRule) :
    t.account'.connectRule env tgt t.id cks st rule =
      t.account.connectRule env tgt t.id cks st rule := by
  unfold NetworkMapComponents.connectRule
  dsimp only
  rw [t.getSidePeers, t.getSidePeers]
  split
  · refine authorizeRule_congr (fun _ g _ => ?_) fun _ => t.store.allowedUserIDs
    exact congrArg (·.lookup g) t.store.groupIDToUserIDs
  · rfl

theorem routingRoutes (q : String) :
    t.account'.getRoutingPeerRoutes q = t.account.getRoutingPeerRoutes q := by
  have he : t.account'.routesByPeer q = t.account.routesByPeer q := by
    rw [routesByPeer_eq, routesByPeer_eq]
    change nmd'.routes.flatMap (routeEntries nmd'.groups q) =
      nmd.routes.flatMap (routeEntries nmd.groups q)
    rw [t.store.routes, t.store.groups]
  unfold getRoutingPeerRoutes
  rw [t.getPeerInfo_or_router, t.other.getPeerInfo_or_router, t.getPeerInfo, he]

/-- The routes to sync are the same. -/
theorem routesToSync (acl : List Peer) :
    t.account'.getRoutesToSync env t.id acl (t.account'.getPeerGroups t.id) =
      t.account.getRoutesToSync env t.id acl (t.account.getPeerGroups t.id) := by
  have hg : t.account'.getPeerGroups t.id = t.account.getPeerGroups t.id :=
    congrArg (memberGroups · t.id) t.store.groups
  unfold getRoutesToSync filterRoutesByGroups
  simp only [t.routingRoutes, hg]

/-- What the rest of the network map is made of agrees in the two states. -/
structure PartsAgree : Prop where
  connections : t.account'.getPeerConnectionResources env t.id =
    t.account.getPeerConnectionResources env t.id
  resourceRoutes : (t.account'.getNetworkResourcesRoutesToSync env t.id).routes =
    (t.account.getNetworkResourcesRoutesToSync env t.id).routes
  resourceSources : (t.account'.getNetworkResourcesRoutesToSync env t.id).allSourcePeers =
    (t.account.getNetworkResourcesRoutesToSync env t.id).allSourcePeers
  resourceRules : ∀ v6, t.account'.getPeerNetworkResourceFirewallRules t.id
      (t.account.getNetworkResourcesRoutesToSync env t.id).routes v6 =
    t.account.getPeerNetworkResourceFirewallRules t.id
      (t.account.getNetworkResourcesRoutesToSync env t.id).routes v6
  routeRules : ∀ v6, t.other.known.getPeerRoutesFirewallRules t.id v6 =
    t.known.getPeerRoutesFirewallRules t.id v6

end Twin

end NetworkMapData

namespace Account

variable {a a' : Account} {env : Env}

/-- A validated peer has the same network map in two states of the account that agree on what it is
made of. -/
theorem same_of_parts (h : a.WellFormed) (h' : a'.WellFormed)
    (t : Twin (a.mapData env) (a'.mapData env) env) (hp : t.PartsAgree) :
    (a.networkMap env t.zone t.id).Same (a'.networkMap env t.zone t.id) := by
  obtain ⟨hmp, hr⟩ := networkMap_eq h t.toTarget
  obtain ⟨hm', hr'⟩ := networkMap_eq h' t.other
  have hsx : t.account'.includeIPv6 t.id = t.account.includeIPv6 t.id := by
    unfold includeIPv6
    rw [t.getPeerInfo]
  have hid : t.account.peerID = t.id := rfl
  have hid' : t.account'.peerID = t.id := rfl
  have he (l : List Peer) : t.account'.filterPeersByLoginExpiration env l =
      t.account.filterPeersByLoginExpiration env l := by
    unfold filterPeersByLoginExpiration
    have hst : t.account'.accountSettings = t.account.accountSettings := t.store.accountSettings
    rw [hst]
  have hrf : (a'.networkMap env t.zone t.id).routesFirewallRules =
      (a.networkMap env t.zone t.id).routesFirewallRules := by
    rw [hr', hr, hp.resourceRoutes, hsx, hp.resourceRules, hp.routeRules]
  have hcl : (t.account'.calculate env).peers = (t.account.calculate env).peers ∧
      (t.account'.calculate env).routes = (t.account.calculate env).routes := by
    unfold calculate
    dsimp only
    rw [hid, hid', hp.connections, he, t.routesToSync, hsx]
    refine ⟨addRoutingPeers_congr hp.resourceRoutes hp.resourceSources
      sources_of_not_routing sources_of_not_routing (fun q _ => ?_) _ _, ?_⟩
    · rw [t.getPeerInfo_or_router, t.other.getPeerInfo_or_router, t.getPeerInfo]
    · rw [hp.resourceRoutes]
  have hcn : (t.account'.calculate env).firewallRules = (t.account.calculate env).firewallRules ∧
      (t.account'.calculate env).offlinePeers = (t.account.calculate env).offlinePeers ∧
      (t.account'.calculate env).authorizedUsers = (t.account.calculate env).authorizedUsers := by
    unfold calculate
    dsimp only
    rw [hid, hid', hp.connections, he]
    exact ⟨rfl, rfl, rfl⟩
  exact
    { peers := fun p => by rw [hm'.peers, hmp.peers, hcl.1]
      offlinePeers := fun p => by rw [hm'.offlinePeers, hmp.offlinePeers, hcn.2.1]
      routes := fun r => by rw [hm'.routes, hmp.routes, hcl.2]
      firewallRules := fun r => by rw [hm'.firewallRules, hmp.firewallRules, hcn.1]
      routesFirewallRules := fun r => by rw [hrf]
      authorizedUsers := fun u id => by
        rw [hm'.authorizedUsers, hmp.authorizedUsers, hcn.2.2] }

end Account

end Cloink
