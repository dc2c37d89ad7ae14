import Cloink.NetworkMap.SliceResources
import Cloink.NetworkMap.SliceRoutes

/-!
# Slicing loses nothing

The network map calculated from a peer's slice of the account is the one calculated from the whole
account. The two differ where a policy of a resource is only partly in force: the groups of disabled
rules are not part of the slice, but the source peers of a resource are taken from all rules, and a
resource with policies none of which is enabled has a route over the account only.

## Main results

* `calculate_slice`: the two maps agree.
* `disabled_rule_slice_ne_account`: they differ for a policy with a disabled rule.
-/

namespace Cloink

open NetworkMapComponents AList List Env

theorem toRoute_peerID (env : Env) (res : NetworkResource) (peer : Peer)
    (rt : NetworkRouter) : (networkResourceToRoute env res peer rt).peerID = peer.id := by
  unfold networkResourceToRoute
  split_ifs <;> (try split) <;> rfl

/-- The two network maps have the same peers, firewall rules, routes, SSH users and name
servers. -/
structure NetworkMap.Agrees (m m' : NetworkMap) : Prop where
  peers : m.peers = m'.peers
  offlinePeers : m.offlinePeers = m'.offlinePeers
  firewallRules : m.firewallRules = m'.firewallRules
  routes : m.routes = m'.routes
  authorizedUsers : m.authorizedUsers = m'.authorizedUsers
  enableSSH : m.enableSSH = m'.enableSSH
  nameServerGroups : m.dnsConfig.nameServerGroups = m'.dnsConfig.nameServerGroups

namespace NetworkMapComponents

variable {c : NetworkMapComponents} {env : Env} {P : String}

theorem sources_of_not_routing
    (h : (c.getNetworkResourcesRoutesToSync env P).isRoutingPeer = false) :
    (c.getNetworkResourcesRoutesToSync env P).allSourcePeers = [] := by
  rw [resourcesToSync_eq] at h ⊢
  have hn : ((c.networkResources.filter (·.enabled)).flatMap (c.resourceSources P)) = [] := by
    refine flatMap_eq_nil_iff.2 fun r hr => if_neg ?_
    simpa using any_eq_false.1 h r hr
  rw [hn]
  rfl

section

variable (c env)

/-- A policy of the resource that is in force has the peer among its sources. -/
def LetsIn (resource : NetworkResource) (pid : String) : Prop :=
  ∃ policy ∈ usablePolicies (c.resourcePoliciesMap.setAt resource.id),
    pid ∈ c.getResourcePolicyPeers policy ∧
      c.validatePostureChecksOnPeer pid policy.sourcePostureChecks

/-- The peer under `rid` routes the resource for the target peer: the target peer itself when it
is a router, else every router, when a policy lets the target peer in. -/
def Serves (resource : NetworkResource) (rid : String) : Prop :=
  rid ∈ c.resourceRouters resource ∧ c.resourcePoliciesMap.setAt resource.id ≠ [] ∧
    if c.peerID ∈ c.resourceRouters resource then rid = c.peerID else c.LetsIn resource c.peerID

/-- The peer may use an enabled resource that the target peer routes, or routes one for it. -/
def RoutingPartner (pid : String) : Prop :=
  ∃ resource ∈ c.networkResources, resource.enabled ∧
    ((c.peerID ∈ c.resourceRouters resource ∧ c.LetsIn resource pid) ∨
      ∃ rid info, c.Serves resource rid ∧ c.getPeerInfo rid = some info ∧ info.id = pid)

/-- An enabled rule of an enabled policy has the target peer on one side and the peer on the
other. -/
def PolicyPartner (pid : String) : Prop :=
  c.peerID ∈ c.peers ∧ ∃ pr ∈ enabledRules c.policies, ∃ q : Peer, q.id = pid ∧
    (((c.getSidePeers pr.2.sourceResource pr.2.sources c.peerID pr.1.sourcePostureChecks).2 ∧
        q ∈ (c.getSidePeers pr.2.destinationResource pr.2.destinations c.peerID []).1) ∨
      ((c.getSidePeers pr.2.destinationResource pr.2.destinations c.peerID []).2 ∧
        q ∈ (c.getSidePeers pr.2.sourceResource pr.2.sources c.peerID pr.1.sourcePostureChecks).1))

/-- The peers the policies connect the target peer to. -/
def policyPeers : List Peer := (c.getPeerConnectionResources env c.peerID).resources.peers

variable {c env} {pid : String}

variable (env) in
/-- The peers that policies bring are the policy partners. -/
theorem exists_mem_policyPeers_iff :
    (∃ q ∈ c.policyPeers env, q.id = pid) ↔ c.PolicyPartner pid := by
  cases ht : c.getPeerInfo c.peerID with
  | none =>
    have hn : c.policyPeers env = [] := by
      rw [policyPeers, getPeerConnectionResources, ht]
    have hno : c.peerID ∉ c.peers := lookup_eq_none.1 ht
    simp [hn, PolicyPartner, hno]
  | some target =>
    have hm : c.peerID ∈ c.peers := mem_of_lookup ht
    obtain ⟨hsp, -, -⟩ := connSpec env ht
    constructor
    · rintro ⟨q, hq, hid⟩
      obtain ⟨x, hx, rfl⟩ := hsp.sound q hq
      obtain ⟨pr, hpr, hcl⟩ := mem_flatMap.1 hx
      refine ⟨hm, pr, hpr, x.peer, hid, ?_⟩
      have hc := (mem_ruleCalls.1 hcl).2
      cases hd : x.direction with
      | IN =>
        rw [hd] at hc
        exact hc.elim .inr fun h => .inl h.2
      | OUT =>
        rw [hd] at hc
        exact hc.elim .inl fun h => .inr h.2
    · rintro ⟨-, pr, hpr, q, hid, hs⟩
      have hcl (d : Direction) (h : Connects pr.2
          (c.getSidePeers pr.2.sourceResource pr.2.sources c.peerID pr.1.sourcePostureChecks)
          (c.getSidePeers pr.2.destinationResource pr.2.destinations c.peerID []) q d) :
          ∃ q' ∈ c.policyPeers env, q'.id = pid := by
        obtain ⟨q', hq', he⟩ := hsp.complete ⟨pr.2, d, q⟩
          (mem_flatMap.2 ⟨pr, hpr, mem_ruleCalls.2 ⟨rfl, h⟩⟩)
        exact ⟨q', hq', he.trans hid⟩
      rcases hs with hs | hs
      · exact hcl .OUT (.inl hs)
      · exact hcl .IN (.inl hs)

theorem mem_resourceRoutes_iff {res : NetworkResource} :
    pid ∈ (c.resourceRoutes env c.peerID res).map (·.peerID) ↔
      ∃ rid info, c.Serves res rid ∧ c.getPeerInfo rid = some info ∧ info.id = pid := by
  have hrt {rid : String} {rt : NetworkRouter} :
      pid ∈ (c.getNetworkResourcesRoutes env res rid rt).map (·.peerID) ↔
        c.resourcePoliciesMap.setAt res.id ≠ [] ∧
          ∃ info, c.getPeerInfo rid = some info ∧ info.id = pid := by
    unfold getNetworkResourcesRoutes
    cases hl : c.resourcePoliciesMap.setAt res.id with
    | nil => simp
    | cons pol l =>
      simp [toRoute_peerID, eq_comm]
  have ha : (usablePolicies (c.resourcePoliciesMap.setAt res.id)).any (c.admitsSource c.peerID) =
      true ↔ c.LetsIn res c.peerID := by
    simp [LetsIn, admitsSource]
  unfold resourceRoutes Serves
  rw [processResourcePolicies_eq]
  cases hr : (c.resourceRouters res).lookup c.peerID with
  | some rt =>
    have hm : c.peerID ∈ c.resourceRouters res := mem_of_lookup hr
    simp only [hm, if_true, hrt]
    constructor
    · rintro ⟨hne, info, hi, hid⟩
      exact ⟨c.peerID, info, ⟨hm, hne, rfl⟩, hi, hid⟩
    · rintro ⟨rid, info, ⟨-, hne, rfl⟩, hi, hid⟩
      exact ⟨hne, info, hi, hid⟩
  | none =>
    have hno : c.peerID ∉ c.resourceRouters res := lookup_eq_none.1 hr
    simp only [hno, if_false]
    by_cases hlt : c.LetsIn res c.peerID
    · rw [if_pos (ha.2 hlt)]
      simp only [map_flatMap, mem_flatMap, hrt, hlt, and_true]
      constructor
      · rintro ⟨e, he, hne, info, hi, hid⟩
        exact ⟨e.1, info, ⟨mem_keys.2 (mem_map.2 ⟨e, he, rfl⟩), hne⟩, hi, hid⟩
      · rintro ⟨rid, info, ⟨hrd, hne⟩, hi, hid⟩
        obtain ⟨rt, hrr⟩ := mem_iff_lookup.1 hrd
        exact ⟨⟨rid, rt⟩, mem_lookup_iff.1 hrr, hne, info, hi, hid⟩
    · rw [if_neg (mt ha.1 hlt)]
      simp [hlt]

variable (env) in
/-- The peers that network resources bring are the routing partners. -/
theorem mem_networkResources_iff :
    (pid ∈ (c.getNetworkResourcesRoutesToSync env c.peerID).allSourcePeers ∨
      pid ∈ (c.getNetworkResourcesRoutesToSync env c.peerID).routes.map (·.peerID)) ↔
      c.RoutingPartner pid := by
  have hs {res : NetworkResource} : pid ∈ c.resourceSources c.peerID res ↔
      c.peerID ∈ c.resourceRouters res ∧ c.LetsIn res pid := by
    unfold resourceSources resourceSourcePeers getPostureValidPeers LetsIn
    split <;> simp [*]
  rw [resourcesToSync_eq]
  simp only [mem_insertAll, not_mem_nil, false_or, map_flatMap, mem_flatMap,
    mem_filter, hs, mem_resourceRoutes_iff]
  constructor
  · rintro (⟨res, ⟨hr, he⟩, h⟩ | ⟨res, ⟨hr, he⟩, h⟩)
    · exact ⟨res, hr, he, .inl h⟩
    · exact ⟨res, hr, he, .inr h⟩
  · rintro ⟨res, hr, he, h | h⟩
    · exact .inl ⟨res, ⟨hr, he⟩, h⟩
    · exact .inr ⟨res, ⟨hr, he⟩, h⟩

theorem RoutingPartner.mem_peers (hid : ∀ id info, c.getPeerInfo id = some info → info.id ∈ c.peers)
    (h : c.RoutingPartner pid) : pid ∈ c.peers := by
  obtain ⟨res, -, -, ⟨-, pol, -, -, hv⟩ | ⟨rid, info, -, hi, rfl⟩⟩ := h
  · exact (validate_iff.1 hv).1
  · exact hid rid info hi

end

theorem ResourceRoutes.ite_isRoutingPeer {res : ResourceRoutes}
    (hn : res.isRoutingPeer = false → res.allSourcePeers = []) (known : String → Bool) :
    (if res.isRoutingPeer then res.allSourcePeers.filter known else []) =
      res.allSourcePeers.filter known := by
  cases hb : res.isRoutingPeer with
  | false => simp [hn hb]
  | true => rfl

/-- The peers added for network resources only depend on the routes, on the source peers and on
what is known about the peers in both. -/
theorem addRoutingPeers_congr {c' : NetworkMapComponents} {res res' : ResourceRoutes}
    (hr : res.routes = res'.routes) (hs : res.allSourcePeers = res'.allSourcePeers)
    (hn : res.isRoutingPeer = false → res.allSourcePeers = [])
    (hn' : res'.isRoutingPeer = false → res'.allSourcePeers = [])
    (hi : ∀ p, p ∈ res.allSourcePeers ∨ p ∈ res.routes.map (·.peerID) →
      (c.getPeerInfo p).or (c.getRouterPeerInfo p) = (c'.getPeerInfo p).or (c'.getRouterPeerInfo p))
    (ps ex : List Peer) : c.addNetworksRoutingPeers res.routes P ps ex res.isRoutingPeer
        res.allSourcePeers =
      c'.addNetworksRoutingPeers res'.routes P ps ex res'.isRoutingPeer res'.allSourcePeers := by
  unfold addNetworksRoutingPeers
  dsimp only
  rw [ResourceRoutes.ite_isRoutingPeer hn, ResourceRoutes.ite_isRoutingPeer hn', ← hr, ← hs]
  refine congrArg _ (filterMap_congr fun p hp => hi p ?_)
  rcases mem_insertAll.1 hp with hp | hp
  · exact .inl (mem_filter.1 hp).1
  · exact .inr (mem_filter.1 hp).1

theorem exists_peer_of_mem_connPeers {q : Peer}
    (h : q ∈ (c.getPeerConnectionResources env P).resources.peers) :
    ∃ pid, c.getPeerInfo pid = some q := by
  cases ht : c.getPeerInfo P with
  | none => simp [getPeerConnectionResources, ht] at h
  | some target =>
    obtain ⟨x, hx, rfl⟩ := (connSpec env ht).1.sound q h
    exact exists_peer_of_mem_connCalls hx

end NetworkMapComponents

namespace NetworkMapData

variable {nmd : NetworkMapData} {env : Env} {P : String} {peer : Peer} {zone : CustomZone}

section

variable (t : nmd.Target env)

theorem id_mem_of_getPeerInfo {pid : String} {q : Peer} (hq : t.slice.getPeerInfo pid = some q) :
    q.id ∈ t.collected.peers := by
  have hs := sound_collected t
  have hid : q.id = pid := t.wf.peer_id pid q (hs.peers_sub pid q hq)
  rw [hid]
  exact mem_of_lookup hq

/-- The peers that routing adds are the same. -/
theorem addRoutingPeers_slice (hf : nmd.ResourcePoliciesInForce) (ps ex : List Peer) :
    let slice := t.slice.getNetworkResourcesRoutesToSync env t.id
    let account := t.account.getNetworkResourcesRoutesToSync env t.id
    t.slice.addNetworksRoutingPeers slice.routes t.id ps
        ex slice.isRoutingPeer slice.allSourcePeers =
      t.account.addNetworksRoutingPeers account.routes t.id ps
        ex account.isRoutingPeer account.allSourcePeers := by
  intro slice account
  refine addRoutingPeers_congr (routes_resources_slice t hf)
    (sources_resources_slice t hf) sources_of_not_routing
    sources_of_not_routing (fun p hp => ?_) ps ex
  have hm : p ∈ t.slice.peers := by
    refine RoutingPartner.mem_peers (fun _ _ hi => id_mem_of_getPeerInfo t hi)
      ((mem_networkResources_iff env).1 ?_)
    rwa [peerID_slice t]
  obtain ⟨info, hi⟩ := mem_iff_lookup.1 hm
  have hs : t.slice.getPeerInfo p = some info := hi
  rw [hs, (getPeerInfo_slice t hm).symm.trans hs]
  rfl

theorem id_mem_of_mem_connPeers {q : Peer} (hq : q ∈
      (t.slice.getPeerConnectionResources env t.id).resources.peers) :
    q.id ∈ t.collected.peers := by
  obtain ⟨pid, hi⟩ := exists_peer_of_mem_connPeers hq
  exact id_mem_of_getPeerInfo t hi

theorem dnsUpdate_slice : (t.slice.dnsUpdate t.id (t.slice.getPeerGroups t.id)).nameServerGroups =
      (t.account.dnsUpdate t.id (t.account.getPeerGroups t.id)).nameServerGroups := by
  have hst : t.slice.getPeerDNSManagementStatusFromGroups
        (t.slice.getPeerGroups t.id) =
      t.account.getPeerDNSManagementStatusFromGroups
        (t.account.getPeerGroups t.id) := by
    have hs : t.slice.dnsSettings = nmd.dnsSettings := by
      have hf := congrArg NetworkMapComponents.dnsSettings (frame_collected t)
      exact hf
    unfold getPeerDNSManagementStatusFromGroups
    rw [hs, contains_getPeerGroups_slice t]
    rfl
  unfold dnsUpdate
  rw [hst]
  split
  · exact nsGroups_slice t
  · rfl

theorem filterByExpiration_slice (acl : List Peer) : t.slice.filterPeersByLoginExpiration env acl =
      t.account.filterPeersByLoginExpiration env acl := by
  have hs : t.slice.accountSettings = nmd.accountSettings := by
    have hf := congrArg NetworkMapComponents.accountSettings (frame_collected t)
    exact hf
  unfold filterPeersByLoginExpiration
  rw [hs]
  rfl

/-- So are all peers, online and offline. -/
theorem calculate_peers_slice (hf : nmd.ResourcePoliciesInForce) : (t.slice.calculate env).peers =
        (t.account.calculate env).peers ∧
      (t.slice.calculate env).offlinePeers = (t.account.calculate env).offlinePeers := by
  have hid' : t.account.peerID = t.id := rfl
  unfold calculate
  dsimp only
  rw [peerID_slice t, hid', connections_slice t, filterByExpiration_slice t]
  exact ⟨addRoutingPeers_slice t hf _ _, rfl⟩

/-- The map of the slice agrees with the map of the account. -/
theorem calculate_slice (hf : nmd.ResourcePoliciesInForce) (hd : nmd.RouteIDsDistinct) :
    (t.slice.calculate env).Agrees (t.account.calculate env) := by
  obtain ⟨hp, ho⟩ := calculate_peers_slice t hf
  have hid' : t.account.peerID = t.id := rfl
  have hc : t.slice.getPeerConnectionResources env t.id =
      t.account.getPeerConnectionResources env t.id :=
    connections_slice t
  have hs : t.slice.includeIPv6 t.id = t.account.includeIPv6 t.id := by
    unfold includeIPv6
    rw [getPeerInfo_slice t (self_collected t)]
  have ha : ∀ q ∈ (t.account.filterPeersByLoginExpiration env
      (t.account.getPeerConnectionResources env t.id).resources.peers).1,
      q.id ∈ t.collected.peers := by
    intro q hq
    rw [← hc] at hq
    exact id_mem_of_mem_connPeers t (mem_filter.1 hq).1
  refine ⟨hp, ho, ?_, ?_, ?_, ?_, ?_⟩ <;> unfold calculate <;> dsimp only <;>
    rw [peerID_slice t, hid']
  · rw [hc]
  · rw [hc, hs, filterByExpiration_slice t, routes_resources_slice t hf, routesToSync_slice t hd ha]
  · rw [hc]
  · rw [hc]
  · exact dnsUpdate_slice t

end

/-- The network map calculated from a validated peer's components is the one calculated from the
whole account. -/
theorem calculate_getPeerNetworkMapComponents (nmd : NetworkMapData) (env : Env) (P : String)
    (zone : CustomZone) (h : nmd.WellFormed env) (hforce : nmd.ResourcePoliciesInForce)
    (hd : nmd.RouteIDsDistinct) (hpeer : P ∈ nmd.peers) (hval : nmd.isValidated P)
    (hall : AllHolds nmd.groups P) :
    ((nmd.getPeerNetworkMapComponents env P zone).calculate env).Agrees
      ((nmd.injectProxyPolicies.accountComponents env P zone).calculate env) := by
  obtain ⟨peer, hpeer⟩ := mem_iff_lookup.1 hpeer
  have hd' : nmd.injectProxyPolicies.RouteIDsDistinct := by
    rw [injectProxy_eq]
    exact ⟨hd.inj, hd.plain⟩
  have hs := calculate_slice (Target.inject ⟨P, peer, zone, h, hpeer, hval, hall⟩) hforce.inject hd'
  rwa [← Target.components_eq] at hs

/-! ### A policy with a disabled rule -/

/-- A router and a peer that a rule of a resource's policy lets in, where the rule may be
disabled. -/
def partlyInForce (ruleEnabled : Bool) : NetworkMapData :=
  let policy : Policy :=
    { id := "p"
      rules :=
        [{ id := "r1", sources := ["operators"], destinationResource := ⟨"db", resourceTypeHost⟩ },
         { id := "r2", enabled := ruleEnabled, sources := ["users"],
           destinationResource := ⟨"db", resourceTypeHost⟩ }] }
  { peers := (AList.insert "router" { id := "router", key := "k1", ip := .from4 100 64 0 1 } ∅).insert
      "user" { id := "user", key := "k2", ip := .from4 100 64 0 2 }
    groups := (AList.insert "operators" { id := "operators", peers := [] } ∅).insert
      "users" { id := "users", peers := ["user"] }
    policies := [policy]
    networkResources := [{ id := "db", networkID := "net", type := resourceTypeHost }]
    validatedPeers := ["router", "user"]
    resourcePolicies := AList.insert "db" [policy] ∅
    routers := AList.insert "net" (AList.insert "router" {} ∅) ∅ }

theorem wellFormed_partlyInForce (ruleEnabled : Bool) (env : Env) :
    (partlyInForce ruleEnabled).WellFormed env where
  peer_id := forall_of_entries (by cases ruleEnabled <;> decide)
  check_id := notMem_empty ""
  cached checkID p peer valid _ hc := by
    simp [partlyInForce, cachedPostureCheckResult] at hc

theorem allHolds_partlyInForce (ruleEnabled : Bool) (p : String) :
    AllHolds (partlyInForce ruleEnabled).groups p := by
  have hn : ∀ e ∈ (partlyInForce false).groups.entries, ¬e.2.isGroupAll := by decide
  intro gid g hg ha
  exact absurd ha (hn ⟨gid, g⟩ (mem_lookup_iff.1 hg))

/-- The account lets the router see the peers of a disabled rule, the slice does not. -/
theorem disabled_rule_slice_ne_account : (partlyInForce false).WellFormed plain ∧
      (∀ id l, (partlyInForce false).resourcePolicies.lookup id = some l →
        l ⊆ (partlyInForce false).policies) ∧
      (∀ p, AllHolds (partlyInForce false).groups p) ∧ "router" ∈ (partlyInForce false).peers ∧
      (partlyInForce false).isValidated "router" ∧
      "user" ∉ (((partlyInForce false).getPeerNetworkMapComponents plain "router" {}).calculate
        plain).peers.map (·.id) ∧
      "user" ∈ (((partlyInForce false).injectProxyPolicies.accountComponents plain "router"
        {}).calculate plain).peers.map (·.id) := by
  exact ⟨wellFormed_partlyInForce false plain, forall_of_entries (by simp [partlyInForce]),
    allHolds_partlyInForce false, by decide +kernel, by decide +kernel, by decide +kernel,
    by decide +kernel⟩

theorem calculate_partlyInForce :
    (((partlyInForce true).getPeerNetworkMapComponents plain "router" {}).calculate
      plain).Agrees (((partlyInForce true).injectProxyPolicies.accountComponents plain
        "router" {}).calculate plain) := by
  refine calculate_getPeerNetworkMapComponents _ _ _ _ (wellFormed_partlyInForce true plain)
    ⟨forall_of_entries (by decide +kernel), forall_of_entries (by decide +kernel)⟩
    ⟨by simp [partlyInForce], by simp [partlyInForce]⟩ (by decide +kernel) (by decide +kernel)
    (allHolds_partlyInForce true _)

end NetworkMapData

end Cloink
