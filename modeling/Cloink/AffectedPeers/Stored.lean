import Cloink.AffectedPeers.Account
import Cloink.NetworkMap.SliceRouteRules

/-!
# Network maps of a stored account

What the store and the handlers promise about an account carries over to its twin, so that the
network map of a validated peer is the one calculated from the whole account, but for the firewall
rules of routes whose access is controlled by groups: these depend on the peers of the slice.
-/

namespace Cloink

open NetworkMapComponents NetworkMapData AList List

namespace Account

/-- What the store and the handlers promise: records are stored under their ids, the ids of records
and the keys of peers are distinct, an id is not empty and has no separator, a resource belongs to a
network and does not share its id with a peer, and a policy has one rule. Besides, a peer that is in
any group is in every group of all peers: new peers are put there, apart from the embedded peers of a
reverse proxy, which are put into no group at all. -/
structure WellFormed (a : Account) : Prop where
  peer_id : ∀ id peer, a.peers.lookup id = some peer → peer.id = id
  peer_key : ∀ p q peer peer', a.peers.lookup p = some peer → a.peers.lookup q = some peer' →
    peer.key = peer'.key → p = q
  group_id : ∀ gid g, a.groups.lookup gid = some g → g.id = gid
  all_holds : ∀ p ∈ a.peers, AllHolds a.groups p
  check_id : "" ∉ a.postureChecks
  route_inj : ∀ r ∈ a.routes, ∀ r' ∈ a.routes, r.id = r'.id → r = r'
  route_plain : ∀ r ∈ a.routes, ∀ r' ∈ a.routes, ∀ q, r.id ≠ r'.id ++ ":" ++ q
  resource_id : ∀ r ∈ a.networkResources, r.id ≠ "" ∧ ':' ∉ r.id.toList
  resource_inj : (a.networkResources.map (·.id)).Nodup
  resource_peer : ∀ r ∈ a.networkResources, r.id ∉ a.peers
  resource_network : ∀ r ∈ a.networkResources, r.networkID ≠ ""
  router_inj : (a.networkRouters.map (·.id)).Nodup
  single_rule : ∀ policy ∈ a.policies, policy.SingleRule

/-- The promises as a test of the stored records. -/
def passesWellFormed (a : Account) : Bool :=
  a.peers.entries.all (fun e => e.2.id = e.1) &&
  a.peers.entries.all (fun e => a.peers.entries.all fun e' => e.2.key ≠ e'.2.key || e.1 = e'.1) &&
  a.groups.entries.all (fun e => e.2.id = e.1 && (!e.2.isGroupAll ||
    a.groups.entries.all fun e' => e'.2.peers.all fun p => e.2.peers.contains p)) &&
  !a.postureChecks.keys.contains "" &&
  decide (a.routes.map (·.id)).Nodup && a.routes.all (fun r => !r.id.toList.contains ':') &&
  a.networkResources.all (fun r => r.id ≠ "" && !r.id.toList.contains ':' &&
    !a.peers.keys.contains r.id && r.networkID ≠ "") &&
  decide (a.networkResources.map (·.id)).Nodup && decide (a.networkRouters.map (·.id)).Nodup &&
  a.policies.all fun policy => policy.rules.length = 1 &&
    policy.rules.all fun rule => !rule.sourceResource.isPeer || rule.sources.isEmpty

/-- An account that passes the check is well formed. -/
theorem wellFormed_of_passes {a : Account} (ha : a.passesWellFormed) : a.WellFormed := by
  simp only [passesWellFormed, Bool.and_eq_true, all_eq_true, decide_eq_true_eq, Bool.or_eq_true,
    Bool.not_eq_true', contains_eq_mem, decide_eq_false_iff_not, and_assoc] at ha
  obtain ⟨hid, hky, hgr, hc, hro, hpl, hre, hrs, hrt, hpo⟩ := ha
  have hm {α : Type} {m : StrMap α} {k : String} {v : α} (hk : m.lookup k = some v) :
      (⟨k, v⟩ : Sigma fun _ : String => α) ∈ m.entries := mem_lookup_iff.1 hk
  exact
    { peer_id := fun id peer hp => hid _ (hm hp)
      peer_key := fun p q peer peer' hp hq heq =>
        (hky _ (hm hp) _ (hm hq)).resolve_left (not_not.2 heq)
      group_id := fun gid g hg => (hgr _ (hm hg)).1
      all_holds := fun p _ gid g hg hal gid' g' hg' hp =>
        ((hgr _ (hm hg)).2.resolve_left (by simp [hal])) _ (hm hg') p hp
      check_id := fun hin => hc (mem_keys.1 hin)
      route_inj := fun r hr r' hr' heq => inj_on_of_nodup_map hro hr hr' heq
      route_plain := fun r hr r' hr' q heq => hpl r hr (by simp [heq])
      resource_id := fun r hr => ⟨(hre r hr).1, (hre r hr).2.1⟩
      resource_inj := hrs
      resource_peer := fun r hr hin => (hre r hr).2.2.1 (mem_keys.1 hin)
      resource_network := fun r hr => (hre r hr).2.2.2
      router_inj := hrt
      single_rule := fun pol hp => by
        obtain ⟨rule, hrl⟩ := length_eq_one_iff.1 (hpo pol hp).1
        refine ⟨rule, hrl, fun hpeer => ?_⟩
        have hs := (hpo pol hp).2 rule (by simp [hrl])
        exact isEmpty_iff.1 (hs.resolve_left (by simp [hpeer])) }

/-- The policies of the reverse-proxy services. -/
def proxyPolicies (a : Account) : List Policy := a.toNetworkMapData.injectedPolicies

/-- The twin from which the network maps are calculated. -/
def mapData (a : Account) (env : Env) : NetworkMapData := (a.networkMapData env).injectProxyPolicies

/-- The enabled resource a policy of a service is listed under. -/
def proxyResource (a : Account) (policy : Policy) : Option String :=
  a.toNetworkMapData.injectedResource policy

variable {a : Account} {env : Env}

/-- The data of an account with the proxy policies, in closed form. -/
theorem mapData_eq (a : Account) (env : Env) : a.mapData env =
    { a.networkMapData env with
      policies := a.policies ++ a.proxyPolicies
      resourcePolicies := (a.mapData env).resourcePolicies } :=
  injectProxy_eq _

@[simp] theorem mapData_peers : (a.mapData env).peers = a.peers := by rw [mapData_eq]; rfl

@[simp] theorem mapData_groups : (a.mapData env).groups = a.groups := by rw [mapData_eq]; rfl

@[simp] theorem mapData_policies : (a.mapData env).policies = a.policies ++ a.proxyPolicies := by
  rw [mapData_eq]

@[simp] theorem mapData_routes : (a.mapData env).routes = a.routes := by rw [mapData_eq]; rfl

@[simp] theorem mapData_networkResources :
    (a.mapData env).networkResources = a.networkResources := by rw [mapData_eq]; rfl

@[simp] theorem mapData_validatedPeers : (a.mapData env).validatedPeers = a.validatedPeers := by
  rw [mapData_eq]; rfl

@[simp] theorem mapData_routers : (a.mapData env).routers = a.getResourceRoutersMap := by
  rw [mapData_eq]; rfl

variable {P : String}

theorem isValidated_mapData (hv : P ∈ a.validatedPeers) : (a.mapData env).isValidated P := by
  unfold isValidated
  rw [mapData_validatedPeers]
  exact contains_iff_mem.2 hv

theorem enabledResources_mapData {zone : CustomZone} :
    ((a.mapData env).accountComponents env P zone).networkResources.filter (·.enabled) =
      a.networkResources.filter (·.enabled) := by
  simp [accountComponents, filter_filter]

theorem networkRouters_mapData (networkID : String) :
    (a.mapData env).networkRouters networkID = a.toNetworkMapData.networkRouters networkID := by
  unfold NetworkMapData.networkRouters
  rw [mapData_routers]
  rfl

theorem setAt_foldl_addInjectedPolicy (l : List Policy) (nmd : NetworkMapData) (id : String) :
    (l.foldl addInjectedPolicy nmd).resourcePolicies.setAt id = nmd.resourcePolicies.setAt id ++
      l.filter fun pol => nmd.injectedResource pol = some id := by
  induction l generalizing nmd with
  | nil => simp
  | cons pol l ih =>
    have hr : (nmd.addInjectedPolicy pol).injectedResource = nmd.injectedResource := rfl
    rw [foldl_cons, ih, hr, filter_cons]
    unfold addInjectedPolicy
    cases hp : nmd.injectedResource pol with
    | none => simp
    | some rid =>
      by_cases hid : id = rid
      · subst hid
        simp [setAt_insert]
      · simp [setAt_insert, hid, Ne.symm hid]

/-- The policies of a resource: the stored ones and those of its services. -/
theorem setAt_mapData (id : String) : (a.mapData env).resourcePolicies.setAt id =
    a.getResourcePoliciesMap.setAt id ++
      a.proxyPolicies.filter fun pol => a.proxyResource pol = some id :=
  setAt_foldl_addInjectedPolicy _ _ _

theorem mem_foldl_addInjectedPolicy (l : List Policy) {nmd : NetworkMapData} {id : String}
    (hid : id ∈ nmd.resourcePolicies) : id ∈ (l.foldl addInjectedPolicy nmd).resourcePolicies := by
  induction l generalizing nmd with
  | nil => exact hid
  | cons pol l ih =>
    refine ih ?_
    unfold addInjectedPolicy
    cases nmd.injectedResource pol with
    | none => exact hid
    | some rid => exact (mem_insert _).2 (.inr hid)

theorem setAt_policiesMap {res : NetworkResource}
    (hr : res ∈ a.networkResources) (he : res.enabled) :
    a.getResourcePoliciesMap.setAt res.id = a.getPoliciesForNetworkResource res.id :=
  setAt_of_lookup (lookup_resourcePolicies hr he)

/-- The same for an enabled resource of the account. -/
theorem lookup_mapData {res : NetworkResource} (hr : res ∈ a.networkResources)
    (he : res.enabled) : (a.mapData env).resourcePolicies.lookup res.id =
      some (a.getPoliciesForNetworkResource res.id ++
        a.proxyPolicies.filter fun pol => a.proxyResource pol = some res.id) := by
  have hm : res.id ∈ (a.mapData env).resourcePolicies :=
    mem_foldl_addInjectedPolicy _ (mem_of_lookup (lookup_resourcePolicies hr he))
  obtain ⟨l, hl⟩ := mem_iff_lookup.1 hm
  rw [hl, ← setAt_policiesMap hr he, ← setAt_mapData, setAt_of_lookup hl]

theorem singleRule_proxyPolicies : ∀ pol ∈ a.proxyPolicies, pol.SingleRule := by
  intro pol hp
  obtain ⟨svc, -, hp⟩ := mem_flatMap.1 hp
  rcases mem_append.1 hp with hp | hp
  · obtain ⟨target, -, hp⟩ := mem_flatMap.1 hp
    split at hp
    · cases hp
    · obtain ⟨peer, -, rfl⟩ := mem_map.1 hp
      exact ⟨_, rfl, fun _ => rfl⟩
  · split at hp
    · obtain ⟨peer, -, rfl⟩ := mem_map.1 hp
      refine ⟨_, rfl, fun h => ?_⟩
      simp [Resource.isPeer] at h
    · cases hp

namespace WellFormed

variable (h : a.WellFormed)

include h

/-- The data of a stored account is well formed. -/
theorem mapData (env : Env) : (a.mapData env).WellFormed env :=
  (NetworkMapData.WellFormed.precompute h.peer_id h.check_id).inject

theorem allHolds (env : Env) :
    ∀ p ∈ (a.mapData env).peers, AllHolds (a.mapData env).groups p := by
  rw [mapData_peers, mapData_groups]
  exact h.all_holds

/-- Routes of a stored account have their own ids. -/
theorem routeIDsDistinct (env : Env) : (a.mapData env).RouteIDsDistinct := by
  rw [mapData_eq]
  exact ⟨h.route_inj, h.route_plain⟩

theorem singleRule : ∀ pol ∈ (a.mapData env).policies, pol.SingleRule := by
  intro pol hp
  rw [mapData_policies] at hp
  exact (mem_append.1 hp).elim (h.single_rule pol) (singleRule_proxyPolicies pol)

theorem singleRule_resource {id : String} {l : List Policy}
    (hl : (a.mapData env).resourcePolicies.lookup id = some l) :
    ∀ pol ∈ l, pol.SingleRule := by
  intro pol hp
  rw [← setAt_of_lookup hl, setAt_mapData] at hp
  rcases mem_append.1 hp with hp | hp
  · cases hb : a.getResourcePoliciesMap.lookup id with
    | none => simp [AList.setAt, hb] at hp
    | some base =>
      rw [setAt_of_lookup hb, eq_of_lookup_resourcePolicies hb] at hp
      exact h.single_rule pol (mem_policiesForResource.1 hp).1
  · exact singleRule_proxyPolicies pol (mem_filter.1 hp).1

/-- The policies of its resources are in force. -/
theorem inForce (env : Env) : (a.mapData env).ResourcePoliciesInForce := by
  apply ResourcePoliciesInForce.inject
  have hfl : ∀ id l, a.getResourcePoliciesMap.lookup id = some l → ∀ pol ∈ l, FullyEnabled pol := by
    intro id l hl pol hp
    rw [eq_of_lookup_resourcePolicies hl] at hp
    obtain ⟨hm, hpe, rule, hr, hre, -⟩ := mem_policiesForResource.1 hp
    obtain ⟨rule', hrl, -⟩ := h.single_rule pol hm
    rw [hrl, mem_singleton] at hr
    subst hr
    exact ⟨hpe, by simp [hrl], by simp [hrl, hre]⟩
  refine ⟨fun id l hl hne => ?_, fun id l hl pol hp => ?_⟩
  · obtain ⟨pol, hp⟩ := exists_mem_of_ne_nil l hne
    have hf := hfl id l hl pol hp
    exact ne_nil_of_mem (mem_usablePolicies.2 ⟨hp, hf.1, hf.2.1⟩)
  · exact (hfl id l hl pol (mem_usablePolicies.1 hp).1).sourceGroups_subset

end WellFormed

/-! ### Network maps -/

theorem toRoute_id (res : NetworkResource) (peer : Peer) (rt : NetworkRouter) :
    (networkResourceToRoute env res peer rt).id = res.id ++ ":" ++ peer.id := by
  unfold networkResourceToRoute
  split_ifs <;> (try split) <;> rfl

theorem toRoute_peer (res : NetworkResource) (peer : Peer)
    (rt : NetworkRouter) : (networkResourceToRoute env res peer rt).peer = peer.key := by
  unfold networkResourceToRoute
  split_ifs <;> (try split) <;> rfl

theorem cutAt_append {id rest : String} (h : ':' ∉ id.toList) : cutAt ':' (id ++ ":" ++ rest) = id := by
  have ht : (id.toList ++ (':' :: rest.toList)).takeWhile (fun c => decide (c ≠ ':')) =
      id.toList := by
    rw [takeWhile_append_of_pos fun c hc => decide_eq_true (ne_of_mem_of_not_mem hc h)]
    simp
  have hl : (id ++ ":" ++ rest).toList = id.toList ++ (':' :: rest.toList) := by simp
  rw [cutAt, hl, ht, String.ofList_toList]

/-- A route with the key of the peer comes from a resource that the peer routes. -/
theorem exists_resource_of_mem_routes {c : NetworkMapComponents} {key : String}
    (ho : ∀ q info, c.getPeerInfo q = some info → info.key = key → q = P) {r : Route}
    (hr : r ∈ (c.getNetworkResourcesRoutesToSync env P).routes) (hk : r.peer = key) :
    ∃ res ∈ c.networkResources, res.enabled ∧ P ∈ c.resourceRouters res ∧
      ∃ rest, r.id = res.id ++ ":" ++ rest := by
  rw [resourcesToSync_eq] at hr
  obtain ⟨res, hrs, hr⟩ := mem_flatMap.1 hr
  obtain ⟨hrs, he⟩ := mem_filter.1 hrs
  have hrt {q : String} {rt : NetworkRouter} (hq : r ∈ c.getNetworkResourcesRoutes env res q rt) :
      q = P ∧ ∃ rest, r.id = res.id ++ ":" ++ rest := by
    unfold getNetworkResourcesRoutes at hq
    split at hq
    · cases hq
    · simp only [Option.mem_toList, Option.map_eq_some_iff] at hq
      obtain ⟨info, hi, rfl⟩ := hq
      rw [toRoute_peer] at hk
      exact ⟨ho q info hi hk, info.id, toRoute_id _ _ _⟩
  refine ⟨res, hrs, he, ?_⟩
  unfold resourceRoutes at hr
  split at hr
  · rename_i rt hrr
    exact ⟨mem_of_lookup hrr, (hrt hr).2⟩
  · unfold processResourcePolicies at hr
    dsimp only at hr
    split at hr
    · obtain ⟨e, hm, hr⟩ := mem_flatMap.1 hr
      obtain ⟨hq, hid⟩ := hrt hr
      exact ⟨hq ▸ mem_keys.2 (mem_map_of_mem hm), hid⟩
    · cases hr

/-- A peer that routes no resource has no firewall rules for resources. -/
theorem resourceRules_of_not_routing {c : NetworkMapComponents} {peer : Peer}
    (hpeer : c.getPeerInfo P = some peer)
    (ho : ∀ q info, c.getPeerInfo q = some info → info.key = peer.key → q = P)
    (hnt : (c.getNetworkResourcesRoutesToSync env P).isRoutingPeer = false) (v6 : Bool) :
    c.getPeerNetworkResourceFirewallRules P (c.getNetworkResourcesRoutesToSync env P).routes
      v6 = [] := by
  have hn : (c.getNetworkResourcesRoutesToSync env P).routes.filter (·.peer = peer.key) = [] := by
    refine filter_eq_nil_iff.2 fun r hr hk => ?_
    obtain ⟨res, hrs, he, hrt, -⟩ :=
      exists_resource_of_mem_routes ho hr (of_decide_eq_true hk)
    rw [resourcesToSync_eq] at hnt
    exact absurd (decide_eq_true hrt) (any_eq_false.1 hnt res (mem_filter.2 ⟨hrs, he⟩))
  unfold getPeerNetworkResourceFirewallRules
  rw [hpeer]
  dsimp only
  rw [hn, flatMap_nil]

section

variable (h : a.WellFormed) (t : (a.mapData env).Target env)

include h

theorem WellFormed.eq_of_key {q : String} {info : Peer}
    (hq : (a.mapData env).peers.lookup q = some info) (hk : info.key = t.peer.key) : q = t.id := by
  have ht := t.lookup
  rw [mapData_peers] at hq ht
  exact h.peer_key q t.id info t.peer hq ht hk

theorem exists_routed_of_mem_routes {r : Route}
    (hr : r ∈ (t.account.getNetworkResourcesRoutesToSync env t.id).routes)
    (hk : r.peer = t.peer.key) : ∃ res ∈ a.networkResources, res.enabled ∧
      t.id ∈ (a.mapData env).networkRouters res.networkID ∧ r.getResourceID = res.id := by
  obtain ⟨res, hrs, he, hrt, rest, hid⟩ := exists_resource_of_mem_routes
    (fun q info hq => h.eq_of_key t (getPeerInfo_account.1 hq).2) hr hk
  obtain ⟨hrs, -⟩ := mem_filter.1 hrs
  rw [mapData_networkResources] at hrs
  refine ⟨res, hrs, he, hrt, ?_⟩
  rw [Route.getResourceID, hid, cutAt_append (h.resource_id _ hrs).2]

/-- The network map of a validated peer is the one calculated from the whole account, but for the
firewall rules of the routes it serves: for these the account has the peers of the slice. -/
theorem networkMap_eq : (a.networkMap env t.zone t.id).Agrees (t.account.calculate env) ∧
    (a.networkMap env t.zone t.id).routesFirewallRules =
      t.account.getPeerNetworkResourceFirewallRules t.id
          (t.account.getNetworkResourcesRoutesToSync env t.id).routes (t.account.includeIPv6 t.id) ++
        t.known.getPeerRoutesFirewallRules t.id (t.account.includeIPv6 t.id) := by
  have hm : a.networkMap env t.zone t.id = t.slice.calculate env :=
    congrArg (calculate · env) t.peerComponents_eq
  have hf := h.inForce env
  have hsl := getPeerInfo_slice t (self_collected t)
  have hsx : t.slice.includeIPv6 t.id = t.account.includeIPv6 t.id := by
    unfold includeIPv6
    rw [hsl]
  have hrl := resourceRules_slice t (h.allHolds env) hf (fun id l hl => h.singleRule_resource hl)
    fun r (hr : r ∈ (t.account.getNetworkResourcesRoutesToSync env t.id).routes) hke => by
      obtain ⟨res, hrs, he, hrt, hid⟩ := exists_routed_of_mem_routes h t hr hke
      exact ⟨res, by rw [mapData_networkResources]; exact hrs, he, hrt, hid⟩
  rw [hm]
  refine ⟨calculate_slice t hf (h.routeIDsDistinct env), ?_⟩
  rw [← hrl, ← routes_resources_slice t hf, ← routeRules_slice t (h.allHolds env) h.singleRule]
  unfold calculate
  dsimp only
  rw [peerID_slice t, hsx]
  refine congrArg (· ++ _) ?_
  split
  · rfl
  · rename_i hn
    refine (resourceRules_of_not_routing (hsl.trans t.getPeerInfo_self)
      (fun q info hq => h.eq_of_key t ?_) (Bool.eq_false_of_not_eq_true hn) _).symm
    exact ((sound_collected t).peers_sub.lookup_eq (mem_of_lookup hq)).symm.trans hq

end

end Account

end Cloink
