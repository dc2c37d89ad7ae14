import Cloink.NetworkMap.Slicing

/-!
# The account and the network maps of its peers

The stored account, the tables of resource policies and of network routers that are computed from
it, and its slim twin. What the twin is handed besides the account (validated peers, users of
groups, zones) is part of the record.
-/

namespace Cloink

open AList List

/-- A network router as the account stores it: the network it serves, and the peer that routes or,
without one, the groups whose members do. -/
structure AccountRouter extends NetworkRouter where
  id : String := ""
  networkID : String
  peer : String := ""
  deriving DecidableEq

structure Account where
  peers : StrMap Peer := ∅
  groups : StrMap Group := ∅
  policies : List Policy := []
  routes : List Route := []
  nameServerGroups : List NameServerGroup := []
  networkResources : List NetworkResource := []
  networkRouters : List AccountRouter := []
  services : List Service := []
  postureChecks : StrMap PostureChecks := ∅
  dnsSettings : DNSSettings := {}
  settings : AccountSettingsInfo := {}
  allowedUserIDs : List String := []
  networkXIDToPublicID : StrMap String := ∅
  postureCheckXIDToPublicID : StrMap String := ∅
  proxyTargetedDomainResourceIDs : List String := []
  privateServiceCandidates : List PrivateServiceCandidate := []
  validatedPeers : List String := []
  groupIDToUserIDs : StrMap (List String) := ∅
  appliedZoneCandidates : List AppliedZoneCandidate := []

namespace Account

variable (a : Account)

def groupPeers (groupID : String) : List String := (a.groups.lookup groupID).elim [] (·.peers)

/-! ### Policies of resources -/

/-- The groups the resource is part of, once for each time it is listed. -/
def getNetworkResourceGroups (resourceID : String) : List Group :=
  (a.groups.entries.map (·.2)).flatMap fun group =>
    (group.resources.filter (·.id = resourceID)).map fun _ => group

/-- The loop over the rules of one policy: it ends at a rule that names the resource, and goes on
after a rule that reaches one of its groups. -/
def appliedPolicy (networkResourceGroups : List Group) (resourceID : String) (policy : Policy) :
    List PolicyRule → List Policy
  | [] => []
  | rule :: rest =>
    if !rule.enabled then appliedPolicy networkResourceGroups resourceID policy rest
    else if rule.destinationResource.id = resourceID then [policy]
    else
      (if networkResourceGroups.any fun group => rule.destinations.contains group.id then [policy]
        else []) ++ appliedPolicy networkResourceGroups resourceID policy rest

def getPoliciesForNetworkResource (resourceID : String) : List Policy :=
  (a.policies.filter (·.enabled)).flatMap fun policy =>
    appliedPolicy (a.getNetworkResourceGroups resourceID) resourceID policy policy.rules

/-- The policies of each enabled resource. -/
def getResourcePoliciesMap : StrMap (List Policy) :=
  ((a.networkResources.filter (·.enabled)).map (·.id)).foldl
    (fun resourcePolicies id => resourcePolicies.insert id (a.getPoliciesForNetworkResource id)) ∅

/-! ### Routers of networks -/

/-- The peers a router stands for. -/
def routingPeerIDs (router : AccountRouter) : List String :=
  if router.peer ≠ "" then [router.peer] else router.peerGroups.flatMap a.groupPeers

def addRouter (routers : StrMap (StrMap NetworkRouter)) (router : AccountRouter) :
    StrMap (StrMap NetworkRouter) :=
  routers.insert router.networkID
    ((a.routingPeerIDs router).foldl (fun m peerID => m.insert peerID router.toNetworkRouter)
      ((routers.lookup router.networkID).getD ∅))

/-- The routing peers of each network that has an enabled router. -/
def getResourceRoutersMap : StrMap (StrMap NetworkRouter) :=
  (a.networkRouters.filter (·.enabled)).foldl a.addRouter ∅

/-! ### The twin and the maps -/

def toNetworkMapData : NetworkMapData where
  peers := a.peers
  groups := a.groups
  policies := a.policies
  routes := a.routes
  nameServerGroups := a.nameServerGroups
  networkResources := a.networkResources
  dnsSettings := a.dnsSettings
  accountSettings := a.settings
  postureChecks := a.postureChecks
  allowedUserIDs := a.allowedUserIDs
  networkXIDToPublicID := a.networkXIDToPublicID
  postureCheckXIDToPublicID := a.postureCheckXIDToPublicID
  validatedPeers := a.validatedPeers
  resourcePolicies := a.getResourcePoliciesMap
  routers := a.getResourceRoutersMap
  groupIDToUserIDs := a.groupIDToUserIDs
  proxyTargetedDomainResourceIDs := a.proxyTargetedDomainResourceIDs
  appliedZoneCandidates := a.appliedZoneCandidates
  privateServiceCandidates := a.privateServiceCandidates
  services := a.services

/-- The twin with the results of the posture checks, from which all maps are computed. -/
def networkMapData (env : Env) : NetworkMapData :=
  a.toNetworkMapData.precomputePostureValidation env

def networkMap (env : Env) (zone : CustomZone) (peerID : String) : NetworkMap :=
  ((a.networkMapData env).getPeerNetworkMapComponents env peerID zone).calculate env

/-! ### What the tables hold -/

/-- The rule leads to the resource: it names it, or has one of its groups as destination. -/
def leadsTo (rule : PolicyRule) (resourceID : String) : Bool :=
  rule.destinationResource.id = resourceID ||
    (a.getNetworkResourceGroups resourceID).any fun group => rule.destinations.contains group.id

variable {a}

theorem mem_appliedPolicy {rid : String} {pol p : Policy} (rules : List PolicyRule) :
    p ∈ appliedPolicy (a.getNetworkResourceGroups rid) rid pol rules ↔
      p = pol ∧ ∃ rule ∈ rules, rule.enabled ∧ a.leadsTo rule rid := by
  induction rules with
  | nil => simp [appliedPolicy]
  | cons rule rest ih =>
    unfold appliedPolicy
    by_cases he : rule.enabled
    · by_cases hd : rule.destinationResource.id = rid
      · simp [he, hd, leadsTo]
      · simp only [he, Bool.not_true, Bool.false_eq_true, ↓reduceIte, hd, mem_append, ih,
          exists_mem_cons_iff, true_and, leadsTo, decide_false, Bool.false_or]
        split <;> simp_all
    · simp [he, ih]

/-- The policies of a resource are the enabled ones with an enabled rule that leads to it. -/
theorem mem_policiesForResource {rid : String} {p : Policy} :
    p ∈ a.getPoliciesForNetworkResource rid ↔
      p ∈ a.policies ∧ p.enabled ∧ ∃ rule ∈ p.rules, rule.enabled ∧ a.leadsTo rule rid := by
  simp only [getPoliciesForNetworkResource, mem_flatMap, mem_filter, mem_appliedPolicy]
  constructor
  · rintro ⟨policy, ⟨hp, he⟩, rfl, h⟩
    exact ⟨hp, he, h⟩
  · rintro ⟨hp, he, h⟩
    exact ⟨p, ⟨hp, he⟩, rfl, h⟩

theorem lookup_resourcePolicies {res : NetworkResource} (hr : res ∈ a.networkResources)
    (he : res.enabled) : a.getResourcePoliciesMap.lookup res.id =
      some (a.getPoliciesForNetworkResource res.id) := by
  unfold getResourcePoliciesMap
  rw [lookup_foldl_insert, if_pos]
  exact mem_map_of_mem (mem_filter.2 ⟨hr, he⟩)

theorem eq_of_lookup_resourcePolicies {id : String} {l : List Policy}
    (h : a.getResourcePoliciesMap.lookup id = some l) : l = a.getPoliciesForNetworkResource id := by
  unfold getResourcePoliciesMap at h
  rw [lookup_foldl_insert] at h
  split at h
  · exact (Option.some.inj h).symm
  · simp at h

theorem mem_foldl_insert_router {rt : NetworkRouter} {p : String} (l : List String)
    (m : StrMap NetworkRouter) :
    p ∈ l.foldl (fun m peerID => m.insert peerID rt) m ↔ p ∈ m ∨ p ∈ l := by
  rw [mem_iff_lookup, lookup_foldl_insert (fun _ => rt)]
  split
  · rename_i h
    simp [h]
  · rename_i h
    simp [h, mem_iff_lookup]

theorem mem_networkRouters {networkID p : String} :
    p ∈ a.toNetworkMapData.networkRouters networkID ↔
      ∃ rt ∈ a.networkRouters, rt.enabled ∧ rt.networkID = networkID ∧ p ∈ a.routingPeerIDs rt := by
  have hs (routers : StrMap (StrMap NetworkRouter)) (rt : AccountRouter) :
      p ∈ ((a.addRouter routers rt).lookup networkID).getD ∅ ↔
        p ∈ (routers.lookup networkID).getD ∅ ∨
          (rt.networkID = networkID ∧ p ∈ a.routingPeerIDs rt) := by
    unfold addRouter
    by_cases hn : networkID = rt.networkID
    · subst hn
      simp [mem_foldl_insert_router]
    · simp [lookup_insert_ne hn, Ne.symm hn]
  refine (foldl_iff_exists (f := a.addRouter)
    (p := fun routers => p ∈ (routers.lookup networkID).getD ∅) hs _ ∅).trans ?_
  simp [and_assoc]

end Account

end Cloink
