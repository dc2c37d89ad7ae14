import Cloink.NetworkMap.Components

/-!
# Calculation of a network map

The second half of the calculation over the components of a peer: routes of the peer and of the
peers it connects to, routes and routing peers of network resources, the firewall rules of both,
and the name servers. `calculate` puts the parts together. The account's network number is passed
through the calculation without being looked at and is left out.
-/

namespace Cloink

open Netip

def defaultV6 : Prefix := prefixFrom Addr.ipv6Unspecified 0

/-- The default IPv4 route `0.0.0.0/0`, or another prefix of length zero. -/
def Route.isDefaultV4 (r : Route) : Bool := r.network.bits = some 0 && r.network.addr.is4

/-- The copy of a default IPv4 route for IPv6. -/
def Route.v6Default (r : Route) : Route :=
  { r with
    id := r.id ++ "-v6-default"
    netID := r.netID ++ "-v6"
    network := defaultV6
    networkType := networkTypeIPv6 }

/-- Drops IPv6 routes for peers without IPv6 and doubles the default route for the others. -/
def filterAndExpandRoutes (routes : List Route) (includeIPv6 : Bool) : List Route :=
  routes.flatMap fun r =>
    if !includeIPv6 && r.network.addr.is6 then []
    else r :: if includeIPv6 && r.isDefaultV4 then [r.v6Default] else []

def domainFromString (env : Env) (s : String) : Option String :=
  (env.toASCII s).map fun ascii => String.ofList (ascii.toList.map Char.toLower)

/-- The route to a network resource through one of its routing peers. -/
def networkResourceToRoute (env : Env) (resource : NetworkResource) (peer : Peer)
    (router : NetworkRouter) : Route :=
  let r : Route :=
    { id := resource.id ++ ":" ++ peer.id
      accountID := resource.accountID
      peer := peer.key
      peerID := peer.id
      metric := router.metric
      masquerade := router.masquerade
      enabled := resource.enabled
      keepRoute := true
      netID := resource.name
      description := resource.description }
  let r := if resource.type = resourceTypeHost || resource.type = resourceTypeSubnet then
      { r with
        network := resource.resPrefix
        networkType := if resource.resPrefix.addr.is6 then networkTypeIPv6 else networkTypeIPv4 }
    else r
  if resource.type = resourceTypeDomain then
    match domainFromString env resource.domain with
    | some d =>
      { r with
        domains := [d]
        networkType := networkTypeDomain
        network := prefixFrom (.from4 192 0 2 0) 32 }
    | none => r
  else r

namespace NetworkMapComponents

variable (c : NetworkMapComponents) (env : Env)

def filterPeersByLoginExpiration (aclPeers : List Peer) : List Peer × List Peer :=
  let expired (p : Peer) : Bool :=
    c.accountSettings.peerLoginExpirationEnabled &&
      p.loginExpired env c.accountSettings.peerLoginExpiration
  (aclPeers.filter (!expired ·), aclPeers.filter expired)

/-! ### Routes -/

variable (peerID : String)

/-- The entries of the index `routesByPeer` under a peer: each route the peer serves, and whether
through a group. -/
def routesByPeer : List (Route × Bool) :=
  c.routes.flatMap fun r =>
    (r.peerGroups.flatMap fun groupID => match c.getGroupInfo groupID with
      | none => []
      | some group => (group.peers.filter (· = peerID)).map fun _ => (r, true)) ++
    if r.peer ≠ "" && r.peer = peerID then [(r, false)] else []

/-- The route as the peer serves it: under an id of its own when it comes through a group. -/
def peerRoute (peerID key : String) (entry : Route × Bool) : Route :=
  if entry.2 then
    { entry.1 with peerGroups := [], id := entry.1.id ++ ":" ++ peerID, peer := key }
  else { entry.1 with peer := key }

/-- Adds a route unless one with its id was taken. -/
def takeRoute (taken : List Route) (r : Route) : List Route :=
  if r.id ∈ taken.map (·.id) then taken else taken ++ [r]

/-- The enabled and the disabled routes the peer serves. -/
def getRoutingPeerRoutes : List Route × List Route :=
  match (c.getPeerInfo peerID).or (c.getRouterPeerInfo peerID) with
  | none => ([], [])
  | some peerInfo =>
    let taken := ((c.routesByPeer peerID).map (peerRoute peerID peerInfo.key)).foldl takeRoute []
    (taken.filter (·.enabled), taken.filter (!·.enabled))

def filterRoutesByGroups (routes : List Route) (groupListMap : List String) : List Route :=
  routes.filter fun r => r.groups.any groupListMap.contains

def filterRoutesFromPeersOfSameHAGroup (routes : List Route)
    (peerMemberships : List String) : List Route :=
  routes.filter fun r => !peerMemberships.contains (r.getHAUniqueID env)

/-- The routes the peer serves, and those of the peers it connects to that are distributed to one
of its groups and do not belong to a set of redundant routes it serves itself. -/
def getRoutesToSync (aclPeers : List Peer) (peerGroups : List String) : List Route :=
  let (routes, peerDisabledRoutes) := c.getRoutingPeerRoutes peerID
  let peerRoutesMembership := (routes ++ peerDisabledRoutes).map (·.getHAUniqueID env)
  routes ++ aclPeers.flatMap fun peer =>
    filterRoutesFromPeersOfSameHAGroup env
      (filterRoutesByGroups (c.getRoutingPeerRoutes peer.id).1 peerGroups) peerRoutesMembership

def getDefaultPermit (r : Route) (includeIPv6 : Bool) : List RouteFirewallRule :=
  let isV6 := r.network.addr.is6
  if isV6 && !includeIPv6 then []
  else
    let rule : RouteFirewallRule :=
      { sourceRanges := if isV6 then ["::/0"] else ["0.0.0.0/0"]
        action := policyTrafficActionAccept
        destination := r.network.string
        protocol := policyRuleProtocolALL
        domains := r.domains
        isDynamic := r.isDynamic
        routeID := r.id }
    let ruleV6 := { rule with sourceRanges := ["::/0"] }
    let ruleV6 := if r.isDefaultV4 then
      { ruleV6 with destination := "::/0", routeID := r.id ++ "-v6-default" } else ruleV6
    rule :: if includeIPv6 && (r.isDynamic || r.isDefaultV4) then [ruleV6] else []

/-- The members of the groups the route is distributed to. -/
def getDistributionGroupsPeers (r : Route) : List String :=
  r.groups.foldl (fun distPeers id =>
    distPeers.insertAll ((c.getGroupInfo id).elim [] (·.peers))) []

/-- The policies with a rule that has one of the groups as destination, once for each such
rule. -/
def getAllRoutePoliciesFromGroups (accessControlGroups : List String) : List Policy :=
  accessControlGroups.flatMap fun groupID =>
    c.policies.flatMap fun policy =>
      (policy.rules.filter (·.destinations.contains groupID)).map fun _ => policy

/-- The peers a rule lets reach a route: members of its sources that the route is distributed
to. -/
def getRulePeers (rule : PolicyRule) (postureChecks : List String) (peerID : String)
    (distributionPeers : List String) : List Peer :=
  let admitted (pID : String) : Bool :=
    distributionPeers.contains pID && c.validatePostureChecksOnPeer pID postureChecks
  let fromGroups := rule.sources.foldl (fun peers id =>
    peers.insertAll (((c.getGroupInfo id).elim [] (·.peers)).filter
      fun pID => pID ≠ peerID && admitted pID)) []
  let peers := if rule.sourceResource.isPeer && admitted rule.sourceResource.id then
      fromGroups.insertAll [rule.sourceResource.id] else fromGroups
  peers.filterMap c.getPeerInfo

def getRouteFirewallRules (policies : List Policy) (route : Route)
    (distributionPeers : List String) (includeIPv6 : Bool) : List RouteFirewallRule :=
  (enabledRules policies).flatMap fun pr =>
    generateRouteFirewallRules route pr.2
      (c.getRulePeers pr.2 pr.1.sourcePostureChecks peerID distributionPeers) includeIPv6

def getPeerRoutesFirewallRules (includeIPv6 : Bool) : List RouteFirewallRule :=
  (c.getRoutingPeerRoutes peerID).1.flatMap fun r =>
    if r.accessControlGroups.isEmpty then getDefaultPermit r includeIPv6
    else r.accessControlGroups.flatMap fun accessGroup =>
      c.getRouteFirewallRules peerID (c.getAllRoutePoliciesFromGroups [accessGroup]) r
        (c.getDistributionGroupsPeers r) includeIPv6

/-! ### Network resources -/

variable (resource : NetworkResource)

/-- The routes through one routing peer to a resource that some policy applies to. -/
def getNetworkResourcesRoutes (peerID : String) (router : NetworkRouter) : List Route :=
  if (c.resourcePoliciesMap.setAt resource.id).isEmpty then []
  else ((c.getPeerInfo peerID).map fun peerInfo =>
    networkResourceToRoute env resource peerInfo router).toList

/-- The peers a policy of a resource lets in: the first rule decides whether a peer is named
directly. -/
def getResourcePolicyPeers (policy : Policy) : List String :=
  match policy.rules with
  | [] => []
  | rule :: _ =>
    if rule.sourceResource.isPeer then [rule.sourceResource.id]
    else getUniquePeerIDsFromGroupsIDs c.groups policy.sourceGroups

def getPostureValidPeers (inputPeers postureChecksIDs : List String) : List String :=
  inputPeers.filter fun peerID => c.validatePostureChecksOnPeer peerID postureChecksIDs

/-- The policies of a resource that are looked at. -/
def usablePolicies (policies : List Policy) : List Policy :=
  policies.filter fun policy => policy.enabled && !policy.rules.isEmpty

/-- The routes `processResourcePolicies` adds for a peer that does not route the resource: those
of all its routers, when a policy lets the peer in. -/
def processResourcePolicies (networkRoutingPeers : StrMap NetworkRouter) : List Route :=
  let admitted := (usablePolicies (c.resourcePoliciesMap.setAt resource.id)).any fun policy =>
    (c.getResourcePolicyPeers policy).contains peerID &&
      c.validatePostureChecksOnPeer peerID policy.sourcePostureChecks
  if admitted then
    networkRoutingPeers.entries.flatMap fun e =>
      c.getNetworkResourcesRoutes env resource e.1 e.2
  else []

/-- The policy lets the peer in. -/
def admitsSource (policy : Policy) : Bool :=
  (c.getResourcePolicyPeers policy).contains peerID &&
    c.validatePostureChecksOnPeer peerID policy.sourcePostureChecks

theorem processResourcePolicies_eq (routers : StrMap NetworkRouter) :
    c.processResourcePolicies env peerID resource routers =
      if (usablePolicies (c.resourcePoliciesMap.setAt resource.id)).any (c.admitsSource peerID) then
        routers.entries.flatMap fun e => c.getNetworkResourcesRoutes env resource e.1 e.2
      else [] := rfl

/-- The source peers `processResourcePolicies` collects for a peer that routes the resource. -/
def resourceSourcePeers : List String :=
  (usablePolicies (c.resourcePoliciesMap.setAt resource.id)).flatMap fun policy =>
    c.getPostureValidPeers (c.getResourcePolicyPeers policy) policy.sourcePostureChecks

/-- Whether the peer routes some resource, the routes to network resources, and the source peers
of those it routes. -/
structure ResourceRoutes where
  isRoutingPeer : Bool := false
  routes : List Route := []
  allSourcePeers : List String := []

/-- One enabled resource of the loop. -/
def addResource (st : ResourceRoutes) (resource : NetworkResource) : ResourceRoutes :=
  let networkRoutingPeers := (c.routersMap.lookup resource.networkID).getD ∅
  match networkRoutingPeers.lookup peerID with
  | some router =>
    { isRoutingPeer := true
      routes := st.routes ++ c.getNetworkResourcesRoutes env resource peerID router
      allSourcePeers := st.allSourcePeers.insertAll (c.resourceSourcePeers resource) }
  | none =>
    { st with
      routes := st.routes ++ c.processResourcePolicies env peerID resource networkRoutingPeers }

def getNetworkResourcesRoutesToSync : ResourceRoutes :=
  (c.networkResources.filter (·.enabled)).foldl (c.addResource env peerID) {}

/-- The routers of the network of a resource. -/
def resourceRouters : StrMap NetworkRouter :=
  (c.routersMap.lookup resource.networkID).getD ∅

/-- The routes that one resource adds for the peer. -/
def resourceRoutes : List Route :=
  match (c.resourceRouters resource).lookup peerID with
  | some router => c.getNetworkResourcesRoutes env resource peerID router
  | none => c.processResourcePolicies env peerID resource (c.resourceRouters resource)

/-- The source peers that one resource adds for the peer. -/
def resourceSources : List String :=
  if peerID ∈ c.resourceRouters resource then c.resourceSourcePeers resource else []

theorem addResource_eq (st : ResourceRoutes)
    (resource : NetworkResource) : c.addResource env peerID st resource =
      { isRoutingPeer := st.isRoutingPeer || decide (peerID ∈ c.resourceRouters resource)
        routes := st.routes ++ c.resourceRoutes env peerID resource
        allSourcePeers := st.allSourcePeers.insertAll (c.resourceSources peerID resource) } := by
  unfold addResource resourceRoutes resourceSources resourceRouters
  cases hr : ((c.routersMap.lookup resource.networkID).getD ∅).lookup peerID with
  | none =>
    have hm := AList.lookup_eq_none.1 hr
    simp [hr, hm]
  | some router =>
    have hm := AList.mem_of_lookup hr
    simp [hr, hm]

private theorem foldl_addResource (l : List NetworkResource)
    (st : ResourceRoutes) : l.foldl (c.addResource env peerID) st =
      { isRoutingPeer := st.isRoutingPeer || l.any fun r => decide (peerID ∈ c.resourceRouters r)
        routes := st.routes ++ l.flatMap (c.resourceRoutes env peerID)
        allSourcePeers := st.allSourcePeers.insertAll (l.flatMap (c.resourceSources peerID)) } := by
  induction l generalizing st with
  | nil => simp
  | cons r l ih =>
    rw [List.foldl_cons, ih, addResource_eq]
    simp [Bool.or_assoc, List.insertAll_append]

theorem resourcesToSync_eq : c.getNetworkResourcesRoutesToSync env peerID =
      { isRoutingPeer := (c.networkResources.filter (·.enabled)).any fun r =>
          decide (peerID ∈ c.resourceRouters r)
        routes := (c.networkResources.filter (·.enabled)).flatMap (c.resourceRoutes env peerID)
        allSourcePeers := List.insertAll []
          ((c.networkResources.filter (·.enabled)).flatMap (c.resourceSources peerID)) } :=
  (c.foldl_addResource env peerID _ {}).trans (by simp)

/-- All source peers of the rules of the policies. -/
def getPoliciesSourcePeers (policies : List Policy) : List String :=
  (policies.flatMap (·.rules)).foldl (fun sourcePeers rule =>
    let sourcePeers := rule.sources.foldl (fun peers id =>
      peers.insertAll ((c.getGroupInfo id).elim [] (·.peers))) sourcePeers
    if rule.sourceResource.isPeer then sourcePeers.insertAll [rule.sourceResource.id]
    else sourcePeers) []

def getPeerNetworkResourceFirewallRules (routes : List Route)
    (includeIPv6 : Bool) : List RouteFirewallRule :=
  match c.getPeerInfo peerID with
  | none => []
  | some peerInfo =>
    (routes.filter (·.peer = peerInfo.key)).flatMap fun r =>
      let resourcePolicies := c.resourcePoliciesMap.setAt r.getResourceID
      (c.getRouteFirewallRules peerID resourcePolicies r
        (c.getPoliciesSourcePeers resourcePolicies) includeIPv6).filter (!·.sourceRanges.isEmpty)

/-- Adds the routers of the peer's resource routes, and for a router the sources of the resources
it routes. -/
def addNetworksRoutingPeers (networkResourcesRoutes : List Route) (peerID : String)
    (peersToConnect expiredPeers : List Peer) (isRouter : Bool) (sourcePeers : List String) :
    List Peer :=
  let known := peerID :: (peersToConnect ++ expiredPeers).map (·.id)
  let missing (l : List String) := l.filter (!known.contains ·)
  let missingPeers := (if isRouter then missing sourcePeers else []).insertAll
    (missing (networkResourcesRoutes.map (·.peerID)))
  peersToConnect ++ missingPeers.filterMap fun p => (c.getPeerInfo p).or (c.getRouterPeerInfo p)

/-! ### DNS -/

def getPeerDNSManagementStatusFromGroups (peerGroups : List String) : Bool :=
  !c.dnsSettings.disabledManagementGroups.any peerGroups.contains

def peerIsNameserver (peerIPStr : String) (nsGroup : NameServerGroup) : Bool :=
  nsGroup.nameServers.any fun ns => peerIPStr = ns.ip.string

def getPeerNSGroupsFromGroups (groupList : List String) : List NameServerGroup :=
  match c.getPeerInfo peerID with
  | none => []
  | some targetPeerInfo =>
    c.nameServerGroups.filter fun nsGroup =>
      nsGroup.enabled && nsGroup.groups.any groupList.contains &&
        !peerIsNameserver targetPeerInfo.ip.string nsGroup

end NetworkMapComponents

structure DNSConfig where
  serviceEnable : Bool := false
  customZones : List CustomZone := []
  nameServerGroups : List NameServerGroup := []

structure NetworkMap where
  peers : List Peer
  routes : List Route
  dnsConfig : DNSConfig
  offlinePeers : List Peer
  firewallRules : List FirewallRule
  routesFirewallRules : List RouteFirewallRule
  authorizedUsers : StrMap (List String)
  enableSSH : Bool
  forceRoutingPeerDNSResolution : Bool

namespace NetworkMapComponents

variable (c : NetworkMapComponents)

/-- The target peer has an IPv6 address and the means to use it. -/
def includeIPv6 (peerID : String) : Bool :=
  (c.getPeerInfo peerID).elim false fun p => p.supportsIPv6 && p.ipv6.isValid

def dnsUpdate (targetPeerID : String) (peerGroups : List String) : DNSConfig :=
  if c.getPeerDNSManagementStatusFromGroups peerGroups then
    { serviceEnable := true
      customZones :=
        (if c.customZoneDomain ≠ "" && !c.allDNSRecords.isEmpty then
          [{ domain := c.customZoneDomain, records := c.allDNSRecords }] else []) ++ c.accountZones
      nameServerGroups := c.getPeerNSGroupsFromGroups targetPeerID peerGroups }
  else {}

/-- The network map of the peer the components belong to. -/
def calculate (env : Env) : NetworkMap :=
  let targetPeerID := c.peerID
  let peerGroups := c.getPeerGroups targetPeerID
  let connections := c.getPeerConnectionResources env targetPeerID
  let (peersToConnect, expiredPeers) :=
    c.filterPeersByLoginExpiration env connections.resources.peers
  let includeIPv6 := c.includeIPv6 targetPeerID
  let routesUpdate := filterAndExpandRoutes
    (c.getRoutesToSync env targetPeerID peersToConnect peerGroups) includeIPv6
  let routesFirewallRules := c.getPeerRoutesFirewallRules targetPeerID includeIPv6
  let resources := c.getNetworkResourcesRoutesToSync env targetPeerID
  let networkResourcesFirewallRules := if resources.isRoutingPeer then
    c.getPeerNetworkResourceFirewallRules targetPeerID resources.routes includeIPv6 else []
  { peers := c.addNetworksRoutingPeers resources.routes targetPeerID peersToConnect expiredPeers
      resources.isRoutingPeer resources.allSourcePeers
    routes := filterAndExpandRoutes resources.routes includeIPv6 ++ routesUpdate
    dnsConfig := c.dnsUpdate targetPeerID peerGroups
    offlinePeers := expiredPeers
    firewallRules := connections.resources.rules
    routesFirewallRules := networkResourcesFirewallRules ++ routesFirewallRules
    authorizedUsers := connections.authorizedUsers
    enableSSH := connections.sshEnabled
    forceRoutingPeerDNSResolution := c.forceRoutingPeerDNSResolution }

end NetworkMapComponents

end Cloink
