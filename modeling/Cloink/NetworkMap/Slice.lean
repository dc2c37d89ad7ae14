import Cloink.NetworkMap.AccountData
import Cloink.NetworkMap.Calculate

/-!
# Slicing an account down to the components of one peer

`getPeerNetworkMapComponents` decides which peers, groups, policies, routes and resources of the
account the calculation for one peer can need, and records the posture checks that failed on the
way. The maps it fills only ever receive entries of the account's own maps, so that the tests in
the source whether an entry is already there do not change the map.
-/

namespace Cloink

/-- The peers of one side of a rule while its groups are run through. -/
structure SideState where
  filteredPeerIDs : List String := []
  peerInGroups : Bool := false
  seenPeerIds : List String := []
  postureFailedPeers : StrMap (List String)

/-- The accumulated relevant parts of the account. -/
structure Relevant where
  peers : StrMap Peer := ∅
  groups : StrMap Group := ∅
  policies : List Policy := []
  routes : List Route := []
  neededGroupIDs : List String := []
  needAllowedUserIDs : Bool := false
  routeAccessControlGroups : List String := []
  postureFailedPeers : StrMap (List String) := ∅

namespace NetworkMapData

variable (nmd : NetworkMapData) (peerID : String)

def isValidated : Bool := nmd.validatedPeers.contains peerID

def getPeerGroups : List String := memberGroups nmd.groups peerID

/-! ### Sides of a rule -/

variable (env : Env)

/-- Whether the peer exists, is validated and passes the checks; a failed check is recorded. -/
def admitPolicyPeer (pid : String) (sourcePostureChecksIDs : List String)
    (postureFailedPeers : StrMap (List String)) : Bool × StrMap (List String) :=
  if pid ∉ nmd.peers || !nmd.isValidated pid then (false, postureFailedPeers)
  else
    let (isValid, pname) := nmd.validatePostureChecksOnPeerGetFailed env sourcePostureChecksIDs pid
    if !isValid && pname ≠ "" then (false, postureFailedPeers.addTo pname pid)
    else (true, postureFailedPeers)

def sidePeer (peerID : String) (checks : List String) (st : SideState) (pid : String) : SideState :=
  let (admitted, failed) := nmd.admitPolicyPeer env pid checks st.postureFailedPeers
  let st := { st with postureFailedPeers := failed }
  if !admitted then st
  else if pid = peerID then { st with peerInGroups := true }
  else { st with filteredPeerIDs := st.filteredPeerIDs ++ [pid] }

/-- One member of a group among several, skipped when it was met before. -/
def sidePeerOnce (peerID : String) (checks : List String) (st : SideState)
    (pid : String) : SideState :=
  if pid ∈ st.seenPeerIds then st
  else nmd.sidePeer env peerID checks { st with seenPeerIds := pid :: st.seenPeerIds } pid

/-- The loop of `getPeersFromGroups`: the group of all peers, and a group listed alone, replace
what was collected before them. -/
def sideGroups (env : Env) (peerID : String) (checks : List String) (alone : Bool) :
    SideState → List String → SideState
  | st, [] => st
  | st, gid :: rest =>
    match nmd.groups.lookup gid with
    | none => sideGroups env peerID checks alone st rest
    | some group =>
      if group.isGroupAll || alone then
        group.peers.foldl (nmd.sidePeer env peerID checks)
          { st with filteredPeerIDs := [], peerInGroups := false }
      else
        sideGroups env peerID checks alone
          (group.peers.foldl (nmd.sidePeerOnce env peerID checks) st) rest

def getPeersFromGroups (groups : List String) (peerID : String) (checks : List String)
    (failed : StrMap (List String)) : SideState :=
  nmd.sideGroups env peerID checks (groups.length = 1) { postureFailedPeers := failed } groups

def getPeerFromResource (resource : Resource) (peerID : String) (checks : List String)
    (failed : StrMap (List String)) : SideState :=
  nmd.sidePeer env peerID checks { postureFailedPeers := failed } resource.id

/-- The peers of one side of a rule: the peer its resource names, else those of its groups. -/
def getSidePeers (resource : Resource) (groups : List String) (peerID : String)
    (checks : List String) (failed : StrMap (List String)) : SideState :=
  if resource.isPeer then nmd.getPeerFromResource env resource peerID checks failed
  else nmd.getPeersFromGroups env groups peerID checks failed

/-! ### Relevant peers, groups, policies and routes -/

/-- The peer serves the route, or the route is enabled and distributed to one of its groups. -/
def routeRelevant (r : Route) : Bool :=
  r.peer = peerID || r.peerGroups.any (nmd.getPeerGroups peerID).contains ||
    (r.enabled && r.groups.any (nmd.getPeerGroups peerID).contains)

/-- The members of the groups that serve a route, and the peer that does. -/
def routePeerIDs (r : Route) : List String :=
  (if r.peer ≠ "" then [r.peer] else []) ++
    r.peerGroups.flatMap fun groupID => (nmd.groups.lookup groupID).elim [] (·.peers)

def addRoute (st : Relevant) (r : Route) : Relevant :=
  let accessGroups := if r.enabled then r.accessControlGroups else []
  { st with
    groups := nmd.groups.insertFrom st.groups (r.peerGroups ++ r.groups ++ accessGroups)
    routeAccessControlGroups := st.routeAccessControlGroups.insertAll accessGroups
    peers := nmd.peers.insertFrom st.peers ((nmd.routePeerIDs r).filter nmd.isValidated)
    routes := st.routes ++ [r] }

/-- What SSH access to the peer needs to know about users. -/
def addSSHRequirements (peerSSHEnabled : Bool) (rule : PolicyRule) (st : Relevant) : Relevant :=
  if rule.protocol = policyRuleProtocolNetbirdSSH then
    if !rule.authorizedGroups.entries.isEmpty then
      { st with neededGroupIDs := st.neededGroupIDs.insertAll rule.authorizedGroups.keys }
    else if rule.authorizedUser ≠ "" then st
    else { st with needAllowedUserIDs := true }
  else if policyRuleImpliesLegacySSH rule && peerSSHEnabled then
    { st with needAllowedUserIDs := true }
  else st

def addGroupsIf (cond : Bool) (groupIDs : List String) (st : Relevant) : Relevant :=
  if cond then { st with groups := nmd.groups.insertFrom st.groups groupIDs } else st

def addPeersIf (cond : Bool) (peerIDs : List String) (st : Relevant) : Relevant :=
  if cond then { st with peers := nmd.peers.insertFrom st.peers peerIDs } else st

/-- The peers and groups one side of a rule needs of the other side, and what SSH access needs. -/
def addSides (peerSSHEnabled : Bool) (rule : PolicyRule) (source destination : SideState)
    (st : Relevant) : Relevant :=
  let st := { st with postureFailedPeers := destination.postureFailedPeers }
  let st := nmd.addPeersIf source.peerInGroups destination.filteredPeerIDs st
  let st := nmd.addGroupsIf source.peerInGroups rule.destinations st
  let st := nmd.addPeersIf destination.peerInGroups source.filteredPeerIDs st
  let st := nmd.addGroupsIf destination.peerInGroups rule.sources st
  if destination.peerInGroups then addSSHRequirements peerSSHEnabled rule st else st

/-- One enabled rule of an enabled policy, and whether it makes the policy relevant. -/
def addRule (peerID : String) (peerSSHEnabled : Bool) (checks : List String)
    (acc : Relevant × Bool) (rule : PolicyRule) : Relevant × Bool :=
  let (st, relevant) := acc
  let routeAccess := rule.destinations.any st.routeAccessControlGroups.contains
  let st := nmd.addGroupsIf routeAccess (rule.sources ++ rule.destinations) st
  let source := nmd.getSidePeers env rule.sourceResource rule.sources peerID checks
    st.postureFailedPeers
  let destination := nmd.getSidePeers env rule.destinationResource rule.destinations peerID []
    source.postureFailedPeers
  (nmd.addSides peerSSHEnabled rule source destination st,
    relevant || routeAccess || source.peerInGroups || destination.peerInGroups)

def addPolicy (peerID : String) (peerSSHEnabled : Bool) (st : Relevant)
    (policy : Policy) : Relevant :=
  let (st, relevant) := (policy.rules.filter (·.enabled)).foldl
    (nmd.addRule env peerID peerSSHEnabled policy.sourcePostureChecks) (st, false)
  if relevant then { st with policies := st.policies ++ [policy] } else st

def getPeersGroupsPoliciesRoutes (peerID : String) (peerSSHEnabled : Bool) : Relevant :=
  let st : Relevant :=
    { peers := nmd.peers.insertFrom ∅ [peerID]
      groups := nmd.groups.insertFrom ∅ (nmd.getPeerGroups peerID) }
  let st := (nmd.routes.filter (nmd.routeRelevant peerID)).foldl nmd.addRoute st
  (nmd.policies.filter (·.enabled)).foldl (nmd.addPolicy env peerID peerSSHEnabled) st

/-! ### Network resources -/

/-- The source peers of a policy of a resource: the first rule decides whether a peer is named
directly. -/
def resourcePolicyPeers (policy : Policy) : List String :=
  match policy.rules with
  | [] => []
  | rule :: _ =>
    if rule.sourceResource.isPeer then [rule.sourceResource.id]
    else getUniquePeerIDsFromGroupsIDs nmd.groups policy.sourceGroups

/-- One peer of the loop of `getPostureValidPeersSaveFailed`. -/
def savePostureResult (checks : List String)
    (acc : List String × StrMap (List String)) (peerID : String) :
    List String × StrMap (List String) :=
  if !nmd.isValidated peerID then acc
  else
    let (valid, pname) := nmd.validatePostureChecksOnPeerGetFailed env checks peerID
    if valid then (acc.1 ++ [peerID], acc.2)
    else if pname = "" then acc
    else (acc.1, acc.2.addTo pname peerID)

/-- The validated peers that pass the checks, with the failed checks of the others recorded. -/
def getPostureValidPeersSaveFailed (inputPeers checks : List String)
    (failed : StrMap (List String)) : List String × StrMap (List String) :=
  inputPeers.foldl (nmd.savePostureResult env checks) ([], failed)

/-- The peer is named by the first rule of the policy, or is in one of its source groups. -/
def peerInResourceSources (policy : Policy) (peerID : String) : Bool :=
  match policy.rules with
  | [] => false
  | rule :: _ =>
    if rule.sourceResource.isPeer then rule.sourceResource.id = peerID
    else policy.sourceGroups.any fun groupID =>
      (nmd.groups.lookup groupID).elim false fun group => group.peers.contains peerID

/-- The groups on both sides of the enabled rules of a policy. -/
def policyGroupIDs (policy : Policy) : List String :=
  (policy.rules.filter (·.enabled)).flatMap fun rule => rule.sources ++ rule.destinations

/-- Keeps a policy of the resource: its groups and the list it is part of. -/
def keepResourcePolicy (resourceID : String) (policies : List Policy) (c : NetworkMapComponents)
    (policy : Policy) : NetworkMapComponents :=
  { c with
    groups := nmd.groups.insertFrom c.groups (policyGroupIDs policy)
    resourcePoliciesMap := c.resourcePoliciesMap.insert resourceID policies }

/-- One usable policy of a resource. Once the peer is known to route the resource or to be let in
by a policy, the source peers of the following policies are added. -/
def addResourcePolicy (peerID resourceID : String) (policies : List Policy)
    (acc : NetworkMapComponents × Bool) (policy : Policy) : NetworkMapComponents × Bool :=
  let (c, addSourcePeers) := acc
  if addSourcePeers then
    let (valid, failed) := nmd.getPostureValidPeersSaveFailed env (nmd.resourcePolicyPeers policy)
      policy.sourcePostureChecks c.postureFailedPeers
    let c := { c with
      peers := nmd.peers.insertFrom c.peers valid
      postureFailedPeers := failed }
    (nmd.keepResourcePolicy resourceID policies c policy, true)
  else if !nmd.peerInResourceSources policy peerID then (c, false)
  else
    let (isValid, pname) :=
      nmd.validatePostureChecksOnPeerGetFailed env policy.sourcePostureChecks peerID
    if !isValid && pname ≠ "" then
      ({ c with postureFailedPeers := c.postureFailedPeers.addTo pname peerID }, false)
    else (nmd.keepResourcePolicy resourceID policies c policy, true)

/-- Keeps a resource with its routers and the routing peers that are validated. -/
def keepResource (resource : NetworkResource) (networkRoutingPeers : StrMap NetworkRouter)
    (c : NetworkMapComponents) : NetworkMapComponents :=
  let routers := networkRoutingPeers.keys.filter nmd.isValidated
  { c with
    routersMap := c.routersMap.insert resource.networkID networkRoutingPeers
    routerPeers := nmd.peers.insertFrom c.routerPeers routers
    peers := nmd.peers.insertFrom c.peers routers
    networkResources := c.networkResources ++ [resource] }

def networkRouters (networkID : String) : StrMap NetworkRouter :=
  (nmd.routers.lookup networkID).getD ∅

/-- One enabled resource that has a list of policies. -/
def addResource (peerID : String) (c : NetworkMapComponents)
    (resource : NetworkResource) : NetworkMapComponents :=
  match nmd.resourcePolicies.lookup resource.id with
  | none => c
  | some policies =>
    let networkRoutingPeers := nmd.networkRouters resource.networkID
    let (c, addSourcePeers) :=
      (NetworkMapComponents.usablePolicies policies).foldl
        (nmd.addResourcePolicy env peerID resource.id policies)
        (c, decide (peerID ∈ networkRoutingPeers))
    if addSourcePeers then nmd.keepResource resource networkRoutingPeers c else c

/-- The peer routes a domain resource that a reverse-proxy service targets. -/
def forcesRoutingPeerDNSResolution : Bool :=
  nmd.networkResources.any fun resource =>
    resource.enabled && resource.type = resourceTypeDomain &&
      nmd.proxyTargetedDomainResourceIDs.contains resource.id &&
      decide (peerID ∈ nmd.networkRouters resource.networkID)

/-! ### DNS zones and users -/

def peerInDistributionGroups (peerGroups groups : List String) : Bool :=
  groups.any peerGroups.contains

def appliedZones (peerGroups : List String) : List CustomZone :=
  (nmd.appliedZoneCandidates.filter fun cand =>
    peerInDistributionGroups peerGroups cand.distributionGroups).map (·.zone)

/-- Adds the records of a private service to the zone of its apex. -/
def mergeZone (zones : List CustomZone) (zone : CustomZone) : List CustomZone :=
  if zones.any (·.domain = zone.domain) then
    zones.map fun z =>
      if z.domain = zone.domain then { z with records := z.records ++ zone.records } else z
  else zones ++ [zone]

/-- The zones of the private services the peer may use, one for each apex, without empty ones. -/
def privateServiceZones (peerGroups : List String) : List CustomZone :=
  (((nmd.privateServiceCandidates.filter fun cand =>
    peerInDistributionGroups peerGroups cand.accessGroups).map (·.zone)).foldl mergeZone []).filter
      fun z => !z.records.isEmpty

def filterDNSRecordsByPeers (records : List SimpleRecord) (peers : StrMap Peer)
    (includeIPv6 : Bool) : List SimpleRecord :=
  records.filter fun record => peers.entries.any fun e =>
    e.2.ip.string = record.rData ||
      (includeIPv6 && e.2.ipv6.isValid && e.2.ipv6.string = record.rData)

def filterGroupIDToUserIDs (fullMap : StrMap (List String)) (neededGroupIDs : List String) :
    StrMap (List String) :=
  fullMap.insertFrom ∅ neededGroupIDs

/-! ### The components -/

/-- Leaves in each group only the peers that are part of the components. -/
def filterGroupPeers (groups : StrMap Group) (peers : StrMap Peer) : StrMap Group :=
  groups.mapVals fun _ g => { g with peers := g.peers.filter fun pid => decide (pid ∈ peers) }

/-- Leaves the failed checks that a policy refers to, for peers that are part of the
components. -/
def filterPostureFailedPeers (failed : StrMap (List String)) (policies : List Policy)
    (resourcePoliciesMap : StrMap (List Policy)) (peers : StrMap Peer) : StrMap (List String) :=
  let referenced := (policies ++ resourcePoliciesMap.entries.flatMap (·.2)).flatMap
    (·.sourcePostureChecks)
  let failed := (failed.restrict referenced.contains).mapVals fun _ failedPeers =>
    failedPeers.filter fun pid => decide (pid ∈ peers)
  failed.restrict fun checkID => !(failed.setAt checkID).isEmpty

/-- The components of a peer that does not exist or is not validated. -/
def emptyComponents : NetworkMapComponents :=
  { peerID
    peers := nmd.peers.insertFrom ∅ [peerID]
    forceRoutingPeerDNSResolution := nmd.forcesRoutingPeerDNSResolution peerID
    empty := true }

/-- The components of a validated peer before the resources are looked at. -/
def baseComponents (peerID : String) (peer : Peer) (peersCustomZone : CustomZone) :
    NetworkMapComponents :=
  let rel := nmd.getPeersGroupsPoliciesRoutes env peerID peer.sshEnabled
  let peerGroups := nmd.getPeerGroups peerID
  { peerID
    accountSettings := nmd.accountSettings
    dnsSettings := nmd.dnsSettings
    customZoneDomain := peersCustomZone.domain
    networkXIDToPublicID := nmd.networkXIDToPublicID
    postureCheckXIDToPublicID := nmd.postureCheckXIDToPublicID
    forceRoutingPeerDNSResolution := nmd.forcesRoutingPeerDNSResolution peerID
    groupIDToUserIDs := filterGroupIDToUserIDs nmd.groupIDToUserIDs rel.neededGroupIDs
    allowedUserIDs := if rel.needAllowedUserIDs then nmd.allowedUserIDs else []
    peers := rel.peers
    groups := rel.groups
    policies := rel.policies
    routes := rel.routes
    postureFailedPeers := rel.postureFailedPeers
    allDNSRecords := filterDNSRecordsByPeers peersCustomZone.records rel.peers
      (peer.supportsIPv6 && peer.ipv6.isValid)
    accountZones := nmd.appliedZones peerGroups ++ nmd.privateServiceZones peerGroups
    nameServerGroups := nmd.nameServerGroups.filter fun nsGroup =>
      nsGroup.enabled && nsGroup.groups.any fun gID => decide (gID ∈ rel.groups) }

/-- Removes from the groups and from the failed checks the peers that are not part of the
components. -/
def finishComponents (c : NetworkMapComponents) : NetworkMapComponents :=
  { c with
    groups := filterGroupPeers c.groups c.peers
    postureFailedPeers :=
      filterPostureFailedPeers c.postureFailedPeers c.policies c.resourcePoliciesMap c.peers }

/-- The components of a peer, once the reverse-proxy policies are there. -/
def peerComponents (peerID : String) (peersCustomZone : CustomZone) : NetworkMapComponents :=
  match nmd.peers.lookup peerID with
  | none => nmd.emptyComponents peerID
  | some peer =>
    if !nmd.isValidated peerID then nmd.emptyComponents peerID
    else finishComponents <| (nmd.networkResources.filter (·.enabled)).foldl
      (nmd.addResource env peerID) (nmd.baseComponents env peerID peer peersCustomZone)

/-- The components from which the network map of the peer is calculated. -/
def getPeerNetworkMapComponents (peerID : String) (peersCustomZone : CustomZone) :
    NetworkMapComponents :=
  nmd.injectProxyPolicies.peerComponents env peerID peersCustomZone

end NetworkMapData

end Cloink
