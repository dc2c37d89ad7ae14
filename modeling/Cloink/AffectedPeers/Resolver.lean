import Cloink.AffectedPeers.Account

/-!
# Peers affected by a change of the account

The resolver of `affectedpeers`: it reads the collections that a change can touch (`load`) and walks
them in memory to the groups and peers whose network maps may have changed (`expand`). The walk only
adds to its two sets of results, so each collector is modelled by what it adds. Errors of the store
are left out.
-/

namespace Cloink

open List

/-- A changed network resource with the groups it was and is part of. -/
structure ChangedResource where
  id : String
  networkID : String
  groupIDs : List String := []

/-- What changed in an account. Networks are given by their ids. -/
structure Change where
  changedGroupIDs : List String := []
  changedPeerIDs : List String := []
  policies : List Policy := []
  routes : List Route := []
  routers : List AccountRouter := []
  resources : List ChangedResource := []
  networks : List String := []
  postureCheckIDs : List String := []
  distributionGroupIDs : List String := []
  removedPeersByGroup : StrMap (List String) := ∅
  outputPeerIDs : List String := []
  userGroupIDs : List String := []
  allowedUsersChanged : Bool := false
  linkGroups : List String := []

def Change.isEmpty (c : Change) : Bool :=
  c.changedGroupIDs.isEmpty && c.changedPeerIDs.isEmpty && c.policies.isEmpty &&
    c.routes.isEmpty && c.routers.isEmpty && c.resources.isEmpty && c.networks.isEmpty &&
    c.postureCheckIDs.isEmpty && c.userGroupIDs.isEmpty && !c.allowedUsersChanged &&
    c.distributionGroupIDs.isEmpty && c.removedPeersByGroup.entries.isEmpty &&
    c.linkGroups.isEmpty && c.outputPeerIDs.isEmpty

/-! ### Loading -/

/-- The collections a change can touch; the others stay empty. -/
structure Snapshot where
  policies : List Policy := []
  routes : List Route := []
  nsGroups : List NameServerGroup := []
  dnsSettings : Option DNSSettings := none
  routers : List AccountRouter := []
  resources : List NetworkResource := []
  services : List Service := []
  proxyByCluster : StrMap (List String) := ∅
  groups : StrMap Group := ∅

namespace Account

variable (a : Account)

def embeddedProxyPeerIDsByCluster : StrMap (List String) :=
  ((a.peers.entries.map (·.2)).filter (·.proxyMeta.embedded)).foldl (fun out peer =>
    out.insert peer.proxyMeta.cluster (out.setAt peer.proxyMeta.cluster ++ [peer.id])) ∅

def load (c : Change) : Snapshot :=
  if c.isEmpty then {}
  else
    let hasGroupOrPeerChange := !c.changedGroupIDs.isEmpty || !c.changedPeerIDs.isEmpty ||
      !c.linkGroups.isEmpty || !c.resources.isEmpty
    let hasNetworkObject := !c.routers.isEmpty || !c.resources.isEmpty || !c.networks.isEmpty
    let needsRoutersResources := hasGroupOrPeerChange || !c.postureCheckIDs.isEmpty ||
      !c.policies.isEmpty || hasNetworkObject || !c.userGroupIDs.isEmpty || c.allowedUsersChanged
    let needsDNS := !c.changedGroupIDs.isEmpty || !c.changedPeerIDs.isEmpty || !c.linkGroups.isEmpty
    let proxyByCluster := if hasGroupOrPeerChange then a.embeddedProxyPeerIDsByCluster else ∅
    { policies := if needsRoutersResources then a.policies else []
      routers := if needsRoutersResources then a.networkRouters else []
      resources := if needsRoutersResources then a.networkResources else []
      routes := if hasGroupOrPeerChange then a.routes else []
      proxyByCluster
      services := if proxyByCluster.entries.isEmpty then [] else a.services
      nsGroups := if needsDNS then a.nameServerGroups else []
      dnsSettings := if needsDNS then some a.dnsSettings else none
      groups := a.groups }

end Account

/-! ### Results -/

/-- The groups and the direct peers that a part of the walk adds to the affected ones. -/
structure Affected where
  groups : List String := []
  peers : List String := []

namespace Affected

instance : Append Affected := ⟨fun x y => ⟨x.groups ++ y.groups, x.peers ++ y.peers⟩⟩

/-- What a loop adds. -/
def collect {α : Type} (l : List α) (f : α → Affected) : Affected :=
  ⟨l.flatMap fun x => (f x).groups, l.flatMap fun x => (f x).peers⟩

/-- What is added under a condition. -/
def onlyIf (cond : Bool) (x : Affected) : Affected := if cond then x else {}

variable {α : Type} {x y : Affected} {l : List α} {f : α → Affected} {id : String} {cond : Bool}

@[simp] theorem mem_groups_append : id ∈ (x ++ y).groups ↔ id ∈ x.groups ∨ id ∈ y.groups :=
  mem_append

@[simp] theorem mem_peers_append : id ∈ (x ++ y).peers ↔ id ∈ x.peers ∨ id ∈ y.peers :=
  mem_append

@[simp] theorem mem_groups_collect : id ∈ (collect l f).groups ↔ ∃ x ∈ l, id ∈ (f x).groups :=
  mem_flatMap

@[simp] theorem mem_peers_collect : id ∈ (collect l f).peers ↔ ∃ x ∈ l, id ∈ (f x).peers :=
  mem_flatMap

end Affected

open Affected

/-! ### Sides of a rule -/

inductive PolicySide
  | source
  | destination
  deriving DecidableEq

def PolicySide.opposite : PolicySide → PolicySide
  | source => destination
  | destination => source

variable (rule : PolicyRule)

def ruleSideGroups : PolicySide → List String
  | .destination => rule.destinations
  | .source => rule.sources

def ruleSideResource : PolicySide → Resource
  | .destination => rule.destinationResource
  | .source => rule.sourceResource

/-- The peer a resource names, if it names one. -/
def directPeer (res : Resource) : List String := if res.isPeer then [res.id] else []

def ruleSide (side : PolicySide) : Affected where
  groups := ruleSideGroups rule side
  peers := directPeer (ruleSideResource rule side)

/-- The source groups and peers of the enabled rules. -/
def collectPolicySources (policy : Policy) : Affected :=
  collect (policy.rules.filter (·.enabled)) fun rule => ruleSide rule .source

def policyTargetsResourceOrGroups (policy : Policy) (resourceID : String) (groups : List String) :
    Bool :=
  policy.rules.any fun rule => rule.enabled &&
    ((rule.destinationResource.type ≠ resourceTypePeer && rule.destinationResource.id = resourceID &&
      resourceID ≠ "") || rule.destinations.any groups.contains)

def policyReferencesPostureChecks (policy : Policy) (ids : List String) : Bool :=
  policy.sourcePostureChecks.any ids.contains

/-- The rule makes its destinations carry the users of the account that may use SSH. -/
def ruleShipsAllowedUsers : Bool :=
  if rule.protocol = policyRuleProtocolNetbirdSSH then
    rule.authorizedGroups.entries.isEmpty && rule.authorizedUser = ""
  else policyRuleImpliesLegacySSH rule

/-- The peer an enabled target of a service names, if it names one. -/
def targetPeers (svc : Service) : List String :=
  (svc.targets.filter fun t => t.enabled && t.targetType = resourceTypePeer && t.targetID ≠ "").map
    (·.targetID)

def serviceMatchesChangedPeers (svc : Service) (proxyPeers changedPeers : List String) : Bool :=
  proxyPeers.any changedPeers.contains || (targetPeers svc).any changedPeers.contains

/-! ### The walk -/

/-- The inputs of the walk: `linkGroups` find policies, routes and routers, `outputGroups` are
those whose members are all affected. -/
structure Resolver where
  snap : Snapshot
  change : Change
  linkGroups : List String
  outputGroups : List String
  changedPeers : List String

/-- The groups of the changed peers find policies and routes too. -/
def newResolver (snap : Snapshot) (c : Change) : Resolver where
  snap := snap
  change := c
  linkGroups := c.changedGroupIDs ++ c.linkGroups ++
    (snap.groups.entries.filter fun e => e.2.peers.any c.changedPeerIDs.contains).map (·.1)
  outputGroups := c.changedGroupIDs
  changedPeers := c.changedPeerIDs

namespace Resolver

variable (r : Resolver)

def policies : List Policy := r.snap.policies.filter (·.enabled)

def networkResources : List NetworkResource := r.snap.resources.filter (·.enabled)

def networkRouters : List AccountRouter := r.snap.routers.filter (·.enabled)

def peerIDsForGroups (groups : List String) : List String :=
  groups.flatMap fun gID => (r.snap.groups.lookup gID).elim [] (·.peers)

def groupResourceIDs (groupIDs : List String) : List String :=
  groupIDs.flatMap fun gID =>
    (((r.snap.groups.lookup gID).elim [] (·.resources)).map (·.id)).filter (· ≠ "")

def routerSide (router : AccountRouter) : Affected where
  groups := router.peerGroups
  peers := if router.peer ≠ "" then [router.peer] else []

def foldRoutersOnNetworks (networkIDs : List String) : Affected :=
  collect (r.networkRouters.filter fun router => networkIDs.contains router.networkID) routerSide

def resourceNetworkIDs (resourceIDs : List String) : List String :=
  (r.networkResources.filter fun resource => resourceIDs.contains resource.id).map (·.networkID)

def networkResourceIDs (networkID : String) : List String :=
  (r.networkResources.filter (·.networkID = networkID)).map (·.id)

/-- The routers through which the resources are reached. -/
def foldRoutersForResources (resourceIDs : List String) : Affected :=
  r.foldRoutersOnNetworks (r.resourceNetworkIDs resourceIDs)

/-- The resource a rule names as destination, unless it is a peer. -/
def directResourceIDs (rule : PolicyRule) : List String :=
  if rule.destinationResource.type ≠ resourceTypePeer && rule.destinationResource.id ≠ "" then
    [rule.destinationResource.id] else []

def ruleDestinationResourceIDs (rule : PolicyRule) : List String :=
  directResourceIDs rule ++ r.groupResourceIDs rule.destinations

def policyDestinationResourceIDs (policy : Policy) : List String :=
  policy.rules.flatMap directResourceIDs ++ r.groupResourceIDs (policy.rules.flatMap (·.destinations))

/-- One side of a policy; a destination is also reached through the routers of its resources. -/
def foldPolicySide (policy : Policy) (side : PolicySide) : Affected :=
  collect policy.rules (ruleSide · side) ++ onlyIf (side = .destination)
      (r.foldRoutersForResources (r.policyDestinationResourceIDs policy))

def foldPolicySideForRule (rule : PolicyRule) (side : PolicySide) : Affected :=
  ruleSide rule side ++
    onlyIf (side = .destination) (r.foldRoutersForResources (r.ruleDestinationResourceIDs rule))

/-- The groups that changed as a whole. -/
def foldOutputGroups (groups : List String) : Affected where
  groups := groups.filter r.outputGroups.contains

/-- A rule with a changed group or peer on the side: the opposite side is affected, with the
changed groups of this side, and the routers of a destination. -/
def foldRuleSideIfChanged (rule : PolicyRule) (side : PolicySide) : Affected :=
  let nearGroups := ruleSideGroups rule side
  let matchedByGroup := nearGroups.any r.linkGroups.contains
  let matchedByPeer := (directPeer (ruleSideResource rule side)).any r.changedPeers.contains
  onlyIf (matchedByGroup || matchedByPeer)
    (r.foldPolicySideForRule rule side.opposite ++ r.foldOutputGroups nearGroups ++
      onlyIf (side = .destination) (r.foldRoutersForResources (r.ruleDestinationResourceIDs rule)))

def collectFromPolicies : Affected :=
  collect r.policies fun policy =>
    collect (policy.rules.filter (·.enabled)) fun rule =>
      r.foldRuleSideIfChanged rule .source ++ r.foldRuleSideIfChanged rule .destination

/-- The side of a route: as a whole when another side matched, else only its changed groups. -/
def foldRouteSide (groups : List String) (matchedHere : Bool) : Affected :=
  if matchedHere then r.foldOutputGroups groups else { groups }

def foldRoute (rt : Route) : Affected :=
  let routing := rt.peerGroups.any r.linkGroups.contains ||
    (rt.peer ≠ "" && r.changedPeers.contains rt.peer)
  let consumer := rt.groups.any r.linkGroups.contains
  let acl := rt.accessControlGroups.any r.linkGroups.contains
  onlyIf (routing || consumer || acl)
    (r.foldRouteSide rt.peerGroups routing ++ r.foldRouteSide rt.groups consumer ++
      r.foldRouteSide rt.accessControlGroups acl ++
      onlyIf (rt.peer ≠ "" && (consumer || acl || r.changedPeers.contains rt.peer))
        { peers := [rt.peer] })

def collectFromRoutes : Affected := collect (r.snap.routes.filter (·.enabled)) r.foldRoute

def collectFromNameServers : Affected :=
  collect (r.snap.nsGroups.filter (·.groups.any r.linkGroups.contains)) fun ns =>
    r.foldOutputGroups ns.groups

def collectFromDNSSettings : Affected where
  groups := r.snap.dnsSettings.elim [] fun s =>
    s.disabledManagementGroups.filter r.linkGroups.contains

def policyTargetsResources (policy : Policy) (resourceIDs : List String) : Bool :=
  (policy.rules.any fun rule => rule.enabled && rule.destinationResource.type ≠ resourceTypePeer &&
    resourceIDs.contains rule.destinationResource.id) ||
  ((policy.rules.filter (·.enabled)).flatMap (·.destinations)).any fun gID =>
    ((r.snap.groups.lookup gID).elim [] (·.resources)).any fun res => resourceIDs.contains res.id

def foldPolicySourcesForResources (resourceIDs : List String) : Affected :=
  onlyIf (!resourceIDs.isEmpty)
    (collect (r.policies.filter fun policy => r.policyTargetsResources policy resourceIDs)
      collectPolicySources)

/-- A router backed by a changed group or peer. -/
def foldNetworkRouter (router : AccountRouter) : Affected :=
  let matchedByGroup := router.peerGroups.any r.linkGroups.contains
  let matchedByPeer := router.peer ≠ "" && r.changedPeers.contains router.peer
  onlyIf (matchedByGroup || matchedByPeer) (r.foldOutputGroups router.peerGroups ++
      { peers := if router.peer ≠ "" then [router.peer] else [] } ++ onlyIf (router.networkID ≠ "")
        (r.foldPolicySourcesForResources (r.networkResourceIDs router.networkID)))

def collectFromNetworkRouters : Affected := collect r.networkRouters r.foldNetworkRouter

def expandChangedPeersWithGroups : List String :=
  r.changedPeers ++ r.peerIDsForGroups r.linkGroups

def foldProxyService (svc : Service) : Affected :=
  let proxyPeers := r.snap.proxyByCluster.setAt svc.proxyCluster
  let matchedByPeer := serviceMatchesChangedPeers svc proxyPeers r.expandChangedPeersWithGroups
  let matchedByAccessGroup := svc.accessGroups.any r.linkGroups.contains
  onlyIf (!proxyPeers.isEmpty && (matchedByPeer || matchedByAccessGroup))
    ({ peers := proxyPeers ++ targetPeers svc } ++ r.foldOutputGroups svc.accessGroups)

def collectFromProxyServices : Affected :=
  onlyIf (!r.snap.proxyByCluster.entries.isEmpty)
    (collect (r.snap.services.filter (·.enabled)) r.foldProxyService)

/-- The destinations of the enabled rules of the account that satisfy a condition. -/
def foldDestinations (cond : PolicyRule → Bool) : Affected :=
  collect r.policies fun policy =>
    collect (policy.rules.filter fun rule => rule.enabled && cond rule) fun rule =>
      r.foldPolicySideForRule rule .destination

def collectFromSSHAuthorizedGroups : Affected :=
  r.foldDestinations fun rule => rule.protocol = policyRuleProtocolNetbirdSSH &&
    rule.authorizedGroups.keys.any r.change.userGroupIDs.contains

def collectFromAllowedUsers : Affected :=
  onlyIf r.change.allowedUsersChanged (r.foldDestinations ruleShipsAllowedUsers)

def collectFromChangedRoutes : Affected :=
  collect r.change.routes fun rt =>
    { groups := rt.groups ++ rt.peerGroups ++ rt.accessControlGroups
      peers := if rt.peer ≠ "" then [rt.peer] else [] }

def collectFromChangedRouters : Affected :=
  collect r.change.routers fun router =>
    routerSide router ++ onlyIf (router.networkID ≠ "")
      (r.foldPolicySourcesForResources (r.networkResourceIDs router.networkID))

def foldPolicySourcesForResource (resourceID : String) (groupIDs : List String) : Affected :=
  collect (r.policies.filter fun policy =>
    policyTargetsResourceOrGroups policy resourceID groupIDs) collectPolicySources

def collectFromChangedResources : Affected :=
  collect r.change.resources fun resource =>
    r.foldPolicySourcesForResource resource.id resource.groupIDs ++
      onlyIf (resource.networkID ≠ "") (r.foldRoutersOnNetworks [resource.networkID])

def collectFromChangedNetworks : Affected :=
  collect (r.change.networks.filter (· ≠ "")) fun networkID =>
    r.foldPolicySourcesForResources (r.networkResourceIDs networkID) ++
      r.foldRoutersOnNetworks [networkID]

/-- The policies whose rules changed: the edited ones, and those with a changed posture check. -/
def bothSidesPolicies : List Policy :=
  r.change.policies ++ r.policies.filter fun policy =>
    policyReferencesPostureChecks policy r.change.postureCheckIDs

/-- What a changed group or peer leads to. -/
def collectFromLinks : Affected :=
  r.collectFromPolicies ++ r.collectFromRoutes ++ r.collectFromNameServers ++
    r.collectFromDNSSettings ++ r.collectFromNetworkRouters ++ r.collectFromProxyServices

def walk : Affected :=
  (collect r.bothSidesPolicies fun policy =>
    r.foldPolicySide policy .source ++ r.foldPolicySide policy .destination) ++
  onlyIf (!r.linkGroups.isEmpty || !r.changedPeers.isEmpty) r.collectFromLinks ++
  r.collectFromSSHAuthorizedGroups ++ r.collectFromAllowedUsers ++
  r.collectFromChangedRoutes ++ r.collectFromChangedRouters ++ r.collectFromChangedResources ++
  r.collectFromChangedNetworks ++
  { groups := r.change.distributionGroupIDs
    peers := r.changedPeers ++ r.change.outputPeerIDs }

/-- The peers that left one of the affected groups. -/
def removedPeers (affected : Affected) : List String :=
  (r.change.removedPeersByGroup.entries.filter fun e => affected.groups.contains e.1).flatMap (·.2)

/-- The members of the affected groups, the direct peers and those that left, each once. -/
def expand (affected : Affected) : List String :=
  List.insertAll [] (r.peerIDsForGroups affected.groups ++ affected.peers ++ r.removedPeers affected)

end Resolver

def Snapshot.expand (snap : Snapshot) (c : Change) : List String :=
  if c.isEmpty then [] else (newResolver snap c).expand (newResolver snap c).walk

/-- The state a handler leaves behind, the change, and the collections loaded for it. -/
structure Handled where
  account : Account
  change : Change
  snapshot : Snapshot

namespace Resolver

variable {r : Resolver}

theorem mem_peerIDsForGroups {groups : List String} {p : String} : p ∈ r.peerIDsForGroups groups ↔
      ∃ gID ∈ groups, p ∈ (r.snap.groups.lookup gID).elim [] (·.peers) :=
  mem_flatMap

end Resolver

theorem Snapshot.mem_expand {snap : Snapshot} {c : Change} (hc : c.isEmpty = false) {p : String} :
    p ∈ snap.expand c ↔
      (∃ gID ∈ (newResolver snap c).walk.groups, p ∈ (snap.groups.lookup gID).elim [] (·.peers)) ∨
        p ∈ (newResolver snap c).walk.peers ∨
          p ∈ (newResolver snap c).removedPeers (newResolver snap c).walk := by
  simp only [expand, hc, Bool.false_eq_true, ↓reduceIte, Resolver.expand, mem_insertAll,
    not_mem_nil, false_or, mem_append, Resolver.mem_peerIDsForGroups, or_assoc]
  rfl

end Cloink
