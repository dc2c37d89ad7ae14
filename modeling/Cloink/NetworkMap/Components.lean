import Cloink.NetworkMap.FirewallRule

/-!
# Components of a network map and peer ACLs

`NetworkMapComponents` is the slice of an account from which the map of one peer is calculated.
This module has the first half of the calculation: the peers the target peer may talk to, the
firewall rules for them and the users it accepts over SSH (`getPeerConnectionResources`).
-/

namespace Cloink

open List

structure NetworkMapComponents where
  peerID : String
  accountSettings : AccountSettingsInfo := {}
  dnsSettings : DNSSettings := {}
  customZoneDomain : String := ""
  peers : StrMap Peer := ∅
  groups : StrMap Group := ∅
  policies : List Policy := []
  routes : List Route := []
  nameServerGroups : List NameServerGroup := []
  allDNSRecords : List SimpleRecord := []
  accountZones : List CustomZone := []
  resourcePoliciesMap : StrMap (List Policy) := ∅
  routersMap : StrMap (StrMap NetworkRouter) := ∅
  networkResources : List NetworkResource := []
  groupIDToUserIDs : StrMap (List String) := ∅
  allowedUserIDs : List String := []
  postureFailedPeers : StrMap (List String) := ∅
  routerPeers : StrMap Peer := ∅
  networkXIDToPublicID : StrMap String := ∅
  postureCheckXIDToPublicID : StrMap String := ∅
  forceRoutingPeerDNSResolution : Bool := false
  empty : Bool := false

/-- The loop of `getUniquePeerIDsFromGroupsIDs` over the remaining groups: the group of all
peers, and a group listed alone, answer for all of them. -/
def uniquePeerIDs (groups : StrMap Group) (alone : Bool) : List String → List String → List String
  | peerIDs, [] => peerIDs
  | peerIDs, groupID :: rest =>
    match groups.lookup groupID with
    | none => uniquePeerIDs groups alone peerIDs rest
    | some group =>
      if group.isGroupAll || alone then group.peers
      else uniquePeerIDs groups alone (peerIDs.insertAll group.peers) rest

def getUniquePeerIDsFromGroupsIDs (groups : StrMap Group) (groupIDs : List String) : List String :=
  uniquePeerIDs groups (groupIDs.length = 1) [] groupIDs

/-- The groups of the map that have the peer as a member. -/
def memberGroups (groups : StrMap Group) (peerID : String) : List String :=
  (groups.entries.filter fun e => e.2.peers.contains peerID).map (·.1)

theorem mem_memberGroups {groups : StrMap Group} {peerID gid : String} :
    gid ∈ memberGroups groups peerID ↔ ∃ g, groups.lookup gid = some g ∧ peerID ∈ g.peers := by
  simp only [memberGroups, mem_map, mem_filter, contains_iff_mem]
  constructor
  · rintro ⟨e, ⟨he, hp⟩, rfl⟩
    exact ⟨e.2, AList.mem_lookup_iff.2 he, hp⟩
  · rintro ⟨g, hg, hp⟩
    exact ⟨⟨gid, g⟩, ⟨AList.mem_lookup_iff.1 hg, hp⟩, rfl⟩

namespace NetworkMapComponents

variable (c : NetworkMapComponents)

def getPeerInfo (peerID : String) : Option Peer := c.peers.lookup peerID

def getRouterPeerInfo (peerID : String) : Option Peer := c.routerPeers.lookup peerID

def getGroupInfo (groupID : String) : Option Group := c.groups.lookup groupID

def getPeerGroups (peerID : String) : List String := memberGroups c.groups peerID

/-- The peer is part of the components and none of the checks has it recorded as failed. -/
def validatePostureChecksOnPeer (peerID : String) (postureCheckIDs : List String) : Bool :=
  decide (peerID ∈ c.peers) && postureCheckIDs.all fun checkID =>
    !(c.postureFailedPeers.setAt checkID).contains peerID

/-- The admitted peers of one side of a rule, and whether `peerID` itself is one of them. -/
def filterPolicyPeers (uniquePeerIDs : List String) (peerID : String)
    (sourcePostureChecksIDs : List String) : List Peer × Bool :=
  let admitted := uniquePeerIDs.filter fun p =>
    c.validatePostureChecksOnPeer p sourcePostureChecksIDs
  ((admitted.filter (· ≠ peerID)).filterMap c.getPeerInfo, admitted.contains peerID)

def getAllPeersFromGroups (groups : List String) (peerID : String)
    (sourcePostureChecksIDs : List String) : List Peer × Bool :=
  c.filterPolicyPeers (getUniquePeerIDsFromGroupsIDs c.groups groups) peerID sourcePostureChecksIDs

def getPeerFromResource (resource : Resource) (peerID : String)
    (sourcePostureChecksIDs : List String) : List Peer × Bool :=
  c.filterPolicyPeers [resource.id] peerID sourcePostureChecksIDs

/-- The peers of one side of a rule: the peer its resource names, else those of its groups. -/
def getSidePeers (resource : Resource) (groups : List String) (peerID : String)
    (sourcePostureChecksIDs : List String) : List Peer × Bool :=
  if resource.isPeer then c.getPeerFromResource resource peerID sourcePostureChecksIDs
  else c.getAllPeersFromGroups groups peerID sourcePostureChecksIDs

end NetworkMapComponents

/-! ### Accumulated peers and rules -/

/-- The state of the closure of `connResourcesGenerator`. -/
structure ConnResources where
  rulesExists : List String := []
  peersExists : List String := []
  rules : List FirewallRule := []
  peers : List Peer := []

namespace ConnResources

def addPeer (st : ConnResources) (peer : Peer) : ConnResources :=
  if peer.id ∈ st.peersExists then st
  else { st with peers := st.peers ++ [peer], peersExists := peer.id :: st.peersExists }

/-- Adds the rules for one address of a peer; absent when the identifier is used. -/
def addAddress (env : Env) (targetPeer : Peer) (rule : PolicyRule) (direction : Direction)
    (st : ConnResources) (ip : String) : Option ConnResources :=
  let ruleID := ruleKey rule ip direction
  if ruleID ∈ st.rulesExists then none
  else some
    { st with
      rulesExists := ruleID :: st.rulesExists
      rules := st.rules ++ rulesForAddress env (baseRule rule ip direction) rule targetPeer }

def appendIPv6FirewallRule (env : Env) (targetPeer : Peer) (rule : PolicyRule)
    (direction : Direction) (st : ConnResources) (peer : Peer) : ConnResources :=
  if !peer.ipv6.isValid || !targetPeer.supportsIPv6 || !targetPeer.ipv6.isValid then st
  else (st.addAddress env targetPeer rule direction peer.ipv6.string).getD st

/-- One peer of the loop: the rules for its IPv6 address are only added together with those for
its IPv4 address. -/
def generateForPeer (env : Env) (targetPeer : Peer) (rule : PolicyRule) (direction : Direction)
    (st : ConnResources) (peer : Peer) : ConnResources :=
  let st := st.addPeer peer
  match st.addAddress env targetPeer rule direction peer.ip.string with
  | none => st
  | some st => st.appendIPv6FirewallRule env targetPeer rule direction peer

def generateResources (env : Env) (targetPeer : Peer) (st : ConnResources) (rule : PolicyRule)
    (groupPeers : List Peer) (direction : Direction) : ConnResources :=
  groupPeers.foldl (generateForPeer env targetPeer rule direction) st

end ConnResources

/-! ### Users accepted over SSH -/

/-- The local user name that stands for every user. -/
def wildcard : String := "*"

def authorize (authorizedUsers : StrMap (List String)) (localUser : String)
    (userIDs : List String) : StrMap (List String) :=
  authorizedUsers.insert localUser ((authorizedUsers.setAt localUser).insertAll userIDs)

/-- The users of one group of the rule, for each of its local users. -/
def authorizeGroup (groupIDToUserIDs : StrMap (List String))
    (authorizedUsers : StrMap (List String)) (groupID : String) (localUsers : List String) :
    StrMap (List String) :=
  match groupIDToUserIDs.lookup groupID with
  | none => authorizedUsers
  | some userIDs =>
    (if localUsers.isEmpty then [wildcard] else localUsers).foldl
      (fun users localUser => authorize users localUser userIDs) authorizedUsers

/-- Everything `getPeerConnectionResources` accumulates. -/
structure PeerConnections where
  resources : ConnResources := {}
  authorizedUsers : StrMap (List String) := ∅
  sshEnabled : Bool := false

namespace NetworkMapComponents

variable (c : NetworkMapComponents)

/-- The users a rule lets in over SSH, when the target peer is one of its destinations. -/
def authorizeRule (targetPeer : Peer) (rule : PolicyRule) (st : PeerConnections) :
    PeerConnections :=
  if rule.protocol = policyRuleProtocolNetbirdSSH then
    { st with
      sshEnabled := true
      authorizedUsers :=
        if !rule.authorizedGroups.entries.isEmpty then
          rule.authorizedGroups.entries.foldl
            (fun users e => authorizeGroup c.groupIDToUserIDs users e.1 e.2) st.authorizedUsers
        else if rule.authorizedUser ≠ "" then
          authorize st.authorizedUsers wildcard [rule.authorizedUser]
        else st.authorizedUsers.insert wildcard c.allowedUserIDs }
  else if policyRuleImpliesLegacySSH rule && targetPeer.sshEnabled then
    { st with
      sshEnabled := true
      authorizedUsers := st.authorizedUsers.insert wildcard c.allowedUserIDs }
  else st

/-- The peers and firewall rules of one policy rule, from the peers of its two sides. -/
def generateRule (env : Env) (targetPeer : Peer) (rule : PolicyRule)
    (source destination : List Peer × Bool) (st : ConnResources) : ConnResources :=
  let gen (st : ConnResources) (cond : Bool) (peers : List Peer) (direction : Direction) :=
    if cond then st.generateResources env targetPeer rule peers direction else st
  let st := gen st (rule.bidirectional && source.2) destination.1 .IN
  let st := gen st (rule.bidirectional && destination.2) source.1 .OUT
  let st := gen st source.2 destination.1 .OUT
  gen st destination.2 source.1 .IN

/-- One enabled rule of an enabled policy. -/
def connectRule (env : Env) (targetPeer : Peer) (targetPeerID : String)
    (sourcePostureChecks : List String) (st : PeerConnections) (rule : PolicyRule) :
    PeerConnections :=
  let source := c.getSidePeers rule.sourceResource rule.sources targetPeerID sourcePostureChecks
  let destination := c.getSidePeers rule.destinationResource rule.destinations targetPeerID []
  let st := { st with resources := generateRule env targetPeer rule source destination st.resources }
  if destination.2 then c.authorizeRule targetPeer rule st else st

/-- The enabled rules of the enabled policies, with the posture checks of their policy. -/
def enabledRules (policies : List Policy) : List (Policy × PolicyRule) :=
  (policies.filter (·.enabled)).flatMap fun policy =>
    (policy.rules.filter (·.enabled)).map fun rule => (policy, rule)

/-- The peers, firewall rules and SSH users that the policies give the target peer. -/
def getPeerConnectionResources (env : Env) (targetPeerID : String) : PeerConnections :=
  match c.getPeerInfo targetPeerID with
  | none => {}
  | some targetPeer =>
    (enabledRules c.policies).foldl (fun st pr =>
      c.connectRule env targetPeer targetPeerID pr.1.sourcePostureChecks st pr.2) {}

end NetworkMapComponents

end Cloink
