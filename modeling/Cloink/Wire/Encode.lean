import Cloink.Lib.Base64
import Cloink.NetworkMap.Components
import Cloink.Wire.Envelope

/-!
# Encoding of the components of a peer

`EncodeNetworkMapEnvelope` of the management service. The encoder numbers the peers of the
components, replaces the internal ids of groups, policies, networks, resources and posture checks
by public ones and drops references that it cannot resolve. Maps are run through in the order of
their entries, which in the source is any order.
-/

namespace Cloink

open Netip

/-- The number of bytes of a WireGuard key. -/
def wgKeyRawLen : Nat := 32

/-- The bytes of a key, none when it is malformed. The source has room for 32 bytes only. -/
def decodeWgKey (s : String) : List UInt8 :=
  match Base64.decode s with
  | some out => if out.length = wgKeyRawLen then out else []
  | none => []

def toInt32 (n : Int) : Int := n.bmod (2 ^ 32)

def toInt64 (n : Int) : Int := n.bmod (2 ^ 64)

def as16 : Addr → List UInt8
  | .invalid => List.replicate 16 0
  | .v4 b => Addr.mappedHead ++ b.toList
  | .v6 b _ => b.toList

def toPeerCompact (p : Peer) : Proto.PeerCompact where
  wgPubKey := decodeWgKey p.key
  sshPubKey := p.sshKey
  dnsLabel := p.dnsLabel
  agentVersion := p.sysMeta.wtVersion
  addedWithSsoLogin := p.userID ≠ ""
  loginExpirationEnabled := p.loginExpirationEnabled
  sshEnabled := p.sshEnabled
  supportsIpv6 := p.supportsIPv6
  supportsSourcePrefixes := p.supportsSourcePrefixes
  serverSshAllowed := p.sysMeta.flags.serverSSHAllowed
  proxyEmbedded := p.proxyMeta.embedded
  lastLoginUnixNano := p.lastLogin.elim 0 toInt64
  ip := if !p.ip.isValid then [] else if p.ip.is4 || p.ip.is4In6 then p.ip.unmap.asSlice
    else as16 p.ip
  ipv6 := if p.ipv6.isValid then as16 p.ipv6 else []

def toAccountSettingsCompact (s : AccountSettingsInfo) : Proto.AccountSettingsCompact where
  peerLoginExpirationEnabled := s.peerLoginExpirationEnabled
  peerLoginExpirationNs := s.peerLoginExpiration

/-! ### Ports -/

/-- Ports that do not parse are dropped. -/
def portsToUint32 (ports : List String) : List UInt32 :=
  ports.filterMap fun p => (Strconv.parseUint 16 p).map UInt32.ofNat

def portRangesToProto (ranges : List RulePortRange) : List Proto.PortRange :=
  ranges.map fun r => ⟨r.startPort.toUInt32, r.endPort.toUInt32⟩

/-! ### The encoder -/

/-- The tables of the encoder: the index of each peer, the peers by index, and the public ids of
the enabled network resources. -/
structure ComponentEncoder where
  components : NetworkMapComponents
  peerOrder : StrMap Nat := ∅
  peers : List Proto.PeerCompact := []
  networkIdToPublicId : StrMap String := ∅

namespace ComponentEncoder

/-- Gives the peer an index unless it has one. -/
def appendPeer (e : ComponentEncoder) (p : Peer) : ComponentEncoder :=
  if p.id ∈ e.peerOrder then e
  else { e with
    peerOrder := e.peerOrder.insert p.id e.peers.length
    peers := e.peers ++ [toPeerCompact p] }

/-- `indexAllPeers`, `indexRouterPeers`: gives indexes to all peers of a map. -/
def indexPeers (e : ComponentEncoder) (peers : StrMap Peer) : ComponentEncoder :=
  peers.entries.foldl (fun e p => e.appendPeer p.2) e

/-- The enabled resources; of two with one id the later one counts. -/
def indexAllNetworkResources (e : ComponentEncoder) : ComponentEncoder :=
  let ids := (e.components.networkResources.filter (·.enabled)).foldl
    (fun ids r => ids.insert r.id r.publicID) e.networkIdToPublicId
  { e with networkIdToPublicId := ids }

/-- The encoder with all its tables. -/
def build (c : NetworkMapComponents) : ComponentEncoder :=
  ((indexPeers { components := c } c.peers).indexPeers c.routerPeers).indexAllNetworkResources

variable (e : ComponentEncoder)

def groupPublicXid (groupID : String) : Option String :=
  (e.components.groups.lookup groupID).map (·.publicID)

/-- Groups that are not part of the components are dropped. -/
def groupPublicXids (src : List String) : List String := src.filterMap e.groupPublicXid

/-- The groups that let users in over SSH need not be part of the components and keep their id
then. -/
def authorizedGroupKey (groupID : String) : Option String :=
  if groupID = "" then none else some ((e.groupPublicXid groupID).getD groupID)

def resourceToProto (r : Resource) : Option Proto.ResourceCompact :=
  if !resourceTypeValid r.type || r.id = "" then none
  else if r.type = resourceTypePeer then
    (e.peerOrder.lookup r.id).map fun idx => { type := r.type, peerIndexSet := true, peerIndex := idx }
  else (e.networkIdToPublicId.lookup r.id).map fun publicID => { type := r.type, id := publicID }

def postureCheckSeqs (xids : List String) : List String :=
  xids.filterMap e.components.postureCheckXIDToPublicID.lookup

def networkPublicId (xid : String) : Option String :=
  if xid = "" then none else e.components.networkXIDToPublicID.lookup xid

def peerIndexes (peerIDs : List String) : List Nat := peerIDs.filterMap e.peerOrder.lookup

def encodeGroups : List Proto.GroupCompact :=
  e.components.groups.entries.map fun g =>
    { id := g.2.publicID
      peerIndexes := e.peerIndexes g.2.peers
      isAll := g.2.isGroupAll
      resources := g.2.resources.filterMap e.resourceToProto }

def encodeAuthorizedGroups (m : StrMap (List String)) : StrMap (List String) :=
  m.remap fun groupID names => (e.authorizedGroupKey groupID).map fun id => (id, names)

def encodePolicyRule (pol : Policy) (r : PolicyRule) : Proto.PolicyCompact where
  id := pol.publicID
  action := getProtoAction r.action
  protocol := getProtoProtocol r.protocol
  bidirectional := r.bidirectional
  ports := portsToUint32 r.ports
  portRanges := portRangesToProto r.portRanges
  sourceGroupIds := e.groupPublicXids r.sources
  destinationGroupIds := e.groupPublicXids r.destinations
  authorizedUser := r.authorizedUser
  authorizedGroups := e.encodeAuthorizedGroups r.authorizedGroups
  sourceResource := e.resourceToProto r.sourceResource
  destinationResource := e.resourceToProto r.destinationResource
  sourcePostureCheckIds := e.postureCheckSeqs pol.sourcePostureChecks

/-- One message for each enabled rule of the enabled policies. -/
def encodePolicies (policies : List Policy) : List Proto.PolicyCompact :=
  (policies.filter (·.enabled)).flatMap fun pol =>
    (pol.rules.filter (·.enabled)).map (e.encodePolicyRule pol)

def encodeDNSSettings (s : DNSSettings) : Option (List String) :=
  if s.disabledManagementGroups.isEmpty then none
  else some (e.groupPublicXids s.disabledManagementGroups)

def encodeRoute (r : Route) : Proto.RouteRaw where
  id := r.publicID
  netId := r.netID
  description := r.description
  networkCidr := if r.network.isValid then r.network.string else ""
  domains := r.domains
  keepRoute := r.keepRoute
  networkType := toInt32 r.networkType
  masquerade := r.masquerade
  metric := toInt32 r.metric
  enabled := r.enabled
  skipAutoApply := r.skipAutoApply
  peerIndexSet := r.peer ≠ "" && (e.peerOrder.lookup r.peer).isSome
  peerIndex := if r.peer = "" then 0 else (e.peerOrder.lookup r.peer).getD 0
  groupIds := e.groupPublicXids r.groups
  accessControlGroupIds := e.groupPublicXids r.accessControlGroups
  peerGroupIds := e.groupPublicXids r.peerGroups

def encodeNameServer (s : NameServer) : Proto.NameServer where
  ip := s.ip.string
  nsType := s.nsType
  port := s.port

def encodeNameServerGroup (nsg : NameServerGroup) : Proto.NameServerGroupRaw where
  id := nsg.publicID
  nameservers := nsg.nameServers.map encodeNameServer
  groupIds := e.groupPublicXids nsg.groups
  primary := nsg.primary
  domains := nsg.domains
  enabled := nsg.enabled
  searchDomainsEnabled := nsg.searchDomainsEnabled

def encodeNetworkResource (r : NetworkResource) : Proto.NetworkResourceRaw where
  id := r.publicID
  networkSeq := (e.networkPublicId r.networkID).getD ""
  name := r.name
  description := r.description
  type := r.type
  address := r.address
  domainValue := r.domain
  prefixCidr := if r.resPrefix.isValid then r.resPrefix.string else ""
  enabled := r.enabled

def encodeRouter (peerID : String) (r : NetworkRouter) : Proto.NetworkRouterEntry where
  id := r.publicID
  peerIndexSet := (e.peerOrder.lookup peerID).isSome
  peerIndex := (e.peerOrder.lookup peerID).getD 0
  peerGroupIds := e.groupPublicXids r.peerGroups
  masquerade := r.masquerade
  metric := toInt32 r.metric
  enabled := r.enabled

def encodeRoutersMap (routersMap : StrMap (StrMap NetworkRouter)) :
    StrMap (List Proto.NetworkRouterEntry) :=
  routersMap.remap fun networkXID routers =>
    if routers.entries.isEmpty then none
    else (e.networkPublicId networkXID).map fun id =>
      (id, routers.entries.map fun r => e.encodeRouter r.1 r.2)

/-- The public ids of the resources, disabled ones included. -/
def resourceXIDToPublicID : StrMap String :=
  e.components.networkResources.foldl (fun ids r => ids.insert r.id r.publicID) ∅

def encodeResourcePoliciesMap (rpm : StrMap (List Policy)) : StrMap (List String) :=
  rpm.remap fun resourceXID policies =>
    if policies.isEmpty then none
    else (e.resourceXIDToPublicID.lookup resourceXID).map fun resId =>
      (resId, policies.map (·.publicID))

def encodeGroupIDToUserIDs (m : StrMap (List String)) : StrMap (List String) :=
  m.remap fun groupID userIDs =>
    if userIDs.isEmpty then none
    else (e.authorizedGroupKey groupID).map fun id => (id, userIDs)

def encodePostureFailedPeers (m : StrMap (List String)) : StrMap (List Nat) :=
  m.remap fun checkXID failedPeerIDs =>
    if (e.peerIndexes failedPeerIDs).isEmpty then none
    else (e.components.postureCheckXIDToPublicID.lookup checkXID).map fun id =>
      (id, e.peerIndexes failedPeerIDs)

end ComponentEncoder

/-- The policies of both kinds, each id once; as they stand when no resource has policies. -/
def unionPolicies (policies : List Policy) (resourcePolicies : StrMap (List Policy)) :
    List Policy :=
  if resourcePolicies.entries.isEmpty then policies
  else (policies ++ resourcePolicies.entries.flatMap (·.2)).foldl
    (fun out p => if p.id ∈ out.map (·.id) then out else out ++ [p]) []

/-- The message for the components of a peer; for the empty components it has the peer only. -/
def encodeNetworkMapEnvelope (c : NetworkMapComponents) : Proto.NetworkMapComponentsFull :=
  if c.empty then { peers := ((c.peers.lookup c.peerID).map toPeerCompact).toList }
  else
    let enc := ComponentEncoder.build c
    { accountSettings := toAccountSettingsCompact c.accountSettings
      dnsSettings := enc.encodeDNSSettings c.dnsSettings
      customZoneDomain := c.customZoneDomain
      peers := enc.peers
      routerPeerIndexes := enc.peerIndexes (c.routerPeers.entries.map (·.2.id))
      policies := enc.encodePolicies (unionPolicies c.policies c.resourcePoliciesMap)
      groups := enc.encodeGroups
      routes := c.routes.map enc.encodeRoute
      nameserverGroups := c.nameServerGroups.map enc.encodeNameServerGroup
      allDnsRecords := c.allDNSRecords
      accountZones := c.accountZones
      networkResources := c.networkResources.map enc.encodeNetworkResource
      routersMap := enc.encodeRoutersMap c.routersMap
      resourcePoliciesMap := enc.encodeResourcePoliciesMap c.resourcePoliciesMap
      groupIdToUserIds := enc.encodeGroupIDToUserIDs c.groupIDToUserIDs
      allowedUserIds := c.allowedUserIDs
      postureFailedPeers := enc.encodePostureFailedPeers c.postureFailedPeers }

end Cloink
