import Cloink.Lib.Base64
import Cloink.NetworkMap.Components
import Cloink.Wire.Envelope

/-!
# Decoding of the components of a peer

`DecodeEnvelope` of the client. Peers are known by their WireGuard key, everything else by the
public id. The policies of a network resource are taken from the message and then looked for
again among the decoded policies; what is found replaces what was sent. The model of the messages
has no `nil` entries, so that the decoder cannot fail.
-/

namespace Cloink

open Netip

/-- The user id that stands for any user in decoded peers. -/
def envSSOUser : String := "<env-sso>"

/-- `AddrFrom4`, `AddrFrom16`; other lengths leave the zero value. -/
def addrFromBytes (b : List UInt8) : Addr := (Addr.ofSlice b).getD .invalid

def decodePeerCompact (pc : Proto.PeerCompact) (peerID : String) : Peer where
  id := peerID
  key := peerID
  sshKey := pc.sshPubKey
  sshEnabled := pc.sshEnabled
  dnsLabel := pc.dnsLabel
  loginExpirationEnabled := pc.loginExpirationEnabled
  proxyMeta := { embedded := pc.proxyEmbedded }
  sysMeta :=
    { wtVersion := pc.agentVersion
      capabilities := (if pc.supportsSourcePrefixes then [peerCapabilitySourcePrefixes] else []) ++
        if pc.supportsIpv6 then [peerCapabilityIPv6Overlay] else []
      flags := { serverSSHAllowed := pc.serverSshAllowed } }
  userID := if pc.addedWithSsoLogin then envSSOUser else ""
  lastLogin := if pc.lastLoginUnixNano ≠ 0 then some pc.lastLoginUnixNano else none
  ip := addrFromBytes pc.ip
  ipv6 := if pc.ipv6.length = 16 then addrFromBytes pc.ipv6 else .invalid

def decodeAccountSettings (s : Proto.AccountSettingsCompact) : AccountSettingsInfo where
  peerLoginExpirationEnabled := s.peerLoginExpirationEnabled
  peerLoginExpiration := s.peerLoginExpirationNs

/-! ### Policies -/

def uint32SliceToStrings (ports : List UInt32) : List String := ports.map fun p => p.toNat.repr

def portRangesFromProto (ranges : List Proto.PortRange) : List RulePortRange :=
  ranges.filterMap fun r =>
    if r.start > 65535 || r.end > 65535 then none else some ⟨r.start.toUInt16, r.end.toUInt16⟩

def actionFromProto (a : Proto.RuleAction) : String :=
  if a = .DROP then policyTrafficActionDrop else policyTrafficActionAccept

def protocolFromProto : Proto.RuleProtocol → String
  | .TCP => policyRuleProtocolTCP
  | .UDP => policyRuleProtocolUDP
  | .ICMP => policyRuleProtocolICMP
  | .ALL => policyRuleProtocolALL
  | .NETBIRD_SSH => policyRuleProtocolNetbirdSSH
  | _ => policyRuleProtocolALL

variable (peerIDByIndex : List String)

/-- A reference that cannot be resolved is the empty resource. -/
def resourceFromProto (r : Option Proto.ResourceCompact) : Resource :=
  match r with
  | none => {}
  | some r =>
    if !resourceTypeValid r.type then {}
    else if r.type = resourceTypePeer then
      if !r.peerIndexSet then {}
      else (peerIDByIndex[r.peerIndex]?).elim {} fun peerID => { type := r.type, id := peerID }
    else { type := r.type, id := r.id }

def decodePolicyRule (pc : Proto.PolicyCompact) (policyID : String) (peerIDByIndex : List String) :
    PolicyRule where
  id := policyID
  policyID := policyID
  enabled := true
  action := actionFromProto pc.action
  protocol := protocolFromProto pc.protocol
  bidirectional := pc.bidirectional
  ports := uint32SliceToStrings pc.ports
  portRanges := portRangesFromProto pc.portRanges
  sources := pc.sourceGroupIds
  destinations := pc.destinationGroupIds
  authorizedUser := pc.authorizedUser
  authorizedGroups := pc.authorizedGroups
  sourceResource := resourceFromProto peerIDByIndex pc.sourceResource
  destinationResource := resourceFromProto peerIDByIndex pc.destinationResource

/-- A policy with the one rule of the message. -/
def decodePolicyCompact (pc : Proto.PolicyCompact) (policyID : String)
    (peerIDByIndex : List String) : Policy where
  id := policyID
  publicID := pc.id
  enabled := true
  rules := [decodePolicyRule pc policyID peerIDByIndex]
  sourcePostureChecks := pc.sourcePostureCheckIds

/-! ### Groups, routes, resources and routers -/

def decodeGroup (gc : Proto.GroupCompact) : Group where
  id := ""
  name := if gc.isAll then groupAllName else ""
  publicID := gc.id
  peers := gc.peerIndexes.filterMap (peerIDByIndex[·]?)
  resources := (gc.resources.map fun r => resourceFromProto peerIDByIndex (some r)).filter (· ≠ {})

def decodeRouteRaw (rr : Proto.RouteRaw) : Route where
  id := rr.id
  publicID := rr.id
  netID := rr.netId
  description := rr.description
  domains := rr.domains
  keepRoute := rr.keepRoute
  networkType := rr.networkType
  masquerade := rr.masquerade
  metric := rr.metric
  enabled := rr.enabled
  groups := rr.groupIds
  accessControlGroups := rr.accessControlGroupIds
  peerGroups := rr.peerGroupIds
  skipAutoApply := rr.skipAutoApply
  network := if rr.networkCidr = "" then Prefix.zero
    else (parsePrefix rr.networkCidr).getD Prefix.zero
  peer := if rr.peerIndexSet then (peerIDByIndex[rr.peerIndex]?).getD "" else ""

def decodeNameServer (ns : Proto.NameServer) : Option NameServer :=
  (parseAddr ns.ip).map fun addr => { ip := addr, nsType := ns.nsType, port := ns.port }

def decodeNameServerGroupRaw (nsg : Proto.NameServerGroupRaw) : NameServerGroup where
  id := nsg.id
  publicID := nsg.id
  groups := nsg.groupIds
  primary := nsg.primary
  domains := nsg.domains
  enabled := nsg.enabled
  searchDomainsEnabled := nsg.searchDomainsEnabled
  nameServers := nsg.nameservers.filterMap decodeNameServer

def decodeNetworkResource (nr : Proto.NetworkResourceRaw) : NetworkResource where
  id := nr.id
  publicID := nr.id
  networkID := nr.networkSeq
  name := nr.name
  description := nr.description
  type := nr.type
  address := nr.address
  domain := nr.domainValue
  enabled := nr.enabled
  resPrefix := if nr.prefixCidr = "" then Prefix.zero
    else (parsePrefix nr.prefixCidr).getD Prefix.zero

def decodeRouter (entry : Proto.NetworkRouterEntry) : NetworkRouter where
  publicID := entry.id
  peerGroups := entry.peerGroupIds
  masquerade := entry.masquerade
  metric := entry.metric
  enabled := entry.enabled

/-- The routers of one network whose peer is known. -/
def decodeRouters (entries : List Proto.NetworkRouterEntry) : StrMap NetworkRouter :=
  entries.foldl (fun inner entry => if !entry.peerIndexSet then inner
    else (peerIDByIndex[entry.peerIndex]?).elim inner fun peerID =>
      inner.insert peerID (decodeRouter entry)) ∅

def decodeRoutersMap (m : StrMap (List Proto.NetworkRouterEntry)) : StrMap (StrMap NetworkRouter) :=
  m.remap fun networkID entries =>
    let inner := decodeRouters peerIDByIndex entries
    if inner.entries.isEmpty then none else some (networkID, inner)

/-! ### Policies of network resources -/

/-- The groups that have the resource, once for each time they list it. -/
def networkResourceGroups (resourceId : String) (groups : StrMap Group) : List String :=
  groups.entries.flatMap fun g =>
    (g.2.resources.filter (·.id = resourceId)).map fun _ => g.2.publicID

def policiesForNetworkResource (resourceId : String) (allPolicies : List Policy)
    (groups : StrMap Group) : List Policy :=
  allPolicies.filter fun p => p.enabled && match p.rules with
    | [] => false
    | rule :: _ =>
      rule.destinationResource.id = resourceId ||
        (networkResourceGroups resourceId groups).any rule.destinations.contains

/-- The policies the message names for each resource. -/
def decodeResourcePolicies (policyByID : StrMap Policy) (m : StrMap (List String)) :
    StrMap (List Policy) :=
  m.remap fun resourceID ids =>
    let policies := ids.filterMap policyByID.lookup
    if policies.isEmpty then none else some (resourceID, policies)

/-- What is found among the decoded policies replaces what the message says. -/
def rebuildResourcePolicies (resources : List NetworkResource) (allPolicies : List Policy)
    (groups : StrMap Group) (m : StrMap (List Policy)) : StrMap (List Policy) :=
  resources.foldl (fun m r =>
    let policies := policiesForNetworkResource r.id allPolicies groups
    if policies.isEmpty then m else m.insert r.id policies) m

def decodePostureFailedPeers (m : StrMap (List Nat)) : StrMap (List String) :=
  m.remap fun checkID indexes =>
    let failed := List.insertAll [] (indexes.filterMap (peerIDByIndex[·]?))
    if failed.isEmpty then none else some (checkID, failed)

/-! ### The envelope -/

/-- The key of a peer of the message, empty when it is malformed. -/
def wirePeerID (pc : Proto.PeerCompact) : String :=
  if pc.wgPubKey.length ≠ 32 then "" else Base64.encode pc.wgPubKey

/-- The peers with a well-formed key, under their key. -/
def decodePeers (peers : List Proto.PeerCompact) : StrMap Peer :=
  peers.foldl (fun m pc => if pc.wgPubKey.length ≠ 32 then m
    else m.insert (wirePeerID pc) (decodePeerCompact pc (wirePeerID pc))) ∅

/-- A router whose peer is not known is not represented. -/
def decodeRouterPeers (peers : StrMap Peer) (peerIDByIndex : List String) (indexes : List Nat) :
    StrMap Peer :=
  peers.insertFrom ∅ (indexes.filterMap (peerIDByIndex[·]?))

/-- The components of the message; the client sets the id of the receiving peer. -/
def decodeEnvelope (full : Proto.NetworkMapComponentsFull) : NetworkMapComponents :=
  let peerIDByIndex := full.peers.map wirePeerID
  let peers := decodePeers full.peers
  let groups := full.groups.foldl (fun m gc => m.insert gc.id (decodeGroup peerIDByIndex gc)) ∅
  let policies := full.policies.map fun pc => decodePolicyCompact pc pc.id peerIDByIndex
  let policyByID := policies.foldl (fun m p => m.insert p.publicID p) ∅
  let networkResources := full.networkResources.map decodeNetworkResource
  { peerID := ""
    accountSettings := decodeAccountSettings full.accountSettings
    dnsSettings := { disabledManagementGroups := full.dnsSettings.getD [] }
    customZoneDomain := full.customZoneDomain
    peers
    groups
    policies
    routes := full.routes.map (decodeRouteRaw peerIDByIndex)
    nameServerGroups := full.nameserverGroups.map decodeNameServerGroupRaw
    allDNSRecords := full.allDnsRecords
    accountZones := full.accountZones
    networkResources
    routersMap := decodeRoutersMap peerIDByIndex full.routersMap
    resourcePoliciesMap := rebuildResourcePolicies networkResources policies groups
      (decodeResourcePolicies policyByID full.resourcePoliciesMap)
    groupIDToUserIDs := full.groupIdToUserIds
    allowedUserIDs := List.insertAll [] full.allowedUserIds
    postureFailedPeers := decodePostureFailedPeers peerIDByIndex full.postureFailedPeers
    routerPeers := decodeRouterPeers peers peerIDByIndex full.routerPeerIndexes }

end Cloink
