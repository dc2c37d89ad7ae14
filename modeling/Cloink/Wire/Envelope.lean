import Cloink.Wire.FirewallRules

/-!
# The components envelope

The messages in which the components of a peer travel (`NetworkMapComponentsFull` and its parts).
Peers are referred to by their index in the list of peers, everything else by a public id. What
the calculation of a network map does not look at (the account's network, the configuration of
the peer, the proxy patch) is left out. An index is a natural number: a snapshot has fewer than
`2 ^ 32` peers.
-/

namespace Cloink

namespace Proto

structure PeerCompact where
  wgPubKey : List UInt8 := []
  ip : List UInt8 := []
  ipv6 : List UInt8 := []
  sshPubKey : String := ""
  dnsLabel : String := ""
  agentVersion : String := ""
  addedWithSsoLogin : Bool := false
  loginExpirationEnabled : Bool := false
  lastLoginUnixNano : Int := 0
  sshEnabled : Bool := false
  supportsIpv6 : Bool := false
  supportsSourcePrefixes : Bool := false
  serverSshAllowed : Bool := false
  proxyEmbedded : Bool := false
  deriving DecidableEq

structure AccountSettingsCompact where
  peerLoginExpirationEnabled : Bool := false
  peerLoginExpirationNs : Int := 0

/-- A reference to a peer, by index, or to a network resource, by public id. -/
structure ResourceCompact where
  type : String := ""
  peerIndexSet : Bool := false
  peerIndex : Nat := 0
  id : String := ""
  deriving DecidableEq

structure GroupCompact where
  id : String := ""
  peerIndexes : List Nat := []
  isAll : Bool := false
  resources : List ResourceCompact := []

/-- One rule of a policy. -/
structure PolicyCompact where
  id : String := ""
  action : RuleAction := .ACCEPT
  protocol : RuleProtocol := .UNKNOWN
  bidirectional : Bool := false
  ports : List UInt32 := []
  portRanges : List PortRange := []
  sourceGroupIds : List String := []
  destinationGroupIds : List String := []
  authorizedUser : String := ""
  authorizedGroups : StrMap (List String) := ∅
  sourceResource : Option ResourceCompact := none
  destinationResource : Option ResourceCompact := none
  sourcePostureCheckIds : List String := []

structure RouteRaw where
  id : String := ""
  netId : String := ""
  description : String := ""
  networkCidr : String := ""
  domains : List String := []
  keepRoute : Bool := false
  networkType : Int := 0
  masquerade : Bool := false
  metric : Int := 0
  enabled : Bool := false
  skipAutoApply : Bool := false
  peerIndexSet : Bool := false
  peerIndex : Nat := 0
  groupIds : List String := []
  accessControlGroupIds : List String := []
  peerGroupIds : List String := []

structure NameServer where
  ip : String := ""
  nsType : Int := 0
  port : Int := 0

structure NameServerGroupRaw where
  id : String := ""
  nameservers : List NameServer := []
  groupIds : List String := []
  primary : Bool := false
  domains : List String := []
  enabled : Bool := false
  searchDomainsEnabled : Bool := false

structure NetworkResourceRaw where
  id : String := ""
  networkSeq : String := ""
  name : String := ""
  description : String := ""
  type : String := ""
  address : String := ""
  domainValue : String := ""
  prefixCidr : String := ""
  enabled : Bool := false

structure NetworkRouterEntry where
  id : String := ""
  peerIndexSet : Bool := false
  peerIndex : Nat := 0
  peerGroupIds : List String := []
  masquerade : Bool := false
  metric : Int := 0
  enabled : Bool := false

/-- The records and zones of the DNS configuration are sent as they are. -/
structure NetworkMapComponentsFull where
  accountSettings : AccountSettingsCompact := {}
  dnsSettings : Option (List String) := none
  customZoneDomain : String := ""
  peers : List PeerCompact := []
  routerPeerIndexes : List Nat := []
  policies : List PolicyCompact := []
  groups : List GroupCompact := []
  routes : List RouteRaw := []
  nameserverGroups : List NameServerGroupRaw := []
  allDnsRecords : List SimpleRecord := []
  accountZones : List CustomZone := []
  networkResources : List NetworkResourceRaw := []
  routersMap : StrMap (List NetworkRouterEntry) := ∅
  resourcePoliciesMap : StrMap (List String) := ∅
  groupIdToUserIds : StrMap (List String) := ∅
  allowedUserIds : List String := []
  postureFailedPeers : StrMap (List Nat) := ∅

end Proto

end Cloink
