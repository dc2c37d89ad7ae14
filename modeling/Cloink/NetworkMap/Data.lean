import Cloink.Lib.FinMap
import Cloink.Lib.Fold
import Cloink.Lib.Netip

/-!
# The account data behind a network map

The slim twins of the account objects (`shared/management/networkmap/nmdata`) from which network
maps are calculated. Field types are the source's: the protocol and the action of a rule, and the
type of a resource, are plain strings there. A `nil` entry of a list or map of pointers is not
represented, and a `nil` slice is the empty list. `Env` collects what comes from outside the
repository: the clock, the version constraints of `go-version` and the conversions of `idna`.
-/

namespace Cloink

open Netip List

/-- Code outside the repository: the clock (nanoseconds since the Unix epoch), the check
`peerVer >= minVer` of `go-version` (false when one of them does not parse), and the conversions
of a domain name to and from its ASCII form (absent on error). -/
structure Env where
  now : Int
  versionAtLeast : String → String → Bool
  toUnicode : String → Option String
  toASCII : String → Option String

/-- An environment in which every version is recent and every domain converts to itself. -/
def Env.plain : Env where
  now := 0
  versionAtLeast _ _ := true
  toUnicode := some
  toASCII := some

/-- The part of `s` in front of the first `sep`, or all of it. -/
def cutAt (sep : Char) (s : String) : String := String.ofList (s.toList.takeWhile (· ≠ sep))

def sanitizeVersion (v : String) : String := cutAt '-' v

def meetsMinVersion (env : Env) (minVer peerVer : String) : Bool :=
  env.versionAtLeast (sanitizeVersion minVer) (sanitizeVersion peerVer)

def isDevelopmentVersion (v : String) : Bool :=
  "development".toList.isPrefixOf v.toList || "ci-".toList.isPrefixOf v.toList ||
    "dev-".toList.isPrefixOf v.toList

/-! ### Peers -/

structure Flags where
  serverSSHAllowed : Bool := false
  disableIPv6 : Bool := false
  deriving DecidableEq

structure File where
  path : String
  processIsRunning : Bool
  deriving DecidableEq

structure PeerSystemMeta where
  wtVersion : String := ""
  goOS : String := ""
  osVersion : String := ""
  kernelVersion : String := ""
  networkAddresses : List Prefix := []
  files : List File := []
  capabilities : List Int := []
  flags : Flags := {}
  deriving DecidableEq

structure PeerLocation where
  countryCode : String := ""
  cityName : String := ""
  connectionIP : List UInt8 := []
  deriving DecidableEq

structure ProxyMeta where
  embedded : Bool := false
  cluster : String := ""
  deriving DecidableEq

structure Peer where
  id : String
  key : String
  sshKey : String := ""
  dnsLabel : String := ""
  userID : String := ""
  sshEnabled : Bool := false
  loginExpirationEnabled : Bool := false
  lastLogin : Option Int := none
  ip : Addr
  ipv6 : Addr := .invalid
  sysMeta : PeerSystemMeta := {}
  proxyMeta : ProxyMeta := {}
  location : PeerLocation := {}
  deriving DecidableEq

def peerCapabilitySourcePrefixes : Int := 1
def peerCapabilityIPv6Overlay : Int := 2

namespace Peer

def hasCapability (p : Peer) (capability : Int) : Bool := p.sysMeta.capabilities.contains capability

def supportsIPv6 (p : Peer) : Bool :=
  !p.sysMeta.flags.disableIPv6 && p.hasCapability peerCapabilityIPv6Overlay

def supportsSourcePrefixes (p : Peer) : Bool := p.hasCapability peerCapabilitySourcePrefixes

def addedWithSSOLogin (p : Peer) : Bool := p.userID ≠ ""

/-- The zero `time.Time`, the first of January of the year one. -/
def zeroTime : Int := -62135596800 * 1000000000

def getLastLogin (p : Peer) : Int := p.lastLogin.getD zeroTime

/-- Whether the login of the peer has expired, counting from its last login. -/
def loginExpired (env : Env) (p : Peer) (expiresIn : Int) : Bool :=
  if !p.addedWithSSOLogin || !p.loginExpirationEnabled then false
  else p.getLastLogin + expiresIn - env.now ≤ 0

end Peer

structure AccountSettingsInfo where
  peerLoginExpirationEnabled : Bool := false
  peerLoginExpiration : Int := 0
  deriving DecidableEq

/-! ### Groups and policies -/

def groupAllName : String := "All"

structure Resource where
  id : String := ""
  type : String := ""
  deriving DecidableEq

def resourceTypePeer : String := "peer"
def resourceTypeDomain : String := "domain"
def resourceTypeHost : String := "host"
def resourceTypeSubnet : String := "subnet"

def resourceTypeValid (t : String) : Bool :=
  t = resourceTypePeer || t = resourceTypeDomain || t = resourceTypeHost || t = resourceTypeSubnet

/-- The resource names a peer: the sides of a rule with such a resource do not look at groups. -/
def Resource.isPeer (r : Resource) : Bool := r.type = resourceTypePeer && r.id ≠ ""

structure Group where
  id : String
  name : String := ""
  publicID : String := ""
  peers : List String
  resources : List Resource := []
  deriving DecidableEq

def Group.isGroupAll (g : Group) : Bool := g.name = groupAllName

structure RulePortRange where
  startPort : UInt16 := 0
  endPort : UInt16 := 0
  deriving DecidableEq

def policyRuleProtocolALL : String := "all"
def policyRuleProtocolTCP : String := "tcp"
def policyRuleProtocolUDP : String := "udp"
def policyRuleProtocolICMP : String := "icmp"
def policyRuleProtocolNetbirdSSH : String := "netbird-ssh"
def policyTrafficActionAccept : String := "accept"
def policyTrafficActionDrop : String := "drop"

structure PolicyRule where
  id : String
  policyID : String := ""
  enabled : Bool := true
  action : String := policyTrafficActionAccept
  protocol : String := policyRuleProtocolALL
  bidirectional : Bool := false
  sources : List String := []
  destinations : List String := []
  sourceResource : Resource := {}
  destinationResource : Resource := {}
  ports : List String := []
  portRanges : List RulePortRange := []
  authorizedGroups : StrMap (List String) := ∅
  authorizedUser : String := ""

structure Policy where
  id : String
  publicID : String := ""
  enabled : Bool := true
  sourcePostureChecks : List String := []
  rules : List PolicyRule

/-- The source groups of all rules of the policy, each once; those of the only rule as they
stand. -/
def Policy.sourceGroups (p : Policy) : List String :=
  match p.rules with
  | [r] => r.sources
  | rules => rules.foldl (fun groups r => groups.insertAll r.sources) []

def portRangeIncludesSSH (portRanges : List RulePortRange) : Bool :=
  portRanges.any fun pr =>
    (pr.startPort ≤ 22 && 22 ≤ pr.endPort) || (pr.startPort ≤ 22022 && 22022 ≤ pr.endPort)

def portsIncludesSSH (ports : List String) : Bool :=
  ports.any fun port => port = "22" || port = "22022"

def policyRuleImpliesLegacySSH (rule : PolicyRule) : Bool :=
  rule.protocol = policyRuleProtocolALL || (rule.protocol = policyRuleProtocolTCP &&
      (portsIncludesSSH rule.ports || portRangeIncludesSSH rule.portRanges))

theorem Policy.mem_sourceGroups {p : Policy} {g : String} :
    g ∈ p.sourceGroups ↔ ∃ r ∈ p.rules, g ∈ r.sources := by
  unfold sourceGroups
  split
  · rename_i r hr
    simp [hr]
  · refine (foldl_iff_exists (p := (g ∈ ·)) (fun _ _ => ?_) _ []).trans (or_iff_right not_mem_nil)
    exact mem_insertAll

/-! ### Routes, network resources and routers -/

def networkTypeInvalid : Int := 0
def networkTypeIPv4 : Int := 1
def networkTypeIPv6 : Int := 2
def networkTypeDomain : Int := 3

structure Route where
  id : String
  accountID : String := ""
  publicID : String := ""
  network : Prefix := Prefix.zero
  domains : List String := []
  keepRoute : Bool := false
  netID : String := ""
  description : String := ""
  peer : String := ""
  peerID : String := ""
  peerGroups : List String := []
  networkType : Int := networkTypeInvalid
  masquerade : Bool := false
  metric : Int := 0
  enabled : Bool := true
  groups : List String := []
  accessControlGroups : List String := []
  skipAutoApply : Bool := false
  deriving DecidableEq

/-- `List.SafeString` of a list of domains: their Unicode forms, or the ASCII forms when one of
them does not convert, separated by commas. -/
def domainsSafeString (env : Env) (domains : List String) : String :=
  ", ".intercalate ((domains.mapM env.toUnicode).getD domains)

namespace Route

def isDynamic (r : Route) : Bool := r.networkType = networkTypeDomain

def netString (env : Env) (r : Route) : String :=
  if r.isDynamic && !r.domains.isEmpty then domainsSafeString env r.domains else r.network.string

def getHAUniqueID (env : Env) (r : Route) : String := r.netID ++ "|" ++ r.netString env

def getResourceID (r : Route) : String := cutAt ':' r.id

end Route

structure NetworkResource where
  id : String
  networkID : String
  accountID : String := ""
  publicID : String := ""
  name : String := ""
  description : String := ""
  type : String := ""
  address : String := ""
  domain : String := ""
  resPrefix : Prefix := Prefix.zero
  enabled : Bool := true
  deriving DecidableEq

structure NetworkRouter where
  publicID : String := ""
  peerGroups : List String := []
  masquerade : Bool := false
  metric : Int := 0
  enabled : Bool := true
  deriving DecidableEq

/-! ### DNS -/

structure NameServer where
  ip : Addr
  nsType : Int := 0
  port : Int := 0
  deriving DecidableEq

structure NameServerGroup where
  id : String
  publicID : String := ""
  name : String := ""
  description : String := ""
  nameServers : List NameServer := []
  groups : List String := []
  primary : Bool := false
  domains : List String := []
  enabled : Bool := true
  searchDomainsEnabled : Bool := false
  deriving DecidableEq

structure SimpleRecord where
  name : String
  type : Int := 1
  recordClass : String := "IN"
  ttl : Int := 0
  rData : String
  deriving DecidableEq

structure CustomZone where
  domain : String := ""
  records : List SimpleRecord := []
  searchDomainDisabled : Bool := false
  nonAuthoritative : Bool := false
  deriving DecidableEq

structure DNSSettings where
  disabledManagementGroups : List String := []
  deriving DecidableEq

end Cloink
