import Cloink.Lib.Strconv
import Cloink.NetworkMap.Data

/-!
# Firewall rules of a peer and of its routes

How one policy rule becomes firewall rules (`shared/management/types`): `FirewallRule` lets one peer
of the other side in or out, with the ports and port ranges expanded as the client's version allows,
and `RouteFirewallRule` lets a list of source ranges reach a routed network. Repeated rules are
dropped by comparing identifiers that are concatenations of strings.
-/

namespace Cloink

/-- The direction of the traffic, seen from the target peer. -/
inductive Direction where
  | IN
  | OUT
  deriving DecidableEq

/-- The decimal form of the direction, as it enters the identifiers of rules. -/
def Direction.string : Direction → String
  | IN => "0"
  | OUT => "1"

structure FirewallRule where
  policyID : String
  peerIP : String
  direction : Direction
  action : String
  protocol : String
  port : String := ""
  portRange : RulePortRange := {}
  deriving DecidableEq

structure SupportedFeatures where
  nativeSSH : Bool
  portRanges : Bool
  deriving DecidableEq

def firewallRuleMinPortRangesVer : String := "0.48.0"
def firewallRuleMinNativeSSHVer : String := "0.60.0"

def peerSupportedFirewallFeatures (env : Env) (peerVer : String) : SupportedFeatures :=
  if isDevelopmentVersion peerVer then ⟨true, true⟩
  else
    let nativeSSH := meetsMinVersion env firewallRuleMinNativeSSHVer peerVer
    ⟨nativeSSH, nativeSSH || meetsMinVersion env firewallRuleMinPortRangesVer peerVer⟩

def isPortInRule (portString : String) (portInt : UInt16) (rule : FirewallRule) : Bool :=
  rule.port = portString || (rule.portRange.startPort ≤ portInt && portInt ≤ rule.portRange.endPort)

/-- Adds the port of the native SSH server when the expanded rules admit port 22 only. -/
def addNativeSSHRule (base : FirewallRule) (expanded : List FirewallRule) : List FirewallRule :=
  if expanded.any (isPortInRule "22022" 22022) then expanded
  else if expanded.any (isPortInRule "22" 22) then expanded ++ [{ base with port := "22022" }]
  else expanded

def shouldCheckRulesForNativeSSH (supportsNative : Bool) (rule : PolicyRule) (peer : Peer) : Bool :=
  supportsNative && peer.sshEnabled && peer.sysMeta.flags.serverSSHAllowed &&
    rule.protocol = policyRuleProtocolTCP

/-- The rule for one port range: a range where the client knows them, else a single port when the
range has only one. -/
def expandPortRange (portRanges : Bool) (base : FirewallRule) (pr : RulePortRange) :
    Option FirewallRule :=
  if portRanges then some { base with portRange := pr }
  else if pr.startPort ≠ pr.endPort then none
  else some { base with port := pr.startPort.toNat.repr }

/-- One firewall rule for each port of the rule, or for each of its port ranges when it lists no
ports. -/
def expandPortsAndRanges (env : Env) (base : FirewallRule) (rule : PolicyRule) (peer : Peer) :
    List FirewallRule :=
  let features := peerSupportedFirewallFeatures env peer.sysMeta.wtVersion
  let expanded :=
    if rule.ports.isEmpty then
      rule.portRanges.filterMap (expandPortRange features.portRanges base)
    else rule.ports.map fun port => { base with port }
  if shouldCheckRulesForNativeSSH features.nativeSSH rule peer ||
      rule.protocol = policyRuleProtocolNetbirdSSH then
    addNativeSSHRule base expanded
  else expanded

/-- The firewall rules for one address of a peer: the base rule as it stands when the policy rule
names no ports. -/
def rulesForAddress (env : Env) (base : FirewallRule) (rule : PolicyRule) (targetPeer : Peer) :
    List FirewallRule :=
  if rule.ports.isEmpty && rule.portRanges.isEmpty then [base]
  else expandPortsAndRanges env base rule targetPeer

variable (rule : PolicyRule)

/-- The protocol of the firewall rules of a policy rule: SSH is TCP on the wire. -/
def ruleProtocol : String :=
  if rule.protocol = policyRuleProtocolNetbirdSSH then policyRuleProtocolTCP else rule.protocol

/-- The firewall rule for an address, before the ports are expanded. -/
def baseRule (ip : String) (direction : Direction) : FirewallRule where
  policyID := rule.id
  peerIP := ip
  direction := direction
  action := rule.action
  protocol := ruleProtocol rule

/-- The identifier under which the rules for one address are kept apart. -/
def ruleKey (ip : String) (direction : Direction) : String :=
  rule.id ++ ip ++ direction.string ++ ruleProtocol rule ++ rule.action ++ ",".intercalate rule.ports

/-! ### Routes -/

structure RouteFirewallRule where
  policyID : String := ""
  routeID : String
  sourceRanges : List String
  action : String
  destination : String
  protocol : String
  port : UInt16 := 0
  portRange : RulePortRange := {}
  domains : List String := []
  isDynamic : Bool := false
  deriving DecidableEq

/-- The sources `address/32` and, for peers with an IPv6 address, `address/128`. -/
def splitPeerSourcesByFamily (groupPeers : List Peer) : List String × List String :=
  (groupPeers.map fun peer => peer.ip.string ++ "/32",
    (groupPeers.filter (·.ipv6.isValid)).map fun peer => peer.ipv6.string ++ "/128")

variable (base : RouteFirewallRule)

def generateRuleIDBase : String :=
  rule.id ++ ",".intercalate base.sourceRanges ++ Direction.IN.string ++ base.protocol ++ base.action

/-- The rules generated so far and the identifiers they use. -/
structure RouteRulesState where
  rules : List RouteFirewallRule := []
  rulesExists : List String := []

/-- Adds the rule unless its identifier is used; a rule that could not be made still uses up
its identifier. -/
def RouteRulesState.add (st : RouteRulesState) (ruleID : String)
    (rule : Option RouteFirewallRule) : RouteRulesState :=
  if ruleID ∈ st.rulesExists then st
  else ⟨st.rules ++ rule.toList, ruleID :: st.rulesExists⟩

def generateRulesWithPortRanges (rule : PolicyRule) (st : RouteRulesState) : RouteRulesState :=
  let ruleIDBase := generateRuleIDBase rule base
  if rule.portRanges.isEmpty then st.add ruleIDBase (some base)
  else rule.portRanges.foldl (fun st pr =>
    st.add (ruleIDBase ++ pr.startPort.toNat.repr ++ "-" ++ pr.endPort.toNat.repr)
      (some { base with portRange := pr })) st

def generateRulesWithPorts (rule : PolicyRule) (st : RouteRulesState) : RouteRulesState :=
  let ruleIDBase := generateRuleIDBase rule base
  rule.ports.foldl (fun st port => st.add (ruleIDBase ++ port)
      ((Strconv.parseUint 16 port).map fun p => { base with port := UInt16.ofNat p })) st

/-- The rules for one family of sources. -/
def generateRulesForSources (rule : PolicyRule) (st : RouteRulesState) : RouteRulesState :=
  if rule.ports.isEmpty then generateRulesWithPortRanges base rule st
  else generateRulesWithPorts base rule st

def generateRouteFirewallRules (route : Route) (rule : PolicyRule) (groupPeers : List Peer)
    (includeIPv6 : Bool) : List RouteFirewallRule :=
  let (v4Sources, v6Sources) := splitPeerSourcesByFamily groupPeers
  let isV6Route := route.network.addr.is6
  if isV6Route && !includeIPv6 then []
  else
    let base : RouteFirewallRule :=
      { policyID := rule.policyID
        routeID := route.id
        sourceRanges := if isV6Route then v6Sources else v4Sources
        action := rule.action
        destination := route.network.string
        protocol := rule.protocol
        domains := route.domains
        isDynamic := route.isDynamic }
    let st := generateRulesForSources base rule {}
    let isDefaultV4 := !isV6Route && route.network.bits = some 0
    -- the IPv6 counterpart of a domain route and of the default IPv4 route
    if includeIPv6 && (route.isDynamic || isDefaultV4) && !v6Sources.isEmpty then
      let v6Rule := { base with sourceRanges := v6Sources }
      let v6Rule := if isDefaultV4 then
        { v6Rule with destination := "::/0", routeID := route.id ++ "-v6-default" } else v6Rule
      (generateRulesForSources v6Rule rule st).rules
    else st.rules

end Cloink
