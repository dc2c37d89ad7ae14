import Cloink.Lib.NetipParse
import Cloink.NetworkMap.FirewallRule
import Cloink.Wire.Compact

/-!
# Firewall rules on the wire

The messages with which the management service sends firewall rules, and the conversion of the rules
of a network map into them. Enumerations of messages are open: a number that no name stands for is
kept. The policy id is the text its bytes come from; the number of a custom protocol is left out.
-/

namespace Cloink

open Netip

namespace Proto

inductive RuleDirection where
  | IN
  | OUT
  | unknown (n : Int)
  deriving DecidableEq

inductive RuleAction where
  | ACCEPT
  | DROP
  | unknown (n : Int)
  deriving DecidableEq

inductive RuleProtocol where
  | UNKNOWN
  | ALL
  | TCP
  | UDP
  | ICMP
  | CUSTOM
  | NETBIRD_SSH
  | unknown (n : Int)
  deriving DecidableEq

structure PortRange where
  start : UInt32
  «end» : UInt32
  deriving DecidableEq

/-- What is set of the two alternatives of a `PortInfo`. -/
inductive PortSelection where
  | port (n : UInt32)
  | range (r : Option PortRange)
  deriving DecidableEq

structure PortInfo where
  portSelection : Option PortSelection := none
  deriving DecidableEq

namespace PortInfo

def getPort (pi : PortInfo) : UInt32 :=
  match pi.portSelection with
  | some (.port n) => n
  | _ => 0

def getRange (pi : PortInfo) : Option PortRange :=
  match pi.portSelection with
  | some (.range r) => r
  | _ => none

end PortInfo

structure FirewallRule where
  peerIP : String := ""
  direction : RuleDirection := .IN
  action : RuleAction := .ACCEPT
  protocol : RuleProtocol := .UNKNOWN
  port : String := ""
  portInfo : Option PortInfo := none
  policyID : String := ""
  customProtocol : UInt32 := 0
  sourcePrefixes : List (List UInt8) := []
  deriving DecidableEq

structure RouteFirewallRule where
  sourceRanges : List String := []
  action : RuleAction := .ACCEPT
  destination : String := ""
  protocol : RuleProtocol := .UNKNOWN
  portInfo : Option PortInfo := none
  isDynamic : Bool := false
  domains : List String := []
  customProtocol : UInt32 := 0
  policyID : String := ""
  routeID : String := ""
  deriving DecidableEq

end Proto

/-! ### Conversion -/

def getProtoDirection : Direction → Proto.RuleDirection
  | .OUT => .OUT
  | .IN => .IN

def getProtoAction (action : String) : Proto.RuleAction :=
  if action = policyTrafficActionDrop then .DROP else .ACCEPT

def getProtoProtocol (protocol : String) : Proto.RuleProtocol :=
  if protocol = policyRuleProtocolALL then .ALL
  else if protocol = policyRuleProtocolTCP then .TCP
  else if protocol = policyRuleProtocolUDP then .UDP
  else if protocol = policyRuleProtocolICMP then .ICMP
  else if protocol = policyRuleProtocolNetbirdSSH then .NETBIRD_SSH
  else .UNKNOWN

def RulePortRange.toProto (r : RulePortRange) : Proto.PortInfo :=
  ⟨some (.range (some ⟨r.startPort.toUInt32, r.endPort.toUInt32⟩))⟩

def shouldUsePortRange (rule : Proto.FirewallRule) : Bool :=
  rule.port = "" && (rule.protocol = .UDP || rule.protocol = .TCP)

/-- Sets the port range of a rule that has no single port. -/
def withPortRange (fwRule : Proto.FirewallRule) (rule : FirewallRule) : Proto.FirewallRule :=
  if shouldUsePortRange fwRule then { fwRule with portInfo := some rule.portRange.toProto }
  else fwRule

/-- The rule with its sources, and the rules to send in addition: one for all IPv6 sources when
the rule is for all peers. -/
def populateSourcePrefixes (fwRule : Proto.FirewallRule) (rule : FirewallRule) (includeIPv6 : Bool) :
    Proto.FirewallRule × List Proto.FirewallRule :=
  match parseAddr rule.peerIP with
  | none => (fwRule, [])
  | some addr =>
    if !addr.isUnspecified then
      ({ fwRule with sourcePrefixes := [(encodeAddr addr.unmap).getD []] }, [])
    else
      let v4Wildcard := (encodePrefix (prefixFrom Addr.ipv4Unspecified 0)).getD []
      let fwRule := { fwRule with sourcePrefixes := [v4Wildcard] }
      if !includeIPv6 then (fwRule, [])
      else
        let v6Wildcard := (encodePrefix (prefixFrom Addr.ipv6Unspecified 0)).getD []
        (fwRule,
          [withPortRange { fwRule with peerIP := "::", sourcePrefixes := [v6Wildcard] } rule])

/-- The messages for one rule, the additional ones first. -/
def toProtocolFirewallRule (includeIPv6 useSourcePrefixes : Bool) (rule : FirewallRule) :
    List Proto.FirewallRule :=
  let fwRule : Proto.FirewallRule :=
    { policyID := rule.policyID
      peerIP := rule.peerIP
      direction := getProtoDirection rule.direction
      action := getProtoAction rule.action
      protocol := getProtoProtocol rule.protocol
      port := rule.port }
  let (fwRule, more) := if useSourcePrefixes && rule.peerIP ≠ "" then
      populateSourcePrefixes fwRule rule includeIPv6 else (fwRule, [])
  more ++ [withPortRange fwRule rule]

def toProtocolFirewallRules (rules : List FirewallRule) (includeIPv6 useSourcePrefixes : Bool) :
    List Proto.FirewallRule :=
  rules.flatMap (toProtocolFirewallRule includeIPv6 useSourcePrefixes)

end Cloink
