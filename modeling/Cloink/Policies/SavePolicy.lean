import Cloink.Lib.Strconv
import Cloink.NetworkMap.Data

/-!
# Policy rules from requests

The part of `savePolicy` of the HTTP interface that turns the rules of a request into policy
rules, with the texts of its errors. Names and descriptions are copied without being looked at
and are left out. The pointers of the request to ports, port ranges and authorized groups are
only tested for being non-empty; a `nil` pointer is the empty list here.
-/

namespace Cloink

structure PortRangeUpdate where
  startPort : Int
  endPort : Int
  deriving DecidableEq

namespace PortRangeUpdate

/-- Only the lower bound of the start and the upper bound of the end are looked at. -/
def valid (r : PortRangeUpdate) : Bool := 1 ≤ r.startPort && r.endPort ≤ 65535

/-- The range as it is stored, both ends converted to `uint16`. -/
def toRulePortRange (r : PortRangeUpdate) : RulePortRange :=
  ⟨UInt16.ofInt r.startPort, UInt16.ofInt r.endPort⟩

end PortRangeUpdate

structure PolicyRuleUpdate where
  id : Option String := none
  enabled : Bool := true
  action : String := policyTrafficActionAccept
  protocol : String := policyRuleProtocolALL
  bidirectional : Bool := false
  sources : Option (List String) := none
  destinations : Option (List String) := none
  sourceResource : Option Resource := none
  destinationResource : Option Resource := none
  ports : List String := []
  portRanges : List PortRangeUpdate := []
  authorizedGroups : StrMap (List String) := ∅

/-- Fails with the message unless the condition holds. -/
def ensure (cond : Bool) (message : String) : Except String Unit :=
  if cond then .ok () else .error message

theorem ensure_bind_eq_ok {α : Type} {cond : Bool} {message : String} {f : Unit → Except String α}
    {a : α} : (ensure cond message >>= f) = .ok a ↔ cond ∧ f () = .ok a := by
  cases cond with
  | false => exact ⟨fun h => (nomatch h), fun h => (nomatch h.1)⟩
  | true => exact ⟨fun h => ⟨rfl, h⟩, fun h => h.2⟩

/-- The text is a number in 1..65535 with an optional sign. -/
def validPort (v : String) : Bool :=
  match Strconv.atoi v with
  | some port => 1 ≤ port && port ≤ 65535
  | none => false

def portValueError : String := "valid port value is in 1..65535 range"

namespace PolicyRuleUpdate

variable (rule : PolicyRuleUpdate)

def knownAction : Bool :=
  rule.action = policyTrafficActionAccept || rule.action = policyTrafficActionDrop

def knownProtocol : Bool :=
  [policyRuleProtocolALL, policyRuleProtocolTCP, policyRuleProtocolUDP, policyRuleProtocolICMP,
    policyRuleProtocolNetbirdSSH].contains rule.protocol

/-- The rule names groups of users for SSH. -/
def namesAuthorizedGroups : Bool :=
  rule.protocol = policyRuleProtocolNetbirdSSH && !rule.authorizedGroups.entries.isEmpty

/-- The rule of the stored policy, or the message of the first check that fails. -/
def toPolicyRule (policyID : String) : Except String PolicyRule := do
  ensure (!(rule.sources.isSome && rule.sourceResource.isSome))
    "specify either sources or  source resources, not both"
  ensure (!(rule.destinations.isSome && rule.destinationResource.isSome))
    "specify either destinations or  destination resources, not both"
  ensure ((rule.sources.isSome || rule.sourceResource.isSome) &&
      (rule.destinations.isSome || rule.destinationResource.isSome))
    "specify either sources or source resources and destinations or destination resources"
  ensure rule.knownAction "unknown action type"
  ensure rule.knownProtocol ("unknown protocol type: " ++ rule.protocol)
  ensure (rule.ports.isEmpty || rule.portRanges.isEmpty)
    "specify either individual ports or port ranges, not both"
  ensure (rule.ports.all validPort) portValueError
  ensure (rule.portRanges.all PortRangeUpdate.valid) portValueError
  ensure (!rule.namesAuthorizedGroups ||
      (rule.sources.getD []).all fun id => decide (id ∈ rule.authorizedGroups))
    "authorized group for netbird-ssh protocol should be specified for each source group"
  ensure (!(rule.protocol = policyRuleProtocolALL || rule.protocol = policyRuleProtocolICMP) ||
      (rule.ports.isEmpty && rule.portRanges.isEmpty))
    "for ALL or ICMP protocol ports is not allowed"
  return {
    id := if policyID = "" then "" else rule.id.getD ""
    policyID
    enabled := rule.enabled
    action := rule.action
    protocol := rule.protocol
    bidirectional := rule.bidirectional
    sources := rule.sources.getD []
    destinations := rule.destinations.getD []
    sourceResource := rule.sourceResource.getD {}
    destinationResource := rule.destinationResource.getD {}
    ports := rule.ports
    portRanges := rule.portRanges.map PortRangeUpdate.toRulePortRange
    authorizedGroups := if rule.namesAuthorizedGroups then rule.authorizedGroups else ∅ }

/-- The ports of an accepted rule are those of the request, and passed their checks. -/
structure AcceptedPorts (r : PolicyRule) : Prop where
  ports : r.ports = rule.ports
  portRanges : r.portRanges = rule.portRanges.map PortRangeUpdate.toRulePortRange
  one_kind : rule.ports = [] ∨ rule.portRanges = []
  valid_ports : ∀ p ∈ rule.ports, validPort p
  valid_ranges : ∀ pr ∈ rule.portRanges, pr.valid

variable {rule}

theorem acceptedPorts_of_toPolicyRule {policyID : String} {r : PolicyRule}
    (h : rule.toPolicyRule policyID = .ok r) : rule.AcceptedPorts r := by
  unfold toPolicyRule at h
  simp only [ensure_bind_eq_ok] at h
  obtain ⟨-, -, -, -, -, hk, hp, hrn, -, -, hr⟩ := h
  obtain rfl := Except.ok.inj hr
  refine ⟨rfl, rfl, ?_, List.all_eq_true.1 hp, List.all_eq_true.1 hrn⟩
  simpa using hk

end PolicyRuleUpdate

end Cloink
