import Cloink.ACL.Firewall
import Cloink.ACL.RuleSources
import Cloink.Lib.Unordered

/-!
# The ACL manager

The manager that brings the firewall of a client in line with its network map
(`client/internal/acl`). Peer rules with one selector are merged into one rule with many sources;
denies are installed first and all or none of them; rules that are no longer part of the map are
removed, and stay tracked when the backend refuses. The configuration hash of `hashstructure`
combines the hashes of the elements of a slice by exclusive or; these are taken to be free of
collisions, so that of every slice it keeps the elements that occur an odd number of times.
-/

namespace Cloink

open Netip Firewall

/-- The part of a network map that the ACL manager uses. -/
structure Proto.NetworkMap where
  firewallRules : List Proto.FirewallRule := []
  firewallRulesIsEmpty : Bool := false
  routesFirewallRules : List Proto.RouteFirewallRule := []
  routesFirewallRulesIsEmpty : Bool := false

/-! ### The hash of the configuration -/

/-- The hash of a field that is a slice; fields with the zero value are left out. -/
def xorHash {α : Type} [DecidableEq α] (l : List α) : Option (Finset α) :=
  if l.isEmpty then none else some l.xorSum

def bytesHash (s : String) : Option (Finset UInt8) := xorHash s.toUTF8.data.toList

structure PeerRuleHash where
  peerIP : String
  direction : Proto.RuleDirection
  action : Proto.RuleAction
  protocol : Proto.RuleProtocol
  port : String
  portInfo : Option Proto.PortInfo
  policyID : Option (Finset UInt8)
  customProtocol : UInt32
  sourcePrefixes : Option (Finset UInt8)
  deriving DecidableEq

variable (r : Proto.FirewallRule)

def peerRuleHash : PeerRuleHash where
  peerIP := r.peerIP
  direction := r.direction
  action := r.action
  protocol := r.protocol
  port := r.port
  portInfo := r.portInfo
  policyID := bytesHash r.policyID
  customProtocol := r.customProtocol
  -- the exclusive or of a slice is not hashed again, so that the slices within it run together
  sourcePrefixes := if r.sourcePrefixes.isEmpty then none else some r.sourcePrefixes.flatten.xorSum

structure RouteRuleHash where
  sourceRanges : Option (Finset String)
  action : Proto.RuleAction
  destination : String
  protocol : Proto.RuleProtocol
  portInfo : Option Proto.PortInfo
  isDynamic : Bool
  domains : Option (Finset String)
  customProtocol : UInt32
  policyID : Option (Finset UInt8)
  routeID : String
  deriving DecidableEq

def routeRuleHash (r : Proto.RouteFirewallRule) : RouteRuleHash where
  sourceRanges := xorHash r.sourceRanges
  action := r.action
  destination := r.destination
  protocol := r.protocol
  portInfo := r.portInfo
  isDynamic := r.isDynamic
  domains := xorHash r.domains
  customProtocol := r.customProtocol
  policyID := bytesHash r.policyID
  routeID := r.routeID

structure ConfigHash where
  peerRules : Option (Finset PeerRuleHash) := none
  peerRulesIsEmpty : Bool := false
  routeRules : Option (Finset RouteRuleHash) := none
  routeRulesIsEmpty : Bool := false
  dnsRouteFeatureFlag : Bool := false
  deriving DecidableEq

def firewallConfigHash (m : Proto.NetworkMap) (dnsRouteFeatureFlag : Bool) : ConfigHash where
  peerRules := xorHash (m.firewallRules.map peerRuleHash)
  peerRulesIsEmpty := m.firewallRulesIsEmpty
  routeRules := xorHash (m.routesFirewallRules.map routeRuleHash)
  routeRulesIsEmpty := m.routesFirewallRulesIsEmpty
  dnsRouteFeatureFlag := dnsRouteFeatureFlag

/-! ### Conversions -/

def convertToFirewallProtocol : Proto.RuleProtocol → Option Protocol
  | .TCP => some .TCP
  | .UDP => some .UDP
  | .ICMP => some .ICMP
  | .ALL => some .ALL
  | _ => none

def convertFirewallAction : Proto.RuleAction → Option Action
  | .ACCEPT => some .accept
  | .DROP => some .drop
  | .unknown _ => none

def portInfoEmpty (portInfo : Option Proto.PortInfo) : Bool :=
  match portInfo with
  | none => true
  | some pi =>
    match pi.portSelection with
    | some (.port n) => n = 0
    | some (.range (some r)) => r.start = 0 || r.end = 0
    | _ => true

def convertPortInfo (portInfo : Option Proto.PortInfo) : Option Port :=
  match portInfo with
  | none => none
  | some pi =>
    if pi.getPort ≠ 0 then some { values := [pi.getPort.toUInt16] }
    else pi.getRange.map fun r => { isRange := true, values := [r.start.toUInt16, r.end.toUInt16] }

def shouldSkipInvertedRule (protocol : Protocol) (port : Option Port) : Bool :=
  protocol = .ALL || protocol = .ICMP || port.isNone

/-- The default route of the family of a prefix. -/
def getDefault (p : Prefix) : Prefix :=
  if p.addr.is6 then prefixFrom Addr.ipv6Unspecified 0 else prefixFrom Addr.ipv4Unspecified 0

/-! ### Peer rules -/

/-- The selector of a peer rule: rules that have it in common are merged. -/
structure PeerRuleKey where
  v6 : Bool
  policyID : String
  direction : Proto.RuleDirection
  action : Proto.RuleAction
  protocol : Proto.RuleProtocol
  legacyPort : String
  port : UInt16
  rangeStart : UInt16
  rangeEnd : UInt16
  deriving DecidableEq

def ruleGroupKey (v6 : Bool) : PeerRuleKey where
  v6 := v6
  policyID := r.policyID
  direction := r.direction
  action := r.action
  protocol := r.protocol
  legacyPort := r.port
  port := (r.portInfo.elim 0 (·.getPort)).toUInt16
  rangeStart := ((r.portInfo.bind (·.getRange)).elim 0 (·.start)).toUInt16
  rangeEnd := ((r.portInfo.bind (·.getRange)).elim 0 (·.end)).toUInt16

structure PeerRuleGroup where
  direction : Proto.RuleDirection
  action : Proto.RuleAction
  protocol : Proto.RuleProtocol
  port : Option Proto.PortInfo
  legacyPort : String
  policyID : String
  sources : List Prefix
  deriving DecidableEq

/-- The group of a rule alone. -/
def ruleGroup (sources : List Prefix) : PeerRuleGroup where
  direction := r.direction
  action := r.action
  protocol := r.protocol
  port := r.portInfo
  legacyPort := r.port
  policyID := r.policyID
  sources := sources

def prefixIsV6 (p : Prefix) : Bool := p.addr.is6 && !p.addr.is4In6

/-- Adds the sources of a group to another one. -/
def mergeSources (g g' : PeerRuleGroup) : PeerRuleGroup :=
  { g with sources := g.sources ++ g'.sources }

/-- What one rule adds to the groups: its IPv4 and its IPv6 sources, as far as there are any. -/
def ruleFamilies (sources : List Prefix) : List (PeerRuleKey × PeerRuleGroup) :=
  [(false, sources.filter (!prefixIsV6 ·)), (true, sources.filter prefixIsV6)].filterMap fun sub =>
    if sub.2.isEmpty then none else some (ruleGroupKey r sub.1, ruleGroup r sub.2)

/-- The groups that one rule opens or adds to; none when its sources cannot be decoded. -/
def keyedGroups : List (PeerRuleKey × PeerRuleGroup) :=
  (extractRuleSources r).elim [] (ruleFamilies r)

/-- The groups of the rules whose sources can be decoded, in the order in which their selectors
come up, and the actions of the other rules. -/
def groupPeerRules (rules : List Proto.FirewallRule) : List PeerRuleGroup × List Proto.RuleAction :=
  ((List.mergeAll mergeSources (rules.flatMap keyedGroups)).map (·.2),
    (rules.filter fun r => (extractRuleSources r).isNone).map (·.action))

namespace PeerRuleGroup

variable (g : PeerRuleGroup)

/-- The port of the group; absent when the text of a legacy port is no port. -/
def resolveGroupPort : Option (Option Port) :=
  if !portInfoEmpty g.port then some (convertPortInfo g.port)
  else if g.legacyPort ≠ "" then
    (Strconv.parseUint 16 g.legacyPort).map fun value => some { values := [UInt16.ofNat value] }
  else some none

/-- What is asked of the backend for the group: an error, nothing, or a rule. Outgoing rules are
for backends that keep no state. -/
def request (stateful : Bool) : Option (Option Request) :=
  match convertToFirewallProtocol g.protocol, convertFirewallAction g.action,
    g.resolveGroupPort with
  | some protocol, some action, some port =>
    match g.direction with
    | .IN => some (some
        { mgmtID := g.policyID, sources := g.sources, proto := protocol, dPort := port, action })
    | .OUT =>
      if stateful || shouldSkipInvertedRule protocol port then some none
      else some (some
        { mgmtID := g.policyID, sources := g.sources, proto := protocol, sPort := port, action })
    | .unknown _ => none
  | _, _, _ => none

end PeerRuleGroup

/-- The rules to apply: all traffic is let in when an old management service sends none. -/
def effectivePeerRules (m : Proto.NetworkMap) : List Proto.FirewallRule :=
  if m.firewallRules.isEmpty && !m.firewallRulesIsEmpty then
    [{ peerIP := "0.0.0.0", direction := .IN, action := .ACCEPT, protocol := .ALL },
      { peerIP := "0.0.0.0", direction := .OUT, action := .ACCEPT, protocol := .ALL }]
  else m.firewallRules

/-! ### Route rules -/

/-- The destination of a route rule; absent when its text is no prefix. -/
def determineDestination (rule : Proto.RouteFirewallRule) (dynamicResolver : Bool)
    (sources : List Prefix) : Option Network :=
  if rule.isDynamic then
    if dynamicResolver && !rule.domains.isEmpty then
      some (.ofDomains (rule.domains.map fun d => String.ofList (d.toList.map Char.toLower)))
    else some (.ofPrefix (getDefault (sources.headD Prefix.zero)))
  else (parsePrefix rule.destination).map .ofPrefix

/-- What is asked of the backend for a route rule with sources; absent when the rule is
malformed. -/
def routeRequest (rule : Proto.RouteFirewallRule) (dynamicResolver : Bool) : Option Request := do
  let sources ← rule.sourceRanges.mapM fun s => (parsePrefix s).map unmapPrefix
  let destination ← determineDestination rule dynamicResolver sources
  let proto ← convertToFirewallProtocol rule.protocol
  let action ← convertFirewallAction rule.action
  return { mgmtID := rule.policyID, sources, destination, proto,
           dPort := convertPortInfo rule.portInfo, action }

/-! ### The manager -/

/-- What went wrong in a pass: rules whose sources could not be decoded or that could not be
installed, rules that could not be removed, or the final flush. -/
inductive PassError where
  | decode (action : Proto.RuleAction)
  | install (action : Proto.RuleAction)
  | delete (id : RuleID)
  | flush
  deriving DecidableEq

abbrev RulePairs := AList fun _ : RuleID => List Rule

structure DefaultManager where
  firewall : Backend := {}
  peerRulesPairs : RulePairs := ∅
  routeRules : RuleTable := ∅
  previousConfigHash : ConfigHash := {}
  hasAppliedConfig : Bool := false

/-- The backend keeps state, and the calls of it that fail. -/
structure FirewallEnv where
  stateful : Bool := true
  fails : Nat → Bool

namespace DefaultManager

variable (env : FirewallEnv) (d : DefaultManager)

def add (req : Request) : Option Rule × DefaultManager :=
  let (r, b) := d.firewall.addFilterRule env.fails req
  (r, { d with firewall := b })

/-- Asks the backend to remove rules, and returns those it refuses to. -/
def deleteRules (b : Backend) : List Rule → List Rule × Backend
  | [] => ([], b)
  | rule :: rules =>
    let (ok, b) := b.deleteFilterRule env.fails rule
    let (remaining, b) := deleteRules b rules
    (if ok then remaining else rule :: remaining, b)

/-- Removes the rules of a pair; those the backend keeps stay tracked. -/
def rollbackPair (pairID : RuleID) : DefaultManager :=
  let (remaining, b) := deleteRules env d.firewall ((d.peerRulesPairs.lookup pairID).getD [])
  { d with
    firewall := b
    peerRulesPairs := if remaining.isEmpty then d.peerRulesPairs.erase pairID
      else d.peerRulesPairs.insert pairID remaining }

/-- Removes the pairs that were new in this pass. -/
def rollbackInstalled (pairIDs : List RuleID) : DefaultManager :=
  pairIDs.foldl (rollbackPair env) d

/-- Installs the groups and records their rules. A failure undoes what was new when `atomic` is
set, and is skipped otherwise. -/
def installPeerGroups (atomic : Bool) : List PeerRuleGroup → List RuleID → DefaultManager →
    RulePairs → DefaultManager × RulePairs × List PassError
  | [], _, d, newRulePairs => (d, newRulePairs, [])
  | g :: groups, freshlyInstalled, d, newRulePairs =>
    -- a group that cannot be converted is not brought to the backend
    let failed (d : DefaultManager) : DefaultManager × RulePairs × List PassError :=
      if atomic then (d.rollbackInstalled env freshlyInstalled, newRulePairs, [.install g.action])
      else
        let (d, newRulePairs, errs) :=
          installPeerGroups atomic groups freshlyInstalled d newRulePairs
        (d, newRulePairs, .install g.action :: errs)
    match g.request env.stateful with
    | none => failed d
    | some none => installPeerGroups atomic groups freshlyInstalled d newRulePairs
    | some (some req) =>
      match d.add env req with
      | (none, d) => failed d
      | (some rule, d) =>
        installPeerGroups atomic groups
          (if rule.id ∈ d.peerRulesPairs then freshlyInstalled else freshlyInstalled ++ [rule.id])
          { d with peerRulesPairs := d.peerRulesPairs.insert rule.id [rule] }
          (newRulePairs.insert rule.id [rule])

/-- Removes the tracked rules that are not part of the map any more; those the backend keeps stay
tracked. -/
def teardownPeer (b : Backend) (newRulePairs : RulePairs) :
    List (Sigma fun _ : RuleID => List Rule) → Backend × RulePairs × List PassError
  | [] => (b, newRulePairs, [])
  | ⟨pairID, rules⟩ :: pairs =>
    if pairID ∈ newRulePairs then teardownPeer b newRulePairs pairs
    else
      let (remaining, b) := deleteRules env b rules
      let (b, newRulePairs, errs) := teardownPeer b
        (if remaining.isEmpty then newRulePairs else newRulePairs.insert pairID remaining) pairs
      (b, newRulePairs, remaining.map (fun rule => .delete rule.id) ++ errs)

variable (m : Proto.NetworkMap)

def applyPeerACLs : DefaultManager × List PassError :=
  let (groups, failed) := groupPeerRules (effectivePeerRules m)
  -- a deny that cannot be decoded ends the pass
  let denyErr := failed.filter (· = .DROP)
  if !denyErr.isEmpty then (d, denyErr.map .decode)
  else
    let denies := groups.filter (·.action = .DROP)
    let accepts := groups.filter (·.action ≠ .DROP)
    match installPeerGroups env true denies [] d ∅ with
    | (d, _, err :: errs) => (d, err :: errs)
    | (d, newRulePairs, []) =>
      let (d, newRulePairs, errs) := installPeerGroups env false accepts [] d newRulePairs
      let (b, newRulePairs, errs') :=
        teardownPeer env d.firewall newRulePairs d.peerRulesPairs.entries
      ({ d with firewall := b, peerRulesPairs := newRulePairs },
        failed.map .decode ++ errs ++ errs')

/-- Installs the route rules one by one; rules without sources are skipped. -/
def installRouteRules (dynamicResolver : Bool) : List Proto.RouteFirewallRule → Backend →
    RuleTable → Backend × RuleTable × List PassError
  | [], b, newRouteRules => (b, newRouteRules, [])
  | rule :: rules, b, newRouteRules =>
    let failed (b : Backend) : Backend × RuleTable × List PassError :=
      let (b, newRouteRules, errs) := installRouteRules dynamicResolver rules b newRouteRules
      (b, newRouteRules, .install rule.action :: errs)
    if rule.sourceRanges.isEmpty then installRouteRules dynamicResolver rules b newRouteRules
    else match routeRequest rule dynamicResolver with
      | none => failed b
      | some req =>
        match b.addFilterRule env.fails req with
        | (none, b) => failed b
        | (some added, b) =>
          installRouteRules dynamicResolver rules b (newRouteRules.insert added.id added)

/-- Removes the tracked route rules that are not part of the map any more. -/
def teardownRoute (b : Backend) (newRouteRules : RuleTable) :
    List (Sigma fun _ : RuleID => Rule) → Backend × RuleTable × List PassError
  | [] => (b, newRouteRules, [])
  | ⟨ruleID, rule⟩ :: rules =>
    if ruleID ∈ newRouteRules then teardownRoute b newRouteRules rules
    else
      match b.deleteFilterRule env.fails rule with
      | (true, b) => teardownRoute b newRouteRules rules
      | (false, b) =>
        let (b, newRouteRules, errs) := teardownRoute b (newRouteRules.insert ruleID rule) rules
        (b, newRouteRules, .delete ruleID :: errs)

def applyRouteACLs (rules : List Proto.RouteFirewallRule)
    (dynamicResolver : Bool) : DefaultManager × List PassError :=
  let (b, newRouteRules, errs) := installRouteRules env dynamicResolver rules d.firewall ∅
  let (b, newRouteRules, errs') := teardownRoute env b newRouteRules d.routeRules.entries
  ({ d with firewall := b, routeRules := newRouteRules }, errs ++ errs')

variable (dnsRouteFeatureFlag : Bool)

/-- The whole pass, without the test whether anything changed. -/
def applyPass : DefaultManager × List PassError :=
  let (d, peerErr) := d.applyPeerACLs env m
  let (d, routeErr) := d.applyRouteACLs env m.routesFirewallRules dnsRouteFeatureFlag
  let (ok, b) := d.firewall.flush env.fails
  ({ d with firewall := b }, peerErr ++ routeErr ++ if ok then [] else [.flush])

/-- The hash of the map is the one of the last map that was applied without a failure. -/
def unchanged : Bool :=
  d.hasAppliedConfig && d.previousConfigHash = firewallConfigHash m dnsRouteFeatureFlag

/-- Applies a network map, unless it is unchanged. The errors of a skipped map are none. -/
def applyFiltering : DefaultManager × List PassError :=
  if d.unchanged m dnsRouteFeatureFlag then (d, [])
  else
    let hash := firewallConfigHash m dnsRouteFeatureFlag
    let (d, errs) := d.applyPass env m dnsRouteFeatureFlag
    (if errs.isEmpty then { d with previousConfigHash := hash, hasAppliedConfig := true }
      else { d with hasAppliedConfig := false }, errs)

def run (l : List (Proto.NetworkMap × Bool)) : DefaultManager :=
  l.foldl (fun d m => (d.applyFiltering env m.1 m.2).1) d

end DefaultManager

end Cloink
