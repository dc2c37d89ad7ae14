import Cloink.NetworkMap.Components
import Cloink.NetworkMap.Posture

/-!
# The account as the network maps see it

`NetworkMapData` is the slim twin of an account. Before the first map is computed from it, the
policies that carry reverse-proxy traffic are added (`injectProxyPolicies`), at most once; the
model keeps the data with and without them apart. The results of posture checks may have been
computed ahead (`precomputePostureValidation`).
-/

namespace Cloink

structure ServiceTarget where
  enabled : Bool := true
  path : String := ""
  port : UInt16 := 0
  protocol : String := ""
  targetID : String := ""
  targetType : String := ""
  deriving DecidableEq

structure Service where
  id : String
  enabled : Bool := true
  isPrivate : Bool := false
  mode : String := ""
  proxyCluster : String := ""
  accessGroups : List String := []
  targets : List ServiceTarget := []
  deriving DecidableEq

/-- A DNS zone and the groups it is distributed to. -/
structure AppliedZoneCandidate where
  distributionGroups : List String
  zone : CustomZone
  deriving DecidableEq

/-- The records of a private service and the groups that may use it. -/
structure PrivateServiceCandidate where
  accessGroups : List String
  zone : CustomZone
  deriving DecidableEq

/-- The account data. Under `postureValidation` a check without results is one that does not
exist. -/
structure NetworkMapData where
  peers : StrMap Peer := ∅
  groups : StrMap Group := ∅
  policies : List Policy := []
  routes : List Route := []
  nameServerGroups : List NameServerGroup := []
  networkResources : List NetworkResource := []
  dnsSettings : DNSSettings := {}
  accountSettings : AccountSettingsInfo := {}
  postureChecks : StrMap PostureChecks := ∅
  postureValidation : StrMap (Option (StrMap Bool)) := ∅
  allowedUserIDs : List String := []
  networkXIDToPublicID : StrMap String := ∅
  postureCheckXIDToPublicID : StrMap String := ∅
  validatedPeers : List String := []
  resourcePolicies : StrMap (List Policy) := ∅
  routers : StrMap (StrMap NetworkRouter) := ∅
  groupIDToUserIDs : StrMap (List String) := ∅
  proxyTargetedDomainResourceIDs : List String := []
  appliedZoneCandidates : List AppliedZoneCandidate := []
  privateServiceCandidates : List PrivateServiceCandidate := []
  services : List Service := []

/-! ### Reverse-proxy policies -/

def serviceModeUDP : String := "udp"
def privateServicePortHTTP : UInt16 := 80
def privateServicePortHTTPS : UInt16 := 443

def resolveTargetPort (target : ServiceTarget) : Option UInt16 :=
  if target.port ≠ 0 then some target.port
  else match target.protocol with
    | "https" | "tls" => some privateServicePortHTTPS
    | "http" => some privateServicePortHTTP
    | _ => none

/-- Lets a proxy peer reach one target of a service. -/
def proxyAccessPolicy (svc : Service) (target : ServiceTarget) (proxyPeer : Peer) (port : UInt16) :
    Policy :=
  let policyID := "proxy-access-" ++ svc.id ++ "-" ++ proxyPeer.id ++ "-" ++ target.path
  { id := policyID
    publicID := policyID
    enabled := true
    rules := [{
      id := policyID
      policyID := policyID
      enabled := true
      sourceResource := ⟨proxyPeer.id, resourceTypePeer⟩
      destinationResource := ⟨target.targetID, target.targetType⟩
      bidirectional := false
      protocol := if svc.mode = serviceModeUDP then policyRuleProtocolUDP else policyRuleProtocolTCP
      action := policyTrafficActionAccept
      portRanges := [⟨port, port⟩] }] }

/-- Lets the access groups of a private service reach a proxy peer over HTTP. -/
def privateAccessPolicy (svc : Service) (proxyPeer : Peer) (accessGroups : List String) : Policy :=
  let policyID := "private-access-" ++ svc.id ++ "-" ++ proxyPeer.id
  { id := policyID
    publicID := policyID
    enabled := true
    rules := [{
      id := policyID
      policyID := policyID
      enabled := true
      sources := accessGroups
      destinationResource := ⟨proxyPeer.id, resourceTypePeer⟩
      bidirectional := false
      protocol := policyRuleProtocolTCP
      action := policyTrafficActionAccept
      portRanges := [⟨privateServicePortHTTP, privateServicePortHTTP⟩,
        ⟨privateServicePortHTTPS, privateServicePortHTTPS⟩] }] }

namespace NetworkMapData

variable (nmd : NetworkMapData)

/-- The embedded proxy peers of a cluster, sorted by their ids. -/
def proxyPeersByCluster (cluster : String) : List Peer :=
  ((nmd.peers.entries.map (·.2)).filter fun peer =>
    peer.proxyMeta.embedded && peer.proxyMeta.cluster = cluster).mergeSort
      fun a b => decide (a.id ≤ b.id)

def existingGroupIDs (groupIDs : List String) : List String :=
  groupIDs.filter fun groupID => decide (groupID ∈ nmd.groups)

/-- The policies of one enabled service: for each target, then for its access groups. -/
def servicePolicies (svc : Service) : List Policy :=
  let proxyPeers := nmd.proxyPeersByCluster svc.proxyCluster
  let sources := nmd.existingGroupIDs svc.accessGroups
  (svc.targets.filter (·.enabled)).flatMap (fun target => match resolveTargetPort target with
    | none => []
    | some port => proxyPeers.map fun proxyPeer => proxyAccessPolicy svc target proxyPeer port) ++
  if svc.isPrivate && !sources.isEmpty then
    proxyPeers.map fun proxyPeer => privateAccessPolicy svc proxyPeer sources
  else []

/-- The resource an injected policy is listed under: an enabled one that its first rule has as
destination. -/
def injectedResource (policy : Policy) : Option String :=
  match policy.rules with
  | [] => none
  | rule :: _ =>
    let resourceID := rule.destinationResource.id
    if resourceID ≠ "" && nmd.networkResources.any fun r => r.enabled && r.id = resourceID then
      some resourceID
    else none

/-- Appends the policy to the policies, and to those of the resource it targets. -/
def addInjectedPolicy (nmd : NetworkMapData) (policy : Policy) : NetworkMapData :=
  { nmd with
    policies := nmd.policies ++ [policy]
    resourcePolicies := match nmd.injectedResource policy with
      | none => nmd.resourcePolicies
      | some id => nmd.resourcePolicies.insert id (nmd.resourcePolicies.setAt id ++ [policy]) }

/-- Adds the policies that carry the traffic of the enabled reverse-proxy services. -/
def injectProxyPolicies : NetworkMapData :=
  ((nmd.services.filter (·.enabled)).flatMap nmd.servicePolicies).foldl addInjectedPolicy nmd

/-! ### Posture checks -/

/-- The result computed ahead, if there is one. -/
def cachedPostureCheckResult (postureChecksID peerID : String) : Option Bool :=
  match nmd.postureValidation.lookup postureChecksID with
  | none => none
  | some none => some true
  | some (some results) => results.lookup peerID

/-- The check passes for the peer; a check that does not exist passes. -/
def postureCheckPasses (env : Env) (postureChecksID peerID : String) (peer : Peer) : Bool :=
  match nmd.cachedPostureCheckResult postureChecksID peerID with
  | some valid => valid
  | none => (nmd.postureChecks.lookup postureChecksID).elim true fun pc => pc.passes env peer

/-- Whether the peer exists and passes all checks, and the first one that failed. -/
def validatePostureChecksOnPeerGetFailed (env : Env) (sourcePostureChecksID : List String)
    (peerID : String) : Bool × String :=
  match nmd.peers.lookup peerID with
  | none => (false, "")
  | some peer =>
    match sourcePostureChecksID.find? fun id => !nmd.postureCheckPasses env id peerID peer with
    | some failed => (false, failed)
    | none => (true, "")

/-- The peers whose results are computed ahead for each check: the members of the source groups
of the enabled policies that use it, and the peers their rules name directly. -/
def checkPeerIDs : StrMap (List String) :=
  (nmd.policies.filter (·.enabled)).foldl (fun acc policy =>
    let peerIDs := getUniquePeerIDsFromGroupsIDs nmd.groups policy.sourceGroups ++
      (policy.rules.filter (·.sourceResource.isPeer)).map (·.sourceResource.id)
    policy.sourcePostureChecks.foldl (fun acc id =>
      acc.insert id ((acc.setAt id).insertAll peerIDs)) acc) ∅

/-- The result of one peer, if it exists. -/
def addPostureResult (checks : List (Peer → Bool)) (results : StrMap Bool) (peerID : String) :
    StrMap Bool :=
  match nmd.peers.lookup peerID with
  | none => results
  | some peer => results.insert peerID (PostureChecks.passesChecks checks peer)

def evaluatePostureChecksForPeers (env : Env) (postureChecksID : String) (peerIDs : List String) :
    Option (StrMap Bool) :=
  (nmd.postureChecks.lookup postureChecksID).map fun pc =>
    peerIDs.foldl (nmd.addPostureResult (pc.getChecks env)) ∅

def precomputePostureValidation (env : Env) : NetworkMapData :=
  { nmd with
    postureValidation := if nmd.postureChecks.entries.isEmpty then ∅
      else nmd.checkPeerIDs.mapVals (nmd.evaluatePostureChecksForPeers env) }

end NetworkMapData

end Cloink
