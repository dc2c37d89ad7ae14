import Cloink.NetworkMap.Data

/-!
# Posture checks

A posture check bundles conditions on what a peer reports about itself: its client version, its
operating system, its location, the networks it is in and the processes it runs. The check of
each condition returns a verdict and an error in the source; the callers drop the error and an
error always comes with a negative verdict, so only the verdict is modelled.
-/

namespace Cloink

open Netip

def checkActionAllow : String := "allow"
def checkActionDeny : String := "deny"

/-- The verdict of a check with an action: what matches is rejected by `deny` and accepted by
`allow`, the rest is treated the other way round, and every other action rejects. -/
def allowDeny (action : String) (found : Bool) : Bool :=
  if found then action = checkActionAllow else action = checkActionDeny

structure GeoLocation where
  countryCode : String
  cityName : String := ""
  deriving DecidableEq

structure GeoLocationCheck where
  locations : List GeoLocation
  action : String
  deriving DecidableEq

def GeoLocationCheck.check (g : GeoLocationCheck) (peer : Peer) : Bool :=
  if peer.location.countryCode = "" && peer.location.cityName = "" then false
  else allowDeny g.action <| g.locations.any fun loc =>
    loc.countryCode = peer.location.countryCode &&
      (loc.cityName = "" || loc.cityName = peer.location.cityName)

structure PeerNetworkRangeCheck where
  action : String
  ranges : List Prefix
  deriving DecidableEq

def prefixContains (outer inner : Prefix) : Bool :=
  let outer := outer.masked
  let inner := inner.masked
  match outer.bits, inner.bits with
  | some m, some n => m ≤ n && outer.addr.bitLen = inner.addr.bitLen && outer.contains inner.addr
  -- the length of a prefix that is not valid is -1, and it contains nothing
  | _, _ => false

/-- The networks a peer is in: those it reports, and the address it connects from. -/
def peerPrefixes (peer : Peer) : List Prefix :=
  peer.sysMeta.networkAddresses ++ match Addr.ofSlice peer.location.connectionIP with
    | some addr => [prefixFrom addr.unmap addr.unmap.bitLen]
    | none => []

def PeerNetworkRangeCheck.check (p : PeerNetworkRangeCheck) (peer : Peer) : Bool :=
  if (peerPrefixes peer).isEmpty then false
  else allowDeny p.action <| (peerPrefixes peer).any fun peerPrefix =>
    p.ranges.any fun rangePrefix => prefixContains rangePrefix peerPrefix

structure Process where
  linuxPath : String := ""
  macPath : String := ""
  windowsPath : String := ""
  deriving DecidableEq

structure ProcessCheck where
  processes : List Process
  deriving DecidableEq

def extractPeerActiveProcesses (files : List File) : List String :=
  (files.filter (·.processIsRunning)).map (·.path)

def ProcessCheck.areAllProcessesRunning (p : ProcessCheck) (activeProcesses : List String)
    (pathSelector : Process → String) : Bool :=
  p.processes.all fun process =>
    pathSelector process ≠ "" && activeProcesses.contains (pathSelector process)

def ProcessCheck.check (p : ProcessCheck) (peer : Peer) : Bool :=
  let active := extractPeerActiveProcesses peer.sysMeta.files
  match peer.sysMeta.goOS with
  | "linux" => p.areAllProcessesRunning active (·.linuxPath)
  | "darwin" => p.areAllProcessesRunning active (·.macPath)
  | "windows" => p.areAllProcessesRunning active (·.windowsPath)
  | _ => false

/-- The minimal versions per operating system: of the system itself, or of its kernel for
`linux` and `windows`. -/
structure OSVersionCheck where
  android : Option String := none
  darwin : Option String := none
  ios : Option String := none
  linux : Option String := none
  windows : Option String := none
  deriving DecidableEq

def checkMinVersion (env : Env) (peerVersion : String) : Option String → Bool
  | none => false
  | some minVersion => env.versionAtLeast minVersion peerVersion

def OSVersionCheck.check (env : Env) (c : OSVersionCheck) (peer : Peer) : Bool :=
  match peer.sysMeta.goOS with
  | "android" => checkMinVersion env peer.sysMeta.osVersion c.android
  | "darwin" => checkMinVersion env peer.sysMeta.osVersion c.darwin
  | "ios" => checkMinVersion env peer.sysMeta.osVersion c.ios
  | "linux" => checkMinVersion env (cutAt '-' peer.sysMeta.kernelVersion) c.linux
  | "windows" => checkMinVersion env peer.sysMeta.kernelVersion c.windows
  | _ => true

structure NBVersionCheck where
  minVersion : String
  deriving DecidableEq

def NBVersionCheck.check (env : Env) (n : NBVersionCheck) (peer : Peer) : Bool :=
  meetsMinVersion env n.minVersion peer.sysMeta.wtVersion

structure ChecksDefinition where
  nbVersionCheck : Option NBVersionCheck := none
  osVersionCheck : Option OSVersionCheck := none
  geoLocationCheck : Option GeoLocationCheck := none
  peerNetworkRangeCheck : Option PeerNetworkRangeCheck := none
  processCheck : Option ProcessCheck := none
  deriving DecidableEq

structure PostureChecks where
  id : String
  checks : ChecksDefinition
  deriving DecidableEq

namespace PostureChecks

/-- The conditions the bundle sets, in the order in which they are evaluated. -/
def getChecks (env : Env) (pc : PostureChecks) : List (Peer → Bool) :=
  (pc.checks.nbVersionCheck.map (·.check env)).toList ++
  (pc.checks.osVersionCheck.map (·.check env)).toList ++
  (pc.checks.geoLocationCheck.map (·.check)).toList ++
  (pc.checks.peerNetworkRangeCheck.map (·.check)).toList ++
  (pc.checks.processCheck.map (·.check)).toList

def passesChecks (checks : List (Peer → Bool)) (peer : Peer) : Bool := checks.all fun c => c peer

def passes (env : Env) (pc : PostureChecks) (peer : Peer) : Bool :=
  passesChecks (pc.getChecks env) peer

end PostureChecks

end Cloink
