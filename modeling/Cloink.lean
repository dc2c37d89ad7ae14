import Cloink.Policies.Ports
import Cloink.ACL.ConfigHash
import Cloink.Uspfilter.Fragment
import Cloink.NetworkMap.LoginExpiration
import Cloink.NetworkMap.PostureCache
import Cloink.NetworkMap.SSHUsers
import Cloink.SSH.Enforcement
import Cloink.NetworkMap.DirectSource
import Cloink.Wire.ProxyTargets
import Cloink.Sync.Delivery
import Cloink.Sync.Succession
import Cloink.Sync.BufferAffectedUpdate
import Cloink.RouteManager.ExclusionRoutes
import Cloink.RouteManager.ExitNodes
import Cloink.Uspfilter.PortDNAT
import Cloink.Uspfilter.TCPFlows
import Cloink.LazyConn.Syncs
import Cloink.Peer.Paths
import Cloink.AffectedPeers.PolicyChange
import Cloink.AgentNetwork.Usage
import Cloink.LazyConn.HAGroups
import Cloink.Proxy.Restrict
import Cloink.Proxy.TCPRouter
import Cloink.Relay.Forced
import Cloink.Relay.Reconnect
import Cloink.Relay.Retirement
import Cloink.RelayServer.Presence
import Cloink.Updater.Replay
import Cloink.RouteManager.Interceptor
import Cloink.Firewall.IntervalSet
import Cloink.AgentNetwork.Windows
import Cloink.AgentNetwork.Routes
import Cloink.Sync.Debouncer
import Cloink.Sync.JobStreams
import Cloink.Sync.LoginFilter
import Cloink.Relay.EarlyMessages
import Cloink.LazyConn.Activity
import Cloink.Relay.Listeners
import Cloink.Relay.Publication
import Cloink.RouteManager.Notifiers
