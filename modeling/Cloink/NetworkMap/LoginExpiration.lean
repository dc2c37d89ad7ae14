import Cloink.NetworkMap.Visibility

/-!
# Expired logins

Peers whose login has expired are taken out of the peers that the policies connect. The routing
peers of network resources, and the source peers of the resources a router serves, are appended
after that without another look at their login.
-/

namespace Cloink

open NetworkMapComponents

namespace NetworkMapComponents

variable (c : NetworkMapComponents) (env : Env)

/-- The login of the peer has expired under the settings of the account. -/
def Expired (p : Peer) : Prop :=
  p.loginExpired env c.accountSettings.peerLoginExpiration = true

instance (p : Peer) : Decidable (c.Expired env p) := inferInstanceAs (Decidable (_ = true))

variable (henabled : c.accountSettings.peerLoginExpirationEnabled)

include henabled

/-- No connectable peer has expired exactly when every expired peer that network resources lead to
is also connected by a policy. -/
theorem peers_unexpired_iff : (∀ p ∈ (c.calculate env).peers, ¬c.Expired env p) ↔
      ∀ pid info, c.RoutingPartner pid → pid ≠ c.peerID →
        (c.getPeerInfo pid).or (c.getRouterPeerInfo pid) = some info → c.Expired env info →
          c.PolicyPartner pid := by
  constructor
  · intro h pid info hpr hne hi he
    by_contra hn
    exact h info (mem_calculate_peers.2 (.inr ⟨pid, hpr, hne, hn, hi⟩)) he
  · intro h p hp he
    rcases mem_calculate_peers.1 hp with hf | ⟨pid, hpr, hne, hno, hi⟩
    · unfold Expired at he
      simp [filterPeersByLoginExpiration, henabled, he] at hf
    · exact hno (h pid p hpr hne hi he)

end NetworkMapComponents

namespace NetworkMapData

/-- A client that may use a resource, and a router of the resource whose login has expired. The
`ping` group may reach the router. -/
def expiredRouter (ping : List String) : NetworkMapData :=
  let policy : Policy :=
    { id := "p"
      rules := [{ id := "r", sources := ["users"], destinationResource := ⟨"db", resourceTypeHost⟩ }] }
  let pingPolicy : Policy :=
    { id := "q"
      rules := [{ id := "s", sources := ["ping"], destinations := ["routers"] }] }
  { peers := (AList.insert "client" { id := "client", key := "k1", ip := .from4 100 64 0 1 }
      ∅).insert "router"
        { id := "router", key := "k2", userID := "u", loginExpirationEnabled := true,
          lastLogin := some (-100), ip := .from4 100 64 0 2 }
    groups := ((AList.insert "users" { id := "users", peers := ["client"] } ∅).insert
      "ping" { id := "ping", peers := ping }).insert
      "routers" { id := "routers", peers := ["router"] }
    policies := [policy, pingPolicy]
    accountSettings := { peerLoginExpirationEnabled := true, peerLoginExpiration := 10 }
    networkResources := [{ id := "db", networkID := "net", type := resourceTypeHost }]
    validatedPeers := ["client", "router"]
    resourcePolicies := AList.insert "db" [policy] ∅
    routers := AList.insert "net" (AList.insert "router" {} ∅) ∅ }

/-- The components of the client of `expiredRouter`. -/
def expiredRouterComponents (ping : List String) : NetworkMapComponents :=
  (expiredRouter ping).getPeerNetworkMapComponents Env.plain "client" {}

/-- Without a policy that leads to it, the expired router is handed out as connectable. -/
theorem expired_router_connectable :
    (expiredRouterComponents []).accountSettings.peerLoginExpirationEnabled ∧
      ∃ p ∈ ((expiredRouterComponents []).calculate Env.plain).peers,
        (expiredRouterComponents []).Expired Env.plain p := by
  decide +kernel

theorem peers_unexpired_expiredRouter :
    (expiredRouterComponents ["client"]).accountSettings.peerLoginExpirationEnabled ∧
      ∀ pid info, (expiredRouterComponents ["client"]).RoutingPartner pid →
        pid ≠ (expiredRouterComponents ["client"]).peerID →
        ((expiredRouterComponents ["client"]).getPeerInfo pid).or
          ((expiredRouterComponents ["client"]).getRouterPeerInfo pid) = some info →
        (expiredRouterComponents ["client"]).Expired Env.plain info →
          (expiredRouterComponents ["client"]).PolicyPartner pid :=
  ⟨by decide +kernel, (peers_unexpired_iff (expiredRouterComponents ["client"]) Env.plain
    (by decide +kernel)).1 (by decide +kernel)⟩

end NetworkMapData

end Cloink
