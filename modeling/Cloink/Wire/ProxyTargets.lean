import Cloink.NetworkMap.PeerACL
import Cloink.Wire.Encode

/-!
# Reverse-proxy targets

For each enabled target of a service and each proxy peer of its cluster a policy is injected that
lets the proxy peer reach the target. Its id is made of the service, the proxy peer and the path of
the target, and the port of an injected rule is a range. The firewall rules of a peer are kept apart
by the id of the policy rule and the list of ports, among others, so of two targets of a service on
one peer with one path and different ports only the first one is reachable.
-/

namespace Cloink

open NetworkMapComponents AList List List.Subset

/-- The rule admits the port: it names the port, has it in its range, or is for all ports. -/
def FirewallRule.Covers (fr : FirewallRule) (port : UInt16) : Prop :=
  (fr.port = "" ∧ fr.portRange = {}) ∨ fr.port = port.toNat.repr ∨
    (fr.portRange.startPort ≤ port ∧ port ≤ fr.portRange.endPort)

instance (fr : FirewallRule) (port : UInt16) : Decidable (fr.Covers port) :=
  inferInstanceAs (Decidable (_ ∨ _))

/-- The rule lets the peer in on the port. -/
def FirewallRule.LetsIn (fr : FirewallRule) (x : Peer) (protocol : String) (port : UInt16) : Prop :=
  fr.peerIP = x.ip.string ∧ fr.direction = .IN ∧ fr.protocol = protocol ∧ fr.Covers port

instance (fr : FirewallRule) (x : Peer) (protocol : String) (port : UInt16) :
    Decidable (fr.LetsIn x protocol port) := inferInstanceAs (Decidable (_ ∧ _))

/-- The transport protocol of a service. -/
def Service.transport (svc : Service) : String :=
  if svc.mode = serviceModeUDP then policyRuleProtocolUDP else policyRuleProtocolTCP

/-- The rule of the policy that is injected for a target. -/
def proxyAccessRule (svc : Service) (target : ServiceTarget) (x : Peer) (port : UInt16) : PolicyRule :=
  { id := "proxy-access-" ++ svc.id ++ "-" ++ x.id ++ "-" ++ target.path
    policyID := "proxy-access-" ++ svc.id ++ "-" ++ x.id ++ "-" ++ target.path
    sourceResource := ⟨x.id, resourceTypePeer⟩
    destinationResource := ⟨target.targetID, target.targetType⟩
    protocol := svc.transport
    portRanges := [⟨port, port⟩] }

theorem ruleProtocol_proxyAccessRule (svc : Service) (target : ServiceTarget) (x : Peer)
    (port : UInt16) : ruleProtocol (proxyAccessRule svc target x port) = svc.transport := by
  have hne : svc.transport ≠ policyRuleProtocolNetbirdSSH := by
    unfold Service.transport
    split <;> decide
  exact if_neg hne

theorem exists_letsIn_proxyAccessRule (env : Env) (svc : Service) (target : ServiceTarget) (x : Peer)
    (port : UInt16) (t : Peer) :
    ∃ fr ∈ rulesForAddress env (baseRule (proxyAccessRule svc target x port) x.ip.string .IN)
      (proxyAccessRule svc target x port) t, fr.LetsIn x svc.transport port := by
  set rule := proxyAccessRule svc target x port
  set base := baseRule rule x.ip.string .IN
  set fs := peerSupportedFirewallFeatures env t.sysMeta.wtVersion
  obtain ⟨fr, hfr, hl⟩ : ∃ fr, expandPortRange fs.portRanges base ⟨port, port⟩ = some fr ∧
      fr.LetsIn x svc.transport port := by
    have hp : base.protocol = svc.transport := ruleProtocol_proxyAccessRule svc target x port
    unfold expandPortRange
    split
    · have hle : port ≤ port := UInt16.le_refl port
      exact ⟨_, rfl, rfl, rfl, hp, .inr (.inr ⟨hle, hle⟩)⟩
    · exact ⟨_, if_neg (by simp), rfl, rfl, hp, .inr (.inl rfl)⟩
  have he : rule.portRanges.filterMap (expandPortRange fs.portRanges base) = [fr] := by
    rw [show rule.portRanges = [⟨port, port⟩] from rfl, filterMap_cons_some hfr, filterMap_nil]
  refine ⟨fr, ?_, hl⟩
  have hr : rulesForAddress env base rule t = if shouldCheckRulesForNativeSSH fs.nativeSSH rule t ||
          rule.protocol = policyRuleProtocolNetbirdSSH then
        addNativeSSHRule base [fr] else [fr] := by
    rw [← he]
    rfl
  rw [hr]
  unfold addNativeSSHRule
  split_ifs <;> simp

/-! ### The policies on the wire -/

theorem subset_foldl_unionPolicies (l out : List Policy) :
    out ⊆ l.foldl (fun out p => if p.id ∈ out.map (·.id) then out else out ++ [p]) out := by
  induction l generalizing out with
  | nil => exact refl out
  | cons p l ih =>
    rw [foldl_cons]
    refine List.Subset.trans ?_ (ih _)
    split
    · exact refl out
    · exact subset_append_left out [p]

theorem mem_foldl_unionPolicies {l l' out : List Policy} {p : Policy} (hp : p ∈ l)
    (ho : ∀ p' ∈ out, p'.id = p.id → p' = p) (hl : ∀ p' ∈ l, p'.id = p.id → p' = p) :
    p ∈ (l ++ l').foldl (fun out p => if p.id ∈ out.map (·.id) then out else out ++ [p]) out := by
  induction l generalizing out with
  | nil => cases hp
  | cons a l ih =>
    have ht := fun p' hp' => hl p' (mem_cons_of_mem a hp')
    rw [cons_append, foldl_cons]
    rcases mem_cons.1 hp with rfl | hp
    · -- the policy itself: it is there already or is added now
      refine subset_foldl_unionPolicies _ _ ?_
      split
      · rename_i hm
        obtain ⟨p', hp', hid⟩ := mem_map.1 hm
        exact ho p' hp' hid ▸ hp'
      · exact mem_append_right _ mem_cons_self
    · refine ih hp (fun p' hp' hid => ?_) ht
      split at hp'
      · exact ho p' hp' hid
      · rcases mem_append.1 hp' with hp' | hp'
        · exact ho p' hp' hid
        · exact hl p' (mem_singleton.1 hp' ▸ mem_cons_self) hid

theorem mem_unionPolicies {pols : List Policy} {p : Policy} (hp : p ∈ pols)
    (hi : ∀ p' ∈ pols, p'.id = p.id → p' = p) (resourcePolicies : StrMap (List Policy)) :
    p ∈ unionPolicies pols resourcePolicies := by
  unfold unionPolicies
  split
  · exact hp
  · exact mem_foldl_unionPolicies hp (by simp) hi

namespace NetworkMapData

variable (nmd : NetworkMapData) (env : Env)

/-! ### A target and a proxy peer -/

/-- An enabled target of an enabled service, on a validated peer and with a port, and a validated
proxy peer of the cluster of the service. -/
structure ProxyTarget (svc : Service) (target : ServiceTarget) (port : UInt16) (t x : Peer) :
    Prop where
  enabled_service : svc ∈ nmd.services ∧ svc.enabled
  enabled_target : target ∈ svc.targets ∧ target.enabled
  target_type : target.targetType = resourceTypePeer
  target_port : resolveTargetPort target = some port
  targetPeer : nmd.peers.lookup target.targetID = some t ∧ nmd.isValidated target.targetID
  proxyPeer : nmd.peers.lookup x.id = some x ∧ nmd.isValidated x.id
  proxy : x.proxyMeta.embedded ∧ x.proxyMeta.cluster = svc.proxyCluster
  ids : target.targetID ≠ "" ∧ x.id ≠ ""

/-- Any other rule in force between the target and a peer that has the identifier of the injected rule
lets the proxy peer in on the port as well. -/
def Unmasked (svc : Service) (target : ServiceTarget) (port : UInt16) (t x : Peer) : Prop :=
  ∀ policy ∈ nmd.injectProxyPolicies.policies, policy.enabled → ∀ rule ∈ policy.rules,
    rule.enabled → rule ≠ proxyAccessRule svc target x port → ∀ Q y d,
      nmd.peers.lookup Q = some y → Q ≠ target.targetID →
      nmd.Allows env policy rule target.targetID Q d → ∀ ip ∈ (ConnCall.mk rule d y).addresses t,
          ruleKey rule ip d = ruleKey (proxyAccessRule svc target x port) x.ip.string .IN →
            ∃ fr ∈ rulesForAddress env (baseRule rule ip d) rule t, fr.LetsIn x svc.transport port

/-- No other policy that concerns the peer has the id of the injected one. -/
def OnlyPolicy (svc : Service) (target : ServiceTarget) (port : UInt16) (x : Peer) : Prop :=
  ∀ policy ∈ nmd.injectProxyPolicies.policies, policy.enabled →
    policy.id = (proxyAccessPolicy svc target x port).id →
      (∃ rule ∈ policy.rules, rule.enabled ∧ (rule.destinations ≠ [] ∨
        nmd.OnSource env policy rule target.targetID ∨ nmd.OnDestination rule target.targetID)) →
      policy = proxyAccessPolicy svc target x port

variable {nmd env} {svc : Service} {target : ServiceTarget} {port : UInt16} {t x : Peer}

theorem ProxyTarget.mem_policies (h : nmd.ProxyTarget svc target port t x) :
    proxyAccessPolicy svc target x port ∈ nmd.injectProxyPolicies.policies := by
  have hp : x ∈ nmd.proxyPeersByCluster svc.proxyCluster := by
    unfold proxyPeersByCluster
    rw [mem_mergeSort, mem_filter, mem_map]
    refine ⟨⟨⟨x.id, x⟩, mem_lookup_iff.1 h.proxyPeer.1, rfl⟩, ?_⟩
    simp [h.proxy.1, h.proxy.2]
  have hs : proxyAccessPolicy svc target x port ∈ nmd.servicePolicies svc := by
    refine mem_append_left _ (mem_flatMap.2 ⟨target, mem_filter.2 h.enabled_target, ?_⟩)
    rw [h.target_port]
    exact mem_map.2 ⟨x, hp, rfl⟩
  rw [injectProxy_eq]
  exact mem_append_right _ (mem_flatMap.2 ⟨svc, mem_filter.2 h.enabled_service, hs⟩)

variable (env) in
/-- The rule has the target peer as its destination and the proxy peer as its source, by their ids and
not by a group. -/
theorem ProxyTarget.sides (h : nmd.ProxyTarget svc target port t x) :
    nmd.injectProxyPolicies.InDestination env (proxyAccessRule svc target x port) target.targetID ∧
      nmd.injectProxyPolicies.InSource env [] (proxyAccessRule svc target x port) x.id := by
  rw [injectProxy_eq]
  have hs {id : String} (hi : id ≠ "") : id ∈ sideIDs nmd.groups ⟨id, resourceTypePeer⟩ [] := by
    rw [sideIDs, if_pos (by simp [Resource.isPeer, hi])]
    exact mem_singleton.2 rfl
  have hd := hs h.ids.1
  rw [← h.target_type] at hd
  exact ⟨⟨hd, mem_of_lookup h.targetPeer.1, h.targetPeer.2, forall_mem_nil _⟩,
    hs h.ids.2, mem_of_lookup h.proxyPeer.1, h.proxyPeer.2, forall_mem_nil _⟩

section

variable (h : nmd.ProxyTarget svc target port t x) (hwf : nmd.WellFormed env)
  (hall : AllHolds nmd.groups target.targetID) (zone : CustomZone)

/-- The peer of the target. -/
abbrev ProxyTarget.viewer : nmd.Target env :=
  ⟨target.targetID, t, zone, hwf, h.targetPeer.1, h.targetPeer.2, hall⟩

/-- The proxy peer is let in, by the injected rule or by the one that has taken its identifier. -/
theorem ProxyTarget.letsIn (hne : x.id ≠ target.targetID)
    (hrules : nmd.Unmasked env svc target port t x) :
    ∃ fr ∈ ((h.viewer hwf hall zone).inject.slice.calculate env).firewallRules,
      fr.LetsIn x svc.transport port := by
  set rule := proxyAccessRule svc target x port
  set pol := proxyAccessPolicy svc target x port
  have hwf' := hwf.inject
  have hx : nmd.injectProxyPolicies.peers.lookup x.id = some x := by
    rw [injectProxy_eq]
    exact h.proxyPeer.1
  obtain ⟨-, hsp, hk⟩ := connSpec env (h.viewer hwf hall zone).inject.getPeerInfo_self
  rw [firewallRules_calculate]
  have hca : ⟨rule, .IN, x⟩ ∈ (h.viewer hwf hall zone).inject.account.policyRuleCalls
      target.targetID (pol, rule) :=
    (mem_policyRuleCalls_account zone hwf' hx).2 ⟨hne, Or.inl (h.sides env)⟩
  have hcl := mem_flatMap.2 ⟨(pol, rule),
      mem_enabledRules.2 ⟨h.mem_policies, rfl, mem_singleton.2 rfl, rfl⟩, hca⟩
  -- the identifier was taken by a call whose rules are there
  obtain ⟨y, hy, ip, hip, hky, hsb⟩ := hsp.key_sound _ (hk _ hcl)
  have hyp := peer_of_mem_connCalls hwf' hy
  obtain ⟨⟨pol', rule'⟩, hpr, hc'⟩ := mem_flatMap.1 hy
  obtain ⟨hp', hpe', hr', hre'⟩ := mem_enabledRules.1 hpr
  have hyr : y.rule = rule' := (mem_ruleCalls.1 hc').1
  obtain ⟨yr, yd, yp⟩ := y
  obtain rfl : yr = rule' := hyr
  obtain ⟨hne', ha'⟩ := (mem_policyRuleCalls_account zone hwf' hyp).1 hc'
  have ha : nmd.injectProxyPolicies.Allows env pol' yr target.targetID yp.id yd :=
    ha'.mono (fun _ hs => hs.onSource hwf') fun _ hd => hd.onDestination
  rw [injectProxy_eq] at ha hyp
  by_cases hsm : yr = rule
  · subst hsm
    obtain ⟨rfl, rfl⟩ : ip = x.ip.string ∧ yd = .IN := ruleKey_injective hky
    obtain ⟨fr, hfr, hl⟩ := exists_letsIn_proxyAccessRule env svc target x port t
    exact ⟨fr, hsb hfr, hl⟩
  · obtain ⟨fr, hfr, hl⟩ := hrules pol' hp' hpe' yr hr' hre' hsm yp.id yp yd hyp hne'
      ha ip hip hky
    exact ⟨fr, hsb hfr, hl⟩

/-- The injected policy is on the wire. -/
theorem ProxyTarget.mem_unionPolicies (hpolicies : nmd.OnlyPolicy env svc target port x)
    (resourcePolicies : StrMap (List Policy)) : proxyAccessPolicy svc target x port ∈
      unionPolicies (h.viewer hwf hall zone).inject.slice.policies resourcePolicies := by
  have hck := hwf.inject.noEmptyCheck
  obtain ⟨ags, hr, -⟩ := relevant_policies_of_routes target.targetID t.sshEnabled hck
  have hcp : (h.viewer hwf hall zone).inject.slice.policies =
      (nmd.injectProxyPolicies.policies.filter (·.enabled)).filter
        (nmd.injectProxyPolicies.policyRelevant env target.targetID ags) := by
    rw [← hr]
    exact policies_collected (h.viewer hwf hall zone).inject
  have hin : proxyAccessPolicy svc target x port ∈
      (h.viewer hwf hall zone).inject.slice.policies := by
    rw [hcp, mem_filter, mem_filter, policyRelevant_iff hck]
    exact ⟨⟨h.mem_policies, rfl⟩, _, mem_singleton.2 rfl, rfl, .inr (.inr (h.sides env).1)⟩
  refine Cloink.mem_unionPolicies hin (fun p hp hid => ?_) _
  rw [hcp, mem_filter, mem_filter, policyRelevant_iff hck] at hp
  obtain ⟨⟨hp, hpe⟩, rule', hr', hre', hsd⟩ := hp
  refine hpolicies p hp hpe hid ⟨rule', hr', hre', ?_⟩
  rcases hsd with ⟨g, hg, -⟩ | hs | hd
  · exact .inl (ne_nil_of_mem hg)
  · have hs := hs.onSource hwf.inject
    rw [injectProxy_eq] at hs
    exact .inr (.inl hs)
  · have hd := hd.onDestination
    rw [injectProxy_eq] at hd
    exact .inr (.inr hd)

end

/-- An enabled target is reachable by a proxy peer other than its own peer, and the policy for it is
on the wire, when no other rule or policy takes its identifier. -/
theorem proxyTarget_reachable (nmd : NetworkMapData) (env : Env) (hwf : nmd.WellFormed env)
    (zone : CustomZone) (svc : Service) (target : ServiceTarget) (port : UInt16) (t x : Peer)
    (hall : AllHolds nmd.groups target.targetID) (h : nmd.ProxyTarget svc target port t x)
    (hne : x.id ≠ target.targetID) (hrules : nmd.Unmasked env svc target port t x)
    (hpolicies : nmd.OnlyPolicy env svc target port x) :
    let c := nmd.getPeerNetworkMapComponents env target.targetID zone
    (∃ fr ∈ (c.calculate env).firewallRules, fr.LetsIn x svc.transport port) ∧
      proxyAccessPolicy svc target x port ∈ unionPolicies c.policies c.resourcePoliciesMap := by
  intro c
  have hc : c = (h.viewer hwf hall zone).inject.slice := (h.viewer hwf hall zone).components_eq
  rw [hc]
  exact ⟨h.letsIn hwf hall zone hne hrules, h.mem_unionPolicies hwf hall zone hpolicies _⟩

/-! ### Two targets with one path -/

/-- The peer of both targets. -/
def portsPeer : Peer := { id := "t", key := "k1", ip := .from4 100 64 0 1 }

def portsProxy : Peer :=
  { id := "x", key := "k2", ip := .from4 100 64 0 2
    proxyMeta := { embedded := true, cluster := "c" } }

def portTarget (port : UInt16) (path : String) : ServiceTarget :=
  { targetID := "t", targetType := resourceTypePeer, port, path }

variable (path path' : String)

/-- A service with two targets on one peer, on the ports 80 and 443. -/
def portsService : Service :=
  { id := "s", enabled := true, proxyCluster := "c"
    targets := [portTarget 80 path, portTarget 443 path'] }

def twoPorts : NetworkMapData where
  peers := (AList.insert "t" portsPeer ∅).insert "x" portsProxy
  validatedPeers := ["t", "x"]
  services := [portsService path path']

theorem lookup_twoPorts {path path' Q : String} {y : Peer}
    (h : (twoPorts path path').peers.lookup Q = some y) :
    Q = "x" ∧ y = portsProxy ∨ Q = "t" ∧ y = portsPeer := by
  simp only [twoPorts, lookup_insert_some, lookup_empty] at h
  rcases h with ⟨rfl, rfl⟩ | ⟨-, ⟨rfl, rfl⟩ | ⟨-, h⟩⟩
  · exact .inl ⟨rfl, rfl⟩
  · exact .inr ⟨rfl, rfl⟩
  · cases h

theorem wellFormed_twoPorts : (twoPorts path path').WellFormed Env.plain := by
  refine ⟨fun id peer hp => ?_, notMem_empty "", fun _ _ _ _ _ hc => ?_⟩
  · rcases lookup_twoPorts hp with ⟨rfl, rfl⟩ | ⟨rfl, rfl⟩ <;> rfl
  · simp [twoPorts, cachedPostureCheckResult] at hc

theorem allHolds_twoPorts (p : String) : AllHolds (twoPorts path path').groups p := by
  intro gid g hg
  simp [twoPorts] at hg

theorem proxyTarget_twoPorts :
    (twoPorts path path').ProxyTarget (portsService path path') (portTarget 443 path') 443 portsPeer
      portsProxy where
  enabled_service := ⟨mem_singleton.2 rfl, rfl⟩
  enabled_target := ⟨by simp [portsService], rfl⟩
  target_type := rfl
  target_port := rfl
  targetPeer := ⟨(lookup_insert_ne (by simp [portTarget])).trans (lookup_insert _),
    by simp [isValidated, twoPorts, portTarget]⟩
  proxyPeer := ⟨lookup_insert _, by simp [isValidated, twoPorts, portsProxy]⟩
  proxy := ⟨rfl, rfl⟩
  ids := ⟨by simp [portTarget], by simp [portsProxy]⟩

/-- With one path for both targets the second one is not reachable. -/
theorem one_path_masks_second_target : (twoPorts "/" "/").WellFormed Env.plain ∧
      (∀ p, AllHolds (twoPorts "/" "/").groups p) ∧
      (twoPorts "/" "/").ProxyTarget (portsService "/" "/") (portTarget 443 "/") 443 portsPeer
        portsProxy ∧
      ¬ ∃ fr ∈ (((twoPorts "/" "/").getPeerNetworkMapComponents Env.plain "t" {}).calculate
          Env.plain).firewallRules, fr.LetsIn portsProxy (portsService "/" "/").transport 443 :=
  ⟨wellFormed_twoPorts "/" "/", allHolds_twoPorts "/" "/", proxyTarget_twoPorts "/" "/",
    by decide +kernel⟩

theorem policies_twoPorts : (twoPorts "/" "/a").injectProxyPolicies.policies =
    [proxyAccessPolicy (portsService "/" "/a") (portTarget 80 "/") portsProxy 80,
      proxyAccessPolicy (portsService "/" "/a") (portTarget 443 "/a") portsProxy 443] := by
  have hp : (twoPorts "/" "/a").proxyPeersByCluster "c" = [portsProxy] :=
    mergeSort_singleton portsProxy
  have hs : (twoPorts "/" "/a").servicePolicies (portsService "/" "/a") =
      (portsService "/" "/a").targets.flatMap fun target =>
        (resolveTargetPort target).elim [] fun port => [portsProxy].map fun proxyPeer =>
          proxyAccessPolicy (portsService "/" "/a") target proxyPeer port := by
    rw [← hp]
    exact append_nil _
  rw [injectProxy_eq]
  exact (append_nil _).trans hs

/-- With different paths it is. -/
theorem two_paths_reachable :
    ∃ fr ∈ (((twoPorts "/" "/a").getPeerNetworkMapComponents Env.plain "t" {}).calculate
      Env.plain).firewallRules, fr.LetsIn portsProxy (portsService "/" "/a").transport 443 := by
  refine (proxyTarget_reachable (twoPorts "/" "/a") Env.plain (wellFormed_twoPorts _ _) {} _ _ 443
    portsPeer portsProxy (allHolds_twoPorts _ _ _) (proxyTarget_twoPorts _ _) (by decide) ?_ ?_).1
  · intro pol hp _ rule hr _ hne Q y d hy hQ _ ip hip hk
    rw [policies_twoPorts] at hp
    rcases lookup_twoPorts hy with ⟨rfl, rfl⟩ | ⟨rfl, rfl⟩
    · rcases mem_cons.1 hp with rfl | hp
      · obtain rfl := mem_singleton.1 hr
        obtain rfl := mem_singleton.1 hip
        cases d <;> exact absurd hk (by decide +kernel)
      · obtain rfl := mem_singleton.1 hp
        exact absurd (mem_singleton.1 hr) hne
    · exact absurd rfl hQ
  · intro pol hp _ hid _
    rw [policies_twoPorts] at hp
    rcases mem_cons.1 hp with rfl | hp
    · exact absurd hid (by decide +kernel)
    · exact mem_singleton.1 hp

end NetworkMapData

end Cloink
