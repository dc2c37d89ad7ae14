import Cloink.NetworkMap.Connections
import Cloink.NetworkMap.SliceConnections

/-!
# Firewall rules are what the policies say

A peer gets a firewall rule for another peer in one direction exactly when an enabled rule of an
enabled policy has the two on its sides. The rules are kept apart by texts, so the ids and addresses
must be such that the texts of different rules differ.

## Main definitions

* `Permits`: a rule lets two peers talk in one direction.

## Main results

* `firewallRules_calculate`: the rules over the slice are those over the account.
* `firewallRules_iff`: a peer gets a rule exactly when a policy says so.
-/

namespace Cloink

open NetworkMapComponents AList List ConnCall Env

/-! ### Identifiers -/

theorem Direction.string_length (d : Direction) : d.string.toList.length = 1 := by
  cases d <;> rfl

variable {d d' : Direction}

theorem Direction.string_injective (h : d.string.toList = d'.string.toList) : d = d' := by
  cases d <;> cases d' <;> first | rfl | exact absurd h (by decide)

/-- The identifiers of one rule tell addresses and directions apart. -/
theorem ruleKey_injective {rule : PolicyRule} {ip ip' : String}
    (h : ruleKey rule ip d = ruleKey rule ip' d') : ip = ip' ∧ d = d' := by
  have hl := congrArg String.toList h
  simp only [ruleKey, String.toList_append, append_assoc, append_cancel_left_eq] at hl
  simp only [← append_assoc] at hl
  have hc := append_cancel_right (append_cancel_right (append_cancel_right hl))
  obtain ⟨hip, hd⟩ := append_inj' hc
    ((Direction.string_length d).trans (Direction.string_length d').symm)
  exact ⟨String.toList_inj.1 hip, Direction.string_injective hd⟩

/-- The texts of two identifiers begin with the id of the rule and the address. -/
theorem prefix_of_ruleKey_eq {r r' : PolicyRule} {ip ip' : String}
    (h : ruleKey r ip d = ruleKey r' ip' d') : (r.id ++ ip).toList <+: (r'.id ++ ip').toList ∨
      (r'.id ++ ip').toList <+: (r.id ++ ip).toList := by
  have hk (r : PolicyRule) (ip : String) (d : Direction) :
      (r.id ++ ip).toList <+: (ruleKey r ip d).toList := by
    simp only [ruleKey, String.toList_append, append_assoc]
    exact ⟨_, append_assoc _ _ _⟩
  have h1 := hk r ip d
  have h2 := hk r' ip' d'
  rw [h] at h1
  exact prefix_or_prefix_of_prefix h1 h2

namespace NetworkMapData

variable (nmd : NetworkMapData) (env : Env)

/-! ### What a rule says -/

/-- The side names the peer, as its resource or else as a member of a listed group. -/
def Names (resource : Resource) (groupIDs : List String) (p : String) : Prop :=
  if resource.isPeer then p = resource.id else InGroups nmd.groups groupIDs p

/-- The peer is admitted on the destination side. -/
def OnDestination (rule : PolicyRule) (p : String) : Prop :=
  p ∈ nmd.peers ∧ nmd.isValidated p ∧ nmd.Names rule.destinationResource rule.destinations p

/-- The peer is admitted on the source side: it also passes the checks of the policy. -/
def OnSource (policy : Policy) (rule : PolicyRule) (p : String) : Prop :=
  p ∈ nmd.peers ∧ nmd.isValidated p ∧ nmd.Names rule.sourceResource rule.sources p ∧
    ∀ id ∈ policy.sourcePostureChecks, ∀ pc, nmd.postureChecks.lookup id = some pc →
      ∀ peer, nmd.peers.lookup p = some peer → pc.passes env peer = true

/-- With these peers on its sides, the rule lets traffic pass between the target and the other peer
in the direction. -/
def Permits (rule : PolicyRule) (source destination : String → Prop) (target p : String) :
    Direction → Prop
  | .IN => (destination target ∧ source p) ∨ (rule.bidirectional ∧ source target ∧ destination p)
  | .OUT => (source target ∧ destination p) ∨ (rule.bidirectional ∧ destination target ∧ source p)

/-- The rule lets traffic pass between the target and the other peer in the direction. -/
def Allows (policy : Policy) (rule : PolicyRule) (target p : String) : Direction → Prop :=
  Permits rule (nmd.OnSource env policy rule) (nmd.OnDestination rule) target p

/-- The id of a policy rule followed by an address is never the beginning of another's. -/
def RuleIDsUnambiguous : Prop :=
  ∀ policy ∈ nmd.policies, ∀ rule ∈ policy.rules, ∀ policy' ∈ nmd.policies, ∀ rule' ∈ policy'.rules,
    ∀ id q id' q', nmd.peers.lookup id = some q → nmd.peers.lookup id' = some q' →
      ∀ ip ∈ [q.ip.string, q.ipv6.string], ∀ ip' ∈ [q'.ip.string, q'.ipv6.string],
        (rule.id ++ ip).toList <+: (rule'.id ++ ip').toList → policy = policy' ∧ rule = rule'

/-- No two peers have an address in common. -/
def AddressesDistinct : Prop :=
  ∀ id q id' q', nmd.peers.lookup id = some q → nmd.peers.lookup id' = some q' →
    q.ip.string = q'.ip.string ∨ (q'.ipv6.isValid ∧ q.ip.string = q'.ipv6.string) → id = id'

variable {nmd env}

variable {p : String}

section

variable {rule : PolicyRule} {pol : Policy} {source destination source' destination' : String → Prop}
  {T Q : String} {d : Direction}

theorem Permits.mono (hs : ∀ p, source p → source' p) (hd : ∀ p, destination p → destination' p)
    (h : Permits rule source destination T Q d) : Permits rule source' destination' T Q d := by
  cases d with
  | IN => exact h.imp (.imp (hd T) (hs Q)) (.imp_right (.imp (hs T) (hd Q)))
  | OUT => exact h.imp (.imp (hs T) (hd Q)) (.imp_right (.imp (hd T) (hs Q)))

/-- What a rule permits depends on the sides of the two peers only. -/
theorem permits_congr (hp : ∀ p ∈ [T, Q], (source p ↔ source' p) ∧
      (destination p ↔ destination' p)) :
    Permits rule source destination T Q d ↔ Permits rule source' destination' T Q d := by
  obtain ⟨hs, hd⟩ := hp T mem_cons_self
  obtain ⟨hs', hd'⟩ := hp Q (mem_cons_of_mem _ mem_cons_self)
  cases d <;> simp only [Permits, hs, hd, hs', hd']

theorem names_of_mem_sideIDs {res : Resource} {gids : List String}
    (hp : p ∈ sideIDs nmd.groups res gids) : nmd.Names res gids p := by
  unfold sideIDs at hp
  unfold Names
  split at hp
  · rename_i hr
    rw [if_pos hr]
    exact mem_singleton.1 hp
  · rename_i hr
    rw [if_neg hr]
    exact inGroups_of_mem_uniquePeers hp

/-- A peer is on a side exactly when the side names it. -/
theorem mem_sideIDs_iff (ha : AllHolds nmd.groups p) {res : Resource} {gids : List String} :
    p ∈ sideIDs nmd.groups res gids ↔ nmd.Names res gids p := by
  unfold sideIDs Names
  split
  · exact mem_singleton
  · exact mem_uniquePeers ha

theorem InDestination.onDestination (h : nmd.InDestination env rule p) :
    nmd.OnDestination rule p :=
  ⟨h.2.1, h.2.2.1, names_of_mem_sideIDs h.1⟩

theorem inDestination_iff (ha : AllHolds nmd.groups p) :
    nmd.InDestination env rule p ↔ nmd.OnDestination rule p :=
  ⟨InDestination.onDestination, fun ⟨hp, hv, hn⟩ => ⟨(mem_sideIDs_iff ha).2 hn, hp, hv, by simp⟩⟩

theorem InSource.onSource (hs : nmd.InSource env pol.sourcePostureChecks rule p)
    (h : nmd.WellFormed env) : nmd.OnSource env pol rule p := by
  obtain ⟨hs, hp, hv, hc⟩ := hs
  refine ⟨hp, hv, names_of_mem_sideIDs hs, fun id hid pc hpc peer hpr => ?_⟩
  by_contra hfl
  exact hc id hid (h.failsCheck_iff.2 ⟨peer, hpr, pc, hpc, Bool.eq_false_iff.2 hfl⟩)

/-- The source side admits the peers that it names and that pass the checks. -/
theorem inSource_iff (h : nmd.WellFormed env) (ha : AllHolds nmd.groups p) :
    nmd.InSource env pol.sourcePostureChecks rule p ↔ nmd.OnSource env pol rule p := by
  refine ⟨fun hs => hs.onSource h, fun ⟨hp, hv, hn, hc⟩ => ?_⟩
  refine ⟨(mem_sideIDs_iff ha).2 hn, hp, hv, fun id hid hfl => ?_⟩
  obtain ⟨peer, hpr, pc, hpc, hf⟩ := h.failsCheck_iff.1 hfl
  exact absurd (hc id hid pc hpc peer hpr) (by simp [hf])

end

/-! ### The calls over the account -/

section

variable {T : String} {target : Peer} {zone : CustomZone} (h : nmd.WellFormed env)

include h

variable {Q : String} {q : Peer} {x : ConnCall}

variable (T zone) in
theorem mem_getSidePeers_account (res : Resource) (gids cks : List String)
    (hq : nmd.peers.lookup Q = some q) :
    q ∈ ((nmd.accountComponents env T zone).getSidePeers res gids T cks).1 ↔
      Q ≠ T ∧ Q ∈ sideIDs nmd.groups res gids ∧ nmd.Admits env cks Q := by
  have hi {id : String} : (nmd.accountComponents env T zone).getPeerInfo id = some q →
      id = Q := fun hid =>
    (h.peer_id id q (getPeerInfo_account.1 hid).2).symm.trans (h.peer_id Q q hq)
  rw [mem_getSidePeers_fst]
  constructor
  · rintro ⟨id, hs, hne, hv, hid⟩
    obtain rfl := hi hid
    exact ⟨hne, hs, (validate_account h).1 hv⟩
  · rintro ⟨hne, hs, ha⟩
    exact ⟨Q, hs, hne, (validate_account h).2 ha, getPeerInfo_account.2 ⟨ha.2.1, hq⟩⟩

theorem exists_getSidePeers_account {res : Resource} {gids cks : List String} :
    (∃ q, q.id = Q ∧ q ∈ ((nmd.accountComponents env T zone).getSidePeers res gids T cks).1) ↔
      Q ≠ T ∧ Q ∈ sideIDs nmd.groups res gids ∧ nmd.Admits env cks Q := by
  constructor
  · rintro ⟨q, rfl, hq⟩
    obtain ⟨id, -, -, -, hi⟩ := mem_getSidePeers_fst.1 hq
    have hl := (getPeerInfo_account.1 hi).2
    rw [← h.peer_id id q hl] at hl
    exact (mem_getSidePeers_account T zone h res gids cks hl).1 hq
  · intro hs
    obtain ⟨q, hq⟩ := mem_iff_lookup.1 hs.2.2.1
    exact ⟨q, h.peer_id Q q hq, (mem_getSidePeers_account T zone h res gids cks hq).2 hs⟩

variable (zone) in
/-- A rule is generated for a peer exactly when it permits it. -/
theorem mem_policyRuleCalls_account {pol : Policy} {rule : PolicyRule} {d : Direction}
    (hq : nmd.peers.lookup Q = some q) :
    ⟨rule, d, q⟩ ∈ (nmd.accountComponents env T zone).policyRuleCalls T (pol, rule) ↔
      Q ≠ T ∧ Permits rule (nmd.InSource env pol.sourcePostureChecks rule)
        (nmd.InDestination env rule) T Q d := by
  have hs : _ ↔ nmd.InSource env pol.sourcePostureChecks rule T :=
    getSidePeers_account_snd T zone h rule.sourceResource rule.sources pol.sourcePostureChecks T
  have hd : _ ↔ nmd.InDestination env rule T :=
    getSidePeers_account_snd T zone h rule.destinationResource rule.destinations [] T
  have hs' : _ ↔ Q ≠ T ∧ nmd.InSource env pol.sourcePostureChecks rule Q :=
    mem_getSidePeers_account T zone h rule.sourceResource rule.sources pol.sourcePostureChecks hq
  have hd' : _ ↔ Q ≠ T ∧ nmd.InDestination env rule Q :=
    mem_getSidePeers_account T zone h rule.destinationResource rule.destinations [] hq
  unfold policyRuleCalls
  rw [mem_ruleCalls]
  cases d with
  | IN => simp only [Connects, Permits, true_and, hs, hd, hs', hd', and_or_left,
      and_left_comm (a := Q ≠ T)]
  | OUT => simp only [Connects, Permits, true_and, hs, hd, hs', hd', and_or_left,
      and_left_comm (a := Q ≠ T)]

theorem peer_of_mem_connCalls (hx : x ∈ (nmd.accountComponents env T zone).connCalls T) :
    nmd.peers.lookup x.peer.id = some x.peer := by
  obtain ⟨pid, hi⟩ := exists_peer_of_mem_connCalls hx
  have hl := (getPeerInfo_account.1 hi).2
  rwa [h.peer_id pid x.peer hl]

/-- A rule with the address of a peer is about that peer. -/
theorem lookup_of_address (hd : nmd.AddressesDistinct)
    (hx : x ∈ (nmd.accountComponents env T zone).connCalls T) (hq : nmd.peers.lookup Q = some q)
    (hip : q.ip.string ∈ x.addresses target) : x.peer = q := by
  have hp := peer_of_mem_connCalls h hx
  have hid : Q = x.peer.id := by
    refine hd Q q x.peer.id x.peer hq hp ?_
    rcases mem_cons.1 hip with hip | hip
    · exact .inl hip
    · split at hip
      · cases hip
      · rename_i hv
        simp only [Bool.or_eq_true, Bool.not_eq_true', not_or, Bool.not_eq_false] at hv
        exact .inr ⟨hv.1.1, mem_singleton.1 hip⟩
  rw [← hid, hq] at hp
  exact (Option.some.inj hp).symm

omit h in
theorem mem_addresses {ip : String} (hip : ip ∈ x.addresses target) :
    ip ∈ [x.peer.ip.string, x.peer.ipv6.string] := by
  unfold addresses at hip
  split at hip
  · rw [mem_singleton.1 hip]
    exact mem_cons_self
  · exact hip

/-- A call that has the text of a rule and an address of a peer is one of the rule. -/
theorem call_of_text (his : nmd.RuleIDsUnambiguous) {pol : Policy} (hp : pol ∈ nmd.policies)
    {rule : PolicyRule} (hr : rule ∈ pol.rules) (hq : nmd.peers.lookup Q = some q)
    (hx : x ∈ (nmd.accountComponents env T zone).connCalls T) {ip ip' : String}
    (hip : ip ∈ x.addresses target) (hip' : ip' ∈ [q.ip.string, q.ipv6.string])
    (hpre : (x.rule.id ++ ip).toList <+: (rule.id ++ ip').toList ∨
      (rule.id ++ ip').toList <+: (x.rule.id ++ ip).toList) :
    (pol.enabled ∧ rule.enabled) ∧
      x ∈ (nmd.accountComponents env T zone).policyRuleCalls T (pol, rule) ∧ x.rule = rule := by
  have hpee := peer_of_mem_connCalls h hx
  obtain ⟨⟨pol', rule'⟩, hpr, hc⟩ := mem_flatMap.1 hx
  obtain ⟨hp', hpe', hr', hre'⟩ := mem_enabledRules.1 hpr
  have hxr : x.rule = rule' := (mem_ruleCalls.1 hc).1
  have heq : pol' = pol ∧ rule' = rule := by
    rcases hpre with hpre | hpre
    · exact his pol' hp' rule' hr' pol hp rule hr _ _ _ _ hpee hq ip
        (mem_addresses hip) ip' hip' (hxr ▸ hpre)
    · obtain ⟨e1, e2⟩ := his pol hp rule hr pol' hp' rule' hr' _ _ _ _ hq hpee ip'
        hip' ip (mem_addresses hip) (hxr ▸ hpre)
      exact ⟨e1.symm, e2.symm⟩
  obtain ⟨rfl, rfl⟩ := heq
  exact ⟨⟨hpe', hre'⟩, hc, hxr⟩

/-- The firewall rules over the account: one for a policy rule, an address and a direction exactly
when the rule says so. -/
theorem account_firewallRules_iff (hall : ∀ p ∈ [T, Q], AllHolds nmd.groups p)
    (his : nmd.RuleIDsUnambiguous) (had : nmd.AddressesDistinct)
    (ht : (nmd.accountComponents env T zone).getPeerInfo T = some target) {pol : Policy}
    (hp : pol ∈ nmd.policies) {rule : PolicyRule} (hr : rule ∈ pol.rules)
    (hq : nmd.peers.lookup Q = some q) (d : Direction)
    (hne : rulesForAddress env (baseRule rule q.ip.string d) rule target ≠ []) :
    (∃ fr ∈ ((nmd.accountComponents env T zone).getPeerConnectionResources env T).resources.rules,
      fr.policyID = rule.id ∧ fr.peerIP = q.ip.string ∧ fr.direction = d) ↔
    pol.enabled ∧ rule.enabled ∧ Q ≠ T ∧ nmd.Allows env pol rule T Q d := by
  obtain ⟨-, hs, hk⟩ := connSpec env ht
  have hcl : ⟨rule, d, q⟩ ∈ (nmd.accountComponents env T zone).policyRuleCalls T (pol, rule) ↔
      Q ≠ T ∧ nmd.Allows env pol rule T Q d :=
    (mem_policyRuleCalls_account zone h hq).trans <| and_congr_right fun _ =>
      permits_congr fun p hp => ⟨inSource_iff h (hall p hp), inDestination_iff (hall p hp)⟩
  constructor
  · rintro ⟨fr, hfr, hid, hpI, hd⟩
    obtain ⟨x, hx, ip, hip, hm⟩ := hs.rules_sound fr hfr
    obtain ⟨hid', hip', hd'⟩ := sameOrigin_rulesAt hm
    have hi : ip = q.ip.string := hip'.symm.trans hpI
    subst hi
    have hsm : (x.rule.id ++ q.ip.string).toList <+: (rule.id ++ q.ip.string).toList := by
      exact ⟨[], by rw [append_nil, hid'.symm.trans hid]⟩
    obtain ⟨⟨hpe, hre⟩, hc, hxr⟩ := call_of_text h his hp hr hq hx hip mem_cons_self (.inl hsm)
    have hxq := lookup_of_address h had hx hq hip
    have hx' : x = ⟨rule, d, q⟩ := by
      obtain ⟨xr, xd, xp⟩ := x
      simp_all
    rw [hx'] at hc
    exact ⟨hpe, hre, hcl.1 hc⟩
  · rintro ⟨hpe, hre, ha⟩
    have hc := hcl.2 ha
    have hx := mem_flatMap.2 ⟨(pol, rule), mem_enabledRules.2 ⟨hp, hpe, hr, hre⟩, hc⟩
    obtain ⟨y, hy, ip, hip, hky, hrl⟩ := hs.key_sound _ (hk _ hx)
    obtain ⟨-, -, hyr⟩ :=
      call_of_text h his hp hr hq hy hip mem_cons_self (prefix_of_ruleKey_eq hky)
    obtain ⟨hi, hd⟩ : ip = q.ip.string ∧ y.direction = d := by
      unfold key at hky
      rw [hyr] at hky
      exact ruleKey_injective hky
    obtain ⟨fr, hfr⟩ := exists_mem_of_ne_nil _ hne
    have hfr' : fr ∈ y.rulesAt env target ip := by
      unfold rulesAt
      rwa [hyr, hi, hd]
    obtain ⟨h1, h2, h3⟩ := sameOrigin_rulesAt hfr'
    exact ⟨fr, hrl hfr', h1.trans (by rw [hyr]), h2.trans hi, h3.trans hd⟩

end

/-! ### The calculated network map -/

/-- The rules over the slice are those over the account. -/
theorem firewallRules_calculate (t : nmd.Target env) : (t.slice.calculate env).firewallRules =
    (t.account.getPeerConnectionResources env t.id).resources.rules := by
  unfold calculate
  dsimp only
  rw [peerID_slice t, connections_slice t]

/-- The network map of a validated peer has a firewall rule for a policy rule, the address of
another peer and a direction exactly when the policies say so. -/
theorem firewallRules_iff (nmd : NetworkMapData) (env : Env) (T : String) (zone : CustomZone)
    (h : nmd.WellFormed env) (hall : AllHolds nmd.groups T)
    (hids : nmd.injectProxyPolicies.RuleIDsUnambiguous) (haddr : nmd.AddressesDistinct)
    (target : Peer) (htarget : nmd.peers.lookup T = some target) (hval : nmd.isValidated T)
    (policy : Policy)
    (hpolicy : policy ∈ nmd.injectProxyPolicies.policies) (rule : PolicyRule)
    (hrule : rule ∈ policy.rules) (Q : String) (q : Peer) (hq : nmd.peers.lookup Q = some q)
    (hallQ : AllHolds nmd.groups Q) (d : Direction)
    (hne : rulesForAddress env (baseRule rule q.ip.string d) rule target ≠ []) :
    (∃ fr ∈ ((nmd.getPeerNetworkMapComponents env T zone).calculate env).firewallRules,
      fr.policyID = rule.id ∧ fr.peerIP = q.ip.string ∧ fr.direction = d) ↔
    policy.enabled ∧ rule.enabled ∧ Q ≠ T ∧ nmd.Allows env policy rule T Q d := by
  -- adding the reverse-proxy policies leaves peers, groups and checks alone
  let t : nmd.Target env := ⟨T, target, zone, h, htarget, hval, hall⟩
  have hq' : nmd.injectProxyPolicies.peers.lookup Q = some q := by
    rw [injectProxy_eq]
    exact hq
  have ha' : nmd.injectProxyPolicies.AddressesDistinct := by
    rw [injectProxy_eq]
    exact haddr
  have ha : nmd.injectProxyPolicies.Allows env policy rule T Q d ↔
      nmd.Allows env policy rule T Q d := by
    rw [injectProxy_eq]
    cases d <;> exact Iff.rfl
  rw [t.components_eq, firewallRules_calculate, ← ha]
  have hal : ∀ p ∈ [T, Q], AllHolds nmd.injectProxyPolicies.groups p := by
    rw [injectProxy_eq]
    simp [hall, hallQ]
  exact account_firewallRules_iff h.inject hal hids ha' t.inject.getPeerInfo_self hpolicy hrule hq' d
    hne

/-! ### A group of all peers that leaves one out -/

variable (all : List String)

/-- A rule from the group of all peers and another group, whose member may be missing in the group
of all peers. -/
def allGroupAccount : NetworkMapData where
  peers := (AList.insert "client" { id := "client", key := "k1", ip := .from4 100 64 0 1 }
    ∅).insert "server" { id := "server", key := "k2", ip := .from4 100 64 0 2 }
  groups := ((AList.insert "all" { id := "all", name := "All", peers := all } ∅).insert
    "clients" { id := "clients", peers := ["client"] }).insert
    "servers" { id := "servers", peers := ["server"] }
  policies := [{ id := "p", rules :=
    [{ id := "r", sources := ["all", "clients"], destinations := ["servers"] }] }]
  validatedPeers := ["client", "server"]

/-- The rule of `allGroupAccount`. -/
def allGroupRule : PolicyRule :=
  { id := "r", sources := ["all", "clients"], destinations := ["servers"] }

theorem addressesDistinct_allGroupAccount : (allGroupAccount all).AddressesDistinct := by
  intro id q id' q' hq hq'
  have hd : ∀ e ∈ (allGroupAccount []).peers.entries, ∀ e' ∈ (allGroupAccount []).peers.entries,
      e.2.ip.string = e'.2.ip.string ∨ (e'.2.ipv6.isValid ∧ e.2.ip.string = e'.2.ipv6.string) →
        e.1 = e'.1 := by decide +kernel
  exact hd ⟨id, q⟩ (mem_lookup_iff.1 hq) ⟨id', q'⟩ (mem_lookup_iff.1 hq')

theorem ruleIDsUnambiguous_allGroupAccount :
    (allGroupAccount all).injectProxyPolicies.RuleIDsUnambiguous := by
  have hn : (allGroupAccount all).injectedPolicies = [] := rfl
  rw [injectProxy_eq, hn]
  intro policy hp rule hr policy' hp' rule' hr' id q id' q' _ _ ip _ ip' _ _
  obtain rfl := mem_singleton.1 hp
  obtain rfl := mem_singleton.1 hp'
  exact ⟨rfl, (mem_singleton.1 hr).trans (mem_singleton.1 hr').symm⟩

theorem allows_allGroupAccount :
    (allGroupAccount all).Allows plain { id := "p", rules := [allGroupRule] } allGroupRule
      "server" "client" .IN := by
  have hv : (allGroupAccount all).isValidated "server" ∧
      (allGroupAccount all).isValidated "client" := by
    simp [isValidated, allGroupAccount]
  refine .inl ⟨⟨(mem_insert _).2 (.inl rfl), hv.1, ?_⟩,
    (mem_insert _).2 (.inr ((mem_insert _).2 (.inl rfl))), hv.2, ?_, by simp⟩
  · exact ⟨"servers", mem_singleton.2 rfl, _, lookup_insert _, by simp⟩
  · refine ⟨"clients", by simp [allGroupRule], { id := "clients", peers := ["client"] }, ?_, by simp⟩
    rw [allGroupAccount, lookup_insert_ne (by decide), lookup_insert]

/-- A group of all peers that leaves a peer out hides the other groups listed with it. -/
theorem all_group_hides_listed_group : (allGroupAccount []).injectProxyPolicies.RuleIDsUnambiguous ∧
      (allGroupAccount []).AddressesDistinct ∧
      (allGroupAccount []).Allows plain { id := "p", rules := [allGroupRule] } allGroupRule
        "server" "client" .IN ∧
      rulesForAddress plain (baseRule allGroupRule "100.64.0.1" .IN) allGroupRule
        { id := "server", key := "k2", ip := .from4 100 64 0 2 } ≠ [] ∧
      (((allGroupAccount []).getPeerNetworkMapComponents plain "server" {}).calculate
        plain).firewallRules = [] :=
  ⟨ruleIDsUnambiguous_allGroupAccount [], addressesDistinct_allGroupAccount [],
    allows_allGroupAccount [], cons_ne_nil _ _, by decide +kernel⟩

theorem firewallRules_allGroupAccount :
    ∃ fr ∈ (((allGroupAccount ["client", "server"]).getPeerNetworkMapComponents plain "server"
      {}).calculate plain).firewallRules,
      fr.policyID = "r" ∧ fr.peerIP = "100.64.0.1" ∧ fr.direction = .IN := by
  have hwf : (allGroupAccount ["client", "server"]).WellFormed plain := by
    refine ⟨forall_of_entries (by decide +kernel), notMem_empty "", fun checkID p peer valid _ hc => ?_⟩
    simp [allGroupAccount, cachedPostureCheckResult] at hc
  have hall (p : String) (hp : p ∈ ["client", "server"]) :
      AllHolds (allGroupAccount ["client", "server"]).groups p := by
    have hcv : ∀ e ∈ (allGroupAccount ["client", "server"]).groups.entries, e.2.isGroupAll →
        e.2.peers = ["client", "server"] := by decide +kernel
    intro gid g hg ha _ _ _ _
    rw [hcv ⟨gid, g⟩ (mem_lookup_iff.1 hg) ha]
    exact hp
  have hcl : (allGroupAccount ["client", "server"]).peers.lookup "client" =
      some { id := "client", key := "k1", ip := .from4 100 64 0 1 } := by decide +kernel
  exact (firewallRules_iff _ plain "server" {} hwf (hall _ (by simp))
    (ruleIDsUnambiguous_allGroupAccount _) (addressesDistinct_allGroupAccount _)
    { id := "server", key := "k2", ip := .from4 100 64 0 2 } (by decide +kernel)
    (by decide +kernel) { id := "p", rules := [allGroupRule] } mem_cons_self allGroupRule
    mem_cons_self "client" _ hcl (hall _ (by simp)) .IN (cons_ne_nil _ _)).2
    ⟨rfl, rfl, by decide, allows_allGroupAccount _⟩

end NetworkMapData

end Cloink
