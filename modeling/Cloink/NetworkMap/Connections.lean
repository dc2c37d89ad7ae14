import Cloink.NetworkMap.Components

/-!
# Peers and firewall rules from policy rules

The generator of peers and firewall rules is called for one peer of a rule at a time, keeps the
ids of the peers it has returned, and keeps rules apart by identifiers that are concatenations of
strings. The calls that all rules of a peer's policies make are listed here, and the peers and
rules that such a list yields are described without the order of the calls.
-/

namespace Cloink

open List ConnResources

/-- One call of the generator: a peer of the other side of a rule. -/
structure ConnCall where
  rule : PolicyRule
  direction : Direction
  peer : Peer

namespace ConnCall

def addresses (x : ConnCall) (target : Peer) : List String :=
  x.peer.ip.string ::
    if !x.peer.ipv6.isValid || !target.supportsIPv6 || !target.ipv6.isValid then []
    else [x.peer.ipv6.string]

def key (x : ConnCall) (ip : String) : String := ruleKey x.rule ip x.direction

def rulesAt (env : Env) (target : Peer) (x : ConnCall) (ip : String) : List FirewallRule :=
  rulesForAddress env (baseRule x.rule ip x.direction) x.rule target

theorem ip_mem_addresses (x : ConnCall) (target : Peer) : x.peer.ip.string ∈ x.addresses target :=
  mem_cons_self

end ConnCall

/-! ### The rules for an address -/

/-- Two firewall rules of one policy rule, address and direction. -/
def FirewallRule.SameOrigin (a b : FirewallRule) : Prop :=
  a.policyID = b.policyID ∧ a.peerIP = b.peerIP ∧ a.direction = b.direction

theorem FirewallRule.SameOrigin.refl (a : FirewallRule) : a.SameOrigin a := ⟨rfl, rfl, rfl⟩

variable {base : FirewallRule}

private theorem sameOrigin_addNativeSSHRule {l : List FirewallRule}
    (h : ∀ fr ∈ l, fr.SameOrigin base) : ∀ fr ∈ addNativeSSHRule base l, fr.SameOrigin base := by
  unfold addNativeSSHRule
  split_ifs
  · exact h
  · intro fr hfr
    rcases mem_append.1 hfr with hfr | hfr
    · exact h fr hfr
    · rw [mem_singleton.1 hfr]
      exact ⟨rfl, rfl, rfl⟩
  · exact h

private theorem sameOrigin_expandPortRange {portRanges : Bool} {fr : FirewallRule}
    {pr : RulePortRange} (h : expandPortRange portRanges base pr = some fr) :
    fr.SameOrigin base := by
  unfold expandPortRange at h
  split_ifs at h
  · cases h
    exact ⟨rfl, rfl, rfl⟩
  · cases h
    exact ⟨rfl, rfl, rfl⟩

/-- The rules for an address have its id, address and direction. -/
theorem sameOrigin_rulesForAddress {env : Env} {rule : PolicyRule} {target : Peer} :
    ∀ fr ∈ rulesForAddress env base rule target, fr.SameOrigin base := by
  have he : ∀ fr ∈ (if rule.ports.isEmpty then rule.portRanges.filterMap (expandPortRange
        (peerSupportedFirewallFeatures env target.sysMeta.wtVersion).portRanges base)
      else rule.ports.map fun port => { base with port }), fr.SameOrigin base := by
    intro fr hfr
    split_ifs at hfr
    · obtain ⟨pr, -, hpr⟩ := mem_filterMap.1 hfr
      exact sameOrigin_expandPortRange hpr
    · obtain ⟨port, -, rfl⟩ := mem_map.1 hfr
      exact ⟨rfl, rfl, rfl⟩
  unfold rulesForAddress
  split
  · intro fr hfr
    rw [mem_singleton.1 hfr]
    exact FirewallRule.SameOrigin.refl base
  · unfold expandPortsAndRanges
    dsimp only
    split
    · exact sameOrigin_addNativeSSHRule he
    · exact he

theorem ConnCall.sameOrigin_rulesAt {env : Env} {target : Peer} {x : ConnCall} {ip : String}
    {fr : FirewallRule} (h : fr ∈ x.rulesAt env target ip) :
    fr.policyID = x.rule.id ∧ fr.peerIP = ip ∧ fr.direction = x.direction :=
  sameOrigin_rulesForAddress fr h

/-! ### The generator -/

namespace ConnResources

variable {env : Env} {target : Peer}

def generateCall (env : Env) (target : Peer) (st : ConnResources) (x : ConnCall) : ConnResources :=
  st.generateForPeer env target x.rule x.direction x.peer

/-- The peers accumulated by the calls made so far. -/
structure PeersSpec (done : List ConnCall) (st : ConnResources) : Prop where
  exists_iff : ∀ id, id ∈ st.peersExists ↔ ∃ q ∈ st.peers, q.id = id
  sound : ∀ q ∈ st.peers, ∃ x ∈ done, x.peer = q
  complete : ∀ x ∈ done, ∃ q ∈ st.peers, q.id = x.peer.id

/-- The rules accumulated by the calls made so far. -/
structure RulesSpec (env : Env) (target : Peer) (done : List ConnCall) (st : ConnResources) :
    Prop where
  key_sound : ∀ k ∈ st.rulesExists, ∃ x ∈ done, ∃ ip ∈ x.addresses target, x.key ip = k ∧
    x.rulesAt env target ip ⊆ st.rules
  rules_sound : ∀ fr ∈ st.rules, ∃ x ∈ done, ∃ ip ∈ x.addresses target, fr ∈ x.rulesAt env target ip

variable (st : ConnResources)

theorem addPeer_rules (q : Peer) : (st.addPeer q).rules = st.rules ∧
    (st.addPeer q).rulesExists = st.rulesExists := by
  unfold addPeer
  split <;> exact ⟨rfl, rfl⟩

variable (x : ConnCall)

variable (env target) in
/-- An address is added under a new identifier only. -/
theorem addAddress_cases (ip : String) :
    (x.key ip ∈ st.rulesExists ∧ st.addAddress env target x.rule x.direction ip = none) ∨
    (x.key ip ∉ st.rulesExists ∧ st.addAddress env target x.rule x.direction ip = some
      { st with
        rulesExists := x.key ip :: st.rulesExists
        rules := st.rules ++ x.rulesAt env target ip }) := by
  by_cases h : x.key ip ∈ st.rulesExists
  · exact .inl ⟨h, if_pos h⟩
  · exact .inr ⟨h, if_neg h⟩

variable (env target) in
theorem appendIPv6_cases : st.appendIPv6FirewallRule env target x.rule x.direction x.peer = st ∨
    ∃ ip ∈ x.addresses target, st.appendIPv6FirewallRule env target x.rule x.direction x.peer =
      (st.addAddress env target x.rule x.direction ip).getD st := by
  unfold appendIPv6FirewallRule ConnCall.addresses
  split
  · exact .inl rfl
  · exact .inr ⟨x.peer.ipv6.string, by simp, rfl⟩

section

variable {done : List ConnCall} {st : ConnResources}

theorem PeersSpec.congr (h : PeersSpec done st) {st' : ConnResources} (hp : st'.peers = st.peers)
    (he : st'.peersExists = st.peersExists) : PeersSpec done st' where
  exists_iff id := by rw [he, hp]; exact h.exists_iff id
  sound q hq := h.sound q (hp ▸ hq)
  complete x hx := by rw [hp]; exact h.complete x hx

/-- A peer is listed once. -/
theorem PeersSpec.addPeer (h : PeersSpec done st) (x : ConnCall) :
    PeersSpec (done ++ [x]) (st.addPeer x.peer) := by
  have hs : ∀ q ∈ st.peers, ∃ y ∈ done ++ [x], y.peer = q := fun q hq => by
    obtain ⟨y, hy, he⟩ := h.sound q hq
    exact ⟨y, mem_append_left _ hy, he⟩
  unfold ConnResources.addPeer
  split
  · rename_i hm
    refine ⟨h.exists_iff, hs, fun y hy => ?_⟩
    rcases mem_append.1 hy with hy | hy
    · exact h.complete y hy
    · rw [mem_singleton.1 hy]
      exact (h.exists_iff _).1 hm
  · refine ⟨fun id => ?_, fun q hq => ?_, fun y hy => ?_⟩
    · simp only [mem_cons, h.exists_iff, mem_append, not_mem_nil, or_false]
      constructor
      · rintro (rfl | ⟨q, hq, he⟩)
        · exact ⟨x.peer, .inr rfl, rfl⟩
        · exact ⟨q, .inl hq, he⟩
      · rintro ⟨q, hq | rfl, he⟩
        · exact .inr ⟨q, hq, he⟩
        · exact .inl he.symm
    · rcases mem_append.1 hq with hq | hq
      · exact hs q hq
      · exact ⟨x, by simp, (mem_singleton.1 hq).symm⟩
    · rcases mem_append.1 hy with hy | hy
      · obtain ⟨q, hq, he⟩ := h.complete y hy
        exact ⟨q, mem_append_left _ hq, he⟩
      · exact ⟨x.peer, by simp, by rw [mem_singleton.1 hy]⟩

end

/-- The rules for an address, unless its identifier is used. -/
def withAddress (env : Env) (target : Peer) (x : ConnCall) (st : ConnResources) (ip : String) :
    ConnResources :=
  (st.addAddress env target x.rule x.direction ip).getD st

variable (env target) in
theorem generateCall_cases : st.generateCall env target x =
      (st.addPeer x.peer).withAddress env target x x.peer.ip.string ∨
    ∃ ip ∈ x.addresses target, st.generateCall env target x =
      ((st.addPeer x.peer).withAddress env target x x.peer.ip.string).withAddress env target x
        ip := by
  unfold generateCall generateForPeer withAddress
  dsimp only
  cases (st.addPeer x.peer).addAddress env target x.rule x.direction x.peer.ip.string with
  | none => exact .inl rfl
  | some st4 => exact appendIPv6_cases env target st4 x

variable (env target) in
theorem withAddress_peers (ip : String) : (st.withAddress env target x ip).peers = st.peers ∧
      (st.withAddress env target x ip).peersExists = st.peersExists := by
  unfold withAddress
  rcases addAddress_cases env target st x ip with ⟨-, heq⟩ | ⟨-, heq⟩
  · rw [heq]
    exact ⟨rfl, rfl⟩
  · rw [heq]
    exact ⟨rfl, rfl⟩

variable (env target) in
theorem generateCall_peers : (st.generateCall env target x).peers = (st.addPeer x.peer).peers ∧
      (st.generateCall env target x).peersExists = (st.addPeer x.peer).peersExists := by
  obtain ⟨hp, he⟩ := withAddress_peers env target (st.addPeer x.peer) x x.peer.ip.string
  rcases generateCall_cases env target st x with heq | ⟨ip, -, heq⟩
  · rw [heq]
    exact ⟨hp, he⟩
  · rw [heq]
    obtain ⟨hp', he'⟩ := withAddress_peers env target
      ((st.addPeer x.peer).withAddress env target x x.peer.ip.string) x ip
    exact ⟨hp'.trans hp, he'.trans he⟩

section

variable {done : List ConnCall} {st : ConnResources}

variable (h : RulesSpec env target done st)

include h

theorem RulesSpec.congr {st' : ConnResources}
    (hr : st'.rules = st.rules) (he : st'.rulesExists = st.rulesExists)
    {done' : List ConnCall} (hd : done ⊆ done') : RulesSpec env target done' st' where
  key_sound k hk := by
    obtain ⟨x, hx, ip, hip, hky, hrl⟩ := h.key_sound k (he ▸ hk)
    exact ⟨x, hd hx, ip, hip, hky, hr ▸ hrl⟩
  rules_sound fr hfr := by
    obtain ⟨x, hx, ip, hip, hm⟩ := h.rules_sound fr (hr ▸ hfr)
    exact ⟨x, hd hx, ip, hip, hm⟩

/-- The rules of an address are there once it was added. -/
theorem RulesSpec.withAddress {x : ConnCall} (hx : x ∈ done)
    {ip : String} (hip : ip ∈ x.addresses target) :
    RulesSpec env target done (st.withAddress env target x ip) ∧
      st.rulesExists ⊆ (st.withAddress env target x ip).rulesExists ∧
      x.key ip ∈ (st.withAddress env target x ip).rulesExists := by
  unfold ConnResources.withAddress
  rcases addAddress_cases env target st x ip with ⟨hk, heq⟩ | ⟨-, heq⟩
  · rw [heq]
    exact ⟨h, List.Subset.refl _, hk⟩
  · rw [heq]
    refine ⟨⟨fun k hk => ?_, fun fr hfr => ?_⟩, subset_cons_self _ _, mem_cons_self⟩
    · rcases mem_cons.1 hk with rfl | hk
      · exact ⟨x, hx, ip, hip, rfl, subset_append_right _ _⟩
      · obtain ⟨y, hy, a, ha, hky, hr⟩ := h.key_sound k hk
        exact ⟨y, hy, a, ha, hky, subset_append_of_subset_left _ hr⟩
    · rcases mem_append.1 hfr with hfr | hfr
      · exact h.rules_sound fr hfr
      · exact ⟨x, hx, ip, hip, hfr⟩

/-- One call adds the rules of both addresses. -/
theorem RulesSpec.generateCall (x : ConnCall) :
    RulesSpec env target (done ++ [x]) (st.generateCall env target x) ∧
      st.rulesExists ⊆ (st.generateCall env target x).rulesExists ∧
      x.key x.peer.ip.string ∈ (st.generateCall env target x).rulesExists := by
  have hx : x ∈ done ++ [x] := by simp
  obtain ⟨hr, he⟩ := addPeer_rules st x.peer
  have hs : RulesSpec env target (done ++ [x]) (st.addPeer x.peer) :=
    h.congr hr he (subset_append_left _ _)
  obtain ⟨h4, hle, hk⟩ := hs.withAddress hx (x.ip_mem_addresses target)
  rw [he] at hle
  rcases generateCall_cases env target st x with heq | ⟨ip, hip, heq⟩
  · rw [heq]
    exact ⟨h4, hle, hk⟩
  · rw [heq]
    obtain ⟨h6, hl6, -⟩ := h4.withAddress hx hip
    exact ⟨h6, List.Subset.trans hle hl6, hl6 hk⟩

end

/-- All calls, by induction over them. -/
theorem foldl_generateCall_spec (calls done : List ConnCall) (st : ConnResources)
    (hp : PeersSpec done st) (hr : RulesSpec env target done st)
    (hk : ∀ x ∈ done, x.key x.peer.ip.string ∈ st.rulesExists) :
    PeersSpec (done ++ calls) (calls.foldl (generateCall env target) st) ∧
      RulesSpec env target (done ++ calls) (calls.foldl (generateCall env target) st) ∧
      ∀ x ∈ done ++ calls,
        x.key x.peer.ip.string ∈ (calls.foldl (generateCall env target) st).rulesExists := by
  induction calls generalizing done st with
  | nil => simpa using ⟨hp, hr, hk⟩
  | cons x calls ih =>
    obtain ⟨hr', hle, hky⟩ := hr.generateCall x
    obtain ⟨hpr, he⟩ := generateCall_peers env target st x
    have hk' : ∀ y ∈ done ++ [x],
        y.key y.peer.ip.string ∈ (st.generateCall env target x).rulesExists := by
      intro y hy
      rcases mem_append.1 hy with hy | hy
      · exact hle (hk y hy)
      · rwa [mem_singleton.1 hy]
    simpa using ih (done ++ [x]) _ ((hp.addPeer x).congr hpr he) hr' hk'

end ConnResources

/-! ### The calls of a peer's policies -/

namespace NetworkMapComponents

/-- The calls that one rule makes, from the peers of its two sides. -/
def ruleCalls (rule : PolicyRule) (source destination : List Peer × Bool) : List ConnCall :=
  let calls (cond : Bool) (peers : List Peer) (direction : Direction) : List ConnCall :=
    if cond then peers.map (ConnCall.mk rule direction) else []
  calls (rule.bidirectional && source.2) destination.1 .IN ++
    calls (rule.bidirectional && destination.2) source.1 .OUT ++
    calls source.2 destination.1 .OUT ++ calls destination.2 source.1 .IN

/-- The peer of a call is on one side of the rule and the target on the other. -/
def Connects (rule : PolicyRule) (source destination : List Peer × Bool) (q : Peer) :
    Direction → Prop
  | .IN => (destination.2 ∧ q ∈ source.1) ∨ (rule.bidirectional ∧ source.2 ∧ q ∈ destination.1)
  | .OUT => (source.2 ∧ q ∈ destination.1) ∨ (rule.bidirectional ∧ destination.2 ∧ q ∈ source.1)

theorem mem_ruleCalls {rule : PolicyRule} {source dst : List Peer × Bool} {x : ConnCall} :
    x ∈ ruleCalls rule source dst ↔
      x.rule = rule ∧ Connects rule source dst x.peer x.direction := by
  have hc {cond : Bool} {peers : List Peer} {d : Direction} :
      x ∈ (if cond then peers.map (ConnCall.mk rule d) else []) ↔
        cond ∧ x.rule = rule ∧ x.direction = d ∧ x.peer ∈ peers := by
    obtain ⟨r, e, q⟩ := x
    cases cond <;> simp [eq_comm, and_left_comm]
  simp only [ruleCalls, mem_append, hc]
  simp only [Bool.and_eq_true]
  cases x.direction <;> simp only [Connects, reduceCtorEq] <;> tauto

/-- The generator of a rule makes one call for each peer and direction. -/
theorem generateRule_eq (env : Env) (target : Peer) (rule : PolicyRule)
    (source dst : List Peer × Bool) (st : ConnResources) :
    generateRule env target rule source dst st =
      (ruleCalls rule source dst).foldl (generateCall env target) st := by
  have hg (st : ConnResources) (cond : Bool) (peers : List Peer) (d : Direction) :
      (if cond then st.generateResources env target rule peers d else st) =
        (if cond then peers.map (ConnCall.mk rule d) else []).foldl
          (generateCall env target) st := by
    cases cond with
    | false => rfl
    | true => simp [generateResources, foldl_map, generateCall]
  simp only [generateRule, ruleCalls, foldl_append, hg]

variable (c : NetworkMapComponents)

/-- The calls that one rule of a policy makes for the target. -/
def policyRuleCalls (targetPeerID : String) (pr : Policy × PolicyRule) : List ConnCall :=
  ruleCalls pr.2
    (c.getSidePeers pr.2.sourceResource pr.2.sources targetPeerID pr.1.sourcePostureChecks)
    (c.getSidePeers pr.2.destinationResource pr.2.destinations targetPeerID [])

/-- The calls that all policies make for the target. -/
def connCalls (targetPeerID : String) : List ConnCall :=
  (enabledRules c.policies).flatMap (c.policyRuleCalls targetPeerID)

theorem connectRule_resources (env : Env) (target : Peer) (targetPeerID : String)
    (st : PeerConnections) (pr : Policy × PolicyRule) :
    (c.connectRule env target targetPeerID pr.1.sourcePostureChecks st pr.2).resources =
      (c.policyRuleCalls targetPeerID pr).foldl (generateCall env target) st.resources := by
  have ha (st : PeerConnections) : (c.authorizeRule target pr.2 st).resources = st.resources := by
    unfold authorizeRule
    split_ifs <;> rfl
  rw [policyRuleCalls, ← generateRule_eq]
  unfold connectRule
  dsimp only
  split
  · rw [ha]
  · rfl

variable {c} {env : Env} {targetPeerID : String} {target : Peer}

theorem resources_eq (h : c.getPeerInfo targetPeerID = some target) :
    (c.getPeerConnectionResources env targetPeerID).resources =
      (c.connCalls targetPeerID).foldl (generateCall env target) {} := by
  have hl (l : List (Policy × PolicyRule)) (st : PeerConnections) :
      (l.foldl (fun st pr => c.connectRule env target targetPeerID pr.1.sourcePostureChecks st
        pr.2) st).resources =
        (l.flatMap (c.policyRuleCalls targetPeerID)).foldl
          (generateCall env target) st.resources := by
    induction l generalizing st with
    | nil => rfl
    | cons pr l ih =>
      rw [foldl_cons, ih, flatMap_cons, foldl_append, connectRule_resources]
  unfold getPeerConnectionResources connCalls
  rw [h]
  exact hl _ _

variable (env) in
/-- The peers and rules of the connections are those of the calls. -/
theorem connSpec (h : c.getPeerInfo targetPeerID = some target) :
    let st := (c.getPeerConnectionResources env targetPeerID).resources
    st.PeersSpec (c.connCalls targetPeerID) ∧ st.RulesSpec env target (c.connCalls targetPeerID) ∧
      ∀ x ∈ c.connCalls targetPeerID, x.key x.peer.ip.string ∈ st.rulesExists := by
  have hp : ConnResources.PeersSpec [] {} := ⟨by simp, by simp, by simp⟩
  have hr : ConnResources.RulesSpec env target [] {} := ⟨by simp, by simp⟩
  rw [resources_eq h]
  exact foldl_generateCall_spec (c.connCalls targetPeerID) [] {} hp hr (by simp)

theorem exists_peer_of_mem_connCalls {x : ConnCall} (hx : x ∈ c.connCalls targetPeerID) :
    ∃ pid, c.getPeerInfo pid = some x.peer := by
  have hs {res : Resource} {groups cks : List String}
      (hq : x.peer ∈ (c.getSidePeers res groups targetPeerID cks).1) :
      ∃ pid, c.getPeerInfo pid = some x.peer := by
    unfold getSidePeers getPeerFromResource getAllPeersFromGroups filterPolicyPeers at hq
    split at hq
    · obtain ⟨pid, -, hi⟩ := mem_filterMap.1 hq
      exact ⟨pid, hi⟩
    · obtain ⟨pid, -, hi⟩ := mem_filterMap.1 hq
      exact ⟨pid, hi⟩
  obtain ⟨pr, -, hx⟩ := mem_flatMap.1 hx
  have hc := (mem_ruleCalls.1 hx).2
  cases hd : x.direction with
  | IN =>
    rw [hd] at hc
    rcases hc with ⟨-, hq⟩ | ⟨-, -, hq⟩
    · exact hs hq
    · exact hs hq
  | OUT =>
    rw [hd] at hc
    rcases hc with ⟨-, hq⟩ | ⟨-, -, hq⟩
    · exact hs hq
    · exact hs hq

end NetworkMapComponents

end Cloink
