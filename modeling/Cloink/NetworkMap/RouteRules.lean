import Cloink.NetworkMap.SliceConnections

/-!
# Firewall rules of routes

The peers a rule lets reach a route, in terms of the members of its source groups, and when two
components agree on them.
-/

namespace Cloink

open List

/-- The policy has one rule, which names its sources directly or by groups. New rules are stored
under the id of their policy, so that a policy keeps one, and the handler refuses a rule with both
kinds of sources. -/
def Policy.SingleRule (policy : Policy) : Prop :=
  ∃ rule, policy.rules = [rule] ∧ (rule.sourceResource.isPeer → rule.sources = [])

namespace NetworkMapComponents

variable (c : NetworkMapComponents)

def groupMembers (gid : String) : List String := (c.getGroupInfo gid).elim [] (·.peers)

/-- The ids of the peers a rule lets reach a route. -/
def rulePeerIDs (rule : PolicyRule) (checks : List String) (P : String) (dist : List String) :
    List String :=
  let admitted (q : String) : Bool := dist.contains q && c.validatePostureChecksOnPeer q checks
  let fromGroups := rule.sources.foldl (fun peers gid =>
    peers.insertAll ((c.groupMembers gid).filter fun q => q ≠ P && admitted q)) []
  if rule.sourceResource.isPeer && admitted rule.sourceResource.id then
    fromGroups.insertAll [rule.sourceResource.id] else fromGroups

theorem getRulePeers_eq (rule : PolicyRule) (cks : List String) (P : String)
    (dist : List String) : c.getRulePeers rule cks P dist =
      (c.rulePeerIDs rule cks P dist).filterMap c.getPeerInfo := rfl

variable {c}

variable {q : String}

theorem mem_foldl_groupMembers {f : String → List String} (l acc : List String) :
    q ∈ l.foldl (fun peers gid => peers.insertAll (f gid)) acc ↔ q ∈ acc ∨ ∃ gid ∈ l, q ∈ f gid :=
  foldl_iff_exists (p := fun peers : List String => q ∈ peers) (q := fun gid => q ∈ f gid)
    (fun _ _ => mem_insertAll) l acc

theorem validate_of_mem_rulePeerIDs {rule : PolicyRule} {cks : List String} {P : String}
    {dist : List String} (hq : q ∈ c.rulePeerIDs rule cks P dist) :
    c.validatePostureChecksOnPeer q cks := by
  have hg (h : q ∈ rule.sources.foldl (fun peers gid => peers.insertAll ((c.groupMembers
      gid).filter fun q => q ≠ P && (dist.contains q && c.validatePostureChecksOnPeer q cks))) []) :
      c.validatePostureChecksOnPeer q cks := by
    obtain h | ⟨gid, -, h⟩ := (mem_foldl_groupMembers _ _).1 h
    · cases h
    · simp only [mem_filter, Bool.and_eq_true] at h
      exact h.2.2.2
  unfold rulePeerIDs at hq
  dsimp only at hq
  split at hq
  · rename_i hd
    rcases mem_insertAll.1 hq with h | h
    · exact hg h
    · rw [mem_singleton.1 h]
      simp only [Bool.and_eq_true] at hd
      exact hd.2.2
  · exact hg hq

/-- The peers a rule names as sources. -/
def Names (c : NetworkMapComponents) (rule : PolicyRule) (q : String) : Prop :=
  (∃ gid ∈ rule.sources, q ∈ c.groupMembers gid) ∨
    (rule.sourceResource.isPeer = true ∧ q = rule.sourceResource.id)

/-- Two components let the same peers reach a route when they agree on which of the peers a rule
names are admitted; the groups of one of them may have lost peers it does not admit. -/
theorem getRulePeers_congr {c c' : NetworkMapComponents} {rule : PolicyRule} {cks : List String}
    {P : String} {dist dist' : List String} {keep : String → Bool}
    (hg : ∀ gid ∈ rule.sources, c.groupMembers gid = (c'.groupMembers gid).filter keep)
    (hk : ∀ q, dist.contains q → c.validatePostureChecksOnPeer q cks → keep q)
    (ha : ∀ q, c'.Names rule q → (dist.contains q && c.validatePostureChecksOnPeer q cks) =
        (dist'.contains q && c'.validatePostureChecksOnPeer q cks))
    (hi : ∀ q, c.validatePostureChecksOnPeer q cks →
      c'.validatePostureChecksOnPeer q cks → c.getPeerInfo q = c'.getPeerInfo q) :
    c.getRulePeers rule cks P dist = c'.getRulePeers rule cks P dist' := by
  have hid : c.rulePeerIDs rule cks P dist = c'.rulePeerIDs rule cks P dist' := by
    have hf : rule.sources.foldl (fun peers gid => peers.insertAll ((c.groupMembers gid).filter
          fun q => q ≠ P && (dist.contains q && c.validatePostureChecksOnPeer q cks))) [] =
        rule.sources.foldl (fun peers gid => peers.insertAll ((c'.groupMembers gid).filter
          fun q => q ≠ P && (dist'.contains q && c'.validatePostureChecksOnPeer q cks))) [] := by
      refine foldl_ext _ _ _ fun peers gid hgd => congrArg peers.insertAll ?_
      rw [hg gid hgd, filter_filter]
      refine filter_congr fun q hq => ?_
      rw [ha q (.inl ⟨gid, hgd, hq⟩)]
      cases hv : (dist'.contains q && c'.validatePostureChecksOnPeer q cks) with
      | false => simp
      | true =>
        rw [← ha q (.inl ⟨gid, hgd, hq⟩)] at hv
        rw [hk q (Bool.and_eq_true_iff.1 hv).1 (Bool.and_eq_true_iff.1 hv).2, Bool.and_true]
    unfold rulePeerIDs
    dsimp only
    rw [hf]
    cases hp : rule.sourceResource.isPeer with
    | false => rfl
    | true => simp only [ha rule.sourceResource.id (.inr ⟨hp, rfl⟩)]
  rw [getRulePeers_eq, getRulePeers_eq, hid]
  refine filterMap_congr fun q hq => hi q ?_ (validate_of_mem_rulePeerIDs hq)
  rw [← hid] at hq
  exact validate_of_mem_rulePeerIDs hq

theorem mem_distributionPeers {r : Route} :
    q ∈ c.getDistributionGroupsPeers r ↔ ∃ gid ∈ r.groups, q ∈ c.groupMembers gid :=
  (mem_foldl_groupMembers (f := c.groupMembers) r.groups []).trans (or_iff_right not_mem_nil)

theorem mem_policiesSources {pols : List Policy} : q ∈ c.getPoliciesSourcePeers pols ↔
      ∃ pol ∈ pols, ∃ rule ∈ pol.rules, c.Names rule q := by
  have hs (acc : List String) (rule : PolicyRule) :
      q ∈ (let sourcePeers := rule.sources.foldl (fun peers id =>
          peers.insertAll ((c.getGroupInfo id).elim [] (·.peers))) acc
        if rule.sourceResource.isPeer then sourcePeers.insertAll [rule.sourceResource.id]
        else sourcePeers) ↔ q ∈ acc ∨ c.Names rule q := by
    have hg := mem_foldl_groupMembers (f := c.groupMembers) (q := q) rule.sources acc
    split
    · rename_i hp
      rw [mem_insertAll, mem_singleton]
      exact (or_congr_left hg).trans (by simp [Names, hp, or_assoc])
    · rename_i hp
      exact hg.trans (by simp [Names, hp])
  unfold getPoliciesSourcePeers
  rw [foldl_iff_exists (p := fun acc => q ∈ acc) hs]
  simp only [not_mem_nil, false_or, mem_flatMap]
  exact ⟨fun ⟨rule, ⟨pol, hp, hr⟩, hn⟩ => ⟨pol, hp, rule, hr, hn⟩,
    fun ⟨pol, hp, rule, hr, hn⟩ => ⟨rule, ⟨pol, hp, hr⟩, hn⟩⟩

theorem mem_routePolicies {gid : String} {pol : Policy} :
    pol ∈ c.getAllRoutePoliciesFromGroups [gid] ↔
      pol ∈ c.policies ∧ ∃ rule ∈ pol.rules, gid ∈ rule.destinations := by
  simp only [getAllRoutePoliciesFromGroups, flatMap_cons, flatMap_nil, append_nil,
    mem_flatMap, mem_map, mem_filter, contains_iff_mem]
  constructor
  · rintro ⟨pol, hp, rule, hr, rfl⟩
    exact ⟨hp, rule, hr⟩
  · rintro ⟨hp, rule, hr⟩
    exact ⟨pol, hp, rule, hr, rfl⟩

theorem enabledRules_flatMap (l : List Policy) (f : Policy → List Policy) :
    enabledRules (l.flatMap f) = l.flatMap fun pol => enabledRules (f pol) := by
  simp [enabledRules, filter_flatMap, flatMap_assoc]

theorem enabledRules_routePolicies (gid : String) :
    enabledRules (c.getAllRoutePoliciesFromGroups [gid]) = c.policies.flatMap fun pol =>
      enabledRules ((pol.rules.filter (·.destinations.contains gid)).map fun _ => pol) := by
  simp [getAllRoutePoliciesFromGroups, enabledRules_flatMap]

/-- The firewall rules of the routes a peer serves, when it serves the same routes, the same rules
control the access to them, and these let in the same peers. -/
theorem routeRules_congr {c c' : NetworkMapComponents} {P : String}
    (hs : ∀ pol ∈ c'.policies, pol.SingleRule)
    (hrt : c.getRoutingPeerRoutes P = c'.getRoutingPeerRoutes P)
    (hrl : ∀ r ∈ (c'.getRoutingPeerRoutes P).1, ∀ ag ∈ r.accessControlGroups,
      enabledRules (c.getAllRoutePoliciesFromGroups [ag]) =
        enabledRules (c'.getAllRoutePoliciesFromGroups [ag]))
    (hp : ∀ r ∈ (c'.getRoutingPeerRoutes P).1, ∀ ag ∈ r.accessControlGroups,
      ∀ pol ∈ c.policies, pol ∈ c'.policies → pol.enabled → ∀ rule ∈ pol.rules,
      rule.enabled → ag ∈ rule.destinations → (rule.sourceResource.isPeer → rule.sources = []) →
        c.getRulePeers rule pol.sourcePostureChecks P (c.getDistributionGroupsPeers r) =
          c'.getRulePeers rule pol.sourcePostureChecks P (c'.getDistributionGroupsPeers r))
    (v6 : Bool) : c.getPeerRoutesFirewallRules P v6 = c'.getPeerRoutesFirewallRules P v6 := by
  unfold getPeerRoutesFirewallRules
  rw [hrt]
  refine flatMap_congr fun r hr => ?_
  split
  · rfl
  · refine flatMap_congr fun ag hag => ?_
    change (enabledRules (c.getAllRoutePoliciesFromGroups [ag])).flatMap _ =
      (enabledRules (c'.getAllRoutePoliciesFromGroups [ag])).flatMap _
    rw [← hrl r hr ag hag]
    refine flatMap_congr fun ⟨pol, rule⟩ hpr => congrArg (generateRouteFirewallRules r rule
      · v6) ?_
    obtain ⟨hk, -⟩ := mem_enabledRules.1 hpr
    rw [hrl r hr ag hag] at hpr
    obtain ⟨hm, hpe, hru, hre⟩ := mem_enabledRules.1 hpr
    obtain ⟨hpl, rule', hru', hd⟩ := mem_routePolicies.1 hm
    obtain ⟨rule'', ho, hex⟩ := hs pol hpl
    rw [ho, mem_singleton] at hru hru'
    subst hru hru'
    exact hp r hr ag hag pol (mem_routePolicies.1 hk).1 hpl hpe _ (by simp [ho]) hre hd hex

end NetworkMapComponents

end Cloink
