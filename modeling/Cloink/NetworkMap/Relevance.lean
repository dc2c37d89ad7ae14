import Cloink.NetworkMap.Admission

/-!
# What is relevant for a peer

The loops of `getPeersGroupsPoliciesRoutes` only add to the relevant peers, groups and failed
checks. Each rule that admits the peer on one side brings in the groups and the admitted peers of
the other side, and what one step brings in stays until the end.
-/

namespace Cloink

open AList List List.Subset AList.SetsLe Relevant

/-- More has been collected. -/
instance : Preorder Relevant where
  le a b :=
    (∀ p ∈ a.peers, p ∈ b.peers) ∧ (∀ g ∈ a.groups, g ∈ b.groups) ∧
      a.postureFailedPeers.SetsLe b.postureFailedPeers ∧ a.neededGroupIDs ⊆ b.neededGroupIDs ∧
      (a.needAllowedUserIDs → b.needAllowedUserIDs)
  le_refl a := ⟨fun _ h => h, fun _ h => h, refl _, refl _, id⟩
  le_trans a b c h h' := ⟨fun p hp => h'.1 p (h.1 p hp), fun g hg => h'.2.1 g (h.2.1 g hg),
    h.2.2.1.trans h'.2.2.1, List.Subset.trans h.2.2.2.1 h'.2.2.2.1,
    fun hn => h'.2.2.2.2 (h.2.2.2.2 hn)⟩

namespace Relevant

variable {a b : Relevant}

/-- What was collected is part of the account: validated peers, groups, and checks that did
fail. -/
structure Sound (nmd : NetworkMapData) (env : Env) (st : Relevant) : Prop where
  peers_sub : st.peers.Sub nmd.peers
  validated : ∀ p ∈ st.peers, nmd.isValidated p
  groups_sub : st.groups.Sub nmd.groups
  failed : ∀ id p, p ∈ st.postureFailedPeers.setAt id → nmd.FailsCheck env id p

/-- The parts that a rule leaves alone. -/
def frame (st : Relevant) : List Policy × List Route × List String :=
  (st.policies, st.routes, st.routeAccessControlGroups)

end Relevant

namespace NetworkMapData

variable (nmd : NetworkMapData) (env : Env)

/-! ### The steps of a rule -/

section

variable {nmd} (cond : Bool) (l : List String) (st : Relevant)

theorem mem_addGroupsIf_groups {g : String} : g ∈ (nmd.addGroupsIf cond l st).groups ↔
    g ∈ st.groups ∨ (cond ∧ g ∈ l ∧ g ∈ nmd.groups) := by
  cases cond <;> simp [addGroupsIf]

variable (nmd) in
theorem le_addGroupsIf : st ≤ nmd.addGroupsIf cond l st := by
  cases cond with
  | false => exact le_rfl
  | true =>
    exact ⟨fun _ h => h, fun g hg => mem_insertFrom.2 (.inl hg), refl _, refl _, id⟩

variable (nmd) in
theorem le_addPeersIf : st ≤ nmd.addPeersIf cond l st := by
  cases cond with
  | false => exact le_rfl
  | true =>
    exact ⟨fun p hp => mem_insertFrom.2 (.inl hp), fun _ h => h, refl _, refl _, id⟩

/-- The users a rule lets in over SSH come from the list of all allowed users. -/
def usesAllowedUsers (peerSSHEnabled : Bool) (rule : PolicyRule) : Bool :=
  if rule.protocol = policyRuleProtocolNetbirdSSH then
    rule.authorizedGroups.entries.isEmpty && rule.authorizedUser = ""
  else policyRuleImpliesLegacySSH rule && peerSSHEnabled

def usesUserGroups (rule : PolicyRule) : Bool :=
  rule.protocol = policyRuleProtocolNetbirdSSH && !rule.authorizedGroups.entries.isEmpty

theorem addSSHRequirements_eq (ssh : Bool) (rule : PolicyRule) (st : Relevant) :
    addSSHRequirements ssh rule st =
      { st with
        neededGroupIDs := if usesUserGroups rule then
          st.neededGroupIDs.insertAll rule.authorizedGroups.keys else st.neededGroupIDs
        needAllowedUserIDs := st.needAllowedUserIDs || usesAllowedUsers ssh rule } := by
  unfold addSSHRequirements usesUserGroups usesAllowedUsers
  by_cases hs : rule.protocol = policyRuleProtocolNetbirdSSH
  · by_cases hg : rule.authorizedGroups.entries.isEmpty
    · by_cases hu : rule.authorizedUser = "" <;> simp [hs, hg, hu]
    · simp [hs, hg]
  · by_cases hl : (policyRuleImpliesLegacySSH rule && ssh) = true
    · simp only [hs, ↓reduceIte, hl, Bool.or_true]
      simp
    · simp only [hs, ↓reduceIte, hl]
      simp

theorem le_addSSHRequirements (ssh : Bool) (rule : PolicyRule) (st : Relevant) :
    st ≤ addSSHRequirements ssh rule st := by
  rw [addSSHRequirements_eq]
  refine ⟨fun _ h => h, fun _ h => h, refl _, fun g hg => ?_, fun h => by simp [h]⟩
  split
  · exact mem_insertAll.2 (.inl hg)
  · exact hg

end

/-! ### One rule -/

/-- The peer is admitted on the source side of the rule. -/
def InSource (checks : List String) (rule : PolicyRule) (p : String) : Prop :=
  p ∈ sideIDs nmd.groups rule.sourceResource rule.sources ∧ nmd.Admits env checks p

/-- The peer is admitted on the destination side of the rule. -/
def InDestination (rule : PolicyRule) (p : String) : Prop :=
  p ∈ sideIDs nmd.groups rule.destinationResource rule.destinations ∧ nmd.Admits env [] p

/-- What the calculation for the peer needs of a rule has been collected. -/
structure RuleCovered (peerID : String) (ssh : Bool) (checks accessGroups : List String)
    (rule : PolicyRule) (st : Relevant) : Prop where
  access_groups : (∃ g ∈ rule.destinations, g ∈ accessGroups) →
    ∀ g ∈ rule.sources ++ rule.destinations, g ∈ nmd.groups → g ∈ st.groups
  dest_groups : nmd.InSource env checks rule peerID →
    ∀ g ∈ rule.destinations, g ∈ nmd.groups → g ∈ st.groups
  dest_peers : nmd.InSource env checks rule peerID →
    ∀ p, p ≠ peerID → nmd.InDestination env rule p → p ∈ st.peers
  source_groups : nmd.InDestination env rule peerID →
    ∀ g ∈ rule.sources, g ∈ nmd.groups → g ∈ st.groups
  source_peers : nmd.InDestination env rule peerID →
    ∀ p, p ≠ peerID → nmd.InSource env checks rule p → p ∈ st.peers
  user_groups : nmd.InDestination env rule peerID → usesUserGroups rule →
    ∀ g ∈ rule.authorizedGroups.keys, g ∈ st.neededGroupIDs
  allowed_users : nmd.InDestination env rule peerID → usesAllowedUsers ssh rule →
    st.needAllowedUserIDs
  failed : ∀ p ∈ sideIDs nmd.groups rule.sourceResource rule.sources, p ∈ nmd.peers →
    nmd.isValidated p → ¬nmd.Admits env checks p → ∃ id ∈ checks, p ∈ st.postureFailedPeers.setAt id

variable {nmd env}

theorem RuleCovered.mono {peerID : String} {ssh : Bool} {checks ags : List String}
    {rule : PolicyRule} {st st' : Relevant}
    (h : nmd.RuleCovered env peerID ssh checks ags rule st) (hle : st ≤ st') :
    nmd.RuleCovered env peerID ssh checks ags rule st' where
  access_groups ha g hg hn := hle.2.1 g (h.access_groups ha g hg hn)
  dest_groups hs g hg hn := hle.2.1 g (h.dest_groups hs g hg hn)
  dest_peers hs p hp hd := hle.1 p (h.dest_peers hs p hp hd)
  source_groups hd g hg hn := hle.2.1 g (h.source_groups hd g hg hn)
  source_peers hd p hp hs := hle.1 p (h.source_peers hd p hp hs)
  user_groups hd hu g hg := hle.2.2.2.1 (h.user_groups hd hu g hg)
  allowed_users hd hu := hle.2.2.2.2 (h.allowed_users hd hu)
  failed p hp hn hv ha := by
    obtain ⟨id, hid, hm⟩ := h.failed p hp hn hv ha
    exact ⟨id, hid, hle.2.2.1 id hm⟩

section

variable {peerID : String} {ssh : Bool} {checks : List String} {rule : PolicyRule}
  {src dst : SideState} {st : Relevant} {failed : StrMap (List String)}

theorem addSides_frame : (nmd.addSides ssh rule src dst st).frame = st.frame := by
  have hs (st' : Relevant) : (addSSHRequirements ssh rule st').frame = st'.frame := by
    rw [addSSHRequirements_eq]
    rfl
  unfold addSides addGroupsIf addPeersIf
  cases src.peerInGroups <;> cases dst.peerInGroups <;> simp [hs] <;> rfl

theorem addSides_failed : (nmd.addSides ssh rule src dst st).postureFailedPeers =
    dst.postureFailedPeers := by
  unfold addSides addGroupsIf addPeersIf
  cases src.peerInGroups <;> cases dst.peerInGroups <;> simp [addSSHRequirements_eq]

theorem mem_addSides_peers {p : String} : p ∈ (nmd.addSides ssh rule src dst st).peers ↔
    p ∈ st.peers ∨ (src.peerInGroups ∧ p ∈ dst.filteredPeerIDs ∧ p ∈ nmd.peers) ∨
      (dst.peerInGroups ∧ p ∈ src.filteredPeerIDs ∧ p ∈ nmd.peers) := by
  unfold addSides addGroupsIf addPeersIf
  cases src.peerInGroups <;> cases dst.peerInGroups <;> simp [addSSHRequirements_eq, or_assoc]

theorem mem_addSides_groups {g : String} : g ∈ (nmd.addSides ssh rule src dst st).groups ↔
      g ∈ st.groups ∨ (src.peerInGroups ∧ g ∈ rule.destinations ∧ g ∈ nmd.groups) ∨
        (dst.peerInGroups ∧ g ∈ rule.sources ∧ g ∈ nmd.groups) := by
  unfold addSides addGroupsIf addPeersIf
  cases src.peerInGroups <;> cases dst.peerInGroups <;> simp [addSSHRequirements_eq, or_assoc]

/-- Both sides of a rule only add to what is collected. -/
theorem le_addSides (hle : st.postureFailedPeers.SetsLe dst.postureFailedPeers) :
    st ≤ nmd.addSides ssh rule src dst st := by
  have h1 : st ≤ { st with postureFailedPeers := dst.postureFailedPeers } :=
    ⟨fun _ h => h, fun _ h => h, hle, refl _, id⟩
  have h2 := le_addPeersIf nmd src.peerInGroups dst.filteredPeerIDs
    { st with postureFailedPeers := dst.postureFailedPeers }
  have h3 := le_addGroupsIf nmd src.peerInGroups rule.destinations
  have h4 := le_addPeersIf nmd dst.peerInGroups src.filteredPeerIDs
  have h5 := le_addGroupsIf nmd dst.peerInGroups rule.sources
  have h6 := (h1.trans h2).trans ((h3 _).trans ((h4 _).trans (h5 _)))
  unfold addSides
  split
  · exact h6.trans (le_addSSHRequirements _ _ _)
  · exact h6

theorem sound_addGroupsIf (h : st.Sound nmd env) (cond : Bool) (l : List String) :
    (nmd.addGroupsIf cond l st).Sound nmd env := by
  cases cond with
  | false => exact h
  | true => exact ⟨h.peers_sub, h.validated, h.groups_sub.insertFrom l, h.failed⟩

theorem sound_addPeersIf (h : st.Sound nmd env) (cond : Bool) {l : List String}
    (hl : ∀ p ∈ l, nmd.isValidated p) : (nmd.addPeersIf cond l st).Sound nmd env := by
  cases cond with
  | false => exact h
  | true =>
    refine ⟨h.peers_sub.insertFrom l, fun p hp => ?_, h.groups_sub, h.failed⟩
    rcases mem_insertFrom.1 hp with hp | ⟨hp, -⟩
    · exact h.validated p hp
    · exact hl p hp

/-- What the sides of a rule add is part of the account. -/
theorem sound_addSides (h : st.Sound nmd env)
    (hf : ∀ id p, p ∈ dst.postureFailedPeers.setAt id → nmd.FailsCheck env id p)
    (hs : ∀ p ∈ src.filteredPeerIDs, nmd.isValidated p)
    (hd : ∀ p ∈ dst.filteredPeerIDs, nmd.isValidated p) :
    (nmd.addSides ssh rule src dst st).Sound nmd env := by
  have h1 : Relevant.Sound nmd env { st with postureFailedPeers := dst.postureFailedPeers } :=
    ⟨h.peers_sub, h.validated, h.groups_sub, hf⟩
  have h2 := sound_addPeersIf h1 src.peerInGroups hd
  have h3 := sound_addGroupsIf h2 src.peerInGroups rule.destinations
  have h4 := sound_addPeersIf h3 dst.peerInGroups hs
  have h5 := sound_addGroupsIf h4 dst.peerInGroups rule.sources
  unfold addSides
  split
  · rw [addSSHRequirements_eq]
    exact ⟨h5.peers_sub, h5.validated, h5.groups_sub, h5.failed⟩
  · exact h5

/-- After its sides are added, a rule is covered. -/
theorem ruleCovered_addSides {failed' : StrMap (List String)} {ags : List String}
    (hs : nmd.SideSpec env peerID checks (sideIDs nmd.groups rule.sourceResource rule.sources)
      failed src)
    (hd : nmd.SideSpec env peerID [] (sideIDs nmd.groups rule.destinationResource rule.destinations)
      failed' dst)
    (hle : src.postureFailedPeers.SetsLe dst.postureFailedPeers)
    (hag : (∃ g ∈ rule.destinations, g ∈ ags) →
      ∀ g ∈ rule.sources ++ rule.destinations, g ∈ nmd.groups → g ∈ st.groups) :
    nmd.RuleCovered env peerID ssh checks ags rule (nmd.addSides ssh rule src dst st) := by
  have hss (hin : nmd.InDestination env rule peerID) : ∃ st',
      nmd.addSides ssh rule src dst st = addSSHRequirements ssh rule st' :=
    ⟨_, by unfold addSides; rw [if_pos (hd.peerInGroups.2 hin)]⟩
  refine
    { access_groups := fun ha g hg hn => mem_addSides_groups.2 (.inl (hag ha g hg hn))
      dest_groups := fun hin g hg hn => ?_
      dest_peers := fun hin p hp hpd => ?_
      source_groups := fun hin g hg hn => ?_
      source_peers := fun hin p hp hps => ?_
      user_groups := fun hin hu g hg => ?_
      allowed_users := fun hin hu => ?_
      failed := fun p hp hn hv ha => ?_ }
  · exact mem_addSides_groups.2 (.inr (.inl ⟨hs.peerInGroups.2 hin, hg, hn⟩))
  · exact mem_addSides_peers.2
      (.inr (.inl ⟨hs.peerInGroups.2 hin, (hd.mem_filtered p).2 ⟨hp, hpd⟩, hpd.2.1⟩))
  · exact mem_addSides_groups.2 (.inr (.inr ⟨hd.peerInGroups.2 hin, hg, hn⟩))
  · exact mem_addSides_peers.2
      (.inr (.inr ⟨hd.peerInGroups.2 hin, (hs.mem_filtered p).2 ⟨hp, hps⟩, hps.2.1⟩))
  · obtain ⟨st', hst'⟩ := hss hin
    simp [hst', addSSHRequirements_eq, hu, hg]
  · obtain ⟨st', hst'⟩ := hss hin
    simp [hst', addSSHRequirements_eq, hu]
  · obtain ⟨id, hid, hm⟩ := hs.failed_complete p hp hn hv ha
    exact ⟨id, hid, by rw [addSides_failed]; exact hle id hm⟩

end

section

variable (hne : nmd.NoEmptyCheck env) (peerID : String) (ssh : Bool) (checks : List String)

/-- The rule makes its policy relevant: it leads to a group that controls the access to a route,
or it admits the peer. -/
def RuleRelevant (nmd : NetworkMapData) (env : Env) (peerID : String) (accessGroups : List String)
    (checks : List String) (rule : PolicyRule) : Prop :=
  (∃ g ∈ rule.destinations, g ∈ accessGroups) ∨ nmd.InSource env checks rule peerID ∨
    nmd.InDestination env rule peerID

/-- The rule has the peer on one side and the other one on the other side. -/
def RuleBrings (nmd : NetworkMapData) (env : Env) (peerID : String) (checks : List String)
    (rule : PolicyRule) (p : String) : Prop :=
  p ≠ peerID ∧ ((nmd.InSource env checks rule peerID ∧ nmd.InDestination env rule p) ∨
    (nmd.InDestination env rule peerID ∧ nmd.InSource env checks rule p))

include hne

/-- One rule: what is collected grows, stays sound, and covers the rule. -/
theorem addRule_spec (acc : Relevant × Bool) (rule : PolicyRule) :
    let out := nmd.addRule env peerID ssh checks acc rule
    acc.1 ≤ out.1 ∧ (acc.1.Sound nmd env → out.1.Sound nmd env) ∧
    nmd.RuleCovered env peerID ssh checks acc.1.routeAccessControlGroups rule out.1 ∧
    (out.2 ↔ acc.2 ∨ nmd.RuleRelevant env peerID acc.1.routeAccessControlGroups checks rule) ∧
    out.1.frame = acc.1.frame ∧
    ∀ p, p ∈ out.1.peers ↔ p ∈ acc.1.peers ∨ nmd.RuleBrings env peerID checks rule p := by
  obtain ⟨st, b⟩ := acc
  unfold addRule
  dsimp only
  set st1 := nmd.addGroupsIf (rule.destinations.any st.routeAccessControlGroups.contains)
    (rule.sources ++ rule.destinations) st with hst1
  set src := nmd.getSidePeers env rule.sourceResource rule.sources peerID checks
    st1.postureFailedPeers with hsr
  set dst := nmd.getSidePeers env rule.destinationResource rule.destinations peerID []
    src.postureFailedPeers with hds
  have hs : nmd.SideSpec env peerID checks _ _ src := sideSpec_getSidePeers hne _ _ _ _ _
  have hd : nmd.SideSpec env peerID [] _ _ dst := sideSpec_getSidePeers hne _ _ _ _ _
  have hst : st1.frame = st.frame ∧ st1.peers = st.peers := by
    rw [hst1, addGroupsIf]
    split <;> exact ⟨rfl, rfl⟩
  refine ⟨?_, fun hsn => ?_, ?_, ?_, ?_, fun p => ?_⟩
  · exact (le_addGroupsIf _ _ _ st).trans (le_addSides (hs.failed_le.trans hd.failed_le))
  · have hs1 : st1.Sound nmd env := sound_addGroupsIf hsn _ _
    refine sound_addSides hs1 (fun id p hp => ?_) (fun p hp => ?_) fun p hp => ?_
    · rcases hd.failed_sound id p hp with hp | hp
      · rcases hs.failed_sound id p hp with hp | hp
        · exact hs1.failed id p hp
        · exact hp
      · exact hp
    · exact ((hs.mem_filtered p).1 hp).2.2.2.1
    · exact ((hd.mem_filtered p).1 hp).2.2.2.1
  · refine ruleCovered_addSides hs hd hd.failed_le fun ⟨ag, hag, ha⟩ g hg hn => ?_
    refine (mem_addGroupsIf_groups _ _ _).2 (.inr ⟨?_, hg, hn⟩)
    exact any_eq_true.2 ⟨ag, hag, contains_iff_mem.2 ha⟩
  · simp only [Bool.or_eq_true, hs.peerInGroups, hd.peerInGroups, any_eq_true,
      contains_iff_mem, or_assoc]
    rfl
  · rw [addSides_frame, hst.1]
  · rw [mem_addSides_peers, hst.2, hs.peerInGroups, hd.peerInGroups,
      hs.mem_filtered, hd.mem_filtered]
    refine or_congr_right ⟨?_, ?_⟩
    · rintro (⟨hin, ⟨hp, ho⟩, -⟩ | ⟨hin, ⟨hp, ho⟩, -⟩)
      · exact ⟨hp, .inl ⟨hin, ho⟩⟩
      · exact ⟨hp, .inr ⟨hin, ho⟩⟩
    · rintro ⟨hp, ⟨hin, ho⟩ | ⟨hin, ho⟩⟩
      · exact .inl ⟨hin, ⟨hp, ho⟩, ho.2.1⟩
      · exact .inr ⟨hin, ⟨hp, ho⟩, ho.2.1⟩

/-- The rules of a policy, by induction over them. -/
theorem foldl_addRule_spec (rules : List PolicyRule) (acc : Relevant × Bool) :
    let out := rules.foldl (nmd.addRule env peerID ssh checks) acc
    acc.1 ≤ out.1 ∧ (acc.1.Sound nmd env → out.1.Sound nmd env) ∧
    (∀ rule ∈ rules,
      nmd.RuleCovered env peerID ssh checks acc.1.routeAccessControlGroups rule out.1) ∧
    (out.2 ↔ acc.2 ∨
      ∃ rule ∈ rules, nmd.RuleRelevant env peerID acc.1.routeAccessControlGroups checks rule) ∧
    out.1.frame = acc.1.frame := by
  induction rules generalizing acc with
  | nil => exact ⟨le_rfl, fun h => h, by simp, by simp, rfl⟩
  | cons rule rules ih =>
    obtain ⟨hle, hs, hc, hrl, hac, -⟩ := addRule_spec hne peerID ssh checks acc rule
    obtain ⟨hle', hs', hc', hr', ha'⟩ := ih (nmd.addRule env peerID ssh checks acc rule)
    have ha : (nmd.addRule env peerID ssh checks acc rule).1.routeAccessControlGroups =
        acc.1.routeAccessControlGroups := congrArg (·.2.2) hac
    rw [foldl_cons]
    refine ⟨hle.trans hle', fun h => hs' (hs h), ?_, ?_, ha'.trans hac⟩
    · rintro r hr
      rcases mem_cons.1 hr with rfl | hr
      · exact hc.mono hle'
      · exact ha ▸ hc' r hr
    · rw [hr', hrl, ha, exists_mem_cons_iff, or_assoc]

end

/-! ### Policies and routes -/

/-- Some enabled rule of the policy makes it relevant for the peer. -/
def policyRelevant (nmd : NetworkMapData) (env : Env) (peerID : String)
    (accessGroups : List String) (policy : Policy) : Bool :=
  ((policy.rules.filter (·.enabled)).foldl (nmd.addRule env peerID false policy.sourcePostureChecks)
    ({ routeAccessControlGroups := accessGroups }, false)).2

section

variable (hne : nmd.NoEmptyCheck env) (peerID : String) (ssh : Bool)

include hne

/-- A policy is kept for one of its enabled rules. -/
theorem policyRelevant_iff {ags : List String} {pol : Policy} :
    nmd.policyRelevant env peerID ags pol ↔ ∃ rule ∈ pol.rules, rule.enabled ∧
        nmd.RuleRelevant env peerID ags pol.sourcePostureChecks rule := by
  unfold policyRelevant
  rw [(foldl_addRule_spec hne peerID false pol.sourcePostureChecks _ _).2.2.2.1]
  simp [and_assoc]

/-- One policy: all its enabled rules are covered. -/
theorem addPolicy_spec (st : Relevant) (pol : Policy) :
    let out := nmd.addPolicy env peerID ssh st pol
    st ≤ out ∧ (st.Sound nmd env → out.Sound nmd env) ∧
    (∀ rule ∈ pol.rules, rule.enabled →
      nmd.RuleCovered env peerID ssh pol.sourcePostureChecks st.routeAccessControlGroups rule
        out) ∧
    out.frame = (st.policies ++
        [pol].filter (nmd.policyRelevant env peerID st.routeAccessControlGroups), st.frame.2) := by
  obtain ⟨hle, hs, hc, hre, hf⟩ := foldl_addRule_spec hne peerID ssh
    pol.sourcePostureChecks (pol.rules.filter (·.enabled)) (st, false)
  unfold addPolicy
  set out := (pol.rules.filter (·.enabled)).foldl
    (nmd.addRule env peerID ssh pol.sourcePostureChecks) (st, false)
  have hrl : out.2 = nmd.policyRelevant env peerID st.routeAccessControlGroups pol := by
    rw [Bool.eq_iff_iff, hre, policyRelevant_iff hne]
    simp [and_assoc]
  have hc' : ∀ rule ∈ pol.rules, rule.enabled →
      nmd.RuleCovered env peerID ssh pol.sourcePostureChecks st.routeAccessControlGroups rule
        out.1 :=
    fun rule hr he => hc rule (mem_filter.2 ⟨hr, he⟩)
  simp only [hrl]
  cases hp : nmd.policyRelevant env peerID st.routeAccessControlGroups pol with
  | false => exact ⟨hle, hs, hc', by simpa [hp, frame] using hf⟩
  | true =>
    -- listing the policy changes none of the collected maps
    have hle' : out.1 ≤ { out.1 with policies := out.1.policies ++ [pol] } := le_refl out.1
    refine ⟨hle.trans hle', fun h => ?_, fun rule hr he => (hc' rule hr he).mono hle', ?_⟩
    · exact ⟨(hs h).peers_sub, (hs h).validated, (hs h).groups_sub, (hs h).failed⟩
    · simp only [frame, Prod.mk.injEq] at hf
      simp [frame, hp, hf]

theorem mem_addPolicy_peers (st : Relevant) (pol : Policy) {p : String} :
    p ∈ (nmd.addPolicy env peerID ssh st pol).peers ↔ p ∈ st.peers ∨
      ∃ rule ∈ pol.rules, rule.enabled ∧
        nmd.RuleBrings env peerID pol.sourcePostureChecks rule p := by
  have hr := foldl_iff_exists (p := fun acc : Relevant × Bool => p ∈ acc.1.peers)
    (fun acc rule => (addRule_spec hne peerID ssh pol.sourcePostureChecks acc rule).2.2.2.2.2 p)
    (pol.rules.filter (·.enabled)) (st, false)
  have heq : (nmd.addPolicy env peerID ssh st pol).peers = ((pol.rules.filter (·.enabled)).foldl
        (nmd.addRule env peerID ssh pol.sourcePostureChecks) (st, false)).1.peers := by
    unfold addPolicy
    dsimp only
    split <;> rfl
  rw [heq, hr]
  simp [and_assoc]

/-- All policies, by induction over them. -/
theorem foldl_addPolicy_spec (pols : List Policy) (st : Relevant) :
    let out := pols.foldl (nmd.addPolicy env peerID ssh) st
    st ≤ out ∧ (st.Sound nmd env → out.Sound nmd env) ∧
    (∀ pol ∈ pols, ∀ rule ∈ pol.rules, rule.enabled →
      nmd.RuleCovered env peerID ssh pol.sourcePostureChecks st.routeAccessControlGroups rule
        out) ∧
    out.frame = (st.policies ++
        pols.filter (nmd.policyRelevant env peerID st.routeAccessControlGroups), st.frame.2) := by
  induction pols generalizing st with
  | nil => exact ⟨le_rfl, fun h => h, by simp, by simp [frame]⟩
  | cons pol pols ih =>
    obtain ⟨hle, hs, hc, hf⟩ := addPolicy_spec hne peerID ssh st pol
    obtain ⟨hle', hs', hc', hf'⟩ := ih (nmd.addPolicy env peerID ssh st pol)
    rw [foldl_cons]
    refine ⟨hle.trans hle', fun h => hs' (hs h), ?_, ?_⟩
    · rintro p hp rule hr he
      rcases mem_cons.1 hp with rfl | hp
      · exact (hc rule hr he).mono hle'
      · have ha : (nmd.addPolicy env peerID ssh st pol).routeAccessControlGroups =
            st.routeAccessControlGroups := congrArg (·.2.2) hf
        exact ha ▸ hc' p hp rule hr he
    · simp only [frame, Prod.mk.injEq] at hf
      rw [hf']
      simp only [frame, hf, append_assoc]
      rw [← filter_append, singleton_append]

end

/-- The groups of a route that are looked up for it. -/
def routeGroupIDs (r : Route) : List String :=
  r.peerGroups ++ r.groups ++ if r.enabled then r.accessControlGroups else []

variable (nmd) in
theorem le_addRoute (st : Relevant) (r : Route) : st ≤ nmd.addRoute st r :=
  ⟨fun _ h => mem_insertFrom.2 (.inl h), fun _ h => mem_insertFrom.2 (.inl h), refl _, refl _, id⟩

theorem sound_addRoute {st : Relevant} (h : st.Sound nmd env) (r : Route) :
    (nmd.addRoute st r).Sound nmd env := by
  refine ⟨h.peers_sub.insertFrom _, fun p hp => ?_, h.groups_sub.insertFrom _, h.failed⟩
  rcases mem_insertFrom.1 hp with hp | ⟨hp, -⟩
  · exact h.validated p hp
  · exact (mem_filter.1 hp).2

theorem foldl_addRoute_routes (routes : List Route) (st : Relevant) :
    (routes.foldl nmd.addRoute st).routes = st.routes ++ routes := by
  induction routes generalizing st with
  | nil => simp
  | cons r routes ih => simp [ih, addRoute]

theorem foldl_addRoute_policies (routes : List Route) (st : Relevant) :
    (routes.foldl nmd.addRoute st).policies = st.policies := by
  induction routes generalizing st with
  | nil => rfl
  | cons r routes ih => simp [ih, addRoute]

/-! ### The result -/

section

variable (nmd env) (peerID : String) (ssh : Bool)

/-- The collected parts before the policies are looked at. -/
private def relevantRoutes : Relevant :=
  (nmd.routes.filter (nmd.routeRelevant peerID)).foldl nmd.addRoute
    { peers := nmd.peers.insertFrom ∅ [peerID]
      groups := nmd.groups.insertFrom ∅ (nmd.getPeerGroups peerID) }

private theorem relevant_eq : nmd.getPeersGroupsPoliciesRoutes env peerID ssh =
    (nmd.policies.filter (·.enabled)).foldl (nmd.addPolicy env peerID ssh)
      (nmd.relevantRoutes peerID) := rfl

variable {nmd env} (hne : nmd.NoEmptyCheck env)

private theorem start_le_relevantRoutes :
    { peers := nmd.peers.insertFrom ∅ [peerID]
      groups := nmd.groups.insertFrom ∅ (nmd.getPeerGroups peerID) } ≤
      nmd.relevantRoutes peerID :=
  le_foldl (fun st r _ => le_addRoute nmd st r) _

variable {g : String}

private theorem mem_relevantRoutes_access :
    g ∈ (nmd.relevantRoutes peerID).routeAccessControlGroups ↔ ∃ r ∈ nmd.routes,
      nmd.routeRelevant peerID r ∧ r.enabled ∧ g ∈ r.accessControlGroups := by
  have hs (st : Relevant) (r : Route) : g ∈ (nmd.addRoute st r).routeAccessControlGroups ↔
      g ∈ st.routeAccessControlGroups ∨ (r.enabled ∧ g ∈ r.accessControlGroups) := by
    cases he : r.enabled <;> simp [addRoute, he]
  refine (foldl_iff_exists (p := fun st : Relevant => g ∈ st.routeAccessControlGroups)
    hs _ _).trans ?_
  simp [and_assoc]

include hne

private theorem relevantRoutes_le :
    nmd.relevantRoutes peerID ≤ nmd.getPeersGroupsPoliciesRoutes env peerID ssh :=
  (foldl_addPolicy_spec hne peerID ssh _ _).1

/-- What is collected for a validated peer is part of the account. -/
theorem relevant_sound (hv : nmd.isValidated peerID) :
    (nmd.getPeersGroupsPoliciesRoutes env peerID ssh).Sound nmd env := by
  refine (foldl_addPolicy_spec hne peerID ssh _ _).2.1 ?_
  refine List.foldlRecOn _ _ ?_ fun st h r _ => sound_addRoute h r
  refine ⟨(AList.Sub.empty _).insertFrom _, fun p hp => ?_, (AList.Sub.empty _).insertFrom _,
    fun id p hp => ?_⟩
  · rcases mem_insertFrom.1 hp with hp | ⟨hp, -⟩
    · exact absurd hp (notMem_empty p)
    · rwa [mem_singleton.1 hp]
  · simp [AList.setAt] at hp

/-- Every enabled rule of an enabled policy is covered in the end. -/
theorem relevant_covered {pol : Policy} (hp : pol ∈ nmd.policies) (hpe : pol.enabled)
    {rule : PolicyRule} (hr : rule ∈ pol.rules) (hre : rule.enabled) :
    nmd.RuleCovered env peerID ssh pol.sourcePostureChecks
      (nmd.relevantRoutes peerID).routeAccessControlGroups rule
      (nmd.getPeersGroupsPoliciesRoutes env peerID ssh) :=
  (foldl_addPolicy_spec hne peerID ssh _ _).2.2.1 pol (mem_filter.2 ⟨hp, hpe⟩) rule hr hre

/-- The groups that make a policy relevant control the access to the relevant enabled routes. -/
theorem relevant_policies_of_routes : ∃ ags,
    (nmd.getPeersGroupsPoliciesRoutes env peerID ssh).policies =
      (nmd.policies.filter (·.enabled)).filter (nmd.policyRelevant env peerID ags) ∧
    ∀ g, g ∈ ags ↔ ∃ r ∈ nmd.routes, nmd.routeRelevant peerID r ∧ r.enabled ∧
      g ∈ r.accessControlGroups := by
  have hf := (foldl_addPolicy_spec hne peerID ssh (nmd.policies.filter (·.enabled))
    (nmd.relevantRoutes peerID)).2.2.2
  have hn : (nmd.relevantRoutes peerID).policies = [] := foldl_addRoute_policies _ _
  refine ⟨(nmd.relevantRoutes peerID).routeAccessControlGroups, ?_, fun g => ?_⟩
  · have h := congrArg Prod.fst hf
    rwa [hn] at h
  · exact mem_relevantRoutes_access peerID

theorem relevant_access_groups {r : Route} (hr : r ∈ nmd.routes) (hrl : nmd.routeRelevant peerID r)
    (hen : r.enabled) {ag : String} (hac : ag ∈ r.accessControlGroups) {pol : Policy}
    (hp : pol ∈ nmd.policies) (hpe : pol.enabled) {rule : PolicyRule}
    (hru : rule ∈ pol.rules) (hre : rule.enabled) (hag : ag ∈ rule.destinations)
    (hg : g ∈ rule.sources ++ rule.destinations) (hn : g ∈ nmd.groups) :
    g ∈ (nmd.getPeersGroupsPoliciesRoutes env peerID ssh).groups := by
  refine (relevant_covered peerID ssh hne hp hpe hru hre).access_groups ⟨ag, hag, ?_⟩ g hg hn
  exact (mem_relevantRoutes_access peerID).2 ⟨r, hr, hrl, hen, hac⟩

/-- The relevant peers: the peer itself, those that serve a relevant route, and those that a rule
brings in. -/
theorem mem_relevant_peers {p : String} :
    p ∈ (nmd.getPeersGroupsPoliciesRoutes env peerID ssh).peers ↔ (p = peerID ∧ p ∈ nmd.peers) ∨
      (∃ r ∈ nmd.routes, nmd.routeRelevant peerID r ∧ p ∈ nmd.routePeerIDs r ∧
        nmd.isValidated p ∧ p ∈ nmd.peers) ∨
      ∃ pol ∈ nmd.policies, pol.enabled ∧ ∃ rule ∈ pol.rules, rule.enabled ∧
        nmd.RuleBrings env peerID pol.sourcePostureChecks rule p := by
  have hr (st : Relevant) (r : Route) : p ∈ (nmd.addRoute st r).peers ↔ p ∈ st.peers ∨
      (p ∈ nmd.routePeerIDs r ∧ nmd.isValidated p ∧ p ∈ nmd.peers) := by
    simp [addRoute, and_assoc]
  rw [relevant_eq]
  refine (foldl_iff_exists (p := fun st : Relevant => p ∈ st.peers)
    (fun st pol => mem_addPolicy_peers hne peerID ssh st pol) _ _).trans ?_
  rw [relevantRoutes]
  rw [foldl_iff_exists (p := fun st : Relevant => p ∈ st.peers) hr]
  simp [and_assoc, or_assoc]

/-- The routes that are kept are the relevant ones. -/
theorem relevant_routes : (nmd.getPeersGroupsPoliciesRoutes env peerID ssh).routes =
    nmd.routes.filter (nmd.routeRelevant peerID) := by
  have hf := (foldl_addPolicy_spec hne peerID ssh (nmd.policies.filter (·.enabled))
    (nmd.relevantRoutes peerID)).2.2.2
  have h : (nmd.getPeersGroupsPoliciesRoutes env peerID ssh).routes =
      (nmd.relevantRoutes peerID).routes := congrArg (·.2.1) hf
  rw [h]
  exact (foldl_addRoute_routes _ _).trans (nil_append _)

theorem relevant_route_groups {r : Route} (hr : r ∈ nmd.routes) (hrl : nmd.routeRelevant peerID r)
    (hg : g ∈ routeGroupIDs r) (hn : g ∈ nmd.groups) :
    g ∈ (nmd.getPeersGroupsPoliciesRoutes env peerID ssh).groups := by
  obtain ⟨st, -, hst⟩ := exists_le_foldl (fun st r _ => le_addRoute nmd st r)
    { peers := nmd.peers.insertFrom ∅ [peerID]
      groups := nmd.groups.insertFrom ∅ (nmd.getPeerGroups peerID) }
    (mem_filter.2 ⟨hr, hrl⟩)
  have hm : g ∈ (nmd.addRoute st r).groups := mem_insertFrom.2 (.inr ⟨hg, hn⟩)
  exact (relevantRoutes_le peerID ssh hne).2.1 g (hst.2.1 g hm)

theorem relevant_self (hp : peerID ∈ nmd.peers) :
    peerID ∈ (nmd.getPeersGroupsPoliciesRoutes env peerID ssh).peers :=
  (mem_relevant_peers peerID ssh hne).2 (.inl ⟨rfl, hp⟩)

theorem relevant_own_groups {gid : String} {g : Group} (hg : nmd.groups.lookup gid = some g)
    (hp : peerID ∈ g.peers) : gid ∈ (nmd.getPeersGroupsPoliciesRoutes env peerID ssh).groups := by
  refine (relevantRoutes_le peerID ssh hne).2.1 _ ((start_le_relevantRoutes peerID).2.1 _ ?_)
  refine mem_insertFrom.2 (.inr ⟨?_, mem_of_lookup hg⟩)
  exact mem_memberGroups.2 ⟨g, hg, hp⟩

end

end NetworkMapData

end Cloink
