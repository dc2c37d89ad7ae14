import Cloink.Lib.SetUpdate
import Cloink.NetworkMap.SliceConnections

/-!
# Users accepted over SSH

The rules of the policies contribute to one map of local users to accepted users. Rules with
authorized groups or an authorized user add to it. Rules that name neither, and rules that imply SSH
for older clients, overwrite the entry of the wildcard, so the order of the policies can matter for
the wildcard, and only for it.
-/

namespace Cloink

open AList List SetUpdate

/-! ### One rule -/

theorem setAt_authorize (users : StrMap (List String)) (lu L : String)
    (uids : List String) : (authorize users lu uids).setAt L =
      if lu = L then (users.setAt L).insertAll uids else users.setAt L := by
  unfold authorize setAt
  split
  · rename_i he
    rw [← he, lookup_insert]
    rfl
  · rename_i hne
    rw [lookup_insert_ne (Ne.symm hne)]

/-- The local users that the users of a group are accepted for. -/
def localUsersOf (groupIDToUserIDs : StrMap (List String)) (groupID : String)
    (localUsers : List String) : List String :=
  if groupID ∈ groupIDToUserIDs then
    if localUsers.isEmpty then [wildcard] else localUsers
  else []

theorem authorizeGroup_eq (groupIDToUserIDs users : StrMap (List String)) (gid : String)
    (lus : List String) : authorizeGroup groupIDToUserIDs users gid lus =
      (localUsersOf groupIDToUserIDs gid lus).foldl
        (fun users lu => authorize users lu (groupIDToUserIDs.setAt gid)) users := by
  unfold authorizeGroup localUsersOf setAt
  cases hg : groupIDToUserIDs.lookup gid with
  | none => rw [if_neg (lookup_eq_none.1 hg)]; rfl
  | some userIDs => rw [if_pos (mem_of_lookup hg)]; rfl

namespace NetworkMapComponents

variable (c : NetworkMapComponents)

/-- The pairs of a local user and a group that the authorized groups of a rule stand for. -/
def groupGrants (rule : PolicyRule) : List (String × String) :=
  rule.authorizedGroups.entries.flatMap fun e =>
    (localUsersOf c.groupIDToUserIDs e.1 e.2).map fun localUser => (localUser, e.1)

theorem foldl_authorizeGroup (rule : PolicyRule) (users : StrMap (List String)) :
    rule.authorizedGroups.entries.foldl
        (fun users e => authorizeGroup c.groupIDToUserIDs users e.1 e.2) users =
      (c.groupGrants rule).foldl
        (fun users g => authorize users g.1 (c.groupIDToUserIDs.setAt g.2)) users := by
  rw [groupGrants, foldl_flatMap]
  simp only [foldl_map, authorizeGroup_eq]

variable (targetPeer : Peer)

/-- The rule has the wildcard entry overwritten: it names no users, or it implies SSH for an older
client. -/
def overwrites (rule : PolicyRule) : Bool :=
  if rule.protocol = policyRuleProtocolNetbirdSSH then
    rule.authorizedGroups.entries.isEmpty && rule.authorizedUser = ""
  else policyRuleImpliesLegacySSH rule && targetPeer.sshEnabled

def enablesSSH (rule : PolicyRule) : Bool :=
  rule.protocol = policyRuleProtocolNetbirdSSH ||
    (policyRuleImpliesLegacySSH rule && targetPeer.sshEnabled)

/-- The local users and groups or users that a rule adds, for a rule that does not overwrite. -/
def grants (rule : PolicyRule) : List (String × List String) :=
  if rule.protocol = policyRuleProtocolNetbirdSSH then
    if !rule.authorizedGroups.entries.isEmpty then
      (c.groupGrants rule).map fun g => (g.1, c.groupIDToUserIDs.setAt g.2)
    else if rule.authorizedUser ≠ "" then [(wildcard, [rule.authorizedUser])]
    else []
  else []

/-- A rule enables SSH and grants users, in closed form. -/
theorem authorizeRule_eq (rule : PolicyRule) (st : PeerConnections) :
    c.authorizeRule targetPeer rule st =
      { st with
        sshEnabled := st.sshEnabled || enablesSSH targetPeer rule
        authorizedUsers :=
          if overwrites targetPeer rule then st.authorizedUsers.insert wildcard c.allowedUserIDs
          else (c.grants rule).foldl (fun users g => authorize users g.1 g.2)
            st.authorizedUsers } := by
  unfold authorizeRule overwrites enablesSSH grants
  by_cases hs : rule.protocol = policyRuleProtocolNetbirdSSH
  · by_cases hg : rule.authorizedGroups.entries.isEmpty
    · by_cases hu : rule.authorizedUser = ""
      · simp [hs, hg, hu]
      · simp [hs, hg, hu]
    · simp [hs, hg, foldl_map, foldl_authorizeGroup]
  · cases hl : policyRuleImpliesLegacySSH rule && targetPeer.sshEnabled
    · simp [hs]
    · simp [hs]

/-- What a rule does to the users accepted for the local user `L`. -/
def sshUpdate (L : String) (rule : PolicyRule) : SetUpdate String :=
  if overwrites targetPeer rule then
    if L = wildcard then { resets := true, added := c.allowedUserIDs } else {}
  else { added := ((c.grants rule).filter (·.1 = L)).flatMap (·.2) }

theorem setAt_foldl_authorize (l : List (String × List String)) (users : StrMap (List String))
    (L : String) : (l.foldl (fun users g => authorize users g.1 g.2) users).setAt L =
      (users.setAt L).insertAll ((l.filter (·.1 = L)).flatMap (·.2)) := by
  induction l generalizing users with
  | nil => rfl
  | cons g l ih =>
    rw [foldl_cons, ih, setAt_authorize]
    by_cases hL : g.1 = L
    · simp [hL, insertAll_append]
    · simp [hL]

/-- For one local user, a rule is an update of a set. -/
theorem setAt_authorizeRule (L : String) (rule : PolicyRule)
    (st : PeerConnections) : (c.authorizeRule targetPeer rule st).authorizedUsers.setAt L =
      (c.sshUpdate targetPeer L rule).apply (st.authorizedUsers.setAt L) := by
  rw [authorizeRule_eq, sshUpdate]
  by_cases ho : overwrites targetPeer rule
  · by_cases hL : L = wildcard
    · subst hL
      simp [ho, apply, setAt]
    · simp [ho, hL, setAt]
  · simp [ho, setAt_foldl_authorize, apply]

def sshLocalUsers (rule : PolicyRule) : List String :=
  if overwrites targetPeer rule then [wildcard] else (c.grants rule).map (·.1)

theorem mem_authorizeRule (L : String) (rule : PolicyRule)
    (st : PeerConnections) : L ∈ (c.authorizeRule targetPeer rule st).authorizedUsers ↔
      L ∈ st.authorizedUsers ∨ L ∈ c.sshLocalUsers targetPeer rule := by
  rw [authorizeRule_eq, sshLocalUsers]
  by_cases ho : overwrites targetPeer rule
  · simp [ho, mem_insert, or_comm]
  · have hg := foldl_iff_exists (p := fun users : StrMap (List String) => L ∈ users)
      (q := fun g : String × List String => g.1 = L) (f := fun users g => authorize users g.1 g.2)
      (fun users g => by simp [authorize, mem_insert, or_comm, eq_comm]) (c.grants rule)
      st.authorizedUsers
    simp only [ho, Bool.false_eq_true, if_false, mem_map]
    exact hg

/-! ### All policies -/

/-- The target peer is one of the destinations of the rule. -/
def isDestination (rule : PolicyRule) : Bool :=
  (c.getSidePeers rule.destinationResource rule.destinations c.peerID []).2

/-- What a policy does to the users accepted for the local user `L`. -/
def policyUpdate (L : String) (policy : Policy) : SetUpdate String :=
  comp ((enabledRules [policy]).map fun pr =>
    if c.isDestination pr.2 then c.sshUpdate targetPeer L pr.2 else {})

section

variable {c} {env : Env} {targetPeer : Peer} {sourcePostureChecks : List String}
  {rule : PolicyRule} {st : PeerConnections}

theorem setAt_connectRule (L : String) :
    (c.connectRule env targetPeer c.peerID sourcePostureChecks st rule).authorizedUsers.setAt L =
      apply (if c.isDestination rule then c.sshUpdate targetPeer L rule else {})
        (st.authorizedUsers.setAt L) := by
  unfold connectRule isDestination
  dsimp only
  split
  · rw [setAt_authorizeRule]
  · rfl

theorem mem_connectRule (L : String) :
    L ∈ (c.connectRule env targetPeer c.peerID sourcePostureChecks st rule).authorizedUsers ↔
      L ∈ st.authorizedUsers ∨ (c.isDestination rule ∧ L ∈ c.sshLocalUsers targetPeer rule) := by
  unfold connectRule isDestination
  dsimp only
  split
  · simp [mem_authorizeRule, *]
  · simp [*]

theorem sshEnabled_connectRule :
    (c.connectRule env targetPeer c.peerID sourcePostureChecks st rule).sshEnabled ↔
      st.sshEnabled ∨ (c.isDestination rule ∧ enablesSSH targetPeer rule) := by
  unfold connectRule isDestination
  dsimp only
  split
  · simp [authorizeRule_eq, *]
  · simp [*]

end

/-- The rules of a policy are one update. -/
theorem run_enabledRules (L : String) (pols : List Policy)
    (s : List String) : run ((enabledRules pols).map fun pr =>
        if c.isDestination pr.2 then c.sshUpdate targetPeer L pr.2 else {}) s =
      run (pols.map (c.policyUpdate targetPeer L)) s := by
  induction pols generalizing s with
  | nil => rfl
  | cons pol pols ih =>
    have ha : enabledRules (pol :: pols) = enabledRules [pol] ++ enabledRules pols := by
      cases he : pol.enabled <;> simp [enabledRules, he]
    rw [ha, map_append, run_append, ih, map_cons, run_cons, policyUpdate, apply_comp]

variable {c} {env : Env} {targetPeer : Peer}

variable (htarget : c.getPeerInfo c.peerID = some targetPeer)

include htarget

theorem connections_eq :
    c.getPeerConnectionResources env c.peerID = (enabledRules c.policies).foldl (fun st pr =>
      c.connectRule env targetPeer c.peerID pr.1.sourcePostureChecks st pr.2) {} := by
  rw [getPeerConnectionResources, htarget]

/-- The users of a login are the run of all updates. -/
theorem setAt_authorizedUsers (L : String) : (c.calculate env).authorizedUsers.setAt L =
      run (c.policies.map (c.policyUpdate targetPeer L)) [] := by
  have hs (st : PeerConnections) (pr : Policy × PolicyRule) :
      (c.connectRule env targetPeer c.peerID pr.1.sourcePostureChecks st
        pr.2).authorizedUsers.setAt L =
        apply (if c.isDestination pr.2 then c.sshUpdate targetPeer L pr.2 else {})
          (st.authorizedUsers.setAt L) := setAt_connectRule L
  change (c.getPeerConnectionResources env c.peerID).authorizedUsers.setAt L = _
  rw [connections_eq htarget, ← run_enabledRules]
  exact foldl_eq_run (fun st : PeerConnections => st.authorizedUsers.setAt L) hs _ _

theorem mem_authorizedUsers (L : String) :
    L ∈ (c.calculate env).authorizedUsers ↔ ∃ pr ∈ enabledRules c.policies,
      c.isDestination pr.2 ∧ L ∈ c.sshLocalUsers targetPeer pr.2 := by
  change L ∈ (c.getPeerConnectionResources env c.peerID).authorizedUsers ↔ _
  rw [connections_eq htarget]
  have hl := foldl_iff_exists (p := fun st : PeerConnections => L ∈ st.authorizedUsers)
    (q := fun pr : Policy × PolicyRule => c.isDestination pr.2 ∧ L ∈ c.sshLocalUsers targetPeer pr.2)
    (f := fun st pr => c.connectRule env targetPeer c.peerID pr.1.sourcePostureChecks st pr.2)
    (fun st pr => mem_connectRule L) (enabledRules c.policies) {}
  exact hl.trans (or_iff_right (notMem_empty L))

/-- SSH is enabled by a rule for the peer. -/
theorem enableSSH_iff : (c.calculate env).enableSSH ↔ ∃ pr ∈ enabledRules c.policies,
      c.isDestination pr.2 ∧ enablesSSH targetPeer pr.2 := by
  change (c.getPeerConnectionResources env c.peerID).sshEnabled ↔ _
  rw [connections_eq htarget]
  have hl := foldl_iff_exists (p := fun st : PeerConnections => st.sshEnabled)
    (q := fun pr : Policy × PolicyRule => c.isDestination pr.2 ∧ enablesSSH targetPeer pr.2)
    (f := fun st pr => c.connectRule env targetPeer c.peerID pr.1.sourcePostureChecks st pr.2)
    (fun st pr => sshEnabled_connectRule) (enabledRules c.policies) {}
  exact hl.trans (or_iff_right Bool.false_ne_true)

omit htarget

theorem mem_enabledRules_of_perm {pols pols' : List Policy}
    (h : pols'.Perm pols) (pr : Policy × PolicyRule) :
    pr ∈ enabledRules pols' ↔ pr ∈ enabledRules pols := by
  rw [mem_enabledRules, mem_enabledRules, h.mem_iff]

/-- Only the wildcard is ever reset. -/
theorem resets_policyUpdate {L : String} {pol : Policy}
    (h : (c.policyUpdate targetPeer L pol).resets) : L = wildcard := by
  obtain ⟨u, hu, hr⟩ := resets_comp.1 h
  obtain ⟨pr, -, rfl⟩ := mem_map.1 hu
  by_contra hL
  simp only [sshUpdate, hL, if_false] at hr
  split at hr
  · split at hr
    · exact absurd hr Bool.false_ne_true
    · exact absurd hr Bool.false_ne_true
  · exact absurd hr Bool.false_ne_true

end NetworkMapComponents

/-! ### The order of the policies -/

/-- The two maps accept the same users over SSH for the same local users. -/
def NetworkMap.SameSSH (m m' : NetworkMap) : Prop :=
  m.enableSSH = m'.enableSSH ∧ (∀ L, L ∈ m.authorizedUsers ↔ L ∈ m'.authorizedUsers) ∧
    ∀ L u, u ∈ m.authorizedUsers.setAt L ↔ u ∈ m'.authorizedUsers.setAt L

namespace NetworkMapComponents

variable (c : NetworkMapComponents) (env : Env)

variable {c env} in
theorem sameSSH_of_connections_eq {c' : NetworkMapComponents}
    (h : c'.getPeerConnectionResources env c'.peerID = c.getPeerConnectionResources env c.peerID) :
    NetworkMap.SameSSH (c'.calculate env) (c.calculate env) := by
  have hf := congrArg PeerConnections.sshEnabled h
  have hu : (c'.calculate env).authorizedUsers = (c.calculate env).authorizedUsers :=
    congrArg PeerConnections.authorizedUsers h
  exact ⟨hf, fun L => by rw [hu], fun L u => by rw [hu]⟩

/-- Every policy that overwrites the users of the wildcard has in the end all users that a policy
adds for it. -/
def WildcardSettled : Prop :=
  ∀ targetPeer, c.getPeerInfo c.peerID = some targetPeer →
    ∀ p ∈ c.policies, (c.policyUpdate targetPeer wildcard p).resets → ∀ q ∈ c.policies,
      (c.policyUpdate targetPeer wildcard q).added ⊆ (c.policyUpdate targetPeer wildcard p).added

/-- The order of the policies does not matter to the users accepted over SSH exactly when the
overwriting policies have all users that the policies add. -/
theorem sameSSH_perm_iff : (∀ policies : List Policy, policies.Perm c.policies →
      NetworkMap.SameSSH ({ c with policies := policies }.calculate env) (c.calculate env)) ↔
      c.WildcardSettled := by
  constructor
  · intro h targetPeer htarget p hp hr q hq
    have hrn : ∀ l', l'.Perm (c.policies.map (c.policyUpdate targetPeer wildcard)) → ∀ x,
        x ∈ run l' [] ↔ x ∈ run (c.policies.map (c.policyUpdate targetPeer wildcard)) [] := by
      intro l' hl' x
      -- a permutation of the updates comes from one of the policies
      obtain ⟨policies, rfl, hpr⟩ := (eq_map_comp_perm _).ge _ _ hl'
      have hs := (h policies hpr).2.2 wildcard x
      rwa [setAt_authorizedUsers htarget,
        setAt_authorizedUsers (c := { c with policies := policies }) htarget] at hs
    exact (run_perm_iff _).1 hrn _ (mem_map_of_mem hp) hr _ (mem_map_of_mem hq)
  · intro h policies hpr
    cases htarget : c.getPeerInfo c.peerID with
    | none =>
      have hn (ps : List Policy) :
          { c with policies := ps }.getPeerConnectionResources env c.peerID = {} := by
        have ht' : { c with policies := ps }.getPeerInfo c.peerID = none := htarget
        rw [getPeerConnectionResources, ht']
      exact sameSSH_of_connections_eq ((hn policies).trans (hn c.policies).symm)
    | some targetPeer =>
      have ht' : { c with policies := policies }.getPeerInfo c.peerID = some targetPeer :=
        htarget
      refine ⟨?_, fun L => ?_, fun L u => ?_⟩
      · rw [Bool.eq_iff_iff, enableSSH_iff htarget,
          enableSSH_iff (c := { c with policies := policies }) ht']
        simp only [mem_enabledRules_of_perm hpr]
        rfl
      · rw [mem_authorizedUsers htarget,
          mem_authorizedUsers (c := { c with policies := policies }) ht']
        simp only [mem_enabledRules_of_perm hpr]
        rfl
      · rw [setAt_authorizedUsers htarget,
          setAt_authorizedUsers (c := { c with policies := policies }) ht']
        refine (run_perm_iff _).2 ?_ _ (hpr.map _) u
        simp only [forall_mem_map]
        intro p hp hr q hq
        obtain rfl := resets_policyUpdate hr
        exact h targetPeer htarget p hp hr q hq

/-- A peer that two policies open over SSH: one names a user that the account does not allow, the
other one no user at all. -/
def twoSSHPolicies : NetworkMapComponents :=
  let rule : PolicyRule :=
    { id := "r", protocol := policyRuleProtocolNetbirdSSH, sources := ["all"], destinations := ["all"] }
  { peerID := "server"
    peers := insert "server" { id := "server", key := "k", ip := .from4 100 64 0 1 } ∅
    groups := insert "all" { id := "all", peers := ["server"] } ∅
    policies := [{ id := "p", rules := [{ rule with authorizedUser := "guest" }] },
      { id := "q", rules := [{ rule with id := "s" }] }]
    allowedUserIDs := ["admin"] }

/-- The user that the first policy names is accepted when that policy comes last, and is not when
it comes first. -/
theorem policy_order_changes_users : twoSSHPolicies.policies.reverse.Perm twoSSHPolicies.policies ∧
      "guest" ∈ ({ twoSSHPolicies with policies := twoSSHPolicies.policies.reverse }.calculate
        Env.plain).authorizedUsers.setAt wildcard ∧
      "guest" ∉ (twoSSHPolicies.calculate Env.plain).authorizedUsers.setAt wildcard :=
  ⟨reverse_perm _, by decide +kernel, by decide +kernel⟩

end NetworkMapComponents

end Cloink
