import Cloink.AffectedPeers.Coverage
import Cloink.AffectedPeers.PolicyDiff

/-!
# Peers affected by changes of policies

Every peer whose map the edit of a policy changes is among those its change expands to, with three
exceptions, for a peer on no side of the policy: a rule names a resource that the peer routes as if it
were a peer; the policy controls the access to a route that the peer serves; or it lets further peers
into a resource that the peer is let into, and one of them may use a route that the peer serves.
-/

namespace Cloink

open NetworkMapComponents NetworkMapData Affected Netip NetworkMap AList List Resolver

/-! ### The handlers -/

/-- The same elements in any order. -/
def slicesEqualUnordered {α : Type} [BEq α] (l l' : List α) : Bool := l.isPerm l'

def stringSlicesEqualUnordered : List String → List String → Bool := slicesEqualUnordered

def portRangeSlicesEqualUnordered : List RulePortRange → List RulePortRange → Bool :=
  slicesEqualUnordered

def authorizedGroupsEqual (m m' : StrMap (List String)) : Bool :=
  m.entries.length = m'.entries.length && m.entries.all fun e =>
    (m'.lookup e.1).elim false (stringSlicesEqualUnordered e.2)

def PolicyRule.equal (rule other : PolicyRule) : Bool :=
  rule.id = other.id && rule.policyID = other.policyID && rule.enabled = other.enabled &&
    rule.action = other.action && rule.bidirectional = other.bidirectional &&
    rule.protocol = other.protocol && rule.sourceResource = other.sourceResource &&
    rule.destinationResource = other.destinationResource &&
    rule.authorizedUser = other.authorizedUser &&
    stringSlicesEqualUnordered rule.sources other.sources &&
    stringSlicesEqualUnordered rule.destinations other.destinations &&
    stringSlicesEqualUnordered rule.ports other.ports &&
    portRangeSlicesEqualUnordered rule.portRanges other.portRanges &&
    authorizedGroupsEqual rule.authorizedGroups other.authorizedGroups

def Policy.equal (policy other : Policy) : Bool :=
  let otherRules : StrMap PolicyRule := other.rules.foldl (fun m rule => m.insert rule.id rule) ∅
  policy.id = other.id && policy.enabled = other.enabled &&
    stringSlicesEqualUnordered policy.sourcePostureChecks other.sourcePostureChecks &&
    policy.rules.length = other.rules.length &&
    policy.rules.all fun rule => (otherRules.lookup rule.id).elim false rule.equal

/-- A request to one of the handlers. A new policy comes with the id drawn for it. Names and
descriptions are not part of a policy here; an update tells whether it changes one of them. -/
inductive PolicyEdit
  | create (policy : Policy)
  | update (policy : Policy) (renamed : Bool)
  | delete (policyID : String)

namespace Account

variable (a : Account)

def getValidGroupIDs (groupIDs : List String) : List String :=
  groupIDs.filter fun id => decide (id ∈ a.groups)

def getValidPostureCheckIDs (postureChecksIDs : List String) : List String :=
  postureChecksIDs.filter fun id => decide (id ∈ a.postureChecks)

/-- A rule as `validatePolicy` leaves it. -/
def validRule (policyID : String) (rule : PolicyRule) : PolicyRule :=
  { rule with
    id := if rule.id = "" then policyID else rule.id
    policyID := if rule.id = "" then policyID else rule.policyID
    sources := a.getValidGroupIDs rule.sources
    destinations := a.getValidGroupIDs rule.destinations }

/-- The policy as `validatePolicy` leaves it. -/
def validPolicy (policy : Policy) : Policy :=
  { policy with
    rules := policy.rules.map (a.validRule policy.id)
    sourcePostureChecks := a.getValidPostureCheckIDs policy.sourcePostureChecks }

/-- The version of a policy that an update stores. -/
def savedPolicy (policy existing : Policy) : Policy :=
  { a.validPolicy policy with publicID := existing.publicID }

def createPolicy (policy : Policy) : Handled :=
  let account := { a with policies := a.policies ++ [a.validPolicy policy] }
  let change : Change := { policies := [a.validPolicy policy] }
  { account, change, snapshot := account.load change }

def updatePolicy (policy : Policy) (renamed : Bool) : Option Handled :=
  match a.policies.find? (·.id = policy.id) with
  | none => none
  | some existing =>
    -- a rule keeps its id or gets one
    if policy.rules.any fun rule => rule.id ≠ "" && !existing.rules.any (·.id = rule.id) then none
    else if !renamed && (a.validPolicy policy).equal existing then
      some { account := a, change := {}, snapshot := {} }
    else
      let saved := a.savedPolicy policy existing
      let account := { a with
        policies := a.policies.map fun p => if p.id = policy.id then saved else p }
      let change : Change := { policies := [existing, saved] }
      some { account, change, snapshot := account.load change }

/-- The collections are loaded before the policy is deleted. -/
def deletePolicy (policyID : String) : Option Handled :=
  (a.policies.find? (·.id = policyID)).map fun policy =>
    let change : Change := { policies := [policy] }
    { account := { a with policies := a.policies.filter (·.id ≠ policyID) }
      change
      snapshot := a.load change }

def handlePolicy : PolicyEdit → Option Handled
  | .create policy => some (a.createPolicy policy)
  | .update policy renamed => a.updatePolicy policy renamed
  | .delete policyID => a.deletePolicy policyID

end Account

/-- A policy comes with one rule. -/
def PolicyEdit.Valid : PolicyEdit → Prop
  | .create policy => policy.SingleRule
  | .update policy _ => policy.SingleRule
  | .delete _ => True

/-- The old and the new version of the policy. -/
def PolicyEdit.versions (a : Account) : PolicyEdit → List Policy
  | .create policy => [a.validPolicy policy]
  | .update policy _ => (a.policies.filter (·.id = policy.id)).flatMap fun existing =>
      [existing, a.savedPolicy policy existing]
  | .delete policyID => a.policies.filter (·.id = policyID)

/-- The rule is in force in a version of the policy and has the peer on none of its sides. -/
def PolicyEdit.PassesBy (e : PolicyEdit) (a : Account) (P : String) (rule : PolicyRule) : Prop :=
  ∃ policy ∈ e.versions a, policy.enabled ∧ rule ∈ policy.rules ∧ rule.enabled ∧
    rule.Outside a.groups P

/-- None of the exceptions applies to the peer. -/
structure PolicyEdit.Clear (e : PolicyEdit) (a : Account) (env : Env) (P : String) : Prop where
  named : ∀ rule, e.PassesBy a P rule → rule.destinationResource.type = resourceTypePeer →
    ∀ r ∈ a.networkResources, P ∈ (a.mapData env).networkRouters r.networkID →
      rule.destinationResource.id ≠ r.id
  access : ∀ rule, e.PassesBy a P rule → ∀ r ∈ a.routes, r.enabled → r.ServedBy a.groups P →
    ∀ ag ∈ r.accessControlGroups, ag ∉ rule.destinations
  source : ∀ rule, e.PassesBy a P rule → ∀ r ∈ a.networkResources, r.enabled →
    a.leadsTo rule r.id →
      (∃ other ∈ usablePolicies ((a.mapData env).resourcePolicies.setAt r.id),
        (a.mapData env).letsIn env P other = true) →
      ∀ q ∈ sideIDs a.groups rule.sourceResource rule.sources, ¬(a.mapData env).MayUse env P q

namespace Account

variable {a : Account} {env : Env} {P : String} {zone : CustomZone} {e : PolicyEdit} {out : Handled}

variable {policy : Policy}

theorem singleRule_validPolicy (hp : policy.SingleRule) : (a.validPolicy policy).SingleRule := by
  obtain ⟨rule, ho, hs⟩ := hp
  refine ⟨a.validRule policy.id rule, by simp [validPolicy, ho], fun hpr => ?_⟩
  simp [validRule, getValidGroupIDs, hs hpr]

/-- The edit replaces the old version of the policy, if there is one, by the new one, if there is
one. -/
structure Replaces (a : Account) (e : PolicyEdit) (out : Handled) (front old new back : List Policy) :
    Prop where
  before : a.policies = front ++ old ++ back
  after : out.account = a.withPolicies (front ++ new ++ back)
  change : out.change = { policies := old ++ new }
  versions : ∀ policy ∈ old ++ new, policy ∈ e.versions a
  some_version : old ++ new ≠ []
  single : ∀ policy ∈ new, policy.SingleRule
  snapshot : out.snapshot = a.load out.change ∨ out.snapshot = out.account.load out.change

namespace Replaces

variable {front old new back : List Policy} (hr : a.Replaces e out front old new back)

include hr

theorem mem_of_mem {policy : Policy} (hp : policy ∈ front ++ back) : policy ∈ a.policies := by
  rw [hr.before]
  rcases mem_append.1 hp with hp | hp <;> simp [hp]

theorem wellFormed (h : a.WellFormed) : out.account.WellFormed := by
  rw [hr.after]
  refine h.withPolicies fun policy hp => ?_
  simp only [mem_append, or_assoc] at hp
  rcases hp with hp | hp | hp
  · exact h.single_rule policy (hr.mem_of_mem (mem_append_left _ hp))
  · exact hr.single policy hp
  · exact h.single_rule policy (hr.mem_of_mem (mem_append_right _ hp))

end Replaces

theorem exists_split_of_find (hids : (a.policies.map (·.id)).Nodup) {id : String}
    {existing : Policy} (hfn : a.policies.find? (·.id = id) = some existing) :
    existing.id = id ∧ ∃ front back, a.policies = front ++ [existing] ++ back ∧
      ∀ p ∈ front ++ back, p.id ≠ id := by
  obtain ⟨hid, front, back, hpl, hf⟩ := List.find?_eq_some_iff_append.1 hfn
  have hid : existing.id = id := by simpa using hid
  refine ⟨hid, front, back, by rw [hpl, append_assoc]; rfl, fun p hp heq => ?_⟩
  rcases mem_append.1 hp with hp | hp
  · exact absurd (hf p hp) (by simp [heq])
  · rw [hpl, map_append, map_cons] at hids
    have hn := (nodup_cons.1 (nodup_append.1 hids).2.1).1
    exact hn (mem_map.2 ⟨p, hp, heq.trans hid.symm⟩)

theorem replaces_createPolicy (hp : policy.SingleRule) :
    a.Replaces (.create policy) (a.createPolicy policy) a.policies [] [a.validPolicy policy] [] where
  before := by simp
  after := by simp [createPolicy, withPolicies]
  change := rfl
  versions _ hp := hp
  some_version := by simp
  single p hp' := by
    rw [mem_singleton.1 hp']
    exact singleRule_validPolicy hp
  snapshot := .inr rfl

variable (hids : (a.policies.map (·.id)).Nodup)

include hids

theorem updatePolicy_spec {renamed : Bool}
    (hp : policy.SingleRule) (hot : a.updatePolicy policy renamed = some out) :
    out.account = a ∨ ∃ front old new back,
      a.Replaces (.update policy renamed) out front old new back := by
  unfold updatePolicy at hot
  split at hot
  · cases hot
  · rename_i existing hf
    obtain ⟨hid, front, back, hpl, ho⟩ := exists_split_of_find hids hf
    split_ifs at hot
    · exact .inl (Option.some.inj hot ▸ rfl)
    · cases hot
      have hk {l : List Policy} (hl : ∀ p ∈ l, p.id ≠ policy.id) :
          (l.map fun p => if p.id = policy.id then a.savedPolicy policy existing else p) = l :=
        map_congr_left (fun p hp => if_neg (hl p hp)) |>.trans (map_id l)
      have hm : existing ∈ a.policies.filter (·.id = policy.id) :=
        mem_filter.2 ⟨by simp [hpl], decide_eq_true hid⟩
      refine .inr ⟨front, [existing], [a.savedPolicy policy existing], back, ?_⟩
      exact
        { before := hpl
          after := by
            simp [withPolicies, hpl, hid, hk fun p hp => ho p (mem_append_left _ hp),
              hk fun p hp => ho p (mem_append_right _ hp)]
          change := rfl
          versions := fun p hp => mem_flatMap.2 ⟨existing, hm, hp⟩
          some_version := by simp
          single := fun p hp' => by
            rw [mem_singleton.1 hp']
            exact singleRule_validPolicy hp
          snapshot := .inr rfl }

theorem deletePolicy_spec {policyID : String}
    (hot : a.deletePolicy policyID = some out) : ∃ front old new back,
      a.Replaces (.delete policyID) out front old new back := by
  obtain ⟨policy, hfn, rfl⟩ := Option.map_eq_some_iff.1 hot
  obtain ⟨hid, front, back, hpl, ho⟩ := exists_split_of_find hids hfn
  have hk {l : List Policy} (hl : ∀ p ∈ l, p.id ≠ policyID) :
      l.filter (fun p => decide (p.id ≠ policyID)) = l :=
    filter_eq_self.2 fun p hp => decide_eq_true (hl p hp)
  refine ⟨front, [policy], [], back, ?_⟩
  exact
    { before := hpl
      after := by
        have hf := hk fun p hp => ho p (mem_append_left _ hp)
        have hb := hk fun p hp => ho p (mem_append_right _ hp)
        rw [hpl, filter_append, filter_append, hf, hb]
        simp [withPolicies, hid]
      change := rfl
      versions := fun p hp => by
        obtain rfl := mem_singleton.1 hp
        exact mem_filter.2 ⟨by simp [hpl], decide_eq_true hid⟩
      some_version := by simp
      single := by simp
      snapshot := .inl rfl }

/-- An edit is skipped or replaces a version of the policy by another. -/
theorem handlePolicy_spec (hv : e.Valid) (ho : a.handlePolicy e = some out) :
    out.account = a ∨ ∃ front old new back, a.Replaces e out front old new back := by
  cases e with
  | create policy =>
    cases ho
    exact .inr ⟨_, _, _, _, replaces_createPolicy hv⟩
  | update policy renamed => exact updatePolicy_spec hids hv ho
  | delete policyID => exact .inr (deletePolicy_spec hids ho)

end Account

/-! ### Whom the resolver finds -/

namespace Resolver

variable {r : Resolver} {a : Account} {P : String} {policy : Policy}

theorem has_walk_of_policy {groups : StrMap Group} (hp : policy ∈ r.change.policies)
    (side : PolicySide) (hs : (r.foldPolicySide policy side).Has groups P) :
    r.walk.Has groups P := by
  have hpr : (collect r.bothSidesPolicies fun policy =>
      r.foldPolicySide policy .source ++ r.foldPolicySide policy .destination).Has groups P := by
    refine has_collect.2 ⟨policy, mem_append_left _ hp, has_append.2 ?_⟩
    cases side with
    | source => exact .inl hs
    | destination => exact .inr hs
  simp [walk, has_append, hpr]

theorem has_foldPolicySide {rule : PolicyRule}
    (hr : rule ∈ policy.rules) (side : PolicySide)
    (hs : P ∈ sideIDs a.groups (ruleSideResource rule side) (ruleSideGroups rule side)) :
    (r.foldPolicySide policy side).Has a.groups P :=
  has_append.2 (.inl (has_collect.2 ⟨rule, hr, has_ruleSide side hs⟩))

/-- The routers of a resource that a changed policy leads to are found, unless a rule names the
resource as a peer. -/
theorem has_foldPolicySide_of_router (hl : r.snap.LoadedFrom a) (h : a.WellFormed)
    {rule : PolicyRule} (hr : rule ∈ policy.rules) {resource : NetworkResource}
    (hrs : resource ∈ a.networkResources) (he : resource.enabled)
    (hld : a.leadsTo rule resource.id) (hn : rule.destinationResource.type = resourceTypePeer →
      rule.destinationResource.id ≠ resource.id)
    (hP : P ∈ a.toNetworkMapData.networkRouters resource.networkID) :
    (r.foldPolicySide policy .destination).Has a.groups P := by
  have hne := (h.resource_id resource hrs).1
  refine has_append.2 (.inr (has_onlyIf.2 ⟨rfl, has_foldRoutersOnNetworks hl ?_ hP⟩))
  refine mem_map.2 ⟨resource, mem_filter.2 ⟨?_, contains_iff_mem.2 ?_⟩, rfl⟩
  · rw [networkResources, hl.resources]
    exact mem_filter.2 ⟨hrs, he⟩
  · rcases (Account.leadsTo_iff h).1 hld with hid | ⟨gid, hgd, g, hg, res, hin, hid⟩
    · refine mem_append_left _ (mem_flatMap.2 ⟨rule, hr, ?_⟩)
      have hty : rule.destinationResource.type ≠ resourceTypePeer := fun ht => hn ht hid
      simp [directResourceIDs, hty, hid, hne]
    · refine mem_append_right _ (mem_flatMap.2 ⟨gid, mem_flatMap.2 ⟨rule, hr, hgd⟩, ?_⟩)
      rw [hl.groups, hg]
      exact mem_filter.2 ⟨mem_map.2 ⟨res, hin, hid⟩, decide_eq_true hne⟩

end Resolver

namespace Account

variable {a : Account} {env : Env} {P : String} {zone : CustomZone} {e : PolicyEdit} {out : Handled}
  {front old new back : List Policy}

theorem mayUse_withPolicies (h : a.WellFormed) {policies : List Policy}
    (h' : (a.withPolicies policies).WellFormed) (hsb : ∀ policy ∈ policies, policy ∈ a.policies)
    {q : String} (hq : ((a.withPolicies policies).mapData env).MayUse env P q) :
    (a.mapData env).MayUse env P q := by
  have hs := sameStore_withPolicies a policies env
  obtain ⟨r, hr, he, hsr, hin, ag, hag, policy, hp, hpe, rule, hru, hre, hd, hsd, ha⟩ := hq
  rw [mapData_groups] at hsr hin hsd
  refine ⟨r, hs.routes ▸ hr, he, ?_, ?_, ag, hag, policy, ?_, hpe, rule, hru, hre, hd, ?_,
    (hs.admits_iff (h.mapData env) (h'.mapData env)).1 ha⟩
  · rw [mapData_groups]
    exact hsr
  · rw [mapData_groups]
    exact hin
  · rw [mapData_policies, proxyPolicies_withPolicies] at hp
    rw [mapData_policies]
    exact mem_append.2 ((mem_append.1 hp).imp_left (hsb policy))
  · rw [mapData_groups]
    exact hsd

theorem exists_letsIn_withPolicies (h : a.WellFormed) {policies : List Policy}
    (h' : (a.withPolicies policies).WellFormed) (hsb : ∀ policy ∈ policies, policy ∈ a.policies)
    (hP : P ∈ a.peers) (hv : P ∈ a.validatedPeers) {r : NetworkResource}
    (hr : r ∈ a.networkResources) (he : r.enabled) (hin : ∃ other ∈ usablePolicies
        (((a.withPolicies policies).mapData env).resourcePolicies.setAt r.id),
      ((a.withPolicies policies).mapData env).letsIn env P other) :
    ∃ other ∈ usablePolicies ((a.mapData env).resourcePolicies.setAt r.id),
      (a.mapData env).letsIn env P other := by
  obtain ⟨other, ho, hl⟩ := hin
  obtain ⟨peer, hpr⟩ := mem_iff_lookup.1 hP
  have ht := (h.twin h' hpr hv env {}).letsIn
  rw [ht] at hl
  refine ⟨other, ?_, hl⟩
  rw [setAt_of_lookup (lookup_mapData hr he)]
  rw [setAt_of_lookup (lookup_mapData (a := a.withPolicies policies) hr he),
    proxyPolicies_withPolicies] at ho
  obtain ⟨ho, hoe, hrl⟩ := mem_usablePolicies.1 ho
  refine mem_usablePolicies.2 ⟨mem_append.2 ((mem_append.1 ho).imp_left fun hmm => ?_), hoe, hrl⟩
  obtain ⟨hmm, hrs⟩ := mem_policiesForResource.1 hmm
  exact mem_policiesForResource.2 ⟨hsb other hmm, hrs⟩

/-- Neither version of the policy reaches a peer that is not affected, when none of the exceptions
applies. -/
theorem bypassed_of_not_mem (h : a.WellFormed) (hP : P ∈ a.peers) (hv : P ∈ a.validatedPeers)
    (hr : a.Replaces e out front old new back) (hcl : e.Clear a env P)
    (hn : P ∉ out.snapshot.expand out.change) :
    (a.withPolicies (front ++ back)).Bypassed env P (old ++ new) := by
  have hsb : ∀ policy ∈ front ++ back, policy ∈ a.policies := fun policy hp => hr.mem_of_mem hp
  have hb : (a.withPolicies (front ++ back)).WellFormed :=
    h.withPolicies fun policy hp => h.single_rule policy (hsb policy hp)
  obtain ⟨policies, hw, hs⟩ : ∃ policies, (a.withPolicies policies).WellFormed ∧
      out.snapshot = (a.withPolicies policies).load out.change := by
    rcases hr.snapshot with hs | hs
    · exact ⟨a.policies, h, hs⟩
    · refine ⟨front ++ new ++ back, ?_, ?_⟩
      · rw [← hr.after]
        exact hr.wellFormed h
      · rw [← hr.after]
        exact hs
  have hc : out.change.policies = old ++ new := by rw [hr.change]
  have hsm : out.change.policies ≠ [] := by rw [hc]; exact hr.some_version
  have hld := loadedFrom_load (a.withPolicies policies) (.inl hsm)
  rw [hs] at hn
  have hwl := not_has_walk (by simp [Change.isEmpty, hsm]) hld hn
  -- a peer on a side of a rule would have been found
  have hot {policy : Policy} (hp : policy ∈ old ++ new) {rule : PolicyRule}
      (hru : rule ∈ policy.rules) : rule.Outside a.groups P := by
    have hm : policy ∈ out.change.policies := hc ▸ hp
    exact ⟨fun hin => hwl (has_walk_of_policy hm .source
        (has_foldPolicySide (a := a.withPolicies policies) hru .source hin)),
      fun hin => hwl (has_walk_of_policy hm .destination
        (has_foldPolicySide (a := a.withPolicies policies) hru .destination hin))⟩
  have hps {policy : Policy} (hp : policy ∈ old ++ new) (hpe : policy.enabled) {rule : PolicyRule}
      (hru : rule ∈ policy.rules) (hre : rule.enabled) : e.PassesBy a P rule :=
    ⟨policy, hr.versions policy hp, hpe, hru, hre, hot hp hru⟩
  refine ⟨fun policy hp _ rule hru _ => hot hp hru,
    fun policy hp hpe rule hru hre r hrs he hl => ?_,
    fun policy hp hpe rule hru hre => hcl.access rule (hps hp hpe hru hre),
    fun policy hp hpe rule hru hre r hrs he hl hin q hq hmy => ?_⟩
  · rw [networkRouters_withPolicies, networkRouters_mapData]
    intro hin
    refine hwl (has_walk_of_policy (hc ▸ hp) .destination
      (has_foldPolicySide_of_router hld hw hru hrs he hl (fun ht => ?_) hin))
    refine hcl.named rule (hps hp hpe hru hre) ht r hrs ?_
    rw [networkRouters_mapData]
    exact hin
  · exact hcl.source rule (hps hp hpe hru hre) r hrs he hl
      (exists_letsIn_withPolicies h hb hsb hP hv hrs he hin) q hq
      (mayUse_withPolicies h hb hsb hmy)

/-- The edit changes the network map of a validated peer that it does not count as affected. -/
def PolicyMisses (a : Account) (e : PolicyEdit) (P : String) : Prop :=
  a.WellFormed ∧ (a.policies.map (·.id)).Nodup ∧ e.Valid ∧ P ∈ a.peers ∧ P ∈ a.validatedPeers ∧
    ∃ out, a.handlePolicy e = some out ∧
      ¬(a.networkMap Env.plain {} P).Same (out.account.networkMap Env.plain {} P) ∧
      P ∉ out.snapshot.expand out.change

/-- A user and a gateway with a resource on a network, and a group that controls access. -/
def gatewayAccount (policies : List Policy) (routes : List Route) (routers : List AccountRouter) :
    Account where
  peers := (AList.insert "user" { id := "user", key := "k1", ip := .from4 100 64 0 1 }
    ∅).insert "gate" { id := "gate", key := "k2", ip := .from4 100 64 0 2 }
  groups := ((AList.insert "users" { id := "users", peers := ["user"] } ∅).insert "gates"
    { id := "gates", peers := ["gate"] }).insert "lan" { id := "lan", peers := [] }
  policies := policies
  routes := routes
  networkRouters := routers
  networkResources := [{ id := "db", networkID := "net", type := resourceTypeHost }]
  validatedPeers := ["user", "gate"]

/-- A policy from a group to a group or a resource. -/
def samplePolicy (id source : String) (destinations : List String) (resource : Resource) :
    Policy where
  id := id
  rules := [{ id := id, sources := [source], destinations := destinations,
              destinationResource := resource }]

theorem singleRule_samplePolicy (id source : String) (destinations : List String)
    (res : Resource) : (samplePolicy id source destinations res).SingleRule :=
  ⟨_, rfl, fun hp => by simp [Resource.isPeer] at hp⟩

/-- A route that the gateway serves, with access controlled by a group. -/
def gatewayRoute : Route where
  id := "lan-route"
  peer := "gate"
  groups := ["users"]
  accessControlGroups := ["lan"]
  network := prefixFrom (.from4 10 0 0 0) 8

/-- The gateway routes the network. -/
def gatewayRouter : AccountRouter where
  id := "router"
  networkID := "net"
  peer := "gate"

end Account

end Cloink
