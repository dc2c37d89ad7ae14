import Cloink.Lib.FinMap
import Cloink.Lib.Netip
import Mathlib.Data.Multiset.Basic

/-!
# The firewall backend

The tables of filter rules behind the ACL manager (`client/firewall/manager`, `uspfilter`). A rule
is identified by its content: the hash of `GenerateRuleID` is taken to be free of collisions, so the
id is the content with the sources as a multiset, and the set of a list of domains is the multiset
of its domains. Which calls of the backend fail is given by a function of the number of earlier
calls.
-/

namespace Cloink

open Netip AList

namespace Firewall

inductive Protocol where
  | ALL
  | TCP
  | UDP
  | ICMP
  deriving DecidableEq

inductive Action where
  | accept
  | drop
  deriving DecidableEq

structure Port where
  isRange : Bool := false
  values : List UInt16
  deriving DecidableEq

/-- The destination of a rule: none, a prefix or the set of a list of domains. -/
inductive Network where
  | zero
  | ofPrefix (p : Prefix)
  | ofDomains (domains : Multiset String)
  deriving DecidableEq

structure RuleID where
  sources : Multiset Prefix
  destination : Network
  proto : Protocol
  sPort : Option Port
  dPort : Option Port
  action : Action
  deriving DecidableEq

/-- An installed rule, with the id of the policy it was first asked for. -/
structure Rule where
  id : RuleID
  mgmtID : String
  deriving DecidableEq

def RuleID.isPeer (id : RuleID) : Bool := id.destination = .zero

/-- The arguments of `AddFilterRule`. -/
structure Request where
  mgmtID : String
  sources : List Prefix
  destination : Network := .zero
  proto : Protocol
  sPort : Option Port := none
  dPort : Option Port := none
  action : Action
  deriving DecidableEq

/-- The prefix of a mapped address as one of IPv4. -/
def unmapPrefix (p : Prefix) : Prefix :=
  if !p.addr.is4In6 then p else prefixFrom p.addr.unmap (p.bits.getD 0 - 96)

/-- `GenerateRuleID`; peer rules are stored with unmapped sources. -/
def Request.ruleID (req : Request) : RuleID where
  sources := if req.destination = .zero then req.sources.map unmapPrefix else req.sources
  destination := req.destination
  proto := req.proto
  sPort := req.sPort
  dPort := req.dPort
  action := req.action

abbrev RuleTable := AList fun _ : RuleID => Rule

structure Tables where
  peerRules : RuleTable := ∅
  routeRules : RuleTable := ∅

namespace Tables

def table (t : Tables) (id : RuleID) : RuleTable := if id.isPeer then t.peerRules else t.routeRules

/-- Changes the table of a rule. -/
def update (t : Tables) (id : RuleID) (f : RuleTable → RuleTable) : Tables :=
  if id.isPeer then { t with peerRules := f t.peerRules }
  else { t with routeRules := f t.routeRules }

/-- Returns the rule with the content of the request, and installs it if it is not there. A
request without sources is refused. -/
def addFilterRule (t : Tables) (req : Request) : Option (Rule × Tables) :=
  if req.sources.isEmpty then none
  else match (t.table req.ruleID).lookup req.ruleID with
    | some existing => some (existing, t)
    | none =>
      let rule : Rule := ⟨req.ruleID, req.mgmtID⟩
      some (rule, t.update req.ruleID (·.insert req.ruleID rule))

def deleteFilterRule (t : Tables) (rule : Rule) : Option Tables :=
  if rule.id ∈ t.table rule.id then some (t.update rule.id (·.erase rule.id)) else none

def Has (t : Tables) (id : RuleID) : Prop := id ∈ t.table id

instance (t : Tables) (id : RuleID) : Decidable (t.Has id) :=
  inferInstanceAs (Decidable (id ∈ t.table id))

/-- Rules are stored under their id, in the table of their kind. -/
structure WellFormed (t : Tables) : Prop where
  peer : ∀ id rule, t.peerRules.lookup id = some rule → rule.id = id ∧ id.isPeer = true
  route : ∀ id rule, t.routeRules.lookup id = some rule → rule.id = id ∧ id.isPeer = false

variable {t : Tables}

variable {id : RuleID} {rule : Rule}

variable (h : t.WellFormed)

include h

theorem mem_peerRules : id ∈ t.peerRules ↔ t.Has id ∧ id.isPeer := by
  constructor
  · intro hm
    obtain ⟨rule, hr⟩ := mem_iff_lookup.1 hm
    have hp := (h.peer id rule hr).2
    exact ⟨by rw [Has, table, if_pos hp]; exact hm, hp⟩
  · rintro ⟨hh, hp⟩
    rwa [Has, table, if_pos hp] at hh

theorem mem_routeRules : id ∈ t.routeRules ↔ t.Has id ∧ id.isPeer = false := by
  constructor
  · intro hm
    obtain ⟨rule, hr⟩ := mem_iff_lookup.1 hm
    have hp := (h.route id rule hr).2
    exact ⟨by rw [Has, table, hp]; exact hm, hp⟩
  · rintro ⟨hh, hp⟩
    rwa [Has, table, hp] at hh

theorem id_of_lookup_table (hr : (t.table id).lookup id = some rule) : rule.id = id := by
  unfold table at hr
  split at hr
  · exact (h.peer id rule hr).1
  · exact (h.route id rule hr).1

/-! ### Single operations -/

theorem wellFormed_insert (hid : rule.id = id) : (t.update id (·.insert id rule)).WellFormed := by
  cases hp : id.isPeer with
  | true =>
    refine ⟨fun id' rule' h' => ?_, by simpa [update, hp] using h.route⟩
    rw [update, if_pos hp] at h'
    rcases lookup_insert_some.1 h' with ⟨rfl, rfl⟩ | ⟨-, ho⟩
    · exact ⟨hid, hp⟩
    · exact h.peer id' rule' ho
  | false =>
    refine ⟨by simpa [update, hp] using h.peer, fun id' rule' h' => ?_⟩
    simp only [update, hp, Bool.false_eq_true, if_false] at h'
    rcases lookup_insert_some.1 h' with ⟨rfl, rfl⟩ | ⟨-, ho⟩
    · exact ⟨hid, hp⟩
    · exact h.route id' rule' ho

theorem wellFormed_erase (id : RuleID) : (t.update id (·.erase id)).WellFormed := by
  have hs {m : RuleTable} {id' : RuleID} {rule' : Rule}
      (h' : (m.erase id).lookup id' = some rule') : m.lookup id' = some rule' := by
    by_cases he : id' = id
    · subst he
      simp at h'
    · rwa [lookup_erase_ne he] at h'
  unfold update
  split
  · exact ⟨fun id' rule' h' => h.peer id' rule' (hs h'), h.route⟩
  · exact ⟨h.peer, fun id' rule' h' => h.route id' rule' (hs h')⟩

omit h

theorem has_update_insert {id' : RuleID} :
    (t.update id (·.insert id rule)).Has id' ↔ id' = id ∨ t.Has id' := by
  unfold Has table update
  cases hp : id.isPeer <;> cases hp' : id'.isPeer <;> simp only [Bool.false_eq_true, if_true,
    if_false, mem_insert]
  · exact ⟨.inr, fun h => h.resolve_left fun he => by simp [he, hp] at hp'⟩
  · exact ⟨.inr, fun h => h.resolve_left fun he => by simp [he, hp] at hp'⟩

theorem has_update_erase {id' : RuleID} :
    (t.update id (·.erase id)).Has id' ↔ id' ≠ id ∧ t.Has id' := by
  unfold Has table update
  cases hp : id.isPeer <;> cases hp' : id'.isPeer <;> simp only [Bool.false_eq_true, if_true,
    if_false, mem_erase]
  · exact ⟨fun h => ⟨fun he => by simp [he, hp] at hp', h⟩, And.right⟩
  · exact ⟨fun h => ⟨fun he => by simp [he, hp] at hp', h⟩, And.right⟩

end Tables

/-! ### Calls that can fail -/

/-- The tables and the number of calls made so far. -/
structure Backend where
  tables : Tables := {}
  calls : Nat := 0

namespace Backend

variable (fails : Nat → Bool) (b : Backend)

/-- The rule of the request, or nothing when the call fails. -/
def addFilterRule (req : Request) : Option Rule × Backend :=
  let failed := (none, { b with calls := b.calls + 1 })
  if fails b.calls then failed
  else match b.tables.addFilterRule req with
    | none => failed
    | some (rule, tables) => (some rule, ⟨tables, b.calls + 1⟩)

def deleteFilterRule (rule : Rule) : Bool × Backend :=
  let failed := (false, { b with calls := b.calls + 1 })
  if fails b.calls then failed
  else match b.tables.deleteFilterRule rule with
    | none => failed
    | some tables => (true, ⟨tables, b.calls + 1⟩)

/-- Whether the call succeeded; the userspace backend has nothing to do. -/
def flush : Bool × Backend := (!fails b.calls, { b with calls := b.calls + 1 })

variable {b}

/-- A call that fails changes no table; one that succeeds returns the rule with the content of the
request, which is installed from then on. -/
theorem addFilterRule_spec (h : b.tables.WellFormed) (req : Request) :
    let r := b.addFilterRule fails req
    r.2.tables.WellFormed ∧
      ((r.1 = none ∧ r.2.tables = b.tables) ∨ ∃ rule, r.1 = some rule ∧ rule.id = req.ruleID ∧
          ∀ id, r.2.tables.Has id ↔ id = req.ruleID ∨ b.tables.Has id) := by
  unfold addFilterRule Tables.addFilterRule
  dsimp only
  split
  · exact ⟨h, .inl ⟨rfl, rfl⟩⟩
  · split
    · exact ⟨h, .inl ⟨rfl, rfl⟩⟩
    · rename_i rule tables ha
      split at ha
      · cases ha
      · split at ha
        · -- the rule is there already
          rename_i existing hex
          obtain ⟨rfl, rfl⟩ := Prod.mk.inj (Option.some.inj ha)
          have hh : b.tables.Has req.ruleID := mem_of_lookup hex
          refine ⟨h, .inr ⟨_, rfl, Tables.id_of_lookup_table h hex, fun id => ⟨.inr, ?_⟩⟩⟩
          rintro (rfl | hid')
          · exact hh
          · exact hid'
        · obtain ⟨rfl, rfl⟩ := Prod.mk.inj (Option.some.inj ha)
          exact ⟨Tables.wellFormed_insert h rfl, .inr ⟨_, rfl, rfl, fun id =>
            Tables.has_update_insert⟩⟩

theorem deleteFilterRule_spec (h : b.tables.WellFormed) (rule : Rule) :
    let r := b.deleteFilterRule fails rule
    r.2.tables.WellFormed ∧ ((r.1 = false ∧ r.2.tables = b.tables) ∨
        (r.1 ∧ ∀ id, r.2.tables.Has id ↔ id ≠ rule.id ∧ b.tables.Has id)) := by
  unfold deleteFilterRule Tables.deleteFilterRule
  dsimp only
  split
  · exact ⟨h, .inl ⟨rfl, rfl⟩⟩
  · split
    · exact ⟨h, .inl ⟨rfl, rfl⟩⟩
    · rename_i tables hd
      obtain ⟨-, hu⟩ := Option.ite_none_right_eq_some.1 hd
      cases hu
      exact ⟨Tables.wellFormed_erase h rule.id, .inr ⟨rfl, fun id => Tables.has_update_erase⟩⟩

end Backend

end Firewall

end Cloink
