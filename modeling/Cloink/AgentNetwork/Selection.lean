import Cloink.AgentNetwork.Consumption
import Cloink.AgentNetwork.Guardrail
import Mathlib.Data.Prod.Lex

/-!
# Selecting the policy that pays for a request

`SelectPolicyForRequest` takes the policies that apply to a request, drops those whose guardrails do
not permit the model, checks the ceilings of the account, drops the policies with an exhausted cap,
and takes the first of the rest: policies without caps, then the larger pools, then the older ones.

## Main definitions

* `rank`: the order in which policies pay.
* `Exact`: a decision is what policies and counters call for.

## Main results

* `decideCandidates_exact`, `selectDecision_exact`: every decision is exact.
* `selectDecision_isOk_iff`: when there is a decision.
-/

namespace Cloink.AgentNetwork

open List Except

/-! ### The store -/

/-- The records of the accounts, and which accesses fail. -/
structure Store (USD : Type) where
  account : String → Account USD
  budgetRules : String → List (AccountBudgetRule USD)
  consumption : ConsumptionTable USD
  failing : Query → Bool := fun _ => false

/-- The answer of the store, unless the access fails. -/
def Store.answer {USD α : Type} (store : Store USD) (query : Query) (a : α) : Except Error α :=
  if store.failing query then .error (.store query) else .ok a

structure PolicySelectionInput where
  accountID : String
  userID : String
  groupIDs : List String
  providerID : String
  model : String

/-! ### Groups and applicability -/

variable {USD : Type}

/-- The lowest group of the caller that is among the source groups; empty when there is none. -/
def lowestIntersect (sourceGroups callerGroups : List String) : String :=
  callerGroups.foldl (fun best g =>
    if sourceGroups.contains g then if best = "" || g < best then g else best else best) ""

/-- One of the groups is a group of the caller; the empty id is no group. -/
def anyGroupMatches (groups callerGroups : List String) : Bool :=
  groups.any fun g => (callerGroups.filter (· ≠ "")).contains g

def filterApplicablePolicies (policies : List (Policy USD)) (inp : PolicySelectionInput) :
    List (Policy USD) :=
  policies.filter fun p => p.enabled && p.destinationProviderIDs.contains inp.providerID &&
    anyGroupMatches p.sourceGroups inp.groupIDs

def budgetRuleApplies (r : AccountBudgetRule USD) (inp : PolicySelectionInput) : Bool :=
  (r.targetUsers.isEmpty && r.targetGroups.isEmpty) ||
    (inp.userID ≠ "" && r.targetUsers.contains inp.userID) ||
    anyGroupMatches r.targetGroups inp.groupIDs

/-- The enabled rules that bind the caller. -/
def applicableRules (rules : List (AccountBudgetRule USD)) (inp : PolicySelectionInput) :
    List (AccountBudgetRule USD) :=
  rules.filter fun r => r.enabled && budgetRuleApplies r inp

/-! ### Outcomes -/

/-- A policy with headroom, the group it attributes the request to and the window to book. -/
structure Candidate (USD : Type) where
  policy : Policy USD
  attributionGroup : String
  windowSeconds : Int
  deriving DecidableEq

structure PolicySelectionResult where
  allow : Bool
  selectedPolicyID : String := ""
  attributionGroupID : String := ""
  windowSeconds : Int := 0
  denyCode : String := ""
  denyReason : String := ""
  deriving DecidableEq

/-- What is decided for a request: it is denied, allowed without a policy, or paid for. -/
inductive Decision (USD : Type) where
  | deny (code reason : String)
  | unattributed
  | pays (winner : Candidate USD)
  deriving DecidableEq

def Decision.result : Decision USD → PolicySelectionResult
  | deny code reason => { allow := false, denyCode := code, denyReason := reason }
  | unattributed => { allow := true }
  | pays winner =>
    { allow := true, selectedPolicyID := winner.policy.id,
      attributionGroupID := winner.attributionGroup, windowSeconds := winner.windowSeconds }

/-! ### The model gate -/

section

variable (text : Text) (policies : List (Policy USD))

def anyPolicyHasGuardrails : Bool :=
  policies.any fun p => !p.guardrailIDs.isEmpty

def anyEnabledModelAllowlist (byID : StrMap Guardrail) : Bool :=
  policies.any fun p => !(enabledAllowlists p byID).isEmpty

def modelBlockedReason (model : String) : String :=
  if normaliseModelID text model = "" then
    "request model could not be determined for the policy allowlist"
  else "model " ++ model.quote ++ " is not permitted by any applicable policy allowlist"

/-- The catalog id of the provider, which is not read when the request has no provider. -/
def providerCatalogID (store : Store USD) (accountID providerID : String) : Except Error String :=
  if providerID = "" then .ok ""
  else store.answer .provider ((store.account accountID).providerCatalogID providerID)

def filterModelPermittedPolicies (byID : StrMap Guardrail)
    (model catalogProviderID : String) : List (Policy USD) :=
  policies.filter fun p => policyPermitsModel text p byID model catalogProviderID

/-- The candidates that permit the model, or the denial when none does. Guardrails and the catalog
id are read only when a candidate may restrict models. -/
def applyModelGate (store : Store USD) (inp : PolicySelectionInput)
    (candidates : List (Policy USD)) : Except Error (List (Policy USD) ⊕ Decision USD) :=
  if candidates.isEmpty || !anyPolicyHasGuardrails candidates then .ok (.inl candidates)
  else do
    let byID ← store.answer .guardrails (guardrailsByID (store.account inp.accountID).guardrails)
    if !anyEnabledModelAllowlist candidates byID then return .inl candidates
    let catalogID ← providerCatalogID store inp.accountID inp.providerID
    let permitted := filterModelPermittedPolicies text candidates byID inp.model catalogID
    if permitted.isEmpty then
      return .inr (.deny "llm_policy.model_blocked" (modelBlockedReason text inp.model))
    return .inl permitted

end

/-! ### Counters -/

/-- Adds the keys of the enabled limits. -/
def addEnabledKeys (userID : String) (limits : PolicyLimits USD) (attrGroup : String) (now : Int)
    (set : List ConsumptionKey) : Except Error (List ConsumptionKey) := do
  let set ← (if limits.tokenLimit.enabled then
    addLimitKeys set userID attrGroup limits.tokenLimit.windowSeconds now else .ok set)
  if limits.budgetLimit.enabled then
    addLimitKeys set userID attrGroup limits.budgetLimit.windowSeconds now else .ok set

/-- The keys that the candidates and the applicable rules read. -/
def prefetchKeys (inp : PolicySelectionInput) (rules : List (AccountBudgetRule USD))
    (candidates : List (Policy USD)) (now : Int) : Except Error (List ConsumptionKey) := do
  let set ← candidates.foldlM (fun set p =>
    addEnabledKeys inp.userID p.limits (lowestIntersect p.sourceGroups inp.groupIDs) now set) []
  (applicableRules rules inp).foldlM (fun set r =>
    addEnabledKeys inp.userID r.limits (lowestIntersect r.targetGroups inp.groupIDs) now set) set

/-- The rows of the keys; without keys the store is not asked. -/
def prefetchConsumption (store : Store USD) (inp : PolicySelectionInput)
    (rules : List (AccountBudgetRule USD)) (candidates : List (Policy USD)) (now : Int) :
    Except Error (AList fun _ : ConsumptionKey => Consumption USD) := do
  let keys ← prefetchKeys inp rules candidates now
  if keys.isEmpty then return ∅
  store.answer .consumption (getBatch store.consumption inp.accountID keys)

section

variable [LinearOrder USD] [Zero USD]

/-- The counters of a key, zero when its row is not in the cache. -/
def cacheGet (cache : AList fun _ : ConsumptionKey => Consumption USD) (key : ConsumptionKey) :
    Consumption USD :=
  (cache.lookup key).getD 0

variable (text : Text) (fmtUSD : USD → String)

/-- The code of an exhausted limit of a policy. -/
def denyCode : CapKind → String
  | .token => "llm_policy.token_cap_exceeded"
  | .budget => "llm_policy.budget_cap_exceeded"

/-- The code of an exhausted limit of a rule. -/
def accountDenyCode : CapKind → String
  | .token => "llm_account.token_cap_exceeded"
  | .budget => "llm_account.budget_cap_exceeded"

variable (inp : PolicySelectionInput)

/-- The denial by the first applicable rule with an exhausted limit. -/
def checkAccountBudget (rules : List (AccountBudgetRule USD))
    (get : ConsumptionKey → Consumption USD) (now : Int) : Except Error (Option (CapKind × String)) :=
  (applicableRules rules inp).findSomeM? fun r =>
    evalLimits fmtUSD get inp.userID (lowestIntersect r.targetGroups inp.groupIDs) r.limits now
      ("account rule " ++ r.id)

variable (p : Policy USD)

/-- The window to book: that of the token limit when it is enabled. -/
def effectiveWindowSeconds : Int :=
  if p.limits.tokenLimit.enabled && p.limits.tokenLimit.windowSeconds > 0 then
    p.limits.tokenLimit.windowSeconds
  else if p.limits.budgetLimit.enabled && p.limits.budgetLimit.windowSeconds > 0 then
    p.limits.budgetLimit.windowSeconds
  else 0

def candidateOf : Candidate USD where
  policy := p
  attributionGroup := lowestIntersect p.sourceGroups inp.groupIDs
  windowSeconds := effectiveWindowSeconds p

/-- The limit of the policy that is exhausted, if one is. -/
def scoreOne (get : ConsumptionKey → Consumption USD) (now : Int) :
    Except Error (Option (CapKind × String)) :=
  evalLimits fmtUSD get inp.userID (lowestIntersect p.sourceGroups inp.groupIDs) p.limits now
    ("policy " ++ p.id)

/-- Adds the candidate of a policy with headroom, or keeps the limit that was found exhausted. -/
def addScored (out : List (Candidate USD) × String × String) :
    Option (CapKind × String) → List (Candidate USD) × String × String
  | some (kind, reason) => (out.1, denyCode kind, reason)
  | none => (out.1 ++ [candidateOf inp p], out.2)

/-- The candidates with headroom, and the last limit that was found exhausted. -/
def scoreCandidates (candidates : List (Policy USD)) (get : ConsumptionKey → Consumption USD)
    (now : Int) : Except Error (List (Candidate USD) × String × String) :=
  candidates.foldlM (fun out p => (scoreOne fmtUSD inp p get now).map (addScored inp p out))
    ([], "", "")

/-- The policy has no enabled cap. -/
def isUncapped : Bool :=
  let tl := p.limits.tokenLimit
  let bl := p.limits.budgetLimit
  !(tl.enabled && tl.windowSeconds > 0 && (tl.groupCap > 0 || tl.userCap > 0)) &&
    !(bl.enabled && bl.windowSeconds > 0 && (bl.groupCapUsd > 0 || bl.userCapUsd > 0))

def groupCapTokens : Int :=
  if p.limits.tokenLimit.enabled then p.limits.tokenLimit.groupCap else 0

def groupCapBudgetUsd : USD :=
  if p.limits.budgetLimit.enabled then p.limits.budgetLimit.groupCapUsd else 0

def userCapTokens : Int :=
  if p.limits.tokenLimit.enabled then p.limits.tokenLimit.userCap else 0

def userCapBudgetUsd : USD :=
  if p.limits.budgetLimit.enabled then p.limits.budgetLimit.userCapUsd else 0

/-- The comparison of the sort: `p` comes before `q`. -/
def comesBefore (p q : Policy USD) : Bool :=
  if isUncapped p ≠ isUncapped q then isUncapped p
  else if groupCapTokens p ≠ groupCapTokens q then groupCapTokens p > groupCapTokens q
  else if groupCapBudgetUsd p ≠ groupCapBudgetUsd q then groupCapBudgetUsd p > groupCapBudgetUsd q
  else if userCapTokens p ≠ userCapTokens q then userCapTokens p > userCapTokens q
  else if userCapBudgetUsd p ≠ userCapBudgetUsd q then userCapBudgetUsd p > userCapBudgetUsd q
  else p.createdAt < q.createdAt

/-- `sort.SliceStable`: candidates of which none comes before the other keep their order. -/
def sortCandidates (scored : List (Candidate USD)) : List (Candidate USD) :=
  scored.mergeSort fun c d => !comesBefore d.policy c.policy

/-- The decision on a request with the given candidates, by the counters that are read. -/
def decideCandidates (rules : List (AccountBudgetRule USD))
    (candidates : List (Policy USD)) (get : ConsumptionKey → Consumption USD) (now : Int) :
    Except Error (Decision USD) := do
  match ← checkAccountBudget fmtUSD inp rules get now with
  | some (kind, reason) => return .deny (accountDenyCode kind) reason
  | none =>
    if candidates.isEmpty then return .unattributed
    let scored ← scoreCandidates fmtUSD inp candidates get now
    match sortCandidates scored.1 with
    | [] => return .deny scored.2.1 scored.2.2
    | winner :: _ => return .pays winner

/-- The decision on a request at the given time. -/
def selectDecision (store : Store USD) (inp : PolicySelectionInput) (now : Int) :
    Except Error (Decision USD) := do
  reject (inp.accountID = "") Error.accountIDRequired
  let rules ← store.answer .budgetRules (store.budgetRules inp.accountID)
  let policies ← store.answer .policies (store.account inp.accountID).policies
  let gate ← applyModelGate text store inp (filterApplicablePolicies policies inp)
  match gate with
  | .inr denied => return denied
  | .inl candidates =>
    let cache ← prefetchConsumption store inp rules candidates now
    decideCandidates fmtUSD inp rules candidates (cacheGet cache) now

def selectPolicyForRequest (store : Store USD) (inp : PolicySelectionInput) (now : Int) :
    Except Error PolicySelectionResult := do
  let decision ← selectDecision text fmtUSD store inp now
  return decision.result

end

/-! ### The documented order -/

section

variable [LinearOrder USD] [Zero USD]

/-- The order of policies, the first one the least: without caps, the larger cap for the group in
tokens and in dollars, the larger cap for the user in tokens and in dollars, the older one. -/
def rank (p : Policy USD) : Bool ×ₗ ℤᵒᵈ ×ₗ USDᵒᵈ ×ₗ ℤᵒᵈ ×ₗ USDᵒᵈ ×ₗ ℤ :=
  toLex (!isUncapped p, toLex (.toDual (groupCapTokens p), toLex (.toDual (groupCapBudgetUsd p),
    toLex (.toDual (userCapTokens p), toLex (.toDual (userCapBudgetUsd p), p.createdAt)))))

theorem lex_lt_iff {α β : Type} [LinearOrder α] [Preorder β] {a a' : α} {b b' : β} :
    toLex (a, b) < toLex (a', b') ↔ if a ≠ a' then a < a' else b < b' := by
  rw [Prod.Lex.toLex_lt_toLex]
  by_cases h : a = a'
  · simp [h]
  · simp [h]

theorem comesBefore_iff {p q : Policy USD} : comesBefore p q ↔ rank p < rank q := by
  have hb : ∀ b c : Bool, (!b) ≠ (!c) ↔ b ≠ c := by decide
  have hlt : isUncapped p ≠ isUncapped q → ((!isUncapped p) < (!isUncapped q) ↔ isUncapped p) := by
    cases isUncapped p <;> cases isUncapped q <;> simp
  simp only [rank, lex_lt_iff, comesBefore, hb, ne_eq, EmbeddingLike.apply_eq_iff_eq,
    OrderDual.toDual_lt_toDual]
  split_ifs <;> simp_all

end

/-! ### What a selection must satisfy -/

section

variable (text : Text) (store : Store USD) (inp : PolicySelectionInput) (now : Int)

/-- The policy is enabled, has the provider, and shares a group with the caller. -/
structure Applies (p : Policy USD) : Prop where
  enabled : p.enabled = true
  provider : inp.providerID ∈ p.destinationProviderIDs
  group : ∃ g ∈ p.sourceGroups, g ∈ inp.groupIDs ∧ g ≠ ""

/-- The guardrails of the policy permit the model. -/
def Permits (p : Policy USD) : Prop :=
  policyPermitsModel text p (guardrailsByID (store.account inp.accountID).guardrails) inp.model
    ((store.account inp.accountID).providerCatalogID inp.providerID) = true

/-- Policies apply, and the guardrails of none permit the model. -/
def ModelBlocked : Prop :=
  (∃ p ∈ (store.account inp.accountID).policies, Applies inp p) ∧
    ∀ p ∈ (store.account inp.accountID).policies, Applies inp p → ¬Permits text store inp p

/-- No window of a limit that the selection looks at wraps around to zero nanoseconds. -/
structure WindowsDivisible : Prop where
  policies : ∀ p ∈ (store.account inp.accountID).policies, Applies inp p →
    Permits text store inp p → p.limits.Divisible
  rules : ∀ r ∈ store.budgetRules inp.accountID, r.enabled = true → budgetRuleApplies r inp = true →
    r.limits.Divisible

variable [LinearOrder USD] [Zero USD]

/-- There is headroom in the store for the caller, who counts for the given group. -/
def Headroom (limits : PolicyLimits USD) (attrGroup : String) : Prop :=
  HasHeadroom (counter store.consumption inp.accountID) inp.userID attrGroup limits now

/-- The policy may pay for the request. -/
structure Eligible (p : Policy USD) : Prop where
  mem : p ∈ (store.account inp.accountID).policies
  applies : Applies inp p
  permits : Permits text store inp p
  headroom : Headroom store inp now p.limits (lowestIntersect p.sourceGroups inp.groupIDs)

/-- Every rule of the account that binds the caller has headroom. -/
def CeilingsHold : Prop :=
  ∀ r ∈ store.budgetRules inp.accountID, r.enabled = true → budgetRuleApplies r inp = true →
    Headroom store inp now r.limits (lowestIntersect r.targetGroups inp.groupIDs)

/-- The policy is eligible, and first among the eligible ones. -/
def IsFirst (p : Policy USD) : Prop :=
  Eligible text store inp now p ∧ ∀ q, Eligible text store inp now q → rank p ≤ rank q

/-- The decision on a request is exact. -/
structure Exact (d : Decision USD) : Prop where
  /-- A request is allowed under the ceilings of the account, and for the policy that is first. -/
  pays : ∀ c, d = .pays c → CeilingsHold store inp now ∧ IsFirst text store inp now c.policy ∧
    c = candidateOf inp c.policy
  /-- It is allowed without a policy when none applies. -/
  unattributed : d = .unattributed → CeilingsHold store inp now ∧
    ∀ p ∈ (store.account inp.accountID).policies, ¬Applies inp p
  /-- When policies apply it is denied for want of an eligible one or by a ceiling. -/
  denied : (∃ p ∈ (store.account inp.accountID).policies, Applies inp p) →
    (d.result.allow = false ↔ (∀ p, ¬Eligible text store inp now p) ∨ ¬CeilingsHold store inp now)

end

/-! ### The stages -/

theorem mem_filterApplicablePolicies {policies : List (Policy USD)} {inp : PolicySelectionInput}
    {p : Policy USD} :
    p ∈ filterApplicablePolicies policies inp ↔ p ∈ policies ∧ Applies inp p := by
  simp only [filterApplicablePolicies, anyGroupMatches, mem_filter, Bool.and_eq_true,
    contains_iff_mem, any_eq_true, decide_eq_true_eq]
  refine and_congr Iff.rfl ⟨fun h => ⟨h.1.1, h.1.2, h.2⟩, fun h => ⟨⟨h.enabled, h.provider⟩, ?_⟩⟩
  exact h.group

theorem answer_eq_ok {α : Type} {store : Store USD} {query : Query} {a b : α} :
    store.answer query a = .ok b ↔ store.failing query = false ∧ a = b := by
  cases h : store.failing query <;> simp [Store.answer, h]

theorem providerCatalogID_empty (account : Account USD) : account.providerCatalogID "" = "" := by
  have hn : account.providers.find? (·.id = "") = none := by
    rw [List.find?_eq_none]
    intro P _
    simpa using P.id_ne_empty
  rw [Account.providerCatalogID, hn]
  rfl

theorem providerCatalogID_eq_ok {store : Store USD} {accountID providerID c : String}
    (h : providerCatalogID store accountID providerID = .ok c) :
    c = (store.account accountID).providerCatalogID providerID := by
  unfold providerCatalogID at h
  split at h
  next he => rw [he, providerCatalogID_empty, ← ok.inj h]
  next => exact (answer_eq_ok.1 h).2.symm

section

variable {text : Text} {store : Store USD} {inp : PolicySelectionInput}
  {candidates : List (Policy USD)}

/-- The candidates that permit the model, by what the store holds. -/
def permitted (text : Text) (store : Store USD) (inp : PolicySelectionInput)
    (candidates : List (Policy USD)) : List (Policy USD) :=
  filterModelPermittedPolicies text candidates
    (guardrailsByID (store.account inp.accountID).guardrails) inp.model
    ((store.account inp.accountID).providerCatalogID inp.providerID)

@[simp] theorem mem_permitted {p : Policy USD} :
    p ∈ permitted text store inp candidates ↔ p ∈ candidates ∧ Permits text store inp p :=
  mem_filter

theorem permitted_eq_self (h : ∀ p ∈ candidates,
      enabledAllowlists p (guardrailsByID (store.account inp.accountID).guardrails) = []) :
    permitted text store inp candidates = candidates :=
  filter_eq_self.2 fun p hp => policyPermitsModel_iff.2 (.inl (h p hp))

/-- The gate passes the candidates that permit the model. When there are candidates and none
does, it denies. -/
theorem applyModelGate_spec {r : List (Policy USD) ⊕ Decision USD}
    (h : applyModelGate text store inp candidates = .ok r) :
    (r = .inl (permitted text store inp candidates) ∧
      (candidates ≠ [] → permitted text store inp candidates ≠ [])) ∨
    candidates ≠ [] ∧ permitted text store inp candidates = [] ∧
      ∃ code reason, r = .inr (.deny code reason) := by
  have ho (ha : ∀ p ∈ candidates,
      enabledAllowlists p (guardrailsByID (store.account inp.accountID).guardrails) = [])
      (hr : Sum.inl candidates = r) :
      r = .inl (permitted text store inp candidates) ∧
        (candidates ≠ [] → permitted text store inp candidates ≠ []) := by
    rw [permitted_eq_self ha]
    exact ⟨hr.symm, id⟩
  unfold applyModelGate at h
  split at h
  next hs =>
    refine .inl (ho (fun p hp => ?_) (ok.inj h))
    have hi : p.guardrailIDs = [] := by
      rcases Bool.or_eq_true_iff.1 hs with he | hn
      · rw [isEmpty_iff.1 he] at hp
        cases hp
      · simp only [anyPolicyHasGuardrails, Bool.not_eq_true', any_eq_false] at hn
        simpa using hn p hp
    rw [enabledAllowlists, hi]
    rfl
  next hsm =>
    have hne : candidates ≠ [] := by
      rintro rfl
      simp at hsm
    obtain ⟨byID, hby, h⟩ := bind_eq_ok_iff.1 h
    obtain ⟨-, rfl⟩ := answer_eq_ok.1 hby
    split at h
    next hn =>
      refine .inl (ho (fun p hp => ?_) (ok.inj h))
      simp only [anyEnabledModelAllowlist, Bool.not_eq_true', any_eq_false] at hn
      simpa using hn p hp
    next =>
      obtain ⟨c, hc, h⟩ := bind_eq_ok_iff.1 h
      obtain rfl := providerCatalogID_eq_ok hc
      dsimp only at h
      split at h
      next hb => exact .inr ⟨hne, isEmpty_iff.1 hb, _, _, (ok.inj h).symm⟩
      next hps =>
        exact .inl ⟨(ok.inj h).symm, fun _ hnl => hps (isEmpty_iff.2 hnl)⟩

end

/-! ### The prefetched counters -/

section

variable {store : Store USD} {inp : PolicySelectionInput} {rules : List (AccountBudgetRule USD)}
  {candidates : List (Policy USD)} {now : Int} {key : ConsumptionKey}

theorem mem_addIfEnabled {enabled : Bool} {userID ag : String} {w : Int}
    {set set' : List ConsumptionKey}
    (h : (if enabled then addLimitKeys set userID ag w now else .ok set) = .ok set') :
    key ∈ set' ↔ key ∈ set ∨ enabled = true ∧ LimitKey userID ag w now key := by
  cases enabled with
  | true => simpa using mem_addLimitKeys h
  | false => cases h; simp

theorem addIfEnabled_isOk_iff {enabled : Bool} {userID ag : String} {w : Int}
    {set : List ConsumptionKey} :
    (∃ set', (if enabled then addLimitKeys set userID ag w now else .ok set) = .ok set') ↔
      (enabled = true ∧ 0 < w → windowStep w ≠ 0) := by
  cases enabled with
  | true => simpa using addLimitKeys_isOk_iff
  | false => simp

theorem mem_addEnabledKeys {userID ag : String} {limits : PolicyLimits USD}
    {set set' : List ConsumptionKey} (h : addEnabledKeys userID limits ag now set = .ok set') :
    key ∈ set' ↔ key ∈ set ∨ EnabledKey userID ag limits now key := by
  obtain ⟨set₁, h₁, h₂⟩ := bind_eq_ok_iff.1 h
  rw [mem_addIfEnabled h₂, mem_addIfEnabled h₁, or_assoc, EnabledKey]

variable (now) in
theorem addEnabledKeys_isOk_iff (userID ag : String) (limits : PolicyLimits USD)
    (set : List ConsumptionKey) :
    (∃ set', addEnabledKeys userID limits ag now set = .ok set') ↔ limits.Divisible := by
  constructor
  · rintro ⟨set', h⟩
    obtain ⟨set₁, h₁, h₂⟩ := bind_eq_ok_iff.1 h
    exact ⟨addIfEnabled_isOk_iff.1 ⟨_, h₁⟩, addIfEnabled_isOk_iff.1 ⟨_, h₂⟩⟩
  · intro h
    obtain ⟨set₁, h₁⟩ := addIfEnabled_isOk_iff.2 h.token
    obtain ⟨set', h₂⟩ := addIfEnabled_isOk_iff.2 h.budget
    exact ⟨set', bind_eq_ok_iff.2 ⟨set₁, h₁, h₂⟩⟩

/-- The counters that are fetched are those of enabled limits. -/
theorem mem_prefetchKeys {keys : List ConsumptionKey}
    (h : prefetchKeys inp rules candidates now = .ok keys) : key ∈ keys ↔
    (∃ p ∈ candidates, EnabledKey inp.userID
      (lowestIntersect p.sourceGroups inp.groupIDs) p.limits now key) ∨
    ∃ r ∈ applicableRules rules inp, EnabledKey inp.userID
      (lowestIntersect r.targetGroups inp.groupIDs) r.limits now key := by
  obtain ⟨set, h₁, h₂⟩ := bind_eq_ok_iff.1 h
  have hp := foldlM_iff_exists (p := (key ∈ ·)) (fun _ (p : Policy USD) _ hs =>
    mem_addEnabledKeys hs) h₁
  have hr := foldlM_iff_exists (p := (key ∈ ·)) (fun _ (r : AccountBudgetRule USD) _ hs =>
    mem_addEnabledKeys hs) h₂
  rw [hr, hp, or_iff_right not_mem_nil]

variable (now) in
theorem prefetchKeys_isOk_iff : (∃ keys, prefetchKeys inp rules candidates now = .ok keys) ↔
    (∀ p ∈ candidates, p.limits.Divisible) ∧
      ∀ r ∈ applicableRules rules inp, r.limits.Divisible := by
  have hp := foldlM_isOk_iff (fun set (p : Policy USD) => addEnabledKeys_isOk_iff now inp.userID
    (lowestIntersect p.sourceGroups inp.groupIDs) p.limits set) candidates
  have hr := foldlM_isOk_iff (fun set (r : AccountBudgetRule USD) => addEnabledKeys_isOk_iff now
    inp.userID (lowestIntersect r.targetGroups inp.groupIDs) r.limits set)
    (applicableRules rules inp)
  constructor
  · rintro ⟨keys, h⟩
    obtain ⟨set, h₁, h₂⟩ := bind_eq_ok_iff.1 h
    exact ⟨(hp _).1 ⟨_, h₁⟩, (hr _).1 ⟨_, h₂⟩⟩
  · rintro ⟨hp', hr'⟩
    obtain ⟨set, h₁⟩ := (hp []).2 hp'
    obtain ⟨keys, h₂⟩ := (hr set).2 hr'
    exact ⟨keys, bind_eq_ok_iff.2 ⟨set, h₁, h₂⟩⟩

variable [LinearOrder USD] [Zero USD] {cache : AList fun _ : ConsumptionKey => Consumption USD}

omit [LinearOrder USD] in
theorem cacheGet_eq_counter (h : prefetchConsumption store inp rules candidates now = .ok cache) :
    ∃ keys, prefetchKeys inp rules candidates now = .ok keys ∧ ∀ key ∈ keys,
      cacheGet cache key = counter store.consumption inp.accountID key := by
  obtain ⟨keys, hk, h⟩ := bind_eq_ok_iff.1 h
  refine ⟨keys, hk, fun key hkey => ?_⟩
  rw [if_neg (by simpa using ne_nil_of_mem hkey)] at h
  obtain ⟨-, rfl⟩ := answer_eq_ok.1 h
  rw [cacheGet, lookup_getBatch hkey, counter]

variable {fmtUSD : USD → String}

/-- The decision by the cache is the one by reading each counter from the store. -/
theorem decideCandidates_cacheGet
    (h : prefetchConsumption store inp rules candidates now = .ok cache) :
    decideCandidates fmtUSD inp rules candidates (cacheGet cache) now =
      decideCandidates fmtUSD inp rules candidates (counter store.consumption inp.accountID)
        now := by
  obtain ⟨keys, hk, hc⟩ := cacheGet_eq_counter h
  have hrl : checkAccountBudget fmtUSD inp rules (cacheGet cache) now =
      checkAccountBudget fmtUSD inp rules (counter store.consumption inp.accountID) now :=
    findSomeM?_congr fun r hr => evalLimits_congr fun key hrd =>
      hc key ((mem_prefetchKeys hk).2 (.inr ⟨r, hr, hrd.enabledKey⟩))
  have hs : scoreCandidates fmtUSD inp candidates (cacheGet cache) now =
      scoreCandidates fmtUSD inp candidates (counter store.consumption inp.accountID) now := by
    refine foldlM_congr fun out p hp => congrArg (Except.map _) ?_
    exact evalLimits_congr fun key hrd =>
      hc key ((mem_prefetchKeys hk).2 (.inl ⟨p, hp, hrd.enabledKey⟩))
  simp only [decideCandidates, hrl, hs]

theorem checkBudget_none_iff {r : Option (CapKind × String)}
    (h : checkAccountBudget fmtUSD inp (store.budgetRules inp.accountID)
      (counter store.consumption inp.accountID) now = .ok r) :
    r = none ↔ CeilingsHold store inp now := by
  rw [findSomeM?_eq_none_iff (fun _ _ => evalLimits_eq_none_iff) h]
  simp only [applicableRules, mem_filter, Bool.and_eq_true, and_imp]
  rfl

theorem mem_scoreCandidates {c : Candidate USD} {out : List (Candidate USD) × String × String}
    (h : scoreCandidates fmtUSD inp candidates (counter store.consumption inp.accountID) now =
      .ok out) : c ∈ out.1 ↔ ∃ p ∈ candidates,
        Headroom store inp now p.limits (lowestIntersect p.sourceGroups inp.groupIDs) ∧
          c = candidateOf inp p := by
  refine Iff.trans (foldlM_iff_exists (p := fun out : List (Candidate USD) × String × String =>
    c ∈ out.1) (fun out p out' hp => ?_) h) (or_iff_right not_mem_nil)
  obtain ⟨r, hr, rfl⟩ := map_eq_ok_iff.1 hp
  rw [Headroom, ← evalLimits_eq_none_iff hr]
  cases r <;> simp [addScored]

@[simp] theorem mem_sortCandidates {sc : List (Candidate USD)} {c : Candidate USD} :
    c ∈ sortCandidates sc ↔ c ∈ sc := mem_mergeSort

/-- The first candidate has the least rank. -/
theorem sortCandidates_cons {sc rest : List (Candidate USD)} {win : Candidate USD}
    (h : sortCandidates sc = win :: rest) :
    win ∈ sc ∧ ∀ c ∈ sc, rank win.policy ≤ rank c.policy := by
  have hle : ∀ c d : Candidate USD, (!comesBefore d.policy c.policy) = true ↔
      rank c.policy ≤ rank d.policy := by
    intro c d
    rw [Bool.not_eq_true', Bool.eq_false_iff, ne_eq, comesBefore_iff, not_lt]
  have hs : (sortCandidates sc).Pairwise fun c d =>
      (!comesBefore d.policy c.policy) = true := by
    refine pairwise_mergeSort ?_ ?_ sc
    · intro a b c hab hbc
      exact (hle a c).2 (((hle a b).1 hab).trans ((hle b c).1 hbc))
    · intro a b
      rw [Bool.or_eq_true, hle, hle]
      exact le_total _ _
  have hm : ∀ c, c ∈ sc ↔ c ∈ win :: rest := by
    intro c
    rw [← h, mem_sortCandidates]
  rw [h, pairwise_cons] at hs
  refine ⟨(hm win).2 mem_cons_self, fun c hc => ?_⟩
  rcases mem_cons.1 ((hm c).1 hc) with rfl | hc
  · exact le_rfl
  · exact (hle win c).1 (hs.1 c hc)

end

/-! ### Exactness -/

section

variable [LinearOrder USD] [Zero USD] {text : Text} {fmtUSD : USD → String} {store : Store USD}
  {inp : PolicySelectionInput} {now : Int}

/-- The candidates of the gate that have headroom are the eligible policies. -/
theorem eligible_iff {p : Policy USD} : Eligible text store inp now p ↔ p ∈ permitted text store inp
      (filterApplicablePolicies (store.account inp.accountID).policies inp) ∧
    Headroom store inp now p.limits (lowestIntersect p.sourceGroups inp.groupIDs) := by
  rw [mem_permitted, mem_filterApplicablePolicies]
  exact ⟨fun h => ⟨⟨⟨h.mem, h.applies⟩, h.permits⟩, h.headroom⟩,
    fun h => ⟨h.1.1.1, h.1.1.2, h.1.2, h.2⟩⟩

theorem exact_deny {code reason : String}
    (h : (∃ p ∈ (store.account inp.accountID).policies, Applies inp p) →
      (∀ p, ¬Eligible text store inp now p) ∨ ¬CeilingsHold store inp now) :
    Exact text store inp now (.deny code reason) where
  pays c hc := by cases hc
  unattributed hd := by cases hd
  denied ha := ⟨fun _ => h ha, fun _ => rfl⟩

/-- The candidates that the gate passes are decided on exactly. -/
theorem decideCandidates_exact {candidates : List (Policy USD)} {d : Decision USD}
    (hcn : candidates = permitted text store inp
      (filterApplicablePolicies (store.account inp.accountID).policies inp))
    (hsm : filterApplicablePolicies (store.account inp.accountID).policies inp ≠ [] →
      candidates ≠ [])
    (h : decideCandidates fmtUSD inp (store.budgetRules inp.accountID) candidates
      (counter store.consumption inp.accountID) now = .ok d) : Exact text store inp now d := by
  obtain ⟨denied, hd, h⟩ := bind_eq_ok_iff.1 h
  have hb := checkBudget_none_iff hd
  cases denied with
  | some denied =>
    obtain rfl := ok.inj h
    exact exact_deny fun _ => .inr fun hh => nomatch hb.2 hh
  | none =>
    have hh : CeilingsHold store inp now := hb.1 rfl
    dsimp only at h
    split at h
    next hem =>
      obtain rfl := ok.inj h
      have hn : ∀ p ∈ (store.account inp.accountID).policies, ¬Applies inp p := by
        intro p hp ha
        have hm := mem_filterApplicablePolicies.2 ⟨hp, ha⟩
        exact hsm (ne_nil_of_mem hm) (isEmpty_iff.1 hem)
      exact {
        pays := fun c hc => by cases hc
        unattributed := fun _ => ⟨hh, hn⟩
        denied := fun ⟨p, hp, ha⟩ => absurd ha (hn p hp) }
    next =>
      obtain ⟨scored, hsc, h⟩ := bind_eq_ok_iff.1 h
      have hs : ∀ {c}, c ∈ scored.1 ↔
          ∃ p, Eligible text store inp now p ∧ c = candidateOf inp p := by
        intro c
        rw [mem_scoreCandidates hsc]
        refine exists_congr fun p => ?_
        rw [eligible_iff, ← hcn, and_assoc]
      split at h
      next hnl =>
        obtain rfl := ok.inj h
        refine exact_deny fun _ => .inl fun p hel => ?_
        have hm := mem_sortCandidates.2 (hs.2 ⟨p, hel, rfl⟩)
        rw [hnl] at hm
        cases hm
      next winner rest hsr =>
        obtain rfl := ok.inj h
        obtain ⟨hw, hf⟩ := sortCandidates_cons hsr
        obtain ⟨p, hel, rfl⟩ := hs.1 hw
        exact {
          pays := fun c hc => by
            cases hc
            exact ⟨hh, ⟨hel, fun q hq => hf _ (hs.2 ⟨q, hq, rfl⟩)⟩, rfl⟩
          unattributed := fun hd => by cases hd
          denied := fun _ => by
            refine ⟨fun hd => (nomatch hd), ?_⟩
            rintro (hn | hnt)
            · exact absurd hel (hn p)
            · exact absurd hh hnt }

/-- A decision is exactly what the policies and counters call for. -/
theorem selectDecision_exact {d : Decision USD}
    (h : selectDecision text fmtUSD store inp now = .ok d) : Exact text store inp now d := by
  simp only [selectDecision, bind_eq_ok_iff, answer_eq_ok] at h
  obtain ⟨-, -, _, ⟨-, rfl⟩, _, ⟨-, rfl⟩, gate, hg, h⟩ := h
  rcases applyModelGate_spec hg with ⟨rfl, hs⟩ | ⟨-, hb, code, reason, rfl⟩
  · obtain ⟨cache, hc, h⟩ := bind_eq_ok_iff.1 h
    rw [decideCandidates_cacheGet hc] at h
    exact decideCandidates_exact rfl hs h
  · obtain rfl := ok.inj h
    refine exact_deny fun _ => .inl fun p he => ?_
    have hm := (eligible_iff.1 he).1
    rw [hb] at hm
    cases hm

omit [LinearOrder USD] [Zero USD] in
theorem windowsDivisible_iff : WindowsDivisible text store inp ↔
    (∀ p ∈ permitted text store inp
      (filterApplicablePolicies (store.account inp.accountID).policies inp), p.limits.Divisible) ∧
    ∀ r ∈ applicableRules (store.budgetRules inp.accountID) inp, r.limits.Divisible := by
  simp only [mem_permitted, mem_filterApplicablePolicies, applicableRules, mem_filter,
    Bool.and_eq_true, and_imp]
  exact ⟨fun h => ⟨h.policies, h.rules⟩, fun h => ⟨h.1, h.2⟩⟩

/-- A request that a policy pays for has been looked at with all its windows. -/
theorem windowsDivisible_of_pays {c : Candidate USD}
    (h : selectDecision text fmtUSD store inp now = .ok (.pays c)) :
    WindowsDivisible text store inp := by
  simp only [selectDecision, bind_eq_ok_iff, answer_eq_ok] at h
  obtain ⟨-, -, _, ⟨-, rfl⟩, _, ⟨-, rfl⟩, gate, hg, h⟩ := h
  rcases applyModelGate_spec hg with ⟨rfl, -⟩ | ⟨-, -, code, reason, rfl⟩
  · obtain ⟨cache, hc, -⟩ := bind_eq_ok_iff.1 h
    obtain ⟨keys, hk, -⟩ := bind_eq_ok_iff.1 hc
    exact windowsDivisible_iff.2 ((prefetchKeys_isOk_iff now).1 ⟨keys, hk⟩)
  · cases ok.inj h

end

section

variable (text : Text) {store : Store USD} (inp : PolicySelectionInput)
  (hreads : ∀ query, store.failing query = false)

include hreads

theorem answer_of_not_failing {α : Type} (query : Query) (a : α) : store.answer query a = .ok a :=
  answer_eq_ok.2 ⟨hreads query, rfl⟩

theorem applyModelGate_isOk (candidates : List (Policy USD)) :
    ∃ r, applyModelGate text store inp candidates = .ok r := by
  have hct : ∃ c, providerCatalogID store inp.accountID inp.providerID = .ok c := by
    unfold providerCatalogID
    split
    · exact ⟨_, rfl⟩
    · exact ⟨_, answer_of_not_failing hreads _ _⟩
  obtain ⟨c, hc⟩ := hct
  unfold applyModelGate
  rw [answer_of_not_failing hreads, hc]
  dsimp only [bind, Except.bind]
  split_ifs <;> exact ⟨_, rfl⟩

theorem prefetchConsumption_isOk_iff {rules : List (AccountBudgetRule USD)}
    {candidates : List (Policy USD)} {now : Int} :
    (∃ cache, prefetchConsumption store inp rules candidates now = .ok cache) ↔
      ∃ keys, prefetchKeys inp rules candidates now = .ok keys := by
  refine ⟨fun ⟨cache, h⟩ => (bind_eq_ok_iff.1 h).imp fun _ h => h.1, fun ⟨keys, hk⟩ => ?_⟩
  simp only [prefetchConsumption, hk, answer_of_not_failing hreads, bind, Except.bind]
  split <;> exact ⟨_, rfl⟩

omit hreads in
theorem decideCandidates_isOk [LinearOrder USD] [Zero USD] (fmtUSD : USD → String)
    {rules : List (AccountBudgetRule USD)} {candidates : List (Policy USD)}
    (get : ConsumptionKey → Consumption USD) (now : Int)
    (hp : ∀ p ∈ candidates, p.limits.Divisible)
    (hr : ∀ r ∈ applicableRules rules inp, r.limits.Divisible) :
    ∃ d, decideCandidates fmtUSD inp rules candidates get now = .ok d := by
  obtain ⟨denied, hd⟩ : ∃ r, checkAccountBudget fmtUSD inp rules get now = .ok r :=
    findSomeM?_isOk fun r h => evalLimits_isOk (hr r h)
  have hs := (foldlM_isOk_iff (q := fun p => ∃ r, scoreOne fmtUSD inp p get now = .ok r)
    (fun out p => ⟨fun ⟨_, h⟩ => (map_eq_ok_iff.1 h).imp fun _ h => h.1,
      fun ⟨r, h⟩ => ⟨addScored inp p out r, map_eq_ok_iff.2 ⟨r, h, rfl⟩⟩⟩) candidates ([], "", "")).2
    fun p h => evalLimits_isOk (hp p h)
  obtain ⟨scored, hs⟩ : ∃ out, scoreCandidates fmtUSD inp candidates get now = .ok out := hs
  cases denied with
  | some denied => exact ⟨_, bind_eq_ok_iff.2 ⟨_, hd, rfl⟩⟩
  | none =>
    simp only [decideCandidates, hd, hs, bind, Except.bind]
    split_ifs
    · exact ⟨_, rfl⟩
    · split <;> exact ⟨_, rfl⟩

/-- Without failing reads, a selection comes to a decision unless it divides by the length of a
window that wraps around to zero. -/
theorem selectDecision_isOk_iff [LinearOrder USD] [Zero USD] (fmtUSD : USD → String) (now : Int)
    (ha : inp.accountID ≠ "") : (∃ d, selectDecision text fmtUSD store inp now = .ok d) ↔
      ModelBlocked text store inp ∨ WindowsDivisible text store inp := by
  obtain ⟨gate, hg⟩ := applyModelGate_isOk text inp hreads
    (filterApplicablePolicies (store.account inp.accountID).policies inp)
  have hsel : selectDecision text fmtUSD store inp now = gate.elim (fun candidates =>
      prefetchConsumption store inp (store.budgetRules inp.accountID) candidates now >>= fun cache =>
        decideCandidates fmtUSD inp (store.budgetRules inp.accountID) candidates
          (cacheGet cache) now) ok := by
    simp only [selectDecision, answer_of_not_failing hreads, reject, ha, hg, bind, Except.bind]
    cases gate <;> rfl
  rw [hsel]
  rcases applyModelGate_spec hg with ⟨rfl, hs⟩ | ⟨hne, hb, code, reason, rfl⟩
  · have hnb : ¬ModelBlocked text store inp := by
      rintro ⟨⟨p, hp, hap⟩, hn⟩
      obtain ⟨q, hq⟩ := exists_mem_of_ne_nil _
        (hs (ne_nil_of_mem (mem_filterApplicablePolicies.2 ⟨hp, hap⟩)))
      obtain ⟨hq, hper⟩ := mem_permitted.1 hq
      obtain ⟨hq, haq⟩ := mem_filterApplicablePolicies.1 hq
      exact hn q hq haq hper
    rw [or_iff_right hnb, windowsDivisible_iff, ← prefetchKeys_isOk_iff now,
      ← prefetchConsumption_isOk_iff inp hreads]
    constructor
    · rintro ⟨d, h⟩
      obtain ⟨cache, hc, -⟩ := bind_eq_ok_iff.1 h
      exact ⟨cache, hc⟩
    · rintro ⟨cache, hc⟩
      obtain ⟨hp, hr⟩ := (prefetchKeys_isOk_iff now).1
        ((prefetchConsumption_isOk_iff inp hreads).1 ⟨_, hc⟩)
      obtain ⟨d, hd⟩ := decideCandidates_isOk inp fmtUSD (cacheGet cache) now hp hr
      exact ⟨d, bind_eq_ok_iff.2 ⟨cache, hc, hd⟩⟩
  · refine iff_of_true ⟨_, rfl⟩ (.inl ⟨?_, fun p hp hap hper => ?_⟩)
    · obtain ⟨p, hp⟩ := exists_mem_of_ne_nil _ hne
      exact ⟨p, mem_filterApplicablePolicies.1 hp⟩
    · have hm := mem_permitted.2 ⟨mem_filterApplicablePolicies.2 ⟨hp, hap⟩, hper⟩
      rw [hb] at hm
      cases hm

end

section

variable [LinearOrder USD] [Zero USD] (text : Text) (fmtUSD : USD → String) (store : Store USD)
  (inp : PolicySelectionInput) (now : Int)

/-- The result of a selection is exact: with a policy it is allowed only under the ceilings and for
the first of the eligible policies, and when policies apply it is denied exactly for want of an
eligible one or by a ceiling. The counters of the cache are those of the store. Without failing
reads there is a result exactly when the model is blocked or the lengths of the windows can be
divided by. -/
theorem selectPolicyForRequest_exact :
    (∀ res, selectPolicyForRequest text fmtUSD store inp now = .ok res →
      (res.allow = true → CeilingsHold store inp now ∧
        ((∃ p, IsFirst text store inp now p ∧ res = (Decision.pays (candidateOf inp p)).result) ∨
          (∀ p ∈ (store.account inp.accountID).policies, ¬Applies inp p) ∧
            res = { allow := true })) ∧
      ((∃ p ∈ (store.account inp.accountID).policies, Applies inp p) → (res.allow = false ↔
          (∀ p, ¬Eligible text store inp now p) ∨ ¬CeilingsHold store inp now))) ∧
    (∀ rules candidates cache, prefetchConsumption store inp rules candidates now = .ok cache →
        decideCandidates fmtUSD inp rules candidates (cacheGet cache) now =
          decideCandidates fmtUSD inp rules candidates (counter store.consumption inp.accountID)
            now) ∧
    (inp.accountID ≠ "" → (∀ query, store.failing query = false) →
      ((∃ res, selectPolicyForRequest text fmtUSD store inp now = .ok res) ↔
        ModelBlocked text store inp ∨ WindowsDivisible text store inp)) := by
  refine ⟨fun res hr => ?_, fun _ _ _ => decideCandidates_cacheGet, fun hac hreads => ?_⟩
  · obtain ⟨d, hd, hrt⟩ := bind_eq_ok_iff.1 hr
    obtain rfl := ok.inj hrt
    have he := selectDecision_exact hd
    refine ⟨fun ha => ?_, he.denied⟩
    cases d with
    | deny code reason => cases ha
    | unattributed =>
      obtain ⟨hh, hn⟩ := he.unattributed rfl
      exact ⟨hh, .inr ⟨hn, rfl⟩⟩
    | pays c =>
      obtain ⟨hh, hf, hc⟩ := he.pays c rfl
      exact ⟨hh, .inl ⟨c.policy, hf, by rw [← hc]⟩⟩
  · rw [← selectDecision_isOk_iff text inp hreads fmtUSD now hac]
    exact ⟨fun ⟨_, h⟩ => (bind_eq_ok_iff.1 h).imp fun _ h => h.1,
      fun ⟨d, h⟩ => ⟨d.result, bind_eq_ok_iff.2 ⟨d, h, rfl⟩⟩⟩

end

/-! ### Two tiers -/

section

/-- A policy for the group `g1` with a cap on the tokens of the group. -/
def tierPolicy (id : String) (groupCap windowSeconds : Int) : Policy Nat where
  id := id
  enabled := true
  sourceGroups := ["g1"]
  destinationProviderIDs := ["ainp_1"]
  guardrailIDs := []
  limits := ⟨{ enabled := true, groupCap := groupCap, windowSeconds := windowSeconds },
    ⟨false, 0, 0, 0⟩⟩
  createdAt := 0

/-- The larger tier is used up in its window of a minute, the smaller one has a window of a day. -/
def tierStore : Store Nat where
  account _ := {
    policies := [tierPolicy "ainpol_small" 1000 86400, tierPolicy "ainpol_large" 5000 60]
    guardrails := []
    providers := []
    nodup := nodup_nil }
  budgetRules _ := []
  consumption := AList.singleton ("acc", ⟨.group, "g1", 60, 0⟩) ⟨3000, 2000, 0⟩

def tierRequest : PolicySelectionInput where
  accountID := "acc"
  userID := "u1"
  groupIDs := ["g1"]
  providerID := "ainp_1"
  model := "gpt-4o"

theorem selectPolicyForRequest_tierRequest :
    selectPolicyForRequest sampleText Nat.repr tierStore tierRequest 0 =
      .ok { allow := true, selectedPolicyID := "ainpol_small", attributionGroupID := "g1",
            windowSeconds := 86400 } := by
  decide +kernel

theorem isFirst_small : ∃ p, IsFirst sampleText tierStore tierRequest 0 p ∧
    p.id = "ainpol_small" := by
  obtain ⟨ha, -⟩ := (selectPolicyForRequest_exact sampleText Nat.repr tierStore tierRequest
    0).1 _ selectPolicyForRequest_tierRequest
  obtain ⟨-, ⟨p, hf, hr⟩ | ⟨-, hr⟩⟩ := ha rfl
  · exact ⟨p, hf, (congrArg PolicySelectionResult.selectedPolicyID hr).symm⟩
  · exact absurd hr (by decide)

/-- The window of the only policy has 2 ^ 55 seconds, which are zero nanoseconds in 64 bits. -/
def wrappedStore : Store Nat :=
  { tierStore with
    account := fun _ => { tierStore.account "acc" with
      policies := [tierPolicy "ainpol_long" 1000 (2 ^ 55)] } }

/-- The policy applies and has headroom, and the selection panics. -/
theorem selectPolicyForRequest_panics :
    (∃ p, Eligible sampleText wrappedStore tierRequest 0 p) ∧
    CeilingsHold wrappedStore tierRequest 0 ∧
    selectPolicyForRequest sampleText Nat.repr wrappedStore tierRequest 0 =
      .error .divideByZero := by
  have hw (ws : Int) : windowStart 0 (2 ^ 55) ≠ some ws := by
    rw [show windowStart 0 (2 ^ 55) = none by decide +kernel]
    simp
  refine ⟨⟨_, .head _, ⟨rfl, .head _, "g1", .head _, .head _, by decide⟩,
    by unfold Permits; decide +kernel, ⟨fun _ _ ws h => absurd h (hw ws), nofun⟩⟩, nofun,
    by decide +kernel⟩

end

end Cloink.AgentNetwork
