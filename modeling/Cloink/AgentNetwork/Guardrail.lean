import Cloink.AgentNetwork.Models
import Cloink.Lib.Fold

/-!
# The model guardrail of the proxy

Management decides for each request whether a policy permits its model. The proxy has a backstop:
for every provider of which all authorising policies restrict the models, the synthesiser hands it
the union of their allowlists, and the `llm_guardrail` middleware turns away what is not in it. For
a disabled Bedrock or Vertex provider the synthesiser does not know the kind of the provider and has
only the names as they stand in the allowlists.
-/

namespace Cloink.AgentNetwork

open AList List Option

variable {USD : Type}

/-! ### The synthesiser -/

def filterEnabledPolicies (policies : List (Policy USD)) : List (Policy USD) :=
  policies.filter (·.enabled)

/-- The enabled providers, the older ones first. -/
def filterEnabledProviders (providers : List Provider) : List Provider :=
  (providers.filter (·.enabled)).mergeSort fun p q =>
    p.createdAt < q.createdAt || (p.createdAt == q.createdAt && p.id ≤ q.id)

def catalogIDsByProvider (providers : List Provider) : StrMap String :=
  providers.foldl (fun m p => m.insert p.id p.providerID) ∅

/-- Whether a policy restricts the models, and the models it allows, as they stand. -/
def policyModelAllowlist (p : Policy USD) (byID : StrMap Guardrail) : Bool × List String :=
  let lists := enabledAllowlists p byID
  (!lists.isEmpty, lists.flatten.filter (· ≠ ""))

/-- Adds a name that is not empty and not there yet. -/
def addModel (out : List String) (m : String) : List String :=
  if m = "" || out.contains m then out else out ++ [m]

/-- The entries as they stand and in the canonical form for the provider. -/
def expandModelsForProvider (text : Text) (models : List String) (catalogProviderID : String) :
    List String :=
  models.foldl (fun out m =>
    addModel (addModel out m) (canonicalModelKey text catalogProviderID m)) []

/-- What is known of a provider: the models that policies allow, and whether one of them does not
restrict models. -/
structure ProviderAcc where
  models : List String := []
  anyUnrestricted : Bool := false

section

variable (text : Text) (byID : StrMap Guardrail) (catalogByProvider : StrMap String)

def addProvider (p : Policy USD) (accs : StrMap ProviderAcc) (providerID : String) :
    StrMap ProviderAcc :=
  if providerID = "" then accs
  else
    let acc := (accs.lookup providerID).getD {}
    let (restricted, models) := policyModelAllowlist p byID
    if restricted then
      let catalogID := (catalogByProvider.lookup providerID).getD ""
      accs.insert providerID
        { acc with models := acc.models.insertAll (expandModelsForProvider text models catalogID) }
    else accs.insert providerID { acc with anyUnrestricted := true }

def providerAccs (policies : List (Policy USD)) : StrMap ProviderAcc :=
  policies.foldl (fun accs p =>
    p.destinationProviderIDs.foldl (addProvider text byID catalogByProvider p) accs) ∅

/-- The allowlists of the providers that every policy restricts, in the order of the names. -/
def buildProviderAllowlists (policies : List (Policy USD)) : StrMap (List String) :=
  (providerAccs text byID catalogByProvider policies).filterMapVals fun _ acc =>
    if acc.anyUnrestricted then none else some (acc.models.mergeSort (· ≤ ·))

end

/-! ### The middleware -/

/-- The allowlists with normalised entries; a list of which nothing is left stays. -/
def normaliseConfig (text : Text) (providerAllowlists : StrMap (List String)) :
    StrMap (List String) :=
  providerAllowlists.mapVals fun _ models =>
    (models.map (normaliseModelID text)).filter (· ≠ "")

/-- A request that is turned away, with the status 403. -/
structure Denial where
  code : String
  message : String
  reason : String
  surface : String
  /-- The model in the details, when it is known. -/
  model : Option String
  deriving DecidableEq

def denyModel (surface model code message reason : String) : Denial :=
  { code, message, reason, surface, model := if model = "" then none else some model }

def denyModelUnknown (surface : String) : Denial :=
  denyModel surface "" "llm_policy.model_unknown"
    "request model could not be determined for the policy allowlist" "model_unknown"

def denyModelBlocked (surface model : String) : Denial :=
  denyModel surface model "llm_policy.model_blocked" "model is not in the policy allowlist"
    "model_blocked"

def modelInAllowlist (text : Text) (allowlist : List String) (model : String) : Bool :=
  let normalised := normaliseModelID text model
  normalised ≠ "" && allowlist.contains normalised

/-- `evaluateAllowlist`, with no denial for a request that goes on. -/
def evaluateAllowlist (text : Text) (providerAllowlists : StrMap (List String))
    (providerID surface model : String) (modelPresent nonInference : Bool) : Option Denial :=
  if providerAllowlists.keys.isEmpty then none
  else if providerID = "" then some (denyModelUnknown surface)
  else match providerAllowlists.lookup providerID with
    | none => none
    | some allowlist =>
      if !modelPresent || normaliseModelID text model = "" then
        if nonInference then none else some (denyModelUnknown surface)
      else if modelInAllowlist text allowlist model then none
      else some (denyModelBlocked surface model)

/-! ### Both sides of an account -/

/-- The records of an account. The ids of the providers are the keys of their table. -/
structure Account (USD : Type) where
  policies : List (Policy USD)
  guardrails : List Guardrail
  providers : List Provider
  nodup : (providers.map (·.id)).Nodup

namespace Account

variable (text : Text) (account : Account USD)

/-- The configuration that the synthesiser hands to the proxy, as the middleware keeps it. -/
def guardrailConfig : StrMap (List String) :=
  normaliseConfig text (buildProviderAllowlists text (guardrailsByID account.guardrails)
    (catalogIDsByProvider (filterEnabledProviders account.providers))
    (filterEnabledPolicies account.policies))

/-- The catalog id that management takes for a provider: of any record, enabled or not, and empty
when there is no record. -/
def providerCatalogID (providerID : String) : String :=
  ((account.providers.find? (·.id = providerID)).map (·.providerID)).getD ""

end Account

/-! ### What the synthesiser hands out -/

theorem mem_addModel {out : List String} {m e : String} :
    e ∈ addModel out m ↔ e ∈ out ∨ e ≠ "" ∧ e = m := by
  unfold addModel
  split
  next h =>
    refine ⟨.inl, fun hor => hor.elim id ?_⟩
    rintro ⟨hne, rfl⟩
    simpa [hne] using h
  next h =>
    have hm : m ≠ "" := fun hm => h (by simp [hm])
    rw [mem_append, mem_singleton]
    exact or_congr Iff.rfl ⟨fun he => ⟨he ▸ hm, he⟩, fun he => he.2⟩

theorem mem_expandModelsForProvider {text : Text} {models : List String} {c e : String} :
    e ∈ expandModelsForProvider text models c ↔
      ∃ m ∈ models, e ≠ "" ∧ (e = m ∨ e = canonicalModelKey text c m) := by
  have hs : ∀ (out : List String) (m : String),
      e ∈ addModel (addModel out m) (canonicalModelKey text c m) ↔
        e ∈ out ∨ e ≠ "" ∧ (e = m ∨ e = canonicalModelKey text c m) := by
    intro out m
    rw [mem_addModel, mem_addModel]
    tauto
  simpa [expandModelsForProvider] using foldl_iff_exists (p := fun out => e ∈ out) hs models []

section

variable (text : Text) (byID : StrMap Guardrail) (catalogByProvider : StrMap String)

/-- What is known of a provider, nothing when no policy has named it. -/
def accAt (accs : StrMap ProviderAcc) (providerID : String) : ProviderAcc :=
  (accs.lookup providerID).getD {}

/-- The policy leaves the models of the provider open. -/
def Opens (providerID : String) (p : Policy USD) : Prop :=
  providerID ∈ p.destinationProviderIDs ∧ enabledAllowlists p byID = []

/-- The policy restricts the models of the provider, and the entry is among those it allows. -/
def Allows (providerID entry : String) (p : Policy USD) : Prop :=
  providerID ∈ p.destinationProviderIDs ∧ enabledAllowlists p byID ≠ [] ∧
    entry ∈ expandModelsForProvider text (policyModelAllowlist p byID).2
      ((catalogByProvider.lookup providerID).getD "")

variable {text byID catalogByProvider} {p : Policy USD} {accs : StrMap ProviderAcc}
  {providerID : String} (hne : providerID ≠ "")

theorem accAt_addProvider_of_ne {d : String} (h : providerID ≠ d) :
    accAt (addProvider text byID catalogByProvider p accs d) providerID =
      accAt accs providerID := by
  unfold addProvider
  split
  next => rfl
  next =>
    dsimp only
    split <;> simp [accAt, h]

/-- A fact about a provider that a policy naming it may bring about holds in the end if some policy
brings it about. -/
theorem providerAccs_iff {q : ProviderAcc → Prop} {Q : Policy USD → Prop} (hq : ¬q {})
    (hs : ∀ accs p,
      q (accAt (addProvider text byID catalogByProvider p accs providerID) providerID) ↔
        q (accAt accs providerID) ∨ Q p) (pols : List (Policy USD)) :
    q (accAt (providerAccs text byID catalogByProvider pols) providerID) ↔
      ∃ p ∈ pols, providerID ∈ p.destinationProviderIDs ∧ Q p := by
  have hd (p : Policy USD) (accs : StrMap ProviderAcc) (d : String) :
      q (accAt (addProvider text byID catalogByProvider p accs d) providerID) ↔
        q (accAt accs providerID) ∨ d = providerID ∧ Q p := by
    by_cases hd : d = providerID
    · subst hd
      simpa using hs accs p
    · rw [accAt_addProvider_of_ne (Ne.symm hd)]
      simp [hd]
  have hp (accs : StrMap ProviderAcc) (p : Policy USD) :=
    foldl_iff_exists (p := fun a => q (accAt a providerID)) (hd p) p.destinationProviderIDs accs
  refine (foldl_iff_exists (p := fun a => q (accAt a providerID)) hp pols ∅).trans ?_
  simp [accAt, hq]

include hne

theorem anyUnrestricted_providerAccs (pols : List (Policy USD)) :
    (accAt (providerAccs text byID catalogByProvider pols) providerID).anyUnrestricted ↔
      ∃ p ∈ pols, Opens byID providerID p := by
  refine providerAccs_iff (q := (·.anyUnrestricted)) (by simp) (fun accs p => ?_) pols
  by_cases ho : enabledAllowlists p byID = [] <;>
    simp [addProvider, hne, accAt, policyModelAllowlist, ho]

theorem mem_models_providerAccs (pols : List (Policy USD)) (e : String) :
    e ∈ (accAt (providerAccs text byID catalogByProvider pols) providerID).models ↔
      ∃ p ∈ pols, Allows text byID catalogByProvider providerID e p := by
  refine providerAccs_iff (q := (e ∈ ·.models)) (by simp) (fun accs p => ?_) pols
  by_cases ho : enabledAllowlists p byID = [] <;>
    simp [addProvider, hne, accAt, policyModelAllowlist, ho]

/-- A provider with an allowlist is left open by no policy, and the list has what the policies
allow. -/
theorem lookup_allowlists {pols : List (Policy USD)} {models : List String}
    (h : (buildProviderAllowlists text byID catalogByProvider pols).lookup providerID =
      some models) :
    (∀ p ∈ pols, ¬Opens byID providerID p) ∧
      ∀ e, e ∈ models ↔ ∃ p ∈ pols, Allows text byID catalogByProvider providerID e p := by
  rw [buildProviderAllowlists, lookup_filterMapVals, bind_eq_some_iff] at h
  obtain ⟨acc, ha, hm⟩ := h
  obtain ⟨hc, rfl⟩ : acc.anyUnrestricted = false ∧ acc.models.mergeSort (· ≤ ·) = models := by
    simpa using hm
  have hat : accAt (providerAccs text byID catalogByProvider pols) providerID = acc := by
    simp [accAt, ha]
  constructor
  · intro p hp ho
    have ht : acc.anyUnrestricted := by
      rw [← hat, anyUnrestricted_providerAccs hne]
      exact ⟨p, hp, ho⟩
    rw [hc] at ht
    cases ht
  · intro e
    rw [mem_mergeSort, ← hat, mem_models_providerAccs hne]

end

/-! ### No contradiction -/

section

variable {text : Text} {account : Account USD} {P : Provider}

theorem lookup_catalogIDsByProvider (hP : P ∈ account.providers) (he : P.enabled) :
    ((catalogIDsByProvider (filterEnabledProviders account.providers)).lookup P.id).getD "" =
      account.providerCatalogID P.id := by
  have hp : (filterEnabledProviders account.providers).Perm
      (account.providers.filter (·.enabled)) := mergeSort_perm _ _
  have hn : ((filterEnabledProviders account.providers).map (·.id)).Nodup :=
    (hp.map _).nodup_iff.2 (account.nodup.sublist (filter_sublist.map _))
  have hm : P ∈ filterEnabledProviders account.providers :=
    hp.mem_iff.2 (mem_filter.2 ⟨hP, he⟩)
  have hf : account.providers.find? (·.id = P.id) = some P := by
    have hs : (account.providers.find? (·.id = P.id)).isSome := by
      rw [List.find?_isSome]
      exact ⟨P, hP, by simp⟩
    obtain ⟨Q, hQ⟩ := isSome_iff_exists.1 hs
    have hid : Q.id = P.id := by simpa using List.find?_some hQ
    rw [hQ, inj_on_of_nodup_map account.nodup (mem_of_find?_eq_some hQ) hP hid]
  rw [catalogIDsByProvider, lookup_foldl_insert_key _ _ hn ∅ hm, Account.providerCatalogID, hf]
  rfl

/-- What a policy permits on a provider with an allowlist is in the list that the middleware
keeps. -/
theorem mem_normalised_of_permits {byID : StrMap Guardrail} {catalogByProvider : StrMap String}
    {pols : List (Policy USD)} {models : List String} {p : Policy USD} {m : String}
    (h : (buildProviderAllowlists text byID catalogByProvider pols).lookup P.id = some models)
    (hp : p ∈ pols) (hd : P.id ∈ p.destinationProviderIDs)
    (hpr : policyPermitsModel text p byID m ((catalogByProvider.lookup P.id).getD "") = true) :
    normaliseModelID text m ≠ "" ∧
      normaliseModelID text m ∈ (models.map (normaliseModelID text)).filter (· ≠ "") := by
  obtain ⟨hcl, hmm⟩ := lookup_allowlists P.id_ne_empty h
  have hr : enabledAllowlists p byID ≠ [] := fun ho => hcl p hp ⟨hd, ho⟩
  obtain ⟨hw, list, hl, allowed, hal, hm⟩ :=
    (policyPermitsModel_iff.1 hpr).resolve_left hr
  have hne : allowed ≠ "" := by
    rintro rfl
    simp [entryMatches_empty hw] at hm
  have ha : ∀ e, e ≠ "" →
      (e = allowed ∨ e = canonicalModelKey text ((catalogByProvider.lookup P.id).getD "") allowed) →
      e ∈ models := by
    intro e he hor
    refine (hmm e).2 ⟨p, hp, hd, hr, mem_expandModelsForProvider.2 ⟨allowed, ?_, he, hor⟩⟩
    exact mem_filter.2 ⟨mem_flatten.2 ⟨list, hl, hal⟩, by simpa using hne⟩
  refine ⟨hw, mem_filter.2 ⟨mem_map.2 ?_, by simpa using hw⟩⟩
  rw [entryMatches, Bool.or_eq_true, beq_iff_eq, beq_iff_eq] at hm
  rcases hm with hrw | hc
  · exact ⟨allowed, ha allowed hne (.inl rfl), hrw⟩
  · refine ⟨_, ha _ (hc ▸ hw) (.inr rfl), ?_⟩
    rw [normaliseModelID_canonicalModelKey, hc]

theorem evaluateAllowlist_eq_none {lists : StrMap (List String)} {surface m : String}
    {ni : Bool} (h : ∀ list, lists.lookup P.id = some list →
      normaliseModelID text m ≠ "" ∧ normaliseModelID text m ∈ list) :
    evaluateAllowlist text lists P.id surface m true ni = none := by
  unfold evaluateAllowlist
  rw [if_neg P.id_ne_empty]
  split
  next => rfl
  next =>
    cases hl : lists.lookup P.id with
    | none => rfl
    | some list =>
      obtain ⟨hw, hm⟩ := h list hl
      simp [modelInAllowlist, hw, hm]

/-- No policy that authorises an enabled provider permits a model that the backstop turns away on
it. -/
theorem policyPermitsModel_of_denied (hP : P ∈ account.providers) (henabled : P.enabled = true)
    {surface m : String} {nonInference : Bool}
    (hdenied : (evaluateAllowlist text (account.guardrailConfig text) P.id surface m true
      nonInference).isSome)
    {p : Policy USD} (hp : p ∈ account.policies) (hpenabled : p.enabled = true)
    (hdest : P.id ∈ p.destinationProviderIDs) :
    policyPermitsModel text p (guardrailsByID account.guardrails) m
      (account.providerCatalogID P.id) = false := by
  rw [Bool.eq_false_iff]
  intro hpr
  rw [← lookup_catalogIDsByProvider hP henabled] at hpr
  rw [evaluateAllowlist_eq_none] at hdenied
  · cases hdenied
  · intro list hl
    rw [Account.guardrailConfig, normaliseConfig, lookup_mapVals, map_eq_some_iff] at hl
    obtain ⟨models, hm, rfl⟩ := hl
    exact mem_normalised_of_permits hm (mem_filter.2 ⟨hp, hpenabled⟩) hdest hpr

end

/-! ### A Bedrock provider -/

section

/-- Names without spaces and with capital letters of ASCII only. -/
def sampleText : Text where
  toLower s := String.ofList (s.toList.map Char.toLower)
  trimSpace := id
  idem s := by
    have h (c : Char) : c.toLower.toLower = c.toLower := by
      delta Char.toLower
      grind
    rw [id, id, String.toList_ofList, List.map_map]
    exact congrArg String.ofList (map_congr_left fun c _ => h c)
  empty := rfl

/-- A policy with one guardrail. -/
def bedrockPolicy : Policy Nat where
  id := "ainpol_1"
  enabled := true
  sourceGroups := ["g1"]
  destinationProviderIDs := ["ainp_1"]
  guardrailIDs := ["ainguard_1"]
  limits := ⟨{}, ⟨false, 0, 0, 0⟩⟩
  createdAt := 0

def bedrockProvider (enabled : Bool) : Provider where
  id := "ainp_1"
  providerID := "bedrock_api"
  enabled := enabled
  createdAt := 0
  id_ne_empty := by decide

/-- The guardrail allows one model. -/
def bedrockAccount (enabled : Bool) (model : String) : Account Nat where
  policies := [bedrockPolicy]
  guardrails := [⟨"ainguard_1", ⟨true, [model]⟩⟩]
  providers := [bedrockProvider enabled]
  nodup := by simp

/-- On a disabled provider the backstop turns away the canonical name of a model that is allowed
under its Bedrock name with region and version. Management permits it. -/
theorem denied_on_disabled :
    let account := bedrockAccount false "eu.anthropic.claude-sonnet-4-5-20250929-v1:0"
    (evaluateAllowlist sampleText (account.guardrailConfig sampleText) "ainp_1" "bedrock"
      "anthropic.claude-sonnet-4-5" true false).isSome ∧
    policyPermitsModel sampleText bedrockPolicy (guardrailsByID account.guardrails)
      "anthropic.claude-sonnet-4-5" (account.providerCatalogID "ainp_1") = true := by
  decide +kernel

theorem policyPermitsModel_of_denied_bedrock :
    let account := bedrockAccount true "anthropic.claude-sonnet-4-5"
    (evaluateAllowlist sampleText (account.guardrailConfig sampleText) "ainp_1" "bedrock"
      "amazon.nova-pro" true false).isSome ∧
    policyPermitsModel sampleText bedrockPolicy (guardrailsByID account.guardrails)
      "amazon.nova-pro" (account.providerCatalogID "ainp_1") = false := by
  intro account
  have hd : (evaluateAllowlist sampleText (account.guardrailConfig sampleText)
      (bedrockProvider true).id "bedrock" "amazon.nova-pro" true false).isSome := by
    decide +kernel
  exact ⟨hd, policyPermitsModel_of_denied (P := bedrockProvider true)
    (mem_singleton.2 rfl) rfl hd (mem_singleton.2 rfl) rfl (mem_singleton.2 rfl)⟩

end

end Cloink.AgentNetwork
