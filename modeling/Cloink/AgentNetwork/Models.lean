import Cloink.Lib.FinMap

/-!
# Policies of the agent network and the models they permit

A policy lets the members of its source groups use the models of its destination providers; one with
an enabled allowlist permits the models of the union of its allowlists. Names are compared without
regard to case and surrounding space. Bedrock and Vertex requests name the model in their path, and
an allowlist entry is compared in both forms there. `strings.ToLower` and `strings.TrimSpace` are
parameters (`Text`).
-/

namespace Cloink.AgentNetwork

/-! ### Data -/

/-- A cap on tokens over windows of the given length; a cap of zero is none. -/
structure PolicyTokenLimit where
  enabled : Bool := false
  groupCap : Int := 0
  userCap : Int := 0
  windowSeconds : Int := 0
  deriving DecidableEq

/-- A cap on the amount spent. -/
structure PolicyBudgetLimit (USD : Type) where
  enabled : Bool
  groupCapUsd : USD
  userCapUsd : USD
  windowSeconds : Int
  deriving DecidableEq

structure PolicyLimits (USD : Type) where
  tokenLimit : PolicyTokenLimit
  budgetLimit : PolicyBudgetLimit USD
  deriving DecidableEq

structure Policy (USD : Type) where
  id : String
  enabled : Bool
  sourceGroups : List String
  destinationProviderIDs : List String
  guardrailIDs : List String
  limits : PolicyLimits USD
  createdAt : Int
  deriving DecidableEq

/-- A ceiling for the members of the groups and for the users; for everyone when there are
neither. -/
structure AccountBudgetRule (USD : Type) where
  id : String
  enabled : Bool
  targetGroups : List String
  targetUsers : List String
  limits : PolicyLimits USD
  deriving DecidableEq

structure GuardrailModelAllowlist where
  enabled : Bool
  models : List String
  deriving DecidableEq

structure Guardrail where
  id : String
  modelAllowlist : GuardrailModelAllowlist
  deriving DecidableEq

/-- A provider record. Its id is minted with a fixed first part; `providerID` names the entry of
the catalog. -/
structure Provider where
  id : String
  providerID : String
  enabled : Bool
  createdAt : Int
  id_ne_empty : id ≠ ""
  deriving DecidableEq

def guardrailsByID (guardrails : List Guardrail) : StrMap Guardrail :=
  guardrails.foldl (fun m g => m.insert g.id g) ∅

/-! ### Model names -/

/-- `strings.ToLower` and `strings.TrimSpace`, with what their composition is relied on for. -/
structure Text where
  toLower : String → String
  trimSpace : String → String
  idem : ∀ s, toLower (trimSpace (toLower (trimSpace s))) = toLower (trimSpace s)
  empty : toLower (trimSpace "") = ""

def normaliseModelID (text : Text) (model : String) : String :=
  text.toLower (text.trimSpace model)

def bedrockVendorNamespaces : List String :=
  ["ai21", "amazon", "anthropic", "cohere", "deepseek", "luma", "meta", "mistral", "openai",
    "qwen", "stability", "twelvelabs", "writer", "xai"]

def bedrockGeographies : List String :=
  ["apac", "au", "ca", "eu", "global", "jp", "sa", "us", "us-gov"]

def cut (sep : Char) (s : List Char) : Option (List Char × List Char) :=
  match s.dropWhile (· ≠ sep) with
  | [] => none
  | _ :: after => some (s.takeWhile (· ≠ sep), after)

/-- A first segment in front of two more is cut when it is a known geography or a known vendor
follows. -/
def stripBedrockGeography (modelID : List Char) : List Char :=
  match cut '.' modelID with
  | none => modelID
  | some (geo, rest) =>
    if geo.isEmpty then modelID
    else match cut '.' rest with
      | none => modelID
      | some (vendor, _) =>
        if bedrockGeographies.contains (String.ofList geo) then rest
        else if bedrockVendorNamespaces.contains (String.ofList vendor) then rest
        else modelID

/-- The text is `v` and digits, and may go on with a colon and digits. -/
def isVersion : List Char → Bool
  | 'v' :: cs =>
    !(cs.takeWhile Char.isDigit).isEmpty && match cs.dropWhile Char.isDigit with
      | [] => true
      | ':' :: throughput => !throughput.isEmpty && throughput.all Char.isDigit
      | _ => false
  | _ => false

/-- The whole text matches `-(\d{8}-)?v\d+(:\d+)?`. -/
def isVersionSuffix : List Char → Bool
  | '-' :: cs =>
    isVersion cs || ((cs.take 8).length == 8 && (cs.take 8).all Char.isDigit && match cs.drop 8 with
        | '-' :: version => isVersion version
        | _ => false)
  | _ => false

/-- The text without the longest version suffix. -/
def stripVersionSuffix : List Char → List Char
  | [] => []
  | c :: cs => if isVersionSuffix (c :: cs) then [] else c :: stripVersionSuffix cs

/-- The text behind the last slash, the whole text when there is none. -/
def afterLastSlash (s : List Char) : List Char :=
  if s.contains '/' then (s.reverse.takeWhile (· ≠ '/')).reverse else s

def normalizeBedrockModel (modelID : String) : String :=
  let m := modelID.toList
  let m := if "arn:".toList.isPrefixOf m then afterLastSlash m else m
  String.ofList (stripVersionSuffix (stripBedrockGeography m))

def normalizeVertexModel (modelID : String) : String :=
  String.ofList (modelID.toList.takeWhile (· ≠ '@'))

example : normalizeBedrockModel "eu.anthropic.claude-sonnet-4-5-20250929-v1:0" =
    "anthropic.claude-sonnet-4-5" := by decide +kernel

def isBedrockPathStyle (providerID : String) : Bool := providerID = "bedrock_api"

def isVertexPathStyle (providerID : String) : Bool := providerID = "vertex_ai_api"

def normalizePricingModelID (catalogProviderID modelID : String) : String :=
  if isBedrockPathStyle catalogProviderID then normalizeBedrockModel modelID
  else if isVertexPathStyle catalogProviderID then normalizeVertexModel modelID
  else modelID

section

variable (text : Text)

/-- The form of a name that requests are compared in. -/
def canonicalModelKey (catalogProviderID id : String) : String :=
  normaliseModelID text (normalizePricingModelID catalogProviderID (normaliseModelID text id))

/-! ### What a policy permits -/

variable {USD : Type}

/-- An entry of an allowlist names the wanted model, as it stands or in its canonical form. -/
def entryMatches (catalogProviderID wanted allowed : String) : Bool :=
  normaliseModelID text allowed == wanted ||
    canonicalModelKey text catalogProviderID allowed == wanted

/-- The enabled allowlists of a policy; ids without a guardrail are skipped. -/
def enabledAllowlists (p : Policy USD) (byID : StrMap Guardrail) : List (List String) :=
  p.guardrailIDs.filterMap fun gID =>
    match byID.lookup gID with
    | none => none
    | some g => if g.modelAllowlist.enabled then some g.modelAllowlist.models else none

/-- `policyPermitsModel`: the union of the enabled allowlists has the model, or there is none. An
empty name is in no allowlist. -/
def policyPermitsModel (p : Policy USD) (byID : StrMap Guardrail) (model catalogProviderID : String) :
    Bool :=
  let wanted := normaliseModelID text model
  let lists := enabledAllowlists p byID
  (wanted ≠ "" && lists.any fun models => models.any (entryMatches text catalogProviderID wanted)) ||
    lists.isEmpty

variable {text}

@[simp] theorem normaliseModelID_normaliseModelID (s : String) :
    normaliseModelID text (normaliseModelID text s) = normaliseModelID text s :=
  text.idem s

@[simp] theorem normaliseModelID_empty : normaliseModelID text "" = "" := text.empty

@[simp] theorem normaliseModelID_canonicalModelKey (c s : String) :
    normaliseModelID text (canonicalModelKey text c s) = canonicalModelKey text c s :=
  normaliseModelID_normaliseModelID _

theorem normalizePricingModelID_empty (c : String) : normalizePricingModelID c "" = "" := by
  have hb : normalizeBedrockModel "" = "" := by decide +kernel
  have hv : normalizeVertexModel "" = "" := by decide +kernel
  simp [normalizePricingModelID, hb, hv]

@[simp] theorem canonicalModelKey_empty (c : String) : canonicalModelKey text c "" = "" := by
  simp [canonicalModelKey, normalizePricingModelID_empty]

theorem entryMatches_empty {c wanted : String} (h : wanted ≠ "") :
    entryMatches text c wanted "" = false := by
  simp [entryMatches, h.symm]

theorem policyPermitsModel_iff {p : Policy USD} {byID : StrMap Guardrail} {model c : String} :
    policyPermitsModel text p byID model c ↔ enabledAllowlists p byID = [] ∨
      normaliseModelID text model ≠ "" ∧ ∃ models ∈ enabledAllowlists p byID, ∃ allowed ∈ models,
        entryMatches text c (normaliseModelID text model) allowed := by
  simp only [policyPermitsModel, Bool.or_eq_true, Bool.and_eq_true, decide_eq_true_eq,
    List.any_eq_true, List.isEmpty_iff]
  exact or_comm

end

end Cloink.AgentNetwork
