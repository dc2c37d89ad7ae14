import Cloink.AgentNetwork.Models
import Mathlib.Data.List.DropRight

/-!
# Routes of the LLM router

`matchRoute` takes, from the routes that claim the model, those of the vendor and of the caller's
groups. A catch-all route has no list of models and claims every one, so that routes which list the
model are to go first. But a route claims a dated or versioned model by its normal form, and only
goes first when its list has the model as it stands.
-/

namespace Cloink.AgentNetwork

open List

structure ProviderRoute where
  id : String := ""
  vendor : String := ""
  vendors : List String := []
  models : List String := []
  upstreamPath : String := ""
  allowedGroupIDs : List String := []
  vertex : Bool := false
  bedrock : Bool := false
  deriving DecidableEq

inductive MatchOutcome
  | found | unknownModel | unauthorised
  deriving DecidableEq

/-- The text in front of the date when the whole text matches `(?i)^(.*claude.*)-\d{8}$`. -/
def normalizeAnthropicModel (modelID : String) : String :=
  let m := modelID.toList
  let undated := m.take (m.length - 9)
  match m.drop (m.length - 9) with
  | '-' :: date =>
    if date.length = 8 && date.all Char.isDigit && !undated.contains '\n' &&
        (undated.map Char.toLower).tails.any "claude".toList.isPrefixOf then
      String.ofList undated
    else modelID
  | _ => modelID

def routeClaimsModel (route : ProviderRoute) (model : String) : Bool :=
  route.models.isEmpty || route.models.any fun candidate =>
    candidate = model ||
    (route.bedrock && normalizeBedrockModel candidate = model) ||
    (route.vertex && normalizeVertexModel candidate = model) ||
    (candidate = normalizeAnthropicModel candidate && candidate = normalizeAnthropicModel model)

def routeAuthorisesGroups (r : ProviderRoute) (userGroups : List String) : Bool :=
  userGroups.any r.allowedGroupIDs.contains

def routeSupportsVendor (route : ProviderRoute) (vendor : String) : Bool :=
  route.vendor = vendor || route.vendors.contains vendor

def matchingVendor (routes : List ProviderRoute) (vendor : String) : List ProviderRoute :=
  routes.filter (routeSupportsVendor · vendor)

def explicitlyClaiming (routes : List ProviderRoute) (model : String) : List ProviderRoute :=
  routes.filter (·.models.contains model)

def pathPrefixMatches (upstreamPath reqPath : String) : Bool :=
  upstreamPath = "" || upstreamPath = "/" ||
    let path := upstreamPath.toList.rdropWhile (· = '/')
    reqPath.toList == path || (path ++ ['/']).isPrefixOf reqPath.toList

/-- The part of the routes, unless there is none. -/
def narrow (routes part : List ProviderRoute) : List ProviderRoute :=
  if part.isEmpty then routes else part

/-- One turn of the loop over the candidates, with the best route so far and the length of its
path. -/
def betterPath (reqPath : String) (best : ProviderRoute × Int) (c : ProviderRoute) :
    ProviderRoute × Int :=
  if pathPrefixMatches c.upstreamPath reqPath && best.2 < c.upstreamPath.utf8ByteSize then
    (c, c.upstreamPath.utf8ByteSize)
  else best

/-- The choice among the candidates that are left. -/
def longestPath (reqPath : String) : List ProviderRoute → ProviderRoute
  | [] => {}
  | [c] => c
  | c :: rest => ((c :: rest).foldl (betterPath reqPath) (c, -1)).1

section

variable (providers : List ProviderRoute) (model vendor reqPath : String) (userGroups : List String)

/-- The routes that claim the model, after the vendor rule. -/
def modelMatched : List ProviderRoute :=
  let claiming := providers.filter (routeClaimsModel · model)
  if vendor = "" then claiming else narrow claiming (matchingVendor claiming vendor)

def authorised : List ProviderRoute :=
  (modelMatched providers model vendor).filter (routeAuthorisesGroups · userGroups)

def matchRoute : ProviderRoute × MatchOutcome :=
  let candidates := authorised providers model vendor userGroups
  if (providers.filter (routeClaimsModel · model)).isEmpty then ({}, .unknownModel)
  else if candidates.isEmpty then ({}, .unauthorised)
  else (longestPath reqPath (narrow candidates (explicitlyClaiming candidates model)), .found)

/-- The route has the longest path among the candidates whose path the request is under, the first
of them at equal length. When it is under no path, the route is the first candidate. -/
def Leads (candidates : List ProviderRoute) (c : ProviderRoute) : Prop :=
  ∃ before after, candidates = before ++ c :: after ∧
    ((before = [] ∧ ∀ d ∈ candidates, ¬pathPrefixMatches d.upstreamPath reqPath) ∨
      (pathPrefixMatches c.upstreamPath reqPath ∧
        (∀ d ∈ before, pathPrefixMatches d.upstreamPath reqPath →
          d.upstreamPath.utf8ByteSize < c.upstreamPath.utf8ByteSize) ∧
        ∀ d ∈ after, pathPrefixMatches d.upstreamPath reqPath →
          d.upstreamPath.utf8ByteSize ≤ c.upstreamPath.utf8ByteSize))

/-- Some candidate has the model in its list as it stands, or no candidate has a list, or one with a
list leads by its path and place. -/
def Unshadowed : Prop :=
  let candidates := authorised providers model vendor userGroups
  (∃ c ∈ candidates, model ∈ c.models) ∨ (∀ c ∈ candidates, c.models = []) ∨
    ∃ c, Leads reqPath candidates c ∧ c.models ≠ []

end

variable {providers l part : List ProviderRoute} {model vendor reqPath : String}
  {userGroups : List String} {r : ProviderRoute}

/-- Candidates whose paths are no longer leave the best route as it is. -/
theorem foldl_betterPath_eq {best : ProviderRoute × Int}
    (h : ∀ d ∈ l, pathPrefixMatches d.upstreamPath reqPath →
      (d.upstreamPath.utf8ByteSize : Int) ≤ best.2) :
    l.foldl (betterPath reqPath) best = best := by
  refine foldlRecOn (motive := (· = best)) _ _ rfl ?_
  rintro _ rfl d hd
  exact if_neg fun hb => by
    obtain ⟨hm, hlt⟩ := Bool.and_eq_true_iff.1 hb
    exact Int.not_lt.2 (h d hd hm) (of_decide_eq_true hlt)

theorem foldl_betterPath_lt {best : ProviderRoute × Int} {n : Int} (hn : best.2 < n)
    (h : ∀ d ∈ l, pathPrefixMatches d.upstreamPath reqPath →
      (d.upstreamPath.utf8ByteSize : Int) < n) :
    (l.foldl (betterPath reqPath) best).2 < n := by
  refine foldlRecOn (motive := fun b : _ × Int => b.2 < n) _ _ hn fun b hb d hd => ?_
  unfold betterPath
  split
  · exact h d hd (Bool.and_eq_true_iff.1 ‹_›).1
  · exact hb

/-- The loop over the candidates ends with the one that leads. -/
theorem longestPath_eq {c : ProviderRoute} (h : Leads reqPath l c) : longestPath reqPath l = c := by
  obtain ⟨before, after, rfl, ⟨rfl, hno⟩ | ⟨hm, hb, ha⟩⟩ := h
  · cases after with
    | nil => rfl
    | cons d rest =>
      change (foldl (betterPath reqPath) (c, -1) ([] ++ c :: d :: rest)).1 = c
      rw [foldl_betterPath_eq fun e he hme => absurd hme (hno e he)]
  · cases hl : before ++ c :: after with
    | nil => simp at hl
    | cons c₀ rest =>
      obtain _ | ⟨d, rest⟩ := rest
      · cases before <;> simp_all [longestPath]
      · change (foldl (betterPath reqPath) (c₀, -1) (c₀ :: d :: rest)).1 = c
        rw [← hl, foldl_append, foldl_cons, betterPath, if_pos, foldl_betterPath_eq]
        · exact fun e he hme => Int.ofNat_le.2 (ha e he hme)
        · rw [hm, Bool.true_and, decide_eq_true_eq]
          exact foldl_betterPath_lt (by omega) fun e he hme => Int.ofNat_lt.2 (hb e he hme)

/-- Among candidates one leads. The induction adds one behind the others, as the loop does. -/
theorem exists_leads (hl : l ≠ []) : ∃ c, Leads reqPath l c := by
  induction l using reverseRecOn with
  | nil => exact absurd rfl hl
  | append_singleton l d ih =>
    by_cases hn : l = []
    · subst hn
      refine ⟨d, [], [], rfl, ?_⟩
      by_cases hmd : pathPrefixMatches d.upstreamPath reqPath <;> simp [hmd]
    obtain ⟨c, before, after, rfl, hc⟩ := ih hn
    by_cases hd : pathPrefixMatches d.upstreamPath reqPath ∧
        (pathPrefixMatches c.upstreamPath reqPath →
          c.upstreamPath.utf8ByteSize < d.upstreamPath.utf8ByteSize)
    · refine ⟨d, before ++ c :: after, [], rfl, .inr ⟨hd.1, fun e he hme => ?_, by simp⟩⟩
      obtain ⟨-, hno⟩ | ⟨hm, hb, ha⟩ := hc
      · exact absurd hme (hno e he)
      · obtain he | rfl | he := by simpa using he
        · exact (hb e he hme).trans (hd.2 hm)
        · exact hd.2 hm
        · exact (ha e he hme).trans_lt (hd.2 hm)
    · refine ⟨c, before, after ++ [d], by simp, ?_⟩
      obtain ⟨rfl, hno⟩ | ⟨hm, hb, ha⟩ := hc
      · have hmd : ¬pathPrefixMatches d.upstreamPath reqPath := fun hmd =>
          hd ⟨hmd, fun hm => absurd hm (hno c mem_cons_self)⟩
        refine .inl ⟨rfl, fun e he => ?_⟩
        obtain he | he := mem_append.1 he
        · exact hno e he
        · exact mem_singleton.1 he ▸ hmd
      · refine .inr ⟨hm, hb, fun e he hme => ?_⟩
        obtain he | he := mem_append.1 he
        · exact ha e he hme
        · obtain rfl := mem_singleton.1 he
          exact not_lt.1 fun hlt => hd ⟨hme, fun _ => hlt⟩

theorem longestPath_leads (hl : l ≠ []) : Leads reqPath l (longestPath reqPath l) := by
  obtain ⟨c, hc⟩ := exists_leads hl
  rwa [longestPath_eq hc]

theorem longestPath_mem (hl : l ≠ []) : longestPath reqPath l ∈ l := by
  obtain ⟨c, hc⟩ := exists_leads (l := l) hl
  rw [longestPath_eq hc]
  obtain ⟨before, after, rfl, -⟩ := hc
  exact mem_append_right _ mem_cons_self

theorem mem_narrow (hs : part ⊆ l) (hr : r ∈ narrow l part) : r ∈ l ∧ (part ≠ [] → r ∈ part) := by
  unfold narrow at hr
  split at hr
  · rename_i he
    exact ⟨hr, fun hn => absurd (isEmpty_iff.1 he) hn⟩
  · exact ⟨hs hr, fun _ => hr⟩

theorem mem_modelMatched (hr : r ∈ modelMatched providers model vendor) :
    r ∈ providers.filter (routeClaimsModel · model) ∧ (vendor ≠ "" →
      (∃ r' ∈ providers, routeClaimsModel r' model ∧ routeSupportsVendor r' vendor) →
      routeSupportsVendor r vendor) := by
  unfold modelMatched at hr
  dsimp only at hr
  split at hr
  · exact ⟨hr, fun hv => absurd ‹_› hv⟩
  · obtain ⟨hr, hp⟩ := mem_narrow filter_sublist.subset hr
    refine ⟨hr, fun _ ⟨r', hr', hc, hv⟩ => (mem_filter.1 (hp ?_)).2⟩
    exact ne_nil_of_mem (mem_filter.2 ⟨mem_filter.2 ⟨hr', hc⟩, hv⟩)

theorem found_eq (h : matchRoute providers model vendor reqPath userGroups = (r, .found)) :
    authorised providers model vendor userGroups ≠ [] ∧
      r = longestPath reqPath (narrow (authorised providers model vendor userGroups)
        (explicitlyClaiming (authorised providers model vendor userGroups) model)) := by
  unfold matchRoute at h
  dsimp only at h
  split_ifs at h with hc ha
  · simp at h
  · simp at h
  · exact ⟨fun hn => ha (isEmpty_iff.2 hn), (Prod.ext_iff.1 h).1.symm⟩

/-- The route that is found authorises the caller, claims the model and is of the vendor if one is.
It has a list of models, when some candidate has one, exactly if a candidate lists the model as it
stands or the path decides for a route with a list. -/
theorem matchRoute_explicit_iff (h : matchRoute providers model vendor reqPath userGroups =
      (r, .found)) :
    r ∈ providers ∧ routeAuthorisesGroups r userGroups ∧ routeClaimsModel r model ∧ (vendor ≠ "" →
        (∃ r' ∈ providers, routeClaimsModel r' model ∧ routeSupportsVendor r' vendor) →
        routeSupportsVendor r vendor) ∧
      (((∃ c ∈ modelMatched providers model vendor, routeAuthorisesGroups c userGroups ∧
          c.models ≠ [] ∧ routeClaimsModel c model) → r.models ≠ []) ↔
        Unshadowed providers model vendor reqPath userGroups) := by
  obtain ⟨hne, hr⟩ := found_eq h
  set candidates := authorised providers model vendor userGroups with hc
  have hs : explicitlyClaiming candidates model ⊆ candidates := filter_sublist.subset
  have hm : r ∈ narrow candidates (explicitlyClaiming candidates model) := by
    rw [hr]
    refine longestPath_mem fun hn => ?_
    unfold narrow at hn
    split at hn
    · exact hne hn
    · exact ‹¬_› (isEmpty_iff.2 hn)
  obtain ⟨hm, hx⟩ := mem_narrow hs hm
  obtain ⟨hv, ha⟩ := mem_filter.1 hm
  obtain ⟨hp, hvn⟩ := mem_modelMatched hv
  obtain ⟨hp, hcl⟩ := mem_filter.1 hp
  refine ⟨hp, ha, hcl, hvn, ?_⟩
  by_cases he : ∃ c ∈ candidates, model ∈ c.models
  · obtain ⟨c, hcm, hcl⟩ := he
    have hn := hx (ne_nil_of_mem (mem_filter.2 ⟨hcm, contains_iff_mem.2 hcl⟩))
    exact ⟨fun _ => .inl ⟨c, hcm, hcl⟩,
      fun _ _ => ne_nil_of_mem (contains_iff_mem.1 (mem_filter.1 hn).2)⟩
  · -- no candidate lists the model as it stands, and the path decides among all of them
    have hx : explicitlyClaiming candidates model = [] :=
      filter_eq_nil_iff.2 fun c hcm hl => he ⟨c, hcm, contains_iff_mem.1 hl⟩
    rw [hx] at hr
    change r = longestPath reqPath candidates at hr
    constructor
    · intro hi
      by_cases hl : ∀ c ∈ candidates, c.models = []
      · exact .inr (.inl hl)
      · obtain ⟨c, hcm, hl⟩ := not_forall₂.1 hl
        obtain ⟨hcv, hca⟩ := mem_filter.1 hcm
        refine .inr (.inr ⟨r, hr ▸ longestPath_leads hne, hi ⟨c, hcv, hca, hl, ?_⟩⟩)
        exact (mem_filter.1 (mem_modelMatched hcv).1).2
    · rintro (hu | hu | ⟨d, hd, hu⟩) ⟨c, hcv, hca, hl, -⟩
      · exact absurd hu he
      · exact absurd (hu c (mem_filter.2 ⟨hcv, hca⟩)) hl
      · exact hr.trans (longestPath_eq hd) ▸ hu

/-- A gateway for every model. -/
def gateway : ProviderRoute :=
  { id := "gateway", vendors := ["openai", "anthropic"], allowedGroupIDs := ["dev"] }

/-- The gateway and a route for one model. -/
def gatewayAndRoute : List ProviderRoute :=
  [gateway, { id := "claude", vendor := "anthropic", models := ["claude-sonnet-4-5"],
              allowedGroupIDs := ["dev"] }]

theorem matchRoute_undated :
    (matchRoute gatewayAndRoute "claude-sonnet-4-5" "anthropic" "/v1/messages" ["dev"]).1.models ≠
      [] ∧
    Unshadowed gatewayAndRoute "claude-sonnet-4-5" "anthropic" "/v1/messages" ["dev"] := by
  have hm : (matchRoute gatewayAndRoute "claude-sonnet-4-5" "anthropic" "/v1/messages"
    ["dev"]).1.models ≠ [] := by decide +kernel
  exact ⟨hm, (matchRoute_explicit_iff (Prod.ext rfl (by decide +kernel))).2.2.2.2.1 fun _ => hm⟩

/-- The dated model is sent to the gateway although the other route claims it. -/
theorem gateway_shadows_claude :
    matchRoute gatewayAndRoute "claude-sonnet-4-5-20250929" "anthropic" "/v1/messages" ["dev"] =
      (gateway, .found) ∧ gateway.models = [] ∧
    ∃ c ∈ modelMatched gatewayAndRoute "claude-sonnet-4-5-20250929" "anthropic",
      routeAuthorisesGroups c ["dev"] ∧ c.models ≠ [] ∧
        routeClaimsModel c "claude-sonnet-4-5-20250929" := by
  decide +kernel

end Cloink.AgentNetwork
