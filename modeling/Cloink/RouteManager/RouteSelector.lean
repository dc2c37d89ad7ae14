import Cloink.NetworkMap.Data
import Mathlib.Data.Finset.Basic

/-!
# The selection of routes

The client keeps the routes that the user has selected and those that the user has deselected by
their network identifier (`client/internal/routeselector`). A route in neither set is used, unless
it is an exit node, a default route: management then says with `SkipAutoApply` whether it applies.
The IPv4 and the IPv6 default route of one exit node are two routes, the second with the suffix
`-v6` (`route.V6ExitMergeSet`).
-/

namespace Cloink.RouteManager

open Netip AList List

/-- Identifiers of groups of highly available routes, with their routes. -/
abbrev HAMap := StrMap (List Route)

/-- `HAUniqueID.NetID`: what stands before the last separator. -/
def haNetID (id : String) : String :=
  if '|' ∈ id.toList then
    String.ofList ((id.toList.reverse.dropWhile (· ≠ '|')).tail.reverse)
  else id

/-! ### Exit nodes -/

def v6ExitSuffix : String := "-v6"

def hasV6ExitSuffix (id : String) : Bool := v6ExitSuffix.toList.isSuffixOf id.toList

def trimV6ExitSuffix (id : String) : String :=
  if hasV6ExitSuffix id then
    String.ofList (id.toList.take (id.toList.length - v6ExitSuffix.toList.length))
  else id

def isV4DefaultRoute (p : Prefix) : Bool := p = ⟨Addr.ipv4Unspecified, some 0⟩

def isV6DefaultRoute (p : Prefix) : Bool := p = ⟨Addr.ipv6Unspecified, some 0⟩

def headIsV4Default (rt : List Route) : Bool := rt.head?.any fun r => isV4DefaultRoute r.network

def headIsV6Default (rt : List Route) : Bool := rt.head?.any fun r => isV6DefaultRoute r.network

/-- Whether the routes are those of an exit node (`isExitNode`, `isExitNodeRoutes`). -/
def isExitNode (rt : List Route) : Bool := headIsV4Default rt || headIsV6Default rt

/-- The identifiers of IPv6 exit routes whose name without the suffix is an IPv4 exit route. -/
def v6ExitMergeSet (routesMap : StrMap (List Route)) : List String :=
  routesMap.keys.filter fun id =>
    headIsV6Default (routesMap.setAt id) && hasV6ExitSuffix id &&
      headIsV4Default (routesMap.setAt (trimV6ExitSuffix id))

theorem headV6_of_headV4 {rt : List Route} (h : headIsV4Default rt) :
    headIsV6Default rt = false := by
  cases rt with
  | nil => rfl
  | cons r rt =>
    have hv4 : r.network = ⟨Addr.ipv4Unspecified, some 0⟩ := by
      simpa [headIsV4Default, isV4DefaultRoute] using h
    simp [headIsV6Default, isV6DefaultRoute, hv4, Addr.ipv4Unspecified, Addr.ipv6Unspecified]

theorem hasV6ExitSuffix_of_mem {routesMap : StrMap (List Route)} {id : String}
    (h : id ∈ v6ExitMergeSet routesMap) : hasV6ExitSuffix id := by
  simp only [v6ExitMergeSet, mem_filter, Bool.and_eq_true] at h
  exact h.2.1.2

/-- The partner of a merged route is not merged itself. -/
theorem trimV6ExitSuffix_notMem {routesMap : StrMap (List Route)} {id : String}
    (h : id ∈ v6ExitMergeSet routesMap) : trimV6ExitSuffix id ∉ v6ExitMergeSet routesMap := by
  intro hb
  simp only [v6ExitMergeSet, mem_filter, Bool.and_eq_true] at h hb
  have hv6 := headV6_of_headV4 h.2.2
  rw [hb.2.1.1] at hv6
  exact Bool.noConfusion hv6

/-! ### The selector -/

structure RouteSelector where
  deselectedRoutes : Finset String := ∅
  selectedRoutes : Finset String := ∅
  deselectAll : Bool := false
  deriving DecidableEq

namespace RouteSelector

variable (rs : RouteSelector)

def isSelected (routeID : String) : Bool :=
  !rs.deselectAll && routeID ∉ rs.deselectedRoutes

def isDeselected (netID : String) : Bool :=
  rs.deselectAll || decide (netID ∈ rs.deselectedRoutes)

def hasUserSelectionForRoute (routeID : String) : Bool :=
  routeID ∈ rs.selectedRoutes || decide (routeID ∈ rs.deselectedRoutes)

/-- Makes the state of `pairedID` that of `baseID`; a base that is in both sets counts as
selected. -/
def syncPairedSelection (baseID pairedID : String) : RouteSelector :=
  if rs.deselectAll then rs
  else
    let selected := rs.selectedRoutes.erase pairedID
    let deselected := rs.deselectedRoutes.erase pairedID
    if baseID ∈ rs.selectedRoutes then
      { rs with selectedRoutes := insert pairedID selected, deselectedRoutes := deselected }
    else if baseID ∈ rs.deselectedRoutes then
      { rs with selectedRoutes := selected, deselectedRoutes := insert pairedID deselected }
    else { rs with selectedRoutes := selected, deselectedRoutes := deselected }

/-- The step of the loop over the exit nodes that are not preferred. -/
def deselectRoute (id : String) : RouteSelector :=
  { rs with
    deselectedRoutes := insert id rs.deselectedRoutes
    selectedRoutes := rs.selectedRoutes.erase id }

def selectRoute (id : String) : RouteSelector :=
  { rs with
    deselectedRoutes := rs.deselectedRoutes.erase id
    selectedRoutes := insert id rs.selectedRoutes }

variable (preferred : String)

/-- Makes `preferred` the only selected one of `exitIDs`. -/
def setExclusiveExitNode (exitIDs : List String) : RouteSelector :=
  if rs.deselectAll then rs
  else
    let rs := exitIDs.foldl (fun rs id => if id = preferred then rs else rs.deselectRoute id) rs
    if preferred ≠ "" then rs.selectRoute preferred else rs

/-- The routes that management wants applied. -/
def collectSelected (rt : List Route) : List Route := rt.filter fun r => !r.skipAutoApply

def applyExitNodeFilter (netID : String) (rt : List Route) : Option (List Route) :=
  if rs.hasUserSelectionForRoute netID then
    if rs.isSelected netID then some rt else none
  else
    let sel := collectSelected rt
    if sel.isEmpty then none else some sel

def filterSelectedExitNodes (routes : HAMap) : HAMap :=
  if rs.deselectAll then ∅
  else routes.filterMapVals fun id rt =>
    let netID := haNetID id
    if rs.isDeselected netID then none
    else if !isExitNode rt then some rt
    else rs.applyExitNodeFilter netID rt

/-! ### The state of one route -/

/-- Whether the route is in the selected and whether it is in the deselected routes. -/
def stateAt (n : String) : Bool × Bool := (n ∈ rs.selectedRoutes, n ∈ rs.deselectedRoutes)

/-- The state that a pair takes over from its base. -/
def mirrored : Bool × Bool → Bool × Bool
  | (true, _) => (true, false)
  | (false, deselected) => (false, deselected)

variable {rs}

@[simp] theorem stateAt_fst {n : String} : (rs.stateAt n).1 ↔ n ∈ rs.selectedRoutes := by
  simp [stateAt]

@[simp] theorem stateAt_snd {n : String} : (rs.stateAt n).2 ↔ n ∈ rs.deselectedRoutes := by
  simp [stateAt]

/-- The partner gets the selection of the route. -/
theorem stateAt_syncPaired (h : rs.deselectAll = false) (bid pid n : String) :
    (rs.syncPairedSelection bid pid).stateAt n =
      if n = pid then mirrored (rs.stateAt bid) else rs.stateAt n := by
  unfold syncPairedSelection
  rw [if_neg (by simp [h])]
  by_cases hs : bid ∈ rs.selectedRoutes
  · by_cases hn : n = pid <;> simp [stateAt, mirrored, hs, hn]
  · by_cases hd : bid ∈ rs.deselectedRoutes <;> by_cases hn : n = pid <;>
      simp [stateAt, mirrored, hs, hd, hn]

@[simp] theorem deselectAll_syncPaired (bid pid : String) :
    (rs.syncPairedSelection bid pid).deselectAll = rs.deselectAll := by
  unfold syncPairedSelection
  split
  · rfl
  · split
    · rfl
    · split <;> rfl

theorem stateAt_deselectRoute (id n : String) :
    (rs.deselectRoute id).stateAt n = if n = id then (false, true) else rs.stateAt n := by
  by_cases hn : n = id <;> simp [stateAt, deselectRoute, hn]

theorem stateAt_selectRoute (id n : String) :
    (rs.selectRoute id).stateAt n = if n = id then (true, false) else rs.stateAt n := by
  by_cases hn : n = id <;> simp [stateAt, selectRoute, hn]

theorem stateAt_foldl_deselectRoute (l : List String) (rs : RouteSelector) (n : String) :
    (l.foldl (fun rs id => if id = preferred then rs else rs.deselectRoute id) rs).stateAt n =
      if n ∈ l ∧ n ≠ preferred then (false, true) else rs.stateAt n := by
  induction l generalizing rs with
  | nil => simp
  | cons id l ih =>
    rw [foldl_cons, ih]
    by_cases hid : id = preferred
    · by_cases hn : n = id
      · simp [hid, hn]
      · simp [hid, hid ▸ hn]
    · by_cases hn : n = id
      · simp [hid, hn, stateAt_deselectRoute]
      · simp [hid, hn, stateAt_deselectRoute]

/-- The preferred exit node is selected, and the others are not. -/
theorem stateAt_setExclusive (h : rs.deselectAll = false) (preferred : String)
    (exs : List String) (n : String) : (rs.setExclusiveExitNode preferred exs).stateAt n =
      if n = preferred ∧ preferred ≠ "" then (true, false)
      else if n ∈ exs ∧ n ≠ preferred then (false, true)
      else rs.stateAt n := by
  unfold setExclusiveExitNode
  rw [if_neg (by simp [h])]
  by_cases hp : preferred = ""
  · rw [if_neg (by simp [hp]), if_neg (by simp [hp]), stateAt_foldl_deselectRoute]
  · rw [if_pos hp, stateAt_selectRoute, stateAt_foldl_deselectRoute]
    by_cases hn : n = preferred
    · rw [if_pos hn, if_pos ⟨hn, hp⟩]
    · simp [hn]

theorem deselectAll_foldl_deselectRoute (l : List String) (rs : RouteSelector) :
    (l.foldl (fun rs id => if id = preferred then rs else rs.deselectRoute id) rs).deselectAll =
      rs.deselectAll := by
  induction l generalizing rs with
  | nil => rfl
  | cons id l ih =>
    rw [foldl_cons, ih]
    split <;> rfl

theorem deselectAll_setExclusive (exs : List String) :
    (rs.setExclusiveExitNode preferred exs).deselectAll = rs.deselectAll := by
  unfold setExclusiveExitNode
  split
  · rfl
  · split
    · exact deselectAll_foldl_deselectRoute preferred exs rs
    · exact deselectAll_foldl_deselectRoute preferred exs rs

/-! ### What passes the filter -/

end RouteSelector

/-- An exit node with this identifier is among the routes. -/
def ExitNode (routes : HAMap) (n : String) : Prop :=
  ∃ e ∈ routes.entries, isExitNode e.2 ∧ haNetID e.1 = n

/-- Management wants a route of the exit node applied. -/
def AutoApplied (routes : HAMap) (n : String) : Prop :=
  ∃ e ∈ routes.entries, isExitNode e.2 ∧ haNetID e.1 = n ∧ ∃ r ∈ e.2, r.skipAutoApply = false

instance (routes : HAMap) (n : String) : Decidable (ExitNode routes n) :=
  inferInstanceAs (Decidable (∃ _ ∈ _, _))

theorem AutoApplied.exitNode {routes : HAMap} {n : String} (h : AutoApplied routes n) :
    ExitNode routes n := by
  obtain ⟨e, he, hex, hn, -⟩ := h
  exact ⟨e, he, hex, hn⟩

namespace RouteSelector

/-- The exit node `n` passes the filter. -/
def Contains (rs : RouteSelector) (routes : HAMap) (n : String) : Prop :=
  ∃ e ∈ routes.entries, isExitNode e.2 ∧ haNetID e.1 = n ∧ e.1 ∈ rs.filterSelectedExitNodes routes

instance (rs : RouteSelector) (routes : HAMap) (n : String) : Decidable (rs.Contains routes n) :=
  inferInstanceAs (Decidable (∃ _ ∈ _, _))

variable {rs : RouteSelector} {routes : HAMap}

/-- When an exit node is kept. -/
theorem exists_filterMap_iff {netID : String} {rt : List Route} (h : rs.deselectAll = false)
    (he : isExitNode rt) :
    (∃ rt', (if rs.isDeselected netID then none else if !isExitNode rt then some rt
        else rs.applyExitNodeFilter netID rt) = some rt') ↔
      netID ∉ rs.deselectedRoutes ∧
        (netID ∈ rs.selectedRoutes ∨ ∃ r ∈ rt, r.skipAutoApply = false) := by
  by_cases hd : netID ∈ rs.deselectedRoutes
  · simp [isDeselected, hd]
  · by_cases hs : netID ∈ rs.selectedRoutes
    · simp [isDeselected, applyExitNodeFilter, hasUserSelectionForRoute, isSelected, h, he, hd, hs]
    · simp [isDeselected, applyExitNodeFilter, hasUserSelectionForRoute, collectSelected, h, he,
        hd, hs]

/-- The exit nodes that are left are those not deselected, and wanted. -/
theorem mem_filterSelectedExitNodes (h : rs.deselectAll = false)
    {e : Sigma fun _ : String => List Route} (he : e ∈ routes.entries) (hex : isExitNode e.2) :
    e.1 ∈ rs.filterSelectedExitNodes routes ↔ haNetID e.1 ∉ rs.deselectedRoutes ∧
        (haNetID e.1 ∈ rs.selectedRoutes ∨ ∃ r ∈ e.2, r.skipAutoApply = false) := by
  rw [filterSelectedExitNodes, if_neg (by simp [h]), mem_filterMapVals,
    ← exists_filterMap_iff h hex]
  constructor
  · rintro ⟨rt, rt', hrt, hk⟩
    have heq : rt = e.2 := by
      have hl := mem_lookup_iff.2 hrt
      have hl' := mem_lookup_iff.2 (show ⟨e.1, e.2⟩ ∈ routes.entries from he)
      exact Option.mem_unique hl hl'
    subst heq
    exact ⟨rt', hk⟩
  · rintro ⟨rt', hk⟩
    exact ⟨e.2, rt', he, hk⟩

/-- A selected exit node passes; one without a state passes if management wants it applied. -/
theorem contains_iff (h : rs.deselectAll = false) {n : String} : rs.Contains routes n ↔
      (rs.stateAt n = (true, false) ∧ ExitNode routes n) ∨
        (rs.stateAt n = (false, false) ∧ AutoApplied routes n) := by
  have hen : rs.Contains routes n ↔ ∃ e ∈ routes.entries, isExitNode e.2 ∧ haNetID e.1 = n ∧
      n ∉ rs.deselectedRoutes ∧ (n ∈ rs.selectedRoutes ∨ ∃ r ∈ e.2, r.skipAutoApply = false) := by
    refine exists_congr fun e => and_congr_right fun he => and_congr_right fun hex =>
      and_congr_right fun hn => ?_
    rw [mem_filterSelectedExitNodes h he hex, hn]
  rw [hen]
  by_cases hd : n ∈ rs.deselectedRoutes
  · simp [stateAt, hd]
  · by_cases hs : n ∈ rs.selectedRoutes
    · simp [stateAt, hd, hs, ExitNode]
    · simp [stateAt, hd, hs, AutoApplied]

end RouteSelector

end Cloink.RouteManager
