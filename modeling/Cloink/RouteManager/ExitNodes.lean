import Cloink.RouteManager.RouteSelector
import Mathlib.Data.String.Basic
import Mathlib.Order.Bounds.Basic

/-!
# One exit node at a time

On every network map the client reconciles the selection of exit nodes
(`updateRouteSelectorFromManagement`). It first gives the IPv6 half of each pair the state of its
IPv4 base, then makes the user's selected exit node, or one that management wants applied, the only
selected one. A base that is deselected after its half was served leaves the half selected. The exit
nodes whose names end in the suffix are left out of the choice, paired or not.
-/

namespace Cloink.RouteManager

open Netip List

/-! ### The update -/

/-- The routes by network identifier; of several entries with one identifier the last stays. -/
def routesByNetID (clientRoutes : HAMap) : StrMap (List Route) :=
  clientRoutes.entries.foldl (fun m e => m.insert (haNetID e.1) e.2) ∅

structure ExitNodeInfo where
  allIDs : List String := []
  selectedByManagement : List String := []
  userSelected : List String := []
  userDeselected : List String := []

def minNetID : List String → String
  | [] => ""
  | best :: ids => ids.foldl (fun best id => if id < best then id else best) best

def pickPreferredExitNode (info : ExitNodeInfo) : String :=
  if info.userSelected ≠ [] then minNetID info.userSelected
  else if info.selectedByManagement ≠ [] then minNetID info.selectedByManagement
  else ""

namespace RouteSelector

def mirrorV6ExitPairSelections (rs : RouteSelector) (clientRoutes : HAMap) : RouteSelector :=
  (v6ExitMergeSet (routesByNetID clientRoutes)).foldl
    (fun rs v6ID => rs.syncPairedSelection (trimV6ExitSuffix v6ID) v6ID) rs

variable (rs : RouteSelector)

def categorizeUserSelection (netID : String) (info : ExitNodeInfo) : ExitNodeInfo :=
  if rs.isSelected netID then { info with userSelected := info.userSelected ++ [netID] }
  else { info with userDeselected := info.userDeselected ++ [netID] }

def checkManagementSelection (routes : List Route) (netID : String) (info : ExitNodeInfo) :
    ExitNodeInfo :=
  if routes.any fun r => !r.skipAutoApply then
    { info with selectedByManagement := info.selectedByManagement ++ [netID] }
  else info

/-- The step of the loop of `collectExitNodeInfo`. -/
def addExitNode (info : ExitNodeInfo) (e : Sigma fun _ : String => List Route) : ExitNodeInfo :=
  if !isExitNode e.2 then info
  else
    let netID := haNetID e.1
    if hasV6ExitSuffix netID then info
    else
      let info := { info with allIDs := info.allIDs ++ [netID] }
      if rs.hasUserSelectionForRoute netID then rs.categorizeUserSelection netID info
      else checkManagementSelection e.2 netID info

def collectExitNodeInfo (clientRoutes : HAMap) : ExitNodeInfo :=
  clientRoutes.entries.foldl rs.addExitNode {}

def updateRouteSelectorFromManagement (clientRoutes : HAMap) : RouteSelector :=
  let rs := rs.mirrorV6ExitPairSelections clientRoutes
  if rs.deselectAll then rs
  else
    let info := rs.collectExitNodeInfo clientRoutes
    if info.allIDs.isEmpty then rs
    else rs.setExclusiveExitNode (pickPreferredExitNode info) info.allIDs

/-! ### Mirroring -/

variable {rs}

theorem deselectAll_mirror (cr : HAMap) :
    (rs.mirrorV6ExitPairSelections cr).deselectAll = rs.deselectAll :=
  foldlRecOn (motive := fun rs' : RouteSelector => rs'.deselectAll = rs.deselectAll) _ _ rfl
    fun _ h _ _ => (deselectAll_syncPaired _ _).trans h

/-- No base is a half, so that the order of the pairs does not matter. -/
theorem stateAt_foldl_sync {l : List String} (hl : ∀ v ∈ l, trimV6ExitSuffix v ∉ l)
    (h : rs.deselectAll = false) (n : String) :
    (l.foldl (fun rs v6ID => rs.syncPairedSelection (trimV6ExitSuffix v6ID) v6ID) rs).stateAt n =
      if n ∈ l then mirrored (rs.stateAt (trimV6ExitSuffix n)) else rs.stateAt n := by
  induction l generalizing rs with
  | nil => simp
  | cons a l ih =>
    have ht : ∀ v ∈ l, trimV6ExitSuffix v ∉ l := fun v hv hm =>
      hl v (mem_cons_of_mem a hv) (mem_cons_of_mem a hm)
    rw [foldl_cons, ih ht (by simpa using h), stateAt_syncPaired h, stateAt_syncPaired h]
    by_cases hn : n ∈ l
    · have hb : trimV6ExitSuffix n ≠ a := fun heq =>
        hl n (mem_cons_of_mem a hn) (heq ▸ mem_cons_self)
      rw [if_pos hn, if_neg hb, if_pos (mem_cons_of_mem a hn)]
    · by_cases ha : n = a
      · subst ha
        rw [if_neg hn, if_pos rfl, if_pos mem_cons_self]
      · rw [if_neg hn, if_neg ha, if_neg (by simp [hn, ha])]

theorem stateAt_mirror (h : rs.deselectAll = false) (cr : HAMap) (n : String) :
    (rs.mirrorV6ExitPairSelections cr).stateAt n = if n ∈ v6ExitMergeSet (routesByNetID cr) then
        mirrored (rs.stateAt (trimV6ExitSuffix n))
      else rs.stateAt n :=
  stateAt_foldl_sync (fun _ hv => trimV6ExitSuffix_notMem hv) h n

/-! ### Choosing -/

theorem minNetID_isLeast {ids : List String} (h : ids ≠ []) :
    IsLeast {n | n ∈ ids} (minNetID ids) := by
  cases ids with
  | nil => exact absurd rfl h
  | cons best ids =>
    have hm : minNetID (best :: ids) = ids.foldl min best := by
      refine foldl_ext _ _ _ fun best id _ => ?_
      rw [min_comm, min_def_lt]
    exact hm ▸ min?_eq_some_iff.1 min?_cons'

/-- The exit nodes that the user has selected. -/
def UserPick (rs : RouteSelector) (routes : HAMap) (n : String) : Prop :=
  hasV6ExitSuffix n = false ∧ rs.stateAt n = (true, false) ∧ ExitNode routes n

/-- The exit nodes without a state that management wants applied. -/
def ManagementPick (rs : RouteSelector) (routes : HAMap) (n : String) : Prop :=
  hasV6ExitSuffix n = false ∧ rs.stateAt n = (false, false) ∧ AutoApplied routes n

/-- The exit node to keep: the user's, else management's, and the first of several. -/
def Preferred (rs : RouteSelector) (routes : HAMap) (n : String) : Prop :=
  IsLeast {m | rs.UserPick routes m} n ∨
    (∀ m, ¬ rs.UserPick routes m) ∧ IsLeast {m | rs.ManagementPick routes m} n

variable {n : String} {routes : HAMap}

theorem mem_allIDs_addExitNode (info : ExitNodeInfo) (e : Sigma fun _ : String => List Route) :
    n ∈ (rs.addExitNode info e).allIDs ↔
      n ∈ info.allIDs ∨ hasV6ExitSuffix n = false ∧ isExitNode e.2 ∧ haNetID e.1 = n := by
  unfold addExitNode categorizeUserSelection checkManagementSelection
  split_ifs <;> grind

theorem mem_userSelected_addExitNode (h : rs.deselectAll = false) (info : ExitNodeInfo)
    (e : Sigma fun _ : String => List Route) : n ∈ (rs.addExitNode info e).userSelected ↔
      n ∈ info.userSelected ∨ hasV6ExitSuffix n = false ∧ rs.stateAt n = (true, false) ∧
        isExitNode e.2 ∧ haNetID e.1 = n := by
  unfold addExitNode categorizeUserSelection checkManagementSelection
  simp only [hasUserSelectionForRoute, isSelected, stateAt, h]
  split_ifs <;> grind

theorem mem_managed_addExitNode (info : ExitNodeInfo)
    (e : Sigma fun _ : String => List Route) : n ∈ (rs.addExitNode info e).selectedByManagement ↔
      n ∈ info.selectedByManagement ∨ hasV6ExitSuffix n = false ∧ rs.stateAt n = (false, false) ∧
        isExitNode e.2 ∧ haNetID e.1 = n ∧ ∃ r ∈ e.2, r.skipAutoApply = false := by
  unfold addExitNode categorizeUserSelection checkManagementSelection
  simp only [hasUserSelectionForRoute, stateAt, any_eq_true, Bool.not_eq_true']
  split_ifs <;> grind

theorem mem_allIDs : n ∈ (rs.collectExitNodeInfo routes).allIDs ↔
      hasV6ExitSuffix n = false ∧ ExitNode routes n := by
  refine (foldl_iff_exists (p := fun info : ExitNodeInfo => n ∈ info.allIDs)
    mem_allIDs_addExitNode routes.entries {}).trans ?_
  simp only [ExitNode, not_mem_nil, false_or, exists_and_left, and_left_comm]

theorem mem_userSelected (h : rs.deselectAll = false) :
    n ∈ (rs.collectExitNodeInfo routes).userSelected ↔ rs.UserPick routes n := by
  refine (foldl_iff_exists (p := fun info : ExitNodeInfo => n ∈ info.userSelected)
    (mem_userSelected_addExitNode h) routes.entries {}).trans ?_
  simp only [UserPick, ExitNode, not_mem_nil, false_or, ← exists_and_left]
  exact exists_congr fun _ => by tauto

theorem mem_managed :
    n ∈ (rs.collectExitNodeInfo routes).selectedByManagement ↔ rs.ManagementPick routes n := by
  refine (foldl_iff_exists (p := fun info : ExitNodeInfo => n ∈ info.selectedByManagement)
    mem_managed_addExitNode routes.entries {}).trans ?_
  simp only [ManagementPick, AutoApplied, not_mem_nil, false_or, ← exists_and_left]
  exact exists_congr fun _ => by tauto

/-- The pick is the preferred exit node, or empty when there is none. -/
theorem pickPreferredExitNode_spec (h : rs.deselectAll = false) (routes : HAMap) :
    rs.Preferred routes (pickPreferredExitNode (rs.collectExitNodeInfo routes)) ∨
      pickPreferredExitNode (rs.collectExitNodeInfo routes) = "" ∧
        (∀ n, ¬ rs.UserPick routes n) ∧ ∀ n, ¬ rs.ManagementPick routes n := by
  have hus : {n | n ∈ (rs.collectExitNodeInfo routes).userSelected} =
      {n | rs.UserPick routes n} := Set.ext fun _ => mem_userSelected h
  have hmn : {n | n ∈ (rs.collectExitNodeInfo routes).selectedByManagement} =
      {n | rs.ManagementPick routes n} := Set.ext fun _ => mem_managed
  unfold pickPreferredExitNode
  by_cases hu : (rs.collectExitNodeInfo routes).userSelected = []
  · have hnn : ∀ n, ¬ rs.UserPick routes n := fun n hn => by
      have hmm := (mem_userSelected h).2 hn
      rw [hu] at hmm
      exact not_mem_nil hmm
    rw [if_neg (not_not.2 hu)]
    by_cases hm : (rs.collectExitNodeInfo routes).selectedByManagement = []
    · rw [if_neg (not_not.2 hm)]
      refine .inr ⟨rfl, hnn, fun n hn => ?_⟩
      have hmm := mem_managed.2 hn
      rw [hm] at hmm
      exact not_mem_nil hmm
    · rw [if_pos hm]
      exact .inl (.inr ⟨hnn, hmn ▸ minNetID_isLeast hm⟩)
  · rw [if_pos hu]
    exact .inl (.inl (hus ▸ minNetID_isLeast hu))

/-- There is at most one preferred exit node. -/
theorem Preferred.unique {m : String} (hn : rs.Preferred routes n) (hm : rs.Preferred routes m) :
    n = m := by
  rcases hn with hn | ⟨hnn, hn⟩ <;> rcases hm with hm | ⟨hn', hm⟩
  · exact hn.unique hm
  · exact absurd hn.1 (hn' n)
  · exact absurd hm.1 (hnn m)
  · exact hn.unique hm

theorem Preferred.pick (h : rs.Preferred routes n) :
    rs.UserPick routes n ∨ rs.ManagementPick routes n :=
  h.imp (·.1) (·.2.1)

theorem stateAt_mirror_of_suffix (h : rs.deselectAll = false) (routes : HAMap)
    (hn : hasV6ExitSuffix n = false) :
    (rs.mirrorV6ExitPairSelections routes).stateAt n = rs.stateAt n := by
  rw [stateAt_mirror h, if_neg fun hm => by simp [hasV6ExitSuffix_of_mem hm] at hn]

/-- Mirroring pairs does not change the preference. -/
theorem preferred_mirror (h : rs.deselectAll = false) (routes : HAMap) :
    (rs.mirrorV6ExitPairSelections routes).Preferred routes = rs.Preferred routes := by
  have hu : (rs.mirrorV6ExitPairSelections routes).UserPick routes = rs.UserPick routes := by
    ext n
    refine and_congr_right fun hn => ?_
    rw [stateAt_mirror_of_suffix h routes hn]
  have hm : (rs.mirrorV6ExitPairSelections routes).ManagementPick routes =
      rs.ManagementPick routes := by
    ext n
    refine and_congr_right fun hn => ?_
    rw [stateAt_mirror_of_suffix h routes hn]
  unfold Preferred
  rw [hu, hm]

/-! ### After an update -/

theorem deselectAll_update (routes : HAMap) :
    (rs.updateRouteSelectorFromManagement routes).deselectAll = rs.deselectAll := by
  unfold updateRouteSelectorFromManagement
  dsimp only
  split
  · exact deselectAll_mirror routes
  · split
    · exact deselectAll_mirror routes
    · rw [deselectAll_setExclusive, deselectAll_mirror]

/-- The state of a route after an update from management. -/
theorem stateAt_update (h : rs.deselectAll = false) (routes : HAMap) (n : String) :
    (rs.updateRouteSelectorFromManagement routes).stateAt n =
      let preferred := pickPreferredExitNode
        ((rs.mirrorV6ExitPairSelections routes).collectExitNodeInfo routes)
      if n = preferred ∧ preferred ≠ "" then (true, false)
      else if (hasV6ExitSuffix n = false ∧ ExitNode routes n) ∧ n ≠ preferred then (false, true)
      else (rs.mirrorV6ExitPairSelections routes).stateAt n := by
  have ha := (deselectAll_mirror routes).trans h
  unfold updateRouteSelectorFromManagement
  rw [if_neg (by simp [ha])]
  by_cases he : ((rs.mirrorV6ExitPairSelections routes).collectExitNodeInfo routes).allIDs = []
  · -- without an exit node to choose from there is no preferred one either
    have hnn : ∀ n, ¬ (hasV6ExitSuffix n = false ∧ ExitNode routes n) := fun n hn => by
      have hm : n ∈ ((rs.mirrorV6ExitPairSelections routes).collectExitNodeInfo routes).allIDs :=
        mem_allIDs.2 hn
      rw [he] at hm
      exact not_mem_nil hm
    rw [if_pos (by simp [he]), if_neg, if_neg fun hn => hnn n hn.1]
    rintro ⟨-, hne⟩
    rcases pickPreferredExitNode_spec ha routes with hpr | ⟨heq, -⟩
    · rcases hpr.pick with hp | hp
      · exact hnn _ ⟨hp.1, hp.2.2⟩
      · exact hnn _ ⟨hp.1, hp.2.2.exitNode⟩
    · exact hne heq
  · rw [if_neg (by simpa using he), stateAt_setExclusive ha]
    simp only [mem_allIDs]

theorem Contains.exitNode (h : rs.Contains routes n) : ExitNode routes n := by
  obtain ⟨e, he, hex, hn, -⟩ := h
  exact ⟨e, he, hex, hn⟩

variable (h : rs.deselectAll = false)

include h

theorem contains_of_pick
    (hp : rs.UserPick routes n ∨ rs.ManagementPick routes n) : rs.Contains routes n :=
  (contains_iff h).2 (hp.imp (·.2) (·.2))

theorem pick_of_contains (hn : hasV6ExitSuffix n = false)
    (hc : rs.Contains routes n) : rs.UserPick routes n ∨ rs.ManagementPick routes n :=
  ((contains_iff h).1 hc).imp (⟨hn, ·⟩) (⟨hn, ·⟩)

theorem contains_congr {rs' : RouteSelector}
    (h' : rs'.deselectAll = false) (hs : rs.stateAt n = rs'.stateAt n) :
    rs.Contains routes n ↔ rs'.Contains routes n := by
  rw [contains_iff h, contains_iff h', hs]

/-- Of the exit nodes that take part in the choice the preferred one passes. -/
theorem contains_update_base (hn : hasV6ExitSuffix n = false) :
    (rs.updateRouteSelectorFromManagement routes).Contains routes n ↔ rs.Preferred routes n := by
  have ha := (deselectAll_mirror routes).trans h
  have ha' := (deselectAll_update routes).trans h
  have hs := stateAt_update h routes n
  have hsp := pickPreferredExitNode_spec ha routes
  rw [← preferred_mirror h]
  generalize rs.mirrorV6ExitPairSelections routes = rs' at ha hs hsp ⊢
  generalize pickPreferredExitNode (rs'.collectExitNodeInfo routes) = preferred at hs hsp
  by_cases hp : n = preferred
  · subst hp
    rcases hsp with hpr | ⟨rfl, hu, hm⟩
    · refine iff_of_true ?_ hpr
      have hc := contains_of_pick ha hpr.pick
      by_cases he : n = ""
      · rw [if_neg (by simp [he]), if_neg (by simp)] at hs
        exact (contains_congr ha' ha hs).2 hc
      · rw [if_pos ⟨rfl, he⟩] at hs
        exact (contains_iff ha').2 (.inl ⟨hs, hc.exitNode⟩)
    · rw [if_neg (by simp), if_neg (by simp)] at hs
      refine iff_of_false (fun hc => ?_) fun hpr => ?_
      · exact (pick_of_contains ha hn ((contains_congr ha' ha hs).1 hc)).elim (hu "") (hm "")
      · exact hpr.pick.elim (hu "") (hm "")
  · refine iff_of_false (fun hc => ?_) fun hpr => ?_
    · rw [if_neg fun h => hp h.1, if_pos ⟨⟨hn, hc.exitNode⟩, hp⟩] at hs
      simp [contains_iff ha', hs] at hc
    · rcases hsp with hp' | ⟨-, hu, hm⟩
      · exact hp (hpr.unique hp')
      · exact hpr.pick.elim (hu n) (hm n)

theorem stateAt_update_of_suffix (hn : hasV6ExitSuffix n) :
    (rs.updateRouteSelectorFromManagement routes).stateAt n =
      (rs.mirrorV6ExitPairSelections routes).stateAt n := by
  rw [stateAt_update h]
  rw [if_neg, if_neg (by simp [hn])]
  rintro ⟨heq, hne⟩
  rcases pickPreferredExitNode_spec ((deselectAll_mirror routes).trans h) routes with
    hp | ⟨he, -⟩
  · rw [← heq] at hp
    rcases hp.pick with ⟨hs, -⟩ | ⟨hs, -⟩ <;> simp [hn] at hs
  · exact hne he

omit h

/-! ### Pairs -/

theorem exitNode_of_routesByNetID (h : isExitNode ((routesByNetID routes).setAt n)) :
    ExitNode routes n := by
  have hi : ∀ n, isExitNode ((routesByNetID routes).setAt n) → ExitNode routes n :=
    List.foldlRecOn routes.entries (fun m e => m.insert (haNetID e.1) e.2)
      (motive := fun m : StrMap (List Route) => ∀ n, isExitNode (m.setAt n) → ExitNode routes n)
      (fun n hn => by simp [AList.setAt, isExitNode, headIsV4Default, headIsV6Default] at hn)
      fun m hm e he n hn => by
        rw [AList.setAt_insert] at hn
        split at hn
        · rename_i heq
          exact ⟨e, he, hn, heq.symm⟩
        · exact hm n hn
  exact hi n h

theorem exitNode_of_mem (h : n ∈ v6ExitMergeSet (routesByNetID routes)) : ExitNode routes n := by
  simp only [v6ExitMergeSet, mem_filter, Bool.and_eq_true] at h
  exact exitNode_of_routesByNetID (by simp [isExitNode, h.2.1.1])

/-- The half of a pair passes by the state that its base had before the update. -/
theorem contains_update_half (h : rs.deselectAll = false)
    (hn : n ∈ v6ExitMergeSet (routesByNetID routes)) :
    (rs.updateRouteSelectorFromManagement routes).Contains routes n ↔
      trimV6ExitSuffix n ∈ rs.selectedRoutes ∨
        rs.stateAt (trimV6ExitSuffix n) = (false, false) ∧ AutoApplied routes n := by
  rw [contains_iff ((deselectAll_update routes).trans h),
    stateAt_update_of_suffix h (hasV6ExitSuffix_of_mem hn), stateAt_mirror h, if_pos hn,
    ← stateAt_fst]
  have he := exitNode_of_mem hn
  rcases rs.stateAt (trimV6ExitSuffix n) with ⟨_ | _, _ | _⟩ <;> simp [mirrored, he]

/-- The exit nodes that are kept, from the state before the update: the preferred one, and those
with the suffix that pass already. -/
def Kept (rs : RouteSelector) (routes : HAMap) (n : String) : Prop :=
  if hasV6ExitSuffix n then rs.Contains routes n else rs.Preferred routes n

theorem contains_update_other (h : rs.deselectAll = false)
    (hn : n ∉ v6ExitMergeSet (routesByNetID routes)) :
    (rs.updateRouteSelectorFromManagement routes).Contains routes n ↔ rs.Kept routes n := by
  unfold Kept
  split
  · rename_i hs
    refine contains_congr ((deselectAll_update routes).trans h) h ?_
    rw [stateAt_update_of_suffix h hs, stateAt_mirror h, if_neg hn]
  · rename_i hs
    exact contains_update_base h (by simpa using hs)

theorem Kept.notMem_deselectedRoutes (h : rs.deselectAll = false) (hk : rs.Kept routes n) :
    n ∉ rs.deselectedRoutes := by
  have hc : rs.Contains routes n := by
    unfold Kept at hk
    split at hk
    · exact hk
    · exact contains_of_pick h hk.pick
  rw [← stateAt_snd]
  rcases (contains_iff h).1 hc with ⟨hs, -⟩ | ⟨hs, -⟩ <;> simp [hs]

/-- The exit node that a route belongs to: a paired IPv6 route counts as its base. -/
def exitRoot (routes : HAMap) (n : String) : String :=
  if n ∈ v6ExitMergeSet (routesByNetID routes) then trimV6ExitSuffix n else n

/-- At most one exit node passes the filter, with both halves of a pair or with none. -/
structure OneExitNode (rs : RouteSelector) (routes : HAMap) : Prop where
  atMostOne : ∀ n m, rs.Contains routes n → rs.Contains routes m →
    exitRoot routes n = exitRoot routes m
  halves : ∀ n ∈ v6ExitMergeSet (routesByNetID routes),
    (rs.Contains routes n ↔ rs.Contains routes (trimV6ExitSuffix n))

/-- The state before an update that leaves one exit node: every base that the user has selected is
the one to keep, a half whose base has no state is wanted by management exactly when the base is the
one to keep, and an unpaired exit node whose name ends in the suffix is kept alone. -/
structure HalvesFollow (rs : RouteSelector) (routes : HAMap) : Prop where
  selected : ∀ n ∈ v6ExitMergeSet (routesByNetID routes),
    trimV6ExitSuffix n ∈ rs.selectedRoutes → rs.Kept routes (trimV6ExitSuffix n)
  untouched : ∀ n ∈ v6ExitMergeSet (routesByNetID routes),
    rs.stateAt (trimV6ExitSuffix n) = (false, false) →
      (AutoApplied routes n ↔ rs.Kept routes (trimV6ExitSuffix n))
  alone : ∀ n m, n ∉ v6ExitMergeSet (routesByNetID routes) →
    m ∉ v6ExitMergeSet (routesByNetID routes) → hasV6ExitSuffix n → rs.Kept routes n →
      rs.Kept routes m → n = m

theorem exitRoot_notMem (routes : HAMap) (n : String) :
    exitRoot routes n ∉ v6ExitMergeSet (routesByNetID routes) := by
  unfold exitRoot
  split
  · rename_i hn
    exact trimV6ExitSuffix_notMem hn
  · assumption

theorem HalvesFollow.kept_unique (hf : rs.HalvesFollow routes) {m : String}
    (hn : n ∉ v6ExitMergeSet (routesByNetID routes))
    (hm : m ∉ v6ExitMergeSet (routesByNetID routes)) (hkn : rs.Kept routes n)
    (hkm : rs.Kept routes m) : n = m := by
  by_cases hsn : hasV6ExitSuffix n
  · exact hf.alone n m hn hm hsn hkn hkm
  · by_cases hsm : hasV6ExitSuffix m
    · exact (hf.alone m n hm hn hsm hkm hkn).symm
    · rw [Kept, if_neg hsn] at hkn
      rw [Kept, if_neg hsm] at hkm
      exact hkn.unique hkm

theorem HalvesFollow.contains_half (h : rs.deselectAll = false) (hf : rs.HalvesFollow routes)
    (hn : n ∈ v6ExitMergeSet (routesByNetID routes)) :
    (rs.updateRouteSelectorFromManagement routes).Contains routes n ↔
      rs.Kept routes (trimV6ExitSuffix n) := by
  rw [contains_update_half h hn]
  by_cases hs : trimV6ExitSuffix n ∈ rs.selectedRoutes
  · exact iff_of_true (.inl hs) (hf.selected n hn hs)
  · by_cases hd : trimV6ExitSuffix n ∈ rs.deselectedRoutes
    · refine iff_of_false ?_ fun hk => hk.notMem_deselectedRoutes h hd
      simp [stateAt, hs, hd]
    · have hst : rs.stateAt (trimV6ExitSuffix n) = (false, false) := by simp [stateAt, hs, hd]
      rw [← hf.untouched n hn hst]
      simp [hs, hst]

/-- An update leaves at most one exit node exactly when the halves can follow their bases. -/
theorem oneExitNode_iff (rs : RouteSelector) (h : rs.deselectAll = false) (clientRoutes : HAMap) :
    (rs.updateRouteSelectorFromManagement clientRoutes).OneExitNode clientRoutes ↔
      rs.HalvesFollow clientRoutes := by
  constructor
  · intro ho
    have hb : ∀ n ∈ v6ExitMergeSet (routesByNetID clientRoutes),
        ((rs.updateRouteSelectorFromManagement clientRoutes).Contains clientRoutes n ↔
          rs.Kept clientRoutes (trimV6ExitSuffix n)) := fun n hn =>
      (ho.halves n hn).trans (contains_update_other h (trimV6ExitSuffix_notMem hn))
    refine ⟨fun n hn hs => ?_, fun n hn hst => ?_, fun n m hn hm _ hkn hkm => ?_⟩
    · exact (hb n hn).1 ((contains_update_half h hn).2 (.inl hs))
    · rw [← hb n hn, contains_update_half h hn, ← stateAt_fst, hst]
      simp
    · have hr := ho.atMostOne n m ((contains_update_other h hn).2 hkn)
        ((contains_update_other h hm).2 hkm)
      rwa [exitRoot, if_neg hn, exitRoot, if_neg hm] at hr
  · intro hf
    have hr : ∀ n, (rs.updateRouteSelectorFromManagement clientRoutes).Contains clientRoutes n →
          rs.Kept clientRoutes (exitRoot clientRoutes n) := by
      intro n hn
      unfold exitRoot
      split
      · rename_i hmm
        exact (hf.contains_half h hmm).1 hn
      · rename_i hmm
        exact (contains_update_other h hmm).1 hn
    refine ⟨fun n m hn hm => ?_, fun n hn => ?_⟩
    · exact hf.kept_unique (exitRoot_notMem clientRoutes n) (exitRoot_notMem clientRoutes m)
        (hr n hn) (hr m hm)
    · rw [hf.contains_half h hn, contains_update_other h (trimV6ExitSuffix_notMem hn)]

/-- The exit nodes `A` and `B`, each with an IPv6 half, all of which management wants applied. -/
def twoPairs : HAMap :=
  [("A|0.0.0.0/0", [{ id := "a4", network := ⟨Addr.ipv4Unspecified, some 0⟩ }]),
    ("A-v6|::/0", [{ id := "a6", network := ⟨Addr.ipv6Unspecified, some 0⟩ }]),
    ("B|0.0.0.0/0", [{ id := "b4", network := ⟨Addr.ipv4Unspecified, some 0⟩ }]),
    ("B-v6|::/0", [{ id := "b6", network := ⟨Addr.ipv6Unspecified, some 0⟩ }])].foldl
    (fun m e => m.insert e.1 e.2) ∅

/-- The first map with two exit nodes: `A` is preferred and `B` deselected, but the half of `B` was
served before and passes. -/
theorem secondPair_half_only :
    ¬ ((({} : RouteSelector).updateRouteSelectorFromManagement twoPairs).OneExitNode twoPairs) := by
  intro ho
  have hh := ho.halves "B-v6" (by decide +kernel)
  revert hh
  decide +kernel

/-- The user has selected `A` and deselected `B`. -/
theorem oneExitNode_iff_selected :
    ((⟨{"B"}, {"A"}, false⟩ : RouteSelector).updateRouteSelectorFromManagement
      twoPairs).OneExitNode twoPairs := by
  refine (oneExitNode_iff _ rfl twoPairs).2 ?_
  have hkp : (⟨{"B"}, {"A"}, false⟩ : RouteSelector).Kept twoPairs "A" := by
    refine .inl ⟨⟨by decide +kernel, by decide +kernel, by decide +kernel⟩, ?_⟩
    rintro n ⟨-, hst, -⟩
    have hn : n ∈ ({"A"} : Finset String) := stateAt_fst.1 (congrArg Prod.fst hst)
    exact (Finset.mem_singleton.1 hn).ge
  have hsf : ∀ e ∈ twoPairs.entries, isExitNode e.2 → hasV6ExitSuffix (haNetID e.1) →
      haNetID e.1 ∈ v6ExitMergeSet (routesByNetID twoPairs) := by
    decide +kernel
  refine ⟨fun n _ hn => ?_, ?_, fun n m hn _ hs hk _ => ?_⟩
  · rw [Finset.mem_singleton.1 hn]
    exact hkp
  · have hst : ∀ n ∈ v6ExitMergeSet (routesByNetID twoPairs),
        (⟨{"B"}, {"A"}, false⟩ : RouteSelector).stateAt (trimV6ExitSuffix n) ≠ (false, false) := by
      decide +kernel
    exact fun n hn hf => absurd hf (hst n hn)
  · rw [Kept, if_pos hs] at hk
    obtain ⟨e, he, hex, rfl⟩ := hk.exitNode
    exact absurd (hsf e he hex hs) hn

end RouteSelector

end Cloink.RouteManager
