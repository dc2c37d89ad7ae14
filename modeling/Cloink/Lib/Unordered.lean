import Cloink.Lib.GroupBy
import Mathlib.Data.Finset.SymmDiff
import Mathlib.Algebra.BigOperators.Group.List.Basic

/-!
# Lists up to order

A hash that combines the elements of a list by exclusive or sees neither their order nor pairs of
equal elements: of a list it keeps the elements that occur an odd number of times. For lists
without duplicates that determines the list up to order, and the operations below respect the
order-free view.
-/

namespace List

/-! ### Exclusive or -/

section

variable {α : Type} [DecidableEq α]

/-- The exclusive or of the elements of a list, as the set of those that occur an odd number of
times. -/
def xorSum (l : List α) : Finset α := l.foldr (fun a s => symmDiff {a} s) ∅

theorem xorSum_cons (a : α) (l : List α) : xorSum (a :: l) = symmDiff {a} (xorSum l) := rfl

theorem mem_xorSum {l : List α} {a : α} : a ∈ xorSum l ↔ l.count a % 2 = 1 := by
  induction l with
  | nil => simp [xorSum]
  | cons b l ih =>
    rw [xorSum_cons, Finset.mem_symmDiff, Finset.mem_singleton, ih, count_cons]
    by_cases hab : a = b
    · simp [hab]
      omega
    · simp [hab, Ne.symm hab]

/-- The exclusive or determines how often each element occurs, up to an even number. -/
theorem xorSum_eq_iff {l l' : List α} :
    xorSum l = xorSum l' ↔ ∀ a, l.count a % 2 = l'.count a % 2 := by
  rw [Finset.ext_iff]
  refine forall_congr' fun a => ?_
  rw [mem_xorSum, mem_xorSum]
  omega

/-- Lists without duplicates are determined by their exclusive or, up to order. -/
theorem perm_of_xorSum_eq {l l' : List α} (h : l.Nodup) (h' : l'.Nodup)
    (he : xorSum l = xorSum l') : l.Perm l' := by
  refine perm_iff_count.2 fun a => ?_
  have hp := xorSum_eq_iff.1 he a
  have hc := nodup_iff_count_le_one.1 h a
  have hc' := nodup_iff_count_le_one.1 h' a
  omega

end

/-! ### Permutations -/

section

variable {α β γ δ : Type}

variable {l : List α}

/-- Lists whose images under `f` agree up to order have images under `g` that do, if the image
under `f` determines the one under `g`. -/
theorem Perm.map_of_map {f : α → β} {f' : γ → β} {g : α → δ} {g' : γ → δ} {l' : List γ}
    (h : (l.map f).Perm (l'.map f')) (hg : ∀ a ∈ l, ∀ c ∈ l', f a = f' c → g a = g' c) :
    (l.map g).Perm (l'.map g') := by
  obtain ⟨u, hu, hp⟩ := perm_comp_forall₂ (r := fun b c => b = f' c) (v := l') h (by simp)
  obtain ⟨hl, hz⟩ := forall₂_iff_zip.1 (forall₂_map_left_iff.1 hu)
  have hm : l.map g = u.map g' := by
    rw [← forall₂_eq_eq_eq, forall₂_map_left_iff, forall₂_map_right_iff, forall₂_iff_zip]
    refine ⟨hl, fun {a c} hac => ?_⟩
    obtain ⟨ha, hc⟩ := of_mem_zip hac
    exact hg a ha c (hp.subset hc) (hz hac)
  exact hm ▸ hp.map g'

theorem mapM_option_iff {f : α → Option β} {r : List β} :
    l.mapM f = some r ↔ Forall₂ (f · = some ·) l r := by
  induction l generalizing r with
  | nil => cases r <;> simp
  | cons a l ih => cases r <;> simp [Option.bind_eq_some_iff, ih]

theorem Perm.mapM_option {f : α → Option β} {l' : List α} (h : l.Perm l') {r : List β}
    (hr : l.mapM f = some r) : ∃ r', l'.mapM f = some r' ∧ r.Perm r' := by
  obtain ⟨r', hr', hp⟩ := perm_comp_forall₂ h.symm (mapM_option_iff.1 hr)
  exact ⟨r', mapM_option_iff.2 hr', hp.symm⟩

end

/-! ### Groups -/

section

variable {κ γ μ : Type} [DecidableEq κ] [AddCommMonoid μ] {merge : γ → γ → γ} {σ : γ → μ}

theorem sum_of_mem_mergeAll (hσ : ∀ g g', σ (merge g g') = σ g + σ g') {l : List (κ × γ)} {k : κ}
    {g : γ} (h : (k, g) ∈ mergeAll merge l) : σ g = ((l.valuesOf k).map σ).sum := by
  have hf (gs : List γ) (g₀ : γ) : σ (gs.foldl merge g₀) = σ g₀ + (gs.map σ).sum := by
    induction gs generalizing g₀ with
    | nil => simp
    | cons g₁ gs ih => rw [foldl_cons, ih, hσ, map_cons, sum_cons, add_assoc]
  obtain ⟨g₀, gs, hv, rfl⟩ := mem_mergeAll.1 h
  rw [hf, hv, map_cons, sum_cons]

omit [AddCommMonoid μ] in
theorem valuesOf_map (k : κ) (l : List (κ × γ)) :
    (l.valuesOf k).map σ = (l.map (Prod.map id σ)).valuesOf k := by
  simp [valuesOf, filter_map, Function.comp_def]

/-- Two lists with the same keyed measures, in any order, have groups with the same keys and
measures. -/
theorem exists_mem_mergeAll_of_perm (hσ : ∀ g g', σ (merge g g') = σ g + σ g')
    {l l' : List (κ × γ)} (h : (l.map (Prod.map id σ)).Perm (l'.map (Prod.map id σ))) {k : κ}
    {g : γ} (hg : (k, g) ∈ mergeAll merge l) : ∃ g', (k, g') ∈ mergeAll merge l' ∧ σ g' = σ g := by
  have hv : ((l.valuesOf k).map σ).Perm ((l'.valuesOf k).map σ) := by
    rw [valuesOf_map, valuesOf_map]
    exact (h.filter _).map _
  obtain ⟨g₁, gs₁, hgs, -⟩ := mem_mergeAll.1 hg
  cases hv' : l'.valuesOf k with
  | nil => simp [hv', hgs] at hv
  | cons g₀ gs =>
    have hg' : (k, gs.foldl merge g₀) ∈ mergeAll merge l' := mem_mergeAll.2 ⟨g₀, gs, hv', rfl⟩
    exact ⟨_, hg', by rw [sum_of_mem_mergeAll hσ hg', sum_of_mem_mergeAll hσ hg, hv.sum_eq]⟩

end

end List
