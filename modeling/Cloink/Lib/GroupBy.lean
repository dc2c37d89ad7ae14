import Mathlib.Data.List.Basic
import Mathlib.Data.List.Induction

/-!
# Merging values by key

A list of keyed values is merged into one value for each key: the first value of a key opens a
group behind those that are there, and every later one is merged into it.
-/

namespace List

variable {κ γ : Type} [DecidableEq κ] (merge : γ → γ → γ)

/-- Merges a value into the group of its key, or opens a group behind the others. -/
def mergeInto (k : κ) (g : γ) : List (κ × γ) → List (κ × γ)
  | [] => [(k, g)]
  | (k', g') :: rest =>
    if k' = k then (k', merge g' g) :: rest else (k', g') :: mergeInto k g rest

/-- The groups of a list of keyed values, in the order in which the keys come up. -/
def mergeAll (l : List (κ × γ)) : List (κ × γ) :=
  l.foldl (fun groups p => mergeInto merge p.1 p.2 groups) []

/-- The values of a key, in order. -/
def valuesOf (k : κ) (l : List (κ × γ)) : List γ := (l.filter (·.1 = k)).map (·.2)

/-- The first of some values with the others merged into it. -/
def merged : List γ → Option γ
  | [] => none
  | g :: gs => some (gs.foldl merge g)

/-- The merged values of a key. -/
def mergedValue (k : κ) (l : List (κ × γ)) : Option γ := merged merge (l.valuesOf k)

variable {merge}

theorem merged_append (l : List γ) (g : γ) :
    merged merge (l ++ [g]) = some ((merged merge l).elim g (merge · g)) := by
  cases l with
  | nil => rfl
  | cons g' l => simp [merged, foldl_append]

theorem valuesOf_append (k : κ) (l : List (κ × γ)) (p : κ × γ) :
    (l ++ [p]).valuesOf k = if p.1 = k then l.valuesOf k ++ [p.2] else l.valuesOf k := by
  by_cases h : p.1 = k <;> simp [valuesOf, filter_append, h]

theorem lookup_cons_ite (k k₁ : κ) (g₁ : γ) (l : List (κ × γ)) :
    ((k₁, g₁) :: l).lookup k = if k = k₁ then some g₁ else l.lookup k := by
  rw [lookup_cons]
  by_cases h : k = k₁
  · rw [if_pos h, beq_iff_eq.2 h]
  · rw [if_neg h, beq_false_of_ne h]

/-- Merging one value changes its key only. -/
theorem lookup_mergeInto (k k' : κ) (g : γ) (l : List (κ × γ)) : (mergeInto merge k g l).lookup k' =
      if k' = k then some ((l.lookup k).elim g (merge · g)) else l.lookup k' := by
  induction l with
  | nil => simp [mergeInto, lookup_cons_ite]
  | cons p l ih =>
    obtain ⟨k₁, g₁⟩ := p
    by_cases h₁ : k₁ = k
    · subst h₁
      by_cases h : k' = k₁ <;> simp [mergeInto, lookup_cons_ite, h]
    · have h₁' : ¬k = k₁ := fun he => h₁ he.symm
      simp only [mergeInto, if_neg h₁, lookup_cons_ite, ih, if_neg h₁']
      by_cases h : k' = k
      · rw [if_neg (fun he => h₁' (h ▸ he)), if_pos h, if_pos h]
      · rw [if_neg h, if_neg h]

theorem keys_mergeInto (k : κ) (g : γ) (l : List (κ × γ)) : (mergeInto merge k g l).map (·.1) =
      if k ∈ l.map (·.1) then l.map (·.1) else l.map (·.1) ++ [k] := by
  induction l with
  | nil => simp [mergeInto]
  | cons p l ih =>
    obtain ⟨k₁, g₁⟩ := p
    by_cases h₁ : k₁ = k
    · simp [mergeInto, h₁]
    · have h₁' : ¬k = k₁ := fun he => h₁ he.symm
      simp only [mergeInto, if_neg h₁, map_cons, ih, mem_cons, h₁', false_or]
      split <;> rfl

/-- Every key has one group. -/
theorem nodup_keys_mergeAll (l : List (κ × γ)) : ((mergeAll merge l).map (·.1)).Nodup := by
  induction l using List.reverseRecOn with
  | nil => simp [mergeAll]
  | append_singleton l p ih =>
    simp only [mergeAll, foldl_append, foldl_cons, foldl_nil]
    rw [keys_mergeInto]
    split
    · exact ih
    · rename_i hn
      exact nodup_append.2 ⟨ih, by simp, fun k hk k' hk' he =>
        hn (by rwa [← mem_singleton.1 hk', ← he])⟩

/-- The group of a key is the merge of its values, in order. -/
theorem lookup_mergeAll (k : κ) (l : List (κ × γ)) :
    (mergeAll merge l).lookup k = mergedValue merge k l := by
  induction l using List.reverseRecOn generalizing k with
  | nil => rfl
  | append_singleton l p ih =>
    simp only [mergeAll, foldl_append, foldl_cons, foldl_nil] at ih ⊢
    rw [lookup_mergeInto, ih, ih, mergedValue, mergedValue, mergedValue, valuesOf_append]
    by_cases h : k = p.1
    · rw [if_pos h, if_pos h.symm, merged_append, h]
    · rw [if_neg h, if_neg fun he => h he.symm]

variable {g : γ} {k : κ} {l : List (κ × γ)}

theorem mem_iff_lookup_of_nodup (h : (l.map (·.1)).Nodup) : (k, g) ∈ l ↔ l.lookup k = some g := by
  induction l with
  | nil => simp
  | cons p l ih =>
    obtain ⟨k₁, g₁⟩ := p
    obtain ⟨hnt, hn⟩ := nodup_cons.1 h
    rw [mem_cons, ih hn, lookup_cons_ite]
    by_cases hk : k = k₁
    · subst hk
      have hnn : l.lookup k ≠ some g := fun hl =>
        hnt (mem_map.2 ⟨(k, g), (ih hn).2 hl, rfl⟩)
      simp [hnn, eq_comm]
    · simp [hk]

/-- The groups are the merges of the values of a key. -/
theorem mem_mergeAll : (k, g) ∈ mergeAll merge l ↔
    ∃ g₀ gs, l.valuesOf k = g₀ :: gs ∧ gs.foldl merge g₀ = g := by
  rw [mem_iff_lookup_of_nodup (nodup_keys_mergeAll l), lookup_mergeAll, mergedValue]
  cases l.valuesOf k <;> simp [merged]

theorem exists_mem_of_mem_mergeAll {δ : Type} {f : γ → δ} (hf : ∀ g g', f (merge g g') = f g)
    (h : (k, g) ∈ mergeAll merge l) : ∃ p ∈ l, p.1 = k ∧ f p.2 = f g := by
  have hfl (gs : List γ) (g₀ : γ) : f (gs.foldl merge g₀) = f g₀ := by
    induction gs generalizing g₀ with
    | nil => rfl
    | cons g₁ gs ih => rw [foldl_cons, ih, hf]
  obtain ⟨g₀, gs, hv, rfl⟩ := mem_mergeAll.1 h
  have hm : g₀ ∈ l.valuesOf k := hv ▸ mem_cons_self
  obtain ⟨p, hp, rfl⟩ := mem_map.1 hm
  obtain ⟨hp, hk⟩ := mem_filter.1 hp
  exact ⟨p, hp, of_decide_eq_true hk, (hfl gs p.2).symm⟩

end List
