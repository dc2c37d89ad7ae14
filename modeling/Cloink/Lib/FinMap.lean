import Mathlib.Data.List.AList

/-!
# Finite maps and sets with an iteration order

A map of the source language is an association list without repeated keys (`AList`), and a loop over
the map runs through its entries in their order. A set is a list without repetitions.
-/

abbrev StrMap (α : Type) := AList fun _ : String => α

namespace AList

open List Option

variable {α : Type} {β γ : Type}

/-- Decides by the entries. The instance that is there for all such lists does not reduce. -/
instance decidableEq [DecidableEq α] [DecidableEq β] : DecidableEq (AList fun _ : α => β) :=
  fun _ _ => decidable_of_iff _ AList.ext_iff.symm

/-! ### Selecting keys and changing values -/

/-- The entries whose key satisfies `p`. -/
def restrict (m : AList fun _ : α => β) (p : α → Bool) : AList fun _ : α => β :=
  ⟨m.entries.filter fun e => p e.1, m.nodupKeys.sublist filter_sublist⟩

/-- The entries that satisfy `p`. -/
def select (m : AList fun _ : α => β) (p : α → β → Bool) : AList fun _ : α => β :=
  ⟨m.entries.filter fun e => p e.1 e.2, m.nodupKeys.sublist filter_sublist⟩

/-- The same keys with the value `b` of `a` replaced by `f a b`. -/
def mapVals (f : α → β → γ) (m : AList fun _ : α => β) : AList fun _ : α => γ :=
  ⟨m.entries.map fun e => ⟨e.1, f e.1 e.2⟩, List.NodupKeys.map₂ f m.entries m.nodupKeys⟩

variable (f : α → β → Option γ)

theorem sublist_keys_filterMap (l : List (Sigma fun _ : α => β)) :
    List.Sublist (l.filterMap fun e => (f e.1 e.2).map (Sigma.mk (β := fun _ => γ) e.1)).keys
      l.keys := by
  induction l with
  | nil => simp
  | cons e l ih =>
    rw [filterMap_cons]
    cases h : f e.1 e.2 with
    | none => exact ih.cons _
    | some c => simpa [h] using ih

/-- The keys for which `f` has a value, with that value. -/
def filterMapVals (m : AList fun _ : α => β) : AList fun _ : α => γ :=
  ⟨m.entries.filterMap fun e => (f e.1 e.2).map (Sigma.mk e.1),
    List.Nodup.sublist (sublist_keys_filterMap f m.entries) m.nodupKeys⟩

variable {a : α} {m src : AList fun _ : α => β} {b : β}

variable [DecidableEq α]

theorem mem_iff_lookup : a ∈ m ↔ ∃ b, m.lookup a = some b := by
  rw [← lookup_isSome, isSome_iff_exists]

theorem mem_of_lookup (h : m.lookup a = some b) : a ∈ m :=
  mem_iff_lookup.2 ⟨b, h⟩

/-- What holds of the entries holds of every lookup. -/
theorem forall_of_entries {P : α → β → Prop} (h : ∀ e ∈ m.entries, P e.1 e.2) (a : α) (b : β)
    (hl : m.lookup a = some b) : P a b :=
  h ⟨a, b⟩ (mem_lookup_iff.1 hl)

/-- A selection has the entries that pass. -/
theorem lookup_select_some {p : α → β → Bool} :
    (m.select p).lookup a = some b ↔ m.lookup a = some b ∧ p a b := by
  rw [← mem_def, mem_lookup_iff, ← mem_def, mem_lookup_iff]
  exact mem_filter

@[simp] theorem lookup_restrict (m : AList fun _ : α => β) (p : α → Bool) (a : α) :
    (m.restrict p).lookup a = if p a then m.lookup a else none := by
  ext b
  refine (lookup_select_some (p := fun a _ => p a)).trans ?_
  split <;> simp [*]

@[simp] theorem mem_restrict {p : α → Bool} : a ∈ m.restrict p ↔ a ∈ m ∧ p a := by
  rw [mem_iff_lookup, mem_iff_lookup, lookup_restrict]
  split <;> simp_all

/-- An insertion changes one key. -/
theorem lookup_insert_ite (m : AList fun _ : α => β) (a : α) (b : β) (k : α) :
    (m.insert a b).lookup k = if k = a then some b else m.lookup k := by
  split
  · rename_i h
    rw [h, lookup_insert]
  · exact lookup_insert_ne ‹_›

theorem lookup_erase_ite (m : AList fun _ : α => β) (a k : α) :
    (m.erase a).lookup k = if k = a then none else m.lookup k := by
  split
  · rename_i h
    rw [h, lookup_erase]
  · exact lookup_erase_ne ‹_›

theorem lookup_insert_some {k : α} {v : β} :
    (m.insert a b).lookup k = some v ↔ (k = a ∧ b = v) ∨ (k ≠ a ∧ m.lookup k = some v) := by
  rw [lookup_insert_ite]
  split <;> simp [*]

/-- A value under another key survives an insertion. -/
theorem lookup_insert_of_lookup {k : α} {v : β} (ha : m.lookup a ≠ some v)
    (hk : m.lookup k = some v) : (m.insert a b).lookup k = some v :=
  lookup_insert_some.2 (.inr ⟨fun he => ha (he ▸ hk), hk⟩)

theorem lookup_erase_some {k : α} :
    (m.erase k).lookup a = some b ↔ a ≠ k ∧ m.lookup a = some b := by
  rw [lookup_erase_ite]
  split <;> simp [*]

/-- Values are changed or dropped key by key. -/
theorem lookup_filterMapVals (m : AList fun _ : α => β) (a : α) :
    (m.filterMapVals f).lookup a = (m.lookup a).bind (f a) := by
  ext c
  rw [← mem_def, mem_lookup_iff, bind_eq_some_iff]
  simp only [filterMapVals, mem_filterMap, map_eq_some_iff]
  constructor
  · rintro ⟨⟨a', b⟩, hm, c', hc, heq⟩
    cases heq
    exact ⟨b, mem_lookup_iff.2 hm, hc⟩
  · rintro ⟨b, hb, hc⟩
    exact ⟨⟨a, b⟩, mem_lookup_iff.1 hb, c, hc, rfl⟩

theorem mem_filterMapVals {f : α → β → Option γ} :
    a ∈ m.filterMapVals f ↔ ∃ b c, ⟨a, b⟩ ∈ m.entries ∧ f a b = some c := by
  simp only [mem_iff_lookup, lookup_filterMapVals, bind_eq_some_iff, ← mem_lookup_iff, mem_def]
  exact exists_comm

/-- A loop that stores every element under its own key leaves the other keys alone. -/
theorem lookup_foldl_insert_key_of_not_mem {ι : Type} (key : ι → α) (val : ι → β) {l : List ι}
    (ha : a ∉ l.map key) (m : AList fun _ : α => β) :
    (l.foldl (fun m i => m.insert (key i) (val i)) m).lookup a = m.lookup a := by
  induction l generalizing m with
  | nil => rfl
  | cons j l ih =>
    rw [map_cons, mem_cons, not_or] at ha
    rw [foldl_cons, ih ha.2, lookup_insert_ne ha.1]

/-- Values inserted under distinct keys are all found. -/
theorem lookup_foldl_insert_key {ι : Type} (key : ι → α) (val : ι → β) {l : List ι}
    (hl : (l.map key).Nodup) (m : AList fun _ : α => β) {i : ι} (hi : i ∈ l) :
    (l.foldl (fun m i => m.insert (key i) (val i)) m).lookup (key i) = some (val i) := by
  induction l generalizing m with
  | nil => cases hi
  | cons j l ih =>
    rw [map_cons, nodup_cons] at hl
    rw [foldl_cons]
    rcases mem_cons.1 hi with rfl | hi
    · rw [lookup_foldl_insert_key_of_not_mem key val hl.1, lookup_insert]
    · exact ih hl.2 _ hi

/-- Values that depend on the key only are found in any order of insertion. -/
theorem lookup_foldl_insert (f : α → β) (l : List α) (m : AList fun _ : α => β) (k : α) :
    (l.foldl (fun m a => m.insert a (f a)) m).lookup k =
      if k ∈ l then some (f k) else m.lookup k := by
  induction l generalizing m with
  | nil => simp
  | cons a l ih =>
    rw [foldl_cons, ih, lookup_insert_ite]
    by_cases hl : k ∈ l <;> by_cases ha : k = a <;> simp [hl, ha]

@[simp] theorem lookup_mapVals (f : α → β → γ) (m : AList fun _ : α => β) (a : α) :
    (m.mapVals f).lookup a = (m.lookup a).map (f a) :=
  dlookup_map₂ a

/-! ### New keys -/

/-- The entries that `f` makes of those of `m`, inserted one after the other; those it gives
nothing for are left out. -/
def remap {α' : Type} [DecidableEq α'] (f : α → β → Option (α' × γ)) (m : AList fun _ : α => β) :
    AList fun _ : α' => γ :=
  m.entries.foldl (fun out e => (f e.1 e.2).elim out fun kv => out.insert kv.1 kv.2) ∅

/-! ### Copying entries from another map -/

/-- Every entry of `m` is an entry of `src`. -/
def Sub (m src : AList fun _ : α => β) : Prop :=
  ∀ a b, m.lookup a = some b → src.lookup a = some b

theorem Sub.empty (src : AList fun _ : α => β) : Sub ∅ src := by
  intro a b h
  simp at h

theorem Sub.mem (h : Sub m src) (ha : a ∈ m) : a ∈ src := by
  obtain ⟨b, hb⟩ := mem_iff_lookup.1 ha
  exact mem_of_lookup (h a b hb)

/-- A part of a map agrees with it on its keys. -/
theorem Sub.lookup_eq (h : Sub m src) (ha : a ∈ m) : m.lookup a = src.lookup a := by
  obtain ⟨b, hb⟩ := mem_iff_lookup.1 ha
  rw [hb, h a b hb]

theorem Sub.insert (h : Sub m src) (hb : src.lookup a = some b) : Sub (m.insert a b) src := by
  intro a' b' h'
  rcases lookup_insert_some.1 h' with ⟨rfl, rfl⟩ | ⟨-, h'⟩
  · exact hb
  · exact h a' b' h'

/-- Copies the entry of `src` under `a`, if there is one. -/
def insertOne (src : AList fun _ : α => β) (m : AList fun _ : α => β) (a : α) :
    AList fun _ : α => β :=
  match src.lookup a with
  | some b => m.insert a b
  | none => m

/-- Copies the entries of `src` under the keys `l`, in this order. -/
def insertFrom (src : AList fun _ : α => β) (m : AList fun _ : α => β) (l : List α) :
    AList fun _ : α => β :=
  l.foldl (insertOne src) m

theorem mem_insertOne {a' : α} : a' ∈ insertOne src m a ↔ a' ∈ m ∨ (a' = a ∧ a' ∈ src) := by
  unfold insertOne
  cases h : src.lookup a with
  | none =>
    have hn : a ∉ src := lookup_eq_none.1 h
    exact (or_iff_left fun ⟨e, hs⟩ => hn (e ▸ hs)).symm
  | some b =>
    have hs : a ∈ src := mem_of_lookup h
    rw [mem_insert, or_comm, and_iff_left_of_imp fun e => e ▸ hs]

theorem Sub.insertOne (h : Sub m src) (a : α) : Sub (insertOne src m a) src := by
  unfold AList.insertOne
  cases hb : src.lookup a with
  | none => exact h
  | some b => exact h.insert hb

/-- The keys copied are those that the source has. -/
@[simp] theorem mem_insertFrom {l : List α} :
    a ∈ insertFrom src m l ↔ a ∈ m ∨ (a ∈ l ∧ a ∈ src) := by
  induction l generalizing m with
  | nil => simp [insertFrom]
  | cons x l ih =>
    change a ∈ insertFrom src (insertOne src m x) l ↔ _
    rw [ih, mem_insertOne, mem_cons]
    tauto

theorem Sub.insertFrom (h : Sub m src) (l : List α) : Sub (insertFrom src m l) src := by
  induction l generalizing m with
  | nil => exact h
  | cons x l ih => exact ih (h.insertOne x)

theorem lookup_insertFrom_empty {l : List α} (ha : a ∈ l) :
    (insertFrom src ∅ l).lookup a = src.lookup a := by
  have hsb : Sub (insertFrom src ∅ l) src := (Sub.empty src).insertFrom l
  by_cases hs : a ∈ src
  · exact hsb.lookup_eq (mem_insertFrom.2 (.inr ⟨ha, hs⟩))
  · rw [lookup_eq_none.2 hs, lookup_eq_none.2 fun h => hs (hsb.mem h)]

/-! ### Maps of sets -/

/-- The set stored under `a`, empty when there is none. -/
def setAt (m : AList fun _ : α => List γ) (a : α) : List γ := (m.lookup a).getD []

/-- Adds `x` to the set stored under `a`. -/
def addTo [DecidableEq γ] (m : AList fun _ : α => List γ) (a : α) (x : γ) :
    AList fun _ : α => List γ :=
  m.insert a ((m.setAt a).insert x)

theorem setAt_of_lookup {m : AList fun _ : α => List γ} {l : List γ} (h : m.lookup a = some l) :
    m.setAt a = l := by
  simp [setAt, h]

theorem exists_lookup_of_setAt {m : AList fun _ : α => List γ} (h : m.setAt a ≠ []) :
    ∃ l, m.lookup a = some l ∧ l ≠ [] := by
  unfold setAt at h
  cases hl : m.lookup a with
  | none => simp [hl] at h
  | some l => exact ⟨l, rfl, by simpa [hl] using h⟩

/-- The set at a key after an insertion. -/
theorem setAt_insert (m : AList fun _ : α => List γ) (a b : α) (l : List γ) :
    (m.insert a l).setAt b = if b = a then l else m.setAt b := by
  rw [setAt, lookup_insert_ite]
  split <;> rfl

theorem setAt_select_nonempty (m : AList fun _ : α => List γ) (a : α) :
    (m.select fun _ l => !l.isEmpty).setAt a = m.setAt a := by
  unfold setAt
  cases hs : (m.select fun _ l => !l.isEmpty).lookup a with
  | some l => rw [(lookup_select_some.1 hs).1]
  | none =>
    cases hl : m.lookup a with
    | none => rfl
    | some l =>
      cases l with
      | nil => rfl
      | cons x l =>
        rw [lookup_select_some.2 ⟨hl, rfl⟩] at hs
        cases hs

@[simp] theorem mem_setAt_addTo [DecidableEq γ] {m : AList fun _ : α => List γ} {a' : α} {x y : γ} :
    y ∈ (m.addTo a x).setAt a' ↔ y ∈ m.setAt a' ∨ (a' = a ∧ y = x) := by
  rw [addTo, setAt_insert]
  split
  · rename_i h
    simp [h, or_comm]
  · simp [*]

/-- Each set of `m` is part of the one `m'` has under the same key. -/
def SetsLe (m m' : AList fun _ : α => List γ) : Prop := ∀ a, m.setAt a ⊆ m'.setAt a

theorem SetsLe.refl (m : AList fun _ : α => List γ) : SetsLe m m := fun _ => List.Subset.refl _

theorem SetsLe.trans {m m' m'' : AList fun _ : α => List γ} (h : SetsLe m m')
    (h' : SetsLe m' m'') : SetsLe m m'' := fun a => List.Subset.trans (h a) (h' a)

theorem setsLe_addTo [DecidableEq γ] (m : AList fun _ : α => List γ) (a : α) (x : γ) :
    SetsLe m (m.addTo a x) := by
  intro a' y hy
  exact mem_setAt_addTo.2 (.inl hy)

end AList

namespace List

variable {α : Type} [DecidableEq α]

/-- Adds the elements of `l` to the set `s`, behind the elements it has. -/
def insertAll (s l : List α) : List α :=
  l.foldl (fun s a => if a ∈ s then s else s ++ [a]) s

@[simp] theorem insertAll_nil (s : List α) : s.insertAll [] = s := rfl

theorem insertAll_cons (s l : List α) (a : α) :
    s.insertAll (a :: l) = (if a ∈ s then s else s ++ [a]).insertAll l := rfl

theorem insertAll_append (s l l' : List α) :
    s.insertAll (l ++ l') = (s.insertAll l).insertAll l' := by
  rw [insertAll, foldl_append]
  rfl

variable {l s : List α}

@[simp] theorem mem_insertAll {a : α} : a ∈ s.insertAll l ↔ a ∈ s ∨ a ∈ l := by
  induction l generalizing s with
  | nil => simp
  | cons x l ih =>
    rw [insertAll_cons, ih, mem_cons, ← or_assoc]
    split
    · rename_i hx
      rw [or_iff_left_of_imp fun he : a = x => he ▸ hx]
    · rw [mem_append, mem_singleton]

/-- Elements may be added in two steps. -/
theorem insertAll_insertAll (s l l' : List α) :
    s.insertAll (l.insertAll l') = (s.insertAll l).insertAll l' := by
  induction l' generalizing l with
  | nil => rfl
  | cons x l' ih =>
    rw [insertAll_cons, ih, insertAll_cons]
    by_cases hx : x ∈ l
    · simp [hx]
    · rw [if_neg hx, insertAll_append, insertAll_cons, insertAll_nil]

theorem prefix_insertAll (s l : List α) : s <+: s.insertAll l :=
  foldlRecOn l _ prefix_rfl fun t ht x _ => by
    split
    · exact ht
    · exact ht.trans (prefix_append t [x])

theorem idxOf_insertAll {a : α} (ha : a ∈ s) : (s.insertAll l).idxOf a = s.idxOf a := by
  obtain ⟨rest, hr⟩ := prefix_insertAll s l
  rw [← hr, idxOf_append_of_mem ha]

theorem Nodup.insertAll (hs : s.Nodup) (l : List α) : (s.insertAll l).Nodup :=
  foldlRecOn l _ hs fun t ht x _ => by
    split
    · exact ht
    · simpa using ht.concat ‹_›

/-- New elements are appended. -/
theorem insertAll_of_nodup (h : (s ++ l).Nodup) : s.insertAll l = s ++ l := by
  induction l generalizing s with
  | nil => rw [insertAll_nil, append_nil]
  | cons x l ih =>
    have hx : x ∉ s := fun hx => (nodup_append.1 h).2.2 x hx x mem_cons_self rfl
    rw [append_cons] at h ⊢
    rw [insertAll_cons, if_neg hx, ih h]

/-- Selecting elements before or after removing repetitions is the same. -/
theorem filter_insertAll (p : α → Bool) (s l : List α) :
    (s.insertAll l).filter p = (s.filter p).insertAll (l.filter p) := by
  induction l generalizing s with
  | nil => rfl
  | cons x l ih =>
    rw [insertAll_cons, ih]
    by_cases hp : p x
    · rw [filter_cons_of_pos hp, insertAll_cons]
      congr 1
      by_cases hx : x ∈ s <;> simp [hx, hp]
    · rw [filter_cons_of_neg hp]
      congr 1
      split
      · rfl
      · simp [hp]

end List
