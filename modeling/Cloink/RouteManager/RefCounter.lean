import Cloink.Lib.FinMap
import Mathlib.Data.List.Count

/-!
# The reference counter

A counter that calls `add` for the first reference to a key and `remove` for the last one
(`client/internal/routemanager/refcounter/refcounter.go`). References may be grouped under an
identifier and are then released together. The callbacks act on an environment, which the
operations of the counter pass on.
-/

namespace Cloink.RouteManager

open List Function

/-- The references to a key, and what `add` returned for the first of them. -/
structure Ref (Out : Type) where
  count : ℕ
  out : Out
  deriving DecidableEq

/-- How the `add` callback can fail; `ignore` asks the counter not to count. -/
inductive AddError where
  | ignore
  | failed
  deriving DecidableEq

/-- The callbacks of a counter; `remove` says whether it failed. -/
structure Callbacks (Key In Out Env : Type) where
  add : Key → In → Env → Except AddError Out × Env
  remove : Key → Out → Env → Bool × Env

/-- Neither callback ever fails. -/
structure Callbacks.Succeed {Key In Out Env : Type} (cb : Callbacks Key In Out Env) : Prop where
  add : ∀ key inp env, ∃ out, (cb.add key inp env).1 = .ok out
  remove : ∀ key out env, (cb.remove key out env).1 = false

/-- `add` never asks the counter not to count. -/
def Callbacks.NeverIgnore {Key In Out Env : Type} (cb : Callbacks Key In Out Env) : Prop :=
  ∀ key inp env, (cb.add key inp env).1 ≠ .error .ignore

/-- The callbacks keep a table of keys: `add` enters a key, `remove` takes it out. -/
structure Callbacks.Maintain {Key In Out Env : Type} (cb : Callbacks Key In Out Env)
    (has : Env → Key → Prop) : Prop extends cb.Succeed where
  has_add : ∀ key inp env k, has (cb.add key inp env).2 k ↔ k = key ∨ has env k
  has_remove : ∀ key out env k, has (cb.remove key out env).2 k ↔ k ≠ key ∧ has env k

/-- The errors of a counter, with the key they name; `withID` marks those of a grouped call. -/
inductive RefError (Key : Type) where
  | addFailed (key : Key)
  | removeFailed (key : Key)
  | withID (err : RefError Key)

/-- A key is present while it has references. -/
structure Counter (Key Out : Type) [DecidableEq Key] where
  refCountMap : AList fun _ : Key => Ref Out
  idMap : StrMap (List Key)
  pos : ∀ key ref, refCountMap.lookup key = some ref → 0 < ref.count

namespace Counter

variable {Key In Out Env : Type} [DecidableEq Key]

instance : EmptyCollection (Counter Key Out) := ⟨⟨∅, ∅, by simp⟩⟩

def count (rm : Counter Key Out) (key : Key) : ℕ := (rm.refCountMap.lookup key).elim 0 Ref.count

/-- The keys of a group, once for each reference taken in it. -/
def keysOf (rm : Counter Key Out) (id : String) : List Key := rm.idMap.setAt id

def setRef (rm : Counter Key Out) (key : Key) (ref : Ref Out) (h : 0 < ref.count) :
    Counter Key Out where
  refCountMap := rm.refCountMap.insert key ref
  idMap := rm.idMap
  pos k r hk := by
    obtain ⟨-, rfl⟩ | ⟨-, hk⟩ := AList.lookup_insert_some.1 hk
    · exact h
    · exact rm.pos k r hk

def deleteRef (rm : Counter Key Out) (key : Key) : Counter Key Out where
  refCountMap := rm.refCountMap.erase key
  idMap := rm.idMap
  pos k r hk := by
    by_cases hkk : k = key
    · subst hkk
      simp at hk
    · rw [AList.lookup_erase_ne hkk] at hk
      exact rm.pos k r hk

variable (cb : Callbacks Key In Out Env)

section

variable [Inhabited Out]

/-- Adds a reference; the first one calls `add`. -/
def increment (rm : Counter Key Out) (env : Env) (key : Key) (inp : In) :
    Counter Key Out × Env × Ref Out × Option (RefError Key) :=
  let ref := (rm.refCountMap.lookup key).getD ⟨0, default⟩
  if ref.count = 0 then
    match cb.add key inp env with
    | (.error .ignore, env) => (rm, env, ref, none)
    | (.error .failed, env) => (rm, env, ref, some (.addFailed key))
    | (.ok out, env) =>
      (rm.setRef key ⟨ref.count + 1, out⟩ (Nat.succ_pos _), env, ⟨ref.count + 1, out⟩, none)
  else
    (rm.setRef key ⟨ref.count + 1, ref.out⟩ (Nat.succ_pos _), env, ⟨ref.count + 1, ref.out⟩, none)

/-- Adds a reference and groups it under an identifier. -/
def incrementWithID (rm : Counter Key Out) (env : Env) (id : String) (key : Key) (inp : In) :
    Counter Key Out × Env × Ref Out × Option (RefError Key) :=
  match rm.increment cb env key inp with
  | (rm, env, ref, some err) => (rm, env, ref, some (.withID err))
  | (rm, env, ref, none) =>
    ({ rm with idMap := rm.idMap.insert id (rm.keysOf id ++ [key]) }, env, ref, none)

/-- Removes a reference; the last one calls `remove`. -/
def decrement (rm : Counter Key Out) (env : Env) (key : Key) :
    Counter Key Out × Env × Ref Out × Option (RefError Key) :=
  match hl : rm.refCountMap.lookup key with
  | none => (rm, env, ⟨0, default⟩, none)
  | some ref =>
    if h : ref.count = 1 then
      match cb.remove key ref.out env with
      | (true, env) => (rm, env, ref, some (.removeFailed key))
      | (false, env) => (rm.deleteRef key, env, ref, none)
    else
      have hpos : 0 < ref.count - 1 := by
        have := rm.pos key ref hl
        omega
      (rm.setRef key ⟨ref.count - 1, ref.out⟩ hpos, env, ⟨ref.count - 1, ref.out⟩, none)

/-- Removes one reference for each key of a list, and collects the errors. -/
def decrementAll (rm : Counter Key Out) (env : Env) :
    List Key → Counter Key Out × Env × List (RefError Key)
  | [] => (rm, env, [])
  | key :: keys =>
    let (rm, env, _, err) := rm.decrement cb env key
    let (rm, env, errs) := rm.decrementAll env keys
    (rm, env, err.toList ++ errs)

/-- Releases all references of a group. -/
def decrementWithID (rm : Counter Key Out) (env : Env) (id : String) :
    Counter Key Out × Env × List (RefError Key) :=
  let (rm, env, errs) := rm.decrementAll cb env (rm.keysOf id)
  ({ rm with idMap := rm.idMap.erase id }, env, errs)

/-- Calls `remove` for every key, and collects the errors. -/
def removeAll (env : Env) : List (Sigma fun _ : Key => Ref Out) → Env × List (RefError Key)
  | [] => (env, [])
  | e :: l =>
    let (failed, env) := cb.remove e.1 e.2.out env
    let (env, errs) := removeAll env l
    (env, (if failed then [.removeFailed e.1] else []) ++ errs)

/-- Drops all references, also those of keys whose removal has failed. -/
def flush (rm : Counter Key Out) (env : Env) : Counter Key Out × Env × List (RefError Key) :=
  let (env, errs) := removeAll cb env rm.refCountMap.entries
  (∅, env, errs)

end

/-! ### What the operations can do -/

section

variable (rm : Counter Key Out)

theorem count_setRef (key k : Key) (ref : Ref Out) (h : 0 < ref.count) :
    (rm.setRef key ref h).count k = if k = key then ref.count else rm.count k := by
  by_cases hk : k = key
  · subst hk
    simp [count, setRef]
  · simp [count, setRef, AList.lookup_insert_ne hk, hk]

theorem count_deleteRef (key k : Key) :
    (rm.deleteRef key).count k = if k = key then 0 else rm.count k := by
  by_cases hk : k = key
  · subst hk
    simp [count, deleteRef]
  · simp [count, deleteRef, AList.lookup_erase_ne hk, hk]

/-- A key is in the map while it has references. -/
theorem count_pos_iff {k : Key} : 0 < rm.count k ↔ k ∈ rm.refCountMap := by
  rw [AList.mem_iff_lookup, count]
  cases hl : rm.refCountMap.lookup k with
  | none => simp
  | some ref => simpa using rm.pos k ref hl

/-- The first reference depends on `add`, a further one does not. -/
inductive Incremented (env : Env) (key : Key) (inp : In) :
    Counter Key Out × Env × Ref Out × Option (RefError Key) → Prop
  | ignored {env' ref} : rm.count key = 0 → cb.add key inp env = (.error .ignore, env') →
      Incremented env key inp (rm, env', ref, none)
  | failed {env' ref} : rm.count key = 0 → cb.add key inp env = (.error .failed, env') →
      Incremented env key inp (rm, env', ref, some (.addFailed key))
  | first {env' out h ref} : rm.count key = 0 → cb.add key inp env = (.ok out, env') →
      Incremented env key inp (rm.setRef key ⟨1, out⟩ h, env', ref, none)
  | again {ref h ref'} : 0 < rm.count key → ref.count = rm.count key + 1 →
      Incremented env key inp (rm.setRef key ref h, env, ref', none)

/-- The last reference depends on `remove`. -/
inductive Decremented (env : Env) (key : Key) :
    Counter Key Out × Env × Ref Out × Option (RefError Key) → Prop
  | absent {ref} : rm.count key = 0 → Decremented env key (rm, env, ref, none)
  | failed {out env' ref} : rm.count key = 1 → cb.remove key out env = (true, env') →
      Decremented env key (rm, env', ref, some (.removeFailed key))
  | last {out env' ref} : rm.count key = 1 → cb.remove key out env = (false, env') →
      Decremented env key (rm.deleteRef key, env', ref, none)
  | more {ref h ref'} : ref.count + 1 = rm.count key →
      Decremented env key (rm.setRef key ref h, env, ref', none)

end

/-! ### Counts -/

section

variable {cb} {rm : Counter Key Out} {env : Env} {key : Key} {inp : In}
  {r : Counter Key Out × Env × Ref Out × Option (RefError Key)}

theorem Incremented.idMap (h : rm.Incremented cb env key inp r) : r.1.idMap = rm.idMap := by
  cases h <;> rfl

theorem Decremented.idMap (h : rm.Decremented cb env key r) : r.1.idMap = rm.idMap := by
  cases h <;> rfl

/-- A successful increment adds one reference. -/
theorem Incremented.count (hcb : cb.NeverIgnore) (h : rm.Incremented cb env key inp r) (k : Key) :
    r.1.count k = rm.count k + if k = key ∧ r.2.2.2 = none then 1 else 0 := by
  cases h with
  | ignored _ ha => exact absurd (congrArg Prod.fst ha) (hcb key inp env)
  | failed => simp
  | first hz | again _ hz =>
    rw [count_setRef]
    split_ifs <;> simp_all

/-- A successful decrement takes one away. -/
theorem Decremented.count (h : rm.Decremented cb env key r) (k : Key) :
    r.1.count k = rm.count k - if k = key ∧ r.2.2.2 = none then 1 else 0 := by
  cases h with
  | absent hz => split_ifs <;> simp_all
  | failed => simp
  | last ho =>
    rw [count_deleteRef]
    split_ifs <;> simp_all
  | more hm =>
    rw [count_setRef]
    split_ifs <;> simp_all
    omega

theorem Incremented.of_succeed (hcb : cb.Succeed) (h : rm.Incremented cb env key inp r) :
    r.2.2.2 = none ∧ ∀ k, r.1.count k = rm.count k + if k = key then 1 else 0 := by
  have hok := hcb.add
  have hc := h.count fun key inp env => by
    obtain ⟨out, ho⟩ := hok key inp env
    simp [ho]
  cases h with
  | failed _ ha => simpa [ha] using hok key inp env
  | _ => exact ⟨rfl, fun k => by simpa using hc k⟩

theorem Decremented.of_succeed (hcb : cb.Succeed) (h : rm.Decremented cb env key r) :
    r.2.2.2 = none ∧ ∀ k, r.1.count k = rm.count k - if k = key then 1 else 0 := by
  have hc := h.count
  cases h with
  | @failed out _ _ _ hr => simpa [hr] using hcb.remove key out env
  | _ => simpa using hc

variable [Inhabited Out] (cb) (rm) (env)

/-- `increment` does one of the four things. -/
theorem incremented (env : Env) (key : Key) (inp : In) :
    rm.Incremented cb env key inp (rm.increment cb env key inp) := by
  have hc : ((rm.refCountMap.lookup key).getD ⟨0, default⟩).count = rm.count key := by
    unfold count
    cases rm.refCountMap.lookup key <;> rfl
  unfold increment
  simp only [hc]
  split
  next hz =>
    simp only [hz]
    split
    next ha => exact .ignored hz ha
    next ha => exact .failed hz ha
    next ha => exact .first hz ha
  next hp => exact .again (Nat.pos_of_ne_zero hp) rfl

/-- `decrement` does one of the four things. -/
theorem decremented (env : Env) (key : Key) :
    rm.Decremented cb env key (rm.decrement cb env key) := by
  unfold decrement
  split
  next hl => exact .absent (by simp [count, hl])
  next ref hl =>
    have hc : rm.count key = ref.count := by simp [count, hl]
    split
    next ho =>
      split
      next hr => exact .failed (hc.trans ho) hr
      next hr => exact .last (hc.trans ho) hr
    next =>
      have hp := rm.pos key ref hl
      exact .more (by simp only [hc]; omega)

section

variable {cb} (hcb : cb.Succeed)

include hcb

theorem count_decrementAll (keys : List Key) (k : Key) :
    (rm.decrementAll cb env keys).1.count k = rm.count k - keys.count k := by
  induction keys generalizing rm env with
  | nil => rfl
  | cons key keys ih =>
    have hs := (rm.decremented cb env key).of_succeed hcb |>.2 k
    simp only [decrementAll, ih, hs, count_cons, beq_iff_eq, eq_comm (a := key)]
    split <;> omega

/-- A group gives back one reference for each time it has a key. -/
theorem count_decrementWithID (id : String) (k : Key) :
    (rm.decrementWithID cb env id).1.count k = rm.count k - (rm.keysOf id).count k :=
  count_decrementAll rm env hcb (rm.keysOf id) k

theorem incrementWithID_eq (id : String) (key : Key) (inp : In) :
    rm.incrementWithID cb env id key inp =
      ({ (rm.increment cb env key inp).1 with idMap := rm.idMap.insert id (rm.keysOf id ++ [key]) },
        (rm.increment cb env key inp).2.1, (rm.increment cb env key inp).2.2.1, none) := by
  have hid := (rm.incremented cb env key inp).idMap
  have he := ((rm.incremented cb env key inp).of_succeed hcb).1
  unfold incrementWithID
  split <;> rename_i heq <;> rw [heq] at he hid
  · cases he
  · simp only [keysOf, heq]
    simp only at hid
    rw [hid]

theorem count_incrementWithID (id : String) (key k : Key) (inp : In) :
    (rm.incrementWithID cb env id key inp).1.count k = rm.count k + if k = key then 1 else 0 := by
  rw [incrementWithID_eq _ _ hcb]
  exact ((rm.incremented cb env key inp).of_succeed hcb).2 k

/-! ### Groups -/

theorem keysOf_incrementWithID (id i : String) (key : Key) (inp : In) :
    (rm.incrementWithID cb env id key inp).1.keysOf i =
      if i = id then rm.keysOf id ++ [key] else rm.keysOf i := by
  rw [incrementWithID_eq _ _ hcb]
  exact AList.setAt_insert _ _ _ _

end

theorem decrementAll_idMap (keys : List Key) :
    (rm.decrementAll cb env keys).1.idMap = rm.idMap := by
  induction keys generalizing rm env with
  | nil => rfl
  | cons key keys ih => exact (ih _ _).trans (rm.decremented cb env key).idMap

theorem keysOf_decrementWithID (id i : String) :
    (rm.decrementWithID cb env id).1.keysOf i = if i = id then [] else rm.keysOf i := by
  have hid := decrementAll_idMap cb rm env (rm.keysOf id)
  simp only [decrementWithID, keysOf, AList.setAt] at hid ⊢
  rw [hid]
  by_cases hi : i = id
  · subst hi
    simp
  · rw [AList.lookup_erase_ne hi, if_neg hi]

end

/-! ### The table of the callbacks -/

section

variable {cb} {has : Env → Key → Prop} [Inhabited Out] {rm : Counter Key Out} {env : Env}

/-- The keys of the table are those with references. -/
def InStep (has : Env → Key → Prop) (rm : Counter Key Out) (env : Env) : Prop :=
  ∀ k, has env k ↔ 0 < rm.count k

omit [Inhabited Out] in
theorem inStep_empty (he : ∀ k, ¬has env k) : InStep has (∅ : Counter Key Out) env :=
  fun k => iff_of_false (he k) (Nat.lt_irrefl 0)

variable (hcb : cb.Maintain has)

include hcb

variable (h : InStep has rm env)

include h

/-- The table stays in step with the counter. -/
theorem InStep.increment (key : Key) (inp : In) :
    InStep has (rm.increment cb env key inp).1 (rm.increment cb env key inp).2.1 := by
  have hi := rm.incremented cb env key inp
  intro k
  rw [(hi.of_succeed hcb.toSucceed).2 k]
  generalize rm.increment cb env key inp = r at hi
  have hk := h k
  cases hi with
  | ignored _ ha | failed _ ha =>
    obtain ⟨out, ho⟩ := hcb.add key inp env
    rw [ha] at ho
    cases ho
  | first _ ha =>
    have hh := hcb.has_add key inp env k
    rw [ha] at hh
    rw [hh, hk]
    split_ifs with hkk <;> simp [hkk]
  | again hp =>
    rw [hk]
    split_ifs with hkk
    · subst hkk
      omega
    · rfl

theorem InStep.decrement (key : Key) :
    InStep has (rm.decrement cb env key).1 (rm.decrement cb env key).2.1 := by
  have hd := rm.decremented cb env key
  intro k
  rw [(hd.of_succeed hcb.toSucceed).2 k]
  generalize rm.decrement cb env key = r at hd
  have hk := h k
  cases hd with
  | absent hz =>
    rw [hk]
    split_ifs with hkk <;> simp [hkk, hz]
  | @failed out _ _ _ hr =>
    have hok := hcb.remove key out env
    rw [hr] at hok
    cases hok
  | @last out _ _ ho hr =>
    have hh := hcb.has_remove key out env k
    rw [hr] at hh
    rw [hh, hk]
    split_ifs with hkk <;> simp [hkk, ho]
  | @more ref hp _ hm =>
    rw [hk]
    split_ifs with hkk
    · subst hkk
      omega
    · rfl

theorem InStep.decrementAll (keys : List Key) :
    InStep has (rm.decrementAll cb env keys).1 (rm.decrementAll cb env keys).2.1 := by
  induction keys generalizing rm env with
  | nil => exact h
  | cons key keys ih => exact ih (h.decrement hcb key)

theorem InStep.decrementWithID (id : String) :
    InStep has (rm.decrementWithID cb env id).1 (rm.decrementWithID cb env id).2.1 :=
  h.decrementAll hcb (rm.keysOf id)

theorem InStep.incrementWithID (id : String) (key : Key) (inp : In) :
    InStep has (rm.incrementWithID cb env id key inp).1
      (rm.incrementWithID cb env id key inp).2.1 := by
  rw [incrementWithID_eq _ _ hcb.toSucceed]
  exact h.increment hcb key inp

end

end Counter

/-! ### Callbacks that fail -/

section

variable {Key In Out Env : Type} [DecidableEq Key] {cb : Callbacks Key In Out Env}

/-- The callbacks, with the successful adds less the successful removes of each key. -/
def Callbacks.audited (cb : Callbacks Key In Out Env) : Callbacks Key In Out (Env × (Key → ℤ)) where
  add key inp env :=
    let (r, env') := cb.add key inp env.1
    (r, env', if r.isOk then update env.2 key (env.2 key + 1) else env.2)
  remove key out env :=
    let (failed, env') := cb.remove key out env.1
    (failed, env', if failed then env.2 else update env.2 key (env.2 key - 1))

theorem Callbacks.NeverIgnore.audited (h : cb.NeverIgnore) : cb.audited.NeverIgnore :=
  fun key inp env => h key inp env.1

theorem Callbacks.installs_add {key : Key} {inp : In} {r : Except AddError Out}
    {env env' : Env × (Key → ℤ)} (h : cb.audited.add key inp env = (r, env')) :
    env'.2 = if r.isOk then update env.2 key (env.2 key + 1) else env.2 := by
  cases h
  rfl

theorem Callbacks.installs_remove {key : Key} {out : Out} {failed : Bool}
    {env env' : Env × (Key → ℤ)} (h : cb.audited.remove key out env = (failed, env')) :
    env'.2 = if failed then env.2 else update env.2 key (env.2 key - 1) := by
  cases h
  rfl

namespace Counter

/-- The keys with references are installed, once. -/
def Installed (rm : Counter Key Out) (installs : Key → ℤ) : Prop :=
  ∀ k, installs k = if 0 < rm.count k then 1 else 0

variable {rm : Counter Key Out} {env : Env × (Key → ℤ)} {key : Key} {inp : In}
  {r : Counter Key Out × (Env × (Key → ℤ)) × Ref Out × Option (RefError Key)}

/-- `add` is called for the first reference only. -/
theorem Incremented.installed (hcb : cb.NeverIgnore)
    (h : rm.Incremented cb.audited env key inp r) (hrm : rm.Installed env.2) :
    r.1.Installed r.2.1.2 := by
  have hc := h.count hcb.audited
  intro k
  have hk := hc k
  cases h with
  | ignored _ ha => exact absurd (congrArg Prod.fst ha) (hcb.audited key inp env)
  | failed _ ha => simpa [Callbacks.installs_add ha, Except.isOk, Except.toBool] using hrm k
  | first hz ha =>
    have hky := hrm key
    by_cases heq : k = key <;>
      simp_all [Callbacks.installs_add ha, Except.isOk, Except.toBool, hrm k]
  | again hp =>
    rw [hrm k, hk]
    split_ifs <;> simp_all

/-- `remove` is called for the last reference only. -/
theorem Decremented.installed (h : rm.Decremented cb.audited env key r) (hrm : rm.Installed env.2) :
    r.1.Installed r.2.1.2 := by
  have hc := h.count
  intro k
  have hk := hc k
  cases h with
  | absent => exact hrm k
  | failed _ hr => simpa [Callbacks.installs_remove hr] using hrm k
  | last ho hr =>
    have hky := hrm key
    by_cases heq : k = key <;> simp_all [Callbacks.installs_remove hr, hrm k]
  | @more ref hp _ hm =>
    rw [hrm k, hk]
    split_ifs <;> simp_all
    omega

theorem installs_removeAll {l : List (Sigma fun _ : Key => Ref Out)}
    (hok : (removeAll cb.audited env l).2 = []) (k : Key) :
    (removeAll cb.audited env l).1.2 k = env.2 k - l.keys.count k := by
  induction l generalizing env with
  | nil => simp [removeAll]
  | cons e l ih =>
    obtain ⟨hf, hr⟩ := append_eq_nil_iff.1 hok
    refine (ih hr).trans ?_
    by_cases hk : k = e.1
    · subst hk
      simp_all [keys]
      omega
    · simp_all [keys, Ne.symm hk]

variable [Inhabited Out]

/-- The states of a counter whose `remove` does not fail when a group is released or all keys are
flushed; `refs` has the successful increments less the successful decrements of a key. -/
inductive Run (cb : Callbacks Key In Out Env) : Counter Key Out → Env × (Key → ℤ) → (Key → ℕ) → Prop
  | new (env : Env) : Run cb ∅ (env, fun _ => 0) fun _ => 0
  | increment {rm env refs rm' env' ref err} (key : Key) (inp : In) : Run cb rm env refs →
      rm.increment cb.audited env key inp = (rm', env', ref, err) →
      Run cb rm' env' fun k => refs k + if k = key ∧ err = none then 1 else 0
  | incrementWithID {rm env refs rm' env' ref err} (id : String) (key : Key) (inp : In) :
      Run cb rm env refs → rm.incrementWithID cb.audited env id key inp = (rm', env', ref, err) →
      Run cb rm' env' fun k => refs k + if k = key ∧ err = none then 1 else 0
  | decrement {rm env refs rm' env' ref err} (key : Key) : Run cb rm env refs →
      rm.decrement cb.audited env key = (rm', env', ref, err) →
      Run cb rm' env' fun k => refs k - if k = key ∧ err = none then 1 else 0
  | decrementWithID {rm env refs rm' env'} (id : String) : Run cb rm env refs →
      rm.decrementWithID cb.audited env id = (rm', env', []) →
      Run cb rm' env' fun k => refs k - (rm.keysOf id).count k
  | flush {rm env refs rm' env'} : Run cb rm env refs →
      rm.flush cb.audited env = (rm', env', []) → Run cb rm' env' fun _ => 0

/-- The release of a group, by induction over its keys. -/
theorem installed_decrementAll {l : List Key} (hrm : rm.Installed env.2)
    (hok : (rm.decrementAll cb.audited env l).2.2 = []) : let out := rm.decrementAll cb.audited env l
    out.1.Installed out.2.1.2 ∧ ∀ k, out.1.count k = rm.count k - l.count k := by
  induction l generalizing rm env with
  | nil => exact ⟨hrm, fun _ => rfl⟩
  | cons key l ih =>
    obtain ⟨hf, hr⟩ := append_eq_nil_iff.1 hok
    have hd := rm.decremented cb.audited env key
    have hn : (rm.decrement cb.audited env key).2.2.2 = none := Option.toList_eq_nil_iff.1 hf
    obtain ⟨hi, hc⟩ := ih (hd.installed hrm) hr
    refine ⟨hi, fun k => ?_⟩
    have hk := hd.count k
    simp only [hn, and_true] at hk
    simp only [decrementAll, hc, hk, count_cons, beq_iff_eq, eq_comm (a := key)]
    split_ifs <;> omega

/-- A key is installed while it has references, and as many as were taken and not given back. -/
theorem installed_of_run (cb : Callbacks Key In Out Env) (hcb : cb.NeverIgnore) {rm : Counter Key Out}
    {env : Env × (Key → ℤ)} {refs : Key → ℕ} (h : Run cb rm env refs) :
    rm.Installed env.2 ∧ ∀ k, rm.count k = refs k := by
  induction h with
  | new => exact ⟨fun k => rfl, fun _ => rfl⟩
  | @increment rm env refs rm' env' ref err key inp _ heq ih =>
    have hi := rm.incremented cb.audited env key inp
    rw [heq] at hi
    exact ⟨hi.installed hcb ih.1, fun k => by simpa [← ih.2] using hi.count hcb.audited k⟩
  | @incrementWithID rm env refs rm' env' ref err id key inp _ heq ih =>
    have hi := rm.incremented cb.audited env key inp
    unfold Counter.incrementWithID at heq
    split at heq <;> rename_i hrs <;> cases heq <;> rw [hrs] at hi <;>
      exact ⟨hi.installed hcb ih.1, fun k => (hi.count hcb.audited k).trans (by simp [ih.2])⟩
  | @decrement rm env refs rm' env' ref err key _ heq ih =>
    have hd := rm.decremented cb.audited env key
    rw [heq] at hd
    exact ⟨hd.installed ih.1, fun k => by simpa [← ih.2] using hd.count k⟩
  | @decrementWithID rm env refs rm' env' id _ heq ih =>
    have ha := installed_decrementAll (l := rm.keysOf id) ih.1 (congrArg (·.2.2) heq)
    obtain ⟨rfl, hr⟩ := Prod.mk.inj heq
    obtain ⟨rfl, -⟩ := Prod.mk.inj hr
    exact ⟨ha.1, fun k => (ha.2 k).trans (by rw [ih.2])⟩
  | @flush rm env refs rm' env' _ heq ih =>
    have hok : (removeAll cb.audited env rm.refCountMap.entries).2 = [] := congrArg (·.2.2) heq
    obtain ⟨rfl, hr⟩ := Prod.mk.inj heq
    obtain ⟨rfl, -⟩ := Prod.mk.inj hr
    refine ⟨fun k => (installs_removeAll hok k).trans ?_, fun k => rfl⟩
    have hc : rm.refCountMap.entries.keys.count k = if 0 < rm.count k then 1 else 0 := by
      simp only [rm.count_pos_iff, AList.mem_keys]
      exact rm.refCountMap.keys_nodup.count
    rw [ih.1 k, hc, if_neg (show ¬0 < (∅ : Counter Key Out).count k from Nat.lt_irrefl 0)]
    split_ifs <;> rfl

/-- Callbacks that always succeed, and such that never remove. -/
def sampleCallbacks (stuck : Bool) : Callbacks ℕ Unit Unit Unit where
  add _ _ env := (.ok (), env)
  remove _ _ env := (stuck, env)

/-- A key with a reference of its own stays when its group is released, and the other key of the
group does not. -/
theorem installed_of_run_increment :
    let cb := (sampleCallbacks false).audited
    let r := (∅ : Counter ℕ Unit).incrementWithID cb ((), fun _ => 0) "id" 1 ()
    let r := r.1.increment cb r.2.1 1 ()
    let r := r.1.incrementWithID cb r.2.1 "id" 2 ()
    let r := r.1.decrementWithID cb r.2.1 "id"
    r.1.Installed r.2.1.2 ∧ r.1.count 1 = 1 ∧ r.1.count 2 = 0 := by
  obtain ⟨hi, hc⟩ := installed_of_run (sampleCallbacks false) (fun _ _ _ => by
    simp [sampleCallbacks]) (.decrementWithID "id" (.incrementWithID "id" 2 () (.increment 1 ()
      (.incrementWithID "id" 1 () (.new ()) rfl) rfl) rfl) rfl)
  exact ⟨hi, (hc 1).trans rfl, (hc 2).trans rfl⟩

/-- A group is forgotten when the removal of its key fails, so a second attempt does nothing. -/
theorem release_not_repeated :
    let cb := (sampleCallbacks true).audited
    let r := (∅ : Counter ℕ Unit).incrementWithID cb ((), fun _ => 0) "id" 1 ()
    let failed := r.1.decrementWithID cb r.2.1 "id"
    let retried := failed.1.decrementWithID (sampleCallbacks false).audited failed.2.1 "id"
    failed.2.2.length = 1 ∧ retried.2.2.length = 0 ∧ retried.2.1.2 1 = 1 ∧ retried.1.count 1 = 1 := by
  decide +kernel

end Counter

end

end Cloink.RouteManager
