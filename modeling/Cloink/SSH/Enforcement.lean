import Cloink.Lib.History
import Cloink.SSH.Authorizer

/-!
# SSH authorization is enforced as computed

The indexes of the message number the distinct users in the order in which they are met, modulo
`2 ^ 32`. Up to `2 ^ 32` users the numbers tell the users apart and the accepted users are those of
the map the message was built from; beyond, a user can be taken for another one.
-/

namespace Cloink.SSH

open AList List UInt32 Authorizer

/-- The users of the map, each of them once. -/
def usersOf (authorizedUsers : StrMap (List String)) : List String :=
  insertAll [] (authorizedUsers.entries.flatMap (·.2))

/-- The index that stands for a user. -/
def number (ids : List String) (u : String) : UInt32 := ofNat (ids.idxOf u)

theorem number_insertAll {ids users : List String} {u : String} (hu : u ∈ ids) :
    number (ids.insertAll users) u = number ids u := by
  rw [number, number, idxOf_insertAll hu]

/-- The hash never fails on the users of the set, and no two of them share one. -/
structure HashFaithful (hashUserID : String → Option UserIDHash) (S : Set String) : Prop where
  total : ∀ u ∈ S, ∃ hash, hashUserID u = some hash
  injOn : ∀ u ∈ S, ∀ v ∈ S, hashUserID u = hashUserID v → u = v

section

variable {hashUserID : String → Option UserIDHash} {S : Set String}

/-- The table numbers the users `ids`, whose hashes are `hashes`. -/
structure Numbers (hashUserID : String → Option UserIDHash) (table : UserTable)
    (ids : List String) (hashes : List UserIDHash) : Prop where
  lookup : ∀ u, table.userIDToIndex.lookup u = if u ∈ ids then some (number ids u) else none
  hashed : table.hashedUsers = hashes.map (·.1)
  hashes_eq : ids.map hashUserID = hashes.map some

theorem numbers_empty : Numbers hashUserID {} [] [] where
  lookup u := by simp
  hashed := rfl
  hashes_eq := rfl

variable {table : UserTable} {ids : List String} {hashes : List UserIDHash}

variable (h : Numbers hashUserID table ids hashes)

include h

theorem Numbers.length_eq : table.hashedUsers.length = ids.length := by
  have hl := congrArg length h.hashes_eq
  rw [length_map, length_map] at hl
  rw [h.hashed, length_map, hl]

theorem Numbers.addUser {u : String} {ha : UserIDHash}
    (hu : hashUserID u = some ha) (idx : List UInt32) :
    ∃ ha', Numbers hashUserID (SSH.addUser hashUserID (table, idx) u).1 (ids.insertAll [u]) ha' ∧
      (SSH.addUser hashUserID (table, idx) u).2 = idx ++ [number (ids.insertAll [u]) u] := by
  unfold SSH.addUser
  by_cases hm : u ∈ ids
  · have hi : ids.insertAll [u] = ids := by simp [insertAll_cons, hm]
    rw [hi]
    simp only [h.lookup u, if_pos hm]
    exact ⟨hashes, h, trivial⟩
  · have hi : ids.insertAll [u] = ids ++ [u] := by simp [insertAll_cons, hm]
    have hn : number (ids ++ [u]) u = ofNat table.hashedUsers.length := by
      rw [number, idxOf_append_of_notMem hm, idxOf_cons_self, h.length_eq]
      rfl
    rw [hi]
    simp only [h.lookup u, if_neg hm, hu]
    refine ⟨hashes ++ [ha], ⟨fun v => ?_, ?_, ?_⟩, by rw [hn]⟩
    · by_cases hv : v = u
      · subst hv
        simp [hn]
      · rw [lookup_insert_ne hv, h.lookup v]
        by_cases hvm : v ∈ ids
        · simp [hvm, number, idxOf_append_of_mem]
        · simp [hvm, hv]
    · simp [h.hashed]
    · simp [h.hashes_eq, hu]

theorem Numbers.foldl_addUser {users : List String}
    (hus : ∀ u ∈ users, ∃ ha, hashUserID u = some ha) (idx : List UInt32) :
    ∃ ha', Numbers hashUserID (users.foldl (SSH.addUser hashUserID) (table, idx)).1
        (ids.insertAll users) ha' ∧
      (users.foldl (SSH.addUser hashUserID) (table, idx)).2 =
        idx ++ users.map (number (ids.insertAll users)) := by
  induction users generalizing table ids hashes idx with
  | nil => exact ⟨hashes, h, by simp⟩
  | cons u users ih =>
    obtain ⟨ha, hu⟩ := hus u mem_cons_self
    obtain ⟨ha₁, h₁, hi₁⟩ := h.addUser hu idx
    obtain ⟨ha₂, h₂, hi₂⟩ := ih h₁ (fun v hv => hus v (mem_cons_of_mem u hv))
      (SSH.addUser hashUserID (table, idx) u).2
    have hi : ids.insertAll (u :: users) = (ids.insertAll [u]).insertAll users := by
      rw [← insertAll_append, singleton_append]
    have hu' : u ∈ ids.insertAll [u] := mem_insertAll.2 (.inr mem_cons_self)
    rw [foldl_cons, map_cons]
    refine ⟨ha₂, hi ▸ h₂, hi₂.trans ?_⟩
    rw [hi₁, ← number_insertAll hu', ← hi, append_assoc, singleton_append]

/-- All OS users: the indexes listed for each of them are the numbers of its users. -/
theorem Numbers.foldl_addMachineUser
    {entries : List ((_ : String) × List String)} (hnd : entries.NodupKeys)
    (he : ∀ e ∈ entries, ∀ u ∈ e.2, ∃ ha, hashUserID u = some ha)
    (machineUsers : StrMap (List UInt32)) : ∃ ha', Numbers hashUserID
        (entries.foldl (addMachineUser hashUserID) (table, machineUsers)).1
        (ids.insertAll (entries.flatMap (·.2))) ha' ∧
      ∀ o, (entries.foldl (addMachineUser hashUserID) (table, machineUsers)).2.lookup o =
        ((entries.dlookup o).map (map (number (ids.insertAll (entries.flatMap (·.2)))))).or
          (machineUsers.lookup o) := by
  induction entries generalizing table ids hashes machineUsers with
  | nil => exact ⟨hashes, h, fun o => by simp⟩
  | cons e entries ih =>
    obtain ⟨ha₁, h₁, hi₁⟩ := h.foldl_addUser (he e mem_cons_self) []
    obtain ⟨hk, hn'⟩ := nodupKeys_cons.1 hnd
    obtain ⟨ha₂, h₂, hl⟩ := ih h₁ hn' (fun e' he' => he e' (mem_cons_of_mem e he'))
      (machineUsers.insert e.1 (e.2.foldl (SSH.addUser hashUserID) (table, [])).2)
    have hi : ids.insertAll ((e :: entries).flatMap (·.2)) =
        (ids.insertAll e.2).insertAll (entries.flatMap (·.2)) := by
      rw [flatMap_cons, insertAll_append]
    refine ⟨ha₂, hi ▸ h₂, fun o => ?_⟩
    rw [foldl_cons]
    refine (hl o).trans ?_
    rw [← hi]
    by_cases ho : o = e.1
    · subst ho
      have hnn : entries.dlookup e.1 = none := dlookup_eq_none.2 hk
      have hn : e.2.map (number (ids.insertAll e.2)) =
          e.2.map (number (ids.insertAll ((e :: entries).flatMap (·.2)))) := by
        refine map_congr_left fun u hu => ?_
        rw [hi, number_insertAll (mem_insertAll.2 (.inr hu))]
      have hh : (e :: entries).dlookup e.1 = some e.2 := dlookup_cons_eq entries e.1 e.2
      rw [hnn, lookup_insert, hi₁, nil_append, hn, hh]
      rfl
    · rw [lookup_insert_ne ho, dlookup_cons_ne _ e ho]

omit h

/-- The message for a map: the hashes of its users, and for each OS user their numbers. -/
theorem buildAuthorizedUsersProto_spec {authorizedUsers : StrMap (List String)}
    (ht : ∀ e ∈ authorizedUsers.entries, ∀ u ∈ e.2, ∃ ha, hashUserID u = some ha) :
    ∃ hashes : List UserIDHash,
      (buildAuthorizedUsersProto hashUserID authorizedUsers).1 = hashes.map (·.1) ∧
      (usersOf authorizedUsers).map hashUserID = hashes.map some ∧
      ∀ o, (buildAuthorizedUsersProto hashUserID authorizedUsers).2.setAt o =
        (authorizedUsers.setAt o).map (number (usersOf authorizedUsers)) := by
  obtain ⟨hashes, h, hl⟩ := numbers_empty.foldl_addMachineUser authorizedUsers.nodupKeys ht ∅
  refine ⟨hashes, h.hashed, h.hashes_eq, fun o => ?_⟩
  rw [setAt, setAt]
  refine (congrArg (Option.getD · []) (hl o)).trans ?_
  rw [lookup_empty, Option.or_none, AList.lookup]
  cases authorizedUsers.entries.dlookup o <;> rfl

end

/-! ### Looking a user up -/

section

variable {hashUserID : String → Option UserIDHash} {S : Set String}

theorem findIdx_hash (hS : HashFaithful hashUserID S) {ids : List String}
    {hashes : List UserIDHash} (hh : ids.map hashUserID = hashes.map some)
    (hi : ∀ v ∈ ids, v ∈ S) {u : String} (hu : u ∈ S) {ha : UserIDHash}
    (hhs : hashUserID u = some ha) :
    hashes.findIdx? (· = ha) = if u ∈ ids then some (ids.idxOf u) else none := by
  induction ids generalizing hashes with
  | nil =>
    obtain rfl : hashes = [] := by simpa using hh
    rfl
  | cons v ids ih =>
    obtain ⟨has', hashes, rfl⟩ : ∃ has' ha', hashes = has' :: ha' := by
      cases hashes with
      | nil => simp at hh
      | cons has' ha' => exact ⟨has', ha', rfl⟩
    rw [map_cons, map_cons, cons.injEq] at hh
    obtain ⟨hv, hr⟩ := hh
    have hm := ih hr fun w hw => hi w (mem_cons_of_mem v hw)
    rw [findIdx?_cons, hm]
    by_cases he : v = u
    · obtain rfl : has' = ha := Option.some.inj (hv.symm.trans (he ▸ hhs))
      simp [he]
    · have hne : has' ≠ ha := fun h =>
        he (hS.injOn v (hi v mem_cons_self) u hu (hv.trans (h ▸ hhs.symm)))
      by_cases hu' : u ∈ ids
      · simp [hne, hu', Ne.symm he, idxOf_cons_ne ids he]
      · simp [hne, hu', Ne.symm he]

theorem isIndexInList_iff {index : UInt32} {idx : List UInt32} :
    isIndexInList index idx ↔ index ∈ idx := by
  simp [isIndexInList]

theorem checkMachineUserMapping_iff (a : Authorizer) (uid os : String) (i : Nat) :
    (∃ msg, a.checkMachineUserMapping uid os i = .ok msg) ↔
      ofNat i ∈ a.machineUsers.setAt wildcard ∨ ofNat i ∈ a.machineUsers.setAt os := by
  have hwl : (a.machineUsers.lookup wildcard).any (isIndexInList (ofNat i)) ↔
      ofNat i ∈ a.machineUsers.setAt wildcard := by
    unfold setAt
    cases a.machineUsers.lookup wildcard with
    | none => simp
    | some idx => exact isIndexInList_iff
  unfold checkMachineUserMapping
  dsimp only
  by_cases hw : ofNat i ∈ a.machineUsers.setAt wildcard
  · simp [if_pos (hwl.2 hw), hw]
  · rw [if_neg (mt hwl.1 hw)]
    simp only [hw, false_or]
    cases ho : a.machineUsers.lookup os with
    | none => simp [setAt, ho]
    | some idx =>
      rw [setAt_of_lookup ho]
      by_cases hm : ofNat i ∈ idx
      · simp [if_pos (isIndexInList_iff.2 hm), hm]
      · simp [if_neg (mt isIndexInList_iff.1 hm), hm]

theorem authorize_iff_index (a : Authorizer) {u o : String} (hne : u ≠ "") {ha : UserIDHash}
    (hh : hashUserID u = some ha) : (∃ msg, a.authorize hashUserID u o = .ok msg) ↔
      ∃ i, a.findUserIndex ha = some i ∧
        (ofNat i ∈ a.machineUsers.setAt wildcard ∨ ofNat i ∈ a.machineUsers.setAt o) := by
  unfold Authorizer.authorize
  rw [if_neg hne, hh]
  cases hf : a.findUserIndex ha with
  | none => simp [hf]
  | some i => simp [hf, checkMachineUserMapping_iff]

theorem mapM_toUserIDHash (hashes : List UserIDHash) :
    (hashes.map (·.1)).mapM toUserIDHash = some hashes := by
  induction hashes with
  | nil => rfl
  | cons ha hashes ih =>
    have hh : toUserIDHash ha.1 = some ha := by simp [toUserIDHash, ha.2]
    rw [map_cons, mapM_cons, hh, ih]
    rfl

end

/-! ### Deliveries -/

section

variable (hashUserID : String → Option UserIDHash)

/-- What the server of the client does with the message for a map of accepted users. -/
def deliver (userIDClaim : String) (sshServer : Option Authorizer)
    (authorizedUsers : StrMap (List String)) : Option Authorizer :=
  updateSSHServerAuth sshServer (some (sshAuthFor hashUserID userIDClaim authorizedUsers))

def Accepts (sshServer : Option Authorizer) (u o : String) : Prop :=
  ∃ authorizer msg, sshServer = some authorizer ∧ authorizer.authorize hashUserID u o = .ok msg

variable {hashUserID} {S : Set String}

variable {authorizedUsers : StrMap (List String)}

theorem exists_deliver (auth : Authorizer) {claim : String} :
    ∃ a, deliver hashUserID claim (some auth) authorizedUsers = some a := by
  unfold deliver updateSSHServerAuth
  simp only
  split
  · exact ⟨_, rfl⟩
  · exact ⟨_, rfl⟩

/-- A user is accepted when its number is that of a user of the wildcard or of the OS user. -/
theorem accepts_iff_number (hS : HashFaithful hashUserID S) {claim : String}
    (hm : ∀ e ∈ authorizedUsers.entries, ∀ v ∈ e.2, v ∈ S) (auth : Authorizer) {u o : String}
    (hu : u ∈ S) (hne : u ≠ "") :
    Accepts hashUserID (deliver hashUserID claim (some auth) authorizedUsers) u o ↔
      u ∈ usersOf authorizedUsers ∧ ∃ v ∈ authorizedUsers.setAt wildcard ++ authorizedUsers.setAt o,
          number (usersOf authorizedUsers) v = number (usersOf authorizedUsers) u := by
  obtain ⟨hashes, hhs, hhh, hn⟩ := buildAuthorizedUsersProto_spec
    fun e he v hv => hS.total v (hm e he v hv)
  obtain ⟨has, hh⟩ := hS.total u hu
  have hi : ∀ v ∈ usersOf authorizedUsers, v ∈ S := by
    intro v hv
    obtain ⟨e, he, hv⟩ := mem_flatMap.1 ((mem_insertAll.1 hv).resolve_left not_mem_nil)
    exact hm e he v hv
  let config : Config :=
    { userIDClaim := claim
      authorizedUsers := hashes
      machineUsers := (buildAuthorizedUsersProto hashUserID authorizedUsers).2 }
  have hsr : deliver hashUserID claim (some auth) authorizedUsers =
      some (auth.update (some config)) := by
    simp only [deliver, sshAuthFor, updateSSHServerAuth, hhs, mapM_toUserIDHash, config]
  have hs (o : String) : (auth.update (some config)).machineUsers.setAt o =
      (authorizedUsers.setAt o).map (number (usersOf authorizedUsers)) :=
    (setAt_select_nonempty _ o).trans (hn o)
  have hf : (auth.update (some config)).findUserIndex has =
      if u ∈ usersOf authorizedUsers then some ((usersOf authorizedUsers).idxOf u) else none :=
    findIdx_hash hS hhh hi hu hh
  have ha : Accepts hashUserID (some (auth.update (some config))) u o ↔
      ∃ msg, (auth.update (some config)).authorize hashUserID u o = .ok msg := by
    simp [Accepts]
  rw [hsr, ha, authorize_iff_index _ hne hh, hf, hs, hs]
  by_cases hmm : u ∈ usersOf authorizedUsers
  · simp [hmm, number, or_and_right, exists_or]
  · simp [hmm]

theorem mem_usersOf {o v : String} (hv : v ∈ authorizedUsers.setAt o) :
    v ∈ usersOf authorizedUsers := by
  unfold setAt at hv
  cases hl : authorizedUsers.lookup o with
  | none => simp [hl] at hv
  | some users =>
    rw [hl] at hv
    exact mem_insertAll.2 (.inr (mem_flatMap.2 ⟨_, mem_lookup_iff.1 hl, hv⟩))

theorem number_inj {ids : List String} (hl : ids.length ≤ 2 ^ 32) {u v : String} (hu : u ∈ ids)
    (hv : v ∈ ids) (h : number ids v = number ids u) : v = u := by
  have hu' := idxOf_lt_length_of_mem hu
  have hv' := idxOf_lt_length_of_mem hv
  have hm : ids.idxOf v % 2 ^ 32 = ids.idxOf u % 2 ^ 32 := by
    simpa [number] using congrArg toNat h
  rw [Nat.mod_eq_of_lt (by omega), Nat.mod_eq_of_lt (by omega)] at hm
  exact (idxOf_inj hv).1 hm

end

/-- After any deliveries, a running server accepts a user for an OS user exactly when the last
map has it among the users of the wildcard or of the OS user, as long as the map has no more than
`2 ^ 32` users. -/
theorem accepts_iff (hashUserID : String → Option UserIDHash) (S : Set String)
    (hS : HashFaithful hashUserID S) (claim : String) (earlier : List (StrMap (List String)))
    (authorizedUsers : StrMap (List String)) (hm : ∀ e ∈ authorizedUsers.entries, ∀ v ∈ e.2, v ∈ S)
    (hlen : (usersOf authorizedUsers).length ≤ 2 ^ 32) (authorizer : Authorizer) (u o : String)
    (hu : u ∈ S) (hne : u ≠ "") : Accepts hashUserID
        ((earlier ++ [authorizedUsers]).foldl (deliver hashUserID claim) (some authorizer)) u o ↔
      u ∈ authorizedUsers.setAt wildcard ∨ u ∈ authorizedUsers.setAt o := by
  -- the server keeps running, with some authorizer
  obtain ⟨auth', hr⟩ : ∃ a, earlier.foldl (deliver hashUserID claim) (some authorizer) = some a :=
    foldlRecOn (motive := fun sshServer => ∃ a, sshServer = some a) earlier _ ⟨authorizer, rfl⟩
      fun _ ⟨a, ha⟩ _ _ => ha ▸ exists_deliver a
  rw [foldl_append, hr, foldl_cons, foldl_nil, accepts_iff_number hS hm auth' hu hne, ← mem_append]
  constructor
  · rintro ⟨hmm, v, hv, hn⟩
    have hv' : v ∈ usersOf authorizedUsers :=
      (mem_append.1 hv).elim mem_usersOf mem_usersOf
    rwa [number_inj hlen hmm hv' hn] at hv
  · intro hmm
    exact ⟨(mem_append.1 hmm).elim mem_usersOf mem_usersOf, u, hmm, rfl⟩

/-! ### More users than indexes -/

/-- The user with a given number. -/
def userNamed (n : Nat) : String := String.ofList (replicate (n + 1) 'u')

/-- A hash that tells the users apart: the length of the id as 16 bytes. -/
def lengthHash (userID : String) : Option UserIDHash :=
  some ⟨(range 16).map fun i => UInt8.ofNat (userID.length / 256 ^ i), by simp⟩

/-- The first user is accepted for `alice`, the `n` users after it for `bob`. -/
def crowd (n : Nat) : StrMap (List String) :=
  (insert "bob" ((range n).map fun i => userNamed (i + 1)) ∅).insert "alice" [userNamed 0]

theorem userNamed_injective : Function.Injective userNamed := by
  intro m n h
  have hl := congrArg String.length h
  simpa [userNamed] using hl

theorem userNamed_ne_empty (n : Nat) : userNamed n ≠ "" := by
  intro h
  have hl := congrArg String.length h
  simp [userNamed] at hl

theorem hashFaithful_lengthHash (n : Nat) (hn : n < 256 ^ 5) :
    HashFaithful lengthHash {u | ∃ i ≤ n, u = userNamed i} where
  total u _ := ⟨_, rfl⟩
  injOn := by
    rintro _ ⟨i, hi, rfl⟩ _ ⟨j, hj, rfl⟩ h
    have hby : ∀ k < 16, UInt8.ofNat ((i + 1) / 256 ^ k) = UInt8.ofNat ((j + 1) / 256 ^ k) := by
      simpa [lengthHash, userNamed] using h
    have hb (k : Nat) (hk : k < 16) : (i + 1) / 256 ^ k % 256 = (j + 1) / 256 ^ k % 256 := by
      simpa using congrArg UInt8.toNat (hby k hk)
    have h0 := hb 0 (by omega)
    have h1 := hb 1 (by omega)
    have h2 := hb 2 (by omega)
    have h3 := hb 3 (by omega)
    have h4 := hb 4 (by omega)
    have h5 := hb 5 (by omega)
    have hij : i = j := by omega
    rw [hij]

theorem usersOf_crowd (n : Nat) : usersOf (crowd n) = (range (n + 1)).map userNamed := by
  have he : (crowd n).entries.flatMap (·.2) = (range (n + 1)).map userNamed := by
    rw [range_succ_eq_map]
    simp [crowd, AList.insert, kerase]
  rw [usersOf, he, insertAll_of_nodup, nil_append]
  rw [nil_append]
  exact nodup_range.map userNamed_injective

variable {n : Nat}

theorem exists_of_mem_usersOf_crowd {v : String} (hv : v ∈ usersOf (crowd n)) :
    ∃ i ≤ n, v = userNamed i := by
  rw [usersOf_crowd] at hv
  obtain ⟨i, hi, rfl⟩ := mem_map.1 hv
  exact ⟨i, Nat.lt_succ_iff.1 (mem_range.1 hi), rfl⟩

theorem users_of_crowd (n : Nat) :
    ∀ e ∈ (crowd n).entries, ∀ v ∈ e.2, v ∈ {u | ∃ i ≤ n, u = userNamed i} := fun e he _ hv =>
  exists_of_mem_usersOf_crowd (mem_insertAll.2 (.inr (mem_flatMap.2 ⟨e, he, hv⟩)))

theorem number_crowd {k : Nat} (hk : k ≤ n) :
    number (usersOf (crowd n)) (userNamed k) = ofNat k := by
  have hn : ((range (n + 1)).map userNamed).Nodup :=
    nodup_range.map userNamed_injective
  have hlt : k < ((range (n + 1)).map userNamed).length := by simpa using by omega
  have hg : ((range (n + 1)).map userNamed)[k] = userNamed k := by simp
  rw [usersOf_crowd, number, ← hg, hn.idxOf_getElem]

theorem setAt_crowd (n : Nat) :
    (crowd n).setAt wildcard = [] ∧ (crowd n).setAt "alice" = [userNamed 0] := by
  constructor
  · rw [setAt, crowd, lookup_insert_ne (by decide), lookup_insert_ne (by decide), lookup_empty]
    rfl
  · rw [setAt, crowd, lookup_insert]
    rfl

/-- When the numbers wrap around at `n`, the last user of the crowd is taken for the first. -/
theorem accepts_crowd (hn : n < 256 ^ 5) (hw : ofNat n = 0) :
    Accepts lengthHash (deliver lengthHash "" (some {}) (crowd n)) (userNamed n) "alice" := by
  have hS := hashFaithful_lengthHash n hn
  refine (accepts_iff_number hS (users_of_crowd n) {} ⟨n, le_rfl, rfl⟩ (userNamed_ne_empty n)).2
    ⟨?_, userNamed 0, ?_, ?_⟩
  · rw [usersOf_crowd]
    exact mem_map.2 ⟨n, mem_range.2 (Nat.lt_succ_self n), rfl⟩
  · rw [(setAt_crowd n).2]
    exact mem_append_right _ mem_cons_self
  · rw [number_crowd (Nat.zero_le n), number_crowd le_rfl, hw]
    rfl

/-- With `2 ^ 32 + 1` users, the last one is accepted for an OS user that only the first one has
been accepted for. -/
theorem wrapped_index_accepts_other : HashFaithful lengthHash {u | ∃ i ≤ 2 ^ 32, u = userNamed i} ∧
      (∀ o, ∀ v ∈ (crowd (2 ^ 32)).setAt o, ∃ i ≤ 2 ^ 32, v = userNamed i) ∧
      Accepts lengthHash (deliver lengthHash "" (some {}) (crowd (2 ^ 32))) (userNamed (2 ^ 32))
        "alice" ∧
      userNamed (2 ^ 32) ∉ (crowd (2 ^ 32)).setAt wildcard ∧
      userNamed (2 ^ 32) ∉ (crowd (2 ^ 32)).setAt "alice" := by
  have hb : 2 ^ 32 < 256 ^ 5 := by norm_num
  refine ⟨hashFaithful_lengthHash _ hb,
    fun o v hv => exists_of_mem_usersOf_crowd (mem_usersOf hv), accepts_crowd hb (by decide),
    ?_, ?_⟩
  · rw [(setAt_crowd _).1]
    exact not_mem_nil
  · rw [(setAt_crowd _).2, mem_singleton]
    exact fun h => absurd (userNamed_injective h) (by norm_num)

theorem accepts_iff_crowd :
    Accepts lengthHash (([crowd 5] ++ [crowd 2]).foldl (deliver lengthHash "sub") (some {}))
        (userNamed 2) "bob" ↔
      userNamed 2 ∈ (crowd 2).setAt wildcard ∨ userNamed 2 ∈ (crowd 2).setAt "bob" := by
  refine accepts_iff lengthHash _ (hashFaithful_lengthHash 2 (by norm_num)) "sub" [crowd 5]
    (crowd 2) (users_of_crowd 2) ?_ {} (userNamed 2) "bob" ⟨2, le_rfl, rfl⟩ (userNamed_ne_empty 2)
  rw [usersOf_crowd, length_map, length_range]
  norm_num

end Cloink.SSH
