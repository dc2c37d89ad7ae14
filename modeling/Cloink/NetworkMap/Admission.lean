import Cloink.NetworkMap.Slice

/-!
# Admission of peers on the sides of a rule

A peer is admitted on a side of a rule when it exists, is validated and fails none of the posture
checks. `getPeersFromGroups` finds the admitted peers while it records failed checks in a map that
is shared by all rules; here its result is described without that map: the members of the side
that are admitted, with one failed check recorded for each of the others.
-/

namespace Cloink

open AList List

/-! ### Members of groups -/

/-- The peers a side of a rule names: the one of its resource, else the members of its groups. -/
def sideIDs (groups : StrMap Group) (resource : Resource) (groupIDs : List String) : List String :=
  if resource.isPeer then [resource.id] else getUniquePeerIDsFromGroupsIDs groups groupIDs

/-- A peer that is a member of any group is a member of every group of all peers. The embedded peers
of a reverse proxy are in no group, not even in that one. -/
def AllHolds (groups : StrMap Group) (p : String) : Prop :=
  ∀ gid g, groups.lookup gid = some g → g.isGroupAll →
    ∀ gid' g', groups.lookup gid' = some g' → p ∈ g'.peers → p ∈ g.peers

/-- The peer is a member of a group of the list. -/
def InGroups (groups : StrMap Group) (groupIDs : List String) (p : String) : Prop :=
  ∃ gid ∈ groupIDs, ∃ g, groups.lookup gid = some g ∧ p ∈ g.peers

variable {groups : StrMap Group} {p : String}

theorem InGroups.cons_iff {gid : String} {rest : List String} : InGroups groups (gid :: rest) p ↔
      (∃ g, groups.lookup gid = some g ∧ p ∈ g.peers) ∨ InGroups groups rest p := by
  simp [InGroups]

private theorem inGroups_of_mem_uniquePeerIDs {gids : List String} {alone : Bool}
    {acc : List String} (hp : p ∈ uniquePeerIDs groups alone acc gids) :
    p ∈ acc ∨ InGroups groups gids p := by
  induction gids generalizing acc with
  | nil => exact .inl hp
  | cons gid rest ih =>
    rw [InGroups.cons_iff]
    unfold uniquePeerIDs at hp
    cases hg : groups.lookup gid with
    | none =>
      rw [hg] at hp
      exact (ih hp).imp_right .inr
    | some g =>
      simp only [hg] at hp
      split at hp
      · exact .inr (.inl ⟨g, rfl, hp⟩)
      · rcases ih hp with hp | hp
        · exact (mem_insertAll.1 hp).imp_right fun hp => .inl ⟨g, rfl, hp⟩
        · exact .inr (.inr hp)

private theorem mem_uniquePeerIDs (ha : AllHolds groups p) {gids acc : List String}
    (hin : ∃ gid g, groups.lookup gid = some g ∧ p ∈ g.peers)
    (hp : p ∈ acc ∨ InGroups groups gids p) : p ∈ uniquePeerIDs groups false acc gids := by
  obtain ⟨gid', g', hg', hp'⟩ := hin
  induction gids generalizing acc with
  | nil => simpa [uniquePeerIDs, InGroups] using hp
  | cons gid rest ih =>
    rw [InGroups.cons_iff] at hp
    unfold uniquePeerIDs
    cases hg : groups.lookup gid with
    | none => exact ih (by simpa [hg] using hp)
    | some g =>
      simp only [Bool.or_false]
      split
      · rename_i hi
        exact ha gid g hg hi gid' g' hg' hp'
      · refine ih ?_
        rw [mem_insertAll, or_assoc]
        simpa [hg] using hp

/-- Whatever the shortcuts, only members of the groups are found. -/
theorem inGroups_of_mem_uniquePeers {gids : List String}
    (hp : p ∈ getUniquePeerIDsFromGroupsIDs groups gids) : InGroups groups gids p :=
  (inGroups_of_mem_uniquePeerIDs hp).resolve_left (not_mem_nil)

/-- A peer that no group of all peers leaves out is found exactly when it is in some group. -/
theorem mem_uniquePeers {gids : List String} (ha : AllHolds groups p) :
    p ∈ getUniquePeerIDsFromGroupsIDs groups gids ↔ InGroups groups gids p := by
  refine ⟨inGroups_of_mem_uniquePeers, fun hp => ?_⟩
  unfold getUniquePeerIDsFromGroupsIDs
  by_cases hl : gids.length = 1
  · obtain ⟨gid, rfl⟩ := length_eq_one_iff.1 hl
    obtain ⟨_, hgd, g, hg, hp⟩ := hp
    rw [mem_singleton.1 hgd] at hg
    simpa [uniquePeerIDs, hg] using hp
  · obtain ⟨gid, -, g, hg, hm⟩ := id hp
    rw [decide_eq_false hl]
    exact mem_uniquePeerIDs ha ⟨gid, g, hg, hm⟩ (.inr hp)

namespace NetworkMapData

variable (nmd : NetworkMapData) (env : Env)

/-! ### Admission -/

/-- The peer exists and the check rejects it. -/
def FailsCheck (checkID p : String) : Prop :=
  ∃ peer, nmd.peers.lookup p = some peer ∧ nmd.postureCheckPasses env checkID p peer = false

/-- The peer exists, is validated and fails none of the checks. -/
def Admits (checks : List String) (p : String) : Prop :=
  p ∈ nmd.peers ∧ nmd.isValidated p ∧ ∀ id ∈ checks, ¬nmd.FailsCheck env id p

/-- The empty string is not the id of a check that can fail: it stands for the absence of a
failed check. -/
def NoEmptyCheck : Prop := ∀ p, ¬nmd.FailsCheck env "" p

variable {nmd env}

variable (nmd env) in
theorem getFailed_cases (checks : List String) (p : String) :
    (p ∉ nmd.peers ∧ nmd.validatePostureChecksOnPeerGetFailed env checks p = (false, "")) ∨
    (p ∈ nmd.peers ∧ (∀ id ∈ checks, ¬nmd.FailsCheck env id p) ∧
      nmd.validatePostureChecksOnPeerGetFailed env checks p = (true, "")) ∨
    (p ∈ nmd.peers ∧ ∃ id ∈ checks, nmd.FailsCheck env id p ∧
      nmd.validatePostureChecksOnPeerGetFailed env checks p = (false, id)) := by
  unfold validatePostureChecksOnPeerGetFailed
  cases hp : nmd.peers.lookup p with
  | none => exact .inl ⟨lookup_eq_none.1 hp, rfl⟩
  | some peer =>
    refine .inr ?_
    have hm : p ∈ nmd.peers := mem_of_lookup hp
    cases hf : checks.find? fun id => !nmd.postureCheckPasses env id p peer with
    | none =>
      refine .inl ⟨hm, ?_, by simp only [hf]⟩
      rintro id hid ⟨peer', hp', hfl⟩
      obtain rfl : peer = peer' := Option.some.inj (hp.symm.trans hp')
      simpa [hfl] using List.find?_eq_none.1 hf id hid
    | some id =>
      refine .inr ⟨hm, id, mem_of_find?_eq_some hf, ⟨peer, hp, ?_⟩, by simp only [hf]⟩
      simpa using List.find?_some hf

theorem admitPolicyPeer_cases (hne : nmd.NoEmptyCheck env) (p : String) (checks : List String)
    (failed : StrMap (List String)) :
    (nmd.Admits env checks p ∧ nmd.admitPolicyPeer env p checks failed = (true, failed)) ∨
    (¬(p ∈ nmd.peers ∧ nmd.isValidated p) ∧
      nmd.admitPolicyPeer env p checks failed = (false, failed)) ∨
    (∃ id ∈ checks, nmd.FailsCheck env id p ∧
      nmd.admitPolicyPeer env p checks failed = (false, failed.addTo id p)) := by
  unfold admitPolicyPeer
  by_cases hp : p ∈ nmd.peers ∧ nmd.isValidated p
  · have hc : (decide (p ∉ nmd.peers) || !nmd.isValidated p) = false := by simp [hp.1, hp.2]
    simp only [hc]
    rcases getFailed_cases nmd env checks p with
      ⟨hno, -⟩ | ⟨-, hps, hv⟩ | ⟨-, id, hid, hf, hv⟩
    · exact absurd hp.1 hno
    · exact .inl ⟨⟨hp.1, hp.2, hps⟩, by simp [hv]⟩
    · have hid' : id ≠ "" := fun h => hne p (h ▸ hf)
      exact .inr (.inr ⟨id, hid, hf, by simp [hv, hid']⟩)
  · refine .inr (.inl ⟨hp, ?_⟩)
    have hc : (decide (p ∉ nmd.peers) || !nmd.isValidated p) = true := by
      by_cases hm : p ∈ nmd.peers
      · simpa [hm] using hp
      · simp [hm]
    rw [if_pos hc]

/-! ### The peers of a side -/

@[simp] theorem seenPeerIds_sidePeer (peerID : String) (checks : List String) (st : SideState)
    (p : String) : (nmd.sidePeer env peerID checks st p).seenPeerIds = st.seenPeerIds := by
  simp only [sidePeer]
  split
  · rfl
  · split <;> rfl

/-- The failed checks that are recorded when the peers `ids` have been looked at, started with the
map `failed`. -/
structure Recorded (nmd : NetworkMapData) (env : Env) (checks ids : List String)
    (failed failed' : StrMap (List String)) : Prop where
  failed_le : failed.SetsLe failed'
  failed_sound : ∀ id p, p ∈ failed'.setAt id → p ∈ failed.setAt id ∨ nmd.FailsCheck env id p
  failed_complete : ∀ p ∈ ids, p ∈ nmd.peers → nmd.isValidated p → ¬nmd.Admits env checks p →
    ∃ id ∈ checks, p ∈ failed'.setAt id

/-- The result of looking for the peers of a side that names `ids`. -/
structure SideSpec (nmd : NetworkMapData) (env : Env) (peerID : String) (checks ids : List String)
    (failed : StrMap (List String)) (st : SideState) : Prop
    extends nmd.Recorded env checks ids failed st.postureFailedPeers where
  peerInGroups : st.peerInGroups = true ↔ peerID ∈ ids ∧ nmd.Admits env checks peerID
  mem_filtered : ∀ p, p ∈ st.filteredPeerIDs ↔ p ≠ peerID ∧ p ∈ ids ∧ nmd.Admits env checks p

section

variable (hne : nmd.NoEmptyCheck env) {checks : List String} {p : String}
  {failed' : StrMap (List String)}

include hne

theorem admitPolicyPeer_iff :
    (nmd.admitPolicyPeer env p checks failed').1 ↔ nmd.Admits env checks p := by
  rcases admitPolicyPeer_cases hne p checks failed' with
    ⟨had, heq⟩ | ⟨hno, heq⟩ | ⟨id, hid, hf, heq⟩ <;> rw [heq]
  · exact iff_of_true rfl had
  · exact iff_of_false (by simp) fun ha => hno ⟨ha.1, ha.2.1⟩
  · exact iff_of_false (by simp) fun ha => ha.2.2 id hid hf

theorem Recorded.validate {ids : List String} {failed : StrMap (List String)}
    (h : nmd.Recorded env checks ids failed failed') (p : String) :
    nmd.Recorded env checks (ids ++ [p]) failed (nmd.admitPolicyPeer env p checks failed').2 := by
  have hk {out : StrMap (List String)} (hle : failed'.SetsLe out)
      (hs : ∀ id q, q ∈ out.setAt id → q ∈ failed'.setAt id ∨ nmd.FailsCheck env id q)
      (hp : p ∈ nmd.peers → nmd.isValidated p → ¬nmd.Admits env checks p →
        ∃ id ∈ checks, p ∈ out.setAt id) : nmd.Recorded env checks (ids ++ [p]) failed out := by
    refine ⟨h.failed_le.trans hle, fun id q hq => ?_, fun q hq hm hv hn => ?_⟩
    · exact (hs id q hq).elim (h.failed_sound id q) Or.inr
    · rcases mem_append.1 hq with hq | hq
      · obtain ⟨id, hid, hq⟩ := h.failed_complete q hq hm hv hn
        exact ⟨id, hid, hle id hq⟩
      · obtain rfl := mem_singleton.1 hq
        exact hp hm hv hn
  rcases admitPolicyPeer_cases hne p checks failed' with
    ⟨had, heq⟩ | ⟨hno, heq⟩ | ⟨id, hid, hf, heq⟩ <;> rw [heq]
  · exact hk (AList.SetsLe.refl _) (fun _ _ => Or.inl) fun _ _ hn => absurd had hn
  · exact hk (AList.SetsLe.refl _) (fun _ _ => Or.inl) fun hp hv _ => absurd ⟨hp, hv⟩ hno
  · refine hk (setsLe_addTo _ _ _) (fun id' q hq => ?_)
      fun _ _ _ => ⟨id, hid, mem_setAt_addTo.2 (.inr ⟨rfl, rfl⟩)⟩
    rcases mem_setAt_addTo.1 hq with hq | ⟨rfl, rfl⟩
    · exact .inl hq
    · exact .inr hf

end

namespace SideSpec

variable {peerID : String} {checks ids ids' : List String} {failed : StrMap (List String)}
  {st : SideState}

theorem congr (h : SideSpec nmd env peerID checks ids failed st) (hi : ∀ p, p ∈ ids ↔ p ∈ ids') :
    SideSpec nmd env peerID checks ids' failed st where
  peerInGroups := by rw [h.peerInGroups, hi]
  mem_filtered p := by rw [h.mem_filtered, hi]
  failed_le := h.failed_le
  failed_sound := h.failed_sound
  failed_complete p hp := h.failed_complete p ((hi p).2 hp)

variable (st) in
theorem reset (hle : failed.SetsLe st.postureFailedPeers)
    (hs : ∀ id p, p ∈ st.postureFailedPeers.setAt id →
      p ∈ failed.setAt id ∨ nmd.FailsCheck env id p) :
    SideSpec nmd env peerID checks [] failed
      { st with filteredPeerIDs := [], peerInGroups := false } where
  peerInGroups := by simp
  mem_filtered p := by simp
  failed_le := hle
  failed_sound := hs
  failed_complete p hp := nomatch hp

variable (h : SideSpec nmd env peerID checks ids failed st)

include h

variable (hne : nmd.NoEmptyCheck env)

include hne

theorem sidePeer (p : String) :
    SideSpec nmd env peerID checks (ids ++ [p]) failed (nmd.sidePeer env peerID checks st p) := by
  have hr := h.toRecorded.validate hne p
  have ha : (nmd.admitPolicyPeer env p checks st.postureFailedPeers).1 ↔ nmd.Admits env checks p :=
    admitPolicyPeer_iff hne
  unfold NetworkMapData.sidePeer
  dsimp only
  by_cases had : nmd.Admits env checks p
  · rw [ha.2 had]
    by_cases hp : p = peerID
    · subst hp
      rw [if_neg (by simp), if_pos rfl]
      refine ⟨hr, by simp [had], fun q => ?_⟩
      rw [h.mem_filtered, mem_append, mem_singleton]
      tauto
    · rw [if_neg (by simp), if_neg hp]
      refine ⟨hr, ?_, fun q => ?_⟩
      · rw [h.peerInGroups, mem_append, mem_singleton, or_iff_left (Ne.symm hp)]
      · rw [mem_append, h.mem_filtered, mem_append, mem_singleton]
        by_cases hq : q = p
        · simp [hq, hp, had]
        · simp [hq]
  · rw [Bool.eq_false_iff.2 fun ht => had (ha.1 ht), Bool.not_false, if_pos rfl]
    have hm (q : String) (hq : nmd.Admits env checks q) : q ∈ ids ↔ q ∈ ids ++ [p] := by
      have hqp : q ≠ p := fun e => had (e ▸ hq)
      simp [hqp]
    refine ⟨hr, h.peerInGroups.trans (and_congr_left (hm peerID)), fun q => ?_⟩
    exact (h.mem_filtered q).trans (and_congr_right fun _ => and_congr_left (hm q))

omit h

theorem foldl_sidePeer (l : List String) (h : SideSpec nmd env peerID checks ids failed st) :
    SideSpec nmd env peerID checks (ids ++ l) failed
      (l.foldl (nmd.sidePeer env peerID checks) st) := by
  induction l generalizing ids st with
  | nil => simpa using h
  | cons p l ih => simpa using ih (h.sidePeer hne p)

theorem foldl_sidePeerOnce (l : List String)
    (h : SideSpec nmd env peerID checks ids failed st) (hs : ∀ p, p ∈ st.seenPeerIds ↔ p ∈ ids) :
    SideSpec nmd env peerID checks (ids ++ l) failed
        (l.foldl (nmd.sidePeerOnce env peerID checks) st) ∧
      ∀ p, p ∈ (l.foldl (nmd.sidePeerOnce env peerID checks) st).seenPeerIds ↔ p ∈ ids ++ l := by
  induction l generalizing ids st with
  | nil => simpa using ⟨h, hs⟩
  | cons p l ih =>
    have hst : SideSpec nmd env peerID checks (ids ++ [p]) failed
          (nmd.sidePeerOnce env peerID checks st p) ∧
        ∀ q, q ∈ (nmd.sidePeerOnce env peerID checks st p).seenPeerIds ↔ q ∈ ids ++ [p] := by
      unfold NetworkMapData.sidePeerOnce
      split
      · rename_i hp
        have hi (q : String) : q ∈ ids ↔ q ∈ ids ++ [p] := by
          have hp' := (hs p).1 hp
          simp only [mem_append, mem_singleton]
          exact ⟨Or.inl, fun hq => hq.elim id fun e => e ▸ hp'⟩
        exact ⟨h.congr hi, fun q => (hs q).trans (hi q)⟩
      · have h' : SideSpec nmd env peerID checks ids failed
            { st with seenPeerIds := p :: st.seenPeerIds } :=
          ⟨h.toRecorded, h.peerInGroups, h.mem_filtered⟩
        refine ⟨h'.sidePeer hne p, fun q => ?_⟩
        rw [seenPeerIds_sidePeer, mem_cons, hs q, mem_append, mem_singleton, or_comm]
    simpa using ih hst.1 hst.2

theorem sideGroups (alone : Bool) (gids : List String)
    (h : SideSpec nmd env peerID checks ids failed st) (hs : ∀ p, p ∈ st.seenPeerIds ↔ p ∈ ids) :
    SideSpec nmd env peerID checks (uniquePeerIDs nmd.groups alone ids gids) failed
      (nmd.sideGroups env peerID checks alone st gids) := by
  induction gids generalizing ids st with
  | nil => exact h
  | cons gid rest ih =>
    unfold NetworkMapData.sideGroups uniquePeerIDs
    cases hg : nmd.groups.lookup gid with
    | none => exact ih h hs
    | some g =>
      simp only
      split
      · simpa using (reset _ h.failed_le h.failed_sound).foldl_sidePeer hne g.peers
      · obtain ⟨hsp, hs'⟩ := h.foldl_sidePeerOnce hne g.peers hs
        have hi (p : String) : p ∈ ids ++ g.peers ↔ p ∈ ids.insertAll g.peers := by
          rw [mem_insertAll, mem_append]
        exact ih (hsp.congr hi) fun p => (hs' p).trans (hi p)

end SideSpec

/-- The peers found on a side of a rule are the admitted ones of those it names, whatever failed
checks were recorded before. -/
theorem sideSpec_getSidePeers (hne : nmd.NoEmptyCheck env) (res : Resource)
    (groups : List String) (peerID : String) (checks : List String)
    (failed : StrMap (List String)) :
    SideSpec nmd env peerID checks (sideIDs nmd.groups res groups) failed
      (nmd.getSidePeers env res groups peerID checks failed) := by
  have hs : SideSpec nmd env peerID checks [] failed { postureFailedPeers := failed } :=
    SideSpec.reset { postureFailedPeers := failed } (AList.SetsLe.refl _) fun _ _ => Or.inl
  unfold getSidePeers sideIDs
  split
  · exact hs.sidePeer hne res.id
  · exact hs.sideGroups hne _ groups fun p => by simp

end NetworkMapData

end Cloink
