import Cloink.NetworkMap.AccountView
import Cloink.NetworkMap.ResourceRelevance

/-!
# The components of a peer against those of the account

Facts that relate the sliced components of a validated peer to the components of the whole
account: what was collected, what is left of the groups and of the failed checks, and that both
components agree on the sides of every rule that admits the peer.
-/

namespace Cloink

open NetworkMapComponents AList List NetworkMapData

/-! ### Groups and failed checks after filtering -/

variable {all groups : StrMap Group} {gids : List String} {peers : StrMap Peer}

theorem uniquePeerIDs_filterPeers (peers : StrMap Peer) (hsb : groups.Sub all) (alone : Bool)
    (hg : ∀ gid ∈ gids, gid ∈ all → gid ∈ groups) (acc : List String) :
    uniquePeerIDs (filterGroupPeers groups peers) alone
        (acc.filter fun p => decide (p ∈ peers)) gids =
      (uniquePeerIDs all alone acc gids).filter fun p => decide (p ∈ peers) := by
  induction gids generalizing acc with
  | nil => rfl
  | cons gid rest ih =>
    have hr : ∀ g ∈ rest, g ∈ all → g ∈ groups := fun g h => hg g (mem_cons_of_mem gid h)
    have hl : groups.lookup gid = all.lookup gid := by
      by_cases hm : gid ∈ all
      · exact hsb.lookup_eq (hg gid mem_cons_self hm)
      · rw [lookup_eq_none.2 hm, lookup_eq_none.2 fun h => hm (hsb.mem h)]
    unfold uniquePeerIDs
    rw [filterGroupPeers, lookup_mapVals, hl]
    cases all.lookup gid with
    | none => exact ih hr acc
    | some g =>
      have hs : Group.isGroupAll { g with peers := g.peers.filter fun p => decide (p ∈ peers) } =
        g.isGroupAll := rfl
      simp only [Option.map_some, hs]
      by_cases ha : (g.isGroupAll || alone) = true
      · rw [if_pos ha, if_pos ha]
      · rw [if_neg ha, if_neg ha, ← filter_insertAll]
        exact ih hr _

/-- In the slice a list of groups has the members of the account that are kept. -/
theorem uniquePeers_filterPeers (peers : StrMap Peer) (hs : groups.Sub all)
    (hg : ∀ gid ∈ gids, gid ∈ all → gid ∈ groups) :
    getUniquePeerIDsFromGroupsIDs (filterGroupPeers groups peers) gids =
      (getUniquePeerIDsFromGroupsIDs all gids).filter fun p => decide (p ∈ peers) :=
  uniquePeerIDs_filterPeers peers hs _ hg []

theorem lookup_filterPeers {gid : String} {g : Group} :
    (filterGroupPeers groups peers).lookup gid = some g ↔ ∃ g', groups.lookup gid = some g' ∧
        g = { g' with peers := g'.peers.filter fun p => decide (p ∈ peers) } := by
  rw [filterGroupPeers, lookup_mapVals, Option.map_eq_some_iff]
  simp only [eq_comm]

theorem inGroups_filterPeers {p : String} (hs : groups.Sub all) (hp : p ∈ peers)
    (ho : ∀ gid g, all.lookup gid = some g → p ∈ g.peers → gid ∈ groups) :
    InGroups (filterGroupPeers groups peers) gids p ↔ InGroups all gids p := by
  refine exists_congr fun gid => and_congr_right fun _ => ?_
  constructor
  · rintro ⟨g, hg, hpg⟩
    obtain ⟨g', hg', rfl⟩ := lookup_filterPeers.1 hg
    exact ⟨g', hs _ _ hg', (mem_filter.1 hpg).1⟩
  · rintro ⟨g, hg, hpg⟩
    have hk : groups.lookup gid = some g := by rw [hs.lookup_eq (ho gid g hg hpg), hg]
    exact ⟨_, lookup_filterPeers.2 ⟨g, hk, rfl⟩, mem_filter.2 ⟨hpg, decide_eq_true hp⟩⟩

/-- A failure is kept for the checks in use and the peers that are kept. -/
theorem mem_filterFailed {failed : StrMap (List String)} {pols : List Policy}
    {rpm : StrMap (List Policy)} {id p : String} :
    p ∈ (filterPostureFailedPeers failed pols rpm peers).setAt id ↔
      id ∈ (pols ++ rpm.entries.flatMap (·.2)).flatMap (·.sourcePostureChecks) ∧
        p ∈ peers ∧ p ∈ failed.setAt id := by
  simp only [filterPostureFailedPeers, AList.setAt, lookup_restrict, lookup_mapVals]
  set referenced := (pols ++ rpm.entries.flatMap (·.2)).flatMap (·.sourcePostureChecks)
  cases hf : failed.lookup id with
  | none => simp
  | some l =>
    by_cases hr : id ∈ referenced
    · by_cases he : (l.filter fun p => decide (p ∈ peers)) = []
      · have hno : ¬(p ∈ peers ∧ p ∈ l) := by
          rintro ⟨hp, hl⟩
          have : p ∈ l.filter fun p => decide (p ∈ peers) :=
            mem_filter.2 ⟨hl, decide_eq_true hp⟩
          rw [he] at this
          cases this
        simp [hr, he, hno]
      · simp [hr, he, and_comm]
    · simp [hr]

namespace NetworkMapComponents

theorem getSidePeers_eq (c : NetworkMapComponents) (res : Resource) (groups : List String)
    (peerID : String) (cks : List String) : c.getSidePeers res groups peerID cks =
      c.filterPolicyPeers (sideIDs c.groups res groups) peerID cks := by
  unfold getSidePeers sideIDs
  split <;> rfl

theorem mem_getSidePeers_fst {c : NetworkMapComponents} {res : Resource}
    {groups : List String} {peerID : String} {cks : List String} {q : Peer} :
    q ∈ (c.getSidePeers res groups peerID cks).1 ↔ ∃ id ∈ sideIDs c.groups res groups, id ≠ peerID ∧
        c.validatePostureChecksOnPeer id cks ∧ c.getPeerInfo id = some q := by
  rw [getSidePeers_eq]
  simp only [filterPolicyPeers, mem_filterMap, mem_filter, decide_eq_true_eq]
  exact exists_congr fun id => ⟨fun h => ⟨h.1.1.1, h.1.2, h.1.1.2, h.2⟩,
    fun h => ⟨⟨⟨h.1, h.2.2.1⟩, h.2.1⟩, h.2.2.2⟩⟩

/-- A peer passes when it is known and no failure is recorded. -/
theorem validate_iff {c : NetworkMapComponents} {p : String} {cks : List String} :
    c.validatePostureChecksOnPeer p cks ↔
      p ∈ c.peers ∧ ∀ id ∈ cks, p ∉ c.postureFailedPeers.setAt id := by
  simp [validatePostureChecksOnPeer]

end NetworkMapComponents

namespace NetworkMapData

variable {nmd : NetworkMapData} {env : Env} {P : String} {peer : Peer} {zone : CustomZone}

/-! ### What was collected -/

/-- The components of a validated peer before the groups and the failed checks are filtered. -/
def collected (nmd : NetworkMapData) (env : Env) (P : String) (peer : Peer)
    (zone : CustomZone) : NetworkMapComponents :=
  (nmd.networkResources.filter (·.enabled)).foldl (nmd.addResource env P)
    (nmd.baseComponents env P peer zone)

/-- The components of a validated peer. -/
abbrev sliced (nmd : NetworkMapData) (env : Env) (P : String) (peer : Peer)
    (zone : CustomZone) : NetworkMapComponents :=
  finishComponents (nmd.collected env P peer zone)

/-- A validated peer of a well-formed account that no group of all peers leaves out, and the zone it
is told of. -/
structure Target (nmd : NetworkMapData) (env : Env) where
  id : String
  peer : Peer
  zone : CustomZone
  wf : nmd.WellFormed env
  lookup : nmd.peers.lookup id = some peer
  valid : nmd.isValidated id
  all : AllHolds nmd.groups id

namespace Target

variable (t : nmd.Target env)

abbrev base : NetworkMapComponents := nmd.baseComponents env t.id t.peer t.zone

abbrev collected : NetworkMapComponents := nmd.collected env t.id t.peer t.zone

abbrev slice : NetworkMapComponents := nmd.sliced env t.id t.peer t.zone

abbrev account : NetworkMapComponents := nmd.accountComponents env t.id t.zone

theorem mem : t.id ∈ nmd.peers := mem_of_lookup t.lookup

theorem getPeerInfo_self : t.account.getPeerInfo t.id = some t.peer :=
  getPeerInfo_account.2 ⟨t.valid, t.lookup⟩

theorem peerComponents_eq : nmd.peerComponents env t.id t.zone = t.slice := by
  simp only [peerComponents, t.lookup, t.valid]
  rfl

/-- The peer in the account with the policies of the reverse proxy. -/
abbrev inject : nmd.injectProxyPolicies.Target env :=
  { t with
    wf := t.wf.inject
    lookup := by rw [injectProxy_eq]; exact t.lookup
    valid := by rw [injectProxy_eq]; exact t.valid
    all := by rw [injectProxy_eq]; exact t.all }

/-- The components of the peer are the slice after the injection. -/
theorem components_eq : nmd.getPeerNetworkMapComponents env t.id t.zone = t.inject.slice :=
  t.inject.peerComponents_eq

end Target

section

variable (t : nmd.Target env)

theorem base_le_collected : t.base ≤ t.collected :=
  (foldl_addResource_spec t.wf.noEmptyCheck t.mem _ _).1.le

theorem frame_collected : t.collected.frame = t.base.frame :=
  (foldl_addResource_spec t.wf.noEmptyCheck t.mem _ _).1.frame

theorem peerID_slice : t.slice.peerID = t.id := by
  have hf := congrArg peerID (frame_collected t)
  exact hf

theorem policies_collected : t.collected.policies =
    (nmd.getPeersGroupsPoliciesRoutes env t.id t.peer.sshEnabled).policies :=
  congrArg NetworkMapComponents.policies (frame_collected t)

theorem routes_collected : t.collected.routes =
    (nmd.getPeersGroupsPoliciesRoutes env t.id t.peer.sshEnabled).routes :=
  congrArg NetworkMapComponents.routes (frame_collected t)

theorem resources_collected : t.collected.networkResources =
    (nmd.networkResources.filter (·.enabled)).filter (nmd.keepsResource env t.id) :=
  (foldl_addResource_spec t.wf.noEmptyCheck t.mem _ _).1.resources

/-- A resource that is kept is covered. -/
theorem resource_collected {res : NetworkResource} (hr : res ∈ nmd.networkResources)
    (he : res.enabled) (hk : nmd.keepsResource env t.id res) :
    nmd.ResourceCovered env t.id res t.collected :=
  (foldl_addResource_spec t.wf.noEmptyCheck t.mem _ _).2 res
    (mem_filter.2 ⟨hr, he⟩) hk

theorem self_collected : t.id ∈ t.collected.peers :=
  (base_le_collected t).1 t.id (relevant_self t.id _ t.wf.noEmptyCheck t.mem)

theorem own_groups_collected {gid : String} {g : Group} (hg : nmd.groups.lookup gid = some g)
    (hp : t.id ∈ g.peers) : gid ∈ t.collected.groups :=
  (base_le_collected t).2.1 gid (relevant_own_groups t.id _ t.wf.noEmptyCheck hg hp)

/-- Everything collected is part of the account. -/
theorem sound_collected : t.collected.SoundFor nmd env := by
  refine (foldl_addResource_spec t.wf.noEmptyCheck t.mem _ _).1.sound ?_
  have hs := relevant_sound t.id t.peer.sshEnabled t.wf.noEmptyCheck t.valid
  exact ⟨hs.peers_sub, hs.validated, hs.groups_sub, hs.failed, AList.Sub.empty _,
    fun id m hm => by simp [baseComponents] at hm, fun p hp => absurd hp (notMem_empty p)⟩

end

/-! ### Posture validation -/

/-- The policy is one of the kept policies, or of the policies of a kept resource. -/
def Refers (c : NetworkMapComponents) (policy : Policy) : Prop :=
  policy ∈ c.policies ∨ ∃ id l, c.resourcePoliciesMap.lookup id = some l ∧ policy ∈ l

variable {c : NetworkMapComponents}

theorem Refers.check_mem {pol : Policy} (h : Refers c pol) {id : String}
    (hid : id ∈ pol.sourcePostureChecks) :
    id ∈ (c.policies ++ c.resourcePoliciesMap.entries.flatMap (·.2)).flatMap
      (·.sourcePostureChecks) := by
  refine mem_flatMap.2 ⟨pol, mem_append.2 ?_, hid⟩
  rcases h with h | ⟨rid, l, hl, h⟩
  · exact .inl h
  · exact .inr (mem_flatMap.2 ⟨⟨rid, l⟩, mem_lookup_iff.1 hl, h⟩)

/-- For a policy that is referred to, and a peer whose failures were recorded, posture validation
over the finished components is admission. -/
theorem validate_finish (hs : c.SoundFor nmd env) {pol : Policy} (hr : Refers c pol) {p : String}
    (hrc : p ∈ c.peers → ¬nmd.Admits env pol.sourcePostureChecks p →
      ∃ id ∈ pol.sourcePostureChecks, p ∈ c.postureFailedPeers.setAt id) :
    (finishComponents c).validatePostureChecksOnPeer p pol.sourcePostureChecks ↔
      p ∈ c.peers ∧ nmd.Admits env pol.sourcePostureChecks p := by
  have hval : (finishComponents c).validatePostureChecksOnPeer p pol.sourcePostureChecks ↔
      p ∈ c.peers ∧ ∀ id ∈ pol.sourcePostureChecks, p ∉ c.postureFailedPeers.setAt id := by
    refine validate_iff.trans (and_congr_right fun hp => forall₂_congr fun id hid => not_congr ?_)
    rw [finishComponents, mem_filterFailed]
    exact ⟨fun hf => hf.2.2, fun hf => ⟨hr.check_mem hid, hp, hf⟩⟩
  rw [hval]
  refine and_congr_right fun hp => ⟨fun hno => ?_, fun ha id hid hf => ?_⟩
  · by_contra hn
    obtain ⟨id, hid, hf⟩ := hrc hp hn
    exact hno id hid hf
  · exact ha.2.2 id hid (hs.failed id p hf)

theorem validate_finish_nil {p : String} :
    (finishComponents c).validatePostureChecksOnPeer p [] ↔ p ∈ c.peers :=
  validate_iff.trans ⟨fun hp => hp.1, fun hp => ⟨hp, by simp⟩⟩

/-! ### The sides of a rule -/

section

variable (t : nmd.Target env)

/-- The slice has the peers that are kept as they are. -/
theorem getPeerInfo_slice {p : String} (hp : p ∈ t.collected.peers) : t.slice.getPeerInfo p =
      t.account.getPeerInfo p := by
  have hs := sound_collected t
  change t.collected.peers.lookup p = (nmd.peers.restrict nmd.isValidated).lookup p
  rw [lookup_restrict, if_pos (hs.validated p hp), hs.peers_sub.lookup_eq hp]

/-- It has the groups that are kept, with the members that are kept. -/
theorem lookup_group_slice {gid : String} (hg : gid ∈ nmd.groups → gid ∈ t.collected.groups) :
    t.slice.groups.lookup gid = (nmd.groups.lookup gid).map fun g =>
        { g with
          peers := g.peers.filter fun p =>
            decide (p ∈ t.collected.peers) } := by
  have hs := sound_collected t
  refine (lookup_mapVals _ _ _).trans (congrArg _ ?_)
  by_cases hm : gid ∈ nmd.groups
  · exact hs.groups_sub.lookup_eq (hg hm)
  · rw [lookup_eq_none.2 hm, lookup_eq_none.2 fun hc => hm (hs.groups_sub.mem hc)]

theorem self_mem_sideIDs_slice (res : Resource) (gids : List String) :
    t.id ∈ sideIDs t.slice.groups res gids ↔ t.id ∈ sideIDs nmd.groups res gids := by
  have hs := sound_collected t
  have hsl := self_collected t
  unfold sideIDs
  split
  · rfl
  · have ha : AllHolds (filterGroupPeers t.collected.groups t.collected.peers) t.id := by
      intro gid g hg hi gid' g' hg' hp
      obtain ⟨g₀, hg₀, rfl⟩ := lookup_filterPeers.1 hg
      obtain ⟨g₁, hg₁, rfl⟩ := lookup_filterPeers.1 hg'
      refine mem_filter.2 ⟨?_, decide_eq_true hsl⟩
      exact t.all gid g₀ (hs.groups_sub _ _ hg₀) hi gid' g₁ (hs.groups_sub _ _ hg₁)
        (mem_filter.1 hp).1
    rw [mem_uniquePeers t.all]
    refine (mem_uniquePeers ha).trans ?_
    exact inGroups_filterPeers hs.groups_sub hsl fun gid g hg hp =>
      own_groups_collected t hg hp

variable {cks : List String}

/-- The admitted peers of a side over the slice, when all its groups are kept. -/
theorem filter_sideIDs_slice {res : Resource} {gids : List String}
    (hg : ∀ g ∈ gids, g ∈ nmd.groups → g ∈ t.collected.groups)
    (hv : ∀ p ∈ sideIDs nmd.groups res gids, t.slice.validatePostureChecksOnPeer p cks =
        t.account.validatePostureChecksOnPeer p cks) :
    (sideIDs t.slice.groups res gids).filter (t.slice.validatePostureChecksOnPeer · cks) =
      (sideIDs nmd.groups res gids).filter (t.account.validatePostureChecksOnPeer · cks) := by
  have hs := sound_collected t
  unfold sideIDs at hv ⊢
  split at hv
  · rename_i hr
    rw [if_pos hr, if_pos hr]
    exact filter_congr hv
  · rename_i hr
    have hi : getUniquePeerIDsFromGroupsIDs t.slice.groups gids =
        (getUniquePeerIDsFromGroupsIDs nmd.groups gids).filter fun p =>
          decide (p ∈ t.collected.peers) :=
      uniquePeers_filterPeers _ hs.groups_sub hg
    rw [if_neg hr, if_neg hr, hi, filter_filter]
    refine filter_congr fun p hp => ?_
    rw [← hv p hp]
    cases hb : t.slice.validatePostureChecksOnPeer p cks with
    | false => rw [Bool.false_and]
    | true =>
      rw [Bool.true_and]
      exact decide_eq_true (validate_iff.1 hb).1

/-- A side of a rule has the same peers in the slice. -/
theorem getSidePeers_slice (res : Resource) {gids : List String}
    (hg : ∀ g ∈ gids, g ∈ nmd.groups → g ∈ t.collected.groups)
    (hv : ∀ p ∈ sideIDs nmd.groups res gids, t.slice.validatePostureChecksOnPeer p cks =
        t.account.validatePostureChecksOnPeer p cks) :
    t.slice.getSidePeers res gids t.id cks = t.account.getSidePeers res gids t.id cks := by
  rw [getSidePeers_eq, getSidePeers_eq]
  unfold filterPolicyPeers
  have hl := filter_sideIDs_slice t hg hv
  rw [hl]
  refine Prod.ext (filterMap_congr fun p hp => ?_) rfl
  have hm := (mem_filter.1 hp).1
  rw [← hl] at hm
  exact getPeerInfo_slice t (validate_iff.1 (mem_filter.1 hm).2).1

theorem getSidePeers_slice_snd (res : Resource) (gids : List String)
    (hv : t.id ∈ sideIDs nmd.groups res gids → t.slice.validatePostureChecksOnPeer t.id cks =
        t.account.validatePostureChecksOnPeer t.id cks) :
    (t.slice.getSidePeers res gids t.id cks).2 = (t.account.getSidePeers res gids t.id cks).2 := by
  rw [getSidePeers_eq, getSidePeers_eq]
  unfold filterPolicyPeers
  rw [Bool.eq_iff_iff]
  simp only [contains_iff_mem, mem_filter, self_mem_sideIDs_slice t]
  refine and_congr_right fun hm => ?_
  rw [hv hm]

end

end NetworkMapData

end Cloink
