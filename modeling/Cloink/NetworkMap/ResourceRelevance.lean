import Cloink.NetworkMap.Relevance

/-!
# Network resources that are relevant for a peer

The loop of `getPeerNetworkMapComponents` over the network resources keeps a resource when the
peer routes it or when one of its policies lets the peer in. For a resource the peer routes it
brings in the source peers of every policy; the routing peers of a kept resource come along.
-/

namespace Cloink

open NetworkMapComponents AList List AList.SetsLe

/-- More has been collected. -/
instance : Preorder NetworkMapComponents where
  le a b :=
    (∀ p ∈ a.peers, p ∈ b.peers) ∧ (∀ g ∈ a.groups, g ∈ b.groups) ∧
      a.postureFailedPeers.SetsLe b.postureFailedPeers ∧
      (∀ id ∈ a.resourcePoliciesMap, id ∈ b.resourcePoliciesMap) ∧
      (∀ id ∈ a.routersMap, id ∈ b.routersMap)
  le_refl a := ⟨fun _ h => h, fun _ h => h, refl _, fun _ h => h, fun _ h => h⟩
  le_trans a b c h h' := ⟨fun p hp => h'.1 p (h.1 p hp), fun g hg => h'.2.1 g (h.2.1 g hg),
    h.2.2.1.trans h'.2.2.1, fun id hid => h'.2.2.2.1 id (h.2.2.2.1 id hid),
    fun id hid => h'.2.2.2.2 id (h.2.2.2.2 id hid)⟩

namespace NetworkMapComponents

/-- What was collected is part of the account. -/
structure SoundFor (nmd : NetworkMapData) (env : Env) (c : NetworkMapComponents) : Prop where
  peers_sub : c.peers.Sub nmd.peers
  validated : ∀ p ∈ c.peers, nmd.isValidated p
  groups_sub : c.groups.Sub nmd.groups
  failed : ∀ id p, p ∈ c.postureFailedPeers.setAt id → nmd.FailsCheck env id p
  policies_sub : c.resourcePoliciesMap.Sub nmd.resourcePolicies
  routers : ∀ id m, c.routersMap.lookup id = some m → m = nmd.networkRouters id
  routerPeers : ∀ p ∈ c.routerPeers, p ∈ c.peers

/-- The parts that the resources leave alone. -/
def frame (c : NetworkMapComponents) : NetworkMapComponents :=
  { c with
    peers := ∅, groups := ∅, postureFailedPeers := ∅, resourcePoliciesMap := ∅, routersMap := ∅
    routerPeers := ∅, networkResources := [] }

end NetworkMapComponents

namespace NetworkMapData

variable {nmd : NetworkMapData} {env : Env}

/-! ### Policies of a resource -/

/-- The peers of the input seen so far that are admitted, and the failed checks of the others. -/
structure ValidSpec (nmd : NetworkMapData) (env : Env) (checks input : List String)
    (failed : StrMap (List String)) (out : List String × StrMap (List String)) : Prop
    extends nmd.Recorded env checks input failed out.2 where
  mem : ∀ p, p ∈ out.1 ↔ p ∈ input ∧ nmd.Admits env checks p

private theorem savePostureResult_eq (hne : nmd.NoEmptyCheck env) (cks : List String)
    (acc : List String × StrMap (List String)) (p : String) :
    nmd.savePostureResult env cks acc p =
      (if (nmd.admitPolicyPeer env p cks acc.2).1 then acc.1 ++ [p] else acc.1,
        (nmd.admitPolicyPeer env p cks acc.2).2) := by
  unfold savePostureResult admitPolicyPeer
  by_cases hv : nmd.isValidated p
  · rcases getFailed_cases nmd env cks p with ⟨hno, heq⟩ | ⟨hp, -, heq⟩ | ⟨hp, id, -, hf, heq⟩
    · simp [hv, hno, heq]
    · simp [hv, hp, heq]
    · have hid : id ≠ "" := fun h => hne p (h ▸ hf)
      simp [hv, hp, heq, hid]
  · simp [hv]

/-- One peer: it is returned, or its failures are saved. -/
theorem ValidSpec.step (hne : nmd.NoEmptyCheck env) {cks input : List String}
    {failed : StrMap (List String)} {acc : List String × StrMap (List String)}
    (h : nmd.ValidSpec env cks input failed acc) (p : String) :
    nmd.ValidSpec env cks (input ++ [p]) failed (nmd.savePostureResult env cks acc p) := by
  rw [savePostureResult_eq hne]
  refine ⟨h.toRecorded.validate hne p, fun q => ?_⟩
  dsimp only
  by_cases had : nmd.Admits env cks p
  · rw [if_pos ((admitPolicyPeer_iff hne).2 had), mem_append, mem_append, h.mem, mem_singleton]
    by_cases hq : q = p
    · simp [hq, had]
    · simp [hq]
  · rw [if_neg fun ht => had ((admitPolicyPeer_iff hne).1 ht), h.mem]
    refine and_congr_left fun ha => ?_
    have hqp : q ≠ p := fun e => had (e ▸ ha)
    simp [hqp]

/-- All peers, by induction over them. -/
theorem validSpec_saveFailed (hne : nmd.NoEmptyCheck env)
    (input cks : List String) (failed : StrMap (List String)) : nmd.ValidSpec env cks input failed
      (nmd.getPostureValidPeersSaveFailed env input cks failed) := by
  have hl (l seen : List String) (acc : List String × StrMap (List String))
      (h : nmd.ValidSpec env cks seen failed acc) :
      nmd.ValidSpec env cks (seen ++ l) failed (l.foldl (nmd.savePostureResult env cks) acc) := by
    induction l generalizing seen acc with
    | nil => simpa using h
    | cons p l ih => simpa using ih (seen ++ [p]) _ (h.step hne p)
  have hs : nmd.ValidSpec env cks [] failed ([], failed) :=
    ⟨⟨refl _, fun _ _ => Or.inl, by simp⟩, by simp⟩
  exact hl input [] _ hs

def letsIn (nmd : NetworkMapData) (env : Env) (peerID : String) (policy : Policy) : Bool :=
  nmd.peerInResourceSources policy peerID &&
    (nmd.validatePostureChecksOnPeerGetFailed env policy.sourcePostureChecks peerID).1

/-- Everything a policy of a routed resource needs has been collected: its groups, its admitted
source peers, and for each other source peer a check it failed. -/
structure SourcesCovered (nmd : NetworkMapData) (env : Env) (policy : Policy)
    (c : NetworkMapComponents) : Prop where
  groups : ∀ g ∈ policyGroupIDs policy, g ∈ nmd.groups → g ∈ c.groups
  peers : ∀ p ∈ nmd.resourcePolicyPeers policy, nmd.Admits env policy.sourcePostureChecks p →
    p ∈ c.peers
  failed : ∀ p ∈ nmd.resourcePolicyPeers policy, p ∈ nmd.peers → nmd.isValidated p →
    ¬nmd.Admits env policy.sourcePostureChecks p →
    ∃ id ∈ policy.sourcePostureChecks, p ∈ c.postureFailedPeers.setAt id

variable {c c' : NetworkMapComponents}

theorem SourcesCovered.mono {pol : Policy} (h : nmd.SourcesCovered env pol c) (hle : c ≤ c') :
    nmd.SourcesCovered env pol c' where
  groups g hg hn := hle.2.1 g (h.groups g hg hn)
  peers p hp ha := hle.1 p (h.peers p hp ha)
  failed p hp hn hv ha := by
    obtain ⟨id, hid, hm⟩ := h.failed p hp hn hv ha
    exact ⟨id, hid, hle.2.2.1 id hm⟩

/-- A step that leaves the frame alone, keeps the given resources, adds to the rest and keeps it
part of the account. -/
structure Collects (nmd : NetworkMapData) (env : Env) (kept : List NetworkResource)
    (c c' : NetworkMapComponents) : Prop where
  le : c ≤ c'
  sound : c.SoundFor nmd env → c'.SoundFor nmd env
  frame : c'.frame = c.frame := by rfl
  resources : c'.networkResources = c.networkResources ++ kept := by simp

theorem Collects.refl (c : NetworkMapComponents) : nmd.Collects env [] c c :=
  ⟨le_rfl, fun h => h, rfl, by simp⟩

/-- What is collected in two steps. -/
theorem Collects.trans {c'' : NetworkMapComponents} {l l' : List NetworkResource}
    (h : nmd.Collects env l c c') (h' : nmd.Collects env l' c' c'') :
    nmd.Collects env (l ++ l') c c'' :=
  ⟨h.le.trans h'.le, fun hs => h'.sound (h.sound hs), h'.frame.trans h.frame,
    by rw [h'.resources, h.resources, append_assoc]⟩

theorem collects_keepResourcePolicy {rid : String} {policies : List Policy}
    (hp : nmd.resourcePolicies.lookup rid = some policies) (c : NetworkMapComponents)
    (pol : Policy) :
    nmd.Collects env [] c (nmd.keepResourcePolicy rid policies c pol) where
  le := ⟨fun _ h => h, fun _ h => mem_insertFrom.2 (.inl h), refl _,
    fun _ h => (mem_insert _).2 (.inr h), fun _ h => h⟩
  sound hs := ⟨hs.peers_sub, hs.validated, hs.groups_sub.insertFrom _, hs.failed,
    hs.policies_sub.insert hp, hs.routers, hs.routerPeers⟩
  resources := (append_nil _).symm

/-- Failures that did happen may be added. -/
theorem collects_failed (c : NetworkMapComponents) {failed : StrMap (List String)}
    (hle : c.postureFailedPeers.SetsLe failed) (hsn : ∀ id p, p ∈ failed.setAt id →
      p ∈ c.postureFailedPeers.setAt id ∨ nmd.FailsCheck env id p) :
    nmd.Collects env [] c { c with postureFailedPeers := failed } where
  le := ⟨fun _ h => h, fun _ h => h, hle, fun _ h => h, fun _ h => h⟩
  sound hs := ⟨hs.peers_sub, hs.validated, hs.groups_sub,
    fun id p hp => (hsn id p hp).elim (hs.failed id p) fun h => h, hs.policies_sub, hs.routers,
    hs.routerPeers⟩

theorem collects_peers (c : NetworkMapComponents) {l : List String}
    (hl : ∀ p ∈ l, nmd.isValidated p) :
    nmd.Collects env [] c { c with peers := nmd.peers.insertFrom c.peers l } where
  le := ⟨fun p hp => mem_insertFrom.2 (.inl hp), fun _ h => h, refl _, fun _ h => h, fun _ h => h⟩
  sound hs := by
    refine ⟨hs.peers_sub.insertFrom l, fun p hp => ?_, hs.groups_sub, hs.failed, hs.policies_sub,
      hs.routers, fun p hp => mem_insertFrom.2 (.inl (hs.routerPeers p hp))⟩
    rcases mem_insertFrom.1 hp with hp | ⟨hp, -⟩
    · exact hs.validated p hp
    · exact hl p hp

section

variable (hne : nmd.NoEmptyCheck env) {peerID rid : String} {policies : List Policy}
  (hp : nmd.resourcePolicies.lookup rid = some policies)

include hne hp

variable (hpeer : peerID ∈ nmd.peers)

include hpeer

/-- One policy of a resource. -/
theorem addResourcePolicy_spec (acc : NetworkMapComponents × Bool) (pol : Policy) :
    let out := nmd.addResourcePolicy env peerID rid policies acc pol
    out.2 = (acc.2 || nmd.letsIn env peerID pol) ∧ nmd.Collects env [] acc.1 out.1 ∧
    (out.2 → rid ∈ out.1.resourcePoliciesMap) ∧ (acc.2 → nmd.SourcesCovered env pol out.1) := by
  obtain ⟨c, b⟩ := acc
  cases b with
  | true =>
    have hs := validSpec_saveFailed hne (nmd.resourcePolicyPeers pol)
      pol.sourcePostureChecks c.postureFailedPeers
    simp only [addResourcePolicy, ↓reduceIte, Bool.true_or, true_and]
    set out := nmd.getPostureValidPeersSaveFailed env (nmd.resourcePolicyPeers pol)
      pol.sourcePostureChecks c.postureFailedPeers
    have h1 : nmd.Collects env [] c { c with peers := nmd.peers.insertFrom c.peers out.1 } :=
      collects_peers c fun p hpm => ((hs.mem p).1 hpm).2.2.1
    have h2 := h1.trans (collects_failed { c with peers := nmd.peers.insertFrom c.peers out.1 }
      hs.failed_le hs.failed_sound)
    refine ⟨h2.trans (collects_keepResourcePolicy hp _ pol),
      fun _ => (mem_insert _).2 (.inl rfl), fun _ =>
      ⟨fun g hg hn => mem_insertFrom.2 (.inr ⟨hg, hn⟩), fun p hpm ha => ?_, hs.failed_complete⟩⟩
    exact mem_insertFrom.2 (.inr ⟨(hs.mem p).2 ⟨hpm, ha⟩, ha.1⟩)
  | false =>
    unfold addResourcePolicy letsIn
    by_cases hin : nmd.peerInResourceSources pol peerID
    · rcases getFailed_cases nmd env pol.sourcePostureChecks peerID with
        ⟨hno, -⟩ | ⟨-, -, heq⟩ | ⟨-, id, -, hf, heq⟩
      · exact absurd hpeer hno
      · simp only [hin, heq, Bool.false_eq_true, ↓reduceIte, Bool.not_true, Bool.false_and]
        exact ⟨rfl, collects_keepResourcePolicy hp c pol, fun _ => (mem_insert _).2 (.inl rfl),
          by simp⟩
      · have hid : id ≠ "" := fun h => hne peerID (h ▸ hf)
        simp only [hin, heq, Bool.false_eq_true, ↓reduceIte, Bool.not_true, Bool.not_false, ne_eq,
          hid, not_false_eq_true, decide_true, Bool.and_self]
        refine ⟨rfl, collects_failed c (setsLe_addTo _ _ _) fun id' q hq => ?_, by simp, by simp⟩
        rcases mem_setAt_addTo.1 hq with hq | ⟨rfl, rfl⟩
        · exact .inl hq
        · exact .inr hf
    · simp only [hin, Bool.false_eq_true, ↓reduceIte, Bool.not_false]
      exact ⟨rfl, Collects.refl c, by simp, by simp⟩

theorem foldl_addResourcePolicy_spec (l : List Policy) (acc : NetworkMapComponents × Bool) :
    let out := l.foldl (nmd.addResourcePolicy env peerID rid policies) acc
    out.2 = (acc.2 || l.any (nmd.letsIn env peerID)) ∧ nmd.Collects env [] acc.1 out.1 ∧
    (l ≠ [] → out.2 → rid ∈ out.1.resourcePoliciesMap) ∧
    (acc.2 → ∀ pol ∈ l, nmd.SourcesCovered env pol out.1) := by
  induction l generalizing acc with
  | nil => exact ⟨by simp, Collects.refl acc.1, fun h => absurd rfl h, by simp⟩
  | cons pol l ih =>
    obtain ⟨ho, hc, hm, hcv⟩ := addResourcePolicy_spec hne hp hpeer acc pol
    rw [foldl_cons]
    set out := nmd.addResourcePolicy env peerID rid policies acc pol
    obtain ⟨ho', hc', hm', hcv'⟩ := ih out
    refine ⟨by rw [ho', ho, any_cons, Bool.or_assoc], hc.trans hc', fun _ hf => ?_,
      fun hb q hq => ?_⟩
    · by_cases ht : out.2
      · exact hc'.le.2.2.2.1 _ (hm ht)
      · refine hm' ?_ hf
        rintro rfl
        exact ht hf
    · rcases mem_cons.1 hq with rfl | hq
      · exact (hcv hb).mono hc'.le
      · exact hcv' (by simp [ho, hb]) q hq

end

/-! ### Resources -/

/-- The resource is kept for the peer: it has a list of policies, and the peer routes it or is let
in by one of them. -/
def keepsResource (nmd : NetworkMapData) (env : Env) (peerID : String)
    (resource : NetworkResource) : Bool :=
  (nmd.resourcePolicies.lookup resource.id).elim false fun policies =>
    decide (peerID ∈ nmd.networkRouters resource.networkID) ||
      (usablePolicies policies).any (nmd.letsIn env peerID)

/-- Everything a kept resource needs has been collected. -/
structure ResourceCovered (nmd : NetworkMapData) (env : Env) (peerID : String)
    (resource : NetworkResource) (c : NetworkMapComponents) : Prop where
  routers : resource.networkID ∈ c.routersMap
  routerPeers : ∀ p ∈ nmd.networkRouters resource.networkID, nmd.isValidated p → p ∈ nmd.peers →
    p ∈ c.peers
  policies : ∀ policies, nmd.resourcePolicies.lookup resource.id = some policies →
    usablePolicies policies ≠ [] → resource.id ∈ c.resourcePoliciesMap
  sources : peerID ∈ nmd.networkRouters resource.networkID →
    ∀ policies, nmd.resourcePolicies.lookup resource.id = some policies →
      ∀ policy ∈ usablePolicies policies, nmd.SourcesCovered env policy c

theorem ResourceCovered.mono {peerID : String} {res : NetworkResource}
    (h : nmd.ResourceCovered env peerID res c) (hle : c ≤ c') :
    nmd.ResourceCovered env peerID res c' where
  routers := hle.2.2.2.2 _ h.routers
  routerPeers p hr hv hp := hle.1 p (h.routerPeers p hr hv hp)
  policies l hl hu := hle.2.2.2.1 _ (h.policies l hl hu)
  sources hr l hl policy hp := (h.sources hr l hl policy hp).mono hle

theorem collects_keepResource (c : NetworkMapComponents) (res : NetworkResource) :
    nmd.Collects env [res] c (nmd.keepResource res (nmd.networkRouters res.networkID) c) where
  le := ⟨fun _ h => mem_insertFrom.2 (.inl h), fun _ h => h, refl _,
    fun _ h => h, fun _ h => (mem_insert _).2 (.inr h)⟩
  sound hs := by
    refine ⟨hs.peers_sub.insertFrom _, fun p hp => ?_, hs.groups_sub, hs.failed, hs.policies_sub,
      fun id m hm => ?_, fun p hp => mem_insertFrom.2 ?_⟩
    · rcases mem_insertFrom.1 hp with hp | ⟨hp, -⟩
      · exact hs.validated p hp
      · exact (mem_filter.1 hp).2
    · by_cases hid : id = res.networkID
      · subst hid
        exact (Option.some.inj ((lookup_insert _).symm.trans hm)).symm
      · exact hs.routers id m ((lookup_insert_ne hid).symm.trans hm)
    · exact (mem_insertFrom.1 hp).imp_left (hs.routerPeers p)
  resources := rfl

section

variable (hne : nmd.NoEmptyCheck env) {peerID : String} (hpeer : peerID ∈ nmd.peers)

include hne hpeer

/-- One resource: it is collected and covered if it is kept. -/
theorem addResource_spec (c : NetworkMapComponents) (res : NetworkResource) :
    nmd.Collects env ([res].filter (nmd.keepsResource env peerID)) c
      (nmd.addResource env peerID c res) ∧
    (nmd.keepsResource env peerID res →
      nmd.ResourceCovered env peerID res (nmd.addResource env peerID c res)) := by
  unfold addResource
  cases hp : nmd.resourcePolicies.lookup res.id with
  | none =>
    have hno : nmd.keepsResource env peerID res = false := by simp [keepsResource, hp]
    simp [hno, Collects.refl]
  | some policies =>
    dsimp only
    obtain ⟨hf, hc, hpl, hsr⟩ := foldl_addResourcePolicy_spec hne hp hpeer
      (usablePolicies policies) (c, decide (peerID ∈ nmd.networkRouters res.networkID))
    set out := (usablePolicies policies).foldl (nmd.addResourcePolicy env peerID res.id policies)
      (c, decide (peerID ∈ nmd.networkRouters res.networkID))
    have hke : nmd.keepsResource env peerID res = out.2 := by simp [keepsResource, hp, hf]
    rw [← hke] at hpl
    cases hk : nmd.keepsResource env peerID res with
    | false =>
      simpa [← hke, hk] using hc
    | true =>
      rw [filter_cons_of_pos hk, filter_nil, ← hke, if_pos hk]
      have hkr : nmd.Collects env _ out.1 _ := collects_keepResource out.1 res
      refine ⟨hc.trans hkr, fun _ => ⟨(mem_insert _).2 (.inl rfl), fun p hr hv hn => ?_,
        fun l hl hu => ?_, fun hr l hl pol hpm => ?_⟩⟩
      · refine mem_insertFrom.2 (.inr ⟨mem_filter.2 ⟨?_, hv⟩, hn⟩)
        exact mem_keys.1 hr
      · obtain rfl : policies = l := Option.some.inj (hp.symm.trans hl)
        exact hpl hu hk
      · obtain rfl : policies = l := Option.some.inj (hp.symm.trans hl)
        exact (hsr (decide_eq_true hr) pol hpm).mono hkr.le

/-- All resources, by induction over them. -/
theorem foldl_addResource_spec (l : List NetworkResource) (c : NetworkMapComponents) :
    nmd.Collects env (l.filter (nmd.keepsResource env peerID)) c
      (l.foldl (nmd.addResource env peerID) c) ∧
    ∀ res ∈ l, nmd.keepsResource env peerID res →
      nmd.ResourceCovered env peerID res (l.foldl (nmd.addResource env peerID) c) := by
  induction l generalizing c with
  | nil => exact ⟨Collects.refl c, by simp⟩
  | cons res l ih =>
    obtain ⟨hc, hcv⟩ := addResource_spec hne hpeer c res
    obtain ⟨hc', hcv'⟩ := ih (nmd.addResource env peerID c res)
    rw [foldl_cons, ← singleton_append, filter_append]
    refine ⟨hc.trans hc', fun r hr hk => ?_⟩
    rcases mem_cons.1 hr with rfl | hr
    · exact (hcv hk).mono hc'.le
    · exact hcv' r hr hk

end

end NetworkMapData

end Cloink
