import Cloink.NetworkMap.SliceView

/-!
# The peers of a slice

Which peers the slice of a validated peer has: the peer itself, the peers that serve a relevant
route, those on the other side of a rule, and those that a kept network resource brings in. For a
resource the peer routes, these are the admitted source peers of all its policies; for one it is
let into, those of the policies behind the first that lets it in.
-/

namespace Cloink

open AList List NetworkMapComponents

namespace NetworkMapData

/-- The policies of a resource whose source peers are collected. -/
def collectedPolicies (nmd : NetworkMapData) (env : Env) (P : String) (resource : NetworkResource) :
    List Policy :=
  let usable := usablePolicies (nmd.resourcePolicies.setAt resource.id)
  if P ∈ nmd.networkRouters resource.networkID then usable
  else (usable.dropWhile fun policy => !nmd.letsIn env P policy).tail

/-- A kept resource brings the peer in, as one of its routers or as a source peer. -/
def ResourceBrings (nmd : NetworkMapData) (env : Env) (P : String) (resource : NetworkResource)
    (p : String) : Prop :=
  (nmd.keepsResource env P resource = true ∧ p ∈ nmd.networkRouters resource.networkID ∧
    nmd.isValidated p ∧ p ∈ nmd.peers) ∨
  ∃ policy ∈ nmd.collectedPolicies env P resource,
    p ∈ nmd.resourcePolicyPeers policy ∧ nmd.Admits env policy.sourcePostureChecks p

variable {nmd : NetworkMapData} {env : Env} {P : String}

section

variable {rid : String} {pols : List Policy} {p : String}

variable (hne : nmd.NoEmptyCheck env)

include hne

variable (P rid pols) in
theorem mem_addResourcePolicy_peers (acc : NetworkMapComponents × Bool) (pol : Policy) :
    p ∈ (nmd.addResourcePolicy env P rid pols acc pol).1.peers ↔ p ∈ acc.1.peers ∨ (acc.2 ∧
      p ∈ nmd.resourcePolicyPeers pol ∧ nmd.Admits env pol.sourcePostureChecks p) := by
  obtain ⟨c, b⟩ := acc
  cases b with
  | false =>
    simp only [addResourcePolicy, Bool.false_eq_true, ↓reduceIte, false_and, or_false]
    split_ifs <;> rfl
  | true =>
    have hs := validSpec_saveFailed hne (nmd.resourcePolicyPeers pol)
      pol.sourcePostureChecks c.postureFailedPeers
    simp only [addResourcePolicy, ↓reduceIte, keepResourcePolicy, mem_insertFrom, hs.mem, true_and]
    exact or_congr_right ⟨fun h => h.1, fun h => ⟨h, h.2.1⟩⟩

theorem mem_foldl_addResourcePolicy_peers (hpeer : P ∈ nmd.peers)
    (hp : nmd.resourcePolicies.lookup rid = some pols) (l : List Policy)
    (acc : NetworkMapComponents × Bool) :
    p ∈ (l.foldl (nmd.addResourcePolicy env P rid pols) acc).1.peers ↔ p ∈ acc.1.peers ∨
      ∃ pol ∈ (if acc.2 then l else (l.dropWhile fun pol => !nmd.letsIn env P pol).tail),
        p ∈ nmd.resourcePolicyPeers pol ∧ nmd.Admits env pol.sourcePostureChecks p := by
  induction l generalizing acc with
  | nil => simp
  | cons pol l ih =>
    rw [foldl_cons, ih, mem_addResourcePolicy_peers P rid pols hne,
      (addResourcePolicy_spec hne hp hpeer acc pol).1, or_assoc]
    cases acc.2 <;> cases hl : nmd.letsIn env P pol <;> simp [hl]

end

section

variable (hne : nmd.NoEmptyCheck env) (hpeer : P ∈ nmd.peers)

include hne hpeer

theorem mem_addResource_peers (c : NetworkMapComponents) (res : NetworkResource) {p : String} :
    p ∈ (nmd.addResource env P c res).peers ↔ p ∈ c.peers ∨ nmd.ResourceBrings env P res p := by
  unfold addResource ResourceBrings collectedPolicies
  cases hp : nmd.resourcePolicies.lookup res.id with
  | none =>
    simp [keepsResource, hp, AList.setAt, usablePolicies]
  | some pols =>
    rw [setAt_of_lookup hp]
    dsimp only
    have hm := mem_foldl_addResourcePolicy_peers hne hpeer hp (usablePolicies pols)
      (c, decide (P ∈ nmd.networkRouters res.networkID)) (p := p)
    have hf := (foldl_addResourcePolicy_spec hne hp hpeer (usablePolicies pols)
      (c, decide (P ∈ nmd.networkRouters res.networkID))).1
    simp only [decide_eq_true_eq] at hm
    replace hf := hf.trans (show _ = nmd.keepsResource env P res by simp [keepsResource, hp])
    cases hk : nmd.keepsResource env P res with
    | false => simp [hf, hk, hm]
    | true =>
      simp only [hf, hk, ↓reduceIte, keepResource, mem_insertFrom, mem_filter,
        ← AList.mem_keys, hm, true_and, and_assoc, or_assoc]
      exact or_congr_right or_comm

end

theorem mem_collected_peers (t : nmd.Target env) {p : String} : p ∈ t.collected.peers ↔ p = t.id ∨
    (∃ r ∈ nmd.routes, nmd.routeRelevant t.id r ∧ p ∈ nmd.routePeerIDs r ∧ nmd.isValidated p ∧
      p ∈ nmd.peers) ∨
    (∃ pol ∈ nmd.policies, pol.enabled ∧ ∃ rule ∈ pol.rules, rule.enabled ∧
      nmd.RuleBrings env t.id pol.sourcePostureChecks rule p) ∨
    ∃ res ∈ nmd.networkResources, res.enabled ∧ nmd.ResourceBrings env t.id res p := by
  refine (foldl_iff_exists (p := fun c : NetworkMapComponents => p ∈ c.peers)
    (fun c res => mem_addResource_peers t.wf.noEmptyCheck t.mem c res) _ _).trans ?_
  have hb : p ∈ t.base.peers ↔
      p ∈ (nmd.getPeersGroupsPoliciesRoutes env t.id t.peer.sshEnabled).peers := Iff.rfl
  rw [hb, mem_relevant_peers t.id t.peer.sshEnabled t.wf.noEmptyCheck]
  have hs : p = t.id ∧ p ∈ nmd.peers ↔ p = t.id := ⟨fun hp => hp.1, fun hp => ⟨hp, hp ▸ t.mem⟩⟩
  simp [hs, and_assoc, or_assoc]

end NetworkMapData

end Cloink
