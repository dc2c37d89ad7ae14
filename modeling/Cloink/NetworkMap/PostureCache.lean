import Cloink.NetworkMap.AccountView

/-!
# The cache of posture results

`PrecomputePostureValidation` evaluates the checks of the enabled policies for the peers on their
source sides. The components of a peer do not depend on it: a result that is there is the one the
check gives, and any other is evaluated when it is asked for.
-/

namespace Cloink.NetworkMapData

open List

def withCache (nmd : NetworkMapData) (v : StrMap (Option (StrMap Bool))) : NetworkMapData :=
  { nmd with postureValidation := v }

variable {nmd : NetworkMapData} {env : Env} {v : StrMap (Option (StrMap Bool))}

theorem validate_precompute (nmd : NetworkMapData) (env : Env) :
    (nmd.precomputePostureValidation env).validatePostureChecksOnPeerGetFailed env =
      (nmd.withCache ∅).validatePostureChecksOnPeerGetFailed env := by
  funext checks p
  have hl : (nmd.precomputePostureValidation env).peers = (nmd.withCache ∅).peers := rfl
  unfold validatePostureChecksOnPeerGetFailed
  rw [hl]
  cases hp : (nmd.withCache ∅).peers.lookup p with
  | none => rfl
  | some peer =>
    have hc (id : String) : (nmd.precomputePostureValidation env).postureCheckPasses env id p peer =
        (nmd.withCache ∅).postureCheckPasses env id p peer := by
      rw [postureCheckPasses]
      cases hc : (nmd.precomputePostureValidation env).cachedPostureCheckResult id p with
      | none => rfl
      | some valid => exact cached_precompute hp hc
    simp only [hc]

theorem inject_withCache (nmd : NetworkMapData) (v : StrMap (Option (StrMap Bool))) :
    (nmd.withCache v).injectProxyPolicies = nmd.injectProxyPolicies.withCache v :=
  foldl_hom (fun nmd => withCache nmd v) fun _ _ => rfl

section

variable (hv : (nmd.withCache v).validatePostureChecksOnPeerGetFailed env =
  nmd.validatePostureChecksOnPeerGetFailed env)

include hv

theorem sidePeer_withCache : (nmd.withCache v).sidePeer env = nmd.sidePeer env := by
  have ha : (nmd.withCache v).admitPolicyPeer env = nmd.admitPolicyPeer env := by
    unfold admitPolicyPeer
    rw [hv]
    rfl
  unfold sidePeer
  rw [ha]

theorem getSidePeers_withCache : (nmd.withCache v).getSidePeers env = nmd.getSidePeers env := by
  have hs := sidePeer_withCache hv
  have ho : (nmd.withCache v).sidePeerOnce env = nmd.sidePeerOnce env := by
    unfold sidePeerOnce
    rw [hs]
  have hg (peerID : String) (checks : List String) (alone : Bool) (st : SideState)
      (l : List String) : (nmd.withCache v).sideGroups env peerID checks alone st l =
        nmd.sideGroups env peerID checks alone st l := by
    induction l generalizing st with
    | nil => rfl
    | cons gid l ih =>
      unfold sideGroups
      rw [hs, ho]
      simp only [ih]
      rfl
  unfold getSidePeers getPeerFromResource getPeersFromGroups
  simp only [hs, hg]

theorem relevant_withCache : (nmd.withCache v).getPeersGroupsPoliciesRoutes env =
    nmd.getPeersGroupsPoliciesRoutes env := by
  have hr : (nmd.withCache v).addRule env = nmd.addRule env := by
    unfold addRule
    rw [getSidePeers_withCache hv]
    rfl
  have hp : (nmd.withCache v).addPolicy env = nmd.addPolicy env := by
    unfold addPolicy
    rw [hr]
  unfold getPeersGroupsPoliciesRoutes
  rw [hp]
  rfl

theorem addResource_withCache : (nmd.withCache v).addResource env = nmd.addResource env := by
  have hs : (nmd.withCache v).getPostureValidPeersSaveFailed env =
      nmd.getPostureValidPeersSaveFailed env := by
    unfold getPostureValidPeersSaveFailed savePostureResult
    rw [hv]
    rfl
  have hp : (nmd.withCache v).addResourcePolicy env = nmd.addResourcePolicy env := by
    unfold addResourcePolicy
    rw [hs, hv]
    rfl
  unfold addResource
  rw [hp]
  rfl

theorem components_withCache (peerID : String) (zone : CustomZone) :
    (nmd.withCache v).peerComponents env peerID zone = nmd.peerComponents env peerID zone := by
  unfold peerComponents baseComponents
  rw [relevant_withCache hv, addResource_withCache hv]
  rfl

end

/-- With the results computed ahead, checks give the same verdict and the same failing id, and the
components of every peer are the same. -/
theorem precompute_transparent (nmd : NetworkMapData) (env : Env) : (∀ checks peerID,
      (nmd.precomputePostureValidation env).validatePostureChecksOnPeerGetFailed env checks peerID =
        (nmd.withCache ∅).validatePostureChecksOnPeerGetFailed env checks peerID) ∧
    ∀ peerID zone,
      (nmd.precomputePostureValidation env).getPeerNetworkMapComponents env peerID zone =
        (nmd.withCache ∅).getPeerNetworkMapComponents env peerID zone := by
  have hv := validate_precompute nmd env
  refine ⟨fun checks peerID => by rw [hv], fun peerID zone => ?_⟩
  have hi : (nmd.precomputePostureValidation env).injectProxyPolicies =
      (nmd.withCache ∅).injectProxyPolicies.withCache _ := inject_withCache (nmd.withCache ∅) _
  unfold getPeerNetworkMapComponents
  rw [hi, components_withCache]
  rw [injectProxy_eq]
  exact hv

end Cloink.NetworkMapData
