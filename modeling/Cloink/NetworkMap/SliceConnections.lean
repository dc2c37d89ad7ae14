import Cloink.NetworkMap.SliceView

/-!
# Peer connections over the slice and over the account

The peers a peer may talk to, the firewall rules for them and the users it accepts over SSH come
out the same from the peer's slice of the account and from the whole account. Each rule of a kept
policy does the same to the accumulated state, and the rules of the other policies do nothing.
-/

namespace Cloink

open NetworkMapComponents List NetworkMapData

namespace NetworkMapComponents

/-! ### The parts of a rule that are looked at -/

/-- A rule needs the peers of a side only if the target is on the other. -/
theorem generateRule_congr (env : Env) (tgt : Peer) (rule : PolicyRule) (st : ConnResources)
    {source source' dst dst' : List Peer × Bool} (hs : source.2 = source'.2) (hd : dst.2 = dst'.2)
    (hsl : dst.2 → source.1 = source'.1) (hdl : source.2 → dst.1 = dst'.1) :
    generateRule env tgt rule source dst st = generateRule env tgt rule source' dst' st := by
  obtain ⟨sl, sb⟩ := source
  obtain ⟨sl', sb'⟩ := source'
  obtain ⟨dl, db⟩ := dst
  obtain ⟨dl', db'⟩ := dst'
  cases sb <;> cases db <;> simp_all [generateRule]

/-- A rule needs the users of its own groups only. -/
theorem authorizeRule_congr {c c' : NetworkMapComponents} {tgt : Peer} {rule : PolicyRule}
    {st : PeerConnections} (hg : usesUserGroups rule → ∀ g ∈ rule.authorizedGroups.keys,
      c.groupIDToUserIDs.lookup g = c'.groupIDToUserIDs.lookup g)
    (ha : usesAllowedUsers tgt.sshEnabled rule → c.allowedUserIDs = c'.allowedUserIDs) :
    c.authorizeRule tgt rule st = c'.authorizeRule tgt rule st := by
  unfold authorizeRule
  by_cases hs : rule.protocol = policyRuleProtocolNetbirdSSH
  · simp only [hs, ↓reduceIte]
    by_cases hgr : rule.authorizedGroups.entries.isEmpty
    · by_cases hu : rule.authorizedUser = ""
      · have := ha (by simp [usesAllowedUsers, hs, hgr, hu])
        simp [hgr, hu, this]
      · simp [hgr, hu]
    · have hlk := hg (by simp [usesUserGroups, hs, hgr])
      simp only [hgr, Bool.not_false, ↓reduceIte]
      congr 1
      refine foldl_ext _ _ _ fun users e he => ?_
      have hk : e.1 ∈ rule.authorizedGroups.keys := mem_map.2 ⟨e, he, rfl⟩
      unfold authorizeGroup
      rw [hlk e.1 hk]
  · simp only [hs, ↓reduceIte]
    by_cases hl : (policyRuleImpliesLegacySSH rule && tgt.sshEnabled) = true
    · have := ha (by simpa [usesAllowedUsers, hs] using hl)
      rw [if_pos hl, if_pos hl, this]
    · rw [if_neg hl, if_neg hl]

theorem enabledRules_filter (q : Policy → Bool) (l : List Policy) :
    enabledRules ((l.filter (·.enabled)).filter q) = (enabledRules l).filter fun pr => q pr.1 := by
  induction l with
  | nil => rfl
  | cons p l ih =>
    have hm : ((p.rules.filter (·.enabled)).map fun rule => (p, rule)).filter (fun pr => q pr.1) =
        if q p then (p.rules.filter (·.enabled)).map fun rule => (p, rule) else [] := by
      rw [filter_map]
      cases hq : q p <;> simp [Function.comp_def, hq]
    unfold enabledRules at ih ⊢
    cases he : p.enabled with
    | false => simpa [he] using ih
    | true =>
      rw [filter_cons_of_pos he, flatMap_cons, filter_append, hm, ← ih]
      cases hq : q p with
      | false => rw [filter_cons_of_neg (by simp [hq])]; rfl
      | true => rw [filter_cons_of_pos hq, filter_cons_of_pos he, flatMap_cons]; rfl

theorem mem_enabledRules {l : List Policy} {pol : Policy} {rule : PolicyRule} :
    (pol, rule) ∈ enabledRules l ↔ pol ∈ l ∧ pol.enabled ∧ rule ∈ pol.rules ∧ rule.enabled := by
  simp only [enabledRules, mem_flatMap, mem_filter, mem_map, Prod.mk.injEq]
  constructor
  · rintro ⟨p, ⟨hp, he⟩, r, ⟨hr, hre⟩, rfl, rfl⟩
    exact ⟨hp, he, hr, hre⟩
  · rintro ⟨hp, he, hr, hre⟩
    exact ⟨pol, ⟨hp, he⟩, rule, ⟨hr, hre⟩, rfl, rfl⟩

end NetworkMapComponents

namespace NetworkMapData

variable {nmd : NetworkMapData} {env : Env} {P : String} {peer : Peer} {zone : CustomZone}

/-! ### Peers, firewall rules and users -/

variable (P zone) in
theorem getSidePeers_account_snd (h : nmd.WellFormed env) (res : Resource)
    (gids cks : List String) (p : String) :
    ((nmd.accountComponents env P zone).getSidePeers res gids p cks).2 ↔
      p ∈ sideIDs nmd.groups res gids ∧ nmd.Admits env cks p := by
  rw [getSidePeers_eq]
  unfold filterPolicyPeers
  simp only [contains_iff_mem, mem_filter, validate_account h]
  rfl

/-- A rule with the peer on no side makes no connection. -/
theorem connectRule_outside (h : nmd.WellFormed env) {cks : List String} {rule : PolicyRule}
    (hsr : ¬nmd.InSource env cks rule P) (hds : ¬nmd.InDestination env rule P)
    (st : PeerConnections) :
    (nmd.accountComponents env P zone).connectRule env peer P cks st rule = st := by
  have hs : ((nmd.accountComponents env P zone).getSidePeers rule.sourceResource rule.sources P
      cks).2 = false := by
    rw [Bool.eq_false_iff, ne_eq, getSidePeers_account_snd P zone h]
    exact hsr
  have hd : ((nmd.accountComponents env P zone).getSidePeers rule.destinationResource
      rule.destinations P []).2 = false := by
    rw [Bool.eq_false_iff, ne_eq, getSidePeers_account_snd P zone h]
    exact hds
  unfold connectRule generateRule
  simp [hs, hd]

/-- A policy that is left out makes no connection. -/
theorem connectRule_irrelevant (h : nmd.WellFormed env) {pol : Policy} {rule : PolicyRule}
    (hr : rule ∈ pol.rules) (hre : rule.enabled) {ags : List String}
    (hno : nmd.policyRelevant env P ags pol = false) (st : PeerConnections) :
    (nmd.accountComponents env P zone).connectRule env peer P pol.sourcePostureChecks st rule =
      st := by
  have hn : ¬nmd.RuleRelevant env P ags pol.sourcePostureChecks rule := fun hrl => by
    rw [(policyRelevant_iff h.noEmptyCheck P).2 ⟨rule, hr, hre, hrl⟩] at hno
    cases hno
  exact connectRule_outside h (fun hin => hn (.inr (.inl hin))) (fun hin => hn (.inr (.inr hin))) st

section

variable (t : nmd.Target env)

theorem admits_nil_collected {p : String} (hp : p ∈ t.collected.peers) : nmd.Admits env [] p := by
  have hs := sound_collected t
  exact ⟨hs.peers_sub.mem hp, hs.validated p hp, by simp⟩

section

variable {pol : Policy} (hpol : pol ∈ nmd.policies) (hpe : pol.enabled)
  {rule : PolicyRule} (hr : rule ∈ pol.rules) (hre : rule.enabled)
  (hkept : pol ∈ t.collected.policies)

include hpol hpe hr hre hkept

/-- On the source side a peer passes in the slice if it is kept and admitted. -/
theorem validate_source_slice {p : String}
    (hp : p ∈ sideIDs nmd.groups rule.sourceResource rule.sources) :
    t.slice.validatePostureChecksOnPeer p pol.sourcePostureChecks ↔
      p ∈ t.collected.peers ∧ nmd.Admits env pol.sourcePostureChecks p := by
  have hs := sound_collected t
  refine validate_finish hs (.inl hkept) fun hpc hn => ?_
  have hcov := relevant_covered t.id t.peer.sshEnabled t.wf.noEmptyCheck hpol hpe hr hre
  obtain ⟨id, hid, hf⟩ := hcov.failed p hp (hs.peers_sub.mem hpc) (hs.validated p hpc) hn
  exact ⟨id, hid, (base_le_collected t).2.2.1 id hf⟩

/-- A rule makes the same connections in the slice. -/
theorem connectRule_slice (st : PeerConnections) :
    t.slice.connectRule env t.peer t.id pol.sourcePostureChecks st rule =
      t.account.connectRule env t.peer t.id pol.sourcePostureChecks st rule := by
  have hc := relevant_covered t.id t.peer.sshEnabled t.wf.noEmptyCheck hpol hpe hr hre
  have hb := base_le_collected t
  have hsl := self_collected t
  have hsr {p : String} (hp : p ∈ sideIDs nmd.groups rule.sourceResource rule.sources)
      (had : nmd.Admits env pol.sourcePostureChecks p → p ∈ t.collected.peers) :
      t.slice.validatePostureChecksOnPeer p pol.sourcePostureChecks =
        t.account.validatePostureChecksOnPeer p
          pol.sourcePostureChecks := by
    rw [Bool.eq_iff_iff, validate_source_slice t hpol hpe hr hre hkept hp, validate_account t.wf]
    exact ⟨fun hv => hv.2, fun ha => ⟨had ha, ha⟩⟩
  have hds {p : String} (had : nmd.Admits env [] p → p ∈ t.collected.peers) :
      t.slice.validatePostureChecksOnPeer p [] = t.account.validatePostureChecksOnPeer p [] := by
    rw [Bool.eq_iff_iff, validate_finish_nil, validate_account t.wf]
    exact ⟨fun hp => admits_nil_collected t hp, had⟩
  have hsf := getSidePeers_slice_snd t rule.sourceResource rule.sources
    fun hp => hsr hp fun _ => hsl
  have hdf := getSidePeers_slice_snd t rule.destinationResource
    rule.destinations fun _ => hds fun _ => hsl
  have hss (hin : nmd.InDestination env rule t.id) :=
    getSidePeers_slice t rule.sourceResource
      (fun g hg hn => hb.2.1 g (hc.source_groups hin g hg hn)) fun p hp =>
        hsr hp fun ha => by
          by_cases hpP : p = t.id
          · exact hpP ▸ hsl
          · exact hb.1 p (hc.source_peers hin p hpP ⟨hp, ha⟩)
  have hdl (hin : nmd.InSource env pol.sourcePostureChecks rule t.id) :=
    getSidePeers_slice t rule.destinationResource
      (fun g hg hn => hb.2.1 g (hc.dest_groups hin g hg hn)) fun p hp =>
        hds fun ha => by
          by_cases hpP : p = t.id
          · exact hpP ▸ hsl
          · exact hb.1 p (hc.dest_peers hin p hpP ⟨hp, ha⟩)
  have hiS := getSidePeers_account_snd t.id t.zone t.wf rule.sourceResource rule.sources
    pol.sourcePostureChecks t.id
  have hi := getSidePeers_account_snd t.id t.zone t.wf rule.destinationResource rule.destinations []
    t.id
  have hgn := generateRule_congr env t.peer rule st.resources hsf hdf
    (fun hd => congrArg Prod.fst (hss (hi.1 (hdf ▸ hd))))
    (fun hs => congrArg Prod.fst (hdl (hiS.1 (hsf ▸ hs))))
  unfold connectRule
  dsimp only
  rw [hgn, hdf]
  split
  · rename_i hd
    have hin : nmd.InDestination env rule t.id := hi.1 hd
    refine authorizeRule_congr (fun hu g hg => ?_) fun hu => ?_
    · have hf := congrArg NetworkMapComponents.groupIDToUserIDs (frame_collected t)
      change t.collected.frame.groupIDToUserIDs.lookup g = _
      rw [hf]
      exact AList.lookup_insertFrom_empty (hc.user_groups hin hu g hg)
    · have hf := congrArg NetworkMapComponents.allowedUserIDs (frame_collected t)
      change t.collected.frame.allowedUserIDs = _
      rw [hf]
      exact if_pos (hc.allowed_users hin hu)
  · rfl

end

/-- So do all policies. -/
theorem connections_slice : t.slice.getPeerConnectionResources env t.id =
      t.account.getPeerConnectionResources env t.id := by
  have hi := getPeerInfo_slice t (self_collected t)
  obtain ⟨ags, hpl, -⟩ :=
    relevant_policies_of_routes t.id t.peer.sshEnabled t.wf.noEmptyCheck
  have hkept : t.slice.policies = _ :=
    (policies_collected t).trans hpl
  have hrl : enabledRules t.slice.policies = (enabledRules nmd.policies).filter fun pr =>
        nmd.policyRelevant env t.id ags pr.1 := by
    rw [hkept, enabledRules_filter]
  unfold getPeerConnectionResources
  rw [hi, t.getPeerInfo_self]
  calc (enabledRules t.slice.policies).foldl
        (fun st pr => t.slice.connectRule env t.peer t.id
          pr.1.sourcePostureChecks st pr.2) {}
    _ = (enabledRules t.slice.policies).foldl
        (fun st pr => t.account.connectRule env t.peer t.id
          pr.1.sourcePostureChecks st pr.2) {} := by
      refine foldl_ext _ _ _ fun st pr hpr => ?_
      obtain ⟨hp, he, hr, hre⟩ := mem_enabledRules.1 hpr
      have ha : pr.1 ∈ nmd.policies := by
        rw [hkept] at hp
        exact (mem_filter.1 (mem_filter.1 hp).1).1
      exact connectRule_slice t ha he hr hre hp st
    _ = (enabledRules nmd.policies).foldl
        (fun st pr => t.account.connectRule env t.peer t.id
          pr.1.sourcePostureChecks st pr.2) {} := by
      rw [hrl]
      refine foldl_filter_eq (fun st pr hpr hno => ?_) _
      obtain ⟨-, -, hr, hre⟩ := mem_enabledRules.1 hpr
      exact connectRule_irrelevant t.wf hr hre hno st

end

end NetworkMapData

end Cloink
