import Cloink.AffectedPeers.SameMap

/-!
# Access to the routes a peer serves

A peer that serves a route with access-control groups has firewall rules for the peers that may use
it: those the route is distributed to and that a rule leads from to one of these groups. Of these it
has only the ones of its slice, so that the rules stay the same as long as no peer that may use the
route enters or leaves the slice.
-/

namespace Cloink

open NetworkMapComponents List

namespace NetworkMapData

/-- A route that the peer serves is distributed to the other peer, and an enabled rule leads from
that one to an access-control group of the route. -/
def MayUse (nmd : NetworkMapData) (env : Env) (P q : String) : Prop :=
  ∃ r ∈ nmd.routes, r.enabled ∧ r.ServedBy nmd.groups P ∧ InGroups nmd.groups r.groups q ∧
    ∃ ag ∈ r.accessControlGroups, ∃ policy ∈ nmd.policies, policy.enabled ∧
      ∃ rule ∈ policy.rules, rule.enabled ∧ ag ∈ rule.destinations ∧
        q ∈ sideIDs nmd.groups rule.sourceResource rule.sources ∧
        nmd.Admits env policy.sourcePostureChecks q

variable {nmd nmd' : NetworkMapData} {env : Env}

theorem mem_distribution_iff {t : nmd.Target env} {r : Route} {q : String} :
    q ∈ t.known.getDistributionGroupsPeers r ↔ InGroups nmd.groups r.groups q := by
  rw [mem_distributionPeers]
  refine exists_congr fun gid => and_congr_right fun _ => ?_
  change q ∈ (nmd.groups.lookup gid).elim [] (·.peers) ↔ _
  cases nmd.groups.lookup gid <;> simp

namespace Twin

variable (t : Twin nmd nmd' env) (hall : ∀ q ∈ nmd.peers, AllHolds nmd.groups q)

include hall

theorem getRulePeers {pol : Policy} {rule : PolicyRule}
    (hex : rule.sourceResource.isPeer → rule.sources = []) {r : Route}
    (hk : ∀ q, InGroups nmd.groups r.groups q →
      q ∈ sideIDs nmd.groups rule.sourceResource rule.sources →
      nmd.Admits env pol.sourcePostureChecks q →
      (q ∈ t.other.collected.peers ↔ q ∈ t.collected.peers)) :
    t.other.known.getRulePeers rule pol.sourcePostureChecks t.id
        (t.other.known.getDistributionGroupsPeers r) =
      t.known.getRulePeers rule pol.sourcePostureChecks t.id
        (t.known.getDistributionGroupsPeers r) := by
  have hmm (gid : String) :
      t.other.known.groupMembers gid = (t.known.groupMembers gid).filter fun _ => true :=
    (congrArg (fun groups => (groups.lookup gid).elim [] (·.peers)) t.store.groups).trans
      (filter_true _).symm
  refine getRulePeers_congr (fun gid _ => hmm gid) (fun _ _ _ => rfl) (fun q hq => ?_)
    fun q hv' hv => ?_
  · rw [Bool.eq_iff_iff, Bool.and_eq_true, Bool.and_eq_true, contains_iff_mem,
      contains_iff_mem, mem_distribution_iff, mem_distribution_iff, t.store.groups,
      validate_known, validate_known, t.admits_iff]
    refine and_congr_right fun hin => and_congr_left fun ha => ?_
    exact hk q hin (mem_sideIDs_of_names t.toTarget hex (hall q ha.1) hq) ha
  · rw [getPeerInfo_known t.other ((validate_known _).1 hv').1,
      getPeerInfo_known t.toTarget ((validate_known _).1 hv).1, t.store.peers]

/-- The firewall rules of the routes a peer serves, when the same rules control the access to them
and no peer that may use one of them is in the slice of one state only. -/
theorem routeRules (hsn : ∀ pol ∈ nmd.policies, pol.SingleRule)
    (hrl : ∀ r ∈ nmd.routes, r.enabled → r.ServedBy nmd.groups t.id → ∀ ag ∈ r.accessControlGroups,
        enabledRules (t.account'.getAllRoutePoliciesFromGroups [ag]) =
          enabledRules (t.account.getAllRoutePoliciesFromGroups [ag]))
    (hk : ∀ q, nmd.MayUse env t.id q → (q ∈ t.other.collected.peers ↔ q ∈ t.collected.peers))
    (v6 : Bool) : t.other.known.getPeerRoutesFirewallRules t.id v6 =
      t.known.getPeerRoutesFirewallRules t.id v6 := by
  refine routeRules_congr hsn ?_ (fun r hr ag hag => ?_)
    (fun r hr ag hag pol _ hpl hpe rule hru hre hd hex => ?_) v6
  · rw [routingRoutes_known t.other, routingRoutes_known, t.routingRoutes]
  · obtain ⟨r₀, hr₀, hen, hsr, -, hac⟩ := exists_served_of_mem t.toTarget hr
    exact hrl r₀ hr₀ hen hsr ag (hac ▸ hag)
  · obtain ⟨r₀, hr₀, hen, hsr, hg, hac⟩ := exists_served_of_mem t.toTarget hr
    refine t.getRulePeers hall hex fun q hin hsd ha => hk q ?_
    exact ⟨r₀, hr₀, hen, hsr, hg ▸ hin, ag, hac ▸ hag, pol, hpl, hpe, rule, hru, hre, hd, hsd, ha⟩

end Twin

end NetworkMapData

end Cloink
