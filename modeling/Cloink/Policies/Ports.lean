import Cloink.Policies.SavePolicy
import Cloink.Wire.Decode
import Cloink.Wire.Encode

/-!
# Ports of policy rules on the wire

The ports of a rule pass three parsers: the HTTP interface accepts what `Atoi` reads as a number in
1..65535 and converts port ranges to `uint16`; the encoder of the components drops ports that
`ParseUint` does not read, which are those with a plus sign; the client takes a rule without ports
for one without a restriction.
-/

namespace Cloink

open List Strconv UInt16 PolicyRuleUpdate PortRangeUpdate ComponentEncoder

def RulePortRange.denotes (pr : RulePortRange) (n : Int) : Prop :=
  pr.startPort.toNat ≤ n ∧ n ≤ pr.endPort.toNat

def PortRangeUpdate.names (u : PortRangeUpdate) (n : Int) : Prop :=
  u.startPort ≤ n ∧ n ≤ u.endPort

/-- The ports a rule admits: all when it lists neither ports nor ranges, and its ranges only when
it lists no ports. -/
def PolicyRule.admitsPort (r : PolicyRule) (n : Nat) : Prop :=
  if r.ports = [] then r.portRanges = [] ∨ ∃ pr ∈ r.portRanges, pr.denotes n
  else ∃ p ∈ r.ports, parseUint 16 p = some n

/-- The ports a request names. -/
def PolicyRuleUpdate.namesPort (req : PolicyRuleUpdate) (n : Nat) : Prop :=
  (req.ports = [] ∧ req.portRanges = []) ∨
    (∃ p ∈ req.ports, atoi p = some (n : Int)) ∨ ∃ u ∈ req.portRanges, u.names n

/-- The decoded rule `r` admits the ports that the request names, is restricted when the request
is, and has ranges that denote the requested integers. -/
structure PortsSurvive (req : PolicyRuleUpdate) (r : PolicyRule) : Prop where
  admits : ∀ n, r.admitsPort n ↔ req.namesPort n
  restricted : req.ports ≠ [] ∨ req.portRanges ≠ [] → r.ports ≠ [] ∨ r.portRanges ≠ []
  ranges : List.Forall₂ (fun u pr => ∀ n, pr.denotes n ↔ u.names n) req.portRanges r.portRanges

/-- Every port is also written without a plus sign, and every range is increasing or stays empty
when its ends are converted. -/
structure PolicyRuleUpdate.PortsPlain (req : PolicyRuleUpdate) : Prop where
  ports : ∀ p ∈ req.ports, ∃ q ∈ req.ports, atoi q = atoi p ∧ q.toList.head? ≠ some '+'
  ranges : ∀ u ∈ req.portRanges, u.startPort ≤ u.endPort ∨
    (ofInt u.endPort).toNat < (ofInt u.startPort).toNat

/-! ### Ranges -/

theorem toNat_ofInt_uint16 (n : Int) : ((ofInt n).toNat : Int) = n % 65536 := by
  have hlt : (n % 65536).toNat < 65536 := by omega
  have hv : (ofInt n).toNat = (n % 65536).toNat % 65536 := rfl
  rw [hv, Nat.mod_eq_of_lt hlt]
  omega

/-- A range that was accepted denotes the requested integers when it is increasing, or when both
what is stored and what was requested is empty. -/
theorem denotes_toRulePortRange_iff {u : PortRangeUpdate} (hu : u.valid) :
    (∀ n, u.toRulePortRange.denotes n ↔ u.names n) ↔
      (u.startPort ≤ u.endPort ∨ (ofInt u.endPort).toNat < (ofInt u.startPort).toNat) := by
  have hs := toNat_ofInt_uint16 u.startPort
  have he := toNat_ofInt_uint16 u.endPort
  obtain ⟨hst, hen⟩ : 1 ≤ u.startPort ∧ u.endPort ≤ 65535 := by
    simpa [valid] using hu
  simp only [RulePortRange.denotes, toRulePortRange, names]
  constructor
  · intro h
    have hf := h ((ofInt u.startPort).toNat : Int)
    omega
  · intro h n
    omega

/-! ### What is decoded -/

theorem portRanges_roundTrip (ranges : List RulePortRange) :
    portRangesFromProto (portRangesToProto ranges) = ranges := by
  have hf (p : UInt16) : ¬p.toUInt32 > 65535 := by
    have hlt := p.toNat_lt
    rw [gt_iff_lt, UInt32.lt_iff_toNat_lt, toNat_toUInt32]
    change ¬65535 < p.toNat
    omega
  unfold portRangesFromProto portRangesToProto
  rw [filterMap_map]
  conv_rhs => rw [← filterMap_some (l := ranges)]
  apply filterMap_congr
  intro r _
  simp [hf]

theorem exists_mem_decoded_iff {ports : List String} {n : Nat} :
    (∃ p ∈ uint32SliceToStrings (portsToUint32 ports), parseUint 16 p = some n) ↔
      ∃ p ∈ ports, parseUint 16 p = some n := by
  have hv {p : String} {m : Nat} (h : parseUint 16 p = some m) :
      parseUint 16 ((UInt32.ofNat m).toNat.repr) = some m := by
    have hlt : m < 2 ^ 16 := by
      have := (Option.filter_eq_some_iff.1 h).2
      simpa using this
    rw [UInt32.toNat_ofNat_of_lt' (show m < 2 ^ 32 by omega), parseUint_repr hlt]
  simp only [uint32SliceToStrings, portsToUint32, mem_map, mem_filterMap, Option.map_eq_some_iff]
  constructor
  · rintro ⟨_, ⟨_, ⟨p, hp, m, hm, rfl⟩, rfl⟩, hn⟩
    rw [hv hm] at hn
    exact ⟨p, hp, hm.trans hn⟩
  · rintro ⟨p, hp, hn⟩
    exact ⟨_, ⟨_, ⟨p, hp, n, hn, rfl⟩, rfl⟩, hv hn⟩

theorem decoded_eq_nil_iff {ports : List String} : uint32SliceToStrings (portsToUint32 ports) = [] ↔
      ∀ p ∈ ports, parseUint 16 p = none := by
  simp [uint32SliceToStrings, portsToUint32]

/-! ### Ports -/

section

variable {req : PolicyRuleUpdate} {r r' : PolicyRule} (haccepted : req.AcceptedPorts r)
  (hports : r'.ports = uint32SliceToStrings (portsToUint32 r.ports))
  (hranges : r'.portRanges = r.portRanges)

include haccepted

theorem exists_atoi_of_mem {p : String} (hp : p ∈ req.ports) :
    ∃ n : Nat, atoi p = some (n : Int) ∧ 1 ≤ n ∧ n ≤ 65535 := by
  have hv := haccepted.valid_ports p hp
  unfold validPort at hv
  split at hv
  · rename_i m hm
    have hb : 1 ≤ m ∧ m ≤ 65535 := by simpa using hv
    refine ⟨m.toNat, ?_, by omega, by omega⟩
    rw [hm, Int.toNat_of_nonneg (by omega)]
  · cases hv

theorem parseUint_iff_atoi {p : String} (hp : p ∈ req.ports) {n : Nat} : parseUint 16 p = some n ↔
      atoi p = some (n : Int) ∧ p.toList.head? ≠ some '+' := by
  obtain ⟨m, hm, hb⟩ := exists_atoi_of_mem haccepted hp
  by_cases hn : 0 < n
  · rw [parseUint_eq_some_iff (by omega) hn, hm, Option.some.injEq]
    constructor
    · rintro ⟨h, -, hpl⟩
      exact ⟨h, hpl⟩
    · rintro ⟨h, hpl⟩
      exact ⟨h, by omega, hpl⟩
  · -- zero is not read by `Atoi`, and would be by both
    obtain rfl : n = 0 := by omega
    rw [hm, Option.some.injEq]
    constructor
    · intro h
      have hz := atoi_of_parseUint h (by omega)
      rw [hm, Option.some.injEq] at hz
      omega
    · rintro ⟨h, -⟩
      omega

include hports hranges

/-- With ports, the decoded rule survives exactly when each port is also written without a
sign. -/
theorem portsSurvive_iff_of_ports (hne : req.ports ≠ []) :
    PortsSurvive req r' ↔ req.PortsPlain := by
  have hnl : req.portRanges = [] := haccepted.one_kind.resolve_left hne
  have hr' : r'.portRanges = [] := by rw [hranges, haccepted.portRanges, hnl]; rfl
  have hd : r'.ports = [] ↔ ∀ p ∈ req.ports, parseUint 16 p = none := by
    rw [hports, haccepted.ports, decoded_eq_nil_iff]
  have hnm (n : Nat) : req.namesPort n ↔ ∃ p ∈ req.ports, atoi p = some (n : Int) := by
    simp [namesPort, hne, hnl]
  have ha (n : Nat) (h : r'.ports ≠ []) :
      r'.admitsPort n ↔ ∃ p ∈ req.ports, parseUint 16 p = some n := by
    rw [PolicyRule.admitsPort, if_neg h, hports, haccepted.ports, exists_mem_decoded_iff]
  constructor
  · intro h
    have hl : r'.ports ≠ [] := (h.restricted (.inl hne)).resolve_right fun hr => hr hr'
    refine ⟨fun p hp => ?_, by simp [hnl]⟩
    obtain ⟨n, hn, -⟩ := exists_atoi_of_mem haccepted hp
    obtain ⟨q, hq, hqn⟩ := (ha n hl).1 ((h.admits n).2 ((hnm n).2 ⟨p, hp, hn⟩))
    obtain ⟨hat, hpl⟩ := (parseUint_iff_atoi haccepted hq).1 hqn
    exact ⟨q, hq, hat.trans hn.symm, hpl⟩
  · intro h
    have hpla {p : String} (hp : p ∈ req.ports) {n : Nat} (hn : atoi p = some (n : Int)) :
        ∃ q ∈ req.ports, parseUint 16 q = some n := by
      obtain ⟨q, hq, hqp, hpl⟩ := h.ports p hp
      exact ⟨q, hq, (parseUint_iff_atoi haccepted hq).2 ⟨hqp.trans hn, hpl⟩⟩
    have hl : r'.ports ≠ [] := by
      intro he
      obtain ⟨p, hp⟩ := exists_mem_of_ne_nil _ hne
      obtain ⟨n, hn, -⟩ := exists_atoi_of_mem haccepted hp
      obtain ⟨q, hq, hqn⟩ := hpla hp hn
      rw [hd.1 he q hq] at hqn
      cases hqn
    refine ⟨fun n => ?_, fun _ => .inl hl, by rw [hnl, hr']; exact .nil⟩
    rw [ha n hl, hnm n]
    constructor
    · rintro ⟨p, hp, hpn⟩
      exact ⟨p, hp, ((parseUint_iff_atoi haccepted hp).1 hpn).1⟩
    · rintro ⟨p, hp, hpn⟩
      exact hpla hp hpn

theorem portsSurvive_iff_of_no_ports (hn : req.ports = []) :
    PortsSurvive req r' ↔ req.PortsPlain := by
  have hr' : r'.ports = [] := by rw [hports, haccepted.ports, hn]; rfl
  have hs := hranges.trans haccepted.portRanges
  have hi : List.Forall₂ (fun u pr => ∀ n, pr.denotes n ↔ u.names n) req.portRanges
      r'.portRanges ↔ ∀ u ∈ req.portRanges, u.startPort ≤ u.endPort ∨
        (ofInt u.endPort).toNat < (ofInt u.startPort).toNat := by
    rw [hs, forall₂_map_right_iff, forall₂_same]
    exact forall₂_congr fun u hu => denotes_toRulePortRange_iff (haccepted.valid_ranges u hu)
  constructor
  · intro h
    exact ⟨by simp [hn], hi.1 h.ranges⟩
  · intro h
    have hsm := hi.2 h.ranges
    have hem : r'.portRanges = [] ↔ req.portRanges = [] := by rw [hs, map_eq_nil_iff]
    refine ⟨fun n => ?_, ?_, hsm⟩
    · rw [PolicyRule.admitsPort, if_pos hr', namesPort, hem]
      rw [hs, forall₂_map_right_iff, forall₂_same] at hsm
      simp only [hn, hs, mem_map, exists_exists_and_eq_and, true_and,
        not_mem_nil, false_and, exists_false, false_or]
      exact or_congr_right (exists_congr fun u => and_congr_right fun hu => hsm u hu n)
    · rintro (hp | hp)
      · exact absurd hn hp
      · exact .inr fun he => hp (hem.1 he)

end

/-! ### The whole way -/

/-- Every enabled rule of an enabled policy reaches the client: its message has a place in the
envelope, and the policy at this place is the one decoded from the message. -/
theorem exists_policies_decodeEnvelope {c : NetworkMapComponents} (hc : c.empty = false)
    {pol : Policy} (hp : pol ∈ unionPolicies c.policies c.resourcePoliciesMap)
    (he : pol.enabled) {r : PolicyRule} (hr : r ∈ pol.rules) (hrl : r.enabled) :
    ∃ (i : Nat) (peerIDs : List String),
      (encodeNetworkMapEnvelope c).policies[i]? = some ((build c).encodePolicyRule pol r) ∧
      (decodeEnvelope (encodeNetworkMapEnvelope c)).policies[i]? =
        some (decodePolicyCompact ((build c).encodePolicyRule pol r) pol.publicID peerIDs) := by
  have hm : (build c).encodePolicyRule pol r ∈ (encodeNetworkMapEnvelope c).policies := by
    unfold encodeNetworkMapEnvelope
    rw [if_neg (by simp [hc])]
    refine mem_flatMap.2 ⟨pol, mem_filter.2 ⟨hp, he⟩, ?_⟩
    exact mem_map.2 ⟨r, mem_filter.2 ⟨hr, hrl⟩, rfl⟩
  obtain ⟨i, hi⟩ := mem_iff_getElem?.1 hm
  refine ⟨i, (encodeNetworkMapEnvelope c).peers.map wirePeerID, hi, ?_⟩
  change (map _ _)[i]? = _
  rw [getElem?_map, hi]
  rfl

/-- A rule with the ports of an accepted request reaches the client as the rule of a policy under
the public id, at the place of its message; its ports survive exactly when the request is plain. -/
theorem exists_portsSurvive_iff {req : PolicyRuleUpdate} {policyID : String} {saved : PolicyRule}
    (haccepted : req.toPolicyRule policyID = .ok saved) {c : NetworkMapComponents}
    (hc : c.empty = false) {pol : Policy}
    (hpol : pol ∈ unionPolicies c.policies c.resourcePoliciesMap) (henabled : pol.enabled)
    {r : PolicyRule} (hr : r ∈ pol.rules) (hrule : r.enabled) (hports : r.ports = saved.ports)
    (hranges : r.portRanges = saved.portRanges) :
    ∃ (i : Nat) (pol' : Policy) (r' : PolicyRule),
      (encodeNetworkMapEnvelope c).policies[i]? = some ((build c).encodePolicyRule pol r) ∧
      (decodeEnvelope (encodeNetworkMapEnvelope c)).policies[i]? = some pol' ∧
      pol'.publicID = pol.publicID ∧ pol'.rules = [r'] ∧ (PortsSurvive req r' ↔ req.PortsPlain) := by
  have hs := acceptedPorts_of_toPolicyRule haccepted
  have ha : req.AcceptedPorts r :=
    { hs with
      ports := hports.trans hs.ports
      portRanges := hranges.trans hs.portRanges }
  obtain ⟨i, peerIDs, he, hd⟩ := exists_policies_decodeEnvelope hc hpol henabled hr hrule
  refine ⟨i, _, _, he, hd, rfl, rfl, ?_⟩
  by_cases hn : req.ports = []
  · exact portsSurvive_iff_of_no_ports ha rfl (portRanges_roundTrip _) hn
  · exact portsSurvive_iff_of_ports ha rfl (portRanges_roundTrip _) hn

/-- A request for access to some TCP ports. -/
def tcpRequest (ports : List String) : PolicyRuleUpdate where
  protocol := policyRuleProtocolTCP
  sources := some ["g1"]
  destinations := some ["g1"]
  ports := ports

def tcpRule (ports : List String) : PolicyRule where
  id := ""
  protocol := policyRuleProtocolTCP
  sources := ["g1"]
  destinations := ["g1"]
  ports := ports

/-- Components with one policy for the ports. -/
def tcpComponents (ports : List String) : NetworkMapComponents where
  peerID := "p1"
  policies := [{ id := "pol1", publicID := "pub1", rules := [tcpRule ports] }]

/-- The port `+80` is accepted, dropped by the encoder and read as access to all ports. -/
theorem plus_port_admits_all : (tcpRequest ["+80"]).toPolicyRule "" = .ok (tcpRule ["+80"]) ∧
    ∃ pol' ∈ (decodeEnvelope (encodeNetworkMapEnvelope (tcpComponents ["+80"]))).policies, ∃ r',
      pol'.rules = [r'] ∧ (∀ n, r'.admitsPort n) ∧ ¬(tcpRequest ["+80"]).namesPort 22 := by
  refine ⟨by rfl, _, mem_singleton.2 rfl, _, rfl, fun n => ?_, ?_⟩
  · exact (if_pos (by decide +kernel)).mpr (.inl rfl)
  · have ha : atoi "+80" = some 80 := by decide +kernel
    simp [namesPort, tcpRequest, ha]

theorem exists_portsSurvive_tcpRequest :
    (tcpRequest ["080", "443"]).toPolicyRule "" = .ok (tcpRule ["080", "443"]) ∧
    ∃ (i : Nat) (pol' : Policy) (r' : PolicyRule),
      (decodeEnvelope (encodeNetworkMapEnvelope (tcpComponents ["080", "443"]))).policies[i]? =
        some pol' ∧
      pol'.publicID = "pub1" ∧ pol'.rules = [r'] ∧
      PortsSurvive (tcpRequest ["080", "443"]) r' := by
  have haccepted : (tcpRequest ["080", "443"]).toPolicyRule "" = .ok (tcpRule ["080", "443"]) := by
    rfl
  have hpl : (tcpRequest ["080", "443"]).PortsPlain := by
    refine ⟨fun p hp => ⟨p, hp, rfl, ?_⟩, by simp [tcpRequest]⟩
    rcases (by simpa [tcpRequest] using hp : p = "080" ∨ p = "443") with rfl | rfl
    · decide
    · decide
  obtain ⟨i, pol', r', -, hd, hid, hr, hi⟩ := exists_portsSurvive_iff haccepted
    (c := tcpComponents ["080", "443"]) rfl (mem_singleton.2 rfl) rfl
    (mem_singleton.2 rfl) rfl rfl rfl
  exact ⟨haccepted, i, pol', r', hd, hid, hr, hi.2 hpl⟩

end Cloink
