import Cloink.Wire.FirewallRules

/-!
# Sources of firewall rules

The client takes the sources of a firewall rule from the compact prefixes of the message, or from
its legacy address when there are none (`client/internal/acl`). It takes the whole address of a
prefix as the source, whatever length was sent, so a rule for all peers is read as one for the
unspecified address alone.
-/

namespace Cloink

open Netip List Option Addr

/-- The host prefix of an address of which the length was thrown away. -/
def hostPrefix (addr : Addr) : Prefix := prefixFrom addr.unmap addr.unmap.bitLen

def extractRuleSources (r : Proto.FirewallRule) : Option (List Prefix) :=
  if !r.sourcePrefixes.isEmpty then
    r.sourcePrefixes.mapM fun raw => (decodeAddr raw).map hostPrefix
  else
    (parseAddr r.peerIP).map fun addr =>
      let addr := addr.unmap
      if addr.isUnspecified then [prefixFrom addr 0] else [prefixFrom addr addr.bitLen]

/-- The prefixes that the message carries. -/
def encodedSources (r : Proto.FirewallRule) : Option (List Prefix) :=
  r.sourcePrefixes.mapM decodePrefix

/-- The message for clients that know the legacy address only. -/
def legacyRule (r : Proto.FirewallRule) : Proto.FirewallRule := { r with sourcePrefixes := [] }

/-- The sources that a rule for the address means, one in each message: all addresses of a family
if it is the unspecified address, and the host otherwise. -/
def meantSources (addr : Addr) : List Prefix :=
  if addr.unmap.isUnspecified then [prefixFrom ipv6Unspecified 0, prefixFrom ipv4Unspecified 0]
  else [hostPrefix addr]

/-- The client recovers a prefix that the rule for the address means, which is the one that the
message carries and the one of its legacy address. -/
structure SourcesSurvive (addr : Addr) (r : Proto.FirewallRule) : Prop where
  meant : ∃ p ∈ meantSources addr, extractRuleSources r = some [p]
  recovered : extractRuleSources r = encodedSources r
  legacy : extractRuleSources r = extractRuleSources (legacyRule r)

/-! ### Messages with a source -/

theorem withPortRange_sources (fw : Proto.FirewallRule) (rule : FirewallRule) :
    (withPortRange fw rule).sourcePrefixes = fw.sourcePrefixes ∧
      (withPortRange fw rule).peerIP = fw.peerIP := by
  unfold withPortRange
  split <;> exact ⟨rfl, rfl⟩

theorem extract_encodeAddr {r : Proto.FirewallRule} {addr : Addr} (hv : addr.isValid)
    (hs : r.sourcePrefixes = [(encodeAddr addr.unmap).getD []]) :
    extractRuleSources r = some [hostPrefix addr] ∧ encodedSources r = some [hostPrefix addr] := by
  have hd := decodePrefix_encodeAddr ((isValid_unmap addr).trans hv)
  rw [unmap_unmap] at hd
  cases he : encodeAddr addr.unmap with
  | none => simp [he] at hd
  | some raw =>
    rw [he, bind_some] at hd
    rw [he, getD_some] at hs
    have hh : hostPrefix (prefixFrom addr.unmap addr.unmap.bitLen).addr = hostPrefix addr := by
      change prefixFrom addr.unmap.withoutZone.unmap addr.unmap.withoutZone.unmap.bitLen = _
      rw [unmap_withoutZone, unmap_unmap, bitLen_withoutZone, prefixFrom_withoutZone]
      rfl
    constructor
    · simp [extractRuleSources, hs, decodeAddr, hd, hh]
    · simp [encodedSources, hs, hd, hostPrefix]

theorem extract_legacyRule {r : Proto.FirewallRule} {addr : Addr}
    (haddr : parseAddr r.peerIP = some addr) : extractRuleSources (legacyRule r) =
      some [if addr.unmap.isUnspecified then prefixFrom addr.unmap 0 else hostPrefix addr] := by
  have hl : parseAddr (legacyRule r).peerIP = some addr := haddr
  unfold extractRuleSources
  rw [if_neg (by simp [legacyRule]), hl, map_some, hostPrefix]
  dsimp only
  split <;> rfl

/-! ### What the conversion sends -/

section

variable {rule : FirewallRule} {addr : Addr} (haddr : parseAddr rule.peerIP = some addr)
  (includeIPv6 : Bool)

include haddr

theorem peerIP_ne_empty : rule.peerIP ≠ "" := by
  intro he
  have hn : parseAddr "" = none := by decide
  rw [he, hn] at haddr
  cases haddr

theorem sent_of_specified (hs : addr.isUnspecified = false) {fw : Proto.FirewallRule}
    (hfw : fw ∈ toProtocolFirewallRules [rule] includeIPv6 true) :
    fw.sourcePrefixes = [(encodeAddr addr.unmap).getD []] ∧ fw.peerIP = rule.peerIP := by
  simp only [toProtocolFirewallRules, flatMap_singleton, toProtocolFirewallRule,
    populateSourcePrefixes, haddr, hs, peerIP_ne_empty haddr, ne_eq, not_false_eq_true,
    decide_true, Bool.and_true, if_true, Bool.not_false, nil_append, mem_singleton] at hfw
  subst hfw
  exact withPortRange_sources _ rule

theorem sent_of_unspecified (hs : addr.isUnspecified) :
    ∃ fw ∈ toProtocolFirewallRules [rule] includeIPv6 true,
      fw.sourcePrefixes = [[0, 0, 0, 0, 0]] := by
  simp only [toProtocolFirewallRules, flatMap_singleton, toProtocolFirewallRule,
    populateSourcePrefixes, haddr, hs, peerIP_ne_empty haddr, ne_eq, not_false_eq_true,
    decide_true, Bool.and_true, if_true, Bool.not_true, Bool.false_eq_true, if_false]
  cases includeIPv6 with
  | false => exact ⟨_, mem_singleton.2 rfl, (withPortRange_sources _ rule).1⟩
  | true => exact ⟨_, mem_append_right _ (mem_singleton.2 rfl), (withPortRange_sources _ rule).1⟩

omit haddr in
theorem prefixFrom_zero_ne_hostPrefix (hv : addr.isValid) :
    prefixFrom addr.unmap 0 ≠ hostPrefix addr := by
  have hvl : addr.unmap.isValid := (isValid_unmap addr).trans hv
  have hp : 0 ≠ addr.unmap.bitLen := by
    cases hu : addr.unmap with
    | invalid => simp [hu, isValid] at hvl
    | v4 b => simp [bitLen]
    | v6 b z => simp [bitLen]
  intro he
  have hb := congrArg Prefix.bits he
  simp only [hostPrefix, prefixFrom, hvl, Nat.zero_le, le_refl, decide_true, Bool.and_self,
    if_true, some.injEq] at hb
  exact hp hb

/-- Of the rule for one peer the client recovers the host prefix; it is the one of the legacy
address unless that address is an unspecified one. -/
theorem sourcesSurvive_of_specified (hsp : addr.isUnspecified = false)
    {fw : Proto.FirewallRule} (hfw : fw ∈ toProtocolFirewallRules [rule] includeIPv6 true) :
    SourcesSurvive addr fw ↔ addr.unmap.isUnspecified = false := by
  have hv := isValid_of_parseAddr haddr
  obtain ⟨hs, hp⟩ := sent_of_specified haddr includeIPv6 hsp hfw
  obtain ⟨he, hen⟩ := extract_encodeAddr hv hs
  have hl := extract_legacyRule (hp ▸ haddr : parseAddr fw.peerIP = some addr)
  constructor
  · intro h
    have hsm := h.legacy
    rw [he, hl] at hsm
    cases hu : addr.unmap.isUnspecified with
    | false => rfl
    | true =>
      simp only [hu, if_true, some.injEq, List.cons.injEq, and_true] at hsm
      exact absurd hsm.symm (prefixFrom_zero_ne_hostPrefix hv)
  · intro hu
    refine ⟨⟨_, ?_, he⟩, he.trans hen.symm, by rw [he, hl, hu]; rfl⟩
    simp [meantSources, hu]

/-- Of the rule for all peers the client recovers a rule for the address `0.0.0.0`. -/
theorem not_sourcesSurvive_of_unspecified (hsp : addr.isUnspecified) :
    ∃ fw ∈ toProtocolFirewallRules [rule] includeIPv6 true, ¬SourcesSurvive addr fw := by
  obtain ⟨fw, hfw, hs⟩ := sent_of_unspecified haddr includeIPv6 hsp
  refine ⟨fw, hfw, fun h => ?_⟩
  have he : extractRuleSources fw = some [prefixFrom ipv4Unspecified 32] := by
    rw [extractRuleSources, hs, if_pos (by rfl)]
    decide +kernel
  have hen : encodedSources fw = some [prefixFrom ipv4Unspecified 0] := by
    rw [encodedSources, hs]
    decide +kernel
  have hsm := h.recovered
  rw [he, hen] at hsm
  exact absurd hsm (by decide)

omit haddr in
theorem unmap_of_isUnspecified (h : addr.isUnspecified) : addr.unmap = addr := by
  rcases (by simpa [isUnspecified] using h : addr = _ ∨ addr = _) with rfl | rfl
  · rfl
  · decide

/-- The sources of a rule survive the wire exactly when its address is not the unspecified one of
its family, mapped addresses taken as IPv4 ones; they are then the host prefix of the address. -/
theorem sourcesSurvive_iff :
    (∀ fw ∈ toProtocolFirewallRules [rule] includeIPv6 true, SourcesSurvive addr fw) ↔
      addr.unmap.isUnspecified = false := by
  cases hs : addr.isUnspecified with
  | false =>
    have ho : ∀ fw ∈ toProtocolFirewallRules [rule] includeIPv6 true,
        (SourcesSurvive addr fw ↔ addr.unmap.isUnspecified = false) :=
      fun fw hfw => sourcesSurvive_of_specified haddr includeIPv6 hs hfw
    obtain ⟨fw, hfw⟩ : ∃ fw, fw ∈ toProtocolFirewallRules [rule] includeIPv6 true := by
      apply exists_mem_of_ne_nil
      simp [toProtocolFirewallRules, toProtocolFirewallRule]
    exact ⟨fun h => (ho fw hfw).1 (h fw hfw), fun hu fw' hfw' => (ho fw' hfw').2 hu⟩
  | true =>
    obtain ⟨fw, hfw, hn⟩ := not_sourcesSurvive_of_unspecified haddr includeIPv6 hs
    rw [unmap_of_isUnspecified hs, hs]
    exact ⟨fun h => absurd (h fw hfw) hn, fun h => absurd h (by decide)⟩

end

/-- The rule that lets all peers in, as the clients without peer rules get it. -/
def anyPeerRule : FirewallRule where
  policyID := "p1"
  peerIP := "0.0.0.0"
  direction := .IN
  action := policyTrafficActionAccept
  protocol := policyRuleProtocolALL

/-- A rule for all peers is sent with the sources `0.0.0.0/0`, of which the client makes
`0.0.0.0/32`; the legacy address gives it all IPv4 sources. -/
theorem any_peer_rule_admits_none : ∃ fw ∈ toProtocolFirewallRules [anyPeerRule] false true,
    encodedSources fw = some [prefixFrom ipv4Unspecified 0] ∧
      extractRuleSources (legacyRule fw) = some [prefixFrom ipv4Unspecified 0] ∧
      extractRuleSources fw = some [prefixFrom ipv4Unspecified 32] ∧
      ¬SourcesSurvive ipv4Unspecified fw := by
  refine ⟨_, mem_singleton.2 rfl, ?_, ?_, ?_, fun h => ?_⟩
  · decide +kernel
  · decide +kernel
  · decide +kernel
  · exact absurd h.recovered (by decide +kernel)

def onePeerRule : FirewallRule := { anyPeerRule with peerIP := "100.64.0.7" }

theorem sourcesSurvive_onePeerRule : parseAddr onePeerRule.peerIP = some (.v4 #v[100, 64, 0, 7]) ∧
      ∀ fw ∈ toProtocolFirewallRules [onePeerRule] true true,
        SourcesSurvive (.v4 #v[100, 64, 0, 7]) fw := by
  have haddr : parseAddr onePeerRule.peerIP = some (.v4 #v[100, 64, 0, 7]) := by decide +kernel
  exact ⟨haddr, (sourcesSurvive_iff haddr true).2 (by decide)⟩

end Cloink
