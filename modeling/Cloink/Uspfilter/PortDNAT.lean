import Cloink.Lib.Interleaving
import Cloink.Uspfilter.UDPTracker

/-!
# Translated ports

The userspace firewall translates the destination port of incoming packets by rules
(`client/firewall/uspfilter/nat.go`) and restores it in the answers. Between the two, the port is
kept in the decoder of the packet, which is taken from a pool and goes back to it. It is cleared
where the packet is tracked, and nowhere else. A translated packet that is dropped, forwarded, or
part of a connection leaves it in the decoder, and the next connection that is opened through the
decoder takes it over. The settings of the firewall are given with each packet.
-/

namespace Cloink.Uspfilter

open Netip Conntrack Interleaving List Option Marks.Keeps UDPTracker

/-! ### Packets -/

inductive Transport where
  | tcp (srcPort dstPort : UInt16) (flags : Conntrack.Flags)
  | udp (srcPort dstPort : UInt16)
  | icmp
  deriving DecidableEq

/-- A decoded packet; `ipHeaderLen` is none when the header gives no legal length. -/
structure IPPacket where
  srcIP : Addr
  dstIP : Addr
  ipHeaderLen : Option Nat
  length : Nat
  transport : Transport
  deriving DecidableEq

/-- What the header of a fragment tells. -/
inductive FragmentPart where
  | unreadable
  /-- a fragment with an offset, and whether it is dropped -/
  | trailing (dropped : Bool)
  /-- a first fragment, decoded unless its transport header is not complete -/
  | first (p : Option IPPacket)

inductive RawPacket where
  | undecodable
  | fragment (srcIP : Addr) (part : FragmentPart)
  | decoded (p : IPPacket)

/-- The bytes of the transport header that a rewrite of a port needs. -/
def Transport.rewriteLen : Transport → Nat
  | .tcp _ _ _ => 4
  | .udp _ _ => 8
  | .icmp => 0

/-- `rewriteTCPPort`, `rewriteUDPPort`; none for an error. -/
def IPPacket.rewritePort (p : IPPacket) (transport : Transport) : Option IPPacket :=
  match p.ipHeaderLen with
  | none => none
  | some hdrLen =>
    if p.length < hdrLen + p.transport.rewriteLen then none else some { p with transport }

def IPPacket.rewriteDstPort (p : IPPacket) (newPort : UInt16) : Option IPPacket :=
  match p.transport with
  | .tcp srcPort _ flags => p.rewritePort (.tcp srcPort newPort flags)
  | .udp srcPort _ => p.rewritePort (.udp srcPort newPort)
  | .icmp => none

def IPPacket.rewriteSrcPort (p : IPPacket) (newPort : UInt16) : Option IPPacket :=
  match p.transport with
  | .tcp _ dstPort flags => p.rewritePort (.tcp newPort dstPort flags)
  | .udp _ dstPort => p.rewritePort (.udp newPort dstPort)
  | .icmp => none

/-! ### Rules -/

inductive Protocol where
  | tcp
  | udp
  deriving DecidableEq

structure PortDNATRule where
  protocol : Protocol
  origPort : UInt16
  targetPort : UInt16
  targetIP : Addr
  deriving DecidableEq

/-- The packet with its destination port rewritten, and the rule. -/
def applyPortRule (p : IPPacket) (srcIP : Addr) (port : UInt16) (protocol : Protocol) :
    List PortDNATRule → Option (IPPacket × PortDNATRule)
  | [] => none
  | rule :: rules =>
    if rule.protocol ≠ protocol ∨ rule.targetIP ≠ p.dstIP then
      applyPortRule p srcIP port protocol rules
    else if rule.targetPort = port ∧ rule.targetIP = srcIP then none
    else if rule.origPort ≠ port then applyPortRule p srcIP port protocol rules
    else (p.rewriteDstPort rule.targetPort).map fun p => (p, rule)

/-- The settings and tables of the firewall that a packet meets, apart from the connections:
`reverseDNAT` and `outboundDNAT` are the addresses that the source of an incoming and the
destination of an outgoing packet are rewritten to, `redecodes` says that the rewritten packet can
be decoded again. -/
structure Manager where
  portDNATEnabled : Bool := false
  portDNATRules : List PortDNATRule := []
  reverseDNAT : IPPacket → Option Addr := fun _ => none
  outboundDNAT : IPPacket → Option Addr := fun _ => none
  redecodes : IPPacket → Bool := fun _ => true
  stateful : Bool := true
  icmpTracked : IPPacket → Bool := fun _ => false
  isLocalIP : Addr → Bool := fun _ => true
  peerACLsBlock : IPPacket → Bool := fun _ => false
  shouldForward : IPPacket → Bool := fun _ => false
  routingEnabled : Bool := false
  nativeRouter : Bool := false
  routeACLsPass : IPPacket → Bool := fun _ => false
  hooksDrop : IPPacket → Bool := fun _ => false

structure TrackerConfig where
  tcp : TCPConfig
  udp : UDPConfig

structure Trackers where
  tcp : TCPTracker := {}
  udp : UDPTracker := {}

namespace Trackers

variable (cfg : TrackerConfig) (ct : Trackers)

/-- Records an incoming packet; `d` is the port in its decoder. -/
def trackInbound (p : IPPacket) (d : UInt16) (now : Int) (order : List ConnKey) : Trackers :=
  match p.transport with
  | .tcp srcPort dstPort flags =>
    let packet := ⟨p.srcIP, p.dstIP, srcPort, dstPort, flags⟩
    { ct with tcp := ct.tcp.trackInbound cfg.tcp packet d now order }
  | .udp srcPort dstPort =>
    let key := ⟨p.srcIP, p.dstIP, srcPort, dstPort⟩
    { ct with udp := ct.udp.trackInbound cfg.udp key d now order }
  | .icmp => ct

/-- Records an outgoing packet and returns the port to restore. -/
def trackOutbound (p : IPPacket) (now : Int) (order : List ConnKey) : UInt16 × Trackers :=
  match p.transport with
  | .tcp srcPort dstPort flags =>
    let (origPort, tcp) :=
      ct.tcp.trackOutbound cfg.tcp ⟨p.srcIP, p.dstIP, srcPort, dstPort, flags⟩ now order
    (origPort, { ct with tcp })
  | .udp srcPort dstPort =>
    let (origPort, udp) :=
      ct.udp.trackOutbound cfg.udp ⟨p.srcIP, p.dstIP, srcPort, dstPort⟩ now order
    (origPort, { ct with udp })
  | .icmp => (0, ct)

end Trackers

namespace Manager

variable (cfg : TrackerConfig) (m : Manager)

def translateInboundPortDNAT (p : IPPacket) : Option (IPPacket × PortDNATRule) :=
  if !m.portDNATEnabled then none
  else match p.transport with
    | .tcp _ dstPort _ => applyPortRule p p.srcIP dstPort .tcp m.portDNATRules
    | .udp _ dstPort => applyPortRule p .invalid dstPort .udp m.portDNATRules
    | .icmp => none

/-- The packet after `translateInboundReverse`; none when it cannot be decoded again. -/
def translateInboundReverse (p : IPPacket) : Option IPPacket :=
  match m.reverseDNAT p with
  | none => some p
  | some srcIP => if m.redecodes { p with srcIP } then some { p with srcIP } else none

def isValidTrackedConnection (ct : Trackers) (p : IPPacket) (now : Int) : Bool × Trackers :=
  match p.transport with
  | .tcp srcPort dstPort flags =>
    let (valid, tcp) := ct.tcp.isValidInbound ⟨p.srcIP, p.dstIP, srcPort, dstPort, flags⟩ now
    (valid, { ct with tcp })
  | .udp srcPort dstPort =>
    let (valid, udp) := ct.udp.isValidInbound cfg.udp ⟨p.srcIP, p.dstIP, srcPort, dstPort⟩ now
    (valid, { ct with udp })
  | .icmp => (m.icmpTracked p, ct)

/-- Asks the trackers, if the firewall keeps state. -/
def isTracked (ct : Trackers) (p : IPPacket) (now : Int) : Bool × Trackers :=
  if m.stateful then m.isValidTrackedConnection cfg ct p now else (false, ct)

/-- The verdict of an incoming packet (`true` for drop), the connections, and the port that its
decoder is left with. -/
abbrev Outcome := Bool × Trackers × UInt16

variable (ct : Trackers) (p : IPPacket) (d : UInt16) (now : Int) (order : List ConnKey)

def handleLocalTraffic : Outcome :=
  if m.peerACLsBlock p then (true, ct, d)
  else if m.shouldForward p then (true, ct, d)
  else (false, ct.trackInbound cfg p d now order, 0)

def handleRoutedTraffic : Outcome :=
  if !m.routingEnabled then (true, ct, d)
  else if m.nativeRouter then (false, ct.trackInbound cfg p d now order, 0)
  -- dropped by the rules, or handed to the forwarder
  else (true, ct, d)

/-- The part of `filterInboundDecoded` after the translations. -/
def filterTranslated : Outcome :=
  let (valid, ct) := m.isTracked cfg ct p now
  if valid then (false, ct, d)
  else if m.isLocalIP p.dstIP then m.handleLocalTraffic cfg ct p d now order
  else m.handleRoutedTraffic cfg ct p d now order

def filterReversed : Outcome :=
  match m.translateInboundReverse p with
  | none => (true, ct, d)
  | some p => m.filterTranslated cfg ct p d now order

def filterInboundDecoded : Outcome :=
  match m.translateInboundPortDNAT p with
  | none => m.filterReversed cfg ct p d now order
  | some (p, rule) =>
    if m.redecodes p then m.filterReversed cfg ct p rule.origPort now order
    else (true, ct, rule.origPort)

def filterFirstFragment : Outcome :=
  let (valid, ct) := m.isTracked cfg ct p now
  if valid then (false, ct, d)
  else if m.isLocalIP p.dstIP then
    if m.peerACLsBlock p then (true, ct, d) else (false, ct.trackInbound cfg p d now order, 0)
  else if !m.routingEnabled then (true, ct, d)
  else if m.nativeRouter then (false, ct.trackInbound cfg p d now order, 0)
  else (!m.routeACLsPass p, ct, d)

def filterInbound (ct : Trackers) (raw : RawPacket) (d : UInt16) (now : Int)
    (order : List ConnKey) : Outcome :=
  match raw with
  | .undecodable => (true, ct, d)
  | .fragment srcIP part =>
    if !srcIP.isValid then (true, ct, d)
    else match part with
      | .unreadable => (true, ct, d)
      | .trailing dropped => (dropped, ct, d)
      | .first none => (true, ct, d)
      | .first (some p) => m.filterFirstFragment cfg ct p d now order
  | .decoded p =>
    if !p.srcIP.isValid then (true, ct, d) else m.filterInboundDecoded cfg ct p d now order

/-- A rewritten packet gets to the trackers: it can be decoded again, is not part of a connection,
and is let in, for this host and not for the forwarder, or for the native router. -/
def tracks : Bool :=
  m.redecodes p && (m.translateInboundReverse p).any fun p =>
    !(m.isTracked cfg ct p now).1 &&
      if m.isLocalIP p.dstIP then !m.peerACLsBlock p && !m.shouldForward p
      else m.routingEnabled && m.nativeRouter

/-- The verdict, the packet as it is sent, and the connections. -/
def filterOutbound : Bool × IPPacket × Trackers :=
  if !p.srcIP.isValid then (false, p, ct)
  else if m.hooksDrop p then (true, p, ct)
  else
    let (origPort, ct) := ct.trackOutbound cfg p now order
    let p := if origPort = 0 then p else (p.rewriteSrcPort origPort).getD p
    let p := (m.outboundDNAT p).elim p fun dstIP => { p with dstIP }
    (false, p, ct)

end Manager

/-! ### Runs -/

/-- The packet that opened a flow, and the rule that rewrote its port. -/
structure Birth where
  packet : IPPacket
  direction : Conntrack.Direction
  rule : Option PortDNATRule

/-- The connections and the ports in the decoders of the pool; beside them, for the flows of each
protocol in their order, the packets that opened them. -/
structure Filter where
  trackers : Trackers := {}
  decoders : List UInt16 := []
  tcpBirths : List Birth := []
  udpBirths : List Birth := []

/-- An input names the decoder that the pool returns; the pool makes a new one for a number that it
does not have. -/
inductive Input where
  | inbound (decoder : Nat) (m : Manager) (raw : RawPacket) (now : Int) (order : List ConnKey)
  | outbound (decoder : Nat) (m : Manager) (raw : RawPacket) (now : Int) (order : List ConnKey)
  | cleanup (now : Int)

namespace Filter

/-- Notes the packet when a flow was opened. -/
def noteBirth (flows flows' : Nat) (births : List Birth) (b : Birth) : List Birth :=
  if flows' = flows then births else births ++ [b]

def note (s : Filter) (ct : Trackers) (b : Birth) : Filter :=
  { s with
    trackers := ct
    tcpBirths := noteBirth s.trackers.tcp.flows ct.tcp.flows s.tcpBirths b
    udpBirths := noteBirth s.trackers.udp.flows ct.udp.flows s.udpBirths b }

variable (cfg : TrackerConfig)

def inbound (s : Filter) (decoder : Nat) (m : Manager) (raw : RawPacket) (now : Int)
    (order : List ConnKey) : Filter :=
  let d := s.decoders.getD decoder 0
  let (_, ct, d') := m.filterInbound cfg s.trackers raw d now order
  let decoders := d' :: s.decoders.eraseIdx decoder
  match raw with
  | .decoded p =>
    let rule := (m.translateInboundPortDNAT p).map Prod.snd
    { s.note ct ⟨p, .ingress, rule⟩ with decoders }
  | .fragment _ (.first (some p)) => { s.note ct ⟨p, .ingress, none⟩ with decoders }
  | _ => { s with trackers := ct, decoders }

def outbound (s : Filter) (decoder : Nat) (m : Manager) (raw : RawPacket) (now : Int)
    (order : List ConnKey) : Filter :=
  let decoders := s.decoders.getD decoder 0 :: s.decoders.eraseIdx decoder
  match raw with
  | .decoded p =>
    let (_, _, ct) := m.filterOutbound cfg s.trackers p now order
    { s.note ct ⟨p, .egress, none⟩ with decoders }
  | _ => { s with decoders }

def step (s : Filter) : Input → Option Filter
  | .inbound decoder m raw now order => some (s.inbound cfg decoder m raw now order)
  | .outbound decoder m raw now order => some (s.outbound cfg decoder m raw now order)
  | .cleanup now => some { s with trackers :=
      ⟨s.trackers.tcp.cleanup cfg.tcp now, s.trackers.udp.cleanup cfg.udp now⟩ }

/-! ### Leaks -/

/-- The flow was opened by a packet whose port was rewritten from `port`. -/
def Translated (births : List Birth) (flowId : Nat) (port : UInt16) : Prop :=
  ∃ b rule, births[flowId]? = some b ∧ b.rule = some rule ∧ rule.origPort = port

/-- The connection that an outgoing packet answers to was opened by a translated packet. -/
def AnswersTranslated (s : Filter) (p : IPPacket) : Prop :=
  match p.transport with
  | .tcp srcPort dstPort _ => ∃ conn, s.trackers.tcp.connections.lookup
      (ConnKey.reverse ⟨p.srcIP, p.dstIP, srcPort, dstPort⟩) = some conn ∧
        Translated s.tcpBirths conn.flowId conn.dnatOrigPort
  | .udp srcPort dstPort => ∃ conn, s.trackers.udp.connections.lookup
      (ConnKey.reverse ⟨p.srcIP, p.dstIP, srcPort, dstPort⟩) = some conn ∧
        Translated s.udpBirths conn.flowId conn.dnatOrigPort
  | .icmp => False

/-- Only connections that were opened by a translated packet have a port to restore, which is the
one that the rule rewrote; and only answers to such connections are rewritten. -/
structure NoLeak (s : Filter) : Prop where
  tcp : ∀ key conn, s.trackers.tcp.connections.lookup key = some conn → conn.dnatOrigPort ≠ 0 →
    Translated s.tcpBirths conn.flowId conn.dnatOrigPort
  udp : ∀ key conn, s.trackers.udp.connections.lookup key = some conn → conn.dnatOrigPort ≠ 0 →
    Translated s.udpBirths conn.flowId conn.dnatOrigPort
  outbound : ∀ m p now order,
    (Manager.filterOutbound cfg m s.trackers p now order).2.1.transport ≠ p.transport →
      s.AnswersTranslated p

/-- Every packet whose port is rewritten gets to the trackers. -/
def Careful (s : Filter) : Input → Prop
  | .inbound _ m (.decoded p) now _ => ∀ r ∈ m.translateInboundPortDNAT p,
      m.tracks cfg s.trackers r.1 now = true
  | _ => True

instance (s : Filter) (i : Input) : Decidable (s.Careful cfg i) :=
  match i with
  | .inbound _ _ .undecodable _ _ => inferInstanceAs (Decidable True)
  | .inbound _ _ (.fragment _ _) _ _ => inferInstanceAs (Decidable True)
  | .inbound _ _ (.decoded _) _ _ => Option.decidableForallMem _
  | .outbound _ _ _ _ _ => inferInstanceAs (Decidable True)
  | .cleanup _ => inferInstanceAs (Decidable True)

end Filter

/-! ### What a packet does to the connections -/

/-- Each table keeps its connections, but for one that may be opened with the port. -/
structure Trackers.Effect (ct : Trackers) (d : UInt16) (ct' : Trackers) : Prop where
  tcp : ct.tcp.marks.Keeps ct'.tcp.marks ∨ ct.tcp.marks.Opens d ct'.tcp.marks
  udp : ct.udp.marks.Keeps ct'.udp.marks ∨ ct.udp.marks.Opens d ct'.udp.marks

namespace Trackers

variable {cfg : TrackerConfig} {ct ct' ct'' : Trackers} {d : UInt16}

theorem Effect.refl (ct : Trackers) (d : UInt16) : ct.Effect d ct :=
  ⟨.inl (Marks.Keeps.refl _), .inl (Marks.Keeps.refl _)⟩

/-- Connections are only dropped, or refreshed. -/
structure Keeps (ct ct' : Trackers) : Prop where
  tcp : ct.tcp.marks.Keeps ct'.tcp.marks
  udp : ct.udp.marks.Keeps ct'.udp.marks

theorem Keeps.effect (h : ct.Keeps ct') (d : UInt16) : ct.Effect d ct' :=
  ⟨.inl h.tcp, .inl h.udp⟩

theorem Keeps.trans_effect (h : ct.Keeps ct') (h' : ct'.Effect d ct'') : ct.Effect d ct'' :=
  ⟨h'.tcp.imp h.tcp.trans h.tcp.trans_opens, h'.udp.imp h.udp.trans h.udp.trans_opens⟩

/-- Tracking a packet keeps the entries, or opens one with the port given. -/
theorem effect_trackInbound (p : IPPacket) (d : UInt16) (now : Int) (order : List ConnKey) :
    ct.Effect d (ct.trackInbound cfg p d now order) := by
  unfold trackInbound
  split
  · exact ⟨TCPTracker.marks_track _ .ingress d now order, .inl (refl _)⟩
  · exact ⟨.inl (refl _), marks_track _ .ingress d now order⟩
  · exact Effect.refl ct d

theorem effect_trackOutbound (p : IPPacket) (now : Int) (order : List ConnKey) :
    ct.Effect 0 (ct.trackOutbound cfg p now order).2 := by
  unfold trackOutbound
  split
  · exact ⟨(TCPTracker.marks_trackOutbound _ now order).1, .inl (refl _)⟩
  · exact ⟨.inl (refl _), (marks_trackOutbound _ now order).1⟩
  · exact Effect.refl ct 0

end Trackers

namespace Manager

variable {cfg : TrackerConfig} {m : Manager} {ct : Trackers}

theorem keeps_isTracked (cfg : TrackerConfig) (m : Manager) (ct : Trackers) (p : IPPacket)
    (now : Int) : ct.Keeps (m.isTracked cfg ct p now).2 := by
  unfold isTracked isValidTrackedConnection
  split
  · split
    · exact ⟨TCPTracker.keeps_isValidInbound _ now, refl _⟩
    · exact ⟨refl _, keeps_isValidInbound _ now⟩
    · exact ⟨refl _, refl _⟩
  · exact ⟨refl _, refl _⟩

section

variable (p : IPPacket) (d : UInt16) (now : Int) (order : List ConnKey)

/-- A packet leaves the connections as told, and a decoder without a port without one. -/
structure Passes (ct : Trackers) (d : UInt16) (o : Outcome) : Prop where
  effect : ct.Effect d o.2.1
  decoder : d = 0 → o.2.2 = 0

/-- The filter opens no entry but with the port of the decoder. -/
theorem passes_filterReversed : Passes ct d (m.filterReversed cfg ct p d now order) := by
  unfold filterReversed filterTranslated handleLocalTraffic handleRoutedTraffic
  split
  · exact ⟨.refl ct d, id⟩
  · rename_i p' _
    have hk := keeps_isTracked cfg m ct p' now
    dsimp only
    split_ifs
    all_goals first
      | exact ⟨hk.effect d, id⟩
      | exact ⟨hk.trans_effect (Trackers.effect_trackInbound p' d now order), fun _ => rfl⟩

theorem passes_filterFirstFragment : Passes ct d (m.filterFirstFragment cfg ct p d now order) := by
  have hk := keeps_isTracked cfg m ct p now
  unfold filterFirstFragment
  dsimp only
  split_ifs
  all_goals first
    | exact ⟨hk.effect d, id⟩
    | exact ⟨hk.trans_effect (Trackers.effect_trackInbound p d now order), fun _ => rfl⟩

end

/-- A packet that gets to the trackers leaves no port with the decoder. -/
theorem decoder_filterReversed_of_tracks {p : IPPacket} {now : Int}
    (h : m.tracks cfg ct p now) (d : UInt16) (order : List ConnKey) :
    (m.filterReversed cfg ct p d now order).2.2 = 0 := by
  obtain ⟨-, h⟩ := Bool.and_eq_true_iff.1 h
  unfold filterReversed
  cases hp : m.translateInboundReverse p with
  | none => simp [hp] at h
  | some p' =>
    simp only [hp, any_some, Bool.and_eq_true, Bool.not_eq_true'] at h
    obtain ⟨hn, h⟩ := h
    unfold filterTranslated handleLocalTraffic handleRoutedTraffic
    dsimp only
    rw [hn, if_neg Bool.false_ne_true]
    by_cases hl : m.isLocalIP p'.dstIP
    · simp only [hl, if_true, Bool.and_eq_true, Bool.not_eq_true'] at h
      simp [hl, h.1, h.2]
    · simp only [hl, Bool.false_eq_true, if_false, Bool.and_eq_true] at h
      simp [hl, h.1, h.2]

end Manager

/-! ### Runs without leaks -/

namespace Filter

variable {cfg : TrackerConfig} {s : Filter}

/-- Every flow has the packet that opened it, and its port was rewritten by the rule. -/
structure Traced (marks : Marks) (births : List Birth) : Prop where
  length : births.length = marks.flows
  mark : ∀ key i port, marks.at? key = some (i, port) → port ≠ 0 → Translated births i port

variable {births : List Birth} {marks marks' : Marks} {b : Birth} {d : UInt16} {ct : Trackers}
  {m : Manager} {now : Int} {order : List ConnKey} {p : IPPacket}

theorem Traced.keeps (h : Traced marks births) (hk : marks.Keeps marks') : Traced marks' births :=
  ⟨h.length.trans hk.flows.symm, fun key i port hat => h.mark key i port (hk.mark key _ hat)⟩

theorem Translated.append {i : Nat} {port : UInt16} (h : Translated births i port) (b : Birth) :
    Translated (births ++ [b]) i port := by
  obtain ⟨b', rule, hb', hr⟩ := h
  exact ⟨b', rule, List.getElem?_append_left (List.getElem?_eq_some_iff.1 hb').1 ▸ hb', hr⟩

theorem Traced.opens (h : Traced marks births) (ho : marks.Opens d marks')
    (hb : d ≠ 0 → ∃ rule, b.rule = some rule ∧ rule.origPort = d) :
    Traced marks' (births ++ [b]) where
  length := by rw [length_append, h.length, ho.flows, length_singleton]
  mark key i port hat hp := by
    rcases ho.mark key _ hat with hol | hn
    · exact (h.mark key i port hol hp).append b
    · obtain ⟨rfl, rfl⟩ := Prod.mk.inj hn
      obtain ⟨rule, hr, hor⟩ := hb hp
      refine ⟨b, rule, ?_, hr, hor⟩
      rw [← h.length, List.getElem?_append_right (Nat.le_refl _), Nat.sub_self]
      rfl

/-- Entries with a port are those of translated packets. -/
theorem Traced.noteBirth (h : Traced marks births) (he : marks.Keeps marks' ∨ marks.Opens d marks')
    (hb : d ≠ 0 → ∃ rule, b.rule = some rule ∧ rule.origPort = d) :
    Traced marks' (noteBirth marks.flows marks'.flows births b) := by
  unfold Filter.noteBirth
  rcases he with hk | ho
  · rw [if_pos hk.flows]
    exact h.keeps hk
  · rw [if_neg (by rw [ho.flows]; omega)]
    exact h.opens ho hb

/-- No decoder has a port, and every flow with a port is traced to a translated packet. -/
structure Clean (s : Filter) : Prop where
  decoders : ∀ d ∈ s.decoders, d = 0
  tcp : Traced s.trackers.tcp.marks s.tcpBirths
  udp : Traced s.trackers.udp.marks s.udpBirths

variable (h : s.Clean)

include h

theorem Clean.getD (dec : Nat) : s.decoders.getD dec 0 = 0 := by
  rw [getD_eq_getElem?_getD]
  cases hd : s.decoders[dec]? with
  | none => rfl
  | some d => exact h.decoders d (mem_of_getElem? hd)

theorem Clean.note (he : s.trackers.Effect d ct)
    (hb : d ≠ 0 → ∃ rule, b.rule = some rule ∧ rule.origPort = d) {decoders : List UInt16}
    (hd : ∀ d ∈ decoders, d = 0) : Clean { s.note ct b with decoders } :=
  ⟨hd, h.tcp.noteBirth he.tcp hb, h.udp.noteBirth he.udp hb⟩

theorem Clean.put (hd : d = 0) (dec : Nat) : ∀ d' ∈ d :: s.decoders.eraseIdx dec, d' = 0 := by
  intro d' hd'
  rcases mem_cons.1 hd' with rfl | hd'
  · exact hd
  · exact h.decoders d' (mem_of_mem_eraseIdx hd')

/-- A packet without a port keeps the filter clean. -/
theorem Clean.passes {o : Manager.Outcome} (ho : Manager.Passes s.trackers 0 o) (b : Birth)
    (dec : Nat) : Clean { s.note o.2.1 b with decoders := o.2.2 :: s.decoders.eraseIdx dec } :=
  h.note ho.effect (fun hne => absurd rfl hne) (h.put (ho.decoder rfl) dec)

/-- A translated packet does too, if it gets to the trackers. -/
theorem Clean.inbound_decoded {dec : Nat}
    (hc : s.Careful cfg (.inbound dec m (.decoded p) now order)) :
    Clean (s.inbound cfg dec m (.decoded p) now order) := by
  unfold inbound Manager.filterInbound
  rw [h.getD]
  by_cases hv : p.srcIP.isValid
  · simp only [hv, Bool.not_true, Bool.false_eq_true, if_false]
    unfold Manager.filterInboundDecoded
    cases htr : m.translateInboundPortDNAT p with
    | none => exact h.passes (Manager.passes_filterReversed p 0 now order) _ dec
    | some r =>
      have ht := hc r htr
      have hr : m.redecodes r.1 := by
        exact (Bool.and_eq_true_iff.1 ht).1
      dsimp only
      rw [if_pos hr]
      exact h.note (Manager.passes_filterReversed r.1 r.2.origPort now order).effect
        (fun _ => ⟨r.2, rfl, rfl⟩)
        (h.put (Manager.decoder_filterReversed_of_tracks ht r.2.origPort order) dec)
  · simp only [hv]
    exact h.passes (o := (true, _, 0)) ⟨.refl s.trackers 0, id⟩ _ dec

theorem Clean.unchanged (dec : Nat) : Clean { s with decoders := 0 :: s.decoders.eraseIdx dec } :=
  ⟨h.put rfl dec, h.tcp, h.udp⟩

theorem Clean.inbound_first (dec : Nat) (m : Manager) (srcIP : Addr)
    (p : IPPacket) (now : Int) (order : List ConnKey) :
    Clean (s.inbound cfg dec m (.fragment srcIP (.first (some p))) now order) := by
  unfold inbound Manager.filterInbound
  rw [h.getD]
  dsimp only
  split
  · exact h.passes (o := (true, _, 0)) ⟨.refl s.trackers 0, id⟩ _ dec
  · exact h.passes (Manager.passes_filterFirstFragment p 0 now order) _ dec

/-- Every inbound packet keeps the filter clean. -/
theorem Clean.inbound {dec : Nat} {raw : RawPacket}
    (hc : s.Careful cfg (.inbound dec m raw now order)) :
    Clean (s.inbound cfg dec m raw now order) := by
  have hd := h.getD dec
  have hs := h.unchanged dec
  cases raw with
  | undecodable =>
    unfold Filter.inbound Manager.filterInbound
    rwa [hd]
  | decoded p => exact h.inbound_decoded hc
  | fragment srcIP part =>
    rcases part with _ | dropped | (_ | p)
    case first.some => exact h.inbound_first dec m srcIP p now order
    all_goals
      unfold Filter.inbound Manager.filterInbound
      rw [hd]
      dsimp only
      split <;> exact hs

omit h

theorem effect_filterOutbound (p : IPPacket) (now : Int) (order : List ConnKey) :
    ct.Effect 0 (m.filterOutbound cfg ct p now order).2.2 := by
  unfold Manager.filterOutbound
  split_ifs
  · exact Trackers.Effect.refl ct 0
  · exact Trackers.Effect.refl ct 0
  · exact Trackers.effect_trackOutbound p now order

/-- Every outbound packet does. -/
theorem Clean.outbound (h : s.Clean) (dec : Nat) (m : Manager) (raw : RawPacket) (now : Int)
    (order : List ConnKey) : Clean (s.outbound cfg dec m raw now order) := by
  unfold Filter.outbound
  rw [h.getD]
  cases raw with
  | undecodable => exact h.unchanged dec
  | fragment srcIP part => exact h.unchanged dec
  | decoded p =>
    exact h.passes (o := (true, _, 0)) ⟨effect_filterOutbound p now order, id⟩ _ dec

/-- One input keeps the filter clean. -/
theorem Clean.step (h : s.Clean) {i : Input} (hc : s.Careful cfg i) {s' : Filter}
    (hs : s.step cfg i = some s') : s'.Clean := by
  cases i with
  | inbound dec m raw now order =>
    cases hs
    exact h.inbound hc
  | outbound dec m raw now order =>
    cases hs
    exact h.outbound dec m raw now order
  | cleanup now =>
    cases hs
    exact ⟨h.decoders, h.tcp.keeps (TCPTracker.keeps_cleanup now), h.udp.keeps (keeps_cleanup now)⟩

theorem Clean.tcp_translated (h : s.Clean) {key : ConnKey} {conn : TCPConnTrack}
    (hc : s.trackers.tcp.connections.lookup key = some conn) (hp : conn.dnatOrigPort ≠ 0) :
    Translated s.tcpBirths conn.flowId conn.dnatOrigPort :=
  h.tcp.mark key _ _ (by simp [TCPTracker.marks, hc, TCPConnTrack.mark]) hp

theorem Clean.udp_translated (h : s.Clean) {key : ConnKey} {conn : UDPConnTrack}
    (hc : s.trackers.udp.connections.lookup key = some conn) (hp : conn.dnatOrigPort ≠ 0) :
    Translated s.udpBirths conn.flowId conn.dnatOrigPort :=
  h.udp.mark key _ _ (by simp [marks, hc, UDPConnTrack.mark]) hp

theorem port_of_rewritten (h : (m.filterOutbound cfg ct p now order).2.1.transport ≠ p.transport) :
    (ct.trackOutbound cfg p now order).1 ≠ 0 := by
  intro hz
  apply h
  unfold Manager.filterOutbound
  split_ifs
  · rfl
  · rfl
  · dsimp only
    rw [hz, if_pos rfl]
    cases m.outboundDNAT p <;> rfl

/-- In a clean filter an answer is rewritten for a translated flow only. -/
theorem Clean.answersTranslated (h : s.Clean)
    (hp : (s.trackers.trackOutbound cfg p now order).1 ≠ 0) : s.AnswersTranslated p := by
  unfold Trackers.trackOutbound at hp
  unfold AnswersTranslated
  split at hp
  · obtain ⟨i, hat⟩ := (TCPTracker.marks_trackOutbound _ now order).2 hp
    obtain ⟨conn, hc, hm⟩ := map_eq_some_iff.1 hat
    refine ⟨conn, hc, h.tcp_translated hc ?_⟩
    rw [show conn.dnatOrigPort = _ from congrArg Prod.snd hm]
    exact hp
  · obtain ⟨i, hat⟩ := (marks_trackOutbound _ now order).2 hp
    obtain ⟨conn, hc, hm⟩ := map_eq_some_iff.1 hat
    refine ⟨conn, hc, h.udp_translated hc ?_⟩
    rw [show conn.dnatOrigPort = _ from congrArg Prod.snd hm]
    exact hp
  · exact absurd rfl hp

theorem Clean.noLeak (h : s.Clean) : s.NoLeak cfg where
  tcp _ _ hc hp := h.tcp_translated hc hp
  udp _ _ hc hp := h.udp_translated hc hp
  outbound _ _ _ _ hr := h.answersTranslated (port_of_rewritten hr)

/-- When every packet whose port is rewritten gets to the trackers, no port leaks. -/
theorem noLeak_of_reaches (cfg : TrackerConfig) {s : Filter}
    (h : Reaches (step cfg) (Careful cfg) {} s) : s.NoLeak cfg := by
  have hc : s.Clean := by
    refine h.invariant (p := Clean) ⟨by simp, ⟨rfl, ?_⟩, ⟨rfl, ?_⟩⟩ fun s i s' hs hi hst =>
      hs.step hi hst
    · intro key i port hat
      simp [TCPTracker.marks] at hat
    · intro key i port hat
      simp [marks] at hat
  exact hc.noLeak

/-- A SYN of a peer to a port of this host. -/
def synTo (port : UInt16) : IPPacket :=
  ⟨.from4 100 64 0 2, .from4 100 64 0 1, some 20, 40, .tcp 40000 port TCPSyn⟩

/-- The port 22 of this host is translated to 22022. -/
def sshRule : PortDNATRule := ⟨.tcp, 22, 22022, .from4 100 64 0 1⟩

def sshManager : Manager := { portDNATEnabled := true, portDNATRules := [sshRule] }

def sshConfig : TrackerConfig :=
  ⟨⟨10800, 240, 60, 60, 30, 65536⟩, ⟨30, 65536⟩⟩

/-- The peer may not connect to port 22: its packet is translated and dropped. The next packet goes
through the same decoder to port 443, which no rule translates, and the connection takes over the
port 22. -/
theorem stale_port_taken_over :
    ∃ s, Reaches (step sshConfig) (fun _ _ => True) {} s ∧ ¬ s.NoLeak sshConfig := by
  have hrn : ∃ s, Reaches (step sshConfig) (fun _ _ => True) {} s ∧
      s.trackers.tcp.connections.lookup ⟨(synTo 443).srcIP, (synTo 443).dstIP, 40000, 443⟩ =
        some ⟨0, .ingress, 2, 22, .synReceived, false⟩ ∧
      (s.tcpBirths[0]?).map Birth.rule = some none := by
    refine exists_reaches
      [.inbound 0 { sshManager with peerACLsBlock := fun _ => true } (.decoded (synTo 22)) 1 [],
        .inbound 0 sshManager (.decoded (synTo 443)) 2 []] ?_
    decide +kernel
  obtain ⟨s, hs, hc, hbr⟩ := hrn
  refine ⟨s, hs, fun hno => ?_⟩
  obtain ⟨b, rule, hb, hr, -⟩ := hno.tcp _ _ hc (by decide)
  rw [hb, map_some, hr] at hbr
  cases hbr

/-- The peer may connect: its packet is translated and tracked. -/
theorem noLeak_of_reaches_tracked : ∃ s, Reaches (step sshConfig) (Careful sshConfig) {} s ∧
      s.trackers.tcp.connections.lookup ⟨(synTo 22).srcIP, (synTo 22).dstIP, 40000, 22022⟩ =
        some ⟨0, .ingress, 1, 22, .synReceived, false⟩ ∧ s.NoLeak sshConfig := by
  have hr : ∃ s, Reaches (step sshConfig) (Careful sshConfig) {} s ∧
      s.trackers.tcp.connections.lookup ⟨(synTo 22).srcIP, (synTo 22).dstIP, 40000, 22022⟩ =
        some ⟨0, .ingress, 1, 22, .synReceived, false⟩ := by
    refine exists_reaches [.inbound 0 sshManager (.decoded (synTo 22)) 1 [],
        .inbound 0 sshManager (.decoded (synTo 443)) 2 []] ?_
    decide +kernel
  obtain ⟨s, hs, hc⟩ := hr
  exact ⟨s, hs, hc, noLeak_of_reaches sshConfig hs⟩

end Filter

end Cloink.Uspfilter
