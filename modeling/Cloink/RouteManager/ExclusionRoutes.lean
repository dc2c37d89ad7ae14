import Cloink.Lib.Interleaving
import Cloink.Lib.Netip
import Cloink.Lib.Tally
import Cloink.RouteManager.RefCounter

/-!
# Exclusion routes of sockets

While a default route leads into the tunnel, the sockets of the client need a route around it to
each host they write to (`client/net`, `setupHooks` in `systemops_generic.go`). The first `WriteTo`
to an address takes a reference to the route of its host under the identifier of the connection;
`RemoveAddress` gives one back, `Close` all that are recorded. Each call changes the cache of seen
addresses first and runs its hook afterwards, and other calls may come in between. No `WriteTo` runs
during or after the `Close` of its connection.

## Main definitions

* `Needed`: a connection needs the route of a host.
* `Inv`: references are of initial addresses or of connections.

## Main results

* `inv_step`: every action keeps the invariant.
* `needed_installed`: a route that is needed is installed.
-/

namespace Cloink.RouteManager

open Netip AList List Option

def getPrefixFromIP (ip : Addr) : Option Prefix :=
  if ip.isValid then some (prefixFrom ip.unmap ip.unmap.bitLen) else none

/-- The address of a datagram; the IP address is invalid when its bytes are not one. -/
structure UDPAddr where
  ip : Addr
  port : UInt16
  deriving DecidableEq

/-- What the text of an address says: a mapped address is written as the IPv4 address. -/
def UDPAddr.string (a : UDPAddr) : UDPAddr := ⟨a.ip.unmap, a.port⟩

/-- The prefix that `RemoveAddress` reads from the text of an address. -/
def UDPAddr.parsePrefix (a : UDPAddr) : Option Prefix :=
  if a.ip.isValid then some (prefixFrom a.ip.unmap a.ip.bitLen) else none

/-- How far a connection is closed: `released` means that the hook of `Close` has run. -/
inductive ConnPhase where
  | opened
  | closing
  | released
  | closed
  deriving DecidableEq

/-- A connection. An address in `seenAddrs` is marked once its hook has run. `writing` and
`removing` are the calls whose hook has not run yet; `written` has the addresses written to and not
removed since, `removed` the prefixes of all addresses removed. -/
structure PacketConn where
  seenAddrs : AList fun _ : UDPAddr => Bool := ∅
  phase : ConnPhase := .opened
  writing : List UDPAddr := []
  removing : List Prefix := []
  written : List UDPAddr := []
  removed : List Prefix := []

/-- Its `Close` has not run its hook. -/
def PacketConn.isOpen (conn : PacketConn) : Bool :=
  conn.phase = .opened || conn.phase = .closing

/-- The routing table and the counter of its exclusion routes, with the connections by identifier. -/
structure SysOps (Nexthop : Type) where
  initAddresses : List Addr
  refCounter : Counter Prefix Nexthop := ∅
  routes : Finset Prefix := ∅
  conns : StrMap PacketConn := ∅

/-- The callbacks of the counter, which succeed. -/
def exclusionRoutes {Nexthop : Type} (nexthop : Prefix → Finset Prefix → Nexthop) :
    Callbacks Prefix Unit Nexthop (Finset Prefix) where
  add p _ routes := (.ok (nexthop p routes), insert p routes)
  remove p _ routes := (false, routes.erase p)

/-- The steps of the calls on the connections. -/
inductive ConnAction where
  | listen (id : String)
  | writeTo (id : String) (a : UDPAddr)
  | writeHooks (id : String) (a : UDPAddr)
  | removeAddress (id : String) (a : UDPAddr)
  | removeHooks (id : String) (p : Prefix)
  | close (id : String)
  | closeHooks (id : String)
  | clear (id : String)
  deriving DecidableEq

namespace SysOps

variable {Nexthop : Type}

section

variable [Inhabited Nexthop] (nexthop : Prefix → Finset Prefix → Nexthop)

/-- The write hook: a reference under the identifier of the connection. -/
def beforeHook (r : SysOps Nexthop) (id : String) (p : Prefix) : SysOps Nexthop :=
  let (refCounter, routes, _, _) :=
    r.refCounter.incrementWithID (exclusionRoutes nexthop) r.routes id p ()
  { r with refCounter, routes }

/-- The close hook: all references of a connection. -/
def afterHook (r : SysOps Nexthop) (id : String) : SysOps Nexthop :=
  let (refCounter, routes, _) :=
    r.refCounter.decrementWithID (exclusionRoutes nexthop) r.routes id
  { r with refCounter, routes }

/-- The hook of a removed address: one reference. -/
def addressRemoveHook (r : SysOps Nexthop) (p : Prefix) : SysOps Nexthop :=
  let (refCounter, routes, _, _) :=
    r.refCounter.decrement (exclusionRoutes nexthop) r.routes p
  { r with refCounter, routes }

/-- The prefixes of the initial addresses; an address without prefix is reported and skipped. -/
def initPrefixes (r : SysOps Nexthop) : List Prefix := r.initAddresses.filterMap getPrefixFromIP

variable (initAddresses : List Addr)

/-- The start: a reference for each initial address. -/
def setupHooks : SysOps Nexthop :=
  (initAddresses.filterMap getPrefixFromIP).foldl (fun r p => r.beforeHook nexthop "init" p)
    { initAddresses }

def setConn (r : SysOps Nexthop) (id : String) (conn : PacketConn) : SysOps Nexthop :=
  { r with conns := r.conns.insert id conn }

/-- `WriteTo` up to its hook. An address that has been seen is written to at once. -/
def writeTo (conn : PacketConn) (a : UDPAddr) : PacketConn :=
  if a.string ∈ conn.seenAddrs then { conn with written := a.string :: conn.written }
  else { conn with
    seenAddrs := conn.seenAddrs.insert a.string false
    writing := a :: conn.writing }

/-- The connection after the hook of `WriteTo`. -/
def wrote (conn : PacketConn) (a : UDPAddr) : PacketConn :=
  { conn with
    seenAddrs := if a.string ∈ conn.seenAddrs then conn.seenAddrs.insert a.string true
      else conn.seenAddrs
    writing := conn.writing.erase a
    written := a.string :: conn.written }

/-- `RemoveAddress` up to its hook; nothing is done for an address that has not been seen, and no
hook runs for one that is not an IP address. -/
def removeAddress (conn : PacketConn) (a : UDPAddr) : PacketConn :=
  let conn' := { conn with
    seenAddrs := conn.seenAddrs.erase a
    written := conn.written.filter (· ≠ a) }
  if a ∈ conn.seenAddrs then
    match a.parsePrefix with
    | none => conn'
    | some p => { conn' with removing := p :: conn.removing, removed := p :: conn.removed }
  else conn'

/-- One step of a call. A connection has a new identifier; it is written to while it is open, and
closed when no `WriteTo` is running. -/
def step (r : SysOps Nexthop) : ConnAction → Option (SysOps Nexthop)
  | .listen id => if id ∉ r.conns ∧ id ≠ "init" then some (r.setConn id {}) else none
  | .writeTo id a => (r.conns.lookup id).bind fun conn =>
    if conn.phase = .opened then some (r.setConn id (writeTo conn a)) else none
  | .writeHooks id a => (r.conns.lookup id).bind fun conn =>
    if a ∈ conn.writing then
      match getPrefixFromIP a.ip with
      | none => some (r.setConn id (wrote conn a))
      | some p => some ((r.beforeHook nexthop id p).setConn id (wrote conn a))
    else none
  | .removeAddress id a => (r.conns.lookup id).map fun conn => r.setConn id (removeAddress conn a)
  | .removeHooks id p => (r.conns.lookup id).bind fun conn =>
    if p ∈ conn.removing then
      some ((r.addressRemoveHook nexthop p).setConn id
        { conn with removing := conn.removing.erase p })
    else none
  | .close id => (r.conns.lookup id).bind fun conn =>
    if conn.phase = .opened ∧ conn.writing = [] then
      some (r.setConn id { conn with phase := .closing })
    else none
  | .closeHooks id => (r.conns.lookup id).bind fun conn =>
    if conn.phase ≠ .opened then
      some ((r.afterHook nexthop id).setConn id
        { conn with phase := if conn.isOpen then .released else conn.phase })
    else none
  | .clear id => (r.conns.lookup id).bind fun conn =>
    if conn.isOpen then none
    else some (r.setConn id { conn with seenAddrs := ∅, phase := .closed })

end

/-! ### What the routes are for -/

/-- The route of a host is needed for an initial address, and by an open connection that has written
to an address of the host and has not removed that address since. -/
def Needed (r : SysOps Nexthop) (p : Prefix) : Prop :=
  p ∈ r.initPrefixes ∨ ∃ id conn, r.conns.lookup id = some conn ∧ conn.isOpen = true ∧
    ∃ a ∈ conn.written, getPrefixFromIP a.ip = some p

/-- A connection that is open and has written to the address. -/
def HasWritten (r : SysOps Nexthop) (id : String) (a : UDPAddr) : Prop :=
  ∃ conn ∈ r.conns.lookup id, conn.isOpen = true ∧ a ∈ conn.written

instance (r : SysOps Nexthop) (id : String) (a : UDPAddr) : Decidable (r.HasWritten id a) :=
  inferInstanceAs (Decidable (∃ conn ∈ r.conns.lookup id, conn.isOpen = true ∧ a ∈ conn.written))

theorem HasWritten.needed {r : SysOps Nexthop} {id : String} {a : UDPAddr} {p : Prefix}
    (h : r.HasWritten id a) (hp : getPrefixFromIP a.ip = some p) : r.Needed p := by
  obtain ⟨conn, hl, hop, hw⟩ := h
  exact .inr ⟨id, conn, hl, hop, a, hw, hp⟩

def AllClosed (r : SysOps Nexthop) : Prop :=
  ∀ id conn, r.conns.lookup id = some conn → conn.phase = .closed

/-- The reference that an address in the cache stands for, once its hook has run. -/
def reference (p : Prefix) (a : UDPAddr) (done : Bool) : ℕ :=
  if done = true ∧ getPrefixFromIP a.ip = some p then 1 else 0

/-- The references a connection has taken for the addresses in its cache. -/
def acquired (p : Prefix) (conn : PacketConn) : ℕ := conn.seenAddrs.sumOver (reference p)

/-- The references that an open connection holds, those of a running `RemoveAddress` included. -/
def holds (p : Prefix) (conn : PacketConn) : ℕ :=
  if conn.isOpen then acquired p conn + conn.removing.count p else 0

/-- The references held for the initial addresses and by the other connections. -/
def heldElsewhere (r : SysOps Nexthop) (id : String) (p : Prefix) : ℕ :=
  r.initPrefixes.count p + (r.conns.erase id).sumOver fun _ => holds p

/-- A step is careful unless it uses an address whose first `WriteTo` is still running its hook, or
gives back, for an address already removed, a second reference to a prefix held elsewhere. -/
def Careful (r : SysOps Nexthop) : ConnAction → Prop
  | .writeTo id a => ∀ conn ∈ r.conns.lookup id, conn.seenAddrs.lookup a.string ≠ some false
  | .removeAddress id a => ∀ conn ∈ r.conns.lookup id, conn.seenAddrs.lookup a ≠ some false
  | .removeHooks id p => ∀ conn ∈ r.conns.lookup id, conn.isOpen = false → r.heldElsewhere id p = 0
  | .closeHooks id => ∀ conn ∈ r.conns.lookup id, conn.isOpen = true →
      ∀ p ∈ conn.removed, r.heldElsewhere id p = 0
  | _ => True

instance (r : SysOps Nexthop) : (a : ConnAction) → Decidable (r.Careful a)
  | .writeTo .. | .removeAddress .. | .removeHooks .. | .closeHooks .. =>
    Option.decidableForallMem _
  | .listen _ | .writeHooks .. | .close _ | .clear _ => inferInstanceAs (Decidable True)

/-! ### The invariant -/

/-- What holds of a connection, with the keys recorded under its identifier. -/
structure ConnInv (conn : PacketConn) (keys : List Prefix) : Prop where
  keys_open : conn.isOpen = true → ∀ p, keys.count p = acquired p conn + conn.removed.count p
  keys_released : conn.isOpen = false → keys = []
  removing_le : ∀ p, conn.removing.count p ≤ conn.removed.count p
  text : ∀ a done, conn.seenAddrs.lookup a = some done → a.ip.unmap = a.ip
  seen_of_writing : ∀ a ∈ conn.writing, conn.seenAddrs.lookup a.string = some false
  writing_nodup : (conn.writing.map UDPAddr.string).Nodup
  writing_closed : conn.phase ≠ .opened → conn.writing = []
  seen_of_written : conn.isOpen = true → ∀ a ∈ conn.written, conn.seenAddrs.lookup a = some true

/-- Every reference is one of an initial address or held by a connection. -/
structure Inv (r : SysOps Nexthop) : Prop where
  count_eq : ∀ p, r.refCounter.count p = r.initPrefixes.count p + r.conns.sumOver fun _ => holds p
  inStep : Counter.InStep (fun routes p => p ∈ routes) r.refCounter r.routes
  conn : ∀ id conn, r.conns.lookup id = some conn → ConnInv conn (r.refCounter.keysOf id)
  keys_fresh : ∀ id, id ∉ r.conns → id ≠ "init" → r.refCounter.keysOf id = []
  init_fresh : "init" ∉ r.conns

/-! ### The hooks -/

variable {r : SysOps Nexthop}

theorem exclusionRoutes_maintain (nexthop : Prefix → Finset Prefix → Nexthop) :
    (exclusionRoutes nexthop).Maintain fun routes p => p ∈ routes where
  add p _ routes := ⟨nexthop p routes, rfl⟩
  remove _ _ _ := rfl
  has_add p _ routes k := by simp [exclusionRoutes]
  has_remove p _ routes k := by simp [exclusionRoutes]

/-- What a hook did: the references to each prefix, the keys of each identifier, and the table that
goes with them. -/
structure Hooked (r r' : SysOps Nexthop) (count : Prefix → ℕ) (keys : String → List Prefix) :
    Prop where
  initAddresses : r'.initAddresses = r.initAddresses
  conns : r'.conns = r.conns
  count_eq : ∀ p, r'.refCounter.count p = count p
  keys_eq : ∀ id, r'.refCounter.keysOf id = keys id
  inStep : Counter.InStep (fun routes p => p ∈ routes) r.refCounter r.routes →
    Counter.InStep (fun routes p => p ∈ routes) r'.refCounter r'.routes

theorem hooked_refl (r : SysOps Nexthop) : Hooked r r r.refCounter.count r.refCounter.keysOf :=
  ⟨rfl, rfl, fun _ => rfl, fun _ => rfl, id⟩

/-! ### Steps of one connection -/

section

variable {id : String} {conn conn' : PacketConn} {r' : SysOps Nexthop} {count : Prefix → ℕ}
  {keys : String → List Prefix}

theorem Inv.mem_routes_iff (h : r.Inv) (p : Prefix) : p ∈ r.routes ↔ 0 < r.refCounter.count p :=
  h.inStep p

theorem Inv.count_eq_heldElsewhere (h : r.Inv) (hl : r.conns.lookup id = some conn) (p : Prefix) :
    r.refCounter.count p = r.heldElsewhere id p + holds p conn := by
  have hs := r.conns.sumOver_erase_add (fun _ => holds p) id
  rw [hl] at hs
  rw [h.count_eq, heldElsewhere, ← hs, elim_some, Nat.add_assoc]

/-- A step that changes one connection and runs at most one hook keeps the invariant if it does so
for that connection and the references change as those of the connection do. -/
theorem Inv.setConn (h : r.Inv) (hin : id ≠ "init") (hh : Hooked r r' count keys)
    (hcn : ∀ p, count p + (r.conns.lookup id).elim 0 (holds p) =
      r.refCounter.count p + holds p conn')
    (hco : ConnInv conn' (keys id)) (hk : ∀ i ≠ id, keys i = r.refCounter.keysOf i) :
    (r'.setConn id conn').Inv := by
  refine ⟨fun p => ?_, hh.inStep h.inStep, fun i c hi => ?_, fun i hi hne => ?_, ?_⟩
  · have hs := r.conns.sumOver_insert_add (fun _ => holds p) id conn'
    have hc := hcn p
    have heq := h.count_eq p
    show r'.refCounter.count p = (r'.initAddresses.filterMap getPrefixFromIP).count p +
      (r'.conns.insert id conn').sumOver fun _ => holds p
    rw [hh.count_eq, hh.initAddresses, hh.conns]
    unfold initPrefixes at heq
    omega
  · show ConnInv c (r'.refCounter.keysOf i)
    rw [hh.keys_eq]
    replace hi : (r'.conns.insert id conn').lookup i = some c := hi
    rw [hh.conns] at hi
    obtain ⟨rfl, rfl⟩ | ⟨hne, hi⟩ := lookup_insert_some.1 hi
    · exact hco
    · rw [hk i hne]
      exact h.conn i c hi
  · replace hi : i ∉ r'.conns.insert id conn' := hi
    rw [hh.conns, mem_insert, not_or] at hi
    show r'.refCounter.keysOf i = []
    rw [hh.keys_eq, hk i hi.1]
    exact h.keys_fresh i hi.2 hne
  · show "init" ∉ r'.conns.insert id conn'
    rw [hh.conns, mem_insert, not_or]
    exact ⟨hin.symm, h.init_fresh⟩

theorem Inv.setConn_of_lookup (h : r.Inv) (hl : r.conns.lookup id = some conn)
    (hh : Hooked r r' count keys)
    (hcn : ∀ p, count p + holds p conn = r.refCounter.count p + holds p conn')
    (hc : ConnInv conn' (keys id)) (hk : ∀ i ≠ id, keys i = r.refCounter.keysOf i) :
    (r'.setConn id conn').Inv :=
  h.setConn (fun he => h.init_fresh (he ▸ mem_of_lookup hl)) hh (by rwa [hl]) hc hk

/-! ### Connections -/

theorem getPrefixFromIP_string (a : UDPAddr) : getPrefixFromIP a.string.ip = getPrefixFromIP a.ip := by
  have hv : a.ip.unmap.isValid = a.ip.isValid := by
    cases hip : a.ip with
    | v6 bytes zone =>
      simp only [Addr.unmap]
      split <;> rfl
    | _ => rfl
  simp only [getPrefixFromIP, UDPAddr.string, hv, Addr.unmap_unmap]

variable {a : UDPAddr}

theorem parsePrefix_eq (h : a.ip.unmap = a.ip) : a.parsePrefix = getPrefixFromIP a.ip := by
  simp only [UDPAddr.parsePrefix, getPrefixFromIP, h]

theorem ConnInv.text_insert {keys : List Prefix} (h : ConnInv conn keys) {new : Bool} (b : UDPAddr)
    (done : Bool) (hb : (conn.seenAddrs.insert a.string new).lookup b = some done) :
    b.ip.unmap = b.ip := by
  obtain ⟨rfl, -⟩ | ⟨-, hb⟩ := lookup_insert_some.1 hb
  · exact Addr.unmap_unmap a.ip
  · exact h.text b done hb

theorem ConnInv.writeTo {keys : List Prefix} (h : ConnInv conn keys) (ho : conn.phase = .opened)
    (ha : conn.seenAddrs.lookup a.string ≠ some false) :
    ConnInv (writeTo conn a) keys ∧ ∀ p, holds p (writeTo conn a) = holds p conn := by
  unfold SysOps.writeTo
  split
  · rename_i hs
    obtain ⟨done, hd⟩ := mem_iff_lookup.1 hs
    refine ⟨{ h with seen_of_written := ?_ }, fun p => rfl⟩
    intro hop b hb
    obtain rfl | hb := mem_cons.1 hb
    · cases done with
      | false => exact absurd hd ha
      | true => exact hd
    · exact h.seen_of_written hop b hb
  · rename_i hnw
    have hn : conn.seenAddrs.lookup a.string = none := lookup_eq_none.2 hnw
    have hne {done : Bool} : conn.seenAddrs.lookup a.string ≠ some done := by simp [hn]
    have hac : ∀ p, acquired p (SysOps.writeTo conn a) = acquired p conn := fun p => by
      have hsm := conn.seenAddrs.sumOver_insert_add (reference p) a.string false
      rw [hn] at hsm
      simpa [SysOps.writeTo, hnw, acquired, reference] using hsm
    simp only [SysOps.writeTo, if_neg hnw] at hac
    refine ⟨⟨fun hop p => ?_, h.keys_released, h.removing_le, h.text_insert, fun b hb => ?_, ?_,
      fun hp => absurd ho hp, fun hop b hb =>
        lookup_insert_of_lookup hne (h.seen_of_written hop b hb)⟩, fun p => ?_⟩
    · rw [hac]
      exact h.keys_open hop p
    · obtain rfl | hb := mem_cons.1 hb
      · exact lookup_insert _
      · exact lookup_insert_of_lookup hne (h.seen_of_writing b hb)
    · rw [map_cons, nodup_cons]
      refine ⟨fun hm => ?_, h.writing_nodup⟩
      obtain ⟨b, hb, heq⟩ := mem_map.1 hm
      exact hne (heq ▸ h.seen_of_writing b hb)
    · show (if conn.isOpen then _ else 0) = _
      rw [hac]
      rfl

theorem ConnInv.wrote {keys keys' : List Prefix} (h : ConnInv conn keys) (ha : a ∈ conn.writing)
    (hk : ∀ p, keys'.count p = keys.count p + if getPrefixFromIP a.ip = some p then 1 else 0) :
    ConnInv (wrote conn a) keys' ∧ ∀ p, holds p (wrote conn a) =
      holds p conn + if getPrefixFromIP a.ip = some p then 1 else 0 := by
  have hs := h.seen_of_writing a ha
  have hm : a.string ∈ conn.seenAddrs := mem_of_lookup hs
  have ho : conn.phase = .opened := by
    by_contra hp
    rw [h.writing_closed hp] at ha
    cases ha
  have hop : conn.isOpen := by simp [PacketConn.isOpen, ho]
  have hac : ∀ p, acquired p (SysOps.wrote conn a) =
      acquired p conn + if getPrefixFromIP a.ip = some p then 1 else 0 := fun p => by
    have hsm := conn.seenAddrs.sumOver_insert_add (reference p) a.string true
    rw [hs] at hsm
    simpa [SysOps.wrote, hm, acquired, reference, getPrefixFromIP_string] using hsm
  have hse : (SysOps.wrote conn a).seenAddrs = conn.seenAddrs.insert a.string true := if_pos hm
  refine ⟨⟨fun _ p => ?_, fun hc => ?_, h.removing_le, hse ▸ h.text_insert, fun b hb => ?_,
    h.writing_nodup.sublist (erase_sublist.map _), fun hp => absurd ho hp, fun _ b hb => ?_⟩,
    fun p => ?_⟩
  · rw [hk, hac, h.keys_open hop]
    show _ = _ + conn.removed.count p
    omega
  · exact absurd (hop.symm.trans hc) (by decide)
  · have hn := h.writing_nodup
    have hbw : b ∈ conn.writing := mem_of_mem_erase hb
    have hne : b.string ≠ a.string := fun heq => by
      have hab := inj_on_of_nodup_map hn hbw ha heq
      subst hab
      exact (List.Nodup.mem_erase_iff (List.Nodup.of_map _ hn)).1 hb |>.1 rfl
    rw [hse, lookup_insert_ne hne]
    exact h.seen_of_writing b hbw
  · rw [hse]
    obtain rfl | hb := mem_cons.1 hb
    · exact lookup_insert _
    · exact lookup_insert_of_lookup (by simp [hs]) (h.seen_of_written hop b hb)
  · have hop' : (SysOps.wrote conn a).isOpen := hop
    simp only [holds, hop, hop', if_true, hac]
    show _ + conn.removing.count p = _
    omega

theorem ConnInv.removeAddress {keys : List Prefix} (h : ConnInv conn keys)
    (ha : conn.seenAddrs.lookup a ≠ some false) :
    ConnInv (removeAddress conn a) keys ∧ ∀ p, holds p (removeAddress conn a) = holds p conn := by
  -- the reference moves from the cache to the call that is running
  obtain ⟨moved, hm, heq⟩ : ∃ moved : List Prefix,
      (∀ p, acquired p conn = (conn.seenAddrs.erase a).sumOver (reference p) + moved.count p) ∧
      SysOps.removeAddress conn a = { conn with
        seenAddrs := conn.seenAddrs.erase a
        written := conn.written.filter (· ≠ a)
        removing := moved ++ conn.removing
        removed := moved ++ conn.removed } := by
    have hs (p : Prefix) := conn.seenAddrs.sumOver_erase_add (reference p) a
    unfold SysOps.removeAddress
    cases hl : conn.seenAddrs.lookup a with
    | none =>
      rw [if_neg (lookup_eq_none.1 hl)]
      exact ⟨[], fun p => by simpa [hl, acquired] using (hs p).symm, rfl⟩
    | some done =>
      obtain rfl : done = true := by simpa [hl] using ha
      rw [if_pos (mem_of_lookup hl), parsePrefix_eq (h.text a true hl)]
      refine ⟨(getPrefixFromIP a.ip).toList, fun p => ?_, ?_⟩
      · have hp := hs p
        cases hip : getPrefixFromIP a.ip <;>
          simpa [hl, acquired, reference, hip, count_singleton] using hp.symm
      · cases getPrefixFromIP a.ip <;> rfl
  rw [heq]
  refine ⟨⟨fun hop p => ?_, h.keys_released, fun p => ?_, fun b done hb => ?_, fun b hb => ?_,
    h.writing_nodup, h.writing_closed, fun hop b hb => ?_⟩, fun p => ?_⟩
  · have hk := h.keys_open hop p
    rw [hm] at hk
    rw [hk, acquired, count_append, Nat.add_assoc]
  · simpa using h.removing_le p
  · exact h.text b done (lookup_erase_some.1 hb).2
  · have hb' := h.seen_of_writing b hb
    have hba : b.string ≠ a := fun heq => ha (heq ▸ hb')
    exact (lookup_erase_ne hba).trans hb'
  · obtain ⟨hb, hba⟩ := mem_filter.1 hb
    exact (lookup_erase_ne (of_decide_eq_true hba)).trans (h.seen_of_written hop b hb)
  · rw [holds, holds, hm, acquired, count_append, Nat.add_assoc]
    rfl

/-- The hook of `Close` gives back all that the connection holds, and no more when what it gives
back for removed addresses is held by nobody else. -/
theorem closeHooks_spec (h : r.Inv) (hl : r.conns.lookup id = some conn)
    (hcr : conn.isOpen → ∀ p ∈ conn.removed, r.heldElsewhere id p = 0) (p : Prefix) :
    r.refCounter.count p - (r.refCounter.keysOf id).count p + holds p conn =
      r.refCounter.count p := by
  have hc := h.conn id conn hl
  have hcn := h.count_eq_heldElsewhere hl p
  cases hop : conn.isOpen with
  | false => simp [hc.keys_released hop, holds, hop]
  | true =>
    have hk := hc.keys_open hop p
    have hle := hc.removing_le p
    have hh : holds p conn = acquired p conn + conn.removing.count p := by simp [holds, hop]
    by_cases hp : p ∈ conn.removed
    · have hz := hcr hop p hp
      omega
    · have hn : conn.removed.count p = 0 := count_eq_zero.2 hp
      omega

theorem removeHooks_spec (h : r.Inv) (hl : r.conns.lookup id = some conn) {p : Prefix}
    (hp : p ∈ conn.removing) (hcr : conn.isOpen = false → r.heldElsewhere id p = 0) (q : Prefix) :
    (r.refCounter.count q - if q = p then 1 else 0) + holds q conn =
      r.refCounter.count q + holds q { conn with removing := conn.removing.erase p } := by
  have hc := h.count_eq_heldElsewhere hl q
  have he : (conn.removing.erase p).count q = conn.removing.count q - if q = p then 1 else 0 := by
    rw [count_erase]
    simp [eq_comm (a := q)]
  have hop' : PacketConn.isOpen { conn with removing := conn.removing.erase p } = conn.isOpen := rfl
  have ha : acquired q { conn with removing := conn.removing.erase p } = acquired q conn := rfl
  unfold holds at hc ⊢
  rw [hop', ha]
  cases hop : conn.isOpen with
  | false =>
    simp only [hop, Bool.false_eq_true, if_false] at hc ⊢
    split
    · rename_i hq
      subst hq
      have := hcr hop
      omega
    · omega
  | true =>
    simp only [hop, if_true] at hc ⊢
    rw [he]
    split
    · rename_i hq
      subst hq
      have := count_pos_iff.2 hp
      omega
    · omega

end

/-! ### Every run -/

variable [Inhabited Nexthop] {nexthop : Prefix → Finset Prefix → Nexthop}
  (initAddresses : List Addr)

theorem hooked_beforeHook (id : String) (p : Prefix) : Hooked r (r.beforeHook nexthop id p)
      (fun q => r.refCounter.count q + if q = p then 1 else 0)
      (fun i => if i = id then r.refCounter.keysOf id ++ [p] else r.refCounter.keysOf i) where
  initAddresses := rfl
  conns := rfl
  count_eq _ := Counter.count_incrementWithID _ _ (exclusionRoutes_maintain nexthop).toSucceed ..
  keys_eq _ := Counter.keysOf_incrementWithID _ _ (exclusionRoutes_maintain nexthop).toSucceed ..
  inStep h := h.incrementWithID (exclusionRoutes_maintain nexthop) id p ()

theorem hooked_afterHook (id : String) : Hooked r (r.afterHook nexthop id)
      (fun q => r.refCounter.count q - (r.refCounter.keysOf id).count q)
      (fun i => if i = id then [] else r.refCounter.keysOf i) where
  initAddresses := rfl
  conns := rfl
  count_eq _ := Counter.count_decrementWithID _ _ (exclusionRoutes_maintain nexthop).toSucceed ..
  keys_eq _ := Counter.keysOf_decrementWithID ..
  inStep h := h.decrementWithID (exclusionRoutes_maintain nexthop) id

theorem hooked_addressRemoveHook (p : Prefix) : Hooked r (r.addressRemoveHook nexthop p)
      (fun q => r.refCounter.count q - if q = p then 1 else 0) r.refCounter.keysOf where
  initAddresses := rfl
  conns := rfl
  count_eq _ := ((Counter.decremented ..).of_succeed (exclusionRoutes_maintain nexthop).toSucceed).2 _
  keys_eq i := congrArg (·.setAt i)
    (r.refCounter.decremented (exclusionRoutes nexthop) r.routes p).idMap
  inStep h := h.decrement (exclusionRoutes_maintain nexthop) p

/-- The references of the initial addresses are taken under the first identifier. -/
theorem hooked_initial (l : List Prefix) (r : SysOps Nexthop) :
    Hooked r (l.foldl (fun r p => r.beforeHook nexthop "init" p) r)
      (fun q => r.refCounter.count q + l.count q)
      (fun i => if i = "init" then r.refCounter.keysOf i ++ l else r.refCounter.keysOf i) := by
  induction l generalizing r with
  | nil => simpa using hooked_refl r
  | cons p l ih =>
    have hh : Hooked r (r.beforeHook nexthop "init" p) _ _ := hooked_beforeHook "init" p
    have ih := ih (r.beforeHook nexthop "init" p)
    refine ⟨ih.initAddresses, ih.conns, fun q => ?_, fun i => ?_, fun hs => ih.inStep (hh.inStep hs)⟩
    · rw [foldl_cons, ih.count_eq, hh.count_eq, count_cons]
      simp only [beq_iff_eq, eq_comm (a := q)]
      omega
    · rw [foldl_cons, ih.keys_eq, hh.keys_eq]
      split
      · simp_all
      · rfl

theorem inv_setupHooks : (setupHooks nexthop initAddresses).Inv := by
  have hh : Hooked _ (setupHooks nexthop initAddresses) _ _ :=
    hooked_initial (initAddresses.filterMap getPrefixFromIP) { initAddresses }
  refine ⟨fun p => ?_, hh.inStep (Counter.inStep_empty Finset.notMem_empty), ?_, fun id _ hid => ?_,
    ?_⟩
  · rw [hh.count_eq, hh.conns, initPrefixes, hh.initAddresses]
    exact Nat.add_comm 0 _
  · simp [hh.conns]
  · rw [hh.keys_eq, if_neg hid]
    rfl
  · simp [hh.conns]

section

variable {r' : SysOps Nexthop} {id : String} {a : UDPAddr}

theorem Inv.listen (h : r.Inv) (hs : r.step nexthop (.listen id) = some r') : r'.Inv := by
  simp only [step, ite_none_right_eq_some, some.injEq] at hs
  obtain ⟨⟨hid, hin⟩, rfl⟩ := hs
  refine h.setConn hin (hooked_refl r) (by simp [lookup_eq_none.2 hid, holds, acquired]) ?_
    fun _ _ => rfl
  rw [h.keys_fresh id hid hin]
  exact ⟨fun _ _ => rfl, by simp [PacketConn.isOpen], fun _ => le_rfl, by simp, by simp, by simp,
    by simp, by simp⟩

theorem Inv.writeTo (h : r.Inv) (hcr : r.Careful (.writeTo id a))
    (hs : r.step nexthop (.writeTo id a) = some r') : r'.Inv := by
  simp only [step, bind_eq_some_iff, ite_none_right_eq_some, some.injEq] at hs
  obtain ⟨conn, hl, ho, rfl⟩ := hs
  obtain ⟨hcn, hh⟩ := (h.conn id conn hl).writeTo ho (hcr conn hl)
  exact h.setConn_of_lookup hl (hooked_refl r) (fun p => by rw [hh]) hcn fun _ _ => rfl

/-- The hook of `WriteTo` takes a reference and marks the address. -/
theorem Inv.writeHooks (h : r.Inv) (hs : r.step nexthop (.writeHooks id a) = some r') : r'.Inv := by
  simp only [step, bind_eq_some_iff, ite_none_right_eq_some] at hs
  obtain ⟨conn, hl, hm, hs⟩ := hs
  have hc := h.conn id conn hl
  cases hp : getPrefixFromIP a.ip with
  | none =>
    simp only [hp, some.injEq] at hs
    subst hs
    have hk : ∀ p, (r.refCounter.keysOf id).count p = (r.refCounter.keysOf id).count p +
        if getPrefixFromIP a.ip = some p then 1 else 0 := by simp [hp]
    obtain ⟨hcn, hh⟩ := hc.wrote hm hk
    exact h.setConn_of_lookup hl (hooked_refl r) (fun p => by simp [hh, hp]) hcn fun _ _ => rfl
  | some q =>
    simp only [hp, some.injEq] at hs
    subst hs
    have hk : ∀ p, (r.refCounter.keysOf id ++ [q]).count p =
        (r.refCounter.keysOf id).count p + if getPrefixFromIP a.ip = some p then 1 else 0 := by
      simp [hp, count_singleton]
    obtain ⟨hcn, hh⟩ := hc.wrote hm hk
    refine h.setConn_of_lookup hl (hooked_beforeHook id q) (fun p => ?_) (by simpa using hcn)
      fun i hi => if_neg hi
    rw [hh, hp]
    simp only [some.injEq, eq_comm (a := p)]
    omega

theorem Inv.removeAddress (h : r.Inv) (hcr : r.Careful (.removeAddress id a))
    (hs : r.step nexthop (.removeAddress id a) = some r') : r'.Inv := by
  simp only [step, map_eq_some_iff] at hs
  obtain ⟨conn, hl, rfl⟩ := hs
  obtain ⟨hcn, hh⟩ := (h.conn id conn hl).removeAddress (hcr conn hl)
  exact h.setConn_of_lookup hl (hooked_refl r) (fun p => by rw [hh]) hcn fun _ _ => rfl

/-- The hook of `RemoveAddress` gives back one reference. -/
theorem Inv.removeHooks {p : Prefix} (h : r.Inv) (hcr : r.Careful (.removeHooks id p))
    (hs : r.step nexthop (.removeHooks id p) = some r') : r'.Inv := by
  simp only [step, bind_eq_some_iff, ite_none_right_eq_some, some.injEq] at hs
  obtain ⟨conn, hl, hm, rfl⟩ := hs
  have hc := h.conn id conn hl
  refine h.setConn_of_lookup hl (hooked_addressRemoveHook p)
    (removeHooks_spec h hl hm (hcr conn hl)) ?_ fun _ _ => rfl
  exact { hc with
    removing_le := fun q => le_trans (erase_sublist.count_le q) (hc.removing_le q) }

theorem Inv.close (h : r.Inv) (hs : r.step nexthop (.close id) = some r') : r'.Inv := by
  simp only [step, bind_eq_some_iff, ite_none_right_eq_some, some.injEq] at hs
  obtain ⟨conn, hl, ⟨ho, hw⟩, rfl⟩ := hs
  have hc := h.conn id conn hl
  have hop : conn.isOpen := by simp [PacketConn.isOpen, ho]
  refine h.setConn_of_lookup hl (hooked_refl r) (fun p => ?_) ?_ fun _ _ => rfl
  · simp only [holds, hop]
    rfl
  · exact { hc with
      keys_open := fun _ => hc.keys_open hop
      keys_released := fun hcl => by cases hcl
      writing_closed := fun _ => hw
      seen_of_written := fun _ => hc.seen_of_written hop }

/-- The hook of `Close` gives back the references of the connection. -/
theorem Inv.closeHooks (h : r.Inv) (hcr : r.Careful (.closeHooks id))
    (hs : r.step nexthop (.closeHooks id) = some r') : r'.Inv := by
  simp only [step, bind_eq_some_iff, ite_none_right_eq_some, some.injEq] at hs
  obtain ⟨conn, hl, hph, rfl⟩ := hs
  have hc := h.conn id conn hl
  have hcs : PacketConn.isOpen
      { conn with phase := if conn.isOpen then .released else conn.phase } = false := by
    cases hop : conn.isOpen <;> simp_all [PacketConn.isOpen]
  refine h.setConn_of_lookup hl (hooked_afterHook id) (fun p => ?_) ?_ fun i hi => if_neg hi
  · rw [closeHooks_spec h hl (hcr conn hl) p]
    simp [holds, hcs]
  · simp only [if_true]
    exact { hc with
      keys_open := fun hop => absurd (hcs.symm.trans hop) (by decide)
      keys_released := fun _ => rfl
      writing_closed := fun _ => hc.writing_closed hph
      seen_of_written := fun hop => absurd (hcs.symm.trans hop) (by decide) }

theorem Inv.clear (h : r.Inv) (hs : r.step nexthop (.clear id) = some r') : r'.Inv := by
  simp only [step, bind_eq_some_iff, ite_none_left_eq_some, some.injEq, Bool.not_eq_true] at hs
  obtain ⟨conn, hl, hop, rfl⟩ := hs
  have hc := h.conn id conn hl
  have hph : conn.phase ≠ .opened := fun hp => by simp [PacketConn.isOpen, hp] at hop
  have hw := hc.writing_closed hph
  refine h.setConn_of_lookup hl (hooked_refl r) (fun p => ?_) ?_ fun _ _ => rfl
  · simp only [holds, hop]
    rfl
  · exact ⟨by simp [PacketConn.isOpen], fun _ => hc.keys_released hop, hc.removing_le, by simp,
      by simp [hw], hc.writing_nodup, fun _ => hw, by simp [PacketConn.isOpen]⟩

end

theorem inv_step {r' : SysOps Nexthop} {a : ConnAction} (h : r.Inv) (hcr : r.Careful a)
    (hs : r.step nexthop a = some r') : r'.Inv := by
  cases a with
  | listen _ => exact h.listen hs
  | writeTo _ _ => exact h.writeTo hcr hs
  | writeHooks _ _ => exact h.writeHooks hs
  | removeAddress _ _ => exact h.removeAddress hcr hs
  | removeHooks _ _ => exact h.removeHooks hcr hs
  | close _ => exact h.close hs
  | closeHooks _ => exact h.closeHooks hcr hs
  | clear _ => exact h.clear hs

variable (nexthop) in
/-- The states of the runs whose steps are all careful. -/
abbrev Reached : SysOps Nexthop → Prop :=
  Interleaving.Reaches (step nexthop) Careful (setupHooks nexthop initAddresses)

/-- In every run whose steps are careful, the routes that are needed are installed, and once all
connections are closed only those of the initial addresses are. -/
theorem needed_installed {r : SysOps Nexthop}
    (h : Reached nexthop initAddresses r) : (∀ p, r.Needed p → p ∈ r.routes) ∧
      (r.AllClosed → ∀ p, p ∈ r.routes ↔ p ∈ r.initPrefixes) := by
  have hi : r.Inv := h.invariant (inv_setupHooks initAddresses) fun _ _ _ hp hok hs =>
    inv_step hp hok hs
  constructor
  · intro p hp
    rw [hi.mem_routes_iff, hi.count_eq]
    obtain hp | ⟨id, conn, hl, hop, a, ha, hap⟩ := hp
    · have := count_pos_iff.2 hp
      omega
    · have hsn := (hi.conn id conn hl).seen_of_written hop a ha
      have hac : reference p a true ≤ acquired p conn := le_sumOver (reference p) hsn
      have ho : reference p a true = 1 := by simp [reference, hap]
      have hh : acquired p conn ≤ holds p conn := by simp [holds, hop]
      have hsm := le_sumOver (fun _ => holds p) hl
      omega
  · intro hc p
    have hz : (r.conns.sumOver fun _ => holds p) = 0 :=
      sumOver_eq_zero_iff.2 fun id conn hl => by
        simp [holds, PacketConn.isOpen, hc id conn hl]
    rw [hi.mem_routes_iff, hi.count_eq, hz, Nat.add_zero, count_pos_iff]

/-- A host and one of its ports. -/
def sampleAddr : UDPAddr := ⟨.from4 192 0 2 1, 3478⟩

def sampleHost : Prefix := prefixFrom (.from4 192 0 2 1) 32

/-- A connection is closed without having removed an address, and the other keeps its route. -/
theorem needed_installed_shared : ∃ r : SysOps Unit, Reached (fun _ _ => ()) [] r ∧
    r.Needed sampleHost ∧ sampleHost ∈ r.routes := by
  obtain ⟨r, hr, hw⟩ : ∃ r : SysOps Unit, Reached (fun _ _ => ()) [] r ∧
      r.HasWritten "b" sampleAddr := by
    refine Interleaving.exists_reaches
      [.listen "a", .writeTo "a" sampleAddr, .writeHooks "a" sampleAddr, .listen "b",
        .writeTo "b" sampleAddr, .writeHooks "b" sampleAddr, .close "a", .closeHooks "a",
        .clear "a"] ?_
    decide +kernel
  have hn : r.Needed sampleHost := hw.needed (by decide +kernel)
  exact ⟨r, hr, hn, (needed_installed [] hr).1 sampleHost hn⟩

/-- Two connections have written to a host. One of them removes the address and is then closed: it
gives back its reference twice, and the route of the other is gone. -/
theorem close_after_removeAddress : ∃ r : SysOps Unit,
    Interleaving.Reaches (step fun _ _ => ()) (fun _ _ => True) (setupHooks (fun _ _ => ()) []) r ∧
      r.Needed sampleHost ∧ sampleHost ∉ r.routes := by
  obtain ⟨r, hr, hw, hrt⟩ : ∃ r : SysOps Unit,
      Interleaving.Reaches (step fun _ _ => ()) (fun _ _ => True) (setupHooks (fun _ _ => ()) []) r ∧
        r.HasWritten "b" sampleAddr ∧ sampleHost ∉ r.routes := by
    refine Interleaving.exists_reaches
      [.listen "a", .writeTo "a" sampleAddr, .writeHooks "a" sampleAddr, .listen "b",
        .writeTo "b" sampleAddr, .writeHooks "b" sampleAddr, .removeAddress "a" sampleAddr,
        .removeHooks "a" sampleHost, .close "a", .closeHooks "a"] ?_
    decide +kernel
  exact ⟨r, hr, hw.needed (by decide +kernel), hrt⟩

end SysOps

end Cloink.RouteManager
