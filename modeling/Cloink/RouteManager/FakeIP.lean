import Cloink.Lib.Bytes
import Cloink.Lib.FinMap
import Cloink.Lib.Netip

/-!
# Fake addresses of routed hosts

Where the firewall can translate addresses, the hosts of a dynamic route are given addresses of
reserved blocks (`client/internal/routemanager/fakeip/fakeip.go`). A pool hands out the next free
address of its block, going around at the end; it never takes one back. The addresses of a block are
counted through.
-/

namespace Cloink.RouteManager

open Netip Bytes AList List Option

/-- The allocations of one address family: `baseIP` and `maxIP` are the ends of the block. -/
structure FakeIPPool where
  nextIP : ℕ
  baseIP : ℕ
  maxIP : ℕ
  allocated : AList fun _ : Addr => ℕ := ∅
  fakeToReal : AList fun _ : ℕ => Addr := ∅

namespace FakeIPPool

variable (p : FakeIPPool)

/-- The addresses in the order they are tried: from the next one to the end of the block, then from
its start. -/
def candidates : List ℕ :=
  range' p.nextIP (p.maxIP + 1 - p.nextIP) ++ range' p.baseIP (p.nextIP - p.baseIP)

/-- The first address that is not in use. -/
def firstFree : Option ℕ := p.candidates.find? fun ip => ip ∉ p.fakeToReal

/-- The fake address of a host, a new one if it has none. When all are in use the round ends where
it began. -/
def allocate (realIP : Addr) : FakeIPPool × Option ℕ :=
  match p.allocated.lookup realIP with
  | some fakeIP => (p, some fakeIP)
  | none =>
    match p.firstFree with
    | some ip =>
      ({ p with
        nextIP := if p.maxIP ≤ ip then p.baseIP else ip + 1
        allocated := p.allocated.insert realIP ip
        fakeToReal := p.fakeToReal.insert ip realIP }, some ip)
    | none => (p, none)

/-- The host has a fake address, or the pool has none left. -/
def Decided (realIP : Addr) : Prop := realIP ∈ p.allocated ∨ p.firstFree = none

variable {p}

theorem decided_allocate (a : Addr) : (p.allocate a).1.Decided a := by
  unfold allocate
  cases hl : p.allocated.lookup a with
  | some ip => exact .inl (mem_of_lookup hl)
  | none =>
    cases hf : p.firstFree with
    | some ip => exact .inl ((mem_insert _).2 (.inl rfl))
    | none => exact .inr hf

/-- A host that has been decided keeps its answer. -/
theorem Decided.allocate {a : Addr} (h : p.Decided a) (b : Addr) : (p.allocate b).1.Decided a ∧
      (p.allocate b).1.allocated.lookup a = p.allocated.lookup a := by
  unfold FakeIPPool.allocate
  cases hl : p.allocated.lookup b with
  | some ip => exact ⟨h, rfl⟩
  | none =>
    cases hf : p.firstFree with
    | none => exact ⟨h, rfl⟩
    | some ip =>
      obtain h | h := h
      · have hab : a ≠ b := fun hab => lookup_eq_none.1 hl (hab ▸ h)
        exact ⟨.inl ((mem_insert _).2 (.inr h)), lookup_insert_ne hab⟩
      · rw [hf] at h
        cases h

/-! ### The loop -/

/-- The address behind another one, which is the first one at the end of the block. -/
def next (p : FakeIPPool) (ip : ℕ) : ℕ := if p.maxIP ≤ ip then p.baseIP else ip + 1

/-- The loop of `allocate`; none when it has not ended after so many rounds. -/
def scan (startIP : ℕ) (realIP : Addr) : ℕ → FakeIPPool → Option (FakeIPPool × Option ℕ)
  | 0, _ => none
  | fuel + 1, p =>
    let currentIP := p.nextIP
    let p := { p with nextIP := p.next p.nextIP }
    if currentIP ∉ p.fakeToReal then
      some ({ p with
        allocated := p.allocated.insert realIP currentIP
        fakeToReal := p.fakeToReal.insert currentIP realIP }, some currentIP)
    else if p.nextIP = startIP then some (p, none)
    else scan startIP realIP fuel p

/-- The maps are inverse to each other, and their addresses and the next one are in the block. -/
structure WellFormed (p : FakeIPPool) : Prop where
  inverse : ∀ a ip, p.allocated.lookup a = some ip ↔ p.fakeToReal.lookup ip = some a
  range : ∀ ip ∈ p.fakeToReal, p.baseIP ≤ ip ∧ ip ≤ p.maxIP
  base_le : p.baseIP ≤ p.nextIP
  le_max : p.nextIP ≤ p.maxIP

/-- The addresses from `ip` on until the loop is back at `startIP`. -/
def rest (p : FakeIPPool) (ip startIP : ℕ) : List ℕ :=
  if startIP ≤ ip then
    range' ip (p.maxIP + 1 - ip) ++ range' p.baseIP (startIP - p.baseIP)
  else range' ip (startIP - ip)

theorem rest_eq_cons {ip startIP : ℕ} (hm : ip ≤ p.maxIP) (hb : p.baseIP ≤ startIP)
    (hs : startIP ≤ p.maxIP) : p.rest ip startIP =
      ip :: if p.next ip = startIP then [] else p.rest (p.next ip) startIP := by
  have hsc (n : ℕ) (hn : 0 < n) : range' ip n = ip :: range' (ip + 1) (n - 1) := by
    obtain ⟨n, rfl⟩ := Nat.exists_eq_succ_of_ne_zero hn.ne'
    rfl
  unfold next
  by_cases ht : p.maxIP ≤ ip
  · obtain rfl : ip = p.maxIP := Nat.le_antisymm hm ht
    rw [if_pos ht, rest, if_pos hs, Nat.add_sub_cancel_left]
    split_ifs with hr
    · simp [hr]
    · simp [rest, Nat.not_le.2 (lt_of_le_of_ne hb hr)]
  · rw [if_neg ht]
    unfold rest
    split_ifs
    all_goals first | omega | rw [hsc _ (by omega)]
    · rw [cons_append, Nat.sub_sub, Nat.add_sub_add_right]
    all_goals simp
    all_goals omega

variable (h : p.WellFormed)

include h

theorem WellFormed.next_mem (ip : ℕ) (hip : p.baseIP ≤ ip) :
    p.baseIP ≤ p.next ip ∧ p.next ip ≤ p.maxIP := by
  have := h.base_le.trans h.le_max
  unfold next
  split_ifs <;> omega

/-- The loop finds the first free address of the rest of the round. -/
theorem scan_eq {realIP : Addr} {startIP fuel : ℕ} (hb : p.baseIP ≤ startIP)
    (hs : startIP ≤ p.maxIP) (hf : (p.rest p.nextIP startIP).length ≤ fuel) :
    scan startIP realIP fuel p = some (match (p.rest p.nextIP startIP).find? (· ∉ p.fakeToReal) with
      | some ip => ({ p with
          nextIP := p.next ip
          allocated := p.allocated.insert realIP ip
          fakeToReal := p.fakeToReal.insert ip realIP }, some ip)
      | none => ({ p with nextIP := startIP }, none)) := by
  induction fuel generalizing p with
  | zero =>
    rw [rest_eq_cons h.le_max hb hs] at hf
    cases hf
  | succ fuel ih =>
    rw [rest_eq_cons h.le_max hb hs] at hf ⊢
    rw [scan, find?_cons]
    by_cases hu : p.nextIP ∈ p.fakeToReal
    · have hn := h.next_mem p.nextIP h.base_le
      simp only [hu, not_true_eq_false, decide_false, ↓reduceIte]
      split_ifs with hr
      · simp [hr]
      · rw [if_neg hr, length_cons, Nat.succ_le_succ_iff] at hf
        exact ih ⟨h.inverse, h.range, hn.1, hn.2⟩ hb hs hf
    · simp [hu]

/-- With enough fuel the loop returns what `allocate` does. -/
theorem WellFormed.scan_eq_allocate {ip : Addr} (hn : ip ∉ p.allocated)
    {fuel : ℕ} (hf : p.maxIP + 1 - p.baseIP ≤ fuel) :
    scan p.nextIP ip fuel p = some (p.allocate ip) := by
  have hr : p.rest p.nextIP p.nextIP = p.candidates := if_pos le_rfl
  have hl : p.candidates.length ≤ fuel := by
    have := h.base_le
    have := h.le_max
    simp only [candidates, length_append, length_range']
    omega
  rw [scan_eq h h.base_le h.le_max (hr ▸ hl), hr, allocate, lookup_eq_none.2 hn, firstFree]
  cases p.candidates.find? (· ∉ p.fakeToReal) <;> rfl

/-- There is no free address exactly when all of the block are in use. -/
theorem WellFormed.firstFree_eq_none_iff :
    p.firstFree = none ↔ ∀ ip, p.baseIP ≤ ip → ip ≤ p.maxIP → ip ∈ p.fakeToReal := by
  have := h.base_le
  have := h.le_max
  simp only [firstFree, candidates, find?_eq_none, mem_append, mem_range'_1,
    decide_eq_true_eq, not_not]
  exact forall_congr' fun ip => ⟨fun hip hb hm => hip (by omega), fun hip hmm =>
    hip (by omega) (by omega)⟩

/-- An allocation keeps the pool well formed and all that was allocated. -/
theorem WellFormed.allocate (b : Addr) : (p.allocate b).1.WellFormed ∧
    (p.allocate b).1.baseIP = p.baseIP ∧ (p.allocate b).1.maxIP = p.maxIP ∧
    ∀ a ip, p.allocated.lookup a = some ip → (p.allocate b).1.allocated.lookup a = some ip := by
  unfold FakeIPPool.allocate
  cases hl : p.allocated.lookup b with
  | some ip => exact ⟨h, rfl, rfl, fun _ _ => id⟩
  | none =>
    cases hf : p.firstFree with
    | none => exact ⟨h, rfl, rfl, fun _ _ => id⟩
    | some ip =>
      have hfr : ip ∉ p.fakeToReal := by simpa using find?_some hf
      have hm := mem_of_find?_eq_some hf
      have hip : p.baseIP ≤ ip ∧ ip ≤ p.maxIP := by
        have := h.base_le
        have := h.le_max
        simp only [candidates, mem_append, mem_range'_1] at hm
        omega
      obtain ⟨hn, hn'⟩ := h.next_mem ip hip.1
      refine ⟨⟨fun a ip' => ?_, fun ip' hip' => ?_, hn, hn'⟩, rfl, rfl, fun a ip' ha => ?_⟩
      · have hi := h.inverse a ip'
        have hnn := lookup_eq_none.2 hfr
        have hb := h.inverse b ip'
        have ha := h.inverse a ip
        simp only [lookup_insert_some]
        grind
      · rcases (mem_insert _).1 hip' with rfl | hip'
        · exact hip
        · exact h.range ip' hip'
      · rw [lookup_insert_ne, ha]
        rintro rfl
        cases hl.symm.trans ha

end FakeIPPool

structure FakeIPManager where
  v4 : FakeIPPool := { nextIP := 0xf0000001, baseIP := 0xf0000001, maxIP := 0xf0fffffe }
  v6 : FakeIPPool := {
    nextIP := 0x01000000000000000000000000000001
    baseIP := 0x01000000000000000000000000000001
    maxIP := 0x0100000000000000fffffffffffffffe }

namespace FakeIPManager

variable (m : FakeIPManager)

/-- The pool for an address, and the addresses it counts through. -/
def pool (ip : Addr) : FakeIPPool := if ip.is6 then m.v6 else m.v4

def addr (ip : Addr) (n : ℕ) : Addr :=
  if ip.is6 then .v6 (Vector.ofFn fun i => byteOf n (15 - i)) ""
  else .v4 (Vector.ofFn fun i => byteOf n (3 - i))

def setPool (ip : Addr) (p : FakeIPPool) : FakeIPManager :=
  if ip.is6 then { m with v6 := p } else { m with v4 := p }

def allocateFakeIP (realIP : Addr) : FakeIPManager × Option Addr :=
  let realIP := realIP.unmap
  if realIP.isValid then
    let (p, ip) := (m.pool realIP).allocate realIP
    (m.setPool realIP p, ip.map (addr realIP))
  else (m, none)

def getFakeIP (realIP : Addr) : Option Addr :=
  let realIP := realIP.unmap
  if realIP.isValid then ((m.pool realIP).allocated.lookup realIP).map (addr realIP) else none

/-- Whether a host has a fake address will not change. -/
def Decided (realIP : Addr) : Prop :=
  realIP.unmap.isValid = true → (m.pool realIP.unmap).Decided realIP.unmap

variable {m}

theorem pool_setPool (a b : Addr) (p : FakeIPPool) :
    (m.setPool b p).pool a = if a.is6 = b.is6 then p else m.pool a := by
  unfold setPool pool
  cases a.is6 <;> cases b.is6 <;> rfl

theorem pool_allocateFakeIP (a b : Addr) : (m.allocateFakeIP b).1.pool a = m.pool a ∨
    (m.allocateFakeIP b).1.pool a = ((m.pool a).allocate b.unmap).1 := by
  unfold allocateFakeIP
  dsimp only
  split
  · rw [pool_setPool]
    split
    · rename_i hf
      have hp : m.pool b.unmap = m.pool a := by simp only [pool, hf]
      exact .inr (by rw [hp])
    · exact .inl rfl
  · exact .inl rfl

theorem decided_allocateFakeIP (a : Addr) : (m.allocateFakeIP a).1.Decided a := by
  intro hv
  simp only [allocateFakeIP, hv, if_true, pool_setPool]
  exact FakeIPPool.decided_allocate a.unmap

theorem Decided.allocateFakeIP {a : Addr} (h : m.Decided a) (b : Addr) :
    (m.allocateFakeIP b).1.Decided a := by
  intro hv
  obtain hp | hp := pool_allocateFakeIP (m := m) a.unmap b <;> rw [hp]
  · exact h hv
  · exact ((h hv).allocate b.unmap).1

/-- Later allocations do not change the address of a host. -/
theorem Decided.getFakeIP_allocateFakeIP {a : Addr} (h : m.Decided a) (b : Addr) :
    (m.allocateFakeIP b).1.getFakeIP a = m.getFakeIP a := by
  unfold getFakeIP
  dsimp only
  split
  · rename_i hv
    obtain hp | hp := pool_allocateFakeIP (m := m) a.unmap b <;> rw [hp]
    rw [((h hv).allocate b.unmap).2]
  · rfl

/-- The pools are well-formed, and their addresses fit into the bytes of their family. -/
def WellFormed (m : FakeIPManager) : Prop :=
  ∀ ip, (m.pool ip).WellFormed ∧ (m.pool ip).maxIP < 256 ^ if ip.is6 then 16 else 4

theorem wellFormed_new : WellFormed {} := by
  intro ip
  unfold pool
  split_ifs <;> exact ⟨⟨by simp, by simp, by simp, by simp⟩, by simp⟩

theorem WellFormed.allocateFakeIP (h : m.WellFormed) (a : Addr) :
    (m.allocateFakeIP a).1.WellFormed := by
  intro ip
  obtain hp | hp := pool_allocateFakeIP (m := m) ip a <;> rw [hp]
  · exact h ip
  · obtain ⟨hwf, -, hm, -⟩ := (h ip).1.allocate a.unmap
    exact ⟨hwf, hm ▸ (h ip).2⟩

theorem beNat_addr {a : Addr} {n : ℕ} (hn : n < 256 ^ if a.is6 then 16 else 4) :
    beNat (addr a n).asSlice = n := by
  unfold addr
  split_ifs at hn ⊢
  · exact (beNat_byteOf (k := 16) n).trans (Nat.mod_eq_of_lt hn)
  · exact (beNat_byteOf (k := 4) n).trans (Nat.mod_eq_of_lt hn)

/-- Addresses of a block are written one to one. -/
theorem addr_inj {a b : Addr} {n n' : ℕ} (hn : n < 256 ^ if a.is6 then 16 else 4)
    (hn' : n' < 256 ^ if b.is6 then 16 else 4) (h : addr a n = addr b n') :
    a.is6 = b.is6 ∧ n = n' := by
  refine ⟨?_, by rw [← beNat_addr hn, h, beNat_addr hn']⟩
  unfold addr at h
  split_ifs at h with ha hb hb
  · exact ha.trans hb.symm
  · simp [ha, hb]

/-- No two hosts have one fake address. -/
theorem WellFormed.getFakeIP_inj (h : m.WellFormed) {a b f : Addr} (ha : m.getFakeIP a = some f)
    (hb : m.getFakeIP b = some f) : a.unmap = b.unmap := by
  simp only [getFakeIP, ite_none_right_eq_some, map_eq_some_iff] at ha hb
  obtain ⟨-, n, hn, rfl⟩ := ha
  obtain ⟨-, n', hn', heq⟩ := hb
  have hlt (c : Addr) (k : ℕ) (hk : (m.pool c).allocated.lookup c = some k) :
      k < 256 ^ if c.is6 then 16 else 4 :=
    ((h c).1.range k (mem_of_lookup (((h c).1.inverse c k).1 hk))).2.trans_lt (h c).2
  obtain ⟨hf, rfl⟩ := addr_inj (hlt _ _ hn') (hlt _ _ hn) heq
  have hp : m.pool b.unmap = m.pool a.unmap := by simp only [pool, hf]
  rw [hp] at hn'
  exact some.inj ((((h _).1.inverse _ _).1 hn).symm.trans (((h _).1.inverse _ _).1 hn'))

theorem getFakeIP_allocateFakeIP_self (a : Addr) :
    (m.allocateFakeIP a).1.getFakeIP a = (m.allocateFakeIP a).2 := by
  unfold allocateFakeIP getFakeIP
  dsimp only
  split_ifs with hv
  · rw [pool_setPool, if_pos rfl]
    unfold FakeIPPool.allocate
    cases hl : (m.pool a.unmap).allocated.lookup a.unmap with
    | some ip => simp [hl]
    | none => cases hf : (m.pool a.unmap).firstFree <;> simp [hl]
  · rfl

theorem isValid_of_getFakeIP {a f : Addr} (h : m.getFakeIP a = some f) :
    a.unmap.isValid ∧ f.isValid := by
  simp only [getFakeIP, ite_none_right_eq_some, map_eq_some_iff] at h
  obtain ⟨hv, n, -, rfl⟩ := h
  refine ⟨hv, ?_⟩
  unfold addr
  split_ifs <;> rfl

theorem decided_of_getFakeIP {a f : Addr} (h : m.getFakeIP a = some f) : m.Decided a := by
  intro hv
  simp only [getFakeIP, hv, if_true, map_eq_some_iff] at h
  obtain ⟨n, hn, -⟩ := h
  exact .inl (mem_of_lookup hn)

/-- The state after calls of `AllocateFakeIP` for these addresses. -/
def run (m : FakeIPManager) (reals : List Addr) : FakeIPManager :=
  reals.foldl (fun m realIP => (m.allocateFakeIP realIP).1) m

/-- All calls keep the manager well formed. -/
theorem WellFormed.run (h : m.WellFormed) (reals : List Addr) : (m.run reals).WellFormed := by
  induction reals generalizing m with
  | nil => exact h
  | cons realIP reals ih => exact ih (h.allocateFakeIP realIP)

theorem pool_run (reals : List Addr) (a : Addr) (h : (m.pool a).WellFormed) :
    ((m.run reals).pool a).baseIP = (m.pool a).baseIP ∧
      ((m.run reals).pool a).maxIP = (m.pool a).maxIP := by
  induction reals generalizing m with
  | nil => exact ⟨rfl, rfl⟩
  | cons realIP reals ih =>
    change (((m.allocateFakeIP realIP).1.run reals).pool a).baseIP = _ ∧ _
    obtain hp | hp := pool_allocateFakeIP (m := m) a realIP
    · exact hp ▸ ih (hp ▸ h)
    · obtain ⟨hwf, hb, hm, -⟩ := h.allocate realIP.unmap
      obtain ⟨hb', hm'⟩ := ih (hp ▸ hwf)
      exact ⟨hb'.trans (hp ▸ hb), hm'.trans (hp ▸ hm)⟩

theorem Decided.getFakeIP_run {a : Addr} (h : m.Decided a) (reals : List Addr) :
    (m.run reals).getFakeIP a = m.getFakeIP a := by
  induction reals generalizing m with
  | nil => rfl
  | cons b reals ih => exact (ih (h.allocateFakeIP b)).trans (h.getFakeIP_allocateFakeIP b)

/-- A call for an address that has a fake one returns it. -/
theorem allocateFakeIP_of_getFakeIP {a f : Addr} (h : m.getFakeIP a = some f) :
    (m.allocateFakeIP a).2 = some f := by
  rw [← getFakeIP_allocateFakeIP_self, (decided_of_getFakeIP h).getFakeIP_allocateFakeIP, h]

/-- After any calls, each pool maps hosts to fake addresses of its block one to one. What a call
returns is what the host has from then on, and all later calls for it return the same. The loop ends;
for a host without an address it fails exactly when all addresses are in use. -/
theorem allocateFakeIP_run (reals : List Addr) (realIP : Addr) :
    let m := run {} reals
    let r := m.allocateFakeIP realIP
    let start := ({} : FakeIPManager).pool realIP.unmap
    let p := m.pool realIP.unmap
    (∀ a ip, p.allocated.lookup a = some ip ↔ p.fakeToReal.lookup ip = some a) ∧
      (∀ ip ∈ p.fakeToReal, start.baseIP ≤ ip ∧ ip ≤ start.maxIP) ∧
      (∀ a f, m.getFakeIP a = some f → m.getFakeIP realIP = some f → a.unmap = realIP.unmap) ∧
      r.1.getFakeIP realIP = r.2 ∧
      (∀ f, r.2 = some f →
        (∃ ip, start.baseIP ≤ ip ∧ ip ≤ start.maxIP ∧ f = addr realIP.unmap ip) ∧
        ∀ more, (r.1.run more).getFakeIP realIP = some f ∧
          ((r.1.run more).allocateFakeIP realIP).2 = some f) ∧
      (realIP.unmap ∉ p.allocated → ∀ fuel, start.maxIP + 1 - start.baseIP ≤ fuel →
        FakeIPPool.scan p.nextIP realIP.unmap fuel p = some (p.allocate realIP.unmap)) ∧
      (realIP.unmap.isValid → (r.2 = none ↔ realIP.unmap ∉ p.allocated ∧
        ∀ ip, start.baseIP ≤ ip → ip ≤ start.maxIP → ip ∈ p.fakeToReal)) := by
  intro m r start p
  have hwf : m.WellFormed := wellFormed_new.run reals
  have hp := (hwf realIP.unmap).1
  obtain ⟨hb, hm⟩ := pool_run (m := {}) reals realIP.unmap (wellFormed_new realIP.unmap).1
  have hself : r.1.getFakeIP realIP = r.2 := getFakeIP_allocateFakeIP_self realIP
  refine ⟨hp.inverse, hb ▸ hm ▸ hp.range, fun a f ha hr => hwf.getFakeIP_inj ha hr, hself,
    fun f hf => ⟨?_, fun more => ?_⟩, fun hn fuel hf => ?_, fun hv => ?_⟩
  · -- the address is that of an entry of the pool after the call
    rw [hf] at hself
    simp only [getFakeIP, ite_none_right_eq_some, map_eq_some_iff] at hself
    obtain ⟨-, ip, hip, rfl⟩ := hself
    have hr := (hwf.allocateFakeIP realIP realIP.unmap).1
    obtain ⟨hb', hm'⟩ := pool_run (m := m) [realIP] realIP.unmap hp
    obtain ⟨hlo, hhi⟩ := hr.range ip (mem_of_lookup ((hr.inverse _ ip).1 hip))
    exact ⟨ip, hb ▸ hb' ▸ hlo, hm ▸ hm' ▸ hhi, rfl⟩
  · have hg : (r.1.run more).getFakeIP realIP = some f := by
      rw [(decided_allocateFakeIP realIP).getFakeIP_run, hself, hf]
    exact ⟨hg, allocateFakeIP_of_getFakeIP hg⟩
  · exact hp.scan_eq_allocate hn (by rwa [hb, hm])
  · have hff := hp.firstFree_eq_none_iff
    rw [hb, hm] at hff
    rw [← hff, ← lookup_eq_none]
    change (allocateFakeIP m realIP).2 = none ↔ _
    simp only [allocateFakeIP, hv, if_true, map_eq_none_iff, FakeIPPool.allocate]
    cases (m.pool realIP.unmap).allocated.lookup realIP.unmap <;>
      cases (m.pool realIP.unmap).firstFree <;> simp

/-- The second call for a host returns the address of the first, also after calls for others. -/
theorem allocateFakeIP_run_again :
    let r := (run {} [.from4 10 0 0 9]).allocateFakeIP (.from4 10 0 0 7)
    r.2 = some (.from4 240 0 0 2) ∧
      ((r.1.run [.from4 10 0 0 8]).allocateFakeIP (.from4 10 0 0 7)).2 = some (.from4 240 0 0 2) := by
  intro r
  have hr : r.2 = some (.from4 240 0 0 2) := by decide +kernel
  obtain ⟨-, -, -, -, hs, -⟩ := allocateFakeIP_run [.from4 10 0 0 9] (.from4 10 0 0 7)
  exact ⟨hr, ((hs _ hr).2 [.from4 10 0 0 8]).2⟩

end FakeIPManager

end Cloink.RouteManager
