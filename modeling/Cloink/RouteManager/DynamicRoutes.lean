import Cloink.Lib.Interleaving
import Cloink.RouteManager.DomainRoutes

/-!
# References of the routes of domains

What a handler holds is what its calls have changed in the shared counters. If no DNS result repeats
a prefix, each handler holds, for every prefix, one reference to a route for each of its domains
that lists the prefix; if the watcher also takes the allowed IPs of one peer at a time, it holds as
many allowed IPs of that peer.

## Main definitions

* `RouteHandler.asks`: how often the domains of a handler ask for a reference.
* `Routing.Exact`: handlers hold what they ask for.

## Main results

* `exact_step`: every action keeps this, if no result repeats a prefix.
* `references_exact`: one route for each domain that lists a prefix, and none once removed.
-/

namespace Cloink.RouteManager

open Netip AList List Option World RouteHandler World.Released

/-! ### What a handler lists -/

namespace RouteHandler

/-- How often the domains of a handler list a prefix, by the prefix that is routed for it. -/
def listing (m : FakeIPManager) (h : RouteHandler) (p : Prefix) : ℕ :=
  h.domains.sumOver fun _ l => (l.map (h.transformRealToFakePrefix m)).count p

/-- What goes with a listed prefix: a route, and an allowed IP of the current peer. -/
def asksFor (m : FakeIPManager) (h : RouteHandler) (p : Prefix) : List Holding :=
  .route (h.transformRealToFakePrefix m p) ::
    if h.currentPeerKey = "" then [] else [.allowed p h.currentPeerKey]

/-- How often the domains of a handler ask for a reference. -/
def asks (m : FakeIPManager) (h : RouteHandler) (r : Holding) : ℕ :=
  h.domains.sumOver fun _ l => (l.flatMap (h.asksFor m)).count r

/-- No list repeats a prefix, and it is decided which listed hosts have fake addresses. -/
structure WellFormed (m : FakeIPManager) (h : RouteHandler) : Prop where
  nodup : ∀ d, (h.domains.setAt d).Nodup
  decided : h.internalDnat = true → ∀ d, ∀ p ∈ h.domains.setAt d, m.Decided p.addr
  dynamic : h.kind = .dynamic → h.internalDnat = false

end RouteHandler

/-- Nothing that was decided about fake addresses has changed. -/
def FakeIPManager.Stable (m m' : FakeIPManager) : Prop :=
  ∀ a, m.Decided a → m'.Decided a ∧ m'.getFakeIP a = m.getFakeIP a

namespace FakeIPManager.Stable

variable {m m' m'' : FakeIPManager}

theorem refl (m : FakeIPManager) : Stable m m := fun _ h => ⟨h, rfl⟩

theorem trans (h : Stable m m') (h' : Stable m' m'') : Stable m m'' := fun a ha =>
  ⟨(h' a (h a ha).1).1, (h' a (h a ha).1).2.trans (h a ha).2⟩

theorem allocateFakeIP (m : FakeIPManager) (a : Addr) : Stable m (m.allocateFakeIP a).1 :=
  fun _ h => ⟨h.allocateFakeIP a, h.getFakeIP_allocateFakeIP a⟩

end FakeIPManager.Stable

namespace RouteHandler

variable {h : RouteHandler} {m m' : FakeIPManager}

theorem stable_allocateFakeIPs (m : FakeIPManager) (pfs : List Prefix) :
    m.Stable (h.allocateFakeIPs m pfs) := by
  unfold allocateFakeIPs
  split
  · induction pfs generalizing m with
    | nil => exact .refl m
    | cons p pfs ih => exact (FakeIPManager.Stable.allocateFakeIP m p.addr).trans (ih _)
  · exact .refl m

theorem decided_allocateFakeIPs (hd : h.internalDnat) (m : FakeIPManager)
    {pfs : List Prefix} {p : Prefix} (hp : p ∈ pfs) : (h.allocateFakeIPs m pfs).Decided p.addr := by
  induction pfs generalizing m with
  | nil => exact absurd hp not_mem_nil
  | cons q pfs ih =>
    have hc : h.allocateFakeIPs m (q :: pfs) =
        h.allocateFakeIPs (m.allocateFakeIP q.addr).1 pfs := by
      simp [allocateFakeIPs, hd]
    rw [hc]
    obtain rfl | hp := mem_cons.1 hp
    · exact (stable_allocateFakeIPs _ pfs _ (m.decided_allocateFakeIP p.addr)).1
    · exact ih _ hp

/-- The routed prefix of a host does not change once its address is decided. -/
theorem transform_eq (hm : m.Stable m') {p : Prefix} (hp : h.internalDnat → m.Decided p.addr) :
    h.transformRealToFakePrefix m' p = h.transformRealToFakePrefix m p := by
  unfold transformRealToFakePrefix
  split
  · rename_i hd
    rw [(hm p.addr (hp hd)).2]
  · rfl

/-- Nor does what the handler asks for. -/
theorem WellFormed.asks_eq (hw : h.WellFormed m) (hm : m.Stable m') (r : Holding) :
    h.asks m' r = h.asks m r := by
  refine sumOver_congr fun d l hl => congrArg (List.count r) ?_
  refine flatMap_congr fun q hq => ?_
  unfold asksFor
  rw [transform_eq hm fun hd => hw.decided hd d q (by rwa [setAt_of_lookup hl])]

theorem WellFormed.stable (hw : h.WellFormed m) (hm : m.Stable m') : h.WellFormed m' :=
  ⟨hw.nodup, fun hd d p hp => (hm p.addr (hw.decided hd d p hp)).1, hw.dynamic⟩

theorem sumOver_insert_list (domains : StrMap (List Prefix)) (d : String) (l : List Prefix)
    {w : List Prefix → ℕ} (hw : w [] = 0) :
    ((domains.insert d l).sumOver fun _ => w) + w (domains.setAt d) =
      (domains.sumOver fun _ => w) + w l := by
  have hs := domains.sumOver_insert_add (fun _ => w) d l
  have hst : (domains.lookup d).elim 0 w = w (domains.setAt d) := by
    unfold AList.setAt
    cases domains.lookup d with
    | none => exact hw.symm
    | some l => rfl
  rw [← hst]
  exact hs

/-- A new list of a domain asks for what it adds less what it drops. -/
theorem asks_insert (m : FakeIPManager) {d : String} {l add rem : List Prefix}
    (hp : (l ++ rem).Perm (h.domains.setAt d ++ add)) (r : Holding) :
    asks m { h with domains := h.domains.insert d l } r + (rem.flatMap (h.asksFor m)).count r =
      h.asks m r + (add.flatMap (h.asksFor m)).count r := by
  have hs := sumOver_insert_list h.domains d l (w := fun l => (l.flatMap (h.asksFor m)).count r) rfl
  have hc := (hp.flatMap_right (h.asksFor m)).count_eq r
  rw [flatMap_append, flatMap_append, count_append, count_append] at hc
  have ha : asks m { h with domains := h.domains.insert d l } r =
    (h.domains.insert d l).sumOver fun _ l => (l.flatMap (h.asksFor m)).count r := rfl
  unfold asks at ha ⊢
  omega

theorem asks_route (m : FakeIPManager) (p : Prefix) : h.asks m (.route p) = h.listing m p := by
  refine sumOver_congr fun d l hl => ?_
  clear hl
  induction l with
  | nil => rfl
  | cons q l ih =>
    have hq : (h.asksFor m q).count (.route p) =
        if h.transformRealToFakePrefix m q = p then 1 else 0 := by
      unfold asksFor
      split <;> simp [count_cons]
    simp [count_append, ih, hq, count_cons, Nat.add_comm]

theorem asks_allowed {k : String} (hk : k = "" ∨ k ≠ h.currentPeerKey) (m : FakeIPManager)
    (p : Prefix) : h.asks m (.allowed p k) = 0 := by
  refine sumOver_eq_zero_iff.2 fun d l _ => count_eq_zero.2 fun hm => ?_
  obtain ⟨q, -, hq⟩ := mem_flatMap.1 hm
  unfold asksFor at hq
  split at hq <;> simp_all

/-! ### What a handler holds -/

variable {Env : Type} {cb : Callbacks Prefix Unit Unit Env} {wg : WireGuard}
  {w w' w'' : World Env} {K : Holding → Prop} {others : Holding → ℕ}

/-- The references of some kinds beyond those of others are those that the handler asks for, and no
one has any without a peer. -/
structure Exact (K : Holding → Prop) (w : World Env) (h : RouteHandler) (others : Holding → ℕ) :
    Prop where
  wellFormed : h.WellFormed w.fakeIPManager
  holdings_eq : ∀ r, K r → w.holdings r = others r + h.asks w.fakeIPManager r
  none : ∀ p, K (.allowed p "") → others (.allowed p "") = 0

/-- After a call the handler holds exactly what it asks for, and what was decided stands. -/
abbrev ExactAfter (K : Holding → Prop) (w : World Env) (others : Holding → ℕ)
    (r : RouteHandler × World Env × List HandlerError) : Prop :=
  Exact K r.2.1 r.1 others ∧ w.fakeIPManager.Stable r.2.1.fakeIPManager

/-- Exactness is kept when holdings and demands change alike. -/
theorem Exact.change (hx : Exact K w h others) {h' : RouteHandler}
    (hwf : h'.WellFormed w'.fakeIPManager)
    (heq : ∀ r, K r → w.holdings r = others r + h.asks w.fakeIPManager r →
      w'.holdings r = others r + h'.asks w'.fakeIPManager r) : Exact K w' h' others :=
  ⟨hwf, fun r hr => heq r hr (hx.holdings_eq r hr), hx.none⟩

/-- The list of a domain is replaced: references are taken for what enters it, then given back for
what leaves it. -/
theorem Exact.update (hx : Exact K w h others) (hm : w.fakeIPManager.Stable m') {d : String}
    {l add rem : List Prefix} (hdc : h.internalDnat → ∀ p ∈ add, m'.Decided p.addr)
    (hac : World.Acquired { w with fakeIPManager := m' } w' (add.flatMap (h.asksFor m')))
    (hr : World.Released w' w'' (rem.flatMap (h.asksFor m')))
    (hpr : (l ++ rem).Perm (h.domains.setAt d ++ add)) (hl : l.Nodup) :
    Exact K w'' { h with domains := h.domains.insert d l } others ∧
      w.fakeIPManager.Stable w''.fakeIPManager := by
  have hf : w''.fakeIPManager = m' := hr.fakeIPs.trans hac.fakeIPs
  have hwf := hx.wellFormed.stable hm
  rw [← hf] at hm
  refine ⟨hx.change ⟨fun d' => ?_, fun hd d' p hp => ?_, hwf.dynamic⟩ fun r _ heq => ?_, hm⟩
  · rw [setAt_insert]
    split
    · exact hl
    · exact hwf.nodup d'
  · rw [hf]
    rw [setAt_insert] at hp
    split at hp
    · obtain hp | hp := mem_append.1 (hpr.mem_iff.1 (mem_append_left rem hp))
      · exact hwf.decided hd d p hp
      · exact hdc hd p hp
    · exact hwf.decided hd d' p hp
  · have ha := asks_insert m' hpr r
    have hs := hx.wellFormed.asks_eq (hf ▸ hm) r
    have ha' : w'.holdings r = w.holdings r + (add.flatMap (h.asksFor m')).count r :=
      hac.holdings_eq r
    rw [hr.holdings_eq, ha', hf]
    omega

/-! ### The operations -/

section

variable (hcb : cb.Succeed) (hwg : wg.Succeed)

include hcb

include hwg in
theorem acquired_addRouteAndAllowedIP (w : World Env) (p : Prefix) :
    World.Acquired w (h.addRouteAndAllowedIP cb wg w p).1 (h.asksFor w.fakeIPManager p) := by
  have ha := acquired_incrementRoute hcb w (h.transformRealToFakePrefix w.fakeIPManager p)
  have he := incrementRoute_errors hcb w (h.transformRealToFakePrefix w.fakeIPManager p)
  unfold addRouteAndAllowedIP asksFor
  split <;> rename_i heq <;> rw [heq] at ha he
  · cases he
  · split
    · exact ha
    · rename_i hk
      exact ha.trans (acquired_incrementAllowedIP hwg _ p hk)

/-- A prefix that is given back releases its route and its allowed IP. -/
theorem released_giveBack (wg : WireGuard) (w : World Env) (q p : Prefix) :
    World.Released w (h.giveBack cb wg w q p).1
      (.route q :: if h.currentPeerKey = "" then [] else [.allowed p h.currentPeerKey]) := by
  have hr := released_decrementRoute hcb w q
  unfold giveBack
  dsimp only
  split
  · exact hr
  · exact hr.trans (released_decrementAllowedIP _ p h.currentPeerKey)

theorem released_each_remove (wg : WireGuard) (w : World Env) (l : List Prefix) :
    World.Released w (w.each (h.removeRouteAndAllowedIP cb wg) l).1
      (l.flatMap (h.asksFor w.fakeIPManager)) := by
  refine each (m := w.fakeIPManager) (fun w₁ hw₁ p => ?_) rfl l
  rw [← hw₁]
  exact released_giveBack hcb wg w₁ _ p

include hwg in
/-- An answer acquires what is new and releases what is gone. -/
theorem updatePrefixes_spec (w : World Env) (d : String) (np : List Prefix) :
    let c := determinePrefixChanges (h.domains.setAt d) np
    let rem := if h.keepRoute then [] else c.2
    let m := h.allocateFakeIPs w.fakeIPManager c.1
    let r := h.updateDomainPrefixes cb wg w d np
    (r.1 = { h with domains := h.domains.insert d (h.newList (h.domains.setAt d) np) } ∨
        r.1 = h ∧ c.1 = [] ∧ c.2 = []) ∧
      ∃ w' : World Env,
        World.Acquired { w with fakeIPManager := m } w' (c.1.flatMap (h.asksFor m)) ∧
        World.Released w' r.2.1 (rem.flatMap (h.asksFor m)) := by
  intro c rem m r
  have ha : World.Acquired { w with fakeIPManager := m }
      (each (h.addRouteAndAllowedIP cb wg) { w with fakeIPManager := m } c.1).1
      (c.1.flatMap (h.asksFor m)) :=
    World.Acquired.each (m := m) (fun w₁ hw₁ p => by
      rw [← hw₁]
      exact acquired_addRouteAndAllowedIP hcb hwg w₁ p) rfl c.1
  refine ⟨?_, _, ha, ?_⟩
  · by_cases hch : c.1 ≠ [] ∨ c.2 ≠ []
    · exact .inl (if_pos hch)
    · obtain ⟨had, hrm⟩ := not_or.1 hch
      exact .inr ⟨if_neg hch, not_not.1 had, not_not.1 hrm⟩
  · have hrl := released_each_remove (h := h) hcb wg
      (each (h.addRouteAndAllowedIP cb wg) { w with fakeIPManager := m } c.1).1 c.2
    rw [ha.fakeIPs] at hrl
    have hr : r.2.1 = (if h.keepRoute then
        ((each (h.addRouteAndAllowedIP cb wg) { w with fakeIPManager := m } c.1).1, [])
      else (each (h.addRouteAndAllowedIP cb wg) { w with fakeIPManager := m } c.1).1.each
        (h.removeRouteAndAllowedIP cb wg) c.2).1 := rfl
    rw [hr]
    show World.Released _ _ (List.flatMap _ (if h.keepRoute then [] else c.2))
    split
    · exact .refl _
    · exact hrl

include hwg in
/-- An answer without repetitions keeps the references exact. -/
theorem exact_updatePrefixes (hx : Exact K w h others) (d : String)
    {np : List Prefix} (hn : np.Nodup) :
    ExactAfter K w others (h.updateDomainPrefixes cb wg w d np) := by
  obtain ⟨hh, w', ha, hr⟩ := updatePrefixes_spec (h := h) hcb hwg w d np
  have ho := hx.wellFormed.nodup d
  have hu := hx.update (stable_allocateFakeIPs (h := h) w.fakeIPManager _)
    (fun hd p hp => decided_allocateFakeIPs hd _ hp) ha hr (perm_newList ho hn)
    (nodup_newList ho hn)
  obtain hh | ⟨hh, had, hrm⟩ := hh
  · rw [ExactAfter, hh]
    exact hu
  · rw [ExactAfter, hh]
    refine ⟨hx.change (hx.wellFormed.stable hu.2) fun r _ heq => ?_, hu.2⟩
    have ha' : w'.holdings r = w.holdings r + 0 := by
      have := ha.holdings_eq r
      rwa [had] at this
    rw [hr.holdings_eq, ha', hx.wellFormed.asks_eq hu.2, hrm, ite_self]
    exact heq

/-! ### The dynamic route -/

variable (hwf : h.WellFormed w.fakeIPManager)

include hwf

omit hcb in
theorem transform_dynamic (hk : h.kind = .dynamic)
    (m : FakeIPManager) (p : Prefix) : h.transformRealToFakePrefix m p = p := by
  simp [transformRealToFakePrefix, hwf.dynamic hk]

include hwg in
theorem addRoutes_spec (hk : h.kind = .dynamic)
    (m : FakeIPManager) (w : World Env) (l : List Prefix) : (h.addRoutes cb wg w l).1 = l ∧
      World.Acquired w (h.addRoutes cb wg w l).2.1 (l.flatMap (h.asksFor m)) := by
  induction l generalizing w with
  | nil => exact ⟨rfl, .refl w⟩
  | cons p l ih =>
    have hac := acquired_incrementRoute hcb w p
    have he := incrementRoute_errors hcb w p
    unfold addRoutes
    split <;> rename_i heq <;> rw [heq] at hac he
    · cases he
    · rename_i w₁
      have hs : World.Acquired w (if h.currentPeerKey = "" then (w₁, [])
          else w₁.incrementAllowedIP wg p h.currentPeerKey).1 (h.asksFor m p) := by
        unfold asksFor
        rw [transform_dynamic hwf hk]
        split
        · exact hac
        · rename_i hky
          exact hac.trans (acquired_incrementAllowedIP hwg _ p hky)
      obtain ⟨ha, hr⟩ := ih (if h.currentPeerKey = "" then (w₁, [])
        else w₁.incrementAllowedIP wg p h.currentPeerKey).1
      exact ⟨congrArg (p :: ·) ha, hs.trans hr⟩

theorem removeRoutes_spec (hk : h.kind = .dynamic)
    (m : FakeIPManager) (wg : WireGuard) (w : World Env) (l : List Prefix) :
    (h.removeRoutes cb wg w l).1 = (if h.keepRoute then [] else l) ∧
      World.Released w (h.removeRoutes cb wg w l).2.1
        ((if h.keepRoute then [] else l).flatMap (h.asksFor m)) := by
  unfold removeRoutes
  split
  · exact ⟨rfl, .refl w⟩
  · refine ⟨rfl, each (m := w.fakeIPManager) (fun w₁ _ p => ?_) rfl l⟩
    unfold asksFor
    rw [transform_dynamic hwf hk]
    exact released_giveBack hcb wg w₁ p p

omit hwf

variable (hx : Exact K w h others)

include hx

include hwg in
/-- So does a result of the dynamic route. -/
theorem exact_updateDynamicDomain (hk : h.kind = .dynamic)
    (d : String) {np : List Prefix} (hn : np.Nodup) :
    ExactAfter K w others (h.updateDynamicDomain cb wg w d np) := by
  set c := determinePrefixChanges (h.domains.setAt d) np with hc
  obtain ⟨ha, hac⟩ := addRoutes_spec hcb hwg hx.wellFormed hk w.fakeIPManager w c.1
  obtain ⟨hr, hrl⟩ := removeRoutes_spec hcb hx.wellFormed hk w.fakeIPManager wg
    (h.addRoutes cb wg w c.1).2.1 c.2
  have hh : (h.updateDynamicDomain cb wg w d np).1 =
      { h with
        domains := h.domains.insert d (combinePrefixes (h.domains.setAt d)
          (if h.keepRoute then [] else c.2) c.1) } := by
    show mk _ _ _ _ (h.domains.insert d (combinePrefixes _
      (h.removeRoutes cb wg (h.addRoutes cb wg w c.1).2.1 c.2).1 (h.addRoutes cb wg w c.1).1)) = _
    rw [hr, ha]
  rw [ExactAfter, hh]
  refine hx.update (.refl _) (fun hd => ?_) hac hrl
    (perm_combinePrefixes (hx.wellFormed.nodup d) hn (by split <;> simp [hc]))
    (nodup_combinePrefixes _ _)
  rw [hx.wellFormed.dynamic hk] at hd
  cases hd

omit hx in
include hwg in
/-- A whole resolution: what holds after each domain holds after the loop. -/
theorem updateDynamicRoutes_exact {nd : List (String × List Prefix)}
    (hn : ∀ e ∈ nd, e.2.Nodup) (hk : h.kind = .dynamic) (hx : Exact K w h others) :
    ExactAfter K w others (h.updateDynamicRoutes cb wg w nd) := by
  induction nd generalizing h w with
  | nil => exact ⟨hx, .refl _⟩
  | cons e nd ih =>
    obtain ⟨hst, hs⟩ :=
      exact_updateDynamicDomain hcb hwg hx hk e.1 (hn e mem_cons_self)
    have hk' : (h.updateDynamicDomain cb wg w e.1 e.2).1.kind = .dynamic := hk
    obtain ⟨he, hs'⟩ := ih (fun e' he' => hn e' (mem_cons_of_mem e he')) hk' hst
    exact ⟨he, hs.trans hs'⟩

/-! ### Peers, and the end of a route -/

omit hx in
omit hcb in
theorem count_listed {g : Prefix → List Holding} {r : Holding}
    (hg : ∀ p, (g p).count r = (h.asksFor m p).count r) :
    (h.listed.flatMap g).count r = h.asks m r := by
  have hs (l : List Prefix) : (l.flatMap g).count r = (l.flatMap (h.asksFor m)).count r := by
    rw [count_flatMap, count_flatMap]
    exact congrArg List.sum (map_congr_left fun p _ => hg p)
  unfold asks listed AList.sumOver
  induction h.domains.entries with
  | nil => rfl
  | cons e l ih =>
    rw [flatMap_cons, flatMap_append, count_append, ih, hs, map_cons, sum_cons]

omit hcb in
theorem Exact.withPeer {pk : String} (hf : w'.fakeIPManager = w.fakeIPManager)
    (hrt : ∀ p, w'.holdings (.route p) = w.holdings (.route p))
    (ha : ∀ p k, K (.allowed p k) → w.holdings (.allowed p k) =
      others (.allowed p k) + h.asks w.fakeIPManager (.allowed p k) →
      w'.holdings (.allowed p k) = others (.allowed p k) +
        asks w.fakeIPManager { h with currentPeerKey := pk } (.allowed p k)) :
    Exact K w' { h with currentPeerKey := pk } others ∧
      w.fakeIPManager.Stable w'.fakeIPManager := by
  rw [hf]
  refine ⟨hx.change ?_ fun r hr heq => ?_, .refl _⟩
  · rw [hf]
    exact ⟨hx.wellFormed.nodup, hx.wellFormed.decided, hx.wellFormed.dynamic⟩
  · rw [hf]
    cases r with
    | route p =>
      rw [hrt, asks_route, heq, asks_route]
      rfl
    | allowed p k => exact ha p k hr heq

omit hx in
omit hcb in
theorem routes_each {f : World Env → Prefix → World Env × List HandlerError}
    (hf : ∀ w p, (f w p).1.fakeIPManager = w.fakeIPManager ∧
      (f w p).1.routeRefCounter = w.routeRefCounter) (l : List Prefix) (w : World Env) :
    (w.each f l).1.fakeIPManager = w.fakeIPManager ∧
      (w.each f l).1.routeRefCounter = w.routeRefCounter := by
  induction l generalizing w with
  | nil => exact ⟨rfl, rfl⟩
  | cons p l ih =>
    obtain ⟨hfk, hr⟩ := ih (f w p).1
    exact ⟨hfk.trans (hf w p).1, hr.trans (hf w p).2⟩

omit hcb in
include hwg in
theorem exact_addAllowedIPs {pk : String}
    (hK : (∀ p k, ¬K (.allowed p k)) ∨ pk ≠ "" ∧ h.currentPeerKey = "") :
    ExactAfter K w others (h.addAllowedIPs wg w pk) := by
  obtain ⟨hf, hrt⟩ := routes_each (f := fun w p => w.incrementAllowedIP wg p pk)
    (fun _ _ => ⟨rfl, rfl⟩) h.listed w
  refine hx.withPeer hf (fun p => congrArg (Counter.count · p) hrt) fun p k hr heq => ?_
  obtain hK | ⟨hk, hn⟩ := hK
  · exact absurd hr (hK p k)
  have hac := World.Acquired.each (m := w.fakeIPManager)
      (fun w₁ _ p => acquired_incrementAllowedIP hwg w₁ p hk) rfl h.listed
  have hb : h.asks w.fakeIPManager (.allowed p k) = 0 :=
    asks_allowed (by rw [hn]; exact em _) _ p
  have ha := count_listed (h := { h with currentPeerKey := pk })
    (m := w.fakeIPManager) (g := fun p => [.allowed p pk]) (r := .allowed p k) fun q => by
      simp [asksFor, hk]
  rw [← ha]
  exact (hac.holdings_eq _).trans (by rw [heq, hb]; rfl)

omit hcb in
theorem exact_removeAllowedIPs : ExactAfter K w others (h.removeAllowedIPs wg w) := by
  have hrl : World.Released w (h.removeAllowedIPs wg w).2.1
      (h.listed.flatMap fun p => [.allowed p h.currentPeerKey]) :=
    each (m := w.fakeIPManager)
      (fun w₁ _ p => released_decrementAllowedIP w₁ p h.currentPeerKey) rfl h.listed
  obtain ⟨hf, hrt⟩ := routes_each
    (f := fun w p => w.decrementAllowedIP wg p h.currentPeerKey) (fun _ _ => ⟨rfl, rfl⟩) h.listed w
  refine hx.withPeer hf (fun p => congrArg (Counter.count · p) hrt) fun p k hr heq => ?_
  rw [asks_allowed (h := { h with currentPeerKey := "" }) (em _), hrl.holdings_eq, heq]
  by_cases hky : h.currentPeerKey = ""
  · rw [asks_allowed (by rw [hky]; exact em _)]
    by_cases hk : k = ""
    · rw [hk, hx.none p (hk ▸ hr)]
      omega
    · rw [count_eq_zero.2 (by simp [hky, hk])]
      rfl
  · rw [count_listed (m := w.fakeIPManager) fun q => by simp [asksFor, hky]]
    omega

/-- So does the removal of the route. -/
theorem exact_removeRoute
    (hK : (∀ p k, ¬K (.allowed p k)) ∨ (h.kind = .dynamic → h.currentPeerKey = "")) :
    ExactAfter K w others (h.removeRoute cb wg w) := by
  obtain ⟨l, hrl, hl⟩ : ∃ l, World.Released w (h.removeRoute cb wg w).2.1 l ∧
      ∀ r, K r → l.count r = h.asks w.fakeIPManager r := by
    unfold removeRoute
    cases hk : h.kind with
    | dnsInterceptor =>
      exact ⟨_, released_each_remove hcb wg w h.listed, fun r _ => count_listed fun _ => rfl⟩
    | dynamic =>
      refine ⟨_, each (m := w.fakeIPManager)
        (fun w₁ _ p => released_decrementRoute hcb w₁ p) rfl h.listed, fun r hr => ?_⟩
      cases r with
      | route p =>
        refine count_listed fun q => ?_
        unfold asksFor
        rw [transform_dynamic hx.wellFormed hk]
        split <;> simp [count_cons]
      | allowed p k =>
        have hky := (hK.resolve_left fun hK => hK p k hr) hk
        rw [asks_allowed (by rw [hky]; exact em _), count_eq_zero]
        simp
  refine ⟨hx.change ⟨fun d => nodup_nil, fun _ d p hp => absurd hp not_mem_nil,
    hx.wellFormed.dynamic⟩ fun r hr heq => ?_, ?_⟩
  · rw [hrl.holdings_eq, heq, hl r hr, Nat.add_sub_cancel]
    rfl
  · rw [hrl.fakeIPs]
    exact .refl _

end

end RouteHandler

/-! ### All handlers -/

/-- A handler with the references it holds: to routes, and to allowed IPs of peers. -/
structure Holder where
  handler : RouteHandler
  routes : Prefix → ℤ := fun _ => 0
  allowed : Prefix → String → ℤ := fun _ _ => 0

/-- The handlers and what they share. -/
structure Routing (Env : Type) where
  world : World Env
  handlers : AList fun _ : ℕ => Holder := ∅

/-- The calls of a handler. A resolution may find that its context has been cancelled. -/
inductive HandlerCall where
  | updateDomainPrefixes (resolvedDomain : String) (newPrefixes : List Prefix)
  | updateDynamicRoutes (cancelled : Bool) (newDomains : List (String × List Prefix))
  | addAllowedIPs (peerKey : String)
  | removeAllowedIPs
  | removeRoute

/-- A new handler, or a call of one. -/
inductive RouteAction where
  | create (i : ℕ) (kind : HandlerKind) (keepRoute internalDnat : Bool)
  | call (i : ℕ) (c : HandlerCall)

section

variable {Env : Type} (cb : Callbacks Prefix Unit Unit Env) (wg : WireGuard)

/-- What a call does; the two kinds of handlers have their own updates. -/
def RouteHandler.perform (h : RouteHandler) (w : World Env) :
    HandlerCall → Option (RouteHandler × World Env × List HandlerError)
  | .updateDomainPrefixes resolvedDomain newPrefixes =>
    if h.kind = .dnsInterceptor then
      some (h.updateDomainPrefixes cb wg w resolvedDomain newPrefixes)
    else none
  | .updateDynamicRoutes cancelled newDomains =>
    if h.kind = .dynamic then
      some (if cancelled then (h, w, []) else h.updateDynamicRoutes cb wg w newDomains)
    else none
  | .addAllowedIPs peerKey => some (h.addAllowedIPs wg w peerKey)
  | .removeAllowedIPs => some (h.removeAllowedIPs wg w)
  | .removeRoute => some (h.removeRoute cb wg w)

/-- What its watcher sees to in a call: it takes the allowed IPs of a peer when the route has none,
and has given them back when a dynamic route ends. -/
def RouteHandler.WatchedCall (h : RouteHandler) : HandlerCall → Prop
  | .addAllowedIPs peerKey => peerKey ≠ "" ∧ h.currentPeerKey = ""
  | .removeRoute => h.kind = .dynamic → h.currentPeerKey = ""
  | _ => True

instance (h : RouteHandler) : (c : HandlerCall) → Decidable (h.WatchedCall c)
  | .addAllowedIPs _ => inferInstanceAs (Decidable (_ ∧ _))
  | .removeRoute => inferInstanceAs (Decidable (_ → _))
  | .updateDomainPrefixes .. | .updateDynamicRoutes .. | .removeAllowedIPs =>
    inferInstanceAs (Decidable True)

/-- What a handler holds after its call has changed the counters. -/
def Holder.update (b : Holder) (h : RouteHandler) (w w' : World Env) : Holder where
  handler := h
  routes p := b.routes p + (w'.routeRefCounter.count p - w.routeRefCounter.count p)
  allowed p k := b.allowed p k +
    (w'.allowedIPsRefCounter.held p k - w.allowedIPsRefCounter.held p k)

namespace Routing

/-- The dynamic route never translates addresses. -/
def step (s : Routing Env) : RouteAction → Option (Routing Env)
  | .create i kind keepRoute internalDnat =>
    if i ∉ s.handlers ∧ (kind = .dynamic → internalDnat = false) then
      some { s with handlers := s.handlers.insert i { handler := { kind, keepRoute, internalDnat } } }
    else none
  | .call i c => (s.handlers.lookup i).bind fun b =>
    (b.handler.perform cb wg s.world c).map fun r =>
      ⟨r.2.1, s.handlers.insert i (b.update r.1 s.world r.2.1)⟩

/-- No DNS result repeats a prefix. -/
def NoRepeats : RouteAction → Prop
  | .call _ (.updateDomainPrefixes _ newPrefixes) => newPrefixes.Nodup
  | .call _ (.updateDynamicRoutes _ newDomains) => ∀ e ∈ newDomains, e.2.Nodup
  | _ => True

instance : (a : RouteAction) → Decidable (NoRepeats a)
  | .call _ (.updateDomainPrefixes _ newPrefixes) => inferInstanceAs (Decidable newPrefixes.Nodup)
  | .call _ (.updateDynamicRoutes _ newDomains) =>
    inferInstanceAs (Decidable (∀ e ∈ newDomains, e.2.Nodup))
  | .call _ (.addAllowedIPs _) | .call _ .removeAllowedIPs | .call _ .removeRoute | .create .. =>
    inferInstanceAs (Decidable True)

/-- The calls are those of the watchers of the routes. -/
def Watched (s : Routing Env) : RouteAction → Prop
  | .call i c => ∀ b ∈ s.handlers.lookup i, b.handler.WatchedCall c
  | .create .. => True

instance (s : Routing Env) : (a : RouteAction) → Decidable (s.Watched a)
  | .call i c => inferInstanceAs (Decidable (∀ b ∈ s.handlers.lookup i, b.handler.WatchedCall c))
  | .create .. => inferInstanceAs (Decidable True)

end Routing

/-- The references that a handler holds. -/
def Holder.holdings (b : Holder) : Holding → ℤ
  | .route p => b.routes p
  | .allowed p peerKey => b.allowed p peerKey

theorem Holder.holdings_update (b : Holder) (h : RouteHandler) (w w' : World Env) (r : Holding) :
    (b.update h w w').holdings r = b.holdings r + (w'.holdings r - w.holdings r) := by
  cases r <;> rfl

/-- Every handler holds the references of some kinds that it asks for, and these are all. -/
structure Routing.Exact (K : Holding → Prop) (s : Routing Env) : Prop where
  wellFormed : ∀ i b, s.handlers.lookup i = some b → b.handler.WellFormed s.world.fakeIPManager
  held_eq : ∀ i b, s.handlers.lookup i = some b →
    ∀ r, K r → b.holdings r = b.handler.asks s.world.fakeIPManager r
  count_eq : ∀ r, K r → s.world.holdings r =
    s.handlers.sumOver fun _ b => b.handler.asks s.world.fakeIPManager r

/-! ### One call -/

variable {cb wg} {h : RouteHandler} {w : World Env} {K : Holding → Prop} {others : Holding → ℕ}
  {c : HandlerCall} {r : RouteHandler × World Env × List HandlerError}

/-- Every call of a handler keeps the references exact. -/
theorem RouteHandler.perform_exact (hcb : cb.Succeed) (hwg : wg.Succeed) {i : ℕ}
    (hno : Routing.NoRepeats (.call i c)) (hK : (∀ p k, ¬K (.allowed p k)) ∨ h.WatchedCall c)
    (hr : h.perform cb wg w c = some r) (hx : Exact K w h others) : ExactAfter K w others r := by
  cases c with
  | updateDomainPrefixes d l =>
    simp only [perform, ite_none_right_eq_some, some.injEq] at hr
    obtain ⟨-, rfl⟩ := hr
    exact exact_updatePrefixes hcb hwg hx d hno
  | updateDynamicRoutes cancelled newDomains =>
    simp only [perform, ite_none_right_eq_some, some.injEq] at hr
    obtain ⟨hk, rfl⟩ := hr
    split
    · exact ⟨hx, .refl _⟩
    · exact updateDynamicRoutes_exact hcb hwg hno hk hx
  | addAllowedIPs peerKey =>
    cases hr
    exact exact_addAllowedIPs hwg hx hK
  | removeAllowedIPs =>
    cases hr
    exact exact_removeAllowedIPs hx
  | removeRoute =>
    cases hr
    exact exact_removeRoute hcb hx hK

/-! ### Every run -/

namespace Routing

variable {s s' : Routing Env} {a : RouteAction}

theorem Exact.exact (hs : s.Exact K) {i : ℕ} {b : Holder} (hl : s.handlers.lookup i = some b) :
    RouteHandler.Exact K s.world b.handler fun r =>
      (s.handlers.erase i).sumOver fun _ b => b.handler.asks s.world.fakeIPManager r where
  wellFormed := hs.wellFormed i b hl
  holdings_eq r hr := by
    have hsm := s.handlers.sumOver_erase_add (fun _ b => b.handler.asks s.world.fakeIPManager r) i
    rw [hl, elim_some] at hsm
    rw [hs.count_eq r hr, hsm]
  none p _ := sumOver_eq_zero_iff.2 fun _ _ _ => asks_allowed (.inl rfl) _ p

/-- The handler at `i` is a new or a changed one. -/
theorem Exact.insert (hs : s.Exact K) {w' : World Env} {b' : Holder} {i : ℕ}
    (hsb : s.world.fakeIPManager.Stable w'.fakeIPManager)
    (hwf : b'.handler.WellFormed w'.fakeIPManager)
    (hh : ∀ q, K q → b'.holdings q = b'.handler.asks w'.fakeIPManager q)
    (hc : ∀ q, K q → w'.holdings q + ((s.handlers.lookup i).elim 0
      (·.handler.asks s.world.fakeIPManager q)) =
        s.world.holdings q + b'.handler.asks w'.fakeIPManager q) :
    Exact K ⟨w', s.handlers.insert i b'⟩ := by
  -- the fake addresses that others rely on are as they were
  have hsm : ∀ j b, s.handlers.lookup j = some b → ∀ q,
      b.handler.asks w'.fakeIPManager q = b.handler.asks s.world.fakeIPManager q :=
    fun j b hj => (hs.wellFormed j b hj).asks_eq hsb
  refine ⟨fun j b hj => ?_, fun j b hj q hq => ?_, fun q hq => ?_⟩
  · obtain ⟨-, rfl⟩ | ⟨-, hj⟩ := lookup_insert_some.1 hj
    · exact hwf
    · exact (hs.wellFormed j b hj).stable hsb
  · obtain ⟨-, rfl⟩ | ⟨-, hj⟩ := lookup_insert_some.1 hj
    · exact hh q hq
    · rw [hsm j b hj]
      exact hs.held_eq j b hj q hq
  · have hsu := s.handlers.sumOver_insert_add (fun _ b => b.handler.asks w'.fakeIPManager q) i b'
    have he : ((s.handlers.lookup i).elim 0 fun b => b.handler.asks w'.fakeIPManager q) =
        (s.handlers.lookup i).elim 0 (·.handler.asks s.world.fakeIPManager q) := by
      cases hl : s.handlers.lookup i with
      | none => rfl
      | some b => exact hsm i b hl q
    rw [he, sumOver_congr fun j b hj => hsm j b hj q] at hsu
    have := hs.count_eq q hq
    have := hc q hq
    dsimp only
    omega

/-- One call of one handler keeps the references of all exact. -/
theorem exact_step (hcb : cb.Succeed) (hwg : wg.Succeed) (hs : s.Exact K) (hno : NoRepeats a)
    (hK : (∀ p k, ¬K (.allowed p k)) ∨ s.Watched a) (hst : s.step cb wg a = some s') :
    s'.Exact K := by
  cases a with
  | create i kind keepRoute internalDnat =>
    simp only [step, ite_none_right_eq_some, some.injEq] at hst
    obtain ⟨⟨hi, hk⟩, rfl⟩ := hst
    refine hs.insert (.refl _) ⟨fun d => nodup_nil, fun _ d p hp => absurd hp not_mem_nil, hk⟩
      (fun q _ => by cases q <;> rfl) fun q _ => ?_
    rw [lookup_eq_none.2 hi]
    rfl
  | call i c =>
    simp only [step, bind_eq_some_iff, map_eq_some_iff] at hst
    obtain ⟨b, hl, r, hr, rfl⟩ := hst
    have hx := hs.exact hl
    obtain ⟨hx', hsb⟩ := perform_exact hcb hwg hno (hK.imp_right (· b hl)) hr hx
    refine hs.insert hsb hx'.wellFormed (fun q hq => ?_) fun q hq => ?_
    · rw [Holder.holdings_update, hs.held_eq i b hl q hq, hx.holdings_eq q hq, hx'.holdings_eq q hq]
      push_cast
      show _ = (r.1.asks r.2.1.fakeIPManager q : ℤ)
      omega
    · rw [hl, elim_some, hx.holdings_eq q hq, hx'.holdings_eq q hq]
      exact Nat.add_right_comm _ _ _

/-- No handler, and no references. -/
def start (env : Env) : Routing Env := ⟨{ env }, ∅⟩

theorem exact_start (env : Env) : (start env).Exact K :=
  ⟨fun _ _ h => by simp [start] at h, fun _ _ h => by simp [start] at h, fun r _ => by cases r <;> rfl⟩

variable (cb wg) in
/-- The states of the runs in which no result repeats a prefix. -/
abbrev Reached (env : Env) : Routing Env → Prop :=
  Interleaving.Reaches (step cb wg) (fun _ a => NoRepeats a) (start env)

variable (cb wg) in
/-- The states of those runs whose calls are those of watchers. -/
abbrev ReachedWatched (env : Env) : Routing Env → Prop :=
  Interleaving.Reaches (step cb wg) (fun s a => NoRepeats a ∧ s.Watched a) (start env)

variable {env : Env}

/-- In every run the route references are exact. -/
theorem Reached.exact (hcb : cb.Succeed) (hwg : wg.Succeed) (h : Reached cb wg env s) :
    s.Exact fun r => ∃ p, r = .route p :=
  h.invariant (exact_start env) fun _ _ _ hs hno hst =>
    exact_step hcb hwg hs hno (.inl nofun) hst

theorem ReachedWatched.reached (h : ReachedWatched cb wg env s) : Reached cb wg env s :=
  h.mono fun _ _ hok => hok.1

/-- If watchers make the calls, all references are. -/
theorem ReachedWatched.exact (hcb : cb.Succeed) (hwg : wg.Succeed)
    (h : ReachedWatched cb wg env s) : s.Exact fun _ => True :=
  h.invariant (exact_start env) fun _ _ _ hs hok hst =>
    exact_step hcb hwg hs hok.1 (.inr hok.2) hst

end Routing

/-- The number of domains that list a prefix. -/
def RouteHandler.domainsListing (h : RouteHandler) (p : Prefix) : ℕ :=
  h.domains.sumOver fun _ l => if p ∈ l then 1 else 0

theorem RouteHandler.WellFormed.listing_eq_domainsListing {m : FakeIPManager}
    (hw : h.WellFormed m) (hd : h.internalDnat = false) (p : Prefix) :
    h.listing m p = h.domainsListing p := by
  have hid : h.transformRealToFakePrefix m = id := by
    funext q
    simp [transformRealToFakePrefix, hd]
  refine AList.sumOver_congr fun d l hl => ?_
  have hn : l.Nodup := by
    have := hw.nodup d
    rwa [AList.setAt_of_lookup hl] at this
  rw [hid, List.map_id, hn.count]

namespace Routing

variable {s : Routing Env} {env : Env}

theorem asks_removeRoute {s' : Routing Env} {i : ℕ} {b : Holder}
    (hs : s.step cb wg (.call i .removeRoute) = some s') (hl : s'.handlers.lookup i = some b)
    (r : Holding) : (b.handler.asks s'.world.fakeIPManager r : ℤ) = 0 := by
  simp only [step, bind_eq_some_iff, map_eq_some_iff] at hs
  obtain ⟨b₀, -, r, hr, rfl⟩ := hs
  cases hr
  rw [lookup_insert, some.injEq] at hl
  subst hl
  rfl

/-- In every run in which no DNS result repeats a prefix, a handler holds as many routes of a prefix
as its domains list it, and none after it has removed its route. If watchers make the calls, it
holds no allowed IPs either, once it has given them back and removed its route. -/
theorem references_exact (hcb : cb.Succeed) (hwg : wg.Succeed) (env : Env) (s : Routing Env) :
    (Reached cb wg env s → (∀ i b, s.handlers.lookup i = some b → ∀ p,
        b.routes p = b.handler.listing s.world.fakeIPManager p ∧
          (b.handler.internalDnat = false → b.routes p = b.handler.domainsListing p)) ∧
      ∀ i s' b, s.step cb wg (.call i .removeRoute) = some s' → s'.handlers.lookup i = some b →
        ∀ p, b.routes p = 0) ∧
    (ReachedWatched cb wg env s → ∀ i s₁ s₂ b, s.step cb wg (.call i .removeAllowedIPs) = some s₁ →
        s₁.step cb wg (.call i .removeRoute) = some s₂ → s₂.handlers.lookup i = some b →
          ∀ p k, b.routes p = 0 ∧ b.allowed p k = 0) := by
  have hn : ∀ {s s' : Routing Env} {i : ℕ} {b : Holder}, Reached cb wg env s →
      s.step cb wg (.call i .removeRoute) = some s' → s'.handlers.lookup i = some b →
      ∀ p, b.routes p = 0 := by
    intro s s' i b hs hst hl p
    have hno : NoRepeats (.call i .removeRoute) := trivial
    have hs' := Reached.exact hcb hwg (hs.tail hno hst)
    exact (hs'.held_eq i b hl (.route p) ⟨p, rfl⟩).trans (asks_removeRoute hst hl _)
  refine ⟨fun hs => ⟨fun i b hl p => ?_, fun i s' b => hn hs⟩, fun hs i s₁ s₂ b h₁ h₂ hl p k => ?_⟩
  · have he := Reached.exact hcb hwg hs
    have hh := he.held_eq i b hl (.route p) ⟨p, rfl⟩
    rw [asks_route] at hh
    refine ⟨hh, fun hd => Eq.trans hh ?_⟩
    rw [(he.wellFormed i b hl).listing_eq_domainsListing hd]
  · have ho₁ : NoRepeats (.call i .removeAllowedIPs) ∧ s.Watched (.call i .removeAllowedIPs) :=
      ⟨trivial, fun _ _ => trivial⟩
    have hs₁ : ReachedWatched cb wg env s₁ := hs.tail ho₁ h₁
    -- the peer is gone, so the dynamic route may end
    have hp : ∀ b₁ ∈ s₁.handlers.lookup i, b₁.handler.currentPeerKey = "" := by
      intro b₁ hb₁
      simp only [step, bind_eq_some_iff, map_eq_some_iff] at h₁
      obtain ⟨b₀, -, r, hr, rfl⟩ := h₁
      cases hr
      rw [mem_def, lookup_insert, some.injEq] at hb₁
      subst hb₁
      rfl
    have ho₂ : NoRepeats (.call i .removeRoute) ∧ s₁.Watched (.call i .removeRoute) :=
      ⟨trivial, fun b₁ hb₁ _ => hp b₁ hb₁⟩
    have hs₂ : ReachedWatched cb wg env s₂ := hs₁.tail ho₂ h₂
    refine ⟨hn (ReachedWatched.reached hs₁) h₂ hl p, ?_⟩
    have he := ReachedWatched.exact hcb hwg hs₂
    exact (he.held_eq i b hl (.allowed p k) trivial).trans (asks_removeRoute h₂ hl _)

/-- Callbacks that do nothing and succeed. -/
def quietCallbacks : Callbacks Prefix Unit Unit Unit where
  add _ _ env := (.ok (), env)
  remove _ _ env := (false, env)

/-- A device that does as it is told. -/
def quietDevice : WireGuard := ⟨fun _ _ => none, fun _ _ => false⟩

/-- Two hosts of documentation networks. -/
def hostA : Prefix := prefixFrom (.from4 192 0 2 1) 32

def hostB : Prefix := prefixFrom (.from4 192 0 2 2) 32

theorem quietCallbacks_succeed : quietCallbacks.Succeed := ⟨fun _ _ _ => ⟨(), rfl⟩, fun _ _ _ => rfl⟩

theorem quietDevice_succeed : quietDevice.Succeed := ⟨fun _ _ => rfl, fun _ _ => rfl⟩

/-- Two domains of an interceptor list a host; it holds two routes of it, and none in the end. -/
theorem references_exact_shared_host : ∃ s : Routing Unit,
    ReachedWatched quietCallbacks quietDevice () s ∧
      ∃ b ∈ s.handlers.lookup 0, b.routes hostA = b.handler.domainsListing hostA ∧
        b.handler.domainsListing hostA = 2 := by
  obtain ⟨s, hs, b, hb, hl, hd⟩ : ∃ s : Routing Unit,
      ReachedWatched quietCallbacks quietDevice () s ∧
        ∃ b ∈ s.handlers.lookup 0, b.handler.domainsListing hostA = 2 ∧
          b.handler.internalDnat = false := by
    refine Interleaving.exists_reaches [.create 0 .dnsInterceptor false false,
        .call 0 (.updateDomainPrefixes "a.example." [hostA, hostB]),
        .call 0 (.addAllowedIPs "peer"), .call 0 (.updateDomainPrefixes "b.example." [hostA]),
        .call 0 (.updateDomainPrefixes "a.example." [hostA])] ?_
    decide +kernel
  have he := (references_exact quietCallbacks_succeed quietDevice_succeed () s).1
    (ReachedWatched.reached hs)
  exact ⟨s, hs, b, hb, (he.1 0 b hb hostA).2 hd, hl⟩

/-- The result of a resolution repeats a host. The dynamic route takes two references for the one
listing of the host, and still holds one of them when it has removed its route. -/
theorem repeated_host_leaks : ∃ s : Routing Unit,
    Interleaving.Reaches (step quietCallbacks quietDevice) (fun _ _ => True) (start ()) s ∧
      (∃ b ∈ s.handlers.lookup 0, b.routes hostA = 2 ∧ b.handler.domainsListing hostA = 1) ∧
      ∃ s' ∈ s.step quietCallbacks quietDevice (.call 0 .removeRoute),
        ∃ b ∈ s'.handlers.lookup 0, b.routes hostA = 1 := by
  refine Interleaving.exists_reaches [.create 0 .dynamic false false,
      .call 0 (.updateDynamicRoutes false [("a.example", [hostA, hostA])])] ?_
  decide +kernel

end Routing

end

end Cloink.RouteManager
