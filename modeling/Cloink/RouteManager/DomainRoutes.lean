import Cloink.RouteManager.AllowedIPs
import Cloink.RouteManager.FakeIP
import Mathlib.Data.List.Dedup

/-!
# Routes of domains

A route to domains is a route to the hosts that the names resolve to. Its handler either intercepts
the DNS answers (`client/internal/routemanager/dnsinterceptor`) or resolves the names itself
(`client/internal/routemanager/dynamic`). It lists the prefixes of each domain; for a new prefix it
takes a reference to a route, and one to an allowed IP of its current peer, and it gives them back
when the prefix is gone. The counters are shared by all handlers. Where the firewall translates
addresses, the interceptor routes the fake address of a host.
-/

namespace Cloink.RouteManager

open Netip List AllowedIPsRefCounter

/-- The answers of the callbacks that program the WireGuard device. -/
structure WireGuard where
  add : Prefix → String → Option AddError
  remove : Prefix → String → Bool

/-- The device does as it is told. -/
structure WireGuard.Succeed (wg : WireGuard) : Prop where
  add : ∀ p peerKey, wg.add p peerKey = none
  remove : ∀ p peerKey, wg.remove p peerKey = false

/-- What the handlers share; `env` is what the callbacks of the route counter act on. -/
structure World (Env : Type) where
  routeRefCounter : Counter Prefix Unit := ∅
  env : Env
  allowedIPsRefCounter : AllowedIPsRefCounter := {}
  fakeIPManager : FakeIPManager := {}

/-- What a handler reports. -/
inductive HandlerError where
  | addRoute (p : Prefix)
  | removeRoute (p : Prefix)
  | addAllowedIP (p : Prefix)
  | removeAllowedIP (p : Prefix)
  deriving DecidableEq

inductive HandlerKind where
  | dnsInterceptor
  | dynamic
  deriving DecidableEq

/-- A handler: `domains` has the prefixes of each domain; `internalDnat` says whether the firewall
translates addresses, as it may for an interceptor. -/
structure RouteHandler where
  kind : HandlerKind
  keepRoute : Bool
  internalDnat : Bool
  currentPeerKey : String := ""
  domains : StrMap (List Prefix) := ∅

namespace World

variable {Env : Type} (cb : Callbacks Prefix Unit Unit Env) (wg : WireGuard) (w : World Env)

def incrementRoute (p : Prefix) : World Env × List HandlerError :=
  let (routeRefCounter, env, _, err) := w.routeRefCounter.increment cb w.env p ()
  ({ w with routeRefCounter, env }, err.toList.map fun _ => .addRoute p)

def decrementRoute (p : Prefix) : World Env × List HandlerError :=
  let (routeRefCounter, env, _, err) := w.routeRefCounter.decrement cb w.env p
  ({ w with routeRefCounter, env }, err.toList.map fun _ => .removeRoute p)

def incrementAllowedIP (p : Prefix) (peerKey : String) : World Env × List HandlerError :=
  let (allowedIPsRefCounter, _, err) := w.allowedIPsRefCounter.increment p peerKey (wg.add p peerKey)
  ({ w with allowedIPsRefCounter }, err.toList.map fun _ => .addAllowedIP p)

/-- The callbacks are asked about the peers that the counter takes out and puts in. -/
def decrementAllowedIP (p : Prefix) (peerKey : String) : World Env × List HandlerError :=
  let rm := w.allowedIPsRefCounter
  let (allowedIPsRefCounter, _, err) :=
    rm.decrement p peerKey (wg.remove p (rm.recorded p))
      (wg.add p ((pickSurvivor (release ((rm.entries.lookup p).getD {}) peerKey).peers).getD ""))
  ({ w with allowedIPsRefCounter }, err.toList.map fun _ => .removeAllowedIP p)

/-- A loop that goes on after an error and collects the errors. -/
def each {α : Type} (f : World Env → α → World Env × List HandlerError) (w : World Env) :
    List α → World Env × List HandlerError
  | [] => (w, [])
  | a :: l =>
    let (w, errs) := f w a
    let (w, errs') := each f w l
    (w, errs ++ errs')

end World

/-! ### Changes of a list -/

/-- The prefixes to add, with their repetitions, and those to remove, once each. -/
def determinePrefixChanges (oldPrefixes newPrefixes : List Prefix) : List Prefix × List Prefix :=
  (newPrefixes.filter (· ∉ oldPrefixes), oldPrefixes.dedup.filter (· ∉ newPrefixes))

/-- The old prefixes without those removed, and those added, as a set. -/
def combinePrefixes (oldPrefixes removedPrefixes addedPrefixes : List Prefix) : List Prefix :=
  (oldPrefixes.dedup.filter (· ∉ removedPrefixes)).insertAll addedPrefixes

namespace RouteHandler

variable {Env : Type} (cb : Callbacks Prefix Unit Unit Env) (wg : WireGuard) (h : RouteHandler)

/-- The prefix that is routed for a host: that of its fake address, if it has one. -/
def transformRealToFakePrefix (m : FakeIPManager) (realPrefix : Prefix) : Prefix :=
  if h.internalDnat then
    match m.getFakeIP realPrefix.addr with
    | some fakeIP =>
      match realPrefix.bits with
      | some n => prefixFrom fakeIP n
      | none => ⟨fakeIP.withoutZone, none⟩
    | none => realPrefix
  else realPrefix

/-- All listed prefixes, domain by domain. -/
def listed : List Prefix := h.domains.entries.flatMap fun e => e.2

/-- A route for a prefix, and an allowed IP if there is a current peer. -/
def addRouteAndAllowedIP (w : World Env) (realPrefix : Prefix) : World Env × List HandlerError :=
  match w.incrementRoute cb (h.transformRealToFakePrefix w.fakeIPManager realPrefix) with
  | (w, err :: errs) => (w, err :: errs)
  | (w, []) =>
    if h.currentPeerKey = "" then (w, []) else w.incrementAllowedIP wg realPrefix h.currentPeerKey

/-- Gives back the route of a prefix, and its allowed IP if there is a current peer. -/
def giveBack (w : World Env) (routePrefix realPrefix : Prefix) : World Env × List HandlerError :=
  let (w, errs) := w.decrementRoute cb routePrefix
  if h.currentPeerKey = "" then (w, errs)
  else
    let (w, errs') := w.decrementAllowedIP wg realPrefix h.currentPeerKey
    (w, errs ++ errs')

/-- Gives back what the interceptor holds for a prefix. -/
def removeRouteAndAllowedIP (w : World Env) (realPrefix : Prefix) : World Env × List HandlerError :=
  h.giveBack cb wg w (h.transformRealToFakePrefix w.fakeIPManager realPrefix) realPrefix

/-- Asks for fake addresses of hosts; that there is none left is only logged. -/
def allocateFakeIPs (m : FakeIPManager) (prefixes : List Prefix) : FakeIPManager :=
  if h.internalDnat then prefixes.foldl (fun m p => (m.allocateFakeIP p.addr).1) m else m

/-- The list of a domain after a DNS answer, which is stored only if something changed. -/
def newList (oldPrefixes newPrefixes : List Prefix) : List Prefix :=
  let (toAdd, toRemove) := determinePrefixChanges oldPrefixes newPrefixes
  if toAdd ≠ [] ∨ toRemove ≠ [] then
    if h.keepRoute then oldPrefixes ++ toAdd else newPrefixes
  else oldPrefixes

/-- The interceptor has an answer with prefixes of a domain. -/
def updateDomainPrefixes (w : World Env) (resolvedDomain : String) (newPrefixes : List Prefix) :
    RouteHandler × World Env × List HandlerError :=
  let oldPrefixes := h.domains.setAt resolvedDomain
  let (toAdd, toRemove) := determinePrefixChanges oldPrefixes newPrefixes
  let w := { w with fakeIPManager := h.allocateFakeIPs w.fakeIPManager toAdd }
  let (w, errs) := w.each (h.addRouteAndAllowedIP cb wg) toAdd
  let (w, errs') :=
    if h.keepRoute then (w, []) else w.each (h.removeRouteAndAllowedIP cb wg) toRemove
  let h := if toAdd ≠ [] ∨ toRemove ≠ [] then
      { h with domains := h.domains.insert resolvedDomain (h.newList oldPrefixes newPrefixes) }
    else h
  (h, w, errs ++ errs')

/-- Adds the routes of a domain; a prefix without route is not added. -/
def addRoutes (w : World Env) : List Prefix → List Prefix × World Env × List HandlerError
  | [] => ([], w, [])
  | p :: prefixes =>
    match w.incrementRoute cb p with
    | (w, err :: errs) =>
      let (added, w, errs') := addRoutes w prefixes
      (added, w, err :: errs ++ errs')
    | (w, []) =>
      let (w, errs) :=
        if h.currentPeerKey = "" then (w, []) else w.incrementAllowedIP wg p h.currentPeerKey
      let (added, w, errs') := addRoutes w prefixes
      (p :: added, w, errs ++ errs')

/-- Removes the routes of a domain, all of which then count as removed. -/
def removeRoutes (w : World Env) (prefixes : List Prefix) :
    List Prefix × World Env × List HandlerError :=
  if h.keepRoute then ([], w, [])
  else
    let (w, errs) := w.each (fun w p => h.giveBack cb wg w p p) prefixes
    (prefixes, w, errs)

/-- One domain of a resolution. -/
def updateDynamicDomain (w : World Env) (domain : String) (newPrefixes : List Prefix) :
    RouteHandler × World Env × List HandlerError :=
  let oldPrefixes := h.domains.setAt domain
  let (toAdd, toRemove) := determinePrefixChanges oldPrefixes newPrefixes
  let (added, w, errs) := h.addRoutes cb wg w toAdd
  let (removed, w, errs') := h.removeRoutes cb wg w toRemove
  ({ h with domains := h.domains.insert domain (combinePrefixes oldPrefixes removed added) }, w,
    errs ++ errs')

/-- The dynamic route has resolved its domains. -/
def updateDynamicRoutes (h : RouteHandler) (w : World Env) : List (String × List Prefix) →
    RouteHandler × World Env × List HandlerError
  | [] => (h, w, [])
  | (domain, newPrefixes) :: newDomains =>
    let (h, w, errs) := h.updateDynamicDomain cb wg w domain newPrefixes
    let (h, w, errs') := updateDynamicRoutes h w newDomains
    (h, w, errs ++ errs')

/-- The peer of the route: allowed IPs for all listed prefixes. -/
def addAllowedIPs (w : World Env) (peerKey : String) :
    RouteHandler × World Env × List HandlerError :=
  let (w, errs) := w.each (fun w p => w.incrementAllowedIP wg p peerKey) h.listed
  ({ h with currentPeerKey := peerKey }, w, errs)

/-- The route has no peer: gives back the allowed IPs. -/
def removeAllowedIPs (w : World Env) : RouteHandler × World Env × List HandlerError :=
  let (w, errs) := w.each (fun w p => w.decrementAllowedIP wg p h.currentPeerKey) h.listed
  ({ h with currentPeerKey := "" }, w, errs)

/-- Gives back the routes. The interceptor gives back the allowed IPs as well, the dynamic route
leaves them to `removeAllowedIPs`. -/
def removeRoute (w : World Env) : RouteHandler × World Env × List HandlerError :=
  let (w, errs) := match h.kind with
    | .dnsInterceptor => w.each (h.removeRouteAndAllowedIP cb wg) h.listed
    | .dynamic => w.each (fun w p => w.decrementRoute cb p) h.listed
  ({ h with domains := ∅ }, w, errs)

end RouteHandler

/-! ### The new list of a domain -/

section

variable {oldPrefixes newPrefixes : List Prefix}

theorem nodup_toAdd (hn : newPrefixes.Nodup) :
    (determinePrefixChanges oldPrefixes newPrefixes).1.Nodup :=
  hn.filter _

theorem nodup_toRemove : (determinePrefixChanges oldPrefixes newPrefixes).2.Nodup :=
  (nodup_dedup _).filter _

theorem nodup_old_append_toAdd (ho : oldPrefixes.Nodup) (hn : newPrefixes.Nodup) :
    (oldPrefixes ++ (determinePrefixChanges oldPrefixes newPrefixes).1).Nodup := by
  refine nodup_append.2 ⟨ho, nodup_toAdd hn, fun a ha b hb hab => ?_⟩
  subst hab
  exact (of_decide_eq_true (mem_filter.1 hb).2) ha

variable {p : Prefix}

/-- The prefixes to add are those that are new. -/
theorem mem_toAdd : p ∈ (determinePrefixChanges oldPrefixes newPrefixes).1 ↔
    p ∈ newPrefixes ∧ p ∉ oldPrefixes := by
  simp [determinePrefixChanges]

/-- The prefixes to remove are those that are gone. -/
theorem mem_toRemove : p ∈ (determinePrefixChanges oldPrefixes newPrefixes).2 ↔
    p ∈ oldPrefixes ∧ p ∉ newPrefixes := by
  simp [determinePrefixChanges]

/-- The new list is the old one with what is added and without what is removed. -/
theorem perm_newPrefixes (ho : oldPrefixes.Nodup) (hnw : newPrefixes.Nodup) :
    (newPrefixes ++ (determinePrefixChanges oldPrefixes newPrefixes).2).Perm
      (oldPrefixes ++ (determinePrefixChanges oldPrefixes newPrefixes).1) := by
  have hn : (newPrefixes ++ (determinePrefixChanges oldPrefixes newPrefixes).2).Nodup := by
    refine nodup_append.2 ⟨hnw, nodup_toRemove, fun a ha b hb hab => ?_⟩
    subst hab
    exact (mem_toRemove.1 hb).2 ha
  refine (perm_ext_iff_of_nodup hn (nodup_old_append_toAdd ho hnw)).2 fun p => ?_
  rw [mem_append, mem_append, mem_toAdd, mem_toRemove]
  tauto

/-- The combined list has what was kept and what was added. -/
theorem mem_combinePrefixes {removed added : List Prefix} :
    p ∈ combinePrefixes oldPrefixes removed added ↔ (p ∈ oldPrefixes ∧ p ∉ removed) ∨ p ∈ added := by
  simp [combinePrefixes]

theorem nodup_combinePrefixes (removed added : List Prefix) :
    (combinePrefixes oldPrefixes removed added).Nodup :=
  ((nodup_dedup _).filter _).insertAll _

theorem perm_combinePrefixes (ho : oldPrefixes.Nodup) (hnw : newPrefixes.Nodup)
    {removed : List Prefix}
    (hr : removed = [] ∨ removed = (determinePrefixChanges oldPrefixes newPrefixes).2) :
    (combinePrefixes oldPrefixes removed (determinePrefixChanges oldPrefixes newPrefixes).1 ++
      removed).Perm (oldPrefixes ++ (determinePrefixChanges oldPrefixes newPrefixes).1) := by
  have hs : ∀ p ∈ removed, p ∈ oldPrefixes ∧ p ∉ newPrefixes := by
    intro p hp
    obtain rfl | rfl := hr
    · exact absurd hp not_mem_nil
    · exact mem_toRemove.1 hp
  have hn : removed.Nodup := by
    obtain rfl | rfl := hr
    · exact nodup_nil
    · exact nodup_toRemove
  have hl : (combinePrefixes oldPrefixes removed
      (determinePrefixChanges oldPrefixes newPrefixes).1 ++ removed).Nodup := by
    refine nodup_append.2 ⟨nodup_combinePrefixes _ _, hn, fun a ha b hb hab => ?_⟩
    subst hab
    obtain ⟨-, ha⟩ | ha := mem_combinePrefixes.1 ha
    · exact ha hb
    · exact (hs a hb).2 (mem_toAdd.1 ha).1
  refine (perm_ext_iff_of_nodup hl (nodup_old_append_toAdd ho hnw)).2 fun p => ?_
  rw [mem_append, mem_append, mem_combinePrefixes]
  have := hs p
  tauto

variable {h : RouteHandler}

theorem nodup_newList (ho : oldPrefixes.Nodup) (hn : newPrefixes.Nodup) :
    (h.newList oldPrefixes newPrefixes).Nodup := by
  unfold RouteHandler.newList
  dsimp only
  split
  · split
    · exact nodup_old_append_toAdd ho hn
    · exact hn
  · exact ho

/-- The same for the list that the handler stores, with routes that are kept. -/
theorem perm_newList (ho : oldPrefixes.Nodup) (hn : newPrefixes.Nodup) :
    (h.newList oldPrefixes newPrefixes ++
      if h.keepRoute then [] else (determinePrefixChanges oldPrefixes newPrefixes).2).Perm
      (oldPrefixes ++ (determinePrefixChanges oldPrefixes newPrefixes).1) := by
  unfold RouteHandler.newList
  dsimp only
  split
  · split
    · rw [append_nil]
    · exact perm_newPrefixes ho hn
  · rename_i hs
    obtain ⟨ha, hr⟩ := not_or.1 hs
    rw [not_not.1 ha, not_not.1 hr, ite_self]

end

/-! ### Loops -/

/-- A reference that a handler may hold: to a route, or to an allowed IP of a peer. -/
inductive Holding where
  | route (p : Prefix)
  | allowed (p : Prefix) (peerKey : String)
  deriving DecidableEq

namespace World

variable {Env : Type} {cb : Callbacks Prefix Unit Unit Env} {wg : WireGuard} {w w' w'' : World Env}

/-- How often a reference is held. -/
def holdings (w : World Env) : Holding → ℕ
  | .route p => w.routeRefCounter.count p
  | .allowed p peerKey => w.allowedIPsRefCounter.held p peerKey

structure Acquired (w w' : World Env) (l : List Holding) : Prop where
  fakeIPs : w'.fakeIPManager = w.fakeIPManager
  holdings_eq : ∀ r, w'.holdings r = w.holdings r + l.count r

structure Released (w w' : World Env) (l : List Holding) : Prop where
  fakeIPs : w'.fakeIPManager = w.fakeIPManager
  holdings_eq : ∀ r, w'.holdings r = w.holdings r - l.count r

theorem Acquired.refl (w : World Env) : Acquired w w [] := ⟨rfl, fun _ => rfl⟩

theorem Released.refl (w : World Env) : Released w w [] := ⟨rfl, fun _ => rfl⟩

variable {l l' : List Holding}

theorem Acquired.trans (h : Acquired w w' l) (h' : Acquired w' w'' l') :
    Acquired w w'' (l ++ l') where
  fakeIPs := h'.fakeIPs.trans h.fakeIPs
  holdings_eq r := by rw [h'.holdings_eq, h.holdings_eq, count_append, Nat.add_assoc]

theorem Released.trans (h : Released w w' l) (h' : Released w' w'' l') :
    Released w w'' (l ++ l') where
  fakeIPs := h'.fakeIPs.trans h.fakeIPs
  holdings_eq r := by rw [h'.holdings_eq, h.holdings_eq, count_append, Nat.sub_sub]

variable {α : Type} {f : World Env → α → World Env × List HandlerError} {m : FakeIPManager}
  {g : α → List Holding}

/-- A loop acquires what its rounds do. -/
theorem Acquired.each (hf : ∀ w : World Env, w.fakeIPManager = m → ∀ x, Acquired w (f w x).1 (g x))
    (hw : w.fakeIPManager = m) (l : List α) : Acquired w (w.each f l).1 (l.flatMap g) := by
  induction l generalizing w with
  | nil => exact .refl w
  | cons x l ih =>
    have hx := hf w hw x
    exact hx.trans (ih (hx.fakeIPs.trans hw))

/-- A loop releases what its rounds do. -/
theorem Released.each (hf : ∀ w : World Env, w.fakeIPManager = m → ∀ x, Released w (f w x).1 (g x))
    (hw : w.fakeIPManager = m) (l : List α) : Released w (w.each f l).1 (l.flatMap g) := by
  induction l generalizing w with
  | nil => exact .refl w
  | cons x l ih =>
    have hx := hf w hw x
    exact hx.trans (ih (hx.fakeIPs.trans hw))

theorem acquired_incrementRoute (hcb : cb.Succeed) (w : World Env) (p : Prefix) :
    Acquired w (w.incrementRoute cb p).1 [.route p] where
  fakeIPs := rfl
  holdings_eq
    | .route q => by
      rw [count_singleton]
      simp only [beq_iff_eq, Holding.route.injEq, eq_comm (a := p)]
      exact ((Counter.incremented ..).of_succeed hcb).2 _
    | .allowed .. => rfl

theorem incrementRoute_errors (hcb : cb.Succeed) (w : World Env) (p : Prefix) :
    (w.incrementRoute cb p).2 = [] := by
  have he := ((w.routeRefCounter.incremented cb w.env p ()).of_succeed hcb).1
  simp [incrementRoute, he]

theorem released_decrementRoute (hcb : cb.Succeed) (w : World Env) (p : Prefix) :
    Released w (w.decrementRoute cb p).1 [.route p] where
  fakeIPs := rfl
  holdings_eq
    | .route q => by
      rw [count_singleton]
      simp only [beq_iff_eq, Holding.route.injEq, eq_comm (a := p)]
      exact ((Counter.decremented ..).of_succeed hcb).2 _
    | .allowed .. => rfl

/-- A reference for a peer key is counted for that key. -/
theorem acquired_incrementAllowedIP (hwg : wg.Succeed) (w : World Env) (p : Prefix) {pk : String}
    (hk : pk ≠ "") : Acquired w (w.incrementAllowedIP wg p pk).1 [.allowed p pk] where
  fakeIPs := rfl
  holdings_eq
    | .route _ => rfl
    | .allowed q k => by
      rw [count_singleton, incrementAllowedIP, hwg.add]
      simp only [beq_iff_eq, Holding.allowed.injEq, eq_comm (a := p), eq_comm (a := pk)]
      exact held_increment p q hk k

theorem released_decrementAllowedIP (w : World Env) (p : Prefix) (pk : String) :
    Released w (w.decrementAllowedIP wg p pk).1 [.allowed p pk] where
  fakeIPs := rfl
  holdings_eq
    | .route _ => rfl
    | .allowed q k => by
      rw [count_singleton]
      simp only [beq_iff_eq, Holding.allowed.injEq, eq_comm (a := p), eq_comm (a := pk)]
      exact held_decrement p q pk k _ _

end World

end Cloink.RouteManager
