import Cloink.Lib.FinMap
import Cloink.Lib.Interleaving
import Cloink.Lib.TaskPool

/-!
# Removed TCP routes

The TCP router of the proxy (`proxy/internal/tcp/router.go`) looks a route up and later, under the
lock again, acquires a relay with the context of the service. The removal of a route cancels the
context and drops it, and `getOrCreateServiceCtxLocked` makes a new one for a connection that has
looked the route up before.
-/

namespace Cloink.Proxy

open AList Interleaving TaskPool

/-! ### The router -/

inductive RouteType where
  | http
  | tcp
  deriving DecidableEq

structure Route where
  type : RouteType
  serviceID : String
  target : String
  deriving DecidableEq

/-- Where a connection finds its route. -/
inductive Slot where
  | host (host : String)
  | fallback
  deriving DecidableEq

/-- The contexts of the services, numbered as they are made. -/
structure Contexts where
  svcCtxs : StrMap Nat := ∅
  made : Nat := 0
  cancelled : Finset Nat := ∅

namespace Contexts

variable (c : Contexts) (svcID : String)

def cancelServiceLocked : Contexts :=
  match c.svcCtxs.lookup svcID with
  | none => c
  | some ctx => { c with cancelled := insert ctx c.cancelled, svcCtxs := c.svcCtxs.erase svcID }

def getOrCreateServiceCtxLocked : Nat × Contexts :=
  match c.svcCtxs.lookup svcID with
  | some ctx => (ctx, c)
  | none => (c.made, { c with svcCtxs := c.svcCtxs.insert svcID c.made, made := c.made + 1 })

end Contexts

/-- The router. Beside it, the services whose route was removed from a slot and not added again, and
the routes that a relay was started for after that. -/
structure Router where
  httpCh : Bool := false
  maxRelayConns : Nat := 4096
  routes : StrMap (List Route) := ∅
  fallback : Option Route := none
  draining : Bool := false
  relaySem : Nat := 0
  contexts : Contexts := {}
  removed : Finset (Slot × String) := ∅
  late : List Route := []

namespace Router

variable (toLower : String → String) (r : Router)

def addRoute (host : String) (route : Route) : Router :=
  let host := toLower host
  if host = "" then r
  else
    let routes := r.routes.setAt host
    let removed := r.removed.erase (.host host, route.serviceID)
    match routes.findIdx? (·.serviceID = route.serviceID) with
    | some i =>
      { r with
        contexts := r.contexts.cancelServiceLocked route.serviceID
        routes := r.routes.insert host (routes.set i route), removed }
    | none => { r with routes := r.routes.insert host (routes ++ [route]), removed }

def removeRoute (host svcID : String) : Router :=
  let host := toLower host
  let routes := (r.routes.setAt host).filter (·.serviceID ≠ svcID)
  { r with
    routes := if routes.isEmpty then r.routes.erase host else r.routes.insert host routes
    contexts := r.contexts.cancelServiceLocked svcID
    removed := insert (.host host, svcID) r.removed }

def setFallback (route : Route) : Router :=
  { r with fallback := some route, removed := r.removed.erase (.fallback, route.serviceID) }

def removeFallback (svcID : String) : Router :=
  { r with
    fallback := none
    contexts := r.contexts.cancelServiceLocked svcID
    removed := insert (.fallback, svcID) r.removed }

def isFallbackOnly : Bool := r.routes.entries.isEmpty && !r.httpCh

/-- The first route of the host, of those for HTTP if there are any. -/
def lookupRoute (host : String) : Option Route :=
  match r.routes.setAt host with
  | [] => none
  | route :: routes => some (routes.foldl (fun best route =>
      if route.type = .http ∧ best.type = .tcp then route else best) route)

end Router

/-! ### Connections -/

structure Relay where
  slot : Slot
  route : Route
  ctx : Nat
  deriving DecidableEq

/-- A relay waits for a place under the limit, dials, or relays. -/
inductive Stage where
  | waiting
  | dialling
  | relaying
  deriving DecidableEq

/-- What a connection does next. -/
inductive Task where
  | handleConn
  | peekClientHello
  | lookupRoute (host : String)
  | handleUnmatched
  | relayTCP (slot : Slot) (route : Route)
  | relay (stage : Stage) (relay : Relay)
  deriving DecidableEq

/-- What comes from outside: the name in a ClientHello, if it can be read, and whether an operation
succeeds (of a failed peek, whether the connection can go on). -/
structure Choice where
  sni : Option String := none
  ok : Bool := true

def act (toLower : String → String) (r : Router) (ch : Choice) : Task → Router × List Task
  | .handleConn => (r, [if r.isFallbackOnly then .handleUnmatched else .peekClientHello])
  | .peekClientHello => (r, match ch.sni with
      | some sni => [.lookupRoute (toLower sni)]
      | none => if ch.ok then [.handleUnmatched] else [])
  | .lookupRoute host => (r, match r.lookupRoute host with
      | none => [.handleUnmatched]
      | some route => if route.type = .http then [] else [.relayTCP (.host host) route])
  | .handleUnmatched => (r, (r.fallback.map (Task.relayTCP .fallback)).toList)
  -- the restrictions of the route, which only read the router, and `acquireRelay`
  | .relayTCP slot route =>
    if !ch.ok || r.draining then (r, [])
    else
      let (ctx, contexts) := r.contexts.getOrCreateServiceCtxLocked route.serviceID
      ({ r with contexts }, [.relay .waiting ⟨slot, route, ctx⟩])
  | .relay .waiting relay =>
    if r.relaySem < r.maxRelayConns then
      ({ r with relaySem := r.relaySem + 1 }, [.relay .dialling relay])
    else (r, [])
  | .relay .dialling relay =>
    if ch.ok then
      ({ r with late := if (relay.slot, relay.route.serviceID) ∈ r.removed then
          relay.route :: r.late else r.late }, [.relay .relaying relay])
    else ({ r with relaySem := r.relaySem - 1 }, [])
  | .relay .relaying _ => ({ r with relaySem := r.relaySem - 1 }, [])

inductive Action where
  | accept
  | addRoute (host : String) (route : Route)
  | removeRoute (host svcID : String)
  | setFallback (route : Route)
  | removeFallback (svcID : String)
  | drain
  | run (t : Task) (ch : Choice)

def environment (toLower : String → String) (r : Router) : Action → Option (Router × List Task)
  | .accept => some (r, [.handleConn])
  | .addRoute host route => some (r.addRoute toLower host route, [])
  | .removeRoute host svcID => some (r.removeRoute toLower host svcID, [])
  | .setFallback route => some (r.setFallback route, [])
  | .removeFallback svcID => some (r.removeFallback svcID, [])
  | .drain => some ({ r with draining := true }, [])
  | .run _ _ => none

def step (toLower : String → String) (p : Pool Router Task) : Action → Option (Pool Router Task)
  | .run t ch => p.resume t (some (act toLower p.shared ch t))
  | a => p.spawn (environment toLower p.shared a)

/-! ### Removed routes -/

/-- The relays of removed routes are cancelled, and none was started after the removal. -/
structure Quiet (p : Pool Router Task) : Prop where
  cancelled : ∀ relay, .relay .relaying relay ∈ p.tasks →
    (relay.slot, relay.route.serviceID) ∈ p.shared.removed → relay.ctx ∈ p.shared.contexts.cancelled
  late : p.shared.late = []

/-- A relay is acquired while the route was not removed, and started while its context is not
cancelled. -/
def InPlace (p : Pool Router Task) : Action → Prop
  | .run (.relayTCP slot route) _ => (slot, route.serviceID) ∉ p.shared.removed
  | .run (.relay .dialling relay) ch => ch.ok → relay.ctx ∉ p.shared.contexts.cancelled
  | _ => True

instance (p : Pool Router Task) (a : Action) : Decidable (InPlace p a) := by
  unfold InPlace
  split <;> infer_instance

/-- A relay has the context of its service or a cancelled one, and a cancelled one when its route was
removed. -/
def Task.Bound (r : Router) : Task → Prop
  | .relay _ x => (x.ctx ∈ r.contexts.cancelled ∨
      r.contexts.svcCtxs.lookup x.route.serviceID = some x.ctx) ∧
    ((x.slot, x.route.serviceID) ∈ r.removed → x.ctx ∈ r.contexts.cancelled)
  | _ => True

/-- A context of a service stays its context until it is cancelled, and then stays cancelled. The
context of a service that is removed is cancelled. -/
structure Keeps (r r' : Router) : Prop where
  cancelled : r.contexts.cancelled ⊆ r'.contexts.cancelled := by rfl
  linked : ∀ svcID ctx, r.contexts.svcCtxs.lookup svcID = some ctx → ctx ∈ r'.contexts.cancelled ∨
    r'.contexts.svcCtxs.lookup svcID = some ctx := by exact fun _ _ => .inr
  removed : ∀ e ∈ r'.removed, e ∈ r.removed ∨ ∀ ctx,
    r.contexts.svcCtxs.lookup e.2 = some ctx → ctx ∈ r'.contexts.cancelled := by exact fun _ => .inl
  late : r'.late = r.late := by rfl

variable {r r' : Router} {t : Task} {toLower : String → String}

theorem Task.Bound.keeps (h : t.Bound r) (hk : Keeps r r') : t.Bound r' := by
  cases t with
  | relay stage relay =>
    obtain ⟨hl, hr⟩ := h
    refine ⟨hl.elim (fun hc => .inl (hk.cancelled hc)) (hk.linked _ _), fun he => ?_⟩
    rcases hk.removed _ he with he | hall
    · exact hk.cancelled (hr he)
    · exact hl.elim (fun hc => hk.cancelled hc) (hall _)
  | _ => trivial

theorem cancelServiceLocked_spec (c : Contexts) (svcID : String) :
    let c' := c.cancelServiceLocked svcID
    c.cancelled ⊆ c'.cancelled ∧ ∀ svc ctx, c.svcCtxs.lookup svc = some ctx →
      if svc = svcID then ctx ∈ c'.cancelled else c'.svcCtxs.lookup svc = some ctx := by
  unfold Contexts.cancelServiceLocked
  split
  · exact ⟨Finset.Subset.refl _, by grind⟩
  · exact ⟨Finset.subset_insert _ _, by grind [lookup_erase_ite]⟩

theorem keeps_cancel (r : Router) (svcID : String) {removed : Finset (Slot × String)}
    (hrem : ∀ e ∈ removed, e ∈ r.removed ∨ e.2 = svcID) {routes : StrMap (List Route)}
    {fallback : Option Route} : Keeps r { r with
      contexts := r.contexts.cancelServiceLocked svcID, routes, fallback, removed } := by
  obtain ⟨hc, hl⟩ := cancelServiceLocked_spec r.contexts svcID
  exact ⟨hc, by grind, by grind, rfl⟩

theorem keeps_getOrCreate (r : Router) (svcID : String) :
    let c := r.contexts.getOrCreateServiceCtxLocked svcID
    Keeps r { r with contexts := c.2 } ∧ c.2.svcCtxs.lookup svcID = some c.1 := by
  unfold Contexts.getOrCreateServiceCtxLocked
  split
  · exact ⟨{}, by assumption⟩
  · exact ⟨{ linked := by grind [lookup_insert_ite] }, lookup_insert _⟩

theorem keeps_addRoute (host : String) (route : Route) :
    Keeps r (r.addRoute toLower host route) := by
  unfold Router.addRoute
  dsimp only
  split
  · exact {}
  · split
    · exact keeps_cancel r _ fun e he => .inl (Finset.mem_of_mem_erase he)
    · exact { removed := fun e he => .inl (Finset.mem_of_mem_erase he) }

variable {new : List Task}

theorem keeps_environment {a : Action} (h : environment toLower r a = some (r', new)) :
    Keeps r r' ∧ ∀ u ∈ new, u.Bound r' := by
  cases a <;> cases h
  case accept => exact ⟨{}, by simp [Task.Bound]⟩
  case addRoute => exact ⟨keeps_addRoute _ _, by simp⟩
  case removeRoute => exact ⟨keeps_cancel r _ (by grind), by simp⟩
  case removeFallback => exact ⟨keeps_cancel r _ (by grind), by simp⟩
  case setFallback => exact ⟨{ removed := fun e he => .inl (Finset.mem_of_mem_erase he) }, by simp⟩
  case drain => exact ⟨{}, by simp⟩

theorem keeps_act {ch : Choice} (h : act toLower r ch t = (r', new)) (ht : t.Bound r)
    (hok : InPlace ⟨r, []⟩ (.run t ch)) : Keeps r r' ∧ ∀ u ∈ new, u.Bound r' := by
  rcases t with _ | _ | host | _ | ⟨slot, route⟩ | ⟨_ | _ | _, x⟩ <;> simp only [act] at h
  case relayTCP =>
    obtain ⟨hk, hl⟩ := keeps_getOrCreate r route.serviceID
    split at h <;> cases h
    · exact ⟨{}, by simp⟩
    · exact ⟨hk, by simpa [Task.Bound, hl] using fun he => absurd he hok⟩
  case relay.dialling =>
    split at h
    · rename_i hc
      rw [if_neg fun he => hok hc (ht.2 he)] at h
      cases h
      exact ⟨{}, List.forall_mem_singleton.2 ht⟩
    · cases h
      exact ⟨{}, by simp⟩
  case relay.waiting =>
    split at h <;> cases h
    · exact ⟨{}, List.forall_mem_singleton.2 ht⟩
    · exact ⟨{}, by simp⟩
  case handleUnmatched =>
    cases h
    exact ⟨{}, by cases r.fallback <;> simp [Task.Bound]⟩
  all_goals
    cases h
    exact ⟨{}, by grind [Task.Bound]⟩

/-- While no relay is acquired for a removed route and none is started with a cancelled context, the
relays of removed routes are cancelled and none is started for them. -/
theorem quiet_of_reaches {httpCh : Bool} {p : Pool Router Task}
    (h : Reaches (step toLower) InPlace ⟨{ httpCh }, []⟩ p) : Quiet p := by
  have hi : (∀ t ∈ p.tasks, t.Bound p.shared) ∧ p.shared.late = [] := by
    refine h.invariant (p := fun p => (∀ t ∈ p.tasks, t.Bound p.shared) ∧ p.shared.late = [])
      ⟨by simp, rfl⟩ fun p a p' ⟨hb, hlate⟩ hok hst => ?_
    have hs {r' : Router} {old new : List Task} (ho : old ⊆ p.tasks)
        (hk : Keeps p.shared r' ∧ ∀ u ∈ new, u.Bound r') :
        (∀ t ∈ old ++ new, t.Bound r') ∧ r'.late = [] :=
      ⟨fun t ht => (List.mem_append.1 ht).elim (fun ht => (hb t (ho ht)).keeps hk.1) (hk.2 t),
        hk.1.late.trans hlate⟩
    cases a with
    | run t ch =>
      obtain ⟨htm, r', new, hr, rfl⟩ := Pool.resume_eq_some hst
      exact hs List.erase_subset (keeps_act (Option.some.inj hr) (hb t htm) hok)
    | _ =>
      obtain ⟨r', new, hr, rfl⟩ := Pool.spawn_eq_some hst
      exact hs (List.Subset.refl _) (keeps_environment hr)
  exact ⟨fun x hx => (hi.1 _ hx).2, hi.2⟩

def tcpRoute : Route := ⟨.tcp, "s", "10.0.0.5:5432"⟩

/-- A connection to the host "h" up to the lookup of its route. -/
def lookedUp : List Action := [.addRoute "h" tcpRoute, .accept, .run .handleConn {},
  .run .peekClientHello { sni := some "h" }, .run (.lookupRoute "h") {}]

/-- The same connection from the acquisition of a relay on. -/
def relayed : List Action := [.run (.relayTCP (.host "h") tcpRoute) {},
  .run (.relay .waiting ⟨.host "h", tcpRoute, 0⟩) {},
  .run (.relay .dialling ⟨.host "h", tcpRoute, 0⟩) {}]

theorem quiet_of_reaches_removed : ∃ p, Reaches (step id) InPlace ⟨{}, []⟩ p ∧
    ((.relay .relaying ⟨.host "h", tcpRoute, 0⟩ ∈ p.tasks ∧
      (.host "h", "s") ∈ p.shared.removed) ∧ Quiet p) := by
  have hr : ∃ p, Reaches (step id) InPlace ⟨{}, []⟩ p ∧
      (.relay .relaying ⟨.host "h", tcpRoute, 0⟩ ∈ p.tasks ∧ (.host "h", "s") ∈ p.shared.removed) :=
    exists_reaches (lookedUp ++ relayed ++ [.removeRoute "h" "s"]) (by decide +kernel)
  obtain ⟨p, hp, hx⟩ := hr
  exact ⟨p, hp, hx, quiet_of_reaches hp⟩

/-- The route is removed between the lookup and the acquisition, which makes a new context: the
connection relays for the removed route. -/
theorem removed_route_relays : ∃ p, Reaches (step id) (fun _ _ => True) ⟨{}, []⟩ p ∧
    .relay .relaying ⟨.host "h", tcpRoute, 0⟩ ∈ p.tasks ∧ p.shared.routes.entries = [] ∧
      (.host "h", "s") ∈ p.shared.removed ∧ p.shared.contexts.cancelled = ∅ ∧
        p.shared.late = [tcpRoute] :=
  exists_reaches (lookedUp ++ [.removeRoute "h" "s"] ++ relayed) (by decide +kernel)

end Cloink.Proxy
