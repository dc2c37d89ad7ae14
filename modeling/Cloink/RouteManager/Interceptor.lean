import Cloink.RouteManager.DynamicRoutes
import Cloink.Uspfilter.InternalDNAT

/-!
# DNS answers of an interceptor

The interceptor (`client/internal/routemanager/dnsinterceptor/handler.go`) has one list of prefixes
for a name and replaces it by every answer, so an answer with addresses of one family withdraws the
routes of the other. Where the firewall translates addresses, it maps the fake address of each host
while the host is listed; the mappings are not counted, so a name that leaves a host takes the
mapping away from the other names that have it.
-/

namespace Cloink.RouteManager

open Netip Uspfilter AList List Routing RouteHandler FakeIPManager

/-! ### Answers of both families -/

/-- The prefixes of the A and AAAA records of an answer. -/
def hostPrefixes (ips : List Addr) : List Prefix :=
  ips.map fun ip => prefixFrom ip.unmap ip.bitLen

/-- The prefixes of the latest answer of a family; an answer says whether it is an AAAA answer. -/
def latestPrefixes (v6 : Bool) (answers : List (Bool × List Addr)) : List Prefix :=
  ((answers.filter (·.1 = v6)).getLast?.map fun a => hostPrefixes a.2).getD []

namespace RouteHandler

variable {Env : Type} (cb : Callbacks Prefix Unit Unit Env) (wg : WireGuard)

/-- The part of `writeMsg` in front of the response. -/
def writeMsg (h : RouteHandler) (w : World Env) (resolvedDomain : String) (ips : List Addr) :
    RouteHandler × World Env × List HandlerError :=
  if hostPrefixes ips = [] then (h, w, [])
  else h.updateDomainPrefixes cb wg w resolvedDomain (hostPrefixes ips)

/-- The interceptor and the counters after some answers. -/
def answered (h : RouteHandler) (w : World Env) (d : String) (answers : List (Bool × List Addr)) :
    RouteHandler × World Env :=
  answers.foldl (fun s a => let r := s.1.writeMsg cb wg s.2 d a.2; (r.1, r.2.1)) (h, w)

/-- What an answer changes of the interceptor itself. -/
def setPrefixes (h : RouteHandler) (d : String) (new : List Prefix) : RouteHandler :=
  let c := determinePrefixChanges (h.domains.setAt d) new
  if c.1 ≠ [] ∨ c.2 ≠ [] then
    { h with domains := h.domains.insert d (h.newList (h.domains.setAt d) new) }
  else h

variable {cb wg} {h : RouteHandler} {w : World Env} {d : String} {new : List Prefix}

theorem updatePrefixes_fst : (h.updateDomainPrefixes cb wg w d new).1 = h.setPrefixes d new := rfl

theorem keepRoute_setPrefixes : (h.setPrefixes d new).keepRoute = h.keepRoute := by
  unfold setPrefixes
  dsimp only
  split_ifs <;> rfl

theorem mem_setAt_setPrefixes (hk : h.keepRoute = false) {d' : String} {p : Prefix} :
    p ∈ (h.setPrefixes d new).domains.setAt d' ↔
      if d' = d then p ∈ new else p ∈ h.domains.setAt d' := by
  unfold setPrefixes
  dsimp only
  split_ifs with hc hd hd
  · subst hd
    simp [newList, hc, hk, setAt_insert]
  · simp [hd, setAt_insert]
  · subst hd
    have ha : p ∈ (determinePrefixChanges (h.domains.setAt d') new).1 ↔ _ := mem_toAdd
    have hr : p ∈ (determinePrefixChanges (h.domains.setAt d') new).2 ↔ _ := mem_toRemove
    rw [not_or, not_not, not_not] at hc
    rw [hc.1] at ha
    rw [hc.2] at hr
    simp only [not_mem_nil, false_iff, not_and, not_not] at ha hr
    exact ⟨hr, ha⟩
  · rfl

variable {K : Holding → Prop} {others : Holding → ℕ} {answers : List (Bool × List Addr)}

/-- While the answers are of one family and repeat no address, the interceptor lists what the latest
answers have, with one route for each prefix. -/
theorem answered_routes_latest (hcb : cb.Succeed) (hwg : wg.Succeed) (hx : Exact K w h others)
    (hkeep : h.keepRoute = false) (hnew : h.domains.setAt d = [])
    (hvalid : ∀ a ∈ answers, a.2 ≠ []) (hnodup : ∀ a ∈ answers, (hostPrefixes a.2).Nodup)
    {b : Bool} (hone : ∀ a ∈ answers, a.1 = b) :
    let r := h.answered cb wg w d answers
    Exact K r.2 r.1 others ∧ ∀ p, p ∈ r.1.domains.setAt d ↔
      p ∈ latestPrefixes false answers ∨ p ∈ latestPrefixes true answers := by
  suffices hrn : ∃ r, h.answered cb wg w d answers = r ∧ Exact K r.2 r.1 others ∧
      r.1.keepRoute = false ∧ ∀ p, p ∈ r.1.domains.setAt d ↔ ∃ a ∈ answers.getLast?,
        p ∈ hostPrefixes a.2 by
    obtain ⟨r, rfl, he, -, hl⟩ := hrn
    have hal : answers.filter (·.1 = b) = answers := filter_eq_self.2 (by simpa using hone)
    have hn : answers.filter (·.1 = !b) = [] := filter_eq_nil_iff.2 (by
      intro a ha
      simp [hone a ha])
    refine ⟨he, fun p => (hl p).trans ?_⟩
    cases b <;> simp only [latestPrefixes, hal, Bool.not_true, Bool.not_false] at hn ⊢ <;>
      rw [hn] <;> cases answers.getLast? <;> simp
  induction answers using List.reverseRecOn with
  | nil => exact ⟨_, rfl, hx, hkeep, by simp [answered, hnew]⟩
  | append_singleton answers a ih =>
    simp only [forall_mem_append, forall_mem_singleton] at hvalid hnodup hone
    obtain ⟨r, hr, he, hk', -⟩ := ih hvalid.1 hnodup.1 hone.1
    have hi : hostPrefixes a.2 ≠ [] := by simpa [hostPrefixes] using hvalid.2
    have hls : h.answered cb wg w d (answers ++ [a]) =
        ((r.1.updateDomainPrefixes cb wg r.2 d (hostPrefixes a.2)).1,
          (r.1.updateDomainPrefixes cb wg r.2 d (hostPrefixes a.2)).2.1) := by
      rw [← hr]
      simp [answered, writeMsg, hi]
    refine ⟨_, hls, (exact_updatePrefixes hcb hwg he d hnodup.2).1, ?_, fun p => ?_⟩
    · rw [updatePrefixes_fst, keepRoute_setPrefixes, hk']
    · rw [updatePrefixes_fst, mem_setAt_setPrefixes hk']
      simp

/-- An interceptor that has had no answer. -/
def freshInterceptor (internalDnat : Bool) : RouteHandler where
  kind := .dnsInterceptor
  keepRoute := false
  internalDnat

/-- The second answer has another host in place of one of the first answer. -/
theorem answered_routes_latest_host :
    let r := (freshInterceptor false).answered quietCallbacks quietDevice { env := () }
      "a.example." [(false, [.from4 192 0 2 1, .from4 192 0 2 3]),
        (false, [.from4 192 0 2 1, .from4 192 0 2 2])]
    r.1.domains.setAt "a.example." = [hostA, hostB] ∧
      Exact (fun _ => True) r.2 r.1 (fun _ => 0) := by
  have hx : Exact (fun _ => True) { env := () } (freshInterceptor false) fun _ => 0 := by
    refine ⟨⟨?_, ?_, ?_⟩, fun r _ => by cases r <;> rfl, ?_⟩
    all_goals simp [freshInterceptor, AList.setAt]
  exact ⟨by decide +kernel, (answered_routes_latest (b := false) quietCallbacks_succeed
    quietDevice_succeed hx rfl rfl (by simp) (by decide +kernel) (by simp)).1⟩

/-- An AAAA answer withdraws the routes of the A answer before it. -/
theorem answer_withdraws_other_family :
    let answers := [(false, [.from4 192 0 2 1]), (true, [.v6 (.replicate 16 0x20) ""])]
    let r := (freshInterceptor false).answered quietCallbacks quietDevice { env := () }
      "a.example." answers
    hostA ∈ latestPrefixes false answers ∧ hostA ∉ r.1.domains.setAt "a.example." ∧
      r.2.routeRefCounter.count hostA = 0 := by
  decide +kernel

end RouteHandler

/-! ### Translated hosts -/

/-- An interceptor whose firewall translates addresses, with the fake addresses of its hosts. -/
structure Interceptor where
  handler : RouteHandler
  fakeIPManager : FakeIPManager := {}
  firewall : InternalDNAT := {}

namespace Interceptor

/-- Fake addresses for hosts, and their mappings. -/
def allocateMappings (m : FakeIPManager) (toAdd : List Prefix) :
    FakeIPManager × AList fun _ : Addr => Addr :=
  toAdd.foldl (fun s p => match s.1.allocateFakeIP p.addr with
    | (m, some fakeIP) => (m, s.2.insert fakeIP p.addr)
    | (m, none) => (m, s.2)) (m, ∅)

def addDNATMappings (isLocalIP : Addr → Bool) (fw : InternalDNAT)
    (mappings : List (Sigma fun _ : Addr => Addr)) : InternalDNAT :=
  mappings.foldl (fun fw e => fw.step (.add isLocalIP e.1 e.2)) fw

def removeDNATMappings (m : FakeIPManager) (fw : InternalDNAT) (realPrefixes : List Prefix) :
    InternalDNAT :=
  realPrefixes.foldl (fun fw p => match m.getFakeIP p.addr with
    | some fakeIP => fw.step (.remove fakeIP)
    | none => fw) fw

/-- `updateDomainPrefixes` without the counters, which take no part in the translation. -/
def updateDomainPrefixes (isLocalIP : Addr → Bool) (s : Interceptor) (d : String)
    (new : List Prefix) : Interceptor :=
  let (toAdd, toRemove) := determinePrefixChanges (s.handler.domains.setAt d) new
  let (fakeIPManager, mappings) := allocateMappings s.fakeIPManager toAdd
  let firewall := addDNATMappings isLocalIP s.firewall mappings.entries
  let firewall :=
    if s.handler.keepRoute then firewall else removeDNATMappings fakeIPManager firewall toRemove
  { handler := s.handler.setPrefixes d new, fakeIPManager, firewall }

/-- The listed hosts with fake addresses are translated, unless the firewall refuses them. -/
def Translated (isLocalIP : Addr → Bool) (s : Interceptor) : Prop :=
  ∀ d, ∀ p ∈ s.handler.domains.setAt d, ∀ fakeIP, s.fakeIPManager.getFakeIP p.addr = some fakeIP →
    isLocalIP p.addr = false → s.firewall.dnatMappings.lookup fakeIP = some p.addr

/-- No host that a domain leaves is listed by it or another one, and all hosts are unmapped. -/
structure Unshared (s : Interceptor) (d : String) (new : List Prefix) : Prop where
  unmapped : ∀ p ∈ new, p.addr.unmap = p.addr
  unshared : ∀ p ∈ s.handler.domains.setAt d, p ∉ new →
    ∀ q, (q ∈ new ∨ ∃ d' ≠ d, q ∈ s.handler.domains.setAt d') → q.addr ≠ p.addr

variable {isLocalIP : Addr → Bool}

/-- The runs of an interceptor in which no host is left that is still listed. -/
inductive Run (isLocalIP : Addr → Bool) : Interceptor → Prop
  | new {h : RouteHandler} : h.domains = ∅ → h.keepRoute = false → Run isLocalIP ⟨h, {}, {}⟩
  | update {s : Interceptor} {d : String} {new : List Prefix} : Run isLocalIP s →
      s.Unshared d new → Run isLocalIP (s.updateDomainPrefixes isLocalIP d new)

theorem mem_setAt_updateDomainPrefixes {s : Interceptor} (hk : s.handler.keepRoute = false)
    {d d' : String} {new : List Prefix} {p : Prefix} :
    p ∈ (s.updateDomainPrefixes isLocalIP d new).handler.domains.setAt d' ↔
      if d' = d then p ∈ new else p ∈ s.handler.domains.setAt d' :=
  mem_setAt_setPrefixes hk

theorem lookup_addDNATMappings {fw : InternalDNAT} {l : List (Sigma fun _ : Addr => Addr)}
    {f a : Addr} (hf : ∀ e ∈ l, e.1 = f → e.2 = a) (h : fw.dnatMappings.lookup f = some a ∨
      ⟨f, a⟩ ∈ l ∧ f.isValid ∧ a.isValid ∧ isLocalIP a = false) :
    (addDNATMappings isLocalIP fw l).dnatMappings.lookup f = some a := by
  induction l generalizing fw with
  | nil => simpa [addDNATMappings] using h
  | cons e l ih =>
    refine ih (fun e he => hf e (.tail _ he)) ?_
    have he := hf e (.head _)
    simp only [InternalDNAT.step, InternalDNAT.addInternalDNATMapping]
    split_ifs
    all_goals simp [InternalDNAT.setMapping, Except.toOption, lookup_insert_some]
    all_goals grind

theorem lookup_removeDNATMappings {m : FakeIPManager} {fw : InternalDNAT} {l : List Prefix}
    {f : Addr} (hl : ∀ p ∈ l, m.getFakeIP p.addr ≠ some f) :
    (removeDNATMappings m fw l).dnatMappings.lookup f = fw.dnatMappings.lookup f := by
  induction l generalizing fw with
  | nil => rfl
  | cons p l ih =>
    refine (ih fun p hp => hl p (.tail _ hp)).trans ?_
    have hp := hl p (.head _)
    cases hf : m.getFakeIP p.addr with
    | none => simp only [hf]
    | some fakeIP =>
      simp only [hf, InternalDNAT.step, InternalDNAT.removeInternalDNATMapping]
      split_ifs
      · exact lookup_erase_ne (by rintro rfl; exact hp hf)
      · rfl

theorem allocateMappings_append (m : FakeIPManager) (l : List Prefix) (p : Prefix) :
    let r := allocateMappings m l
    let m' := (r.1.allocateFakeIP p.addr).1
    allocateMappings m (l ++ [p]) =
      (m', match m'.getFakeIP p.addr with | some f => r.2.insert f p.addr | none => r.2) := by
  intro r m'
  rw [getFakeIP_allocateFakeIP_self]
  simp only [allocateMappings, foldl_append, foldl_cons, foldl_nil]
  split <;> simp_all [r, m', allocateMappings]

/-- The mappings are those of the fake addresses that the hosts then have. -/
structure Mapped (m : FakeIPManager) (l : List Prefix)
    (r : FakeIPManager × AList fun _ : Addr => Addr) : Prop where
  wellFormed : r.1.WellFormed
  stable : m.Stable r.1
  decided : ∀ p ∈ l, r.1.Decided p.addr
  sound : ∀ f a, r.2.lookup f = some a → a.unmap = a ∧ r.1.getFakeIP a = some f
  complete : ∀ p ∈ l, ∀ f, r.1.getFakeIP p.addr = some f → r.2.lookup f = some p.addr

theorem mapped_allocateMappings {m : FakeIPManager} (hm : m.WellFormed) {l : List Prefix}
    (hl : ∀ p ∈ l, p.addr.unmap = p.addr) : Mapped m l (allocateMappings m l) := by
  induction l using List.reverseRecOn with
  | nil =>
    exact ⟨hm, .refl m, by simp, by simp [allocateMappings], by simp⟩
  | append_singleton l p ih =>
    simp only [forall_mem_append, forall_mem_singleton] at hl
    obtain ⟨hwf, hst, hd, hs, hc⟩ := ih hl.1
    have hn := FakeIPManager.Stable.allocateFakeIP (allocateMappings m l).1 p.addr
    have hwf' := hwf.allocateFakeIP p.addr
    have hsl := decided_allocateFakeIP (m := (allocateMappings m l).1) p.addr
    rw [allocateMappings_append]
    generalize ((allocateMappings m l).1.allocateFakeIP p.addr).1 = m' at *
    have hs' (f a : Addr) (h : (allocateMappings m l).2.lookup f = some a) :
        a.unmap = a ∧ m'.getFakeIP a = some f :=
      ⟨(hs f a h).1, (hn a (decided_of_getFakeIP (hs f a h).2)).2.trans (hs f a h).2⟩
    have hc' (q : Prefix) (hq : q ∈ l) (f : Addr) (h : m'.getFakeIP q.addr = some f) :
        (allocateMappings m l).2.lookup f = some q.addr :=
      hc q hq f ((hn _ (hd q hq)).2.symm.trans h)
    refine ⟨hwf', hst.trans hn, ?_, ?_, ?_⟩
    · simp only [forall_mem_append, forall_mem_singleton]
      exact ⟨fun q hq => (hn _ (hd q hq)).1, hsl⟩
    · intro f a h
      cases hp : m'.getFakeIP p.addr with
      | none => exact hs' f a (by simpa [hp] using h)
      | some fp =>
        simp only [hp, lookup_insert_some] at h
        obtain ⟨rfl, rfl⟩ | h := h
        · exact ⟨hl.2, hp⟩
        · exact hs' f a h.2
    · simp only [forall_mem_append, forall_mem_singleton]
      refine ⟨fun q hq f h => ?_, fun f h => by simp [h]⟩
      cases hp : m'.getFakeIP p.addr with
      | none => exact hc' q hq f h
      | some fp =>
        simp only [lookup_insert_some]
        by_cases hf : f = fp
        · subst hf
          have := hwf'.getFakeIP_inj hp h
          rw [hl.2, hl.1 q hq] at this
          exact .inl ⟨rfl, this⟩
        · exact .inr ⟨hf, hc' q hq f h⟩

/-- What holds along the runs, beside the translation. -/
structure Inv (isLocalIP : Addr → Bool) (s : Interceptor) : Prop where
  keepRoute : s.handler.keepRoute = false
  wellFormed : s.fakeIPManager.WellFormed
  hosts : ∀ d, ∀ p ∈ s.handler.domains.setAt d,
    p.addr.unmap = p.addr ∧ s.fakeIPManager.Decided p.addr
  translated : s.Translated isLocalIP

theorem Inv.update {s : Interceptor} (hs : s.Inv isLocalIP) {d : String} {new : List Prefix}
    (hn : s.Unshared d new) : (s.updateDomainPrefixes isLocalIP d new).Inv isLocalIP := by
  have hm := mapped_allocateMappings hs.wellFormed
    (l := (determinePrefixChanges (s.handler.domains.setAt d) new).1) fun p hp =>
      hn.unmapped p (mem_toAdd.1 hp).1
  -- a host is listed before, or it is one that the call adds
  have ho (d' : String) (p : Prefix) (hp : p ∈ (s.handler.setPrefixes d new).domains.setAt d') :
      (∃ d', p ∈ s.handler.domains.setAt d') ∨
        p ∈ (determinePrefixChanges (s.handler.domains.setAt d) new).1 := by
    rw [mem_setAt_setPrefixes hs.keepRoute] at hp
    rw [mem_toAdd]
    by_cases hd : p ∈ s.handler.domains.setAt d
    · exact .inl ⟨d, hd⟩
    · split_ifs at hp
      · exact .inr ⟨hp, hd⟩
      · exact .inl ⟨d', hp⟩
  have hh (d' : String) (p : Prefix)
      (hp : p ∈ (s.handler.setPrefixes d new).domains.setAt d') : p.addr.unmap = p.addr ∧
        (allocateMappings s.fakeIPManager
          (determinePrefixChanges (s.handler.domains.setAt d) new).1).1.Decided p.addr := by
    obtain ⟨d', hp⟩ | hp := ho d' p hp
    · exact ⟨(hs.hosts d' p hp).1, (hm.stable _ (hs.hosts d' p hp).2).1⟩
    · exact ⟨hn.unmapped p (mem_toAdd.1 hp).1, hm.decided p hp⟩
  refine ⟨keepRoute_setPrefixes.trans hs.keepRoute, hm.wellFormed, hh, fun d' p hp f hf hlc => ?_⟩
  have hu := (hh d' p hp).1
  simp only [updateDomainPrefixes, hs.keepRoute, Bool.false_eq_true, if_false] at hf ⊢
  rw [lookup_removeDNATMappings]
  · refine lookup_addDNATMappings (fun e he hef => ?_) ?_
    · obtain ⟨hu', hfk⟩ := hm.sound e.1 e.2 (mem_lookup_iff.2 he)
      rw [hef] at hfk
      rw [← hu', ← hu, hm.wellFormed.getFakeIP_inj hfk hf]
    · obtain ⟨d', hp⟩ | hp := ho d' p hp
      · exact .inl (hs.translated d' p hp f
          ((hm.stable _ (hs.hosts d' p hp).2).2.symm.trans hf) hlc)
      · obtain ⟨hv, hfk⟩ := isValid_of_getFakeIP hf
        exact .inr ⟨mem_lookup_iff.1 (hm.complete p hp f hf), hfk, hu ▸ hv, hlc⟩
  · intro q hq hfq
    rw [mem_toRemove] at hq
    have heq := hm.wellFormed.getFakeIP_inj hfq hf
    rw [(hs.hosts d q hq.1).1, hu] at heq
    refine hn.unshared q hq.1 hq.2 p ?_ heq.symm
    have hl := (mem_setAt_setPrefixes hs.keepRoute).1 hp
    split_ifs at hl with hd
    · exact .inl hl
    · exact .inr ⟨d', hd, hl⟩

/-- While no host is left that is still listed, the listed hosts stay translated. -/
theorem translated_of_run {s : Interceptor} (h : Run isLocalIP s) : s.Translated isLocalIP := by
  suffices hi : s.Inv isLocalIP from hi.translated
  induction h with
  | new hd hk =>
    refine ⟨hk, wellFormed_new, ?_, ?_⟩
    all_goals simp [Translated, hd, AList.setAt]
  | update _ hn ih => exact ih.update hn

/-- A name moves from its host to that of another name, which stays translated. -/
theorem translated_of_run_host :
    let s₀ : Interceptor := ⟨freshInterceptor true, {}, {}⟩
    let s₁ := s₀.updateDomainPrefixes (fun _ => false) "a.example." [hostA]
    let s₂ := s₁.updateDomainPrefixes (fun _ => false) "b.example." [hostB]
    let s₃ := s₂.updateDomainPrefixes (fun _ => false) "a.example." [hostB]
    s₃.handler.domains.setAt "a.example." = [hostB] ∧
      s₃.fakeIPManager.getFakeIP hostB.addr = some (.from4 240 0 0 2) ∧
      s₃.firewall.dnatMappings.lookup (.from4 240 0 0 2) = some hostB.addr := by
  intro s₀ s₁ s₂ s₃
  have h₀ : Unshared s₀ "a.example." [hostA] := ⟨by decide, by simp [s₀, freshInterceptor, AList.setAt]⟩
  have h₁ : Unshared s₁ "b.example." [hostB] := by
    have hs : s₁.handler.domains.setAt "b.example." = [] := by decide +kernel
    exact ⟨by decide, by simp [hs]⟩
  have h₂ : Unshared s₂ "a.example." [hostB] := by
    have hs : s₂.handler.domains.setAt "a.example." = [hostA] := by decide +kernel
    refine ⟨by decide, fun p hp _ q hq => ?_⟩
    obtain rfl : p = hostA := by simpa [hs] using hp
    -- no name but the first one has another host than the second
    obtain rfl : q = hostB := by
      obtain hq | ⟨d', hd, hq⟩ := hq
      · exact mem_singleton.1 hq
      · have hk : s₁.handler.keepRoute = false := by decide +kernel
        rw [show s₂ = s₁.updateDomainPrefixes (fun _ => false) "b.example." [hostB] from rfl,
          mem_setAt_updateDomainPrefixes hk] at hq
        split_ifs at hq
        · exact mem_singleton.1 hq
        · rw [show s₁ = s₀.updateDomainPrefixes (fun _ => false) "a.example." [hostA] from rfl,
            mem_setAt_updateDomainPrefixes rfl] at hq
          simp [hd, s₀, freshInterceptor, AList.setAt] at hq
    decide
  have hr : Run (fun _ => false) s₃ := (((Run.new rfl rfl).update h₀).update h₁).update h₂
  have hd : s₃.handler.domains.setAt "a.example." = [hostB] := by decide +kernel
  have hf : s₃.fakeIPManager.getFakeIP hostB.addr = some (.from4 240 0 0 2) := by decide +kernel
  exact ⟨hd, hf, translated_of_run hr "a.example." hostB (by simp [hd]) _ hf rfl⟩

/-- Two names list a host; when one of them leaves it, it is no longer translated. -/
theorem shared_host_untranslated :
    let s := [("a.example.", [hostA]), ("b.example.", [hostA]), ("b.example.", [hostB])].foldl
        (fun s call => updateDomainPrefixes (fun _ => false) s call.1 call.2)
        ⟨freshInterceptor true, {}, {}⟩
    hostA ∈ s.handler.domains.setAt "a.example." ∧
      s.fakeIPManager.getFakeIP hostA.addr = some (.from4 240 0 0 1) ∧
      s.firewall.dnatMappings.lookup (.from4 240 0 0 1) = none := by
  decide +kernel

end Interceptor

end Cloink.RouteManager
