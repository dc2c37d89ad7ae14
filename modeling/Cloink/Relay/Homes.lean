import Cloink.Relay.Frames

/-!
# The home relay and the clients that are to be closed

The home relay is a client of its own: it is not among the foreign relays, and it is not among the
clients that a goroutine is to close. The second holds as long as a foreign relay that becomes the
home relay is not one of those clients at that time. Which goroutines count is left open, as long as
they close what was the home relay before a swap, or a foreign relay.

## Main definitions

* `Wf`: the relays of a manager are well formed.
* `Inv`: no goroutine is to close the home relay.

## Main results

* `Inv.step`: every step that spares the new home relay keeps it.
-/

namespace Cloink.Relay

open TaskPool (Pool)

variable {s s' : Manager} {ch : Choice} {new : List Task} {t u : Task}

/-! ### The relays of a manager -/

/-- The home relay and the foreign relays are clients, a foreign relay is known by its URL, and the
home relay is not one of them. -/
structure Wf (s : Manager) : Prop where
  home : ∀ h, s.relayClient = some h → h < s.clientCount
  tracked : ∀ u c, s.relayClients u = some (.connected c) →
    c < s.clientCount ∧ s.url c = u ∧ s.relayClient ≠ some c

/-- A step that keeps the relays keeps them well formed. -/
theorem SameRelays.wf (h : SameRelays s s') (hwf : Wf s) : Wf s' where
  home c hc := by
    rw [h.relayClient] at hc
    rw [h.clientCount]
    exact hwf.home c hc
  tracked v c hc := by
    rw [h.clientCount, h.url, h.relayClient]
    exact hwf.tracked v c (h.tracked v c hc)

theorem Wf.dropHome (hwf : Wf s) : Wf { s with relayClient := none } where
  home _ hc := by cases hc
  tracked v c hc := ⟨(hwf.tracked v c hc).1, (hwf.tracked v c hc).2.1, nofun⟩

/-- A state with the clients of another one and possibly more. -/
structure Grows (s s' : Manager) : Prop where
  clientCount : s.clientCount ≤ s'.clientCount
  url : ∀ c < s.clientCount, s'.url c = s.url c

theorem SameRelays.grows (h : SameRelays s s') : Grows s s' where
  clientCount := h.clientCount.ge
  url c _ := h.url c

theorem Grows.trans {s'' : Manager} (h : Grows s s') (h' : Grows s' s'') : Grows s s'' where
  clientCount := h.clientCount.trans h'.clientCount
  url c hc := (h'.url c (hc.trans_le h.clientCount)).trans (h.url c hc)

theorem grows_enroll (url : String) (lst : Bool) : Grows s (s.enroll url lst ch) where
  clientCount := Nat.le_succ _
  url c hc := by simp [Manager.url, Manager.enroll, Manager.setClient, Nat.ne_of_lt hc]

theorem url_enroll (url : String) (lst : Bool) : (s.enroll url lst ch).url s.clientCount = url := by
  simp [Manager.url, Manager.enroll, Manager.setClient]

/-- A client that is dialled gets a number of its own. -/
theorem Wf.enroll (hwf : Wf s) (url : String) (lst : Bool) : Wf (s.enroll url lst ch) where
  home c hc := Nat.lt_succ_of_lt (hwf.home c hc)
  tracked v c hc := by
    obtain ⟨hlt, hu, hne⟩ := hwf.tracked v c hc
    exact ⟨Nat.lt_succ_of_lt hlt, ((grows_enroll url lst).url c hlt).trans hu, hne⟩

theorem Wf.store (hwf : Wf s) (url : String) (lst : Bool) :
    Wf { s.enroll url lst ch with relayClient := some s.clientCount } where
  home c hc := by
    cases hc
    exact Nat.lt_succ_self _
  tracked v c hc := by
    have he : Wf (s.enroll url lst ch) := hwf.enroll url lst
    have ho := (hwf.tracked v c hc).1
    exact ⟨(he.tracked v c hc).1, (he.tracked v c hc).2.1, by simp [Nat.ne_of_gt ho]⟩

theorem Wf.track (hwf : Wf s) (url : String) (lst : Bool) : Wf { s.enroll url lst ch with
      relayClients := Function.update s.relayClients url (some (.connected s.clientCount)) } where
  home c hc := Nat.lt_succ_of_lt (hwf.home c hc)
  tracked v c hc := by
    by_cases hv : v = url
    · subst hv
      obtain rfl : s.clientCount = c := by simpa using hc
      exact ⟨Nat.lt_succ_self _, url_enroll v lst, fun h => Nat.lt_irrefl _ (hwf.home _ h)⟩
    · have he : Wf (s.enroll url lst ch) := hwf.enroll url lst
      have hc' : s.relayClients v = some (.connected c) := by simpa [hv] using hc
      exact he.tracked v c hc'

theorem sameRelays_installHome (s : Manager) (old c : ℕ) :
    (s.installHome old c).clientCount = s.clientCount ∧
      ∀ d, (s.installHome old c).url d = s.url d := by
  have hf := (Frame.evictForeignRelayClient s (s.url c) c).trans (.setListener _ old true)
  exact ⟨hf.clientCount, hf.url⟩

theorem ready_installHome (s : Manager) (old c d : ℕ) :
    (s.installHome old c).ready d ↔ s.ready d := by
  have he : (s.evictForeignRelayClient (s.url c) c).clients = s.clients := by
    unfold Manager.evictForeignRelayClient
    split <;> rfl
  by_cases hd : d = old
  · subst hd
    simp [Manager.ready, Manager.installHome, Manager.setListener, Manager.setClient, he,
      Client.ready]
  · simp [Manager.ready, Manager.installHome, Manager.setListener, Manager.setClient, he, hd]

theorem grows_installHome (s : Manager) (old c : ℕ) : Grows s (s.installHome old c) where
  clientCount := (sameRelays_installHome s old c).1.ge
  url d _ := (sameRelays_installHome s old c).2 d

/-- The new home relay is not tracked as a foreign one. -/
theorem Wf.installHome (hwf : Wf s) {old c : ℕ} (ho : s.relayClient = some old)
    (hc : c < s.clientCount) (hne : c ≠ old) : Wf (s.installHome old c) where
  home d hd := by
    obtain rfl : c = d := Option.some.inj hd
    rw [(sameRelays_installHome s old c).1]
    exact hc
  tracked v d hd := by
    rw [(sameRelays_installHome s old c).1, (sameRelays_installHome s old c).2]
    by_cases hv : v = s.url old
    · subst hv
      obtain rfl : old = d := by simpa [Manager.installHome] using hd
      exact ⟨hwf.home old ho, rfl, fun h => hne (Option.some.inj h)⟩
    · have hd' : (s.evictForeignRelayClient (s.url c) c).relayClients v = some (.connected d) := by
        simpa [Manager.installHome, hv] using hd
      have hs := (Frame.evictForeignRelayClient s (s.url c) c).tracked v d hd'
      obtain ⟨hlt, hu, -⟩ := hwf.tracked v d hs
      refine ⟨hlt, hu, fun h => ?_⟩
      -- the new home relay was taken out of the foreign relays
      obtain rfl : c = d := Option.some.inj h
      rw [← hu] at hs hd'
      rw [Manager.evictForeignRelayClient, if_pos hs] at hd'
      simp at hd'

/-- Clients keep their numbers and URLs. -/
theorem grows_act (h : act s ch t = some (s', new)) : Grows s s' := by
  cases outcome_act h with
  | plain effect => exact effect.frame.grows
  | special hs =>
    cases hs with
    | bump => exact ⟨le_rfl, fun _ _ => rfl⟩
    | @drop old =>
      have hg := (Frame.setListener s old false).grows
      exact ⟨hg.clientCount, hg.url⟩
    | @install _ old c => exact grows_installHome s old c
    | @installNew _ old url =>
      exact (grows_enroll url false).trans (grows_installHome _ old s.clientCount)
    | @store url =>
      have hg : Grows s (s.enroll url false ch) := grows_enroll url false
      exact ⟨hg.clientCount, hg.url⟩
    | @drain _ dropped =>
      have hg : Grows s (s.enroll dropped false ch) := grows_enroll dropped false
      exact ⟨hg.clientCount, hg.url⟩
    | @enroll address => exact grows_enroll address true
    | @track address =>
      have hg : Grows s (s.enroll address true ch) := grows_enroll address true
      exact ⟨hg.clientCount, hg.url⟩

/-! ### Candidates -/

/-- A foreign relay that is to become the home relay is not the one that it replaces. -/
def Task.Distinct (s : Manager) : Task → Prop
  | .switchHome (.candidates old _ _) => old < s.clientCount
  | .switchHome (.foreign old candidateURLs _ _) =>
    old < s.clientCount ∧ s.url old ∉ candidateURLs
  | .switchHome (.validate old (.foreign c) _ _) | .swap (.check _ old (.foreign c) _)
  | .swap (.install _ old (.foreign c) _) =>
    old < s.clientCount ∧ c < s.clientCount ∧ s.url c ≠ s.url old
  | _ => True

theorem Grows.distinct (h : Grows s s') (ht : t.Distinct s) : t.Distinct s' := by
  have hlt : ∀ {c}, c < s.clientCount → c < s'.clientCount := fun hc => hc.trans_le h.clientCount
  unfold Task.Distinct at ht ⊢
  split at ht
  · exact hlt ht
  · rw [h.url _ ht.1]
    exact ⟨hlt ht.1, ht.2⟩
  iterate 3
    rw [h.url _ ht.1, h.url _ ht.2.1]
    exact ⟨hlt ht.1, hlt ht.2.1, ht.2.2⟩
  · trivial

/-- What a task leads to is about two clients as well. -/
theorem Leads.distinct (h : Leads s ch t u) (hwf : Wf s) (ht : t.Distinct s) : u.Distinct s := by
  cases h with
  | candidates ho => exact hwf.home _ ho
  | foreign => exact ⟨ht, fun h => Config.ne_of_mem_candidates h rfl⟩
  | found hu htr =>
    obtain ⟨hlt, hur, -⟩ := hwf.tracked _ _ htr
    exact ⟨ht.1, hlt, fun h => ht.2 (h ▸ hur ▸ hu)⟩
  | @validated _ candidate | @install _ _ candidate =>
    cases candidate
    · exact ht
    · trivial
  | _ => trivial

/-! ### Clients to be closed -/

/-- Tasks that end with the close of a client: of the home relay that a swap has replaced, of the
foreign relay that a recovery finds, or of one that is not used any more. -/
structure Closing (q : Task → Option ℕ) : Prop where
  listen : ∀ {op old c d}, q (.swap (.listen op old c)) = some d → old = d
  switchHome : ∀ t, q (.switchHome t) = none
  guardEvent : ∀ t, q (.guardEvent t) = none
  attempt : ∀ t, q (.attempt t) = none
  leads : ∀ {s ch t u c}, Leads s ch t u → q u = some c → q t = some c ∨
    ∃ a, t = .recover (.foreign a) ∧ s.relayClients a = some (.connected c)
  started : ∀ {s a u c}, Started s a u → q u = some c →
    ∃ address, s.relayClients address = some (.connected c)

/-- A foreign relay that becomes the home relay is not to be closed. -/
def Spares (q : Task → Option ℕ) (p : Pool Manager Task) : Action → Prop
  | .run (.swap (.install _ _ (.foreign c) _)) _ => ∀ t ∈ p.tasks, q t ≠ some c
  | _ => True

instance (q : Task → Option ℕ) (p : Pool Manager Task) (a : Action) : Decidable (Spares q p a) := by
  unfold Spares
  split <;> infer_instance

/-- No client that is to be closed is the home relay. -/
structure Inv (q : Task → Option ℕ) (p : Pool Manager Task) : Prop where
  wf : Wf p.shared
  distinct : ∀ t ∈ p.tasks, t.Distinct p.shared
  closing : ∀ t ∈ p.tasks, ∀ c, q t = some c →
    c < p.shared.clientCount ∧ p.shared.relayClient ≠ some c

variable {q : Task → Option ℕ} {p p' : Pool Manager Task}

/-- What has to be shown about a step: the clients that were to be closed are spared, and the new
tasks are sound. -/
theorem Inv.of_new (hi : Inv q p) {tasks : List Task} (hsb : ∀ t ∈ tasks, t ∈ p.tasks)
    (hwf : Wf s') (hg : Grows p.shared s')
    (hs : ∀ t ∈ p.tasks, ∀ c, q t = some c → s'.relayClient ≠ some c)
    (hn : ∀ u ∈ new, u.Distinct s' ∧ ∀ c, q u = some c →
      c < s'.clientCount ∧ s'.relayClient ≠ some c) :
    Inv q ⟨s', tasks ++ new⟩ where
  wf := hwf
  distinct t ht := by
    rcases List.mem_append.1 ht with ho | hn'
    · exact hg.distinct (hi.distinct t (hsb t ho))
    · exact (hn t hn').1
  closing t ht c hc := by
    rcases List.mem_append.1 ht with ho | hn'
    · have hlt := (hi.closing t (hsb t ho) c hc).1
      exact ⟨hlt.trans_le hg.clientCount, hs t (hsb t ho) c hc⟩
    · exact (hn t hn').2 c hc

/-- The environment keeps the invariant. -/
theorem Inv.environment (hq : Closing q) (hi : Inv q p) {sm : Int → Int → Int} {a : Action}
    (h : environment sm p.shared a = some (s', new)) : Inv q ⟨s', p.tasks ++ new⟩ := by
  have hs := sameRelays_environment h
  refine hi.of_new (fun t ht => ht) (hs.wf hi.wf) hs.grows ?_ ?_
  · intro t ht c hc
    rw [hs.relayClient]
    exact (hi.closing t ht c hc).2
  · intro u hu
    have hst := started_environment h hu
    refine ⟨by cases hst <;> trivial, fun c hc => ?_⟩
    obtain ⟨address, htr⟩ := hq.started hst hc
    rw [hs.clientCount, hs.relayClient]
    exact ⟨(hi.wf.tracked _ c htr).1, (hi.wf.tracked _ c htr).2.2⟩

/-- So does a task that leaves the relays alone. -/
theorem Inv.plain (hq : Closing q) (hi : Inv q p) (ht : t ∈ p.tasks)
    (hs : SameRelays p.shared s') (hl : ∀ u ∈ new, Leads p.shared ch t u) :
    Inv q ⟨s', p.tasks.erase t ++ new⟩ := by
  refine hi.of_new (fun t ht => List.mem_of_mem_erase ht) (hs.wf hi.wf) hs.grows ?_ ?_
  · intro u hu c hc
    rw [hs.relayClient]
    exact (hi.closing u hu c hc).2
  · intro u hu
    refine ⟨hs.grows.distinct ((hl u hu).distinct hi.wf (hi.distinct t ht)), fun c hc => ?_⟩
    rw [hs.clientCount, hs.relayClient]
    rcases hq.leads (hl u hu) hc with hts | ⟨address, -, htr⟩
    · exact hi.closing t ht c hts
    · exact ⟨(hi.wf.tracked _ c htr).1, (hi.wf.tracked _ c htr).2.2⟩

/-- A special action that makes no other client the home relay than a new one, and retires none. -/
theorem Inv.special (hi : Inv q p) (hwf : Wf s') (hg : Grows p.shared s')
    (hh : ∀ c < p.shared.clientCount, s'.relayClient = some c → p.shared.relayClient = some c)
    (hn : ∀ u ∈ new, u.Distinct s' ∧ q u = none) : Inv q ⟨s', p.tasks.erase t ++ new⟩ := by
  refine hi.of_new (fun t ht => List.mem_of_mem_erase ht) hwf hg ?_ ?_
  · intro u hu c hc hs'
    obtain ⟨hlt, hne⟩ := hi.closing u hu c hc
    exact hne (hh c hlt hs')
  · intro u hu
    refine ⟨(hn u hu).1, fun c hc => ?_⟩
    rw [(hn u hu).2] at hc
    cases hc

/-- So does a swap, if the new home relay is spared. -/
theorem Inv.install (hq : Closing q) (hi : Inv q p) {op : Op} {old c gen : ℕ}
    {cand : Candidate} (hh : p.shared.relayClient = some old) (hg : Grows p.shared s)
    (hwf : Wf s) (hsm : s.relayClient = p.shared.relayClient) (hc : c < s.clientCount)
    (hne : c ≠ old) (hs : ∀ t ∈ p.tasks, q t ≠ some c) :
    Inv q ⟨s.installHome old c, p.tasks.erase (.swap (.install op old cand gen)) ++
      [.swap (.listen op old c)]⟩ := by
  have hh' : ∀ {d}, (s.installHome old c).relayClient = some d → c = d := Option.some.inj
  have hg' := hg.trans (grows_installHome s old c)
  refine hi.of_new (fun t ht => List.mem_of_mem_erase ht)
    (hwf.installHome (hsm.trans hh) hc hne) hg' ?_ ?_
  · exact fun t ht d hd hc' => hs t ht (hh' hc' ▸ hd)
  · intro u hu
    obtain rfl := List.mem_singleton.1 hu
    refine ⟨trivial, fun d hd => ?_⟩
    obtain rfl := hq.listen hd
    exact ⟨(hi.wf.home old hh).trans_le hg'.clientCount, fun hc' => hne (hh' hc')⟩

theorem Inv.run (hq : Closing q) (hi : Inv q p) (ht : t ∈ p.tasks)
    (hok : Spares q p (.run t ch)) (h : Relay.act p.shared ch t = some (s', new)) :
    Inv q ⟨s', p.tasks.erase t ++ new⟩ := by
  have hg := grows_act h
  cases outcome_act h with
  | plain effect leads => exact hi.plain hq ht effect.frame.toSameRelays leads
  | special hs =>
    cases hs with
    | bump =>
      refine hi.special ⟨hi.wf.home, hi.wf.tracked⟩ hg (fun _ _ hc => hc) ?_
      simp [Task.Distinct, hq.switchHome]
    | @drop old =>
      have hsm := (Frame.setListener p.shared old false).toSameRelays
      refine hi.special (hsm.wf hi.wf).dropHome hg nofun ?_
      simp [Task.Distinct, hq.switchHome]
    | @install op old c gen ho =>
      obtain ⟨-, hc, hu⟩ := hi.distinct _ ht
      exact hi.install hq ho ⟨le_rfl, fun _ _ => rfl⟩ hi.wf rfl hc (fun heq => hu (heq ▸ rfl)) hok
    | @installNew op old url gen ho =>
      exact hi.install hq ho (grows_enroll url false) (hi.wf.enroll url false) rfl
        (Nat.lt_succ_self _) (Nat.ne_of_gt (hi.wf.home old ho))
        fun t ht hc => Nat.lt_irrefl _ (hi.closing t ht _ hc).1
    | @store url =>
      refine hi.special (hi.wf.store url false) hg (fun c hlt hc => ?_) ?_
      · cases hc
        exact absurd hlt (Nat.lt_irrefl _)
      · simp [Task.Distinct, hq.guardEvent]
    | @drain _ dropped =>
      obtain ⟨hh, htr⟩ : Wf (p.shared.enroll dropped false ch) := hi.wf.enroll dropped false
      refine hi.special ⟨hh, htr⟩ hg (fun _ _ hc => hc) ?_
      simp [Task.Distinct, hq.attempt]
    | @enroll address => exact hi.special (hi.wf.enroll address true) hg (fun _ _ hc => hc) nofun
    | @track address => exact hi.special (hi.wf.track address true) hg (fun _ _ hc => hc) nofun

theorem inv_serve (q : Task → Option ℕ) (hq : ∀ t, (∃ t', t = .attempt t') ∨
    (∃ t', t = .guardEvent t') ∨ (∃ t', t = .failback t') ∨ (∃ t', t = .probe t') → q t = none)
    (urls : List String) (fb : Bool) (picked : Option String) : Inv q (serve urls fb picked) where
  wf := ⟨nofun, nofun⟩
  distinct := by
    cases picked <;> cases fb <;> simp [serve, Task.Distinct]
  closing := by
    cases picked <;> cases fb <;> simp [serve, hq]

/-- Every action that spares the clients to be closed keeps the invariant. -/
theorem Inv.step (hq : Closing q) {sm : Int → Int → Int} {a : Action} (hi : Inv q p)
    (hok : Spares q p a) (h : Relay.step sm p a = some p') : Inv q p' := by
  cases a with
  | run t ch =>
    obtain ⟨ht, s', new, ha, rfl⟩ := Pool.resume_eq_some h
    exact hi.run hq ht hok ha
  | _ =>
    obtain ⟨s', new, he, rfl⟩ := Pool.spawn_eq_some h
    exact hi.environment hq he

end Cloink.Relay
