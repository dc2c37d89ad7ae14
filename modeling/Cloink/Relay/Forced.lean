import Cloink.Relay.Homes

/-!
# The forced relay as the home relay

Switches for priority respect the forced server: they look at it when they start, and a change of it
advances the generation. The RTT migration does not look at it, reads the home relay after its
decision, and the generation after that. A change of the forced server advances the generation only
after the lock was released, so a swap may slip in between.
-/

namespace Cloink.Relay

open List

open Interleaving (Reaches exists_reaches)
open TaskPool (Pool)

variable {s s' : Manager} {ch : Choice} {new : List Task} {t u : Task} {p p' : Pool Manager Task}

/-! ### What can disturb -/

/-- The client is connected to the forced server, or was. -/
def Manager.Forced (s : Manager) (c : ℕ) : Prop :=
  s.config.forcedRelayURL ≠ "" ∧ s.url c = s.config.forcedRelayURL

instance (c : ℕ) : Decidable (s.Forced c) := inferInstanceAs (Decidable (_ ∧ _))

/-- The operation is one for latency or priority. -/
def Op.driven : Op → Bool
  | .recovery _ => false
  | _ => true

/-- The action belongs to a switch, a migration or a failback. -/
def Task.driven : Task → Bool
  | .switchHome _ | .probe _ | .failback _ => true
  | .swap (.check op _ _ _) | .swap (.install op _ _ _) | .swap (.listen op _ _) => op.driven
  | _ => false

/-- The configuration has changed, and the generation has not been advanced yet. -/
def Task.bumps : Task → Bool
  | .reconfigure (.storeConfig _ _ _ changed) | .reconfigure (.bump _ changed) => changed
  | _ => false

/-- An RTT migration was decided on, and has not read the generation yet. -/
def Task.migrates : Task → Bool
  | .probe (.migrate _) | .probe (.load _ _) => true
  | _ => false

/-- No server of the group is much faster than the home relay for the third time. -/
def Manager.RTTCalm (s : Manager) (now : Int) (group : List String) : Prop :=
  ∀ relayURL ∈ group, relayURL ≠ s.currentRelayURL →
    ∀ homeRTT ∈ s.rttCache.get now s.currentRelayURL, ∀ rtt ∈ s.rttCache.get now relayURL,
      muchFaster rtt homeRTT → (s.slowStreaks.lookup relayURL).getD 0 + 1 < relayRTTMigrationStreaks

instance (now : Int) (group : List String) : Decidable (s.RTTCalm now group) := by
  unfold Manager.RTTCalm
  infer_instance

/-- An action that does not disturb a forced relay: it does not find another server much faster for
the third time, it does not force a relay or set the home relay while an RTT migration is deciding,
and it does not swap the home relay while a change of the configuration is being made. -/
def Undisturbed (p : Pool Manager Task) : Action → Prop
  | .run (.probe (.decide group)) ch =>
    (∀ home ∈ p.shared.relayClient, p.shared.Forced home → p.shared.RTTCalm ch.now group)
  | .setForcedRelay _ | .run (.guardEvent (.store _)) _ => ∀ t ∈ p.tasks, !t.migrates
  | .run (.swap (.install op _ _ _)) _ =>
    (∀ t ∈ p.tasks, !t.migrates) ∧ (op.driven → ∀ t ∈ p.tasks, !t.bumps)
  | _ => True

instance (p : Pool Manager Task) (a : Action) : Decidable (Undisturbed p a) := by
  cases a with
  | run t ch =>
    cases t with
    | swap t | probe t | guardEvent t => cases t <;> dsimp only [Undisturbed] <;> infer_instance
    | _ => exact .isTrue trivial
  | setForcedRelay _ => dsimp only [Undisturbed]; infer_instance
  | _ => exact .isTrue trivial

/-! ### Fences -/

/-- What an operation that holds a home relay and a generation can rely on: if it is the current
generation, the relay is not the forced one, unless the generation is about to be advanced. -/
structure Fence (p : Pool Manager Task) (old generation : ℕ) : Prop where
  lt : old < p.shared.clientCount
  le : generation ≤ p.shared.relayConfigGeneration
  current : generation = p.shared.relayConfigGeneration →
    (∃ t ∈ p.tasks, t.bumps) ∨ ¬ p.shared.Forced old

def Task.Fenced (p : Pool Manager Task) : Task → Prop
  | .switchHome (.home _ generation) => generation ≤ p.shared.relayConfigGeneration
  | .switchHome (.candidates old _ generation) | .switchHome (.foreign old _ _ generation)
  | .switchHome (.dial old _ _ generation) | .switchHome (.validate old _ _ generation)
  | .probe (.dial old _ generation) => Fence p old generation
  | .swap (.check op old _ generation) | .swap (.install op old _ generation) =>
    op.driven → Fence p old generation
  | .probe (.migrate _) => ∀ home, p.shared.relayClient = some home → ¬ p.shared.Forced home
  | .probe (.load home _) => home < p.shared.clientCount ∧ ¬ p.shared.Forced home
  | _ => True

/-- What every step does to the generation and the forced relay. -/
structure Advances (p p' : Pool Manager Task) : Prop where
  grows : Grows p.shared p'.shared
  le : p.shared.relayConfigGeneration ≤ p'.shared.relayConfigGeneration
  bumps : p'.shared.relayConfigGeneration = p.shared.relayConfigGeneration →
    (∃ t ∈ p.tasks, t.bumps) → ∃ t ∈ p'.tasks, t.bumps
  forced : p'.shared.relayConfigGeneration = p.shared.relayConfigGeneration →
    (∃ t ∈ p'.tasks, t.bumps) ∨ p'.shared.config.forcedRelayURL = p.shared.config.forcedRelayURL

theorem Grows.forced_iff {c : ℕ} (h : Grows s s') (hc : c < s.clientCount)
    (hf : s'.config.forcedRelayURL = s.config.forcedRelayURL) : s'.Forced c ↔ s.Forced c := by
  unfold Manager.Forced
  rw [h.url c hc, hf]

theorem Fence.mono {old gen : ℕ} (h : Advances p p') (hf : Fence p old gen) : Fence p' old gen where
  lt := hf.lt.trans_le h.grows.clientCount
  le := hf.le.trans h.le
  current heq := by
    have hle := hf.le
    have hg := Nat.le_antisymm (heq ▸ hle) h.le
    rcases h.forced hg with hb | hfr
    · exact .inl hb
    · rcases hf.current (heq.trans hg) with hb | hn
      · exact .inl (h.bumps hg hb)
      · exact .inr fun hc => hn ((h.grows.forced_iff hf.lt hfr).1 hc)

/-- No relay is forced that was not, and no client becomes the home relay. -/
structure Manager.Holds (s s' : Manager) : Prop where
  forced : s'.config.forcedRelayURL = s.config.forcedRelayURL ∨ s'.config.forcedRelayURL = ""
  home : ∀ home, s'.relayClient = some home → s.relayClient = some home

theorem Manager.Holds.not_forced {c : ℕ} (h : s.Holds s') (hg : Grows s s')
    (hc : c < s.clientCount) (hnt : ¬ s.Forced c) : ¬ s'.Forced c := by
  intro hf
  rcases h.forced with heq | hn
  · exact hnt ((hg.forced_iff hc heq).1 hf)
  · exact hf.1 hn

theorem Task.Fenced.mono (h : Advances p p') (hwf : Wf p.shared)
    (hm : u.migrates → p.shared.Holds p'.shared) (hu : u.Fenced p) : u.Fenced p' := by
  unfold Task.Fenced at hu ⊢
  split at hu
  · exact hu.trans h.le
  iterate 5 exact hu.mono h
  · exact fun hop => (hu hop).mono h
  · exact fun hop => (hu hop).mono h
  · intro home hc
    have ho := (hm rfl).home home hc
    exact (hm rfl).not_forced h.grows (hwf.home home ho) (hu home ho)
  · exact ⟨hu.1.trans_le h.grows.clientCount, (hm rfl).not_forced h.grows hu.1 hu.2⟩
  · trivial

theorem not_rttCalm {now : Int} {group : List String} {tgt : String}
    (h : (migrateOnRTT s.rttCache now s.currentRelayURL group s.slowStreaks).2 = some tgt) :
    ¬ s.RTTCalm now group := by
  intro hc
  obtain ⟨-, hm, hne, ⟨ho, rtt, hh, ht, hf⟩, hs⟩ := of_migrateOnRTT h
  have hlt := hc tgt hm hne ho hh rtt ht hf
  omega

/-- What a fenced task leads to is fenced. -/
theorem Leads.fenced (h : Leads p.shared ch t u) (hwf : Wf p.shared)
    (hok : Undisturbed p (.run t ch)) (ht : t.Fenced p) : u.Fenced p := by
  cases h with
  | lock heq => exact heq.le
  | candidates ho hp =>
    refine ⟨hwf.home _ ho, ht, fun _ => .inr fun hf => ?_⟩
    exact Config.ne_forced_of_not_highest hf.1 hp hf.2
  | foreign | found | absent | dialled | install => exact ht
  | validated | migrateDialled => exact fun _ => ht
  | recoverDialled | recoverOnly => exact nofun
  | migrate hm => exact fun home hh hf => not_rttCalm hm (hok home hh hf)
  | migrateLoad hh => exact ⟨hwf.home _ hh, ht _ hh⟩
  | migrateDial => exact ⟨ht.1, le_rfl, fun _ => .inr ht.2⟩
  | _ => trivial

/-! ### Steps -/

theorem bumps_erase (ht : ¬ t.bumps) (h : ∃ u ∈ p.tasks, u.bumps) :
    ∃ u ∈ p.tasks.erase t ++ new, u.bumps := by
  obtain ⟨u, hu, hb⟩ := h
  have hne : u ≠ t := fun heq => ht (heq ▸ hb)
  exact ⟨u, mem_append_left _ ((mem_erase_of_ne hne).2 hu), hb⟩

theorem advances_run (h : act p.shared ch t = some (s', new)) :
    Advances p ⟨s', p.tasks.erase t ++ new⟩ := by
  by_cases hb : ∃ urls chg, t = .reconfigure (.bump urls chg)
  · obtain ⟨urls, chg, rfl⟩ := hb
    have hg := grows_act h
    cases h
    refine ⟨hg, ?_, ?_, fun _ => .inr rfl⟩
    all_goals cases chg
    · exact le_rfl
    · exact Nat.le_succ _
    · exact fun _ => bumps_erase (by simp [Task.bumps])
    · exact fun heq => absurd heq (Nat.succ_ne_self _)
  · have hs := sameConfig_act (fun urls chg heq => hb ⟨urls, chg, heq⟩) h
    refine ⟨grows_act h, hs.relayConfigGeneration.ge, fun _ hbm => ?_,
      fun _ => .inr (by rw [hs.config])⟩
    by_cases ht : t.bumps
    · -- only the first half of a change is left, and it is followed by the second
      match t, ht with
      | .reconfigure (.storeConfig urls weights forced chg), ht =>
        cases h
        exact ⟨_, mem_append_right _ mem_cons_self, ht⟩
      | .reconfigure (.bump urls chg), _ => exact absurd ⟨urls, chg, rfl⟩ hb
    · exact bumps_erase ht hbm

variable {a : Action} {smooth : Int → Int → Int}

theorem advances_environment (h : environment smooth p.shared a = some (s', new)) :
    Advances p ⟨s', p.tasks ++ new⟩ := by
  have hg := (sameRelays_environment h).grows
  have hbm : (∃ t ∈ p.tasks, t.bumps) → ∃ t ∈ p.tasks ++ new, t.bumps :=
    fun ⟨t, ht, hb⟩ => ⟨t, mem_append_left _ ht, hb⟩
  cases a with
  | updateServerURLs urls ws =>
    cases h
    refine ⟨hg, le_rfl, fun _ => hbm, fun _ => ?_⟩
    by_cases hf : (p.shared.config.update urls ws).forcedRelayURL = p.shared.config.forcedRelayURL
    · exact .inr hf
    · exact .inl ⟨_, mem_append_right _ mem_cons_self, Config.changed_of_forced_ne (Ne.symm hf)⟩
  | setForcedRelay url =>
    simp only [environment] at h
    split at h <;> cases h
    exact ⟨hg, le_rfl, fun _ => hbm, fun _ => .inl ⟨_, mem_append_right _ mem_cons_self, rfl⟩⟩
  | cancel =>
    cases h
    exact ⟨hg, le_rfl, fun _ => hbm, fun _ => .inr rfl⟩
  | _ =>
    have hfr := frame_environment h rfl
    exact ⟨hg, hfr.relayConfigGeneration.ge, fun _ => hbm, fun _ => .inr (by rw [hfr.config])⟩

theorem Advances.trans {q : Pool Manager Task} (h : Advances p q) (h' : Advances q p') :
    Advances p p' := by
  have hq (he : p'.shared.relayConfigGeneration = p.shared.relayConfigGeneration) :
      q.shared.relayConfigGeneration = p.shared.relayConfigGeneration :=
    le_antisymm (he ▸ h'.le) h.le
  refine ⟨h.grows.trans h'.grows, h.le.trans h'.le, fun he hb => ?_, fun he => ?_⟩
  · exact h'.bumps (he.trans (hq he).symm) (h.bumps (hq he) hb)
  · rcases h.forced (hq he) with hb | hf
    · exact .inl (h'.bumps (he.trans (hq he).symm) hb)
    · exact hf ▸ h'.forced (he.trans (hq he).symm)

/-- In every run the generation fences the forced relay, as it does in a step. -/
theorem advances_of_reaches (h : Reaches (step smooth) (fun _ _ => True) p p') :
    Advances p p' := by
  refine h.invariant ⟨⟨le_rfl, fun _ _ => rfl⟩, le_rfl, fun _ hb => hb, fun _ => .inr rfl⟩
    fun q a q' ha _ hs => ha.trans ?_
  cases a with
  | run t ch =>
    obtain ⟨-, s', new, ht, rfl⟩ := Pool.resume_eq_some hs
    exact advances_run ht
  | _ =>
    obtain ⟨s', new, he, rfl⟩ := Pool.spawn_eq_some hs
    exact advances_environment he

/-- The clients are in order, and every operation can rely on its fence. -/
structure Guarded (p : Pool Manager Task) : Prop where
  inv : Inv (fun _ => none) p
  fenced : ∀ t ∈ p.tasks, t.Fenced p

theorem closing_none : Closing fun _ => none :=
  ⟨nofun, fun _ => rfl, fun _ => rfl, fun _ => rfl, nofun, nofun⟩

theorem spares_none (a : Action) : Spares (fun _ => none) p a := by
  unfold Spares
  split
  · simp
  · trivial

/-- A foreign relay is kept under its own URL, and is never the home relay too. -/
theorem foreign_ne_home {urls : List String} {autoFailback : Bool} {picked : Option String}
    (h : Reaches (step smooth) (fun _ _ => True) (serve urls autoFailback picked) p)
    {url : String} {c : ℕ} (hc : p.shared.relayClients url = some (.connected c)) :
    p.shared.url c = url ∧ p.shared.relayClient ≠ some c := by
  have hi : Inv (fun _ => none) p := h.invariant
    (inv_serve _ (fun _ _ => rfl) urls autoFailback picked)
    fun _ _ _ hi _ hs => hi.step closing_none (spares_none _) hs
  exact (hi.wf.tracked url c hc).2

theorem foreign_ne_home_opened : ∃ p : Pool Manager Task, p.shared.relayClient = some 0 ∧
    p.shared.relayClients "b" = some (.connected 1) ∧ p.shared.url 1 = "b" := by
  obtain ⟨p, hr, h0, h1⟩ : ∃ p, Reaches (step fun _ rtt => rtt) (fun _ _ => True)
      (serve ["a"] false (some "a")) p ∧ p.shared.relayClient = some 0 ∧
        p.shared.relayClients "b" = some (.connected 1) :=
    exists_reaches [.run (.guardEvent (.store "a")) {}, .openConnVia "b",
      .run (.foreign (.dial "b" 0)) { server := some "b" }] (by decide +kernel)
  exact ⟨p, h0, h1, (foreign_ne_home hr h1).1⟩

theorem Frame.holds (h : Frame s s') : s.Holds s' :=
  ⟨.inl (by rw [h.config]), fun _ hc => h.relayClient ▸ hc⟩

theorem holds_act (h : act s ch t = some (s', new))
    (hi : ∀ op old cand gen, t ≠ .swap (.install op old cand gen))
    (hst : ∀ url, t ≠ .guardEvent (.store url)) : s.Holds s' := by
  cases outcome_act h with
  | plain effect => exact effect.frame.holds
  | special hs =>
    cases hs with
    | install | installNew => exact absurd rfl (hi _ _ _ _)
    | store => exact absurd rfl (hst _)
    | drop => exact ⟨.inl rfl, nofun⟩
    | bump | drain | enroll | track => exact ⟨.inl rfl, fun _ h => h⟩

theorem fenced_special (h : Special s ch t s' new) (hu : u ∈ new) : u.Fenced p := by
  cases h with
  | bump | drop | install | installNew | store | drain =>
    obtain rfl := mem_singleton.1 hu
    trivial
  | enroll | track => cases hu

/-- A task keeps the manager guarded. -/
theorem Guarded.run (hi : Guarded p) (ht : t ∈ p.tasks) (hok : Undisturbed p (.run t ch))
    (h : act p.shared ch t = some (s', new)) : Guarded ⟨s', p.tasks.erase t ++ new⟩ := by
  have ha := advances_run h
  refine ⟨hi.inv.run closing_none ht (spares_none _) h, fun u hu => ?_⟩
  rcases mem_append.1 hu with ho | hnw
  · have hmm := mem_of_mem_erase ho
    refine (hi.fenced u hmm).mono ha hi.inv.wf fun hm => ?_
    -- an RTT migration that is deciding keeps its home relay
    have hd : ¬ ∀ t ∈ p.tasks, !t.migrates := fun hn =>
      absurd hm (by simpa using hn u hmm)
    refine holds_act h ?_ ?_
    · rintro op old candidate generation rfl
      exact hd hok.1
    · rintro url rfl
      exact hd hok
  · cases outcome_act h with
    | plain effect leads =>
      have hf := (leads u hnw).fenced hi.inv.wf hok (hi.fenced t ht)
      exact hf.mono ha hi.inv.wf fun _ => effect.frame.holds
    | special hs => exact fenced_special hs hnw

theorem Guarded.environment (hi : Guarded p) (hok : Undisturbed p a)
    (h : environment smooth p.shared a = some (s', new)) : Guarded ⟨s', p.tasks ++ new⟩ := by
  have ha := advances_environment h
  refine ⟨hi.inv.environment closing_none h, fun u hu => ?_⟩
  rcases mem_append.1 hu with ho | hn
  · refine (hi.fenced u ho).mono ha hi.inv.wf fun hm => ⟨?_, ?_⟩
    · cases a with
      | updateServerURLs urls ws =>
        cases h
        by_cases hmm : p.shared.config.forcedRelayURL ∈
            (p.shared.config.update urls ws).configuredRelayURLs
        · exact .inl (if_pos hmm)
        · exact .inr (if_neg hmm)
      | setForcedRelay url => exact absurd hm (by simpa using hok u ho)
      | cancel =>
        cases h
        exact .inl rfl
      | _ => exact .inl (by rw [(frame_environment h rfl).config])
    · exact fun home hh => (sameRelays_environment h).relayClient ▸ hh
  · cases started_environment h hn <;> trivial

/-- One step of the pool. -/
theorem Guarded.step (hi : Guarded p) (hok : Undisturbed p a) (h : step smooth p a = some p') :
    Guarded p' := by
  cases a with
  | run t ch =>
    obtain ⟨ht, s', new, ha, rfl⟩ := Pool.resume_eq_some h
    exact hi.run ht hok ha
  | _ =>
    obtain ⟨s', new, he, rfl⟩ := Pool.spawn_eq_some h
    exact hi.environment hok he

theorem guarded_serve (urls : List String) (fb : Bool) (picked : Option String) :
    Guarded (serve urls fb picked) where
  inv := inv_serve _ (fun _ _ => rfl) urls fb picked
  fenced := by cases picked <;> cases fb <;> simp [serve, Task.Fenced]

/-- While the forced relay is the home relay, no switch, migration or failback replaces it by a
client of another server. -/
theorem forced_stays_home {smooth : Int → Int → Int} {urls : List String} {autoFailback : Bool}
    {picked : Option String}
    (h : Reaches (step smooth) Undisturbed (serve urls autoFailback picked) p)
    (hok : Undisturbed p (.run t ch)) (hdriven : t.driven)
    (hstep : step smooth p (.run t ch) = some p')
    {home : ℕ} (hhome : p.shared.relayClient = some home) (hforced : p.shared.Forced home)
    {home' : ℕ} (hhome' : p'.shared.relayClient = some home') :
    p'.shared.url home' = p'.shared.config.forcedRelayURL := by
  have hin : Guarded p := h.invariant (guarded_serve urls autoFailback picked)
    fun _ _ _ hin hok hstep => hin.step hok hstep
  obtain ⟨ht, s', new, ha, rfl⟩ := Pool.resume_eq_some hstep
  have hc := sameConfig_act (by rintro urls changed rfl; cases hdriven) ha
  -- the home relay is the same client
  have hsm : p.shared.relayClient = some home' := by
    by_cases hi : ∃ op old cand gen, t = .swap (.install op old cand gen)
    · obtain ⟨op, old, cand, gen, rfl⟩ := hi
      have hr : p.shared.relayClient = some old → gen = p.shared.relayConfigGeneration → False := by
        intro ho hg
        obtain rfl : home = old := Option.some.inj (hhome.symm.trans ho)
        rcases (hin.fenced _ ht hdriven).current hg with ⟨u, hu, hb⟩ | hn
        · exact absurd hb (by simpa using hok.2 hdriven u hu)
        · exact hn hforced
      cases outcome_act ha with
      | plain effect => exact effect.frame.relayClient ▸ hhome'
      | special hs =>
        cases hs with
        | install ho hg | installNew ho hg =>
          exact (hr ho hg).elim
    · exact (holds_act ha (fun op old cand gen heq => hi ⟨op, old, cand, gen, heq⟩)
        (by rintro url rfl; cases hdriven)).home home' hhome'
  obtain rfl : home = home' := Option.some.inj (hhome.symm.trans hsm)
  rw [hc.config, (grows_act ha).url home (hin.inv.wf.home home hhome)]
  exact hforced.2

/-! ### A migration away from the forced relay -/

section

/-- The manager connects to "a", which is then forced. -/
def forceHome : List Action :=
  [.run (.guardEvent (.store "a")) {}, .run (.guardEvent (.listen 0)) {},
    .setForcedRelay (some "a"), .run (.reconfigure (.storeConfig ["a", "b"] none "a" true)) {},
    .run (.reconfigure (.bump ["a", "b"] true)) {}, .run (.switchHome (.lock ["a", "b"] 2)) {},
    .run (.switchHome (.home ["a", "b"] 2)) {}]

theorem advances_of_reaches_forceHome : ∃ p : Pool Manager Task,
    p.shared.config.forcedRelayURL = "a" ∧ p.shared.relayConfigGeneration ≠
      (serve ["a", "b"] false (some "a")).shared.relayConfigGeneration := by
  obtain ⟨p, hr, hn, hf⟩ : ∃ p, Reaches (step fun _ rtt => rtt) (fun _ _ => True)
      (serve ["a", "b"] false (some "a")) p ∧ (¬ ∃ t ∈ p.tasks, t.bumps) ∧
        p.shared.config.forcedRelayURL = "a" := exists_reaches forceHome (by decide +kernel)
  refine ⟨p, hf, fun he => ?_⟩
  have h := hf.symm.trans (((advances_of_reaches hr).forced he).resolve_left hn)
  exact absurd h (by decide)

/-- Two samples of each server, of 300 ms and 50 ms. -/
def samples : List Action :=
  [.sample "a" 300000000 0, .sample "a" 300000000 0, .sample "b" 50000000 0, .sample "b" 50000000 0]

/-- A tick of the probe loop. -/
def probeTick : List Action :=
  [.run (.probe .loop) {}, .run (.probe (.decide ["a", "b"])) {}]

/-- In two ticks the forced relay stays. -/
theorem forced_stays_home_twice : ∃ p p' : Pool Manager Task,
    Reaches (step fun _ rtt => rtt) Undisturbed (serve ["a", "b"] false (some "a")) p ∧
      step (fun _ rtt => rtt) p (.run (.probe (.decide ["a", "b"])) {}) = some p' ∧
      p.shared.Forced 0 ∧ p'.shared.relayClient = some 0 ∧
      p'.shared.url 0 = p'.shared.config.forcedRelayURL := by
  have hrn : ∃ p : Pool Manager Task,
      Reaches (step fun _ rtt => rtt) Undisturbed (serve ["a", "b"] false (some "a")) p ∧
        (Undisturbed p (.run (.probe (.decide ["a", "b"])) {}) ∧ p.shared.Forced 0 ∧
          p.shared.relayClient = some 0 ∧
          ((step (fun _ rtt => rtt) p (.run (.probe (.decide ["a", "b"])) {})).map
            fun p' => p'.shared.relayClient) = some (some 0)) :=
    exists_reaches (forceHome ++ samples ++ probeTick ++ [.run (.probe .loop) {}])
      (by decide +kernel)
  obtain ⟨p, hr, hok, hf, hh, hs⟩ := hrn
  obtain ⟨p', hp', hh'⟩ := Option.map_eq_some_iff.1 hs
  exact ⟨p, p', hr, hp', hf, hh', forced_stays_home hr hok rfl hp' hh hf hh'⟩

/-- After the third tick the home relay is replaced, although it is forced and connected. -/
theorem forced_migrated : ∃ p : Pool Manager Task,
    Reaches (step fun _ rtt => rtt) (fun _ _ => True) (serve ["a", "b"] false (some "a")) p ∧
      p.shared.relayClient = some 0 ∧ p.shared.Forced 0 ∧ p.shared.ready 0 ∧
      ((step (fun _ rtt => rtt) p
        (.run (.swap (.install .migration 0 (.dialled "b") 2)) {})).map fun p' =>
          (p'.shared.config.forcedRelayURL, p'.shared.currentRelayURL)) = some ("a", "b") :=
  exists_reaches (forceHome ++ samples ++ probeTick ++ probeTick ++ probeTick ++
      [.run (.probe (.migrate "b")) {}, .run (.probe (.load 0 "b")) {},
        .run (.probe (.dial 0 "b" 2)) { server := some "b" },
        .run (.swap (.check .migration 0 (.dialled "b") 2)) {}])
    (by decide +kernel)

end

end Cloink.Relay
