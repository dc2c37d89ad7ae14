import Cloink.Relay.Manager

/-!
# What the goroutines of the relay manager do

An action changes the shared state in one of a few ways, and leaves tasks behind. Both are said once
here for every action: what it does to the clients and to the home relay, and which tasks can
follow, with what was checked before. An invariant is then a matter of going through the effects and
the successors that it speaks about.
-/

namespace Cloink.Relay

open List

/-! ### Effects -/

/-- The clients, the home relay, the foreign relays, the configuration and the new client of the
guard are the same. -/
structure Quiet (s s' : Manager) : Prop where
  clients : s'.clients = s.clients := by rfl
  clientCount : s'.clientCount = s.clientCount := by rfl
  relayClient : s'.relayClient = s.relayClient := by rfl
  relayClients : s'.relayClients = s.relayClients := by rfl
  config : s'.config = s.config := by rfl
  relayConfigGeneration : s'.relayConfigGeneration = s.relayConfigGeneration := by rfl
  onNewRelayClient : s'.onNewRelayClient = s.onNewRelayClient := by rfl
  ctxDone : s'.ctxDone = s.ctxDone := by rfl

/-- The client that an action closes. -/
def Task.closing : Task → Option ℕ
  | .switchHome (.close c) | .recover (.close c _) | .recover (.closeForeign c)
  | .retire (.close c) | .attempt (.valid c) | .disconnect (.exiting c) | .foreign (.close c) =>
    some c
  | _ => none

/-- The client whose listener an action removes. -/
def Task.detaching : Task → Option ℕ
  | .recover (.detach c _) | .retire (.detach c) => some c
  | _ => none

/-- The actions that set or drop the home relay, add a client, or advance the generation, with what
they leave behind. -/
inductive Special (s : Manager) (ch : Choice) : Task → Manager → List Task → Prop
  | bump {urls changed generation} (h : generation =
      if changed then s.relayConfigGeneration + 1 else s.relayConfigGeneration) :
    Special s ch (.reconfigure (.bump urls changed)) { s with relayConfigGeneration := generation }
      [.switchHome (.lock urls generation)]
  | drop {old generation} (h : s.relayClient = some old) :
    Special s ch (.switchHome (.home [] generation))
      { s.setListener old false with relayClient := none } [.switchHome (.close old)]
  | install {op old c generation} (hold : s.relayClient = some old)
    (hgeneration : generation = s.relayConfigGeneration) :
    Special s ch (.swap (.install op old (.foreign c) generation)) (s.installHome old c)
      [.swap (.listen op old c)]
  | installNew {op old url generation} (hold : s.relayClient = some old)
    (hgeneration : generation = s.relayConfigGeneration) :
    Special s ch (.swap (.install op old (.dialled url) generation))
      ((s.enroll url false ch).installHome old s.clientCount)
      [.swap (.listen op old s.clientCount)]
  | store {url} : Special s ch (.guardEvent (.store url))
    { s.enroll url false ch with relayClient := some s.clientCount }
    [.guardEvent (.listen s.clientCount)]
  | drain {url dropped} : Special s ch (.attempt (.drain url))
    { s.enroll dropped false ch with onNewRelayClient := none } [.attempt (.send url)]
  | enroll {address track} :
    Special s ch (.foreign (.dial address track)) (s.enroll address true ch) []
  | track {address track} : Special s ch (.foreign (.dial address track))
    { s.enroll address true ch with
      relayClients := Function.update s.relayClients address (some (.connected s.clientCount)) } []

/-- What other actions may do to the shared state. -/
inductive Effect (s : Manager) (ch : Choice) (t : Task) : Manager → Prop
  | quiet {s'} (h : Quiet s s') : Effect s ch t s'
  | listen {s'} (c : ℕ) (h : Quiet (s.setListener c true) s') : Effect s ch t s'
  | detach {c} (h : t.detaching = some c) : Effect s ch t (s.setListener c false)
  | close {c s'} (hc : t.closing = some c) (h : Quiet (s.close c).1 s') : Effect s ch t s'
  | connect {c} (h : t = .attempt (.connect c)) : Effect s ch t (s.connect c ch.instanceURL)
  | evict (c : ℕ) : Effect s ch t (s.evictForeignRelayClient (s.url c) c)
  | untrack (address : String) (track : Option Track) (h : ∀ c, track ≠ some (.connected c)) :
    Effect s ch t { s with relayClients := Function.update s.relayClients address track }
  | deliver (h : t = .guardEvent .loop ∨ ∃ a, t = .attempt a) (url : Option String) :
    Effect s ch t { s with onNewRelayClient := url }

/-! ### Successors -/

/-- Another action may leave a task behind. The conditions are those that it has checked. -/
inductive Leads (s : Manager) (ch : Choice) : Task → Task → Prop
  | storeConfig {urls weights forced changed} :
    Leads s ch (.reconfigure (.storeConfig urls weights forced changed))
      (.reconfigure (.bump urls changed))
  | lock {urls generation} (h : generation = s.relayConfigGeneration) :
    Leads s ch (.switchHome (.lock urls generation)) (.switchHome (.home urls generation))
  | candidates {old urls generation} (h : s.relayClient = some old)
    (hpriority : s.config.stillHighestPriority (s.url old) urls = false) :
    Leads s ch (.switchHome (.home urls generation)) (.switchHome (.candidates old urls generation))
  | foreign {old urls generation} :
    Leads s ch (.switchHome (.candidates old urls generation)) (.switchHome (.foreign old
      (s.config.migrationCandidateURLs s.picker (s.url old) urls) urls generation))
  | found {old candidates urls generation u c} (hu : u ∈ candidates)
    (h : s.relayClients u = some (.connected c)) :
    Leads s ch (.switchHome (.foreign old candidates urls generation))
      (.switchHome (.validate old (.foreign c) urls generation))
  | absent {old candidates urls generation} :
    Leads s ch (.switchHome (.foreign old candidates urls generation))
      (.switchHome (.dial old candidates urls generation))
  | dialled {old candidates urls generation u} (hu : u ∈ candidates) :
    Leads s ch (.switchHome (.dial old candidates urls generation))
      (.switchHome (.validate old (.dialled u) urls generation))
  | validated {old candidate urls generation} :
    Leads s ch (.switchHome (.validate old candidate urls generation))
      (.swap (.check .priority old candidate generation))
  | recovers {t u : Recover} (h : ∀ c, u ≠ .closeForeign c) : Leads s ch (.recover t) (.recover u)
  | recoverDialled {home candidates generation u} (hu : u ∈ candidates) :
    Leads s ch (.recover (.dial home candidates generation))
      (.swap (.check (.recovery false) home (.dialled u) generation))
  | recoverOnly {home generation u} : Leads s ch (.recover (.dialOnly home generation))
      (.swap (.check (.recovery true) home (.dialled u) generation))
  | recoverCloseForeign {address c} (h : s.relayClients address = some (.connected c)) :
    Leads s ch (.recover (.foreign address)) (.recover (.closeForeign c))
  | install {op old candidate generation} : Leads s ch (.swap (.check op old candidate generation))
      (.swap (.install op old candidate generation))
  | retire {op old c} : Leads s ch (.swap (.listen op old c)) (.retire (.wait old))
  | retireDetach {c} : Leads s ch (.retire (.wait c)) (.retire (.detach c))
  | retireClose {c} : Leads s ch (.retire (.detach c)) (.retire (.close c))
  | probeLoop {t} : Leads s ch t (.probe .loop)
  | decide {group} : Leads s ch (.probe .loop) (.probe (.decide group))
  | migrate {group target} (h : (migrateOnRTT s.rttCache ch.now s.currentRelayURL group
      s.slowStreaks).2 = some target) :
    Leads s ch (.probe (.decide group)) (.probe (.migrate target))
  | migrateLoad {home target} (h : s.relayClient = some home) :
    Leads s ch (.probe (.migrate target)) (.probe (.load home target))
  | migrateDial {home target} :
    Leads s ch (.probe (.load home target)) (.probe (.dial home target s.relayConfigGeneration))
  | migrateDialled {home target generation} : Leads s ch (.probe (.dial home target generation))
      (.swap (.check .migration home (.dialled target) generation))
  | failbackLoop {t} : Leads s ch (.failback t) (.failback .loop)
  | failbackHome : Leads s ch (.failback .loop)
      (.failback (.home s.config.relayWeights s.config.configuredRelayURLs))
  | failbackLoad {weights urls} : Leads s ch (.failback (.home weights urls))
      (.failback (.load (sortRelayURLsByWeight weights urls)))
  | failback {urls} :
    Leads s ch (.failback (.load urls)) (.switchHome (.lock urls s.relayConfigGeneration))
  | attempts {t u} : Leads s ch t (.attempt u)
  | guardEvent {t u} : Leads s ch (.guardEvent t) (.guardEvent u)
  | foreignFailed {address track} :
    Leads s ch (.foreign (.dial address track)) (.foreign (.failed address))
  | disconnects {t u} : Leads s ch t (.disconnect u)

/-- An action with what it does and what it leaves behind. -/
inductive Outcome (s : Manager) (ch : Choice) (t : Task) (s' : Manager) (new : List Task) : Prop
  | plain (effect : Effect s ch t s') (leads : ∀ u ∈ new, Leads s ch t u)
  | special (h : Special s ch t s' new)

variable {s s' : Manager} {ch : Choice} {new : List Task} {t u : Task}

theorem Quiet.refl (s : Manager) : Quiet s s := {}

/-- What an action does and leaves behind, if it is enabled. -/
def Outcomes (s : Manager) (ch : Choice) (t : Task) (r : Option (Manager × List Task)) : Prop :=
  ∀ s' new, r = some (s', new) → Outcome s ch t s' new

namespace Outcomes

theorem of {r : Manager × List Task} (h : Outcome s ch t r.1 r.2) : Outcomes s ch t (some r) := by
  rintro _ _ ⟨⟩
  exact h

theorem waits : Outcomes s ch t none := nofun

theorem ends (h : Effect s ch t s') : Outcomes s ch t (some (s', [])) := of (.plain h nofun)

theorem stops : Outcomes s ch t (some (s, [])) := ends (.quiet (.refl s))

theorem one (h : Effect s ch t s') (hu : Leads s ch t u) : Outcomes s ch t (some (s', [u])) :=
  of (.plain h fun _ hm => mem_singleton.1 hm ▸ hu)

theorem two {v : Task} (h : Effect s ch t s') (hu : Leads s ch t u) (hv : Leads s ch t v) :
    Outcomes s ch t (some (s', [u, v])) :=
  of (.plain h fun _ hm => (mem_pair.1 hm).elim (fun heq => heq ▸ hu) fun heq => heq ▸ hv)

variable {c : ℕ}

/-- What a close starts may follow any task. -/
theorem leads_close (hu : u ∈ (s.close c).2) : Leads s ch t u := by
  unfold Manager.close at hu
  split at hu
  · split at hu
    · obtain rfl := mem_singleton.1 hu
      exact .disconnects
    · cases hu
  · cases hu

theorem close (hc : t.closing = some c) (h : Quiet (s.close c).1 s') :
    Outcomes s ch t (some (s', (s.close c).2)) :=
  of (.plain (.close hc h) fun _ => leads_close)

theorem closeThen (hc : t.closing = some c) (hu : Leads s ch t u) :
    Outcomes s ch t (some ((s.close c).1, u :: (s.close c).2)) :=
  of (.plain (.close hc (.refl _)) fun _ hv =>
    (mem_cons.1 hv).elim (fun heq => heq ▸ hu) leads_close)

theorem unlock : Outcomes s ch t (some (s.unlock, [])) := ends (.quiet {})

theorem next (hu : Leads s ch t u) : Outcomes s ch t (some (s, [u])) := one (.quiet (.refl s)) hu

theorem special (h : Special s ch t s' new) : Outcomes s ch t (some (s', new)) := of (.special h)

end Outcomes

/-- A foreign relay that is found is tracked and connected. -/
theorem foreignRelayCandidate_eq_found {candidates : List String} {c : ℕ}
    (h : s.foreignRelayCandidate candidates = .found c) :
    ∃ u ∈ candidates, s.relayClients u = some (.connected c) := by
  induction candidates with
  | nil => cases h
  | cons u candidates ih =>
    rw [Manager.foreignRelayCandidate] at h
    have hr : s.foreignRelayCandidate candidates = .found c →
        ∃ v ∈ u :: candidates, s.relayClients v = some (.connected c) := by
      intro hc
      obtain ⟨v, hv, ht⟩ := ih hc
      exact ⟨v, mem_cons_of_mem u hv, ht⟩
    split at h
    next => exact hr h
    next => cases h
    next => exact hr h
    next d ht =>
      split at h
      · cases h
        exact ⟨u, mem_cons_self, ht⟩
      · exact hr h

/-- What `switchHomeRelayIfNeeded` can do. -/
theorem outcomes_switchHome (t : SwitchHome) : Outcomes s ch (.switchHome t) (t.act s ch) := by
  cases t with
  | lock urls gen =>
    simp only [SwitchHome.act]
    split
    · exact .waits
    · split
      · exact .stops
      next hg => exact .one (.quiet {}) (.lock (not_not.1 hg))
  | home urls gen =>
    simp only [SwitchHome.act]
    split
    · exact .unlock
    next old ho =>
      split
      next hu =>
        subst hu
        exact .special (.drop ho)
      next =>
        split
        · exact .unlock
        next hp => exact .next (.candidates ho (Bool.eq_false_iff.2 hp))
  | close old => exact .close rfl {}
  | candidates old urls gen =>
    simp only [SwitchHome.act]
    split
    · exact .unlock
    · exact .next .foreign
  | foreign old candidates urls gen =>
    simp only [SwitchHome.act]
    split
    next c hf =>
      obtain ⟨v, hv, ht⟩ := foreignRelayCandidate_eq_found hf
      exact .next (.found hv ht)
    next => exact .unlock
    next => exact .next .absent
  | dial old candidates urls gen =>
    simp only [SwitchHome.act]
    split
    · exact .unlock
    · split
      next hm => exact .next (.dialled hm)
      next => exact .waits
  | validate old candidate urls gen =>
    simp only [SwitchHome.act]
    split
    · exact .next .validated
    · exact .unlock

/-- What the recovery can do. -/
theorem outcomes_recover (t : Recover) : Outcomes s ch (.recover t) (t.act s ch) := by
  cases t with
  | lock address =>
    simp only [Recover.act]
    split
    · exact .waits
    · split
      · exact .stops
      · exact .one (.quiet {}) (.recovers nofun)
  | home address =>
    simp only [Recover.act]
    split
    · exact .next (.recovers nofun)
    · split <;> exact .next (.recovers nofun)
  | load ho => exact .next (.recovers nofun)
  | plan ho gen =>
    simp only [Recover.act]
    split <;> exact .next (.recovers nofun)
  | dial ho candidates gen =>
    simp only [Recover.act]
    split
    · exact .unlock
    · split
      next hm => exact .next (.recoverDialled hm)
      next => exact .waits
  | detach ho gen => exact .one (.detach rfl) (.recovers nofun)
  | close ho gen => exact .closeThen rfl (.recovers nofun)
  | dialOnly ho gen =>
    simp only [Recover.act]
    split
    · exact .one (.quiet {}) .attempts
    · split
      · exact .next .recoverOnly
      · exact .waits
  | foreign address =>
    simp only [Recover.act]
    split
    next ht => exact .next (.recoverCloseForeign ht)
    next => exact .unlock
  | closeForeign c => exact .close rfl {}

theorem quiet_finish (s : Manager) (op : Op) : Quiet s (op.finish s).1 := by
  cases op <;> exact {}

theorem leads_finish {s₁ : Manager} {t : Swap} {op : Op} (hu : u ∈ (op.finish s₁).2) :
    Leads s ch (.swap t) u := by
  cases op with
  | migration =>
    obtain rfl := mem_singleton.1 hu
    exact .probeLoop
  | _ => cases hu

/-- What the swap of the home relay can do. -/
theorem outcomes_swap (t : Swap) : Outcomes s ch (.swap t) (t.act s ch) := by
  have hf (op : Op) : Outcomes s ch (.swap t) (some (op.finish s)) :=
    .of (.plain (.quiet (quiet_finish s op)) fun _ => leads_finish)
  cases t with
  | check op old cand gen =>
    simp only [Swap.act]
    split
    · exact .next .install
    · exact hf op
  | install op old cand gen =>
    simp only [Swap.act]
    split
    next hc =>
      simp only [Bool.and_eq_true, decide_eq_true_eq] at hc
      obtain ⟨⟨-, ho⟩, hg⟩ := hc
      split
      · exact .special (.install ho hg)
      · exact .special (.installNew ho hg)
    next => exact hf op
  | listen op old c =>
    refine .of (.plain (.listen c (quiet_finish _ op)) fun u hu => ?_)
    exact (mem_cons.1 hu).elim (fun heq => heq ▸ .retire) leads_finish

/-- What a retirement can do. -/
theorem outcomes_retire (t : Retire) : Outcomes s ch (.retire t) (t.act s) := by
  cases t with
  | wait c =>
    simp only [Retire.act]
    split
    · exact .waits
    · exact .one (.evict c) .retireDetach
  | detach c => exact .one (.detach rfl) .retireClose
  | close c => exact .close rfl (.refl _)

theorem outcomes_probe (t : Probe) : Outcomes s ch (.probe t) (t.act s ch) := by
  cases t with
  | loop =>
    simp only [Probe.act]
    split
    · exact .stops
    · split
      · exact .next .probeLoop
      · split
        · exact .one (.quiet {}) .probeLoop
        · exact .next .decide
  | decide group =>
    refine .of (.plain (.quiet {}) fun u hu => ?_)
    dsimp only at hu
    split at hu <;> obtain rfl := mem_singleton.1 hu
    · exact .probeLoop
    next ht => exact .migrate ht
  | migrate tgt =>
    simp only [Probe.act]
    split
    · exact .next .probeLoop
    next hh =>
      split
      · exact .next .probeLoop
      · exact .next (.migrateLoad hh)
  | load home tgt => exact .next .migrateDial
  | dial home tgt generation =>
    simp only [Probe.act]
    split
    · exact .next .probeLoop
    · split
      · exact .next .migrateDialled
      · exact .waits

theorem outcomes_failback (t : Failback) : Outcomes s ch (.failback t) (t.act s ch) := by
  cases t with
  | loop =>
    simp only [Failback.act]
    split
    · exact .stops
    · split
      · exact .one (.quiet {}) .failbackLoop
      · exact .next .failbackHome
  | home weights urls =>
    simp only [Failback.act]
    split
    · exact .one (.quiet {}) .failbackLoop
    · split
      · exact .one (.quiet {}) .failbackLoop
      · split
        · exact .one (.quiet {}) .failbackLoop
        · exact .one (.quiet {}) .failbackLoad
  | load urls => exact .two (.quiet (.refl s)) .failbackLoop .failback

/-- What an attempt of the guard can do. -/
theorem outcomes_attempt (t : Attempt) : Outcomes s ch (.attempt t) (t.act s ch) := by
  cases t with
  | quick relayClient =>
    cases relayClient with
    | none => exact .next .attempts
    | some c =>
      simp only [Attempt.act]
      split <;> exact .next .attempts
  | connect c =>
    simp only [Attempt.act]
    split
    · exact .next .attempts
    · exact .one (.connect rfl) .attempts
  | valid c =>
    simp only [Attempt.act]
    split
    · exact .stops
    · exact .closeThen rfl .attempts
  | ticker =>
    simp only [Attempt.act]
    split
    · exact .stops
    · split
      · exact .next .attempts
      · split
        · exact .next .attempts
        · exact .waits
  | drain url =>
    simp only [Attempt.act]
    split
    · exact .next .attempts
    · exact .special .drain
  | send url =>
    simp only [Attempt.act]
    split
    · exact .waits
    · exact .ends (.deliver (.inr ⟨_, rfl⟩) (some url))

theorem outcomes_guardEvent (t : GuardEvent) : Outcomes s ch (.guardEvent t) (t.act s ch) := by
  cases t with
  | loop =>
    simp only [GuardEvent.act]
    split
    · exact .waits
    · exact .one (.deliver (.inl rfl) none) .guardEvent
  | valid url =>
    simp only [GuardEvent.act]
    split <;> exact .next .guardEvent
  | store url => exact .special .store
  | listen c => exact .one (.listen c (.refl _)) .guardEvent

theorem outcomes_disconnect (t : Disconnect) : Outcomes s ch (.disconnect t) (t.act s) := by
  cases t with
  | exiting c => exact .closeThen rfl .disconnects
  | notify c =>
    simp only [Disconnect.act]
    split
    · exact .next .disconnects
    · exact .stops
  | onServerDisconnected c =>
    simp only [Disconnect.act]
    split
    · exact .next .attempts
    · exact .ends (.evict c)

/-- What a dial of a foreign relay can do. -/
theorem outcomes_foreign (t : Foreign) : Outcomes s ch (.foreign t) (t.act s ch) := by
  cases t with
  | dial address track =>
    simp only [Foreign.act]
    split <;> split
    · exact .one (.untrack address _ nofun) .foreignFailed
    · exact .next .foreignFailed
    · exact .special .track
    · exact .special .enroll
  | failed address => exact .ends (.untrack address none nofun)
  | close c => exact .close rfl (.refl _)

/-- Every action has one of the effects, and leaves no other tasks behind. -/
theorem outcome_act (h : act s ch t = some (s', new)) : Outcome s ch t s' new := by
  have ho : Outcomes s ch t (act s ch t) := by
    cases t with
    | reconfigure t =>
      cases t with
      | storeConfig => exact .one (.quiet {}) .storeConfig
      | bump => exact .special (.bump rfl)
    | switchHome t => exact outcomes_switchHome t
    | recover t => exact outcomes_recover t
    | swap t => exact outcomes_swap t
    | retire t => exact outcomes_retire t
    | probe t => exact outcomes_probe t
    | failback t => exact outcomes_failback t
    | attempt t => exact outcomes_attempt t
    | guardEvent t => exact outcomes_guardEvent t
    | disconnect t => exact outcomes_disconnect t
    | foreign t => exact outcomes_foreign t
  exact ho _ _ h

/-! ### The environment -/

/-- The tasks that the environment starts. -/
inductive Started (s : Manager) : Action → Task → Prop
  | recover {address} : Started s (.reportDataPlaneFailure address) (.recover (.lock address))
  | update {urls weights config} (h : config = s.config.update urls weights) :
    Started s (.updateServerURLs urls weights) (.reconfigure (.storeConfig
      config.effectiveRelayURLs (some config.relayWeights) config.forcedRelayURL
      (s.config.changed config)))
  | forced {url config} (h : config = { s.config with forcedRelayURL := url.getD "" }) :
    Started s (.setForcedRelay url) (.reconfigure (.storeConfig
      config.effectiveRelayURLs none config.forcedRelayURL true))
  | dial {address} : Started s (.openConnVia address) (.foreign (.dial address s.trackCount))
  | exiting {c} : Started s (.drop c) (.disconnect (.exiting c))
  | close {address c} (h : s.relayClients address = some (.connected c)) :
    Started s (.cleanUpUnusedRelay address) (.foreign (.close c))

theorem started_environment {sm : Int → Int → Int} {a : Action}
    (h : environment sm s a = some (s', new)) (hu : u ∈ new) : Started s a u := by
  cases a with
  | run => cases h
  | reportDataPlaneFailure =>
    cases h
    obtain rfl := mem_singleton.1 hu
    exact .recover
  | updateServerURLs =>
    cases h
    obtain rfl := mem_singleton.1 hu
    exact .update rfl
  | setForcedRelay =>
    simp only [environment] at h
    split at h <;> cases h
    obtain rfl := mem_singleton.1 hu
    exact .forced rfl
  | openConnVia =>
    simp only [environment] at h
    split at h <;> cases h
    obtain rfl := mem_singleton.1 hu
    exact .dial
  | peerConns =>
    simp only [environment] at h
    split at h <;> cases h
    cases hu
  | drop =>
    simp only [environment] at h
    split at h <;> cases h
    obtain rfl := mem_singleton.1 hu
    exact .exiting
  | cleanUpUnusedRelay =>
    simp only [environment] at h
    split at h
    next c ht =>
      split at h <;> cases h
      obtain rfl := mem_singleton.1 hu
      exact .close ht
    next => cases h
  | sample | cancel =>
    cases h
    cases hu

end Cloink.Relay
