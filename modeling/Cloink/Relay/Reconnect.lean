import Cloink.Relay.Homes

/-!
# The home relay is connected, or the guard is at work

When the home relay disconnects, its listener starts the guard. There are moments without a
listener: a client becomes the home relay before its listener is set, and the recovery of the only
server takes the listener away before it closes the home relay. That recovery also gives up when the
configuration changes meanwhile, and nobody is left to reconnect then.
-/

namespace Cloink.Relay

open List Option Manager

open Interleaving (Reaches exists_reaches)
open TaskPool (Pool)

variable {s s' : Manager} {ch : Choice} {new tasks : List Task} {t u : Task}
  {p p' : Pool Manager Task}

/-! ### Tasks that reconnect -/

def Manager.listening (s : Manager) (c : ℕ) : Bool := (s.clients c).onDisconnectListener

/-- A task that sees to it that the home relay is connected again: the notification that it has
disconnected, an attempt of the guard, the delivery of a new client, and the recovery of the only
server once it has taken over from the listener. -/
def Task.covers (s : Manager) : Task → Bool
  | .disconnect (.exiting c) | .disconnect (.notify c) =>
    s.relayClient = some c && s.listening c
  | .disconnect (.onServerDisconnected c) | .attempt (.quick (some c)) | .attempt (.connect c) =>
    s.relayClient = some c
  | .attempt (.quick none) | .attempt .ticker | .attempt (.drain _) | .attempt (.send _)
  | .guardEvent (.valid _) | .guardEvent (.store _) => true
  | .recover (.close home _) | .recover (.dialOnly home _)
  | .swap (.check (.recovery true) home _ _) | .swap (.install (.recovery true) home _ _) =>
    s.relayClient = some home
  | _ => false

/-- The home relay is connected, or something is under way that connects it. -/
def Covered (p : Pool Manager Task) : Prop :=
  (∃ home, p.shared.relayClient = some home ∧ p.shared.ready home) ∨
    p.shared.onNewRelayClient ≠ none ∨ ∃ t ∈ p.tasks, t.covers p.shared

/-! ### What can break the chain -/

/-- The clients that goroutines are to close: retired home relays, and foreign relays that are not
used or do not answer. -/
def Task.closes : Task → Option ℕ
  | .swap (.listen _ old _) | .retire (.wait old) | .retire (.detach old)
  | .retire (.close old) => some old
  | .foreign (.close c) | .recover (.closeForeign c) => some c
  | _ => none

theorem closing_closes : Closing Task.closes where
  listen h := some.inj h
  switchHome _ := rfl
  guardEvent _ := rfl
  attempt _ := rfl
  leads h hu := by
    cases h with
    | retire | retireDetach | retireClose => exact .inl hu
    | recoverCloseForeign ht =>
      cases hu
      exact .inr ⟨_, rfl, ht⟩
    | @recovers _ u hn =>
      cases u <;> cases hu
      exact absurd rfl (hn _)
    | _ => cases hu
  started h hu := by
    cases h with
    | close ht =>
      cases hu
      exact ⟨_, ht⟩
    | _ => cases hu

/-- There is always a server configured. -/
def Configured : Action → Prop
  | .updateServerURLs serverURLs _ => serverURLs ≠ []
  | _ => True

/-- An action that does not break the chain. The home relay has its listener when its read loop
ends. A client that becomes the home relay is connected. The configuration does not change while
the only server is recovered, and that server stays connected meanwhile. A new client of the guard
is for a server that is still configured. -/
def Unbroken (p : Pool Manager Task) : Action → Prop
  | .run (.disconnect (.exiting c)) _ =>
    p.shared.relayClient = some c → p.shared.ready c → p.shared.listening c
  | .run (.swap (.check (.recovery true) old candidate generation)) ch =>
    p.shared.relayClient = some old →
      p.shared.candidateReady ch candidate ∧ generation = p.shared.relayConfigGeneration
  | .run (.swap (.install op old candidate generation)) ch =>
    p.shared.relayClient = some old → p.shared.candidateReady ch candidate ∧
      (op = .recovery true → generation = p.shared.relayConfigGeneration)
  | .run (.guardEvent (.store _)) ch => ch.up
  | .run (.guardEvent (.valid url)) _ =>
    url ∈ p.shared.picker.serverURLs ∨ ∃ home ∈ p.shared.relayClient, p.shared.ready home
  | _ => True

instance (a : Action) : Decidable (Configured a) := by
  apply a.casesOn (motive := fun a => Decidable (Configured a)) <;> intros <;>
    dsimp only [Configured] <;> infer_instance

instance (p : Pool Manager Task) (a : Action) : Decidable (Unbroken p a) := by
  unfold Unbroken
  split <;> infer_instance

/-- What a step does not take away from the home relay. -/
structure Keeps (s s' : Manager) : Prop where
  home : s'.relayClient = s.relayClient
  ready : ∀ home, s.relayClient = some home → s.ready home → s'.ready home
  listening : ∀ home, s.relayClient = some home → s.listening home → s'.listening home
  delivery : s.onNewRelayClient ≠ none → s'.onNewRelayClient ≠ none

/-- A task that covers the home relay still does so. -/
theorem Keeps.covers (h : Keeps s s') (hu : u.covers s) : u.covers s' := by
  unfold Task.covers at hu ⊢
  rw [h.home]
  split at hu <;> simp only [Bool.and_eq_true, decide_eq_true_eq, Bool.false_eq_true] at hu ⊢
  · exact ⟨hu.1, h.listening _ hu.1 hu.2⟩
  · exact ⟨hu.1, h.listening _ hu.1 hu.2⟩
  all_goals exact hu

/-- A step keeps the home relay covered if it keeps the home relay, and the task has covered it or
is followed by one that does. -/
theorem Covered.resume (hcv : Covered p) (hk : Keeps p.shared s')
    (ht : t.covers p.shared → Covered ⟨s', p.tasks.erase t ++ new⟩) :
    Covered ⟨s', p.tasks.erase t ++ new⟩ := by
  rcases hcv with ⟨home, hh, hr⟩ | hd | ⟨u, hu, hc⟩
  · exact .inl ⟨home, hk.home.trans hh, hk.ready home hh hr⟩
  · exact .inr (.inl (hk.delivery hd))
  · by_cases heq : u = t
    · exact ht (heq ▸ hc)
    · exact .inr (.inr ⟨u, mem_append_left _ ((mem_erase_of_ne heq).2 hu), hk.covers hc⟩)

theorem Covered.spawn (hcv : Covered p) (hk : Keeps p.shared s') :
    Covered ⟨s', p.tasks ++ new⟩ := by
  rcases hcv with ⟨home, hh, hr⟩ | hd | ⟨u, hu, hc⟩
  · exact .inl ⟨home, hk.home.trans hh, hk.ready home hh hr⟩
  · exact .inr (.inl (hk.delivery hd))
  · exact .inr (.inr ⟨u, mem_append_left _ hu, hk.covers hc⟩)

theorem Covered.of_new (hu : u ∈ new) (hc : u.covers s') : Covered ⟨s', tasks ++ new⟩ :=
  .inr (.inr ⟨u, mem_append_right _ hu, hc⟩)

theorem Covered.of_head (hc : u.covers s') : Covered ⟨s', tasks ++ u :: new⟩ :=
  .of_new mem_cons_self hc

namespace Keeps

theorem of_eq (hc : s'.clients = s.clients) (hh : s'.relayClient = s.relayClient)
    (hd : s'.onNewRelayClient = s.onNewRelayClient) : Keeps s s' where
  home := hh
  ready home _ hr := by rwa [Manager.ready, hc]
  listening home _ hl := by rwa [Manager.listening, hc]
  delivery h := by rwa [hd]

theorem refl (s : Manager) : Keeps s s := of_eq rfl rfl rfl

theorem trans {s'' : Manager} (h : Keeps s s') (h' : Keeps s' s'') : Keeps s s'' where
  home := h'.home.trans h.home
  ready home hh hr := h'.ready home (h.home.trans hh) (h.ready home hh hr)
  listening home hh hon :=
    h'.listening home (h.home.trans hh) (h.listening home hh hon)
  delivery hd := h'.delivery (h.delivery hd)

variable {c : ℕ}

/-- Other clients do not matter to the home relay. -/
theorem setClient_of_ne (client : Client) (hc : s.relayClient ≠ some c) :
    Keeps s (s.setClient c client) where
  home := rfl
  ready home hh hr := by
    have hne : home ≠ c := fun heq => hc (heq ▸ hh)
    simpa [Manager.ready, Manager.setClient, hne] using hr
  listening home hh hon := by
    have hne : home ≠ c := fun heq => hc (heq ▸ hh)
    simpa [Manager.listening, Manager.setClient, hne] using hon
  delivery h := h

theorem setClient {client : Client} (hr : s.ready c → client.ready)
    (hon : s.listening c → client.onDisconnectListener) : Keeps s (s.setClient c client) := by
  by_cases hc : s.relayClient = some c
  · refine ⟨rfl, fun home hh h => ?_, fun home hh h => ?_, fun h => h⟩
    all_goals obtain rfl : c = home := some.inj (hc.symm.trans hh)
    · simpa [Manager.ready, Manager.setClient] using hr h
    · simpa [Manager.listening, Manager.setClient] using hon h
  · exact setClient_of_ne client hc

theorem setListener_true (s : Manager) (c : ℕ) : Keeps s (s.setListener c true) :=
  setClient (fun h => h) fun _ => rfl

theorem setListener_of_ne (on : Bool) (hc : s.relayClient ≠ some c) :
    Keeps s (s.setListener c on) :=
  setClient_of_ne _ hc

theorem close_of_ne (hc : s.relayClient ≠ some c) : Keeps s (s.close c).1 := by
  unfold close
  split
  · exact setClient_of_ne _ hc
  · exact refl s

theorem connect (s : Manager) (c : ℕ) (url : String) : Keeps s (s.connect c url) := by
  unfold Manager.connect
  split
  · exact refl s
  · exact setClient (fun _ => rfl) fun h => h

theorem enroll (hwf : Wf s) (url : String) (lst : Bool) : Keeps s (s.enroll url lst ch) := by
  have hne : s.relayClient ≠ some s.clientCount := fun h => Nat.lt_irrefl _ (hwf.home _ h)
  have hk := setClient_of_ne
    { connectionURL := url
      instanceURL := if ch.up then some ch.instanceURL else none
      reading := ch.up
      onDisconnectListener := lst } hne
  exact ⟨hk.home, hk.ready, hk.listening, hk.delivery⟩

theorem evictForeignRelayClient (s : Manager) (u : String) (c : ℕ) :
    Keeps s (s.evictForeignRelayClient u c) := by
  unfold Manager.evictForeignRelayClient
  split
  · exact of_eq rfl rfl rfl
  · exact refl s

theorem of_quiet (h : Quiet s s') : Keeps s s' := of_eq h.clients h.relayClient h.onNewRelayClient

end Keeps

/-! ### The servers that operations go by -/

/-- The lists of servers are not empty, so the home relay is not dropped. -/
def Task.Proper : Task → Prop
  | .reconfigure (.storeConfig urls _ _ _) | .reconfigure (.bump urls _)
  | .switchHome (.lock urls _) | .switchHome (.home urls _) | .failback (.home _ urls)
  | .failback (.load urls) => urls ≠ []
  | .switchHome (.close _) => False
  | _ => True

theorem sortByWeight_ne_nil {ws : StrMap Int} {urls : List String} (h : urls ≠ []) :
    sortRelayURLsByWeight ws urls ≠ [] := by
  rw [← length_pos_iff] at h ⊢
  rwa [sortRelayURLsByWeight, length_mergeSort]

theorem effectiveRelayURLs_ne_nil {config : Config} (h : config.configuredRelayURLs ≠ []) :
    config.effectiveRelayURLs ≠ [] := by
  unfold Config.effectiveRelayURLs
  split
  · exact h
  · exact cons_ne_nil _ _

/-- What a proper task leads to is proper. -/
theorem Leads.proper (h : Leads s ch t u) (hc : s.config.configuredRelayURLs ≠ [])
    (ht : t.Proper) : u.Proper := by
  cases h with
  | storeConfig | lock | failback => exact ht
  | failbackHome => exact hc
  | failbackLoad => exact sortByWeight_ne_nil ht
  | _ => trivial

theorem proper_special (h : Special s ch t s' new) (ht : t.Proper) (hu : u ∈ new) : u.Proper := by
  cases h with
  | bump =>
    obtain rfl := mem_singleton.1 hu
    exact ht
  | drop => exact (ht rfl).elim
  | install | installNew | store | drain =>
    obtain rfl := mem_singleton.1 hu
    trivial
  | enroll | track => cases hu

/-! ### Steps -/

/-- The clients are in order, there is a server, and the home relay is covered until the manager is
stopped. -/
structure Connected (p : Pool Manager Task) : Prop where
  inv : Inv Task.closes p
  configured : p.shared.config.configuredRelayURLs ≠ []
  proper : ∀ t ∈ p.tasks, t.Proper
  covered : p.shared.ctxDone = false → Covered p

/-- No task closes the home relay. -/
theorem ne_home_of_closes {c : ℕ} (hi : Connected p) (ht : t ∈ p.tasks)
    (hc : t.closes = some c) : p.shared.relayClient ≠ some c :=
  (hi.inv.closing t ht c hc).2

/-- The task is not one of the guard and does not set the home relay. -/
def Task.bystander : Task → Bool
  | .attempt _ | .guardEvent .loop | .swap (.install _ _ _ _) => false
  | _ => true

/-- An action that does not close the home relay or take its listener, and is not one of the guard,
keeps the home relay. -/
theorem Effect.keeps (h : Effect s ch t s')
    (hcl : ∀ c, t.closing = some c ∨ t.detaching = some c → s.relayClient ≠ some c)
    (hby : t.bystander) : Keeps s s' := by
  cases h with
  | quiet h => exact .of_quiet h
  | listen c h => exact (Keeps.setListener_true s c).trans (.of_quiet h)
  | detach hc => exact .setListener_of_ne false (hcl _ (.inr hc))
  | close hc h => exact (Keeps.close_of_ne (hcl _ (.inl hc))).trans (.of_quiet h)
  | connect => exact .connect s _ _
  | evict c => exact .evictForeignRelayClient s _ c
  | untrack => exact .of_eq rfl rfl rfl
  | deliver h => rcases h with rfl | ⟨a, rfl⟩ <;> cases hby

/-- The actions that neither cover the home relay nor set it. -/
theorem covered_other (hi : Connected p) (hco : Covered p) (ht : t ∈ p.tasks)
    (h : act p.shared ch t = some (s', new)) (hcv : t.covers p.shared = false)
    (hcl : ∀ c, t.closing = some c ∨ t.detaching = some c → t.closes = some c)
    (hby : t.bystander) : Covered ⟨s', p.tasks.erase t ++ new⟩ := by
  refine hco.resume ?_ fun hc => absurd hc (by simp [hcv])
  cases outcome_act h with
  | plain effect =>
    exact effect.keeps (fun c hc => ne_home_of_closes hi ht (hcl c hc)) hby
  | special hs =>
    cases hs with
    | bump => exact .of_eq rfl rfl rfl
    | drop => exact (hi.proper _ ht rfl).elim
    | install | installNew | drain => cases hby
    | store => cases hcv
    | @enroll address => exact .enroll hi.inv.wf address true
    | @track address => exact (Keeps.enroll hi.inv.wf address true).trans (.of_eq rfl rfl rfl)

/-- The recovery keeps the home relay covered. -/
theorem covered_recover {t : Recover} (hi : Connected p) (hcv : Covered p)
    (ht : .recover t ∈ p.tasks) (h : act p.shared ch (.recover t) = some (s', new)) :
    Covered ⟨s', p.tasks.erase (.recover t) ++ new⟩ := by
  cases t with
  | detach home gen =>
    cases h
    by_cases hh : p.shared.relayClient = some home
    · exact .of_head (decide_eq_true hh)
    · exact hcv.resume (.setListener_of_ne false hh) fun hc => by cases hc
  | close home gen =>
    have hf := Frame.close p.shared home
    cases h
    by_cases hh : p.shared.relayClient = some home
    · exact .of_head (decide_eq_true (hf.relayClient.trans hh))
    · exact hcv.resume (.close_of_ne hh) fun hc => absurd (of_decide_eq_true hc) hh
  | dialOnly home gen =>
    simp only [act, Recover.act] at h
    split at h
    · cases h
      exact hcv.resume (.of_eq rfl rfl rfl) fun hc => .of_head hc
    · split at h <;> cases h
      exact hcv.resume (.refl _) fun hc => .of_head hc
  | closeForeign c =>
    exact covered_other hi hcv ht h rfl (by simp [Task.closing, Task.detaching, Task.closes]) rfl
  | lock | home | load | plan | dial | foreign =>
    exact covered_other hi hcv ht h rfl (by simp [Task.closing, Task.detaching]) rfl

theorem ready_enroll (url : String) (lst : Bool) (h : ch.up) :
    (s.enroll url lst ch).ready s.clientCount := by
  simp [ready, enroll, setClient, Client.ready, h]

/-- So does a swap. -/
theorem covered_swap {t : Swap} (hi : Connected p) (hcv : Covered p)
    (hct : p.shared.ctxDone = false) (ht : .swap t ∈ p.tasks) (hok : Unbroken p (.run (.swap t) ch))
    (h : act p.shared ch (.swap t) = some (s', new)) :
    Covered ⟨s', p.tasks.erase (.swap t) ++ new⟩ := by
  cases t with
  | check op old cand gen =>
    simp only [act, Swap.act] at h
    split at h
    · cases h
      refine hcv.resume (.refl _) fun hc => .of_head ?_
      cases op with
      | recovery only => cases only <;> exact hc
      | priority | migration => exact hc
    next hr =>
      obtain rfl : (op.finish p.shared).1 = s' := congrArg Prod.fst (some.inj h)
      refine hcv.resume (.of_quiet (quiet_finish _ op)) fun hc => ?_
      rcases op with (_ | _) | _ | _ <;> try cases hc
      obtain ⟨hrd, hg⟩ := hok (of_decide_eq_true hc)
      exact absurd (by simp [hrd, hg]) hr
  | install op old cand gen =>
    simp only [act, Swap.act] at h
    split at h
    next hcr =>
      simp only [Bool.and_eq_true, decide_eq_true_eq] at hcr
      have hrd := (hok hcr.1.2).1
      split at h <;> cases h
      · exact .inl ⟨_, rfl, (ready_installHome _ _ _ _).2 hrd⟩
      · exact .inl ⟨_, rfl, (ready_installHome _ _ _ _).2 (ready_enroll _ false hrd)⟩
    next hr =>
      obtain rfl : (op.finish p.shared).1 = s' := congrArg Prod.fst (some.inj h)
      refine hcv.resume (.of_quiet (quiet_finish _ op)) fun hc => ?_
      rcases op with (_ | _) | _ | _ <;> try cases hc
      have hh : p.shared.relayClient = some old := of_decide_eq_true hc
      have hg := (hok hh).2 rfl
      exact absurd (by simp [hct, hh, hg]) hr
  | listen op old client =>
    exact covered_other hi hcv ht h rfl (by simp [Task.closing, Task.detaching]) rfl

theorem ready_connect (c : ℕ) (url : String) : (s.connect c url).ready c := by
  unfold connect
  split
  next h => exact h
  next => simp [ready, setClient, Client.ready]

/-- So does an attempt of the guard. -/
theorem covered_attempt {t : Attempt} (hcv : Covered p) (hct : p.shared.ctxDone = false)
    (h : t.act p.shared ch = some (s', new)) : Covered ⟨s', p.tasks.erase (.attempt t) ++ new⟩ := by
  cases t with
  | quick relayClient =>
    cases relayClient with
    | none =>
      cases h
      exact .of_head rfl
    | some c =>
      simp only [Attempt.act] at h
      split at h <;> cases h
      · exact hcv.resume (.refl _) fun hc => .of_head hc
      · exact .of_head rfl
  | connect c =>
    simp only [Attempt.act] at h
    split at h <;> cases h
    · exact .of_head rfl
    · refine hcv.resume (.connect _ c _) fun hc => .inl ⟨c, ?_, ready_connect c _⟩
      exact (Frame.connect _ c _).relayClient.trans (of_decide_eq_true hc)
  | valid c =>
    simp only [Attempt.act] at h
    split at h <;> cases h
    · exact hcv.resume (.refl _) fun hc => by cases hc
    · exact .of_head rfl
  | ticker =>
    simp only [Attempt.act, hct] at h
    split at h
    next hd => cases hd
    next =>
      split at h
      · cases h
        exact .of_head rfl
      · split at h <;> cases h
        exact .of_head rfl
  | drain url =>
    cases h
    exact .of_head rfl
  | send url =>
    simp only [Attempt.act] at h
    split at h <;> cases h
    exact .inr (.inl (by simp))

/-- So does an event of the guard. -/
theorem covered_guardEvent {t : GuardEvent} (hcv : Covered p)
    (hok : Unbroken p (.run (.guardEvent t) ch)) (h : t.act p.shared ch = some (s', new)) :
    Covered ⟨s', p.tasks.erase (.guardEvent t) ++ new⟩ := by
  cases t with
  | loop =>
    simp only [GuardEvent.act] at h
    split at h <;> cases h
    exact .of_head rfl
  | valid url =>
    simp only [GuardEvent.act] at h
    split at h
    · cases h
      exact .of_head rfl
    next hi =>
      cases h
      obtain ⟨home, hh, hr⟩ := hok.resolve_left hi
      exact .inl ⟨home, hh, hr⟩
  | store url =>
    cases h
    exact .inl ⟨_, rfl, ready_enroll url false hok⟩
  | listen c =>
    cases h
    exact hcv.resume (.setListener_true _ c) fun hc => by cases hc

theorem listening_close (c d : ℕ) : (s.close c).1.listening d = s.listening d := by
  unfold close listening
  split
  · by_cases hd : d = c
    · subst hd
      simp [setClient]
    · simp [setClient, hd]
  · rfl

/-- So does the notification of a disconnect. -/
theorem covered_disconnect {t : Disconnect} (hcv : Covered p)
    (hok : Unbroken p (.run (.disconnect t) ch)) (h : t.act p.shared = some (s', new)) :
    Covered ⟨s', p.tasks.erase (.disconnect t) ++ new⟩ := by
  cases t with
  | exiting c =>
    cases h
    by_cases hh : p.shared.relayClient = some c
    · by_cases hon : p.shared.listening c
      · refine .of_head ?_
        have hh' := (Frame.close p.shared c).relayClient.trans hh
        simp [Task.covers, hh', listening_close, hon]
      · -- without a listener the home relay was not connected
        have hr : ¬ p.shared.ready c := fun hr => hon (hok hh hr)
        refine hcv.resume ?_ fun hc => ?_
        · rw [close, if_neg hr]
          exact .refl _
        · simp [Task.covers, hon] at hc
    · refine hcv.resume (.close_of_ne hh) fun hc => ?_
      simp [Task.covers, hh] at hc
  | notify c =>
    cases h
    refine hcv.resume (.refl _) fun hc => ?_
    simp only [Task.covers, Bool.and_eq_true, decide_eq_true_eq] at hc
    refine .of_new (u := .disconnect (.onServerDisconnected c)) ?_ (decide_eq_true hc.1)
    have hon : (p.shared.clients c).onDisconnectListener := hc.2
    simp [hon]
  | onServerDisconnected c =>
    simp only [Disconnect.act] at h
    split at h <;> cases h
    next hh => exact .of_head (decide_eq_true hh)
    next hh =>
      exact hcv.resume (.evictForeignRelayClient _ _ c) fun hc =>
        absurd (of_decide_eq_true hc) hh

/-- Every task keeps the home relay covered. -/
theorem covered_act (hi : Connected p) (ht : t ∈ p.tasks) (hok : Unbroken p (.run t ch))
    (hct : p.shared.ctxDone = false) (h : act p.shared ch t = some (s', new)) :
    Covered ⟨s', p.tasks.erase t ++ new⟩ := by
  have hc := hi.covered hct
  cases t with
  | recover t => exact covered_recover hi hc ht h
  | swap t => exact covered_swap hi hc hct ht hok h
  | attempt t => exact covered_attempt hc hct h
  | guardEvent t => exact covered_guardEvent hc hok h
  | disconnect t => exact covered_disconnect hc hok h
  | switchHome t =>
    refine covered_other hi hc ht h rfl ?_ rfl
    cases t with
    | close => exact (hi.proper _ ht).elim
    | _ => simp [Task.closing, Task.detaching]
  | retire t | foreign t =>
    refine covered_other hi hc ht h rfl ?_ rfl
    cases t <;> simp [Task.closing, Task.detaching, Task.closes]
  | reconfigure t | probe t | failback t =>
    exact covered_other hi hc ht h rfl (by simp [Task.closing, Task.detaching]) rfl

variable {a : Action} {smooth : Int → Int → Int}

/-- The environment does not touch the home relay but for breaking its connection, which the client
has to notice first. -/
theorem keeps_environment (hwf : Wf s) (h : environment smooth s a = some (s', new)) :
    Keeps s s' := by
  cases a with
  | run => cases h
  | reportDataPlaneFailure | updateServerURLs | sample | cancel =>
    cases h
    exact .of_eq rfl rfl rfl
  | setForcedRelay | openConnVia =>
    simp only [environment] at h
    split at h <;> cases h
    exact .of_eq rfl rfl rfl
  | peerConns | drop =>
    simp only [environment] at h
    split at h <;> cases h
    exact .setClient (fun h => h) fun h => h
  | cleanUpUnusedRelay =>
    simp only [environment] at h
    split at h
    next c ht =>
      split at h <;> cases h
      have hk := Keeps.setListener_of_ne false (hwf.tracked _ c ht).2.2
      exact hk.trans (.of_eq rfl rfl rfl)
    next => cases h

theorem configured_environment (hc : Configured a)
    (hcn : s.config.configuredRelayURLs ≠ []) (h : environment smooth s a = some (s', new)) :
    s'.config.configuredRelayURLs ≠ [] := by
  cases a with
  | updateServerURLs =>
    cases h
    exact sortByWeight_ne_nil hc
  | setForcedRelay =>
    simp only [environment] at h
    split at h <;> cases h
    exact hcn
  | cancel =>
    cases h
    exact hcn
  | _ => rwa [(frame_environment h rfl).config]

theorem ctxDone_environment (h : environment smooth s a = some (s', new))
    (hc : s'.ctxDone = false) : s.ctxDone = false := by
  cases a with
  | updateServerURLs =>
    cases h
    exact hc
  | setForcedRelay =>
    simp only [environment] at h
    split at h <;> cases h
    exact hc
  | cancel =>
    cases h
    cases hc
  | _ => rwa [(frame_environment h rfl).ctxDone] at hc

/-- The environment keeps the invariant. -/
theorem Connected.environment (hi : Connected p) (hc : Configured a)
    (h : environment smooth p.shared a = some (s', new)) : Connected ⟨s', p.tasks ++ new⟩ where
  inv := hi.inv.environment closing_closes h
  configured := configured_environment hc hi.configured h
  proper t ht := by
    rcases mem_append.1 ht with ho | hn
    · exact hi.proper t ho
    · cases started_environment h hn with
      | update heq =>
        subst heq
        exact effectiveRelayURLs_ne_nil (sortByWeight_ne_nil hc)
      | forced heq =>
        subst heq
        exact effectiveRelayURLs_ne_nil hi.configured
      | _ => trivial
  covered hct :=
    (hi.covered (ctxDone_environment h hct)).spawn (keeps_environment hi.inv.wf h)

/-- A task keeps the invariant. -/
theorem Connected.run (hi : Connected p) (ht : t ∈ p.tasks)
    (hsp : Spares Task.closes p (.run t ch)) (hok : Unbroken p (.run t ch))
    (h : act p.shared ch t = some (s', new)) : Connected ⟨s', p.tasks.erase t ++ new⟩ where
  inv := hi.inv.run closing_closes ht hsp h
  configured := by
    rw [(config_act h).1]
    exact hi.configured
  proper u hu := by
    rcases mem_append.1 hu with ho | hn
    · exact hi.proper u (mem_of_mem_erase ho)
    · cases outcome_act h with
      | plain _ leads => exact (leads u hn).proper hi.configured (hi.proper t ht)
      | special hs => exact proper_special hs (hi.proper t ht) hn
  covered hc := covered_act hi ht hok ((config_act h).2 ▸ hc) h

/-- There is a server, the clients that are to be closed are spared, and the chain is not broken. -/
def Sound (p : Pool Manager Task) (a : Action) : Prop :=
  Configured a ∧ Spares Task.closes p a ∧ Unbroken p a

instance (p : Pool Manager Task) (a : Action) : Decidable (Sound p a) :=
  inferInstanceAs (Decidable (_ ∧ _))

/-- One step keeps the invariant. -/
theorem Connected.step (hi : Connected p) (hok : Sound p a) (h : step smooth p a = some p') :
    Connected p' := by
  cases a with
  | run t ch =>
    obtain ⟨ht, s', new, ha, rfl⟩ := Pool.resume_eq_some h
    exact hi.run ht hok.2.1 hok.2.2 ha
  | _ =>
    obtain ⟨s', new, he, rfl⟩ := Pool.spawn_eq_some h
    exact hi.environment hok.1 he

theorem connected_serve {urls : List String} (hu : urls ≠ []) (fb : Bool)
    (picked : Option String) : Connected (serve urls fb picked) where
  inv := by
    apply inv_serve
    rintro t (⟨_, rfl⟩ | ⟨_, rfl⟩ | ⟨_, rfl⟩ | ⟨_, rfl⟩) <;> rfl
  configured := hu
  proper := by cases picked <;> cases fb <;> simp [serve, Task.Proper]
  covered _ := by
    refine .inr (.inr ?_)
    cases picked with
    | none => exact ⟨_, mem_cons_self, rfl⟩
    | some url => exact ⟨_, mem_cons_self, rfl⟩

/-- A task of an operation. The loops wait for their next tick, the attempts are those of the guard,
and what goes on with other clients does not concern the home relay. -/
def Task.inProgress : Task → Bool
  | .attempt _ | .probe .loop | .failback .loop | .guardEvent .loop | .retire _ | .foreign _ => false
  | _ => true

/-- When no operation is in progress, the home relay is connected, or the guard attempts to
reconnect. -/
theorem connected_or_reconnecting {smooth : Int → Int → Int} {urls : List String}
    (hurls : urls ≠ []) {autoFailback : Bool} {picked : Option String}
    (h : Reaches (step smooth) Sound (serve urls autoFailback picked) p)
    (hctx : p.shared.ctxDone = false) (hquiet : ∀ t ∈ p.tasks, !t.inProgress)
    (hdelivered : p.shared.onNewRelayClient = none) :
    (∃ home, p.shared.relayClient = some home ∧ p.shared.ready home) ∨
      ∃ attempt, .attempt attempt ∈ p.tasks := by
  have hin : Connected p := h.invariant (connected_serve hurls autoFailback picked)
    fun _ _ _ hin hok hs => hin.step hok hs
  rcases hin.covered hctx with hr | hd | ⟨t, ht, hc⟩
  · exact .inl hr
  · exact absurd hdelivered hd
  · have hi := hquiet t ht
    match t, hi, hc with
    | .attempt attempt, _, _ => exact .inr ⟨attempt, ht⟩

/-! ### Two runs -/

section

/-- The manager connects to "a", its only server. -/
def connectOnly : List Action :=
  [.run (.guardEvent (.store "a")) {}, .run (.guardEvent (.listen 0)) {}]

/-- The connection breaks, and the guard is started. -/
theorem reconnecting_dropped : ∃ p : Pool Manager Task,
    Reaches (step fun _ rtt => rtt) Sound (serve ["a"] false (some "a")) p ∧
      p.shared.ready 0 = false ∧
      ((∃ home, p.shared.relayClient = some home ∧ p.shared.ready home) ∨
        ∃ attempt, .attempt attempt ∈ p.tasks) := by
  have hrn : ∃ p : Pool Manager Task,
      Reaches (step fun _ rtt => rtt) Sound (serve ["a"] false (some "a")) p ∧
        p.shared.ready 0 = false ∧ p.shared.ctxDone = false ∧ (∀ t ∈ p.tasks, !t.inProgress) ∧
          p.shared.onNewRelayClient = none :=
    exists_reaches (connectOnly ++
        [.drop 0, .run (.disconnect (.exiting 0)) {}, .run (.disconnect (.notify 0)) {},
          .run (.disconnect (.onServerDisconnected 0)) {}])
      (by decide +kernel)
  obtain ⟨p, hr, hdw, hc, hq, hd⟩ := hrn
  exact ⟨p, hr, hdw, connected_or_reconnecting (cons_ne_nil _ _) hr hc hq hd⟩

/-- The recovery of the only server has closed the home relay and dialled it anew when the weight of
the server changes. The new client is refused, and the recovery ends. Then the switch that the
change has started finds the home relay still of the highest priority. The home relay is not
connected, and nothing is under way but the loops. -/
theorem relay_lost : ∃ p : Pool Manager Task,
    Reaches (step fun _ rtt => rtt) (fun _ a => Configured a) (serve ["a"] false (some "a")) p ∧
      p.shared.ctxDone = false ∧ p.shared.onNewRelayClient = none ∧
      p.shared.relayClient = some 0 ∧ p.shared.ready 0 = false ∧
      p.tasks = [.probe .loop, .guardEvent .loop] :=
  exists_reaches (connectOnly ++ [.reportDataPlaneFailure "a",
        .run (.recover (.lock "a")) {}, .run (.recover (.home "a")) {},
        .run (.recover (.load 0)) {}, .run (.recover (.plan 0 1)) {},
        .run (.recover (.detach 0 1)) {}, .run (.recover (.close 0 1)) {},
        .run (.recover (.dialOnly 0 1)) { server := some "a" },
        .updateServerURLs ["a"] [("a", 200)],
        .run (.reconfigure (.storeConfig ["a"] (some (AList.insert "a" 200 ∅)) "" true)) {},
        .run (.reconfigure (.bump ["a"] true)) {},
        .run (.swap (.check (.recovery true) 0 (.dialled "a") 1)) {},
        .run (.switchHome (.lock ["a"] 2)) {}, .run (.switchHome (.home ["a"] 2)) {},
        .run (.disconnect (.exiting 0)) {}, .run (.disconnect (.notify 0)) {}])
    (by decide +kernel)

end

end Cloink.Relay
