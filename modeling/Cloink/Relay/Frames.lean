import Cloink.Relay.Effects

/-!
# What an action of the relay manager leaves alone

Most actions neither replace the home relay, nor put a client among the foreign relays, nor change
the configuration.
-/

namespace Cloink.Relay

/-- The same clients and the same home relay, and no foreign relay that was not one before. Whether
clients are connected may have changed. -/
structure SameRelays (s s' : Manager) : Prop where
  clientCount : s'.clientCount = s.clientCount
  url : ∀ c, s'.url c = s.url c
  relayClient : s'.relayClient = s.relayClient
  tracked : ∀ u c, s'.relayClients u = some (.connected c) → s.relayClients u = some (.connected c)

/-- The same configuration, and the manager runs on. -/
structure SameConfig (s s' : Manager) : Prop where
  config : s'.config = s.config
  relayConfigGeneration : s'.relayConfigGeneration = s.relayConfigGeneration
  ctxDone : s'.ctxDone = s.ctxDone

structure Frame (s s' : Manager) : Prop extends SameRelays s s', SameConfig s s'

variable {s s' s'' : Manager} {ch : Choice} {new : List Task} {t : Task}

namespace Frame

theorem refl (s : Manager) : Frame s s :=
  ⟨⟨rfl, fun _ => rfl, rfl, fun _ _ h => h⟩, ⟨rfl, rfl, rfl⟩⟩

theorem trans (h : Frame s s') (h' : Frame s' s'') : Frame s s'' where
  clientCount := h'.clientCount.trans h.clientCount
  url c := (h'.url c).trans (h.url c)
  relayClient := h'.relayClient.trans h.relayClient
  tracked u c hc := h.tracked u c (h'.tracked u c hc)
  config := h'.config.trans h.config
  relayConfigGeneration := h'.relayConfigGeneration.trans h.relayConfigGeneration
  ctxDone := h'.ctxDone.trans h.ctxDone

theorem setClient {c : ℕ} {client : Client} (h : client.connectionURL = s.url c) :
    Frame s (s.setClient c client) where
  clientCount := rfl
  url d := by
    unfold Manager.url at h ⊢
    by_cases hd : d = c
    · subst hd
      simpa [Manager.setClient] using h
    · simp [Manager.setClient, hd]
  relayClient := rfl
  tracked _ _ h := h
  config := rfl
  relayConfigGeneration := rfl
  ctxDone := rfl

theorem setListener (s : Manager) (c : ℕ) (on : Bool) : Frame s (s.setListener c on) :=
  setClient rfl

/-- A close leaves the configuration and the relays alone. -/
theorem close (s : Manager) (c : ℕ) : Frame s (s.close c).1 := by
  unfold Manager.close
  split
  · exact setClient rfl
  · exact refl s

theorem connect (s : Manager) (c : ℕ) (url : String) : Frame s (s.connect c url) := by
  unfold Manager.connect
  split
  · exact refl s
  · exact setClient rfl

/-- So does a track that is set to no client. -/
theorem untrack (s : Manager) (u : String) (track : Option Track)
    (ht : ∀ c, track ≠ some (.connected c)) :
    Frame s { s with relayClients := Function.update s.relayClients u track } where
  clientCount := rfl
  url _ := rfl
  relayClient := rfl
  tracked v c hc := by
    by_cases hv : v = u
    · subst hv
      exact absurd (by simpa using hc) (ht c)
    · simpa [hv] using hc
  config := rfl
  relayConfigGeneration := rfl
  ctxDone := rfl

theorem evictForeignRelayClient (s : Manager) (u : String) (c : ℕ) :
    Frame s (s.evictForeignRelayClient u c) := by
  unfold Manager.evictForeignRelayClient
  split
  · exact untrack s u none nofun
  · exact refl s

end Frame

theorem Frame.of_quiet (h : Quiet s s') : Frame s s' where
  clientCount := h.clientCount
  url c := by unfold Manager.url; rw [h.clients]
  relayClient := h.relayClient
  tracked u c hc := by rwa [h.relayClients] at hc
  config := h.config
  relayConfigGeneration := h.relayConfigGeneration
  ctxDone := h.ctxDone

/-- All actions but the special ones leave the relays and the configuration alone. -/
theorem Effect.frame (h : Effect s ch t s') : Frame s s' := by
  cases h with
  | quiet h => exact .of_quiet h
  | listen c h => exact (Frame.setListener s c true).trans (.of_quiet h)
  | detach => exact .setListener s _ false
  | close _ h => exact (Frame.close s _).trans (.of_quiet h)
  | connect => exact .connect s _ _
  | evict c => exact .evictForeignRelayClient s _ c
  | untrack address track h => exact .untrack s address track h
  | deliver => exact ⟨⟨rfl, fun _ => rfl, rfl, fun _ _ h => h⟩, ⟨rfl, rfl, rfl⟩⟩

theorem sameConfig_installHome (s : Manager) (old c : ℕ) : SameConfig s (s.installHome old c) := by
  have hf := (Frame.evictForeignRelayClient s (s.url c) c).trans (.setListener _ old true)
  exact ⟨hf.config, hf.relayConfigGeneration, hf.ctxDone⟩

/-- Only the end of a reconfiguration changes the configuration. -/
theorem sameConfig_act (ht : ∀ urls chg, t ≠ .reconfigure (.bump urls chg))
    (h : act s ch t = some (s', new)) : SameConfig s s' := by
  cases outcome_act h with
  | plain effect => exact effect.frame.toSameConfig
  | special hsp =>
    cases hsp with
    | @bump urls chg => exact absurd rfl (ht urls chg)
    | @install _ old c => exact sameConfig_installHome s old c
    | @installNew _ old url =>
      have hs := sameConfig_installHome (s.enroll url false ch) old s.clientCount
      exact ⟨hs.config, hs.relayConfigGeneration, hs.ctxDone⟩
    | drop | store | drain | enroll | track => exact ⟨rfl, rfl, rfl⟩

theorem config_act (h : act s ch t = some (s', new)) :
    s'.config = s.config ∧ s'.ctxDone = s.ctxDone := by
  by_cases hb : ∃ urls chg, t = .reconfigure (.bump urls chg)
  · obtain ⟨urls, chg, rfl⟩ := hb
    cases h
    exact ⟨rfl, rfl⟩
  · have hs := sameConfig_act (fun urls chg heq => hb ⟨urls, chg, heq⟩) h
    exact ⟨hs.config, hs.ctxDone⟩

/-- The action changes neither the configuration nor the context. -/
def Action.keepsConfig : Action → Bool
  | .updateServerURLs _ _ | .setForcedRelay _ | .cancel => false
  | _ => true

/-- What the environment leaves alone. -/
theorem frame_environment {sm : Int → Int → Int} {a : Action}
    (h : environment sm s a = some (s', new)) (ha : a.keepsConfig) : Frame s s' := by
  cases a with
  | run => cases h
  | updateServerURLs | setForcedRelay | cancel => cases ha
  | reportDataPlaneFailure | sample =>
    cases h
    exact .of_quiet {}
  | openConnVia address =>
    simp only [environment] at h
    split at h <;> cases h
    have hd := Frame.untrack s address (some (.dialing s.trackCount)) (by simp)
    exact hd.trans (.of_quiet {})
  | peerConns | drop =>
    simp only [environment] at h
    split at h <;> cases h
    apply Frame.setClient
    rfl
  | cleanUpUnusedRelay =>
    simp only [environment] at h
    split at h
    next client hc =>
      split at h <;> cases h
      exact (Frame.setListener s client false).trans (.untrack _ _ none (by simp))
    next => cases h

/-- It never changes the relays. -/
theorem sameRelays_environment {sm : Int → Int → Int} {a : Action}
    (h : environment sm s a = some (s', new)) : SameRelays s s' := by
  cases a with
  | updateServerURLs | cancel =>
    cases h
    exact ⟨rfl, fun _ => rfl, rfl, fun _ _ h => h⟩
  | setForcedRelay =>
    simp only [environment] at h
    split at h <;> cases h
    exact ⟨rfl, fun _ => rfl, rfl, fun _ _ h => h⟩
  | _ => exact (frame_environment h rfl).toSameRelays

end Cloink.Relay
