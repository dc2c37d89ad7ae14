import Cloink.Lib.Interleaving
import Cloink.Lib.TaskPool
import Cloink.Relay.Priorities

/-!
# Publication of the relay configuration

`UpdateServerURLsWithWeights` and `SetForcedRelay` change the configuration of the relay manager
under its lock, and tell the server picker about it when they have released the lock. A call may
tell the picker after a later one has done so. `SetForcedRelay` reads the weights after its critical
section, so its snapshot may also mix two configurations.

## Main definitions

* `InOrder`: snapshots are published in the order of their critical sections.
* `Agrees`: the picker has the configuration, or the last call is about to publish it.

## Main results

* `picker_agrees`: after calls in order the picker has the configuration of the manager.
-/

namespace Cloink.Relay

open Interleaving TaskPool List

/-- The configuration of the picker that belongs to a configuration of the manager. -/
def Config.published (c : Config) : PickerConfig :=
  ⟨c.effectiveRelayURLs, c.relayWeights, c.forcedRelayURL⟩

namespace Publication

/-- The critical sections are counted, which the code does not do. -/
structure Shared where
  config : Config
  picker : PickerConfig
  sections : Nat

/-- What a call has left to do after its critical section, which has a number. -/
inductive Call where
  | cloneWeights (number : Nat) (effectiveURLs : List String) (forcedURL : String)
  | storeConfig (number : Nat) (config : PickerConfig)
  deriving DecidableEq

def Call.number : Call → Nat
  | .cloneWeights n .. | .storeConfig n _ => n

def Call.act (s : Shared) : Call → Option (Shared × List Call)
  | .cloneWeights n effectiveURLs forcedURL =>
    some (s, [.storeConfig n ⟨effectiveURLs, s.config.relayWeights, forcedURL⟩])
  | .storeConfig _ config => some ({ s with picker := config }, [])

/-- The critical sections of the calls, and what comes after them. `SetForcedRelay` has matched the
URL; none clears the forced relay. -/
inductive Action where
  | updateServerURLs (serverURLs : List String) (relayWeights : List (String × Int))
  | setForcedRelay (relayURL : Option String)
  | run (c : Call)

def step (p : Pool Shared Call) : Action → Option (Pool Shared Call)
  | .updateServerURLs serverURLs relayWeights =>
    let config := p.shared.config.update serverURLs relayWeights
    let n := p.shared.sections + 1
    p.spawn (some ({ p.shared with config, sections := n }, [.storeConfig n config.published]))
  | .setForcedRelay relayURL =>
    if ∀ url ∈ relayURL, url ∈ p.shared.config.configuredRelayURLs then
      let config := { p.shared.config with forcedRelayURL := relayURL.getD "" }
      let n := p.shared.sections + 1
      p.spawn (some ({ p.shared with config, sections := n },
        [.cloneWeights n config.effectiveRelayURLs config.forcedRelayURL]))
    else none
  | .run c => p.resume c (c.act p.shared)

/-- `NewManager` tells the picker at once. -/
def newManager (serverURLs : List String) : Pool Shared Call :=
  let config : Config := ⟨serverURLs, relayWeightsFromURLs serverURLs, ""⟩
  ⟨⟨config, config.published, 0⟩, []⟩

/-- The call of the last critical section has not stored its configuration. -/
def LastUnderWay (p : Pool Shared Call) : Prop := ∃ c ∈ p.tasks, c.number = p.shared.sections

/-- No call stores its configuration after the one of the last critical section has done so. -/
def InOrder (p : Pool Shared Call) : Action → Prop
  | .run (.storeConfig ..) => LastUnderWay p
  | _ => True

instance (p : Pool Shared Call) : DecidablePred (InOrder p)
  | .run (.storeConfig ..) => inferInstanceAs (Decidable (∃ c ∈ p.tasks, _))
  | .run (.cloneWeights ..) | .updateServerURLs .. | .setForcedRelay _ =>
    inferInstanceAs (Decidable True)

/-- The call is about to publish a configuration. -/
def Call.Publishes (config : Config) : Call → Prop
  | .cloneWeights _ effectiveURLs forcedURL =>
    effectiveURLs = config.effectiveRelayURLs ∧ forcedURL = config.forcedRelayURL
  | .storeConfig _ c => c = config.published

/-- The call of the last critical section is about to publish the current configuration, and the
picker has that one when this call has returned. -/
structure Agrees (p : Pool Shared Call) : Prop where
  bound : ∀ c ∈ p.tasks, c.number ≤ p.shared.sections
  publishes : ∀ c ∈ p.tasks, c.number = p.shared.sections → c.Publishes p.shared.config
  picker : p.shared.picker = p.shared.config.published ∨ LastUnderWay p

variable {p p' : Pool Shared Call} {a : Action}

/-- A critical section makes the calls before it earlier ones. -/
theorem Agrees.spawn {config : Config} {c : Call} (h : Agrees p)
    (hn : c.number = p.shared.sections + 1) (hc : c.Publishes config) :
    Agrees ⟨⟨config, p.shared.picker, p.shared.sections + 1⟩, p.tasks ++ [c]⟩ where
  bound d hd := by
    obtain hd | hd := mem_append.1 hd
    · exact (h.bound d hd).trans (Nat.le_succ _)
    · exact (mem_singleton.1 hd ▸ hn).le
  publishes d hd hdn := by
    obtain hd | hd := mem_append.1 hd
    · exact absurd hdn (Nat.lt_succ_of_le (h.bound d hd)).ne
    · exact mem_singleton.1 hd ▸ hc
  picker := .inr ⟨c, mem_append_right _ mem_cons_self, hn⟩

theorem Agrees.run {c : Call} (h : Agrees p) (hok : InOrder p (.run c))
    (hs : step p (.run c) = some p') : Agrees p' := by
  obtain ⟨hc, s, new, ha, rfl⟩ := Pool.resume_eq_some hs
  have hmem {d : Call} (hd : d ∈ p.tasks.erase c) : d ∈ p.tasks := mem_of_mem_erase hd
  cases c with
  | cloneWeights n urls forced =>
    cases ha
    refine ⟨fun d hd => ?_, fun d hd hdn => ?_, h.picker.imp_right ?_⟩
    · obtain hd | hd := mem_append.1 hd
      · exact h.bound d (hmem hd)
      · obtain rfl := mem_singleton.1 hd
        exact h.bound (.cloneWeights n urls forced) hc
    · obtain hd | hd := mem_append.1 hd
      · exact h.publishes d (hmem hd) hdn
      · obtain rfl := mem_singleton.1 hd
        obtain ⟨rfl, rfl⟩ := h.publishes _ hc hdn
        rfl
    · -- the call of the last critical section goes on as the store
      rintro ⟨d, hd, hdn⟩
      by_cases heq : d = .cloneWeights n urls forced
      · subst heq
        exact ⟨_, mem_append_right _ mem_cons_self, hdn⟩
      · exact ⟨d, mem_append_left _ ((mem_erase_of_ne heq).2 hd), hdn⟩
  | storeConfig n config =>
    cases ha
    simp only [append_nil]
    refine ⟨fun d hd => h.bound d (hmem hd), fun d hd => h.publishes d (hmem hd), ?_⟩
    by_cases hlast : n = p.shared.sections
    · exact .inl (h.publishes _ hc hlast)
    · obtain ⟨d, hd, hdn⟩ := hok
      refine .inr ⟨d, (mem_erase_of_ne ?_).2 hd, hdn⟩
      rintro rfl
      exact hlast hdn

theorem Agrees.step (h : Agrees p) (hok : InOrder p a) (hs : step p a = some p') : Agrees p' := by
  cases a with
  | updateServerURLs urls weights =>
    cases hs
    exact h.spawn rfl rfl
  | setForcedRelay url =>
    simp only [Publication.step] at hs
    split at hs <;> cases hs
    exact h.spawn rfl ⟨rfl, rfl⟩
  | run c => exact h.run hok hs

/-- When the calls publish in order and have all returned, the picker has the configuration of the
manager. -/
theorem picker_agrees (serverURLs : List String)
    (h : Reaches step InOrder (newManager serverURLs) p) (hret : p.tasks = []) :
    p.shared.picker = p.shared.config.published := by
  have h0 : Agrees (newManager serverURLs) := ⟨by simp [newManager], by simp [newManager], .inl rfl⟩
  have hi : Agrees p := h.invariant h0 fun _ _ _ hi => hi.step
  refine hi.picker.resolve_right ?_
  rintro ⟨c, hc, -⟩
  rw [hret] at hc
  cases hc

/-- Two overlapping calls, of which the first one publishes first. -/
theorem picker_agrees_overlapping : ∃ p, Reaches step InOrder (newManager ["a", "b"]) p ∧
    p.shared.config.forcedRelayURL = "b" ∧ p.shared.picker = p.shared.config.published := by
  have h : ∃ p, Reaches step InOrder (newManager ["a", "b"]) p ∧ p.tasks = [] ∧
      p.shared.config.forcedRelayURL = "b" :=
    exists_reaches [.setForcedRelay (some "a"), .setForcedRelay (some "b"),
      .run (.cloneWeights 2 ["b", "a"] "b"), .run (.cloneWeights 1 ["a", "b"] "a"),
      .run (.storeConfig 1 ⟨["a", "b"], relayWeightsFromURLs ["a", "b"], "a"⟩),
      .run (.storeConfig 2 ⟨["b", "a"], relayWeightsFromURLs ["a", "b"], "b"⟩)] (by decide +kernel)
  obtain ⟨p, hr, hret, hf⟩ := h
  exact ⟨p, hr, hf, picker_agrees _ hr hret⟩

/-- The calls publish in the other order: the manager has "b" forced, and the picker "a". -/
theorem picker_outdated : ∃ p, Reaches step (fun _ _ => True) (newManager ["a", "b"]) p ∧
    p.tasks = [] ∧ p.shared.config.forcedRelayURL = "b" ∧ p.shared.picker.forcedURL = "a" :=
  exists_reaches [.setForcedRelay (some "a"), .setForcedRelay (some "b"),
    .run (.cloneWeights 2 ["b", "a"] "b"), .run (.cloneWeights 1 ["a", "b"] "a"),
    .run (.storeConfig 2 ⟨["b", "a"], relayWeightsFromURLs ["a", "b"], "b"⟩),
    .run (.storeConfig 1 ⟨["a", "b"], relayWeightsFromURLs ["a", "b"], "a"⟩)] (by decide +kernel)

end Publication

end Cloink.Relay
