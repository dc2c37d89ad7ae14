import Mathlib.Data.List.Basic

/-!
# Pools of tasks

Goroutines share a state. A task is what one of them has left to do; it goes on by an action on the
shared state and leaves tasks behind: itself, moved on, and those that it has started. A task that
has to wait has no action, and the environment may start tasks at any time.
-/

namespace TaskPool

/-- The shared state and the tasks under way. -/
structure Pool (σ τ : Type) where
  shared : σ
  tasks : List τ

namespace Pool

variable {σ τ : Type} {p p' : Pool σ τ} {result : Option (σ × List τ)}

/-- The environment acts on the shared state and starts tasks. -/
def spawn (p : Pool σ τ) (result : Option (σ × List τ)) : Option (Pool σ τ) :=
  result.map fun r => ⟨r.1, p.tasks ++ r.2⟩

theorem spawn_eq_some (h : p.spawn result = some p') :
    ∃ s new, result = some (s, new) ∧ p' = ⟨s, p.tasks ++ new⟩ := by
  obtain ⟨⟨s, new⟩, hr, rfl⟩ := Option.map_eq_some_iff.1 h
  exact ⟨s, new, hr, rfl⟩

variable [DecidableEq τ] {t : τ}

/-- A task under way goes on, with the result of its action. -/
def resume (p : Pool σ τ) (t : τ) (result : Option (σ × List τ)) : Option (Pool σ τ) :=
  if t ∈ p.tasks then result.map fun r => ⟨r.1, p.tasks.erase t ++ r.2⟩ else none

theorem resume_eq_some (h : p.resume t result = some p') :
    t ∈ p.tasks ∧ ∃ s new, result = some (s, new) ∧ p' = ⟨s, p.tasks.erase t ++ new⟩ := by
  unfold resume at h
  split at h
  next ht =>
    obtain ⟨⟨s, new⟩, hr, rfl⟩ := Option.map_eq_some_iff.1 h
    exact ⟨ht, s, new, hr, rfl⟩
  next => cases h

theorem filter_resume (q : τ → Bool) (h : p.resume t result = some p') :
    ∃ s new, result = some (s, new) ∧ p'.shared = s ∧
      p'.tasks.filter q = (p.tasks.filter q).erase t ++ new.filter q := by
  obtain ⟨-, s, new, hr, rfl⟩ := resume_eq_some h
  exact ⟨s, new, hr, rfl, by rw [List.filter_append, List.erase_filter]⟩

end Pool

end TaskPool
