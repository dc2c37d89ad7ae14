import Cloink.Relay.Homes

/-!
# Retired home relays

When the home relay is replaced, a goroutine waits until the connections of the old one are gone,
and closes it then (`retireHomeRelay`, `closeRetiredHomeRelay`). Until then
`switchHomeRelayIfNeeded` may take it as the home relay again. The goroutine does not notice, and
closes the home relay.
-/

namespace Cloink.Relay

open Interleaving (Reaches exists_reaches)

/-- The client that the goroutine of `retireHomeRelay` closes, or is started for. -/
def Task.retires : Task → Option ℕ
  | .swap (.listen _ old _) | .retire (.wait old) | .retire (.detach old)
  | .retire (.close old) => some old
  | _ => none

theorem closing_retires : Closing Task.retires where
  listen h := Option.some.inj h
  switchHome _ := rfl
  guardEvent _ := rfl
  attempt _ := rfl
  leads h hu := by
    cases h with
    | retire | retireDetach | retireClose => exact .inl hu
    | _ => cases hu
  started h hu := by cases h <;> cases hu

/-- No client that is being retired is the home relay. -/
theorem retired_ne_home {smooth : Int → Int → Int} {urls : List String} {autoFailback : Bool}
    {picked : Option String} {p : TaskPool.Pool Manager Task}
    (h : Reaches (step smooth) (Spares Task.retires) (serve urls autoFailback picked) p) {c : ℕ}
    (hretired : .retire (.detach c) ∈ p.tasks ∨ .retire (.close c) ∈ p.tasks) :
    p.shared.relayClient ≠ some c := by
  have hs : Inv Task.retires (serve urls autoFailback picked) := by
    apply inv_serve
    rintro t (⟨_, rfl⟩ | ⟨_, rfl⟩ | ⟨_, rfl⟩ | ⟨_, rfl⟩) <;> rfl
  have hi : Inv Task.retires p :=
    h.invariant hs fun _ _ _ hi hok hst => hi.step closing_retires hok hst
  rcases hretired with hd | hc
  · exact (hi.closing _ hd c rfl).2
  · exact (hi.closing _ hc c rfl).2

/-! ### Two runs -/

section

/-- The steps by which the forced relay replaces the home relay `old`, which is followed by the
candidate `client`. The dial ends with the forced relay. -/
def forceRelay (relayURL : String) (urls : List String) (generation old client : ℕ)
    (candidate : Candidate) : List Action :=
  let dial : List Action := match candidate with
    | .foreign _ => []
    | .dialled url =>
      [.run (.switchHome (.dial old [relayURL] urls generation)) { server := some url }]
  [.setForcedRelay (some relayURL), .run (.reconfigure (.storeConfig urls none relayURL true)) {},
    .run (.reconfigure (.bump urls true)) {}, .run (.switchHome (.lock urls generation)) {},
    .run (.switchHome (.home urls generation)) {},
    .run (.switchHome (.candidates old urls generation)) {},
    .run (.switchHome (.foreign old [relayURL] urls generation)) {}] ++ dial ++
  [.run (.switchHome (.validate old candidate urls generation)) {},
    .run (.swap (.check .priority old candidate generation)) {},
    .run (.swap (.install .priority old candidate generation)) {},
    .run (.swap (.listen .priority old client)) {}]

/-- The manager connects to "a", and is told to use "b". -/
def forceOther : List Action :=
  [.run (.guardEvent (.store "a")) {}, .run (.guardEvent (.listen 0)) {}] ++
    forceRelay "b" ["b", "a"] 2 0 1 (.dialled "b")

theorem retired_ne_home_forceOther : ∃ p,
    Reaches (step fun _ rtt => rtt) (Spares Task.retires) (serve ["a", "b"] false (some "a")) p ∧
      .retire (.detach 0) ∈ p.tasks ∧ p.shared.relayClient ≠ some 0 := by
  have hrn : ∃ p, Reaches (step fun _ rtt => rtt) (Spares Task.retires)
      (serve ["a", "b"] false (some "a")) p ∧ .retire (.detach 0) ∈ p.tasks :=
    exists_reaches (forceOther ++ [.run (.retire (.wait 0)) {}]) (by decide +kernel)
  obtain ⟨p, hrc, hr⟩ := hrn
  exact ⟨p, hrc, hr, retired_ne_home hrc (.inl hr)⟩

/-- The manager is told to use "a" again while that is being retired. It becomes the home relay, and
the goroutine that retires it closes the home relay, which is connected. -/
theorem promoted_closed : ∃ p,
    Reaches (step fun _ rtt => rtt) (fun _ _ => True) (serve ["a", "b"] false (some "a")) p ∧
      .retire (.close 0) ∈ p.tasks ∧ p.shared.relayClient = some 0 ∧ p.shared.ready 0 :=
  exists_reaches (forceOther ++ forceRelay "a" ["a", "b"] 3 1 0 (.foreign 0) ++
      [.run (.retire (.wait 0)) {}, .run (.retire (.detach 0)) {}])
    (by decide +kernel)

end

end Cloink.Relay
