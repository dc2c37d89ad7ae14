import Cloink.Lib.Interleaving

/-!
# The login filter

The filter bans a peer that comes back too often in a short time, and doubles the ban each time. A
session, within which the logins are counted, starts with the ban before it and is not started again
when the ban is over. It is then longer than the threshold for a ban already, so a peer that does
not change its metadata is banned once and never again.
-/

namespace Cloink.LoginFilter

open Interleaving

/-- Durations are in nanoseconds. -/
structure Config where
  reconnThreshold : Int := 5 * 60 * 10 ^ 9
  baseBlockDuration : Int := 10 * 60 * 10 ^ 9
  reconnLimitForBan : Int := 30
  metaChangeLimit : Int := 5

structure PeerState where
  currentHash : UInt64
  sessionCounter : Int
  sessionStart : Int
  lastSeen : Int
  isBanned : Bool := false
  banLevel : Nat := 0
  banExpiresAt : Int := 0
  metaChangeCounter : Int
  metaChangeWindowStart : Int

def allowLogin (cfg : Config) (state : Option PeerState) (metaHash : UInt64) (now : Int) : Bool :=
  match state with
  | none => true
  | some state =>
    if state.isBanned ∧ now < state.banExpiresAt then false
    else !(metaHash ≠ state.currentHash ∧ now < state.metaChangeWindowStart + cfg.reconnThreshold ∧
      state.metaChangeCounter ≥ cfg.metaChangeLimit)

/-- What the time of a login changes: a ban ends, and after a long absence the level is reset. -/
def expire (cfg : Config) (state : PeerState) (now : Int) : PeerState :=
  { state with
    isBanned := state.isBanned && !(now > state.banExpiresAt)
    banLevel := if state.banLevel > 0 ∧ now - state.lastSeen > 2 * cfg.baseBlockDuration then 0
      else state.banLevel }

/-- The state after a login, and the length of the ban that it has brought about. -/
def addLogin (cfg : Config) (state : Option PeerState) (metaHash : UInt64) (now : Int) :
    PeerState × Option Int :=
  match state with
  | none => ({
      currentHash := metaHash
      sessionCounter := 1
      sessionStart := now
      lastSeen := now
      metaChangeCounter := 1
      metaChangeWindowStart := now }, none)
  | some state =>
    let state := expire cfg state now
    if metaHash ≠ state.currentHash then
      let state := if now > state.metaChangeWindowStart + cfg.reconnThreshold then
        { state with metaChangeWindowStart := now, metaChangeCounter := 1 }
      else { state with metaChangeCounter := state.metaChangeCounter + 1 }
      ({ state with
        currentHash := metaHash
        sessionCounter := 1
        sessionStart := now
        lastSeen := now }, none)
    else
      let state := { state with sessionCounter := state.sessionCounter + 1 }
      if state.sessionCounter > cfg.reconnLimitForBan ∧
          now - state.sessionStart < cfg.reconnThreshold then
        let duration := cfg.baseBlockDuration * 2 ^ state.banLevel
        ({ state with
          isBanned := true
          banLevel := state.banLevel + 1
          banExpiresAt := now + duration
          sessionCounter := 0
          sessionStart := now
          lastSeen := now }, some duration)
      else ({ state with lastSeen := now }, none)

/-- The filter for one peer, with the starts and the lengths of its bans, the last one first. -/
structure Filter where
  state : Option PeerState := none
  clock : Int := 0
  bans : List (Int × Int) := []

/-- A request of a peer that does not change its metadata. It is checked at one time and, unless it
is rejected, counted at another. -/
structure Login where
  checkedAt : Int
  countedAt : Int

namespace Filter

variable (metaHash : UInt64)

def step (f : Filter) (l : Login) : Option Filter :=
  if f.clock ≤ l.checkedAt ∧ l.checkedAt ≤ l.countedAt then
    if allowLogin {} f.state metaHash l.checkedAt then
      let r := addLogin {} f.state metaHash l.countedAt
      some ⟨some r.1, l.countedAt, (r.2.map (l.countedAt, ·)).toList ++ f.bans⟩
    else some { f with clock := l.checkedAt }
  else none

/-- The session and the ban of a peer that has been banned. -/
structure Banned (f : Filter) (start : Int) (state : PeerState) : Prop where
  session : state.sessionStart = start
  expires : state.banExpiresAt = start + 10 * 60 * 10 ^ 9
  ended : state.isBanned = true ∨ start + 10 * 60 * 10 ^ 9 ≤ f.clock

structure Inv (f : Filter) : Prop where
  hash : ∀ state ∈ f.state, state.currentHash = metaHash
  first : f.bans = [] → ∀ state ∈ f.state, state.isBanned = false ∧ state.banLevel = 0
  banned : f.bans = [] ∨ ∃ start state, f.bans = [(start, 10 * 60 * 10 ^ 9)] ∧
    f.state = some state ∧ f.Banned start state

variable {metaHash} {f f' : Filter}

/-- A login with the same metadata starts a ban, or leaves the session and the last ban alone. -/
theorem addLogin_same {state : PeerState} {now : Int} {r : PeerState × Option Int}
    (h : state.currentHash = metaHash) (hr : addLogin {} (some state) metaHash now = r) :
    r.1.currentHash = metaHash ∧ (r.2 = none ∧ r.1.sessionStart = state.sessionStart ∧
      r.1.banExpiresAt = state.banExpiresAt ∧ (r.1.isBanned → state.isBanned) ∧
      r.1.banLevel ≤ state.banLevel ∨
    now - state.sessionStart < 5 * 60 * 10 ^ 9 ∧ r.1.sessionStart = now ∧ r.1.isBanned ∧
      ∃ level ≤ state.banLevel, r.2 = some (10 * 60 * 10 ^ 9 * 2 ^ level) ∧
        r.1.banExpiresAt = now + 10 * 60 * 10 ^ 9 * 2 ^ level) := by
  have hlevel : (expire {} state now).banLevel ≤ state.banLevel := by
    unfold expire
    grind
  have hbanned : (expire {} state now).isBanned → state.isBanned := by
    unfold expire
    grind
  have hhash : ¬ metaHash ≠ (expire {} state now).currentHash := not_not.2 h.symm
  subst hr
  simp only [addLogin, if_neg hhash]
  split
  · next hban => exact ⟨h, .inr ⟨hban.2, rfl, rfl, _, hlevel, rfl, rfl⟩⟩
  · exact ⟨h, .inl ⟨rfl, rfl, rfl, hbanned, hlevel⟩⟩

theorem Inv.step {l : Login} (h : f.Inv metaHash) (hs : f.step metaHash l = some f') :
    f'.Inv metaHash := by
  obtain ⟨hhash, hfirst, hbanned⟩ := h
  unfold Filter.step at hs
  split at hs
  swap
  · cases hs
  next hclock =>
  split at hs <;> obtain rfl := Option.some.inj hs
  swap
  · refine ⟨hhash, hfirst, ?_⟩
    grind [Banned]
  next hallow =>
  cases hst : f.state with
  | none =>
    have hb : f.bans = [] := by grind
    constructor <;> simp [addLogin, hb]
  | some state =>
    obtain ⟨hh, hlogin⟩ := addLogin_same (hhash state hst) (rfl : addLogin {} _ _ l.countedAt = _)
    rw [hst] at hallow
    generalize addLogin {} (some state) metaHash l.countedAt = r at *
    rcases hbanned with hb | ⟨start, state', hb, hst', hsession, hexpires, hover⟩
    · obtain ⟨hnot, hlevel⟩ := hfirst hb state hst
      rcases hlogin with ⟨hr, -, -, hban, hle⟩ | ⟨-, hstart, hban, level, hle, hr, hexp⟩
      · constructor <;> grind
      · obtain rfl : level = 0 := by omega
        constructor <;> grind [Banned]
    · obtain rfl : state = state' := Option.some.inj (hst.symm.trans hst')
      -- the ban is over when the login is let through
      have hpast : start + 10 * 60 * 10 ^ 9 ≤ l.checkedAt := by grind [allowLogin]
      rcases hlogin with ⟨hr, hstart, hexp, hban, -⟩ | ⟨hlt, -⟩
      · constructor <;> grind [Banned]
      · omega

/-- In every run there is at most one ban. It lasts ten minutes, and the peer is rejected at every
time of it. -/
theorem bans_of_reaches (h : Reaches (step metaHash) (fun _ _ => True) {} f) :
    f.bans.length ≤ 1 ∧ ∀ ban ∈ f.bans, ban.2 = ({} : Config).baseBlockDuration ∧
      ∀ t, f.clock ≤ t → t < ban.1 + ban.2 → allowLogin {} f.state metaHash t = false := by
  have hi : f.Inv metaHash := h.invariant ⟨by simp, by simp, .inl rfl⟩ fun _ _ _ hi _ => hi.step
  rcases hi.banned with hb | ⟨start, state, hb, hst, hban⟩
  · simp [hb]
  · have hover := hban.ended
    have hexpires := hban.expires
    refine ⟨by simp [hb], fun ban hmem => ?_⟩
    obtain rfl : ban = (start, 10 * 60 * 10 ^ 9) := by simpa [hb] using hmem
    refine ⟨rfl, fun t ht hlt => ?_⟩
    grind [allowLogin]

/-! ### Peers that exceed the limit after each ban -/

/-- The peer exceeds the limit within the threshold. -/
structure Burst (start : Int) (logins : List Login) : Prop where
  exceeds : ({} : Config).reconnLimitForBan < logins.length
  within : ∀ l ∈ logins, start ≤ l.checkedAt ∧ l.countedAt < start + ({} : Config).reconnThreshold

variable (metaHash) in
/-- The filter after a new peer has exceeded the limit a number of times, each time from the end of
its last ban on. -/
inductive Persists : Nat → Filter → Prop
  | new : Persists 0 {}
  | burst {k : Nat} {f f' : Filter} {start : Int} {logins : List Login} (h : Persists k f)
      (hstart : ∀ ban ∈ f.bans.head?, start = ban.1 + ban.2) (hb : Burst start logins)
      (hr : run (step metaHash) (fun _ _ => True) f logins = some f') : Persists (k + 1) f'

variable (metaHash) in
/-- The `k`-th time that the peer exceeds the limit brings its `k`-th ban, which lasts `2 ^ (k - 1)`
times as long as the first, and the peer is rejected until its end. -/
def BacksOff (k : Nat) : Prop :=
  ∀ f, Persists metaHash k f → ∃ ban, f.bans.reverse[k - 1]? = some ban ∧
    ban.2 = ({} : Config).baseBlockDuration * 2 ^ (k - 1) ∧
    ∀ t, f.clock ≤ t → t < ban.1 + ban.2 → allowLogin {} f.state metaHash t = false

variable {k n : Nat} {start : Int} {logins : List Login}

theorem Persists.reaches (h : Persists metaHash k f) :
    Reaches (step metaHash) (fun _ _ => True) {} f := by
  induction h with
  | new => exact .refl
  | burst _ _ _ hr ih => exact ih.trans (reaches_of_run hr)

theorem bans_suffix_step {l : Login} (hs : f.step metaHash l = some f') : f.bans <:+ f'.bans := by
  unfold Filter.step at hs
  split_ifs at hs <;> cases hs
  · exact List.suffix_append _ _
  · exact List.suffix_rfl

theorem bans_suffix (h : Reaches (step metaHash) (fun _ _ => True) f f') : f.bans <:+ f'.bans :=
  h.invariant (p := fun g => f.bans <:+ g.bans) List.suffix_rfl
    fun _ _ _ hi _ hs => hi.trans (bans_suffix_step hs)

theorem ban_nonneg (h : Reaches (step metaHash) (fun _ _ => True) {} f) :
    0 ≤ f.clock ∧ ∀ ban ∈ f.bans, 0 ≤ ban.1 := by
  refine h.invariant (p := fun f => 0 ≤ f.clock ∧ ∀ ban ∈ f.bans, 0 ≤ ban.1) (by simp)
    fun f l f' hi _ hs => ?_
  unfold Filter.step at hs
  split_ifs at hs <;> cases hs
  · refine ⟨by dsimp only; omega, fun ban hban => ?_⟩
    rcases List.mem_append.1 hban with hban | hban
    · obtain ⟨d, -, rfl⟩ := by simpa using hban
      dsimp only
      omega
    · exact hi.2 ban hban
  · exact ⟨by dsimp only; omega, hi.2⟩

variable (metaHash) in
/-- There is no ban yet, and the logins of the session have been counted. -/
structure Counts (start : Int) (n : Nat) (f : Filter) : Prop where
  bans : f.bans = []
  few : n ≤ 30
  state : f.state = none ∧ n = 0 ∨ ∃ state, f.state = some state ∧ state.currentHash = metaHash ∧
    state.isBanned = false ∧ state.sessionCounter = n ∧ start ≤ state.sessionStart

theorem Counts.step {l : Login} (h : f.Counts metaHash start n) (hl : start ≤ l.checkedAt)
    (hw : l.countedAt < start + 5 * 60 * 10 ^ 9) (hs : f.step metaHash l = some f') :
    f'.bans ≠ [] ∨ f'.Counts metaHash start (n + 1) := by
  obtain ⟨hb, hn, hst⟩ := h
  unfold Filter.step at hs
  split at hs
  swap
  · cases hs
  next hclock =>
  rcases hst with ⟨hst, rfl⟩ | ⟨state, hst, hhash, hban, hcount, hstart⟩
  · simp only [hst, allowLogin, if_true, addLogin, Option.some.injEq] at hs
    subst hs
    exact .inr ⟨by simp [hb], by omega, .inr ⟨_, rfl, rfl, rfl, rfl, by dsimp only; omega⟩⟩
  · have hallow : allowLogin {} f.state metaHash l.checkedAt = true := by
      simp [hst, allowLogin, hban, hhash]
    have hsame : ¬metaHash ≠ (expire {} state l.countedAt).currentHash := not_not.2 hhash.symm
    rw [if_pos hallow, hst] at hs
    simp only [addLogin, if_neg hsame] at hs
    split at hs <;> obtain rfl := Option.some.inj hs
    · exact .inl (by simp)
    · next hfew =>
      refine .inr ⟨by simp [hb], ?_, .inr ⟨_, rfl, hhash, by simp [expire, hban], ?_, hstart⟩⟩
      · simp only [expire, hcount] at hfew
        omega
      · simp [expire, hcount]

theorem bans_of_burst (hb : Burst start logins)
    (hr : run (step metaHash) (fun _ _ => True) {} logins = some f) : f.bans ≠ [] := by
  have hc (l : List Login) (f f' : Filter) (n : Nat) (hw : ∀ x ∈ l, start ≤ x.checkedAt ∧
      x.countedAt < start + 5 * 60 * 10 ^ 9) (h : f.bans ≠ [] ∨ f.Counts metaHash start n)
      (hr : run (step metaHash) (fun _ _ => True) f l = some f') :
      f'.bans ≠ [] ∨ f'.Counts metaHash start (n + l.length) := by
    induction l generalizing f n with
    | nil =>
      cases hr
      exact h
    | cons x l ih =>
      obtain ⟨f₁, hs, hr⟩ := Option.bind_eq_some_iff.1 ((if_pos trivial).symm.trans hr)
      have hx := hw x List.mem_cons_self
      rw [List.length_cons, Nat.add_comm l.length, ← Nat.add_assoc]
      refine ih f₁ (n + 1) (fun y hy => hw y (List.mem_cons_of_mem x hy)) ?_ hr
      rcases h with hne | hc
      · exact .inl fun he => hne (List.suffix_nil.1 (he ▸ bans_suffix_step hs))
      · exact hc.step hx.1 hx.2 hs
  rcases hc logins {} f 0 hb.within (.inr ⟨rfl, Nat.zero_le _, .inl ⟨rfl, rfl⟩⟩) hr with hne | hn
  · exact hne
  · have hlt := hb.exceeds
    have hle := hn.few
    simp only at hlt
    omega

/-- Logins at a time, one after the other. -/
def loginsAt (n : Nat) (t : Int) : List Login := List.replicate n ⟨t, t⟩

theorem burst_loginsAt (t : Int) : Burst t (loginsAt 31 t) := by
  refine ⟨by simp [loginsAt], fun l hl => ?_⟩
  obtain rfl := List.eq_of_mem_replicate hl
  exact ⟨Int.le_refl t, by simp⟩

variable (metaHash) in
theorem exists_run_loginsAt (n : Nat) {t : Int} (h : f.clock ≤ t) : ∃ f',
    run (step metaHash) (fun _ _ => True) f (loginsAt n t) = some f' ∧ f'.clock ≤ t := by
  induction n generalizing f with
  | zero => exact ⟨f, rfl, h⟩
  | succ n ih =>
    have hs : ∃ f₁, f.step metaHash ⟨t, t⟩ = some f₁ ∧ f₁.clock ≤ t := by
      unfold Filter.step
      rw [if_pos ⟨h, Int.le_refl t⟩]
      split
      · exact ⟨_, rfl, Int.le_refl t⟩
      · exact ⟨_, rfl, Int.le_refl t⟩
    obtain ⟨f₁, hs, hle⟩ := hs
    obtain ⟨f', hr, hle'⟩ := ih hle
    exact ⟨f', by rw [loginsAt, List.replicate_succ, run, if_pos trivial, hs]; exact hr, hle'⟩

variable (metaHash) in
/-- A peer may exceed the limit any number of times, for the second time and further ones at the end
of its first ban. -/
theorem exists_persists (k : Nat) :
    ∃ f ban, Persists metaHash (k + 1) f ∧ f.bans = [ban] ∧ f.clock ≤ ban.1 + ban.2 := by
  induction k with
  | zero =>
    obtain ⟨f, hr, hle⟩ := exists_run_loginsAt (f := {}) metaHash 31 (Int.le_refl 0)
    have hne := bans_of_burst (burst_loginsAt 0) hr
    have hp : Persists metaHash 1 f := .burst .new (by simp) (burst_loginsAt 0) hr
    obtain ⟨hlen, hban⟩ := bans_of_reaches hp.reaches
    obtain ⟨ban, hb⟩ := List.length_eq_one_iff.1
      (Nat.le_antisymm hlen (List.length_pos_iff.2 hne))
    have hlast := (hban ban (by simp [hb])).1
    have hnn := (ban_nonneg hp.reaches).2 ban (by simp [hb])
    simp only at hlast
    exact ⟨f, ban, hp, hb, by omega⟩
  | succ k ih =>
    obtain ⟨f, ban, hp, hb, hle⟩ := ih
    obtain ⟨f', hr, hle'⟩ := exists_run_loginsAt metaHash 31 hle
    have hp' : Persists metaHash (k + 2) f' :=
      .burst hp (by simp [hb]) (burst_loginsAt _) hr
    have hs := bans_suffix (reaches_of_run hr)
    rw [hb] at hs
    exact ⟨f', ban, hp', (hs.eq_of_length_le (bans_of_reaches hp'.reaches).1).symm, hle'⟩

/-- A peer that does not change its metadata is banned at most once, for ten minutes, and is
rejected at every time of the ban. Of a peer that exceeds the limit after each ban, the first ban is
as long as it should be, and there is no other. -/
theorem banned_once (metaHash : UInt64) :
    (∀ f, Reaches (step metaHash) (fun _ _ => True) {} f → f.bans.length ≤ 1 ∧
      ∀ ban ∈ f.bans, ban.2 = ({} : Config).baseBlockDuration ∧
        ∀ t, f.clock ≤ t → t < ban.1 + ban.2 → allowLogin {} f.state metaHash t = false) ∧
    ∀ k, 0 < k → (BacksOff metaHash k ↔ k = 1) := by
  refine ⟨fun f => bans_of_reaches, fun k hk => ⟨fun h => ?_, ?_⟩⟩
  · obtain ⟨f, ban, hp, hb, -⟩ := exists_persists metaHash (k - 1)
    rw [Nat.sub_add_cancel hk] at hp
    obtain ⟨ban', hget, -⟩ := h f hp
    have hlt := (List.getElem?_eq_some_iff.1 hget).1
    rw [hb] at hlt
    simp only [List.reverse_singleton, List.length_singleton] at hlt
    omega
  · rintro rfl f hp
    obtain ⟨hlen, hban⟩ := bans_of_reaches hp.reaches
    have hne : f.bans ≠ [] := by
      cases hp with
      | burst hp _ hb hr =>
        cases hp
        exact bans_of_burst hb hr
    obtain ⟨ban, hb⟩ := List.length_eq_one_iff.1
      (Nat.le_antisymm hlen (List.length_pos_iff.2 hne))
    obtain ⟨hlast, hrej⟩ := hban ban (by simp [hb])
    exact ⟨ban, by simp [hb], by simpa using hlast, hrej⟩

/-- After the first ban the peer exceeds the limit again at once, and is not banned. -/
theorem not_banned_again : ∃ f, Reaches (step 7) (fun _ _ => True) {} f ∧
    f.bans = [(0, 10 * 60 * 10 ^ 9)] ∧ f.clock = 10 * 60 * 10 ^ 9 ∧
    (f.state.any fun state => state.sessionCounter = 40) ∧ allowLogin {} f.state 7 f.clock :=
  exists_reaches (loginsAt 31 0 ++ loginsAt 40 (10 * 60 * 10 ^ 9)) (by decide +kernel)

end Filter

end Cloink.LoginFilter
