import Cloink.Lib.FinMap
import Mathlib.Data.List.Induction
import Mathlib.Data.List.Sort

/-!
# Priorities of relay servers

The decisions of the relay manager (`shared/relay/client/manager.go`) that depend on the
configuration and on the measured round trip times alone: the order of the servers, whether the home
relay still has the highest priority, which servers may replace it, and when a faster or a recovered
server is moved to. Durations are in nanoseconds, and how a sample is smoothed is a parameter.
-/

namespace Cloink.Relay

/-! ### Weights -/

section

def defaultRelayWeight : Int := 30

variable (weights : StrMap Int)

/-- Servers without a positive weight have the default one. -/
def relayWeightOrDefault (relayURL : String) : Int :=
  let weight := (weights.lookup relayURL).getD 0
  if 0 < weight then weight else defaultRelayWeight

def relayWeightsFromURLs (relayURLs : List String) : StrMap Int :=
  relayURLs.foldl (fun weights relayURL =>
    if relayURL = "" then weights else weights.insert relayURL defaultRelayWeight) ∅

/-- The weights of an update; entries without a URL or a positive weight are ignored. -/
def updatedWeights (serverURLs : List String) (relayWeights : List (String × Int)) : StrMap Int :=
  relayWeights.foldl (fun weights entry =>
    if entry.1 ≠ "" ∧ 0 < entry.2 then weights.insert entry.1 entry.2 else weights)
    (relayWeightsFromURLs serverURLs)

def sameWeights (weights weights' : StrMap Int) : Bool :=
  weights.entries.length = weights'.entries.length &&
    weights.entries.all fun entry => weights'.lookup entry.1 = some entry.2

/-- The heaviest first; servers of one weight keep their order. -/
def sortRelayURLsByWeight (relayURLs : List String) : List String :=
  relayURLs.mergeSort fun left right =>
    relayWeightOrDefault weights right ≤ relayWeightOrDefault weights left

/-- The servers of the highest weight. -/
def topPriorityGroup (urls : List String) : List String :=
  let best := urls.foldl (fun best u => max best (relayWeightOrDefault weights u)) (-1)
  urls.filter fun u => relayWeightOrDefault weights u = best

/-- The first server of the highest weight, with its weight. -/
def highestWeightRelay (relayURLs : List String) : String × Int :=
  relayURLs.foldl (fun best relayURL => if best.2 < relayWeightOrDefault weights relayURL then
      (relayURL, relayWeightOrDefault weights relayURL)
    else best) ("", 0)

end

/-! ### The configuration -/

structure Config where
  configuredRelayURLs : List String
  relayWeights : StrMap Int
  /-- Empty when no server is forced. -/
  forcedRelayURL : String := ""
  deriving DecidableEq

/-- The snapshot that the server picker works with. -/
structure PickerConfig where
  serverURLs : List String
  serverWeights : StrMap Int
  forcedURL : String := ""
  deriving DecidableEq

namespace Config

variable (c : Config)

/-- The forced server comes first. -/
def effectiveRelayURLs : List String :=
  if c.forcedRelayURL = "" then c.configuredRelayURLs
  else c.forcedRelayURL :: c.configuredRelayURLs.filter (· ≠ c.forcedRelayURL)

/-- `UpdateServerURLsWithWeights`: a forced server that is not configured any more is given up. -/
def update (serverURLs : List String) (relayWeights : List (String × Int)) : Config :=
  let weights := updatedWeights serverURLs relayWeights
  let urls := sortRelayURLsByWeight weights serverURLs
  { configuredRelayURLs := urls
    relayWeights := weights
    forcedRelayURL := if c.forcedRelayURL ∈ urls then c.forcedRelayURL else "" }

def changed (c' : Config) : Bool :=
  c.effectiveRelayURLs ≠ c'.effectiveRelayURLs || !sameWeights c.relayWeights c'.relayWeights ||
    c.forcedRelayURL ≠ c'.forcedRelayURL

def stillHighestPriority (currentURL : String) (serverURLs : List String) : Bool :=
  if c.forcedRelayURL ≠ "" then currentURL = c.forcedRelayURL
  else
    relayWeightOrDefault c.relayWeights currentURL =
        relayWeightOrDefault c.relayWeights (serverURLs.headD "") &&
      currentURL ∈ serverURLs

/-- The servers that may replace the home relay. Their weights are those the picker knows. -/
def migrationCandidateURLs (picker : PickerConfig) (oldURL : String) (serverURLs : List String) :
    List String :=
  if c.forcedRelayURL ≠ "" then
    if c.forcedRelayURL = oldURL then [] else [c.forcedRelayURL]
  else if oldURL ∉ serverURLs then serverURLs
  else serverURLs.filter fun relayURL => relayURL ≠ oldURL &&
    relayWeightOrDefault c.relayWeights oldURL < relayWeightOrDefault picker.serverWeights relayURL

def isValidPriorityMigration (oldURL candidateURL : String) (serverURLs : List String) : Bool :=
  if c.forcedRelayURL ≠ "" then candidateURL = c.forcedRelayURL
  else if oldURL ∉ serverURLs then candidateURL ∈ serverURLs
  else candidateURL ≠ oldURL &&
    relayWeightOrDefault c.relayWeights oldURL < relayWeightOrDefault c.relayWeights candidateURL

/-- The other configured servers. -/
def recoveryCandidateURLs (currentURL : String) : List String :=
  c.configuredRelayURLs.filter (· ≠ currentURL)

variable {c} {picker : PickerConfig} {oldURL url : String} {serverURLs : List String}

theorem ne_of_mem_candidates
    (h : url ∈ c.migrationCandidateURLs picker oldURL serverURLs) : url ≠ oldURL := by
  unfold migrationCandidateURLs at h
  split at h
  · split at h
    · cases h
    next hne =>
      obtain rfl := List.mem_singleton.1 h
      exact hne
  · split at h
    next hn => exact fun heq => hn (heq ▸ h)
    next =>
      have hf := (List.mem_filter.1 h).2
      simp only [ne_eq, Bool.and_eq_true, decide_eq_true_eq] at hf
      exact hf.1

theorem ne_forced_of_not_highest (hf : c.forcedRelayURL ≠ "")
    (h : c.stillHighestPriority oldURL serverURLs = false) : oldURL ≠ c.forcedRelayURL := by
  simpa [stillHighestPriority, hf] using h

theorem changed_of_forced_ne {c' : Config} (h : c.forcedRelayURL ≠ c'.forcedRelayURL) :
    c.changed c' := by
  simp [changed, h]

end Config

/-! ### Round trip times -/

section

structure RTTEntry where
  rtt : Int
  samples : ℕ
  expiresAt : Int
  deriving DecidableEq

abbrev RTTCache := StrMap RTTEntry

def relayRTTMinSamples : ℕ := 2

/-- Five minutes. -/
def relayRTTCacheTTL : Int := 300000000000

variable (cache : RTTCache)

/-- The smoothed time, unless it is too old or rests on too few samples. -/
def RTTCache.get (now : Int) (relayURL : String) : Option Int :=
  match cache.lookup relayURL with
  | none => none
  | some entry =>
    if entry.expiresAt < now ∨ entry.samples < relayRTTMinSamples then none else some entry.rtt

def RTTCache.set (smooth : Int → Int → Int) (cache : RTTCache) (now : Int) (relayURL : String)
    (sample : Int) : RTTCache :=
  cache.insert relayURL
    { rtt := ((cache.lookup relayURL).map fun entry => smooth sample entry.rtt).getD sample
      samples := ((cache.lookup relayURL).map RTTEntry.samples).getD 0 + 1
      expiresAt := now + relayRTTCacheTTL }

def relayRTTMigrationStreaks : ℕ := 3

/-- Twice as fast, and by a tenth of a second. -/
def muchFaster (rtt homeRTT : Int) : Bool := 2 * rtt ≤ homeRTT && 100000000 ≤ homeRTT - rtt

/-- The fastest other server of the group, with an empty URL when there is none. -/
def bestRelay (now : Int) (homeURL : String) (group : List String) : String × Int :=
  group.foldl (fun best u => if u = homeURL then best else
      match cache.get now u with
      | none => best
      | some rtt => if best.1 = "" ∨ rtt < best.2 then (u, rtt) else best) ("", 0)

/-- The other server of the group that is much faster than the home relay. -/
def fasterRelay (now : Int) (homeURL : String) (group : List String) : Option String :=
  if homeURL = "" ∨ homeURL ∉ group then none
  else
    match cache.get now homeURL with
    | none => none
    | some homeRTT =>
      let best := bestRelay cache now homeURL group
      if best.1 ≠ "" ∧ muchFaster best.2 homeRTT then some best.1 else none

/-- The decision of `maybeMigrateOnRTT`: the new streaks, and the server to migrate to. -/
def migrateOnRTT (now : Int) (homeURL : String) (group : List String)
    (slowStreaks : StrMap ℕ) : StrMap ℕ × Option String :=
  match fasterRelay cache now homeURL group with
  | none => (∅, none)
  | some bestURL =>
    let streak := (slowStreaks.lookup bestURL).getD 0 + 1
    if streak < relayRTTMigrationStreaks then (slowStreaks.insert bestURL streak, none)
    else (∅, some bestURL)

variable {cache : RTTCache} {now : Int} {homeURL tgt : String} {group : List String}
  {slowStreaks : StrMap ℕ}

theorem mem_of_bestRelay : (bestRelay cache now homeURL group).1 ≠ "" →
    (bestRelay cache now homeURL group).1 ∈ group ∧
      (bestRelay cache now homeURL group).1 ≠ homeURL ∧
      cache.get now (bestRelay cache now homeURL group).1 =
        some (bestRelay cache now homeURL group).2 := by
  refine List.foldlRecOn (motive := fun best : String × Int => best.1 ≠ "" →
    best.1 ∈ group ∧ best.1 ≠ homeURL ∧ cache.get now best.1 = some best.2) group _
    (fun hne => absurd rfl hne) fun best ih u hu => ?_
  split
  · exact ih
  next hh =>
    split
    · exact ih
    next rtt hg =>
      split
      · exact fun _ => ⟨hu, hh, hg⟩
      · exact ih

/-- A migration goes to another server of the group that is much faster, after two ticks in which
it was. -/
theorem of_migrateOnRTT (h : (migrateOnRTT cache now homeURL group slowStreaks).2 = some tgt) :
    homeURL ∈ group ∧ tgt ∈ group ∧ tgt ≠ homeURL ∧
      (∃ ho rtt, cache.get now homeURL = some ho ∧ cache.get now tgt = some rtt ∧
        muchFaster rtt ho) ∧
      relayRTTMigrationStreaks ≤ (slowStreaks.lookup tgt).getD 0 + 1 := by
  unfold migrateOnRTT at h
  split at h
  · cases h
  next bestURL hf =>
    dsimp only at h
    split at h
    · cases h
    next hs =>
      cases h
      unfold fasterRelay at hf
      split at hf
      · cases hf
      next hh =>
        split at hf
        · cases hf
        next ho hg =>
          dsimp only at hf
          split at hf
          next hfs =>
            cases hf
            obtain ⟨hm, hne, hr⟩ := mem_of_bestRelay hfs.1
            exact ⟨not_not.1 fun hn => hh (.inr hn), hm, hne, ⟨ho, _, hg, hr, hfs.2⟩, not_lt.1 hs⟩
          next => cases hf

end

/-! ### The ticks of the probe loop -/

section

/-- What a tick works on: the configuration, the home relay, and the times after its probes. It is
skipped while the manager does not run or a switch is in flight. -/
structure Tick where
  skipped : Bool := false
  urls : List String
  weights : StrMap Int
  homeURL : String
  rttCache : RTTCache
  now : Int

namespace Tick

variable (t : Tick)

def group : List String := topPriorityGroup t.weights t.urls

/-- The server that the tick finds significantly faster than the home relay. -/
def alternative : Option String :=
  if t.skipped || t.group.length < 2 then none
  else fasterRelay t.rttCache t.now t.homeURL t.group

def probeTick (slowStreaks : StrMap ℕ) : StrMap ℕ × Option String :=
  if t.skipped then (slowStreaks, none)
  else if t.group.length < 2 then (∅, none)
  else migrateOnRTT t.rttCache t.now t.homeURL t.group slowStreaks

/-- The tick is not skipped, and finds no other server than the one that is counted. -/
def Steady (slowStreaks : StrMap ℕ) : Prop :=
  !t.skipped ∧ ∀ v ∈ slowStreaks.keys, ∀ u ∈ t.alternative, u = v

instance (slowStreaks : StrMap ℕ) : Decidable (t.Steady slowStreaks) :=
  inferInstanceAs (Decidable (_ ∧ _))

end Tick

/-- The counts after the ticks. -/
def streaks (ts : List Tick) : StrMap ℕ := ts.foldl (fun counts t => (t.probeTick counts).1) ∅

variable {t : Tick} {ts last : List Tick} {u : String} {slowStreaks : StrMap ℕ}

theorem probeTick_migrates (h : (t.probeTick slowStreaks).2 = some u) :
    t.alternative = some u ∧ relayRTTMigrationStreaks ≤ (slowStreaks.lookup u).getD 0 + 1 := by
  unfold Tick.probeTick migrateOnRTT at h
  split_ifs at h with hs hg
  unfold Tick.alternative
  rw [if_neg (by simp [hs, hg])]
  split at h
  · cases h
  next hf =>
    dsimp only at h
    split_ifs at h with hr
    obtain rfl := Option.some.inj h
    exact ⟨hf, not_lt.1 hr⟩

/-- A steady tick counts the server it finds once more, unless it migrates, and no other. -/
theorem lookup_probeTick (h : t.Steady slowStreaks) (u : String) :
    (t.probeTick slowStreaks).1.lookup u = none ∨ (t.alternative = some u ∧
      (t.probeTick slowStreaks).1.lookup u = some ((slowStreaks.lookup u).getD 0 + 1)) := by
  obtain ⟨hs, ho⟩ := h
  unfold Tick.alternative at ho ⊢
  unfold Tick.probeTick migrateOnRTT
  rw [Bool.not_eq_true'] at hs
  by_cases hg : t.group.length < 2
  · simp [hs, hg]
  · simp only [hs, hg, Bool.false_or, decide_false, Bool.false_eq_true, if_false] at ho ⊢
    cases hf : fasterRelay t.rttCache t.now t.homeURL t.group with
    | none => exact .inl rfl
    | some best =>
      dsimp only
      split
      · rw [AList.lookup_insert_ite]
        split
        next he => exact .inr ⟨by rw [he], by rw [he]⟩
        next hne =>
          exact .inl (AList.lookup_eq_none.2 fun hm => hne (ho u (AList.mem_keys.1 hm) best hf).symm)
      · exact .inl rfl

theorem suffix_found (hl : last <:+ ts) (ha : ∀ t ∈ last, t.alternative = some u)
    (h : t.alternative = some u) :
    last ++ [t] <:+ ts ++ [t] ∧ ∀ t' ∈ last ++ [t], t'.alternative = some u := by
  obtain ⟨pre, rfl⟩ := hl
  refine ⟨⟨pre, (List.append_assoc pre last [t]).symm⟩, fun t' ht => ?_⟩
  rcases List.mem_append.1 ht with ht | ht
  · exact ha t' ht
  · rwa [List.mem_singleton.1 ht]

/-- While all ticks are steady, the count of a server is the number of the last ticks that found
it. -/
theorem exists_suffix_of_steady (h : ∀ pre t, pre ++ [t] <+: ts → t.Steady (streaks pre))
    (u : String) : ∃ last, last <:+ ts ∧ last.length = ((streaks ts).lookup u).getD 0 ∧
      ∀ t ∈ last, t.alternative = some u := by
  induction ts using List.reverseRecOn with
  | nil => exact ⟨[], List.suffix_rfl, rfl, by simp⟩
  | append_singleton ts t ih =>
    obtain ⟨last, hl, hn, ha⟩ := ih fun pre t' hp => h pre t' (hp.trans (List.prefix_append ts [t]))
    have hr : streaks (ts ++ [t]) = (t.probeTick (streaks ts)).1 := List.foldl_concat ..
    rw [hr]
    rcases lookup_probeTick (h ts t List.prefix_rfl) u with hu | ⟨hf, hu⟩
    · exact ⟨[], List.nil_suffix, by simp [hu], by simp⟩
    · obtain ⟨hl', ha'⟩ := suffix_found hl ha hf
      exact ⟨last ++ [t], hl', by simp [hu, hn], ha'⟩

/-- While all ticks are steady, a migration goes to a server that the last three ticks found, and
a tick that finds another server or none ends its count. -/
theorem migrates_after_streak (ts : List Tick) (t : Tick) (u : String)
    (hsteady : ∀ pre t', pre ++ [t'] <+: ts ++ [t] → t'.Steady (streaks pre)) :
    ((t.probeTick (streaks ts)).2 = some u → ∃ last, last <:+ ts ++ [t] ∧
      relayRTTMigrationStreaks ≤ last.length ∧ ∀ t' ∈ last, t'.alternative = some u) ∧
    (t.alternative ≠ some u → (streaks (ts ++ [t])).lookup u = none) := by
  constructor
  · intro h
    obtain ⟨hf, hc⟩ := probeTick_migrates h
    obtain ⟨last, hl, hn, ha⟩ := exists_suffix_of_steady (fun pre t' hp =>
      hsteady pre t' (hp.trans (List.prefix_append ts [t]))) u
    obtain ⟨hl', ha'⟩ := suffix_found hl ha hf
    exact ⟨last ++ [t], hl', by simpa [hn] using hc, ha'⟩
  · intro hne
    have hr : streaks (ts ++ [t]) = (t.probeTick (streaks ts)).1 := List.foldl_concat ..
    rw [hr]
    exact (lookup_probeTick (hsteady ts t List.prefix_rfl) u).resolve_right fun h => hne h.1

/-- A tick that finds `fast` much faster than the home relay. -/
def tickFinding (fast : String) : Tick where
  urls := ["home", "a", "b"]
  weights := ∅
  homeURL := "home"
  rttCache := (AList.insert "home" ⟨500000000, 2, 0⟩ ∅).insert fast ⟨10000000, 2, 0⟩
  now := 0

/-- Two servers that are found in turn are counted side by side, and the third find of one is a
migration, right after a tick that found the other. -/
theorem alternating_ticks_migrate :
    ((tickFinding "a").probeTick (streaks [tickFinding "a", tickFinding "b", tickFinding "a",
      tickFinding "b"])).2 = some "a" ∧ (tickFinding "b").alternative = some "b" ∧
      (streaks [tickFinding "a", tickFinding "b"]).lookup "a" = some 1 := by
  decide +kernel

theorem third_find_migrates :
    ((tickFinding "a").probeTick (streaks [tickFinding "a", tickFinding "a"])).2 = some "a" ∧
      ∃ last, last <:+ [tickFinding "a", tickFinding "a"] ++ [tickFinding "a"] ∧
        relayRTTMigrationStreaks ≤ last.length ∧ ∀ t ∈ last, t.alternative = some "a" := by
  have hm : ((tickFinding "a").probeTick (streaks [tickFinding "a", tickFinding "a"])).2 =
      some "a" := by decide +kernel
  refine ⟨hm, (migrates_after_streak _ _ _ fun pre t hp => ?_).1 hm⟩
  rcases pre with _ | ⟨t₁, _ | ⟨t₂, _ | ⟨t₃, pre⟩⟩⟩
  all_goals simp [List.cons_prefix_cons] at hp
  · rw [hp]
    decide +kernel
  · rw [hp.1, hp.2]
    decide +kernel
  · rw [hp.1, hp.2.1, hp.2.2]
    decide +kernel

end

end Cloink.Relay
