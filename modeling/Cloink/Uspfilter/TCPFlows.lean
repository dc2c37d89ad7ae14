import Cloink.Lib.Interleaving
import Cloink.Lib.Ledger
import Cloink.Uspfilter.TCPOrigin

/-!
# Flow events of TCP connections

The tracker reports the start and the end of each flow: where the connection enters TIME-WAIT, where
it is closed or reset, where it is evicted, and where it times out. The events are computed beside
the calls of the tracker; of an event only its type and its flow are kept.
-/

namespace Cloink.Conntrack

open Interleaving AList List Option TCPConnTrack

/-- The start (`TypeStart`) or the end (`TypeEnd`) of a flow. -/
abbrev FlowEvent := Ledger.Entry Nat

namespace TCPConnTrack

variable (conn : TCPConnTrack) (flags : Flags) (packetDir : Direction) (now : Int)

/-! ### The events of a packet -/

def handleRstEvents : List FlowEvent :=
  if conn.state = .timeWait then []
  else if conn.state = .synSent ∧ packetDir = conn.direction then []
  else [.closed conn.flowId]

def onTransitionEvents (newState : TCPState) : List FlowEvent :=
  match newState with
  | .timeWait => [.closed conn.flowId]
  | .closed => [.closed conn.flowId]
  | _ => []

def updateStateEvents : List FlowEvent :=
  if !isValidFlagCombination flags then []
  else if isSet flags TCPRst then conn.handleRstEvents packetDir
  else match nextState conn.state conn.direction packetDir flags with
    | none => []
    | some newState => conn.onTransitionEvents newState

/-- The end of the flow was reported. -/
def ended : Bool := conn.tombstone || conn.state = .timeWait

variable {conn flags packetDir now}

theorem ended_of_isSupersededBy (h : conn.isSupersededBy flags) : conn.ended := by
  unfold isSupersededBy at h
  unfold ended
  revert h
  cases conn.tombstone <;> simp

/-- An ended connection stays so. A living one reports its end in the packet that ends it. -/
theorem updateState_ended (now : Int) :
    (conn.ended → (conn.updateState flags packetDir now).ended) ∧
    (conn.tombstone = false → conn.updateStateEvents flags packetDir =
      if conn.ended = false ∧ (conn.updateState flags packetDir now).ended = true then
        [.closed conn.flowId]
      else []) := by
  unfold updateStateEvents updateState ended
  by_cases hv : isValidFlagCombination flags
  · by_cases hr : isSet flags TCPRst
    · by_cases htw : conn.state = .timeWait
      · simp [hv, hr, handleRstEvents, handleRst, htw]
      · by_cases hs : conn.state = .synSent ∧ packetDir = conn.direction
        · simp +contextual [hv, hr, handleRstEvents, handleRst, hs]
        · simp +contextual [hv, hr, handleRstEvents, handleRst, htw, hs]
    · cases hn : nextState conn.state conn.direction packetDir flags with
      | none => simp [hv, hr, hn]
      | some st =>
        have htw : conn.state ≠ .timeWait := fun heq => by simp [heq, nextState] at hn
        cases st <;> simp +contextual [hv, hr, hn, htw, onTransitionEvents]
  · simp [hv]

theorem ended_updateState_new (hsy : isSet flags TCPSyn)
    (hv : isValidFlagCombination flags) (hs : conn.state = .new)
    (ht : conn.tombstone = false) : (conn.updateState flags packetDir now).ended = false := by
  have hr : isSet flags TCPRst = false := by
    unfold isValidFlagCombination at hv
    revert hv
    rw [hsy]
    cases isSet flags TCPRst <;> simp
  unfold updateState
  cases hn : nextState .new conn.direction packetDir flags with
  | none => simp [hv, hr, hn, ended, hs, ht]
  | some st =>
    have hnw : st = .synSent ∨ st = .synReceived := by
      simp only [nextState, transNew] at hn
      split at hn
      · split at hn
        · exact .inl (some.inj hn).symm
        · exact .inr (some.inj hn).symm
      · cases hn
    rcases hnw with rfl | rfl <;> simp [hv, hr, hs, hn, ended, ht]

end TCPConnTrack

namespace TCPTracker

variable (cfg : TCPConfig) (t : TCPTracker)

/-! ### The events of the calls -/

def updateIfExistsEvents (key : ConnKey) (flags : Flags) (direction : Direction) : List FlowEvent :=
  match t.connections.lookup key with
  | none => []
  | some conn =>
    if conn.isSupersededBy flags then [] else conn.updateStateEvents flags direction

/-- The event of a connection that is evicted as the one not seen for longest. -/
def reapEvents (conns : Connections) (key : ConnKey) : List FlowEvent :=
  match conns.lookup key with
  | none => []
  | some evicted =>
    if evicted.state ≠ .timeWait ∧ !evicted.tombstone then [.closed evicted.flowId] else []

/-- The events of `evictFrom`, which goes through the table in the same way. -/
def evictFromEvents (conns : Connections) :
    List ConnKey → Option (ConnKey × Int) → Nat → List FlowEvent
  | [], cand, _ => cand.elim [] fun c => reapEvents conns c.1
  | k :: order, cand, sampled =>
    match conns.lookup k with
    | none => evictFromEvents conns order cand sampled
    | some conn =>
      if conn.tombstone then []
      else
        let cand := cand.elim (k, conn.lastSeen) fun c =>
          if conn.lastSeen < c.2 then (k, conn.lastSeen) else c
        if sampled + 1 ≥ evictSampleSize then reapEvents conns cand.1
        else evictFromEvents conns order (some cand) (sampled + 1)

def evictEvents (conns : Connections) (order : List ConnKey) : List FlowEvent :=
  evictFromEvents conns order none 0

def trackEvents (p : Packet) (direction : Direction) (origPort : UInt16) (now : Int)
    (order : List ConnKey) : List FlowEvent :=
  match t.updateIfExists p.key p.flags direction now with
  | some _ => t.updateIfExistsEvents p.key p.flags direction
  | none =>
    if !isSet p.flags TCPSyn || !isValidFlagCombination p.flags then []
    else
      let conn : TCPConnTrack := { flowId := t.flows, direction, dnatOrigPort := origPort }
      conn.updateStateEvents p.flags direction ++
        (if cfg.maxEntries > 0 ∧ cfg.maxEntries ≤ t.connections.entries.length then
          evictEvents t.connections order else []) ++
        [.opened conn.flowId]

def trackOutboundEvents (p : Packet) (now : Int) (order : List ConnKey) : List FlowEvent :=
  match t.updateIfExists p.key.reverse p.flags .egress now with
  | some _ => t.updateIfExistsEvents p.key.reverse p.flags .egress
  | none => t.trackEvents cfg p .egress 0 now order

def isValidInboundEvents (p : Packet) : List FlowEvent :=
  match t.connections.lookup p.key.reverse with
  | none => []
  | some conn =>
    if conn.isSupersededBy p.flags || !isValidFlagCombination p.flags ||
        !isValidStateForFlags conn.state p.flags then []
    else conn.updateStateEvents p.flags .ingress

/-- The connections that a cleanup drops because nothing was seen of them for too long, and whose
end was not reported when they entered TIME-WAIT. -/
def reportsTimeout (now : Int) (conn : TCPConnTrack) : Bool :=
  !conn.tombstone && conn.timeoutExceeded (stateTimeout cfg conn.state) now &&
    conn.state ≠ .timeWait

def timedOutFlows (now : Int) : List Nat :=
  (t.connections.entries.filter fun e => reportsTimeout cfg now e.2).map fun e => e.2.flowId

def cleanupEvents (now : Int) : List FlowEvent := (t.timedOutFlows cfg now).map .closed

def stepEvents : Event → List FlowEvent
  | .trackOutbound p now order => t.trackOutboundEvents cfg p now order
  | .trackInbound p dnatOrigPort now order => t.trackEvents cfg p .ingress dnatOrigPort now order
  | .isValidInbound p _ => t.isValidInboundEvents p
  | .cleanup now => t.cleanupEvents cfg now

/-- A call of the tracker with the events sent so far. -/
def recordStep (s : TCPTracker × List FlowEvent) (e : Event) :
    Option (TCPTracker × List FlowEvent) :=
  some (s.1.step cfg e, s.2 ++ s.1.stepEvents cfg e)

/-- Go goes through the table in some order, and through all of it. -/
def Ranges : Event → Prop
  | .trackOutbound _ _ order => order.Perm t.connections.keys
  | .trackInbound _ _ _ order => order.Perm t.connections.keys
  | .isValidInbound _ _ => True
  | .cleanup _ => True

instance (e : Event) : Decidable (t.Ranges e) :=
  match e with
  | .trackOutbound _ _ _ => inferInstanceAs (Decidable (List.Perm _ _))
  | .trackInbound _ _ _ _ => inferInstanceAs (Decidable (List.Perm _ _))
  | .isValidInbound _ _ => inferInstanceAs (Decidable True)
  | .cleanup _ => inferInstanceAs (Decidable True)

/-! ### The books -/

/-- The flows in the table whose end is still to be reported. -/
def active : Set Nat :=
  {i | ∃ key conn, t.connections.lookup key = some conn ∧ conn.flowId = i ∧ conn.ended = false}

/-- Every flow was started once; it was ended once, after its start, as soon as it is not active in
the table; each connection of the table has a flow of its own; and the table is within its limit, if
it has one. -/
structure Books (cfg : TCPConfig) (t : TCPTracker) (log : List FlowEvent) : Prop where
  given : ∀ key conn, t.connections.lookup key = some conn → conn.flowId < t.flows
  unique : ∀ key key' conn conn', t.connections.lookup key = some conn →
    t.connections.lookup key' = some conn' → conn.flowId = conn'.flowId → key = key'
  balanced : Ledger.Balanced {i | i < t.flows} t.active log
  fits : 0 < cfg.maxEntries → t.connections.entries.length ≤ cfg.maxEntries

variable {cfg t} {log : List FlowEvent} {key : ConnKey} {conn conn' : TCPConnTrack}

theorem Books.init : Books cfg {} [] where
  given := by simp
  unique := by simp
  balanced := by
    have hk : {i | i < ({} : TCPTracker).flows} = ∅ := by ext i; simp
    have hl : active {} = ∅ := by ext i; simp [active]
    rw [hk, hl]
    exact .nil
  fits _ := Nat.zero_le _

theorem length_erase_of_mem {conns : Connections} (h : key ∈ conns) :
    (conns.erase key).entries.length + 1 = conns.entries.length := by
  have hk := congrArg length (keys_erase key conns)
  have he := length_erase_add_one (a := key) (l := conns.keys) h
  simp only [AList.keys, List.keys, length_map] at hk he
  omega

variable (h : t.Books cfg log)

include h

variable (hconn : t.connections.lookup key = some conn)

include hconn

/-- A connection of the table counts no longer: its end is reported unless it was before. -/
theorem Books.balanced_drop : Ledger.Balanced {i | i < t.flows} (t.active \ {conn.flowId})
      (log ++ if conn.ended then [] else [.closed conn.flowId]) := by
  by_cases he : conn.ended
  · have hn : conn.flowId ∉ t.active := by
      rintro ⟨key', conn', hc', hid, ha⟩
      obtain rfl := h.unique key' key conn' conn hc' hconn hid
      obtain rfl := some.inj (hconn.symm.trans hc')
      simp [he] at ha
    rw [if_pos he, append_nil, Set.sdiff_singleton_eq_self hn]
    exact h.balanced
  · rw [if_neg he]
    exact h.balanced.closing ⟨key, conn, hconn, rfl, by simpa using he⟩

variable {conns : Connections} {now : Int} {order : List ConnKey}

/-- What the table holds of other flows when the entry of a key is replaced or removed. -/
theorem Books.active_of_ended (ho : ∀ key' ≠ key, conns.lookup key' = t.connections.lookup key')
    (hk : ∀ conn', conns.lookup key = some conn' → conn'.ended) :
    active { t with connections := conns } = t.active \ {conn.flowId} := by
  ext i
  constructor
  · rintro ⟨key', conn', hc', hid, ha⟩
    have hne : key' ≠ key := by
      rintro rfl
      rw [hk conn' hc'] at ha
      cases ha
    rw [ho key' hne] at hc'
    refine ⟨⟨key', conn', hc', hid, ha⟩, fun heq => hne ?_⟩
    exact h.unique key' key conn' conn hc' hconn (hid.trans heq)
  · rintro ⟨⟨key', conn', hc', hid, ha⟩, hne⟩
    have hk' : key' ≠ key := by
      rintro rfl
      obtain rfl := some.inj (hconn.symm.trans hc')
      exact hne hid.symm
    exact ⟨key', conn', (ho key' hk').trans hc', hid, ha⟩

omit h in
theorem active_of_live (hl : conn.ended = false)
    (ho : ∀ key' ≠ key, conns.lookup key' = t.connections.lookup key')
    (hc' : conns.lookup key = some conn') (hid : conn'.flowId = conn.flowId)
    (hl' : conn'.ended = false) : active { t with connections := conns } = t.active := by
  ext i
  constructor
  · rintro ⟨key', c, hc, hi, ha⟩
    by_cases hk : key' = key
    · subst hk
      obtain rfl := some.inj (hc'.symm.trans hc)
      exact ⟨key', conn, hconn, hid.symm.trans hi, hl⟩
    · exact ⟨key', c, (ho key' hk).symm.trans hc, hi, ha⟩
  · rintro ⟨key', c, hc, hi, ha⟩
    by_cases hk : key' = key
    · subst hk
      obtain rfl := some.inj (hconn.symm.trans hc)
      exact ⟨key', conn', hc', hid.trans hi, hl'⟩
    · exact ⟨key', c, (ho key' hk).trans hc, hi, ha⟩

omit hconn in
/-- A table whose connections were in the table before, perhaps in another state. -/
theorem Books.of_flowIds {log' : List FlowEvent} (hf : ∀ key conn', conns.lookup key = some conn' →
      ∃ conn, t.connections.lookup key = some conn ∧ conn.flowId = conn'.flowId)
    (hl : conns.entries.length ≤ t.connections.entries.length)
    (hb : Ledger.Balanced {i | i < t.flows} (active { t with connections := conns }) log') :
    Books cfg { t with connections := conns } log' where
  given key conn' hc' := by
    obtain ⟨conn, hconn, hid⟩ := hf key conn' hc'
    rw [← hid]
    exact h.given key conn hconn
  unique key key' conn conn' hconn hc' hid := by
    obtain ⟨old, ho, hi₁⟩ := hf key conn hconn
    obtain ⟨old', ho', hi₂⟩ := hf key' conn' hc'
    exact h.unique key key' old old' ho ho' (hi₁.trans (hid.trans hi₂.symm))
  balanced := hb
  fits hm := hl.trans (h.fits hm)

theorem Books.erase : Books cfg { t with connections := t.connections.erase key }
      (log ++ if conn.ended then [] else [.closed conn.flowId]) := by
  refine h.of_flowIds (fun key' conn' hc' => ⟨conn', (lookup_erase_some.1 hc').2, rfl⟩)
    (kerase_sublist key _).length_le ?_
  rw [h.active_of_ended hconn (fun key' hne => lookup_erase_ne hne) (by simp)]
  exact h.balanced_drop hconn

theorem Books.update
    (ha : conn.tombstone = false) (flags : Flags) (packetDir : Direction) (now : Int) :
    Books cfg { t with connections :=
        t.connections.insert key (conn.updateState flags packetDir now) }
      (log ++ conn.updateStateEvents flags packetDir) := by
  have ho : ∀ key' ≠ key, (t.connections.insert key
      (conn.updateState flags packetDir now)).lookup key' = t.connections.lookup key' :=
    fun key' hne => lookup_insert_ne hne
  refine h.of_flowIds (fun key' conn' hc' => ?_)
    (length_erase_of_mem (mem_of_lookup hconn)).le ?_
  · by_cases hk : key' = key
    · subst hk
      rw [lookup_insert] at hc'
      obtain rfl := some.inj hc'
      exact ⟨conn, hconn, (conn.flowId_updateState flags packetDir now).symm⟩
    · rw [ho key' hk] at hc'
      exact ⟨conn', hc', rfl⟩
  · rw [(updateState_ended now).2 ha]
    cases he : (conn.updateState flags packetDir now).ended with
    | true =>
      rw [h.active_of_ended hconn ho fun conn' hc' => by
        rw [lookup_insert] at hc'
        exact some.inj hc' ▸ he]
      have hd := h.balanced_drop hconn
      cases hb : conn.ended <;> simpa [hb] using hd
    | false =>
      have hb : conn.ended = false := by
        by_contra hne
        rw [(updateState_ended now).1 (by simpa using hne)] at he
        cases he
      rw [active_of_live hconn hb ho (lookup_insert _)
        (conn.flowId_updateState flags packetDir now) he]
      simpa using h.balanced

omit hconn

/-- A new connection takes the place of an ended one, if of any, in a table with room for it. -/
theorem Books.create (hrm : 0 < cfg.maxEntries → t.connections.entries.length < cfg.maxEntries)
    (ho : ∀ old, t.connections.lookup key = some old → old.ended)
    (hid : conn.flowId = t.flows) (hl : conn.ended = false) :
    Books cfg { connections := t.connections.insert key conn, flows := t.flows + 1 }
      (log ++ [.opened t.flows]) where
  given key' conn' hcn' := by
    rcases lookup_insert_some.1 hcn' with ⟨-, rfl⟩ | ⟨-, hcn'⟩
    · exact hid ▸ Nat.lt_succ_self t.flows
    · exact Nat.lt_succ_of_lt (h.given key' conn' hcn')
  unique key₁ key₂ conn₁ conn₂ hc₁ hc₂ heq := by
    rcases lookup_insert_some.1 hc₁ with ⟨rfl, rfl⟩ | ⟨-, ho₁⟩ <;>
      rcases lookup_insert_some.1 hc₂ with ⟨rfl, rfl⟩ | ⟨-, ho₂⟩
    · rfl
    · have hlt := h.given key₂ conn₂ ho₂
      omega
    · have hlt := h.given key₁ conn₁ ho₁
      omega
    · exact h.unique key₁ key₂ conn₁ conn₂ ho₁ ho₂ heq
  balanced := by
    have hk : {i | i < t.flows + 1} = insert t.flows {i | i < t.flows} := by
      ext i
      change i < t.flows + 1 ↔ i = t.flows ∨ i < t.flows
      omega
    have ha : active { connections := t.connections.insert key conn, flows := t.flows + 1 } =
        insert t.flows t.active := by
      ext i
      constructor
      · rintro ⟨key', c, hc, hi, hc'⟩
        rcases lookup_insert_some.1 hc with ⟨-, rfl⟩ | ⟨-, hc⟩
        · exact .inl (hi.symm.trans hid)
        · exact .inr ⟨key', c, hc, hi, hc'⟩
      · rintro (rfl | ⟨key', c, hc, hi, hc'⟩)
        · exact ⟨key, conn, lookup_insert _, hid, hl⟩
        · have hne : key' ≠ key := by
            rintro rfl
            rw [ho c hc] at hc'
            cases hc'
          exact ⟨key', c, (lookup_insert_ne hne).trans hc, hi, hc'⟩
    rw [ha]
    rw [hk]
    exact h.balanced.opening fun hm => absurd hm (Nat.lt_irrefl t.flows)
  fits hm := (Nat.succ_le_succ (kerase_sublist key _).length_le).trans (hrm hm)

/-! ### The books through the calls -/

theorem Books.reap (hk : key ∈ t.connections) :
    Books cfg { t with connections := t.connections.erase key }
      (log ++ reapEvents t.connections key) := by
  obtain ⟨conn, hconn⟩ := mem_iff_lookup.1 hk
  have her := h.erase hconn
  have he : reapEvents t.connections key = if conn.ended then [] else [.closed conn.flowId] := by
    unfold reapEvents ended
    rw [hconn]
    by_cases ht : conn.tombstone <;> by_cases htw : conn.state = .timeWait <;> simp [ht, htw]
  rw [he]
  exact her

omit h in
theorem mem_of_cand {cand : Option (ConnKey × Int)} (hc : ∀ c ∈ cand, c.1 ∈ conns) {k : ConnKey}
    (hk : k ∈ conns) (seen : Int) :
    (cand.elim (k, seen) fun c => if seen < c.2 then (k, seen) else c).1 ∈ conns := by
  cases cand with
  | none => exact hk
  | some c =>
    dsimp only [Option.elim]
    split
    · exact hk
    · exact hc c rfl

theorem Books.evictFrom (order : List ConnKey) (cand : Option (ConnKey × Int))
    (hcn : ∀ c ∈ cand, c.1 ∈ t.connections) (smp : Nat) :
    Books cfg { t with connections := evictFrom t.connections order cand smp }
      (log ++ evictFromEvents t.connections order cand smp) := by
  induction order generalizing cand smp with
  | nil =>
    cases cand with
    | none => simpa [TCPTracker.evictFrom, evictFromEvents] using h
    | some c => exact h.reap (hcn c rfl)
  | cons k order ih =>
    unfold TCPTracker.evictFrom evictFromEvents
    cases hconn : t.connections.lookup k with
    | none => exact ih cand hcn smp
    | some conn =>
      dsimp only
      by_cases ht : conn.tombstone
      · have he := h.erase hconn
        simpa [ht, ended] using he
      · have hn := mem_of_cand hcn (mem_of_lookup hconn) conn.lastSeen
        rw [if_neg ht, if_neg ht]
        by_cases hf : smp + 1 ≥ evictSampleSize
        · rw [if_pos hf, if_pos hf]
          exact h.reap hn
        · rw [if_neg hf, if_neg hf]
          exact ih _ (fun c hc => mem_some.1 hc ▸ hn) (smp + 1)

theorem Books.updateIfExists {flags : Flags} {dir : Direction} {r : UInt16 × TCPTracker}
    (he : t.updateIfExists key flags dir now = some r) :
    Books cfg r.2 (log ++ t.updateIfExistsEvents key flags dir) := by
  obtain ⟨conn, hconn, hs, rfl⟩ := updateIfExists_eq_some he
  rw [updateIfExistsEvents, hconn]
  dsimp only
  rw [if_neg hs]
  exact h.update hconn (tombstone_of_not_superseded hs) flags dir now

omit h in
theorem ended_of_updateIfExists {flags : Flags} {dir : Direction}
    (h : t.updateIfExists key flags dir now = none)
    (hconn : t.connections.lookup key = some conn) : conn.ended :=
  ended_of_isSupersededBy (superseded_of_updateIfExists h conn hconn)

omit h in
theorem length_evictFrom {cand : Option (ConnKey × Int)} {smp : Nat}
    (hcn : ∀ c ∈ cand, c.1 ∈ conns) (hf : cand ≠ none ∨ ∃ k ∈ order, k ∈ conns) :
    (evictFrom conns order cand smp).entries.length + 1 = conns.entries.length := by
  induction order generalizing cand smp with
  | nil =>
    cases cand with
    | none => simp at hf
    | some c => exact length_erase_of_mem (hcn c rfl)
  | cons k order ih =>
    unfold evictFrom
    cases hconn : conns.lookup k with
    | none =>
      refine ih hcn (hf.imp_right ?_)
      rintro ⟨k', hk', hm⟩
      rcases mem_cons.1 hk' with rfl | hk'
      · exact absurd hm (lookup_eq_none.1 hconn)
      · exact ⟨k', hk', hm⟩
    | some conn =>
      have hk := mem_of_lookup hconn
      have hn := mem_of_cand hcn hk conn.lastSeen
      dsimp only
      split
      · exact length_erase_of_mem hk
      · split
        · exact length_erase_of_mem hn
        · exact ih (fun c hc => mem_some.1 hc ▸ hn) (.inl (by simp))

theorem Books.track (p : Packet) (direction : Direction) (origPort : UInt16)
    (now : Int) (hord : order.Perm t.connections.keys) :
    Books cfg (t.track cfg p direction origPort now order)
      (log ++ t.trackEvents cfg p direction origPort now order) := by
  unfold TCPTracker.track trackEvents
  cases he : t.updateIfExists p.key p.flags direction now with
  | some r => exact h.updateIfExists he
  | none =>
    by_cases hs : isSet p.flags TCPSyn
    · by_cases hv : isValidFlagCombination p.flags
      · simp only [hs, hv, Bool.not_true, Bool.or_self, Bool.false_eq_true, if_false]
        have hl : (({ flowId := t.flows, direction, dnatOrigPort := origPort } :
            TCPConnTrack).updateState p.flags direction now).ended = false :=
          ended_updateState_new hs hv rfl rfl
        have hn : ({ flowId := t.flows, direction, dnatOrigPort := origPort } :
            TCPConnTrack).updateStateEvents p.flags direction = [] := by
          rw [(updateState_ended now).2 rfl, hl]
          simp
        rw [hn, nil_append, ← append_assoc]
        split
        · refine (h.evictFrom order none (by simp) 0).create (fun hm => ?_) (fun old ho => ?_)
            (flowId_updateState _ _ _ _) hl
          · have hp : 0 < t.connections.keys.length := by
              rw [AList.keys, List.keys, length_map]
              omega
            obtain ⟨k, hk⟩ := exists_mem_of_length_pos hp
            have hev : (TCPTracker.evictFrom t.connections order none 0).entries.length + 1 = _ :=
              length_evictFrom (by simp) (.inr ⟨k, hord.mem_iff.2 hk, hk⟩)
            exact hev.trans_le (h.fits hm)
          · exact ended_of_updateIfExists he (lookup_of_lookup_evictFrom _ _ _ ho)
        · rw [append_nil]
          exact h.create (fun hm => by omega) (fun old ho => ended_of_updateIfExists he ho)
            (flowId_updateState _ _ _ _) hl
      · simpa [hv] using h
    · simpa [hs] using h

theorem Books.trackOutbound (p : Packet) (now : Int) (hord : order.Perm t.connections.keys) :
    Books cfg (t.trackOutbound cfg p now order).2 (log ++ t.trackOutboundEvents cfg p now order) := by
  unfold TCPTracker.trackOutbound trackOutboundEvents
  cases he : t.updateIfExists p.key.reverse p.flags .egress now with
  | some r => exact h.updateIfExists he
  | none => exact h.track p .egress 0 now hord

theorem Books.isValidInbound (p : Packet) (now : Int) :
    Books cfg (t.isValidInbound p now).2 (log ++ t.isValidInboundEvents p) := by
  unfold TCPTracker.isValidInbound isValidInboundEvents
  cases hconn : t.connections.lookup p.key.reverse with
  | none => simpa using h
  | some conn =>
    dsimp only
    split
    · simpa using h
    · rename_i hv
      simp only [Bool.or_eq_true, not_or] at hv
      exact h.update hconn (tombstone_of_not_superseded hv.1.1) p.flags .ingress now

omit h in
theorem mem_timedOutFlows {i : Nat} :
    i ∈ t.timedOutFlows cfg now ↔ ∃ key conn, t.connections.lookup key = some conn ∧
      reportsTimeout cfg now conn ∧ conn.flowId = i := by
  simp [timedOutFlows, and_assoc, ← mem_lookup_iff]

theorem Books.nodup_timedOutFlows (now : Int) : (t.timedOutFlows cfg now).Nodup := by
  refine .map_on ?_ (t.connections.nodupKeys.nodup.filter _)
  rintro ⟨key, conn⟩ hm ⟨key', conn'⟩ hm' hid
  have hconn := mem_lookup_iff.2 (mem_filter.1 hm).1
  have hc' := mem_lookup_iff.2 (mem_filter.1 hm').1
  obtain rfl := h.unique key key' conn conn' hconn hc' hid
  rw [mem_unique hconn hc']

omit h in
theorem lookup_cleanup : (t.cleanup cfg now).connections.lookup key = some conn ↔
      t.connections.lookup key = some conn ∧
        (!conn.tombstone && !conn.timeoutExceeded (stateTimeout cfg conn.state) now) = true :=
  lookup_select_some

theorem Books.active_cleanup (now : Int) :
    (t.cleanup cfg now).active = t.active \ {i | i ∈ t.timedOutFlows cfg now} := by
  ext i
  constructor
  · rintro ⟨key, conn, hconn, hi, hl⟩
    obtain ⟨ho, hs⟩ := lookup_cleanup.1 hconn
    refine ⟨⟨key, conn, ho, hi, hl⟩, fun hm => ?_⟩
    obtain ⟨key', conn', hc', hr, hi'⟩ := mem_timedOutFlows.1 hm
    obtain rfl := h.unique key key' conn conn' ho hc' (hi.trans hi'.symm)
    obtain rfl := some.inj (ho.symm.trans hc')
    simp only [reportsTimeout, Bool.and_eq_true, Bool.not_eq_true'] at hr hs
    rw [hs.2] at hr
    exact Bool.noConfusion hr.1.2
  · rintro ⟨⟨key, conn, hconn, hi, hl⟩, hn⟩
    refine ⟨key, conn, lookup_cleanup.2 ⟨hconn, ?_⟩, hi, hl⟩
    have hr : ¬ reportsTimeout cfg now conn := fun hr =>
      hn (mem_timedOutFlows.2 ⟨key, conn, hconn, hr, hi⟩)
    simp only [ended, Bool.or_eq_false_iff, decide_eq_false_iff_not] at hl
    simpa [reportsTimeout, hl.1, hl.2] using hr

theorem Books.cleanup (now : Int) :
    Books cfg (t.cleanup cfg now) (log ++ t.cleanupEvents cfg now) := by
  refine h.of_flowIds (fun key conn hconn => ⟨conn, (lookup_cleanup.1 hconn).1, rfl⟩)
    (length_filter_le _ _) ?_
  change Ledger.Balanced _ (t.cleanup cfg now).active _
  rw [h.active_cleanup now]
  refine h.balanced.closingAll (h.nodup_timedOutFlows now) fun i hi => ?_
  obtain ⟨key, conn, hconn, hr, hi⟩ := mem_timedOutFlows.1 hi
  refine ⟨key, conn, hconn, hi, ?_⟩
  simp only [reportsTimeout, Bool.and_eq_true, Bool.not_eq_true', decide_eq_true_eq] at hr
  simp [ended, hr.1.1, hr.2]

theorem Books.step {e : Event} (he : t.Ranges e) :
    Books cfg (t.step cfg e) (log ++ t.stepEvents cfg e) := by
  cases e with
  | trackOutbound p now order => exact h.trackOutbound p now he
  | trackInbound p dnatOrigPort now order => exact h.track p .ingress dnatOrigPort now he
  | isValidInbound p now => exact h.isValidInbound p now
  | cleanup now => exact h.cleanup now

omit h

/-! ### Runs -/

/-- Every flow id that was given out has exactly one start and at most one end, which comes after
the start, and exactly one end once the table has no connection with the id; ids that were not given
out have neither. -/
structure FlowsExact (t : TCPTracker) (log : List FlowEvent) : Prop where
  start : ∀ i < t.flows, log.count (.opened i) = 1
  given : ∀ i, .opened i ∈ log ∨ .closed i ∈ log → i < t.flows
  ends : ∀ i, log.count (.closed i) ≤ 1
  after : ∀ before rest i, log = before ++ .closed i :: rest → .opened i ∈ before
  gone : ∀ i < t.flows, (∀ key conn, t.connections.lookup key = some conn → conn.flowId ≠ i) →
    log.count (.closed i) = 1

theorem Books.flowsExact (h : t.Books cfg log) : t.FlowsExact log where
  start := h.balanced.count_opened
  given i hi := hi.elim (h.balanced.known_of_opened i) h.balanced.known_of_closed
  ends := h.balanced.count_closed_le
  after := h.balanced.opened_before
  gone i hi hg := h.balanced.count_closed i hi
    fun ⟨key, conn, hconn, hid, _⟩ => hg key conn hconn hid

/-- In every run the flow events are exact and the table stays within its limit. -/
theorem flowsExact_of_reaches (cfg : TCPConfig) {s : TCPTracker × List FlowEvent}
    (h : Reaches (recordStep cfg) (fun s e => s.1.Ranges e) ({}, []) s) :
    s.1.FlowsExact s.2 ∧ (0 < cfg.maxEntries → s.1.connections.entries.length ≤ cfg.maxEntries) := by
  have hi : s.1.Books cfg s.2 := by
    refine h.invariant (p := fun s => s.1.Books cfg s.2) Books.init fun s e s' hb he hs => ?_
    cases hs
    exact hb.step he
  exact ⟨hi.flowsExact, hi.fits⟩

/-- Two connections in a table for one: the first is evicted, the second reset and cleaned up. -/
theorem flowsExact_of_reaches_evicted :
    ∃ s, Reaches (recordStep ⟨1, 1, 1, 1, 1, 1⟩) (fun s e => s.1.Ranges e) ({}, []) s ∧
      (s.2 = [.opened 0, .closed 0, .opened 1, .closed 1] ∧ s.1.connections.entries = []) ∧
      s.1.FlowsExact s.2 := by
  have hr : ∃ s, Reaches (recordStep ⟨1, 1, 1, 1, 1, 1⟩) (fun s e => s.1.Ranges e) ({}, []) s ∧
      (s.2 = [.opened 0, .closed 0, .opened 1, .closed 1] ∧ s.1.connections.entries = []) := by
    refine exists_reaches [.trackOutbound { hostPacket TCPSyn with srcPort := 1 } 1 [],
        .trackOutbound (hostPacket TCPSyn) 2 [Packet.key { hostPacket TCPSyn with srcPort := 1 }],
        .isValidInbound (serverPacket (TCPRst ||| TCPAck)) 3, .cleanup 4] ?_
    decide +kernel
  obtain ⟨s, hs, hl⟩ := hr
  exact ⟨s, hs, hl, (flowsExact_of_reaches _ hs).1⟩

end TCPTracker

end Cloink.Conntrack
