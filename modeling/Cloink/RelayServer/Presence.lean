import Cloink.RelayServer.Notifier

/-!
# Presence notifications converge

Once every event has been delivered, the last message that a subscriber was sent for a peer says
whether the peer is in the store; a peer is reported online once for each subscription. Three orders
of events are left out: news of two changes of the store in the other order, a round that has
collected an offline and then an online event, and the answer to a subscription that overtakes a
queued event.

## Main definitions

* `Orderly`: runs without the three orders.
* `Told`: what a subscriber has been, or will be, told.

## Main results

* `presence_converges`: the last message is about the store.
-/

namespace Cloink.RelayServer

open List Option Listener Loop Interleaving Prod
open TaskPool (Pool)

variable {PeerID : Type} [DecidableEq PeerID] {p : PeerID}

/-! ### What a subscriber is told last -/

section

@[simp]
theorem lastMessage_nil : lastMessage p [] = none := rfl

theorem lastMessage_cons (e : Event PeerID) (l : List (Event PeerID)) : lastMessage p (e :: l) =
      (lastMessage p l).or (if e.peerID = p then some e.online else none) := by
  unfold lastMessage
  by_cases he : e.peerID = p
  · rw [filter_cons_of_pos (by simpa using he), getLast?_cons, if_pos he]
    cases (filter (fun e => decide (e.peerID = p)) l).getLast? <;> rfl
  · rw [filter_cons_of_neg (by simpa using he), if_neg he, or_none]

/-- Later messages count first. -/
theorem lastMessage_append (l l' : List (Event PeerID)) :
    lastMessage p (l ++ l') = (lastMessage p l').or (lastMessage p l) := by
  induction l with
  | nil => simp
  | cons e l ih => rw [cons_append, lastMessage_cons, ih, lastMessage_cons, Option.or_assoc]

theorem lastMessage_map (b : Bool) (peers : List PeerID) :
    lastMessage p (peers.map (⟨·, b⟩)) = if p ∈ peers then some b else none := by
  induction peers with
  | nil => rfl
  | cons q peers ih =>
    rw [map_cons, lastMessage_cons, ih]
    by_cases hq : q = p
    · subst hq
      split <;> simp
    · simp [hq, Ne.symm hq]

theorem mem_of_lastMessage {b : Bool} {l : List (Event PeerID)} (h : lastMessage p l = some b) :
    ⟨p, b⟩ ∈ l := by
  obtain ⟨⟨q, c⟩, he, rfl⟩ := map_eq_some_iff.1 h
  have hm := mem_filter.1 (mem_of_getLast? he)
  obtain rfl : q = p := by simpa using hm.2
  exact hm.1

end

/-- What the last message for the peer will say, after the messages under way: the queue comes after
the round, and in the round those who went offline come after those who came online and after the
answer to a subscription. -/
def verdict (p : PeerID) (s : Server PeerID) : Option Bool :=
  (lastMessage p s.listener.eventChan).or (if p ∈ s.loop.peersOffline then some false
      else if p ∈ s.loop.peersOnline ∨ p ∈ s.response.getD [] then some true
      else lastMessage p s.sent)

/-! ### Conditions on the steps -/

/-- A peer that is not in the store comes online only when a subscriber that has subscribed to it
has not been told of it since. -/
def Awaited (p : PeerID) (pool : Pool (Server PeerID) (Task PeerID)) : Action PeerID → Prop
  | .accept q => q = p → pool.shared.store p = none →
    p ∈ pool.shared.listener.interestedPeersForOffline →
      p ∈ pool.shared.listener.interestedPeersForOnline
  | _ => True

/-- The task has yet to tell the listeners of the peer. -/
def Task.untold (p : PeerID) : Task PeerID → Bool
  | .added _ q | .deleted q => q = p
  | .working _ _ | .ended _ _ => false

/-- The peer stays subscribed. It does not come online while the listeners have yet to be told that
it left, and does not leave while they have yet to be told anything of it. A round does not collect
that it came online after it went offline, and a subscription does not overtake the news that it
went offline. -/
def Orderly (p : PeerID) (pool : Pool (Server PeerID) (Task PeerID)) : Action PeerID → Prop
  | .accept q => q = p → .deleted p ∉ pool.tasks
  | .run (.ended conn q) =>
    q = p → pool.shared.store p = some conn → pool.tasks.filter (Task.untold p) = []
  | .subscribe peerIDs => p ∈ peerIDs → (pool.shared.store p).isSome →
    ⟨p, false⟩ ∉ pool.shared.listener.eventChan ∧ p ∉ pool.shared.loop.peersOffline
  | .unsubscribe peerIDs => p ∉ peerIDs
  | .receive => pool.shared.listener.eventChan.head? = some ⟨p, true⟩ →
    p ∉ pool.shared.loop.peersOffline
  | _ => True

/-! ### The verdict follows the store -/

section

/-- The verdict says online only of a peer in the store, and says so once the subscriber has
subscribed. -/
structure Agrees (p : PeerID) (s : Server PeerID) : Prop where
  online : verdict p s = some true → (s.store p).isSome
  reported : (s.store p).isSome → p ∈ s.listener.interestedPeersForOffline → verdict p s = some true

/-- The listeners have been told of the last change of the store, or are about to be. The peer may
have come online several times since they were told. -/
def Told (p : PeerID) (s : Server PeerID) (untold : List (Task PeerID)) : Prop :=
  untold = [] ∧ Agrees p s ∨
  (untold ≠ [] ∧ (∀ t ∈ untold, ∃ conn, t = .added conn p) ∧ (s.store p).isSome ∧
    (p ∈ s.listener.interestedPeersForOffline →
      verdict p s = some true ∨ p ∈ s.listener.interestedPeersForOnline)) ∨
  untold = [.deleted p] ∧ s.store p = none

structure Inv (p : PeerID) (pool : Pool (Server PeerID) (Task PeerID)) : Prop where
  told : Told p pool.shared (pool.tasks.filter (Task.untold p))
  /-- Before it subscribes the subscriber is not told anything. -/
  silent : p ∉ pool.shared.listener.interestedPeersForOffline →
    p ∉ pool.shared.listener.interestedPeersForOnline ∧ verdict p pool.shared = none

/-- What an action that does not concern the peer leaves as it is. -/
structure Same (p : PeerID) (s s' : Server PeerID) : Prop where
  store : s'.store p = s.store p
  forOnline : p ∈ s'.listener.interestedPeersForOnline ↔ p ∈ s.listener.interestedPeersForOnline
  forOffline : p ∈ s'.listener.interestedPeersForOffline ↔ p ∈ s.listener.interestedPeersForOffline
  verdict : verdict p s' = verdict p s

variable {s s' : Server PeerID} {ts ts' : List (Task PeerID)}

theorem Inv.of_same (h : Inv p ⟨s, ts⟩) (hs : Same p s s')
    (ht : ts'.filter (Task.untold p) = ts.filter (Task.untold p)) : Inv p ⟨s', ts'⟩ where
  told := by
    rw [ht]
    rcases h.told with ⟨hn, ha⟩ | ⟨hne, had, hst, haw⟩ | ⟨hd, hst⟩
    · refine .inl ⟨hn, ?_, ?_⟩
      · rw [hs.verdict, hs.store]
        exact ha.online
      · rw [hs.verdict, hs.store, hs.forOffline]
        exact ha.reported
    · refine .inr (.inl ⟨hne, had, hs.store ▸ hst, ?_⟩)
      rw [hs.verdict, hs.forOnline, hs.forOffline]
      exact haw
    · exact .inr (.inr ⟨hd, hs.store ▸ hst⟩)
  silent := by
    rw [hs.forOnline, hs.forOffline, hs.verdict]
    exact h.silent

/-! ### The subscriber -/

theorem Same.respond (h : respond s = some s') : Same p s s' := by
  obtain ⟨l, hr, rfl⟩ := map_eq_some_iff.1 h
  refine ⟨rfl, .rfl, .rfl, ?_⟩
  simp only [RelayServer.verdict, sendPeersOnline, lastMessage_append, lastMessage_map, hr,
    getD_none, getD_some, not_mem_nil, or_false]
  by_cases hl : p ∈ l <;> simp [hl]

variable {peerIDs : List PeerID} {untold : List (Task PeerID)}
  {pool pool' : Pool (Server PeerID) (Task PeerID)}

theorem Same.unsubscribe (h : unsubscribe s peerIDs = some s') (hp : p ∉ peerIDs) :
    Same p s s' := by
  unfold RelayServer.unsubscribe at h
  split at h
  · cases h
  · cases h
    exact ⟨rfl, by simp [removeInterestedPeer, hp], by simp [removeInterestedPeer, hp], rfl⟩

/-- Taking an event from the queue into the round changes no verdict. -/
theorem Same.receive (h : receive s = some s')
    (hp : s.listener.eventChan.head? = some ⟨p, true⟩ → p ∉ s.loop.peersOffline) : Same p s s' := by
  unfold RelayServer.receive at h
  split at h
  · cases h
  · cases h
  next e rest hc _ =>
    cases h
    refine ⟨rfl, .rfl, .rfl, ?_⟩
    obtain ⟨q, online⟩ := e
    rw [hc] at hp
    simp only [RelayServer.verdict, hc, lastMessage_cons]
    rcases lastMessage p rest with - | last
    · by_cases hq : q = p
      · subst hq
        cases online
        · simp
        · simp [hp rfl]
      · cases online <;> simp [hq, Ne.symm hq]
    · simp

/-- Nor does writing the online messages. -/
theorem Same.flush (h : flush s = some s') : Same p s s' := by
  unfold RelayServer.flush at h
  split at h
  next peersOnline peersOffline hc hl =>
    cases h
    refine ⟨rfl, .rfl, .rfl, ?_⟩
    simp only [RelayServer.verdict, sendPeersOnline, lastMessage_append, lastMessage_map, hl,
      peersOnline_collecting, peersOffline_collecting, peersOnline_offline, peersOffline_offline]
    by_cases hm : p ∈ peersOnline <;> simp [hm]
  next => cases h

/-- Nor does writing the offline messages. -/
theorem Same.sendPeersWentOffline (h : sendPeersWentOffline s = some s') : Same p s s' := by
  unfold RelayServer.sendPeersWentOffline at h
  split at h
  next hl =>
    cases h
    exact ⟨rfl, .rfl, .rfl, by simp [RelayServer.verdict, hl]⟩
  next peersOffline _ hr hl =>
    cases h
    refine ⟨rfl, .rfl, .rfl, ?_⟩
    simp only [RelayServer.verdict, lastMessage_append, lastMessage_map, hl, hr,
      peersOnline_offline, peersOffline_offline, peersOnline_waiting, peersOffline_waiting]
    by_cases hm : p ∈ peersOffline <;> simp [hm]
  next => cases h

theorem subscribe_eq_some (h : subscribe s peerIDs = some s') :
    s.response = none ∧ ∃ response : Option (List PeerID),
      response.getD [] = peerIDs.filter (fun id => (s.store id).isSome) ∧
      s' = { s with
        listener := s.listener.addInterestedPeers peerIDs
        response := response } := by
  unfold RelayServer.subscribe at h
  split at h
  · cases h
  next hf =>
    cases h
    refine ⟨by simpa using hf, _, ?_, rfl⟩
    split
    next he => exact (isEmpty_iff.1 he).symm
    next => rfl

/-- A subscription keeps the invariant; its answer reports a peer in the store. -/
theorem Inv.subscribe (h : Inv p ⟨s, ts⟩) (hs : subscribe s peerIDs = some s')
    (hok : p ∈ peerIDs → (s.store p).isSome →
      ⟨p, false⟩ ∉ s.listener.eventChan ∧ p ∉ s.loop.peersOffline) : Inv p ⟨s', ts⟩ := by
  obtain ⟨hf, response, hr, rfl⟩ := subscribe_eq_some hs
  have hvr : p ∉ response.getD [] → verdict p { s with
      listener := s.listener.addInterestedPeers peerIDs
      response := response } = verdict p s := by
    intro hnt
    simp [verdict, addInterestedPeers, hf, hnt]
  rw [hr, mem_filter] at hvr
  by_cases hm : p ∈ peerIDs
  · refine ⟨?_, fun hnt => absurd (by simp [addInterestedPeers, hm]) hnt⟩
    rcases h.told with ⟨hn, ha⟩ | had | hd
    · refine .inl ⟨hn, ?_⟩
      by_cases hst : (s.store p).isSome
      · -- the answer reports the peer, and nothing comes after it
        obtain ⟨hc, ho⟩ := hok hm hst
        refine ⟨fun _ => hst, fun _ _ => ?_⟩
        simp only [verdict, addInterestedPeers, hr, ho, if_false,
          mem_filter, hm, hst, and_self, or_true, if_true]
        cases hl : lastMessage p s.listener.eventChan with
        | none => rfl
        | some b =>
          cases b
          · exact absurd (mem_of_lastMessage hl) hc
          · rfl
      · exact ⟨fun hv => ha.online ((hvr fun hp => hst hp.2).symm.trans hv),
          fun hsm => absurd hsm hst⟩
    · obtain ⟨hne, hu, hst, -⟩ := had
      exact .inr (.inl ⟨hne, hu, hst, fun _ => .inr (by simp [addInterestedPeers, hm])⟩)
    · exact .inr (.inr hd)
  · exact h.of_same ⟨rfl, by simp [addInterestedPeers, hm],
      by simp [addInterestedPeers, hm], hvr fun hp => hm hp.1⟩ rfl

/-! ### The connections -/

variable {conn : ℕ} {q : PeerID} {l : Listener PeerID}

theorem peerComeOnline_eq_some (h : s.listener.peerComeOnline q = some l) :
    l.interestedPeersForOffline = s.listener.interestedPeersForOffline ∧
    (q ∈ s.listener.interestedPeersForOnline ∧
        l.interestedPeersForOnline = s.listener.interestedPeersForOnline.erase q ∧
        l.eventChan = s.listener.eventChan ++ [⟨q, true⟩] ∨
      q ∉ s.listener.interestedPeersForOnline ∧ l = s.listener) := by
  unfold peerComeOnline send at h
  split at h
  next hm =>
    obtain ⟨l, hl, rfl⟩ := map_eq_some_iff.1 h
    split at hl
    · cases hl
      exact ⟨rfl, .inl ⟨hm, rfl, rfl⟩⟩
    · cases hl
  next hm =>
    cases h
    exact ⟨rfl, .inr ⟨hm, rfl⟩⟩

theorem peerWentOffline_eq_some (h : s.listener.peerWentOffline q = some l) :
    l.interestedPeersForOffline = s.listener.interestedPeersForOffline ∧
    l.interestedPeersForOnline = s.listener.interestedPeersForOnline ∧
    (q ∈ s.listener.interestedPeersForOffline ∧ l.eventChan = s.listener.eventChan ++ [⟨q, false⟩] ∨
      q ∉ s.listener.interestedPeersForOffline ∧ l = s.listener) := by
  unfold peerWentOffline send at h
  split at h
  next hm =>
    split at h
    · cases h
      exact ⟨rfl, rfl, .inl ⟨hm, rfl⟩⟩
    · cases h
  next hm =>
    cases h
    exact ⟨rfl, rfl, .inr ⟨hm, rfl⟩⟩

/-- An event in the queue has the last word. -/
theorem verdict_send {b : Bool} (h : l.eventChan = s.listener.eventChan ++ [⟨q, b⟩]) :
    verdict p { s with listener := l } = if q = p then some b else verdict p s := by
  simp only [verdict, h, lastMessage_append, lastMessage_cons, lastMessage_nil, none_or]
  by_cases hq : q = p <;> simp [hq]

theorem Same.send {b : Bool} (hq : q ≠ p)
    (hon : p ∈ l.interestedPeersForOnline ↔ p ∈ s.listener.interestedPeersForOnline)
    (ho : l.interestedPeersForOffline = s.listener.interestedPeersForOffline)
    (hc : l.eventChan = s.listener.eventChan ++ [⟨q, b⟩] ∨ l = s.listener) :
    Same p s { s with listener := l } := by
  refine ⟨rfl, hon, by rw [ho], ?_⟩
  rcases hc with hc | rfl
  · rw [verdict_send hc, if_neg hq]
  · rfl

theorem Told.agrees (h : Told p s untold) (hn : untold = []) : Agrees p s := by
  rcases h with ⟨-, ha⟩ | ⟨hne, -⟩ | ⟨rfl, -⟩
  · exact ha
  · exact absurd hn hne
  · cases hn

/-- A new connection keeps the invariant. -/
theorem Inv.accept (h : Inv p ⟨s, ts⟩) (hok : q = p → .deleted p ∉ ts)
    (ha : q = p → s.store p = none → p ∈ s.listener.interestedPeersForOffline →
      p ∈ s.listener.interestedPeersForOnline) :
    Inv p ⟨(addPeer s q).1, ts ++ (addPeer s q).2⟩ := by
  by_cases hq : q = p
  · subst hq
    have hts : (ts ++ (addPeer s q).2).filter (Task.untold q) =
        ts.filter (Task.untold q) ++ [.added s.nextConn q] := by
      simp [addPeer, Task.untold]
    refine ⟨?_, h.silent⟩
    rw [hts]
    rcases h.told with ⟨hn, hag⟩ | ⟨-, had, hst, haw⟩ | ⟨hd, -⟩
    · refine .inr (.inl ⟨by simp, by simp [hn], by simp [addPeer], fun ho => ?_⟩)
      cases hs : s.store q with
      | none => exact .inr (ha rfl hs ho)
      | some conn => exact .inl (hag.reported (by rw [hs]; rfl) ho)
    · -- the listeners are told of either connection, and the first time counts
      refine .inr (.inl ⟨by simp, fun t ht => ?_, by simp [addPeer], haw⟩)
      obtain ht | ht := mem_append.1 ht
      · exact had t ht
      · exact ⟨_, mem_singleton.1 ht⟩
    · have hm : .deleted q ∈ ts.filter (Task.untold q) := by rw [hd]; exact mem_cons_self
      exact absurd (mem_filter.1 hm).1 (hok rfl)
  · refine h.of_same ⟨?_, .rfl, .rfl, rfl⟩ ?_
    · simp [addPeer, Function.update_of_ne (Ne.symm hq)]
    · simp [addPeer, Task.untold, hq]

/-- A task that has told the listeners of the peer, or does not have to. -/
theorem erase_untold_of_ne {t : Task PeerID} (ht : t.untold p = false) :
    (ts.filter (Task.untold p)).erase t = ts.filter (Task.untold p) :=
  erase_of_not_mem fun hm => by simp [ht] at hm

theorem Told.added (h : Told p s untold) (hm : .added conn p ∈ untold) :
    (s.store p).isSome ∧ (∀ t ∈ untold, ∃ conn, t = .added conn p) ∧
      (p ∈ s.listener.interestedPeersForOffline →
        verdict p s = some true ∨ p ∈ s.listener.interestedPeersForOnline) := by
  rcases h with ⟨rfl, -⟩ | ⟨-, hall, hs, ha⟩ | ⟨rfl, -⟩
  · simp at hm
  · exact ⟨hs, hall, ha⟩
  · simp at hm

theorem Told.of_verdict (hst : (s.store p).isSome) (hall : ∀ t ∈ untold, ∃ conn, t = .added conn p)
    (hv : p ∈ s.listener.interestedPeersForOffline → verdict p s = some true) :
    Told p s untold := by
  by_cases hn : untold = []
  · exact .inl ⟨hn, fun _ => hst, fun _ => hv⟩
  · exact .inr (.inl ⟨hn, hall, hst, fun ho => .inl (hv ho)⟩)

theorem Told.deleted (h : Told p s untold) (hm : .deleted p ∈ untold) :
    s.store p = none ∧ untold.erase (.deleted p) = [] := by
  rcases h with ⟨rfl, -⟩ | ⟨-, hall, -⟩ | ⟨rfl, hs⟩
  · simp at hm
  · simpa using hall _ hm
  · exact ⟨hs, by simp⟩

/-- Telling the listeners of a new connection keeps the invariant. -/
theorem Inv.added (h : Inv p ⟨s, ts⟩) (ht : .added conn q ∈ ts)
    (hl : s.listener.peerComeOnline q = some l) (hts : ts'.filter (Task.untold p) =
      (ts.filter (Task.untold p)).erase (.added conn q)) : Inv p ⟨{ s with listener := l }, ts'⟩ := by
  obtain ⟨ho, hsn⟩ := peerComeOnline_eq_some hl
  by_cases hq : q = p
  · subst hq
    obtain ⟨hst, hall, ha⟩ :=
      h.told.added (mem_filter.2 ⟨ht, by simp [Task.untold]⟩)
    refine ⟨Told.of_verdict hst (fun t ht => ?_) fun hm => ?_, fun hn => ?_⟩
    · exact hall t (mem_of_mem_erase (hts ▸ ht))
    · rcases hsn with ⟨-, -, hc⟩ | ⟨hn, rfl⟩
      · exact (verdict_send hc).trans (if_pos rfl)
      · exact (ha hm).resolve_right hn
    · have hsl := h.silent (ho ▸ hn)
      rcases hsn with ⟨hon, -⟩ | ⟨-, rfl⟩
      · exact absurd hon hsl.1
      · exact hsl
  · refine h.of_same (Same.send hq ?_ ho (hsn.imp (fun hs => hs.2.2) And.right)) ?_
    · rcases hsn with ⟨-, hon, -⟩ | ⟨-, rfl⟩
      · rw [hon, Finset.mem_erase]
        simp [Ne.symm hq]
      · rfl
    · rw [hts, erase_untold_of_ne (by simp [Task.untold, hq])]

/-- Telling them that a peer left does. -/
theorem Inv.deleted (h : Inv p ⟨s, ts⟩) (ht : .deleted q ∈ ts)
    (hl : s.listener.peerWentOffline q = some l) (hts : ts'.filter (Task.untold p) =
      (ts.filter (Task.untold p)).erase (.deleted q)) : Inv p ⟨{ s with listener := l }, ts'⟩ := by
  obtain ⟨ho, hon, hs⟩ := peerWentOffline_eq_some hl
  by_cases hq : q = p
  · subst hq
    have hst := h.told.deleted (mem_filter.2 ⟨ht, by simp [Task.untold]⟩)
    have hvr : verdict q { s with listener := l } ≠ some true := by
      rcases hs with ⟨-, hc⟩ | ⟨hn, rfl⟩
      · rw [verdict_send hc, if_pos rfl]
        simp
      · rw [show verdict q _ = none from (h.silent hn).2]
        simp
    refine ⟨.inl ⟨hts.trans hst.2, fun hv => absurd hv hvr, fun hsm => ?_⟩, fun hn => ?_⟩
    · change (s.store q).isSome at hsm
      rw [hst.1] at hsm
      cases hsm
    · rcases hs with ⟨hm, -⟩ | ⟨hm, rfl⟩
      · exact absurd hm (ho ▸ hn)
      · exact h.silent hm
  · refine h.of_same (Same.send hq (by rw [hon]) ho (hs.imp And.right And.right)) ?_
    rw [hts, erase_untold_of_ne (by simp [Task.untold, hq])]

/-- The end of a connection does; one that was replaced changes nothing. -/
theorem Inv.ended (h : Inv p ⟨s, ts⟩)
    (hok : q = p → s.store p = some conn → ts.filter (Task.untold p) = [])
    (ht : ts'.filter (Task.untold p) =
      ts.filter (Task.untold p) ++ (deletePeer s conn q).2.filter (Task.untold p)) :
    Inv p ⟨(deletePeer s conn q).1, ts'⟩ := by
  unfold deletePeer at ht ⊢
  split
  next hc =>
    rw [if_pos hc] at ht
    by_cases hq : q = p
    · subst hq
      refine ⟨.inr (.inr ⟨?_, by simp⟩), h.silent⟩
      rw [ht, hok rfl hc]
      simp [Task.untold]
    · refine h.of_same ⟨Function.update_of_ne (Ne.symm hq) _ _, .rfl, .rfl, rfl⟩ ?_
      rw [ht]
      simp [Task.untold, hq]
  next hc =>
    rw [if_neg hc] at ht
    exact h.of_same ⟨rfl, .rfl, .rfl, rfl⟩ (by rw [ht]; simp)

omit [DecidableEq PeerID] in
theorem alone_eq_some {o : Option (Server PeerID)} {new : List (Task PeerID)}
    (h : alone o = some (s, new)) : o = some s ∧ new = [] := by
  obtain ⟨s, rfl, hs⟩ := map_eq_some_iff.1 h
  obtain ⟨rfl, rfl⟩ := mk.inj hs
  exact ⟨rfl, rfl⟩

theorem Inv.of_alone {o : Option (Server PeerID)} (h : Inv p pool)
    (hs : pool.spawn (alone o) = some pool') (hsm : ∀ s', o = some s' → Same p pool.shared s') :
    Inv p pool' := by
  obtain ⟨s, new, hn, rfl⟩ := Pool.spawn_eq_some hs
  obtain ⟨ho, rfl⟩ := alone_eq_some hn
  exact h.of_same (hsm s ho) (by rw [append_nil])

theorem Inv.run {t : Task PeerID} (h : Inv p pool) (hok : Orderly p pool (.run t))
    (hs : pool.resume t (act pool.shared t) = some pool') : Inv p pool' := by
  obtain ⟨ht, -⟩ := Pool.resume_eq_some hs
  obtain ⟨s, new, ha, rfl, hts⟩ := Pool.filter_resume (Task.untold p) hs
  cases t with
  | added conn q =>
    obtain ⟨l, hl, hn⟩ := map_eq_some_iff.1 ha
    obtain ⟨hsh, rfl⟩ := mk.inj hn
    have hi : Inv p ⟨{ pool.shared with listener := l }, pool'.tasks⟩ :=
      h.added ht hl (by rw [hts]; simp [Task.untold])
    rwa [hsh] at hi
  | working conn q =>
    obtain ⟨hsh, rfl⟩ := mk.inj (some.inj ha)
    have hi : Inv p ⟨pool.shared, pool'.tasks⟩ := h.of_same ⟨rfl, .rfl, .rfl, rfl⟩
      (by rw [hts, erase_untold_of_ne rfl]; simp [Task.untold])
    rwa [hsh] at hi
  | ended conn q =>
    have hn : (deletePeer pool.shared conn q).2 = new := congrArg snd (some.inj ha)
    have hi := h.ended hok (by rw [hts, erase_untold_of_ne rfl, hn])
    rwa [show (deletePeer pool.shared conn q).1 = pool'.shared from
      congrArg fst (some.inj ha)] at hi
  | deleted q =>
    obtain ⟨l, hl, hn⟩ := map_eq_some_iff.1 ha
    obtain ⟨hsh, rfl⟩ := mk.inj hn
    have hi : Inv p ⟨{ pool.shared with listener := l }, pool'.tasks⟩ :=
      h.deleted ht hl (by rw [hts]; simp)
    rwa [hsh] at hi

/-- Every step keeps the invariant. -/
theorem Inv.step {a : Action PeerID} (h : Inv p pool) (hok : Orderly p pool a)
    (ha : Awaited p pool a) (hs : step pool a = some pool') : Inv p pool' := by
  cases a with
  | run t => exact h.run hok hs
  | accept q =>
    obtain ⟨s, new, hn, rfl⟩ := Pool.spawn_eq_some hs
    obtain ⟨rfl, rfl⟩ := mk.inj (some.inj hn)
    exact h.accept hok ha
  | subscribe peerIDs =>
    obtain ⟨s, new, hn, rfl⟩ := Pool.spawn_eq_some hs
    obtain ⟨hs', rfl⟩ := alone_eq_some hn
    rw [append_nil]
    exact h.subscribe hs' hok
  | respond => exact h.of_alone hs fun _ hs' => Same.respond hs'
  | unsubscribe peerIDs => exact h.of_alone hs fun _ hs' => Same.unsubscribe hs' hok
  | receive => exact h.of_alone hs fun _ hs' => Same.receive hs' hok
  | flush => exact h.of_alone hs fun _ hs' => Same.flush hs'
  | sendPeersWentOffline => exact h.of_alone hs fun _ hs' => Same.sendPeersWentOffline hs'

end

/-! ### The main result -/

/-- A server without connections, and a subscriber that has not subscribed yet. -/
def initial : Pool (Server PeerID) (Task PeerID) where
  shared := {}
  tasks := []

theorem Inv.initial : Inv p (initial : Pool (Server PeerID) (Task PeerID)) where
  told := .inl ⟨rfl, nofun, nofun⟩
  silent _ := ⟨by simp [RelayServer.initial], rfl⟩

/-- Every event of the peer has been processed. -/
def Quiet (p : PeerID) (pool : Pool (Server PeerID) (Task PeerID)) : Prop :=
  pool.tasks.filter (Task.untold p) = [] ∧ pool.shared.listener.eventChan = [] ∧
    pool.shared.loop.peersOnline = [] ∧ pool.shared.loop.peersOffline = [] ∧
    pool.shared.response = none

/-- Once every event has been processed, the last message for a peer the subscriber has subscribed
to says online exactly if the peer is in the store. -/
theorem presence_converges {pool : Pool (Server PeerID) (Task PeerID)}
    (h : Reaches step (fun pool a => Orderly p pool a ∧ Awaited p pool a) initial pool)
    (hquiet : Quiet p pool) (hsub : p ∈ pool.shared.listener.interestedPeersForOffline) :
    lastMessage p pool.shared.sent = some true ↔ (pool.shared.store p).isSome := by
  have hi : Inv p pool :=
    h.invariant Inv.initial fun _ _ _ hi hok hs => hi.step hok.1 hok.2 hs
  obtain ⟨ht, hc, hon, ho, hr⟩ := hquiet
  have hv : verdict p pool.shared = lastMessage p pool.shared.sent := by
    simp [verdict, hc, hon, ho, hr]
  have ha := hi.told.agrees ht
  rw [← hv]
  exact ⟨ha.online, fun hst => ha.reported hst hsub⟩

/-! ### Runs -/

section

instance (p : PeerID) (pool : Pool (Server PeerID) (Task PeerID)) (a : Action PeerID) :
    Decidable (Orderly p pool a) := by
  unfold Orderly
  split <;> infer_instance

instance (p : PeerID) (pool : Pool (Server PeerID) (Task PeerID)) (a : Action PeerID) :
    Decidable (Awaited p pool a) := by
  unfold Awaited
  split <;> infer_instance

instance (p : PeerID) : DecidablePred (Quiet p) := fun pool => by
  unfold Quiet
  infer_instance

/-- The round of one event. -/
def round : List (Action ℕ) := [.receive, .flush, .sendPeersWentOffline]

/-- A peer that was reported online, went offline and has come back is in the store, and the last
message says offline: the subscription has been used up. -/
theorem comesBack_unreported : ∃ pool, Reaches step (Orderly 7) initial pool ∧ Quiet 7 pool ∧
      7 ∈ pool.shared.listener.interestedPeersForOffline ∧
      lastMessage 7 pool.shared.sent = some false ∧ (pool.shared.store 7).isSome := by
  refine exists_reaches ([.subscribe [7], .accept 7, .run (.added 0 7)] ++ round ++
      [.run (.working 0 7), .run (.ended 0 7), .run (.deleted 7)] ++ round ++
      [.accept 7, .run (.added 1 7)]) ?_
  decide +kernel

/-- A peer that comes back after the subscriber has subscribed again. -/
theorem comesBack_reported :
    ∃ pool, Reaches step (fun pool a => Orderly 7 pool a ∧ Awaited 7 pool a) initial pool ∧
      lastMessage 7 pool.shared.sent = some true ∧ (pool.shared.store 7).isSome := by
  have hrn : ∃ pool, Reaches step (fun pool a => Orderly 7 pool a ∧ Awaited 7 pool a) initial pool ∧
      Quiet 7 pool ∧ 7 ∈ pool.shared.listener.interestedPeersForOffline ∧
      lastMessage 7 pool.shared.sent = some true :=
    exists_reaches ([.subscribe [7], .accept 7, .run (.added 0 7)] ++ round ++
        [.run (.working 0 7), .run (.ended 0 7), .run (.deleted 7)] ++ round ++
        [.subscribe [7], .accept 7, .run (.added 1 7)] ++ round) (by decide +kernel)
  obtain ⟨pool, hr, hq, hsb, hs⟩ := hrn
  exact ⟨pool, hr, hs, (presence_converges hr hq hsb).1 hs⟩

end

end Cloink.RelayServer
