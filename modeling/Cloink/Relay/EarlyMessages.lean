import Cloink.Lib.Interleaving

/-!
# Early messages of a relay client

A transport message for which there is no connection is kept until `OpenConn` is called for the
peer. The reader looks for the connection and keeps the message in two critical sections: when
`OpenConn` comes between them, the message stays in the buffer. `OpenConn` writes the message that
was kept after it has left its critical section, and the reader may write a later one before. This
is the life of one peer's messages, which are numbered as they are received.
-/

namespace Cloink.Relay.EarlyMessages

open Interleaving

/-- Where the read loop is with the message it has received last. -/
inductive Reader
  | idle
  | missed
  | found (container : Nat)
  deriving DecidableEq

/-- A message for a container. -/
structure Write where
  container : Nat
  msg : Nat
  deriving DecidableEq

structure Client where
  received : Nat := 0
  reader : Reader := .idle
  /-- The number of containers made, and the one that is registered. -/
  made : Nat := 0
  conn : Option Nat := none
  earlyMsg : Option Nat := none
  /-- The early messages that calls of `OpenConn` have taken and not written yet. -/
  flushing : List Write := []
  /-- What was written, the last one first. -/
  written : List Write := []

namespace Client

variable (c : Client)

/-- `put` says whether the buffer has taken the message. `fail` is the end of a call of `OpenConn`
for a peer that is not online. -/
inductive Action
  | receive
  | put (stored : Bool)
  | write
  | openConn
  | flush (w : Write)
  | fail (container : Nat)
  | removeExpired

def step : Action → Option Client
  | .receive =>
    if c.reader = .idle then
      some { c with received := c.received + 1, reader := c.conn.elim .missed .found }
    else none
  | .put stored =>
    if c.reader = .missed then
      some { c with reader := .idle, earlyMsg := if stored then some (c.received - 1) else none }
    else none
  | .write =>
    match c.reader with
    | .found container =>
      some { c with reader := .idle, written := ⟨container, c.received - 1⟩ :: c.written }
    | _ => none
  | .openConn =>
    if c.conn = none then
      some { c with
        made := c.made + 1
        conn := some c.made
        earlyMsg := none
        flushing := (c.earlyMsg.map (⟨c.made, ·⟩)).toList ++ c.flushing }
    else none
  | .flush w =>
    if w ∈ c.flushing then
      some { c with flushing := c.flushing.erase w, written := w :: c.written }
    else none
  | .fail container => some (if c.conn = some container then { c with conn := none } else c)
  | .removeExpired => some { c with earlyMsg := none }

/-- The condition on a step: no connection is opened between the two critical sections of the
reader, and the reader writes to a container after the early message of the container. -/
def InOrder : Action → Prop
  | .openConn => c.reader ≠ .missed
  | .write => ∀ w ∈ c.flushing, c.reader ≠ .found w.container
  | _ => True

/-- The messages that are not in the hands of the reader have numbers below this. -/
def bound : Nat := if c.reader = .idle then c.received else c.received - 1

structure Inv : Prop where
  reader : c.reader ≠ .idle → 0 < c.received
  missed : c.reader = .missed → c.conn = none
  early : c.conn.isSome → c.earlyMsg = none
  below : ∀ m ∈ c.earlyMsg, m < c.bound
  flushing : ∀ w ∈ c.flushing, w.msg < c.bound ∧ w.container < c.made ∧
    ∀ w' ∈ c.written, w'.container ≠ w.container
  nodup : (c.flushing.map Write.container).Nodup
  written : ∀ w ∈ c.written, w.msg < c.bound ∧ w.container < c.made
  found : ∀ k, c.reader = .found k → k < c.made
  conn : ∀ k ∈ c.conn, k < c.made
  sorted : c.written.Pairwise fun w w' => w.container = w'.container → w'.msg < w.msg

variable {c} {c' : Client}

theorem Inv.receive (h : c.Inv) (hs : c.step .receive = some c') : c'.Inv := by
  obtain ⟨hr, hm, he, hb, hf, hn, hw, hfound, hc, hsorted⟩ := h
  simp only [step] at hs
  split at hs <;> cases hs
  cases hconn : c.conn <;> constructor <;> grind [bound]

theorem Inv.put {stored : Bool} (h : c.Inv) (hs : c.step (.put stored) = some c') : c'.Inv := by
  obtain ⟨hr, hm, he, hb, hf, hn, hw, hfound, hc, hsorted⟩ := h
  simp only [step] at hs
  split at hs <;> cases hs
  constructor <;> grind [bound]

theorem Inv.write (h : c.Inv) (hok : c.InOrder .write) (hs : c.step .write = some c') : c'.Inv := by
  obtain ⟨hr, hm, he, hb, hf, hn, hw, hfound, hc, hsorted⟩ := h
  simp only [step] at hs
  split at hs <;> cases hs
  constructor <;> grind [bound, InOrder, List.pairwise_cons]

theorem Inv.openConn (h : c.Inv) (hok : c.InOrder .openConn) (hs : c.step .openConn = some c') :
    c'.Inv := by
  obtain ⟨hr, hm, he, hb, hf, hn, hw, hfound, hc, hsorted⟩ := h
  simp only [step] at hs
  split at hs <;> cases hs
  cases hearly : c.earlyMsg <;> constructor <;> grind [bound, InOrder]

theorem Inv.flush {w : Write} (h : c.Inv) (hs : c.step (.flush w) = some c') : c'.Inv := by
  obtain ⟨hr, hm, he, hb, hf, hn, hw, hfound, hc, hsorted⟩ := h
  simp only [step] at hs
  split at hs <;> cases hs
  next hmem =>
  -- the other early messages are for other containers
  have hold : ∀ w' ∈ c.flushing.erase w, w' ∈ c.flushing := fun _ => List.mem_of_mem_erase
  have hne : ∀ w' ∈ c.flushing.erase w, w'.container ≠ w.container := fun w' hw' heq =>
    (hn.of_map.mem_erase_iff.1 hw').1 (List.inj_on_of_nodup_map hn (hold w' hw') hmem heq)
  have hsub := hn.sublist ((List.erase_sublist (a := w)).map Write.container)
  constructor <;> grind [bound, List.pairwise_cons]

theorem Inv.step {a : Action} (h : c.Inv) (hok : c.InOrder a) (hs : c.step a = some c') :
    c'.Inv := by
  cases a with
  | receive => exact h.receive hs
  | put stored => exact h.put hs
  | write => exact h.write hok hs
  | openConn => exact h.openConn hok hs
  | flush w => exact h.flush hs
  | fail container =>
    obtain ⟨hr, hm, he, hb, hf, hn, hw, hfound, hc, hsorted⟩ := h
    cases hs
    split <;> constructor <;> grind [bound]
  | removeExpired =>
    obtain ⟨hr, hm, he, hb, hf, hn, hw, hfound, hc, hsorted⟩ := h
    cases hs
    constructor <;> grind [bound]

/-- No early message stays when a container is registered, and what is written to a container is
written in the order in which it was received. -/
theorem delivered (h : Reaches step InOrder {} c) : (c.conn.isSome → c.earlyMsg = none) ∧
      c.written.Pairwise fun w w' => w.container = w'.container → w'.msg < w.msg := by
  have hi : c.Inv := h.invariant (by constructor <;> simp) fun _ _ _ hi => hi.step
  exact ⟨hi.early, hi.sorted⟩

instance : DecidablePred c.InOrder := fun a => by
  cases a <;> unfold InOrder <;> infer_instance

theorem delivered_early : ∃ c, Reaches step InOrder {} c ∧ c.written = [⟨0, 1⟩, ⟨0, 0⟩] ∧
    c.earlyMsg = none := by
  have h : ∃ c, Reaches step InOrder {} c ∧ c.written = [⟨0, 1⟩, ⟨0, 0⟩] ∧ c.conn.isSome :=
    exists_reaches [.receive, .put true, .openConn, .flush ⟨0, 0⟩, .receive, .write] (by decide)
  obtain ⟨c, hr, hw, hc⟩ := h
  exact ⟨c, hr, hw, (delivered hr).1 hc⟩

/-- The connection is opened between the critical sections of the reader, and the message stays in
the buffer; in another run a later message is written before the early one. -/
theorem stranded : (∃ c, Reaches step (fun _ _ => True) {} c ∧ c.reader = .idle ∧
      c.flushing = [] ∧ c.conn = some 0 ∧ c.earlyMsg = some 0) ∧
    ∃ c, Reaches step (fun _ _ => True) {} c ∧ c.written = [⟨0, 0⟩, ⟨0, 1⟩] :=
  ⟨exists_reaches [.receive, .openConn, .put true] (by decide), exists_reaches [.receive, .put true,
    .openConn, .receive, .write, .flush ⟨0, 0⟩] (by decide)⟩

end Client

end Cloink.Relay.EarlyMessages
