import Nf10.Lib.AsyncFifo
import Nf10.Lib.Runs

/-!
# Nf10 — the receive queue of the interface cores

`rx_queue.v` of `nf10_10g_interface` and of `nf10_1g_interface`: MAC words go into a FIFO between
the two clocks, closed by a word without strobes, and come out as an AXI4-Stream; good/bad pulses go
through a second FIFO and come out as `err_tvalid` beside `tlast`. The two sources differ in the
width of a word, the FIFO primitive and nothing else, so there is one model over a `Port`: with one
lane `rx_data_valid == 8'hFF` and `rx_data_valid` are both "all lanes valid".

The FIFO primitives and `small_async_fifo` are `AsyncFifo`s (for the latter `InfoFifo` proves it):
`EMPTY`/`rempty` and the data outputs are what the read side sees, `ALMOSTFULL` and `wfull` are inputs
of a MAC edge. Edges of the two clocks at one instant sample the same old values; as a write is not
visible at once, such an instant is the MAC edge followed by the AXI edge.
-/

namespace Nf10.Hw

/-- The two interface cores. -/
inductive Port where
  | tenGig
  | oneGig
deriving DecidableEq, Repr

/-- Bytes in a word: 64 bits at 10G, 8 at 1G. -/
def Port.lanes : Port → Nat
  | .tenGig => 8
  | .oneGig => 1

theorem Port.lanes_pos (p : Port) : 0 < p.lanes := by
  cases p <;> decide

/-- A word with its strobes, as `rx_fifo` stores it. -/
structure Word (p : Port) where
  data : BitVec (8 * p.lanes)
  strb : BitVec p.lanes
deriving DecidableEq, Repr

/-- A word with every byte valid. -/
def Word.full {p : Port} (data : BitVec (8 * p.lanes)) : Word p :=
  ⟨data, BitVec.allOnes p.lanes⟩

/-- The word that closes a frame in the FIFO. -/
def Word.isEnd {p : Port} (w : Word p) : Bool :=
  w.strb == 0

/-- How many bytes of a word are valid. -/
def Word.validBytes {p : Port} (w : Word p) : Nat :=
  (List.range p.lanes).countP fun i => w.strb.getLsbD i

/-- A full word is not the one that closes a frame. -/
theorem Port.allOnes_ne_zero (p : Port) : BitVec.allOnes p.lanes ≠ 0 := by
  cases p <;> decide

@[simp] theorem Word.isEnd_full {p : Port} (data : BitVec (8 * p.lanes)) :
    (Word.full data).isEnd = false := by
  simp only [Word.isEnd, Word.full, beq_eq_false_iff_ne]
  exact p.allOnes_ne_zero

/-- `ALMOST_FULL_OFFSET` of both primitives. -/
def almostFullOffset : Nat := 0x080

/-- Words in `rx_fifo`: a `FIFO36_72`, or a `FIFO18` nine bits wide. -/
def Port.rxFifoDepth : Port → Nat
  | .tenGig => 512
  | .oneGig => 2048

/-! ## The two state machines

The module has a state machine on each clock. The one of the MAC decides at the first word whether a
frame is taken, and the one of the AXI side holds a word back until it has seen whether another one
follows. -/

/-- `state`: between frames, inside one that is taken, inside one that is dropped. -/
inductive RxState where
  | idle
  | waitForEop
  | drop
deriving DecidableEq, Repr

/-- `err_state`: inside a packet, at its end waiting for the verdict, between packets. -/
inductive ErrState where
  | errIdle
  | errWait
  | errBubble
deriving DecidableEq, Repr

/-- The write side: `state_next` and `fifo_wr_en`. -/
def rxWrite {n : Nat} (state : RxState) (rxDataValid : BitVec n) (fifoAlmostFull : Bool) :
    RxState × Bool :=
  match state with
  | .idle =>
    if rxDataValid = BitVec.allOnes n then
      if !fifoAlmostFull then (.waitForEop, true) else (.drop, false)
    else (.idle, false)
  | .waitForEop => if rxDataValid = 0 then (.idle, true) else (.waitForEop, true)
  | .drop => if rxDataValid ≠ BitVec.allOnes n then (.idle, false) else (.drop, false)

/-- `WAIT_FOR_EOP` is entered at the first word of an admitted frame and kept while there
is data. -/
theorem rxWrite_eq_waitForEop {n : Nat} {state : RxState} {valid : BitVec n} {almostFull : Bool}
    (h : (rxWrite state valid almostFull).1 = .waitForEop) :
    (state = .idle ∧ valid = BitVec.allOnes n ∧ almostFull = false)
      ∨ (state = .waitForEop ∧ valid ≠ 0) := by
  cases state with
  | idle =>
    simp only [rxWrite] at h
    split at h
    · next hvalid =>
      cases almostFull with
      | false => exact Or.inl ⟨rfl, hvalid, rfl⟩
      | true => cases h
    · cases h
  | waitForEop =>
    simp only [rxWrite] at h
    split at h
    · cases h
    · next hvalid => exact Or.inr ⟨rfl, hvalid⟩
  | drop =>
    simp only [rxWrite] at h
    split at h <;> cases h

/-- The combinational outputs of the AXI side, with `err_state_next`. -/
structure RxAxi where
  errStateNext : ErrState
  rxFifoRdEn : Bool
  infoFifoRdEn : Bool
  tvalid : Bool
  tlast : Bool
  errTvalid : Bool
deriving DecidableEq, Repr

/-- The read side. -/
def rxAxi {n : Nat} (errState : ErrState) (fifoEmpty : Bool) (tstrbDelay : BitVec n)
    (infoFifoEmpty rxBadFrameFifo tready : Bool) : RxAxi :=
  match errState with
  | .errIdle =>
    if tstrbDelay = 0 ∧ !fifoEmpty then ⟨.errWait, false, false, false, false, false⟩
    else ⟨.errIdle, !fifoEmpty && tready, false, !fifoEmpty, false, false⟩
  | .errWait =>
    if !infoFifoEmpty then
      if tready then ⟨.errBubble, true, true, true, true, rxBadFrameFifo⟩
      else ⟨.errWait, false, false, true, true, false⟩
    else ⟨.errWait, false, false, false, false, false⟩
  | .errBubble =>
    if !fifoEmpty then ⟨.errIdle, true, false, false, false, false⟩
    else ⟨.errBubble, false, false, false, false, false⟩

/-! ## The module

The registers and the two FIFOs. An edge of either clock computes the next state from the old one,
and the outputs of the AXI side are those just before its edge. -/

/-- The state of the module. -/
structure RxQueue (p : Port) where
  state : RxState
  errState : ErrState
  -- The registers `tdata` and `tstrb`.
  axis : Word p
  rxFifo : AsyncFifo (Word p)
  rxInfoFifo : AsyncFifo Bool
deriving DecidableEq

/-- What it sees at an edge of the MAC clock: the word, the two pulses, and the flags of its
FIFOs. -/
structure RxMacIn (p : Port) where
  rx : Word p
  rxGoodFrame : Bool
  rxBadFrame : Bool
  fifoAlmostFull : Bool
  infoWfull : Bool

/-- What it sees at an edge of the AXI clock; `staleDo` and `staleBad` are on the data outputs of
FIFOs that are empty. -/
structure RxAxiIn (p : Port) where
  tready : Bool
  staleDo : Word p
  staleBad : Bool

namespace RxQueue

variable {p : Port}

/-- After reset; `tdata` and `tstrb` have no reset value. -/
def reset (axis : Word p) : RxQueue p :=
  ⟨.idle, .errBubble, axis, .empty, .empty⟩

/-- `FULL` of the data FIFO, which drops what is written to it. -/
def fifoFull (q : RxQueue p) : Bool :=
  decide (p.rxFifoDepth ≤ q.rxFifo.count)

/-- An edge of the MAC clock. The verdicts are written whatever the state machine does. -/
def macEdge (q : RxQueue p) (i : RxMacIn p) : RxQueue p :=
  let w := rxWrite q.state i.rx.strb i.fifoAlmostFull
  { q with
    state := w.1
    rxFifo := if w.2 then q.rxFifo.write q.fifoFull i.rx else q.rxFifo
    rxInfoFifo :=
      if i.rxGoodFrame || i.rxBadFrame then q.rxInfoFifo.write i.infoWfull i.rxBadFrame
      else q.rxInfoFifo }

/-- The outputs before an edge of the AXI clock. -/
def axiOut (q : RxQueue p) (i : RxAxiIn p) : RxAxi :=
  rxAxi q.errState q.rxFifo.seen.isEmpty (q.rxFifo.front i.staleDo).strb
    q.rxInfoFifo.seen.isEmpty (q.rxInfoFifo.front i.staleBad) i.tready

/-- An edge of the AXI clock. -/
def axiEdge (q : RxQueue p) (i : RxAxiIn p) : RxQueue p :=
  let o := q.axiOut i
  { q with
    errState := o.errStateNext
    axis := if o.rxFifoRdEn then q.rxFifo.front i.staleDo else q.axis
    rxFifo := if o.rxFifoRdEn then q.rxFifo.read else q.rxFifo
    rxInfoFifo := if o.infoFifoRdEn then q.rxInfoFifo.read else q.rxInfoFifo }

/-! What an AXI edge does, by `err_state` and by what the FIFOs show. `stall` leaves everything as
it is, `load` reads the next word into the AXI registers. -/

/-- The edge at which the next word goes into the AXI registers. -/
def load (q : RxQueue p) (w : Word p) (errState : ErrState) : RxQueue p :=
  { q with errState := errState, axis := w, rxFifo := q.rxFifo.read }

section

variable {q : RxQueue p} {x : Word p} {rest : List (Word p)} (i : RxAxiIn p)

/-- Between packets, with nothing in the FIFO: nothing happens. -/
theorem axi_bubble_empty (he : q.errState = .errBubble) (hs : q.rxFifo.seen = []) :
    q.axiOut i = ⟨.errBubble, false, false, false, false, false⟩ ∧ q.axiEdge i = q := by
  have hout : q.axiOut i = ⟨.errBubble, false, false, false, false, false⟩ := by
    simp [axiOut, rxAxi, he, hs]
  refine ⟨hout, ?_⟩
  simp [axiEdge, hout, ← he]

/-- Between packets, the first word of the next one is loaded. -/
theorem axi_bubble_load (he : q.errState = .errBubble) (hs : q.rxFifo.seen = x :: rest) :
    q.axiOut i = ⟨.errIdle, true, false, false, false, false⟩
      ∧ q.axiEdge i = q.load x .errIdle := by
  have hout : q.axiOut i = ⟨.errIdle, true, false, false, false, false⟩ := by
    simp [axiOut, rxAxi, he, hs]
  refine ⟨hout, ?_⟩
  simp [axiEdge, hout, load, AsyncFifo.front, hs]

/-- Inside a packet, with nothing in the FIFO: the word in the registers waits. -/
theorem axi_idle_empty (he : q.errState = .errIdle) (hs : q.rxFifo.seen = []) :
    q.axiOut i = ⟨.errIdle, false, false, false, false, false⟩ ∧ q.axiEdge i = q := by
  have hout : q.axiOut i = ⟨.errIdle, false, false, false, false, false⟩ := by
    simp [axiOut, rxAxi, he, hs]
  refine ⟨hout, ?_⟩
  simp [axiEdge, hout, ← he]

/-- Inside a packet, the word that closes it is seen, so the word in the registers is the last. -/
theorem axi_idle_end (he : q.errState = .errIdle) (hs : q.rxFifo.seen = x :: rest)
    (hx : x.isEnd = true) :
    q.axiOut i = ⟨.errWait, false, false, false, false, false⟩
      ∧ q.axiEdge i = { q with errState := .errWait } := by
  have hstrb : x.strb = 0 := by simpa [Word.isEnd] using hx
  have hout : q.axiOut i = ⟨.errWait, false, false, false, false, false⟩ := by
    simp [axiOut, rxAxi, he, hs, AsyncFifo.front, hstrb]
  refine ⟨hout, ?_⟩
  simp [axiEdge, hout]

/-- Inside a packet, another word follows: the one in the registers is on offer. -/
theorem axi_idle_word (he : q.errState = .errIdle) (hs : q.rxFifo.seen = x :: rest)
    (hx : x.isEnd = false) :
    q.axiOut i = ⟨.errIdle, i.tready, false, true, false, false⟩
      ∧ q.axiEdge i = if i.tready then q.load x .errIdle else q := by
  have hstrb : x.strb ≠ 0 := by simpa [Word.isEnd] using hx
  have hout : q.axiOut i = ⟨.errIdle, i.tready, false, true, false, false⟩ := by
    simpa [axiOut, rxAxi, he, hs, AsyncFifo.front] using hstrb
  refine ⟨hout, ?_⟩
  cases hr : i.tready with
  | false => simp [axiEdge, hout, hr, ← he]
  | true => simp [axiEdge, hout, hr, load, AsyncFifo.front, hs]

/-- At the end of a packet, without a verdict: nothing is on offer. -/
theorem axi_wait_empty (he : q.errState = .errWait) (hs : q.rxInfoFifo.seen = []) :
    q.axiOut i = ⟨.errWait, false, false, false, false, false⟩ ∧ q.axiEdge i = q := by
  have hout : q.axiOut i = ⟨.errWait, false, false, false, false, false⟩ := by
    simp [axiOut, rxAxi, he, hs]
  refine ⟨hout, ?_⟩
  simp [axiEdge, hout, ← he]

/-- At the end of a packet, the last word is on offer and not taken. -/
theorem axi_wait_stall {bad : Bool} {bads : List Bool} (he : q.errState = .errWait)
    (hs : q.rxInfoFifo.seen = bad :: bads) (hr : i.tready = false) :
    q.axiOut i = ⟨.errWait, false, false, true, true, false⟩ ∧ q.axiEdge i = q := by
  have hout : q.axiOut i = ⟨.errWait, false, false, true, true, false⟩ := by
    simp [axiOut, rxAxi, he, hs, hr]
  refine ⟨hout, ?_⟩
  simp [axiEdge, hout, ← he]

/-- At the end of a packet, the last word is taken, with the verdict beside it. -/
theorem axi_wait_last {bad : Bool} {bads : List Bool} (he : q.errState = .errWait)
    (hs : q.rxInfoFifo.seen = bad :: bads) (hf : q.rxFifo.seen = x :: rest)
    (hr : i.tready = true) :
    q.axiOut i = ⟨.errBubble, true, true, true, true, bad⟩
      ∧ q.axiEdge i = { q.load x .errBubble with rxInfoFifo := q.rxInfoFifo.read } := by
  have hout : q.axiOut i = ⟨.errBubble, true, true, true, true, bad⟩ := by
    simp [axiOut, rxAxi, he, hs, hr, AsyncFifo.front]
  refine ⟨hout, ?_⟩
  simp [axiEdge, hout, load, AsyncFifo.front, hf]

end

end RxQueue

/-! ## The MAC in front of it

The MAC is not part of the repository, and it is not arbitrary: a frame comes without a break, all
of its words but the last are full, and its verdict follows it. `Mac` says this much and leaves the
rest open. -/

/-- A frame as the MAC puts it out: the first word and every word but the last fully valid, the last
with any lane valid; and the verdict that follows it. -/
structure MacFrame (p : Port) where
  first : BitVec (8 * p.lanes)
  rest : List (Word p)
  valid : ∀ w ∈ rest, w.strb ≠ 0
  full : ∀ w ∈ rest.dropLast, w.strb = BitVec.allOnes p.lanes
  bad : Bool

/-- The words of a frame. -/
def MacFrame.words {p : Port} (f : MacFrame p) : List (Word p) :=
  Word.full f.first :: f.rest

/-- The MAC between two edges: the words of the frame on the wire still to come, whether a cycle
without data has passed since the last one, and the verdicts it owes, oldest first. -/
structure Mac (p : Port) where
  current : List (Word p)
  spaced : Bool
  owed : List Bool

namespace Mac

variable {p : Port}

/-- The MAC after reset has no frame on the wire and owes no verdict. -/
def reset : Mac p := ⟨[], true, []⟩

/-- The word of the next cycle, and the frame it begins if it begins one. A frame runs through
without a break, and a new one begins only after a cycle without data. -/
def next (m : Mac p) (offer : Option (MacFrame p)) (idleData : BitVec (8 * p.lanes)) :
    Word p × Mac p × Option (MacFrame p) :=
  match m.current, m.spaced, offer with
  | w :: rest, _, _ => (w, { m with current := rest, spaced := false }, none)
  | [], true, some f =>
    (Word.full f.first, ⟨f.rest, false, m.owed ++ [f.bad]⟩, some f)
  | [], _, _ => (⟨idleData, 0⟩, { m with spaced := true }, none)

/-- **One cycle of the MAC.** It goes on with the frame on the wire, begins a new one, or
is idle. -/
theorem next_cases (m : Mac p) (offer : Option (MacFrame p)) (idleData : BitVec (8 * p.lanes)) :
    (∃ w rest, m.current = w :: rest
      ∧ m.next offer idleData = (w, { m with current := rest, spaced := false }, none))
    ∨ (∃ f, m.current = [] ∧ m.spaced = true ∧ offer = some f
      ∧ m.next offer idleData = (Word.full f.first, ⟨f.rest, false, m.owed ++ [f.bad]⟩, some f))
    ∨ (m.current = []
      ∧ m.next offer idleData = (⟨idleData, 0⟩, { m with spaced := true }, none)) := by
  obtain ⟨current, spaced, owed⟩ := m
  cases current with
  | cons w rest => exact Or.inl ⟨w, rest, rfl, rfl⟩
  | nil =>
    cases spaced with
    | false => exact Or.inr (Or.inr ⟨rfl, rfl⟩)
    | true =>
      cases offer with
      | none => exact Or.inr (Or.inr ⟨rfl, rfl⟩)
      | some f => exact Or.inr (Or.inl ⟨f, rfl, rfl, rfl, rfl⟩)

/-- The verdicts that may be given: those of frames that have ended. -/
def due (m : Mac p) : List Bool :=
  if m.current = [] then m.owed else m.owed.dropLast

end Mac

/-! ## The bench

The queue with what is connected to it, and with a record of what went in and what came out. The
properties are about these records. -/

/-- The queue between its MAC and its AXI master, with the histories of both sides. -/
structure RxBench (p : Port) where
  queue : RxQueue p
  mac : Mac p
  -- Frames that found the queue in `IDLE` with `almost_full` low, in order.
  admitted : List (MacFrame p)
  -- Frames that were not admitted.
  dropped : List (MacFrame p)
  -- Words handshaken on the AXI side, with `tlast`.
  beats : List (Word p × Bool)
  -- `err_tvalid` at the handshakes with `tlast`.
  verdicts : List Bool

/-- A cycle of the MAC clock: the frame to begin if one may begin, the data lines when idle, whether
a verdict that is due is given, and the flags of the FIFOs. -/
structure MacCycle (p : Port) where
  offer : Option (MacFrame p)
  idleData : BitVec (8 * p.lanes)
  pulse : Bool
  fifoAlmostFull : Bool
  infoWfull : Bool

/-- An edge of one of the clocks, or an entry of one of the FIFOs becoming visible to the read
side. -/
inductive RxStep (p : Port) where
  | mac (c : MacCycle p)
  | axi (i : RxAxiIn p)
  | syncData
  | syncInfo

namespace RxBench

variable {p : Port}

/-- After reset, with nothing on record. -/
def reset (axis : Word p) : RxBench p :=
  ⟨RxQueue.reset axis, Mac.reset, [], [], [], []⟩

/-- The verdict given in the cycle `c`. -/
def verdict? (s : RxBench p) (c : MacCycle p) : Option Bool :=
  if c.pulse then s.mac.due.head? else none

/-- The pins of the MAC side in the cycle `c`. -/
def macIn (s : RxBench p) (c : MacCycle p) : RxMacIn p where
  rx := (s.mac.next c.offer c.idleData).1
  rxGoodFrame := s.verdict? c == some false
  rxBadFrame := s.verdict? c == some true
  fifoAlmostFull := c.fifoAlmostFull
  infoWfull := c.infoWfull

/-- A cycle of the MAC clock. -/
def macStep (s : RxBench p) (c : MacCycle p) : RxBench p :=
  let n := s.mac.next c.offer c.idleData
  let admits := s.queue.state = .idle ∧ c.fifoAlmostFull = false
  let owed := if (s.verdict? c).isSome then n.2.1.owed.tail else n.2.1.owed
  { s with
    queue := s.queue.macEdge (s.macIn c)
    mac := { n.2.1 with owed := owed }
    admitted := s.admitted ++ if admits then n.2.2.toList else []
    dropped := s.dropped ++ if admits then [] else n.2.2.toList }

/-- An edge of the AXI clock, with the handshake on record. -/
def axiStep (s : RxBench p) (i : RxAxiIn p) : RxBench p :=
  let o := s.queue.axiOut i
  { s with
    queue := s.queue.axiEdge i
    beats := s.beats ++ if o.tvalid && i.tready then [(s.queue.axis, o.tlast)] else []
    verdicts := s.verdicts ++ if o.tvalid && i.tready && o.tlast then [o.errTvalid] else [] }

/-- One step of the bench. -/
def step (s : RxBench p) : RxStep p → RxBench p
  | .mac c => s.macStep c
  | .axi i => s.axiStep i
  | .syncData => { s with queue := { s.queue with rxFifo := s.queue.rxFifo.sync } }
  | .syncInfo => { s with queue := { s.queue with rxInfoFifo := s.queue.rxInfoFifo.sync } }

/-- `fifo_wr_en` in the cycle `c`. -/
def writes (s : RxBench p) (c : MacCycle p) : Bool :=
  (rxWrite s.queue.state (s.macIn c).rx.strb c.fifoAlmostFull).2

theorem macStep_state (s : RxBench p) (c : MacCycle p) :
    (s.macStep c).queue.state
      = (rxWrite s.queue.state (s.mac.next c.offer c.idleData).1.strb c.fifoAlmostFull).1 := rfl

theorem macStep_rxFifo (s : RxBench p) (c : MacCycle p) :
    (s.macStep c).queue.rxFifo
      = if s.writes c then s.queue.rxFifo.write s.queue.fifoFull (s.macIn c).rx
        else s.queue.rxFifo := rfl

end RxBench

/-- The data FIFO is not written while full. -/
def RxFits {p : Port} (s : RxBench p) : RxStep p → Prop
  | .mac c => s.writes c → s.queue.rxFifo.count < p.rxFifoDepth
  | _ => True

instance {p : Port} (s : RxBench p) : ∀ e, Decidable (RxFits s e)
  | .mac c => inferInstanceAs (Decidable (s.writes c → s.queue.rxFifo.count < p.rxFifoDepth))
  | .axi _ => isTrue trivial
  | .syncData => isTrue trivial
  | .syncInfo => isTrue trivial

/-- `ALMOSTFULL` of the data FIFO is high exactly when at most `ALMOST_FULL_OFFSET` places are
free. -/
def RxFlagsExact {p : Port} (s : RxBench p) : RxStep p → Prop
  | .mac c =>
    c.fifoAlmostFull = decide (p.rxFifoDepth ≤ s.queue.rxFifo.count + almostFullOffset)
  | _ => True

instance {p : Port} (s : RxBench p) : ∀ e, Decidable (RxFlagsExact s e)
  | .mac c => inferInstanceAs (Decidable (c.fifoAlmostFull
      = decide (p.rxFifoDepth ≤ s.queue.rxFifo.count + almostFullOffset)))
  | .axi _ => isTrue trivial
  | .syncData => isTrue trivial
  | .syncInfo => isTrue trivial

end Nf10.Hw
