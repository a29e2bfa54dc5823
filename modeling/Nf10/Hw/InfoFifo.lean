import Nf10.Hw.AxisHold
import Nf10.Hw.SmallAsyncFifo
import Nf10.Hw.TxQueue

/-!
# Nf10 — the queues with their info FIFOs

`rx_queue.v` and `tx_queue.v` as they are wired: the info FIFO is an instance of `small_async_fifo`
with nine address bits and one data bit, clocked with the rest of the queue. `RxQueue` and `TxQueue`
have an `AsyncFifo` in its place, whose `wfull`, stale output and arrivals are inputs. Here these
inputs are what the instance computes, and the queues above turn out to be what one sees of the wired
ones:

* **`rxCore_step`**, **`txCore_step`** — an instant of the wired queue, with an edge of either clock or
  of both, is a few steps of the queue above; its outputs are the outputs of these steps;
* **`rxCore_run`**, **`txCore_run`** — so every run of a wired queue from reset is a run of the queue
  above.

What is proved of the queues for every behaviour of their info FIFO therefore holds with the FIFO they
have.
-/

namespace Nf10.Hw

open Runs

/-- The instances of `small_async_fifo` in the queues: `ASIZE` 9, `DSIZE` 1. -/
abbrev InfoFifo := FifoSys 9 1

namespace InfoFifo

/-- The write of an edge, by its pins: `winc` is ignored while `wfull` is high. -/
theorem write_pins {α : Type*} (f : AsyncFifo α) (s : InfoFifo) (e : FifoEdge 1) (x : α) :
    f.write (!s.fifo.writes e) x
      = if e.wclk && e.winc then f.write s.fifo.wptrFull.wfull x else f := by
  rw [SmallAsyncFifo.writes]
  cases e.wclk && e.winc with
  | false => rfl
  | true => simp

end InfoFifo

/-! ## The receive queue

The MAC writes the verdicts, one bit each: `wdata` is `rx_bad_frame`. The AXI side reads one with the
last word of a frame. -/

/-- The inputs at an edge of the MAC clock; unlike `RxMacIn` it has no `wfull`, which is inside. -/
structure RxMacPins (p : Port) where
  rx : Word p
  rxGoodFrame : Bool
  rxBadFrame : Bool
  fifoAlmostFull : Bool

/-- The inputs at an edge of the AXI clock. -/
structure RxAxiPins (p : Port) where
  tready : Bool
  staleDo : Word p

/-- An instant at which something happens: one of the clocks has an edge or both have, or a word of
the data FIFO, which is a primitive, becomes visible. -/
inductive RxInstant (p : Port) where
  | clocks (mac : Option (RxMacPins p)) (axi : Option (RxAxiPins p))
  | syncData

/-- `rx_queue` with its instance of `small_async_fifo`. -/
structure RxCore (p : Port) where
  state : RxState
  errState : ErrState
  axis : Word p
  rxFifo : AsyncFifo (Word p)
  rxInfoFifo : InfoFifo

/-- A verdict in the info FIFO: its one bit is `rx_bad_frame`. -/
def verdictOf (data : BitVec 1) : Bool :=
  data == 1#1

@[simp] theorem verdictOf_ofBool (bad : Bool) : verdictOf (BitVec.ofBool bad) = bad := by
  cases bad <;> rfl

namespace RxCore

variable {p : Port}

/-- After reset, with any memory in the info FIFO. -/
def reset (axis : Word p) (mem : BitVec 9 → BitVec 1) : RxCore p :=
  ⟨.idle, .errBubble, axis, .empty, .reset mem⟩

/-- The AXI side's outputs, from `rempty` and `rdata` as they are registered. -/
def axiOut (c : RxCore p) (a : RxAxiPins p) : RxAxi :=
  rxAxi c.errState c.rxFifo.seen.isEmpty (c.rxFifo.front a.staleDo).strb
    c.rxInfoFifo.fifo.rptrEmpty.rempty (verdictOf c.rxInfoFifo.fifo.rdata) a.tready

/-- What the instant is to the info FIFO. -/
def infoEdge (c : RxCore p) (mac : Option (RxMacPins p)) (axi : Option (RxAxiPins p)) :
    FifoEdge 1 where
  wclk := mac.isSome
  rclk := axi.isSome
  winc := mac.any fun m => m.rxGoodFrame || m.rxBadFrame
  rinc := axi.any fun a => (c.axiOut a).infoFifoRdEn
  wdata := BitVec.ofBool (mac.any fun m => m.rxBadFrame)

/-- The registers of the MAC side and the write port of the data FIFO. -/
def clockMac (c : RxCore p) (m : RxMacPins p) : RxCore p :=
  let w := rxWrite c.state m.rx.strb m.fifoAlmostFull
  { c with
    state := w.1
    rxFifo :=
      if w.2 then c.rxFifo.write (decide (p.rxFifoDepth ≤ c.rxFifo.count)) m.rx else c.rxFifo }

/-- The registers of the AXI side and the read port of the data FIFO. -/
def clockAxi (c : RxCore p) (a : RxAxiPins p) : RxCore p :=
  let o := c.axiOut a
  { c with
    errState := o.errStateNext
    axis := if o.rxFifoRdEn then c.rxFifo.front a.staleDo else c.axis
    rxFifo := if o.rxFifoRdEn then c.rxFifo.read else c.rxFifo }

/-- An instant. Both sides and the info FIFO compute from what was there before it. -/
def step (sizes : FifoSizes) (c : RxCore p) : RxInstant p → RxCore p
  | .clocks mac axi =>
    let clocked := axi.elim id (fun a c => c.clockAxi a) (mac.elim c c.clockMac)
    { clocked with rxInfoFifo := c.rxInfoFifo.step sizes (c.infoEdge mac axi) }
  | .syncData => { c with rxFifo := c.rxFifo.sync }

/-- What is seen of the wired queue. -/
def queue (c : RxCore p) : RxQueue p where
  state := c.state
  errState := c.errState
  axis := c.axis
  rxFifo := c.rxFifo
  rxInfoFifo := c.rxInfoFifo.view.map verdictOf

/-- The inputs the queue above has at an edge: those of the pins, and what the info FIFO shows. -/
def macIn (c : RxCore p) (m : RxMacPins p) : RxMacIn p :=
  ⟨m.rx, m.rxGoodFrame, m.rxBadFrame, m.fifoAlmostFull, c.rxInfoFifo.fifo.wptrFull.wfull⟩

/-- The inputs of the AXI side, with what is on the data output of the info FIFO. -/
def axiIn (c : RxCore p) (a : RxAxiPins p) : RxAxiIn p :=
  ⟨a.tready, a.staleDo, verdictOf c.rxInfoFifo.fifo.rdata⟩

/-- The steps an instant is: the write, the read, and the verdicts that arrive. -/
def edges (c : RxCore p) : RxInstant p → List (RxEvent p)
  | .clocks mac axi =>
    (mac.map fun m => .mac (c.macIn m)).toList ++ (axi.map fun a => .axi (c.axiIn a)).toList
      ++ List.replicate (c.rxInfoFifo.arrivals (c.infoEdge mac axi)) .syncInfo
  | .syncData => [.syncData]

end RxCore

section RxCore

variable {p : Port} {c : RxCore p}

theorem RxQueue.run_replicate_syncInfo (q : RxQueue p) (k : Nat) :
    run RxQueue.step q (List.replicate k .syncInfo)
      = { q with rxInfoFifo := AsyncFifo.sync^[k] q.rxInfoFifo } := by
  induction k generalizing q with
  | zero => rfl
  | succ k ih =>
    rw [List.replicate_succ, run_cons, ih, Function.iterate_succ_apply]
    rfl

/-- A MAC edge is not visible to the AXI side of the same instant. -/
theorem RxQueue.axiOut_macEdge (q : RxQueue p) (i : RxMacIn p) (j : RxAxiIn p) :
    (q.macEdge i).axiOut j = q.axiOut j := by
  have hdata : (q.macEdge i).rxFifo.seen = q.rxFifo.seen := by
    simp only [RxQueue.macEdge]
    split <;> simp
  have hinfo : (q.macEdge i).rxInfoFifo.seen = q.rxInfoFifo.seen := by
    simp only [RxQueue.macEdge]
    split <;> simp
  simp only [RxQueue.axiOut, AsyncFifo.front, hdata, hinfo]
  rfl

/-- The outputs are those of the queue above. -/
theorem RxCore.axiOut_queue (h : FifoInv c.rxInfoFifo) (a : RxAxiPins p) :
    c.queue.axiOut (c.axiIn a) = c.axiOut a := by
  have hfront : (c.rxInfoFifo.view.map verdictOf).front (verdictOf c.rxInfoFifo.fifo.rdata)
      = verdictOf c.rxInfoFifo.fifo.rdata := by
    rw [AsyncFifo.front_map, front_view h]
  simp only [RxQueue.axiOut, RxCore.queue, RxCore.axiIn, AsyncFifo.isEmpty_seen_map, isEmpty_view h,
    hfront]
  rfl

/-- In the wired queue, too, a MAC edge is not visible to the AXI side of its instant. -/
theorem RxCore.axiOut_clockMac (m : RxMacPins p) (a : RxAxiPins p) :
    (c.clockMac m).axiOut a = c.axiOut a := by
  have hseen : (c.clockMac m).rxFifo.seen = c.rxFifo.seen := by
    simp only [RxCore.clockMac]
    split <;> simp
  simp only [RxCore.axiOut, AsyncFifo.front, hseen]
  rfl

/-- The info FIFO after an instant, as the queue above has it. -/
theorem RxCore.view_infoEdge (h : FifoInv c.rxInfoFifo) (sizes : FifoSizes)
    (mac : Option (RxMacPins p)) (axi : Option (RxAxiPins p)) :
    (c.rxInfoFifo.step sizes (c.infoEdge mac axi)).view.map verdictOf
      = AsyncFifo.sync^[c.rxInfoFifo.arrivals (c.infoEdge mac axi)]
          (run RxQueue.step c.queue ((mac.map fun m => .mac (c.macIn m)).toList
            ++ (axi.map fun a => .axi (c.axiIn a)).toList)).rxInfoFifo := by
  have hmac : ∀ m, (c.queue.macEdge (c.macIn m)).axiOut = c.queue.axiOut := fun m =>
    funext fun j => RxQueue.axiOut_macEdge c.queue (c.macIn m) j
  rw [view_step h, AsyncFifo.map_sync_iterate, InfoFifo.write_pins]
  congr 1
  cases mac with
  | none =>
    cases axi with
    | none => rfl
    | some a =>
      simp only [infoEdge, Option.map_none, Option.toList_none, List.nil_append, Option.map_some,
        Option.toList_some, run_cons, run_nil, RxQueue.step, RxQueue.axiEdge, axiOut_queue h,
        Option.isSome, Option.any, Bool.true_and, Bool.false_and, Bool.false_eq_true, if_false,
        apply_ite (AsyncFifo.map verdictOf), AsyncFifo.map_read]
      rfl
  | some m =>
    cases axi with
    | none =>
      simp only [infoEdge, Option.map_none, Option.toList_none, List.append_nil, Option.map_some,
        Option.toList_some, run_cons, run_nil, RxQueue.step, RxQueue.macEdge,
        Option.isSome, Option.any, Bool.true_and, Bool.false_and, Bool.false_eq_true, if_false,
        apply_ite (AsyncFifo.map verdictOf), AsyncFifo.map_write, verdictOf_ofBool]
      rfl
    | some a =>
      simp only [infoEdge, Option.map_some, Option.toList_some, List.singleton_append, run_cons,
        run_nil, RxQueue.step, RxQueue.axiEdge, hmac, axiOut_queue h, Option.isSome, Option.any,
        Bool.true_and, apply_ite (AsyncFifo.map verdictOf), AsyncFifo.map_read,
        AsyncFifo.map_write, verdictOf_ofBool]
      rfl

/-- **An instant of the wired queue** is a few steps of the queue above. The registers follow by
running both; the info FIFO is `view_infoEdge`. -/
theorem rxCore_step (h : FifoInv c.rxInfoFifo) (sizes : FifoSizes) (e : RxInstant p) :
    (c.step sizes e).queue = run RxQueue.step c.queue (c.edges e) := by
  cases e with
  | syncData => rfl
  | clocks mac axi =>
    rw [RxCore.edges, run_append, RxQueue.run_replicate_syncInfo, ← RxCore.view_infoEdge h sizes]
    cases mac with
    | none =>
      cases axi with
      | none => rfl
      | some a =>
        simp only [Option.map_none, Option.toList_none, List.nil_append, Option.map_some,
          Option.toList_some, run_cons, run_nil, RxQueue.step, RxQueue.axiEdge,
          RxCore.axiOut_queue h]
        rfl
    | some m =>
      cases axi with
      | none => rfl
      | some a =>
        have hout : (c.queue.macEdge (c.macIn m)).axiOut (c.axiIn a) = (c.clockMac m).axiOut a := by
          rw [RxQueue.axiOut_macEdge, RxCore.axiOut_queue h, RxCore.axiOut_clockMac]
        simp only [Option.map_some, Option.toList_some, List.singleton_append, run_cons, run_nil,
          RxQueue.step, RxQueue.axiEdge, hout]
        rfl

/-- The invariant of the info FIFO is kept inside the queue. -/
theorem RxCore.fifoInv_step (sizes : FifoSizes) (e : RxInstant p) (h : FifoInv c.rxInfoFifo) :
    FifoInv (c.step sizes e).rxInfoFifo := by
  cases e with
  | syncData => exact h
  | clocks mac axi => exact Hw.fifoInv_step sizes (c.infoEdge mac axi) h

/-- **Every run of the wired queue is a run of `RxQueue`.** -/
theorem rxCore_run (sizes : FifoSizes) (axis : Word p) (mem : BitVec 9 → BitVec 1)
    (es : List (RxInstant p)) :
    ∃ edges, (run (RxCore.step sizes) (RxCore.reset axis mem) es).queue
      = run RxQueue.step (RxQueue.reset axis) edges :=
  run_simulates RxCore.queue (fun _ e => RxCore.fifoInv_step sizes e)
    (fun _ e h => rxCore_step h sizes e) (fifoInv_reset mem) es

end RxCore

/-! ## The transmit queue

The AXI side pushes an entry for a packet, the MAC side takes one to start a packet. `rdata` is not
connected and `wdata` is tied low: an entry says no more than that it is there. -/

/-- The inputs at an edge of the AXI clock; unlike `TxAxiIn` it has no `wfull`. -/
structure TxAxiPins (p : Port) where
  beat : TxBeat p
  tvalid : Bool
  fifoAlmostFull : Bool

/-- The instants of the transmit queue, like `RxInstant`. -/
inductive TxInstant (p : Port) where
  | clocks (axi : Option (TxAxiPins p)) (mac : Option (TxMacIn p))
  | syncData

/-- `tx_queue` with its instance of `small_async_fifo`. -/
structure TxCore (p : Port) where
  state : TxState
  infoFifoWrEn : Bool
  eopAxiDelay : Bool
  txFifo : AsyncFifo (TxEntry p)
  txInfoFifo : InfoFifo

/-- A step of `TxQueue`, like `RxEvent`. -/
inductive TxEvent (p : Port) where
  | axi (i : TxAxiIn p)
  | mac (i : TxMacIn p)
  | syncData
  | syncInfo

/-- One step of the transmit queue. -/
def TxQueue.step {p : Port} (q : TxQueue p) : TxEvent p → TxQueue p
  | .axi i => q.axiEdge i
  | .mac i => q.macEdge i
  | .syncData => { q with txFifo := q.txFifo.sync }
  | .syncInfo => { q with txInfoFifo := q.txInfoFifo.sync }

namespace TxCore

variable {p : Port}

/-- After reset, with any memory in the info FIFO. -/
def reset (mem : BitVec 9 → BitVec 1) : TxCore p :=
  ⟨.idle, false, false, .empty, .reset mem⟩

/-- What is seen of the wired queue. -/
def queue (c : TxCore p) : TxQueue p where
  state := c.state
  infoFifoWrEn := c.infoFifoWrEn
  eopAxiDelay := c.eopAxiDelay
  txFifo := c.txFifo
  txInfoFifo := c.txInfoFifo.view.map fun _ => ()

/-- The inputs the queue above has at an edge of the AXI clock. -/
def axiIn (c : TxCore p) (a : TxAxiPins p) : TxAxiIn p :=
  ⟨a.beat, a.tvalid, a.fifoAlmostFull, c.txInfoFifo.fifo.wptrFull.wfull⟩

/-- The MAC side's outputs, from `rempty` as it is registered. -/
def macOut (c : TxCore p) (i : TxMacIn p) : TxMac p :=
  txMac p c.state c.txInfoFifo.fifo.rptrEmpty.rempty i.txAck (c.txFifo.front i.stale).eop
    (c.txFifo.front i.stale).out.strb

/-- What the instant is to the info FIFO. -/
def infoEdge (c : TxCore p) (axi : Option (TxAxiPins p)) (mac : Option (TxMacIn p)) :
    FifoEdge 1 where
  wclk := axi.isSome
  rclk := mac.isSome
  winc := axi.any fun a => c.queue.winc (c.axiIn a)
  rinc := mac.any fun i => (c.macOut i).infoFifoRdEn
  wdata := 0

/-- The registers of the AXI side and the write port of the data FIFO, which have no part in the info
FIFO: they are clocked as in `TxQueue.axiEdge`. -/
def clockAxi (c : TxCore p) (a : TxAxiPins p) : TxCore p :=
  let i := c.axiIn a
  { c with
    infoFifoWrEn := c.queue.infoFifoWrEnNext i
    eopAxiDelay := i.eopAxi
    txFifo := if i.wrEn then c.txFifo.write c.queue.fifoFull i.entry else c.txFifo }

/-- The registers of the MAC side and the read port of the data FIFO. -/
def clockMac (c : TxCore p) (i : TxMacIn p) : TxCore p :=
  let o := c.macOut i
  { c with
    state := o.stateNext
    txFifo := if o.fifoRdEn then c.txFifo.read else c.txFifo }

/-- An instant of the transmit queue. -/
def step (sizes : FifoSizes) (c : TxCore p) : TxInstant p → TxCore p
  | .clocks axi mac =>
    let clocked := mac.elim id (fun i c => c.clockMac i) (axi.elim c c.clockAxi)
    { clocked with txInfoFifo := c.txInfoFifo.step sizes (c.infoEdge axi mac) }
  | .syncData => { c with txFifo := c.txFifo.sync }

/-- The steps an instant is: the write, the read, and the entries that arrive. -/
def edges (c : TxCore p) : TxInstant p → List (TxEvent p)
  | .clocks axi mac =>
    (axi.map fun a => .axi (c.axiIn a)).toList ++ (mac.map fun i => .mac i).toList
      ++ List.replicate (c.txInfoFifo.arrivals (c.infoEdge axi mac)) .syncInfo
  | .syncData => [.syncData]

end TxCore

section TxCore

variable {p : Port} {c : TxCore p}

/-- Any number of info entries becoming visible. -/
theorem TxQueue.run_replicate_syncInfo (q : TxQueue p) (k : Nat) :
    run TxQueue.step q (List.replicate k .syncInfo)
      = { q with txInfoFifo := AsyncFifo.sync^[k] q.txInfoFifo } := by
  induction k generalizing q with
  | zero => rfl
  | succ k ih =>
    rw [List.replicate_succ, run_cons, ih, Function.iterate_succ_apply]
    rfl

/-- An AXI edge is not visible to the MAC side of the same instant. -/
theorem TxQueue.macOut_axiEdge (q : TxQueue p) (i : TxAxiIn p) (j : TxMacIn p) :
    (q.axiEdge i).macOut j = q.macOut j := by
  have hdata : (q.axiEdge i).txFifo.seen = q.txFifo.seen := by
    simp only [TxQueue.axiEdge]
    split <;> simp
  have hinfo : (q.axiEdge i).txInfoFifo.seen = q.txInfoFifo.seen := by
    simp only [TxQueue.axiEdge]
    split <;> simp
  simp only [TxQueue.macOut, AsyncFifo.front, hdata, hinfo]
  rfl

/-- An AXI edge is not visible to the MAC side of its instant. -/
theorem TxCore.macOut_clockAxi (a : TxAxiPins p) (i : TxMacIn p) :
    (c.clockAxi a).macOut i = c.macOut i := by
  have hseen : (c.clockAxi a).txFifo.seen = c.txFifo.seen := by
    simp only [TxCore.clockAxi]
    split <;> simp
  simp only [TxCore.macOut, AsyncFifo.front, hseen]
  rfl

/-- The outputs are those of the queue above. -/
theorem TxCore.macOut_queue (h : FifoInv c.txInfoFifo) (i : TxMacIn p) :
    c.queue.macOut i = c.macOut i := by
  simp only [TxQueue.macOut, TxCore.queue, AsyncFifo.isEmpty_seen_map, isEmpty_view h]
  rfl

/-- The info FIFO after an instant, as the queue above has it. -/
theorem TxCore.view_infoEdge (h : FifoInv c.txInfoFifo) (sizes : FifoSizes)
    (axi : Option (TxAxiPins p)) (mac : Option (TxMacIn p)) :
    (c.txInfoFifo.step sizes (c.infoEdge axi mac)).view.map (fun _ => ())
      = AsyncFifo.sync^[c.txInfoFifo.arrivals (c.infoEdge axi mac)]
          (run TxQueue.step c.queue ((axi.map fun a => .axi (c.axiIn a)).toList
            ++ (mac.map fun i => .mac i).toList)).txInfoFifo := by
  rw [view_step h, AsyncFifo.map_sync_iterate, InfoFifo.write_pins]
  congr 1
  cases axi with
  | none =>
    cases mac with
    | none => rfl
    | some i =>
      simp only [infoEdge, Option.map_none, Option.toList_none, List.nil_append, Option.map_some,
        Option.toList_some, run_cons, run_nil, TxQueue.step, TxQueue.macEdge, macOut_queue h,
        Option.isSome, Option.any, Bool.true_and, Bool.false_and, Bool.false_eq_true, if_false,
        apply_ite (AsyncFifo.map fun _ => ()), AsyncFifo.map_read]
      rfl
  | some a =>
    cases mac with
    | none =>
      simp only [infoEdge, Option.map_none, Option.toList_none, List.append_nil, Option.map_some,
        Option.toList_some, run_cons, run_nil, TxQueue.step, TxQueue.axiEdge, Option.isSome,
        Option.any, Bool.true_and, Bool.false_and, Bool.false_eq_true, if_false,
        apply_ite (AsyncFifo.map fun _ => ()), AsyncFifo.map_write]
      rfl
    | some i =>
      simp only [infoEdge, Option.map_some, Option.toList_some, List.singleton_append, run_cons,
        run_nil, TxQueue.step, TxQueue.macEdge, TxQueue.macOut_axiEdge, macOut_queue h,
        Option.isSome, Option.any, Bool.true_and, apply_ite (AsyncFifo.map fun _ => ()),
        AsyncFifo.map_read, AsyncFifo.map_write]
      rfl

/-- **An instant of the wired queue** is a few steps of the queue above. -/
theorem txCore_step (h : FifoInv c.txInfoFifo) (sizes : FifoSizes) (e : TxInstant p) :
    (c.step sizes e).queue = run TxQueue.step c.queue (c.edges e) := by
  cases e with
  | syncData => rfl
  | clocks axi mac =>
    rw [TxCore.edges, run_append, TxQueue.run_replicate_syncInfo, ← TxCore.view_infoEdge h sizes]
    cases axi with
    | none =>
      cases mac with
      | none => rfl
      | some i =>
        simp only [Option.map_none, Option.toList_none, List.nil_append, Option.map_some,
          Option.toList_some, run_cons, run_nil, TxQueue.step, TxQueue.macEdge,
          TxCore.macOut_queue h]
        rfl
    | some a =>
      cases mac with
      | none => rfl
      | some i =>
        have hout : (c.queue.axiEdge (c.axiIn a)).macOut i = (c.clockAxi a).macOut i := by
          rw [TxQueue.macOut_axiEdge, TxCore.macOut_queue h, TxCore.macOut_clockAxi]
        simp only [Option.map_some, Option.toList_some, List.singleton_append, run_cons, run_nil,
          TxQueue.step, TxQueue.macEdge, hout]
        rfl

/-- The invariant of the info FIFO is kept inside the queue. -/
theorem TxCore.fifoInv_step (sizes : FifoSizes) (e : TxInstant p) (h : FifoInv c.txInfoFifo) :
    FifoInv (c.step sizes e).txInfoFifo := by
  cases e with
  | syncData => exact h
  | clocks axi mac => exact Hw.fifoInv_step sizes (c.infoEdge axi mac) h

/-- **Every run of the wired queue is a run of `TxQueue`.** -/
theorem txCore_run (sizes : FifoSizes) (mem : BitVec 9 → BitVec 1) (es : List (TxInstant p)) :
    ∃ edges, (run (TxCore.step sizes) (TxCore.reset (p := p) mem) es).queue
      = run TxQueue.step TxQueue.reset edges :=
  run_simulates TxCore.queue (fun _ e => TxCore.fifoInv_step sizes e)
    (fun _ e h => txCore_step h sizes e) (fifoInv_reset mem) es

end TxCore

end Nf10.Hw
