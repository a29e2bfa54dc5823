import Mathlib.Tactic.IntervalCases
import Nf10.Hw.RxQueue
import Nf10.Lib.Framing

/-!
# Nf10 — the transmit queue of the interface cores

`tx_queue.v` of the two cores: words of an AXI4-Stream go into a FIFO between the two clocks with an
end-of-packet bit, one entry per packet goes into a second FIFO, and the MAC side starts a packet
for each entry it sees there. The cores share the state machine and differ in

* what is stored with a word: a 4-bit code of the strobe (10G), `tvalid` (1G);
* the end-of-packet bit: `tlast` (10G), `tvalid & tlast` (1G); both are `tlast` on a word that is
  written;
* the info FIFO's `winc`: the register `info_fifo_wr_en` (10G), `eop_axi` at once (1G);
* the state after a packet: `IDLE` (10G), `IFG` (1G).
-/

namespace Nf10.Hw

/-! ## Strobe coding

The 10G core keeps eight strobes in four bits, since a packet's bytes are contiguous: one code for
each number of low lanes, and one for everything else. The 1G core keeps no strobe at all. -/

/-- Bits stored with a word beside its end-of-packet bit. -/
def Port.codeBits : Port → Nat
  | .tenGig => 4
  | .oneGig => 1

/-- The table of the write side; what is not a run of low lanes becomes 8. -/
def tstrbEncoded (tstrb : BitVec 8) : BitVec 4 :=
  match tstrb with
  | 0x01#8 => 0x0#4
  | 0x03#8 => 0x1#4
  | 0x07#8 => 0x2#4
  | 0x0f#8 => 0x3#4
  | 0x1f#8 => 0x4#4
  | 0x3f#8 => 0x5#4
  | 0x7f#8 => 0x6#4
  | 0xff#8 => 0x7#4
  | _ => 0x8#4

/-- The table of the read side; 8 and above are no bytes. -/
def txDataValidDecoded (code : BitVec 4) : BitVec 8 :=
  match code with
  | 0x0#4 => 0x01#8
  | 0x1#4 => 0x03#8
  | 0x2#4 => 0x07#8
  | 0x3#4 => 0x0f#8
  | 0x4#4 => 0x1f#8
  | 0x5#4 => 0x3f#8
  | 0x6#4 => 0x7f#8
  | 0x7#4 => 0xff#8
  | _ => 0x00#8

/-- What is stored with a word: the coded strobe, or `tvalid`. -/
def encodeStrobe : (p : Port) → (tstrb : BitVec p.lanes) → (tvalid : Bool) → BitVec p.codeBits
  | .tenGig, tstrb, _ => tstrbEncoded tstrb
  | .oneGig, _, tvalid => BitVec.ofBool tvalid

/-- `tx_data_valid` from what is stored. -/
def decodeStrobe : (p : Port) → BitVec p.codeBits → BitVec p.lanes
  | .tenGig, code => txDataValidDecoded code
  | .oneGig, code => code

/-- The strobes that come out as they went in: the low `k` lanes, at least one of them. The 1G core
has one lane and does not look at its strobe, so there it is the strobe of a byte that counts. -/
def StrobeOk (p : Port) (tstrb : BitVec p.lanes) : Prop :=
  ∃ k, 1 ≤ k ∧ k ≤ p.lanes ∧ tstrb = BitVec.ofNat p.lanes (2 ^ k - 1)

/-- The condition as a search over the number of lanes, which can be run. -/
theorem strobeOk_iff (p : Port) (tstrb : BitVec p.lanes) :
    StrobeOk p tstrb ↔ ∃ k ∈ List.range (p.lanes + 1),
      1 ≤ k ∧ tstrb = BitVec.ofNat p.lanes (2 ^ k - 1) := by
  constructor
  · rintro ⟨k, hpos, hle, h⟩
    exact ⟨k, List.mem_range.mpr (Nat.lt_succ_of_le hle), hpos, h⟩
  · rintro ⟨k, hk, hpos, h⟩
    exact ⟨k, hpos, Nat.le_of_lt_succ (List.mem_range.mp hk), h⟩

instance (p : Port) (tstrb : BitVec p.lanes) : Decidable (StrobeOk p tstrb) :=
  decidable_of_iff _ (strobeOk_iff p tstrb).symm

/-- **The strobe code round-trips** on the strobes it is made for. In the 10G core this is the table
read forth and back; in the 1G core the stored `tvalid` is the one strobe there is. -/
theorem decode_encodeStrobe {p : Port} {tstrb : BitVec p.lanes} (h : StrobeOk p tstrb) :
    decodeStrobe p (encodeStrobe p tstrb true) = tstrb := by
  obtain ⟨k, hpos, hle, rfl⟩ := h
  cases p with
  | oneGig =>
    obtain rfl : k = 1 := Nat.le_antisymm hle hpos
    rfl
  | tenGig =>
    replace hle : k ≤ 8 := hle
    interval_cases k <;> rfl

/-! ## The module

The registers and the two FIFOs, with a state machine on the MAC's clock only. The AXI side is
combinational but for the registers behind `winc`. -/

/-- `state`; the 10G core has no `IFG`. -/
inductive TxState where
  | idle
  | waitForAck
  | sendPkt
  | ifg
deriving DecidableEq, Repr

/-- A word as `tx_fifo` stores it. -/
structure TxEntry (p : Port) where
  data : BitVec (8 * p.lanes)
  code : BitVec p.codeBits
  eop : Bool
deriving DecidableEq, Repr

/-- The word an entry puts on the MAC's pins. -/
def TxEntry.out {p : Port} (e : TxEntry p) : Word p :=
  ⟨e.data, decodeStrobe p e.code⟩

/-- The word an entry puts out, and whether it is the last of its packet. -/
def TxEntry.marked {p : Port} (e : TxEntry p) : Word p × Bool :=
  (e.out, e.eop)

/-- The outputs of the MAC side; only the 10G core has `tx_start`. -/
structure TxMac (p : Port) where
  stateNext : TxState
  fifoRdEn : Bool
  infoFifoRdEn : Bool
  txStart : Bool
  txDataValid : BitVec p.lanes
deriving DecidableEq, Repr

/-- The state after the last word of a packet. -/
def Port.afterPacket : Port → TxState
  | .tenGig => .idle
  | .oneGig => .ifg

/-- The MAC side: a start for each info entry, a word with `tx_ack`, and then one in every cycle
up to the last. -/
def txMac (p : Port) (state : TxState) (infoFifoEmpty txAck eopMac : Bool)
    (decoded : BitVec p.lanes) : TxMac p :=
  match state with
  | .idle =>
    if !infoFifoEmpty then ⟨.waitForAck, false, true, p == .tenGig, 0⟩
    else ⟨.idle, false, false, false, 0⟩
  | .waitForAck =>
    if txAck then ⟨.sendPkt, true, false, false, decoded⟩
    else ⟨.waitForAck, false, false, false, decoded⟩
  | .sendPkt =>
    if eopMac then ⟨p.afterPacket, true, false, false, decoded⟩
    else ⟨.sendPkt, true, false, false, decoded⟩
  | .ifg => ⟨.idle, false, false, false, 0⟩

/-- A word of the AXI4-Stream. -/
structure TxBeat (p : Port) where
  tdata : BitVec (8 * p.lanes)
  tstrb : BitVec p.lanes
  tlast : Bool
deriving DecidableEq, Repr

/-- The word a beat carries, with its strobe as it was offered, and whether it is the last of its
packet. -/
def TxBeat.marked {p : Port} (b : TxBeat p) : Word p × Bool :=
  (⟨b.tdata, b.tstrb⟩, b.tlast)

/-- The entry that a word on offer is stored as. -/
def TxBeat.entry {p : Port} (b : TxBeat p) : TxEntry p :=
  ⟨b.tdata, encodeStrobe p b.tstrb true, b.tlast⟩

/-- With a strobe that the core can give back, a word is stored as itself. -/
theorem TxBeat.marked_entry {p : Port} {b : TxBeat p} (h : StrobeOk p b.tstrb) :
    b.entry.marked = b.marked := by
  simp only [TxEntry.marked, TxEntry.out, TxBeat.entry, TxBeat.marked, decode_encodeStrobe h]

/-- What it sees at an edge of the AXI clock: the stream, and the flags of its FIFOs. -/
structure TxAxiIn (p : Port) where
  beat : TxBeat p
  tvalid : Bool
  fifoAlmostFull : Bool
  infoWfull : Bool

/-- What it sees at an edge of the MAC clock; `stale` is on the data output of an empty FIFO. -/
structure TxMacIn (p : Port) where
  txAck : Bool
  stale : TxEntry p

/-- The state of the module. -/
structure TxQueue (p : Port) where
  state : TxState
  infoFifoWrEn : Bool
  eopAxiDelay : Bool
  txFifo : AsyncFifo (TxEntry p)
  txInfoFifo : AsyncFifo Unit

/-- Words in `tx_fifo`: a `FIFO36_72`, or a `FIFO18` eighteen bits wide. -/
def Port.txFifoDepth : Port → Nat
  | .tenGig => 512
  | .oneGig => 1024

namespace TxAxiIn

variable {p : Port} (i : TxAxiIn p)

/-- `tready`: it depends on the data FIFO alone. -/
def tready : Bool := !i.fifoAlmostFull

/-- `fifo_wr_en`: the handshake. -/
def wrEn : Bool := i.tvalid && i.tready

/-- `eop_axi` -/
def eopAxi : Bool :=
  match p with
  | .tenGig => i.beat.tlast
  | .oneGig => i.tvalid && i.beat.tlast

/-- A last word is on offer, taken or not. -/
def offersLast : Bool := i.tvalid && i.beat.tlast

/-- What is on the inputs of the data FIFO. -/
def entry : TxEntry p := ⟨i.beat.tdata, encodeStrobe p i.beat.tstrb i.tvalid, i.eopAxi⟩

variable {i}

/-- On a word that is written the two end-of-packet bits are `tlast`. -/
theorem entry_of_tvalid (h : i.tvalid = true) : i.entry = i.beat.entry := by
  cases p <;> simp [entry, eopAxi, TxBeat.entry, h]

end TxAxiIn

namespace TxQueue

variable {p : Port}

/-- After reset. `info_fifo_wr_en` and `eop_axi_delay` have no reset value; an edge of the clock
under reset, with `tvalid` low, clears them. -/
def reset : TxQueue p :=
  ⟨.idle, false, false, .empty, .empty⟩

/-- `FULL` of the data FIFO, which drops what is written to it. -/
def fifoFull (q : TxQueue p) : Bool :=
  decide (p.txFifoDepth ≤ q.txFifo.count)

/-- A word goes into the data FIFO; one written while the FIFO is full is discarded. -/
def writes (q : TxQueue p) (i : TxAxiIn p) : Bool := i.wrEn && !q.fifoFull

/-- A word that goes in was handshaken, and found room. -/
theorem wrEn_of_writes {q : TxQueue p} {i : TxAxiIn p} (h : q.writes i = true) :
    i.wrEn = true ∧ q.fifoFull = false := by
  simpa [writes] using h

theorem tvalid_of_writes {q : TxQueue p} {i : TxAxiIn p} (h : q.writes i = true) :
    i.tvalid = true := by
  have hwrEn := (wrEn_of_writes h).1
  simp only [TxAxiIn.wrEn, Bool.and_eq_true] at hwrEn
  exact hwrEn.1

/-- `winc` of `tx_info_fifo`. -/
def winc (q : TxQueue p) (i : TxAxiIn p) : Bool :=
  match p with
  | .tenGig => q.infoFifoWrEn
  | .oneGig => i.eopAxi

/-- The next value of `info_fifo_wr_en`. The 1G core computes it and does not use it. -/
def infoFifoWrEnNext (q : TxQueue p) (i : TxAxiIn p) : Bool :=
  match p with
  | .tenGig => i.beat.tlast && i.tvalid
  | .oneGig => i.eopAxi && !q.eopAxiDelay

/-- An edge of the AXI clock. -/
def axiEdge (q : TxQueue p) (i : TxAxiIn p) : TxQueue p :=
  { q with
    infoFifoWrEn := q.infoFifoWrEnNext i
    eopAxiDelay := i.eopAxi
    txFifo := if i.wrEn then q.txFifo.write q.fifoFull i.entry else q.txFifo
    txInfoFifo := if q.winc i then q.txInfoFifo.write i.infoWfull () else q.txInfoFifo }

/-- The outputs of the MAC side before an edge of its clock. -/
def macOut (q : TxQueue p) (i : TxMacIn p) : TxMac p :=
  txMac p q.state q.txInfoFifo.seen.isEmpty i.txAck (q.txFifo.front i.stale).eop
    (q.txFifo.front i.stale).out.strb

/-- An edge of the MAC clock. -/
def macEdge (q : TxQueue p) (i : TxMacIn p) : TxQueue p :=
  let o := q.macOut i
  { q with
    state := o.stateNext
    txFifo := if o.fifoRdEn then q.txFifo.read else q.txFifo
    txInfoFifo := if o.infoFifoRdEn then q.txInfoFifo.read else q.txInfoFifo }

end TxQueue

/-! ## The bench

The queue with a master in front of it, a record of both sides, and counters for what the properties
compare. The master keeps a word on offer until it is taken, which is all that AXI asks of it here. -/

/-- The queue between an AXI master that obeys the handshake and the MAC, with the histories of both
sides. -/
structure TxBench (p : Port) where
  queue : TxQueue p
  -- The word on offer that was not taken; it stays on offer.
  held : Option (TxBeat p)
  -- The packets written into `tx_fifo` and the words of the one under way.
  input : List (List (Word p)) × List (Word p)
  -- Entries pushed into `tx_info_fifo`.
  pushed : Nat
  -- Last words that have become visible to the MAC side.
  shownPackets : Nat
  -- Info entries that have become visible to it.
  shownInfo : Nat
  -- Entries into `WAIT_FOR_ACK`.
  starts : Nat
  -- The packets given to the MAC from `tx_ack` on, and the words of the one under way.
  output : List (List (Word p)) × List (Word p)

/-- A cycle of the AXI clock: the word to offer when none is held, the lines when none is offered,
and the flags of the FIFOs. -/
structure TxCycle (p : Port) where
  offer : Option (TxBeat p)
  idleLines : TxBeat p
  fifoAlmostFull : Bool
  infoWfull : Bool

/-- An edge of one of the clocks, or an entry of one of the FIFOs becoming visible to the MAC
side. -/
inductive TxStep (p : Port) where
  | axi (c : TxCycle p)
  | mac (i : TxMacIn p)
  | syncData
  | syncInfo

namespace TxBench

variable {p : Port}

/-- After reset, with nothing on record. -/
def reset : TxBench p :=
  ⟨.reset, none, ([], []), 0, 0, 0, 0, ([], [])⟩

/-- The pins of the AXI side in the cycle `c`. -/
def axiIn (s : TxBench p) (c : TxCycle p) : TxAxiIn p :=
  match s.held.or c.offer with
  | some b => ⟨b, true, c.fifoAlmostFull, c.infoWfull⟩
  | none => ⟨c.idleLines, false, c.fifoAlmostFull, c.infoWfull⟩

/-- A cycle of the AXI clock. -/
def axiStep (s : TxBench p) (c : TxCycle p) : TxBench p :=
  let i := s.axiIn c
  { s with
    queue := s.queue.axiEdge i
    held := if i.tvalid && !i.tready then some i.beat else none
    input := if s.queue.writes i then Framing.push s.input i.beat.marked else s.input
    pushed := s.pushed + if s.queue.winc i && !i.infoWfull then 1 else 0 }

/-- The words on the MAC's pins are given to it from `tx_ack` to the end of the packet. -/
def macStep (s : TxBench p) (i : TxMacIn p) : TxBench p :=
  let o := s.queue.macOut i
  let e := s.queue.txFifo.front i.stale
  { s with
    queue := s.queue.macEdge i
    starts := s.starts + if s.queue.state = .idle ∧ o.stateNext = .waitForAck then 1 else 0
    output := match s.queue.state with
      | .waitForAck =>
        if i.txAck then Framing.push s.output (⟨e.data, o.txDataValid⟩, false) else s.output
      | .sendPkt => Framing.push s.output (⟨e.data, o.txDataValid⟩, e.eop)
      | _ => s.output }

/-- A word becomes visible to the MAC side. -/
def syncDataStep (s : TxBench p) : TxBench p :=
  { s with
    queue := { s.queue with txFifo := s.queue.txFifo.sync }
    shownPackets := s.shownPackets + (s.queue.txFifo.inFlight.head?.toList.countP (·.eop)) }

/-- An info entry becomes visible to it. -/
def syncInfoStep (s : TxBench p) : TxBench p :=
  { s with
    queue := { s.queue with txInfoFifo := s.queue.txInfoFifo.sync }
    shownInfo := s.shownInfo + s.queue.txInfoFifo.inFlight.head?.toList.length }

/-- One step of the bench. -/
def step (s : TxBench p) : TxStep p → TxBench p
  | .axi c => s.axiStep c
  | .mac i => s.macStep i
  | .syncData => s.syncDataStep
  | .syncInfo => s.syncInfoStep

end TxBench

/-- `ALMOSTFULL` of the data FIFO is high exactly when at most `ALMOST_FULL_OFFSET` places are
free. -/
def TxFlagsExact {p : Port} (s : TxBench p) : TxStep p → Prop
  | .axi c =>
    c.fifoAlmostFull = decide (p.txFifoDepth ≤ s.queue.txFifo.count + almostFullOffset)
  | _ => True

end Nf10.Hw
