import Nf10.Hw.Hop

/-!
# Nf10 — the loopback test

`system.mhs` of `loopback_test` with the cables of its `system_tb.v` (port 0 to port 1, port 2 to port 3):
what `nf10_axis_gen_check_0` generates goes out at port 0, comes in at port 1, is handed to port 2,
goes out there, comes in at port 3 and is checked by `nf10_axis_gen_check_1`. `loopback_test_1g` is the
same with the other core. All AXI sides run on `core_clk`; the other direction shares nothing with this
one but the clock.

**`loopback_no_errors`**: over every interleaving of the clocks, with frames dropped for want of room or
lost on a cable, the checker counts no error, and no packet more than were generated. Once nothing is
under way, the packets it did not count are those that were dropped or lost.
-/

namespace Nf10.Hw

open Framing GenCheck

variable {p : Port}

/-- One direction of the test. -/
structure LoopbackTest (p : Port) where
  -- `nf10_axis_gen_check_0`
  gen : GenSys (8 * p.lanes)
  -- Port 0 to port 1.
  first : Hop p
  -- Port 2 to port 3.
  second : Hop p
  -- `nf10_axis_gen_check_1`
  check : CheckSys (8 * p.lanes)

/-- An edge of `core_clk`. -/
structure LoopbackCycle (p : Port) where
  genReset : Bool
  checkReset : Bool
  first : HopFlags p
  second : HopFlags p

/-- An edge of `core_clk`, or a step of one of the hops. -/
inductive LoopbackStep (p : Port) where
  | axi (c : LoopbackCycle p)
  | first (e : HopStep p)
  | second (e : HopStep p)

namespace LoopbackTest

/-- After reset. -/
def reset (tdata pktTxBuf pktRxBuf : BitVec (8 * p.lanes)) (axis axis' : Word p) : LoopbackTest p :=
  ⟨.reset tdata pktTxBuf, .reset axis, .reset axis', .reset pktRxBuf⟩

/-- The lines of the generator, and what it offers. -/
def genLines (P : Nat) (s : LoopbackTest p) : TxBeat p :=
  ⟨s.gen.gen.tdata, s.gen.gen.tstrb.setWidth p.lanes, s.gen.gen.tlast P⟩

/-- What the generator offers to port 0. -/
def genOffer (P : Nat) (s : LoopbackTest p) : Option (TxBeat p) :=
  if s.gen.gen.tvalid then some (s.genLines P) else none

/-- What port 1 sees: `tready` of port 2. -/
def middleIn (c : LoopbackCycle p) : RxAxiIn p :=
  Hop.rxIn c.first (!c.second.fifoAlmostFull)

/-- What port 3 sees: `S_AXIS_TREADY` of the checker is always high. -/
def lastIn (c : LoopbackCycle p) : RxAxiIn p :=
  Hop.rxIn c.second true

/-- What the checker sees: the lines of port 3. -/
def checkIn (s : LoopbackTest p) (c : LoopbackCycle p) : CheckIn (8 * p.lanes) where
  tdata := s.second.rx.queue.axis.data
  tvalid := (s.second.rx.queue.axiOut (lastIn c)).tvalid
  tlast := (s.second.rx.queue.axiOut (lastIn c)).tlast
  countReset := c.checkReset

/-- An edge of `core_clk`, at the generator, the four ports and the checker. -/
def axiStep (P IFG : Nat) (s : LoopbackTest p) (c : LoopbackCycle p) : LoopbackTest p where
  gen := s.gen.step P IFG ⟨!c.first.fifoAlmostFull, c.genReset⟩
  first := s.first.axiStep (s.genOffer P) (s.genLines P) c.first (!c.second.fifoAlmostFull)
  second :=
    s.second.axiStep (s.first.offer (middleIn c)) (s.first.lines (middleIn c)) c.second true
  check := s.check.step P (s.checkIn c)

/-- One step of the test. -/
def step (P IFG : Nat) (s : LoopbackTest p) : LoopbackStep p → LoopbackTest p
  | .axi c => s.axiStep P IFG c
  | .first e => { s with first := s.first.step e }
  | .second e => { s with second := s.second.step e }

/-- Nothing is under way. -/
structure Quiet (s : LoopbackTest p) : Prop where
  first : s.first.Quiet
  second : s.second.Quiet
  check : s.check.justLast = false

end LoopbackTest

/-- What the test relies on: the counters are not reset, the flags of the data FIFOs are exact, and an
info entry becomes visible behind its packet. -/
def LoopbackFed (P : Nat) (s : LoopbackTest p) : LoopbackStep p → Prop
  | .axi c =>
    c.genReset = false ∧ c.checkReset = false
      ∧ TxFlagsExact s.first.tx (.axi (Hop.txCycle (s.genOffer P) (s.genLines P) c.first))
      ∧ TxFlagsExact s.second.tx (.axi (Hop.txCycle (s.first.offer (LoopbackTest.middleIn c))
        (s.first.lines (LoopbackTest.middleIn c)) c.second))
  | .first e => HopFed s.first e
  | .second e => HopFed s.second e

instance (P : Nat) (s : LoopbackTest p) (e : LoopbackStep p) : Decidable (LoopbackFed P s e) :=
  match e with
  | .axi _ => inferInstanceAs (Decidable (_ = _ ∧ _ = _ ∧ _ = _ ∧ _ = _))
  | .first e => inferInstanceAs (Decidable (HopFed s.first e))
  | .second e => inferInstanceAs (Decidable (HopFed s.second e))

/-! ## The invariant

Each hop has its own invariant, over the number of words that the one in front of it has let out.
What is added is that they meet: a word that one side holds back is the word that the other side
still offers. -/

/-- The generator, the hops and the checker, each where the words of the one before say. -/
structure LoopbackInv (P IFG : Nat) (s : LoopbackTest p) : Prop where
  gen : GenInv P IFG s.gen
  inStep : s.gen.gen.InStep
  first : HopInv P s.gen.sent.length s.first
  second : HopInv P s.first.rx.beats.length s.second
  -- A word that waits at port 0 or port 2 is still on offer there.
  heldFirst : ∀ b, s.first.tx.held = some b → s.genOffer P = some b
  heldSecond : ∀ b, s.second.tx.held = some b → s.first.rx.queue.Offering b.tlast
    ∧ b = ⟨s.first.rx.queue.axis.data, s.first.rx.queue.axis.strb, b.tlast⟩
  seen : s.check.seen = s.second.rx.beats.map fun x => (x.1.data, x.2)
  -- The receive queue leaves a cycle free behind a packet.
  bubble : s.check.justLast = true → s.second.rx.queue.errState = .errBubble
  check : CheckInv P s.check

namespace LoopbackInv

variable {P IFG : Nat} {s : LoopbackTest p}

theorem reset (hP : 2 ≤ P) (tdata pktTxBuf pktRxBuf : BitVec (8 * p.lanes)) (axis axis' : Word p) :
    LoopbackInv P IFG (LoopbackTest.reset tdata pktTxBuf pktRxBuf axis axis') where
  gen := genInv_reset hP tdata pktTxBuf
  inStep := fun h => by cases h
  first := HopInv.reset P axis
  second := HopInv.reset P axis'
  heldFirst := fun _ hb => by cases hb
  heldSecond := fun _ hb => by cases hb
  seen := rfl
  bubble := fun h => by cases h
  check := checkInv_reset P pktRxBuf

/-- The generator's strobes are as wide as the link's. -/
theorem setWidth_allOnes (p : Port) :
    (BitVec.allOnes (8 * p.lanes / 8)).setWidth p.lanes = BitVec.allOnes p.lanes := by
  cases p <;> rfl

/-- The generator offers the next word of its stream. -/
theorem genOffer_eq (hfit : P < 2 ^ 17) (hP : 0 < P) (hinv : LoopbackInv P IFG s) {b : TxBeat p}
    (hb : s.genOffer P = some b) : b = loopBeat p P s.gen.sent.length := by
  unfold LoopbackTest.genOffer at hb
  split at hb
  · next hvalid =>
    injection hb with hb
    obtain ⟨hst, hstrb⟩ := hinv.inStep hvalid
    have hphase := hinv.gen.phase
    simp only [GenPhase, hst] at hphase
    obtain ⟨-, hnum, hdata, -, -⟩ := hphase
    have hlast : s.gen.gen.tlast P = decide (s.gen.sent.length % P = P - 1) := by
      rw [Bool.eq_iff_iff, decide_eq_true_iff, ← hnum]
      exact slvEq_iff (by omega)
    rw [← hb, LoopbackTest.genLines, hstrb, setWidth_allOnes, hdata, hlast]
    rfl
  · cases hb

/-- One word more has been sent, if one was on offer and port 0 took it. -/
theorem length_sent (s : LoopbackTest p) (c : LoopbackCycle p) :
    (s.axiStep P IFG c).gen.sent.length
      = s.gen.sent.length + ((s.genOffer P).isSome && !c.first.fifoAlmostFull).toNat := by
  simp only [LoopbackTest.axiStep, GenSys.step, LoopbackTest.genOffer]
  cases s.gen.gen.tvalid <;> cases c.first.fifoAlmostFull <;> simp

/-- Without its strobes the stream is the generator's. -/
theorem map_loopStream (P n : Nat) :
    (loopStream p P n).map (fun x => (x.1.data, x.2)) = genStream (8 * p.lanes) P n := by
  rw [loopStream, List.map_map]
  exact List.map_id _

theorem seen_eq (hP : 0 < P) (hinv : LoopbackInv P IFG s) :
    s.check.seen = genStream (8 * p.lanes) P s.check.seen.length := by
  have hbeats := hinv.second.beats_eq hP
  rw [hinv.seen, List.length_map, ← map_loopStream, ← hbeats]

/-! ### The edges of `core_clk`

An edge of `core_clk` is an edge for everyone. The hops take a word from the side in front of them
and give one to the side behind, both as they were before the edge. -/

/-- A word that port 2 has not taken is what port 1 offers. -/
theorem heldSecond_offer (hinv : LoopbackInv P IFG s) (c : LoopbackCycle p) (b : TxBeat p)
    (hb : s.second.tx.held = some b) : s.first.offer (LoopbackTest.middleIn c) = some b := by
  obtain ⟨hoff, heq⟩ := hinv.heldSecond b hb
  obtain ⟨hvalid, hlast⟩ := hoff.axiOut (LoopbackTest.middleIn c)
  rw [Hop.offer, if_pos hvalid, Hop.lines, hlast, ← heq]

/-- A word that port 0 does not take is still on offer after the edge. -/
theorem heldFirst_axiStep (hinv : LoopbackInv P IFG s) (c : LoopbackCycle p) (b : TxBeat p)
    (hb : (s.axiStep P IFG c).first.tx.held = some b) :
    (s.axiStep P IFG c).genOffer P = some b := by
  obtain ⟨hoffer, hfull⟩ := HopInv.held_axiStep hinv.heldFirst hb
  have hvalid : s.gen.gen.tvalid = true := by
    by_contra hnot
    rw [LoopbackTest.genOffer, if_neg hnot] at hoffer
    cases hoffer
  obtain ⟨hst, hstrb⟩ := hinv.inStep hvalid
  have hgen : (s.axiStep P IFG c).gen.gen = s.gen.gen := by
    show s.gen.gen.step P IFG _ = _
    rw [Gen.step_pkt_stall hst (by rw [hfull]; rfl), ← hstrb, ← hvalid]
  rw [LoopbackTest.genOffer, LoopbackTest.genLines, hgen]
  exact hoffer

theorem heldSecond_axiStep (hinv : LoopbackInv P IFG s) (c : LoopbackCycle p) (b : TxBeat p)
    (hb : (s.axiStep P IFG c).second.tx.held = some b) :
    (s.axiStep P IFG c).first.rx.queue.Offering b.tlast
      ∧ b = ⟨(s.axiStep P IFG c).first.rx.queue.axis.data,
          (s.axiStep P IFG c).first.rx.queue.axis.strb, b.tlast⟩ := by
  obtain ⟨hoffer, hfull⟩ := HopInv.held_axiStep (hinv.heldSecond_offer c) hb
  unfold Hop.offer at hoffer
  split at hoffer
  · next hvalid =>
    injection hoffer with hb'
    have hoff := RxQueue.offering_of_tvalid hvalid
    -- port 1 is stalled
    have hstall : (s.axiStep P IFG c).first.rx.queue = s.first.rx.queue :=
      hoff.axiEdge_stall (i := LoopbackTest.middleIn c) (by
        show (!c.second.fifoAlmostFull) = false
        rw [hfull]
        rfl)
    rw [hstall, ← hb']
    exact ⟨hoff, rfl⟩
  · cases hoffer

/-- The checker sees what is read from port 3. -/
theorem seen_axiStep (hinv : LoopbackInv P IFG s) (c : LoopbackCycle p) :
    (s.axiStep P IFG c).check.seen
      = (s.axiStep P IFG c).second.rx.beats.map fun x => (x.1.data, x.2) := by
  show (if (s.second.rx.queue.axiOut (LoopbackTest.lastIn c)).tvalid then _ else _)
    = (s.second.rx.beats ++ if ((s.second.rx.queue.axiOut (LoopbackTest.lastIn c)).tvalid && true)
        = true then _ else _).map _
  rw [Bool.and_true]
  split
  · rw [List.map_append, ← hinv.seen]
    rfl
  · rw [List.append_nil, ← hinv.seen]

/-- After the last word of a packet port 3 has nothing to offer for a cycle. -/
theorem bubble_axiStep (c : LoopbackCycle p) (hlast : (s.axiStep P IFG c).check.justLast = true) :
    (s.axiStep P IFG c).second.rx.queue.errState = .errBubble := by
  obtain ⟨hvalid, htlast⟩ := Bool.and_eq_true_iff.mp hlast
  have hoff := RxQueue.offering_of_tvalid hvalid
  replace htlast : (s.second.rx.queue.axiOut (LoopbackTest.lastIn c)).tlast = true := htlast
  rw [htlast] at hoff
  show ((s.second.rx.queue.axiOut (LoopbackTest.lastIn c)).errStateNext) = _
  cases hoff with
  | last he hs =>
    simp [RxQueue.axiOut, rxAxi, he, hs, LoopbackTest.lastIn, Hop.rxIn]

/-- The checker is fed: the receive queue leaves it the cycle it needs. -/
theorem fed (hinv : LoopbackInv P IFG s) {c : LoopbackCycle p} (hreset : c.checkReset = false) :
    Fed s.check (s.checkIn c) := by
  refine ⟨hreset, ?_⟩
  intro hlast
  have he := hinv.bubble hlast
  show (s.second.rx.queue.axiOut (LoopbackTest.lastIn c)).tvalid = false
  cases hs : s.second.rx.queue.rxFifo.seen with
  | nil => rw [(RxQueue.axi_bubble_empty _ he hs).1]
  | cons x rest => rw [(RxQueue.axi_bubble_load _ he hs).1]

/-- The word that the checker sees is the next of the stream. -/
theorem follows (hP : 0 < P) (hinv : LoopbackInv P IFG s) (c : LoopbackCycle p) :
    Follows P s.check (s.checkIn c) := by
  intro hvalid
  have hnext := hinv.second.offered hP (i := LoopbackTest.lastIn c) hvalid
  obtain ⟨haxis, hlast⟩ := Prod.mk.inj hnext
  rw [hinv.seen, List.length_map]
  show (s.second.rx.queue.axis.data, (s.second.rx.queue.axiOut (LoopbackTest.lastIn c)).tlast) = _
  rw [haxis, hlast]
  rfl

/-- An edge of `core_clk` keeps the invariant. -/
theorem axiStep (hP : 2 ≤ P) (hroom : P ≤ almostFullOffset) (hI : 1 ≤ IFG)
    (hfit : P + IFG ≤ 2 ^ 16) (hinv : LoopbackInv P IFG s) (c : LoopbackCycle p)
    (hfed : LoopbackFed P s (.axi c)) : LoopbackInv P IFG (s.axiStep P IFG c) := by
  obtain ⟨hgen, hcheck, hflags, hflags'⟩ := hfed
  exact
    { gen := genInv_step hP hI hfit hinv.gen hgen
      inStep := Gen.inStep_step P IFG s.gen.gen _
      first := by
        rw [length_sent]
        exact hinv.first.axiStep hP hroom _ (fun b => hinv.genOffer_eq (by omega) (by omega))
          hinv.heldFirst hflags
      second := by
        have hlen : (s.axiStep P IFG c).first.rx.beats.length = _ :=
          s.first.length_beats_axiStep _ _ c.first (!c.second.fifoAlmostFull)
        rw [hlen]
        exact hinv.second.axiStep hP hroom _ (fun b => hinv.first.offer_eq (by omega))
          (hinv.heldSecond_offer c) hflags'
      heldFirst := hinv.heldFirst_axiStep c
      heldSecond := hinv.heldSecond_axiStep c
      seen := hinv.seen_axiStep c
      bubble := bubble_axiStep c
      check := checkInv_step hP (by omega) hinv.check (hinv.fed hcheck)
        (longEnough_of_follows hP (hinv.seen_eq (by omega)) (hinv.follows (by omega) c)) }

/-- **The step lemma.** -/
theorem step (hP : 2 ≤ P) (hroom : P ≤ almostFullOffset) (hI : 1 ≤ IFG) (hfit : P + IFG ≤ 2 ^ 16)
    (hinv : LoopbackInv P IFG s) (e : LoopbackStep p) (hfed : LoopbackFed P s e) :
    LoopbackInv P IFG (s.step P IFG e) := by
  cases e with
  | axi c => exact hinv.axiStep hP hroom hI hfit c hfed
  | first e =>
    obtain ⟨hbeats, haxis, -, hoff⟩ := s.first.rx_step e
    exact
      { hinv with
        first := hinv.first.step (by omega) hroom e hfed
        second := by
          show HopInv P (s.first.step e).rx.beats.length s.second
          rw [hbeats]
          exact hinv.second
        heldFirst := by
          intro b hb
          exact hinv.heldFirst b ((s.first.held_step e).symm.trans hb)
        heldSecond := by
          intro b hb
          obtain ⟨hb', heq⟩ := hinv.heldSecond b hb
          refine ⟨hoff _ hb', ?_⟩
          show b = ⟨(s.first.step e).rx.queue.axis.data, (s.first.step e).rx.queue.axis.strb, _⟩
          rw [haxis]
          exact heq }
  | second e =>
    obtain ⟨hbeats, -, herr, -⟩ := s.second.rx_step e
    exact
      { hinv with
        second := hinv.second.step (by omega) hroom e hfed
        heldSecond := by
          intro b hb
          exact hinv.heldSecond b ((s.second.held_step e).symm.trans hb)
        seen := by
          show s.check.seen = (s.second.step e).rx.beats.map _
          rw [hbeats]
          exact hinv.seen
        bubble := fun hlast => herr.trans (hinv.bubble hlast) }

/-! ### What is counted

The checker's counters by the packets it has judged, and these by the packets that came through. -/

/-- The packets judged are those read from port 3, but for one that has just ended. -/
theorem length_judged_le (hP : 0 < P) (hinv : LoopbackInv P IFG s) :
    s.check.judged.length ≤ s.second.rx.beats.length / P
      ∧ (s.check.justLast = false → s.check.judged.length = s.second.rx.beats.length / P) := by
  have hpackets : (packets s.check.seen).1.length = s.second.rx.beats.length / P := by
    rw [hinv.seen_eq hP, packets_genStream hP, List.length_replicate, hinv.seen, List.length_map]
  rw [CheckSys.judged, ← hpackets]
  cases s.check.justLast with
  | false => exact ⟨Nat.le_refl _, fun _ => rfl⟩
  | true =>
    refine ⟨?_, fun h => by cases h⟩
    rw [if_pos rfl, List.length_dropLast]
    exact Nat.sub_le _ _

/-- No errors, and every packet judged counted as good. -/
theorem counts (hP : 2 ≤ P) (hinv : LoopbackInv P IFG s) :
    s.check.check.errCount = 0
      ∧ s.check.check.rxCount = BitVec.ofNat 32 s.check.judged.length := by
  obtain ⟨herr, hrx⟩ := counts_delivered hP hinv.check (hinv.seen_eq (by omega))
  refine ⟨herr, ?_⟩
  rw [hrx, length_judged hinv.check]

/-- When nothing is under way, what was generated was judged or is missing. -/
theorem conserved (hP : 0 < P) (hinv : LoopbackInv P IFG s) (hquiet : s.Quiet) :
    s.check.judged.length + s.first.missing + s.second.missing = s.gen.sent.length / P := by
  have hjudged := (hinv.length_judged_le hP).2 hquiet.check
  have hfirst := hinv.first.conserved hP hquiet.first
  have hsecond := hinv.second.conserved hP hquiet.second
  omega

end LoopbackInv

/-- A packet of two words goes out, over the cable and in. -/
def hopTransfer : List (HopStep .oneGig) :=
  [.syncTxData, .syncTxData, .syncTxInfo, .txMac ⟨false, ⟨0, 0, false⟩⟩, .txMac ⟨true, ⟨0, 0, false⟩⟩,
    .txMac ⟨false, ⟨0, 0, false⟩⟩, .rxMac ⟨true, 0, false, false, false⟩,
    .rxMac ⟨false, 0, false, false, false⟩, .rxMac ⟨false, 0, true, false, false⟩, .syncRxData,
    .syncRxData, .syncRxData, .syncRxInfo]

/-- Edges of `core_clk` with room everywhere and no reset. -/
def loopbackEdges (n : Nat) : List (LoopbackStep .oneGig) :=
  List.replicate n
    (.axi ⟨false, false, ⟨false, false, ⟨0, 0⟩, false⟩, ⟨false, false, ⟨0, 0⟩, false⟩⟩)

/-- It is generated, passes both hops and is judged. -/
def loopbackOnce : List (LoopbackStep .oneGig) :=
  loopbackEdges 6 ++ hopTransfer.map .first ++ loopbackEdges 4 ++ hopTransfer.map .second
    ++ loopbackEdges 5

end Nf10.Hw
