import Nf10.Hw.RxAdmission

/-!
# Nf10 — verdicts beside the packets

`rx_info_fifo` takes every good/bad pulse, also that of a frame the write side is dropping, while
`rx_fifo` takes admitted frames only. One dropped frame shifts the verdicts of all later packets.

* **`rx_verdict_shifted`** — three frames fill the FIFO up to `almost_full`, a bad one is dropped,
  and the good one after it comes out with `err_tvalid`;
* **`rx_verdicts_aligned`** — in every run in which no frame is dropped and neither FIFO is written
  while full, each packet comes out with its own verdict.
-/

namespace Nf10.Hw

open Framing

variable {p : Port}

/-- Every packet has its own verdict so far. The verdicts of the admitted frames are, in order:
those handed out with `tlast`, those in `rx_info_fifo`, and those the MAC has yet to give. -/
structure VerdictsAligned (s : RxBench p) : Prop where
  -- The packets are the admitted frames, so the `k`-th `tlast` is that of the `k`-th frame.
  stream : s.beats <+: s.admitted.flatMap MacFrame.beats
  -- One verdict for each `tlast` handshaken.
  counted : s.verdicts.length = s.beats.countP Prod.snd
  -- It is the verdict of that frame.
  aligned : s.verdicts <+: s.admitted.map MacFrame.bad
  -- `rx_info_fifo` holds the verdicts of the frames in between.
  pending : s.verdicts ++ s.queue.rxInfoFifo.contents ++ s.mac.owed = s.admitted.map MacFrame.bad

/-- The condition on a step, read on the state before it: no frame begins while `almost_full` is
high, the data FIFO is not written while full, no verdict is given while the info FIFO is full. -/
def RxLossless (s : RxBench p) : RxStep p → Prop
  | .mac c =>
    ((s.mac.next c.offer c.idleData).2.2.isSome → c.fifoAlmostFull = false)
      ∧ (s.writes c → s.queue.rxFifo.count < p.rxFifoDepth)
      ∧ ((s.verdict? c).isSome → c.infoWfull = false)
  | _ => True

instance (s : RxBench p) : ∀ e, Decidable (RxLossless s e)
  | .mac c => inferInstanceAs (Decidable
      (((s.mac.next c.offer c.idleData).2.2.isSome → c.fifoAlmostFull = false)
        ∧ (s.writes c → s.queue.rxFifo.count < p.rxFifoDepth)
        ∧ ((s.verdict? c).isSome → c.infoWfull = false)))
  | .axi _ => isTrue trivial
  | .syncData => isTrue trivial
  | .syncInfo => isTrue trivial

/-- Without losses nothing is written to a full data FIFO. -/
theorem RxLossless.fits {s : RxBench p} {e : RxStep p} (h : RxLossless s e) : RxFits s e := by
  cases e with
  | mac c => exact h.2.1
  | axi i => trivial
  | syncData => trivial
  | syncInfo => trivial

/-! ## The info FIFO

A pulse writes the verdict that is due, and the end of a packet reads one. Nothing else touches the
info FIFO, so it holds the verdicts that have been given and not yet handed out. -/

/-- A verdict that is given is the oldest one owed. -/
theorem RxBench.owed_of_verdict {s : RxBench p} {c : MacCycle p} {b : Bool}
    (h : s.verdict? c = some b) : ∃ rest, s.mac.owed = b :: rest := by
  have hdue : s.mac.due.head? = some b := by
    unfold RxBench.verdict? at h
    split at h
    · exact h
    · cases h
  unfold Mac.due at hdue
  cases howed : s.mac.owed with
  | nil => simp [howed] at hdue
  | cons b' rest =>
    refine ⟨rest, ?_⟩
    rw [howed] at hdue
    split at hdue
    · rw [Option.some.inj hdue]
    · cases rest with
      | nil => simp at hdue
      | cons b'' rest => rw [Option.some.inj hdue]

/-- The info FIFO after a cycle of the MAC clock. -/
theorem RxBench.macStep_rxInfoFifo (s : RxBench p) (c : MacCycle p) :
    (s.macStep c).queue.rxInfoFifo = match s.verdict? c with
      | some b => s.queue.rxInfoFifo.write c.infoWfull b
      | none => s.queue.rxInfoFifo := by
  simp only [RxBench.macStep, RxQueue.macEdge, RxBench.macIn]
  obtain ⟨v, hv⟩ : ∃ v, s.verdict? c = v := ⟨_, rfl⟩
  simp only [hv]
  cases v with
  | none => rfl
  | some b => cases b <;> rfl

/-- The verdict handed out at an AXI edge. -/
def RxQueue.verdictOut (q : RxQueue p) (i : RxAxiIn p) : List Bool :=
  if (q.axiOut i).tvalid && i.tready && (q.axiOut i).tlast then [(q.axiOut i).errTvalid] else []

/-- Only `ERR_WAIT` ends a packet or looks at the info FIFO. -/
theorem RxQueue.axiOut_quiet {q : RxQueue p} (he : q.errState ≠ .errWait) (i : RxAxiIn p) :
    (q.axiOut i).tlast = false ∧ (q.axiOut i).infoFifoRdEn = false := by
  unfold RxQueue.axiOut
  cases hst : q.errState with
  | errIdle =>
    simp only [rxAxi]
    split <;> exact ⟨rfl, rfl⟩
  | errBubble =>
    simp only [rxAxi]
    split <;> exact ⟨rfl, rfl⟩
  | errWait => exact absurd hst he

/-- **A handshake with `tlast` takes one verdict** off the info FIFO, and no other edge does. -/
theorem RxQueue.axi_verdict (q : RxQueue p) (i : RxAxiIn p) :
    q.verdictOut i ++ (q.axiEdge i).rxInfoFifo.contents = q.rxInfoFifo.contents
      ∧ (q.verdictOut i).length = (q.beat i).countP Prod.snd := by
  -- edges without `tlast` leave the info FIFO alone
  have hquiet (htlast : (q.axiOut i).tlast = false) (hrd : (q.axiOut i).infoFifoRdEn = false) :
      q.verdictOut i ++ (q.axiEdge i).rxInfoFifo.contents = q.rxInfoFifo.contents
        ∧ (q.verdictOut i).length = (q.beat i).countP Prod.snd := by
    constructor
    · simp [RxQueue.verdictOut, RxQueue.axiEdge, htlast, hrd]
    · simp only [RxQueue.verdictOut, RxQueue.beat, htlast, Bool.and_false, Bool.false_eq_true,
        if_false]
      split <;> rfl
  cases he : q.errState with
  | errIdle =>
    have hout := RxQueue.axiOut_quiet (q := q) (by simp [he]) i
    exact hquiet hout.1 hout.2
  | errBubble =>
    have hout := RxQueue.axiOut_quiet (q := q) (by simp [he]) i
    exact hquiet hout.1 hout.2
  | errWait =>
    cases hs : q.rxInfoFifo.seen with
    | nil =>
      obtain ⟨hout, _⟩ := RxQueue.axi_wait_empty i he hs
      exact hquiet (by rw [hout]) (by rw [hout])
    | cons bad bads =>
      cases hr : i.tready with
      | false =>
        obtain ⟨hout, hedge⟩ := RxQueue.axi_wait_stall i he hs hr
        rw [hedge]
        simp [RxQueue.verdictOut, RxQueue.beat, hr]
      | true =>
        -- the handshake of the last word
        have hout : q.axiOut i = ⟨.errBubble, true, true, true, true, bad⟩ := by
          simp [RxQueue.axiOut, rxAxi, he, hs, hr, AsyncFifo.front]
        rw [AsyncFifo.contents_of_seen hs]
        simp [RxQueue.verdictOut, RxQueue.beat, RxQueue.axiEdge, hout, hr]

/-! ## The invariant

The verdicts of the admitted frames are in three places: handed out, in the FIFO, owed by the MAC. A
frame that is dropped is owed one too, which is why the invariant needs that there is none. -/

/-- The invariant over whole runs. -/
structure RxVerdictInv (s : RxBench p) : Prop where
  stream : RxStreamInv s
  counted : s.verdicts.length = s.beats.countP Prod.snd
  pending : s.verdicts ++ s.queue.rxInfoFifo.contents ++ s.mac.owed = s.admitted.map MacFrame.bad

namespace RxVerdictInv

variable {s : RxBench p}

/-- After reset there are no frames and no verdicts. -/
theorem reset (axis : Word p) : RxVerdictInv (RxBench.reset axis) :=
  ⟨RxStreamInv.reset axis, rfl, rfl⟩

/-- Without drops the MAC owes a verdict for each frame admitted. -/
theorem begin_frame (h : RxVerdictInv s) (c : MacCycle p)
    (hdrop : (s.mac.next c.offer c.idleData).2.2.isSome → c.fifoAlmostFull = false) :
    s.verdicts ++ s.queue.rxInfoFifo.contents ++ (s.mac.next c.offer c.idleData).2.1.owed
      = (s.macStep c).admitted.map MacFrame.bad := by
  simp only [RxBench.macStep]
  obtain ⟨w, rest, _, hnext⟩ | ⟨f, _, hspaced, _, hnext⟩ | ⟨_, hnext⟩ :=
    s.mac.next_cases c.offer c.idleData
  · rw [hnext]
    simpa using h.pending
  · -- a frame begins in `IDLE`, and is admitted since none is dropped
    obtain ⟨written, popped, _, hw, _, _⟩ := h.stream
    have hstate := hw.state_of_spaced hspaced
    have hfull := hdrop (by rw [hnext]; rfl)
    rw [hnext, if_pos ⟨hstate, hfull⟩]
    simp [← h.pending]
  · rw [hnext]
    simpa using h.pending

/-- A cycle without a loss keeps the invariant. -/
theorem macStep (h : RxVerdictInv s) (c : MacCycle p) (hl : RxLossless s (.mac c)) :
    RxVerdictInv (s.macStep c) where
  stream := h.stream.macStep c hl.fits
  counted := h.counted
  pending := by
    rw [← h.begin_frame c hl.1, s.macStep_rxInfoFifo c]
    simp only [RxBench.macStep]
    cases hv : s.verdict? c with
    | none => rfl
    | some b =>
      obtain ⟨rest, howed⟩ := RxBench.owed_of_verdict hv
      -- a verdict of this cycle was owed before the cycle
      have hnextOwed : ∃ more, (s.mac.next c.offer c.idleData).2.1.owed = b :: more := by
        obtain ⟨w, r, _, hnext⟩ | ⟨f, _, _, _, hnext⟩ | ⟨_, hnext⟩ :=
          s.mac.next_cases c.offer c.idleData
        · exact ⟨rest, by rw [hnext]; exact howed⟩
        · exact ⟨rest ++ [f.bad], by rw [hnext, howed]; rfl⟩
        · exact ⟨rest, by rw [hnext]; exact howed⟩
      obtain ⟨more, hmore⟩ := hnextOwed
      simp [hl.2.2 (by simp [hv]), hmore]

theorem axiStep (h : RxVerdictInv s) (i : RxAxiIn p) : RxVerdictInv (s.axiStep i) := by
  obtain ⟨hinfo, hcount⟩ := s.queue.axi_verdict i
  refine ⟨h.stream.axiStep i, ?_, ?_⟩
  · show (s.verdicts ++ s.queue.verdictOut i).length
      = (s.beats ++ s.queue.beat i).countP Prod.snd
    rw [List.length_append, List.countP_append, h.counted, hcount]
  · show (s.verdicts ++ s.queue.verdictOut i) ++ (s.queue.axiEdge i).rxInfoFifo.contents
      ++ s.mac.owed = s.admitted.map MacFrame.bad
    rw [List.append_assoc s.verdicts, hinfo, h.pending]

/-- **The step lemma.** -/
theorem step (h : RxVerdictInv s) (e : RxStep p) (hl : RxLossless s e) :
    RxVerdictInv (s.step e) := by
  cases e with
  | mac c => exact h.macStep c hl
  | axi i => exact h.axiStep i
  | syncData => exact ⟨h.stream.step .syncData trivial, h.counted, h.pending⟩
  | syncInfo =>
    refine ⟨h.stream.step .syncInfo trivial, h.counted, ?_⟩
    simpa [RxBench.step] using h.pending

theorem verdictsAligned (h : RxVerdictInv s) : VerdictsAligned s where
  stream := h.stream.beats_isPrefix
  counted := h.counted
  aligned := ⟨s.queue.rxInfoFifo.contents ++ s.mac.owed, by rw [← List.append_assoc, h.pending]⟩
  pending := h.pending

end RxVerdictInv

/-- **Verdict alignment.** For every sequence of MAC frames, each followed by its verdict at any
distance, every interleaving of the two clocks and every `tready`: in a run in which no frame begins
while `almost_full` is high and neither FIFO is written while full, each packet comes out with its
own verdict. -/
theorem rx_verdicts_aligned (axis : Word p) (es : List (RxStep p))
    (hl : Runs.Along RxBench.step RxLossless (RxBench.reset axis) es) :
    VerdictsAligned (Runs.run RxBench.step (RxBench.reset axis) es) := by
  have hstep : ∀ (s : RxBench p) e, RxVerdictInv s → RxLossless s e → RxVerdictInv (s.step e) :=
    fun s e h => h.step e
  exact (Runs.run_invariant hstep (RxVerdictInv.reset axis) hl).verdictsAligned

/-- The frame of two words comes out with its own verdict. -/
theorem rx_verdicts_aligned_two_words :
    VerdictsAligned (Runs.run RxBench.step (RxBench.reset ⟨0, 0⟩) twoWordRun) :=
  rx_verdicts_aligned ⟨0, 0⟩ twoWordRun (by decide)

/-! ## A dropped frame

10G, with exact flags. Three good frames of 127 words fill the FIFO to 384 entries, 128 short of its
512: the bad frame after them is dropped. Everything is read out; then one more good frame goes
through. The run is followed phase by phase, each by the run lemma of its kind. -/

/-- A cycle without data in which a verdict is given. -/
def pulseCycle (count : Nat) : RxStep p :=
  .mac ⟨none, 0, true, exactFlag p count, false⟩

/-- An edge of the AXI clock with `tready` high. -/
def takeEdge : RxStep p :=
  .axi ⟨true, ⟨0, 0⟩, false⟩

/-- Frames of one word, one with a bad verdict and one with a good one. -/
def shortBad : MacFrame .tenGig := zeroFrame .tenGig 0 true
def shortGood : MacFrame .tenGig := zeroFrame .tenGig 0 false

/-- `f` three times; a frame that is dropped; the four verdicts. -/
def dropRun (f : MacFrame .tenGig) : List (RxStep .tenGig) :=
  feedCycles 0 [f, f, f] ++ [quietCycle 384 (some shortBad), quietCycle 384 none]
    ++ List.replicate 4 (pulseCycle 384)

/-- Everything arrives and the three packets are read out. -/
def readRun (f : MacFrame .tenGig) : List (RxStep .tenGig) :=
  List.replicate (places [f, f, f]) .syncData ++ List.replicate 4 .syncInfo
    ++ List.replicate (f.words.length + 2) takeEdge ++ List.replicate (f.words.length + 2) takeEdge
    ++ List.replicate (f.words.length + 2) takeEdge

/-- One more good frame with its verdict, read out at once. -/
def lateRun : List (RxStep .tenGig) :=
  feedCycles 0 [shortGood] ++ [pulseCycle 2]
    ++ ([.syncData, .syncData, .syncInfo] ++ List.replicate (shortGood.words.length + 2) takeEdge)

section

variable (f : MacFrame .tenGig)

/-- After `dropRun`: the FIFOs are out of step, three packets against four verdicts. -/
def afterDrop : RxBench .tenGig where
  queue := ⟨.idle, .errBubble, ⟨0, 0⟩, ⟨[], stored [f, f, f]⟩, ⟨[], [false, false, false, true]⟩⟩
  mac := ⟨[], true, []⟩
  admitted := [f, f, f]
  dropped := [shortBad]
  beats := []
  verdicts := []

/-- After `readRun`: one verdict is left, that of a frame that was never admitted. -/
def afterRead : RxBench .tenGig where
  queue := ⟨.idle, .errBubble, ⟨0, 0⟩, ⟨[], []⟩, ⟨[true], []⟩⟩
  mac := ⟨[], true, []⟩
  admitted := [f, f, f]
  dropped := [shortBad]
  beats := f.beats ++ (f.beats ++ f.beats)
  verdicts := [false, false, false]

variable {f}

/-- The FIFO fills up, the bad frame is dropped, and its verdict is written. -/
theorem run_dropRun (hlen : f.words.length = 127) (hgood : f.bad = false) :
    Runs.run RxBench.step (RxBench.reset ⟨0, 0⟩) (dropRun f) = afterDrop f
      ∧ Runs.Along RxBench.step (fun s e => RxFlagsExact s e ∧ RxFits s e) (RxBench.reset ⟨0, 0⟩)
        (dropRun f) := by
  have hplaces : places [f, f, f] = 384 := by
    simp [places, hlen]
  have hempty : (RxBench.reset ⟨0, 0⟩ : RxBench .tenGig).queue.rxFifo.count = 0 := rfl
  obtain ⟨hfill, hfillOk⟩ := RxBench.run_feed [f, f, f] rfl rfl hempty (by rw [hplaces]; decide)
  -- nothing is written from here on, so the count stays
  have hcycle (s : RxBench .tenGig) (hs : s.queue.rxFifo = ⟨[], stored [f, f, f]⟩)
      (offer : Option (MacFrame .tenGig)) (pulse : Bool) :
      RxFlagsExact s (.mac ⟨offer, 0, pulse, exactFlag .tenGig 384, false⟩)
        ∧ RxFits s (.mac ⟨offer, 0, pulse, exactFlag .tenGig 384, false⟩) := by
    have hcount : s.queue.rxFifo.count = 384 := by
      rw [hs, ← hplaces, ← length_stored]
      rfl
    exact RxBench.exactCycle_ok hcount (by decide) offer pulse
  rw [dropRun, List.append_assoc, Runs.run_append, Runs.along_append, hfill]
  simp only [List.map_cons, List.map_nil, hgood]
  exact ⟨rfl, hfillOk, hcycle _ rfl _ _, hcycle _ rfl _ _, hcycle _ rfl _ _, hcycle _ rfl _ _,
    hcycle _ rfl _ _, hcycle _ rfl _ _, trivial⟩

variable (f) in
/-- The state in which everything written has become visible. -/
def arrived : RxBench .tenGig :=
  { afterDrop f with
    queue := ⟨.idle, .errBubble, ⟨0, 0⟩, ⟨stored [f, f, f], []⟩,
      ⟨[false, false, false, true], []⟩⟩ }

/-- The three packets are read out with three of the four verdicts. -/
theorem run_readRun : Runs.run RxBench.step (afterDrop f) (readRun f) = afterRead f := by
  have hsync : Runs.run RxBench.step (afterDrop f)
      (List.replicate (places [f, f, f]) .syncData ++ List.replicate 4 .syncInfo) = arrived f := by
    rw [← length_stored, Runs.run_append,
      RxBench.run_syncData (stored [f, f, f])
        (show (afterDrop f).queue.rxFifo.inFlight = _ from rfl)]
    rfl
  have hpacket (s : RxBench .tenGig) {more : List (Word .tenGig)} {bads : List Bool}
      (he : s.queue.errState = .errBubble)
      (hseen : s.queue.rxFifo.seen = f.words ++ ⟨0, 0⟩ :: more)
      (hinfo : s.queue.rxInfoFifo.seen = false :: bads) :
      Runs.run RxBench.step s (List.replicate (f.words.length + 2) takeEdge)
        = s.drained .errBubble ⟨0, 0⟩ more bads f.beats [false] :=
    RxBench.run_packet rfl he hseen f.words_ne_nil f.isEnd_of_mem rfl hinfo
  have hthree : stored [f, f, f]
      = f.words ++ ⟨0, 0⟩ :: (f.words ++ ⟨0, 0⟩ :: (f.words ++ ⟨0, 0⟩ :: [])) := by
    simp [stored]
  rw [readRun, Runs.run_append, Runs.run_append, Runs.run_append, hsync,
    hpacket (arrived f) rfl hthree rfl, hpacket (RxBench.drained ..) rfl rfl rfl,
    hpacket (RxBench.drained ..) rfl rfl rfl, RxBench.drained_drained, RxBench.drained_drained]
  rfl

/-- Reads and synchronisers meet every condition on the write side. -/
theorem along_readRun (s : RxBench .tenGig) :
    Runs.Along RxBench.step (fun s e => RxFlagsExact s e ∧ RxFits s e) s (readRun f) := by
  apply Runs.along_of_mem
  intro e he s
  simp only [readRun, List.mem_append, List.mem_replicate] at he
  obtain (((⟨_, rfl⟩ | ⟨_, rfl⟩) | ⟨_, rfl⟩) | ⟨_, rfl⟩) | ⟨_, rfl⟩ := he <;>
    exact ⟨trivial, trivial⟩

variable (f) in
/-- The late frame has arrived; the verdict in front is not its own. -/
def lateArrived : RxBench .tenGig :=
  { afterRead f with
    queue := ⟨.idle, .errBubble, ⟨0, 0⟩, ⟨shortGood.words ++ [⟨0, 0⟩], []⟩, ⟨[true, false], []⟩⟩
    admitted := [f, f, f, shortGood] }

/-- The frame after them is read out with the verdict that is left. -/
theorem run_lateRun :
    Runs.run RxBench.step (afterRead f) lateRun
        = (lateArrived f).drained .errBubble ⟨0, 0⟩ [] [false] shortGood.beats [true]
      ∧ Runs.Along RxBench.step (fun s e => RxFlagsExact s e ∧ RxFits s e) (afterRead f)
        lateRun := by
  have hempty : (afterRead f).queue.rxFifo.count = 0 := rfl
  obtain ⟨hfeed, hfeedOk⟩ := RxBench.run_feed [shortGood] rfl rfl hempty (by decide)
  have hquiet : ∀ e ∈ [.syncData, .syncData, .syncInfo]
      ++ List.replicate (shortGood.words.length + 2) takeEdge,
      ∀ s : RxBench .tenGig, RxFlagsExact s e ∧ RxFits s e := by
    intro e he s
    simp only [List.mem_append, List.mem_cons, List.mem_replicate, List.not_mem_nil, or_false] at he
    obtain (rfl | rfl | rfl) | ⟨_, rfl⟩ := he <;> exact ⟨trivial, trivial⟩
  constructor
  · have harrive : Runs.run RxBench.step (afterRead f)
        (feedCycles 0 [shortGood] ++ [pulseCycle 2] ++ [.syncData, .syncData, .syncInfo])
        = lateArrived f := by
      rw [Runs.run_append, Runs.run_append, hfeed]
      rfl
    rw [lateRun, ← List.append_assoc, Runs.run_append, harrive]
    exact RxBench.run_packet rfl rfl rfl shortGood.words_ne_nil shortGood.isEnd_of_mem rfl rfl
  · have hcount : (Runs.run RxBench.step (afterRead f) (feedCycles 0 [shortGood])
        ).queue.rxFifo.count = 2 := by
      rw [hfeed, RxBench.fed_count, hempty, length_stored]
      rfl
    rw [lateRun, Runs.along_append, Runs.along_append]
    exact ⟨⟨hfeedOk, RxBench.exactCycle_ok hcount (by decide) none true, trivial⟩,
      Runs.along_of_mem hquiet _⟩

end

/-- **Counterexample.** Neither FIFO overflows, and the fourth packet, a good frame, comes out with
the verdict of the frame that was dropped. -/
theorem rx_verdict_shifted :
    Runs.Along RxBench.step (fun s e => RxFlagsExact s e ∧ RxFits s e) (RxBench.reset ⟨0, 0⟩)
        (dropRun (zeroFrame .tenGig 126 false) ++ readRun (zeroFrame .tenGig 126 false) ++ lateRun)
      ∧ ¬ VerdictsAligned (Runs.run RxBench.step (RxBench.reset ⟨0, 0⟩)
        (dropRun (zeroFrame .tenGig 126 false) ++ readRun (zeroFrame .tenGig 126 false)
          ++ lateRun)) := by
  have hlen := length_words_zeroFrame .tenGig 126 false
  have hgood : (zeroFrame .tenGig 126 false).bad = false := rfl
  -- the long frame stays a variable: only its length and its verdict matter
  generalize zeroFrame .tenGig 126 false = f at hlen hgood
  obtain ⟨hdrop, hdropOk⟩ := run_dropRun hlen hgood
  obtain ⟨hlate, hlateOk⟩ := run_lateRun (f := f)
  simp only [Runs.along_append, Runs.run_append, hdrop, run_readRun, hlate]
  refine ⟨⟨⟨hdropOk, along_readRun _⟩, hlateOk⟩, ?_⟩
  intro h
  have hverdicts : [false, false, false, true] <+: [f.bad, f.bad, f.bad, false] := h.aligned
  rw [hgood] at hverdicts
  revert hverdicts
  decide

end Nf10.Hw
