import Nf10.Hw.RxQueue
import Nf10.Lib.Framing

/-!
# Nf10 — what the receive queue puts out

Stream fidelity of `rx_queue`: whatever the clocks and `tready` do, the AXI side puts out the words
of the admitted frames, in order, with `tlast` on the last word of each and nowhere else.

The FIFO is the meeting point. The write side keeps it a `Framed` stream of the admitted frames
(`RxWriteInv`); the read side puts out `lookahead` of what it has read (`RxReadInv`), where the word
in the AXI registers is the one held back.
-/

namespace Nf10.Hw

open Framing

variable {p : Port}

/-- The beats of a frame: its words, the last with `tlast`. -/
def MacFrame.beats (f : MacFrame p) : List (Word p × Bool) :=
  mark f.words

theorem MacFrame.words_ne_nil (f : MacFrame p) : f.words ≠ [] :=
  List.cons_ne_nil _ _

/-- No word of a frame is the one that closes it. -/
theorem MacFrame.isEnd_of_mem (f : MacFrame p) : ∀ w ∈ f.words, w.isEnd = false := by
  intro w hw
  rcases List.mem_cons.mp hw with rfl | hw
  · exact Word.isEnd_full f.first
  · simpa [Word.isEnd] using f.valid w hw

/-! ## The write side

What has been written is a framed stream: the words of each admitted frame and a word without
strobes behind them. The state of the write side says which part of this is under way. -/

/-- The word stream `written` is made of the admitted frames. In `WAIT_FOR_EOP` the last of them is
still being written; in `DROP` the rest of the frame on the wire is being skipped. -/
inductive RxWriteInv (m : Mac p) (admitted : List (MacFrame p)) (written : List (Word p)) :
    RxState → Prop where
  | idle (hcurrent : m.current = [])
      (hframed : Framed Word.isEnd (admitted.map MacFrame.words) written) :
      RxWriteInv m admitted written .idle
  | waitForEop {done : List (MacFrame p)} {f : MacFrame p} {closed given : List (Word p)}
      (hspaced : m.spaced = false) (hadmitted : admitted = done ++ [f])
      (hframed : Framed Word.isEnd (done.map MacFrame.words) closed)
      (hwritten : written = closed ++ given) (hwords : f.words = given ++ m.current) :
      RxWriteInv m admitted written .waitForEop
  | drop (hspaced : m.spaced = false)
      (hfull : ∀ w ∈ m.current.dropLast, w.strb = BitVec.allOnes p.lanes)
      (hframed : Framed Word.isEnd (admitted.map MacFrame.words) written) :
      RxWriteInv m admitted written .drop

namespace RxWriteInv

variable {m : Mac p} {admitted : List (MacFrame p)} {written : List (Word p)} {state : RxState}

/-- No two closing words are in a row, so an end that is read belongs to a packet. -/
theorem spaced (h : RxWriteInv m admitted written state) : Spaced Word.isEnd written := by
  cases h with
  | idle _ hframed => exact hframed.spaced
  | @waitForEop done f closed given _ _ hframed hwritten hwords =>
    rw [hwritten]
    apply Framed.spaced_append hframed.spaced
    intro w hw
    apply f.isEnd_of_mem
    rw [hwords]
    exact List.mem_append_left _ hw
  | drop _ _ hframed => exact hframed.spaced

/-- Reading all that was written puts out the admitted frames, the last perhaps in part. -/
theorem lookahead_isPrefix (h : RxWriteInv m admitted written state) :
    lookahead Word.isEnd written <+: admitted.flatMap MacFrame.beats := by
  have hclosed {fs : List (MacFrame p)} {l : List (Word p)}
      (hframed : Framed Word.isEnd (fs.map MacFrame.words) l) :
      lookahead Word.isEnd l = fs.flatMap MacFrame.beats := by
    rw [hframed.lookahead_eq, List.flatMap_map]
    rfl
  cases h with
  | idle _ hframed => rw [hclosed hframed]
  | @waitForEop done f closed given _ hadmitted hframed hwritten hwords =>
    -- the frame being written: no end word in it yet
    have hgiven : ∀ w ∈ given, w.isEnd = false := by
      intro w hw
      apply f.isEnd_of_mem
      rw [hwords]
      exact List.mem_append_left _ hw
    have hpart : lookahead Word.isEnd given <+: f.beats := by
      rw [MacFrame.beats, hwords]
      exact lookahead_partial hgiven m.current
    rw [hwritten, lookahead_append_of_atStart hframed.atStart, hclosed hframed, hadmitted]
    simpa using hpart
  | drop _ _ hframed => rw [hclosed hframed]

/-- After a cycle without data the write side is idle. -/
theorem state_of_spaced (h : RxWriteInv m admitted written state) (hspaced : m.spaced = true) :
    state = .idle := by
  cases h with
  | idle => rfl
  | waitForEop hns => simp [hns] at hspaced
  | drop hns => simp [hns] at hspaced

/-- An idle write side has no frame on the wire. -/
theorem current_of_idle (h : RxWriteInv m admitted written .idle) : m.current = [] := by
  cases h with
  | idle hcurrent => exact hcurrent

theorem setOwed (h : RxWriteInv m admitted written state) (owed : List Bool) :
    RxWriteInv { m with owed := owed } admitted written state := by
  cases h with
  | idle hcurrent hframed => exact .idle hcurrent hframed
  | waitForEop hspaced hadmitted hframed hwritten hwords =>
    exact .waitForEop hspaced hadmitted hframed hwritten hwords
  | drop hspaced hfull hframed => exact .drop hspaced hfull hframed

/-- **A cycle of the MAC clock.** A frame is admitted in `IDLE` with `almost_full` low, written word
by word, and closed by the first cycle without data. -/
theorem next (h : RxWriteInv m admitted written state) (offer : Option (MacFrame p))
    (idleData : BitVec (8 * p.lanes)) (almostFull : Bool) :
    RxWriteInv (m.next offer idleData).2.1
      (admitted ++ if state = .idle ∧ almostFull = false
        then (m.next offer idleData).2.2.toList else [])
      (if (rxWrite state (m.next offer idleData).1.strb almostFull).2
        then written ++ [(m.next offer idleData).1] else written)
      (rxWrite state (m.next offer idleData).1.strb almostFull).1 := by
  have hzero : (0 : BitVec p.lanes) ≠ BitVec.allOnes p.lanes := p.allOnes_ne_zero.symm
  obtain ⟨w, rest, hcur, hnext⟩ | ⟨f, hcur, hsp, _, hnext⟩ | ⟨hcur, hnext⟩ :=
    m.next_cases offer idleData
  · -- a word of the frame on the wire goes on
    cases h with
    | idle hcurrent _ => simp [hcurrent] at hcur
    | @waitForEop done f closed given hspaced hadmitted hframed hwritten hwords =>
      have hw : w.strb ≠ 0 := by
        have := f.isEnd_of_mem w (by rw [hwords, hcur]; simp)
        simpa [Word.isEnd] using this
      simp only [hnext, rxWrite, hw]
      have hwritten' : written ++ [w] = closed ++ (given ++ [w]) := by simp [hwritten]
      exact .waitForEop rfl (by simpa using hadmitted) hframed hwritten' (by simp [hwords, hcur])
    | drop hspaced hfull hframed =>
      rw [hcur] at hfull
      by_cases hw : w.strb = BitVec.allOnes p.lanes
      · simp only [hnext, rxWrite, ne_eq, hw, not_true_eq_false, if_false]
        refine .drop rfl ?_ (by simpa using hframed)
        intro v hv
        apply hfull v
        cases rest with
        | nil => cases hv
        | cons x rest => exact List.mem_cons_of_mem w hv
      · -- a word that is not fully valid is the last of its frame
        have hrest : rest = [] := by
          cases rest with
          | nil => rfl
          | cons x rest => exact absurd (hfull w (by simp)) hw
        simp only [hnext, rxWrite, ne_eq, hw, not_false_eq_true, if_true]
        exact .idle hrest (by simpa using hframed)
  · cases h with
    | idle _ hframed =>
      cases almostFull with
      | false =>
        simp only [hnext, rxWrite, Word.full]
        exact .waitForEop rfl rfl hframed rfl
          (show f.words = [Word.full f.first] ++ f.rest from rfl)
      | true =>
        simp only [hnext, rxWrite, Word.full]
        exact .drop rfl f.full (by simpa using hframed)
    | waitForEop hspaced => simp [hspaced] at hsp
    | drop hspaced => simp [hspaced] at hsp
  · cases h with
    | idle _ hframed =>
      simp only [hnext, rxWrite, hzero]
      exact .idle hcur (by simpa using hframed)
    | @waitForEop done f closed given hspaced hadmitted hframed hwritten hwords =>
      simp only [hnext, rxWrite]
      refine .idle hcur ?_
      have hgiven : f.words = given := by rw [hwords, hcur, List.append_nil]
      have hsnoc := hframed.snoc f.words_ne_nil f.isEnd_of_mem
        (show (⟨idleData, 0⟩ : Word p).isEnd = true from rfl)
      simpa [hadmitted, hwritten, ← hgiven] using hsnoc
    | drop hspaced hfull hframed =>
      simp only [hnext, rxWrite, ne_eq, hzero]
      exact .idle hcur (by simpa using hframed)

end RxWriteInv

/-! ## The read side

What has been read determines what has been put out: every word but the one in the registers, which
is put out when it is known whether it is the last. -/

/-- The AXI side has read `popped` and put out `lookahead` of it. Between two packets it holds
nothing back; inside one it holds the last word read in the AXI registers; in `ERR_WAIT` it has seen
that the word it holds is the last. -/
inductive RxReadInv (q : RxQueue p) (popped : List (Word p)) : ErrState → Prop where
  | errBubble (hstart : AtStart Word.isEnd popped) : RxReadInv q popped .errBubble
  | errIdle {l : List (Word p)} (hpopped : popped = l ++ [q.axis])
      (haxis : q.axis.isEnd = false) : RxReadInv q popped .errIdle
  | errWait {l rest : List (Word p)} {t : Word p} (hpopped : popped = l ++ [q.axis])
      (haxis : q.axis.isEnd = false) (hseen : q.rxFifo.seen = t :: rest) (ht : t.isEnd = true) :
      RxReadInv q popped .errWait

namespace RxReadInv

variable {q q' : RxQueue p} {popped : List (Word p)} {e : ErrState}

/-- The read side depends on its registers and on the front of the FIFO, which other steps only
extend. -/
theorem congr (h : RxReadInv q popped e) (haxis : q'.axis = q.axis)
    (hseen : q.rxFifo.seen <+: q'.rxFifo.seen) : RxReadInv q' popped e := by
  cases h with
  | errBubble hstart => exact .errBubble hstart
  | errIdle hpopped hax => exact .errIdle (haxis ▸ hpopped) (haxis ▸ hax)
  | errWait hpopped hax hs ht =>
    obtain ⟨more, hmore⟩ := hseen
    rw [hs, List.cons_append] at hmore
    exact .errWait (haxis ▸ hpopped) (haxis ▸ hax) hmore.symm ht

end RxReadInv

/-- The words put out at an AXI edge. -/
def RxQueue.beat (q : RxQueue p) (i : RxAxiIn p) : List (Word p × Bool) :=
  if (q.axiOut i).tvalid && i.tready then [(q.axis, (q.axiOut i).tlast)] else []

/-- **An edge of the AXI clock.** What is put out is what `lookahead` gains by the word read. -/
theorem RxReadInv.axiEdge {q : RxQueue p} {written popped : List (Word p)}
    (h : RxReadInv q popped q.errState) (hc : q.rxFifo.Carries written popped)
    (hspaced : Spaced Word.isEnd written) (i : RxAxiIn p) :
    ∃ popped', (q.axiEdge i).rxFifo.Carries written popped'
      ∧ RxReadInv (q.axiEdge i) popped' (q.axiEdge i).errState
      ∧ lookahead Word.isEnd popped' = lookahead Word.isEnd popped ++ q.beat i := by
  -- the edges at which nothing moves
  have hstay : q.axiEdge i = q → q.beat i = [] → ∃ popped',
      (q.axiEdge i).rxFifo.Carries written popped'
        ∧ RxReadInv (q.axiEdge i) popped' (q.axiEdge i).errState
        ∧ lookahead Word.isEnd popped' = lookahead Word.isEnd popped ++ q.beat i := by
    intro hedge hbeat
    rw [hedge, hbeat, List.append_nil]
    exact ⟨popped, hc, h, rfl⟩
  generalize he : q.errState = e at h
  cases h with
  | errBubble hstart =>
    cases hs : q.rxFifo.seen with
    | nil =>
      obtain ⟨hout, hedge⟩ := RxQueue.axi_bubble_empty i he hs
      exact hstay hedge (by simp [RxQueue.beat, hout])
    | cons x rest =>
      obtain ⟨hout, hedge⟩ := RxQueue.axi_bubble_load i he hs
      -- what follows a closed frame is the first word of the next
      have hnext : Spaced Word.isEnd (popped ++ x :: q.rxFifo.read.contents) := by
        rwa [← AsyncFifo.contents_of_seen hs, hc]
      have hx : x.isEnd = false := hnext.next hstart
      rw [hedge]
      refine ⟨popped ++ [x], hc.read hs, .errIdle rfl hx, ?_⟩
      simp [lookahead_append_of_atStart hstart, lookahead, RxQueue.beat, hout]
  | @errIdle l hpopped haxis =>
    cases hs : q.rxFifo.seen with
    | nil =>
      obtain ⟨hout, hedge⟩ := RxQueue.axi_idle_empty i he hs
      exact hstay hedge (by simp [RxQueue.beat, hout])
    | cons x rest =>
      cases hx : x.isEnd with
      | true =>
        -- the end word stays in front until the last word has gone
        obtain ⟨hout, hedge⟩ := RxQueue.axi_idle_end i he hs hx
        rw [hedge]
        exact ⟨popped, hc, .errWait hpopped haxis hs hx, by simp [RxQueue.beat, hout]⟩
      | false =>
        obtain ⟨hout, hedge⟩ := RxQueue.axi_idle_word i he hs hx
        cases hr : i.tready with
        | false =>
          rw [hr, if_neg Bool.false_ne_true] at hedge
          exact hstay hedge (by simp [RxQueue.beat, hr])
        | true =>
          rw [hr, if_pos rfl] at hedge
          rw [hedge]
          refine ⟨popped ++ [x], hc.read hs, .errIdle rfl hx, ?_⟩
          -- the word held back goes out unmarked: its successor is a word
          rw [hpopped, lookahead_concat l haxis, hx]
          simp [RxQueue.beat, hout, hr]
  | @errWait l rest t hpopped haxis hseen ht =>
    cases hs : q.rxInfoFifo.seen with
    | nil =>
      obtain ⟨hout, hedge⟩ := RxQueue.axi_wait_empty i he hs
      exact hstay hedge (by simp [RxQueue.beat, hout])
    | cons bad bads =>
      cases hr : i.tready with
      | false =>
        obtain ⟨hout, hedge⟩ := RxQueue.axi_wait_stall i he hs hr
        exact hstay hedge (by simp [RxQueue.beat, hr])
      | true =>
        obtain ⟨hout, hedge⟩ := RxQueue.axi_wait_last i he hs hseen hr
        rw [hedge]
        refine ⟨popped ++ [t], hc.read hseen, .errBubble (atStart_concat.mpr ht), ?_⟩
        -- it goes out marked: its successor closes the frame
        rw [hpopped, lookahead_concat l haxis, ht]
        simp [RxQueue.beat, hout, hr]

/-! ## Both sides

The FIFO carries what was written to what is read, so the two sides together give the stream. Its
history is not recorded in the bench, and the invariant says that there is one. -/

/-- The invariant over whole runs, for some history of the data FIFO. -/
def RxStreamInv (s : RxBench p) : Prop :=
  ∃ written popped, s.queue.rxFifo.Carries written popped
    ∧ RxWriteInv s.mac s.admitted written s.queue.state
    ∧ RxReadInv s.queue popped s.queue.errState
    ∧ s.beats = lookahead Word.isEnd popped

namespace RxStreamInv

variable {s : RxBench p}

/-- After reset nothing has been written or read. -/
theorem reset (axis : Word p) : RxStreamInv (RxBench.reset axis) :=
  ⟨[], [], .init, .idle rfl .nil, .errBubble atStart_nil, rfl⟩

/-- A cycle of the MAC clock that does not write to a full FIFO keeps the invariant. -/
theorem macStep (h : RxStreamInv s) (c : MacCycle p) (hfits : RxFits s (.mac c)) :
    RxStreamInv (s.macStep c) := by
  obtain ⟨written, popped, hc, hw, hr, hb⟩ := h
  have hfifo : (s.macStep c).queue.rxFifo.Carries
      (if s.writes c then written ++ [(s.macIn c).rx] else written) popped := by
    rw [s.macStep_rxFifo c]
    cases hwr : s.writes c with
    | false => exact hc
    | true =>
      have hnotFull : s.queue.fifoFull = false := by
        simpa [RxQueue.fifoFull] using hfits hwr
      simp only [hnotFull, if_true]
      exact hc.write _
  have hseen : s.queue.rxFifo.seen <+: (s.macStep c).queue.rxFifo.seen := by
    rw [s.macStep_rxFifo c]
    split
    · rw [AsyncFifo.seen_write]
    · exact List.prefix_refl _
  exact ⟨_, popped, hfifo, (hw.next c.offer c.idleData c.fifoAlmostFull).setOwed _,
    hr.congr rfl hseen, hb⟩

theorem axiStep (h : RxStreamInv s) (i : RxAxiIn p) : RxStreamInv (s.axiStep i) := by
  obtain ⟨written, popped, hc, hw, hr, hb⟩ := h
  obtain ⟨popped', hc', hr', hlook⟩ := hr.axiEdge hc hw.spaced i
  refine ⟨written, popped', hc', hw, hr', ?_⟩
  rw [hlook, ← hb]
  rfl

/-- **The step lemma.** -/
theorem step (h : RxStreamInv s) (e : RxStep p) (hfits : RxFits s e) : RxStreamInv (s.step e) := by
  cases e with
  | mac c => exact h.macStep c hfits
  | axi i => exact h.axiStep i
  | syncData =>
    obtain ⟨written, popped, hc, hw, hr, hb⟩ := h
    exact ⟨written, popped, hc.sync, hw, hr.congr rfl (AsyncFifo.seen_prefix_sync _), hb⟩
  | syncInfo =>
    obtain ⟨written, popped, hc, hw, hr, hb⟩ := h
    exact ⟨written, popped, hc, hw, hr.congr rfl (List.prefix_refl _), hb⟩

/-- What has been put out is the beginning of what was admitted. -/
theorem beats_isPrefix (h : RxStreamInv s) : s.beats <+: s.admitted.flatMap MacFrame.beats := by
  obtain ⟨written, popped, hc, hw, _, hb⟩ := h
  rw [hb]
  exact (lookahead_mono hc.popped_isPrefix).trans hw.lookahead_isPrefix

end RxStreamInv

/-- **Stream fidelity.** For every sequence of MAC frames, every interleaving of the two clocks and
every `tready`, as long as the data FIFO is never written while full: what has been handshaken on
the AXI side is a prefix of the beats of the admitted frames. -/
theorem rx_stream_fidelity (axis : Word p) (es : List (RxStep p))
    (hfits : Runs.Along RxBench.step RxFits (RxBench.reset axis) es) :
    (Runs.run RxBench.step (RxBench.reset axis) es).beats
      <+: (Runs.run RxBench.step (RxBench.reset axis) es).admitted.flatMap MacFrame.beats := by
  have hstep : ∀ (s : RxBench p) e, RxStreamInv s → RxFits s e → RxStreamInv (s.step e) :=
    fun s e h => h.step e
  exact (Runs.run_invariant hstep (RxStreamInv.reset axis) hfits).beats_isPrefix

/-- A frame of twelve bytes. -/
def twoWordFrame : MacFrame .tenGig where
  first := 0x1122334455667788
  rest := [⟨0x99aabbcc, 0x0f⟩]
  valid := by decide
  full := by decide
  bad := false

/-- The frame goes in with its verdict while the AXI side is ready, and comes out. -/
def twoWordRun : List (RxStep .tenGig) :=
  [.mac ⟨some twoWordFrame, 0, true, false, false⟩, .syncData, .axi ⟨true, ⟨0, 0⟩, false⟩,
    .mac ⟨none, 0, true, false, false⟩, .mac ⟨none, 0, true, false, false⟩, .syncData, .syncData,
    .syncInfo, .axi ⟨true, ⟨0, 0⟩, false⟩, .axi ⟨true, ⟨0, 0⟩, false⟩, .axi ⟨true, ⟨0, 0⟩, false⟩]

/-- It comes out as two words, the second with `tlast`. -/
theorem rx_stream_fidelity_two_words :
    (Runs.run RxBench.step (RxBench.reset ⟨0, 0⟩) twoWordRun).beats = twoWordFrame.beats
      ∧ (Runs.run RxBench.step (RxBench.reset ⟨0, 0⟩) twoWordRun).beats
        <+: (Runs.run RxBench.step (RxBench.reset ⟨0, 0⟩) twoWordRun).admitted.flatMap
          MacFrame.beats :=
  ⟨by decide, rx_stream_fidelity ⟨0, 0⟩ twoWordRun (by decide)⟩

/-! ## A reader that does not stall

A packet that lies ready, with its verdict, is put out whole by as many AXI edges with `tready` high
as it has words, one to see that it has ended and one between packets. -/

namespace RxBench

/-- The bench after reads: the rest of both FIFOs, and what was added to the records. -/
def drained (s : RxBench p) (errState : ErrState) (axis : Word p) (seen : List (Word p))
    (bads : List Bool) (beats : List (Word p × Bool)) (verdicts : List Bool) : RxBench p :=
  { s with
    queue := { s.queue with
      errState := errState
      axis := axis
      rxFifo := { s.queue.rxFifo with seen := seen }
      rxInfoFifo := { s.queue.rxInfoFifo with seen := bads } }
    beats := s.beats ++ beats
    verdicts := s.verdicts ++ verdicts }

variable {s : RxBench p} {more : List (Word p)} {bads : List Bool}

theorem drained_drained (e e' : ErrState) (w w' : Word p) (l l' : List (Word p))
    (bs bs' : List Bool) (out out' : List (Word p × Bool)) (vs vs' : List Bool) :
    (s.drained e w l bs out vs).drained e' w' l' bs' out' vs'
      = s.drained e' w' l' bs' (out ++ out') (vs ++ vs') := by
  simp [drained]

/-- The rest of a packet whose first word is in the registers. The induction is on the words to
come. -/
theorem run_packet_rest {i : RxAxiIn p} (hr : i.tready = true) (ws : List (Word p)) {w t : Word p}
    {bad : Bool} (he : s.queue.errState = .errIdle) (haxis : s.queue.axis = w)
    (hseen : s.queue.rxFifo.seen = ws ++ t :: more) (hws : ∀ v ∈ ws, v.isEnd = false)
    (ht : t.isEnd = true) (hinfo : s.queue.rxInfoFifo.seen = bad :: bads) :
    Runs.run step s (List.replicate (ws.length + 2) (.axi i))
      = s.drained .errBubble t more bads (mark (w :: ws)) [bad] := by
  induction ws generalizing s w with
  | nil =>
    -- the end word is seen, then the last word goes out with the verdict
    obtain ⟨hout, hedge⟩ := RxQueue.axi_idle_end i he hseen ht
    have hsee : s.step (.axi i) = s.drained .errWait w (t :: more) (bad :: bads) [] [] := by
      rw [← hinfo, ← haxis, show t :: more = s.queue.rxFifo.seen from hseen.symm]
      simp [step, axiStep, hout, hedge, drained]
    obtain ⟨hout', hedge'⟩ := RxQueue.axi_wait_last
      (q := (s.drained .errWait w (t :: more) (bad :: bads) [] []).queue) i rfl rfl rfl hr
    have hlast : (s.drained .errWait w (t :: more) (bad :: bads) [] []).step (.axi i)
        = s.drained .errBubble t more bads [(w, true)] [bad] := by
      simp only [step, axiStep, hout', hedge', hr]
      simp [drained, RxQueue.load, AsyncFifo.read]
    simp only [List.length_nil, List.replicate_succ, List.replicate_zero, Runs.run_cons,
      Runs.run_nil]
    rw [hsee, hlast]
    rfl
  | cons x ws ih =>
    obtain ⟨hout, hedge⟩ := RxQueue.axi_idle_word i he hseen (hws x (List.mem_cons_self ..))
    have hstep : s.step (.axi i)
        = s.drained .errIdle x (ws ++ t :: more) (bad :: bads) [(w, false)] [] := by
      simp [step, axiStep, hout, hedge, hr, drained, RxQueue.load, AsyncFifo.read, haxis, hseen,
        ← hinfo]
    rw [List.length_cons, List.replicate_succ, Runs.run_cons, hstep,
      ih rfl rfl rfl (fun v hv => hws v (List.mem_cons_of_mem x hv)) rfl, drained_drained]
    rfl

/-- **A packet that lies ready is put out.** -/
theorem run_packet {i : RxAxiIn p} (hr : i.tready = true) {ws : List (Word p)} {t : Word p}
    {bad : Bool} (he : s.queue.errState = .errBubble)
    (hseen : s.queue.rxFifo.seen = ws ++ t :: more) (hne : ws ≠ [])
    (hws : ∀ v ∈ ws, v.isEnd = false) (ht : t.isEnd = true)
    (hinfo : s.queue.rxInfoFifo.seen = bad :: bads) :
    Runs.run step s (List.replicate (ws.length + 2) (.axi i))
      = s.drained .errBubble t more bads (mark ws) [bad] := by
  obtain ⟨w, ws, rfl⟩ := List.exists_cons_of_ne_nil hne
  obtain ⟨hout, hedge⟩ := RxQueue.axi_bubble_load i he hseen
  have hstep : s.step (.axi i) = s.drained .errIdle w (ws ++ t :: more) (bad :: bads) [] [] := by
    simp [step, axiStep, hout, hedge, drained, RxQueue.load, AsyncFifo.read, hseen, ← hinfo]
  rw [List.length_cons, List.replicate_succ, Runs.run_cons, hstep,
    run_packet_rest hr ws rfl rfl rfl (fun v hv => hws v (List.mem_cons_of_mem w hv)) ht rfl,
    drained_drained]
  rfl

theorem run_syncData (l : List (Word p)) (hl : s.queue.rxFifo.inFlight = l) :
    Runs.run step s (List.replicate l.length .syncData)
      = { s with queue := { s.queue with rxFifo := ⟨s.queue.rxFifo.seen ++ l, []⟩ } } := by
  induction l generalizing s with
  | nil =>
    simp only [List.length_nil, List.replicate_zero, Runs.run_nil, List.append_nil]
    rw [← hl]
  | cons x l ih =>
    have hstep : s.step .syncData
        = { s with queue := { s.queue with rxFifo := ⟨s.queue.rxFifo.seen ++ [x], l⟩ } } := by
      simp only [step, AsyncFifo.sync, hl]
    rw [List.length_cons, List.replicate_succ, Runs.run_cons, hstep, ih rfl]
    simp

end RxBench

end Nf10.Hw
