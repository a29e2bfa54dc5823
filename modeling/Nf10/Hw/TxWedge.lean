import Nf10.Hw.TxEmission

/-!
# Nf10 — the transmit queue and packets it cannot hold

The queue stores a packet before it forwards it: the MAC side starts only when the last word has
been accepted. `tready` goes low when 128 places of `tx_fifo` are left. A packet that brings the
FIFO there by itself is never completed, and the queue is stuck for good.

* **`tx_wedge_iff`** — packets of at most `b` bytes never wedge the queue exactly when `b` bytes fit
  below the threshold: 3072 bytes in the 10G core, 896 in the 1G core;
* **`Stuck.run`** — from a wedge with a word on offer that is not the last one there is no way out, and
  **`fillRun_stuck_for_good`** — the packet that fills the queue is such a wedge in either core;
* **`tx_wedged_full_size`** — a packet of 1514 bytes wedges the 1G core.
-/

namespace Nf10.Hw

open Framing

variable {p : Port}

/-- Bytes of a word on offer: those that the strobe marks in the 10G core, and one in the 1G core, whose
words are bytes. -/
def TxBeat.validBytes : {p : Port} → TxBeat p → Nat
  | .tenGig, b => b.marked.1.validBytes
  | .oneGig, _ => 1

/-- The word on offer belongs to a packet of at most `b` bytes: all words but the last are full, and
after a word that is not the last one there is at least one byte to come. -/
def PacketsWithin (b : Nat) (s : TxBench p) : TxStep p → Prop
  | .axi c => (s.axiIn c).tvalid = true →
      if (s.axiIn c).beat.tlast = true
      then p.lanes * s.input.2.length + (s.axiIn c).beat.validBytes ≤ b
      else p.lanes * (s.input.2.length + 1) < b
  | _ => True

/-- `tready` low, a packet under way, no last word in the data FIFO, and the MAC side idle with an
empty info FIFO. -/
structure Wedged (s : TxBench p) : Prop where
  almostFull : p.txFifoDepth ≤ s.queue.txFifo.count + almostFullOffset
  incomplete : s.input.2 ≠ []
  no_eop : ∀ e ∈ s.queue.txFifo.contents, e.eop = false
  idle : s.queue.state = .idle
  no_info : s.queue.txInfoFifo.contents = []

/-! ## Packets that fit

A packet that is under way has fewer than `b` bytes, so if `b` bytes fit below the threshold it
cannot have filled the FIFO up to it. Other packets may be in the FIFO as well, but those have a
last word. -/

/-- The words of the packet under way are fewer than `b` bytes. -/
structure TxRoomInv (b : Nat) (s : TxBench p) : Prop where
  written : ∃ beats popped, TxWritten s beats popped
  short : s.input.2 ≠ [] → p.lanes * s.input.2.length < b

/-- A cycle of the MAC clock, whatever it pops. -/
theorem TxWritten.macStep {s : TxBench p} {beats : List (TxBeat p)} {popped : List (TxEntry p)}
    (h : TxWritten s beats popped) (i : TxMacIn p) :
    ∃ popped', TxWritten (s.macStep i) beats popped' := by
  cases hrd : (s.queue.macOut i).fifoRdEn with
  | false => exact ⟨popped, h.macStep_hold hrd⟩
  | true =>
    cases hseen : s.queue.txFifo.seen with
    | nil => exact ⟨popped, h.macStep_underrun hseen⟩
    | cons x rest => exact ⟨popped ++ [x], h.macStep_read hrd hseen⟩

namespace TxRoomInv

variable {s : TxBench p} {b : Nat}

theorem reset (b : Nat) : TxRoomInv b (TxBench.reset : TxBench p) :=
  ⟨⟨[], [], .reset⟩, fun h => absurd rfl h⟩

theorem axiStep (h : TxRoomInv b s) (c : TxCycle p) (hwithin : PacketsWithin b s (.axi c)) :
    TxRoomInv b (s.axiStep c) := by
  obtain ⟨beats, popped, hwritten⟩ := h.written
  cases hw : s.queue.writes (s.axiIn c) with
  | false =>
    refine ⟨⟨beats, popped, hwritten.axiStep_idle hw⟩, ?_⟩
    simp only [TxBench.axiStep, hw]
    exact h.short
  | true =>
    refine ⟨⟨_, popped, hwritten.axiStep_write hw⟩, ?_⟩
    have hwithin := hwithin (TxQueue.tvalid_of_writes hw)
    simp only [TxBench.axiStep, if_pos hw, TxBeat.marked]
    cases htl : (s.axiIn c).beat.tlast with
    | true => simp
    | false =>
      rw [if_neg (by simp [htl])] at hwithin
      intro _
      simpa using hwithin

theorem step (h : TxRoomInv b s) (e : TxStep p) (hwithin : PacketsWithin b s e) :
    TxRoomInv b (s.step e) := by
  obtain ⟨beats, popped, hwritten⟩ := h.written
  cases e with
  | axi c => exact h.axiStep c hwithin
  | mac i =>
    obtain ⟨popped', hwritten'⟩ := hwritten.macStep i
    exact ⟨⟨beats, popped', hwritten'⟩, h.short⟩
  | syncData => exact ⟨⟨beats, popped, hwritten.syncDataStep⟩, h.short⟩
  | syncInfo => exact ⟨⟨beats, popped, hwritten.syncInfoStep⟩, h.short⟩

/-- Without a last word inside, all that is inside belongs to the packet under way. -/
theorem count_le (h : TxRoomInv b s) (hno : ∀ e ∈ s.queue.txFifo.contents, e.eop = false) :
    s.queue.txFifo.count ≤ s.input.2.length := by
  obtain ⟨beats, popped, hwritten⟩ := h.written
  -- cut what went in into what came out and what is inside
  obtain ⟨first, last, rfl, hfirst, hlast⟩ := List.map_eq_append_iff.mp hwritten.carries.symm
  have hmarked : ∀ x ∈ last.map TxBeat.marked, x.2 = false := by
    intro x hx
    obtain ⟨beat, hbeat, rfl⟩ := List.mem_map.mp hx
    apply hno beat.entry
    rw [← hlast]
    exact List.mem_map_of_mem hbeat
  rw [← hwritten.input, List.map_append, packets_append_of_no_last _ hmarked, AsyncFifo.count,
    ← hlast]
  simp

/-- With room for `b` bytes below the threshold there is no wedge. -/
theorem not_wedged (h : TxRoomInv b s) (hb : b ≤ p.lanes * (p.txFifoDepth - almostFullOffset)) :
    ¬ Wedged s := by
  intro hwedged
  have hcount := h.count_le hwedged.no_eop
  have hshort := h.short hwedged.incomplete
  have hfull := hwedged.almostFull
  -- a FIFO at its threshold would hold more than `b` bytes of one packet
  have hwords : p.lanes * (p.txFifoDepth - almostFullOffset) ≤ p.lanes * s.input.2.length := by
    apply Nat.mul_le_mul_left
    omega
  omega

end TxRoomInv

/-! ## A packet that does not fit

Conversely, when `b` bytes do not fit, the words of one packet bring the FIFO to the threshold. They
are written one a cycle, with the MAC's clock stopped, and the state after each is known exactly. -/

/-- A full word that is not the last of its packet. -/
def bodyBeat (p : Port) : TxBeat p :=
  ⟨0, BitVec.allOnes p.lanes, false⟩

/-- A cycle of the AXI clock with such a word on offer. -/
def bodyCycle (p : Port) (almostFull : Bool) : TxCycle p :=
  ⟨some (bodyBeat p), bodyBeat p, almostFull, false⟩

/-- The bench after `k` words of a packet, with the MAC's clock stopped. -/
def filled (p : Port) (k : Nat) : TxBench p where
  queue := ⟨.idle, false, false, ⟨[], List.replicate k (bodyBeat p).entry⟩, .empty⟩
  held := none
  input := ([], List.replicate k (bodyBeat p).marked.1)
  pushed := 0
  shownPackets := 0
  shownInfo := 0
  starts := 0
  output := ([], [])

theorem filled_count (p : Port) (k : Nat) : (filled p k).queue.txFifo.count = k := by
  simp [filled, AsyncFifo.count, AsyncFifo.contents]

theorem filled_step {k : Nat} (hk : k < p.txFifoDepth) :
    (filled p k).step (.axi (bodyCycle p false)) = filled p (k + 1) := by
  have hroom : (filled p k).queue.fifoFull = false := by
    simp only [TxQueue.fifoFull, filled_count, decide_eq_false_iff_not]
    omega
  have hin : (filled p k).axiIn (bodyCycle p false) = ⟨bodyBeat p, true, false, false⟩ := rfl
  have hwrites : (filled p k).queue.writes ⟨bodyBeat p, true, false, false⟩ = true := by
    simp [TxQueue.writes, TxAxiIn.wrEn, TxAxiIn.tready, hroom]
  simp only [TxBench.step, TxBench.axiStep, hin, if_pos hwrites, TxQueue.axiEdge, hroom]
  rw [TxAxiIn.entry_of_tvalid rfl]
  cases p <;>
    simp [filled, bodyBeat, TxAxiIn.wrEn, TxAxiIn.tready, TxAxiIn.eopAxi, TxQueue.winc,
      TxQueue.infoFifoWrEnNext, AsyncFifo.write, TxBeat.marked, List.replicate_succ', push]

/-- The words of a packet, one after the other. -/
def fillRun (p : Port) (k : Nat) : List (TxStep p) :=
  List.replicate k (.axi (bodyCycle p false))

theorem run_fillRun {k : Nat} (hk : k + almostFullOffset ≤ p.txFifoDepth) :
    Runs.run TxBench.step TxBench.reset (fillRun p k) = filled p k := by
  induction k with
  | zero => rfl
  | succ k ih =>
    have hprev := ih (by omega)
    rw [fillRun, List.replicate_succ', Runs.run_append, ← fillRun, hprev]
    exact filled_step (by simp only [almostFullOffset] at hk; omega)

/-- Word after word, up to the threshold: the flag is exact and the packet still within
`b` bytes. -/
theorem along_fillRun {b k : Nat} (hk : k + almostFullOffset ≤ p.txFifoDepth)
    (hb : p.lanes * k < b) :
    Runs.Along TxBench.step (fun s e => TxFlagsExact s e ∧ PacketsWithin b s e) TxBench.reset
      (fillRun p k) := by
  induction k with
  | zero => exact trivial
  | succ k ih =>
    have hwords : p.lanes * k ≤ p.lanes * (k + 1) := Nat.mul_le_mul_left _ (Nat.le_succ k)
    have hprev := ih (by omega) (Nat.lt_of_le_of_lt hwords hb)
    rw [fillRun, List.replicate_succ', Runs.along_append, ← fillRun, run_fillRun (by omega)]
    refine ⟨hprev, ⟨?_, ?_⟩, trivial⟩
    · show false = decide _
      rw [filled_count, eq_comm, decide_eq_false_iff_not]
      omega
    · intro _
      rw [if_neg (by simp [filled, TxBench.axiIn, bodyCycle, bodyBeat])]
      rwa [filled, List.length_replicate]

/-- When they reach the threshold, the queue is wedged. -/
theorem wedged_fillRun {k : Nat} (hpos : 0 < k) (hk : k + almostFullOffset = p.txFifoDepth) :
    Wedged (Runs.run TxBench.step TxBench.reset (fillRun p k)) := by
  rw [run_fillRun hk.le]
  refine ⟨?_, ?_, ?_, rfl, rfl⟩
  · rw [filled_count, hk]
  · apply List.ne_nil_of_length_pos
    rwa [filled, List.length_replicate]
  · intro e he
    have he : e ∈ List.replicate k (bodyBeat p).entry := he
    rw [List.eq_of_mem_replicate he]
    rfl

/-- **The queue cannot wedge** exactly when the packets fit below the threshold of `ALMOSTFULL`: for
every AXI input of packets of at most `b` bytes, every interleaving and every timing of `tx_ack`. -/
theorem tx_wedge_iff (p : Port) (b : Nat) :
    (∀ es : List (TxStep p),
      Runs.Along TxBench.step (fun s e => TxFlagsExact s e ∧ PacketsWithin b s e) TxBench.reset es →
        ¬ Wedged (Runs.run TxBench.step TxBench.reset es))
      ↔ b ≤ p.lanes * (p.txFifoDepth - almostFullOffset) := by
  constructor
  · intro h
    by_contra hb
    -- the MAC side never gets a packet to start, so its clock may as well stand still
    obtain ⟨k, hpos, hk⟩ : ∃ k, 0 < k ∧ k + almostFullOffset = p.txFifoDepth := by
      cases p with
      | tenGig => exact ⟨384, by decide⟩
      | oneGig => exact ⟨896, by decide⟩
    have hover : p.lanes * k < b := by
      rw [← hk, Nat.add_sub_cancel] at hb
      omega
    exact h (fillRun p k) (along_fillRun hk.le hover) (wedged_fillRun hpos hk)
  · intro hb es halong
    have hstep : ∀ (s : TxBench p) (e : TxStep p), TxRoomInv b s →
        TxFlagsExact s e ∧ PacketsWithin b s e → TxRoomInv b (s.step e) :=
      fun s e h hP => h.step e hP.2
    exact (Runs.run_invariant hstep (TxRoomInv.reset b) halong).not_wedged hb

/-- **Counterexample.** 896 bytes of a packet of 1514 bytes wedge the 1G core. -/
theorem tx_wedged_full_size :
    Runs.Along TxBench.step (fun s e => TxFlagsExact s e ∧ PacketsWithin 1514 s e) TxBench.reset
        (fillRun .oneGig 896)
      ∧ Wedged (Runs.run TxBench.step TxBench.reset (fillRun .oneGig 896)) :=
  ⟨along_fillRun (by decide) (by decide), wedged_fillRun (by decide) (by decide)⟩

/-! ## No way out

A wedge is not only a bad state but a final one. The data FIFO is not written because `tready` is
low, and not read because no info entry comes; so the flag stays, and with it everything else. -/

/-- Wedged, with a word on offer that is not the last of its packet, and no push to come. -/
structure Stuck (s : TxBench p) : Prop extends Wedged s where
  held : ∃ beat, s.held = some beat ∧ beat.tlast = false
  -- the 10G core may still have a push in its register
  no_push : s.queue.infoFifoWrEn = false

namespace Stuck

variable {s : TxBench p}

theorem axiStep (h : Stuck s) {c : TxCycle p} (hexact : TxFlagsExact s (.axi c)) :
    Stuck (s.axiStep c) ∧ (s.axiStep c).input = s.input := by
  obtain ⟨beat, hheld, hlast⟩ := h.held
  have hflag : c.fifoAlmostFull = true := by
    rw [hexact]
    exact decide_eq_true h.almostFull
  have hin : s.axiIn c = ⟨beat, true, true, c.infoWfull⟩ := by
    simp [TxBench.axiIn, hheld, hflag]
  have hwinc : s.queue.winc ⟨beat, true, true, c.infoWfull⟩ = false := by
    cases p with
    | tenGig => exact h.no_push
    | oneGig => simp [TxQueue.winc, TxAxiIn.eopAxi, hlast]
  have hnext : s.queue.infoFifoWrEnNext ⟨beat, true, true, c.infoWfull⟩ = false := by
    cases p <;> simp [TxQueue.infoFifoWrEnNext, TxAxiIn.eopAxi, hlast]
  have hfifo : (s.axiStep c).queue.txFifo = s.queue.txFifo := by
    simp [TxBench.axiStep, hin, TxQueue.axiEdge, TxAxiIn.wrEn, TxAxiIn.tready]
  have hinfo : (s.axiStep c).queue.txInfoFifo = s.queue.txInfoFifo := by
    simp [TxBench.axiStep, hin, TxQueue.axiEdge, hwinc]
  have hinput : (s.axiStep c).input = s.input := by
    simp [TxBench.axiStep, hin, TxQueue.writes, TxAxiIn.wrEn, TxAxiIn.tready]
  refine ⟨⟨⟨?_, ?_, ?_, h.idle, ?_⟩, ⟨beat, ?_, hlast⟩, ?_⟩, hinput⟩
  · rw [hfifo]
    exact h.almostFull
  · rw [hinput]
    exact h.incomplete
  · rw [hfifo]
    exact h.no_eop
  · rw [hinfo]
    exact h.no_info
  · simp [TxBench.axiStep, hin, TxAxiIn.tready]
  · simp only [TxBench.axiStep, hin, TxQueue.axiEdge, hnext]

/-- Other steps keep the wedge if they keep the queue. -/
theorem of_queue {s' : TxBench p} (h : Stuck s) (hqueue : s'.queue = s.queue)
    (hinput : s'.input = s.input) (hheld : s'.held = s.held) : Stuck s' where
  almostFull := hqueue ▸ h.almostFull
  incomplete := hinput ▸ h.incomplete
  no_eop := hqueue ▸ h.no_eop
  idle := hqueue ▸ h.idle
  no_info := hqueue ▸ h.no_info
  held := hheld ▸ h.held
  no_push := hqueue ▸ h.no_push

theorem no_info_seen (h : Stuck s) : s.queue.txInfoFifo.seen = [] :=
  (List.append_eq_nil_iff.mp h.no_info).1

theorem macStep (h : Stuck s) (i : TxMacIn p) :
    Stuck (s.macStep i) ∧ (s.macStep i).output = s.output := by
  have hout : s.queue.macOut i = ⟨.idle, false, false, false, 0⟩ := by
    simp [TxQueue.macOut, txMac, h.idle, h.no_info_seen]
  have hqueue : (s.macStep i).queue = s.queue := by
    simp only [TxBench.macStep, TxQueue.macEdge, hout]
    rw [← h.idle]
    rfl
  refine ⟨h.of_queue hqueue rfl rfl, ?_⟩
  simp [TxBench.macStep, h.idle]

/-- No step leads out, and none takes or gives a word. -/
theorem step (h : Stuck s) {e : TxStep p} (hexact : TxFlagsExact s e) :
    Stuck (s.step e) ∧ (s.step e).input = s.input ∧ (s.step e).output = s.output := by
  cases e with
  | axi c => exact ⟨(h.axiStep hexact).1, (h.axiStep hexact).2, rfl⟩
  | mac i => exact ⟨(h.macStep i).1, rfl, (h.macStep i).2⟩
  | syncData =>
    have hcontents : s.syncDataStep.queue.txFifo.contents = s.queue.txFifo.contents :=
      AsyncFifo.contents_sync _
    refine ⟨⟨⟨?_, h.incomplete, ?_, h.idle, h.no_info⟩, h.held, h.no_push⟩, rfl, rfl⟩
    · show p.txFifoDepth ≤ s.syncDataStep.queue.txFifo.contents.length + almostFullOffset
      rw [hcontents]
      exact h.almostFull
    · show ∀ e ∈ s.syncDataStep.queue.txFifo.contents, e.eop = false
      rw [hcontents]
      exact h.no_eop
  | syncInfo =>
    refine ⟨⟨⟨h.almostFull, h.incomplete, h.no_eop, h.idle, ?_⟩, h.held, h.no_push⟩, rfl, rfl⟩
    exact (AsyncFifo.contents_sync _).trans h.no_info

/-- **A stuck queue stays stuck**: nothing goes in or comes out any more. -/
theorem run (h : Stuck s) {es : List (TxStep p)}
    (hexact : Runs.Along TxBench.step TxFlagsExact s es) :
    Stuck (Runs.run TxBench.step s es)
      ∧ (Runs.run TxBench.step s es).input = s.input
      ∧ (Runs.run TxBench.step s es).output = s.output := by
  have hstep : ∀ (t : TxBench p) (e : TxStep p),
      Stuck t ∧ t.input = s.input ∧ t.output = s.output → TxFlagsExact t e →
      Stuck (t.step e) ∧ (t.step e).input = s.input ∧ (t.step e).output = s.output := by
    rintro t e ⟨ht, hinput, houtput⟩ he
    obtain ⟨ht', hinput', houtput'⟩ := ht.step he
    exact ⟨ht', hinput'.trans hinput, houtput'.trans houtput⟩
  exact Runs.run_invariant hstep ⟨h, rfl, rfl⟩ hexact

end Stuck

/-- The packet that fills the queue, with its next word on offer. -/
theorem stuck_fillRun {k : Nat} (hpos : 0 < k) (hk : k + almostFullOffset = p.txFifoDepth) :
    Stuck (Runs.run TxBench.step TxBench.reset (fillRun p k ++ [.axi (bodyCycle p true)])) := by
  have hwedged := wedged_fillRun hpos hk
  rw [run_fillRun hk.le] at hwedged
  rw [Runs.run_append, run_fillRun hk.le]
  cases p with
  | tenGig =>
    exact ⟨⟨hwedged.almostFull, hwedged.incomplete, hwedged.no_eop, rfl, rfl⟩, ⟨_, rfl, rfl⟩, rfl⟩
  | oneGig =>
    exact ⟨⟨hwedged.almostFull, hwedged.incomplete, hwedged.no_eop, rfl, rfl⟩, ⟨_, rfl, rfl⟩, rfl⟩

/-- **For good.** Whatever the two sides do from there on, no word is taken and none comes out. -/
theorem fillRun_stuck_for_good {k : Nat} (hpos : 0 < k)
    (hk : k + almostFullOffset = p.txFifoDepth) {es : List (TxStep p)}
    (hexact : Runs.Along TxBench.step TxFlagsExact
      (Runs.run TxBench.step TxBench.reset (fillRun p k ++ [.axi (bodyCycle p true)])) es) :
    (Runs.run TxBench.step TxBench.reset (fillRun p k ++ [.axi (bodyCycle p true)] ++ es)).input
        = (Runs.run TxBench.step TxBench.reset (fillRun p k ++ [.axi (bodyCycle p true)])).input
      ∧ (Runs.run TxBench.step TxBench.reset (fillRun p k ++ [.axi (bodyCycle p true)] ++ es)).output
        = (Runs.run TxBench.step TxBench.reset
            (fillRun p k ++ [.axi (bodyCycle p true)])).output := by
  rw [Runs.run_append]
  exact ((stuck_fillRun hpos hk).run hexact).2

end Nf10.Hw
