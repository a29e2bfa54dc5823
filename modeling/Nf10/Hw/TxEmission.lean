import Nf10.Hw.TxQueue

/-!
# Nf10 — what the transmit queue gives to the MAC

The MAC side pops `tx_fifo` in every cycle of `SEND_PKT`, whatever the FIFO's `EMPTY` says: it
trusts that an info entry stands for a packet that is there as a whole. Where the info entries keep
that promise (`TxFed`), the words between `tx_ack` and the end of the packet are the words of the
next packet.

* **`TxWritten`** — the data FIFO carries the words of the AXI side, and nothing else;
* **`TxEmitInv`** — what ties the state machine to the packets: a start for each packet given out
  and one more while a packet is on its way, and never more starts than packets wholly visible;
* **`tx_emission`** — the result, for every run.
-/

namespace Nf10.Hw

open Framing

variable {p : Port}

/-! ## What is written

The data path by itself: the FIFO is written with the words that were handshaken, and read in their
order. Which words are popped when is the state machine's business. -/

/-- The history of the data FIFO: `beats` went in, `popped` came out. -/
structure TxWritten (s : TxBench p) (beats : List (TxBeat p)) (popped : List (TxEntry p)) :
    Prop where
  carries : s.queue.txFifo.Carries (beats.map TxBeat.entry) popped
  input : packets (beats.map TxBeat.marked) = s.input

namespace TxWritten

variable {s : TxBench p} {beats : List (TxBeat p)} {popped : List (TxEntry p)}

theorem reset : TxWritten (TxBench.reset : TxBench p) [] [] :=
  ⟨.init, rfl⟩

/-- A word that is written goes to the end of the history. -/
theorem axiStep_write (h : TxWritten s beats popped) {c : TxCycle p}
    (hw : s.queue.writes (s.axiIn c) = true) :
    TxWritten (s.axiStep c) (beats ++ [(s.axiIn c).beat]) popped := by
  obtain ⟨hwrEn, hroom⟩ := TxQueue.wrEn_of_writes hw
  constructor
  · simp only [TxBench.axiStep, TxQueue.axiEdge, if_pos hwrEn, hroom, List.map_append,
      List.map_singleton]
    rw [TxAxiIn.entry_of_tvalid (TxQueue.tvalid_of_writes hw)]
    exact h.carries.write _
  · simp only [TxBench.axiStep, if_pos hw, List.map_append, List.map_singleton]
    rw [packets_concat, h.input]

theorem axiStep_idle (h : TxWritten s beats popped) {c : TxCycle p}
    (hw : s.queue.writes (s.axiIn c) = false) : TxWritten (s.axiStep c) beats popped := by
  constructor
  · simp only [TxBench.axiStep, TxQueue.axiEdge]
    -- `WREN` low, or `WREN` high on a full FIFO
    by_cases hwrEn : (s.axiIn c).wrEn = true
    · have hfull : s.queue.fifoFull = true := by
        simpa [TxQueue.writes, hwrEn] using hw
      rw [if_pos hwrEn, hfull]
      exact h.carries
    · rw [if_neg hwrEn]
      exact h.carries
  · simp only [TxBench.axiStep, hw]
    exact h.input

/-- A word that becomes visible was in the FIFO before. -/
theorem syncDataStep (h : TxWritten s beats popped) : TxWritten s.syncDataStep beats popped :=
  ⟨h.carries.sync, h.input⟩

theorem syncInfoStep (h : TxWritten s beats popped) : TxWritten s.syncInfoStep beats popped :=
  ⟨h.carries, h.input⟩

/-- A cycle without a pop leaves what has come out. -/
theorem macStep_hold (h : TxWritten s beats popped) {i : TxMacIn p}
    (hrd : (s.queue.macOut i).fifoRdEn = false) : TxWritten (s.macStep i) beats popped := by
  refine ⟨?_, h.input⟩
  simp only [TxBench.macStep, TxQueue.macEdge, hrd]
  exact h.carries

/-- A pop takes the front of what is visible. -/
theorem macStep_read (h : TxWritten s beats popped) {i : TxMacIn p}
    (hrd : (s.queue.macOut i).fifoRdEn = true) {x : TxEntry p} {rest : List (TxEntry p)}
    (hseen : s.queue.txFifo.seen = x :: rest) :
    TxWritten (s.macStep i) beats (popped ++ [x]) := by
  refine ⟨?_, h.input⟩
  simp only [TxBench.macStep, TxQueue.macEdge, hrd, if_true]
  exact h.carries.read hseen

theorem macStep_underrun (h : TxWritten s beats popped) {i : TxMacIn p}
    (hseen : s.queue.txFifo.seen = []) : TxWritten (s.macStep i) beats popped := by
  refine ⟨?_, h.input⟩
  simp only [TxBench.macStep, TxQueue.macEdge, AsyncFifo.read_of_seen_nil hseen, ite_self]
  exact h.carries

/-- In terms of the MAC's pins, what came out and what is inside are what went in, if the strobes
are the ones the code is made for. -/
theorem marked_eq (h : TxWritten s beats popped) (hstrobes : ∀ b ∈ beats, StrobeOk p b.tstrb) :
    (popped ++ s.queue.txFifo.contents).map TxEntry.marked = beats.map TxBeat.marked := by
  rw [h.carries, List.map_map]
  exact List.map_congr_left fun b hb => TxBeat.marked_entry (hstrobes b hb)

end TxWritten

/-! ## The condition

The MAC side looks at neither `EMPTY` nor the length of a packet. Two promises stand in for that: an
entry of the info FIFO comes with a packet that is there as a whole, and a packet has two words at
least, as the first goes out without a look at its end-of-packet bit. -/

/-- What the state machine relies on: no word that is written is a packet by itself, and the info
entries become visible one for each packet, not before the packet's last word. -/
def TxFramed (s : TxBench p) : TxStep p → Prop
  | .axi c => s.queue.writes (s.axiIn c) = true → (s.axiIn c).beat.tlast = true → s.input.2 ≠ []
  | .syncInfo => s.queue.txInfoFifo.inFlight ≠ [] → s.shownInfo < s.shownPackets
  | _ => True

instance (s : TxBench p) (e : TxStep p) : Decidable (TxFramed s e) :=
  match e with
  | .axi _ => inferInstanceAs (Decidable (_ → _ → _ ≠ _))
  | .mac _ => isTrue trivial
  | .syncData => isTrue trivial
  | .syncInfo => inferInstanceAs (Decidable (_ ≠ _ → _ < _))

/-- What the data path relies on: a word that is written has a strobe that the core can give back. -/
def TxStrobed (s : TxBench p) : TxStep p → Prop
  | .axi c => s.queue.writes (s.axiIn c) = true → StrobeOk p (s.axiIn c).beat.tstrb
  | _ => True

instance (s : TxBench p) (e : TxStep p) : Decidable (TxStrobed s e) :=
  match e with
  | .axi _ => inferInstanceAs (Decidable (_ → _))
  | .mac _ => isTrue trivial
  | .syncData => isTrue trivial
  | .syncInfo => isTrue trivial

/-- The two together, at every step of a run. -/
def TxFed (s : TxBench p) (e : TxStep p) : Prop :=
  TxFramed s e ∧ TxStrobed s e

instance (s : TxBench p) (e : TxStep p) : Decidable (TxFed s e) :=
  inferInstanceAs (Decidable (_ ∧ _))

/-- A packet is between its start and its end. -/
def TxState.busy : TxState → Bool
  | .idle => false
  | .waitForAck => true
  | .sendPkt => true
  | .ifg => false

/-! ## The invariant

The state machine counts nothing, so the invariant counts for it: starts against info entries, info
entries against last words that are visible, and packets given out against starts. From these
numbers it follows that the packet being sent is visible up to its end. -/

/-- The history of the data FIFO, and the counts of what has been shown, started and given out. -/
structure TxEmitInv (s : TxBench p) (beats : List (TxBeat p)) (popped : List (TxEntry p)) :
    Prop where
  written : TxWritten s beats popped
  strobes : ∀ b ∈ beats, StrobeOk p b.tstrb
  long : ∀ f ∈ s.input.1, 2 ≤ f.length
  output : packets (popped.map TxEntry.marked) = s.output
  shownPackets : s.shownPackets = (popped ++ s.queue.txFifo.seen).countP (·.eop)
  shownInfo : s.shownInfo = s.starts + s.queue.txInfoFifo.seen.length
  info_le : s.shownInfo ≤ s.shownPackets
  starts : s.starts = s.output.1.length + s.queue.state.busy.toNat
  part : s.output.2 ≠ [] ↔ s.queue.state = .sendPkt

namespace TxEmitInv

variable {s : TxBench p} {beats : List (TxBeat p)} {popped : List (TxEntry p)}

theorem reset : TxEmitInv (TxBench.reset : TxBench p) [] [] where
  written := .reset
  strobes := by simp
  long := by simp [TxBench.reset]
  output := rfl
  shownPackets := rfl
  shownInfo := rfl
  info_le := Nat.le_refl _
  starts := rfl
  part := by simp [TxBench.reset, TxQueue.reset]

/-- The packets given out are the last words popped. -/
theorem length_output (h : TxEmitInv s beats popped) :
    s.output.1.length = popped.countP (·.eop) := by
  rw [← h.output, length_packets, List.countP_map]
  rfl

/-- While a packet is on its way, its last word is visible. -/
theorem last_seen (h : TxEmitInv s beats popped) (hbusy : s.queue.state.busy = true) :
    0 < (s.queue.txFifo.seen.map TxEntry.marked).countP (·.2) := by
  have hshown := h.shownPackets
  have hinfo := h.shownInfo
  have hle := h.info_le
  have hstarts := h.starts
  rw [hbusy, h.length_output] at hstarts
  rw [List.countP_append] at hshown
  -- starts ≤ entries shown ≤ last words shown, and one start is ahead of the packets out
  have hseen : 0 < s.queue.txFifo.seen.countP (·.eop) := by
    simp only [Bool.toNat_true] at hstarts
    omega
  rwa [List.countP_map]

/-- While a packet is on its way there is a word to pop. -/
theorem seen_ne_nil (h : TxEmitInv s beats popped) (hbusy : s.queue.state.busy = true) :
    ∃ x rest, s.queue.txFifo.seen = x :: rest := by
  have hlast := h.last_seen hbusy
  cases hseen : s.queue.txFifo.seen with
  | nil => simp [hseen] at hlast
  | cons x rest => exact ⟨x, rest, rfl⟩

/-- What has become visible is the beginning of what went in. -/
theorem packets_visible (h : TxEmitInv s beats popped) {l : List (TxEntry p)}
    (hl : l <+: s.queue.txFifo.contents) :
    (packets ((popped ++ l).map TxEntry.marked)).1 <+: s.input.1 := by
  rw [← h.written.input, ← h.written.marked_eq h.strobes]
  apply packets_isPrefix
  exact List.IsPrefix.map _ ((List.prefix_append_right_inj popped).mpr hl)

/-- The packet on its way: the next one that went in, and its words come out of the FIFO. -/
theorem underWay (h : TxEmitInv s beats popped) (hbusy : s.queue.state.busy = true) :
    ∃ f, s.output.1 ++ [f] <+: s.input.1 ∧ s.output.2 <+: f := by
  obtain ⟨f, hf, hpart⟩ :=
    packets_next (l := popped.map TxEntry.marked) (h.last_seen hbusy)
  rw [h.output] at hf hpart
  rw [← List.map_append] at hf
  exact ⟨f, hf.trans (h.packets_visible (List.prefix_append _ _)), hpart⟩

/-- The first word of a packet is not its last. -/
theorem eop_of_waitForAck (h : TxEmitInv s beats popped) (hstate : s.queue.state = .waitForAck)
    {x : TxEntry p} {rest : List (TxEntry p)} (hseen : s.queue.txFifo.seen = x :: rest) :
    x.eop = false := by
  have hnone : s.output.2 = [] := by
    by_contra hne
    have hsend := h.part.mp hne
    rw [hstate] at hsend
    cases hsend
  cases heop : x.eop with
  | false => rfl
  | true =>
    -- otherwise it would make a packet of one word, and none went in
    have hvisible := h.packets_visible (l := [x])
      ⟨rest ++ s.queue.txFifo.inFlight, by simp [AsyncFifo.contents, hseen]⟩
    rw [List.map_append, List.map_singleton, packets_concat, h.output, TxEntry.marked, heop,
      push_last, hnone] at hvisible
    have hmem : [x.out] ∈ s.input.1 := by
      apply hvisible.subset
      simp
    have hlong := h.long _ hmem
    simp at hlong

/-! ### The steps

One lemma for each kind of step, and for the MAC's clock one for each state. A cycle of the AXI
clock may extend what has gone in, and nothing else does. -/

theorem axiStep (h : TxEmitInv s beats popped) (c : TxCycle p) (hfed : TxFed s (.axi c)) :
    ∃ beats', TxEmitInv (s.axiStep c) beats' popped := by
  have hseen : (s.axiStep c).queue.txFifo.seen = s.queue.txFifo.seen := by
    simp only [TxBench.axiStep, TxQueue.axiEdge]
    split
    · exact AsyncFifo.seen_write _ _ _
    · rfl
  have hinfo : (s.axiStep c).queue.txInfoFifo.seen = s.queue.txInfoFifo.seen := by
    simp only [TxBench.axiStep, TxQueue.axiEdge]
    split
    · exact AsyncFifo.seen_write _ _ _
    · rfl
  -- nothing that the MAC side sees has changed
  have hkeep {beats' : List (TxBeat p)} (hwritten : TxWritten (s.axiStep c) beats' popped)
      (hstrobes : ∀ b ∈ beats', StrobeOk p b.tstrb)
      (hlong : ∀ f ∈ (s.axiStep c).input.1, 2 ≤ f.length) :
      TxEmitInv (s.axiStep c) beats' popped :=
    { written := hwritten
      strobes := hstrobes
      long := hlong
      output := h.output
      shownPackets := by rw [hseen]; exact h.shownPackets
      shownInfo := by rw [hinfo]; exact h.shownInfo
      info_le := h.info_le
      starts := h.starts
      part := h.part }
  cases hw : s.queue.writes (s.axiIn c) with
  | false =>
    refine ⟨beats, hkeep (h.written.axiStep_idle hw) h.strobes ?_⟩
    have hinput : (s.axiStep c).input = s.input := by
      simp [TxBench.axiStep, hw]
    rw [hinput]
    exact h.long
  | true =>
    have hlast := hfed.1 hw
    have hstrobe := hfed.2 hw
    refine ⟨_, hkeep (h.written.axiStep_write hw) ?_ ?_⟩
    · intro b hb
      rcases List.mem_append.mp hb with hb | hb
      · exact h.strobes b hb
      · rw [List.mem_singleton.mp hb]
        exact hstrobe
    · intro f hf
      simp only [TxBench.axiStep, if_pos hw, TxBeat.marked] at hf
      cases htl : (s.axiIn c).beat.tlast with
      | false =>
        rw [htl, push_word] at hf
        exact h.long f hf
      | true =>
        rw [htl, push_last] at hf
        rcases List.mem_append.mp hf with hf | hf
        · exact h.long f hf
        · -- a packet closed by this word had a word before it
          have hpos : 0 < s.input.2.length := List.length_pos_iff.mpr (hlast htl)
          rw [List.mem_singleton.mp hf, List.length_append, List.length_singleton]
          omega

theorem syncDataStep (h : TxEmitInv s beats popped) : TxEmitInv s.syncDataStep beats popped where
  written := h.written.syncDataStep
  strobes := h.strobes
  long := h.long
  output := h.output
  shownPackets := by
    simp only [TxBench.syncDataStep, AsyncFifo.seen_sync]
    rw [← List.append_assoc, List.countP_append, h.shownPackets]
  shownInfo := h.shownInfo
  info_le := Nat.le_trans h.info_le (Nat.le_add_right _ _)
  starts := h.starts
  part := h.part

/-- An info entry becomes visible, not before its packet. -/
theorem syncInfoStep (h : TxEmitInv s beats popped) (hfed : TxFed s .syncInfo) :
    TxEmitInv s.syncInfoStep beats popped where
  written := h.written.syncInfoStep
  strobes := h.strobes
  long := h.long
  output := h.output
  shownPackets := h.shownPackets
  shownInfo := by
    simp only [TxBench.syncInfoStep, AsyncFifo.seen_sync, List.length_append, h.shownInfo,
      Nat.add_assoc]
  info_le := by
    have hle := h.info_le
    simp only [TxBench.syncInfoStep]
    -- the entry that becomes visible has its packet in front of it
    cases hflight : s.queue.txInfoFifo.inFlight with
    | nil => exact hle
    | cons x rest => exact hfed.1 (by simp [hflight])
  starts := h.starts
  part := h.part

/-- A cycle of the MAC clock that pops nothing. -/
theorem macStep_rest (h : TxEmitInv s beats popped) (i : TxMacIn p)
    (hrd : (s.queue.macOut i).fifoRdEn = false) (hinfo : (s.queue.macOut i).infoFifoRdEn = false)
    (hbusy : (s.queue.macOut i).stateNext.busy = s.queue.state.busy)
    (hsend : (s.queue.macOut i).stateNext = .sendPkt ↔ s.queue.state = .sendPkt)
    (hstarts : (s.macStep i).starts = s.starts) (houtput : (s.macStep i).output = s.output) :
    TxEmitInv (s.macStep i) beats popped where
  written := h.written.macStep_hold hrd
  strobes := h.strobes
  long := h.long
  output := by rw [houtput]; exact h.output
  shownPackets := by
    simp only [TxBench.macStep, TxQueue.macEdge, hrd]
    exact h.shownPackets
  shownInfo := by
    rw [hstarts]
    simp only [TxBench.macStep, TxQueue.macEdge, hinfo]
    exact h.shownInfo
  info_le := h.info_le
  starts := by
    rw [hstarts, houtput, h.starts]
    exact congrArg (fun b => s.output.1.length + Bool.toNat b) hbusy.symm
  part := by
    rw [houtput]
    exact h.part.trans hsend.symm

/-- A cycle that pops the word `x` of the packet on its way. -/
theorem macStep_pop (h : TxEmitInv s beats popped) (i : TxMacIn p)
    (hbusy : s.queue.state.busy = true) {x : TxEntry p} {rest : List (TxEntry p)}
    (hseen : s.queue.txFifo.seen = x :: rest) (hrd : (s.queue.macOut i).fifoRdEn = true)
    (hinfo : (s.queue.macOut i).infoFifoRdEn = false)
    (hstate : (s.queue.macOut i).stateNext = if x.eop then p.afterPacket else .sendPkt)
    (hstarts : (s.macStep i).starts = s.starts)
    (houtput : (s.macStep i).output = push s.output x.marked) :
    TxEmitInv (s.macStep i) beats (popped ++ [x]) where
  written := h.written.macStep_read hrd hseen
  strobes := h.strobes
  long := h.long
  output := by
    rw [houtput, List.map_append, List.map_singleton, packets_concat, h.output]
  -- the word moves from what is visible to what has been popped
  shownPackets := by
    simp only [TxBench.macStep, TxQueue.macEdge, hrd, if_true, AsyncFifo.read, hseen,
      List.tail_cons]
    rw [h.shownPackets, hseen]
    simp
  shownInfo := by
    rw [hstarts]
    simp only [TxBench.macStep, TxQueue.macEdge, hinfo]
    exact h.shownInfo
  info_le := h.info_le
  -- the last word ends the busy period and completes the packet
  starts := by
    rw [hstarts, houtput, length_push, h.starts, hbusy]
    simp only [TxBench.macStep, TxQueue.macEdge, hstate, TxEntry.marked]
    cases x.eop with
    | false => rfl
    | true => cases p <;> rfl
  part := by
    rw [houtput]
    simp only [TxBench.macStep, TxQueue.macEdge, hstate, TxEntry.marked]
    cases x.eop with
    | false => simp
    | true => cases p <;> simp [Port.afterPacket]

/-- `IDLE`: an info entry starts a packet. -/
theorem macStep_idle (h : TxEmitInv s beats popped) (i : TxMacIn p)
    (hstate : s.queue.state = .idle) : TxEmitInv (s.macStep i) beats popped := by
  cases hseen : s.queue.txInfoFifo.seen with
  | nil =>
    have hout : s.queue.macOut i = ⟨.idle, false, false, false, 0⟩ := by
      simp [TxQueue.macOut, txMac, hstate, hseen]
    apply h.macStep_rest i <;> simp [TxBench.macStep, hout, hstate]
  | cons x rest =>
    have hout : s.queue.macOut i = ⟨.waitForAck, false, true, p == .tenGig, 0⟩ := by
      simp [TxQueue.macOut, txMac, hstate, hseen]
    have hnone : s.output.2 = [] := by
      by_contra hne
      simp [h.part.mp hne] at hstate
    exact
      { written := h.written.macStep_hold (by rw [hout])
        strobes := h.strobes
        long := h.long
        output := by simp only [TxBench.macStep, hstate]; exact h.output
        shownPackets := by
          simp only [TxBench.macStep, TxQueue.macEdge, hout]
          exact h.shownPackets
        shownInfo := by
          have hinfo := h.shownInfo
          rw [hseen, List.length_cons] at hinfo
          simp only [TxBench.macStep, TxQueue.macEdge, hout, hstate, AsyncFifo.read, hseen,
            List.tail_cons, and_self, if_true]
          omega
        info_le := h.info_le
        starts := by
          have hstarts := h.starts
          simp only [TxBench.macStep, TxQueue.macEdge, hout, hstate, and_self, if_true] at hstarts ⊢
          rw [hstarts]
          rfl
        part := by simp [TxBench.macStep, TxQueue.macEdge, hout, hstate, hnone] }

/-- `WAIT_FOR_ACK`: the first word is popped with `tx_ack`. -/
theorem macStep_waitForAck (h : TxEmitInv s beats popped) (i : TxMacIn p)
    (hstate : s.queue.state = .waitForAck) :
    ∃ popped', TxEmitInv (s.macStep i) beats popped' := by
  cases hack : i.txAck with
  | false =>
    refine ⟨popped, ?_⟩
    apply h.macStep_rest i <;> simp [TxBench.macStep, TxQueue.macOut, txMac, hack, hstate]
  | true =>
    -- the bench opens the packet here, so the word must not be its last
    have hbusy : s.queue.state.busy = true := by rw [hstate]; rfl
    obtain ⟨x, rest, hseen⟩ := h.seen_ne_nil hbusy
    have heop := h.eop_of_waitForAck hstate hseen
    refine ⟨popped ++ [x], h.macStep_pop i hbusy hseen ?_ ?_ ?_ ?_ ?_⟩
    all_goals simp [TxBench.macStep, TxQueue.macOut, txMac, hack, hstate, heop, hseen,
      AsyncFifo.front, TxEntry.marked, TxEntry.out]

/-- `SEND_PKT`: one word a cycle, up to the last one. -/
theorem macStep_sendPkt (h : TxEmitInv s beats popped) (i : TxMacIn p)
    (hstate : s.queue.state = .sendPkt) :
    ∃ popped', TxEmitInv (s.macStep i) beats popped' := by
  have hbusy : s.queue.state.busy = true := by rw [hstate]; rfl
  obtain ⟨x, rest, hseen⟩ := h.seen_ne_nil hbusy
  refine ⟨popped ++ [x], h.macStep_pop i hbusy hseen ?_ ?_ ?_ ?_ ?_⟩
  all_goals cases heop : x.eop
  all_goals simp [TxBench.macStep, TxQueue.macOut, txMac, hstate, heop, hseen, AsyncFifo.front,
    TxEntry.marked, TxEntry.out]

theorem macStep_ifg (h : TxEmitInv s beats popped) (i : TxMacIn p)
    (hstate : s.queue.state = .ifg) : TxEmitInv (s.macStep i) beats popped := by
  apply h.macStep_rest i <;>
    simp [TxBench.macStep, TxQueue.macOut, txMac, hstate, TxState.busy]

/-- **The step lemma.** -/
theorem step (h : TxEmitInv s beats popped) (e : TxStep p) (hfed : TxFed s e) :
    ∃ beats' popped', TxEmitInv (s.step e) beats' popped' := by
  cases e with
  | axi c =>
    obtain ⟨beats', h'⟩ := h.axiStep c hfed
    exact ⟨beats', popped, h'⟩
  | mac i =>
    refine ⟨beats, ?_⟩
    cases hstate : s.queue.state with
    | idle => exact ⟨popped, h.macStep_idle i hstate⟩
    | waitForAck => exact h.macStep_waitForAck i hstate
    | sendPkt => exact h.macStep_sendPkt i hstate
    | ifg => exact ⟨popped, h.macStep_ifg i hstate⟩
  | syncData => exact ⟨beats, popped, h.syncDataStep⟩
  | syncInfo => exact ⟨beats, popped, h.syncInfoStep hfed⟩

end TxEmitInv

/-! ## The result

The invariant as the MAC sees it: what it has been given, what it is being given, and what is on its
pins in between. -/

/-- What the MAC is given, in one state: `output` has the words from `tx_ack` on, each with the
`tx_data_valid` it came with. -/
structure TxEmitted (s : TxBench p) : Prop where
  -- Packets leave whole, with their strobes, in the order they entered.
  order : s.output.1 <+: s.input.1
  -- A start for each packet that has left, and one for the packet on its way.
  starts : s.starts = s.output.1.length + s.queue.state.busy.toNat
  -- The packet on its way is the next one, and its words come first to last.
  underWay : s.queue.state.busy = true → ∃ f, s.output.1 ++ [f] <+: s.input.1 ∧ s.output.2 <+: f
  -- It has begun and not ended exactly in `SEND_PKT`.
  part : s.output.2 ≠ [] ↔ s.queue.state = .sendPkt
  -- A word is popped with `tx_ack` and in every cycle of `SEND_PKT`,
  pops : ∀ i, (s.queue.macOut i).fifoRdEn = true
    ↔ (s.queue.state = .waitForAck ∧ i.txAck = true) ∨ s.queue.state = .sendPkt
  -- and never from an empty FIFO.
  noUnderrun : ∀ i, (s.queue.macOut i).fifoRdEn = true → s.queue.txFifo.seen ≠ []
  -- No byte is valid between packets.
  quiet : s.queue.state = .idle ∨ s.queue.state = .ifg → ∀ i, (s.queue.macOut i).txDataValid = 0

theorem TxQueue.macOut_fifoRdEn (q : TxQueue p) (i : TxMacIn p) :
    (q.macOut i).fifoRdEn = true
      ↔ (q.state = .waitForAck ∧ i.txAck = true) ∨ q.state = .sendPkt := by
  simp only [TxQueue.macOut, txMac]
  cases q.state <;> simp <;> split <;> simp_all

theorem TxQueue.macOut_txDataValid {q : TxQueue p} (h : q.state = .idle ∨ q.state = .ifg)
    (i : TxMacIn p) : (q.macOut i).txDataValid = 0 := by
  simp only [TxQueue.macOut, txMac]
  rcases h with h | h
  · simp only [h]
    split <;> rfl
  · simp only [h]

theorem TxEmitInv.emitted {s : TxBench p} {beats : List (TxBeat p)} {popped : List (TxEntry p)}
    (h : TxEmitInv s beats popped) : TxEmitted s where
  order := by
    have hvisible := h.packets_visible (l := []) List.nil_prefix
    rwa [List.append_nil, h.output] at hvisible
  starts := h.starts
  underWay := h.underWay
  part := h.part
  pops := s.queue.macOut_fifoRdEn
  noUnderrun := by
    intro i hrd
    have hbusy : s.queue.state.busy = true := by
      rcases (s.queue.macOut_fifoRdEn i).mp hrd with ⟨hstate, _⟩ | hstate <;> rw [hstate] <;> rfl
    obtain ⟨x, rest, hseen⟩ := h.seen_ne_nil hbusy
    rw [hseen]
    exact List.cons_ne_nil x rest
  quiet := TxQueue.macOut_txDataValid

/-- **Emission.** For every sequence of packets, every timing of `tx_ack` and every interleaving of
the clocks: each start is one packet, given out whole, in order and without a gap. -/
theorem tx_emission (es : List (TxStep p))
    (h : Runs.Along TxBench.step TxFed (TxBench.reset : TxBench p) es) :
    TxEmitted (Runs.run TxBench.step (TxBench.reset : TxBench p) es) := by
  have hstep : ∀ (s : TxBench p) (e : TxStep p), (∃ beats popped, TxEmitInv s beats popped) →
      TxFed s e → ∃ beats popped, TxEmitInv (s.step e) beats popped := by
    rintro s e ⟨beats, popped, hinv⟩ hfed
    exact hinv.step e hfed
  obtain ⟨beats, popped, hinv⟩ := Runs.run_invariant hstep ⟨[], [], TxEmitInv.reset⟩ h
  exact hinv.emitted

/-- A packet of ten bytes goes through the 10G core. -/
def twoWordPacket : List (TxStep .tenGig) :=
  [.axi ⟨some ⟨0x1122334455667788, 0xff, false⟩, ⟨0, 0, false⟩, false, false⟩,
    .axi ⟨some ⟨0xaabb, 0x03, true⟩, ⟨0, 0, false⟩, false, false⟩, .syncData,
    .axi ⟨none, ⟨0, 0, true⟩, false, false⟩, .syncData, .syncInfo,
    .mac ⟨false, ⟨0, 0, false⟩⟩, .mac ⟨false, ⟨0, 0, false⟩⟩, .mac ⟨true, ⟨0, 0, false⟩⟩,
    .mac ⟨false, ⟨0, 0, false⟩⟩]

/-- It leaves as it entered, strobes included. -/
theorem tx_emission_two_words :
    Runs.Along TxBench.step TxFed TxBench.reset twoWordPacket
      ∧ TxEmitted (Runs.run TxBench.step TxBench.reset twoWordPacket)
      ∧ (Runs.run TxBench.step TxBench.reset twoWordPacket).output.1
        = [[⟨0x1122334455667788, 0xff⟩, ⟨0xaabb, 0x03⟩]] :=
  ⟨by decide, tx_emission _ (by decide), by decide⟩

/-! A 1G packet of two bytes whose first byte has its strobe low. -/

/-- The packet and its two bytes, up to the end. -/
def unstrobedPacket : List (TxStep .oneGig) :=
  [.axi ⟨some ⟨0x11, 0, false⟩, ⟨0, 0, false⟩, false, false⟩,
    .axi ⟨some ⟨0x22, 1, true⟩, ⟨0, 0, false⟩, false, false⟩, .syncData, .syncData, .syncInfo,
    .mac ⟨false, ⟨0, 0, false⟩⟩, .mac ⟨true, ⟨0, 0, false⟩⟩, .mac ⟨false, ⟨0, 0, false⟩⟩]

/-- **Counterexample.** The 1G core stores `tvalid` in place of the strobe: the byte leaves as valid. -/
theorem tx_emission_strobe_lost :
    Runs.Along TxBench.step TxFramed TxBench.reset unstrobedPacket
      ∧ (Runs.run TxBench.step TxBench.reset unstrobedPacket).input.1 = [[⟨0x11, 0⟩, ⟨0x22, 1⟩]]
      ∧ (Runs.run TxBench.step TxBench.reset unstrobedPacket).output.1 = [[⟨0x11, 1⟩, ⟨0x22, 1⟩]]
      ∧ ¬ TxEmitted (Runs.run TxBench.step TxBench.reset unstrobedPacket) := by
  refine ⟨by decide, by decide, by decide, ?_⟩
  intro h
  exact absurd h.order (by decide)

end Nf10.Hw
