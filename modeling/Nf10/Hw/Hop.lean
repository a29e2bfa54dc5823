import Nf10.Hw.AxisHold
import Nf10.Hw.PacketCheck
import Nf10.Hw.RxAdmission
import Nf10.Hw.TxEmission

/-!
# Nf10 — from one interface core to the next

A hop of the loopback tests: the transmit queue of one core, the cable, and the receive queue of the
core at its other end. The two MACs and the cable are not among the sources. A frame arrives after it
has been sent whole, unchanged and good, or it gets lost; it is not padded, as the packets of the tests
(128 and 64 bytes) are not.

* **`HopInv`** — where the transmit queue has taken the beginning of the generator's stream, so has
  whoever reads from the receive queue;
* **`HopInv.step`, `HopInv.axiStep`** — it is kept by every edge of every clock;
* **`HopInv.conserved`** — a packet that was taken in comes out, was dropped for want of room, or got
  lost on the cable, once nothing is under way.
-/

namespace Nf10.Hw

open Framing GenCheck

variable {p : Port}

/-! ## The generator's stream on a link

On a link the generator's words have strobes, all of them set. What goes over it is then known from
the number of words alone, at every point between the generator and the checker. -/

/-- Word `i` of the generator's stream as a beat of the link. -/
def loopBeat (p : Port) (P i : Nat) : TxBeat p :=
  ⟨(genWord (8 * p.lanes) P i).1, BitVec.allOnes p.lanes, (genWord (8 * p.lanes) P i).2⟩

/-- Word `i` of the stream with its strobes. -/
def loopWord (p : Port) (P i : Nat) : Word p × Bool :=
  (Word.full (genWord (8 * p.lanes) P i).1, (genWord (8 * p.lanes) P i).2)

/-- The first `n` words of the stream. -/
def loopStream (p : Port) (P n : Nat) : List (Word p × Bool) :=
  (genStream (8 * p.lanes) P n).map fun x => (Word.full x.1, x.2)

/-- The packet that is sent over and over. -/
def loopPacket (p : Port) (P : Nat) : List (Word p) :=
  (rotations (seedWord (8 * p.lanes)) P).map Word.full

@[simp] theorem length_loopStream (P n : Nat) : (loopStream p P n).length = n := by
  simp [loopStream]

@[simp] theorem length_loopPacket (P : Nat) : (loopPacket p P).length = P := by
  simp [loopPacket]

theorem strobeOk_allOnes (p : Port) : StrobeOk p (BitVec.allOnes p.lanes) := by
  cases p with
  | tenGig => exact ⟨8, by decide, by decide, rfl⟩
  | oneGig => exact ⟨1, by decide, by decide, rfl⟩

theorem marked_loopBeat (P i : Nat) : (loopBeat p P i).marked = loopWord p P i := rfl

theorem loopStream_succ (P n : Nat) :
    loopStream p P (n + 1) = loopStream p P n ++ [loopWord p P n] := by
  rw [loopStream, genStream_succ, List.map_append]
  rfl

/-- The stream is packets, and the beginning of one. -/
theorem packets_loopStream {P : Nat} (hP : 0 < P) (n : Nat) :
    packets (loopStream p P n)
      = (List.replicate (n / P) (loopPacket p P),
        (rotations (seedWord (8 * p.lanes)) (n % P)).map Word.full) := by
  rw [loopStream, packets_map, packets_genStream hP, List.map_replicate]
  rfl

/-- `k` packets are the first `k * P` words. -/
theorem flatMap_replicate_loopPacket {P : Nat} (hP : 0 < P) (k : Nat) :
    (List.replicate k (loopPacket p P)).flatMap mark = loopStream p P (k * P) := by
  have hstream := flatMap_mark_packets (loopStream p P (k * P))
  rw [packets_loopStream hP, Nat.mul_div_cancel _ hP, Nat.mul_mod_left] at hstream
  rw [← hstream]
  exact (List.append_nil _).symm

/-- A beginning of the stream is the stream of its length. -/
theorem isPrefix_loopStream {P n : Nat} {l : List (Word p × Bool)} (h : l <+: loopStream p P n) :
    l = loopStream p P l.length := by
  have hle : l.length ≤ n := by
    simpa using h.length_le
  rw [List.prefix_iff_eq_take.mp h, loopStream, genStream, ← List.map_take, ← List.map_take,
    List.take_range]
  simp [loopStream, genStream]

/-- What comes next on a link that carries the stream. -/
theorem next_of_isPrefix {P n : Nat} {l : List (Word p × Bool)} {x : Word p × Bool}
    (h : l ++ [x] <+: loopStream p P n) : x = loopWord p P l.length := by
  have hfull := isPrefix_loopStream h
  rw [List.length_append, List.length_singleton, loopStream_succ] at hfull
  obtain ⟨-, hlast⟩ := List.append_inj' hfull rfl
  exact List.singleton_inj.mp hlast

/-! ## The cable

A frame leaves the sending MAC word by word and is on the cable when it is whole. From there it
comes in at the receiving MAC or gets lost, in order either way. -/

/-- The frame that a MAC makes of the words it was given; words with a gap in them are none. -/
def MacFrame.ofWords? : List (Word p) → Option (MacFrame p)
  | [] => none
  | w :: rest =>
    if h : w.strb = BitVec.allOnes p.lanes ∧ (∀ v ∈ rest, v.strb ≠ 0)
        ∧ ∀ v ∈ rest.dropLast, v.strb = BitVec.allOnes p.lanes then
      some ⟨w.data, rest, h.2.1, h.2.2, false⟩
    else none

/-- The frame has the words that the MAC was given. -/
theorem MacFrame.words_of_ofWords? {ws : List (Word p)} {f : MacFrame p}
    (h : MacFrame.ofWords? ws = some f) : f.words = ws := by
  cases ws with
  | nil => cases h
  | cons w rest =>
    simp only [MacFrame.ofWords?] at h
    split at h
    · next hok =>
      injection h with hf
      rw [← hf, MacFrame.words, Word.full, ← hok.1]
    · cases h

/-- The queues at the two ends, and the frames of `tx.output` that are off the cable. -/
structure Hop (p : Port) where
  tx : TxBench p
  rx : RxBench p
  -- Frames that have begun to come in, or are lost.
  arrived : Nat
  lost : Nat

/-- A cycle of the receiving MAC: whether the next frame begins to come in if it may. -/
structure CableCycle (p : Port) where
  arrive : Bool
  idleData : BitVec (8 * p.lanes)
  pulse : Bool
  fifoAlmostFull : Bool
  infoWfull : Bool

/-- What a hop does between two edges of the AXI clock. -/
inductive HopStep (p : Port) where
  | txMac (i : TxMacIn p)
  | rxMac (c : CableCycle p)
  | lose
  | syncTxData
  | syncTxInfo
  | syncRxData
  | syncRxInfo

/-- The flags of the transmit FIFOs at an edge of the AXI clock, and what is on the data outputs of
receive FIFOs that are empty. -/
structure HopFlags (p : Port) where
  fifoAlmostFull : Bool
  infoWfull : Bool
  staleDo : Word p
  staleBad : Bool

namespace Hop

/-- After reset nothing is on the cable. -/
def reset (axis : Word p) : Hop p :=
  ⟨.reset, RxBench.reset axis, 0, 0⟩

/-- The next frame on the cable, if there is one. -/
def onCable (h : Hop p) : Option (MacFrame p) :=
  h.tx.output.1[h.arrived]?.bind MacFrame.ofWords?

/-- The cycle of the receiving MAC, with what is on the cable. -/
def macCycle (h : Hop p) (c : CableCycle p) : MacCycle p :=
  ⟨if c.arrive then h.onCable else none, c.idleData, c.pulse, c.fifoAlmostFull, c.infoWfull⟩

/-- The frame that begins to come in. -/
def begins (h : Hop p) (c : CableCycle p) : Option (MacFrame p) :=
  (h.rx.mac.next (h.macCycle c).offer c.idleData).2.2

/-- One step of a hop. -/
def step (h : Hop p) : HopStep p → Hop p
  | .txMac i => { h with tx := h.tx.macStep i }
  | .rxMac c =>
    { h with
      rx := h.rx.macStep (h.macCycle c)
      arrived := h.arrived + (h.begins c).toList.length }
  | .lose =>
    if h.arrived < h.tx.output.1.length then
      { h with arrived := h.arrived + 1, lost := h.lost + 1 }
    else h
  | .syncTxData => { h with tx := h.tx.syncDataStep }
  | .syncTxInfo => { h with tx := h.tx.syncInfoStep }
  | .syncRxData => { h with rx := h.rx.step .syncData }
  | .syncRxInfo => { h with rx := h.rx.step .syncInfo }

/-- The cycle of the AXI clock at the transmit queue. -/
def txCycle (offer : Option (TxBeat p)) (lines : TxBeat p) (f : HopFlags p) : TxCycle p :=
  ⟨offer, lines, f.fifoAlmostFull, f.infoWfull⟩

/-- The pins of the receive queue at the same edge. -/
def rxIn (f : HopFlags p) (tready : Bool) : RxAxiIn p :=
  ⟨tready, f.staleDo, f.staleBad⟩

/-- An edge of the AXI clock, at both ends: `offer` is what the master in front of the hop offers,
`tready` comes from the sink behind it. -/
def axiStep (h : Hop p) (offer : Option (TxBeat p)) (lines : TxBeat p) (f : HopFlags p)
    (tready : Bool) : Hop p :=
  { h with
    tx := h.tx.axiStep (txCycle offer lines f)
    rx := h.rx.axiStep (rxIn f tready) }

/-- The lines of the receive queue, and what it offers. -/
def lines (h : Hop p) (i : RxAxiIn p) : TxBeat p :=
  ⟨h.rx.queue.axis.data, h.rx.queue.axis.strb, (h.rx.queue.axiOut i).tlast⟩

/-- The word that the receive queue offers. -/
def offer (h : Hop p) (i : RxAxiIn p) : Option (TxBeat p) :=
  if (h.rx.queue.axiOut i).tvalid then some (h.lines i) else none

theorem isSome_offer (h : Hop p) (i : RxAxiIn p) :
    (h.offer i).isSome = (h.rx.queue.axiOut i).tvalid := by
  unfold offer
  split
  · next hvalid => exact hvalid.symm
  · next hvalid => exact (Bool.eq_false_iff.mpr hvalid).symm

/-- One word more has been read, if one was on offer and taken. -/
theorem length_beats_axiStep (h : Hop p) (offer : Option (TxBeat p)) (lines : TxBeat p)
    (f : HopFlags p) (tready : Bool) :
    (h.axiStep offer lines f tready).rx.beats.length
      = h.rx.beats.length + ((h.offer (rxIn f tready)).isSome && tready).toNat := by
  rw [isSome_offer]
  show (h.rx.beats ++ if ((h.rx.queue.axiOut (rxIn f tready)).tvalid && tready) = true then _
    else _).length = _
  rw [List.length_append]
  split
  · next htaken => rw [htaken, List.length_singleton, Bool.toNat_true]
  · next htaken => rw [Bool.eq_false_iff.mpr htaken, List.length_nil, Bool.toNat_false]

/-- Between two edges of the AXI clock nothing is read, and an offer stays. -/
theorem rx_step (h : Hop p) (e : HopStep p) :
    (h.step e).rx.beats = h.rx.beats
      ∧ (h.step e).rx.queue.axis = h.rx.queue.axis
      ∧ (h.step e).rx.queue.errState = h.rx.queue.errState
      ∧ ∀ tlast, h.rx.queue.Offering tlast → (h.step e).rx.queue.Offering tlast := by
  have hidle (r : RxEvent p) (hr : (RxQueue.axisChannel p).cycle r = false) (tlast : Bool)
      (hoff : h.rx.queue.Offering tlast) : (h.rx.queue.step r).Offering tlast :=
    (RxQueue.offering_step_idle hoff hr).1
  cases e with
  | txMac i => exact ⟨rfl, rfl, rfl, fun _ hoff => hoff⟩
  | rxMac c => exact ⟨rfl, rfl, rfl, hidle (.mac (h.rx.macIn (h.macCycle c))) rfl⟩
  | lose =>
    simp only [step]
    split <;> exact ⟨rfl, rfl, rfl, fun _ hoff => hoff⟩
  | syncTxData => exact ⟨rfl, rfl, rfl, fun _ hoff => hoff⟩
  | syncTxInfo => exact ⟨rfl, rfl, rfl, fun _ hoff => hoff⟩
  | syncRxData => exact ⟨rfl, rfl, rfl, hidle .syncData rfl⟩
  | syncRxInfo => exact ⟨rfl, rfl, rfl, hidle .syncInfo rfl⟩

/-- Between two edges of the AXI clock no word is taken. -/
theorem held_step (h : Hop p) (e : HopStep p) : (h.step e).tx.held = h.tx.held := by
  cases e with
  | lose =>
    simp only [step]
    split <;> rfl
  | _ => rfl

/-- Packets that did not get through. -/
def missing (h : Hop p) : Nat :=
  h.lost + h.rx.dropped.length

/-- Nothing is under way. -/
structure Quiet (h : Hop p) : Prop where
  tx : h.tx.queue.txFifo.contents = []
  cable : h.arrived = h.tx.output.1.length
  state : h.rx.queue.state = .idle
  rx : h.rx.queue.rxFifo.contents = []

end Hop

/-- What a hop relies on: the flags of its data FIFOs are exact, and an info entry becomes visible
behind its packet. -/
def HopFed (h : Hop p) : HopStep p → Prop
  | .rxMac c => RxFlagsExact h.rx (.mac (h.macCycle c))
  | .syncTxInfo => TxFramed h.tx .syncInfo
  | _ => True

instance (h : Hop p) (e : HopStep p) : Decidable (HopFed h e) :=
  match e with
  | .rxMac c => inferInstanceAs (Decidable (RxFlagsExact h.rx (.mac (h.macCycle c))))
  | .syncTxInfo => inferInstanceAs (Decidable (TxFramed h.tx .syncInfo))
  | .txMac _ => isTrue trivial
  | .lose => isTrue trivial
  | .syncTxData => isTrue trivial
  | .syncRxData => isTrue trivial
  | .syncRxInfo => isTrue trivial

/-! ## The invariant

The invariants of the two queues with what is between them: frames on the cable are packets of the
stream, and what was sent is admitted, dropped, lost or still there. -/

/-- The transmit queue has taken `n` words of the generator's stream. -/
structure HopInv (P n : Nat) (h : Hop p) : Prop where
  tx : ∃ beats popped, TxEmitInv h.tx beats popped
  input : h.tx.input = packets (loopStream p P n)
  rx : RxRoomInv h.rx
  admitted : ∀ f ∈ h.rx.admitted, f.words = loopPacket p P
  arrived : h.rx.admitted.length + h.missing = h.arrived
  sent : h.arrived ≤ h.tx.output.1.length

namespace HopInv

variable {P n : Nat} {h : Hop p}

theorem reset (P : Nat) (axis : Word p) : HopInv P 0 (Hop.reset axis) where
  tx := ⟨[], [], TxEmitInv.reset⟩
  input := rfl
  rx := RxRoomInv.reset axis
  admitted := by simp [Hop.reset, RxBench.reset]
  arrived := rfl
  sent := Nat.zero_le _

theorem output (hP : 0 < P) (hinv : HopInv P n h) :
    h.tx.output.1 <+: List.replicate (n / P) (loopPacket p P) := by
  obtain ⟨beats, popped, htx⟩ := hinv.tx
  have horder := htx.emitted.order
  rwa [hinv.input, packets_loopStream hP] at horder

/-- What comes off the cable is a packet of the generator. -/
theorem onCable (hP : 0 < P) (hinv : HopInv P n h) {f : MacFrame p} (hf : h.onCable = some f) :
    f.words = loopPacket p P ∧ h.arrived < h.tx.output.1.length := by
  obtain ⟨ws, hws, hof⟩ := Option.bind_eq_some_iff.mp hf
  obtain ⟨hlt, hget⟩ := List.getElem?_eq_some_iff.mp hws
  refine ⟨?_, hlt⟩
  rw [MacFrame.words_of_ofWords? hof]
  apply List.eq_of_mem_replicate
  exact (hinv.output hP).subset (hget ▸ List.getElem_mem hlt)

/-- What was admitted is the stream, as far as it goes. -/
theorem flatMap_admitted (hP : 0 < P) (hinv : HopInv P n h) :
    h.rx.admitted.flatMap MacFrame.beats = loopStream p P (h.rx.admitted.length * P) := by
  have hmap : h.rx.admitted.map MacFrame.words
      = List.replicate h.rx.admitted.length (loopPacket p P) := by
    rw [List.eq_replicate_iff, List.length_map]
    refine ⟨rfl, ?_⟩
    intro ws hws
    obtain ⟨f, hf, rfl⟩ := List.mem_map.mp hws
    exact hinv.admitted f hf
  rw [← flatMap_replicate_loopPacket hP, ← hmap, List.flatMap_map]
  rfl

/-- What has been read is a beginning of that. -/
theorem beats_isPrefix (hP : 0 < P) (hinv : HopInv P n h) :
    h.rx.beats <+: loopStream p P (h.rx.admitted.length * P) := by
  rw [← hinv.flatMap_admitted hP]
  exact hinv.rx.stream.beats_isPrefix

/-- **Through the hop.** What was read from the receive queue is the beginning of the stream. -/
theorem beats_eq (hP : 0 < P) (hinv : HopInv P n h) :
    h.rx.beats = loopStream p P h.rx.beats.length :=
  isPrefix_loopStream (hinv.beats_isPrefix hP)

/-- What the receive queue offers comes next. -/
theorem offered (hP : 0 < P) (hinv : HopInv P n h) {i : RxAxiIn p}
    (hvalid : (h.rx.queue.axiOut i).tvalid = true) :
    (h.rx.queue.axis, (h.rx.queue.axiOut i).tlast) = loopWord p P h.rx.beats.length := by
  -- it would be taken by a sink that is ready
  have hoff := RxQueue.offering_of_tvalid hvalid
  obtain ⟨hvalid', hlast'⟩ := hoff.axiOut ⟨true, i.staleDo, i.staleBad⟩
  have hnext := (hinv.rx.stream.axiStep ⟨true, i.staleDo, i.staleBad⟩).beats_isPrefix
  have hbeats : (h.rx.axiStep ⟨true, i.staleDo, i.staleBad⟩).beats
      = h.rx.beats ++ [(h.rx.queue.axis, (h.rx.queue.axiOut i).tlast)] := by
    simp [RxBench.axiStep, hvalid', hlast']
  have hadm : (h.rx.axiStep ⟨true, i.staleDo, i.staleBad⟩).admitted = h.rx.admitted := rfl
  rw [hbeats, hadm, hinv.flatMap_admitted hP] at hnext
  exact next_of_isPrefix hnext

/-- What is on offer is the next word of the stream. -/
theorem offer_eq (hP : 0 < P) (hinv : HopInv P n h) {i : RxAxiIn p} {b : TxBeat p}
    (hb : h.offer i = some b) : b = loopBeat p P h.rx.beats.length := by
  unfold Hop.offer at hb
  split at hb
  · next hvalid =>
    injection hb with hb
    obtain ⟨haxis, hlast⟩ := Prod.mk.inj (hinv.offered hP hvalid)
    rw [← hb, Hop.lines, haxis, hlast]
    rfl
  · cases hb

/-- No more packets come out than went in. -/
theorem packets_le (hP : 0 < P) (hinv : HopInv P n h) :
    h.rx.beats.length / P + h.missing ≤ n / P := by
  have hread : h.rx.beats.length / P ≤ h.rx.admitted.length := by
    have hlen := (hinv.beats_isPrefix hP).length_le
    rw [length_loopStream] at hlen
    exact Nat.div_le_of_le_mul (Nat.mul_comm P _ ▸ hlen)
  have hsent : h.tx.output.1.length ≤ n / P := by
    have hlen := (hinv.output hP).length_le
    rwa [List.length_replicate] at hlen
  have harrived := hinv.arrived
  have hle := hinv.sent
  omega

/-! ### The steps

A packet of at most 128 words has room when it is admitted, and it has the strobes that the transmit
queue can give back. So the conditions of both queues are met, but for the flags and the info
entries, which the steps are given. -/

theorem byteLength_le {f : MacFrame p} (hf : f.words = loopPacket p P) :
    f.byteLength ≤ P * p.lanes := by
  have hlen : f.rest.length + 1 = P := by
    have := congrArg List.length hf
    rwa [length_loopPacket] at this
  have hlast : (f.words.getLast f.words_ne_nil).validBytes = p.lanes := by
    have hmem : f.words.getLast f.words_ne_nil ∈ loopPacket p P := hf ▸ List.getLast_mem _
    obtain ⟨d, -, hd⟩ := List.mem_map.mp hmem
    rw [← hd, Word.validBytes_full]
  rw [MacFrame.byteLength, hlast, ← hlen, Nat.add_mul, Nat.mul_comm p.lanes, Nat.one_mul]

/-- A frame that begins to come in was on the cable. -/
theorem begins_eq_some {c : CableCycle p} {f : MacFrame p} (hf : h.begins c = some f) :
    h.onCable = some f := by
  unfold Hop.begins at hf
  obtain ⟨w, rest, -, hnext⟩ | ⟨g, -, -, hoffer, hnext⟩ | ⟨-, hnext⟩ :=
    h.rx.mac.next_cases (h.macCycle c).offer c.idleData
  · rw [hnext] at hf
    cases hf
  · rw [hnext] at hf
    injection hf with hf
    unfold Hop.macCycle at hoffer
    dsimp only at hoffer
    split at hoffer
    · rw [hoffer, hf]
    · cases hoffer
  · rw [hnext] at hf
    cases hf

/-- Every frame offered to the receive queue is one. -/
theorem framesWithin (hP : 0 < P) (hinv : HopInv P n h) (c : CableCycle p) :
    FramesWithin (P * p.lanes) (.mac (h.macCycle c)) := by
  intro f hf
  apply byteLength_le
  unfold Hop.macCycle at hf
  dsimp only at hf
  split at hf
  · exact (hinv.onCable hP hf).1
  · cases hf

theorem rxMac (hP : 0 < P) (hroom : P ≤ almostFullOffset) (hinv : HopInv P n h)
    (c : CableCycle p) (hfed : HopFed h (.rxMac c)) : HopInv P n (h.step (.rxMac c)) where
  tx := hinv.tx
  input := hinv.input
  rx := hinv.rx.macStep hroom _ hfed (hinv.framesWithin hP c)
  admitted := by
    intro f hf
    rcases List.mem_append.mp hf with hf | hf
    · exact hinv.admitted f hf
    · split at hf
      · exact (hinv.onCable hP (begins_eq_some (Option.mem_toList.mp hf))).1
      · cases hf
  arrived := by
    have harrived := hinv.arrived
    unfold Hop.missing at harrived ⊢
    simp only [Hop.step, RxBench.macStep, ← harrived, List.length_append, Hop.begins]
    -- the frame that begins is admitted or dropped
    have hidle : (h.macCycle c).idleData = c.idleData := rfl
    rw [hidle]
    split <;> simp only [List.length_nil] <;> omega
  sent := by
    have hsent := hinv.sent
    simp only [Hop.step]
    cases hbegins : h.begins c with
    | none => exact hsent
    | some f => exact (hinv.onCable hP (begins_eq_some hbegins)).2

theorem lose (hinv : HopInv P n h) : HopInv P n (h.step .lose) := by
  simp only [Hop.step]
  split
  · next hlt =>
    refine { hinv with arrived := ?_, sent := hlt }
    have harrived := hinv.arrived
    unfold Hop.missing at harrived ⊢
    dsimp only
    omega
  · exact hinv

/-- A step of the sending side alone, which puts out no less than before. -/
theorem ofTx (hinv : HopInv P n h) {tx : TxBench p}
    (htx : ∃ beats popped, TxEmitInv tx beats popped) (hinput : tx.input = h.tx.input)
    (houtput : h.tx.output.1.length ≤ tx.output.1.length) : HopInv P n { h with tx := tx } where
  tx := htx
  input := hinput.trans hinv.input
  rx := hinv.rx
  admitted := hinv.admitted
  arrived := hinv.arrived
  sent := Nat.le_trans hinv.sent houtput

/-- The sending MAC only adds to what was sent. -/
theorem length_output_macStep (s : TxBench p) (i : TxMacIn p) :
    s.output.1.length ≤ (s.macStep i).output.1.length := by
  simp only [TxBench.macStep]
  split
  · split
    · rw [length_push]
      exact Nat.le_add_right _ _
    · exact Nat.le_refl _
  · rw [length_push]
    exact Nat.le_add_right _ _
  · exact Nat.le_refl _

/-- **Between two edges of the AXI clock.** -/
theorem step (hP : 0 < P) (hroom : P ≤ almostFullOffset) (hinv : HopInv P n h) (e : HopStep p)
    (hfed : HopFed h e) : HopInv P n (h.step e) := by
  obtain ⟨beats, popped, htx⟩ := hinv.tx
  cases e with
  | txMac i => exact hinv.ofTx (htx.step (.mac i) ⟨trivial, trivial⟩) rfl (length_output_macStep h.tx i)
  | rxMac c => exact hinv.rxMac hP hroom c hfed
  | lose => exact hinv.lose
  | syncTxData => exact hinv.ofTx (htx.step .syncData ⟨trivial, trivial⟩) rfl (Nat.le_refl _)
  | syncTxInfo => exact hinv.ofTx (htx.step .syncInfo ⟨hfed, trivial⟩) rfl (Nat.le_refl _)
  | syncRxData => exact { hinv with rx := hinv.rx.step hroom .syncData trivial trivial }
  | syncRxInfo => exact { hinv with rx := hinv.rx.step hroom .syncInfo trivial trivial }

section Axi

variable {offer : Option (TxBeat p)} {lines : TxBeat p} {f : HopFlags p}

/-- Where the word that waits is still on offer, the queue sees what is on offer. -/
theorem axiIn_eq (hheld : ∀ b, h.tx.held = some b → offer = some b) :
    h.tx.axiIn (Hop.txCycle offer lines f)
      = ⟨offer.getD lines, offer.isSome, f.fifoAlmostFull, f.infoWfull⟩ := by
  have hor : h.tx.held.or offer = offer := by
    cases hb : h.tx.held with
    | none => rfl
    | some b => rw [hheld b hb, Option.or_self]
  unfold TxBench.axiIn
  rw [show (Hop.txCycle offer lines f).offer = offer from rfl, hor]
  cases offer <;> rfl

/-- With an exact flag a word on offer is written when `tready` is high. -/
theorem writes_eq (hheld : ∀ b, h.tx.held = some b → offer = some b)
    (hflags : TxFlagsExact h.tx (.axi (Hop.txCycle offer lines f))) :
    h.tx.queue.writes (h.tx.axiIn (Hop.txCycle offer lines f))
      = (offer.isSome && !f.fifoAlmostFull) := by
  rw [axiIn_eq hheld]
  show (offer.isSome && !f.fifoAlmostFull && !h.tx.queue.fifoFull) = _
  -- a FIFO that is full is almost full
  have hexact : f.fifoAlmostFull
      = decide (p.txFifoDepth ≤ h.tx.queue.txFifo.count + almostFullOffset) := hflags
  cases hfull : h.tx.queue.fifoFull with
  | false => simp
  | true =>
    have hcount : p.txFifoDepth ≤ h.tx.queue.txFifo.count := by
      simpa [TxQueue.fifoFull] using hfull
    rw [hexact, decide_eq_true (by omega)]
    simp

/-- A word that was not taken is still on offer. -/
theorem held_axiStep (hheld : ∀ b, h.tx.held = some b → offer = some b) {tready : Bool} {b : TxBeat p}
    (hb : (h.axiStep offer lines f tready).tx.held = some b) :
    offer = some b ∧ f.fifoAlmostFull = true := by
  simp only [Hop.axiStep, TxBench.axiStep, axiIn_eq hheld, TxAxiIn.tready, Bool.not_not] at hb
  cases hoffer : offer with
  | none => simp [hoffer] at hb
  | some b' =>
    cases hfull : f.fifoAlmostFull with
    | false => simp [hoffer, hfull] at hb
    | true => exact ⟨by simpa [hoffer, hfull] using hb, rfl⟩

/-- **An edge of the AXI clock.** -/
theorem axiStep (hP : 2 ≤ P) (hroom : P ≤ almostFullOffset) (hinv : HopInv P n h) (tready : Bool)
    (hoffer : ∀ b, offer = some b → b = loopBeat p P n)
    (hheld : ∀ b, h.tx.held = some b → offer = some b)
    (hflags : TxFlagsExact h.tx (.axi (Hop.txCycle offer lines f))) :
    HopInv P (n + (offer.isSome && !f.fifoAlmostFull).toNat)
      (h.axiStep offer lines f tready) := by
  obtain ⟨beats, popped, htx⟩ := hinv.tx
  have hwrites := writes_eq hheld hflags
  have hin : h.tx.axiIn (Hop.txCycle offer lines f) = _ := axiIn_eq hheld
  -- the word that is written is the next one
  have hbeat : h.tx.queue.writes (h.tx.axiIn (Hop.txCycle offer lines f)) = true →
      (h.tx.axiIn (Hop.txCycle offer lines f)).beat = loopBeat p P n := by
    intro hw
    rw [hwrites, Bool.and_eq_true] at hw
    obtain ⟨b, hb⟩ := Option.isSome_iff_exists.mp hw.1
    rw [hin, hb]
    exact hoffer b hb
  have hfed : TxFed h.tx (.axi (Hop.txCycle offer lines f)) := by
    refine ⟨?_, ?_⟩
    · intro hw hlast
      rw [hbeat hw] at hlast
      have hpos : n % P = P - 1 := of_decide_eq_true hlast
      rw [hinv.input, packets_loopStream (by omega)]
      intro hnil
      have hlen := congrArg List.length hnil
      rw [List.length_map, length_rotations] at hlen
      simp only [List.length_nil] at hlen
      omega
    · intro hw
      rw [hbeat hw]
      exact strobeOk_allOnes p
  refine
    { tx := htx.step _ hfed
      input := ?_
      rx := hinv.rx.step hroom (.axi (Hop.rxIn f tready)) trivial trivial
      admitted := hinv.admitted
      arrived := hinv.arrived
      sent := hinv.sent }
  show (if h.tx.queue.writes (h.tx.axiIn (Hop.txCycle offer lines f)) then _ else _) = _
  rw [← hwrites]
  cases hw : h.tx.queue.writes (h.tx.axiIn (Hop.txCycle offer lines f)) with
  | false => exact hinv.input
  | true =>
    rw [if_pos rfl, hbeat hw, marked_loopBeat, hinv.input, ← packets_concat, ← loopStream_succ]
    rfl

end Axi

/-! ### A hop at rest

When nothing is under way, the counts of packets at the two ends of a hop differ by those that are
missing. -/

/-- **Conservation.** Once nothing is under way, each packet taken in has been read at the other end,
was dropped by the receive queue, or got lost. -/
theorem conserved (hP : 0 < P) (hinv : HopInv P n h) (hquiet : h.Quiet) :
    h.rx.beats.length / P + h.missing = n / P := by
  have hsent : h.tx.output.1.length = n / P := by
    obtain ⟨beats, popped, htx⟩ := hinv.tx
    have hall := htx.written.marked_eq htx.strobes
    rw [hquiet.tx, List.append_nil] at hall
    rw [← htx.output, hall, htx.written.input, hinv.input, packets_loopStream hP,
      List.length_replicate]
  have hread : h.rx.beats.length = h.rx.admitted.length * P := by
    obtain ⟨written, popped, hcarries, hwrite, -, hbeats⟩ := hinv.rx.stream
    have hall : popped = written := by
      have := hcarries
      rwa [AsyncFifo.Carries, hquiet.rx, List.append_nil] at this
    rw [hquiet.state] at hwrite
    cases hwrite with
    | idle _ hframed =>
      have hflat : h.rx.beats = h.rx.admitted.flatMap MacFrame.beats := by
        rw [hbeats, hall, hframed.lookahead_eq, List.flatMap_map]
        rfl
      rw [hflat, hinv.flatMap_admitted hP, length_loopStream]
  rw [hread, Nat.mul_div_cancel _ hP, hinv.arrived, hquiet.cable, hsent]

end HopInv

end Nf10.Hw
