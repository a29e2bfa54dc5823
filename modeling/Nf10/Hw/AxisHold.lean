import Nf10.Lib.Handshake
import Nf10.Hw.RxQueue
import Nf10.Hw.PacketGen

/-!
# Nf10 — AXI4-Stream masters hold their offer

The three masters of the cores under any input: the two `rx_queue`s with arbitrary MAC lines and FIFO
flags, and the generator of `nf10_axis_gen_check`. A word on offer that the sink does not take is on
offer again in the next cycle.

In `rx_queue` `tvalid` and `tlast` are not registers. While the sink stalls the FIFOs may be written
and may show more, but not less: what the read side sees only grows at the far end, and the output
looks at nothing but the near one.
-/

namespace Nf10.Hw

open Runs Handshake

variable {p : Port}

/-- The edges of the two clocks of `rx_queue`, and entries of its FIFOs becoming visible. -/
inductive RxEvent (p : Port) where
  | mac (i : RxMacIn p)
  | axi (i : RxAxiIn p)
  | syncData
  | syncInfo

namespace RxQueue

/-- One event. -/
def step (q : RxQueue p) : RxEvent p → RxQueue p
  | .mac i => q.macEdge i
  | .axi i => q.axiEdge i
  | .syncData => { q with rxFifo := q.rxFifo.sync }
  | .syncInfo => { q with rxInfoFifo := q.rxInfoFifo.sync }

/-- The stream side: `tdata` and `tstrb` with `tlast`. -/
def axisChannel (p : Port) : Channel (RxQueue p) (RxEvent p) (Word p × Bool) where
  cycle
    | .axi _ => true
    | _ => false
  offer q
    | .axi i => if (q.axiOut i).tvalid then some (q.axis, (q.axiOut i).tlast) else none
    | _ => none
  ready _
    | .axi i => i.tready
    | _ => false

/-- The states in which `tvalid` is high: a word follows the one in the registers, or the end of the
frame does and its verdict is there. -/
inductive Offering (q : RxQueue p) : Bool → Prop where
  | word {x : Word p} {rest : List (Word p)} (errState : q.errState = .errIdle)
      (seen : q.rxFifo.seen = x :: rest) (notEnd : x.isEnd = false) : Offering q false
  | last {bad : Bool} {bads : List Bool} (errState : q.errState = .errWait)
      (seen : q.rxInfoFifo.seen = bad :: bads) : Offering q true

/-- **When `tvalid` is high.** -/
theorem offering_of_tvalid {q : RxQueue p} {i : RxAxiIn p} (h : (q.axiOut i).tvalid = true) :
    Offering q (q.axiOut i).tlast := by
  cases he : q.errState with
  | errBubble =>
    cases hs : q.rxFifo.seen with
    | nil => simp [(axi_bubble_empty i he hs).1] at h
    | cons x rest => simp [(axi_bubble_load i he hs).1] at h
  | errIdle =>
    cases hs : q.rxFifo.seen with
    | nil => simp [(axi_idle_empty i he hs).1] at h
    | cons x rest =>
      cases hx : x.isEnd with
      | true => simp [(axi_idle_end i he hs hx).1] at h
      | false =>
        rw [(axi_idle_word i he hs hx).1]
        exact .word he hs hx
  | errWait =>
    cases hs : q.rxInfoFifo.seen with
    | nil => simp [(axi_wait_empty i he hs).1] at h
    | cons bad bads =>
      have hlast : (q.axiOut i).tlast = true := by
        cases hr : i.tready <;> simp [axiOut, rxAxi, he, hs, hr]
      rw [hlast]
      exact .last he hs

namespace Offering

variable {q : RxQueue p} {tlast : Bool}

/-- In such a state the word is on offer, whatever the inputs are. -/
theorem axiOut (h : Offering q tlast) (i : RxAxiIn p) :
    (q.axiOut i).tvalid = true ∧ (q.axiOut i).tlast = tlast := by
  cases h with
  | word he hs hx =>
    rw [(axi_idle_word i he hs hx).1]
    exact ⟨rfl, rfl⟩
  | last he hs => cases hr : i.tready <;> simp [RxQueue.axiOut, rxAxi, he, hs, hr]

theorem offers (h : Offering q tlast) : (axisChannel p).Offers q (q.axis, tlast) := by
  intro e he
  cases e with
  | axi i => simp [axisChannel, (h.axiOut i).1, (h.axiOut i).2]
  | mac i => simp [axisChannel] at he
  | syncData => simp [axisChannel] at he
  | syncInfo => simp [axisChannel] at he

/-- A stalled edge changes nothing. -/
theorem axiEdge_stall (h : Offering q tlast) {i : RxAxiIn p} (hr : i.tready = false) :
    q.axiEdge i = q := by
  cases h with
  | word he hs hx =>
    rw [(axi_idle_word i he hs hx).2, hr]
    rfl
  | last he hs => exact (axi_wait_stall i he hs hr).2

/-- The output looks only at `err_state` and at the near ends of the FIFOs. -/
theorem of_prefix (h : Offering q tlast) {q' : RxQueue p} (he : q'.errState = q.errState)
    (hdata : q.rxFifo.seen <+: q'.rxFifo.seen)
    (hinfo : q.rxInfoFifo.seen <+: q'.rxInfoFifo.seen) : Offering q' tlast := by
  cases h with
  | word herr hs hx =>
    obtain ⟨more, hmore⟩ := hdata
    rw [hs, List.cons_append] at hmore
    exact .word (he.trans herr) hmore.symm hx
  | last herr hs =>
    obtain ⟨more, hmore⟩ := hinfo
    rw [hs, List.cons_append] at hmore
    exact .last (he.trans herr) hmore.symm

end Offering

/-- An edge of the MAC clock shows nothing to the read side. -/
theorem seen_macEdge (q : RxQueue p) (i : RxMacIn p) :
    (q.macEdge i).rxFifo.seen = q.rxFifo.seen
      ∧ (q.macEdge i).rxInfoFifo.seen = q.rxInfoFifo.seen := by
  constructor
  · simp only [macEdge]
    split
    · exact AsyncFifo.seen_write _ _ _
    · rfl
  · simp only [macEdge]
    split
    · exact AsyncFifo.seen_write _ _ _
    · rfl

/-- **Between two AXI edges** an offer stays, whatever the other clock does. -/
theorem offering_step_idle {q : RxQueue p} {tlast : Bool} (h : Offering q tlast) {e : RxEvent p}
    (he : (axisChannel p).cycle e = false) :
    Offering (q.step e) tlast ∧ (q.step e).axis = q.axis := by
  cases e with
  | axi i => simp [axisChannel] at he
  | mac i =>
    have hseen := seen_macEdge q i
    refine ⟨h.of_prefix rfl ?_ ?_, rfl⟩
    · exact hseen.1 ▸ List.prefix_refl _
    · exact hseen.2 ▸ List.prefix_refl _
  | syncData =>
    exact ⟨h.of_prefix rfl (AsyncFifo.seen_prefix_sync _) (List.prefix_refl _), rfl⟩
  | syncInfo =>
    exact ⟨h.of_prefix rfl (List.prefix_refl _) (AsyncFifo.seen_prefix_sync _), rfl⟩

/-- What is on offer, from one cycle of it. -/
theorem offering_of_offer {q : RxQueue p} {e : RxEvent p} {w : Word p × Bool}
    (h : (axisChannel p).offer q e = some w) : Offering q w.2 ∧ q.axis = w.1 := by
  cases e with
  | axi i =>
    simp only [axisChannel] at h
    split at h
    · next hvalid =>
      injection h with hw
      rw [← hw]
      exact ⟨offering_of_tvalid hvalid, rfl⟩
    · cases h
  | mac i => cases h
  | syncData => cases h
  | syncInfo => cases h

/-- Between two edges of the AXI clock an offer stays. -/
theorem offers_step_idle (q : RxQueue p) (e : RxEvent p) (w : Word p × Bool)
    (he : (axisChannel p).cycle e = false) (h : (axisChannel p).Offers q w) :
    (axisChannel p).Offers (q.step e) w := by
  -- a cycle of the AXI clock with the sink stalled shows what is on offer
  obtain ⟨hoff, haxis⟩ := offering_of_offer (h (.axi ⟨false, q.axis, false⟩) rfl)
  obtain ⟨hnext, hsame⟩ := offering_step_idle hoff he
  have := hnext.offers
  rwa [hsame, haxis] at this

/-- An offer that is not taken is there at the next edge. -/
theorem keeps (q : RxQueue p) (e : RxEvent p) : (axisChannel p).Keeps step q e := by
  intro w hcycle hoffer hready
  obtain ⟨hoff, haxis⟩ := offering_of_offer hoffer
  cases e with
  | axi i =>
    show (axisChannel p).Offers (q.axiEdge i) w
    rw [hoff.axiEdge_stall hready]
    have := hoff.offers
    rwa [haxis] at this
  | mac i => cases hcycle
  | syncData => cases hcycle
  | syncInfo => cases hcycle

theorem holds (q : RxQueue p) (es : List (RxEvent p)) : (axisChannel p).Holds step q es :=
  (Channel.holds_iff_along offers_step_idle q es).mpr (along_of_mem (fun e _ q => keeps q e) q)

end RxQueue

end Nf10.Hw

namespace Nf10.GenCheck

open Runs Handshake

variable {W : Nat}

namespace Gen

/-- The stream side of the generator; there is one clock. -/
def axisChannel (P W : Nat) : Channel (Gen W) GenIn (BitVec W × BitVec (W / 8) × Bool) where
  cycle _ := true
  offer g _ := if g.tvalid then some (g.tdata, g.tstrb, g.tlast P) else none
  ready _ i := i.tready

/-- `M_AXIS_TVALID` and `M_AXIS_TSTRB` are registers beside `gen_state`, and in step with it. -/
def InStep (g : Gen W) : Prop :=
  g.tvalid = true → g.genState = .pkt ∧ g.tstrb = BitVec.allOnes _

/-- After any edge, `tvalid` and `tstrb` are those of the state. -/
theorem inStep_step (P IFG : Nat) (g : Gen W) (i : GenIn) : InStep (g.step P IFG i) := by
  intro hvalid
  cases hst : g.genState with
  | pkt =>
    simp only [step, hst] at hvalid ⊢
    split at hvalid
    · split at hvalid
      · cases hvalid
      · next hr hlast => simp [hr, hlast]
    · next hr => simp [hr]
  | ifg =>
    simp only [step, hst] at hvalid
    split at hvalid
    · split at hvalid
      · split at hvalid <;> cases hvalid
      · cases hvalid
    · cases hvalid
  | finish => simp [step, hst]

theorem step_pkt_stall {P IFG : Nat} {g : Gen W} {i : GenIn} (hst : g.genState = .pkt)
    (hr : i.tready = false) :
    g.step P IFG i = { g with tstrb := BitVec.allOnes _, tvalid := true } := by
  simp [step, hst, hr]

/-- An offer of the generator that is not taken is there in the next cycle. -/
theorem keeps {P IFG : Nat} {g : Gen W} (h : InStep g) (i : GenIn) :
    (axisChannel P W).Keeps (step P IFG) g i := by
  intro w _ hoffer hready i' _
  simp only [axisChannel] at hoffer hready ⊢
  split at hoffer
  · next hvalid =>
    injection hoffer with hw
    obtain ⟨hst, hstrb⟩ := h hvalid
    rw [step_pkt_stall hst hready, ← hw, hstrb]
    rfl
  · cases hoffer

theorem holds (P IFG : Nat) (tdata pktTxBuf : BitVec W) (is : List GenIn) :
    (axisChannel P W).Holds (step P IFG) (reset tdata pktTxBuf) is := by
  have hinit : InStep (reset tdata pktTxBuf) := fun h => by cases h
  have hall : Along (step P IFG) (fun _ _ => True) (reset tdata pktTxBuf) is :=
    along_of_mem (fun _ _ _ => trivial) _
  refine (Channel.holds_iff_along (fun _ _ _ hcycle => by cases hcycle) _ is).mpr ?_
  exact along_of_invariant (fun g i _ _ => inStep_step P IFG g i) (fun g i hg _ => keeps hg i)
    hinit hall

end Gen

end Nf10.GenCheck

namespace Nf10.Hw

open Handshake

/-- **AXI4-Stream masters hold their offer.** Both receive queues and the generator, from reset and
for any inputs. -/
theorem axis_masters_hold :
    (∀ (p : Port) (axis : Word p) (es : List (RxEvent p)),
      (RxQueue.axisChannel p).Holds RxQueue.step (RxQueue.reset axis) es)
    ∧ ∀ (W P IFG : Nat) (tdata pktTxBuf : BitVec W) (is : List GenCheck.GenIn),
      (GenCheck.Gen.axisChannel P W).Holds (GenCheck.Gen.step P IFG)
        (GenCheck.Gen.reset tdata pktTxBuf) is :=
  ⟨fun _ axis es => RxQueue.holds (RxQueue.reset axis) es, fun _ => GenCheck.Gen.holds⟩

/-- Two words written, both visible, the first in the AXI registers: it is on offer. -/
example :
    (RxQueue.axisChannel .oneGig).offer
      (Runs.run RxQueue.step (RxQueue.reset ⟨0, 0⟩)
        [.mac ⟨⟨0xa5, 1⟩, false, false, false, false⟩, .mac ⟨⟨0x5a, 1⟩, false, false, false, false⟩,
          .syncData, .syncData, .axi ⟨false, ⟨0, 0⟩, false⟩])
      (.axi ⟨false, ⟨0, 0⟩, false⟩) = some (⟨0xa5, 1⟩, false) := by
  decide

end Nf10.Hw
