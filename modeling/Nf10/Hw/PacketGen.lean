import Mathlib.Data.List.Basic
import Mathlib.Data.List.Range
import Mathlib.Algebra.Ring.Nat
import Nf10.Lib.Framing
import Nf10.Lib.Runs

/-!
# Nf10 — the packet generator of `nf10_axis_gen_check`

`gen_p` of `nf10_axis_gen_check.vhd` sends packets of `C_GEN_PKT_SIZE` words, the first one the seed
and each further one the word before it rotated right by one bit, with `C_IFG_SIZE` words between
two packets. One 16-bit counter, `gen_word_num`, counts the words of the packet and goes on counting
through the gap.

The stream is what a receiver takes: the words on offer in a cycle with `M_AXIS_TREADY`.
`GenInv` ties the three registers that have to stay in step (state, counter, shift register) to the
number of words taken; `genInv_step` is the step lemma.
-/

namespace Nf10.GenCheck

open Framing Runs

variable {W : Nat}

/-! ## Rotation

Each word of a packet is the one before it rotated right by a bit. Rotations compose, which is how
the shift register and the position in the packet are kept in step. -/

/-- A bit of a rotated word is a bit of the word, round the end. -/
theorem getElem_rotateRight_mod (x : BitVec W) (r : Nat) {i : Nat} (hi : i < W) :
    (x.rotateRight r)[i] = x.getLsbD ((i + r) % W) := by
  have hr : r % W < W := Nat.mod_lt r (by omega)
  rw [BitVec.getElem_rotateRight hi, Nat.add_mod, Nat.mod_eq_of_lt hi]
  split
  · have hlow : (i + r % W) % W = r % W + i := by
      rw [Nat.mod_eq_of_lt (by omega), Nat.add_comm]
    rw [hlow, BitVec.getLsbD_eq_getElem]
  · have hwrap : (i + r % W) % W = i - (W - r % W) := by
      rw [Nat.mod_eq_sub_mod (by omega), Nat.mod_eq_of_lt (by omega)]
      omega
    rw [hwrap, BitVec.getLsbD_eq_getElem]

theorem rotateRight_zero (x : BitVec W) : x.rotateRight 0 = x := by
  ext i hi
  rw [getElem_rotateRight_mod x 0 hi, Nat.add_zero, Nat.mod_eq_of_lt hi, BitVec.getLsbD_eq_getElem]

/-- One more rotation by one bit. -/
theorem rotateRight_succ (x : BitVec W) (r : Nat) :
    (x.rotateRight r).rotateRight 1 = x.rotateRight (r + 1) := by
  ext i hi
  have hlt : (i + 1) % W < W := Nat.mod_lt _ (by omega)
  rw [getElem_rotateRight_mod _ 1 hi, BitVec.getLsbD_eq_getElem hlt, getElem_rotateRight_mod x r hlt,
    getElem_rotateRight_mod x (r + 1) hi, Nat.mod_add_mod]
  congr 2
  omega

/-- The first `n` words of a packet that starts with `x`. -/
def rotations (x : BitVec W) (n : Nat) : List (BitVec W) :=
  (List.range n).map x.rotateRight

@[simp] theorem length_rotations (x : BitVec W) (n : Nat) : (rotations x n).length = n := by
  simp [rotations]

theorem rotations_succ (x : BitVec W) (n : Nat) :
    rotations x (n + 1) = rotations x n ++ [x.rotateRight n] := by
  simp [rotations, List.range_succ]

/-! ## `std_logic_unsigned`

The counter is a `std_logic_vector` that is compared with integers. The library converts both to a
common width, which is one bit more than the counter has; a generic that does not fit in it would be
compared modulo. -/

/-- `"="` of a 16-bit vector and an integer: `std_logic_arith` converts both to 17 bits. -/
def slvEq (w : BitVec 16) (n : Nat) : Bool :=
  w.setWidth 17 == BitVec.ofNat 17 n

/-- Below `2 ^ 17` the comparison is one of numbers. -/
theorem slvEq_iff {w : BitVec 16} {n : Nat} (hn : n < 2 ^ 17) : slvEq w n = true ↔ w.toNat = n := by
  have hw : w.toNat < 2 ^ 16 := w.isLt
  rw [slvEq, beq_iff_eq, ← BitVec.toNat_inj, BitVec.toNat_setWidth, BitVec.toNat_ofNat,
    Nat.mod_eq_of_lt hn, Nat.mod_eq_of_lt (by omega)]

/-- The counter goes up by one where it has room to. -/
theorem toNat_wordNum_succ {w : BitVec 16} (h : w.toNat + 1 < 2 ^ 16) :
    (w + 1).toNat = w.toNat + 1 := by
  rw [BitVec.toNat_add]
  show (w.toNat + 1) % 2 ^ 16 = w.toNat + 1
  exact Nat.mod_eq_of_lt h

/-! ## The process

`gen_p`, one clock edge at a time, and after it one lemma for each branch. Everything further on
uses those and never the definition. -/

/-- `gen_state`: inside a packet, in the gap, about to begin. -/
inductive GenState where
  | pkt
  | ifg
  | finish
deriving DecidableEq, Repr

/-- The registers `gen_p` drives. -/
structure Gen (W : Nat) where
  genState : GenState
  genWordNum : BitVec 16
  tstrb : BitVec (W / 8)
  tvalid : Bool
  tdata : BitVec W
  pktTxBuf : BitVec W
  txCount : BitVec 32
deriving DecidableEq, Repr

/-- The inputs of the process. -/
structure GenIn where
  tready : Bool
  countReset : Bool
deriving DecidableEq, Repr

/-- The constant `seed`. -/
def seed : BitVec 256 :=
  0xCAFEBEEFCAFEBEEFCAFEBEEFCAFEBEEFCAFEBEEFCAFEBEEFCAFEBEEFCAFEBEEF#256

/-- `seed(C_M_AXIS_DATA_WIDTH -1 downto 0)` -/
def seedWord (W : Nat) : BitVec W :=
  seed.setWidth W

namespace Gen

/-- `M_AXIS_TDATA` and `pkt_tx_buf` have no reset. -/
def reset (tdata pktTxBuf : BitVec W) : Gen W where
  genState := .ifg
  genWordNum := 0
  tstrb := 0
  tvalid := false
  tdata := tdata
  pktTxBuf := pktTxBuf
  txCount := 0

/-- `M_AXIS_TLAST`, which is not a register. -/
def tlast (P : Nat) (g : Gen W) : Bool :=
  slvEq g.genWordNum (P - 1)

/-- One clock edge, with `P` for `C_GEN_PKT_SIZE` and `IFG` for `C_IFG_SIZE`. -/
def step (P IFG : Nat) (g : Gen W) (i : GenIn) : Gen W :=
  match g.genState with
  | .pkt =>
    if i.tready then
      if slvEq g.genWordNum (P - 1) then
        { g with
          tstrb := 0, tvalid := false, genWordNum := g.genWordNum + 1,
          txCount := g.txCount + 1, genState := .ifg }
      else
        { g with
          tstrb := BitVec.allOnes _, tvalid := true, genWordNum := g.genWordNum + 1,
          pktTxBuf := g.pktTxBuf.rotateRight 1, tdata := g.pktTxBuf.rotateRight 1 }
    else { g with tstrb := BitVec.allOnes _, tvalid := true }
  | .ifg =>
    if i.tready then
      if slvEq g.genWordNum (P + IFG - 1) then
        if i.countReset then
          -- holds here while the counters are being reset
          { g with tstrb := 0, tvalid := false, genWordNum := g.genWordNum + 1, txCount := 0 }
        else
          { g with
            tstrb := 0, tvalid := false, genWordNum := g.genWordNum + 1, genState := .finish }
      else { g with tstrb := 0, tvalid := false, genWordNum := g.genWordNum + 1 }
    else { g with tstrb := 0, tvalid := false }
  | .finish =>
    { g with
      tstrb := BitVec.allOnes _, tvalid := true, tdata := seedWord W, pktTxBuf := seedWord W,
      genWordNum := 0, genState := .pkt }

section Step

variable {P : Nat} (IFG : Nat) {g : Gen W} {i : GenIn}

theorem step_pkt_last (hst : g.genState = .pkt) (hr : i.tready = true)
    (h : slvEq g.genWordNum (P - 1) = true) :
    g.step P IFG i =
      { g with
        tstrb := 0, tvalid := false, genWordNum := g.genWordNum + 1,
        txCount := g.txCount + 1, genState := .ifg } := by
  simp [step, hst, hr, h]

/-- A word that is not the last is taken, and the next one goes on offer. -/
theorem step_pkt_within (hst : g.genState = .pkt) (hr : i.tready = true)
    (h : ¬ slvEq g.genWordNum (P - 1) = true) :
    g.step P IFG i =
      { g with
        genState := .pkt, tstrb := BitVec.allOnes _, tvalid := true, genWordNum := g.genWordNum + 1,
        pktTxBuf := g.pktTxBuf.rotateRight 1, tdata := g.pktTxBuf.rotateRight 1 } := by
  simp [step, hst, hr, h]

theorem step_ifg_last (hst : g.genState = .ifg) (hr : i.tready = true) (hc : i.countReset = false)
    (h : slvEq g.genWordNum (P + IFG - 1) = true) :
    g.step P IFG i =
      { g with
        tstrb := 0, tvalid := false, genWordNum := g.genWordNum + 1, genState := .finish } := by
  simp [step, hst, hr, hc, h]

theorem step_ifg_within (hst : g.genState = .ifg) (hr : i.tready = true)
    (h : ¬ slvEq g.genWordNum (P + IFG - 1) = true) :
    g.step P IFG i =
      { g with genState := .ifg, tstrb := 0, tvalid := false, genWordNum := g.genWordNum + 1 } := by
  simp [step, hst, hr, h]

theorem step_finish (hst : g.genState = .finish) :
    g.step P IFG i =
      { g with
        tstrb := BitVec.allOnes _, tvalid := true, tdata := seedWord W, pktTxBuf := seedWord W,
        genWordNum := 0, genState := .pkt } := by
  simp [step, hst]

end Step

end Gen

/-- The generator with what its receiver has taken so far, and the number of cycles the receiver was
ready in. -/
structure GenSys (W : Nat) where
  gen : Gen W
  sent : List (BitVec W × Bool)
  ready : Nat
deriving DecidableEq, Repr

namespace GenSys

/-- After reset nothing has been sent. -/
def reset (tdata pktTxBuf : BitVec W) : GenSys W :=
  ⟨Gen.reset tdata pktTxBuf, [], 0⟩

/-- A clock edge, with the word taken on record. -/
def step (P IFG : Nat) (s : GenSys W) (i : GenIn) : GenSys W where
  gen := s.gen.step P IFG i
  sent :=
    if s.gen.tvalid && i.tready then s.sent ++ [(s.gen.tdata, s.gen.tlast P)] else s.sent
  ready := s.ready + i.tready.toNat

end GenSys

/-! ## The stream it should send

What the generator is for, without its registers: a stream in which word `i` is a rotation of the
seed by the position in its packet. -/

/-- Word `i` of the stream with its last-mark. -/
def genWord (W P i : Nat) : BitVec W × Bool :=
  ((seedWord W).rotateRight (i % P), decide (i % P = P - 1))

/-- The first `n` words of the stream. -/
def genStream (W P n : Nat) : List (BitVec W × Bool) :=
  (List.range n).map (genWord W P)

@[simp] theorem length_genStream (P n : Nat) : (genStream W P n).length = n := by
  simp [genStream]

theorem genStream_succ (P n : Nat) :
    genStream W P (n + 1) = genStream W P n ++ [genWord W P n] := by
  simp [genStream, List.range_succ]

/-- A word of the stream is the one for its position. -/
theorem getElem?_genStream {P n i : Nat} {x : BitVec W × Bool}
    (h : (genStream W P n)[i]? = some x) : x = genWord W P i := by
  obtain ⟨_, hx⟩ := List.getElem?_eq_some_iff.mp h
  rw [← hx]
  simp [genStream]

section Position

variable {P n : Nat}

/-- Behind the last word of a packet comes the first of the next. -/
theorem succ_div_mod_of_last (hP : 0 < P) (h : n % P = P - 1) :
    (n + 1) / P = n / P + 1 ∧ (n + 1) % P = 0 := by
  have hn : n + 1 = P * (n / P + 1) := by
    have := Nat.div_add_mod n P
    rw [Nat.mul_add]
    omega
  rw [hn]
  exact ⟨Nat.mul_div_cancel_left _ hP, Nat.mul_mod_right _ _⟩

/-- Behind any other word comes the next of the same packet. -/
theorem succ_div_mod_of_within (hP : 0 < P) (h : n % P ≠ P - 1) :
    (n + 1) / P = n / P ∧ (n + 1) % P = n % P + 1 := by
  have hlt : n % P < P := Nat.mod_lt n hP
  have hn : n % P + 1 + P * (n / P) = n + 1 := by
    have := Nat.div_add_mod n P
    omega
  exact (Nat.div_mod_unique hP).mpr ⟨hn, by omega⟩

/-- **The stream is packets.** After `n` words there are `n / P` packets of `P` words, each the
rotations of the seed, and the beginning of one more. -/
theorem packets_genStream (hP : 0 < P) (n : Nat) :
    packets (genStream W P n) =
      (List.replicate (n / P) (rotations (seedWord W) P), rotations (seedWord W) (n % P)) := by
  induction n with
  | zero => simp [genStream, packets, rotations]
  | succ n ih =>
    rw [genStream_succ, packets_concat, ih, genWord]
    by_cases h : n % P = P - 1
    · obtain ⟨hdiv, hmod⟩ := succ_div_mod_of_last hP h
      have hfull : rotations (seedWord W) (n % P) ++ [(seedWord W).rotateRight (n % P)] =
          rotations (seedWord W) P := by
        rw [← rotations_succ, h, Nat.sub_add_cancel hP]
      rw [hdiv, hmod, decide_eq_true h, push_last, hfull, List.replicate_succ']
      rfl
    · obtain ⟨hdiv, hmod⟩ := succ_div_mod_of_within hP h
      rw [hdiv, hmod, decide_eq_false h, push_word, rotations_succ]

end Position

/-! ## The generator sends it

The registers are tied to the number of words taken, state by state. In the gap nothing is on offer
and the counter says how much of it is over, so that one counter serves for both. -/

/-- What the registers hold after `n` words taken in `ready` cycles of `M_AXIS_TREADY`. Word `n` of
the stream is on offer in `GEN_PKT` and only there. The bounds on `ready` say that the generator does
not rest: a packet, its gap and `GEN_FINISH` take `P + IFG + 1` such cycles. -/
def GenPhase (P IFG : Nat) (g : Gen W) (n ready : Nat) : Prop :=
  match g.genState with
  | .pkt =>
    g.tvalid = true ∧ g.genWordNum.toNat = n % P
      ∧ g.tdata = (seedWord W).rotateRight (n % P) ∧ g.pktTxBuf = g.tdata
      ∧ ready ≤ (P + IFG + 1) * (n / P + 1) + n % P
  | .ifg =>
    g.tvalid = false ∧ n % P = 0 ∧ g.genWordNum.toNat < P + IFG
      ∧ ready ≤ (P + IFG + 1) * (n / P) + g.genWordNum.toNat
  | .finish =>
    g.tvalid = false ∧ n % P = 0 ∧ ready ≤ (P + IFG + 1) * (n / P) + (P + IFG)

/-- The words sent are the stream, `tx_count` counts its packets, and the registers stand where
they should. -/
structure GenInv (P IFG : Nat) (s : GenSys W) : Prop where
  sent_eq : s.sent = genStream W P s.sent.length
  txCount_eq : s.gen.txCount = BitVec.ofNat 32 (s.sent.length / P)
  phase : GenPhase P IFG s.gen s.sent.length s.ready

variable {P IFG : Nat}

/-- It holds after reset, which is the beginning of a gap. -/
theorem genInv_reset (hP : 2 ≤ P) (tdata pktTxBuf : BitVec W) :
    GenInv P IFG (GenSys.reset tdata pktTxBuf) where
  sent_eq := rfl
  txCount_eq := by simp [GenSys.reset, Gen.reset]
  phase := by
    refine ⟨rfl, Nat.zero_mod P, ?_, Nat.zero_le _⟩
    show 0 < P + IFG
    omega

section Step

variable {s : GenSys W} {i : GenIn}

theorem sent_step_of_idle (h : (s.gen.tvalid && i.tready) = false) :
    (s.step P IFG i).sent = s.sent := by
  simp [GenSys.step, h]

/-- In `GEN_PKT` a ready receiver takes the next word of the stream. -/
theorem sent_step_of_taken (hfit : P < 2 ^ 17) (hvalid : s.gen.tvalid = true)
    (hr : i.tready = true) (hnum : s.gen.genWordNum.toNat = s.sent.length % P)
    (hdata : s.gen.tdata = (seedWord W).rotateRight (s.sent.length % P)) :
    (s.step P IFG i).sent = s.sent ++ [genWord W P s.sent.length] := by
  have hlast : s.gen.tlast P = decide (s.sent.length % P = P - 1) := by
    rw [Bool.eq_iff_iff, decide_eq_true_iff, ← hnum]
    exact slvEq_iff (by omega)
  simp [GenSys.step, hvalid, hr, hdata, hlast, genWord]

/-- In a cycle in which no word is taken, only the phase has to be looked at. -/
theorem genInv_of_idle (h : GenInv P IFG s) (hidle : (s.gen.tvalid && i.tready) = false)
    (hcount : (s.gen.step P IFG i).txCount = s.gen.txCount)
    (hphase : GenPhase P IFG (s.gen.step P IFG i) s.sent.length (s.ready + i.tready.toNat)) :
    GenInv P IFG (s.step P IFG i) := by
  have hsame : (s.step P IFG i).sent = s.sent := sent_step_of_idle hidle
  refine ⟨?_, ?_, ?_⟩
  · rw [hsame]
    exact h.sent_eq
  · rw [hsame, ← h.txCount_eq]
    exact hcount
  · rw [hsame]
    exact hphase

theorem genInv_stalled (h : GenInv P IFG s) (hst : s.gen.genState = .pkt) (hr : i.tready = false) :
    GenInv P IFG (s.step P IFG i) := by
  have hphase := h.phase
  simp only [GenPhase, hst] at hphase
  apply genInv_of_idle h (by simp [hr])
  · simp [Gen.step, hst, hr]
  · simpa [GenPhase, Gen.step, hst, hr] using hphase.2

theorem genInv_step_pkt (hP : 2 ≤ P) (hI : 1 ≤ IFG) (hfit : P + IFG ≤ 2 ^ 16) (h : GenInv P IFG s)
    (hst : s.gen.genState = .pkt) (hr : i.tready = true) : GenInv P IFG (s.step P IFG i) := by
  obtain ⟨hsent, hcount, hphase⟩ := h
  simp only [GenPhase, hst] at hphase
  obtain ⟨hvalid, hnum, hdata, hbuf, hready⟩ := hphase
  have hlt : s.sent.length % P < P := Nat.mod_lt _ (by omega)
  have hsent' : (s.step P IFG i).sent = s.sent ++ [genWord W P s.sent.length] :=
    sent_step_of_taken (by omega) hvalid hr hnum hdata
  have hlen : (s.step P IFG i).sent.length = s.sent.length + 1 := by
    rw [hsent', List.length_append, List.length_singleton]
  have hready' : (s.step P IFG i).ready = s.ready + 1 := by
    rw [GenSys.step, hr]
    rfl
  have heq : slvEq s.gen.genWordNum (P - 1) = true ↔ s.sent.length % P = P - 1 := by
    rw [← hnum]
    exact slvEq_iff (by omega)
  have hnum' : (s.gen.genWordNum + 1).toNat = s.sent.length % P + 1 := by
    rw [toNat_wordNum_succ (by omega), hnum]
  have hstream : (s.step P IFG i).sent = genStream W P (s.step P IFG i).sent.length := by
    rw [hlen, hsent', genStream_succ, ← hsent]
  by_cases hlast : s.sent.length % P = P - 1
  · -- the counter stands at `P` and the gap begins
    obtain ⟨hdiv, hmod⟩ := succ_div_mod_of_last (by omega) hlast
    have hgen := Gen.step_pkt_last IFG hst hr (heq.mpr hlast)
    refine ⟨hstream, ?_, ?_⟩
    · rw [hlen, hdiv, BitVec.ofNat_add, ← hcount]
      show (s.gen.step P IFG i).txCount = _
      rw [hgen]
      rfl
    · rw [hlen, hready']
      show GenPhase P IFG (s.gen.step P IFG i) _ _
      rw [hgen]
      refine ⟨rfl, hmod, ?_, ?_⟩
      · show (s.gen.genWordNum + 1).toNat < P + IFG
        omega
      · show s.ready + 1 ≤ _ + (s.gen.genWordNum + 1).toNat
        rw [hdiv]
        omega
  · obtain ⟨hdiv, hmod⟩ := succ_div_mod_of_within (by omega) hlast
    have hgen := Gen.step_pkt_within IFG hst hr (heq.not.mpr hlast)
    refine ⟨hstream, ?_, ?_⟩
    · rw [hlen, hdiv, ← hcount]
      show (s.gen.step P IFG i).txCount = _
      rw [hgen]
    · rw [hlen, hready']
      show GenPhase P IFG (s.gen.step P IFG i) _ _
      rw [hgen, hbuf, hdata, rotateRight_succ]
      refine ⟨rfl, ?_, ?_, rfl, ?_⟩
      · rw [hmod]
        exact hnum'
      · rw [hmod]
      · rw [hdiv, hmod]
        omega

/-- Without `count_reset` nothing but the last word of a packet moves `tx_count`. -/
theorem txCount_step_ifg {g : Gen W} (hst : g.genState = .ifg) (hc : i.countReset = false) :
    (g.step P IFG i).txCount = g.txCount := by
  simp only [Gen.step, hst, hc]
  split
  · split <;> rfl
  · rfl

theorem genInv_step_ifg (hfit : P + IFG ≤ 2 ^ 16) (h : GenInv P IFG s) (hc : i.countReset = false)
    (hst : s.gen.genState = .ifg) : GenInv P IFG (s.step P IFG i) := by
  have hphase := h.phase
  simp only [GenPhase, hst] at hphase
  obtain ⟨hvalid, hmod, hnum, hready⟩ := hphase
  apply genInv_of_idle h (by simp [hvalid]) (txCount_step_ifg hst hc)
  cases hr : i.tready with
  | false => simpa [GenPhase, Gen.step, hst, hr] using ⟨hmod, hnum, hready⟩
  | true =>
    have heq : slvEq s.gen.genWordNum (P + IFG - 1) = true
        ↔ s.gen.genWordNum.toNat = P + IFG - 1 := slvEq_iff (by omega)
    show GenPhase P IFG (s.gen.step P IFG i) _ (s.ready + 1)
    by_cases hend : s.gen.genWordNum.toNat = P + IFG - 1
    · rw [Gen.step_ifg_last IFG hst hr hc (heq.mpr hend)]
      exact ⟨rfl, hmod, by omega⟩
    · have hnum' : (s.gen.genWordNum + 1).toNat = s.gen.genWordNum.toNat + 1 :=
        toNat_wordNum_succ (by omega)
      rw [Gen.step_ifg_within IFG hst hr (heq.not.mpr hend)]
      refine ⟨rfl, hmod, ?_, ?_⟩
      · show (s.gen.genWordNum + 1).toNat < P + IFG
        omega
      · show s.ready + 1 ≤ _ + (s.gen.genWordNum + 1).toNat
        omega

/-- The cycle between the gap and the packet. -/
theorem genInv_step_finish (h : GenInv P IFG s) (hst : s.gen.genState = .finish) :
    GenInv P IFG (s.step P IFG i) := by
  have hphase := h.phase
  simp only [GenPhase, hst] at hphase
  obtain ⟨hvalid, hmod, hready⟩ := hphase
  have hgen := Gen.step_finish (P := P) IFG (i := i) hst
  apply genInv_of_idle h (by simp [hvalid])
  · rw [hgen]
  · rw [hgen]
    refine ⟨rfl, ?_, ?_, rfl, ?_⟩
    · rw [hmod]
      rfl
    · rw [hmod, rotateRight_zero]
    · have htready : i.tready.toNat ≤ 1 := Bool.toNat_le i.tready
      rw [Nat.mul_add]
      omega

/-- Every cycle in which the counters are not being reset. -/
theorem genInv_step (hP : 2 ≤ P) (hI : 1 ≤ IFG) (hfit : P + IFG ≤ 2 ^ 16) (h : GenInv P IFG s)
    (hc : i.countReset = false) : GenInv P IFG (s.step P IFG i) := by
  cases hst : s.gen.genState with
  | pkt =>
    cases hr : i.tready with
    | false => exact genInv_stalled h hst hr
    | true => exact genInv_step_pkt hP hI hfit h hst hr
  | ifg => exact genInv_step_ifg hfit h hc hst
  | finish => exact genInv_step_finish h hst

end Step

/-- **Every run.** -/
theorem genInv_run (hP : 2 ≤ P) (hI : 1 ≤ IFG) (hfit : P + IFG ≤ 2 ^ 16) (tdata pktTxBuf : BitVec W)
    {is : List GenIn} (his : ∀ i ∈ is, i.countReset = false) :
    GenInv P IFG (run (GenSys.step P IFG) (GenSys.reset tdata pktTxBuf) is) := by
  have hquiet : Along (GenSys.step P IFG) (fun _ i => i.countReset = false)
      (GenSys.reset tdata pktTxBuf) is := along_of_mem (fun i hi _ => his i hi) _
  exact run_invariant (fun _ _ h hc => genInv_step hP hI hfit h hc)
    (genInv_reset hP tdata pktTxBuf) hquiet

/-- The generator goes on sending as long as its receiver goes on being ready. -/
theorem GenInv.ready_lt (hP : 2 ≤ P) {s : GenSys W} (h : GenInv P IFG s) :
    s.ready < (P + IFG + 1) * (s.sent.length / P + 2) := by
  have hphase := h.phase
  have hlt : s.sent.length % P < P := Nat.mod_lt _ (by omega)
  rw [GenPhase] at hphase
  rw [Nat.mul_add]
  cases hst : s.gen.genState with
  | pkt =>
    simp only [hst] at hphase
    have := hphase.2.2.2.2
    rw [Nat.mul_add] at this
    omega
  | ifg =>
    simp only [hst] at hphase
    have := hphase.2.2
    omega
  | finish =>
    simp only [hst] at hphase
    have := hphase.2.2
    omega

end Nf10.GenCheck
