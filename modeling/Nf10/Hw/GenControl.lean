import Nf10.Hw.PacketGen

/-!
# Nf10 — stopping and restarting the generator

`count_reset` of `nf10_axis_gen_check`, which the firmware of the loopback tests sets with `r` and
clears with `t`. `gen_p` looks at it in one cycle only, the last of the gap: there it stays in `GEN_IFG`
and clears `tx_count`. `gen_word_num` is not set back; it goes on counting, and the generator looks at
`count_reset` again when it has come round.

* **`GenShape`** — the registers against the words taken, whatever `count_reset` does;
* **`Held`** — stopped, with `tx_count` cleared;
* **`gen_stop_restart`** — packets are never cut; after a stop at most one more ends; the stop takes a
  packet and a gap; after it `tx_count` counts from 0, and the first word follows within one round of
  the counter.
-/

namespace Nf10.GenCheck

open Framing Runs

variable {W : Nat} {P IFG : Nat}

/-- What the registers hold after `n` words, for any course of `count_reset`. Outside the gap proper
`GEN_IFG` is only reached by a reset. -/
def GenShape (P IFG : Nat) (g : Gen W) (n : Nat) : Prop :=
  match g.genState with
  | .pkt =>
    g.tvalid = true ∧ g.genWordNum.toNat = n % P
      ∧ g.tdata = (seedWord W).rotateRight (n % P) ∧ g.pktTxBuf = g.tdata
  | .ifg =>
    g.tvalid = false ∧ n % P = 0
      ∧ ((P ≤ g.genWordNum.toNat ∧ g.genWordNum.toNat < P + IFG) ∨ g.txCount = 0)
  | .finish => g.tvalid = false ∧ n % P = 0

/-- The words sent are the stream, and the registers stand where they should, whatever `tx_count`
says. -/
structure ShapeInv (P IFG : Nat) (s : GenSys W) : Prop where
  sent_eq : s.sent = genStream W P s.sent.length
  shape : GenShape P IFG s.gen s.sent.length

theorem shapeInv_reset (tdata pktTxBuf : BitVec W) :
    ShapeInv P IFG (GenSys.reset tdata pktTxBuf) :=
  ⟨rfl, rfl, Nat.zero_mod P, Or.inr rfl⟩

namespace Gen

variable {g : Gen W} {i : GenIn}

theorem step_ifg_stall (hst : g.genState = .ifg) (hr : i.tready = false) :
    g.step P IFG i = { g with tstrb := 0, tvalid := false } := by
  simp [step, hst, hr]

/-- At the end of the gap `count_reset` is high: the generator stays, and `tx_count` is cleared. -/
theorem step_ifg_hold (hst : g.genState = .ifg) (hr : i.tready = true) (hc : i.countReset = true)
    (h : slvEq g.genWordNum (P + IFG - 1) = true) :
    g.step P IFG i =
      { g with
        genState := .ifg, tstrb := 0, tvalid := false, genWordNum := g.genWordNum + 1,
        txCount := 0 } := by
  simp [step, hst, hr, hc, h]

theorem step_pkt_wait (hst : g.genState = .pkt) (hr : i.tready = false) :
    g.step P IFG i = { g with genState := .pkt, tstrb := BitVec.allOnes _, tvalid := true } := by
  simp [step, hst, hr]

end Gen

/-! ## One cycle

Every cycle is one of eight moves, and each says all it does. The lemmas on stopping and on going on
are then case splits over the moves, without a look at the process. -/

/-- What a cycle does: the state, the words taken and `tx_count`. -/
inductive GenMove (P IFG : Nat) (s : GenSys W) (i : GenIn) : Prop where
  -- The word on offer waits.
  | wait (hst : s.gen.genState = .pkt) (hr : i.tready = false)
      (hstep : s.step P IFG i
        = ⟨{ s.gen with genState := .pkt, tstrb := BitVec.allOnes _, tvalid := true }, s.sent,
          s.ready⟩)
  -- A word is taken that is not the last,
  | word (hst : s.gen.genState = .pkt) (hr : i.tready = true)
      (hpos : s.sent.length % P ≠ P - 1)
      (hstep : s.step P IFG i
        = ⟨{ s.gen with
            genState := .pkt, tstrb := BitVec.allOnes _, tvalid := true,
            genWordNum := s.gen.genWordNum + 1, pktTxBuf := s.gen.pktTxBuf.rotateRight 1,
            tdata := s.gen.pktTxBuf.rotateRight 1 },
          s.sent ++ [genWord W P s.sent.length], s.ready + 1⟩)
  -- or the last.
  | last (hst : s.gen.genState = .pkt) (hr : i.tready = true)
      (hpos : s.sent.length % P = P - 1)
      (hstep : s.step P IFG i
        = ⟨{ s.gen with
            tstrb := 0, tvalid := false, genWordNum := s.gen.genWordNum + 1,
            txCount := s.gen.txCount + 1, genState := .ifg },
          s.sent ++ [genWord W P s.sent.length], s.ready + 1⟩)
  | stall (hst : s.gen.genState = .ifg) (hr : i.tready = false)
      (hstep : s.step P IFG i = ⟨{ s.gen with tstrb := 0, tvalid := false }, s.sent, s.ready⟩)
  -- The gap goes on,
  | gap (hst : s.gen.genState = .ifg) (hr : i.tready = true)
      (hnum : s.gen.genWordNum.toNat ≠ P + IFG - 1)
      (hstep : s.step P IFG i
        = ⟨{ s.gen with
            genState := .ifg, tstrb := 0, tvalid := false, genWordNum := s.gen.genWordNum + 1 },
          s.sent, s.ready + 1⟩)
  -- is held,
  | hold (hst : s.gen.genState = .ifg) (hr : i.tready = true) (hc : i.countReset = true)
      (hnum : s.gen.genWordNum.toNat = P + IFG - 1)
      (hstep : s.step P IFG i
        = ⟨{ s.gen with
            genState := .ifg, tstrb := 0, tvalid := false, genWordNum := s.gen.genWordNum + 1,
            txCount := 0 },
          s.sent, s.ready + 1⟩)
  -- or ends.
  | leave (hst : s.gen.genState = .ifg) (hr : i.tready = true) (hc : i.countReset = false)
      (hnum : s.gen.genWordNum.toNat = P + IFG - 1)
      (hstep : s.step P IFG i
        = ⟨{ s.gen with
            tstrb := 0, tvalid := false, genWordNum := s.gen.genWordNum + 1, genState := .finish },
          s.sent, s.ready + 1⟩)
  | start (hst : s.gen.genState = .finish)
      (hstep : s.step P IFG i
        = ⟨{ s.gen with
            tstrb := BitVec.allOnes _, tvalid := true, tdata := seedWord W, pktTxBuf := seedWord W,
            genWordNum := 0, genState := .pkt },
          s.sent, s.ready + i.tready.toNat⟩)

/-- **The moves of the generator.** -/
theorem genMove (hP : 2 ≤ P) (hfit : P + IFG ≤ 2 ^ 16) {s : GenSys W} (h : ShapeInv P IFG s)
    (i : GenIn) : GenMove P IFG s i := by
  have hshape := h.shape
  -- nothing is taken without `M_AXIS_TVALID`
  have hquiet (hv : s.gen.tvalid = false) :
      s.step P IFG i = ⟨s.gen.step P IFG i, s.sent, s.ready + i.tready.toNat⟩ := by
    simp [GenSys.step, hv]
  cases hst : s.gen.genState with
  | pkt =>
    simp only [GenShape, hst] at hshape
    obtain ⟨hvalid, hnum, hdata, -⟩ := hshape
    cases hr : i.tready with
    | false =>
      refine .wait hst hr ?_
      simp [GenSys.step, hr, Gen.step_pkt_wait hst hr]
    | true =>
      have htaken : s.step P IFG i
          = ⟨s.gen.step P IFG i, s.sent ++ [genWord W P s.sent.length], s.ready + 1⟩ := by
        have hsent : (s.step P IFG i).sent = _ :=
          sent_step_of_taken (by omega) hvalid hr hnum hdata
        rw [← hsent]
        simp [GenSys.step, hr]
      have heq : slvEq s.gen.genWordNum (P - 1) = true ↔ s.sent.length % P = P - 1 := by
        rw [← hnum]
        exact slvEq_iff (by omega)
      by_cases hpos : s.sent.length % P = P - 1
      · refine .last hst hr hpos ?_
        rw [htaken, Gen.step_pkt_last IFG hst hr (heq.mpr hpos)]
      · refine .word hst hr hpos ?_
        rw [htaken, Gen.step_pkt_within IFG hst hr (heq.not.mpr hpos)]
  | ifg =>
    simp only [GenShape, hst] at hshape
    have hstep := hquiet hshape.1
    cases hr : i.tready with
    | false =>
      refine .stall hst hr ?_
      rw [hstep, hr, Gen.step_ifg_stall hst hr]
      rfl
    | true =>
      rw [hr, Bool.toNat_true] at hstep
      have heq : slvEq s.gen.genWordNum (P + IFG - 1) = true
          ↔ s.gen.genWordNum.toNat = P + IFG - 1 := slvEq_iff (by omega)
      by_cases hnum : s.gen.genWordNum.toNat = P + IFG - 1
      · cases hc : i.countReset with
        | true =>
          refine .hold hst hr hc hnum ?_
          rw [hstep, Gen.step_ifg_hold hst hr hc (heq.mpr hnum)]
        | false =>
          refine .leave hst hr hc hnum ?_
          rw [hstep, Gen.step_ifg_last IFG hst hr hc (heq.mpr hnum)]
      · refine .gap hst hr hnum ?_
        rw [hstep, Gen.step_ifg_within IFG hst hr (heq.not.mpr hnum)]
  | finish =>
    simp only [GenShape, hst] at hshape
    refine .start hst ?_
    rw [hquiet hshape.1, Gen.step_finish (P := P) IFG hst]

/-- A cycle keeps the shape, with or without `count_reset`. -/
theorem shapeInv_step (hP : 2 ≤ P) (hI : 1 ≤ IFG) (hfit : P + IFG ≤ 2 ^ 16) {s : GenSys W}
    (h : ShapeInv P IFG s) (i : GenIn) : ShapeInv P IFG (s.step P IFG i) := by
  have hshape := h.shape
  have hlt : s.sent.length % P < P := Nat.mod_lt _ (by omega)
  have htaken : s.sent ++ [genWord W P s.sent.length]
      = genStream W P (s.sent ++ [genWord W P s.sent.length]).length := by
    rw [List.length_append, List.length_singleton, genStream_succ, ← h.sent_eq]
  cases genMove hP hfit h i with
  | wait hst _ hstep =>
    simp only [GenShape, hst] at hshape
    rw [hstep]
    exact ⟨h.sent_eq, rfl, hshape.2⟩
  | word hst _ hpos hstep =>
    simp only [GenShape, hst] at hshape
    obtain ⟨-, hnum, hdata, hbuf⟩ := hshape
    have hmod := (succ_div_mod_of_within (by omega) hpos).2
    rw [hstep]
    refine ⟨htaken, rfl, ?_, ?_, rfl⟩
    · rw [List.length_append, List.length_singleton, hmod]
      show (s.gen.genWordNum + 1).toNat = _
      rw [toNat_wordNum_succ (by omega), hnum]
    · rw [List.length_append, List.length_singleton, hmod]
      show s.gen.pktTxBuf.rotateRight 1 = _
      rw [hbuf, hdata, rotateRight_succ]
  | last hst _ hpos hstep =>
    simp only [GenShape, hst] at hshape
    have hmod := (succ_div_mod_of_last (by omega) hpos).2
    have hnum : (s.gen.genWordNum + 1).toNat = P := by
      rw [toNat_wordNum_succ (by omega), hshape.2.1]
      omega
    rw [hstep]
    refine ⟨htaken, rfl, ?_, Or.inl ?_⟩
    · rw [List.length_append, List.length_singleton, hmod]
    · show P ≤ (s.gen.genWordNum + 1).toNat ∧ (s.gen.genWordNum + 1).toNat < P + IFG
      omega
  | stall hst _ hstep =>
    simp only [GenShape, hst] at hshape
    rw [hstep]
    refine ⟨h.sent_eq, ?_⟩
    simp only [GenShape, hst]
    exact ⟨trivial, hshape.2⟩
  | gap hst _ hnum hstep =>
    simp only [GenShape, hst] at hshape
    obtain ⟨-, hmod, hgap | hzero⟩ := hshape
    · rw [hstep]
      refine ⟨h.sent_eq, rfl, hmod, Or.inl ?_⟩
      show P ≤ (s.gen.genWordNum + 1).toNat ∧ (s.gen.genWordNum + 1).toNat < P + IFG
      rw [toNat_wordNum_succ (by omega)]
      omega
    · rw [hstep]
      exact ⟨h.sent_eq, rfl, hmod, Or.inr hzero⟩
  | hold hst _ _ _ hstep =>
    simp only [GenShape, hst] at hshape
    rw [hstep]
    exact ⟨h.sent_eq, rfl, hshape.2.1, Or.inr rfl⟩
  | leave hst _ _ _ hstep =>
    simp only [GenShape, hst] at hshape
    rw [hstep]
    exact ⟨h.sent_eq, rfl, hshape.2.1⟩
  | start hst hstep =>
    simp only [GenShape, hst] at hshape
    rw [hstep]
    refine ⟨h.sent_eq, rfl, ?_, ?_, rfl⟩
    · rw [hshape.2]
      rfl
    · rw [hshape.2, rotateRight_zero]

/-! ## Stopping

A stop is reached by a measure: the cycles that the packet under way and the gap behind it still
take. While `count_reset` is high each ready cycle takes one away, and the words at which it will
stop are fixed from the start. -/

/-- Stopped: the last packet has ended and `tx_count` is cleared. -/
def Held (s : GenSys W) : Prop :=
  s.gen.genState = .ifg ∧ s.gen.txCount = 0

/-- The cycles with `M_AXIS_TREADY` that a stop still takes. -/
def toStop (P IFG : Nat) (s : GenSys W) : Nat :=
  match s.gen.genState with
  | .pkt => P - s.sent.length % P + IFG
  | .ifg => P + IFG - s.gen.genWordNum.toNat
  | .finish => P + IFG + 1

/-- The words there will have been when it has stopped. -/
def stopsAt (P : Nat) (s : GenSys W) : Nat :=
  match s.gen.genState with
  | .pkt => (s.sent.length / P + 1) * P
  | .ifg => s.sent.length
  | .finish => s.sent.length + P

section Stop

variable {s : GenSys W} {i : GenIn}

theorem toStop_le (P IFG : Nat) (s : GenSys W) : toStop P IFG s ≤ P + IFG + 1 := by
  unfold toStop
  split <;> omega

/-- Before it has stopped there is something left to do. -/
theorem toStop_pos (hP : 2 ≤ P) (h : ShapeInv P IFG s) (hheld : ¬ Held s) :
    0 < toStop P IFG s := by
  have hshape := h.shape
  have hlt : s.sent.length % P < P := Nat.mod_lt _ (by omega)
  unfold toStop
  cases hst : s.gen.genState with
  | pkt => dsimp only; omega
  | ifg =>
    simp only [GenShape, hst] at hshape
    obtain ⟨-, -, hgap | hzero⟩ := hshape
    · dsimp only
      omega
    · exact absurd ⟨hst, hzero⟩ hheld
  | finish => exact Nat.succ_pos _

/-- It stops at the end of the packet under way at the latest. -/
theorem stopsAt_bounds (hP : 0 < P) (h : ShapeInv P IFG s) :
    s.sent.length ≤ stopsAt P s ∧ stopsAt P s ≤ (s.sent.length / P + 1) * P := by
  have hshape := h.shape
  have hdiv := Nat.div_add_mod s.sent.length P
  have hlt : s.sent.length % P < P := Nat.mod_lt _ hP
  have hmul : (s.sent.length / P + 1) * P = P * (s.sent.length / P) + P := by
    rw [Nat.add_mul, Nat.one_mul, Nat.mul_comm]
  unfold stopsAt
  cases hst : s.gen.genState with
  | pkt => exact ⟨by dsimp only; omega, Nat.le_refl _⟩
  | ifg => exact ⟨Nat.le_refl _, by dsimp only; omega⟩
  | finish =>
    simp only [GenShape, hst] at hshape
    exact ⟨Nat.le_add_right _ _, by dsimp only; omega⟩

/-- **A cycle with `count_reset`.** -/
theorem stop_step (hP : 2 ≤ P) (hI : 1 ≤ IFG) (hfit : P + IFG ≤ 2 ^ 16) (h : ShapeInv P IFG s)
    (hc : i.countReset = true) :
    stopsAt P (s.step P IFG i) = stopsAt P s
      ∧ (Held s → Held (s.step P IFG i))
      ∧ (¬ Held s → Held (s.step P IFG i)
          ∨ toStop P IFG (s.step P IFG i) + (s.step P IFG i).ready ≤ toStop P IFG s + s.ready) := by
  have hshape := h.shape
  have hdiv := Nat.div_add_mod s.sent.length P
  have hlt : s.sent.length % P < P := Nat.mod_lt _ (by omega)
  have hmul : (s.sent.length / P + 1) * P = P * (s.sent.length / P) + P := by
    rw [Nat.add_mul, Nat.one_mul, Nat.mul_comm]
  cases genMove hP hfit h i with
  | wait hst _ hstep =>
    rw [hstep]
    simp [stopsAt, toStop, Held, hst]
  | word hst _ hpos hstep =>
    obtain ⟨hdiv', hmod'⟩ := succ_div_mod_of_within (by omega) hpos
    rw [hstep]
    simp only [stopsAt, toStop, Held, hst, List.length_append, List.length_singleton, hdiv', hmod']
    refine ⟨trivial, fun hheld => (by cases hheld.1), fun _ => Or.inr ?_⟩
    omega
  | last hst _ hpos hstep =>
    simp only [GenShape, hst] at hshape
    have hnum : (s.gen.genWordNum + 1).toNat = P := by
      rw [toNat_wordNum_succ (by omega), hshape.2.1]
      omega
    rw [hstep]
    simp only [stopsAt, toStop, Held, hst, List.length_append, List.length_singleton, hnum]
    refine ⟨by omega, fun hheld => (by cases hheld.1), fun _ => Or.inr ?_⟩
    omega
  | stall hst _ hstep =>
    rw [hstep]
    simp [stopsAt, toStop, Held, hst]
  | gap hst _ hnum hstep =>
    simp only [GenShape, hst] at hshape
    rw [hstep]
    refine ⟨by simp only [stopsAt, hst], fun hheld => ⟨rfl, hheld.2⟩, fun hheld => Or.inr ?_⟩
    obtain ⟨-, -, hgap | hzero⟩ := hshape
    · simp only [toStop, hst]
      rw [toNat_wordNum_succ (by omega)]
      omega
    · exact absurd ⟨hst, hzero⟩ hheld
  | hold hst _ _ _ hstep =>
    rw [hstep]
    exact ⟨by simp only [stopsAt, hst], fun _ => ⟨rfl, rfl⟩, fun _ => Or.inl ⟨rfl, rfl⟩⟩
  | leave _ _ hc' _ _ =>
    rw [hc] at hc'
    cases hc'
  | start hst hstep =>
    simp only [GenShape, hst] at hshape
    have htready : i.tready.toNat ≤ 1 := Bool.toNat_le i.tready
    rw [hstep]
    simp only [stopsAt, toStop, Held, hst, hshape.2]
    refine ⟨by omega, fun hheld => (by cases hheld.1), fun _ => Or.inr ?_⟩
    omega

end Stop

/-! ## Going on

The same the other way: the counter goes on from where it stopped and has to come round to the end
of the gap before a packet begins. -/

/-- The cycles with `M_AXIS_TREADY` until a word is taken: the rest of the round of the counter, the
cycle that ends it, `GEN_FINISH`, and the word. -/
def toWord (P IFG : Nat) (s : GenSys W) : Nat :=
  match s.gen.genState with
  | .pkt => 1
  | .ifg => (P + IFG - 1 + 2 ^ 16 - s.gen.genWordNum.toNat) % 2 ^ 16 + 3
  | .finish => 2

section Go

variable {s : GenSys W} {i : GenIn}

/-- A word comes within one round of the counter. -/
theorem toWord_bounds (P IFG : Nat) (s : GenSys W) :
    0 < toWord P IFG s ∧ toWord P IFG s ≤ 2 ^ 16 + 2 := by
  unfold toWord
  split <;> omega

/-- **A cycle without `count_reset`.** -/
theorem go_step (hP : 2 ≤ P) (hfit : P + IFG ≤ 2 ^ 16) (h : ShapeInv P IFG s)
    (hc : i.countReset = false) :
    s.sent.length / P ≤ (s.step P IFG i).sent.length / P
      ∧ (s.step P IFG i).gen.txCount
        = s.gen.txCount
          + BitVec.ofNat 32 ((s.step P IFG i).sent.length / P - s.sent.length / P)
      ∧ s.sent.length ≤ (s.step P IFG i).sent.length
      ∧ (s.sent.length < (s.step P IFG i).sent.length
        ∨ toWord P IFG (s.step P IFG i) + (s.step P IFG i).ready ≤ toWord P IFG s + s.ready) := by
  have hsame (s' : GenSys W) (hsent : s'.sent = s.sent) (hcount : s'.gen.txCount = s.gen.txCount)
      (hword : toWord P IFG s' + s'.ready ≤ toWord P IFG s + s.ready) :
      s.sent.length / P ≤ s'.sent.length / P
        ∧ s'.gen.txCount
          = s.gen.txCount + BitVec.ofNat 32 (s'.sent.length / P - s.sent.length / P)
        ∧ s.sent.length ≤ s'.sent.length
        ∧ (s.sent.length < s'.sent.length
          ∨ toWord P IFG s' + s'.ready ≤ toWord P IFG s + s.ready) := by
    rw [hsent, hcount, Nat.sub_self]
    exact ⟨Nat.le_refl _, (BitVec.add_zero _).symm, Nat.le_refl _, Or.inr hword⟩
  have hnum16 : s.gen.genWordNum.toNat < 2 ^ 16 := s.gen.genWordNum.isLt
  cases genMove hP hfit h i with
  | wait hst _ hstep => exact hstep ▸ hsame _ rfl rfl (by simp [toWord, hst])
  | word hst _ hpos hstep =>
    have hdiv := (succ_div_mod_of_within (by omega) hpos).1
    rw [hstep]
    simp only [List.length_append, List.length_singleton, hdiv, Nat.sub_self]
    exact ⟨Nat.le_refl _, (BitVec.add_zero _).symm, Nat.le_succ _, Or.inl (Nat.lt_succ_self _)⟩
  | last hst _ hpos hstep =>
    have hdiv := (succ_div_mod_of_last (by omega) hpos).1
    rw [hstep]
    simp only [List.length_append, List.length_singleton, hdiv, Nat.add_sub_cancel_left]
    exact ⟨Nat.le_succ _, rfl, Nat.le_succ _, Or.inl (Nat.lt_succ_self _)⟩
  | stall hst _ hstep => exact hstep ▸ hsame _ rfl rfl (by simp [toWord, hst])
  | gap hst _ hnum hstep =>
    refine hstep ▸ hsame _ rfl rfl ?_
    simp only [toWord, hst, BitVec.toNat_add]
    show (P + IFG - 1 + 2 ^ 16 - (s.gen.genWordNum.toNat + 1) % 2 ^ 16) % 2 ^ 16 + 3 + (s.ready + 1)
      ≤ (P + IFG - 1 + 2 ^ 16 - s.gen.genWordNum.toNat) % 2 ^ 16 + 3 + s.ready
    omega
  | hold _ _ hc' _ _ =>
    rw [hc] at hc'
    cases hc'
  | leave hst _ _ hnum hstep =>
    refine hstep ▸ hsame _ rfl rfl ?_
    simp only [toWord, hst, hnum]
    omega
  | start hst hstep =>
    have htready : i.tready.toNat ≤ 1 := Bool.toNat_le i.tready
    refine hstep ▸ hsame _ rfl rfl ?_
    simp only [toWord, hst]
    omega

end Go

/-! ## Whole runs

The step lemmas over any number of cycles: first with `count_reset` high, then with it low again. -/

section Run

variable {s : GenSys W} {is : List GenIn}

theorem shapeInv_run (hP : 2 ≤ P) (hI : 1 ≤ IFG) (hfit : P + IFG ≤ 2 ^ 16) (h : ShapeInv P IFG s)
    (is : List GenIn) : ShapeInv P IFG (run (GenSys.step P IFG) s is) := by
  have hstep : ∀ (s : GenSys W) (i : GenIn), ShapeInv P IFG s → ShapeInv P IFG (s.step P IFG i) :=
    fun _ i h => shapeInv_step hP hI hfit h i
  exact run_invariant_of_step hstep h is

/-- Under `count_reset`: the stop comes, and where it was to come. -/
theorem stop_run (hP : 2 ≤ P) (hI : 1 ≤ IFG) (hfit : P + IFG ≤ 2 ^ 16) (h : ShapeInv P IFG s)
    (his : ∀ i ∈ is, i.countReset = true) :
    stopsAt P (run (GenSys.step P IFG) s is) = stopsAt P s
      ∧ (Held (run (GenSys.step P IFG) s is)
        ∨ toStop P IFG (run (GenSys.step P IFG) s is) + (run (GenSys.step P IFG) s is).ready
          ≤ toStop P IFG s + s.ready) := by
  have hstep : ∀ (t : GenSys W) (i : GenIn),
      (ShapeInv P IFG t ∧ stopsAt P t = stopsAt P s
        ∧ (Held t ∨ toStop P IFG t + t.ready ≤ toStop P IFG s + s.ready)) →
      i.countReset = true →
      ShapeInv P IFG (t.step P IFG i) ∧ stopsAt P (t.step P IFG i) = stopsAt P s
        ∧ (Held (t.step P IFG i)
          ∨ toStop P IFG (t.step P IFG i) + (t.step P IFG i).ready
            ≤ toStop P IFG s + s.ready) := by
    rintro t i ⟨ht, hat, hstop⟩ hc
    obtain ⟨hsame, hkeeps, hnearer⟩ := stop_step hP hI hfit ht hc
    refine ⟨shapeInv_step hP hI hfit ht i, hsame.trans hat, ?_⟩
    by_cases hheld : Held t
    · exact Or.inl (hkeeps hheld)
    · rcases hnearer hheld with hnow | hless
      · exact Or.inl hnow
      · exact Or.inr (hless.trans (hstop.resolve_left hheld))
  exact (run_invariant hstep ⟨h, rfl, Or.inr (Nat.le_refl _)⟩
    (along_of_mem (fun i hi _ => his i hi) s)).2

/-- Without it: `tx_count` counts the packets, and the next word comes. -/
theorem go_run (hP : 2 ≤ P) (hI : 1 ≤ IFG) (hfit : P + IFG ≤ 2 ^ 16) (h : ShapeInv P IFG s)
    (his : ∀ i ∈ is, i.countReset = false) :
    (run (GenSys.step P IFG) s is).gen.txCount
        = s.gen.txCount
          + BitVec.ofNat 32 ((run (GenSys.step P IFG) s is).sent.length / P - s.sent.length / P)
      ∧ (s.sent.length < (run (GenSys.step P IFG) s is).sent.length
        ∨ toWord P IFG (run (GenSys.step P IFG) s is) + (run (GenSys.step P IFG) s is).ready
          ≤ toWord P IFG s + s.ready) := by
  have hstep : ∀ (t : GenSys W) (i : GenIn),
      (ShapeInv P IFG t ∧ s.sent.length / P ≤ t.sent.length / P ∧ s.sent.length ≤ t.sent.length
        ∧ t.gen.txCount
          = s.gen.txCount + BitVec.ofNat 32 (t.sent.length / P - s.sent.length / P)
        ∧ (s.sent.length < t.sent.length
          ∨ toWord P IFG t + t.ready ≤ toWord P IFG s + s.ready)) →
      i.countReset = false →
      ShapeInv P IFG (t.step P IFG i)
        ∧ s.sent.length / P ≤ (t.step P IFG i).sent.length / P
        ∧ s.sent.length ≤ (t.step P IFG i).sent.length
        ∧ (t.step P IFG i).gen.txCount
          = s.gen.txCount
            + BitVec.ofNat 32 ((t.step P IFG i).sent.length / P - s.sent.length / P)
        ∧ (s.sent.length < (t.step P IFG i).sent.length
          ∨ toWord P IFG (t.step P IFG i) + (t.step P IFG i).ready
            ≤ toWord P IFG s + s.ready) := by
    rintro t i ⟨ht, hdiv, hlen, hcount, hword⟩ hc
    obtain ⟨hdiv', hcount', hlen', hnext⟩ := go_step hP hfit ht hc
    refine ⟨shapeInv_step hP hI hfit ht i, hdiv.trans hdiv', hlen.trans hlen', ?_, ?_⟩
    · rw [hcount', hcount, BitVec.add_assoc, ← BitVec.ofNat_add]
      congr 2
      omega
    · rcases hnext with hmore | hless
      · exact Or.inl (Nat.lt_of_le_of_lt hlen hmore)
      · rcases hword with hmore | hle
        · exact Or.inl (Nat.lt_of_lt_of_le hmore hlen')
        · exact Or.inr (hless.trans hle)
  have hrun := run_invariant hstep
    ⟨h, Nat.le_refl _, Nat.le_refl _, by simp, Or.inr (Nat.le_refl _)⟩
    (along_of_mem (fun i hi _ => his i hi) s)
  exact ⟨hrun.2.2.2.1, hrun.2.2.2.2⟩

end Run

/-- **Stop and restart.** For any course of `M_AXIS_TREADY` and, before the stop, of `count_reset`:
packets are never cut, and at most one ends under `count_reset`. If that lasts for a packet and a gap
the generator is silent with `tx_count` cleared, which then counts the packets since. Without
`count_reset`, a word is taken after one round of the counter at the latest. -/
theorem gen_stop_restart (hP : 2 ≤ P) (hI : 1 ≤ IFG) (hfit : P + IFG ≤ 2 ^ 16)
    (tdata pktTxBuf : BitVec W) (before stopped after : List GenIn)
    (hstopped : ∀ i ∈ stopped, i.countReset = true) (hafter : ∀ i ∈ after, i.countReset = false)
    {s t u : GenSys W} (hs : s = run (GenSys.step P IFG) (GenSys.reset tdata pktTxBuf) before)
    (ht : t = run (GenSys.step P IFG) s stopped) (hu : u = run (GenSys.step P IFG) t after) :
    u.sent = genStream W P u.sent.length
      ∧ t.sent.length ≤ (s.sent.length / P + 1) * P
      ∧ (P + IFG + 1 ≤ t.ready - s.ready →
          t.gen.tvalid = false ∧ t.gen.txCount = 0 ∧ t.sent.length % P = 0
            ∧ u.gen.txCount = BitVec.ofNat 32 (u.sent.length / P - t.sent.length / P))
      ∧ (2 ^ 16 + 2 ≤ u.ready - t.ready → t.sent.length < u.sent.length) := by
  have hinv : ShapeInv P IFG s := by
    rw [hs]
    exact shapeInv_run hP hI hfit (shapeInv_reset tdata pktTxBuf) before
  have hinv' : ShapeInv P IFG t := by
    rw [ht]
    exact shapeInv_run hP hI hfit hinv stopped
  have hinv'' : ShapeInv P IFG u := by
    rw [hu]
    exact shapeInv_run hP hI hfit hinv' after
  obtain ⟨hat, hstop⟩ := stop_run hP hI hfit hinv hstopped
  obtain ⟨hcount, hword⟩ := go_run hP hI hfit hinv' hafter
  rw [← ht] at hat hstop
  rw [← hu] at hcount hword
  refine ⟨hinv''.sent_eq, ?_, ?_, ?_⟩
  · have hbefore := (stopsAt_bounds (by omega) hinv).2
    have hthen := (stopsAt_bounds (by omega) hinv').1
    omega
  · intro hlong
    have hheld : Held t := by
      by_contra hnot
      have hpos := toStop_pos hP hinv' hnot
      have hle := toStop_le P IFG s
      have hless := hstop.resolve_left hnot
      omega
    have hshape := hinv'.shape
    simp only [GenShape, hheld.1] at hshape
    refine ⟨hshape.1, hheld.2, hshape.2.1, ?_⟩
    rw [hcount, hheld.2]
    exact BitVec.zero_add _
  · intro hlong
    by_contra hnot
    have hpos := (toWord_bounds P IFG u).1
    have hle := (toWord_bounds P IFG t).2
    have hless := hword.resolve_left hnot
    omega

/-- Cycles with `M_AXIS_TREADY`, with or without `count_reset`. -/
def readyCycles (n : Nat) (countReset : Bool) : List GenIn :=
  List.replicate n ⟨true, countReset⟩

/-- Stopped after its first packet. -/
theorem gen_stop_restart_first :
    (∀ i ∈ readyCycles 4 true, i.countReset = true)
      ∧ (run (GenSys.step 2 1) (GenSys.reset (0 : BitVec 8) 0) (readyCycles 6 false)).gen.txCount = 1
      ∧ (run (GenSys.step 2 1) (run (GenSys.step 2 1) (GenSys.reset (0 : BitVec 8) 0)
          (readyCycles 6 false)) (readyCycles 4 true)).gen.txCount = 0 := by
  have hstopped : ∀ i ∈ readyCycles 4 true, i.countReset = true := by decide
  have hstop := (gen_stop_restart (show 2 ≤ 2 by decide) (show 1 ≤ 1 by decide) (by decide)
    (0 : BitVec 8) 0 (readyCycles 6 false) (readyCycles 4 true) [] hstopped (by decide)
    rfl rfl rfl).2.2.1 (by decide)
  exact ⟨hstopped, by decide, hstop.2.1⟩

/-- A pulse of `count_reset` in another cycle than the last of the gap is not seen. -/
example :
    (run (GenSys.step 2 1) (GenSys.reset (0 : BitVec 8) 0)
      (readyCycles 7 false ++ readyCycles 3 true)).gen.txCount = 2 := by
  decide

end Nf10.GenCheck
