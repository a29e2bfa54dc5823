import Mathlib.Data.List.Induction
import Nf10.Lib.Handshake

/-!
# Nf10 — the register slave of `nf10_axis_gen_check`

`axi4_lite_regs.v`: an AXI4-Lite slave with three counters to read and one bit to write. The write
side takes an address, then data, then gives its response; the read side takes an address, waits
until the counter reaches `WAIT_COUNT`, and gives its response. `BRESP` is a register, set when the
data is taken. `RDATA` is not: it is the second synchroniser register of the counter, which goes on
following the counter while the response waits to be taken.

`WriteInv` and `ReadInv` say what each state machine has accepted and answered; the channels of the
slave are `Handshake.Channel`s and the counts are its `handshakes`.
-/

namespace Nf10.GenCheck

open Runs Handshake

variable {A D : Nat}

/-- The response `OKAY`, and below it `SLVERR`. -/
def axiRespOk : BitVec 2 := 0b00

def axiRespSlverr : BitVec 2 := 0b10

/-- The states of the write side. -/
inductive WriteState where
  | writeIdle
  | writeResponse
  | writeData
deriving DecidableEq, Repr

/-- The states of the read side. -/
inductive ReadState where
  | readIdle
  | readResponse
  | readWait
deriving DecidableEq, Repr

/-- The numbers of the registers. -/
def regTxCount : BitVec 2 := 0

def regRxCount : BitVec 2 := 1

def regErrCount : BitVec 2 := 2

def regCountReset : BitVec 2 := 3

/-- How many cycles a read waits for its counter to settle. -/
def waitCount : BitVec 3 := 2

/-- The registers, with `A` for `ADDR_WIDTH`. -/
structure LiteRegs (A : Nat) where
  writeState : WriteState
  readState : ReadState
  readAddr : BitVec A
  writeAddr : BitVec A
  bresp : BitVec 2
  countResetControl : BitVec 1
  counter : BitVec 3
  txCountR : BitVec 32
  txCountR2 : BitVec 32
  rxCountR : BitVec 32
  rxCountR2 : BitVec 32
  errCountR : BitVec 32
  errCountR2 : BitVec 32
  countResetR : BitVec 1
  countResetR2 : BitVec 1
  countReset : BitVec 1
deriving DecidableEq, Repr

/-- The input lines, with `D` for `DATA_WIDTH`. -/
structure LiteIn (A D : Nat) where
  awaddr : BitVec A
  awvalid : Bool
  wdata : BitVec D
  wvalid : Bool
  bready : Bool
  araddr : BitVec A
  arvalid : Bool
  rready : Bool
  txCount : BitVec 32
  rxCount : BitVec 32
  errCount : BitVec 32
deriving DecidableEq, Repr

/-- The combinational outputs of the read side, with the next values of its registers. -/
structure ReadSide (A D : Nat) where
  readStateNext : ReadState
  readAddrNext : BitVec A
  counterNext : BitVec 3
  arready : Bool
  rdata : BitVec D
  rresp : BitVec 2
  rvalid : Bool
deriving DecidableEq, Repr

/-- The combinational outputs of the write side, with the next values of its registers. -/
structure WriteSide (A : Nat) where
  writeStateNext : WriteState
  writeAddrNext : BitVec A
  countResetControlNext : BitVec 1
  brespNext : BitVec 2
  awready : Bool
  wready : Bool
  bvalid : Bool
deriving DecidableEq, Repr

/-- `addr[1:0]` -/
def regOf (addr : BitVec A) : BitVec 2 :=
  addr.setWidth 2

/-- `RDATA` and `RRESP` of a response, from what the three counters show. -/
def readMux (D : Nat) (addr : BitVec A) (tx rx err : BitVec 32) : BitVec D × BitVec 2 :=
  if regOf addr = regTxCount then (tx.setWidth D, axiRespOk)
  else if regOf addr = regRxCount then (rx.setWidth D, axiRespOk)
  else if regOf addr = regErrCount then (err.setWidth D, axiRespOk)
  else (0, axiRespSlverr)

namespace LiteRegs

/-- What the reset leaves: the registers it names, and anything in the others. -/
def reset (r : LiteRegs A) : LiteRegs A :=
  { r with
    writeState := .writeIdle
    readState := .readIdle
    readAddr := 0
    writeAddr := 0
    bresp := axiRespOk
    countResetControl := 0 }

/-- The first combinational block. -/
def readSide (s : LiteRegs A) (i : LiteIn A D) : ReadSide A D :=
  match s.readState with
  | .readIdle =>
    { readStateNext := if i.arvalid then .readWait else .readIdle
      readAddrNext := if i.arvalid then i.araddr else s.readAddr
      counterNext := 0
      arready := true
      rdata := 0
      rresp := axiRespOk
      rvalid := false }
  | .readWait =>
    { readStateNext := if s.counter = waitCount then .readResponse else .readWait
      readAddrNext := s.readAddr
      counterNext := s.counter + 1
      arready := false
      rdata := 0
      rresp := axiRespOk
      rvalid := false }
  | .readResponse =>
    let r := readMux D s.readAddr s.txCountR2 s.rxCountR2 s.errCountR2
    { readStateNext := if i.rready then .readIdle else .readResponse
      readAddrNext := s.readAddr
      counterNext := s.counter
      arready := false
      rdata := r.1
      rresp := r.2
      rvalid := true }

/-- The second combinational block. -/
def writeSide (s : LiteRegs A) (i : LiteIn A D) : WriteSide A :=
  match s.writeState with
  | .writeIdle =>
    { writeStateNext := if i.awvalid then .writeData else .writeIdle
      writeAddrNext := i.awaddr
      countResetControlNext := s.countResetControl
      brespNext := s.bresp
      awready := true
      wready := false
      bvalid := false }
  | .writeData =>
    { writeStateNext := if i.wvalid then .writeResponse else .writeData
      writeAddrNext := s.writeAddr
      countResetControlNext :=
        if i.wvalid = true ∧ regOf s.writeAddr = regCountReset then i.wdata.setWidth 1
        else s.countResetControl
      brespNext :=
        if i.wvalid then
          if regOf s.writeAddr = regCountReset then axiRespOk else axiRespSlverr
        else s.bresp
      awready := false
      wready := true
      bvalid := false }
  | .writeResponse =>
    { writeStateNext := if i.bready then .writeIdle else .writeResponse
      writeAddrNext := s.writeAddr
      countResetControlNext := s.countResetControl
      brespNext := s.bresp
      awready := false
      wready := false
      bvalid := true }

/-- An edge of `ACLK` out of reset. -/
def aclkEdge (s : LiteRegs A) (i : LiteIn A D) : LiteRegs A :=
  let r := s.readSide i
  let w := s.writeSide i
  { writeState := w.writeStateNext
    readState := r.readStateNext
    readAddr := r.readAddrNext
    writeAddr := w.writeAddrNext
    bresp := w.brespNext
    countResetControl := w.countResetControlNext
    counter := r.counterNext
    txCountR := i.txCount
    txCountR2 := s.txCountR
    rxCountR := i.rxCount
    rxCountR2 := s.rxCountR
    errCountR := i.errCount
    errCountR2 := s.errCountR
    countResetR := s.countResetControl
    countResetR2 := s.countResetR2
    countReset := s.countReset }

/-- An edge of `AXIS_ACLK`; the block has no `posedge`, so it is any edge. -/
def axisAclkEdge (s : LiteRegs A) : LiteRegs A :=
  { s with countReset := s.countResetR2, countResetR2 := s.countResetR }

end LiteRegs

/-- An edge of the bus clock with its inputs, or one of the clock of the counters. -/
inductive LiteEvent (A D : Nat) where
  | aclk (i : LiteIn A D)
  | axisAclk
deriving DecidableEq, Repr

/-- One event. -/
def LiteRegs.step (s : LiteRegs A) : LiteEvent A D → LiteRegs A
  | .aclk i => s.aclkEdge i
  | .axisAclk => s.axisAclkEdge

/-! ## The five channels

Three are offered by the master and two by the slave. -/

/-- The bus looks at the slave at its own clock only. -/
def LiteEvent.isAclk : LiteEvent A D → Bool
  | .aclk _ => true
  | .axisAclk => false

/-- Write addresses, from the master. -/
def awChannel (A D : Nat) : Channel (LiteRegs A) (LiteEvent A D) (BitVec A) where
  cycle := LiteEvent.isAclk
  offer _
    | .aclk i => if i.awvalid then some i.awaddr else none
    | .axisAclk => none
  ready s
    | .aclk i => (s.writeSide i).awready
    | .axisAclk => false

/-- Write data, from the master. -/
def wChannel (A D : Nat) : Channel (LiteRegs A) (LiteEvent A D) (BitVec D) where
  cycle := LiteEvent.isAclk
  offer _
    | .aclk i => if i.wvalid then some i.wdata else none
    | .axisAclk => none
  ready s
    | .aclk i => (s.writeSide i).wready
    | .axisAclk => false

/-- Write responses, from the slave. -/
def bChannel (A D : Nat) : Channel (LiteRegs A) (LiteEvent A D) (BitVec 2) where
  cycle := LiteEvent.isAclk
  offer s
    | .aclk i => if (s.writeSide i).bvalid then some s.bresp else none
    | .axisAclk => none
  ready _
    | .aclk i => i.bready
    | .axisAclk => false

/-- Read addresses, from the master. -/
def arChannel (A D : Nat) : Channel (LiteRegs A) (LiteEvent A D) (BitVec A) where
  cycle := LiteEvent.isAclk
  offer _
    | .aclk i => if i.arvalid then some i.araddr else none
    | .axisAclk => none
  ready s
    | .aclk i => (s.readSide i).arready
    | .axisAclk => false

/-- Read data and responses, from the slave. -/
def rChannel (A D : Nat) : Channel (LiteRegs A) (LiteEvent A D) (BitVec D × BitVec 2) where
  cycle := LiteEvent.isAclk
  offer s
    | .aclk i =>
      if (s.readSide i).rvalid then some ((s.readSide i).rdata, (s.readSide i).rresp) else none
    | .axisAclk => none
  ready _
    | .aclk i => i.rready
    | .axisAclk => false

section Fires

variable (s : LiteRegs A) (i : LiteIn A D)

@[simp] theorem fires_aw :
    (awChannel A D).fires s (.aclk i) = (i.awvalid && (s.writeSide i).awready) := by
  cases hv : i.awvalid <;> simp [Channel.fires, awChannel, LiteEvent.isAclk, hv]

@[simp] theorem fires_w :
    (wChannel A D).fires s (.aclk i) = (i.wvalid && (s.writeSide i).wready) := by
  cases hv : i.wvalid <;> simp [Channel.fires, wChannel, LiteEvent.isAclk, hv]

@[simp] theorem fires_b :
    (bChannel A D).fires s (.aclk i) = ((s.writeSide i).bvalid && i.bready) := by
  cases hv : (s.writeSide i).bvalid <;> simp [Channel.fires, bChannel, LiteEvent.isAclk, hv]

@[simp] theorem fires_ar :
    (arChannel A D).fires s (.aclk i) = (i.arvalid && (s.readSide i).arready) := by
  cases hv : i.arvalid <;> simp [Channel.fires, arChannel, LiteEvent.isAclk, hv]

@[simp] theorem fires_r :
    (rChannel A D).fires s (.aclk i) = ((s.readSide i).rvalid && i.rready) := by
  cases hv : (s.readSide i).rvalid <;> simp [Channel.fires, rChannel, LiteEvent.isAclk, hv]

end Fires

/-! ## Counting

`aw`, `w` and `b` are what the three write channels have handed over so far, `ar` and `r` the same for
the read channels. -/

/-- In each state, how far the addresses and the data are ahead of the responses. -/
def WriteInv (s : LiteRegs A) (aw w b : Nat) : Prop :=
  match s.writeState with
  | .writeIdle => aw = b ∧ w = b
  | .writeData => aw = b + 1 ∧ w = b
  | .writeResponse => aw = b + 1 ∧ w = b + 1

/-- In each state, whether an address is waiting for its response. -/
def ReadInv (s : LiteRegs A) (ar r : Nat) : Prop :=
  match s.readState with
  | .readIdle => ar = r
  | .readWait => ar = r + 1
  | .readResponse => ar = r + 1

/-- One event keeps the count of the write side. -/
theorem writeInv_step {s : LiteRegs A} {aw w b : Nat} (h : WriteInv s aw w b) (e : LiteEvent A D) :
    WriteInv (s.step e) (aw + ((awChannel A D).fires s e).toNat)
      (w + ((wChannel A D).fires s e).toNat) (b + ((bChannel A D).fires s e).toNat) := by
  cases e with
  | axisAclk => exact h
  | aclk i =>
    cases hst : s.writeState with
    | writeIdle =>
      simp only [WriteInv, hst] at h
      cases hv : i.awvalid <;>
        simp [WriteInv, LiteRegs.step, LiteRegs.aclkEdge, LiteRegs.writeSide, hst, hv, h]
    | writeData =>
      simp only [WriteInv, hst] at h
      cases hv : i.wvalid <;>
        simp [WriteInv, LiteRegs.step, LiteRegs.aclkEdge, LiteRegs.writeSide, hst, hv, h]
    | writeResponse =>
      simp only [WriteInv, hst] at h
      cases hr : i.bready <;>
        simp [WriteInv, LiteRegs.step, LiteRegs.aclkEdge, LiteRegs.writeSide, hst, hr, h]

/-- One event keeps the count of the read side. -/
theorem readInv_step {s : LiteRegs A} {ar r : Nat} (h : ReadInv s ar r) (e : LiteEvent A D) :
    ReadInv (s.step e) (ar + ((arChannel A D).fires s e).toNat)
      (r + ((rChannel A D).fires s e).toNat) := by
  cases e with
  | axisAclk => exact h
  | aclk i =>
    cases hst : s.readState with
    | readIdle =>
      simp only [ReadInv, hst] at h
      cases hv : i.arvalid <;>
        simp [ReadInv, LiteRegs.step, LiteRegs.aclkEdge, LiteRegs.readSide, hst, hv, h]
    | readWait =>
      simp only [ReadInv, hst] at h
      by_cases hc : s.counter = waitCount <;>
        simp [ReadInv, LiteRegs.step, LiteRegs.aclkEdge, LiteRegs.readSide, hst, hc, h]
    | readResponse =>
      simp only [ReadInv, hst] at h
      cases hr : i.rready <;>
        simp [ReadInv, LiteRegs.step, LiteRegs.aclkEdge, LiteRegs.readSide, hst, hr, h]

/-- The counts hold over every run from reset. -/
theorem writeInv_run (r : LiteRegs A) (es : List (LiteEvent A D)) :
    WriteInv (run LiteRegs.step r.reset es) ((awChannel A D).handshakes LiteRegs.step r.reset es)
      ((wChannel A D).handshakes LiteRegs.step r.reset es)
      ((bChannel A D).handshakes LiteRegs.step r.reset es) := by
  induction es using List.reverseRecOn with
  | nil => exact ⟨rfl, rfl⟩
  | append_singleton es e ih =>
    simp only [Channel.handshakes_concat, run_append, run_cons, run_nil]
    exact writeInv_step ih e

theorem readInv_run (r : LiteRegs A) (es : List (LiteEvent A D)) :
    ReadInv (run LiteRegs.step r.reset es) ((arChannel A D).handshakes LiteRegs.step r.reset es)
      ((rChannel A D).handshakes LiteRegs.step r.reset es) := by
  induction es using List.reverseRecOn with
  | nil => exact rfl
  | append_singleton es e ih =>
    simp only [Channel.handshakes_concat, run_append, run_cons, run_nil]
    exact readInv_step ih e

/-! ## Responses on offer

A response has to stay on offer until it is taken. `BRESP` is a register and stays; `RDATA` is
computed from synchroniser registers that move with every edge, so it stays only if what they will
show next is what they show now. -/

/-- An edge of the other clock moves only `count_reset`. -/
theorem bOffers_axisAclk (s : LiteRegs A) (e : LiteEvent A D) (w : BitVec 2)
    (he : (bChannel A D).cycle e = false) (h : (bChannel A D).Offers s w) :
    (bChannel A D).Offers (s.step e) w := by
  cases e with
  | aclk i => cases he
  | axisAclk => exact h

/-- An edge of the other clock does not touch a read response. -/
theorem rOffers_axisAclk (s : LiteRegs A) (e : LiteEvent A D) (w : BitVec D × BitVec 2)
    (he : (rChannel A D).cycle e = false) (h : (rChannel A D).Offers s w) :
    (rChannel A D).Offers (s.step e) w := by
  cases e with
  | aclk i => cases he
  | axisAclk => exact h

/-- When a write response is on offer, and which. -/
theorem bOffer_eq_some {s : LiteRegs A} {i : LiteIn A D} {w : BitVec 2} :
    (bChannel A D).offer s (.aclk i) = some w ↔ s.writeState = .writeResponse ∧ s.bresp = w := by
  cases hst : s.writeState <;> simp [bChannel, LiteRegs.writeSide, hst]

/-- When a read response is on offer, and which. -/
theorem rOffer_eq_some {s : LiteRegs A} {i : LiteIn A D} {w : BitVec D × BitVec 2} :
    (rChannel A D).offer s (.aclk i) = some w ↔
      s.readState = .readResponse
        ∧ readMux D s.readAddr s.txCountR2 s.rxCountR2 s.errCountR2 = w := by
  cases hst : s.readState <;> simp [rChannel, LiteRegs.readSide, hst]

/-- A write response stays until it is taken. -/
theorem bKeeps (s : LiteRegs A) (e : LiteEvent A D) : (bChannel A D).Keeps LiteRegs.step s e := by
  intro w hcycle hoffer hready e' hcycle'
  cases e with
  | axisAclk => cases hcycle
  | aclk i =>
    cases e' with
    | axisAclk => cases hcycle'
    | aclk i' =>
      have hr : i.bready = false := hready
      obtain ⟨hst, hw⟩ := bOffer_eq_some.mp hoffer
      rw [bOffer_eq_some, ← hw]
      simp [LiteRegs.step, LiteRegs.aclkEdge, LiteRegs.writeSide, hst, hr]

/-- While a read response waits, the two synchroniser registers behind it agree, so that the next
edge does not move `RDATA`. -/
def Steady (s : LiteRegs A) : LiteEvent A D → Prop
  | .aclk i =>
    s.readState = .readResponse → i.rready = false →
      (regOf s.readAddr = regTxCount → s.txCountR.setWidth D = s.txCountR2.setWidth D)
      ∧ (regOf s.readAddr = regRxCount → s.rxCountR.setWidth D = s.rxCountR2.setWidth D)
      ∧ (regOf s.readAddr = regErrCount → s.errCountR.setWidth D = s.errCountR2.setWidth D)
  | .axisAclk => True

instance (s : LiteRegs A) : ∀ e : LiteEvent A D, Decidable (Steady s e)
  | .aclk _ => inferInstanceAs (Decidable (_ → _ → _ ∧ _ ∧ _))
  | .axisAclk => isTrue trivial

/-- The response shows one counter, so it stays when that counter does. -/
theorem readMux_eq_iff (addr : BitVec A) (tx rx err tx' rx' err' : BitVec 32) :
    readMux D addr tx rx err = readMux D addr tx' rx' err'
      ↔ (regOf addr = regTxCount → tx.setWidth D = tx'.setWidth D)
        ∧ (regOf addr = regRxCount → rx.setWidth D = rx'.setWidth D)
        ∧ (regOf addr = regErrCount → err.setWidth D = err'.setWidth D) := by
  unfold readMux
  split
  · next h => simp [h, regTxCount, regRxCount, regErrCount]
  · next htx =>
    split
    · next h => simp [h, regTxCount, regRxCount, regErrCount]
    · next hrx =>
      split
      · next h => simp [h, regTxCount, regRxCount, regErrCount]
      · next herr => simp [htx, hrx, herr]

/-- The next edge shows the first synchroniser registers. -/
theorem readMux_step {s : LiteRegs A} {i : LiteIn A D} (hst : s.readState = .readResponse) :
    readMux D (s.step (.aclk i)).readAddr (s.step (.aclk i)).txCountR2 (s.step (.aclk i)).rxCountR2
        (s.step (.aclk i)).errCountR2
      = readMux D s.readAddr s.txCountR s.rxCountR s.errCountR := by
  simp [LiteRegs.step, LiteRegs.aclkEdge, LiteRegs.readSide, hst]

/-- **When a read response stays.** -/
theorem rKeeps_iff_steady (s : LiteRegs A) (e : LiteEvent A D) :
    (rChannel A D).Keeps LiteRegs.step s e ↔ Steady s e := by
  cases e with
  | axisAclk => exact ⟨fun _ => trivial, fun _ w hcycle => by cases hcycle⟩
  | aclk i =>
    constructor
    · intro h hst hr
      have hnow := rOffer_eq_some (i := i).mpr ⟨hst, rfl⟩
      have hnext := (rOffer_eq_some.mp (h _ rfl hnow hr (.aclk i) rfl)).2
      rw [readMux_step hst] at hnext
      exact (readMux_eq_iff ..).mp hnext
    · intro h w _ hoffer hready e' hcycle'
      obtain ⟨hst, hw⟩ := rOffer_eq_some.mp hoffer
      have hr : i.rready = false := hready
      cases e' with
      | axisAclk => cases hcycle'
      | aclk i' =>
        rw [rOffer_eq_some, readMux_step hst, ← hw]
        refine ⟨?_, (readMux_eq_iff ..).mpr (h hst hr)⟩
        simp [LiteRegs.step, LiteRegs.aclkEdge, LiteRegs.readSide, hst, hr]

/-- Over a run, read responses stay exactly if the counters are steady under them. -/
theorem rHolds_iff_steady (s : LiteRegs A) (es : List (LiteEvent A D)) :
    (rChannel A D).Holds LiteRegs.step s es ↔ Along LiteRegs.step Steady s es := by
  rw [Channel.holds_iff_along rOffers_axisAclk]
  constructor
  · exact Along.mono fun s e => (rKeeps_iff_steady s e).mp
  · exact Along.mono fun s e => (rKeeps_iff_steady s e).mpr

/-! ## The contract

The four obligations of a slave together. Three of them hold of every run, so the contract comes
down to the fourth. -/

/-- The AXI4-Lite slave contract along a run from `s`. -/
structure LiteContract (s : LiteRegs A) (es : List (LiteEvent A D)) : Prop where
  -- Every address that was read has its response, but for the last one.
  reads : ∀ k, (rChannel A D).handshakes LiteRegs.step s (es.take k)
        = (arChannel A D).handshakes LiteRegs.step s (es.take k)
      ∨ (rChannel A D).handshakes LiteRegs.step s (es.take k) + 1
        = (arChannel A D).handshakes LiteRegs.step s (es.take k)
  writes : ∀ k, (bChannel A D).handshakes LiteRegs.step s (es.take k)
        ≤ (wChannel A D).handshakes LiteRegs.step s (es.take k)
      ∧ (wChannel A D).handshakes LiteRegs.step s (es.take k)
        ≤ (awChannel A D).handshakes LiteRegs.step s (es.take k)
      ∧ (awChannel A D).handshakes LiteRegs.step s (es.take k)
        ≤ (bChannel A D).handshakes LiteRegs.step s (es.take k) + 1
  -- A write response is on offer only when there is an address and data it answers.
  answers : ∀ k (i : LiteIn A D),
    ((run LiteRegs.step s (es.take k)).writeSide i).bvalid = true →
      (awChannel A D).handshakes LiteRegs.step s (es.take k)
        = (bChannel A D).handshakes LiteRegs.step s (es.take k) + 1
      ∧ (wChannel A D).handshakes LiteRegs.step s (es.take k)
        = (bChannel A D).handshakes LiteRegs.step s (es.take k) + 1
  bHolds : (bChannel A D).Holds LiteRegs.step s es
  rHolds : (rChannel A D).Holds LiteRegs.step s es

theorem ReadInv.reads {s : LiteRegs A} {ar r : Nat} (h : ReadInv s ar r) :
    r = ar ∨ r + 1 = ar := by
  cases hst : s.readState <;> simp only [ReadInv, hst] at h <;> omega

/-- Responses follow data, and data follow addresses. -/
theorem WriteInv.writes {s : LiteRegs A} {aw w b : Nat} (h : WriteInv s aw w b) :
    b ≤ w ∧ w ≤ aw ∧ aw ≤ b + 1 := by
  cases hst : s.writeState <;> simp only [WriteInv, hst] at h <;> omega

/-- A write response on offer has an address and data that it answers. -/
theorem WriteInv.answers {s : LiteRegs A} {aw w b : Nat} (h : WriteInv s aw w b) {i : LiteIn A D}
    (hv : (s.writeSide i).bvalid = true) : aw = b + 1 ∧ w = b + 1 := by
  cases hst : s.writeState with
  | writeIdle => simp [LiteRegs.writeSide, hst] at hv
  | writeData => simp [LiteRegs.writeSide, hst] at hv
  | writeResponse => simpa only [WriteInv, hst] using h

/-- **The slave contract** holds of a run exactly when no counter moves under a read response that
waits to be taken. -/
theorem lite_contract_iff_steady (r : LiteRegs A) (es : List (LiteEvent A D)) :
    LiteContract r.reset es ↔ Along LiteRegs.step Steady r.reset es := by
  constructor
  · intro h
    exact (rHolds_iff_steady _ es).mp h.rHolds
  · intro h
    refine ⟨?_, ?_, ?_, ?_, (rHolds_iff_steady _ es).mpr h⟩
    · intro k
      exact (readInv_run r (es.take k)).reads
    · intro k
      exact (writeInv_run r (es.take k)).writes
    · intro k i hv
      exact (writeInv_run r (es.take k)).answers hv
    · refine (Channel.holds_iff_along bOffers_axisAclk _ es).mpr ?_
      exact along_of_mem (fun e _ s => bKeeps s e) _

/-- Idle, with 7 in the synchronisers of `tx_count`. -/
def sevenCounted : LiteRegs 2 where
  writeState := .writeIdle
  readState := .readIdle
  readAddr := 0
  writeAddr := 0
  bresp := axiRespOk
  countResetControl := 0
  counter := 0
  txCountR := 7
  txCountR2 := 7
  rxCountR := 0
  rxCountR2 := 0
  errCountR := 0
  errCountR2 := 0
  countResetR := 0
  countResetR2 := 0
  countReset := 0

/-- A cycle with nothing written and `RREADY` low. -/
def countingCycle (arvalid : Bool) (txCount : BitVec 32) : LiteEvent 2 32 :=
  .aclk ⟨0, false, 0, false, true, 0, arvalid, false, txCount, 0, 0⟩

/-- `REG_TX_COUNT` is read, and the counter moves before the response is taken. -/
def movingRead : List (LiteEvent 2 32) :=
  [countingCycle true 7, countingCycle false 7, countingCycle false 7, countingCycle false 8,
    countingCycle false 8]

/-- `RDATA` is 7 in the last cycle, and 8 in the one after it. -/
theorem lite_rdata_moves :
    (rChannel 2 32).offer (run LiteRegs.step sevenCounted.reset (movingRead.take 4))
        (countingCycle false 8) = some (7, axiRespOk)
      ∧ (rChannel 2 32).offer (run LiteRegs.step sevenCounted.reset movingRead)
        (countingCycle false 8) = some (8, axiRespOk)
      ∧ ¬ LiteContract sevenCounted.reset movingRead := by
  refine ⟨by decide, by decide, ?_⟩
  intro h
  have hsteady := (rHolds_iff_steady _ _).mp h.rHolds
  revert hsteady
  decide

end Nf10.GenCheck
