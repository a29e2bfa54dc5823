import Mathlib.Data.List.Basic
import Mathlib.Logic.Function.Iterate
import Nf10.Lib.AsyncFifo
import Nf10.Lib.GrayCode
import Nf10.Lib.Runs

/-!
# Nf10 — `small_async_fifo`

The info FIFO of the interface cores, register by register: two binary counters of `ASIZE + 1` bits, each
with its Gray code, each code sampled twice by the other side's clock, and the flags registered on
what has arrived. A clock edge is an event; an event may be an edge of both clocks, and then both
sides sample what was there before.

* **`FifoInv`** — the counters as numbers, with the number each synchroniser register was loaded
  with: a side lags behind the other one but never runs ahead of it;
* **`fifoInv_step`** — kept by every edge;
* **`view_step`** — seen from outside it is an `AsyncFifo`, which is what the queues are built on;
  `isEmpty_view` and `front_view` are its outputs. `InfoFifo` puts it into them.
-/

namespace Nf10.Hw

open GrayCode Runs

variable {A D : Nat}

/-! ## The modules

The FIFO is put together from five small modules: the memory, the two synchronisers, and a pointer
with its flag for each side. A pointer counts one bit more than the address has, so that full and
empty can be told apart. -/

/-- `sync_r2w` and `sync_w2r`: the other side's pointer through two registers. -/
structure SyncReg (A : Nat) where
  q1 : BitVec (A + 1)
  q2 : BitVec (A + 1)
deriving DecidableEq, Repr

/-- An edge of the clock that samples the pointer. -/
def SyncReg.clock (q : SyncReg A) (ptr : BitVec (A + 1)) : SyncReg A :=
  ⟨ptr, q.q1⟩

/-- The registers of `rptr_empty`. -/
structure RptrEmpty (A : Nat) where
  rbin : BitVec (A + 1)
  rptr : BitVec (A + 1)
  rempty : Bool
  rAlmostEmpty : Bool
deriving DecidableEq, Repr

namespace RptrEmpty

/-- The address of the word at the front. -/
def raddr (r : RptrEmpty A) : BitVec A :=
  r.rbin.setWidth A

/-- The read pointer after the edge: an empty FIFO is not read. -/
def rbinnext (r : RptrEmpty A) (rinc : Bool) : BitVec (A + 1) :=
  r.rbin + (BitVec.ofBool (rinc && !r.rempty)).setWidth (A + 1)

/-- An edge of the read clock. The flags are computed from the pointer after it. -/
def clock (almostEmptySize : Nat) (r : RptrEmpty A) (rq2Wptr : BitVec (A + 1)) (rinc : Bool) :
    RptrEmpty A :=
  let subtract := r.rbinnext rinc + BitVec.ofNat (A + 1) almostEmptySize - decode rq2Wptr
  { rbin := r.rbinnext rinc
    rptr := encode (r.rbinnext rinc)
    rempty := encode (r.rbinnext rinc) == rq2Wptr
    rAlmostEmpty := !subtract.getLsbD A }

end RptrEmpty

/-- The registers of `wptr_full`. -/
structure WptrFull (A : Nat) where
  wbin : BitVec (A + 1)
  wptr : BitVec (A + 1)
  wfull : Bool
  wAlmostFull : Bool
deriving DecidableEq, Repr

namespace WptrFull

/-- The address that the next word goes to. -/
def waddr (w : WptrFull A) : BitVec A :=
  w.wbin.setWidth A

/-- The write pointer after the edge: a full FIFO is not written. -/
def wbinnext (w : WptrFull A) (winc : Bool) : BitVec (A + 1) :=
  w.wbin + (BitVec.ofBool (winc && !w.wfull)).setWidth (A + 1)

/-- An edge of the write clock. Full is the other pointer with its two top bits inverted, in Gray
code. -/
def clock (almostFullSize : Nat) (w : WptrFull A) (wq2Rptr : BitVec (A + 1)) (winc : Bool) :
    WptrFull A :=
  let subtract := w.wbinnext winc - decode wq2Rptr - BitVec.ofNat (A + 1) almostFullSize
  { wbin := w.wbinnext winc
    wptr := encode (w.wbinnext winc)
    wfull := encode (w.wbinnext winc) == invertTop wq2Rptr
    wAlmostFull := !subtract.getLsbD A }

end WptrFull

/-- The whole FIFO. -/
structure SmallAsyncFifo (A D : Nat) where
  mem : BitVec A → BitVec D
  r2w : SyncReg A
  w2r : SyncReg A
  rptrEmpty : RptrEmpty A
  wptrFull : WptrFull A

/-- The parameters that only move the almost-flags. -/
structure FifoSizes where
  almostFullSize : Nat
  almostEmptySize : Nat
deriving DecidableEq, Repr

/-- Which clocks have an edge, and what is on the inputs. -/
structure FifoEdge (D : Nat) where
  wclk : Bool
  rclk : Bool
  winc : Bool
  rinc : Bool
  wdata : BitVec D
deriving DecidableEq, Repr

namespace SmallAsyncFifo

/-- The memory has no reset. -/
def reset (mem : BitVec A → BitVec D) : SmallAsyncFifo A D where
  mem := mem
  r2w := ⟨0, 0⟩
  w2r := ⟨0, 0⟩
  rptrEmpty := ⟨0, 0, true, true⟩
  wptrFull := ⟨0, 0, false, false⟩

/-- The word at the front, which is not registered. -/
def rdata (f : SmallAsyncFifo A D) : BitVec D :=
  f.mem f.rptrEmpty.raddr

/-- A word is written at this edge. -/
def writes (f : SmallAsyncFifo A D) (e : FifoEdge D) : Bool :=
  e.wclk && e.winc && !f.wptrFull.wfull

/-- A word is read at this edge. -/
def reads (f : SmallAsyncFifo A D) (e : FifoEdge D) : Bool :=
  e.rclk && e.rinc && !f.rptrEmpty.rempty

/-- An edge of either clock or of both; everything is computed from the state before it. -/
def step (p : FifoSizes) (f : SmallAsyncFifo A D) (e : FifoEdge D) : SmallAsyncFifo A D where
  mem := if f.writes e then Function.update f.mem f.wptrFull.waddr e.wdata else f.mem
  r2w := if e.wclk then f.r2w.clock f.rptrEmpty.rptr else f.r2w
  w2r := if e.rclk then f.w2r.clock f.wptrFull.wptr else f.w2r
  rptrEmpty :=
    if e.rclk then f.rptrEmpty.clock p.almostEmptySize f.w2r.q2 e.rinc else f.rptrEmpty
  wptrFull :=
    if e.wclk then f.wptrFull.clock p.almostFullSize f.r2w.q2 e.winc else f.wptrFull

end SmallAsyncFifo

/-- A number through the two registers of a synchroniser; `used` is the one the flag in front of it
was last set by. -/
structure Lag where
  s1 : Nat
  s2 : Nat
  used : Nat
deriving DecidableEq, Repr

/-- An edge that samples `n`. -/
def Lag.clock (l : Lag) (n : Nat) : Lag :=
  ⟨n, l.s1, l.s2⟩

/-- The numbers of a lag never run ahead of `n`, and each is behind the one before it. -/
def Lag.Behind (l : Lag) (n : Nat) : Prop :=
  l.used ≤ l.s2 ∧ l.s2 ≤ l.s1 ∧ l.s1 ≤ n

theorem Lag.Behind.mono {l : Lag} {n m : Nat} (h : l.Behind n) (hnm : n ≤ m) : l.Behind m :=
  ⟨h.1, h.2.1, Nat.le_trans h.2.2 hnm⟩

theorem Lag.Behind.clock {l : Lag} {n : Nat} (h : l.Behind n) : (l.clock n).Behind n :=
  ⟨h.2.1, h.2.2, Nat.le_refl n⟩

theorem Lag.Behind.used_le {l : Lag} {n : Nat} (h : l.Behind n) : l.used ≤ n :=
  Nat.le_trans h.1 (Nat.le_trans h.2.1 h.2.2)

/-- The FIFO with all that was written and read, and what the read side (`wlag`) and the write side
(`rlag`) have of the other one. -/
structure FifoSys (A D : Nat) where
  fifo : SmallAsyncFifo A D
  written : List (BitVec D)
  popped : List (BitVec D)
  wlag : Lag
  rlag : Lag

namespace FifoSys

/-- After reset nothing has been written or read. -/
def reset (mem : BitVec A → BitVec D) : FifoSys A D :=
  ⟨SmallAsyncFifo.reset mem, [], [], ⟨0, 0, 0⟩, ⟨0, 0, 0⟩⟩

/-- An edge, with the words and the lags on record. -/
def step (p : FifoSizes) (s : FifoSys A D) (e : FifoEdge D) : FifoSys A D where
  fifo := s.fifo.step p e
  written := if s.fifo.writes e then s.written ++ [e.wdata] else s.written
  popped := if s.fifo.reads e then s.popped ++ [s.fifo.rdata] else s.popped
  wlag := if e.rclk then s.wlag.clock s.written.length else s.wlag
  rlag := if e.wclk then s.rlag.clock s.popped.length else s.rlag

/-- What was written and not read. -/
def unread (s : FifoSys A D) : List (BitVec D) :=
  s.written.drop s.popped.length

end FifoSys

/-! ## The two sides

Each side by itself, over the numbers of words written (`W`) and read (`R`). -/

/-- The Gray code of a number, as a pointer holds it. -/
def code (A n : Nat) : BitVec (A + 1) :=
  encode (BitVec.ofNat (A + 1) n)

/-- The registers of a synchroniser hold the codes of the numbers in `l`. -/
def SyncReg.Holds (q : SyncReg A) (l : Lag) : Prop :=
  q.q1 = code A l.s1 ∧ q.q2 = code A l.s2

theorem SyncReg.Holds.clock {q : SyncReg A} {l : Lag} (h : q.Holds l) (n : Nat) :
    (q.clock (code A n)).Holds (l.clock n) :=
  ⟨rfl, h.1⟩

/-- The write side: at most `2 ^ ASIZE` words ahead of the reads it knows of. -/
structure WriteSide (w : WptrFull A) (q : SyncReg A) (l : Lag) (W R : Nat) : Prop where
  wbin_eq : w.wbin = BitVec.ofNat (A + 1) W
  wptr_eq : w.wptr = code A W
  holds : q.Holds l
  behind : l.Behind R
  bound : W ≤ l.used + 2 ^ A
  wfull_eq : w.wfull = decide (W = l.used + 2 ^ A)

/-- The read side: never ahead of the writes it knows of. -/
structure ReadSide (r : RptrEmpty A) (q : SyncReg A) (l : Lag) (R W : Nat) : Prop where
  rbin_eq : r.rbin = BitVec.ofNat (A + 1) R
  rptr_eq : r.rptr = code A R
  holds : q.Holds l
  behind : l.Behind W
  bound : R ≤ l.used
  rempty_eq : r.rempty = decide (R = l.used)

section Sides

variable {w : WptrFull A} {r : RptrEmpty A} {q : SyncReg A} {l : Lag} {W R : Nat}

theorem add_ofBool (n : Nat) (b : Bool) :
    BitVec.ofNat (A + 1) n + (BitVec.ofBool b).setWidth (A + 1) =
      BitVec.ofNat (A + 1) (n + b.toNat) := by
  rw [BitVec.ofNat_add]
  congr 1
  apply BitVec.eq_of_toNat_eq
  cases b <;> simp

/-- A write edge; `R ≤ W` is all the write side has to know of the reads it does not see. -/
theorem WriteSide.clock (h : WriteSide w q l W R) (hRW : R ≤ W) (size : Nat) (winc : Bool) :
    WriteSide (w.clock size q.q2 winc) (q.clock (code A R)) (l.clock R)
      (W + (winc && !w.wfull).toNat) R := by
  have hnext : w.wbinnext winc = BitVec.ofNat (A + 1) (W + (winc && !w.wfull).toNat) := by
    rw [WptrFull.wbinnext, h.wbin_eq, add_ofBool]
  -- a write goes ahead only below the bound, so after it the bound still holds
  have hbound : W + (winc && !w.wfull).toNat ≤ l.s2 + 2 ^ A := by
    have hb := h.bound
    have hle := h.behind.1
    rw [h.wfull_eq]
    by_cases hfull : W = l.used + 2 ^ A
    · simp [hfull]
      omega
    · have hinc : (winc && !decide (W = l.used + 2 ^ A)).toNat ≤ 1 := Bool.toNat_le _
      omega
  have hs2 : l.s2 ≤ W + (winc && !w.wfull).toNat := by
    have := h.behind.2
    omega
  refine ⟨hnext, ?_, h.holds.clock R, h.behind.clock, hbound, ?_⟩
  · show encode (w.wbinnext winc) = _
    rw [hnext]
    rfl
  · show (encode (w.wbinnext winc) == invertTop q.q2) = _
    rw [hnext, h.holds.2, Bool.eq_iff_iff, beq_iff_eq, decide_eq_true_iff]
    exact encode_eq_half_iff hs2 hbound

/-- Reads that the write side does not see leave it as it is. -/
theorem WriteSide.mono (h : WriteSide w q l W R) {R' : Nat} (hR : R ≤ R') :
    WriteSide w q l W R' :=
  { h with behind := h.behind.mono hR }

/-- A read edge; what it has to know of the writes it does not see is that they are not more than one
turn ahead. -/
theorem ReadSide.clock (h : ReadSide r q l R W) (hWR : W ≤ R + 2 ^ A) (size : Nat) (rinc : Bool) :
    ReadSide (r.clock size q.q2 rinc) (q.clock (code A W)) (l.clock W)
      (R + (rinc && !r.rempty).toNat) W := by
  have hnext : r.rbinnext rinc = BitVec.ofNat (A + 1) (R + (rinc && !r.rempty).toNat) := by
    rw [RptrEmpty.rbinnext, h.rbin_eq, add_ofBool]
  have hbound : R + (rinc && !r.rempty).toNat ≤ l.s2 := by
    have hb := h.bound
    have hle := h.behind.1
    rw [h.rempty_eq]
    by_cases hempty : R = l.used
    · simp [hempty]
      omega
    · have hinc : (rinc && !decide (R = l.used)).toNat ≤ 1 := Bool.toNat_le _
      omega
  have hturn : l.s2 < R + (rinc && !r.rempty).toNat + 2 ^ (A + 1) := by
    have hpos : 0 < 2 ^ A := Nat.two_pow_pos A
    have := h.behind.2
    rw [Nat.pow_succ]
    omega
  refine ⟨hnext, ?_, h.holds.clock W, h.behind.clock, hbound, ?_⟩
  · show encode (r.rbinnext rinc) = _
    rw [hnext]
    rfl
  · show (encode (r.rbinnext rinc) == q.q2) = _
    rw [hnext, h.holds.2, Bool.eq_iff_iff, beq_iff_eq, decide_eq_true_iff]
    exact encode_eq_iff hbound hturn

/-- Writes that the read side does not see leave it as it is. -/
theorem ReadSide.mono (h : ReadSide r q l R W) {W' : Nat} (hW : W ≤ W') :
    ReadSide r q l R W' :=
  { h with behind := h.behind.mono hW }

end Sides

/-! ## The FIFO

The two sides put together. Each is behind the other, so the words written and not read are never
more than the memory has places, and a word is not written over before it has been read. -/

/-- What is in the memory, and where the two sides stand. -/
structure FifoInv (s : FifoSys A D) : Prop where
  write_side : WriteSide s.fifo.wptrFull s.fifo.r2w s.rlag s.written.length s.popped.length
  read_side : ReadSide s.fifo.rptrEmpty s.fifo.w2r s.wlag s.popped.length s.written.length
  mem_eq : ∀ i x, s.popped.length ≤ i → s.written[i]? = some x → s.fifo.mem (BitVec.ofNat A i) = x
  popped_eq : s.popped = s.written.take s.popped.length

namespace FifoInv

variable {s : FifoSys A D}

theorem popped_le (h : FifoInv s) : s.popped.length ≤ s.written.length :=
  Nat.le_trans h.read_side.bound h.read_side.behind.used_le

theorem written_le (h : FifoInv s) : s.written.length ≤ s.popped.length + 2 ^ A :=
  Nat.le_trans h.write_side.bound (Nat.add_le_add_right h.write_side.behind.used_le _)

/-- If it is not empty, there is a word that the read side has been told of. -/
theorem popped_lt_used (h : FifoInv s) (hempty : s.fifo.rptrEmpty.rempty = false) :
    s.popped.length < s.wlag.used := by
  rw [h.read_side.rempty_eq, decide_eq_false_iff_not] at hempty
  exact Nat.lt_of_le_of_ne h.read_side.bound hempty

theorem popped_lt (h : FifoInv s) (hempty : s.fifo.rptrEmpty.rempty = false) :
    s.popped.length < s.written.length :=
  Nat.lt_of_lt_of_le (h.popped_lt_used hempty) h.read_side.behind.used_le

theorem written_lt (h : FifoInv s) (hfull : s.fifo.wptrFull.wfull = false) :
    s.written.length < s.popped.length + 2 ^ A := by
  rw [h.write_side.wfull_eq, decide_eq_false_iff_not] at hfull
  have hb := h.write_side.bound
  have hle := h.write_side.behind.used_le
  omega

/-- The read address is the number of words read, in `ASIZE` bits. -/
theorem raddr_eq (h : FifoInv s) : s.fifo.rptrEmpty.raddr = BitVec.ofNat A s.popped.length := by
  rw [RptrEmpty.raddr, h.read_side.rbin_eq, BitVec.setWidth_ofNat_of_le (Nat.le_succ A)]

/-- The write address is the number of words written, in `ASIZE` bits. -/
theorem waddr_eq (h : FifoInv s) : s.fifo.wptrFull.waddr = BitVec.ofNat A s.written.length := by
  rw [WptrFull.waddr, h.write_side.wbin_eq, BitVec.setWidth_ofNat_of_le (Nat.le_succ A)]

/-- The data output shows the oldest word that was not read. -/
theorem rdata_eq (h : FifoInv s) (hempty : s.fifo.rptrEmpty.rempty = false) :
    s.written[s.popped.length]? = some s.fifo.rdata := by
  have hlt := h.popped_lt hempty
  rw [SmallAsyncFifo.rdata, h.raddr_eq,
    h.mem_eq _ _ (Nat.le_refl _) (List.getElem?_eq_getElem hlt)]
  exact List.getElem?_eq_getElem hlt

end FifoInv

theorem code_zero : code A 0 = 0 := by
  simp [code, encode]

theorem fifoInv_reset (mem : BitVec A → BitVec D) : FifoInv (FifoSys.reset mem) where
  write_side := by
    have hpos : ¬ 0 = 0 + 2 ^ A := by
      have := Nat.two_pow_pos A
      omega
    exact ⟨rfl, code_zero.symm, ⟨code_zero.symm, code_zero.symm⟩,
      ⟨Nat.le_refl _, Nat.le_refl _, Nat.le_refl _⟩, Nat.zero_le _, (decide_eq_false hpos).symm⟩
  read_side :=
    ⟨rfl, code_zero.symm, ⟨code_zero.symm, code_zero.symm⟩,
      ⟨Nat.le_refl _, Nat.le_refl _, Nat.le_refl _⟩, Nat.le_refl _, rfl⟩
  mem_eq := by
    intro i x _ hi
    cases hi
  popped_eq := rfl

theorem rempty_of_reads {f : SmallAsyncFifo A D} {e : FifoEdge D} (h : f.reads e = true) :
    f.rptrEmpty.rempty = false := by
  simp only [SmallAsyncFifo.reads, Bool.and_eq_true, Bool.not_eq_true'] at h
  exact h.2

theorem wfull_of_writes {f : SmallAsyncFifo A D} {e : FifoEdge D} (h : f.writes e = true) :
    f.wptrFull.wfull = false := by
  simp only [SmallAsyncFifo.writes, Bool.and_eq_true, Bool.not_eq_true'] at h
  exact h.2

section Step

variable {s : FifoSys A D} (p : FifoSizes) (e : FifoEdge D)

theorem length_written_step :
    (s.step p e).written.length = s.written.length + (s.fifo.writes e).toNat := by
  rw [FifoSys.step]
  cases s.fifo.writes e <;> simp

theorem length_popped_step :
    (s.step p e).popped.length = s.popped.length + (s.fifo.reads e).toNat := by
  rw [FifoSys.step]
  cases s.fifo.reads e <;> simp

theorem written_isPrefix_step : s.written <+: (s.step p e).written := by
  rw [FifoSys.step]
  cases s.fifo.writes e with
  | false => exact List.prefix_refl _
  | true => exact List.prefix_append _ _

theorem writeSide_step (h : FifoInv s) :
    WriteSide (s.step p e).fifo.wptrFull (s.step p e).fifo.r2w (s.step p e).rlag
      (s.step p e).written.length (s.step p e).popped.length := by
  rw [length_written_step, length_popped_step]
  simp only [FifoSys.step, SmallAsyncFifo.step, SmallAsyncFifo.writes]
  cases e.wclk with
  | false => exact h.write_side.mono (Nat.le_add_right _ _)
  | true =>
    have hclock := h.write_side.clock h.popped_le p.almostFullSize e.winc
    rw [← h.read_side.rptr_eq] at hclock
    exact hclock.mono (Nat.le_add_right _ _)

theorem readSide_step (h : FifoInv s) :
    ReadSide (s.step p e).fifo.rptrEmpty (s.step p e).fifo.w2r (s.step p e).wlag
      (s.step p e).popped.length (s.step p e).written.length := by
  rw [length_written_step, length_popped_step]
  simp only [FifoSys.step, SmallAsyncFifo.step, SmallAsyncFifo.reads]
  cases e.rclk with
  | false => exact h.read_side.mono (Nat.le_add_right _ _)
  | true =>
    have hclock := h.read_side.clock h.written_le p.almostEmptySize e.rinc
    rw [← h.write_side.wptr_eq] at hclock
    exact hclock.mono (Nat.le_add_right _ _)

/-- A word is written into a place no unread word is in. -/
theorem mem_step (h : FifoInv s) {i : Nat} {x : BitVec D} (hi : s.popped.length ≤ i)
    (hx : (s.step p e).written[i]? = some x) :
    (s.step p e).fifo.mem (BitVec.ofNat A i) = x := by
  simp only [FifoSys.step, SmallAsyncFifo.step] at hx ⊢
  cases hw : s.fifo.writes e with
  | false =>
    rw [hw] at hx
    exact h.mem_eq i x hi hx
  | true =>
    rw [hw, if_pos rfl] at hx
    rw [if_pos rfl, h.waddr_eq]
    have hfull : s.fifo.wptrFull.wfull = false := wfull_of_writes hw
    rcases Nat.lt_or_ge i s.written.length with hlt | hge
    · rw [List.getElem?_append_left hlt] at hx
      have hne : BitVec.ofNat A i ≠ BitVec.ofNat A s.written.length := by
        have hroom := h.written_lt hfull
        rw [Ne, ofNat_eq_iff (by omega) (by omega)]
        omega
      rw [Function.update_of_ne hne]
      exact h.mem_eq i x hi hx
    · rw [List.getElem?_append_right hge] at hx
      obtain ⟨hlt, rfl⟩ := List.getElem?_eq_some_iff.mp hx
      have hlast : i = s.written.length := by
        rw [List.length_singleton] at hlt
        omega
      subst hlast
      simp

/-- What has been read is the beginning of what was written. -/
theorem popped_step (h : FifoInv s) :
    (s.step p e).popped = (s.step p e).written.take (s.step p e).popped.length := by
  obtain ⟨t, ht⟩ := written_isPrefix_step (s := s) p e
  rw [length_popped_step, ← ht]
  simp only [FifoSys.step]
  cases hr : s.fifo.reads e with
  | false =>
    rw [Bool.toNat_false, Nat.add_zero, List.take_append_of_le_length h.popped_le]
    exact h.popped_eq
  | true =>
    have hempty : s.fifo.rptrEmpty.rempty = false := rempty_of_reads hr
    rw [Bool.toNat_true, List.take_append_of_le_length (h.popped_lt hempty), List.take_add_one,
      h.rdata_eq hempty, ← h.popped_eq]
    rfl

theorem fifoInv_step (h : FifoInv s) : FifoInv (s.step p e) where
  write_side := writeSide_step p e h
  read_side := readSide_step p e h
  mem_eq := by
    intro i x hi hx
    rw [length_popped_step] at hi
    exact mem_step p e h (Nat.le_trans (Nat.le_add_right _ _) hi) hx
  popped_eq := popped_step p e h

end Step

/-- **A bounded FIFO.** What was read is the beginning of what was written, what is left of it fits
the memory, and the two flags can be relied on when they are low. -/
structure BoundedFifo (s : FifoSys A D) : Prop where
  popped_isPrefix : s.popped <+: s.written
  nonneg : s.popped.length ≤ s.written.length
  bounded : s.unread.length ≤ 2 ^ A
  oldest : s.fifo.rptrEmpty.rempty = false → s.unread.head? = some s.fifo.rdata
  room : s.fifo.wptrFull.wfull = false → s.unread.length < 2 ^ A

theorem FifoInv.boundedFifo {s : FifoSys A D} (h : FifoInv s) : BoundedFifo s where
  popped_isPrefix := by
    rw [h.popped_eq]
    exact List.take_prefix _ _
  nonneg := h.popped_le
  bounded := by
    rw [FifoSys.unread, List.length_drop]
    exact Nat.sub_le_iff_le_add'.mpr h.written_le
  oldest := by
    intro hempty
    rw [FifoSys.unread, List.head?_drop, h.rdata_eq hempty]
  room := by
    intro hfull
    have hlt := h.written_lt hfull
    have hle := h.popped_le
    rw [FifoSys.unread, List.length_drop]
    exact Nat.sub_lt_left_of_lt_add hle hlt

theorem fifoInv_run (p : FifoSizes) (mem : BitVec A → BitVec D) (es : List (FifoEdge D)) :
    FifoInv (run (FifoSys.step p) (FifoSys.reset mem) es) :=
  run_invariant_of_step (fun _ e h => fifoInv_step p e h) (fifoInv_reset mem) es

/-- **After any edges of the two clocks.** -/
theorem small_async_fifo_bounded (p : FifoSizes) (mem : BitVec A → BitVec D)
    (es : List (FifoEdge D)) : BoundedFifo (run (FifoSys.step p) (FifoSys.reset mem) es) :=
  (fifoInv_run p mem es).boundedFifo

/-! ## Seen from outside

The words the read side has been told of are visible, the others in flight: `rempty` says that none is
visible, and at a read edge as many become visible as the second register was ahead. -/

/-- Of the words `l`, `R` have been read and the first `V` are or were visible. -/
def viewAt (l : List (BitVec D)) (R V : Nat) : AsyncFifo (BitVec D) where
  seen := (l.drop R).take (V - R)
  inFlight := l.drop V

section ViewAt

variable {l : List (BitVec D)} {R V : Nat}

theorem read_viewAt : (viewAt l R V).read = viewAt l (R + 1) V := by
  rw [viewAt, AsyncFifo.read, ← List.drop_one, List.drop_take, List.drop_drop, Nat.sub_sub]
  rfl

theorem sync_viewAt (hRV : R ≤ V) (k : Nat) :
    AsyncFifo.sync^[k] (viewAt l R V) = viewAt l R (V + k) := by
  have hseen : (l.drop R).take (V + k - R) = (l.drop R).take (V - R) ++ (l.drop V).take k := by
    have hdrop : l.drop V = (l.drop R).drop (V - R) := by
      rw [List.drop_drop, Nat.add_sub_cancel' hRV]
    rw [hdrop, ← List.take_add, Nat.sub_add_comm hRV]
  rw [AsyncFifo.sync_iterate]
  simp only [viewAt, hseen, List.drop_drop]

theorem write_viewAt (hRV : R ≤ V) (hV : V ≤ l.length) (x : BitVec D) :
    (viewAt l R V).write false x = viewAt (l ++ [x]) R V := by
  have hroom : V - R ≤ (l.drop R).length := by
    rw [List.length_drop]
    omega
  simp [viewAt, AsyncFifo.write, List.drop_append_of_le_length (Nat.le_trans hRV hV),
    List.drop_append_of_le_length hV, List.take_append_of_le_length hroom]

end ViewAt

namespace FifoSys

/-- What the users of the FIFO see of it: the words the empty flag counts on are visible. -/
def view (s : FifoSys A D) : AsyncFifo (BitVec D) :=
  viewAt s.written s.popped.length s.wlag.used

/-- The words that become visible at this edge. -/
def arrivals (s : FifoSys A D) (e : FifoEdge D) : Nat :=
  if e.rclk then s.wlag.s2 - s.wlag.used else 0

end FifoSys

section View

variable {s : FifoSys A D}

/-- The empty flag says that nothing is visible. -/
theorem isEmpty_view (h : FifoInv s) : s.view.seen.isEmpty = s.fifo.rptrEmpty.rempty := by
  have hb := h.read_side.bound
  have hle := h.read_side.behind.used_le
  rw [Bool.eq_iff_iff, h.read_side.rempty_eq, decide_eq_true_iff, List.isEmpty_iff, FifoSys.view,
    viewAt, ← List.length_eq_zero_iff, List.length_take, List.length_drop]
  omega

/-- The data output shows the oldest visible word, or, when there is none, whatever is in the
memory there. -/
theorem front_view (h : FifoInv s) : s.view.front s.fifo.rdata = s.fifo.rdata := by
  cases hempty : s.fifo.rptrEmpty.rempty with
  | true =>
    have hseen : s.view.seen = [] := List.isEmpty_iff.mp ((isEmpty_view h).trans hempty)
    rw [AsyncFifo.front, hseen]
    rfl
  | false =>
    have hroom : s.wlag.used - s.popped.length ≠ 0 :=
      Nat.sub_ne_zero_of_lt (h.popped_lt_used hempty)
    have hhead : s.view.seen.head? = some s.fifo.rdata := by
      rw [FifoSys.view, viewAt, List.head?_take, if_neg hroom, List.head?_drop, h.rdata_eq hempty]
    rw [AsyncFifo.front, hhead]
    rfl

/-- A FIFO that is empty takes no notice of `rinc`. -/
theorem read_view (h : FifoInv s) (e : FifoEdge D) :
    (if s.fifo.reads e then s.view.read else s.view)
      = if e.rclk && e.rinc then s.view.read else s.view := by
  cases hempty : s.fifo.rptrEmpty.rempty with
  | true =>
    have hseen : s.view.seen = [] := List.isEmpty_iff.mp ((isEmpty_view h).trans hempty)
    rw [AsyncFifo.read_of_seen_nil hseen, ite_self, ite_self]
  | false => rw [SmallAsyncFifo.reads, hempty, Bool.not_false, Bool.and_true]

/-- No more words arrive than are on their way. -/
theorem arrivals_le (h : FifoInv s) (e : FifoEdge D) :
    s.arrivals e ≤ s.view.inFlight.length := by
  obtain ⟨h1, h2, h3⟩ := h.read_side.behind
  rw [FifoSys.view, viewAt, List.length_drop, FifoSys.arrivals]
  split <;> omega

/-- An edge is a read, the arrival of some words, and a write of the `AsyncFifo`, each of them if it
takes place. -/
theorem view_step_read (h : FifoInv s) (p : FifoSizes) (e : FifoEdge D) :
    (s.step p e).view =
      (AsyncFifo.sync^[s.arrivals e] (if s.fifo.reads e then s.view.read else s.view)).write
        (!s.fifo.writes e) e.wdata := by
  have hused : (s.step p e).wlag.used = s.wlag.used + s.arrivals e := by
    have hle := h.read_side.behind.1
    simp only [FifoSys.step, FifoSys.arrivals]
    cases e.rclk with
    | false => rfl
    | true => exact (Nat.add_sub_cancel' hle).symm
  have hread : (if s.fifo.reads e then s.view.read else s.view) =
      viewAt s.written (s.step p e).popped.length s.wlag.used := by
    rw [length_popped_step]
    cases s.fifo.reads e with
    | false => rfl
    | true => exact read_viewAt
  have hread_le : (s.step p e).popped.length ≤ s.wlag.used := by
    rw [length_popped_step]
    cases hr : s.fifo.reads e with
    | false => exact h.read_side.bound
    | true => exact h.popped_lt_used (rempty_of_reads hr)
  have hused_le : s.wlag.used + s.arrivals e ≤ s.written.length := by
    obtain ⟨h1, h2, h3⟩ := h.read_side.behind
    rw [FifoSys.arrivals]
    split <;> omega
  rw [hread, sync_viewAt hread_le, FifoSys.view, hused, FifoSys.step]
  cases s.fifo.writes e with
  | false => rfl
  | true => exact (write_viewAt (Nat.le_trans hread_le (Nat.le_add_right _ _)) hused_le _).symm

/-- **The queues' FIFO.** In the order in which the queues take the edges of one instant: the write
of the one clock, the read of the other, and then the words that the read side has been told of. -/
theorem view_step (h : FifoInv s) (p : FifoSizes) (e : FifoEdge D) :
    (s.step p e).view = AsyncFifo.sync^[s.arrivals e]
      (if e.rclk && e.rinc then (s.view.write (!s.fifo.writes e) e.wdata).read
        else s.view.write (!s.fifo.writes e) e.wdata) := by
  rw [view_step_read h, read_view h]
  -- Neither the read nor the arrivals touch what the write adds.
  split
  · rw [AsyncFifo.read_write, AsyncFifo.sync_iterate_write]
    exact arrivals_le h e
  · rw [AsyncFifo.sync_iterate_write _ _ _ (arrivals_le h e)]

end View

end Nf10.Hw
