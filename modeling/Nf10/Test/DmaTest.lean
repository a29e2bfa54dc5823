import Mathlib.Algebra.Order.BigOperators.Group.List
import Mathlib.Algebra.Order.Group.Nat
import Nf10.Lib.Runs
import Nf10.Driver.Handlers

/-!
# Nf10 — the DMA production test

`dma_test.cxx` of the production test: one thread fills buffers with a running 32-bit counter and
hands them to the device, another takes buffers back and checks them against a counter of its own,
and `main` compares the two sets of statistics. Each thread is cut at the points where it reads
memory the device may write, or the clock; between two of its steps the device may do anything to
the receive stream, and may return transmit buffers at any time. Only the lengths it stores are
bounded: `ToCpu` holds no other.

The statistics are counted in naturals, and beside them in the 64 bits that the source has
(`Counters64`): the two agree as long as fewer than `2 ^ 64` bytes go each way (`BytesFit`), which at
the speed of the bus takes longer than the `2 ^ 32` seconds a test can last. Times are what `time`
returns, in no particular order.

* **`received_eq_sent_of_passes`** — `PASS` means the data came back intact, against any device;
* **`received_eq_sent_of_passes64`** — the same of the verdict as it is computed from the 64-bit
  statistics.
-/

namespace Nf10.DmaTest

open Runs

/-! ## Words in memory

The test fills its buffers through a `uint32_t *` and compares them the same way, while the payloads
that go out and come in are bytes. So a word has to be taken apart into bytes and put together
again. -/

/-- Byte `i` of a 32-bit word, least significant first. -/
def byte32 (v : UInt32) (i : Nat) : UInt8 :=
  (v >>> (8 * UInt32.ofNat i)).toUInt8

/-- The bytes behind a word that was loaded. -/
theorem byte32_load32 (p : Nat → UInt8) {i : Nat} (hi : i < 4) : byte32 (load32 p) i = p i := by
  apply UInt8.toBitVec_inj.mp
  apply BitVec.eq_of_getLsbD_eq
  intro k hk
  have h8 : ∀ (b : UInt8) (j : Nat), 8 ≤ j → b.toBitVec.getLsbD j = false :=
    fun b j hj => BitVec.getLsbD_of_ge _ _ hj
  have hcases : i = 0 ∨ i = 1 ∨ i = 2 ∨ i = 3 := by omega
  rcases hcases with rfl | rfl | rfl | rfl
  · simp [byte32, load32, hk]
  · simp [byte32, load32, hk, show 8 + k < 32 by omega, show 8 + k < 16 by omega,
      show 8 + k < 24 by omega]
  · simp [byte32, load32, hk, h8 _ (16 + k) (by omega), h8 _ (16 + k - 8) (by omega),
      show 16 + k < 32 by omega, show 16 + k < 24 by omega]
  · simp [byte32, load32, hk, h8 _ (24 + k) (by omega), h8 _ (24 + k - 8) (by omega),
      h8 _ (24 + k - 16) (by omega), show 24 + k < 32 by omega]

/-- `((uint32_t*)buf)[i]` -/
def wordAt (buf : Nat → UInt8) (i : Nat) : UInt32 :=
  load32 fun k => buf (4 * i + k)

/-- The store `((uint32_t*)buf)[i] = v`. -/
def setWord (buf : Nat → UInt8) (i : Nat) (v : UInt32) : Nat → UInt8 :=
  memcpy buf (4 * i) (byte32 v) 4

/-- The bytes of a counter that starts at `c`. -/
def counterByte (c : UInt32) (a : Nat) : UInt8 :=
  byte32 (c + UInt32.ofNat (a / 4)) (a % 4)

/-! ## The two loops over a buffer

Both loops count words, and both counters are static: they go on from buffer to buffer. A mismatch
does not end the second loop, and its counter does not move past the word that failed. -/

/-- The first `n` iterations of `fill_buffer`. -/
def fillWords (buf : Nat → UInt8) (counter : UInt32) : Nat → (Nat → UInt8) × UInt32
  | 0 => (buf, counter)
  | n + 1 =>
    let (buf, counter) := fillWords buf counter n
    (setWord buf n counter, counter + 1)

/-- `fill_buffer`, with its static counter before and after. -/
def fillBuffer (buf : Nat → UInt8) (size counter : UInt32) : (Nat → UInt8) × UInt32 :=
  fillWords buf counter (size.toNat / 4)

/-- The first `n` iterations of `validate_buffer`. The counter stays where it is on a mismatch. -/
def validateWords (buf : Nat → UInt8) (counter : UInt32) : Nat → Bool × UInt32
  | 0 => (false, counter)
  | n + 1 =>
    let (r, counter) := validateWords buf counter n
    if wordAt buf n ≠ counter then (true, counter) else (r, counter + 1)

/-- `validate_buffer`, with its static counter before and after; it returns whether there was a
mismatch. -/
def validateBuffer (buf : Nat → UInt8) (size counter : UInt32) : Bool × UInt32 :=
  validateWords buf counter (size.toNat / 4)

/-- The buffer has the bytes of the counter, which has moved by as many words. -/
theorem fillWords_spec (buf : Nat → UInt8) (c : UInt32) (n : Nat) :
    (fillWords buf c n).2 = c + UInt32.ofNat n
      ∧ ∀ a < 4 * n, (fillWords buf c n).1 a = counterByte c a := by
  induction n with
  | zero => exact ⟨by simp [fillWords], by omega⟩
  | succ n ih =>
    obtain ⟨hcounter, hbytes⟩ := ih
    refine ⟨?_, ?_⟩
    · show (fillWords buf c n).2 + 1 = _
      rw [hcounter, UInt32.add_assoc, UInt32.ofNat_add]
      rfl
    · intro a ha
      show setWord _ n (fillWords buf c n).2 a = _
      rw [hcounter]
      simp only [setWord, memcpy]
      split
      · next hin =>
        have hdiv : a / 4 = n := by omega
        have hmod : a - 4 * n = a % 4 := by omega
        rw [counterByte, hdiv, hmod]
      · exact hbytes a (by omega)

/-- **What the check accepts.** Without a mismatch every word was the counter's. -/
theorem validateWords_spec {buf : Nat → UInt8} {c : UInt32} {n : Nat}
    (h : (validateWords buf c n).1 = false) :
    (validateWords buf c n).2 = c + UInt32.ofNat n
      ∧ ∀ a < 4 * n, buf a = counterByte c a := by
  induction n with
  | zero => exact ⟨by simp [validateWords], by omega⟩
  | succ n ih =>
    simp only [validateWords] at h ⊢
    split at h
    · cases h
    · next hword =>
      obtain ⟨hcounter, hbytes⟩ := ih h
      have hword : wordAt buf n = (validateWords buf c n).2 := not_not.mp hword
      rw [if_neg (not_not.mpr hword)]
      refine ⟨?_, ?_⟩
      · show (validateWords buf c n).2 + 1 = _
        rw [hcounter, UInt32.add_assoc, UInt32.ofNat_add]
        rfl
      · intro a ha
        rcases Nat.lt_or_ge a (4 * n) with hlt | hge
        · exact hbytes a hlt
        · have hdiv : a / 4 = n := by omega
          have haddr : 4 * n + a % 4 = a := by omega
          rw [counterByte, hdiv, ← hcounter, ← hword, wordAt, byte32_load32 _ (by omega), haddr]

/-! ## The threads

Each thread is a program counter and its local variables. A step runs from one read of shared memory
or of the clock to the next, and takes the time it reads as an argument. -/

/-- The arguments the two threads share. -/
structure Args where
  bufSize : UInt32
  nBufs : UInt32
  runTime : UInt32
  timeOut : UInt32
deriving DecidableEq, Repr

/-- What the threads report to `main`. -/
structure TestStats where
  numTxBufs : Nat
  numTxBytes : Nat
  numRxBufs : Nat
  numRxBytes : Nat
  numRxBufErrors : Nat
  txStart : Int
  txBufferTimeoutHit : Bool
  rxBufferTimeoutHit : Bool
  rxGenTimeoutHit : Bool
deriving DecidableEq, Repr

/-- The receive stream in memory: anything the device puts there, with lengths up to the size of a
buffer. -/
structure ToCpu (bufSize : UInt32) extends DmaRegion where
  length_le : ∀ i, (metadata i).length ≤ bufSize

/-- Where `doWrite` is: before its first line, at the top of the loop, in the wait for a buffer, with
a buffer to fill, returned. -/
inductive WriterPc where
  | start
  | top
  | waiting
  | ready
  | exited
deriving DecidableEq, Repr

/-- `doWrite`, with its locals. -/
structure Writer where
  pc : WriterPc
  bufIdx : UInt32
  buf : Nat → UInt8
  bufferTimeoutStart : Int
  -- The counter of `fill_buffer`.
  counter : UInt32

/-- Where `doRead` is. `full` has seen the flag, `copy` has read the length, `release` has the payload
and gives the buffer back. -/
inductive ReaderPc where
  | start
  | top
  | arm
  | waiting
  | full
  | copy (nwrite : UInt32)
  | release (nwrite : UInt32)
  | exited
deriving DecidableEq, Repr

/-- `doRead`, with its locals. -/
structure Reader where
  pc : ReaderPc
  bufIdx : UInt32
  buf : Nat → UInt8
  genTimeoutStart : Int
  bufferTimeoutStart : Int
  -- The counter of `validate_buffer`.
  counter : UInt32

/-- The process, its two streams, and the payloads written and read so far. -/
structure Test (c : Args) where
  stats : TestStats
  writer : Writer
  reader : Reader
  fromCpu : DmaRegion
  toCpu : ToCpu c.bufSize
  fromDoorbell : Nat
  toDoorbell : Nat
  sent : List (List UInt8)
  received : List (List UInt8)

/-- `(uint32_t)(end - start)` -/
def elapsed (start stop : Int) : UInt32 :=
  UInt32.ofInt (stop - start)

/-- `if (++bufIdx == s->nBufs) bufIdx = 0;` -/
def Args.nextIdx (c : Args) (bufIdx : UInt32) : UInt32 :=
  if bufIdx + 1 = c.nBufs then 0 else bufIdx + 1

/-- `bufIdx * s->bufSize` -/
def Args.offset (c : Args) (bufIdx : UInt32) : Nat :=
  (bufIdx * c.bufSize).toNat

namespace Test

variable {c : Args}

/-- The end of a round of `doWrite`: the buffer goes to the device. -/
def handOver (s : Test c) (again : Bool) : Test c :=
  { s with
    fromCpu := { s.fromCpu with flags := Function.update s.fromCpu.flags s.writer.bufIdx.toNat 0 }
    fromDoorbell := s.fromDoorbell + 1
    writer := { s.writer with
      bufIdx := c.nextIdx s.writer.bufIdx
      pc := if again then .top else .exited } }

/-- `fill_buffer`, `memcpy` and the length. -/
def fillNext (s : Test c) : Test c :=
  let i := s.writer.bufIdx
  let f := fillBuffer s.writer.buf c.bufSize s.writer.counter
  let buffers := memcpy s.fromCpu.buffers (c.offset i) f.1 c.bufSize.toNat
  let metadata := Function.update s.fromCpu.metadata i.toNat
    { s.fromCpu.metadata i.toNat with length := c.bufSize }
  { s with
    writer := { s.writer with buf := f.1, counter := f.2 }
    fromCpu := { s.fromCpu with buffers := buffers, metadata := metadata }
    stats := { s.stats with
      numTxBufs := s.stats.numTxBufs + 1
      numTxBytes := s.stats.numTxBytes + (metadata i.toNat).length.toNat }
    sent := s.sent ++ [readMem buffers (c.offset i) c.bufSize.toNat] }

/-- The buffer that ends the stream. -/
def fillLast (s : Test c) : Test c :=
  let i := s.writer.bufIdx.toNat
  { s with
    fromCpu := { s.fromCpu with
      metadata := Function.update s.fromCpu.metadata i
        { s.fromCpu.metadata i with length := 0 } } }

/-- A step of `doWrite`, with what `time` returns in it. -/
def doWrite (s : Test c) (now : Int) : Test c :=
  match s.writer.pc with
  | .start =>
    { s with
      stats := { s.stats with
        numTxBufs := 0, numTxBytes := 0, txStart := now, txBufferTimeoutHit := false }
      writer := { s.writer with pc := .top } }
  | .top => { s with writer := { s.writer with bufferTimeoutStart := now, pc := .waiting } }
  | .waiting =>
    if s.fromCpu.flags s.writer.bufIdx.toNat = 0 then
      if elapsed s.writer.bufferTimeoutStart now > c.timeOut then
        { s with
          stats := { s.stats with txBufferTimeoutHit := true }
          writer := { s.writer with pc := .exited } }
      else s
    else { s with writer := { s.writer with pc := .ready } }
  | .ready =>
    if elapsed s.stats.txStart now < c.runTime then s.fillNext.handOver true
    else s.fillLast.handOver false
  | .exited => s

/-- The reader's own buffer after its `memcpy`. -/
def copied (s : Test c) (nwrite : UInt32) : Nat → UInt8 :=
  memcpy s.reader.buf 0 (fun a => s.toCpu.buffers (c.offset s.reader.bufIdx + a)) nwrite.toNat

/-- `memcpy` and `validate_buffer` on a buffer of `nwrite` bytes. -/
def take (s : Test c) (nwrite : UInt32) : Test c :=
  let buf := s.copied nwrite
  let v := validateBuffer buf nwrite s.reader.counter
  { s with
    reader := { s.reader with buf := buf, counter := v.2 }
    stats := { s.stats with
      numRxBufErrors := s.stats.numRxBufErrors + v.1.toNat
      numRxBufs := s.stats.numRxBufs + 1
      numRxBytes := s.stats.numRxBytes + nwrite.toNat }
    received := s.received ++ [readMem buf 0 nwrite.toNat] }

/-- A step of `doRead`. -/
def doRead (s : Test c) (now : Int) : Test c :=
  match s.reader.pc with
  | .start =>
    { s with
      stats := { s.stats with
        numRxBufs := 0, numRxBytes := 0, numRxBufErrors := 0, rxGenTimeoutHit := false,
        rxBufferTimeoutHit := false }
      reader := { s.reader with genTimeoutStart := now, pc := .top } }
  | .top =>
    if elapsed s.reader.genTimeoutStart now > c.runTime + c.timeOut then
      { s with
        stats := { s.stats with rxGenTimeoutHit := true }
        reader := { s.reader with pc := .exited } }
    else { s with reader := { s.reader with pc := .arm } }
  | .arm => { s with reader := { s.reader with bufferTimeoutStart := now, pc := .waiting } }
  | .waiting =>
    if s.toCpu.flags s.reader.bufIdx.toNat = 0 then
      if elapsed s.reader.bufferTimeoutStart now > c.timeOut then
        { s with
          stats := { s.stats with rxBufferTimeoutHit := true }
          reader := { s.reader with pc := .exited } }
      else s
    else { s with reader := { s.reader with pc := .full } }
  | .full =>
    { s with
      reader := { s.reader with pc := .copy (s.toCpu.metadata s.reader.bufIdx.toNat).length } }
  | .copy nwrite =>
    let s := if nwrite ≠ 0 then s.take nwrite else s
    { s with reader := { s.reader with pc := .release nwrite } }
  | .release nwrite =>
    { s with
      toCpu := { s.toCpu with flags := Function.update s.toCpu.flags s.reader.bufIdx.toNat 0 }
      toDoorbell := s.toDoorbell + 1
      reader := { s.reader with
        bufIdx := c.nextIdx s.reader.bufIdx
        pc := if nwrite ≠ 0 then .top else .exited } }
  | .exited => s

end Test

/-- Who moves next: a thread, at the time it reads from the clock, or the device. -/
inductive TestEvent (c : Args) where
  | writer (now : Int)
  | reader (now : Int)
  -- The device writes the receive stream and returns transmit buffers.
  | device (toCpu : ToCpu c.bufSize) (fromFlags : Nat → UInt32)

namespace Test

variable {c : Args}

/-- One move. -/
def step (s : Test c) : TestEvent c → Test c
  | .writer now => s.doWrite now
  | .reader now => s.doRead now
  | .device toCpu fromFlags =>
    { s with toCpu := toCpu, fromCpu := { s.fromCpu with flags := fromFlags } }

/-- When the threads are created: `tStats` and the two static counters are zero, and the memory of the
streams and of `malloc` is what it is. -/
def init (fromCpu : DmaRegion) (toCpu : ToCpu c.bufSize) (wbuf rbuf : Nat → UInt8) : Test c where
  stats := ⟨0, 0, 0, 0, 0, 0, false, false, false⟩
  writer := ⟨.start, 0, wbuf, 0, 0⟩
  reader := ⟨.start, 0, rbuf, 0, 0, 0⟩
  fromCpu := fromCpu
  toCpu := toCpu
  fromDoorbell := 0
  toDoorbell := 0
  sent := []
  received := []

end Test

/-- The condition under which `main` prints `FAIL`. -/
def TestStats.fails (t : TestStats) : Bool :=
  decide (t.numRxBufErrors > 0) || decide (t.numTxBufs ≠ t.numRxBufs)
    || decide (t.numTxBytes ≠ t.numRxBytes) || t.txBufferTimeoutHit || t.rxBufferTimeoutHit
    || t.rxGenTimeoutHit

/-- Both threads have been joined and `main` prints `PASS`. -/
def Test.passes {c : Args} (s : Test c) : Bool :=
  s.writer.pc == .exited && s.reader.pc == .exited && !s.stats.fails

/-! ## The stream both threads count along

Both counters start at zero and count the same words, so each direction is a prefix of one stream of
bytes. Payloads that are full leave both at the same place, and that is what the invariants of the
two threads say. -/

/-- The first `n` bytes of the counter that starts at zero. -/
def counterBytes (n : Nat) : List UInt8 :=
  (List.range n).map (counterByte 0)

/-- A payload that starts on a word boundary of the stream. -/
theorem counterByte_add {m : Nat} (hm : 4 ∣ m) (a : Nat) :
    counterByte 0 (m + a) = counterByte (UInt32.ofNat (m / 4)) a := by
  obtain ⟨k, rfl⟩ := hm
  have hdiv : (4 * k + a) / 4 = k + a / 4 := by omega
  have hmod : (4 * k + a) % 4 = a % 4 := by omega
  have hk : 4 * k / 4 = k := by omega
  rw [counterByte, counterByte, hdiv, hmod, hk, UInt32.ofNat_add, UInt32.zero_add]

/-- One more payload of the stream. -/
theorem counterBytes_append {m size : Nat} (hm : 4 ∣ m) {mem : Nat → UInt8} {off : Nat}
    (h : ∀ a < size, mem (off + a) = counterByte (UInt32.ofNat (m / 4)) a) :
    counterBytes (m + size) = counterBytes m ++ readMem mem off size := by
  have htail : readMem mem off size = (List.range size).map fun a => counterByte 0 (m + a) := by
    unfold readMem
    apply List.map_congr_left
    intro a ha
    rw [h a (List.mem_range.mp ha), counterByte_add hm]
  rw [htail, counterBytes, List.range_add, List.map_append, List.map_map]
  rfl

/-- After `n` full buffers. -/
theorem ofNat_words_succ {size : Nat} (n : Nat) :
    UInt32.ofNat (n * (size / 4)) + UInt32.ofNat (size / 4) = UInt32.ofNat ((n + 1) * (size / 4)) := by
  rw [← UInt32.ofNat_add, Nat.succ_mul]

/-- Whole words in `n` buffers are `n` times the words of one. -/
theorem words_of_dvd {size : Nat} (h : 4 ∣ size) (n : Nat) : n * size / 4 = n * (size / 4) :=
  Nat.mul_div_assoc n h

namespace Test

variable {c : Args}

/-- What the writer has counted and sent. -/
structure WriterInv (s : Test c) : Prop where
  bufs : s.stats.numTxBufs = s.sent.length
  bytes : s.stats.numTxBytes = s.sent.length * c.bufSize.toNat
  stream : s.sent.flatten = counterBytes (s.sent.length * c.bufSize.toNat)
  counter : s.writer.counter = UInt32.ofNat (s.sent.length * (c.bufSize.toNat / 4))
  fresh : s.writer.pc = .start → s.sent = []

/-- What the reader has counted and taken. The check ties the payloads to the stream only when they
are full, as it drops the bytes behind the last whole word. -/
structure ReaderInv (s : Test c) : Prop where
  bufs : s.stats.numRxBufs = s.received.length
  bytes : s.stats.numRxBytes = (s.received.map List.length).sum
  short : ∀ p ∈ s.received, p.length ≤ c.bufSize.toNat
  stream : s.stats.numRxBufErrors = 0 → (∀ p ∈ s.received, p.length = c.bufSize.toNat) →
    s.received.flatten = counterBytes (s.received.length * c.bufSize.toNat)
      ∧ s.reader.counter = UInt32.ofNat (s.received.length * (c.bufSize.toNat / 4))
  fresh : s.reader.pc = .start → s.received = [] ∧ s.reader.counter = 0
  nwrite : ∀ n, s.reader.pc = .copy n → n ≤ c.bufSize

/-! ### The threads share nothing

The statistics are one structure, but each thread writes its own fields, so that a step of one
leaves the invariant of the other. -/

theorem doRead_frame (s : Test c) (now : Int) :
    (s.doRead now).writer = s.writer ∧ (s.doRead now).sent = s.sent
      ∧ (s.doRead now).stats.numTxBufs = s.stats.numTxBufs
      ∧ (s.doRead now).stats.numTxBytes = s.stats.numTxBytes := by
  cases hpc : s.reader.pc with
  | start => simp [doRead, hpc]
  | top => simp only [doRead, hpc]; split <;> simp
  | arm => simp [doRead, hpc]
  | waiting => simp only [doRead, hpc]; split <;> [split; skip] <;> simp
  | full => simp [doRead, hpc]
  | copy n => simp only [doRead, hpc]; split <;> simp [take]
  | release n => simp [doRead, hpc]
  | exited => simp [doRead, hpc]

theorem doWrite_frame (s : Test c) (now : Int) :
    (s.doWrite now).reader = s.reader ∧ (s.doWrite now).received = s.received
      ∧ (s.doWrite now).stats.numRxBufs = s.stats.numRxBufs
      ∧ (s.doWrite now).stats.numRxBytes = s.stats.numRxBytes
      ∧ (s.doWrite now).stats.numRxBufErrors = s.stats.numRxBufErrors := by
  cases hpc : s.writer.pc with
  | start => simp [doWrite, hpc]
  | top => simp [doWrite, hpc]
  | waiting => simp only [doWrite, hpc]; split <;> [split; skip] <;> simp
  | ready => simp only [doWrite, hpc]; split <;> simp [handOver, fillNext, fillLast]
  | exited => simp [doWrite, hpc]

/-- The writer's invariant depends on its own fields alone. -/
theorem WriterInv.of_same {s s' : Test c} (h : WriterInv s)
    (hbufs : s'.stats.numTxBufs = s.stats.numTxBufs)
    (hbytes : s'.stats.numTxBytes = s.stats.numTxBytes) (hsent : s'.sent = s.sent)
    (hcounter : s'.writer.counter = s.writer.counter)
    (hpc : s'.writer.pc = .start → s.writer.pc = .start) : WriterInv s' where
  bufs := by rw [hbufs, hsent, h.bufs]
  bytes := by rw [hbytes, hsent, h.bytes]
  stream := by rw [hsent, h.stream]
  counter := by rw [hcounter, hsent, h.counter]
  fresh hst := by rw [hsent, h.fresh (hpc hst)]

theorem ReaderInv.of_same {s s' : Test c} (h : ReaderInv s)
    (hbufs : s'.stats.numRxBufs = s.stats.numRxBufs)
    (hbytes : s'.stats.numRxBytes = s.stats.numRxBytes)
    (herrors : s'.stats.numRxBufErrors = s.stats.numRxBufErrors)
    (hreceived : s'.received = s.received) (hcounter : s'.reader.counter = s.reader.counter)
    (hpc : s'.reader.pc = .start → s.reader.pc = .start)
    (hn : ∀ n, s'.reader.pc = .copy n → n ≤ c.bufSize) : ReaderInv s' where
  bufs := by rw [hbufs, hreceived, h.bufs]
  bytes := by rw [hbytes, hreceived, h.bytes]
  short := by rw [hreceived]; exact h.short
  stream := by rw [herrors, hreceived, hcounter]; exact h.stream
  fresh hst := by rw [hreceived, hcounter]; exact h.fresh (hpc hst)
  nwrite := hn

/-- A full buffer goes out: the next words of the stream. -/
theorem WriterInv.fillNext {s : Test c} (hwords : 4 ∣ c.bufSize.toNat) (h : WriterInv s)
    (hpc : s.writer.pc = .ready) : WriterInv s.fillNext := by
  obtain ⟨k, hk⟩ := hwords
  have hcount : c.bufSize.toNat / 4 = k := by omega
  obtain ⟨hcounter, hbytes⟩ :=
    fillWords_spec s.writer.buf s.writer.counter (c.bufSize.toNat / 4)
  have hdvd : 4 ∣ s.sent.length * c.bufSize.toNat := by rw [hk]; exact ⟨_, Nat.mul_left_comm ..⟩
  have hstart : s.writer.counter = UInt32.ofNat (s.sent.length * c.bufSize.toNat / 4) := by
    rw [words_of_dvd ⟨k, hk⟩, h.counter]
  refine ⟨?_, ?_, ?_, ?_, ?_⟩
  · simp [Test.fillNext, h.bufs]
  · simp [Test.fillNext, h.bytes, Nat.succ_mul]
  · have hpayload : ∀ a < c.bufSize.toNat,
        (fillBuffer s.writer.buf c.bufSize s.writer.counter).1 (0 + a)
          = counterByte (UInt32.ofNat (s.sent.length * c.bufSize.toNat / 4)) a := by
      intro a ha
      rw [Nat.zero_add, ← hstart]
      exact hbytes a (by omega)
    have hnext := counterBytes_append hdvd hpayload
    show (s.sent ++ [readMem (memcpy _ _ _ _) _ _]).flatten
      = counterBytes ((s.sent ++ [_]).length * _)
    rw [readMem_memcpy_self _ _ _ (Nat.le_refl _), List.flatten_append, h.stream,
      List.length_append, List.length_singleton, Nat.succ_mul, hnext]
    simp
  · show (fillBuffer s.writer.buf c.bufSize s.writer.counter).2
      = UInt32.ofNat ((s.sent ++ [_]).length * _)
    rw [List.length_append, List.length_singleton, ← ofNat_words_succ, ← h.counter]
    exact hcounter
  · intro hst
    have : s.writer.pc = .start := hst
    rw [hpc] at this
    cases this

/-- A step of the writer keeps its invariant. -/
theorem writerInv_doWrite {s : Test c} (hwords : 4 ∣ c.bufSize.toNat) (h : WriterInv s)
    (now : Int) : WriterInv (s.doWrite now) := by
  cases hpc : s.writer.pc with
  | start =>
    have hsent := h.fresh hpc
    have hcounter := h.counter
    simp only [doWrite, hpc]
    refine ⟨?_, ?_, ?_, hcounter, ?_⟩
    · simp [hsent]
    · simp [hsent]
    · simp [hsent, counterBytes]
    · simp [hsent]
  | top =>
    simp only [doWrite, hpc]
    exact h.of_same rfl rfl rfl rfl (by simp)
  | waiting =>
    simp only [doWrite, hpc]
    split
    · split
      · exact h.of_same rfl rfl rfl rfl (by simp)
      · exact h
    · exact h.of_same rfl rfl rfl rfl (by simp)
  | ready =>
    simp only [doWrite, hpc]
    split
    · exact (h.fillNext hwords hpc).of_same rfl rfl rfl rfl (by simp [handOver])
    · exact h.of_same rfl rfl rfl rfl (by simp [handOver])
  | exited =>
    simp only [doWrite, hpc]
    exact h

/-- A payload is taken and checked. -/
theorem ReaderInv.take {s : Test c} (hwords : 4 ∣ c.bufSize.toNat) (h : ReaderInv s)
    {nwrite : UInt32} (hpc : s.reader.pc = .copy nwrite) : ReaderInv (s.take nwrite) := by
  have hlen : nwrite.toNat ≤ c.bufSize.toNat := h.nwrite nwrite hpc
  refine ⟨?_, ?_, ?_, ?_, ?_, h.nwrite⟩
  · simp [Test.take, h.bufs]
  · simp [Test.take, h.bytes]
  · intro p hp
    rcases List.mem_append.mp hp with hold | hnew
    · exact h.short p hold
    · rw [List.mem_singleton.mp hnew, length_readMem]
      exact hlen
  · intro herrors hfull
    -- no mismatch in this buffer nor before, and this buffer is full
    obtain ⟨hbefore, hnow⟩ : s.stats.numRxBufErrors = 0
        ∧ (validateBuffer (s.copied nwrite) nwrite s.reader.counter).1 = false := by
      simpa [Test.take] using herrors
    have hsize : nwrite.toNat = c.bufSize.toNat := by
      have := hfull _ (List.mem_append_right _ (List.mem_singleton_self _))
      rwa [length_readMem] at this
    obtain ⟨hflat, hcounter⟩ :=
      h.stream hbefore fun p hp => hfull p (List.mem_append_left _ hp)
    obtain ⟨hnext, hbytes⟩ := validateWords_spec hnow
    have hdvd : 4 ∣ s.received.length * c.bufSize.toNat := Dvd.dvd.mul_left hwords _
    have hpayload : ∀ a < nwrite.toNat, s.copied nwrite (0 + a)
        = counterByte (UInt32.ofNat (s.received.length * c.bufSize.toNat / 4)) a := by
      intro a ha
      rw [Nat.zero_add, words_of_dvd hwords, ← hcounter]
      exact hbytes a (by omega)
    have happend := counterBytes_append hdvd hpayload
    constructor
    · show (s.received ++ [readMem _ _ _]).flatten = counterBytes ((s.received ++ [_]).length * _)
      rw [List.flatten_append, hflat, List.length_append, List.length_singleton, Nat.succ_mul]
      rw [hsize] at happend
      rw [happend, hsize]
      simp
    · show (validateBuffer _ nwrite s.reader.counter).2
        = UInt32.ofNat ((s.received ++ [_]).length * _)
      rw [List.length_append, List.length_singleton, ← ofNat_words_succ, ← hcounter, ← hsize]
      exact hnext
  · intro hst
    have : s.reader.pc = .start := hst
    rw [hpc] at this
    cases this

/-- A step of the reader keeps its invariant. -/
theorem readerInv_doRead {s : Test c} (hwords : 4 ∣ c.bufSize.toNat) (h : ReaderInv s)
    (now : Int) : ReaderInv (s.doRead now) := by
  cases hpc : s.reader.pc with
  | start =>
    obtain ⟨hreceived, hcounter⟩ := h.fresh hpc
    simp only [doRead, hpc]
    refine ⟨?_, ?_, ?_, ?_, ?_, ?_⟩
    · simp [hreceived]
    · simp [hreceived]
    · simp [hreceived]
    · simp [hreceived, hcounter, counterBytes]
    · simp
    · simp
  | top =>
    simp only [doRead, hpc]
    split <;> exact h.of_same rfl rfl rfl rfl rfl (by simp) (by simp)
  | arm =>
    simp only [doRead, hpc]
    exact h.of_same rfl rfl rfl rfl rfl (by simp) (by simp)
  | waiting =>
    simp only [doRead, hpc]
    split
    · split
      · exact h.of_same rfl rfl rfl rfl rfl (by simp) (by simp)
      · exact h
    · exact h.of_same rfl rfl rfl rfl rfl (by simp) (by simp)
  | full =>
    simp only [doRead, hpc]
    refine h.of_same rfl rfl rfl rfl rfl (by simp) ?_
    intro n hn
    injection hn with hn
    rw [← hn]
    exact s.toCpu.length_le _
  | copy nwrite =>
    simp only [doRead, hpc]
    split
    · exact (h.take hwords hpc).of_same rfl rfl rfl rfl rfl (by simp) (by simp)
    · exact h.of_same rfl rfl rfl rfl rfl (by simp) (by simp)
  | release nwrite =>
    simp only [doRead, hpc]
    refine h.of_same rfl rfl rfl rfl rfl ?_ ?_
    · split <;> simp
    · split <;> simp
  | exited =>
    simp only [doRead, hpc]
    exact h

/-- **One step of either thread, or of the device.** -/
theorem inv_step (hwords : 4 ∣ c.bufSize.toNat) (s : Test c) (e : TestEvent c)
    (h : WriterInv s ∧ ReaderInv s) : WriterInv (s.step e) ∧ ReaderInv (s.step e) := by
  obtain ⟨hw, hr⟩ := h
  cases e with
  | writer now =>
    obtain ⟨hreader, hreceived, hbufs, hbytes, herrors⟩ := doWrite_frame s now
    refine ⟨writerInv_doWrite hwords hw now, ?_⟩
    refine hr.of_same hbufs hbytes herrors hreceived (congrArg _ hreader) ?_ ?_
    · exact fun hst => (congrArg _ hreader).symm.trans hst
    · exact fun n hn => hr.nwrite n ((congrArg _ hreader).symm.trans hn)
  | reader now =>
    obtain ⟨hwriter, hsent, hbufs, hbytes⟩ := doRead_frame s now
    refine ⟨?_, readerInv_doRead hwords hr now⟩
    exact hw.of_same hbufs hbytes hsent (congrArg _ hwriter)
      fun hst => (congrArg _ hwriter).symm.trans hst
  | device toCpu fromFlags =>
    exact ⟨hw.of_same rfl rfl rfl rfl id, hr.of_same rfl rfl rfl rfl rfl id hr.nwrite⟩

theorem inv_init (fromCpu : DmaRegion) (toCpu : ToCpu c.bufSize) (wbuf rbuf : Nat → UInt8) :
    WriterInv (init fromCpu toCpu wbuf rbuf) ∧ ReaderInv (init fromCpu toCpu wbuf rbuf) := by
  constructor
  · exact ⟨rfl, by simp [init], by simp [init, counterBytes], by simp [init], fun _ => rfl⟩
  · exact ⟨rfl, rfl, by simp [init], by simp [init, counterBytes], fun _ => ⟨rfl, rfl⟩,
      by simp [init]⟩

end Test

/-- Payloads that are never longer than a buffer, and as long as that on the whole, are all full. -/
theorem length_eq_of_sum {size : Nat} {ps : List (List UInt8)} (hle : ∀ p ∈ ps, p.length ≤ size)
    (hsum : (ps.map List.length).sum = ps.length * size) : ∀ p ∈ ps, p.length = size := by
  induction ps with
  | nil => simp
  | cons p ps ih =>
    have hp : p.length ≤ size := hle p (List.mem_cons_self ..)
    have hrest : ∀ q ∈ ps, q.length ≤ size := fun q hq => hle q (List.mem_cons_of_mem p hq)
    have hbound : (ps.map List.length).sum ≤ ps.length * size := by
      have := List.sum_le_card_nsmul (ps.map List.length) size (by simpa using hrest)
      simpa using this
    simp only [List.map_cons, List.sum_cons, List.length_cons, Nat.succ_mul] at hsum
    intro q hq
    rcases List.mem_cons.mp hq with rfl | hq
    · omega
    · exact ih hrest (by omega) q hq

/-- The argument behind the verdict: no error and equal totals leave no room for a short or a wrong
payload. -/
theorem Test.received_eq_sent {c : Args} {s : Test c} (hw : WriterInv s) (hr : ReaderInv s)
    (herrors : s.stats.numRxBufErrors = 0) (hbufs : s.stats.numTxBufs = s.stats.numRxBufs)
    (hbytes : s.stats.numTxBytes = s.stats.numRxBytes) :
    s.received.flatten = s.sent.flatten := by
  have hlength : s.received.length = s.sent.length := by rw [← hr.bufs, ← hbufs, hw.bufs]
  have hsum : (s.received.map List.length).sum = s.received.length * c.bufSize.toNat := by
    rw [← hr.bytes, ← hbytes, hw.bytes, hlength]
  have hfull := length_eq_of_sum hr.short hsum
  obtain ⟨hflat, -⟩ := hr.stream herrors hfull
  rw [hflat, hw.stream, hlength]

/-- **`PASS` means the data came back intact**, whatever the device does on the receive stream. -/
theorem received_eq_sent_of_passes (c : Args) (hwords : 4 ∣ c.bufSize.toNat) (fromCpu : DmaRegion)
    (toCpu : ToCpu c.bufSize) (wbuf rbuf : Nat → UInt8) (es : List (TestEvent c))
    (hpass : (run Test.step (Test.init fromCpu toCpu wbuf rbuf) es).passes = true) :
    (run Test.step (Test.init fromCpu toCpu wbuf rbuf) es).received.flatten
      = (run Test.step (Test.init fromCpu toCpu wbuf rbuf) es).sent.flatten := by
  obtain ⟨hw, hr⟩ := run_invariant_of_step (Test.inv_step hwords)
    (Test.inv_init fromCpu toCpu wbuf rbuf) es
  generalize run Test.step (Test.init fromCpu toCpu wbuf rbuf) es = s at *
  simp only [Test.passes, TestStats.fails, Bool.and_eq_true, Bool.not_eq_true', Bool.or_eq_false_iff,
    decide_eq_false_iff_not, not_not] at hpass
  obtain ⟨-, ⟨⟨⟨⟨herrors, hbufs⟩, hbytes⟩, -⟩, -⟩, -⟩ := hpass
  exact Test.received_eq_sent hw hr (by omega) hbufs hbytes

/-- One buffer of eight bytes on each side, a second to run and one to wait. -/
def smallArgs : Args := ⟨8, 1, 1, 1⟩

/-- A region of zeros with every buffer free. -/
def emptyRegion : DmaRegion := ⟨fun _ => 0, fun _ => ⟨0, 0, 0, 0⟩, fun _ => 1⟩

/-- The receive stream with a buffer of the given length in every slot, holding the words 0, 1, …. -/
def echo (length : UInt32) (h : length ≤ smallArgs.bufSize) : ToCpu smallArgs.bufSize where
  buffers := counterByte 0
  metadata _ := ⟨length, 0, 0, 0⟩
  flags _ := 1
  length_le _ := h

/-- One buffer goes out and comes back, then the empty one. -/
def smallRun : List (TestEvent smallArgs) :=
  [.writer 0, .reader 0, .writer 0, .writer 0, .writer 0, .reader 0, .reader 0, .reader 0, .reader 0,
    .reader 0, .reader 0, .device (echo 0 (by decide)) (fun _ => 1), .writer 1, .writer 1, .writer 1,
    .reader 1, .reader 1, .reader 1, .reader 1, .reader 1, .reader 1]

/-- A buffer of two words goes out, comes back, and the test passes. -/
theorem received_eq_sent_smallRun :
    (run Test.step (Test.init emptyRegion (echo 8 (by decide)) (fun _ => 0) fun _ => 0)
      smallRun).passes = true
    ∧ (run Test.step (Test.init emptyRegion (echo 8 (by decide)) (fun _ => 0) fun _ => 0)
      smallRun).sent = [[0, 0, 0, 0, 1, 0, 0, 0]]
    ∧ (run Test.step (Test.init emptyRegion (echo 8 (by decide)) (fun _ => 0) fun _ => 0)
      smallRun).received.flatten
      = (run Test.step (Test.init emptyRegion (echo 8 (by decide)) (fun _ => 0) fun _ => 0)
      smallRun).sent.flatten :=
  ⟨by decide +kernel, by decide +kernel,
    received_eq_sent_of_passes smallArgs (by decide) emptyRegion (echo 8 (by decide)) (fun _ => 0)
      (fun _ => 0) smallRun (by decide +kernel)⟩

/-! ## The statistics in 64 bits

`tStats` has `uint64_t` counters. They run beside the test and are the naturals modulo `2 ^ 64`
whatever happens (`counters64_run`); the verdict needs them to be the numbers themselves, and that is
where the bound comes in. -/

/-- The counters of `struct testStats`. -/
structure Counters64 where
  numTxBufs : UInt64
  numTxBytes : UInt64
  numRxBufs : UInt64
  numRxBytes : UInt64
  numRxBufErrors : UInt64
deriving DecidableEq, Repr

/-- The naturals as the source keeps them. -/
def TestStats.in64 (t : TestStats) : Counters64 where
  numTxBufs := UInt64.ofNat t.numTxBufs
  numTxBytes := UInt64.ofNat t.numTxBytes
  numRxBufs := UInt64.ofNat t.numRxBufs
  numRxBytes := UInt64.ofNat t.numRxBytes
  numRxBufErrors := UInt64.ofNat t.numRxBufErrors

namespace Counters64

variable {c : Args}

/-- What `doWrite` does to its two counters. -/
def doWrite (k : Counters64) (s : Test c) (now : Int) : Counters64 :=
  match s.writer.pc with
  | .start => { k with numTxBufs := 0, numTxBytes := 0 }
  | .ready =>
    if elapsed s.stats.txStart now < c.runTime then
      { k with
        numTxBufs := k.numTxBufs + 1
        numTxBytes := k.numTxBytes + c.bufSize.toUInt64 }
    else k
  | _ => k

/-- What `doRead` does to its three. -/
def doRead (k : Counters64) (s : Test c) : Counters64 :=
  match s.reader.pc with
  | .start => { k with numRxBufs := 0, numRxBytes := 0, numRxBufErrors := 0 }
  | .copy nwrite =>
    if nwrite ≠ 0 then
      { k with
        numRxBufErrors := k.numRxBufErrors
          + (validateBuffer (s.copied nwrite) nwrite s.reader.counter).1.toUInt64
        numRxBufs := k.numRxBufs + 1
        numRxBytes := k.numRxBytes + nwrite.toUInt64 }
    else k
  | _ => k

/-- What a move does to the counters. -/
def step (k : Counters64) (s : Test c) : TestEvent c → Counters64
  | .writer now => k.doWrite s now
  | .reader _ => k.doRead s
  | .device _ _ => k

end Counters64

/-- The test with the counters of the source. -/
structure Test64 (c : Args) where
  test : Test c
  counters : Counters64

namespace Test64

variable {c : Args}

/-- One move, with the counters beside it. -/
def step (s : Test64 c) (e : TestEvent c) : Test64 c :=
  ⟨s.test.step e, s.counters.step s.test e⟩

/-- When the threads are created, the counters are zero. -/
def init (fromCpu : DmaRegion) (toCpu : ToCpu c.bufSize) (wbuf rbuf : Nat → UInt8) : Test64 c :=
  ⟨.init fromCpu toCpu wbuf rbuf, ⟨0, 0, 0, 0, 0⟩⟩

/-- `main` prints `PASS`, from the counters of the source. -/
def passes (s : Test64 c) : Bool :=
  s.test.writer.pc == .exited && s.test.reader.pc == .exited
    && !(decide (s.counters.numRxBufErrors > 0)
      || decide (s.counters.numTxBufs ≠ s.counters.numRxBufs)
      || decide (s.counters.numTxBytes ≠ s.counters.numRxBytes)
      || s.test.stats.txBufferTimeoutHit || s.test.stats.rxBufferTimeoutHit
      || s.test.stats.rxGenTimeoutHit)

theorem test_run (s : Test64 c) (es : List (TestEvent c)) :
    (run step s es).test = run Test.step s.test es := by
  induction es generalizing s with
  | nil => rfl
  | cons e es ih => exact ih (s.step e)

end Test64

namespace Test

variable {c : Args}

/-- The writer counts in 64 bits as it counts in naturals, reduced. -/
theorem in64_doWrite (s : Test c) (now : Int) :
    (s.doWrite now).stats.in64 = s.stats.in64.doWrite s now := by
  cases hpc : s.writer.pc with
  | start => simp [doWrite, Counters64.doWrite, hpc, TestStats.in64]
  | top => simp [doWrite, Counters64.doWrite, hpc, TestStats.in64]
  | waiting =>
    simp only [doWrite, Counters64.doWrite, hpc]
    split <;> [split; skip] <;> rfl
  | ready =>
    simp only [doWrite, Counters64.doWrite, hpc]
    split
    · simp [handOver, fillNext, TestStats.in64, UInt64.ofNat_add]
    · rfl
  | exited => simp [doWrite, Counters64.doWrite, hpc]

theorem in64_doRead (s : Test c) (now : Int) :
    (s.doRead now).stats.in64 = s.stats.in64.doRead s := by
  cases hpc : s.reader.pc with
  | start => simp [doRead, Counters64.doRead, hpc, TestStats.in64]
  | top => simp only [doRead, Counters64.doRead, hpc]; split <;> rfl
  | arm => simp [doRead, Counters64.doRead, hpc]
  | waiting =>
    simp only [doRead, Counters64.doRead, hpc]
    split <;> [split; skip] <;> rfl
  | full => simp [doRead, Counters64.doRead, hpc]
  | copy nwrite =>
    simp only [doRead, Counters64.doRead, hpc]
    split
    · have hbool : ∀ b : Bool, UInt64.ofNat b.toNat = b.toUInt64 := by decide
      simp [take, TestStats.in64, UInt64.ofNat_add, hbool]
    · rfl
  | release nwrite => simp [doRead, Counters64.doRead, hpc]
  | exited => simp [doRead, Counters64.doRead, hpc]

/-- The 64-bit counters take the step that the naturals take. -/
theorem in64_step (s : Test c) (e : TestEvent c) :
    (s.step e).stats.in64 = s.stats.in64.step s e := by
  cases e with
  | writer now => exact in64_doWrite s now
  | reader now => exact in64_doRead s now
  | device toCpu fromFlags => rfl

end Test

/-- **The counters of the source** are the naturals modulo `2 ^ 64` in every run. -/
theorem counters64_run {c : Args} (fromCpu : DmaRegion) (toCpu : ToCpu c.bufSize)
    (wbuf rbuf : Nat → UInt8) (es : List (TestEvent c)) :
    (run Test64.step (Test64.init fromCpu toCpu wbuf rbuf) es).counters
      = (run Test.step (Test.init fromCpu toCpu wbuf rbuf) es).stats.in64 := by
  have hstep : ∀ (s : Test64 c) e, s.counters = s.test.stats.in64 →
      (s.step e).counters = (s.step e).test.stats.in64 := by
    intro s e h
    rw [Test64.step, Test.in64_step, h]
  have hrun := run_invariant_of_step hstep (s := Test64.init fromCpu toCpu wbuf rbuf) rfl es
  rwa [Test64.test_run] at hrun

/-- **The bound.** Fewer than `2 ^ 64` bytes have gone out and come in. -/
structure Test.BytesFit {c : Args} (s : Test c) : Prop where
  sent : s.sent.flatten.length < 2 ^ 64
  received : s.received.flatten.length < 2 ^ 64

/-- An error is counted for a buffer, and a buffer has a byte at least. -/
structure Test.CountInv {c : Args} (s : Test c) : Prop where
  errors : s.stats.numRxBufErrors ≤ s.received.length
  nonempty : ∀ p ∈ s.received, 0 < p.length

namespace Test

variable {c : Args}

/-- The invariant depends on the errors counted and the buffers taken. -/
theorem CountInv.of_same {s s' : Test c} (h : CountInv s)
    (herrors : s'.stats.numRxBufErrors = s.stats.numRxBufErrors)
    (hreceived : s'.received = s.received) : CountInv s' :=
  ⟨by rw [herrors, hreceived]; exact h.errors, by rw [hreceived]; exact h.nonempty⟩

/-- A buffer that is taken has a byte, and is counted as one error at most. -/
theorem CountInv.take {s : Test c} (h : CountInv s) {nwrite : UInt32} (hn : nwrite ≠ 0) :
    CountInv (s.take nwrite) where
  errors := by
    have hone := Bool.toNat_le (validateBuffer (s.copied nwrite) nwrite s.reader.counter).1
    have := h.errors
    simp only [Test.take, List.length_append, List.length_singleton]
    omega
  nonempty p hp := by
    rcases List.mem_append.mp hp with hold | hnew
    · exact h.nonempty p hold
    · rw [List.mem_singleton.mp hnew, length_readMem]
      exact Nat.pos_of_ne_zero fun h0 => hn (UInt32.toNat_inj.mp h0)

theorem countInv_step (s : Test c) (e : TestEvent c) (h : CountInv s) : CountInv (s.step e) := by
  cases e with
  | writer now =>
    obtain ⟨-, hreceived, -, -, herrors⟩ := doWrite_frame s now
    exact h.of_same herrors hreceived
  | device toCpu fromFlags => exact h.of_same rfl rfl
  | reader now =>
    simp only [step]
    cases hpc : s.reader.pc with
    | start =>
      simp only [doRead, hpc]
      exact ⟨Nat.zero_le _, h.nonempty⟩
    | top => simp only [doRead, hpc]; split <;> exact h.of_same rfl rfl
    | arm => simp only [doRead, hpc]; exact h.of_same rfl rfl
    | waiting =>
      simp only [doRead, hpc]
      split <;> [split; skip] <;> exact h.of_same rfl rfl
    | full => simp only [doRead, hpc]; exact h.of_same rfl rfl
    | copy nwrite =>
      simp only [doRead, hpc]
      split
      · next hn => exact (h.take hn).of_same rfl rfl
      · exact h.of_same rfl rfl
    | release nwrite => simp only [doRead, hpc]; exact h.of_same rfl rfl
    | exited => simp only [doRead, hpc]; exact h

end Test

/-- Payloads of a byte at least are not more than their bytes. -/
theorem length_le_flatten {ps : List (List UInt8)} (h : ∀ p ∈ ps, 0 < p.length) :
    ps.length ≤ ps.flatten.length := by
  have hone : ∀ n ∈ ps.map List.length, 1 ≤ n := by
    intro n hn
    obtain ⟨p, hp, rfl⟩ := List.mem_map.mp hn
    exact h p hp
  have hsum := List.card_nsmul_le_sum (ps.map List.length) 1 hone
  rw [List.length_flatten]
  simpa using hsum

/-- Numbers below `2 ^ 64` are told apart by their 64 bits. -/
theorem ofNat64_inj {m n : Nat} (hm : m < 2 ^ 64) (hn : n < 2 ^ 64)
    (h : UInt64.ofNat m = UInt64.ofNat n) : m = n := by
  have := congrArg UInt64.toNat h
  rwa [UInt64.toNat_ofNat_of_lt' hm, UInt64.toNat_ofNat_of_lt' hn] at this

/-- **The verdict that is printed.** With the statistics as the source keeps them, `PASS` means the
data came back intact, unless `2 ^ 64` bytes went through in one direction. -/
theorem received_eq_sent_of_passes64 (c : Args) (hpos : 0 < c.bufSize.toNat)
    (hwords : 4 ∣ c.bufSize.toNat) (fromCpu : DmaRegion) (toCpu : ToCpu c.bufSize)
    (wbuf rbuf : Nat → UInt8) (es : List (TestEvent c))
    (hfit : (run Test.step (Test.init fromCpu toCpu wbuf rbuf) es).BytesFit)
    (hpass : (run Test64.step (Test64.init fromCpu toCpu wbuf rbuf) es).passes = true) :
    (run Test.step (Test.init fromCpu toCpu wbuf rbuf) es).received.flatten
      = (run Test.step (Test.init fromCpu toCpu wbuf rbuf) es).sent.flatten := by
  obtain ⟨hw, hr⟩ := run_invariant_of_step (Test.inv_step hwords)
    (Test.inv_init fromCpu toCpu wbuf rbuf) es
  have hcount : Test.CountInv (run Test.step (Test.init fromCpu toCpu wbuf rbuf) es) :=
    run_invariant_of_step Test.countInv_step ⟨Nat.le_refl _, by simp [Test.init]⟩ es
  simp only [Test64.passes, counters64_run, Bool.and_eq_true, Bool.not_eq_true',
    Bool.or_eq_false_iff, decide_eq_false_iff_not, not_not] at hpass
  generalize run Test.step (Test.init fromCpu toCpu wbuf rbuf) es = s at *
  obtain ⟨-, ⟨⟨⟨⟨herrors, hbufs⟩, hbytes⟩, -⟩, -⟩, -⟩ := hpass
  -- every counter is at most the number of bytes that went its way
  have hrxBufs : s.received.length < 2 ^ 64 :=
    Nat.lt_of_le_of_lt (length_le_flatten hcount.nonempty) hfit.received
  have hrxBytes : s.stats.numRxBytes < 2 ^ 64 := by
    rw [hr.bytes, ← List.length_flatten]
    exact hfit.received
  have htxBytes : s.stats.numTxBytes < 2 ^ 64 := by
    have hlength := congrArg List.length hw.stream
    rw [counterBytes, List.length_map, List.length_range] at hlength
    rw [hw.bytes, ← hlength]
    exact hfit.sent
  have htxBufs : s.stats.numTxBufs < 2 ^ 64 := by
    refine Nat.lt_of_le_of_lt ?_ htxBytes
    rw [hw.bufs, hw.bytes]
    exact Nat.le_mul_of_pos_right _ hpos
  have hzero : s.stats.numRxBufErrors = 0 := by
    have hlt : s.stats.numRxBufErrors < 2 ^ 64 := Nat.lt_of_le_of_lt hcount.errors hrxBufs
    refine ofNat64_inj hlt (by decide) ?_
    exact UInt64.le_antisymm (UInt64.not_lt.mp herrors) UInt64.zero_le
  exact Test.received_eq_sent hw hr hzero (ofNat64_inj htxBufs (hr.bufs ▸ hrxBufs) hbufs)
    (ofNat64_inj htxBytes hrxBytes hbytes)

end Nf10.DmaTest
