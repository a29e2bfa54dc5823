import Mathlib.Data.List.Basic
import Mathlib.Logic.Function.Basic
import Nf10.Lib.CircularQueue

/-!
# Nf10 — DMA streams

`struct dma_stream` of `nf10_eth_driver_main.c`: a region of buffers, metadata and flags shared
with the device, a doorbell register, and the driver's own index into the region. Every ring
access of the driver is one of the small operations below, in the order the handler makes them.

Indices and byte offsets are naturals. `dma_cpu_bufs` never exceeds `DMA_CPU_BUFS`, so the
`uint32_t` products of the source stay below `2 ^ 32` (`toNat_slotOffset`).
-/

namespace Nf10

/-- Size of the buffer of one DMA transfer (`DMA_BUF_SIZE`). -/
def dmaBufSize : Nat := 2048

/-- Largest number of buffers on the CPU side (`DMA_CPU_BUFS`). -/
def dmaCpuBufsMax : Nat := 32768

/-- The offset of a slot as the source computes it, in 32 bits, is the product of the naturals. -/
theorem toNat_slotOffset {n i : Nat} (hn : n ≤ dmaCpuBufsMax) (hi : i < n) :
    (UInt32.ofNat i * UInt32.ofNat dmaBufSize).toNat = i * dmaBufSize := by
  unfold dmaCpuBufsMax at hn
  have hsize : i < UInt32.size := Nat.lt_trans (Nat.lt_of_lt_of_le hi hn) (by decide)
  rw [UInt32.toNat_mul, UInt32.toNat_ofNat_of_lt' hsize, UInt32.toNat_ofNat_of_lt' (by decide),
    dmaBufSize, Nat.mod_eq_of_lt (by omega)]

/-! ## Bytes in memory

Memory is a function from offsets to bytes. A message is the list of its bytes, and these are the
facts that take one to the other. -/

/-- `memcpy` of `len` bytes of `src` to the offset `off` of `dst`. -/
def memcpy (dst : Nat → UInt8) (off : Nat) (src : Nat → UInt8) (len : Nat) : Nat → UInt8 :=
  fun a => if off ≤ a ∧ a < off + len then src (a - off) else dst a

theorem memcpy_of_lt {dst src : Nat → UInt8} {off len a : Nat} (h : a < off) :
    memcpy dst off src len a = dst a :=
  if_neg (by omega)

theorem memcpy_of_ge {dst src : Nat → UInt8} {off len a : Nat} (h : off + len ≤ a) :
    memcpy dst off src len a = dst a :=
  if_neg (by omega)

theorem memcpy_add {dst src : Nat → UInt8} {off len i : Nat} (h : i < len) :
    memcpy dst off src len (off + i) = src i := by
  unfold memcpy
  rw [if_pos (by omega), Nat.add_sub_cancel_left]

/-- Only the bytes that are copied matter; what lies behind them in the source does not. -/
theorem memcpy_congr {dst src src' : Nat → UInt8} {off len : Nat} (h : ∀ k < len, src k = src' k) :
    memcpy dst off src len = memcpy dst off src' len := by
  funext a
  unfold memcpy
  split
  · exact h _ (by omega)
  · rfl

/-- The `len` bytes from `off` on, as a list: what a packet or a payload is as a value. -/
def readMem (mem : Nat → UInt8) (off len : Nat) : List UInt8 :=
  (List.range len).map fun i => mem (off + i)

@[simp] theorem length_readMem (mem : Nat → UInt8) (off len : Nat) :
    (readMem mem off len).length = len := by
  simp [readMem]

/-- Two stretches with the same bytes read the same. -/
theorem readMem_congr {mem mem' : Nat → UInt8} {off off' len : Nat}
    (h : ∀ i < len, mem (off + i) = mem' (off' + i)) :
    readMem mem off len = readMem mem' off' len := by
  unfold readMem
  apply List.map_congr_left
  intro i hi
  exact h i (List.mem_range.mp hi)

/-- The beginning of a stretch is a shorter stretch. -/
theorem take_readMem (mem : Nat → UInt8) (off len k : Nat) :
    (readMem mem off len).take k = readMem mem off (min k len) := by
  unfold readMem
  rw [← List.map_take, List.take_range]

theorem readMem_memcpy_self (dst src : Nat → UInt8) (off : Nat) {len k : Nat} (hk : k ≤ len) :
    readMem (memcpy dst off src len) off k = readMem src 0 k := by
  apply readMem_congr
  intro i hi
  simp only [memcpy]
  rw [if_pos (by omega), Nat.add_sub_cancel_left, Nat.zero_add]

/-- A copy into one slot is not seen by a read inside another. -/
theorem readMem_memcpy_slot (dst src : Nat → UInt8) {i j len k : Nat} (hij : i ≠ j)
    (hlen : len ≤ dmaBufSize) (hk : k ≤ dmaBufSize) :
    readMem (memcpy dst (i * dmaBufSize) src len) (j * dmaBufSize) k
      = readMem dst (j * dmaBufSize) k := by
  apply readMem_congr
  intro a ha
  simp only [memcpy]
  unfold dmaBufSize at *
  rw [if_neg]
  omega

/-! ## The stream

A region as the device and the driver share it, and the driver's side of the stream: the index and
the doorbell. Each handler is a sequence of the operations here. -/

/-- The metadata the driver and the device exchange for each buffer (`ocdp.h`). -/
structure OcdpMetadata where
  length : UInt32
  opCode : UInt32
  tag : UInt32
  interval : UInt32
deriving DecidableEq, Repr

/-- The memory a stream points to: the buffers as one byte range, metadata and flags by slot. -/
structure DmaRegion where
  buffers : Nat → UInt8
  metadata : Nat → OcdpMetadata
  flags : Nat → UInt32

/-- A unidirectional DMA stream. The doorbell is a device register; what the device sees of it
is how often it was written. -/
structure DmaStream extends DmaRegion where
  doorbell : Nat
  bufIndex : Nat

namespace DmaStream

/-- Copy `len` bytes into the buffer at `buf_index` and fill out its metadata. -/
def fill (s : DmaStream) (data : Nat → UInt8) (len opCode : UInt32) : DmaStream :=
  { s with
    buffers := memcpy s.buffers (s.bufIndex * dmaBufSize) data len.toNat
    metadata := Function.update s.metadata s.bufIndex
      { s.metadata s.bufIndex with length := len, opCode := opCode } }

/-- A store to one flag. -/
def setFlag (s : DmaStream) (i : Nat) (v : UInt32) : DmaStream :=
  { s with flags := Function.update s.flags i v }

/-- A store to the doorbell. The device counts these stores; the value stored is always 1 and
carries nothing. -/
def ringDoorbell (s : DmaStream) : DmaStream :=
  { s with doorbell := s.doorbell + 1 }

/-- `if(++buf_index == dma_cpu_bufs) buf_index = 0`. -/
def advance (s : DmaStream) (n : Nat) : DmaStream :=
  { s with bufIndex := CircularQueue.next n s.bufIndex }

@[simp] theorem fill_flags (s : DmaStream) (data : Nat → UInt8) (len opCode : UInt32) :
    (s.fill data len opCode).flags = s.flags := rfl

@[simp] theorem fill_doorbell (s : DmaStream) (data : Nat → UInt8) (len opCode : UInt32) :
    (s.fill data len opCode).doorbell = s.doorbell := rfl

@[simp] theorem fill_bufIndex (s : DmaStream) (data : Nat → UInt8) (len opCode : UInt32) :
    (s.fill data len opCode).bufIndex = s.bufIndex := rfl

@[simp] theorem setFlag_flags (s : DmaStream) (i : Nat) (v : UInt32) :
    (s.setFlag i v).flags = Function.update s.flags i v := rfl

@[simp] theorem setFlag_buffers (s : DmaStream) (i : Nat) (v : UInt32) :
    (s.setFlag i v).buffers = s.buffers := rfl

@[simp] theorem setFlag_metadata (s : DmaStream) (i : Nat) (v : UInt32) :
    (s.setFlag i v).metadata = s.metadata := rfl

@[simp] theorem setFlag_doorbell (s : DmaStream) (i : Nat) (v : UInt32) :
    (s.setFlag i v).doorbell = s.doorbell := rfl

@[simp] theorem setFlag_bufIndex (s : DmaStream) (i : Nat) (v : UInt32) :
    (s.setFlag i v).bufIndex = s.bufIndex := rfl

@[simp] theorem ringDoorbell_toDmaRegion (s : DmaStream) :
    s.ringDoorbell.toDmaRegion = s.toDmaRegion := rfl

@[simp] theorem ringDoorbell_doorbell (s : DmaStream) :
    s.ringDoorbell.doorbell = s.doorbell + 1 := rfl

@[simp] theorem ringDoorbell_bufIndex (s : DmaStream) :
    s.ringDoorbell.bufIndex = s.bufIndex := rfl

@[simp] theorem advance_toDmaRegion (s : DmaStream) (n : Nat) :
    (s.advance n).toDmaRegion = s.toDmaRegion := rfl

@[simp] theorem advance_doorbell (s : DmaStream) (n : Nat) :
    (s.advance n).doorbell = s.doorbell := rfl

@[simp] theorem advance_bufIndex (s : DmaStream) (n : Nat) :
    (s.advance n).bufIndex = CircularQueue.next n s.bufIndex := rfl

end DmaStream

/-! ## What a slot carries

A consumer that goes by the metadata sees a `Message`; the whole content of a slot, whatever its
metadata say, is a `Frame`. -/

/-- A message as its reader sees it: `length` bytes, the length and the opcode. -/
structure Message where
  bytes : List UInt8
  length : UInt32
  opCode : UInt32
deriving DecidableEq, Repr

/-- What a slot holds: its length's worth of bytes and its opcode. -/
def DmaRegion.message (r : DmaRegion) (i : Nat) : Message where
  bytes := readMem r.buffers (i * dmaBufSize) (r.metadata i).length.toNat
  length := (r.metadata i).length
  opCode := (r.metadata i).opCode

/-- The whole content of a slot: its buffer and its metadata. -/
structure Frame where
  buffer : List UInt8
  metadata : OcdpMetadata
deriving DecidableEq, Repr

/-- A slot as the device fills it: the metadata as they are and the whole buffer, also the bytes
behind the length. -/
def DmaRegion.frame (r : DmaRegion) (i : Nat) : Frame where
  buffer := readMem r.buffers (i * dmaBufSize) dmaBufSize
  metadata := r.metadata i

/-- The message made of the first `len` bytes of `data`. -/
def messageOf (data : Nat → UInt8) (len opCode : UInt32) : Message where
  bytes := readMem data 0 len.toNat
  length := len
  opCode := opCode

/-- A slot that was filled holds the message, cut to the buffer. -/
theorem message_fill_self (s : DmaStream) (data : Nat → UInt8) (len opCode : UInt32) :
    (s.fill data len opCode).message s.bufIndex = messageOf data len opCode := by
  simp only [DmaRegion.message, DmaStream.fill, Function.update_self, messageOf]
  rw [readMem_memcpy_self _ _ _ (Nat.le_refl _)]

/-- Filling the slot at `buf_index` with a message that fits leaves the messages that fit in
the other slots alone. -/
theorem message_fill_of_ne (s : DmaStream) (data : Nat → UInt8) {len : UInt32} (opCode : UInt32)
    {i : Nat} (hi : i ≠ s.bufIndex) (hlen : len.toNat ≤ dmaBufSize)
    (hfit : (s.message i).length.toNat ≤ dmaBufSize) :
    (s.fill data len opCode).message i = s.message i := by
  simp only [DmaRegion.message] at hfit
  simp only [DmaRegion.message, DmaStream.fill, Function.update_of_ne hi]
  rw [readMem_memcpy_slot _ _ (Ne.symm hi) hlen hfit]

/-- The other slots keep their whole content, whether it is a message or not. -/
theorem frame_fill_of_ne (s : DmaStream) (data : Nat → UInt8) {len : UInt32} (opCode : UInt32)
    {i : Nat} (hi : i ≠ s.bufIndex) (hlen : len.toNat ≤ dmaBufSize) :
    (s.fill data len opCode).frame i = s.frame i := by
  simp only [DmaRegion.frame, DmaStream.fill, Function.update_of_ne hi]
  rw [readMem_memcpy_slot _ _ (Ne.symm hi) hlen (Nat.le_refl _)]

end Nf10
