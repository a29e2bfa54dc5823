import Nf10.Driver.Handlers

/-!
# Nf10 — DMA regions as circular queues

The circular-queue view of a region, for the two ways its slots are read:

* **`MsgRing mark`** — slots filled by a driver call and read by their metadata. The flag value
  that means *full* is a parameter: 0 on the TX ring of the hardware build, 1 on the shared ring
  of the ghost build;
* **`FrameRing`** — slots filled by the device, read whole; flag 1 is full, 0 is empty.

Each move of a handler or of the device has its lemma here: fill the free slot at the tail, set
its flag to full, retire the oldest slot. The systems built on the rings compose these.
-/

namespace Nf10

open CircularQueue

/-! ## Messages

A ring of messages, as the driver fills it. Which flag value marks a full slot depends on the ring:
0 on the TX ring, 1 on the shared ring of ghost mode. -/

/-- The messages `hist` from number `lo` on are in the region, each fitting its slot; exactly their
slots have the flag `mark`. -/
def MsgRing (mark : UInt32) (n : Nat) (hist : List Message) (lo : Nat) (r : DmaRegion) : Prop :=
  Holds n hist lo (fun i => r.flags i = mark)
    fun i m => r.message i = m ∧ m.length.toNat ≤ dmaBufSize

namespace MsgRing

variable {mark : UInt32} {n lo : Nat} {hist : List Message} {s : DmaStream}

/-- Filling the free slot at `buf_index` disturbs no outstanding message. -/
theorem fill (hn : 0 < n) (h : MsgRing mark n hist lo s.toDmaRegion) (data : Nat → UInt8)
    {len : UInt32} (opcode : UInt32) (hlen : len.toNat ≤ dmaBufSize)
    (hfree : s.flags s.bufIndex ≠ mark) :
    MsgRing mark n hist lo (s.fill data len opcode).toDmaRegion := by
  apply Holds.congr hn h
  · intro i _
    rfl
  · rintro i m _ hfull ⟨hm, hfit⟩
    have hne : i ≠ s.bufIndex := by
      rintro rfl
      exact hfree hfull
    exact ⟨(message_fill_of_ne s data opcode hne hlen (hm ▸ hfit)).trans hm, hfit⟩

/-- Setting the flag of the tail slot to full adds the message it carries. -/
theorem setFull (hn : 0 < n) (h : MsgRing mark n hist lo s.toDmaRegion) {m : Message}
    (hspace : hist.length < lo + n) (hi : s.bufIndex = hist.length % n)
    (hm : s.message s.bufIndex = m) (hfit : m.length.toNat ≤ dmaBufSize) :
    MsgRing mark n (hist ++ [m]) lo (s.setFlag s.bufIndex mark).toDmaRegion := by
  apply Holds.push hn h hspace
  · intro i _
    rw [← hi]
    rcases eq_or_ne i s.bufIndex with rfl | hne
    · simp
    · simp [hne]
  · rw [← hi]
    exact ⟨hm, hfit⟩
  · intro i m' _ _ h'
    exact h'

/-- Writing any other value to the flag of the oldest outstanding slot retires its message. -/
theorem take (hn : 0 < n) (h : MsgRing mark n hist lo s.toDmaRegion) (hlt : lo < hist.length)
    {v : UInt32} (hv : v ≠ mark) :
    MsgRing mark n hist (lo + 1) (s.setFlag (lo % n) v).toDmaRegion := by
  apply Holds.pop hn h hlt
  · intro i _
    rcases eq_or_ne i (lo % n) with rfl | hne
    · simp [hv]
    · simp [hne]
  · intro i m _ h'
    exact h'

/-- The producer's test: the slot at its index is free exactly if there is room. -/
theorem free_tail_iff (hn : 0 < n) (h : MsgRing mark n hist lo s.toDmaRegion) :
    s.flags (hist.length % n) ≠ mark ↔ hist.length < lo + n := by
  have hfits : hist.length ≤ lo + n := h.fits
  have hfull : s.flags (hist.length % n) = mark ↔ hist.length = lo + n := Holds.full_tail_iff hn h
  rw [Ne, hfull]
  omega

/-- And full exactly if all slots are outstanding. -/
theorem full_tail_iff (hn : 0 < n) (h : MsgRing mark n hist lo s.toDmaRegion) :
    s.flags (hist.length % n) = mark ↔ hist.length - lo = n := by
  have hfits : hist.length ≤ lo + n := h.fits
  have hlo : lo ≤ hist.length := h.lo_le
  have hfull : s.flags (hist.length % n) = mark ↔ hist.length = lo + n := Holds.full_tail_iff hn h
  rw [hfull]
  omega

/-- The oldest message outstanding lies at the consumer's index. -/
theorem message_head (h : MsgRing mark n hist lo s.toDmaRegion) (hlt : lo < hist.length) :
    s.message (lo % n) = hist[lo] :=
  (h.entry lo hlt (Nat.le_refl _)).1

/-- The consumer's test: the slot at its index is full exactly if something is outstanding. -/
theorem full_head_iff (hn : 0 < n) (h : MsgRing mark n hist lo s.toDmaRegion) :
    s.flags (lo % n) = mark ↔ lo < hist.length :=
  Holds.full_head_iff hn h

/-- **The whole locked section.** Filling the free slot at the tail and marking it full appends the
message. -/
theorem put (hn : 0 < n) (h : MsgRing mark n hist lo s.toDmaRegion) (data : Nat → UInt8)
    {len : UInt32} (opcode : UInt32) (hlen : len.toNat ≤ dmaBufSize)
    (hi : s.bufIndex = hist.length % n) (hfree : s.flags s.bufIndex ≠ mark) :
    MsgRing mark n (hist ++ [messageOf data len opcode]) lo
      ((s.fill data len opcode).setFlag s.bufIndex mark).toDmaRegion := by
  have hspace : hist.length < lo + n := (h.free_tail_iff hn).mp (hi ▸ hfree)
  have hfilled := h.fill hn data opcode hlen hfree
  exact hfilled.setFull hn hspace hi (message_fill_self s data len opcode) hlen

end MsgRing

/-! ## Frames

A ring of frames, as the device fills it. The frame is the whole slot, so that what the driver makes
of it is decided by what the device put there. -/

/-- The device fills slot `i` with the frame `f`: buffer, metadata, then the flag. -/
def DmaStream.hwFill (s : DmaStream) (i : Nat) (f : Frame) : DmaStream :=
  { s with
    buffers := memcpy s.buffers (i * dmaBufSize) (fun k => f.buffer.getD k 0) dmaBufSize
    metadata := Function.update s.metadata i f.metadata
    flags := Function.update s.flags i 1 }

/-- A frame fills its slot: its buffer is a whole DMA buffer. -/
def Frame.Sized (f : Frame) : Prop := f.buffer.length = dmaBufSize

/-- A frame of the size of a buffer reads back as it was put. -/
theorem frame_hwFill_self (s : DmaStream) (i : Nat) {f : Frame} (hf : f.Sized) :
    (s.hwFill i f).frame i = f := by
  have hbuf : readMem (s.hwFill i f).buffers (i * dmaBufSize) dmaBufSize = f.buffer := by
    simp only [DmaStream.hwFill]
    rw [readMem_memcpy_self _ _ _ (Nat.le_refl _), ← hf]
    apply List.ext_getElem
    · simp
    · intro k hk hk'
      simp [readMem, hk']
  have hmeta : (s.hwFill i f).metadata i = f.metadata := by
    simp [DmaStream.hwFill]
  simp only [DmaRegion.frame, hbuf, hmeta]

/-- The device fills one slot and leaves the others alone. -/
theorem frame_hwFill_of_ne (s : DmaStream) {i j : Nat} (f : Frame) (h : j ≠ i) :
    (s.hwFill i f).frame j = s.frame j := by
  simp only [DmaRegion.frame, DmaStream.hwFill, Function.update_of_ne h]
  rw [readMem_memcpy_slot _ _ (Ne.symm h) (Nat.le_refl _) (Nat.le_refl _)]

/-- The frames `hist` from number `lo` on are in the region; exactly their slots have flag 1, and
every other slot has flag 0. -/
structure FrameRing (n : Nat) (hist : List Frame) (lo : Nat) (r : DmaRegion) : Prop where
  holds : Holds n hist lo (fun i => r.flags i = 1) fun i f => r.frame i = f
  binary : ∀ i < n, r.flags i ≠ 1 → r.flags i = 0

namespace FrameRing

variable {n lo : Nat} {hist : List Frame} {s : DmaStream}

/-- The consumer clears the flag of the oldest frame. -/
theorem retire (hn : 0 < n) (h : FrameRing n hist lo s.toDmaRegion) (hlt : lo < hist.length) :
    FrameRing n hist (lo + 1) (s.setFlag (lo % n) 0).toDmaRegion where
  holds := by
    apply Holds.pop hn h.holds hlt
    · intro i _
      rcases eq_or_ne i (lo % n) with rfl | hne
      · simp
      · simp [hne]
    · intro i f _ h'
      exact h'
  binary i hi hne1 := by
    rcases eq_or_ne i (lo % n) with rfl | hne
    · simp
    · simp only [DmaStream.setFlag_flags, Function.update_of_ne hne] at hne1 ⊢
      exact h.binary i hi hne1

theorem produce (hn : 0 < n) (h : FrameRing n hist lo s.toDmaRegion)
    (hspace : hist.length < lo + n) {f : Frame} (hf : f.Sized) :
    FrameRing n (hist ++ [f]) lo (s.hwFill (hist.length % n) f).toDmaRegion where
  holds := by
    apply Holds.push hn h.holds hspace
    · intro i _
      rcases eq_or_ne i (hist.length % n) with rfl | hne
      · simp [DmaStream.hwFill]
      · simp [DmaStream.hwFill, hne]
    · exact frame_hwFill_self s _ hf
    · intro i f' _ hne h'
      exact (frame_hwFill_of_ne s f hne).trans h'
  binary i hi hne1 := by
    rcases eq_or_ne i (hist.length % n) with rfl | hne
    · simp [DmaStream.hwFill] at hne1
    · simp only [DmaStream.hwFill, Function.update_of_ne hne] at hne1 ⊢
      exact h.binary i hi hne1

/-- The oldest frame lies at the consumer's index. -/
theorem frame_head (h : FrameRing n hist lo s.toDmaRegion) (hlt : lo < hist.length) :
    s.frame (lo % n) = hist[lo] :=
  h.holds.entry lo hlt (Nat.le_refl _)

theorem full_head_iff (hn : 0 < n) (h : FrameRing n hist lo s.toDmaRegion) :
    s.flags (lo % n) = 1 ↔ lo < hist.length :=
  Holds.full_head_iff hn h.holds

/-- Where there is a credit the next slot is empty. -/
theorem empty_tail (hn : 0 < n) (h : FrameRing n hist lo s.toDmaRegion)
    (hspace : hist.length < lo + n) : s.flags (hist.length % n) = 0 := by
  apply h.binary _ (Nat.mod_lt _ hn)
  intro hfull
  have := (Holds.full_tail_iff hn h.holds).mp hfull
  omega

/-- The slots without a frame are as many as the device may still fill. -/
theorem card_empty (hn : 0 < n) (h : FrameRing n hist lo s.toDmaRegion) :
    ((Finset.range n).filter fun i => s.flags i = 0).card = lo + n - hist.length := by
  rw [← Holds.card_free hn h.holds]
  congr 1
  apply Finset.filter_congr
  intro i hi
  constructor
  · intro h0 h1
    rw [h0] at h1
    exact absurd h1 (by decide)
  · exact h.binary i (Finset.mem_range.mp hi)

end FrameRing

end Nf10
