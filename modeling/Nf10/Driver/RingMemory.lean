import Nf10.Driver.RegionLayout
import Nf10.Driver.Registers
import Nf10.Driver.Rings

/-!
# Nf10 — the slots of a ring as bytes

The handlers and the device reach a slot through addresses: the handlers through the pointers of the
stream, the device through the registers of its dataplane. `regionAt` reads the three arrays off the
memory; here is what each store does to them.

* **`putMessage` / `DmaPort.hwFill`** — a slot filled by the driver and by the device;
* **`DmaPort.Ready`** — the addresses the device computes in 32 bits are the driver's;
* **`sameRing_putMessage` / `sameRing_hwFill` / `sameRing_storeFlag`** — each store is, on the region,
  the update that `DmaStream` has for it, and the `_of_outside` lemmas say that it stays in the region.
-/

namespace Nf10

/-- The metadata of a slot are four words in a row. -/
theorem metadataAt_eq (mem : Nat → UInt8) (p : Nat) :
    metadataAt mem p = ⟨load32At mem p, load32At mem (p + 4), load32At mem (p + 8),
      load32At mem (p + 12)⟩ := rfl

/-! ## Three arrays in a row

A stream is one allocation that `probe` divides into buffers, metadata and flags, in this order and
without gaps. A ring of `n` slots therefore lives in `2068 * n` bytes, and what is stored elsewhere
cannot change it. -/

/-- The pointers of a stream of `n` slots, as `probe` computes them. -/
structure StreamPtrs.InRow (s : StreamPtrs) (n : Nat) : Prop where
  metadata : s.metadata = s.buffers + n * dmaBufSize
  flags : s.flags = s.metadata + n * sizeofOcdpMetadata

/-- The memory of a ring of `n` slots. -/
def StreamPtrs.region (s : StreamPtrs) (n : Nat) : Extent :=
  ⟨s.buffers, 2068 * n⟩

section

variable {mem mem' : Nat → UInt8} {s : StreamPtrs} {n : Nat}

/-- The region is all that a ring is read from. -/
theorem sameRing_of_region (hs : s.InRow n) (h : ∀ a ∈ (s.region n).bytes, mem' a = mem a) :
    SameRing n (regionAt mem' s) (regionAt mem s) := by
  obtain ⟨hmetadata, hflags⟩ := hs
  have hin : ∀ a, s.buffers ≤ a → a < s.buffers + 2068 * n → mem' a = mem a :=
    fun a hlo hhi => h a ⟨hlo, hhi⟩
  unfold dmaBufSize at hmetadata
  unfold sizeofOcdpMetadata at hflags
  refine ⟨?_, ?_, ?_⟩
  · intro a ha
    unfold dmaBufSize at ha
    exact hin (s.buffers + a) (by omega) (by omega)
  · intro i hi
    apply metadataAt_congr
    intro k hk
    show mem' (s.metadata + i * 16 + k) = mem (s.metadata + i * 16 + k)
    exact hin _ (by omega) (by omega)
  · intro i hi
    apply flagAt_congr
    intro k hk
    exact hin _ (by omega) (by omega)

end

/-! ## Updates of a region

The three stores of the driver and the device, on a region instead of memory. They respect agreement
on the slots, which is all that two rings are compared by. -/

namespace DmaRegion

/-- The first `len` bytes of `data` copied into buffer `i`. -/
def copyIn (r : DmaRegion) (i : Nat) (data : Nat → UInt8) (len : Nat) : DmaRegion :=
  { r with buffers := memcpy r.buffers (i * dmaBufSize) data len }

/-- The metadata of slot `i` replaced. -/
def setMetadata (r : DmaRegion) (i : Nat) (md : OcdpMetadata) : DmaRegion :=
  { r with metadata := Function.update r.metadata i md }

/-- The flag of slot `i` set to `v`. -/
def mark (r : DmaRegion) (i : Nat) (v : UInt32) : DmaRegion :=
  { r with flags := Function.update r.flags i v }

end DmaRegion

namespace SameRing

variable {n : Nat} {r r' : DmaRegion}

theorem copyIn (h : SameRing n r r') (i : Nat) (data : Nat → UInt8) (len : Nat) :
    SameRing n (r.copyIn i data len) (r'.copyIn i data len) where
  buffers a ha := by
    simp only [DmaRegion.copyIn, memcpy]
    rw [h.buffers a ha]
  metadata := h.metadata
  flags := h.flags

theorem setMetadata (h : SameRing n r r') (i : Nat) (md : OcdpMetadata) :
    SameRing n (r.setMetadata i md) (r'.setMetadata i md) where
  buffers := h.buffers
  metadata j hj := by
    simp only [DmaRegion.setMetadata, Function.update_apply]
    rw [h.metadata j hj]
  flags := h.flags

theorem mark (h : SameRing n r r') (i : Nat) (v : UInt32) :
    SameRing n (r.mark i v) (r'.mark i v) where
  buffers := h.buffers
  metadata := h.metadata
  flags j hj := by
    simp only [DmaRegion.mark, Function.update_apply]
    rw [h.flags j hj]

end SameRing

/-! ## One store at a time

Each store to memory is the store to the region that is read off the memory. Only a copy needs a
bound: one that is longer than a buffer would reach the next slot. -/

section

variable {mem : Nat → UInt8} {s : StreamPtrs} {n i : Nat}

/-- A copy of at most a buffer is a copy into its slot. -/
theorem sameRing_copyIn (hs : s.InRow n) (hi : i < n) (data : Nat → UInt8) {len : Nat}
    (hlen : len ≤ dmaBufSize) :
    SameRing n (regionAt (memcpy mem (s.buffers + i * dmaBufSize) data len) s)
      ((regionAt mem s).copyIn i data len) := by
  obtain ⟨hmetadata, hflags⟩ := hs
  unfold dmaBufSize at *
  unfold sizeofOcdpMetadata at hflags
  -- the copy ends before the metadata begin
  have hbehind : ∀ a, s.metadata ≤ a →
      memcpy mem (s.buffers + i * 2048) data len a = mem a := by
    intro a ha
    apply memcpy_of_ge
    omega
  refine ⟨?_, ?_, ?_⟩
  · intro a ha
    show memcpy mem (s.buffers + i * 2048) data len (s.buffers + a)
      = memcpy (fun a => mem (s.buffers + a)) (i * 2048) data len a
    unfold memcpy
    by_cases hin : i * 2048 ≤ a ∧ a < i * 2048 + len
    · rw [if_pos hin, if_pos (by omega)]
      exact congrArg data (by omega)
    · rw [if_neg hin, if_neg (by omega)]
  · intro j hj
    apply metadataAt_congr
    intro k hk
    exact hbehind _ (by omega)
  · intro j hj
    apply flagAt_congr
    intro k hk
    exact hbehind _ (by omega)

/-- Stores that stay inside one entry of the metadata change that entry only. -/
theorem sameRing_setMetadata (hs : s.InRow n) (hi : i < n) {mem' : Nat → UInt8}
    (hout : ∀ a, a < s.metadata + i * sizeofOcdpMetadata
      ∨ s.metadata + i * sizeofOcdpMetadata + 16 ≤ a → mem' a = mem a) :
    SameRing n (regionAt mem' s)
      ((regionAt mem s).setMetadata i (metadataAt mem' (s.metadata + i * sizeofOcdpMetadata))) := by
  obtain ⟨hmetadata, hflags⟩ := hs
  unfold dmaBufSize at hmetadata
  unfold sizeofOcdpMetadata at *
  refine ⟨?_, ?_, ?_⟩
  · intro a ha
    unfold dmaBufSize at ha
    exact hout _ (by omega)
  · intro j hj
    rcases eq_or_ne j i with rfl | hne
    · simp only [DmaRegion.setMetadata, Function.update_self]
      rfl
    · simp only [DmaRegion.setMetadata, Function.update_of_ne hne]
      apply metadataAt_congr
      intro k hk
      show mem' (s.metadata + j * 16 + k) = mem (s.metadata + j * 16 + k)
      exact hout _ (by omega)
  · intro j hj
    apply flagAt_congr
    intro k hk
    exact hout _ (by omega)

/-- `flags[i] = v` -/
theorem sameRing_storeFlag (hs : s.InRow n) (hi : i < n) (v : UInt32) :
    SameRing n (regionAt (store32 mem (s.flags + i * 4) v) s) ((regionAt mem s).mark i v) := by
  obtain ⟨hmetadata, hflags⟩ := hs
  unfold dmaBufSize at hmetadata
  unfold sizeofOcdpMetadata at hflags
  refine ⟨?_, ?_, ?_⟩
  · intro a ha
    unfold dmaBufSize at ha
    exact store32_of_outside (by omega)
  · intro j hj
    apply metadataAt_congr
    intro k hk
    show store32 mem (s.flags + i * 4) v (s.metadata + j * 16 + k) = _
    exact store32_of_outside (by omega)
  · intro j hj
    rcases eq_or_ne j i with rfl | hne
    · simp only [DmaRegion.mark, Function.update_self]
      exact load32At_store32
    · simp only [DmaRegion.mark, Function.update_of_ne hne]
      exact load32At_store32_of_apart (by omega)

/-- **A slot filled**: the buffer, then stores inside its metadata, then the flag. -/
theorem sameRing_slot (hs : s.InRow n) (hi : i < n) (data : Nat → UInt8) {len : Nat}
    (hlen : len ≤ dmaBufSize) {mem' : Nat → UInt8}
    (hout : ∀ a, a < s.metadata + i * sizeofOcdpMetadata
      ∨ s.metadata + i * sizeofOcdpMetadata + 16 ≤ a →
      mem' a = memcpy mem (s.buffers + i * dmaBufSize) data len a) (v : UInt32) :
    SameRing n (regionAt (store32 mem' (s.flags + i * 4) v) s)
      ((((regionAt mem s).copyIn i data len).setMetadata i
        (metadataAt mem' (s.metadata + i * sizeofOcdpMetadata))).mark i v) := by
  have hcopy : SameRing n (regionAt (memcpy mem (s.buffers + i * dmaBufSize) data len) s)
      ((regionAt mem s).copyIn i data len) := sameRing_copyIn hs hi data hlen
  have hset := (sameRing_setMetadata hs hi hout).trans (hcopy.setMetadata i _)
  exact (sameRing_storeFlag hs hi v).trans (hset.mark i v)

end

/-! ## The driver's side

A transmit call makes four stores. Together they are what `DmaStream.transmit` does to the region,
and they stay inside it. -/

/-- The stores of a transmit call that has found slot `i` free. -/
def putMessage (mem : Nat → UInt8) (s : StreamPtrs) (i : Nat) (m : Message) : Nat → UInt8 :=
  let mem := memcpy mem (s.buffers + i * dmaBufSize) (fun k => m.bytes.getD k 0) m.length.toNat
  let mem := store32 mem (s.metadata + i * sizeofOcdpMetadata) m.length
  let mem := store32 mem (s.metadata + i * sizeofOcdpMetadata + 4) m.opCode
  store32 mem (s.flags + i * 4) 0

section

variable {mem : Nat → UInt8} {s : StreamPtrs} {n i a : Nat}

theorem storeFlag_of_outside (hs : s.InRow n) (hi : i < n) (v : UInt32)
    (ha : a ∉ (s.region n).bytes) : store32 mem (s.flags + i * 4) v a = mem a := by
  obtain ⟨hmetadata, hflags⟩ := hs
  unfold dmaBufSize at hmetadata
  unfold sizeofOcdpMetadata at hflags
  have ha : ¬ (s.buffers ≤ a ∧ a < s.buffers + 2068 * n) := ha
  exact store32_of_outside (by omega)

/-- A store to a word of the metadata stays in the region. -/
theorem storeMetadata_of_outside (hs : s.InRow n) (hi : i < n) {off : Nat} (hoff : off ≤ 12)
    (v : UInt32) (ha : a ∉ (s.region n).bytes) :
    store32 mem (s.metadata + i * sizeofOcdpMetadata + off) v a = mem a := by
  obtain ⟨hmetadata, hflags⟩ := hs
  unfold dmaBufSize at hmetadata
  unfold sizeofOcdpMetadata at *
  have ha : ¬ (s.buffers ≤ a ∧ a < s.buffers + 2068 * n) := ha
  exact store32_of_outside (by omega)

theorem copyIn_of_outside (hi : i < n) {data : Nat → UInt8} {len : Nat}
    (hlen : len ≤ dmaBufSize) (ha : a ∉ (s.region n).bytes) :
    memcpy mem (s.buffers + i * dmaBufSize) data len a = mem a := by
  unfold dmaBufSize at *
  have ha : ¬ (s.buffers ≤ a ∧ a < s.buffers + 2068 * n) := ha
  unfold memcpy
  rw [if_neg (by omega)]

theorem putMessage_of_outside (hs : s.InRow n) (hi : i < n) {m : Message}
    (hfit : m.length.toNat ≤ dmaBufSize) (ha : a ∉ (s.region n).bytes) :
    putMessage mem s i m a = mem a := by
  unfold putMessage
  rw [storeFlag_of_outside hs hi _ ha, storeMetadata_of_outside hs hi (by decide) _ ha]
  exact (storeMetadata_of_outside hs hi (Nat.zero_le 12) _ ha).trans (copyIn_of_outside hi hfit ha)

/-- **`transmit` in memory.** -/
theorem sameRing_putMessage (hs : s.InRow n) {st : DmaStream} (hst : st.toDmaRegion = regionAt mem s)
    (hi : st.bufIndex < n) (k : Nat) (data : Nat → UInt8) {len : UInt32} (opCode : UInt32)
    (hlen : len.toNat ≤ dmaBufSize) :
    SameRing n (regionAt (putMessage mem s st.bufIndex (messageOf data len opCode)) s)
      (st.transmit k data len opCode).toDmaRegion := by
  generalize hentry : s.metadata + st.bufIndex * sizeofOcdpMetadata = entry
  generalize hcopied : memcpy mem (s.buffers + st.bufIndex * dmaBufSize) data len.toNat = copied
  have hput : putMessage mem s st.bufIndex (messageOf data len opCode)
      = store32 (store32 (store32 copied entry len) (entry + 4) opCode)
        (s.flags + st.bufIndex * 4) 0 := by
    rw [putMessage, hentry, ← hcopied]
    have hbytes : ∀ k < (messageOf data len opCode).length.toNat,
        (messageOf data len opCode).bytes.getD k 0 = data k := by
      intro k hk
      have hk : k < len.toNat := hk
      simp [messageOf, readMem, hk]
    rw [memcpy_congr hbytes]
    rfl
  have hout : ∀ a, a < entry ∨ entry + 16 ≤ a →
      store32 (store32 copied entry len) (entry + 4) opCode a = copied a := by
    intro a ha
    rw [store32_of_outside (by omega), store32_of_outside (by omega)]
  -- of the metadata, the tag and the interval stay
  have hmd : metadataAt (store32 (store32 copied entry len) (entry + 4) opCode) entry
      = { metadataAt copied entry with length := len, opCode := opCode } := by
    have hword : ∀ off, 8 ≤ off →
        load32At (store32 (store32 copied entry len) (entry + 4) opCode) (entry + off)
          = load32At copied (entry + off) := by
      intro off hoff
      rw [load32At_store32_of_apart (Or.inr (by omega)), load32At_store32_of_apart (Or.inr (by omega))]
    rw [metadataAt_eq, metadataAt_eq, hword 8 (by decide), hword 12 (by decide), load32At_store32,
      load32At_store32_of_apart (Or.inl (Nat.le_refl _)), load32At_store32]
  have hold : metadataAt copied entry = (regionAt mem s).metadata st.bufIndex := by
    rw [← hcopied, ← hentry]
    exact (sameRing_copyIn hs hi data hlen).metadata _ hi
  subst hcopied hentry
  have hslot := sameRing_slot hs hi data hlen hout 0
  rw [hmd, hold, ← hst] at hslot
  rw [hput]
  exact hslot

end

/-! ## The device's side

The device has bus addresses, which it computes from the registers in 32 bits. When the region fits
below 4 GiB they lead to the slots that the driver's pointers lead to, so the device's accesses are
accesses to the same ring. -/

/-- A stream after `probe`: the region at `va`, which the device has at `pa`, the pointers of the
driver and the registers of the dataplane. -/
structure DmaPort where
  va : Nat
  pa : UInt64
  ptrs : StreamPtrs
  props : OcdpProperties
deriving DecidableEq, Repr

namespace DmaPort

/-- Where the bus address `x` of the device leads. -/
def host (p : DmaPort) (x : UInt32) : Nat :=
  p.va + (x.toNat - p.pa.toNat)

/-- Where the device finds buffer `i`. -/
def busBuffer (p : DmaPort) (i : Nat) : Nat :=
  p.host (deviceAddr p.props.remoteBufferBase p.props.remoteBufferSize (UInt32.ofNat i))

/-- Where it finds the metadata of slot `i`. -/
def busMetadata (p : DmaPort) (i : Nat) : Nat :=
  p.host (deviceAddr p.props.remoteMetadataBase p.props.remoteMetadataSize (UInt32.ofNat i))

/-- Where it finds the flag of slot `i`. -/
def busFlag (p : DmaPort) (i : Nat) : Nat :=
  p.host (deviceAddr p.props.remoteFlagBase p.props.remoteFlagPitch (UInt32.ofNat i))

/-- What the device reads of slot `i`: the metadata, and as many bytes as they say. -/
def hwRead (p : DmaPort) (mem : Nat → UInt8) (i : Nat) : Message where
  bytes := readMem mem (p.busBuffer i) (metadataAt mem (p.busMetadata i)).length.toNat
  length := (metadataAt mem (p.busMetadata i)).length
  opCode := (metadataAt mem (p.busMetadata i)).opCode

/-- The device hands slot `i` back. -/
def hwRelease (p : DmaPort) (mem : Nat → UInt8) (i : Nat) : Nat → UInt8 :=
  store32 mem (p.busFlag i) 1

/-- The device fills slot `i`: the buffer, the four words of the metadata, the flag. -/
def hwFill (p : DmaPort) (mem : Nat → UInt8) (i : Nat) (f : Frame) : Nat → UInt8 :=
  let mem := memcpy mem (p.busBuffer i) (fun k => f.buffer.getD k 0) dmaBufSize
  let mem := store32 mem (p.busMetadata i) f.metadata.length
  let mem := store32 mem (p.busMetadata i + 4) f.metadata.opCode
  let mem := store32 mem (p.busMetadata i + 8) f.metadata.tag
  let mem := store32 mem (p.busMetadata i + 12) f.metadata.interval
  store32 mem (p.busFlag i) 1

/-- The device reaches the slots of the driver. -/
structure Ready (p : DmaPort) (n : Nat) : Prop where
  inRow : p.ptrs.InRow n
  buffer : ∀ i < n, p.busBuffer i = p.ptrs.buffers + i * dmaBufSize
  metadata : ∀ i < n, p.busMetadata i = p.ptrs.metadata + i * sizeofOcdpMetadata
  flag : ∀ i < n, p.busFlag i = p.ptrs.flags + i * 4

/-- An element that the device finds, it finds where the driver has it. -/
theorem host_eq_of_finds {p : DmaPort} {base pitch : UInt32} {start size : Nat} {n : UInt32}
    (h : DeviceFinds base pitch p.va p.pa start size n) (hstart : p.va ≤ start) {i : Nat}
    (hi : i < n.toNat) : p.host (deviceAddr base pitch (UInt32.ofNat i)) = start + i * size := by
  have hnat : (UInt32.ofNat i).toNat = i :=
    UInt32.toNat_ofNat_of_lt' (Nat.lt_trans hi n.toNat_lt)
  have hlt : UInt32.ofNat i < n := by
    rw [UInt32.lt_iff_toNat_lt, hnat]
    exact hi
  obtain ⟨_, haddr⟩ := h (UInt32.ofNat i) hlt
  rw [hnat] at haddr
  unfold host
  rw [haddr]
  omega

/-- What `probe` leaves is a port whose two sides meet, if the region fits. -/
theorem ready_of_configure (flag : UInt8) (dir : UInt32) (va : Nat) (pa : UInt64) (props : Nat)
    (n : UInt32) (s : AccessLog Nat UInt8) (h : RegionFits pa n) :
    Ready ⟨va, pa, ((configureStream flag dir va pa props n).run s).1.1,
      ((configureStream flag dir va pa props n).run s).1.2⟩ n.toNat := by
  have hagrees : LayoutAgrees va pa n ((configureStream flag dir va pa props n).run s).1 :=
    configureStream_agrees flag dir props s h
  have hmetadata := toNat_mul_dmaBufSize h
  have hbuffers : va ≤ ((configureStream flag dir va pa props n).run s).1.1.buffers := Nat.le_refl va
  have hmd : va ≤ ((configureStream flag dir va pa props n).run s).1.1.metadata :=
    Nat.le_add_right va _
  have hfl : va ≤ ((configureStream flag dir va pa props n).run s).1.1.flags :=
    Nat.le_trans hmd (Nat.le_add_right _ _)
  refine ⟨⟨?_, ?_⟩, ?_, ?_, ?_⟩
  · show va + (n * dmaBufSize32).toNat = va + n.toNat * 2048
    rw [hmetadata]
  · exact congrArg _ (Nat.mul_comm _ _)
  · intro i hi
    exact host_eq_of_finds hagrees.buffers hbuffers hi
  · intro i hi
    exact host_eq_of_finds hagrees.metadata hmd hi
  · intro i hi
    exact host_eq_of_finds hagrees.flags hfl hi

section

variable {p : DmaPort} {mem : Nat → UInt8} {n i a : Nat}

/-- The device reads the message that the ring has in slot `i`. -/
theorem hwRead_eq (hp : p.Ready n) (hi : i < n) :
    p.hwRead mem i = (regionAt mem p.ptrs).message i := by
  unfold hwRead
  rw [hp.buffer i hi, hp.metadata i hi]
  simp only [DmaRegion.message, regionAt, readMem, Nat.add_assoc]

theorem sameRing_hwRelease (hp : p.Ready n) (hi : i < n) :
    SameRing n (regionAt (p.hwRelease mem i) p.ptrs) ((regionAt mem p.ptrs).mark i 1) := by
  rw [hwRelease, hp.flag i hi]
  exact sameRing_storeFlag hp.inRow hi 1

/-- Releasing a slot writes nothing outside the region. -/
theorem hwRelease_of_outside (hp : p.Ready n) (hi : i < n) (ha : a ∉ (p.ptrs.region n).bytes) :
    p.hwRelease mem i a = mem a := by
  rw [hwRelease, hp.flag i hi]
  exact storeFlag_of_outside hp.inRow hi 1 ha

/-- **`DmaStream.hwFill` in memory.** -/
theorem sameRing_hwFill (hp : p.Ready n) (hi : i < n) {st : DmaStream}
    (hst : st.toDmaRegion = regionAt mem p.ptrs) (f : Frame) :
    SameRing n (regionAt (p.hwFill mem i f) p.ptrs) (st.hwFill i f).toDmaRegion := by
  unfold hwFill
  rw [hp.buffer i hi, hp.metadata i hi, hp.flag i hi]
  generalize hentry : p.ptrs.metadata + i * sizeofOcdpMetadata = entry
  generalize hcopied : memcpy mem (p.ptrs.buffers + i * dmaBufSize) (fun k => f.buffer.getD k 0)
    dmaBufSize = copied
  generalize hheader : store32 (store32 (store32 (store32 copied entry f.metadata.length) (entry + 4)
    f.metadata.opCode) (entry + 8) f.metadata.tag) (entry + 12) f.metadata.interval = header
  have hout : ∀ a, a < entry ∨ entry + 16 ≤ a → header a = copied a := by
    intro a ha
    rw [← hheader, store32_of_outside (by omega), store32_of_outside (by omega),
      store32_of_outside (by omega), store32_of_outside (by omega)]
  have hmd : metadataAt header entry = f.metadata := by
    rw [metadataAt_eq, ← hheader]
    simp (disch := omega) only [load32At_store32, load32At_store32_of_apart]
  subst hcopied hentry
  have hslot := sameRing_slot hp.inRow hi _ (Nat.le_refl _) hout 1
  rw [hmd, ← hst] at hslot
  subst hheader
  exact hslot

/-- Filling a slot writes nothing outside the region either. -/
theorem hwFill_of_outside (hp : p.Ready n) (hi : i < n) (f : Frame)
    (ha : a ∉ (p.ptrs.region n).bytes) : p.hwFill mem i f a = mem a := by
  unfold hwFill
  rw [hp.buffer i hi, hp.metadata i hi, hp.flag i hi, storeFlag_of_outside hp.inRow hi 1 ha,
    storeMetadata_of_outside hp.inRow hi (by decide) _ ha,
    storeMetadata_of_outside hp.inRow hi (by decide) _ ha,
    storeMetadata_of_outside hp.inRow hi (by decide) _ ha]
  exact (storeMetadata_of_outside hp.inRow hi (Nat.zero_le 12) _ ha).trans
    (copyIn_of_outside hi (Nat.le_refl _) ha)

end

end DmaPort

end Nf10
