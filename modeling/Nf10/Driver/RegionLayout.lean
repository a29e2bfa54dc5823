import Nf10.Driver.ProbeUnwind
import Nf10.Lib.AccessLog
import Nf10.Lib.Extents

/-!
# Nf10 — the layout of a DMA region

A region holds `dma_cpu_bufs` buffers, then their metadata, then their flags. `probe` writes this down
three times for each stream: in `dma_region_size`, in arithmetic on typed pointers, and in the
registers of the dataplane, which count in 32 bits from the physical address of the region.

* **`dma_layout_agrees`** — the three are the same layout, slot by slot, for every ring that fits below
  4 GiB;
* **`configure_refines`** — in memory, what `probe` does to a region is what `probeStreams` says of it:
  its `memset` reaches the flags of the ring and nothing else.

Pointers are byte addresses. They are 64 bits wide, and so is `sizeof`; everything else counts in
`uint32_t`.
-/

namespace Nf10

/-! ## What is written where

`probe` lays a stream over a region twice: as pointers for the driver, and as bus addresses and
pitches in the device's registers. The registers have 32 bits. -/

/-- `sizeof(OcdpMetadata)`: four words. -/
def sizeofOcdpMetadata : Nat := 16

/-- The registers of a dataplane that a stream is configured with (`ocdp.h`). -/
structure OcdpProperties where
  nLocalBuffers : UInt32
  nRemoteBuffers : UInt32
  localBufferBase : UInt32
  localMetadataBase : UInt32
  localBufferSize : UInt32
  localMetadataSize : UInt32
  memoryBytes : UInt32
  remoteBufferBase : UInt32
  remoteMetadataBase : UInt32
  remoteBufferSize : UInt32
  remoteMetadataSize : UInt32
  remoteFlagBase : UInt32
  remoteFlagPitch : UInt32
  control : UInt32
deriving DecidableEq, Repr

/-- Offset of `nRemoteDone` in them. -/
def nRemoteDoneOffset : Nat := 0x18

/-- The values of the `control` register: which way the data goes, and how. -/
def ocdpControlProducer : UInt32 := 1

def ocdpControlConsumer : UInt32 := 2

def ocdpActiveMessage : UInt32 := 1

/-- `OCDP_CONTROL` -/
def ocdpControl (dir role : UInt32) : UInt32 :=
  dir <<< 2 ||| role

/-- The pointers of a `struct dma_stream`, and its index. -/
structure StreamPtrs where
  buffers : Nat
  metadata : Nat
  flags : Nat
  doorbell : Nat
  bufIndex : Nat
deriving DecidableEq, Repr

/-- A call of `memset`. -/
def memset (dst : Nat) (v : UInt8) (len : Nat) : Access Nat UInt8 Unit :=
  Access.fill dst v len

/-- Buffers on the FPGA side (`DMA_FPGA_BUFS`). -/
def dmaFpgaBufs : UInt32 := 4

/-- `DMA_BUF_SIZE` in 32-bit arithmetic. -/
def dmaBufSize32 : UInt32 := 2048

/-- `dma_region_size` -/
def dmaRegionSize (dmaCpuBufs : UInt32) : UInt32 :=
  (UInt64.ofNat (dmaBufSize + sizeofOcdpMetadata + 4) * dmaCpuBufs.toUInt64).toUInt32

/-- The set-up of one stream in `probe`: the region at `va`, which the device has at `pa`, and the
dataplane whose registers are at `props`. -/
def configureStream (flag : UInt8) (dir : UInt32) (va : Nat) (pa : UInt64) (props : Nat)
    (dmaCpuBufs : UInt32) : Access Nat UInt8 (StreamPtrs × OcdpProperties) := do
  let buffers := va
  let metadata := buffers + (dmaCpuBufs * dmaBufSize32).toNat
  let flags := metadata + sizeofOcdpMetadata * dmaCpuBufs.toNat
  memset flags flag (dmaCpuBufs.toNat * 4)
  pure
    ({ buffers := buffers
       metadata := metadata
       flags := flags
       doorbell := props + nRemoteDoneOffset
       bufIndex := 0 },
     { nLocalBuffers := dmaFpgaBufs
       nRemoteBuffers := dmaCpuBufs
       localBufferBase := 0
       localMetadataBase := dmaFpgaBufs * dmaBufSize32
       localBufferSize := dmaBufSize32
       localMetadataSize := UInt32.ofNat sizeofOcdpMetadata
       memoryBytes := 32 * 1024
       remoteBufferBase := pa.toUInt32
       remoteMetadataBase := pa.toUInt32 + dmaCpuBufs * dmaBufSize32
       remoteBufferSize := dmaBufSize32
       remoteMetadataSize := UInt32.ofNat sizeofOcdpMetadata
       remoteFlagBase := (pa.toUInt32.toUInt64
         + UInt64.ofNat (dmaBufSize + sizeofOcdpMetadata) * dmaCpuBufs.toUInt64).toUInt32
       remoteFlagPitch := 4
       control := ocdpControl dir ocdpActiveMessage })

/-- `tx_dma_stream` and `dp0_props` -/
def configureTx : Nat → UInt64 → Nat → UInt32 → Access Nat UInt8 (StreamPtrs × OcdpProperties) :=
  configureStream 1 ocdpControlConsumer

/-- `rx_dma_stream` and `dp1_props` -/
def configureRx : Nat → UInt64 → Nat → UInt32 → Access Nat UInt8 (StreamPtrs × OcdpProperties) :=
  configureStream 0 ocdpControlProducer

/-! ## One layout

The two descriptions agree if every slot the device computes is the slot the driver uses, and no
address wraps. -/

/-- The region lies below 4 GiB. -/
def RegionFits (pa : UInt64) (n : UInt32) : Prop :=
  pa.toNat + 2068 * n.toNat ≤ 2 ^ 32

/-- Address of element `i` on the device's side, in 32 bits. -/
def deviceAddr (base pitch i : UInt32) : UInt32 :=
  base + i * pitch

/-- The device finds each of the `n` elements of `size` bytes from `start` on: its address does not
wrap, and is as far behind `pa` as the element is behind `va`. -/
def DeviceFinds (base pitch : UInt32) (va : Nat) (pa : UInt64) (start size : Nat) (n : UInt32) :
    Prop :=
  ∀ i < n, base.toNat + i.toNat * pitch.toNat < 2 ^ 32
    ∧ (deviceAddr base pitch i).toNat = pa.toNat + (start + i.toNat * size - va)

/-- The buffers, the metadata and the flags, one by one. -/
def StreamPtrs.elements (s : StreamPtrs) (n : Nat) : List Extent :=
  Extent.array s.buffers dmaBufSize n ++ Extent.array s.metadata sizeofOcdpMetadata n
    ++ Extent.array s.flags 4 n

/-- The allocation, the pointers and the registers have one layout. -/
structure LayoutAgrees (va : Nat) (pa : UInt64) (n : UInt32) (c : StreamPtrs × OcdpProperties) :
    Prop where
  regionSize : (dmaRegionSize n).toNat = 2068 * n.toNat
  tiles : Extent.Tiles (c.1.elements n.toNat) va (va + (dmaRegionSize n).toNat)
  buffers : DeviceFinds c.2.remoteBufferBase c.2.remoteBufferSize va pa c.1.buffers dmaBufSize n
  metadata : DeviceFinds c.2.remoteMetadataBase c.2.remoteMetadataSize va pa c.1.metadata
    sizeofOcdpMetadata n
  flags : DeviceFinds c.2.remoteFlagBase c.2.remoteFlagPitch va pa c.1.flags 4 n

section

variable {va : Nat} {pa : UInt64} {n : UInt32}

/-- In a region that fits, the products do not wrap. -/
theorem toNat_mul_dmaBufSize (h : RegionFits pa n) : (n * dmaBufSize32).toNat = n.toNat * 2048 := by
  unfold RegionFits at h
  rw [UInt32.toNat_mul]
  exact Nat.mod_eq_of_lt (show n.toNat * 2048 < 2 ^ 32 by omega)

/-- Nor does the size of the region, although it is computed in 64 bits and cut. -/
theorem toNat_dmaRegionSize (h : RegionFits pa n) : (dmaRegionSize n).toNat = 2068 * n.toNat := by
  unfold RegionFits at h
  have hn := n.toNat_lt
  rw [dmaRegionSize, UInt64.toNat_toUInt32, UInt64.toNat_mul, UInt32.toNat_toUInt64]
  show 2068 * n.toNat % 2 ^ 64 % 2 ^ 32 = _
  omega

/-- A region that is not empty starts below 4 GiB. -/
theorem toNat_regionPa (h : RegionFits pa n) (hn : 0 < n.toNat) : pa.toUInt32.toNat = pa.toNat := by
  unfold RegionFits at h
  rw [UInt64.toNat_toUInt32]
  exact Nat.mod_eq_of_lt (by omega)

theorem toNat_remoteMetadataBase (h : RegionFits pa n) (hn : 0 < n.toNat) :
    (pa.toUInt32 + n * dmaBufSize32).toNat = pa.toNat + n.toNat * 2048 := by
  rw [UInt32.toNat_add, toNat_regionPa h hn, toNat_mul_dmaBufSize h]
  unfold RegionFits at h
  exact Nat.mod_eq_of_lt (by omega)

/-- The sum is made in 64 bits, and its lower half is stored. -/
theorem toNat_remoteFlagBase (h : RegionFits pa n) (hn : 0 < n.toNat) :
    ((pa.toUInt32.toUInt64
      + UInt64.ofNat (dmaBufSize + sizeofOcdpMetadata) * n.toUInt64).toUInt32).toNat
      = pa.toNat + (n.toNat * 2048 + 16 * n.toNat) := by
  rw [UInt64.toNat_toUInt32, UInt64.toNat_add, UInt64.toNat_mul, UInt32.toNat_toUInt64,
    UInt32.toNat_toUInt64, toNat_regionPa h hn]
  unfold RegionFits at h
  show (pa.toNat + 2064 * n.toNat % 2 ^ 64) % 2 ^ 64 % 2 ^ 32 = _
  omega

/-- **An array on both sides.** It is enough that the bases agree and that the end fits. -/
theorem deviceFinds_of_base {base pitch : UInt32} {off size : Nat} (hpitch : pitch.toNat = size)
    (hsize : 0 < size) (hbase : 0 < n.toNat → base.toNat = pa.toNat + off)
    (hfits : pa.toNat + off + n.toNat * size ≤ 2 ^ 32) :
    DeviceFinds base pitch va pa (va + off) size n := by
  intro i hi
  have hi : i.toNat < n.toNat := hi
  rw [hpitch, hbase (by omega)]
  have hnext : (i.toNat + 1) * size ≤ n.toNat * size := Nat.mul_le_mul_right size hi
  rw [Nat.succ_mul] at hnext
  have hlt : pa.toNat + off + i.toNat * size < 2 ^ 32 := by omega
  refine ⟨hlt, ?_⟩
  rw [deviceAddr, UInt32.toNat_add, UInt32.toNat_mul, hpitch, hbase (by omega), Nat.add_mod_mod,
    Nat.mod_eq_of_lt hlt]
  omega

/-- Arrays in a row, as the pointers have them. -/
theorem StreamPtrs.tiles_elements {s : StreamPtrs} {n : Nat}
    (hmetadata : s.metadata = s.buffers + n * dmaBufSize)
    (hflags : s.flags = s.metadata + n * sizeofOcdpMetadata) :
    Extent.Tiles (s.elements n) s.buffers (s.buffers + 2068 * n) := by
  have hchain : s.elements n = Extent.chain s.buffers
      (List.replicate n dmaBufSize ++ List.replicate n sizeofOcdpMetadata ++ List.replicate n 4) := by
    rw [Extent.chain_append, Extent.chain_append, Extent.chain_replicate, Extent.chain_replicate,
      Extent.chain_replicate]
    simp only [List.sum_append, List.sum_replicate_nat]
    rw [elements, hflags, hmetadata, Nat.add_assoc]
  have hsum : (List.replicate n dmaBufSize ++ List.replicate n sizeofOcdpMetadata
      ++ List.replicate n 4).sum = 2068 * n := by
    simp only [List.sum_append, List.sum_replicate_nat, dmaBufSize, sizeofOcdpMetadata]
    omega
  rw [hchain, ← hsum]
  exact Extent.tiles_chain _ _

theorem configureStream_agrees (flag : UInt8) (dir : UInt32) (props : Nat) (s : AccessLog Nat UInt8)
    (h : RegionFits pa n) :
    LayoutAgrees va pa n ((configureStream flag dir va pa props n).run s).1 := by
  have hmetadata := toNat_mul_dmaBufSize h
  have hsize := toNat_dmaRegionSize h
  have hfits := h
  unfold RegionFits at hfits
  refine ⟨hsize, ?_, ?_, ?_, ?_⟩
  · rw [hsize]
    apply StreamPtrs.tiles_elements
    · show va + (n * dmaBufSize32).toNat = va + n.toNat * dmaBufSize
      rw [hmetadata]
      rfl
    · exact congrArg _ (Nat.mul_comm _ _)
  · show DeviceFinds pa.toUInt32 dmaBufSize32 va pa (va + 0) dmaBufSize n
    refine deviceFinds_of_base rfl (by decide) (toNat_regionPa h) ?_
    show pa.toNat + 0 + n.toNat * 2048 ≤ _
    omega
  · show DeviceFinds (pa.toUInt32 + n * dmaBufSize32) _ va pa (va + (n * dmaBufSize32).toNat)
      sizeofOcdpMetadata n
    rw [hmetadata]
    refine deviceFinds_of_base rfl (by decide) (toNat_remoteMetadataBase h) ?_
    show pa.toNat + n.toNat * 2048 + n.toNat * 16 ≤ _
    omega
  · show DeviceFinds _ 4 va pa
      (va + (n * dmaBufSize32).toNat + sizeofOcdpMetadata * n.toNat) 4 n
    rw [hmetadata, Nat.add_assoc]
    refine deviceFinds_of_base rfl (by decide) (toNat_remoteFlagBase h) ?_
    show pa.toNat + (n.toNat * 2048 + 16 * n.toNat) + n.toNat * 4 ≤ _
    omega

end

/-- The two streams of `probe`. -/
inductive DmaPath where
  | tx
  | rx
deriving DecidableEq, Repr

/-- The part of `probe` for each stream. -/
def DmaPath.configure : DmaPath → Nat → UInt64 → Nat → UInt32 →
    Access Nat UInt8 (StreamPtrs × OcdpProperties)
  | .tx => configureTx
  | .rx => configureRx

/-- **Driver and device agree on the layout** of each region, for every ring that fits. -/
theorem dma_layout_agrees (path : DmaPath) (va : Nat) (pa : UInt64) (props : Nat) (n : UInt32)
    (h : pa.toNat + 2068 * n.toNat ≤ 2 ^ 32) (mem : Nat → UInt8) :
    LayoutAgrees va pa n ((path.configure va pa props n).run ⟨mem, []⟩).1 := by
  cases path with
  | tx => exact configureStream_agrees _ _ _ _ h
  | rx => exact configureStream_agrees _ _ _ _ h

/-- The largest ring that `probe` tries, at the end of the 32-bit space. -/
theorem dma_layout_agrees_largest :
    (0xfbf60000 : UInt64).toNat + 2068 * (32768 : UInt32).toNat ≤ 2 ^ 32
      ∧ LayoutAgrees 0 0xfbf60000 32768
        ((DmaPath.tx.configure 0 0xfbf60000 0 32768).run ⟨fun _ => 0, []⟩).1 :=
  ⟨by decide, dma_layout_agrees .tx 0 0xfbf60000 0 32768 (by decide) fun _ => 0⟩

/-! ## The region in memory

`DmaRegion` has the three arrays as functions of their own. This is how they lie in memory. -/

/-- Four words of metadata in memory. -/
def metadataAt (mem : Nat → UInt8) (p : Nat) : OcdpMetadata :=
  ⟨load32 fun k => mem (p + k), load32 fun k => mem (p + 4 + k), load32 fun k => mem (p + 8 + k),
    load32 fun k => mem (p + 12 + k)⟩

/-- A flag in memory. -/
def flagAt (mem : Nat → UInt8) (flags i : Nat) : UInt32 :=
  load32 fun k => mem (flags + i * 4 + k)

/-- The region as the model of the rings has it, read off the bytes. -/
def regionAt (mem : Nat → UInt8) (s : StreamPtrs) : DmaRegion where
  buffers a := mem (s.buffers + a)
  metadata i := metadataAt mem (s.metadata + i * sizeofOcdpMetadata)
  flags i := flagAt mem s.flags i

/-- The same region as far as a ring of `n` slots goes. -/
structure SameRing (n : Nat) (r r' : DmaRegion) : Prop where
  buffers : ∀ a < n * dmaBufSize, r.buffers a = r'.buffers a
  metadata : ∀ i < n, r.metadata i = r'.metadata i
  flags : ∀ i < n, r.flags i = r'.flags i

theorem SameRing.trans {n : Nat} {r r' r'' : DmaRegion} (h : SameRing n r r') (h' : SameRing n r' r'') :
    SameRing n r r'' where
  buffers a ha := (h.buffers a ha).trans (h'.buffers a ha)
  metadata i hi := (h.metadata i hi).trans (h'.metadata i hi)
  flags i hi := (h.flags i hi).trans (h'.flags i hi)

theorem metadataAt_congr {mem mem' : Nat → UInt8} {p : Nat} (h : ∀ k < 16, mem' (p + k) = mem (p + k)) :
    metadataAt mem' p = metadataAt mem p := by
  have hword : ∀ off, off + 4 ≤ 16 →
      (load32 fun k => mem' (p + off + k)) = load32 fun k => mem (p + off + k) := by
    intro off hoff
    apply load32_congr
    intro k hk
    rw [Nat.add_assoc]
    exact h (off + k) (by omega)
  have hfirst : (load32 fun k => mem' (p + k)) = load32 fun k => mem (p + k) :=
    load32_congr fun k hk => h k (by omega)
  unfold metadataAt
  rw [hfirst, hword 4 (by decide), hword 8 (by decide), hword 12 (by decide)]

theorem flagAt_congr {mem mem' : Nat → UInt8} {flags i : Nat}
    (h : ∀ k < 4, mem' (flags + i * 4 + k) = mem (flags + i * 4 + k)) :
    flagAt mem' flags i = flagAt mem flags i :=
  load32_congr h

/-- A flag inside a `memset`. -/
theorem flagAt_memset {flags i len : Nat} (v : UInt8) (s : AccessLog Nat UInt8)
    (h : i * 4 + 4 ≤ len) :
    flagAt ((memset flags v len).run s).2.mem flags i = load32 fun _ => v := by
  apply load32_congr
  intro k hk
  rw [memset, Access.fill_mem, if_pos (by omega)]

/-- A flag behind it. -/
theorem flagAt_memset_of_ge {flags i len : Nat} (v : UInt8) (s : AccessLog Nat UInt8)
    (h : len ≤ i * 4) :
    flagAt ((memset flags v len).run s).2.mem flags i = flagAt s.mem flags i := by
  apply flagAt_congr
  intro k hk
  rw [memset, Access.fill_mem, if_neg (by omega)]

/-- **What the set-up does to a region**: its flags are set, and nothing else in the ring changes. -/
theorem configureStream_region (flag : UInt8) (dir : UInt32) (va : Nat) (pa : UInt64) (props : Nat)
    (n : UInt32) (h : RegionFits pa n) (mem : Nat → UInt8) :
    SameRing n.toNat
      (regionAt ((configureStream flag dir va pa props n).run ⟨mem, []⟩).2.mem
        ((configureStream flag dir va pa props n).run ⟨mem, []⟩).1.1)
      { regionAt mem ((configureStream flag dir va pa props n).run ⟨mem, []⟩).1.1 with
        flags := fun _ => load32 fun _ => flag } := by
  have hmetadata := toNat_mul_dmaBufSize h
  generalize hflags : va + (n * dmaBufSize32).toNat + sizeofOcdpMetadata * n.toNat = flags
  unfold sizeofOcdpMetadata at hflags
  have hmem : ((configureStream flag dir va pa props n).run ⟨mem, []⟩).2.mem
      = ((memset flags flag (n.toNat * 4)).run ⟨mem, []⟩).2.mem := by
    rw [← hflags]
    rfl
  have hbelow : ∀ a < flags, ((memset flags flag (n.toNat * 4)).run ⟨mem, []⟩).2.mem a = mem a := by
    intro a ha
    rw [memset, Access.fill_mem, if_neg (by omega)]
  rw [hmem]
  refine ⟨?_, ?_, ?_⟩
  · intro a ha
    unfold dmaBufSize at ha
    exact hbelow (va + a) (by omega)
  · intro i hi
    apply metadataAt_congr
    intro k hk
    apply hbelow
    show va + (n * dmaBufSize32).toNat + i * 16 + k < flags
    omega
  · intro i hi
    show flagAt _ (va + (n * dmaBufSize32).toNat + 16 * n.toNat) i = _
    rw [hflags]
    exact flagAt_memset flag _ (by omega)

/-- The stream of the driver. -/
def DmaPath.stream : DmaPath → Driver → DmaStream
  | .tx => Driver.txDmaStream
  | .rx => Driver.rxDmaStream

/-- **`probeStreams` is what `probe` does in memory**, region by region. -/
theorem configure_refines (path : DmaPath) (va : Nat) (pa : UInt64) (props : Nat) (n : UInt32)
    (h : RegionFits pa n) (mem : Nat → UInt8) (d : Driver)
    (hsame : SameRing n.toNat (regionAt mem ((path.configure va pa props n).run ⟨mem, []⟩).1.1)
      (path.stream d).toDmaRegion) :
    SameRing n.toNat
      (regionAt ((path.configure va pa props n).run ⟨mem, []⟩).2.mem
        ((path.configure va pa props n).run ⟨mem, []⟩).1.1)
      (path.stream (probeStreams d n.toNat)).toDmaRegion
    ∧ ((path.configure va pa props n).run ⟨mem, []⟩).1.1.bufIndex
      = (path.stream (probeStreams d n.toNat)).bufIndex := by
  cases path with
  | tx =>
    refine ⟨(configureStream_region 1 _ va pa props n h mem).trans ?_, rfl⟩
    refine ⟨hsame.buffers, hsame.metadata, ?_⟩
    intro i hi
    show (load32 fun _ => 1) = if i < n.toNat then 0x01010101 else _
    rw [if_pos hi]
    decide
  | rx =>
    refine ⟨(configureStream_region 0 _ va pa props n h mem).trans ?_, rfl⟩
    refine ⟨hsame.buffers, hsame.metadata, ?_⟩
    intro i hi
    show (load32 fun _ => 0) = if i < n.toNat then 0 else _
    rw [if_pos hi]
    decide

end Nf10
