import Nf10.Driver.RegionLayout
import Nf10.Test.DmaTest

/-!
# Nf10 — the streams of the DMA production test

`setupStream` of `dma_test.cxx` carves a stream out of the test's DMA memory: buffers, metadata and
flags from `*offset` on, the same addresses for the device, and the flags set to what their owner
expects. `main` calls it twice, and `*offset` is its allocator.

The layout is right as long as nothing leaves 32 bits. The `memset` is not: it clears or sets
`bufSize` flags where there are `nCpuBufs`. So **`setupStream_carves_iff`**: with larger buffers than
there are of them it runs over the stream behind it, and with smaller ones it leaves flags as they
were.

`OCDP.h` of the test is `ocdp.h` of the driver in a namespace, and its names are used from there.
-/

namespace Nf10.DmaTest

/-! ## The two calls

`main` sets up the stream from the CPU and then the one to it, in one region. The second call goes
on at the offset where the first one stopped. -/

/-- `struct Stream` -/
structure Stream where
  bufSize : UInt32
  nBufs : UInt32
  buffers : Nat
  metadata : Nat
  flags : Nat
  doorbell : Nat
deriving DecidableEq, Repr

/-- What a call leaves behind: the stream, the registers at `p`, and `*offset`. -/
structure SetUp where
  stream : Stream
  props : OcdpProperties
  offset : UInt32
deriving DecidableEq, Repr

/-- `setupStream`. The only memory it writes are flags; the registers are the device's. -/
def setupStream (p : Nat) (isToCpu : Bool) (nCpuBufs nFpgaBufs bufSize : UInt32) (cpuBase : Nat)
    (dmaBase : UInt64) (offset : UInt32) : Access Nat UInt8 SetUp := do
  let buffers := cpuBase + offset.toNat
  let metadata := buffers + (nCpuBufs * bufSize).toNat
  let flags := metadata + sizeofOcdpMetadata * nCpuBufs.toNat
  memset flags (if isToCpu then 0 else 1) (bufSize.toNat * 4)
  pure
    { stream :=
        { bufSize := bufSize
          nBufs := nCpuBufs
          buffers := buffers
          metadata := metadata
          flags := flags
          doorbell := p + nRemoteDoneOffset }
      props :=
        { nLocalBuffers := nFpgaBufs
          nRemoteBuffers := nCpuBufs
          localBufferBase := 0
          localMetadataBase := nFpgaBufs * bufSize
          localBufferSize := bufSize
          localMetadataSize := UInt32.ofNat sizeofOcdpMetadata
          memoryBytes := 32 * 1024
          remoteBufferBase := (dmaBase + UInt64.ofNat (buffers - cpuBase)).toUInt32
          remoteMetadataBase := (dmaBase + UInt64.ofNat (metadata - cpuBase)).toUInt32
          remoteBufferSize := bufSize
          remoteMetadataSize := UInt32.ofNat sizeofOcdpMetadata
          remoteFlagBase := (dmaBase + UInt64.ofNat (flags - cpuBase)).toUInt32
          remoteFlagPitch := 4
          control := ocdpControl (if isToCpu then ocdpControlProducer else ocdpControlConsumer)
            ocdpActiveMessage }
      offset := UInt32.ofNat (offset.toNat + (flags + 4 * nCpuBufs.toNat - buffers)) }

/-- The variables of `main` that configure the streams. -/
structure StreamConfig where
  nCpuBufs : UInt32
  nFpgaBufs : UInt32
  bufSize : UInt32
  cpuBase : Nat
  dmaBase : UInt64
  dmaOffset : UInt32
  dp0Props : Nat
  dp1Props : Nat
deriving DecidableEq, Repr

namespace StreamConfig

variable (c : StreamConfig) (mem : Nat → UInt8)

/-- A call with the test's own arguments. -/
def setup (p : Nat) (isToCpu : Bool) (offset : UInt32) : Access Nat UInt8 SetUp :=
  setupStream p isToCpu c.nCpuBufs c.nFpgaBufs c.bufSize c.cpuBase c.dmaBase offset

/-- The first call, with what it writes on record. -/
def fromCpu : SetUp × AccessLog Nat UInt8 :=
  (c.setup c.dp0Props false c.dmaOffset).run ⟨mem, []⟩

/-- The second call, in the memory and at the offset that the first one left. -/
def toCpu : SetUp × AccessLog Nat UInt8 :=
  (c.setup c.dp1Props true (c.fromCpu mem).1.offset).run ⟨(c.fromCpu mem).2.mem, []⟩

end StreamConfig

/-! ## What is asked of them

What the two calls are for: two streams that fill the region between the offsets without a gap,
whose flags say who owns each buffer, with nothing else written and the device's addresses those of
the CPU. -/

/-- The flags of a stream. -/
def Stream.flagExtent (s : Stream) : Extent :=
  ⟨s.flags, 4 * s.nBufs.toNat⟩

/-- The three ranges of a stream. -/
def Stream.extents (s : Stream) : List Extent :=
  [⟨s.buffers, s.nBufs.toNat * s.bufSize.toNat⟩, ⟨s.metadata, sizeofOcdpMetadata * s.nBufs.toNat⟩,
    s.flagExtent]

/-- The device has the stream where the CPU has it. -/
structure BasesRight (cpuBase : Nat) (dmaBase : UInt64) (u : SetUp) : Prop where
  buffers : u.props.remoteBufferBase.toNat = dmaBase.toNat + (u.stream.buffers - cpuBase)
  metadata : u.props.remoteMetadataBase.toNat = dmaBase.toNat + (u.stream.metadata - cpuBase)
  flags : u.props.remoteFlagBase.toNat = dmaBase.toNat + (u.stream.flags - cpuBase)

/-- Two streams side by side, ready to use, and nothing written but their flags. -/
structure Carved (c : StreamConfig) (mem : Nat → UInt8) : Prop where
  tiles : Extent.Tiles ((c.fromCpu mem).1.stream.extents ++ (c.toCpu mem).1.stream.extents)
    (c.cpuBase + c.dmaOffset.toNat) (c.cpuBase + (c.toCpu mem).1.offset.toNat)
  fromFlags : ∀ i < c.nCpuBufs.toNat,
    flagAt (c.toCpu mem).2.mem (c.fromCpu mem).1.stream.flags i ≠ 0
  toFlags : ∀ i < c.nCpuBufs.toNat,
    flagAt (c.toCpu mem).2.mem (c.toCpu mem).1.stream.flags i = 0
  fromWrites : ∀ a ∈ (c.fromCpu mem).2.touched, a ∈ (c.fromCpu mem).1.stream.flagExtent.bytes
  toWrites : ∀ a ∈ (c.toCpu mem).2.touched, a ∈ (c.toCpu mem).1.stream.flagExtent.bytes
  fromBases : BasesRight c.cpuBase c.dmaBase (c.fromCpu mem).1
  toBases : BasesRight c.cpuBase c.dmaBase (c.toCpu mem).1

namespace StreamConfig

variable (c : StreamConfig)

/-- How many bytes the buffers of a stream take up. -/
def bufferBytes : Nat :=
  c.nCpuBufs.toNat * c.bufSize.toNat

/-- Where the flags of a stream are in it. -/
def flagOffset : Nat :=
  c.bufferBytes + 16 * c.nCpuBufs.toNat

/-- How many bytes a stream takes up. -/
def streamBytes : Nat :=
  c.flagOffset + 4 * c.nCpuBufs.toNat

/-- There is room for both streams below the largest offset. -/
def HasRoom : Prop :=
  c.dmaOffset.toNat + 2 * c.streamBytes < 2 ^ 32

instance : Decidable c.HasRoom :=
  inferInstanceAs (Decidable (_ < _))

/-- The streams and their addresses fit in 32 bits, there are at least as many buffers as a buffer has
bytes, and the flags from number `bufSize` on happen to be right before the calls. -/
structure Suits (mem : Nat → UInt8) : Prop where
  room : c.HasRoom
  bases : c.dmaBase.toNat + (c.dmaOffset.toNat + c.streamBytes + c.flagOffset) < 2 ^ 32
  enough : c.bufSize ≤ c.nCpuBufs
  fromTail : ∀ i, c.bufSize.toNat ≤ i → i < c.nCpuBufs.toNat →
    flagAt mem (c.cpuBase + c.dmaOffset.toNat + c.flagOffset) i ≠ 0
  toTail : ∀ i, c.bufSize.toNat ≤ i → i < c.nCpuBufs.toNat →
    flagAt mem (c.cpuBase + (c.dmaOffset.toNat + c.streamBytes) + c.flagOffset) i = 0

/-! ## One call

The addresses are sums in 32 and in 64 bits. Where the products stay below `2 ^ 32` they are sums of
naturals, except for the registers and the offset, which may wrap. -/

/-- A call at offset `o`, in numbers that do not wrap. -/
structure Placed (mem : Nat → UInt8) (v : UInt8) (o : Nat) (r : SetUp × AccessLog Nat UInt8) :
    Prop where
  nBufs : r.1.stream.nBufs = c.nCpuBufs
  bufSize : r.1.stream.bufSize = c.bufSize
  buffers : r.1.stream.buffers = c.cpuBase + o
  metadata : r.1.stream.metadata = c.cpuBase + o + c.bufferBytes
  flags : r.1.stream.flags = c.cpuBase + o + c.flagOffset
  offset : r.1.offset.toNat = (o + c.streamBytes) % 2 ^ 32
  remoteBufferBase : r.1.props.remoteBufferBase.toNat = (c.dmaBase.toNat + o) % 2 ^ 32
  remoteMetadataBase :
    r.1.props.remoteMetadataBase.toNat = (c.dmaBase.toNat + (o + c.bufferBytes)) % 2 ^ 32
  remoteFlagBase :
    r.1.props.remoteFlagBase.toNat = (c.dmaBase.toNat + (o + c.flagOffset)) % 2 ^ 32
  log : r.2 = ((memset (c.cpuBase + o + c.flagOffset) v (c.bufSize.toNat * 4)).run ⟨mem, []⟩).2

variable {c} {mem : Nat → UInt8} {v : UInt8} {o : Nat} {r : SetUp × AccessLog Nat UInt8}

/-- A base register: the sum is made in 64 bits and stored in 32. -/
theorem toNat_base (dmaBase : UInt64) (base off : Nat) :
    ((dmaBase + UInt64.ofNat (base + off - base)).toUInt32).toNat
      = (dmaBase.toNat + off) % 2 ^ 32 := by
  rw [Nat.add_sub_cancel_left, UInt64.toNat_toUInt32, UInt64.toNat_add, UInt64.toNat_ofNat']
  omega

theorem setup_placed (hprod : c.bufferBytes < 2 ^ 32) (p : Nat) (isToCpu : Bool) (offset : UInt32)
    (mem : Nat → UInt8) :
    c.Placed mem (if isToCpu then 0 else 1) offset.toNat ((c.setup p isToCpu offset).run ⟨mem, []⟩) := by
  have hbytes : (c.nCpuBufs * c.bufSize).toNat = c.bufferBytes := by
    rw [UInt32.toNat_mul]
    exact Nat.mod_eq_of_lt hprod
  have hflags : c.cpuBase + offset.toNat + (c.nCpuBufs * c.bufSize).toNat
      + sizeofOcdpMetadata * c.nCpuBufs.toNat = c.cpuBase + offset.toNat + c.flagOffset := by
    rw [hbytes, Nat.add_assoc]
    rfl
  refine ⟨rfl, rfl, rfl, congrArg _ hbytes, hflags, ?_, toNat_base _ _ _, ?_, ?_, ?_⟩
  · show (UInt32.ofNat (offset.toNat + (c.cpuBase + offset.toNat + (c.nCpuBufs * c.bufSize).toNat
      + sizeofOcdpMetadata * c.nCpuBufs.toNat + 4 * c.nCpuBufs.toNat
      - (c.cpuBase + offset.toNat)))).toNat = _
    rw [hflags, UInt32.toNat_ofNat', Nat.add_assoc _ c.flagOffset, Nat.add_sub_cancel_left]
    rfl
  · show ((c.dmaBase + UInt64.ofNat (c.cpuBase + offset.toNat + (c.nCpuBufs * c.bufSize).toNat
      - c.cpuBase)).toUInt32).toNat = _
    rw [hbytes, Nat.add_assoc]
    exact toNat_base _ _ _
  · show ((c.dmaBase + UInt64.ofNat (c.cpuBase + offset.toNat + (c.nCpuBufs * c.bufSize).toNat
      + sizeofOcdpMetadata * c.nCpuBufs.toNat - c.cpuBase)).toUInt32).toNat = _
    rw [hflags, Nat.add_assoc]
    exact toNat_base _ _ _
  · show ((memset (c.cpuBase + offset.toNat + (c.nCpuBufs * c.bufSize).toNat
      + sizeofOcdpMetadata * c.nCpuBufs.toNat) _ _).run ⟨mem, []⟩).2 = _
    rw [hflags]

namespace Placed

/-- The three ranges of the stream are a chain from its offset on. -/
theorem extents (h : c.Placed mem v o r) :
    r.1.stream.extents = Extent.chain (c.cpuBase + o)
      [c.bufferBytes, 16 * c.nCpuBufs.toNat, 4 * c.nCpuBufs.toNat] := by
  simp only [Stream.extents, Stream.flagExtent, h.nBufs, h.bufSize, h.buffers, h.metadata, h.flags,
    Extent.chain, flagOffset, bufferBytes, sizeofOcdpMetadata, Nat.add_assoc]

/-- The initialisation stays in the flags if there are enough of them. -/
theorem writes_iff (h : c.Placed mem v o r) (hb : 1 ≤ c.bufSize.toNat) :
    (∀ a ∈ r.2.touched, a ∈ r.1.stream.flagExtent.bytes) ↔ c.bufSize ≤ c.nCpuBufs := by
  have htouched : ∀ a, a ∈ r.2.touched ↔
      r.1.stream.flags ≤ a ∧ a < r.1.stream.flags + c.bufSize.toNat * 4 := by
    intro a
    rw [h.log, h.flags, memset, Access.mem_touched_fill]
    simp
  rw [UInt32.le_iff_toNat_le]
  constructor
  · intro hall
    -- the last byte it writes
    have hlast := hall (r.1.stream.flags + (c.bufSize.toNat * 4 - 1)) ((htouched _).mpr (by omega))
    rw [Extent.mem_bytes, Stream.flagExtent, h.nBufs] at hlast
    dsimp only at hlast
    omega
  · intro hle a ha
    have hin := (htouched a).mp ha
    rw [Extent.mem_bytes, Stream.flagExtent, h.nBufs]
    dsimp only
    omega

/-- The flags come last, so theirs is the address that decides. -/
theorem bases_iff (h : c.Placed mem v o r) :
    BasesRight c.cpuBase c.dmaBase r.1 ↔ c.dmaBase.toNat + (o + c.flagOffset) < 2 ^ 32 := by
  constructor
  · intro hbases
    have hflags := hbases.flags
    rw [h.remoteFlagBase, h.flags, Nat.add_assoc, Nat.add_sub_cancel_left] at hflags
    omega
  · intro hlt
    have hmetadata : c.bufferBytes ≤ c.flagOffset := Nat.le_add_right _ _
    refine ⟨?_, ?_, ?_⟩
    · rw [h.remoteBufferBase, h.buffers, Nat.add_sub_cancel_left]
      exact Nat.mod_eq_of_lt (by omega)
    · rw [h.remoteMetadataBase, h.metadata, Nat.add_assoc, Nat.add_sub_cancel_left]
      exact Nat.mod_eq_of_lt (by omega)
    · rw [h.remoteFlagBase, h.flags, Nat.add_assoc, Nat.add_sub_cancel_left]
      exact Nat.mod_eq_of_lt hlt

/-- A call writes nothing below its flags. -/
theorem mem_below (h : c.Placed mem v o r) {a : Nat} (ha : a < c.cpuBase + o + c.flagOffset) :
    r.2.mem a = mem a := by
  rw [h.log, memset, Access.fill_mem, if_neg (by omega)]

/-- With enough flags, nor behind them. -/
theorem mem_behind (h : c.Placed mem v o r) (hle : c.bufSize ≤ c.nCpuBufs) {a : Nat}
    (ha : c.cpuBase + (o + c.streamBytes) ≤ a) : r.2.mem a = mem a := by
  have hle : c.bufSize.toNat ≤ c.nCpuBufs.toNat := hle
  unfold streamBytes at ha
  rw [h.log, memset, Access.fill_mem, if_neg (by omega)]

/-- The first `bufSize` flags are what the `memset` writes. -/
theorem flagAt_of_lt (h : c.Placed mem v o r) {i : Nat} (hi : i < c.bufSize.toNat) :
    flagAt r.2.mem (c.cpuBase + o + c.flagOffset) i = load32 fun _ => v := by
  rw [h.log]
  exact flagAt_memset v _ (by omega)

/-- The flags behind them are what they were. -/
theorem flagAt_of_ge (h : c.Placed mem v o r) {i : Nat} (hi : c.bufSize.toNat ≤ i) :
    flagAt r.2.mem (c.cpuBase + o + c.flagOffset) i
      = flagAt mem (c.cpuBase + o + c.flagOffset) i := by
  rw [h.log]
  exact flagAt_memset_of_ge v _ (by omega)

/-- The last byte of a stream is a flag's. -/
theorem last_mem_extents (h : c.Placed mem v o r) (hn : 1 ≤ c.nCpuBufs.toNat) :
    r.1.stream.flagExtent ∈ r.1.stream.extents
      ∧ c.cpuBase + o + c.streamBytes - 1 ∈ r.1.stream.flagExtent.bytes := by
  refine ⟨by simp [Stream.extents], ?_⟩
  rw [Extent.mem_bytes, Stream.flagExtent, h.nBufs, h.flags]
  unfold streamBytes
  dsimp only
  omega

end Placed

/-! ## Both calls

The second call writes behind the first stream, so that its flags stay; the first call may have
written over the second stream. Each requirement is turned into a condition on the numbers and on
the flags before the calls. -/

/-- The first stream is at the offset that `main` starts with. -/
theorem fromCpu_placed (hprod : c.bufferBytes < 2 ^ 32) (mem : Nat → UInt8) :
    c.Placed mem 1 c.dmaOffset.toNat (c.fromCpu mem) :=
  setup_placed hprod c.dp0Props false c.dmaOffset mem

/-- The second one is at the next offset, in 32 bits. -/
theorem toCpu_placed (hprod : c.bufferBytes < 2 ^ 32) (mem : Nat → UInt8) :
    c.Placed (c.fromCpu mem).2.mem 0 ((c.dmaOffset.toNat + c.streamBytes) % 2 ^ 32) (c.toCpu mem) := by
  rw [← (fromCpu_placed hprod mem).offset]
  exact setup_placed hprod c.dp1Props true (c.fromCpu mem).1.offset (c.fromCpu mem).2.mem

/-- With room for both that is right behind the first. -/
theorem toCpu_placed_of_room (hprod : c.bufferBytes < 2 ^ 32) (hroom : c.HasRoom)
    (mem : Nat → UInt8) :
    c.Placed (c.fromCpu mem).2.mem 0 (c.dmaOffset.toNat + c.streamBytes) (c.toCpu mem) := by
  unfold HasRoom at hroom
  have hplaced := toCpu_placed hprod mem
  rwa [Nat.mod_eq_of_lt (by omega)] at hplaced

/-- **The six ranges tile** what `*offset` has moved over, unless it has wrapped. -/
theorem tiles_iff (hprod : c.bufferBytes < 2 ^ 32) (hn : 1 ≤ c.nCpuBufs.toNat) (mem : Nat → UInt8) :
    Extent.Tiles ((c.fromCpu mem).1.stream.extents ++ (c.toCpu mem).1.stream.extents)
        (c.cpuBase + c.dmaOffset.toNat) (c.cpuBase + (c.toCpu mem).1.offset.toNat)
      ↔ c.HasRoom := by
  have hfrom := fromCpu_placed hprod mem
  have hto := toCpu_placed hprod mem
  constructor
  · intro h
    have hfinal := (c.toCpu mem).1.offset.toNat_lt
    -- a stream that ended behind the final offset would not be covered
    obtain ⟨hmem, hlast⟩ := hfrom.last_mem_extents hn
    have hfirst := (h.bounds (List.mem_append_left _ hmem) hlast).2
    obtain ⟨hmem', hlast'⟩ := hto.last_mem_extents hn
    have hsecond := (h.bounds (List.mem_append_right _ hmem') hlast').2
    have hpos : 1 ≤ c.streamBytes := by
      unfold streamBytes
      omega
    have hmiddle : (c.dmaOffset.toNat + c.streamBytes) % 2 ^ 32
        = c.dmaOffset.toNat + c.streamBytes := Nat.mod_eq_of_lt (by omega)
    rw [hmiddle] at hsecond
    unfold HasRoom
    omega
  · intro hroom
    have hto := toCpu_placed_of_room hprod hroom mem
    unfold HasRoom at hroom
    have hchain : (c.fromCpu mem).1.stream.extents ++ (c.toCpu mem).1.stream.extents
        = Extent.chain (c.cpuBase + c.dmaOffset.toNat)
          ([c.bufferBytes, 16 * c.nCpuBufs.toNat, 4 * c.nCpuBufs.toNat]
            ++ [c.bufferBytes, 16 * c.nCpuBufs.toNat, 4 * c.nCpuBufs.toNat]) := by
      rw [hfrom.extents, hto.extents, Extent.chain_append]
      simp only [List.sum_cons, List.sum_nil, streamBytes, flagOffset, Nat.add_assoc, Nat.add_zero]
    have hend : c.cpuBase + (c.toCpu mem).1.offset.toNat = c.cpuBase + c.dmaOffset.toNat
        + ([c.bufferBytes, 16 * c.nCpuBufs.toNat, 4 * c.nCpuBufs.toNat]
            ++ [c.bufferBytes, 16 * c.nCpuBufs.toNat, 4 * c.nCpuBufs.toNat]).sum := by
      rw [hto.offset, Nat.mod_eq_of_lt (by omega)]
      simp only [List.cons_append, List.nil_append, List.sum_cons, List.sum_nil, streamBytes,
        flagOffset]
      omega
    rw [hchain, hend]
    exact Extent.tiles_chain _ _

/-- **The flags after both calls**: those the `memset` reaches, and those it leaves. -/
theorem fromFlags_iff (hprod : c.bufferBytes < 2 ^ 32) (hroom : c.HasRoom) (mem : Nat → UInt8) :
    (∀ i < c.nCpuBufs.toNat, flagAt (c.toCpu mem).2.mem (c.fromCpu mem).1.stream.flags i ≠ 0)
      ↔ ∀ i, c.bufSize.toNat ≤ i → i < c.nCpuBufs.toNat →
        flagAt mem (c.cpuBase + c.dmaOffset.toNat + c.flagOffset) i ≠ 0 := by
  have hfrom := fromCpu_placed hprod mem
  have hto := toCpu_placed_of_room hprod hroom mem
  -- the second call writes behind the first stream
  have hkept : ∀ i < c.nCpuBufs.toNat,
      flagAt (c.toCpu mem).2.mem (c.cpuBase + c.dmaOffset.toNat + c.flagOffset) i
        = flagAt (c.fromCpu mem).2.mem (c.cpuBase + c.dmaOffset.toNat + c.flagOffset) i := by
    intro i hi
    apply flagAt_congr
    intro k hk
    apply hto.mem_below
    unfold streamBytes
    omega
  rw [hfrom.flags]
  constructor
  · intro h i hge hi
    have hflag := h i hi
    rwa [hkept i hi, hfrom.flagAt_of_ge hge] at hflag
  · intro h i hi
    rw [hkept i hi]
    rcases Nat.lt_or_ge i c.bufSize.toNat with hlt | hge
    · rw [hfrom.flagAt_of_lt hlt]
      decide
    · rw [hfrom.flagAt_of_ge hge]
      exact h i hge hi

/-- The flags of the second stream are clear exactly if those that the `memset` does not reach
were clear before. -/
theorem toFlags_iff (hprod : c.bufferBytes < 2 ^ 32) (hroom : c.HasRoom)
    (hle : c.bufSize ≤ c.nCpuBufs) (mem : Nat → UInt8) :
    (∀ i < c.nCpuBufs.toNat, flagAt (c.toCpu mem).2.mem (c.toCpu mem).1.stream.flags i = 0)
      ↔ ∀ i, c.bufSize.toNat ≤ i → i < c.nCpuBufs.toNat →
        flagAt mem (c.cpuBase + (c.dmaOffset.toNat + c.streamBytes) + c.flagOffset) i = 0 := by
  have hfrom := fromCpu_placed hprod mem
  have hto := toCpu_placed_of_room hprod hroom mem
  -- the first call stays in its own stream
  have hkept : ∀ i, flagAt (c.fromCpu mem).2.mem
        (c.cpuBase + (c.dmaOffset.toNat + c.streamBytes) + c.flagOffset) i
      = flagAt mem (c.cpuBase + (c.dmaOffset.toNat + c.streamBytes) + c.flagOffset) i := by
    intro i
    apply flagAt_congr
    intro k hk
    exact hfrom.mem_behind hle (by omega)
  rw [hto.flags]
  constructor
  · intro h i hge hi
    have hflag := h i hi
    rwa [hto.flagAt_of_ge hge, hkept i] at hflag
  · intro h i hi
    rcases Nat.lt_or_ge i c.bufSize.toNat with hlt | hge
    · rw [hto.flagAt_of_lt hlt]
      decide
    · rw [hto.flagAt_of_ge hge, hkept i]
      exact h i hge hi

end StreamConfig

/-- **`setupStream` carves two streams** exactly when they fit in 32 bits, no buffer has more bytes
than there are buffers, and the flags its `memset` does not reach are right already. -/
theorem setupStream_carves_iff (c : StreamConfig) (hn : 1 ≤ c.nCpuBufs) (hb : 1 ≤ c.bufSize)
    (hprod : c.nCpuBufs.toNat * c.bufSize.toNat < 2 ^ 32) (mem : Nat → UInt8) :
    Carved c mem ↔ c.Suits mem := by
  have hn : 1 ≤ c.nCpuBufs.toNat := hn
  have hb : 1 ≤ c.bufSize.toNat := hb
  have hfrom := StreamConfig.fromCpu_placed hprod mem
  constructor
  · intro h
    have hroom := (StreamConfig.tiles_iff hprod hn mem).mp h.tiles
    have hle := (hfrom.writes_iff hb).mp h.fromWrites
    have hto := StreamConfig.toCpu_placed_of_room hprod hroom mem
    exact
      { room := hroom
        bases := hto.bases_iff.mp h.toBases
        enough := hle
        fromTail := (StreamConfig.fromFlags_iff hprod hroom mem).mp h.fromFlags
        toTail := (StreamConfig.toFlags_iff hprod hroom hle mem).mp h.toFlags }
  · intro h
    have hto := StreamConfig.toCpu_placed_of_room hprod h.room mem
    have hbases := h.bases
    exact
      { tiles := (StreamConfig.tiles_iff hprod hn mem).mpr h.room
        fromFlags := (StreamConfig.fromFlags_iff hprod h.room mem).mpr h.fromTail
        toFlags := (StreamConfig.toFlags_iff hprod h.room h.enough mem).mpr h.toTail
        fromWrites := (hfrom.writes_iff hb).mpr h.enough
        toWrites := (hto.writes_iff hb).mpr h.enough
        fromBases := hfrom.bases_iff.mpr (by omega)
        toBases := hto.bases_iff.mpr hbases }

/-- The eight buffers of 2048 bytes of `production_test.py`, with its four on the FPGA side. -/
def scriptConfig : StreamConfig := ⟨8, 4, 2048, 0x10000000, 0x20000000, 0, 0, 0⟩

/-- Eight buffers of four bytes. -/
def smallBuffers : StreamConfig := { scriptConfig with bufSize := 4 }

/-- With the script's numbers the flags of the first stream are set for 8192 bytes, not 32; with the
small buffers, four of them stay as they were. -/
theorem setupStream_overruns :
    ¬ Carved scriptConfig (fun _ => 0) ∧ ¬ Carved smallBuffers (fun _ => 0) := by
  constructor
  · intro h
    have hplaced := StreamConfig.fromCpu_placed (c := scriptConfig) (by decide) fun _ => 0
    have hle := (hplaced.writes_iff (by decide)).mp h.fromWrites
    exact absurd hle (by decide)
  · intro h
    have hflags := (StreamConfig.fromFlags_iff (by decide) (by decide) _).mp h.fromFlags
    exact absurd (hflags 4 (by decide) (by decide)) (by decide)

/-- As many buffers as a buffer has bytes. -/
def squareConfig : StreamConfig := { scriptConfig with nCpuBufs := 2048 }

/-- With 2048 buffers of 2048 bytes the `memset` has the right length. -/
theorem setupStream_carves_square :
    1 ≤ squareConfig.nCpuBufs ∧ 1 ≤ squareConfig.bufSize
    ∧ squareConfig.nCpuBufs.toNat * squareConfig.bufSize.toNat < 2 ^ 32
    ∧ Carved squareConfig fun _ => 0 := by
  have hnone : ∀ i, squareConfig.bufSize.toNat ≤ i → ¬ i < squareConfig.nCpuBufs.toNat := by
    intro i hge
    exact Nat.not_lt.mpr hge
  refine ⟨by decide, by decide, by decide, ?_⟩
  refine (setupStream_carves_iff squareConfig (by decide) (by decide) (by decide) _).mpr ?_
  exact
    { room := by decide
      bases := by decide
      enough := by decide
      fromTail := fun i hge hi => absurd hi (hnone i hge)
      toTail := fun i hge hi => absurd hi (hnone i hge) }

end Nf10.DmaTest
