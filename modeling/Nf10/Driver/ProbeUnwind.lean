import Nf10.Driver.Probe
import Nf10.Lib.Ledger

/-!
# Nf10 — `probe` and its unwind blocks

`probe` as a ledger of what it acquires: the enabled device, BAR0 reserved and mapped, and the DMA
regions, each with the `dma_region_size` it was allocated with, so that giving it back with another
size is on record. Seven failure points have an unwind block of their own, and the allocation loop
frees a TX region for want of its RX region and tries half the size.

All of it balances. What is wrong is one return value: running out of DMA memory unwinds everything
and returns `err`, which is 0 since the masks were set. So **`probe_all_or_nothing_iff`**: the call is
all or nothing exactly when it does not get as far as the allocations and fail all of them.
-/

namespace Nf10

/-- What a `probe` acquires from the kernel. A DMA region is freed with a size, and freeing it
with another is not giving it back. -/
inductive ProbeResource where
  | device
  | bar0Region
  | bar0Mapping
  | txDmaRegion (size : Nat)
  | rxDmaRegion (size : Nat)
deriving DecidableEq, Repr

/-- The globals of a `probe`, with what the call has acquired and whether it has armed the timer. -/
structure ProbeState where
  ledger : Ledger ProbeResource
  hwState : UInt32
  dmaCpuBufs : Nat
  dmaRegionSize : Nat
  -- Not `NULL`.
  txDmaRegVa : Bool
  rxDmaRegVa : Bool
  timerArmed : Bool
deriving DecidableEq, Repr

/-- `DMA_BUF_SIZE + OCDP_METADATA_SIZE + sizeof(uint32_t)` -/
def dmaSlotSize : Nat := dmaBufSize + 16 + 4

namespace ProbeState

/-- At the call: the globals of `g`, nothing acquired yet. -/
def entry (g : ProbeState) : ProbeState :=
  { g with ledger := .empty, timerArmed := false }

/-- The kernel grants it. -/
def acquire (s : ProbeState) (r : ProbeResource) : ProbeState :=
  { s with ledger := s.ledger.acquire r }

/-- It is given back, or something is that was not held. -/
def release (s : ProbeState) (r : ProbeResource) : ProbeState :=
  { s with ledger := s.ledger.release r }

/-- `iounmap`, `pci_release_region`, `pci_disable_device` -/
def releaseBar0 (s : ProbeState) : ProbeState :=
  ((s.release .bar0Mapping).release .bar0Region).release .device

/-- The unwind block at the end, which goes by the region size in the global. -/
def releaseAll (s : ProbeState) : ProbeState :=
  ((s.release (.rxDmaRegion s.dmaRegionSize)).release (.txDmaRegion s.dmaRegionSize)).releaseBar0

/-- The allocation loop. -/
def allocRegions (c : ProbeCalls) : List Nat → ProbeState → ProbeState
  | [], s => { s with dmaCpuBufs := 0 }
  | n :: ns, s =>
    let size := dmaSlotSize * n
    let s := { s with dmaCpuBufs := n, dmaRegionSize := size, txDmaRegVa := c.txAlloc n }
    if c.txAlloc n then
      let s := { s.acquire (.txDmaRegion size) with rxDmaRegVa := c.rxAlloc n }
      if c.rxAlloc n then s.acquire (.rxDmaRegion size)
      else allocRegions c ns (s.release (.txDmaRegion size))
    else allocRegions c ns s

/-- From the end of the loop on, with `err` as the masks left it. -/
def bringUp (s : ProbeState) (c : ProbeCalls) : ProbeState × Int :=
  if s.txDmaRegVa = false ∨ s.rxDmaRegVa = false then (s.releaseBar0, c.dmaSetCoherentMask)
  else if ¬ allSucceed c.initializeReg then (s.releaseAll, -1)
  else if ¬ allSucceed c.startReg then (s.releaseAll, -1)
  else ({ s with hwState := s.hwState ||| hwInit, timerArmed := true }, c.dmaSetCoherentMask)

/-- `probe` from `pci_resource_len` on, with BAR0 mapped. -/
def setUp (s : ProbeState) (c : ProbeCalls) : ProbeState × Int :=
  if ¬ c.bar0Size ≥ sizeofOccpSpace then (s.releaseBar0, -1)
  else if c.dmaSetMask ≠ 0 then (s.releaseBar0, c.dmaSetMask)
  else if c.dmaSetCoherentMask ≠ 0 then (s.releaseBar0, c.dmaSetCoherentMask)
  else (allocRegions c dmaCpuBufsTried s).bringUp c

/-- `probe`, with its return value. -/
def probe (s : ProbeState) (c : ProbeCalls) : ProbeState × Int :=
  let s := { s with hwState := s.hwState ||| hwFound }
  if c.pciEnableDevice ≠ 0 then (s, c.pciEnableDevice)
  else
    let s := s.acquire .device
    if c.pciRequestRegion ≠ 0 then (s.release .device, c.pciRequestRegion)
    else
      let s := s.acquire .bar0Region
      if c.pciIoremapBar = false then ((s.release .bar0Region).release .device, -12)
      else (s.acquire .bar0Mapping).setUp c

/-! ## The allocation loop

The same loop as in `Probe`, with the sizes: what is freed must be of the size that was allocated,
and the size is a global that the loop changes. -/

variable {s : ProbeState} {c : ProbeCalls}

/-- One of the two addresses is `NULL`. -/
def Null (s : ProbeState) : Prop :=
  s.txDmaRegVa = false ∨ s.rxDmaRegVa = false

/-- The first size that both allocations grant. -/
def grant (s : ProbeState) (n : Nat) : ProbeState :=
  { (s.acquire (.txDmaRegion (dmaSlotSize * n))).acquire (.rxDmaRegion (dmaSlotSize * n)) with
    dmaCpuBufs := n, dmaRegionSize := dmaSlotSize * n, txDmaRegVa := true, rxDmaRegVa := true }

/-- A size that one of them refuses: the globals move, and the ledger is as it was. -/
def refuse (s : ProbeState) (n : Nat) (tx rx : Bool) : ProbeState :=
  { s with dmaCpuBufs := n, dmaRegionSize := dmaSlotSize * n, txDmaRegVa := tx, rxDmaRegVa := rx }

/-- The first number of buffers for which both regions come. -/
theorem allocRegions_grant {n : Nat} {ns : List Nat} (h : (c.txAlloc n && c.rxAlloc n) = true) :
    allocRegions c (n :: ns) s = s.grant n := by
  obtain ⟨htx, hrx⟩ := Bool.and_eq_true_iff.mp h
  simp only [allocRegions, htx, hrx, if_true]
  rfl

/-- The TX region of a size whose RX region is refused goes back at once. -/
theorem allocRegions_refuse (s : ProbeState) (ns : List Nat) {n : Nat}
    (h : (c.txAlloc n && c.rxAlloc n) = false) :
    ∃ tx rx, (tx = false ∨ rx = false)
      ∧ allocRegions c (n :: ns) s = allocRegions c ns (s.refuse n tx rx) := by
  cases htx : c.txAlloc n with
  | false =>
    refine ⟨false, s.rxDmaRegVa, Or.inl rfl, ?_⟩
    simp only [allocRegions, htx, Bool.false_eq_true, if_false]
    rfl
  | true =>
    have hrx : c.rxAlloc n = false := by simpa [htx] using h
    refine ⟨true, false, Or.inr rfl, ?_⟩
    simp only [allocRegions, htx, hrx, Bool.false_eq_true, if_true, if_false]
    congr 1
    simp [refuse, release, acquire]

/-- **What the loop leaves.** A pair of regions of one size, or nothing and a `NULL`. -/
theorem allocRegions_cases (c : ProbeCalls) (ns : List Nat) (s : ProbeState) :
    (ns.any (fun n => c.txAlloc n && c.rxAlloc n) = true
      ∧ ∃ n ∈ ns, allocRegions c ns s = s.grant n)
    ∨ (ns.any (fun n => c.txAlloc n && c.rxAlloc n) = false
      ∧ (allocRegions c ns s).ledger = s.ledger
      ∧ (allocRegions c ns s).timerArmed = s.timerArmed
      ∧ (ns ≠ [] ∨ s.Null → (allocRegions c ns s).Null)) := by
  induction ns generalizing s with
  | nil => exact Or.inr ⟨rfl, rfl, rfl, fun h => h.resolve_left fun hne => hne rfl⟩
  | cons n ns ih =>
    rw [List.any_cons]
    cases hboth : c.txAlloc n && c.rxAlloc n with
    | true => exact Or.inl ⟨rfl, n, List.mem_cons_self .., allocRegions_grant hboth⟩
    | false =>
      obtain ⟨tx, rx, hnull, hnext⟩ := allocRegions_refuse s ns hboth
      rw [hnext, Bool.false_or]
      obtain ⟨hany, m, hm, heq⟩ | ⟨hany, hledger, htimer, hleft⟩ := ih (s.refuse n tx rx)
      · exact Or.inl ⟨hany, m, List.mem_cons_of_mem n hm, heq⟩
      · exact Or.inr ⟨hany, hledger, htimer, fun _ => hleft (Or.inr hnull)⟩

/-! ## All or nothing

What a caller of `probe` can rely on, or should be able to: zero with everything in place, or an
error with everything given back. -/

/-- What a call that went through leaves: `HW_INIT`, the timer, and these five resources. -/
structure BroughtUp (s : ProbeState) : Prop where
  hwInit : s.hwState &&& hwInit ≠ 0
  timer : s.timerArmed = true
  ledger : s.ledger = ⟨[.rxDmaRegion s.dmaRegionSize, .txDmaRegion s.dmaRegionSize, .bar0Mapping,
    .bar0Region, .device], []⟩
  size : s.dmaRegionSize = dmaSlotSize * s.dmaCpuBufs
  bufs : 1 ≤ s.dmaCpuBufs

/-- Everything the call acquired has been given back, once, and the timer is not armed. -/
structure Unwound (s : ProbeState) : Prop where
  ledger : s.ledger = .empty
  timer : s.timerArmed = false

/-- The return value says which of the two it is. -/
structure AllOrNothing (r : ProbeState × Int) : Prop where
  success : r.2 = 0 ↔ r.1.BroughtUp
  failure : r.2 ≠ 0 → r.1.Unwound

theorem Unwound.not_broughtUp (h : s.Unwound) : ¬ s.BroughtUp := by
  intro hup
  have := hup.timer
  rw [h.timer] at this
  cases this

/-- The unwind blocks end like this, all but one with an error code. -/
theorem AllOrNothing.of_unwound {err : Int} (h : s.Unwound) :
    AllOrNothing (s, err) ↔ err ≠ 0 := by
  constructor
  · intro hall herr
    exact h.not_broughtUp (hall.success.mp herr)
  · intro herr
    exact ⟨⟨fun h0 => absurd h0 herr, fun hup => absurd hup h.not_broughtUp⟩, fun _ => h⟩

theorem AllOrNothing.of_broughtUp (h : s.BroughtUp) : AllOrNothing (s, 0) :=
  ⟨⟨fun _ => h, fun _ => rfl⟩, fun hne => absurd rfl hne⟩

/-- BAR0 is mapped and nothing more has been acquired. -/
structure Mapped (s : ProbeState) : Prop where
  ledger : s.ledger = ⟨[.bar0Mapping, .bar0Region, .device], []⟩
  timer : s.timerArmed = false

/-- The short unwind block undoes the mapping. -/
theorem Mapped.releaseBar0 (h : s.Mapped) : s.releaseBar0.Unwound := by
  refine ⟨?_, h.timer⟩
  show ((s.ledger.release _).release _).release _ = _
  rw [h.ledger]
  decide

/-- The long one undoes the regions as well, as they are of the size in the global. -/
theorem Mapped.releaseAll_grant (h : s.Mapped) (n : Nat) : (s.grant n).releaseAll.Unwound := by
  have hback : (s.grant n).releaseAll = { s.releaseBar0 with
      dmaCpuBufs := n, dmaRegionSize := dmaSlotSize * n, txDmaRegVa := true, rxDmaRegVa := true } := by
    simp [grant, releaseAll, ProbeState.releaseBar0, release, acquire]
  rw [hback]
  exact ⟨h.releaseBar0.ledger, h.releaseBar0.timer⟩

end ProbeState

/-- The call gets as far as the allocation loop. -/
def ProbeCalls.ReachesAlloc (c : ProbeCalls) : Prop :=
  c.pciEnableDevice = 0 ∧ c.pciRequestRegion = 0 ∧ c.pciIoremapBar = true
    ∧ c.bar0Size ≥ sizeofOccpSpace ∧ c.dmaSetMask = 0 ∧ c.dmaSetCoherentMask = 0

/-- At no size are there both regions. -/
def ProbeCalls.OutOfMemory (c : ProbeCalls) : Prop :=
  ∀ n ∈ dmaCpuBufsTried, c.txAlloc n = false ∨ c.rxAlloc n = false

namespace ProbeState

variable {s : ProbeState} {c : ProbeCalls}

/-- The loop comes to its end exactly when there is no memory. -/
theorem any_alloc_eq_false_iff :
    dmaCpuBufsTried.any (fun n => c.txAlloc n && c.rxAlloc n) = false ↔ c.OutOfMemory := by
  simp only [ProbeCalls.OutOfMemory, List.any_eq_false, Bool.and_eq_true, not_and_or,
    Bool.not_eq_true]

theorem dmaCpuBufsTried_pos {n : Nat} (h : n ∈ dmaCpuBufsTried) : 1 ≤ n := by
  have hall : ∀ m ∈ dmaCpuBufsTried, 1 ≤ m := by decide
  exact hall n h

/-- From the allocations on. -/
theorem Mapped.bringUp (h : s.Mapped) (hmask : c.dmaSetCoherentMask = 0) :
    AllOrNothing ((allocRegions c dmaCpuBufsTried s).bringUp c) ↔ ¬ c.OutOfMemory := by
  obtain ⟨hany, n, hn, heq⟩ | ⟨hany, hledger, htimer, hnull⟩ :=
    allocRegions_cases c dmaCpuBufsTried s
  · have hmem : ¬ c.OutOfMemory := fun ho => by
      rw [any_alloc_eq_false_iff.mpr ho] at hany
      cases hany
    refine iff_of_true ?_ hmem
    rw [heq, ProbeState.bringUp, if_neg (by simp [grant])]
    split
    · exact (AllOrNothing.of_unwound (h.releaseAll_grant n)).mpr (by decide)
    · split
      · exact (AllOrNothing.of_unwound (h.releaseAll_grant n)).mpr (by decide)
      · rw [hmask]
        apply AllOrNothing.of_broughtUp
        refine ⟨Binding.or_hwInit_and_hwInit _, rfl, ?_, rfl, dmaCpuBufsTried_pos hn⟩
        show (s.ledger.acquire _).acquire _ = _
        rw [h.ledger]
        rfl
  · have hmem : c.OutOfMemory := any_alloc_eq_false_iff.mp hany
    have hmapped : (allocRegions c dmaCpuBufsTried s).Mapped :=
      ⟨hledger.trans h.ledger, htimer.trans h.timer⟩
    have hgone : (allocRegions c dmaCpuBufsTried s).txDmaRegVa = false
        ∨ (allocRegions c dmaCpuBufsTried s).rxDmaRegVa = false := hnull (Or.inl (by decide))
    rw [ProbeState.bringUp, if_pos hgone, AllOrNothing.of_unwound hmapped.releaseBar0]
    simp [hmask, hmem]

/-- **The one bad end.** From the mapping on, the call is all or nothing unless the allocation
loop fails: there `err` is still zero. -/
theorem Mapped.setUp (h : s.Mapped) :
    AllOrNothing (s.setUp c) ↔
      ¬ (c.bar0Size ≥ sizeofOccpSpace ∧ c.dmaSetMask = 0 ∧ c.dmaSetCoherentMask = 0
        ∧ c.OutOfMemory) := by
  unfold ProbeState.setUp
  split
  · next hsize =>
    rw [AllOrNothing.of_unwound h.releaseBar0]
    simp [hsize]
  · next hsize =>
    split
    · next hmask =>
      rw [AllOrNothing.of_unwound h.releaseBar0]
      simp [hmask]
    · next hmask =>
      split
      · next hcoherent =>
        rw [AllOrNothing.of_unwound h.releaseBar0]
        simp [hcoherent]
      · next hcoherent =>
        rw [h.bringUp (not_not.mp hcoherent)]
        simp [not_not.mp hsize, not_not.mp hmask, not_not.mp hcoherent]

/-- **`probe` is all or nothing** exactly when it does not come to the allocation loop and find no size
at which both regions are to be had. -/
theorem probe_all_or_nothing_iff (g : ProbeState) (c : ProbeCalls) :
    AllOrNothing (g.entry.probe c) ↔ ¬ (c.ReachesAlloc ∧ c.OutOfMemory) := by
  unfold ProbeState.probe ProbeCalls.ReachesAlloc
  dsimp only
  have hentry : ({ g.entry with hwState := g.entry.hwState ||| hwFound } : ProbeState).Unwound :=
    ⟨rfl, rfl⟩
  split
  · next henable =>
    rw [AllOrNothing.of_unwound hentry]
    simp [henable]
  · next henable =>
    split
    · next hrequest =>
      rw [AllOrNothing.of_unwound ⟨by simp [release, acquire, entry], rfl⟩]
      simp [hrequest]
    · next hrequest =>
      split
      · next hremap =>
        rw [AllOrNothing.of_unwound ⟨by simp [release, acquire, entry], rfl⟩]
        simp [hremap]
      · next hremap =>
        rw [Mapped.setUp ⟨rfl, rfl⟩]
        simp [not_not.mp henable, not_not.mp hrequest, Bool.eq_true_of_not_eq_false hremap,
          and_assoc]

/-- Every call answers as it should but the allocations. -/
def noDmaMemory : ProbeCalls where
  pciEnableDevice := 0
  pciRequestRegion := 0
  pciIoremapBar := true
  bar0Size := sizeofOccpSpace
  dmaSetMask := 0
  dmaSetCoherentMask := 0
  txAlloc _ := false
  rxAlloc _ := false
  initializeReg _ := occpSuccessResult
  startReg _ := occpSuccessResult
  txContent := ⟨fun _ => 0, fun _ => ⟨0, 0, 0, 0⟩, fun _ => 0⟩
  rxContent := ⟨fun _ => 0, fun _ => ⟨0, 0, 0, 0⟩, fun _ => 0⟩

/-- The globals of a freshly loaded module. -/
def freshGlobals : ProbeState := ⟨.empty, 0, 0, 0, false, false, false⟩

/-- It returns 0 and the kernel binds a device that was disabled again. -/
theorem probe_no_dma_memory : ¬ AllOrNothing (freshGlobals.entry.probe noDmaMemory) := by
  intro h
  have hup := h.success.mp (by decide +kernel)
  exact absurd hup.timer (by decide +kernel)

/-! ## The same call in `Binding`

`Binding` has `probe` for the sake of the memory behind the streams; this model has it for the sake
of the unwinding. They return the same. -/

/-- What the end of a call returns: 0 also for want of memory. -/
def bringUpRet (c : ProbeCalls) : Int :=
  if dmaCpuBufsTried.any (fun n => c.txAlloc n && c.rxAlloc n) = false then 0
  else if ¬ allSucceed c.initializeReg then -1
  else if ¬ allSucceed c.startReg then -1
  else 0

theorem bringUp_ret (s : ProbeState) (hmask : c.dmaSetCoherentMask = 0) :
    ((allocRegions c dmaCpuBufsTried s).bringUp c).2 = bringUpRet c := by
  obtain ⟨hany, n, -, heq⟩ | ⟨hany, -, -, hnull⟩ := allocRegions_cases c dmaCpuBufsTried s
  · have hboth : ¬ ((s.grant n).txDmaRegVa = false ∨ (s.grant n).rxDmaRegVa = false) := by
      simp [grant]
    have hsome : ¬ dmaCpuBufsTried.any (fun n => c.txAlloc n && c.rxAlloc n) = false := by
      simp only [hany, Bool.true_eq_false, not_false_eq_true]
    rw [heq, ProbeState.bringUp, bringUpRet, if_neg hboth, if_neg hsome]
    split
    · rfl
    · split
      · rfl
      · exact hmask
  · have hgone : (allocRegions c dmaCpuBufsTried s).txDmaRegVa = false
        ∨ (allocRegions c dmaCpuBufsTried s).rxDmaRegVa = false := hnull (Or.inl (by decide))
    rw [ProbeState.bringUp, bringUpRet, if_pos hgone, if_pos hany, hmask]

theorem binding_bringUp_ret (b : Binding) :
    ((Binding.allocRegions c dmaCpuBufsTried b).bringUp c).2 = bringUpRet c := by
  obtain ⟨hany, t, r, htx, hrx, -⟩ | ⟨hany, hnull⟩ :=
    Binding.allocRegions_regions c dmaCpuBufsTried b
  · have hboth : ¬ ((Binding.allocRegions c dmaCpuBufsTried b).txDmaRegVa = none
        ∨ (Binding.allocRegions c dmaCpuBufsTried b).rxDmaRegVa = none) := by
      simp [htx, hrx]
    have hsome : ¬ dmaCpuBufsTried.any (fun n => c.txAlloc n && c.rxAlloc n) = false := by
      simp only [hany, Bool.true_eq_false, not_false_eq_true]
    rw [Binding.bringUp, bringUpRet, if_neg hboth, if_neg hsome]
    split
    · rfl
    · dsimp only
      split <;> rfl
  · rw [Binding.bringUp, bringUpRet, if_pos (hnull (Or.inl (by decide))), if_pos hany]

/-- The return value is that of `Binding.probe`, which follows the memory behind the streams. -/
theorem probe_ret (g : ProbeState) (b : Binding) (c : ProbeCalls) :
    (g.probe c).2 = (b.probe c).2 := by
  unfold ProbeState.probe Binding.probe
  dsimp only
  split
  · rfl
  · split
    · rfl
    · split
      · rfl
      · unfold ProbeState.setUp
        split
        · rfl
        · split
          · rfl
          · split
            · rfl
            · next hmask => rw [bringUp_ret _ (not_not.mp hmask), binding_bringUp_ret]

end ProbeState

end Nf10
