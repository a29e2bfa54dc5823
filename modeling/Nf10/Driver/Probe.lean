import Nf10.Driver.Polling

/-!
# Nf10 — binding and unbinding the device

`probe` and `remove`, and the memory they take and give back: the two DMA regions and the mapping
of BAR0. `hw_state`, `rx_poll_timer` and NAPI stand between this memory and everybody who uses it,
and `remove` touches none of the three.

* **`hwInit_guards_memory`** — the memory behind the streams is live whenever one of the three says
  so, exactly in the runs in which no `remove`, and no probe that gives up while it starts the
  workers, takes that memory away under them (`Unhurt`);
* **`unbind_leaves_hwInit`** — the first unbinding of an initialized device already does.

Allocations and mappings are numbered in the order they are made, so that an address that is handed
out again does not bring a freed region back to life.
-/

namespace Nf10

/-! ## What the driver holds

Memory is numbered as it is handed out, and never twice, so a pointer that is kept after its memory
was freed is told from one to new memory. The driver's globals hold one set of pointers for all the
devices it is bound to. -/

/-- The globals that `probe` and `remove` share, and the kernel's side of them. The driver is bound
to `bound` devices, one pair of regions and one mapping serving them all. -/
structure Binding where
  polling : Polling
  next : Nat
  live : Nat → Bool
  txDmaRegVa : Option Nat
  rxDmaRegVa : Option Nat
  bar0BaseVa : Option Nat
  -- The regions `tx_dma_stream` and `rx_dma_stream` point into, the mapping of their doorbells.
  txRegion : Option Nat
  rxRegion : Option Nat
  doorbells : Option Nat
  bound : Nat
  -- Memory that is not live has been read or written.
  stray : Bool

/-- The OpenCPI workers that `probe` initializes and starts. -/
inductive Worker where
  | dp0
  | dp1
  | sma0
  | sma1
  | bias
  | nf10
deriving DecidableEq, Repr

/-- What a worker's control register reads when its operation succeeded (`OCCP_SUCCESS_RESULT`). -/
def occpSuccessResult : UInt32 := 0xc0de4201

/-- `sizeof(OccpSpace)`: the admin page, 15 control pages and 15 property areas. -/
def sizeofOccpSpace : UInt32 := 0x10000 + 15 * 0x10000 + 15 * 0x100000

/-- What the kernel and the hardware answer to the calls and register reads of a `probe`. -/
structure ProbeCalls where
  pciEnableDevice : Int
  pciRequestRegion : Int
  pciIoremapBar : Bool
  bar0Size : UInt32
  dmaSetMask : Int
  dmaSetCoherentMask : Int
  -- `dma_alloc_coherent` of each region, by the number of buffers asked for
  txAlloc : Nat → Bool
  rxAlloc : Nat → Bool
  initializeReg : Worker → UInt32
  startReg : Worker → UInt32
  -- what the new regions hold
  txContent : DmaRegion
  rxContent : DmaRegion

/-- All six workers answer with success. -/
def allSucceed (answer : Worker → UInt32) : Bool :=
  [Worker.dp0, .dp1, .sma0, .sma1, .bias, .nf10].all fun w => answer w == occpSuccessResult

/-- `dma_cpu_bufs` in the allocation loop: from `DMA_CPU_BUFS` down to `MIN_DMA_CPU_BUFS`. -/
def dmaCpuBufsTried : List Nat :=
  List.iterate (· / 2) dmaCpuBufsMax 16

namespace Binding

/-- The module has been loaded and no device has been found. -/
def loaded (d : Driver) : Binding where
  polling := ⟨{ d with hwState := 0 }, false, false, none, []⟩
  next := 0
  live _ := false
  txDmaRegVa := none
  rxDmaRegVa := none
  bar0BaseVa := none
  txRegion := none
  rxRegion := none
  doorbells := none
  bound := 0
  stray := false

/-- The pointer is not `NULL`, and its memory is still allocated or mapped. -/
def held (s : Binding) : Option Nat → Bool
  | none => false
  | some r => s.live r

/-- An allocation or a mapping that the kernel grants. -/
def acquire (s : Binding) : Binding :=
  { s with next := s.next + 1, live := Function.update s.live s.next true }

/-- `dma_free_coherent` or `iounmap` of what is at `va`. -/
def release (s : Binding) (va : Option Nat) : Binding :=
  { s with live := fun r => s.live r && va != some r }

/-- The same with another driver state. -/
def setDriver (s : Binding) (d : Driver) : Binding :=
  { s with polling := { s.polling with driver := d } }

/-- The allocation loop of `probe`. A region that did not come is `NULL` in its global; a TX region
that is given back for want of an RX region stays in its global. -/
def allocRegions (c : ProbeCalls) : List Nat → Binding → Binding
  | [], s => s.setDriver { s.polling.driver with dmaCpuBufs := 0 }
  | n :: ns, s =>
    let s := s.setDriver { s.polling.driver with dmaCpuBufs := n }
    if c.txAlloc n then
      let s := { s.acquire with txDmaRegVa := some s.next }
      if c.rxAlloc n then { s.acquire with rxDmaRegVa := some s.next }
      else allocRegions c ns ({ s with rxDmaRegVa := none }.release s.txDmaRegVa)
    else allocRegions c ns { s with txDmaRegVa := none }

/-- "Configure workers": the streams are laid over the new regions. -/
def pointStreams (s : Binding) (c : ProbeCalls) : Binding :=
  let d := s.polling.driver
  let d := { d with
    txDmaStream := { d.txDmaStream with toDmaRegion := c.txContent }
    rxDmaStream := { d.rxDmaStream with toDmaRegion := c.rxContent } }
  { s.setDriver { probeStreams d d.dmaCpuBufs with hwState := d.hwState } with
    txRegion := s.txDmaRegVa
    rxRegion := s.rxDmaRegVa
    doorbells := s.bar0BaseVa }

/-- What `remove` does, and `probe` when the workers fail it. -/
def releaseAll (s : Binding) : Binding :=
  ((s.release s.rxDmaRegVa).release s.txDmaRegVa).release s.bar0BaseVa

/-- `probe` from the end of its allocation loop on. Running out of DMA memory returns the `err` of
the last call that succeeded. -/
def bringUp (s : Binding) (c : ProbeCalls) : Binding × Int :=
  if s.txDmaRegVa = none ∨ s.rxDmaRegVa = none then (s.release s.bar0BaseVa, 0)
  else if ¬ allSucceed c.initializeReg then (s.releaseAll, -1)
  else
    let s := s.pointStreams c
    if ¬ allSucceed c.startReg then (s.releaseAll, -1)
    else
      let d := s.polling.driver
      let s := s.setDriver { d with hwState := d.hwState ||| hwInit }
      ({ s with polling := s.polling.addTimer }, 0)

/-- `probe`, with its return value. -/
def probe (s : Binding) (c : ProbeCalls) : Binding × Int :=
  let s := s.setDriver { s.polling.driver with hwState := s.polling.driver.hwState ||| hwFound }
  if c.pciEnableDevice ≠ 0 then (s, c.pciEnableDevice)
  else if c.pciRequestRegion ≠ 0 then (s, c.pciRequestRegion)
  else if c.pciIoremapBar = false then ({ s with bar0BaseVa := none }, -12)
  else
    let s := { s.acquire with bar0BaseVa := some s.next }
    if ¬ c.bar0Size ≥ sizeofOccpSpace then (s.release s.bar0BaseVa, -1)
    else if c.dmaSetMask ≠ 0 then (s.release s.bar0BaseVa, c.dmaSetMask)
    else if c.dmaSetCoherentMask ≠ 0 then (s.release s.bar0BaseVa, c.dmaSetCoherentMask)
    else (allocRegions c dmaCpuBufsTried s).bringUp c

/-- The kernel binds the driver to the device if `probe` returns 0. -/
def bind (s : Binding) (c : ProbeCalls) : Binding :=
  let r := s.probe c
  if r.2 = 0 then { r.1 with bound := r.1.bound + 1 } else r.1

/-- The kernel unbinds one of the devices, if there is one: everything in the globals is given
back, whichever device it was for. -/
def remove (s : Binding) : Binding :=
  if 0 < s.bound then { s.releaseAll with bound := s.bound - 1 } else s

end Binding

/-- The steps of the driver around its device. The ring handlers come with what they touch. -/
inductive BindEvent where
  | probe (c : ProbeCalls)
  | remove
  | timerFires
  | pollEnter (budget : Int)
  | pollTurn (skbOk : Bool)
  | pollReturn
  | hwFill (i : Nat) (f : Frame) (flag : UInt32)
  | startXmit (skb : SkBuff) (netdev : Nat)

/-- The memory a transmit call comes to: none short of its flag test. -/
def XmitResult.touched (s : Binding) : XmitResult → List (Option Nat)
  | .accepted _ => [s.txRegion, s.doorbells]
  | .full => [s.txRegion]
  | _ => []

namespace Binding

/-- The regions and mappings a step reads or writes. -/
def touched (b : Build) (s : Binding) : BindEvent → List (Option Nat)
  | .timerFires => if s.polling.timerPending then [s.rxRegion] else []
  | .pollTurn _ =>
    match s.polling.poll with
    | some (.loop c) =>
      if pollTest s.polling.driver c then [s.rxRegion, s.doorbells]
      else if c.nRx < c.budget then [s.rxRegion]
      else []
    | _ => []
  | .pollReturn =>
    match s.polling.poll with
    | some (.left _) => [s.rxRegion]
    | _ => []
  | .startXmit skb netdev =>
    (nf10NdoStartXmit b s.polling.driver skb netdev).2.touched s
  | _ => []

/-- A step of the polling machinery, on the driver that is shared. -/
def onPolling (b : Build) (s : Binding) (e : PollEvent) : Binding :=
  { s with polling := s.polling.step b e }

/-- What an event does, without the record of stray accesses. -/
def act (b : Build) (s : Binding) : BindEvent → Binding
  | .probe c => s.bind c
  | .remove => s.remove
  | .timerFires => s.onPolling b .timerFires
  | .pollEnter budget => s.onPolling b (.pollEnter budget)
  | .pollTurn skbOk => s.onPolling b (.pollTurn skbOk)
  | .pollReturn => s.onPolling b .pollReturn
  | .hwFill i f flag => s.onPolling b (.hwFill i f flag)
  | .startXmit skb netdev => s.setDriver (nf10NdoStartXmit b s.polling.driver skb netdev).1

/-- An event, with the accesses it makes checked against what is held before it. -/
def step (b : Build) (s : Binding) (e : BindEvent) : Binding :=
  { s.act b e with stray := s.stray || (s.touched b e).any fun r => !s.held r }

/-- One of the three guards lets the driver at the streams: `HW_INIT`, the timer, NAPI. -/
def Open (s : Binding) : Prop :=
  s.polling.driver.hwState &&& hwInit ≠ 0 ∨ s.polling.timerPending = true
    ∨ s.polling.napiScheduled = true

instance (s : Binding) : Decidable s.Open :=
  inferInstanceAs (Decidable (_ ∨ _ ∨ _))

/-- Both DMA regions behind the streams are allocated and BAR0 is mapped under their doorbells. -/
def Backed (s : Binding) : Prop :=
  s.held s.txRegion = true ∧ s.held s.rxRegion = true ∧ s.held s.doorbells = true

instance (s : Binding) : Decidable s.Backed :=
  inferInstanceAs (Decidable (_ ∧ _ ∧ _))

/-- The guards are honest, and nothing that is not live has been touched. -/
structure Guarded (s : Binding) : Prop where
  backed : s.Open → s.Backed
  noStray : s.stray = false

end Binding

/-- The probe gets as far as starting the workers. The streams are then laid over the new
regions, whatever comes of it. -/
def ProbeCalls.reachesStart (c : ProbeCalls) : Bool :=
  c.pciEnableDevice == 0 && c.pciRequestRegion == 0 && c.pciIoremapBar
    && c.bar0Size ≥ sizeofOccpSpace && c.dmaSetMask == 0 && c.dmaSetCoherentMask == 0
    && (dmaCpuBufsTried.any fun n => c.txAlloc n && c.rxAlloc n) && allSucceed c.initializeReg

namespace Binding

/-- While a guard is open, no `remove` gives back memory behind the streams, and no probe gives up
after it has laid the streams over its regions. -/
def Unhurt (s : Binding) : BindEvent → Prop
  | .probe c => c.reachesStart = true → allSucceed c.startReg = false → ¬ s.Open
  | .remove => 0 < s.bound → s.Open →
      ∀ r ∈ [s.txRegion, s.rxRegion, s.doorbells],
        r ∉ [s.rxDmaRegVa, s.txDmaRegVa, s.bar0BaseVa]
  | _ => True

instance (s : Binding) : ∀ e, Decidable (Unhurt s e)
  | .probe c => inferInstanceAs
      (Decidable (c.reachesStart = true → allSucceed c.startReg = false → ¬ s.Open))
  | .remove => inferInstanceAs (Decidable (0 < s.bound → s.Open →
      ∀ r ∈ [s.txRegion, s.rxRegion, s.doorbells],
        r ∉ [s.rxDmaRegVa, s.txDmaRegVa, s.bar0BaseVa]))
  | .timerFires => isTrue trivial
  | .pollEnter _ => isTrue trivial
  | .pollTurn _ => isTrue trivial
  | .pollReturn => isTrue trivial
  | .hwFill _ _ _ => isTrue trivial
  | .startXmit _ _ => isTrue trivial

/-! ## Memory

What an allocation and a release do to the memory that was there before: nothing, as numbers are not
reused, except to what is named. -/

variable {s s' s'' : Binding}

theorem held_release (s : Binding) (va r : Option Nat) :
    (s.release va).held r = (s.held r && va != r) := by
  cases r <;> rfl

/-- `remove` takes away what the three globals name. -/
theorem held_releaseAll (s : Binding) (r : Option Nat) :
    s.releaseAll.held r = (s.held r && s.rxDmaRegVa != r && s.txDmaRegVa != r
      && s.bar0BaseVa != r) := by
  simp only [releaseAll, held_release]

/-- Numbers are handed out in order, so what is live has one below `next`. -/
def Fresh (s : Binding) : Prop :=
  ∀ r, s.live r = true → r < s.next

/-- From `s` to `s'` nothing that existed has been freed, and the guards and the streams are as
they were. -/
structure Undisturbed (s s' : Binding) : Prop where
  hwInit : s'.polling.driver.hwState &&& hwInit = s.polling.driver.hwState &&& hwInit
  timer : s'.polling.timerPending = s.polling.timerPending
  napi : s'.polling.napiScheduled = s.polling.napiScheduled
  poll : s'.polling.poll = s.polling.poll
  txRegion : s'.txRegion = s.txRegion
  rxRegion : s'.rxRegion = s.rxRegion
  doorbells : s'.doorbells = s.doorbells
  bound : s'.bound = s.bound
  next_le : s.next ≤ s'.next
  live : ∀ r < s.next, s'.live r = s.live r
  fresh : s.Fresh → s'.Fresh

namespace Undisturbed

theorem refl (s : Binding) : Undisturbed s s :=
  ⟨rfl, rfl, rfl, rfl, rfl, rfl, rfl, rfl, Nat.le_refl _, fun _ _ => rfl, id⟩

theorem trans (h : Undisturbed s s') (h' : Undisturbed s' s'') : Undisturbed s s'' where
  hwInit := h'.hwInit.trans h.hwInit
  timer := h'.timer.trans h.timer
  napi := h'.napi.trans h.napi
  poll := h'.poll.trans h.poll
  txRegion := h'.txRegion.trans h.txRegion
  rxRegion := h'.rxRegion.trans h.rxRegion
  doorbells := h'.doorbells.trans h.doorbells
  bound := h'.bound.trans h.bound
  next_le := h.next_le.trans h'.next_le
  live r hr := (h'.live r (Nat.lt_of_lt_of_le hr h.next_le)).trans (h.live r hr)
  fresh hs := h'.fresh (h.fresh hs)

/-- An allocation disturbs nothing: its number is new. -/
theorem acquire (s : Binding) : Undisturbed s s.acquire where
  hwInit := rfl
  timer := rfl
  napi := rfl
  poll := rfl
  txRegion := rfl
  rxRegion := rfl
  doorbells := rfl
  bound := rfl
  next_le := Nat.le_succ _
  live r hr := Function.update_of_ne (Nat.ne_of_lt hr) _ _
  fresh hs r hr := by
    simp only [Binding.acquire, Function.update_apply] at hr ⊢
    split at hr
    · omega
    · exact Nat.lt_succ_of_lt (hs r hr)

/-- Giving back what has been handed out since `s`. -/
theorem release (h : Undisturbed s s') {va : Option Nat} (hva : ∀ r ∈ va, s.next ≤ r) :
    Undisturbed s (s'.release va) := by
  refine { h with live := ?_, fresh := ?_ }
  · intro r hr
    have hne : va ≠ some r := by
      rintro rfl
      exact absurd (hva r rfl) (Nat.not_le_of_lt hr)
    simp only [Binding.release, bne_iff_ne.mpr hne, Bool.and_true]
    exact h.live r hr
  · intro hs r hr
    simp only [Binding.release, Bool.and_eq_true] at hr
    exact h.fresh hs r hr.1

/-- A probe that gives up and frees what it allocated itself disturbs nothing. -/
theorem releaseAll (h : Undisturbed s s') (hrx : ∀ r ∈ s'.rxDmaRegVa, s.next ≤ r)
    (htx : ∀ r ∈ s'.txDmaRegVa, s.next ≤ r) (hbar : ∀ r ∈ s'.bar0BaseVa, s.next ≤ r) :
    Undisturbed s s'.releaseAll :=
  ((h.release hrx).release htx).release hbar

theorem open_iff (h : Undisturbed s s') : s'.Open ↔ s.Open := by
  unfold Open
  rw [h.hwInit, h.timer, h.napi]

theorem held_of_held (h : Undisturbed s s') (hs : s.Fresh) {r : Option Nat}
    (hr : s.held r = true) : s'.held r = true := by
  cases r with
  | none => cases hr
  | some r => exact (h.live r (hs r hr)).trans hr

theorem backed (h : Undisturbed s s') (hs : s.Fresh) (hb : s.Backed) : s'.Backed := by
  unfold Backed
  rw [h.txRegion, h.rxRegion, h.doorbells]
  exact ⟨h.held_of_held hs hb.1, h.held_of_held hs hb.2.1, h.held_of_held hs hb.2.2⟩

end Undisturbed

/-! ## The allocation loop

`probe` asks for the largest rings first and halves until both allocations succeed, freeing the one
that came if the other did not. -/

/-- The loop frees only what it allocated itself. -/
theorem allocRegions_undisturbed (c : ProbeCalls) (ns : List Nat) (s : Binding) :
    Undisturbed s (allocRegions c ns s) := by
  induction ns generalizing s with
  | nil => exact { Undisturbed.refl s with }
  | cons n ns ih =>
    unfold allocRegions
    dsimp only
    have hset : Undisturbed s (s.setDriver { s.polling.driver with dmaCpuBufs := n }) :=
      { Undisturbed.refl s with }
    generalize s.setDriver { s.polling.driver with dmaCpuBufs := n } = t at hset
    have htx : Undisturbed s { t.acquire with txDmaRegVa := some t.next } :=
      { hset.trans (Undisturbed.acquire t) with }
    split
    · split
      · exact { htx.trans (Undisturbed.acquire _) with }
      · -- the TX region just taken goes back
        apply Undisturbed.trans _ (ih _)
        have hrx : Undisturbed s
            { { t.acquire with txDmaRegVa := some t.next } with rxDmaRegVa := none } :=
          { htx with }
        apply hrx.release
        intro r hr
        cases hr
        exact hset.next_le
    · have hnull : Undisturbed s { t with txDmaRegVa := none } := { hset with }
      exact hnull.trans (ih _)

theorem allocRegions_bar0BaseVa (c : ProbeCalls) (ns : List Nat) (s : Binding) :
    (allocRegions c ns s).bar0BaseVa = s.bar0BaseVa := by
  induction ns generalizing s with
  | nil => rfl
  | cons n ns ih =>
    unfold allocRegions
    dsimp only
    split
    · split
      · rfl
      · exact ih _
    · exact ih _

/-- What the loop leaves in the two globals: new live regions, or a `NULL` in one of them. -/
theorem allocRegions_regions (c : ProbeCalls) (ns : List Nat) (s : Binding) :
    let s' := allocRegions c ns s
    (ns.any (fun n => c.txAlloc n && c.rxAlloc n) = true
      ∧ ∃ t r, s'.txDmaRegVa = some t ∧ s'.rxDmaRegVa = some r ∧ s.next ≤ t ∧ s.next ≤ r
        ∧ s'.live t = true ∧ s'.live r = true)
    ∨ (ns.any (fun n => c.txAlloc n && c.rxAlloc n) = false
      ∧ (ns ≠ [] ∨ s.txDmaRegVa = none ∨ s.rxDmaRegVa = none →
        s'.txDmaRegVa = none ∨ s'.rxDmaRegVa = none)) := by
  induction ns generalizing s with
  | nil => exact Or.inr ⟨rfl, by simp [allocRegions, setDriver]⟩
  | cons n ns ih =>
    dsimp only at ih ⊢
    rw [allocRegions, List.any_cons]
    dsimp only
    -- the step after a failed attempt: its regions do not outlive it
    by_cases htx : c.txAlloc n
    · by_cases hrx : c.rxAlloc n
      · left
        refine ⟨by simp [htx, hrx], s.next, s.next + 1, ?_⟩
        simp [htx, hrx, acquire, setDriver]
      · simp only [htx, hrx, if_true, Bool.and_false, Bool.false_or]
        obtain ⟨hany, t, r, ht, hr, hlt, hlr, hrest⟩ | ⟨hany, himp⟩ := ih
          (({ { (s.setDriver { s.polling.driver with dmaCpuBufs := n }).acquire with
            txDmaRegVa := some s.next } with rxDmaRegVa := none } : Binding).release (some s.next))
        · refine Or.inl ⟨hany, t, r, ht, hr, ?_, ?_, hrest⟩
          · exact Nat.le_trans (Nat.le_succ _) hlt
          · exact Nat.le_trans (Nat.le_succ _) hlr
        · exact Or.inr ⟨hany, fun _ => himp (Or.inr (Or.inr rfl))⟩
    · simp only [htx, Bool.false_and, Bool.false_or]
      obtain ⟨hany, hrest⟩ | ⟨hany, himp⟩ := ih
        ({ s.setDriver { s.polling.driver with dmaCpuBufs := n } with txDmaRegVa := none } : Binding)
      · exact Or.inl ⟨hany, hrest⟩
      · exact Or.inr ⟨hany, fun _ => himp (Or.inr (Or.inl rfl))⟩

/-! ## What a probe can do

A probe leaves at one of many points. For what follows only three outcomes differ: it gave up
without a trace, it gave up after the streams had been laid over its regions and freed these, or it
went through. -/

/-- The bits of `hw_state` are set one by one; here is what `HW_INIT` sees of that. -/
theorem or_and_hwInit (h k : UInt32) :
    (h ||| k) &&& hwInit = (h &&& hwInit) ||| (k &&& hwInit) := by
  apply UInt32.toBitVec_inj.mp
  exact BitVec.and_or_distrib_right

/-- Setting `HW_FOUND` is no matter for `HW_INIT`. -/
theorem or_hwFound_and_hwInit (h : UInt32) : (h ||| hwFound) &&& hwInit = h &&& hwInit := by
  have hbits : hwFound &&& hwInit = 0 := by decide
  rw [or_and_hwInit, hbits, UInt32.or_zero]

theorem or_hwInit_and_hwInit (h : UInt32) : (h ||| hwInit) &&& hwInit ≠ 0 := by
  rw [or_and_hwInit]
  intro h0
  have hright := (UInt32.or_eq_zero_iff.mp h0).2
  exact absurd hright (by decide)

/-- A probe that gave up while it started the workers: the streams lie over regions it freed. -/
structure GaveUp (s s' : Binding) : Prop where
  hwInit : s'.polling.driver.hwState &&& hwInit = s.polling.driver.hwState &&& hwInit
  timer : s'.polling.timerPending = s.polling.timerPending
  napi : s'.polling.napiScheduled = s.polling.napiScheduled
  poll : s'.polling.poll = s.polling.poll
  freed : s'.held s'.txRegion = false
  fresh : s.Fresh → s'.Fresh

/-- A probe that went through. -/
structure Initialized (s s' : Binding) : Prop where
  hwInit : s'.polling.driver.hwState &&& hwInit ≠ 0
  timer : s'.polling.timerPending = true
  napi : s'.polling.napiScheduled = s.polling.napiScheduled
  poll : s'.polling.poll = s.polling.poll
  backed : s'.Backed
  fresh : s.Fresh → s'.Fresh

/-- From memory of its own on, a probe is left alone with the workers. `s` is the state before the
probe, `a` the one after its allocations. -/
theorem bringUp_cases {s a : Binding} (c : ProbeCalls) (h : Undisturbed s a) {t r m : Nat}
    (htx : a.txDmaRegVa = some t) (hrx : a.rxDmaRegVa = some r) (hbar : a.bar0BaseVa = some m)
    (ht : s.next ≤ t ∧ a.live t = true) (hr : s.next ≤ r ∧ a.live r = true)
    (hm : s.next ≤ m ∧ a.live m = true) :
    (allSucceed c.initializeReg = false ∧ Undisturbed s (a.bringUp c).1)
    ∨ (allSucceed c.initializeReg = true ∧ allSucceed c.startReg = false
      ∧ GaveUp s (a.bringUp c).1)
    ∨ (allSucceed c.initializeReg = true ∧ allSucceed c.startReg = true
      ∧ Initialized s (a.bringUp c).1) := by
  have hrel : Undisturbed s a.releaseAll := by
    apply h.releaseAll
    · simpa [hrx] using hr.1
    · simpa [htx] using ht.1
    · simpa [hbar] using hm.1
  unfold bringUp
  simp only [htx, hrx, reduceCtorEq, or_self, if_false]
  cases hinit : allSucceed c.initializeReg with
  | false => exact Or.inl ⟨rfl, by simpa using hrel⟩
  | true =>
    right
    cases hstart : allSucceed c.startReg with
    | false =>
      left
      refine ⟨rfl, rfl, ?_⟩
      simp only [not_true_eq_false, if_false, Bool.false_eq_true, not_false_eq_true, if_true]
      have hfreed : (a.pointStreams c).releaseAll.held (a.pointStreams c).txDmaRegVa = false := by
        simp [held_releaseAll]
      exact { hwInit := h.hwInit, timer := h.timer, napi := h.napi, poll := h.poll,
              freed := hfreed, fresh := hrel.fresh }
    | true =>
      right
      refine ⟨rfl, rfl, ?_⟩
      simp only [not_true_eq_false, if_false]
      refine { hwInit := or_hwInit_and_hwInit _, timer := rfl, napi := h.napi, poll := h.poll,
               backed := ?_, fresh := h.fresh }
      refine ⟨?_, ?_, ?_⟩
      · show a.held a.txDmaRegVa = true
        rw [htx]
        exact ht.2
      · show a.held a.rxDmaRegVa = true
        rw [hrx]
        exact hr.2
      · show a.held a.bar0BaseVa = true
        rw [hbar]
        exact hm.2

/-- **`probe`.** Short of starting the workers it leaves the guards and the streams as they were. -/
theorem probe_cases (s : Binding) (c : ProbeCalls) :
    (c.reachesStart = false ∧ Undisturbed s (s.probe c).1)
    ∨ (c.reachesStart = true ∧ allSucceed c.startReg = false ∧ GaveUp s (s.probe c).1)
    ∨ (c.reachesStart = true ∧ allSucceed c.startReg = true ∧ Initialized s (s.probe c).1) := by
  unfold probe ProbeCalls.reachesStart
  dsimp only
  have hfound : Undisturbed s (s.setDriver
      { s.polling.driver with hwState := s.polling.driver.hwState ||| hwFound }) :=
    { Undisturbed.refl s with hwInit := or_hwFound_and_hwInit _ }
  generalize s.setDriver
    { s.polling.driver with hwState := s.polling.driver.hwState ||| hwFound } = f at hfound
  by_cases henable : c.pciEnableDevice = 0
  case neg => exact Or.inl (by simp [henable, hfound])
  by_cases hrequest : c.pciRequestRegion = 0
  case neg => exact Or.inl (by simp [henable, hrequest, hfound])
  by_cases hremap : c.pciIoremapBar = true
  case neg =>
    have hnull : Undisturbed s { f with bar0BaseVa := none } := { hfound with }
    exact Or.inl (by simp [henable, hrequest, hremap, hnull])
  have hmapped : Undisturbed s { f.acquire with bar0BaseVa := some f.next } :=
    { hfound.trans (Undisturbed.acquire f) with }
  have hlive : ({ f.acquire with bar0BaseVa := some f.next } : Binding).live f.next = true :=
    Function.update_self ..
  have hlt : f.next < ({ f.acquire with bar0BaseVa := some f.next } : Binding).next :=
    Nat.lt_succ_self _
  have hbar : ({ f.acquire with bar0BaseVa := some f.next } : Binding).bar0BaseVa = some f.next :=
    rfl
  have hold : s.next ≤ f.next := hfound.next_le
  generalize ({ f.acquire with bar0BaseVa := some f.next } : Binding) = m at hmapped hlive hlt hbar
  have hunmap : ∀ a : Binding, Undisturbed s a → Undisturbed s (a.release (some f.next)) := by
    intro a ha
    apply ha.release
    simpa using hold
  by_cases hsize : c.bar0Size ≥ sizeofOccpSpace
  case neg => exact Or.inl (by simp [henable, hrequest, hremap, hsize, hunmap m hmapped])
  by_cases hmask : c.dmaSetMask = 0
  case neg =>
    exact Or.inl (by simp [henable, hrequest, hremap, hsize, hmask, hunmap m hmapped])
  by_cases hcoherent : c.dmaSetCoherentMask = 0
  case neg =>
    exact Or.inl (by
      simp [henable, hrequest, hremap, hsize, hmask, hcoherent, hunmap m hmapped])
  simp only [henable, hrequest, hremap, hsize, hmask, hcoherent, ne_eq, not_true_eq_false,
    if_false, Bool.true_eq_false, decide_true, beq_self_eq_true, Bool.true_and]
  -- the memory of its own: the mapping, and the regions if there was room for them
  have ha : Undisturbed s (allocRegions c dmaCpuBufsTried m) :=
    hmapped.trans (allocRegions_undisturbed c dmaCpuBufsTried m)
  have hbar' : (allocRegions c dmaCpuBufsTried m).bar0BaseVa = some f.next :=
    (allocRegions_bar0BaseVa c dmaCpuBufsTried m).trans hbar
  have hlive' : (allocRegions c dmaCpuBufsTried m).live f.next = true :=
    ((allocRegions_undisturbed c dmaCpuBufsTried m).live _ hlt).trans hlive
  obtain ⟨hany, t, r, htx, hrx, ht, hr, htl, hrl⟩ | ⟨hany, hnull⟩ :=
    allocRegions_regions c dmaCpuBufsTried m
  · simp only [hany, Bool.true_and]
    exact bringUp_cases c ha htx hrx hbar' ⟨hmapped.next_le.trans ht, htl⟩
      ⟨hmapped.next_le.trans hr, hrl⟩ ⟨hold, hlive'⟩
  · have hnull' := hnull (Or.inl (by decide))
    exact Or.inl (by simp [hany, bringUp, hnull', hbar', hunmap _ ha])

/-! ## What the ring handlers touch

Which memory an event reads or writes. Each of them is behind one of the guards, so the question is
whether an open guard means memory that is held. -/

/-- A transmit call that gets as far as the ring has found `HW_INIT` set. -/
theorem hwInit_of_touched {b : Build} (hb : b.ghost = false) {s : Binding} {skb : SkBuff}
    {netdev : Nat} {r : Option Nat} (h : r ∈ s.touched b (.startXmit skb netdev)) :
    s.polling.driver.hwState &&& hwInit ≠ 0 := by
  simp only [touched, nf10NdoStartXmit, hb, Bool.false_eq_true, if_false] at h
  split at h
  · simp [XmitResult.touched] at h
  split at h
  · simp [XmitResult.touched] at h
  split at h
  · simp [XmitResult.touched] at h
  · next hready => exact (not_not.mp hready).2

theorem nf10NdoStartXmit_hwState {b : Build} (hb : b.ghost = false) (d : Driver) (skb : SkBuff)
    (netdev : Nat) : (nf10NdoStartXmit b d skb netdev).1.hwState = d.hwState := by
  simp only [nf10NdoStartXmit, hb, Bool.false_eq_true, if_false]
  split
  · rfl
  split
  · rfl
  split
  · rfl
  split
  · rfl
  split
  · rfl
  · rfl

/-- The bookkeeping that holds whatever happens. -/
structure Sound (s : Binding) : Prop where
  fresh : s.Fresh
  running : s.polling.poll.isSome → s.polling.napiScheduled = true

/-- Whoever touches the rings has found a guard open. -/
theorem open_of_touched {b : Build} (hb : b.ghost = false) {s : Binding} (h : s.Sound)
    {e : BindEvent} {r : Option Nat} (hr : r ∈ s.touched b e) : s.Open := by
  cases e with
  | timerFires =>
    simp only [touched] at hr
    split at hr
    · next hfires => exact Or.inr (Or.inl hfires)
    · cases hr
  | pollTurn skbOk =>
    simp only [touched] at hr
    split at hr
    · next c hpoll => exact Or.inr (Or.inr (h.running (by simp [hpoll])))
    · cases hr
  | pollReturn =>
    simp only [touched] at hr
    split at hr
    · next c hpoll => exact Or.inr (Or.inr (h.running (by simp [hpoll])))
    · cases hr
  | startXmit skb netdev => exact Or.inl (hwInit_of_touched hb hr)
  | probe c => cases hr
  | remove => cases hr
  | pollEnter budget => cases hr
  | hwFill i f flag => cases hr

/-- What is touched are the two regions and the doorbells, and nothing else. -/
theorem mem_of_touched {b : Build} {s : Binding} {e : BindEvent} {r : Option Nat}
    (hr : r ∈ s.touched b e) : r ∈ [s.txRegion, s.rxRegion, s.doorbells] := by
  cases e with
  | timerFires =>
    simp only [touched] at hr
    split at hr <;> simp_all
  | pollTurn skbOk =>
    simp only [touched] at hr
    split at hr
    · split_ifs at hr <;> simp_all
    · cases hr
  | pollReturn =>
    simp only [touched] at hr
    split at hr <;> simp_all
  | startXmit skb netdev =>
    simp only [touched, XmitResult.touched] at hr
    split at hr <;> simp_all
    tauto
  | probe c => cases hr
  | remove => cases hr
  | pollEnter budget => cases hr
  | hwFill i f flag => cases hr

/-- All three of them are held when the streams are backed. -/
theorem Backed.held_of_mem {s : Binding} (h : s.Backed) {r : Option Nat}
    (hr : r ∈ [s.txRegion, s.rxRegion, s.doorbells]) : s.held r = true := by
  simp only [List.mem_cons, List.not_mem_nil, or_false] at hr
  rcases hr with rfl | rfl | rfl
  · exact h.1
  · exact h.2.1
  · exact h.2.2

theorem Guarded.step_noStray {b : Build} (hb : b.ghost = false) {s : Binding} (hs : s.Sound)
    (h : s.Guarded) (e : BindEvent) : (s.step b e).stray = false := by
  simp only [step, h.noStray, Bool.false_or, List.any_eq_false, Bool.not_eq_true',
    Bool.not_eq_false]
  intro r hr
  exact (h.backed (open_of_touched hb hs hr)).held_of_mem (mem_of_touched hr)

/-! ## Steps

One lemma for each kind of event: the polling machinery, `remove`, and `probe` with its three
outcomes. -/

/-- The timer and the poll open no guard that was closed. -/
theorem open_of_open_onPolling {b : Build} {s : Binding} (hs : s.Sound) {e : PollEvent}
    (he : e ≠ .napiEnable) (h : (s.onPolling b e).Open) : s.Open := by
  unfold Open at h ⊢
  simp only [onPolling, Polling.step_hwState] at h
  cases Polling.step_moves b s.polling e with
  | still htimer hnapi _ _ => rwa [htimer, hnapi] at h
  | rearmed hfired => exact Or.inr (Or.inl hfired)
  | scheduled hfired => exact Or.inr (Or.inl hfired)
  | entered hsched => exact Or.inr (Or.inr hsched)
  | completed hran => exact Or.inr (Or.inr (hs.running hran))
  | again hran => exact Or.inr (Or.inr (hs.running hran))
  | enabled => exact absurd rfl he
  | disabled htimer hnapi _ _ =>
    rw [htimer, hnapi] at h
    rcases h with h | h | h
    · exact Or.inl h
    · cases h
    · exact Or.inr (Or.inr h)

/-- The polling machinery neither allocates nor frees. -/
theorem Sound.onPolling {b : Build} {s : Binding} (hs : s.Sound) (e : PollEvent) :
    (s.onPolling b e).Sound := by
  refine ⟨hs.fresh, ?_⟩
  have hr := hs.running
  simp only [Binding.onPolling]
  cases Polling.step_moves b s.polling e with
  | still _ hnapi hpoll _ => rwa [hpoll, hnapi]
  | rearmed _ _ hnapi hpoll _ => rwa [hpoll, hnapi]
  | scheduled _ _ hnapi _ _ => exact fun _ => hnapi
  | entered _ _ hnapi _ _ => exact fun _ => hnapi
  | completed _ _ _ hpoll _ => simp [hpoll]
  | again _ _ _ hpoll _ => simp [hpoll]
  | enabled _ hnapi hpoll _ => rwa [hpoll, hnapi]
  | disabled _ hnapi hpoll _ => rwa [hpoll, hnapi]

/-- The kernel's own count of devices does not matter to the guards. -/
theorem bind_eq (s : Binding) (c : ProbeCalls) :
    ∃ k, s.bind c = { (s.probe c).1 with bound := k } := by
  unfold bind
  dsimp only
  split
  · exact ⟨_, rfl⟩
  · exact ⟨(s.probe c).1.bound, rfl⟩

theorem Fresh.releaseAll {s : Binding} (h : s.Fresh) : s.releaseAll.Fresh := by
  intro r hr
  simp only [Binding.releaseAll, release, Bool.and_eq_true] at hr
  exact h r hr.1.1.1

theorem Sound.act {b : Build} {s : Binding} (hs : s.Sound) (e : BindEvent) :
    (s.act b e).Sound := by
  cases e with
  | probe c =>
    obtain ⟨k, hk⟩ := bind_eq s c
    simp only [Binding.act, hk]
    obtain ⟨_, h⟩ | ⟨_, _, h⟩ | ⟨_, _, h⟩ := probe_cases s c
    · exact ⟨h.fresh hs.fresh, by simpa only [h.poll, h.napi] using hs.running⟩
    · exact ⟨h.fresh hs.fresh, by simpa only [h.poll, h.napi] using hs.running⟩
    · exact ⟨h.fresh hs.fresh, by simpa only [h.poll, h.napi] using hs.running⟩
  | remove =>
    simp only [Binding.act, remove]
    split
    · exact ⟨hs.fresh.releaseAll, hs.running⟩
    · exact hs
  | timerFires => exact hs.onPolling .timerFires
  | pollEnter budget => exact hs.onPolling (.pollEnter budget)
  | pollTurn skbOk => exact hs.onPolling (.pollTurn skbOk)
  | pollReturn => exact hs.onPolling .pollReturn
  | hwFill i f flag => exact hs.onPolling (.hwFill i f flag)
  | startXmit skb netdev => exact ⟨hs.fresh, hs.running⟩

/-- `remove` takes live memory from the streams exactly if its globals name it. -/
theorem backed_releaseAll_iff {s : Binding} (h : s.Backed) :
    s.releaseAll.Backed ↔ ∀ r ∈ [s.txRegion, s.rxRegion, s.doorbells],
      r ∉ [s.rxDmaRegVa, s.txDmaRegVa, s.bar0BaseVa] := by
  have hone : ∀ r, s.held r = true → (s.releaseAll.held r = true
      ↔ r ∉ [s.rxDmaRegVa, s.txDmaRegVa, s.bar0BaseVa]) := by
    intro r hr
    simp only [held_releaseAll, hr, Bool.true_and, Bool.and_eq_true, bne_iff_ne, List.mem_cons,
      List.not_mem_nil, or_false, not_or]
    tauto
  show s.releaseAll.held s.txRegion = true ∧ s.releaseAll.held s.rxRegion = true
    ∧ s.releaseAll.held s.doorbells = true ↔ _
  rw [hone _ h.1, hone _ h.2.1, hone _ h.2.2]
  simp only [List.forall_mem_cons, List.not_mem_nil, false_imp_iff, implies_true, and_true]

/-- **One step.** From a guarded state, the guards stay honest exactly if the step is `Unhurt`. -/
theorem backed_act_iff {b : Build} (hb : b.ghost = false) {s : Binding} (hs : s.Sound)
    (h : s.Open → s.Backed) (e : BindEvent) :
    ((s.act b e).Open → (s.act b e).Backed) ↔ s.Unhurt e := by
  have hpolling : ∀ e', e' ≠ .napiEnable → (s.onPolling b e').Open → (s.onPolling b e').Backed :=
    fun e' he ho => h (open_of_open_onPolling hs he ho)
  cases e with
  | probe c =>
    obtain ⟨k, hk⟩ := bind_eq s c
    simp only [act, hk, Unhurt]
    obtain ⟨hreach, hp⟩ | ⟨hreach, hstart, hp⟩ | ⟨hreach, hstart, hp⟩ := probe_cases s c
    · simp only [hreach, Bool.false_eq_true, false_imp_iff, iff_true]
      intro ho
      exact hp.backed hs.fresh (h (hp.open_iff.mp ho))
    · -- what the streams lie over is gone
      have hopen : (s.probe c).1.Open ↔ s.Open := by
        unfold Open
        rw [hp.hwInit, hp.timer, hp.napi]
      simp only [hreach, hstart, true_imp_iff]
      constructor
      · intro hkeep ho
        have htx := (hkeep (hopen.mpr ho)).1
        exact absurd (hp.freed.symm.trans htx) Bool.false_ne_true
      · intro hclosed ho
        exact absurd (hopen.mp ho) hclosed
    · simp only [hreach, hstart, Bool.true_eq_false, false_imp_iff, implies_true, iff_true]
      exact fun _ => hp.backed
  | remove =>
    simp only [act, remove, Unhurt]
    split
    · next hbound =>
      simp only [hbound, true_imp_iff]
      constructor
      · intro hkeep ho
        exact (backed_releaseAll_iff (h ho)).mp (hkeep ho)
      · intro hspared ho
        exact (backed_releaseAll_iff (h ho)).mpr (hspared ho)
    · next hbound => exact iff_of_true h fun hpos => absurd hpos hbound
  | timerFires => exact iff_of_true (hpolling .timerFires (by simp)) trivial
  | pollEnter budget => exact iff_of_true (hpolling (.pollEnter budget) (by simp)) trivial
  | pollTurn skbOk => exact iff_of_true (hpolling (.pollTurn skbOk) (by simp)) trivial
  | pollReturn => exact iff_of_true (hpolling .pollReturn (by simp)) trivial
  | hwFill i f flag => exact iff_of_true (hpolling (.hwFill i f flag) (by simp)) trivial
  | startXmit skb netdev =>
    refine iff_of_true ?_ trivial
    intro ho
    apply h
    unfold Open at ho ⊢
    simpa only [act, setDriver, nf10NdoStartXmit_hwState hb] using ho

/-! ## Runs

Both directions over whole runs: as long as no step hurts the guards stay honest, and the first step
that hurts leaves an open guard without memory behind it. -/

/-- Before the first probe nothing is allocated. -/
theorem loaded_sound (d : Driver) : (loaded d).Sound where
  fresh r hr := by cases hr
  running h := by cases h

theorem loaded_guarded (d : Driver) : (loaded d).Guarded where
  backed h := by
    unfold Open at h
    simp [loaded] at h
  noStray := rfl

/-- **The guards over whole runs.** From the load of the module on, through any probes, removals,
timer firings, polls and packets: the guards tell the truth and nothing freed is touched, in every
state of the run, exactly if every step is `Unhurt`. -/
theorem hwInit_guards_memory (b : Build) (hb : b.ghost = false) (d : Driver)
    (es : List BindEvent) :
    (∀ k, (Runs.run (step b) (loaded d) (es.take k)).Guarded)
      ↔ Runs.Along (step b) Unhurt (loaded d) es := by
  have hgood : ∀ s e, s.Sound ∧ s.Guarded → s.Unhurt e →
      (step b s e).Sound ∧ (step b s e).Guarded := by
    rintro s e ⟨hs, hg⟩ hP
    have hbacked := (backed_act_iff hb hs hg.backed e).mpr hP
    exact ⟨⟨(hs.act e).fresh, (hs.act e).running⟩, ⟨hbacked, hg.step_noStray hb hs e⟩⟩
  have hexact : ∀ s e, s.Sound ∧ s.Guarded → (step b s e).Guarded → s.Unhurt e := by
    rintro s e ⟨hs, hg⟩ hnext
    exact (backed_act_iff hb hs hg.backed e).mp hnext.backed
  exact Runs.forall_take_safe_iff_along (fun _ h => h.2) hgood hexact
    ⟨loaded_sound d, loaded_guarded d⟩ es

end Binding

/-- Everything the kernel and the workers are asked for is granted. -/
def grantedCalls : ProbeCalls where
  pciEnableDevice := 0
  pciRequestRegion := 0
  pciIoremapBar := true
  bar0Size := sizeofOccpSpace
  dmaSetMask := 0
  dmaSetCoherentMask := 0
  txAlloc _ := true
  rxAlloc _ := true
  initializeReg _ := occpSuccessResult
  startReg _ := occpSuccessResult
  txContent := ⟨fun _ => 0, fun _ => ⟨0, 0, 0, 0⟩, fun _ => 0⟩
  rxContent := ⟨fun _ => 0, fun _ => ⟨0, 0, 0, 0⟩, fun _ => 0⟩

/-- A packet of 60 zeros. -/
def zerosPacket : SkBuff := ⟨fun _ => 0, 60⟩

/-- The first probe finds its workers stuck, the second goes through; a frame and a packet follow. -/
def secondTry : List BindEvent :=
  [.probe { grantedCalls with startReg := fun _ => 0 }, .probe grantedCalls,
    .hwFill 0 (taggedFrame 0).val 1, .timerFires, .pollEnter 64, .pollTurn true,
    .startXmit zerosPacket 2, .pollTurn true, .pollReturn]

/-- The second probe opens the guards, and they were honest at every step. -/
theorem hwInit_guards_memory_second_try :
    (Runs.run (Binding.step plainBuild) (Binding.loaded plainDriver) secondTry).Open
      ∧ ∀ k, (Runs.run (Binding.step plainBuild) (Binding.loaded plainDriver)
        (secondTry.take k)).Guarded :=
  ⟨by decide +kernel,
    (Binding.hwInit_guards_memory plainBuild rfl plainDriver secondTry).mpr (by decide +kernel)⟩

/-- **Counterexample.** The device is probed and unbound. `HW_INIT` is still set and the timer still
pending, and a packet is written into a region that has been freed. -/
theorem unbind_leaves_hwInit :
    ¬ (∀ k, (Runs.run (Binding.step plainBuild) (Binding.loaded plainDriver)
        (List.take k [.probe grantedCalls, .remove, .startXmit zerosPacket 2])).Guarded)
      ∧ (Runs.run (Binding.step plainBuild) (Binding.loaded plainDriver)
        [.probe grantedCalls, .remove, .startXmit zerosPacket 2]).stray = true := by
  refine ⟨fun h => ?_, by decide +kernel⟩
  exact absurd ((h 2).backed (by decide +kernel)) (by decide +kernel)

end Nf10
