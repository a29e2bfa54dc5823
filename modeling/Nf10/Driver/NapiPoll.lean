import Nf10.Driver.RxRing
import Nf10.Lib.BoundedLoop

/-!
# Nf10 — one call of the poll

`nf10_napi_struct_poll` from its first line to its return, with the hardware idle. Only a delivered
frame counts against the budget; a dropped one is retired all the same, so what bounds the loop is
the ring: after a whole round the flag in front of it is one that the call itself cleared.

`After` is the state after `k` iterations in closed form, over the ring the call found. The loop
rule then gives the number of iterations, and **`nf10_napi_struct_poll_share`** reads off what the
call did.
-/

namespace Nf10

open BoundedLoop

/-! ## The call

One call of `nf10_napi_struct_poll` from its first line to its return. The loop has no bound of its
own; it ends because a slot it has emptied is not filled while it runs. -/

/-- The loop with what it has done to each frame so far. -/
structure PollRun where
  driver : Driver
  call : PollCall
  fates : List Fate

/-- How a call ends. -/
structure PollReturn where
  driver : Driver
  ret : Int
  napiCompleted : Bool
  timerArmed : Bool
  fates : List Fate

/-- The test of the loop. -/
def PollRun.test (s : PollRun) : Bool :=
  pollTest s.driver s.call

/-- Iteration `k`, in which `dev_alloc_skb` succeeds if `skbOk k`. -/
def PollRun.body (b : Build) (skbOk : Nat → Bool) (k : Nat) (s : PollRun) : PollRun :=
  let r := pollIteration b s.driver s.call (skbOk k)
  ⟨r.1, r.2.1, s.fates ++ [r.2.2]⟩

/-- "Check if we processed everything." -/
def PollRun.leave (s : PollRun) : PollReturn :=
  if s.driver.rxDmaStream.flags s.call.bufIndex = 0 then ⟨s.driver, 0, true, true, s.fates⟩
  else ⟨s.driver, s.call.nRx, false, false, s.fates⟩

/-- `nf10_napi_struct_poll`, if `fuel` iterations are enough. -/
def nf10NapiStructPoll (b : Build) (skbOk : Nat → Bool) (fuel : Nat) (d : Driver) (budget : Int) :
    Option PollReturn :=
  (whileLoop PollRun.test (PollRun.body b skbOk) fuel 0 ⟨d, pollStart d budget, []⟩).map PollRun.leave

/-! ## What becomes of a frame

How the statistics change is decided by what became of each frame, so the frames' fates are the one
thing to keep. -/

namespace Fate

/-- It went up to the stack, which is what `n_rx` counts. -/
def isDelivered : Fate → Bool
  | .delivered _ _ => true
  | _ => false

/-- It went up on this netdev. -/
def deliveredTo (p : Nat) : Fate → Bool
  | .delivered netdev _ => netdev == p
  | _ => false

/-- The bytes that count for this netdev. -/
def bytesTo (p : Nat) : Fate → Nat
  | .delivered netdev bytes => if netdev = p then bytes.length else 0
  | _ => 0

/-- It was dropped on this netdev for want of an skb. -/
def lostBy (p : Nat) : Fate → Bool
  | .noSkb netdev => netdev == p
  | _ => false

end Fate

/-- The statistics of netdev `p` after frames met these fates. -/
def NetDeviceStats.after (st : NetDeviceStats) (p : Nat) (fates : List Fate) : NetDeviceStats :=
  { st with
    rxPackets := st.rxPackets + fates.countP (Fate.deliveredTo p)
    rxBytes := st.rxBytes + (fates.map (Fate.bytesTo p)).sum
    rxDropped := st.rxDropped + fates.countP (Fate.lostBy p) }

theorem NetDeviceStats.after_concat (st : NetDeviceStats) (p : Nat) (fates : List Fate)
    (f : Fate) : st.after p (fates ++ [f]) = (st.after p fates).after p [f] := by
  simp only [NetDeviceStats.after, List.countP_append, List.map_append, List.sum_append,
    Nat.add_assoc]

/-- The statistics a fate costs, at every netdev. -/
theorem Driver.countFate_stats (d : Driver) {len : UInt32} {f : Fate} (p : Nat)
    (hlen : ∀ netdev bytes, f = .delivered netdev bytes → bytes.length = len.toNat) :
    (d.countFate len f).stats p = (d.stats p).after p [f] := by
  cases f with
  | badOpcode => simp [countFate, NetDeviceStats.after, Fate.deliveredTo, Fate.bytesTo, Fate.lostBy]
  | delivered netdev bytes =>
    have hl := hlen netdev bytes rfl
    by_cases hp : netdev = p
    · subst hp
      simp [countFate, NetDeviceStats.after, Fate.deliveredTo, Fate.bytesTo, Fate.lostBy, hl]
    · simp [countFate, NetDeviceStats.after, Fate.deliveredTo, Fate.bytesTo, Fate.lostBy, hp,
        Function.update_of_ne (Ne.symm hp)]
  | noSkb netdev =>
    by_cases hp : netdev = p
    · subst hp
      simp [countFate, NetDeviceStats.after, Fate.deliveredTo, Fate.bytesTo, Fate.lostBy]
    · simp [countFate, NetDeviceStats.after, Fate.deliveredTo, Fate.bytesTo, Fate.lostBy, hp,
        Function.update_of_ne (Ne.symm hp)]

/-- A frame that is delivered has the length in its metadata. -/
theorem length_of_pollFate {d : Driver} {i : Nat} {skbOk : Bool} {netdev : Nat} {bytes : List UInt8}
    (h : pollFate d i skbOk = .delivered netdev bytes) :
    bytes.length = (d.rxDmaStream.metadata i).length.toNat := by
  unfold pollFate at h
  split at h
  · cases h
  · split at h
    · injection h with _ hbytes
      rw [← hbytes]
      exact length_readMem _ _ _
    · cases h

/-- A frame goes up exactly if its opcode names an interface and there is an skb for it. -/
theorem isDelivered_pollFate (d : Driver) (i : Nat) (skbOk : Bool) :
    (pollFate d i skbOk).isDelivered = true ↔
      (rxGetDstIface (d.rxDmaStream.metadata i).opCode).isSome ∧ skbOk = true := by
  unfold pollFate
  cases rxGetDstIface (d.rxDmaStream.metadata i).opCode with
  | none => simp [Fate.isDelivered]
  | some dst => cases skbOk <;> simp [Fate.isDelivered]

section Retire

variable (g : Bool) (d : Driver) (i : Nat)

/-- What `retire` does to the stream, part by part: one flag is cleared, the metadata and the buffers
stay, the doorbell is rung in the hardware build, and the index steps. -/
theorem retire_flags : (d.retire g i).rxDmaStream.flags = Function.update d.rxDmaStream.flags i 0 := by
  cases g <;> rfl

theorem retire_metadata : (d.retire g i).rxDmaStream.metadata = d.rxDmaStream.metadata := by
  cases g <;> rfl

theorem retire_buffers : (d.retire g i).rxDmaStream.buffers = d.rxDmaStream.buffers := by
  cases g <;> rfl

theorem retire_doorbell :
    (d.retire g i).rxDmaStream.doorbell = d.rxDmaStream.doorbell + if g then 0 else 1 := by
  cases g <;> rfl

theorem retire_bufIndex :
    (d.retire g i).rxDmaStream.bufIndex
      = CircularQueue.next d.dmaCpuBufs d.rxDmaStream.bufIndex := by
  cases g <;> rfl

end Retire

/-- The return value counts the frames that went up. -/
theorem pollIteration_nRx (b : Build) (d : Driver) (c : PollCall) (skbOk : Bool) :
    (pollIteration b d c skbOk).2.1.nRx
      = c.nRx + (pollFate d c.bufIndex skbOk).isDelivered.toNat := by
  simp only [pollIteration]
  cases pollFate d c.bufIndex skbOk <;> simp [Fate.isDelivered]

/-! ## After `k` iterations

Everything is said about the ring the call found, `d`: its slots in order from `buf_index`, and the
fates of the frames in them. -/

/-- The slot of iteration `k`. -/
def slotAt (d : Driver) (k : Nat) : Nat :=
  (d.rxDmaStream.bufIndex + k) % d.dmaCpuBufs

/-- What becomes of the `k`-th frame of the call, from the state before it. -/
def fateAt (d : Driver) (skbOk : Nat → Bool) (k : Nat) : Fate :=
  pollFate d (slotAt d k) (skbOk k)

/-- Of the first `k`. -/
def fatesBefore (d : Driver) (skbOk : Nat → Bool) (k : Nat) : List Fate :=
  (List.range k).map (fateAt d skbOk)

/-- Frames delivered by the first `k` iterations. -/
def deliveredBefore (d : Driver) (skbOk : Nat → Bool) (k : Nat) : Nat :=
  (fatesBefore d skbOk k).countP Fate.isDelivered

theorem fatesBefore_succ (d : Driver) (skbOk : Nat → Bool) (k : Nat) :
    fatesBefore d skbOk (k + 1) = fatesBefore d skbOk k ++ [fateAt d skbOk k] := by
  simp [fatesBefore, List.range_succ]

@[simp] theorem length_fatesBefore (d : Driver) (skbOk : Nat → Bool) (k : Nat) :
    (fatesBefore d skbOk k).length = k := by
  simp [fatesBefore]

theorem deliveredBefore_succ (d : Driver) (skbOk : Nat → Bool) (k : Nat) :
    deliveredBefore d skbOk (k + 1)
      = deliveredBefore d skbOk k + (fateAt d skbOk k).isDelivered.toNat := by
  simp only [deliveredBefore, fatesBefore_succ, List.countP_append, List.countP_singleton]
  cases (fateAt d skbOk k).isDelivered <;> rfl

/-- **The state after `k` rounds**, in terms of the state before the call: the slots passed are
empty, everything else in the region is as it was, and the counters have moved by the fates. -/
structure After (b : Build) (skbOk : Nat → Bool) (d : Driver) (budget : Int) (k : Nat)
    (s : PollRun) : Prop where
  call : s.call = ⟨budget, deliveredBefore d skbOk k, slotAt d k⟩
  bufIndex : s.driver.rxDmaStream.bufIndex = slotAt d k
  flags : ∀ i, s.driver.rxDmaStream.flags i
    = if ∃ j < k, slotAt d j = i then 0 else d.rxDmaStream.flags i
  metadata : s.driver.rxDmaStream.metadata = d.rxDmaStream.metadata
  buffers : s.driver.rxDmaStream.buffers = d.rxDmaStream.buffers
  doorbell : s.driver.rxDmaStream.doorbell = d.rxDmaStream.doorbell + if b.ghost then 0 else k
  stats : ∀ p, s.driver.stats p = (d.stats p).after p (fatesBefore d skbOk k)
  txDmaStream : s.driver.txDmaStream = d.txDmaStream
  nf10Netdevs : s.driver.nf10Netdevs = d.nf10Netdevs
  dmaCpuBufs : s.driver.dmaCpuBufs = d.dmaCpuBufs
  fates : s.fates = fatesBefore d skbOk k

section

variable {b : Build} {skbOk : Nat → Bool} {d : Driver} {budget : Int} {k : Nat}

theorem slotAt_zero (hi : d.rxDmaStream.bufIndex < d.dmaCpuBufs) :
    slotAt d 0 = d.rxDmaStream.bufIndex :=
  Nat.mod_eq_of_lt hi

theorem after_start (hi : d.rxDmaStream.bufIndex < d.dmaCpuBufs) :
    After b skbOk d budget 0 ⟨d, pollStart d budget, []⟩ where
  call := by simp [pollStart, deliveredBefore, fatesBefore, slotAt_zero hi]
  bufIndex := (slotAt_zero hi).symm
  flags i := by simp
  metadata := rfl
  buffers := rfl
  doorbell := by simp
  stats p := by simp [fatesBefore, NetDeviceStats.after]
  txDmaStream := rfl
  nf10Netdevs := rfl
  dmaCpuBufs := rfl
  fates := rfl

/-- The frames are still the ones the call found. -/
theorem After.fate {s : PollRun} (h : After b skbOk d budget k s) :
    pollFate s.driver s.call.bufIndex (skbOk k) = fateAt d skbOk k := by
  have hframe : ∀ i, s.driver.rxDmaStream.message i = d.rxDmaStream.message i := by
    intro i
    simp only [DmaRegion.message, h.metadata, h.buffers]
  rw [h.call, fateAt]
  simp only [pollFate, h.metadata, h.nf10Netdevs, hframe]

/-- **One round.** The rounds before have changed flags, the index and counters only, so the frame
that this one looks at is the one that lay there before the call. -/
theorem After.step {s : PollRun} (hn : 0 < d.dmaCpuBufs) (h : After b skbOk d budget k s) :
    After b skbOk d budget (k + 1) (s.body b skbOk k) := by
  have hslot : s.call.bufIndex = slotAt d k := by rw [h.call]
  have hnext : CircularQueue.next d.dmaCpuBufs (slotAt d k) = slotAt d (k + 1) :=
    CircularQueue.next_mod hn _
  have hindex : (s.body b skbOk k).driver.rxDmaStream.bufIndex = slotAt d (k + 1) := by
    show (Driver.retire _ _ _).rxDmaStream.bufIndex = _
    rw [retire_bufIndex, Driver.countFate_dmaCpuBufs, Driver.countFate_rxDmaStream, h.dmaCpuBufs,
      h.bufIndex, hnext]
  refine ⟨?_, hindex, ?_, ?_, ?_, ?_, ?_, ?_, ?_, ?_, ?_⟩
  · have hnRx := pollIteration_nRx b s.driver s.call (skbOk k)
    rw [h.fate, h.call] at hnRx
    show PollCall.mk _ (pollIteration b s.driver s.call (skbOk k)).2.1.nRx
      (s.body b skbOk k).driver.rxDmaStream.bufIndex = _
    rw [hindex, h.call, hnRx, deliveredBefore_succ]
    simp
  · intro i
    show (Driver.retire _ _ _).rxDmaStream.flags i = _
    rw [retire_flags, Driver.countFate_rxDmaStream, hslot]
    by_cases hi : i = slotAt d k
    · rw [hi, Function.update_self, if_pos ⟨k, Nat.lt_succ_self k, rfl⟩]
    · rw [Function.update_of_ne hi, h.flags i]
      have hsame : (∃ j < k + 1, slotAt d j = i) ↔ ∃ j < k, slotAt d j = i := by
        constructor
        · rintro ⟨j, hj, rfl⟩
          refine ⟨j, ?_, rfl⟩
          rcases Nat.lt_succ_iff_lt_or_eq.mp hj with hlt | rfl
          · exact hlt
          · exact absurd rfl hi
        · rintro ⟨j, hj, hji⟩
          exact ⟨j, Nat.lt_succ_of_lt hj, hji⟩
      simp only [hsame]
  · show (Driver.retire _ _ _).rxDmaStream.metadata = _
    rw [retire_metadata, Driver.countFate_rxDmaStream, h.metadata]
  · show (Driver.retire _ _ _).rxDmaStream.buffers = _
    rw [retire_buffers, Driver.countFate_rxDmaStream, h.buffers]
  · show (Driver.retire _ _ _).rxDmaStream.doorbell = _
    rw [retire_doorbell, Driver.countFate_rxDmaStream, h.doorbell]
    cases b.ghost <;> simp [Nat.add_assoc]
  · intro p
    show (s.driver.countFate _ _).stats p = _
    rw [Driver.countFate_stats _ p fun _ _ hf => length_of_pollFate hf, h.fate, h.stats p,
      fatesBefore_succ, NetDeviceStats.after_concat]
  · show (s.driver.countFate _ _).txDmaStream = _
    rw [Driver.countFate_txDmaStream, h.txDmaStream]
  · show (s.driver.countFate _ _).nf10Netdevs = _
    rw [Driver.countFate_nf10Netdevs, h.nf10Netdevs]
  · show (s.driver.countFate _ _).dmaCpuBufs = _
    rw [Driver.countFate_dmaCpuBufs, h.dmaCpuBufs]
  · show s.fates ++ [pollFate s.driver s.call.bufIndex (skbOk k)] = _
    rw [h.fate, h.fates, fatesBefore_succ]

theorem after_iterates (hi : d.rxDmaStream.bufIndex < d.dmaCpuBufs) (k : Nat) :
    After b skbOk d budget k
      (iterates (PollRun.body b skbOk) ⟨d, pollStart d budget, []⟩ k) := by
  induction k with
  | zero => exact after_start hi
  | succ k ih => exact ih.step (by omega)

/-- Within a round the slots are all different. -/
theorem slotAt_ne {j : Nat} (hjk : j < k) (hk : k < d.dmaCpuBufs) : slotAt d j ≠ slotAt d k := by
  intro h
  have := CircularQueue.eq_of_mod_eq (Nat.le_add_right _ j) (by omega) (Nat.le_add_right _ k)
    (by omega) h
  omega

/-- Within a round, the flag in front of the loop is the one the call found. -/
theorem After.test_iff {s : PollRun} (h : After b skbOk d budget k s) (hk : k < d.dmaCpuBufs) :
    s.test = true ↔
      d.rxDmaStream.flags (slotAt d k) = 1 ∧ (deliveredBefore d skbOk k : Int) < budget := by
  have hnew : ¬ ∃ j < k, slotAt d j = slotAt d k := by
    rintro ⟨j, hj, heq⟩
    exact slotAt_ne hj hk heq
  have hflag := h.flags (slotAt d k)
  rw [if_neg hnew] at hflag
  rw [PollRun.test, pollTest, h.call]
  simp [hflag, and_comm]

/-- After a whole round it is one that the call cleared. -/
theorem After.test_round {s : PollRun} (hn : 0 < d.dmaCpuBufs)
    (h : After b skbOk d budget d.dmaCpuBufs s) : s.test = false := by
  have hround : slotAt d 0 = slotAt d d.dmaCpuBufs := (Nat.add_mod_right _ _).symm
  have hflag := h.flags (slotAt d d.dmaCpuBufs)
  rw [if_pos ⟨0, hn, hround⟩] at hflag
  rw [PollRun.test, pollTest, h.call]
  simp [hflag]

end

/-- **The share of one call**, over the ring `d` it found: `m` is the number of slots it retired. -/
structure PollShare (b : Build) (skbOk : Nat → Bool) (d : Driver) (budget : Int) (r : PollReturn)
    (m : Nat) : Prop where
  round : m ≤ d.dmaCpuBufs
  fates : r.fates = fatesBefore d skbOk m
  -- The longest run it could take.
  full : ∀ j < m, d.rxDmaStream.flags (slotAt d j) = 1 ∧ (deliveredBefore d skbOk j : Int) < budget
  longest : m < d.dmaCpuBufs →
    ¬ (d.rxDmaStream.flags (slotAt d m) = 1 ∧ (deliveredBefore d skbOk m : Int) < budget)
  flags : ∀ i, r.driver.rxDmaStream.flags i
    = if ∃ j < m, slotAt d j = i then 0 else d.rxDmaStream.flags i
  metadata : r.driver.rxDmaStream.metadata = d.rxDmaStream.metadata
  buffers : r.driver.rxDmaStream.buffers = d.rxDmaStream.buffers
  bufIndex : r.driver.rxDmaStream.bufIndex = (d.rxDmaStream.bufIndex + m) % d.dmaCpuBufs
  doorbell : r.driver.rxDmaStream.doorbell = d.rxDmaStream.doorbell + if b.ghost then 0 else m
  -- The TX stream is left alone. In the ghost build its region is the one above, its index is not.
  txDmaStream : b.ghost = false → r.driver.txDmaStream = d.txDmaStream
  txBufIndex : r.driver.txDmaStream.bufIndex = d.txDmaStream.bufIndex
  -- Each frame went where its opcode says, and up exactly if there was an skb for it.
  fateOk : ∀ j (h : j < r.fates.length),
    FateOk d.nf10Netdevs (d.rxDmaStream.frame (slotAt d j)) (.poll r.fates[j])
  delivered : ∀ j (h : j < r.fates.length), r.fates[j].isDelivered = true ↔
    (rxGetDstIface (d.rxDmaStream.metadata (slotAt d j)).opCode).isSome ∧ skbOk j = true
  withinBudget : (deliveredBefore d skbOk m : Int) ≤ budget
  stats : ∀ p, r.driver.stats p = (d.stats p).after p r.fates
  done : r.driver.rxDmaStream.flags r.driver.rxDmaStream.bufIndex = 0 →
    r.ret = 0 ∧ r.napiCompleted = true ∧ r.timerArmed = true
  more : r.driver.rxDmaStream.flags r.driver.rxDmaStream.bufIndex ≠ 0 →
    r.ret = deliveredBefore d skbOk m ∧ r.napiCompleted = false ∧ r.timerArmed = false

/-- The budget is not exceeded: a round delivers one frame at most. -/
theorem deliveredBefore_le {d : Driver} {skbOk : Nat → Bool} {budget : Int} (hb : 0 ≤ budget)
    {m : Nat} (h : ∀ j < m, (deliveredBefore d skbOk j : Int) < budget) :
    (deliveredBefore d skbOk m : Int) ≤ budget := by
  cases m with
  | zero => simpa [deliveredBefore, fatesBefore] using hb
  | succ m =>
    have hlast := h m (Nat.lt_succ_self m)
    have hone := Bool.toNat_le (fateAt d skbOk m).isDelivered
    rw [deliveredBefore_succ]
    omega

/-- The way out of the loop touches nothing that is counted here. -/
theorem PollRun.leave_driver (s : PollRun) : s.leave.driver = s.driver := by
  unfold leave
  split <;> rfl

theorem PollRun.leave_fates (s : PollRun) : s.leave.fates = s.fates := by
  unfold leave
  split <;> rfl

/-- **One poll call does its share and ends** within one round of the ring. -/
theorem nf10_napi_struct_poll_share (b : Build) (skbOk : Nat → Bool) (d : Driver) (budget : Int)
    (hn : 1 ≤ d.dmaCpuBufs) (hi : d.rxDmaStream.bufIndex < d.dmaCpuBufs) (hb : 0 ≤ budget) :
    ∃ r m, nf10NapiStructPoll b skbOk d.dmaCpuBufs d budget = some r
      ∧ PollShare b skbOk d budget r m := by
  have hafter : ∀ k, After b skbOk d budget k
      (iterates (PollRun.body b skbOk) ⟨d, pollStart d budget, []⟩ k) := after_iterates hi
  obtain ⟨m, hm, hloop, htaken, hend⟩ :=
    whileLoop_of_false ((hafter d.dmaCpuBufs).test_round hn)
  generalize hs : iterates (PollRun.body b skbOk) ⟨d, pollStart d budget, []⟩ m = s at hloop hend
  have h : After b skbOk d budget m s := hs ▸ hafter m
  have hfull : ∀ j < m, d.rxDmaStream.flags (slotAt d j) = 1
      ∧ (deliveredBefore d skbOk j : Int) < budget := by
    intro j hj
    exact ((hafter j).test_iff (by omega)).mp (htaken j hj)
  refine ⟨s.leave, m, by rw [nf10NapiStructPoll, hloop]; rfl, ?_⟩
  have hleave : s.driver.rxDmaStream.bufIndex = s.call.bufIndex := by rw [h.bufIndex, h.call]
  have hfate : ∀ j (hj : j < s.leave.fates.length), s.leave.fates[j] = fateAt d skbOk j := by
    intro j hj
    simp [s.leave_fates.trans h.fates, fatesBefore]
  refine
    { round := hm
      fates := s.leave_fates.trans h.fates
      full := hfull
      longest := fun hlt htest => ?_
      flags := s.leave_driver ▸ h.flags
      metadata := s.leave_driver ▸ h.metadata
      buffers := s.leave_driver ▸ h.buffers
      bufIndex := s.leave_driver ▸ h.bufIndex
      doorbell := s.leave_driver ▸ h.doorbell
      txDmaStream := fun _ => s.leave_driver ▸ h.txDmaStream
      txBufIndex := by rw [s.leave_driver, h.txDmaStream]
      fateOk := fun j hj => ?_
      delivered := fun j hj => ?_
      withinBudget := deliveredBefore_le hb fun j hj => (hfull j hj).2
      stats := by rw [s.leave_driver, s.leave_fates, h.fates]; exact h.stats
      done := ?_
      more := ?_ }
  · rw [(h.test_iff hlt).mpr htest] at hend
    cases hend
  · rw [hfate j hj]
    exact pollFate_ok d (slotAt d j) (skbOk j)
  · rw [hfate j hj]
    exact isDelivered_pollFate d (slotAt d j) (skbOk j)
  · rw [s.leave_driver, hleave]
    intro hzero
    simp [PollRun.leave, hzero]
  · rw [s.leave_driver, hleave]
    intro hne
    have hret : s.call.nRx = deliveredBefore d skbOk m := by rw [h.call]
    rw [PollRun.leave, if_neg hne]
    exact ⟨hret, rfl, rfl⟩

/-- A ring of three full slots with `buf_index` in the middle: a frame for interface 0, one whose
opcode names nobody, one for interface 1. -/
def threeFull : Driver :=
  { plainDriver with
    dmaCpuBufs := 3
    rxDmaStream := { plainDriver.rxDmaStream with
      flags := fun _ => 1
      metadata := fun i =>
        ⟨2, if i = 1 then opcodeCpu0 else if i = 2 then 0 else opcodeCpu1, 0, 0⟩
      bufIndex := 1 } }

/-- A ring of which three slots are full, and a budget of eight. -/
theorem nf10_napi_struct_poll_threeFull :
    1 ≤ threeFull.dmaCpuBufs ∧ threeFull.rxDmaStream.bufIndex < threeFull.dmaCpuBufs
    ∧ ∃ r m, nf10NapiStructPoll plainBuild (fun _ => true) threeFull.dmaCpuBufs threeFull 8 = some r
      ∧ PollShare plainBuild (fun _ => true) threeFull 8 r m :=
  ⟨by decide, by decide,
    nf10_napi_struct_poll_share plainBuild (fun _ => true) threeFull 8 (by decide) (by decide)
      (by decide)⟩

-- the frame without an interface does not count against the budget of two, the ring is then empty
example :
    (nf10NapiStructPoll plainBuild (fun _ => true) 3 threeFull 2).map
      (fun r => (r.ret, r.napiCompleted, r.fates, r.driver.rxDmaStream.bufIndex))
      = some (0, true, [.delivered 0 [0, 0], .badOpcode, .delivered 1 [0, 0]], 1) := by
  decide

end Nf10
