import Nf10.Driver.Rings
import Nf10.Lib.Runs

/-!
# Nf10 — the RX ring against its hardware

The device fills slots as long as it has credits; `nf10_napi_struct_poll` and `genl_cmd_dma_rx` take
frames out, each giving a credit back through the doorbell. Four places of the source retire a
slot; all of them are `Driver.retire`.

The poll loop tests and empties the slot of *its own* index, read from the stream when the call
starts and after each iteration. A `genl_cmd_dma_rx` that runs between two iterations moves the
stream's index on and leaves the poll's copy behind. `rx_ring_stale_index` shows the poll then
taking a frame out of turn; `rx_ring_refines` proves the ring correct over every run in which no
iteration takes a slot through an index left behind (`PollUpToDate`).
-/

namespace Nf10

open CircularQueue

/-! ## Driver and device

The driver with the device at the other end of the RX ring. A doorbell write is a credit: the device
fills a slot only for a credit it has not used. -/

/-- Who took a frame out of the ring, and what became of it. -/
inductive TakenBy where
  | poll (fate : Fate)
  | dmaRx (reply : Option (Option Message))
deriving DecidableEq, Repr

/-- The driver, a running poll if there is one, the device's position in the ring, and the
histories of both sides. NAPI never runs two polls of a context at once. -/
structure RxSys where
  driver : Driver
  poll : Option PollCall
  -- The slot the device fills next.
  hwIndex : Nat
  produced : List Frame
  taken : List (Frame × TakenBy)

/-- A step: the device filling a slot, the entry of a poll, one turn of its loop (with the outcome
of `dev_alloc_skb`), or a `genl_cmd_dma_rx` call. -/
inductive RxEvent where
  | hwProduce (f : { f : Frame // f.Sized })
  | pollStart (budget : Int)
  | pollTurn (skbOk : Bool)
  | dmaRx (hasInfo : Bool) (calls : DmaRxCalls)

namespace RxSys

/-- From `probe` with `n` buffers: the device has a credit for each, and none is filled. -/
def init (d : Driver) (n : Nat) : RxSys where
  driver := probeStreams d n
  poll := none
  hwIndex := 0
  produced := []
  taken := []

/-- The device starts with a credit per slot, gains one per doorbell write and spends one per
frame. -/
def credits (s : RxSys) : Nat :=
  s.driver.dmaCpuBufs + s.driver.rxDmaStream.doorbell - s.produced.length

/-- The device fills the next slot, if it has a credit for it. -/
def hwProduce (s : RxSys) (f : Frame) : RxSys :=
  if 0 < s.credits then
    { s with
      driver := { s.driver with rxDmaStream := s.driver.rxDmaStream.hwFill s.hwIndex f }
      hwIndex := next s.driver.dmaCpuBufs s.hwIndex
      produced := s.produced ++ [f] }
  else s

/-- One turn of the loop: the test, and the body if it holds. When it fails the loop is left; the
code after it does not touch the ring. -/
def pollTurn (b : Build) (s : RxSys) (skbOk : Bool) : RxSys :=
  match s.poll with
  | none => s
  | some c =>
    if pollTest s.driver c then
      let r := pollIteration b s.driver c skbOk
      { s with
        driver := r.1
        poll := some r.2.1
        taken := s.taken ++ [(s.driver.rxDmaStream.frame c.bufIndex, .poll r.2.2)] }
    else { s with poll := none }

/-- The netlink command takes the frame at the driver's index. -/
def dmaRx (s : RxSys) (hasInfo : Bool) (calls : DmaRxCalls) : RxSys :=
  let r := genlCmdDmaRx s.driver hasInfo calls
  { s with
    driver := r.1
    taken := s.taken ++ r.2.taken.toList.map fun f => (f, .dmaRx r.2.reply) }

/-- The device, one iteration of a poll, or a command. Between two iterations a command may come in. -/
def step (b : Build) (s : RxSys) : RxEvent → RxSys
  | .hwProduce f => s.hwProduce f.val
  | .pollStart budget =>
    match s.poll with
    | none => { s with poll := some (pollStart s.driver budget) }
    | some _ => s
  | .pollTurn skbOk => s.pollTurn b skbOk
  | .dmaRx hasInfo calls => s.dmaRx hasInfo calls

end RxSys

/-- A turn that takes a slot does so through an index that is still the stream's. -/
def PollUpToDate (s : RxSys) : RxEvent → Prop
  | .pollTurn _ => ∀ c ∈ s.poll, pollTest s.driver c → c.bufIndex = s.driver.rxDmaStream.bufIndex
  | _ => True

instance (s : RxSys) : ∀ e, Decidable (PollUpToDate s e)
  | .pollTurn _ => inferInstanceAs (Decidable (∀ c ∈ s.poll,
      pollTest s.driver c → c.bufIndex = s.driver.rxDmaStream.bufIndex))
  | .hwProduce _ => isTrue trivial
  | .pollStart _ => isTrue trivial
  | .dmaRx _ _ => isTrue trivial

/-! ## Spec lemmas of the consumers

Both consumers take the frame at an index, clear its flag and ring the doorbell, or leave the ring
alone. They differ in whose index it is. -/

/-- The RX stream after retiring slot `i` in the hardware build. -/
def DmaStream.retired (s : DmaStream) (n i : Nat) : DmaStream :=
  ((s.setFlag i 0).ringDoorbell).advance n

@[simp] theorem Driver.retire_rxDmaStream (d : Driver) (i : Nat) :
    (d.retire false i).rxDmaStream = d.rxDmaStream.retired d.dmaCpuBufs i := rfl

/-- **`genl_cmd_dma_rx`.** Either nothing is taken, and a reply that is sent has no message, or the slot
at `buf_index` is retired. Then the reply carries the message of that slot, if `genlmsg_reply` sends it:
by that time the frame has left the ring. -/
theorem genlCmdDmaRx_cases (d : Driver) (hasInfo : Bool) (calls : DmaRxCalls) :
    ((genlCmdDmaRx d hasInfo calls).1 = d ∧ (genlCmdDmaRx d hasInfo calls).2.taken = none
      ∧ ∀ c, (genlCmdDmaRx d hasInfo calls).2.reply = some c → c = none)
    ∨ (d.rxDmaStream.flags d.rxDmaStream.bufIndex = 1
      ∧ (genlCmdDmaRx d hasInfo calls).1 = d.retire false d.rxDmaStream.bufIndex
      ∧ (genlCmdDmaRx d hasInfo calls).2.taken
        = some (d.rxDmaStream.frame d.rxDmaStream.bufIndex)
      ∧ (genlCmdDmaRx d hasInfo calls).2.reply
        = if calls.genlmsgReply ≠ 0 then none
          else some (some (d.rxDmaStream.message d.rxDmaStream.bufIndex))) := by
  unfold genlCmdDmaRx
  cases hasInfo with
  | false => exact Or.inl ⟨rfl, rfl, fun c h => by cases h⟩
  | true =>
    simp only [not_true_eq_false, if_false]
    split
    · exact Or.inl ⟨rfl, rfl, fun c h => by cases h⟩
    split
    · exact Or.inl ⟨rfl, rfl, fun c h => by cases h⟩
    split
    · next hflag =>
      split
      · exact Or.inl ⟨rfl, rfl, fun c h => by cases h⟩
      split
      · exact Or.inl ⟨rfl, rfl, fun c h => by cases h⟩
      · -- past both calls of `nla_put`: the slot is retired, whatever `genlmsg_reply` says
        exact Or.inr ⟨hflag, rfl, rfl, rfl⟩
    · refine Or.inl ⟨rfl, rfl, ?_⟩
      intro c hc
      dsimp only at hc
      split at hc
      · cases hc
      · exact (Option.some.inj hc).symm

/-! ## What became of a frame

A frame goes to the netdev its opcode names, or is dropped for want of one or of an skb, or goes to
the caller of the command. -/

/-- `bytes` are what a frame's metadata say it carries: `length` bytes, those inside the slot being
the frame's own. -/
def Frame.Carries (f : Frame) (bytes : List UInt8) : Prop :=
  bytes.length = f.metadata.length.toNat
    ∧ bytes.take dmaBufSize = f.buffer.take f.metadata.length.toNat

/-- A slot read as a message is the frame's own length and bytes. -/
theorem frame_carries_message (r : DmaRegion) (i : Nat) :
    (r.frame i).Carries (r.message i).bytes := by
  refine ⟨by simp [DmaRegion.message, DmaRegion.frame], ?_⟩
  simp only [DmaRegion.message, DmaRegion.frame]
  rw [take_readMem, take_readMem, Nat.min_comm]

/-- The frame went where its opcode says: up on the netdev it names, dropped for that netdev for
want of an skb, dropped because it names none, or out to a netlink client. -/
def FateOk (devs : Netdevs) (f : Frame) : TakenBy → Prop
  | .poll (.delivered netdev bytes) =>
    (∃ i, rxGetDstIface f.metadata.opCode = some i ∧ netdev = devs.dev i) ∧ f.Carries bytes
  | .poll .badOpcode => rxGetDstIface f.metadata.opCode = none
  | .poll (.noSkb netdev) => ∃ i, rxGetDstIface f.metadata.opCode = some i ∧ netdev = devs.dev i
  | .dmaRx reply => ∀ m, reply = some (some m) → m.opCode = f.metadata.opCode ∧ f.Carries m.bytes

/-- What the poll does with a frame is what its opcode says. -/
theorem pollFate_ok (d : Driver) (i : Nat) (skbOk : Bool) :
    FateOk d.nf10Netdevs (d.rxDmaStream.frame i) (.poll (pollFate d i skbOk)) := by
  unfold pollFate
  cases hop : rxGetDstIface (d.rxDmaStream.metadata i).opCode with
  | none => exact hop
  | some dst =>
    cases skbOk with
    | true => exact ⟨⟨dst, hop, rfl⟩, frame_carries_message _ i⟩
    | false => exact ⟨dst, hop, rfl⟩

/-! ## The invariant

The frames produced are a history; the driver has taken the first part of it, and the slots hold the
rest. Credits and empty slots are the same number. -/

/-- The invariant over whole runs: the ring holds the frames not yet taken, one doorbell write
stands for each frame taken, and both indices are at their ends of the ring. -/
structure RxInv (n : Nat) (s : RxSys) : Prop where
  size : s.driver.dmaCpuBufs = n
  ring : FrameRing n s.produced s.taken.length s.driver.rxDmaStream.toDmaRegion
  tail : s.hwIndex = s.produced.length % n
  head : s.driver.rxDmaStream.bufIndex = s.taken.length % n
  rung : s.driver.rxDmaStream.doorbell = s.taken.length
  inOrder : s.taken.map Prod.fst <+: s.produced
  fates : ∀ t ∈ s.taken, FateOk s.driver.nf10Netdevs t.1 t.2

namespace RxInv

variable {n : Nat} {s : RxSys}

/-- A fresh ring is empty, and every credit is out. -/
theorem init (d : Driver) (n : Nat) : RxInv n (RxSys.init d n) where
  size := rfl
  ring := by
    have hflags (i : Nat) (hi : i < n) : (probeStreams d n).rxDmaStream.flags i = 0 := by
      simp [probeStreams, hi]
    constructor
    · apply Holds.init
      intro i hi
      change (probeStreams d n).rxDmaStream.flags i ≠ 1
      rw [hflags i hi]
      decide
    · intro i hi _
      exact hflags i hi
  tail := (Nat.zero_mod n).symm
  head := (Nat.zero_mod n).symm
  rung := rfl
  inOrder := List.nil_prefix
  fates := by
    intro t ht
    cases ht

/-- A consumer that retired the slot at the stream's index, which had flag 1: whatever else it did
to the globals, it took the oldest outstanding frame. -/
theorem takeFrame (hn : 0 < n) (h : RxInv n s) {d' : Driver} {by' : TakenBy}
    {poll : Option PollCall}
    (hfull : s.driver.rxDmaStream.flags s.driver.rxDmaStream.bufIndex = 1)
    (hsize : d'.dmaCpuBufs = n) (hdevs : d'.nf10Netdevs = s.driver.nf10Netdevs)
    (hrx : d'.rxDmaStream
      = s.driver.rxDmaStream.retired n s.driver.rxDmaStream.bufIndex)
    (hfate : FateOk s.driver.nf10Netdevs
      (s.driver.rxDmaStream.frame s.driver.rxDmaStream.bufIndex) by') :
    RxInv n { s with
      driver := d'
      poll := poll
      taken := s.taken
        ++ [(s.driver.rxDmaStream.frame s.driver.rxDmaStream.bufIndex, by')] } := by
  -- flag 1 at the head: a frame is outstanding, and the slot has the oldest one
  have hlt : s.taken.length < s.produced.length := by
    rw [h.head] at hfull
    exact (h.ring.full_head_iff hn).mp hfull
  have hframe : s.driver.rxDmaStream.frame s.driver.rxDmaStream.bufIndex
      = s.produced[s.taken.length] := by
    rw [h.head]
    exact h.ring.frame_head hlt
  exact {
    size := hsize
    ring := by
      have hretire := h.ring.retire hn hlt
      rw [← h.head] at hretire
      simp only [List.length_append, List.length_singleton, hrx]
      exact hretire
    tail := h.tail
    head := by
      simp only [List.length_append, List.length_singleton, hrx, DmaStream.retired,
        DmaStream.advance_bufIndex, DmaStream.ringDoorbell_bufIndex, DmaStream.setFlag_bufIndex]
      rw [h.head, next_mod hn]
    rung := by
      simp only [List.length_append, List.length_singleton, hrx]
      simp [DmaStream.retired, h.rung]
    inOrder := by
      have hlen : (s.taken.map Prod.fst).length < s.produced.length := by simpa using hlt
      have hnext := List.concat_get_prefix h.inOrder hlen
      simpa [hframe] using hnext
    fates := by
      intro t ht
      simp only [hdevs]
      rcases List.mem_append.mp ht with ht | ht
      · exact h.fates t ht
      · rw [List.mem_singleton.mp ht]
        exact hfate }

theorem hwProduce (hn : 0 < n) (h : RxInv n s) {f : Frame} (hf : f.Sized) :
    RxInv n (s.hwProduce f) := by
  simp only [RxSys.hwProduce]
  split
  · next hcredit =>
    -- a credit is a free place in the ring
    have hspace : s.produced.length < s.taken.length + n := by
      simp only [RxSys.credits, h.size, h.rung] at hcredit
      omega
    exact {
      size := h.size
      ring := by
        rw [h.tail]
        exact h.ring.produce hn hspace hf
      tail := by
        simp only [List.length_append, List.length_singleton]
        rw [h.tail, h.size, next_mod hn]
      head := h.head
      rung := h.rung
      inOrder := h.inOrder.trans (List.prefix_append _ _)
      fates := h.fates }
  · exact h

/-- Where a poll stands makes no difference to the ring. -/
theorem setPoll (h : RxInv n s) (poll : Option PollCall) : RxInv n { s with poll := poll } :=
  ⟨h.size, h.ring, h.tail, h.head, h.rung, h.inOrder, h.fates⟩

/-- One iteration of a poll that is up to date takes the oldest frame. -/
theorem pollTurn (hn : 0 < n) {b : Build} (hb : b.ghost = false) (h : RxInv n s) (skbOk : Bool)
    (hup : PollUpToDate s (.pollTurn skbOk)) : RxInv n (s.pollTurn b skbOk) := by
  unfold RxSys.pollTurn
  cases hpoll : s.poll with
  | none => exact h
  | some c =>
    by_cases htest : pollTest s.driver c
    · -- the local copy is still the stream's index
      have hidx : c.bufIndex = s.driver.rxDmaStream.bufIndex := hup c hpoll htest
      have hfull : s.driver.rxDmaStream.flags s.driver.rxDmaStream.bufIndex = 1 := by
        simp only [pollTest, Bool.and_eq_true, beq_iff_eq] at htest
        rw [← hidx]
        exact htest.2
      simp only [htest, if_true, hidx]
      apply h.takeFrame hn hfull
      · simpa [pollIteration] using h.size
      · simp [pollIteration]
      · simp [pollIteration, hb, hidx, h.size]
      · simpa [pollIteration, hidx] using pollFate_ok s.driver _ skbOk
    · simp only [htest]
      exact h.setPoll none

/-- The command takes the oldest frame, whatever becomes of its reply. -/
theorem dmaRx (hn : 0 < n) (h : RxInv n s) (hasInfo : Bool) (calls : DmaRxCalls) :
    RxInv n (s.dmaRx hasInfo calls) := by
  unfold RxSys.dmaRx
  obtain ⟨hd, htaken, _⟩ | ⟨hfull, hd, htaken, hreply⟩ := genlCmdDmaRx_cases s.driver hasInfo calls
  · simpa [hd, htaken] using h
  · simp only [htaken, Option.toList_some, List.map_cons, List.map_nil]
    apply h.takeFrame hn hfull
    · rw [hd]
      exact h.size
    · rw [hd]
      rfl
    · rw [hd, Driver.retire_rxDmaStream, h.size]
    · intro m hm
      rw [hreply] at hm
      split at hm
      · cases hm
      · cases hm
        exact ⟨rfl, frame_carries_message _ _⟩

/-- Only the RX side of the driver matters. -/
theorem congr (h : RxInv n s) {d : Driver}
    (hrx : d.rxDmaStream = s.driver.rxDmaStream) (hsize : d.dmaCpuBufs = s.driver.dmaCpuBufs)
    (hdevs : d.nf10Netdevs = s.driver.nf10Netdevs) : RxInv n { s with driver := d } where
  size := hsize.trans h.size
  ring := hrx ▸ h.ring
  tail := h.tail
  head := hrx ▸ h.head
  rung := hrx ▸ h.rung
  inOrder := h.inOrder
  fates := hdevs ▸ h.fates

/-- **The step lemma.** Every step of the hardware build that does not take a slot through an index
left behind preserves the invariant. -/
theorem step {b : Build} (hb : b.ghost = false) (hn : 0 < n) (h : RxInv n s) (e : RxEvent)
    (hup : PollUpToDate s e) : RxInv n (s.step b e) := by
  cases e with
  | hwProduce f => exact h.hwProduce hn f.property
  | pollStart budget =>
    simp only [RxSys.step]
    split
    · exact h.setPoll _
    · exact h
  | pollTurn skbOk => exact h.pollTurn hn hb skbOk hup
  | dmaRx hasInfo calls => exact h.dmaRx hn hasInfo calls

end RxInv

/-! ## The ring is a credit-controlled queue

What the invariant means: frames are taken in order, once each, and the device never fills a slot
that is not empty. -/

/-- What a state of the RX system guarantees, with `n` slots. -/
structure RxRefinement (n : Nat) (s : RxSys) : Prop where
  -- The frames taken out are the frames produced, in order, without a gap or a repetition.
  inOrder : s.taken.map Prod.fst <+: s.produced
  -- Each of them met exactly one of the ends its opcode allows.
  fates : ∀ t ∈ s.taken, FateOk s.driver.nf10Netdevs t.1 t.2
  -- No frame still to be taken has been overwritten.
  intact : ∀ j (h : j < s.produced.length), s.taken.length ≤ j →
    s.driver.rxDmaStream.frame (j % n) = s.produced[j]
  -- A device with a credit finds the slot it fills next empty.
  slotEmpty : 0 < s.credits → s.driver.rxDmaStream.flags s.hwIndex = 0
  -- Credits are conserved: one for each slot with flag 0.
  credits : s.credits = ((Finset.range n).filter fun i => s.driver.rxDmaStream.flags i = 0).card
  indexLt : s.driver.rxDmaStream.bufIndex < n

/-- The invariant gives the claim in a state reached. -/
theorem RxInv.refinement {n : Nat} {s : RxSys} (hn : 0 < n) (h : RxInv n s) :
    RxRefinement n s where
  inOrder := h.inOrder
  fates := h.fates
  intact j hj hlo := h.ring.holds.entry j hj hlo
  slotEmpty hcredit := by
    rw [h.tail]
    apply h.ring.empty_tail hn
    simp only [RxSys.credits, h.size, h.rung] at hcredit
    omega
  credits := by
    rw [h.ring.card_empty hn, RxSys.credits, h.size, h.rung, Nat.add_comm]
  indexLt := by
    rw [h.head]
    exact Nat.mod_lt _ hn

/-- **RX ring refinement.** In the hardware build, from the streams as `probe` sets them up with any
`n ≥ 1` slots, over every run in which no iteration of the poll loop takes a slot through an index
that a `genl_cmd_dma_rx` has left behind, the ring is a queue of frames with one credit per empty
slot. -/
theorem rx_ring_refines (b : Build) (hb : b.ghost = false) (d : Driver) (n : Nat) (hn : 0 < n)
    (es : List RxEvent) (hup : Runs.Along (RxSys.step b) PollUpToDate (RxSys.init d n) es) :
    RxRefinement n (Runs.run (RxSys.step b) (RxSys.init d n) es) := by
  have hstep : ∀ s e, RxInv n s → PollUpToDate s e → RxInv n (RxSys.step b s e) :=
    fun s e h => h.step hb hn e
  exact (Runs.run_invariant hstep (RxInv.init d n) hup).refinement hn

/-! ## The index left behind

Two slots. The poll takes frame 0 and copies index 1; `genl_cmd_dma_rx` takes frame 1 and moves the
stream's index to 0; the device, credited for both, fills slot 0 with frame 2 and slot 1 with
frame 3. The poll goes on at slot 1. -/

/-- A frame that can be told from others by its `tag` field. -/
def taggedFrame (tag : UInt32) : { f : Frame // f.Sized } :=
  ⟨⟨List.replicate dmaBufSize 0, ⟨64, opcodeCpu0, tag, 0⟩⟩, List.length_replicate⟩

/-- The kernel calls of `genl_cmd_dma_rx` all succeed. -/
def dmaRxCallsOk : DmaRxCalls := ⟨false, false, 0, 0, 0⟩

/-- The run, up to the point where the poll goes on. -/
def staleRun : List RxEvent :=
  [.hwProduce (taggedFrame 0), .hwProduce (taggedFrame 1), .pollStart 64, .pollTurn true,
    .dmaRx true dmaRxCallsOk, .hwProduce (taggedFrame 2), .hwProduce (taggedFrame 3)]

/-- **Counterexample.** A netlink read between two iterations of one poll makes the poll take
frame 3 while frame 2 is still in the ring. -/
theorem rx_ring_stale_index :
    ¬ RxRefinement 2 (Runs.run (RxSys.step plainBuild) (RxSys.init plainDriver 2)
      (staleRun ++ [.pollTurn true])) := by
  intro h
  have htags := h.inOrder.map fun f => f.metadata.tag
  revert htags
  decide

/-- The same run short of its last step: every turn so far was up to date. -/
theorem rx_ring_refines_until_stale :
    RxRefinement 2 (Runs.run (RxSys.step plainBuild) (RxSys.init plainDriver 2) staleRun) :=
  rx_ring_refines plainBuild rfl plainDriver 2 (by decide) staleRun (by decide +kernel)

end Nf10
