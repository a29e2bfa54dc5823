import Nf10.Driver.GhostRing
import Nf10.Driver.Interleaving

/-!
# Nf10 — the control commands on the rings

`genl_cmd_dma_tx` and `genl_cmd_dma_rx` work on the rings of the drivers' fast paths, with tests and
an order of their own.

* **`ghost_dma_tx_never_fits`** — `genl_cmd_dma_tx` reads flag 0 as full and writes it for full, as the
  hardware has it. On the ring that ghost mode shares with the poll, flag 0 is free: it refuses every
  free slot, and what it stores it stores over a frame the poll has not taken, and unmarks it. Then it
  writes to a doorbell that ghost mode does not have;
* **`dma_rx_atomic_iff`** — `genl_cmd_dma_rx` retires the frame before it sends the reply, so a reply
  that cannot be sent takes the frame with it. Every other failure comes before that.
-/

namespace Nf10

/-! ## `genl_cmd_dma_tx` in ghost mode

`enable_ghosting` gives the TX stream its buffers, metadata and flags, and no doorbell: the pointer keeps
the `NULL` of a global. `nf10_ghost_xmit` leaves the doorbell out. `genl_cmd_dma_tx` has no variant for
ghost mode, so it stores through the pointer, behind the flag and before the index. -/

/-- How `genl_cmd_dma_tx` goes out in the ghost build: it returns, or the store to the doorbell faults. -/
inductive GhostDmaTx where
  | returned (r : DmaTxResult)
  | faulted
deriving DecidableEq, Repr

/-- `genl_cmd_dma_tx` in the ghost build. It gets as far as the flag store; the doorbell is `NULL`, and
the index is not stepped any more. -/
def genlCmdDmaTxGhost (d : Driver) (info : Option GenlInfo) : Driver × GhostDmaTx :=
  match info with
  | none => (d, .returned .noInfo)
  | some info =>
    match info.attrs .msg with
    | none => (d, .returned .noMsg)
    | some naMsg =>
      match info.attrs .opcode with
      | none => (d, .returned .noOpcode)
      | some naOpcode =>
        let tx := d.txDmaStream
        if tx.flags tx.bufIndex = 0 then (d, .returned .full)
        else
          let tx := tx.fill naMsg.data (dmaTxLen naMsg) (load32 naOpcode.data)
          -- `*tx_dma_stream.doorbell = 1` comes next
          ({ d with txDmaStream := tx.setFlag tx.bufIndex 0 }, .faulted)

/-- **The two builds agree up to the doorbell.** Where the hardware build's command returns without
storing, so does this one; where it stores, this one has filled the same slot and set its flag. -/
theorem genlCmdDmaTxGhost_eq (d : Driver) (info : Option GenlInfo) :
    (∃ r, genlCmdDmaTx d info = (d, r) ∧ genlCmdDmaTxGhost d info = (d, .returned r))
    ∨ (genlCmdDmaTxGhost d info).2 = .faulted
      ∧ (genlCmdDmaTx d info).1.txDmaStream
        = (genlCmdDmaTxGhost d info).1.txDmaStream.ringDoorbell.advance d.dmaCpuBufs := by
  unfold genlCmdDmaTx genlCmdDmaTxGhost
  cases info with
  | none => exact Or.inl ⟨_, rfl, rfl⟩
  | some info =>
    dsimp only
    cases info.attrs .msg with
    | none => exact Or.inl ⟨_, rfl, rfl⟩
    | some naMsg =>
      cases info.attrs .opcode with
      | none => exact Or.inl ⟨_, rfl, rfl⟩
      | some naOpcode =>
        dsimp only
        split
        · exact Or.inl ⟨_, rfl, rfl⟩
        · exact Or.inr ⟨rfl, rfl⟩

/-- On a command that is complete there are two ways left, and the flag decides. -/
theorem genlCmdDmaTxGhost_of_request {info : Option GenlInfo} {naMsg : Nlattr} {opcode : UInt32}
    (h : dmaTxRequest info = some (naMsg, opcode)) (d : Driver) :
    genlCmdDmaTxGhost d info
      = if d.txDmaStream.flags d.txDmaStream.bufIndex = 0 then (d, .returned .full)
        else
          let tx := d.txDmaStream.fill naMsg.data (dmaTxLen naMsg) opcode
          ({ d with txDmaStream := tx.setFlag tx.bufIndex 0 }, .faulted) := by
  unfold dmaTxRequest at h
  split at h
  · cases h
  · split at h
    · next info msg op hmsg hop =>
      cases h
      simp only [genlCmdDmaTxGhost, hmsg, hop]
    · cases h

/-- The ghost system with the netlink command beside it. -/
structure SharedSys where
  sys : GhostSys
  -- A command has faulted. Its process is gone; transmit calls and polls go on.
  oopsed : Bool

/-- A step of the ghost system, or the command. -/
inductive SharedEvent where
  | ghost (e : GhostEvent)
  | dmaTx (info : Option GenlInfo)

namespace SharedSys

/-- `enable_ghosting`, and no call has faulted. -/
def init (d : Driver) (n : Nat) : SharedSys :=
  ⟨GhostSys.init d n, false⟩

/-- A command. The process that faulted still holds the mutex of generic netlink, so none comes after
it. -/
def dmaTx (s : SharedSys) (info : Option GenlInfo) : SharedSys :=
  if s.oopsed then s
  else
    let r := genlCmdDmaTxGhost s.sys.driver info
    { sys := { s.sys with driver := r.1.aliasTx }, oopsed := r.2 = .faulted }

/-- One step of either. -/
def step (b : Build) (s : SharedSys) : SharedEvent → SharedSys
  | .ghost e => { s with sys := s.sys.step b e }
  | .dmaTx info => s.dmaTx info

/-- A message goes into the slot at `buf_index` exactly when that slot is free for
`nf10_ghost_xmit` and the poll, and is marked for the poll; otherwise nothing happens. -/
structure Fits (s s' : SharedSys) (m : Message) : Prop where
  stored : s.sys.driver.txDmaStream.flags s.sys.driver.txDmaStream.bufIndex = 0 →
    s'.sys.driver.rxDmaStream.message s.sys.driver.txDmaStream.bufIndex = m
      ∧ s'.sys.driver.rxDmaStream.flags s.sys.driver.txDmaStream.bufIndex = 1
  kept : s.sys.driver.txDmaStream.flags s.sys.driver.txDmaStream.bufIndex ≠ 0 → s' = s

/-- **What it does instead.** A free slot is left as it is. In any other the message replaces what is
there, the slot is unmarked, the index stays, and the call faults. -/
theorem dmaTx_cases {info : Option GenlInfo} {naMsg : Nlattr} {opcode : UInt32}
    (h : dmaTxRequest info = some (naMsg, opcode)) {s : SharedSys} (hs : s.oopsed = false) :
    (s.sys.driver.txDmaStream.flags s.sys.driver.txDmaStream.bufIndex = 0
      ∧ s.dmaTx info = { s with sys := { s.sys with driver := s.sys.driver.aliasTx } })
    ∨ (s.sys.driver.txDmaStream.flags s.sys.driver.txDmaStream.bufIndex ≠ 0
      ∧ (s.dmaTx info).sys.driver.txDmaStream.message s.sys.driver.txDmaStream.bufIndex
        = messageOf naMsg.data (dmaTxLen naMsg) opcode
      ∧ (s.dmaTx info).sys.driver.txDmaStream.flags s.sys.driver.txDmaStream.bufIndex = 0
      ∧ (s.dmaTx info).sys.driver.txDmaStream.bufIndex = s.sys.driver.txDmaStream.bufIndex
      ∧ (s.dmaTx info).oopsed = true) := by
  unfold dmaTx
  rw [if_neg (by simp [hs]), genlCmdDmaTxGhost_of_request h]
  by_cases hflag : s.sys.driver.txDmaStream.flags s.sys.driver.txDmaStream.bufIndex = 0
  · refine Or.inl ⟨hflag, ?_⟩
    rw [if_pos hflag]
    show (⟨_, false⟩ : SharedSys) = ⟨_, s.oopsed⟩
    rw [hs]
  · rw [if_neg hflag]
    refine Or.inr ⟨hflag, ?_, ?_, rfl, rfl⟩
    · exact message_fill_self s.sys.driver.txDmaStream naMsg.data (dmaTxLen naMsg) opcode
    · exact Function.update_self _ _ _

end SharedSys

/-- **`genl_cmd_dma_tx` never fits the ghost ring**: in no state that transmit calls, polls and the
command itself lead to and in which it can still be called, for no message and no opcode. -/
theorem ghost_dma_tx_never_fits (b : Build) (d : Driver) (n : Nat) (es : List SharedEvent)
    {info : Option GenlInfo} {naMsg : Nlattr} {opcode : UInt32}
    (h : dmaTxRequest info = some (naMsg, opcode))
    (hcall : (Runs.run (SharedSys.step b) (SharedSys.init d n) es).oopsed = false) :
    ¬ SharedSys.Fits (Runs.run (SharedSys.step b) (SharedSys.init d n) es)
      ((Runs.run (SharedSys.step b) (SharedSys.init d n) es).dmaTx info)
      (messageOf naMsg.data (dmaTxLen naMsg) opcode) := by
  generalize Runs.run (SharedSys.step b) (SharedSys.init d n) es = s at hcall ⊢
  intro hfits
  obtain ⟨hfree, heq⟩ | ⟨hfull, -, hunmarked, -, -⟩ := SharedSys.dmaTx_cases h hcall
  · -- a free slot: not marked for the poll
    have hmarked := (hfits.stored hfree).2
    rw [heq] at hmarked
    have hzero : s.sys.driver.aliasTx.rxDmaStream.flags s.sys.driver.txDmaStream.bufIndex = 0 := hfree
    exact absurd (hzero.symm.trans hmarked) (by decide)
  · -- a frame not yet taken: no longer marked
    rw [hfits.kept hfull] at hunmarked
    exact hfull hunmarked

/-- A message of one byte for interface 0. -/
def shortMsg : Nlattr := ⟨fun _ => 9, 1⟩

/-- Its opcode, 2. -/
def shortOpcode : Nlattr := ⟨fun i => if i = 0 then 2 else 0, 4⟩

/-- The command with both attributes. -/
def shortDmaTx : Option GenlInfo :=
  some ⟨fun
    | .msg => some shortMsg
    | .opcode => some shortOpcode
    | _ => none⟩

/-- The build with `DRIVER_GHOST`. -/
def ghostBuild : Build := { plainBuild with ghost := true }

/-- The ghost ring with one slot and a frame in it. -/
def oneGhostFrame : SharedSys :=
  Runs.run (SharedSys.step ghostBuild) (SharedSys.init plainDriver 1)
    [.ghost (.xmit ⟨fun _ => 7, 60⟩ 2)]

/-- One slot with a frame in it: the message goes over the frame, the poll finds nothing, and the call
ends in a fault. -/
theorem ghost_dma_tx_overwrites :
    oneGhostFrame.oopsed = false
    ∧ oneGhostFrame.sys.driver.rxDmaStream.flags 0 = 1
    ∧ (oneGhostFrame.dmaTx shortDmaTx).sys.driver.rxDmaStream.flags 0 = 0
    ∧ ((oneGhostFrame.dmaTx shortDmaTx).sys.driver.rxDmaStream.message 0).bytes = [9]
    ∧ (oneGhostFrame.dmaTx shortDmaTx).oopsed = true
    ∧ ¬ SharedSys.Fits oneGhostFrame (oneGhostFrame.dmaTx shortDmaTx)
      (messageOf shortMsg.data (dmaTxLen shortMsg) (load32 shortOpcode.data)) := by
  refine ⟨by decide, by decide, by decide, by decide, by decide, ?_⟩
  intro h
  have hsame := congrArg (fun s : SharedSys => s.sys.driver.txDmaStream.flags 0) (h.kept (by decide))
  exact absurd hsame (by decide)

/-- On the empty ring it stores nothing. -/
theorem ghost_dma_tx_never_fits_empty :
    dmaTxRequest shortDmaTx = some (shortMsg, load32 shortOpcode.data)
    ∧ (SharedSys.init plainDriver 1).oopsed = false
    ∧ ¬ SharedSys.Fits (Runs.run (SharedSys.step ghostBuild) (SharedSys.init plainDriver 1) [])
      ((Runs.run (SharedSys.step ghostBuild) (SharedSys.init plainDriver 1) []).dmaTx shortDmaTx)
      (messageOf shortMsg.data (dmaTxLen shortMsg) (load32 shortOpcode.data)) :=
  ⟨rfl, rfl, ghost_dma_tx_never_fits ghostBuild plainDriver 1 [] rfl rfl⟩

/-! ## `genl_cmd_dma_rx` and its reply

The command takes a frame from the ring before it sends its reply, and `genlmsg_reply` may fail:
then the frame is in neither place. -/

/-- The frame goes with its reply: without one the RX stream is as it was, and with one the slot at
`buf_index`, if it was full, and no other has been retired. -/
structure DmaRxAtomic (d : Driver) (r : Driver × DmaRxResult) : Prop where
  failed : (∀ m, r.2.reply ≠ some (some m)) → r.1.rxDmaStream = d.rxDmaStream
  handed : r.2.reply.isSome = true → d.rxDmaStream.flags d.rxDmaStream.bufIndex = 1 →
    r.1.rxDmaStream.flags = Function.update d.rxDmaStream.flags d.rxDmaStream.bufIndex 0
    ∧ r.1.rxDmaStream.bufIndex = CircularQueue.next d.dmaCpuBufs d.rxDmaStream.bufIndex
    ∧ r.1.rxDmaStream.doorbell = d.rxDmaStream.doorbell + 1

/-- A full slot, the reply is built, and `genlmsg_reply` fails. -/
def ReplyLost (d : Driver) (hasInfo : Bool) (calls : DmaRxCalls) : Prop :=
  hasInfo = true ∧ calls.genlmsgNewNull = false ∧ calls.genlmsgPutReplyNull = false
    ∧ d.rxDmaStream.flags d.rxDmaStream.bufIndex = 1 ∧ calls.nlaPut = 0 ∧ calls.nlaPutU32 = 0
    ∧ calls.genlmsgReply ≠ 0

/-- The exits before the frame is retired. -/
theorem DmaRxAtomic.of_failed (d : Driver) (ret : Int) (taken : Option Frame) :
    DmaRxAtomic d (d, ⟨ret, taken, none⟩) :=
  ⟨fun _ => rfl, fun h => by cases h⟩

/-- **`genl_cmd_dma_rx` is atomic** unless the reply it has built cannot be sent. -/
theorem dma_rx_atomic_iff (d : Driver) (hasInfo : Bool) (calls : DmaRxCalls) :
    DmaRxAtomic d (genlCmdDmaRx d hasInfo calls) ↔ ¬ ReplyLost d hasInfo calls := by
  unfold genlCmdDmaRx ReplyLost
  dsimp only
  split
  · next hinfo => exact iff_of_true (.of_failed d _ _) (fun h => hinfo h.1)
  split
  · next hnew => exact iff_of_true (.of_failed d _ _) (fun h => by simp [hnew] at h)
  split
  · next hput => exact iff_of_true (.of_failed d _ _) (fun h => by simp [hput] at h)
  split
  · next hinfo hnew hput hfull =>
    split
    · next herr => exact iff_of_true (.of_failed d _ _) (fun h => herr h.2.2.2.2.1)
    split
    · next herr => exact iff_of_true (.of_failed d _ _) (fun h => herr h.2.2.2.2.2.1)
    next hmsg hop =>
    -- the frame has been retired
    by_cases hreply : calls.genlmsgReply = 0
    · rw [if_neg (not_not.mpr hreply)]
      refine iff_of_true ⟨fun h => absurd rfl (h _), fun _ _ => ⟨rfl, rfl, rfl⟩⟩ ?_
      exact fun h => h.2.2.2.2.2.2 hreply
    · rw [if_pos hreply]
      refine iff_of_false ?_ ?_
      · intro h
        have hkept := congrArg DmaStream.doorbell (h.failed fun m hm => by cases hm)
        exact absurd hkept (Nat.succ_ne_self _)
      · simp only [not_not]
        exact ⟨Decidable.not_not.mp hinfo, Bool.eq_false_of_not_eq_true hnew,
          Bool.eq_false_of_not_eq_true hput, hfull, not_not.mp hmsg, not_not.mp hop, hreply⟩
  · next hempty =>
    refine iff_of_true ⟨fun _ => rfl, fun _ hfull => absurd hfull hempty⟩ ?_
    exact fun h => hempty h.2.2.2.1

/-- A ring of two slots with a frame in the first, and a client that has closed its socket. -/
def oneFrame : Driver :=
  { plainDriver with
    dmaCpuBufs := 2
    rxDmaStream := { plainDriver.rxDmaStream with flags := fun i => if i = 0 then 1 else 0 } }

/-- The client has gone when the reply is sent. -/
def socketClosed : DmaRxCalls := ⟨false, false, 0, 0, -111⟩

/-- The client gets nothing, and the frame is gone. -/
theorem dma_rx_loses_frame : ¬ DmaRxAtomic oneFrame (genlCmdDmaRx oneFrame true socketClosed) := by
  intro h
  have hnone : (genlCmdDmaRx oneFrame true socketClosed).2.reply = none := by decide
  have hkept := congrArg DmaStream.bufIndex (h.failed fun m => by simp [hnone])
  exact absurd hkept (by decide)

end Nf10
