import Nf10.Driver.RxRing
import Nf10.Driver.TxRing

/-!
# Nf10 — calls interleaved inside the ring code

Only `nf10_ndo_start_xmit` holds a lock over its ring access (`tx_dma_region_spinlock`). The lock of
the RX region is commented out, and the netlink handlers take none, so `genl_cmd_dma_tx`,
`genl_cmd_dma_rx` and an iteration of the poll loop are *sequences* of steps here: test the flag,
fill or read the slot, write the flag, ring the doorbell, advance the index. `TxCall` and `RxCall`
are the program counters; every thread has one of each.

* **`interleaved_overwrite`** — a packet sent between the flag test and the copy of a
  `genl_cmd_dma_tx` is overwritten in its slot;
* **`interleaved_calls_safe`** — nothing is lost, repeated or overwritten in any run in which a call
  goes past its flag test only while no other call is inside the same ring (`Exclusive`);
* **`dmaTx_uninterrupted` / `dmaRx_uninterrupted` / `poll_uninterrupted`** — left alone, the steps
  add up to the handlers of `Nf10.Driver.Handlers`.
-/

namespace Nf10

open CircularQueue

/-! ## Program counters

A call is cut where another one can come in between: at each access to the shared ring. The program
counter of a call says what it has done so far and what it has in its locals. -/

/-- Where a `genl_cmd_dma_tx` call stands. Each constructor names the last step done. -/
inductive TxCall where
  | idle
  | tested (naMsg : Nlattr) (opcode : UInt32)
  | filled (m : Message)
  | flagged
  | rung

/-- Whose frame it is once it has been read out of its slot. -/
inductive RxTaker where
  | poll (c : PollCall) (fate : Fate)
  | dmaRx (calls : DmaRxCalls)

/-- Where a consumer of the RX ring stands. A poll between two iterations (`pollLoop`) is running
but not inside the ring; its locals are kept. -/
inductive RxCall where
  | idle
  | pollLoop (c : PollCall)
  | pollTested (c : PollCall)
  | dmaRxTested (calls : DmaRxCalls)
  | read (w : RxTaker)
  | cleared (w : RxTaker)
  | rung (w : RxTaker)

/-- Past the flag test and short of the index update. -/
def RxCall.Inside : RxCall → Prop
  | .idle => False
  | .pollLoop _ => False
  | _ => True

/-- The slot a consumer works on: a poll goes by its own copy of the index, `genl_cmd_dma_rx` reads
the stream's again at each access. -/
def RxTaker.index (rx : DmaStream) : RxTaker → Nat
  | .poll c _ => c.bufIndex
  | .dmaRx _ => rx.bufIndex

/-- The TX ring's calls, the device's position in it, and what went in and out. -/
structure TxSide where
  calls : Nat → TxCall
  hwIndex : Nat
  hwUsed : Nat
  accepted : List Message
  consumed : List Message

/-- The RX ring's calls, the device's position in it, and what went in and out. -/
structure RxSide where
  calls : Nat → RxCall
  hwIndex : Nat
  produced : List Frame
  taken : List Frame

/-- The driver with all its calls under way, by thread, and the device. -/
structure Interleaved where
  driver : Driver
  tx : TxSide
  rx : RxSide

/-- One step of one call, named by its thread, or of the device. -/
inductive CallEvent where
  | startXmit (skb : SkBuff) (netdev : Nat)
  | dmaTxTest (t : Nat) (info : Option GenlInfo)
  | dmaTxNext (t : Nat)
  | hwConsume
  | hwProduce (f : { f : Frame // f.Sized })
  | pollEnter (t : Nat) (budget : Int)
  | pollTest (t : Nat)
  | dmaRxTest (t : Nat) (hasInfo : Bool) (calls : DmaRxCalls)
  | rxNext (t : Nat) (skbOk : Bool)

/-! ## Steps

Each step is one access to the ring. A step of a call that is not at that point leaves the state
alone, so every list of events is a run. -/

/-- The message and the opcode a `genl_cmd_dma_tx` has in hand when it comes to the ring. -/
def dmaTxRequest : Option GenlInfo → Option (Nlattr × UInt32)
  | none => none
  | some info =>
    match info.attrs .msg, info.attrs .opcode with
    | some naMsg, some naOpcode => some (naMsg, load32 naOpcode.data)
    | _, _ => none

/-- `genl_cmd_dma_rx` gets as far as the ring: it has its arguments and its reply has a header. -/
def dmaRxReady (hasInfo : Bool) (calls : DmaRxCalls) : Bool :=
  hasInfo && !calls.genlmsgNewNull && !calls.genlmsgPutReplyNull

namespace Interleaved

/-- From `probe`, with no call under way. -/
def init (d : Driver) (n : Nat) : Interleaved where
  driver := probeStreams d n
  tx := ⟨fun _ => .idle, 0, 0, [], []⟩
  rx := ⟨fun _ => .idle, 0, [], []⟩

/-- Moves the program counter of a transmit call. -/
def setTx (s : Interleaved) (t : Nat) (c : TxCall) : Interleaved :=
  { s with tx := { s.tx with calls := Function.update s.tx.calls t c } }

/-- Moves the program counter of a receive call. -/
def setRx (s : Interleaved) (t : Nat) (c : RxCall) : Interleaved :=
  { s with rx := { s.rx with calls := Function.update s.rx.calls t c } }

/-- An access to the TX stream. -/
def updateTx (s : Interleaved) (f : DmaStream → DmaStream) : Interleaved :=
  { s with driver := { s.driver with txDmaStream := f s.driver.txDmaStream } }

/-- An access to the RX stream. -/
def updateRx (s : Interleaved) (f : DmaStream → DmaStream) : Interleaved :=
  { s with driver := { s.driver with rxDmaStream := f s.driver.rxDmaStream } }

/-- The locked section of `nf10_ndo_start_xmit` is one step. -/
def startXmit (b : Build) (s : Interleaved) (skb : SkBuff) (netdev : Nat) : Interleaved :=
  let r := nf10NdoStartXmit b s.driver skb netdev
  { s with driver := r.1, tx := { s.tx with accepted := s.tx.accepted ++ r.2.message.toList } }

/-- The request is complete and the flag at the stream's index lets it in. -/
def dmaTxTest (s : Interleaved) (t : Nat) (info : Option GenlInfo) : Interleaved :=
  match s.tx.calls t, dmaTxRequest info with
  | .idle, some (naMsg, opcode) =>
    if s.driver.txDmaStream.flags s.driver.txDmaStream.bufIndex = 0 then s
    else s.setTx t (.tested naMsg opcode)
  | _, _ => s

/-- The next step of the `genl_cmd_dma_tx` of thread `t`. The message counts as accepted from the
write of its flag on. -/
def dmaTxNext (s : Interleaved) (t : Nat) : Interleaved :=
  match s.tx.calls t with
  | .idle => s
  | .tested naMsg opcode =>
    (s.updateTx fun tx => tx.fill naMsg.data (dmaTxLen naMsg) opcode).setTx t
      (.filled (messageOf naMsg.data (dmaTxLen naMsg) opcode))
  | .filled m =>
    let s := { s with tx := { s.tx with accepted := s.tx.accepted ++ [m] } }
    (s.updateTx fun tx => tx.setFlag tx.bufIndex 0).setTx t .flagged
  | .flagged => (s.updateTx DmaStream.ringDoorbell).setTx t .rung
  | .rung => (s.updateTx fun tx => tx.advance s.driver.dmaCpuBufs).setTx t .idle

/-- The device reads the slot at its index, for a doorbell write that it has not used. -/
def hwConsume (s : Interleaved) : Interleaved :=
  let tx := s.driver.txDmaStream
  if s.tx.hwUsed < tx.doorbell then
    { s with
      driver := { s.driver with txDmaStream := tx.setFlag s.tx.hwIndex 1 }
      tx := { s.tx with
        hwIndex := next s.driver.dmaCpuBufs s.tx.hwIndex
        hwUsed := s.tx.hwUsed + 1
        consumed := s.tx.consumed ++ [tx.message s.tx.hwIndex] } }
  else s

/-- The device spends one of its `n + doorbell - produced` credits on a frame. -/
def hwProduce (s : Interleaved) (f : Frame) : Interleaved :=
  let rx := s.driver.rxDmaStream
  if s.rx.produced.length < s.driver.dmaCpuBufs + rx.doorbell then
    { s with
      driver := { s.driver with rxDmaStream := rx.hwFill s.rx.hwIndex f }
      rx := { s.rx with
        hwIndex := next s.driver.dmaCpuBufs s.rx.hwIndex
        produced := s.rx.produced ++ [f] } }
  else s

/-- A poll begins, with its copy of the index. -/
def pollEnter (s : Interleaved) (t : Nat) (budget : Int) : Interleaved :=
  match s.rx.calls t with
  | .idle => s.setRx t (.pollLoop (pollStart s.driver budget))
  | _ => s

/-- The loop test of a poll. -/
def pollTest (s : Interleaved) (t : Nat) : Interleaved :=
  match s.rx.calls t with
  | .pollLoop c => if Nf10.pollTest s.driver c then s.setRx t (.pollTested c) else s.setRx t .idle
  | _ => s

/-- The flag test of `genl_cmd_dma_rx`, and what comes before it. -/
def dmaRxTest (s : Interleaved) (t : Nat) (hasInfo : Bool) (calls : DmaRxCalls) : Interleaved :=
  match s.rx.calls t with
  | .idle =>
    if dmaRxReady hasInfo calls
        ∧ s.driver.rxDmaStream.flags s.driver.rxDmaStream.bufIndex = 1 then
      s.setRx t (.dmaRxTested calls)
    else s
  | _ => s

/-- The frame is read out of its slot; from here on it is the consumer's. -/
def takeFrame (s : Interleaved) (t i : Nat) (w : RxTaker) : Interleaved :=
  { s with rx := { s.rx with taken := s.rx.taken ++ [s.driver.rxDmaStream.frame i] } }.setRx t
    (.read w)

/-- What follows the index update: a poll refreshes its copy and counts a delivered packet, a
`genl_cmd_dma_rx` is done with the ring. -/
def leave (s : Interleaved) (t : Nat) : RxTaker → Interleaved
  | .poll c (.delivered _ _) =>
    s.setRx t (.pollLoop ⟨c.budget, c.nRx + 1, s.driver.rxDmaStream.bufIndex⟩)
  | .poll c .badOpcode => s.setRx t (.pollLoop ⟨c.budget, c.nRx, s.driver.rxDmaStream.bufIndex⟩)
  | .poll c (.noSkb netdev) =>
    { s with driver := s.driver.countFate 0 (.noSkb netdev) }.setRx t
      (.pollLoop ⟨c.budget, c.nRx, s.driver.rxDmaStream.bufIndex⟩)
  | .dmaRx _ => s.setRx t .idle

/-- The next step of the RX consumer of thread `t`. -/
def rxNext (s : Interleaved) (t : Nat) (skbOk : Bool) : Interleaved :=
  match s.rx.calls t with
  | .idle => s
  | .pollLoop _ => s
  | .pollTested c =>
    let fate := pollFate s.driver c.bufIndex skbOk
    let len := (s.driver.rxDmaStream.metadata c.bufIndex).length
    let s := s.takeFrame t c.bufIndex (.poll c fate)
    -- a packet that goes up is counted here, one dropped for want of an skb after the index update
    match fate with
    | .delivered _ _ => { s with driver := s.driver.countFate len fate }
    | _ => s
  | .dmaRxTested calls =>
    if calls.nlaPut ≠ 0 then s.setRx t .idle
    else if calls.nlaPutU32 ≠ 0 then s.setRx t .idle
    else s.takeFrame t s.driver.rxDmaStream.bufIndex (.dmaRx calls)
  | .read w => (s.updateRx fun rx => rx.setFlag (w.index rx) 0).setRx t (.cleared w)
  | .cleared w => (s.updateRx DmaStream.ringDoorbell).setRx t (.rung w)
  | .rung w => (s.updateRx fun rx => rx.advance s.driver.dmaCpuBufs).leave t w

/-- One event. -/
def step (b : Build) (s : Interleaved) : CallEvent → Interleaved
  | .startXmit skb netdev => s.startXmit b skb netdev
  | .dmaTxTest t info => s.dmaTxTest t info
  | .dmaTxNext t => s.dmaTxNext t
  | .hwConsume => s.hwConsume
  | .hwProduce f => s.hwProduce f.val
  | .pollEnter t budget => s.pollEnter t budget
  | .pollTest t => s.pollTest t
  | .dmaRxTest t hasInfo calls => s.dmaRxTest t hasInfo calls
  | .rxNext t skbOk => s.rxNext t skbOk

end Interleaved

/-! ## Calls that are left alone

Run without a break, the steps of a call do what the handler of `Nf10.Driver.Handlers` does. -/

/-- The command in one piece, once its request is complete. -/
theorem genlCmdDmaTx_of_request {info : Option GenlInfo} {naMsg : Nlattr} {opcode : UInt32}
    (h : dmaTxRequest info = some (naMsg, opcode)) (d : Driver) :
    genlCmdDmaTx d info
      = if d.txDmaStream.flags d.txDmaStream.bufIndex = 0 then (d, .full)
        else ({ d with txDmaStream :=
                d.txDmaStream.transmit d.dmaCpuBufs naMsg.data (dmaTxLen naMsg) opcode },
              .accepted (messageOf naMsg.data (dmaTxLen naMsg) opcode)) := by
  unfold dmaTxRequest at h
  split at h
  · cases h
  · split at h
    · next info msg op hmsg hop =>
      cases h
      simp only [genlCmdDmaTx, hmsg, hop]
    · cases h

/-- An incomplete request does not get to the ring. -/
theorem genlCmdDmaTx_of_no_request {info : Option GenlInfo} (h : dmaTxRequest info = none)
    (d : Driver) : (genlCmdDmaTx d info).1 = d ∧ (genlCmdDmaTx d info).2.message = none := by
  obtain ⟨_, _, ⟨i, rfl, hmsg, hop⟩, _⟩ | ⟨⟨i, rfl, hmsg, hop⟩, _⟩ | ⟨_, r, _, hr, heq⟩ :=
    genlCmdDmaTx_cases d info
  · simp [dmaTxRequest, hmsg, hop] at h
  · obtain ⟨m, hm⟩ := Option.isSome_iff_exists.mp hmsg
    obtain ⟨o, ho⟩ := Option.isSome_iff_exists.mp hop
    simp [dmaTxRequest, hm, ho] at h
  · simp [heq, hr]

/-- A command that does not pass the test leaves the ring alone. -/
theorem genlCmdDmaRx_of_failed_test {d : Driver} {hasInfo : Bool} {calls : DmaRxCalls}
    (h : ¬ (dmaRxReady hasInfo calls ∧ d.rxDmaStream.flags d.rxDmaStream.bufIndex = 1)) :
    (genlCmdDmaRx d hasInfo calls).1 = d ∧ (genlCmdDmaRx d hasInfo calls).2.taken = none := by
  by_cases hready : dmaRxReady hasInfo calls
  · have hempty : d.rxDmaStream.flags d.rxDmaStream.bufIndex ≠ 1 := fun hfull => h ⟨hready, hfull⟩
    simp only [dmaRxReady, Bool.and_eq_true, Bool.not_eq_true'] at hready
    simp [genlCmdDmaRx, hready, hempty]
  · cases hasInfo with
    | false => exact ⟨rfl, rfl⟩
    | true =>
      by_cases hnew : calls.genlmsgNewNull
      · simp [genlCmdDmaRx, hnew]
      · have hput : calls.genlmsgPutReplyNull := by simpa [dmaRxReady, hnew] using hready
        simp [genlCmdDmaRx, hnew, hput]

/-- Neither does one whose reply cannot be filled: it has read the frame and gives it up. -/
theorem genlCmdDmaRx_of_failed_put (d : Driver) (hasInfo : Bool) {calls : DmaRxCalls}
    (h : ¬ (calls.nlaPut = 0 ∧ calls.nlaPutU32 = 0)) :
    (genlCmdDmaRx d hasInfo calls).1 = d ∧ (genlCmdDmaRx d hasInfo calls).2.taken = none := by
  by_cases hput : calls.nlaPut = 0
  · have hput32 : calls.nlaPutU32 ≠ 0 := fun h0 => h ⟨hput, h0⟩
    simp only [genlCmdDmaRx, hput]
    split_ifs <;> exact ⟨rfl, rfl⟩
  · simp only [genlCmdDmaRx]
    split_ifs <;> simp_all

namespace Interleaved

variable {s : Interleaved} {t : Nat}

/-- A thread without a call has no next step. -/
theorem dmaTxNext_idle (h : s.tx.calls t = .idle) : s.dmaTxNext t = s := by
  simp [dmaTxNext, h]

/-- **Whole calls.** The steps of a command with nothing in between are the command of `Handlers`:
cutting it lost nothing. -/
theorem dmaTx_uninterrupted (b : Build) (h : s.tx.calls t = .idle) (info : Option GenlInfo) :
    Runs.run (step b) s [.dmaTxTest t info, .dmaTxNext t, .dmaTxNext t, .dmaTxNext t, .dmaTxNext t]
      = { s with
          driver := (genlCmdDmaTx s.driver info).1
          tx := { s.tx with
            accepted := s.tx.accepted ++ (genlCmdDmaTx s.driver info).2.message.toList } } := by
  simp only [Runs.run_cons, Runs.run_nil, step]
  -- it does not get to the ring, finds it full, or goes through
  cases hreq : dmaTxRequest info with
  | none =>
    obtain ⟨hd, hm⟩ := genlCmdDmaTx_of_no_request hreq s.driver
    have htest : s.dmaTxTest t info = s := by
      simp [dmaTxTest, h, hreq]
    rw [htest]
    simp only [dmaTxNext_idle h, hd, hm, Option.toList_none, List.append_nil]
  | some req =>
    obtain ⟨naMsg, opcode⟩ := req
    rw [genlCmdDmaTx_of_request hreq]
    by_cases hfull : s.driver.txDmaStream.flags s.driver.txDmaStream.bufIndex = 0
    · have htest : s.dmaTxTest t info = s := by
        simp [dmaTxTest, h, hreq, hfull]
      rw [htest]
      simp [dmaTxNext_idle h, hfull, DmaTxResult.message]
    · have htest : s.dmaTxTest t info = s.setTx t (.tested naMsg opcode) := by
        simp [dmaTxTest, h, hreq, hfull]
      rw [htest]
      have hcalls : Function.update s.tx.calls t .idle = s.tx.calls := by
        rw [← h, Function.update_eq_self]
      simp [dmaTxNext, setTx, updateTx, hfull, DmaStream.transmit, DmaTxResult.message, hcalls]

/-- A thread without a call has no next step on the other side either. -/
theorem rxNext_idle (h : s.rx.calls t = .idle) (skbOk : Bool) : s.rxNext t skbOk = s := by
  simp [rxNext, h]

theorem dmaRx_uninterrupted (b : Build) (h : s.rx.calls t = .idle) (hasInfo : Bool)
    (calls : DmaRxCalls) (skbOk : Bool) :
    Runs.run (step b) s [.dmaRxTest t hasInfo calls, .rxNext t skbOk, .rxNext t skbOk,
        .rxNext t skbOk, .rxNext t skbOk]
      = { s with
          driver := (genlCmdDmaRx s.driver hasInfo calls).1
          rx := { s.rx with
            taken := s.rx.taken ++ (genlCmdDmaRx s.driver hasInfo calls).2.taken.toList } } := by
  have hcalls : Function.update s.rx.calls t .idle = s.rx.calls := by
    rw [← h, Function.update_eq_self]
  simp only [Runs.run_cons, Runs.run_nil, step]
  by_cases hpass : dmaRxReady hasInfo calls
      ∧ s.driver.rxDmaStream.flags s.driver.rxDmaStream.bufIndex = 1
  · have htest : s.dmaRxTest t hasInfo calls = s.setRx t (.dmaRxTested calls) := by
      simp [dmaRxTest, h, hpass]
    obtain ⟨hready, hfull⟩ := hpass
    simp only [dmaRxReady, Bool.and_eq_true, Bool.not_eq_true'] at hready
    rw [htest]
    -- the reply may fail after the flag test, which leaves the frame in the ring
    by_cases hput : calls.nlaPut = 0 ∧ calls.nlaPutU32 = 0
    · simp [rxNext, setRx, updateRx, takeFrame, leave, genlCmdDmaRx, hready, hfull, hput, hcalls,
        Driver.retire, RxTaker.index]
    · have hgive : (s.setRx t (.dmaRxTested calls)).rxNext t skbOk = s := by
        by_cases hput1 : calls.nlaPut = 0
        · have hput2 : calls.nlaPutU32 ≠ 0 := fun h0 => hput ⟨hput1, h0⟩
          simp [rxNext, setRx, hput1, hput2, hcalls]
        · simp [rxNext, setRx, hput1, hcalls]
      obtain ⟨hd, htaken⟩ := genlCmdDmaRx_of_failed_put s.driver hasInfo hput
      simp only [hgive, rxNext_idle h, hd, htaken, Option.toList_none, List.append_nil]
  · have htest : s.dmaRxTest t hasInfo calls = s := by
      simp [dmaRxTest, h, hpass]
    rw [htest]
    simp only [rxNext_idle h]
    obtain ⟨hd, htaken⟩ := genlCmdDmaRx_of_failed_test hpass
    simp only [hd, htaken, Option.toList_none, List.append_nil]

theorem poll_uninterrupted {b : Build} (hb : b.ghost = false) {c : PollCall}
    (h : s.rx.calls t = .pollLoop c) (htest : Nf10.pollTest s.driver c) (skbOk : Bool) :
    Runs.run (step b) s [.pollTest t, .rxNext t skbOk, .rxNext t skbOk, .rxNext t skbOk,
        .rxNext t skbOk]
      = { s with
          driver := (pollIteration b s.driver c skbOk).1
          rx := { s.rx with
            calls := Function.update s.rx.calls t
              (.pollLoop (pollIteration b s.driver c skbOk).2.1)
            taken := s.rx.taken ++ [s.driver.rxDmaStream.frame c.bufIndex] } } := by
  simp only [Runs.run_cons, Runs.run_nil, step]
  have hstart : s.pollTest t = s.setRx t (.pollTested c) := by
    simp [pollTest, h, htest]
  rw [hstart]
  cases hfate : pollFate s.driver c.bufIndex skbOk with
  | delivered netdev bytes =>
    simp [rxNext, setRx, updateRx, takeFrame, leave, pollIteration, hfate, hb, Driver.retire,
      RxTaker.index, Driver.countFate, Driver.count]
  | badOpcode =>
    simp [rxNext, setRx, updateRx, takeFrame, leave, pollIteration, hfate, hb, Driver.retire,
      RxTaker.index, Driver.countFate]
  | noSkb netdev =>
    simp [rxNext, setRx, updateRx, takeFrame, leave, pollIteration, hfate, hb, Driver.retire,
      RxTaker.index, Driver.countFate, Driver.count]

end Interleaved

/-! ## The TX ring with one call inside

The invariant of the ring for each point a call can be at: by how much the index and the doorbell
are behind, and what the call relies on. Then one lemma for each step of the call, from its point to
the next. -/

/-- How far the stream's index is behind the messages accepted. -/
def TxCall.behind : TxCall → Nat
  | .flagged => 1
  | .rung => 1
  | _ => 0

/-- How many accepted messages the doorbell has not been rung for. -/
def TxCall.unrung : TxCall → Nat
  | .flagged => 1
  | _ => 0

/-- What a call relies on when it goes on: the slot it tested is still free, the slot it filled
still carries its message. -/
def TxCall.Ready (tx : DmaStream) : TxCall → Prop
  | .tested _ _ => tx.flags tx.bufIndex ≠ 0
  | .filled m =>
    tx.flags tx.bufIndex ≠ 0 ∧ tx.message tx.bufIndex = m ∧ m.length.toNat ≤ dmaBufSize
  | _ => True

/-- The ring invariant of `TxInv`, as a call at `c` leaves it. -/
structure TxAt (n : Nat) (c : TxCall) (tx : DmaStream) (s : TxSide) : Prop where
  ring : MsgRing 0 n s.accepted s.consumed.length tx.toDmaRegion
  tail : ∃ k, k + c.behind = s.accepted.length ∧ tx.bufIndex = k % n
  rung : tx.doorbell + c.unrung = s.accepted.length
  head : s.hwIndex = s.consumed.length % n
  used : s.hwUsed = s.consumed.length
  inOrder : s.consumed <+: s.accepted
  ready : c.Ready tx

namespace TxAt

variable {n : Nat} {c : TxCall} {tx : DmaStream} {s : TxSide}

/-- The other threads' program counters are no matter for the ring. -/
theorem setCalls (h : TxAt n c tx s) (calls : Nat → TxCall) :
    TxAt n c tx { s with calls := calls } :=
  ⟨h.ring, h.tail, h.rung, h.head, h.used, h.inOrder, h.ready⟩

/-- Outside the critical part the index is where the next message goes. -/
theorem bufIndex_eq (h : TxAt n c tx s) (hc : c.behind = 0) :
    tx.bufIndex = s.accepted.length % n := by
  obtain ⟨k, hk, hidx⟩ := h.tail
  rw [hidx, ← hk, hc, Nat.add_zero]

/-- The flag test: the slot at the index is free. -/
theorem test (h : TxAt n .idle tx s) (hfree : tx.flags tx.bufIndex ≠ 0) (naMsg : Nlattr)
    (opcode : UInt32) : TxAt n (.tested naMsg opcode) tx s :=
  ⟨h.ring, h.tail, h.rung, h.head, h.used, h.inOrder, hfree⟩

/-- Filling the slot, which is free and stays free. -/
theorem fill (hn : 0 < n) {naMsg : Nlattr} {opcode : UInt32}
    (h : TxAt n (.tested naMsg opcode) tx s) :
    TxAt n (.filled (messageOf naMsg.data (dmaTxLen naMsg) opcode))
      (tx.fill naMsg.data (dmaTxLen naMsg) opcode) s where
  ring := h.ring.fill hn naMsg.data opcode (dmaTxLen_le naMsg) h.ready
  tail := h.tail
  rung := h.rung
  head := h.head
  used := h.used
  inOrder := h.inOrder
  ready := ⟨h.ready, message_fill_self tx _ _ _, dmaTxLen_le naMsg⟩

/-- Clearing the flag, which is what makes the message the device's. -/
theorem flag (hn : 0 < n) {m : Message} (h : TxAt n (.filled m) tx s) :
    TxAt n .flagged (tx.setFlag tx.bufIndex 0) { s with accepted := s.accepted ++ [m] } := by
  obtain ⟨hfree, hm, hfit⟩ := h.ready
  have hidx : tx.bufIndex = s.accepted.length % n := h.bufIndex_eq rfl
  have hspace : s.accepted.length < s.consumed.length + n :=
    (h.ring.free_tail_iff hn).mp (hidx ▸ hfree)
  exact {
    ring := h.ring.setFull hn hspace hidx hm hfit
    tail := ⟨s.accepted.length, by simp [TxCall.behind], hidx⟩
    rung := by
      have := h.rung
      simp only [TxCall.unrung] at this ⊢
      simp [← this]
    head := h.head
    used := h.used
    inOrder := h.inOrder.trans (List.prefix_append _ _)
    ready := trivial }

/-- The doorbell, which gives the device leave to read it. -/
theorem ringDoorbell (h : TxAt n .flagged tx s) : TxAt n .rung tx.ringDoorbell s where
  ring := h.ring
  tail := h.tail
  rung := h.rung
  head := h.head
  used := h.used
  inOrder := h.inOrder
  ready := trivial

/-- The index, which makes the ring ready for the next call. -/
theorem advance (hn : 0 < n) (h : TxAt n .rung tx s) : TxAt n .idle (tx.advance n) s where
  ring := h.ring
  tail := by
    obtain ⟨k, hk, hidx⟩ := h.tail
    refine ⟨k + 1, hk, ?_⟩
    rw [DmaStream.advance_bufIndex, hidx, next_mod hn]
  rung := h.rung
  head := h.head
  used := h.used
  inOrder := h.inOrder
  ready := trivial

/-- The locked section, with nobody inside: its four writes are those of the steps above. -/
theorem transmit (hn : 0 < n) (h : TxAt n .idle tx s) (data : Nat → UInt8) {len : UInt32}
    (opcode : UInt32) (hlen : len.toNat ≤ dmaBufSize) (hfree : tx.flags tx.bufIndex ≠ 0) :
    TxAt n .idle (tx.transmit n data len opcode)
      { s with accepted := s.accepted ++ [messageOf data len opcode] } := by
  have hfilled : TxAt n (.filled (messageOf data len opcode)) (tx.fill data len opcode) s :=
    { ring := h.ring.fill hn data opcode hlen hfree
      tail := h.tail
      rung := h.rung
      head := h.head
      used := h.used
      inOrder := h.inOrder
      ready := ⟨hfree, message_fill_self tx _ _ _, hlen⟩ }
  exact (hfilled.flag hn).ringDoorbell.advance hn

/-- The device may read at any moment of a call: it has been told of accepted messages only, and
a flag it sets to 1 is still free for the call. -/
theorem consume (hn : 0 < n) (h : TxAt n c tx s) (hun : s.hwUsed < tx.doorbell) :
    TxAt n c (tx.setFlag s.hwIndex 1)
      { s with
        hwIndex := next n s.hwIndex
        hwUsed := s.hwUsed + 1
        consumed := s.consumed ++ [tx.message s.hwIndex] } := by
  -- one doorbell write a message, none before its flag: an unused write means a message
  have hlt : s.consumed.length < s.accepted.length := by
    have hrung := h.rung
    have hused := h.used
    omega
  have hread : tx.message s.hwIndex = s.accepted[s.consumed.length] := by
    rw [h.head]
    exact h.ring.message_head hlt
  -- the device only ever frees slots
  have hfree : tx.flags tx.bufIndex ≠ 0 → (tx.setFlag s.hwIndex 1).flags tx.bufIndex ≠ 0 := by
    intro hne
    rcases eq_or_ne tx.bufIndex s.hwIndex with heq | hne'
    · simp [heq]
    · simpa [hne'] using hne
  exact {
    ring := by
      simp only [List.length_append, List.length_singleton, h.head]
      exact h.ring.take hn hlt (by decide)
    tail := h.tail
    rung := h.rung
    head := by
      simp only [List.length_append, List.length_singleton]
      rw [h.head, next_mod hn]
    used := by
      simp [h.used]
    inOrder := by
      rw [hread]
      exact List.concat_get_prefix h.inOrder hlt
    ready := by
      have hready := h.ready
      cases c with
      | idle => trivial
      | tested naMsg opcode => exact hfree hready
      | filled m => exact ⟨hfree hready.1, hready.2⟩
      | flagged => trivial
      | rung => trivial }

end TxAt

/-- At most one call is inside the TX ring, and the ring is as that call leaves it. -/
def TxOk (n : Nat) (tx : DmaStream) (s : TxSide) : Prop :=
  ∃ t, (∀ t', t' ≠ t → s.calls t' = .idle) ∧ TxAt n (s.calls t) tx s

namespace TxOk

variable {n : Nat} {tx : DmaStream} {s : TxSide}

/-- With no call under way it is the invariant of `TxRing`. -/
theorem idle (h : TxOk n tx s) (hall : ∀ t, s.calls t = .idle) : TxAt n .idle tx s := by
  obtain ⟨t, _, hat⟩ := h
  rwa [hall t] at hat

/-- In any case the ring is at some point of one call. -/
theorem exists_at (h : TxOk n tx s) : ∃ c, TxAt n c tx s := by
  obtain ⟨t, _, hat⟩ := h
  exact ⟨s.calls t, hat⟩

/-- One call moves on while the others are outside. -/
theorem move {t : Nat} {c : TxCall} {tx' : DmaStream} {s' : TxSide}
    (halone : ∀ t', t' ≠ t → s.calls t' = .idle) (hcalls : s'.calls = s.calls)
    (hat : TxAt n c tx' s') :
    TxOk n tx' { s' with calls := Function.update s'.calls t c } := by
  refine ⟨t, ?_, ?_⟩
  · intro t' hne
    simp [Function.update_of_ne hne, hcalls, halone t' hne]
  · simpa using hat.setCalls _

end TxOk

/-! ## The RX ring with one call inside

The same for the consumers. A poll goes by its own copy of the index and a command by the stream's,
so a point also says that the two agree. -/

/-- How far the stream's index is behind the frames taken. -/
def RxCall.behind : RxCall → Nat
  | .read _ => 1
  | .cleared _ => 1
  | .rung _ => 1
  | _ => 0

/-- How many frames taken the doorbell has not been rung for. -/
def RxCall.unrung : RxCall → Nat
  | .read _ => 1
  | .cleared _ => 1
  | _ => 0

/-- How many frames taken still have their flag set. -/
def RxCall.held : RxCall → Nat
  | .read _ => 1
  | _ => 0

/-- What a consumer relies on when it goes on. -/
def RxCall.Ready (rx : DmaStream) : RxCall → Prop
  | .pollTested c => rx.flags rx.bufIndex = 1 ∧ c.bufIndex = rx.bufIndex
  | .dmaRxTested _ => rx.flags rx.bufIndex = 1
  | .read w => w.index rx = rx.bufIndex
  | _ => True

/-- The ring invariant of `RxInv`, as a call at `c` leaves it. -/
structure RxAt (n : Nat) (c : RxCall) (rx : DmaStream) (s : RxSide) : Prop where
  ring : ∃ lo, lo + c.held = s.taken.length ∧ FrameRing n s.produced lo rx.toDmaRegion
  head : ∃ k, k + c.behind = s.taken.length ∧ rx.bufIndex = k % n
  rung : rx.doorbell + c.unrung = s.taken.length
  tail : s.hwIndex = s.produced.length % n
  inOrder : s.taken <+: s.produced
  ready : c.Ready rx

/-- A call outside the critical part has left nothing undone. -/
theorem RxCall.behind_of_outside {c : RxCall} (hc : ¬ c.Inside) : c.behind = 0 := by
  cases c with
  | idle | pollLoop p => rfl
  | pollTested p | dmaRxTested calls | read w | cleared w | rung w => exact absurd trivial hc

/-- Outside are the threads without a call and the polls between two iterations. -/
theorem RxCall.outside_iff {c : RxCall} : ¬ c.Inside ↔ c = .idle ∨ ∃ p, c = .pollLoop p := by
  cases c <;> simp [RxCall.Inside]

namespace RxAt

variable {n : Nat} {c : RxCall} {rx : DmaStream} {s : RxSide}

/-- The other threads' program counters are no matter for the ring. -/
theorem setCalls (h : RxAt n c rx s) (calls : Nat → RxCall) :
    RxAt n c rx { s with calls := calls } :=
  ⟨h.ring, h.head, h.rung, h.tail, h.inOrder, h.ready⟩

/-- A call that has changed nothing may leave. -/
theorem giveUp (h : RxAt n c rx s) (hc : c.behind = 0) : RxAt n .idle rx s := by
  cases c with
  | read w | cleared w | rung w => exact absurd hc (Nat.succ_ne_zero 0)
  | idle | pollLoop p | pollTested p | dmaRxTested calls =>
    exact ⟨h.ring, h.head, h.rung, h.tail, h.inOrder, trivial⟩

/-- Where nobody is inside, any call that is outside may be named. -/
theorem outside (h : RxAt n .idle rx s) (hc : ¬ c.Inside) : RxAt n c rx s := by
  obtain rfl | ⟨p, rfl⟩ := RxCall.outside_iff.mp hc
  · exact h
  · exact ⟨h.ring, h.head, h.rung, h.tail, h.inOrder, trivial⟩

/-- Outside the critical part the index is where the oldest frame is. -/
theorem bufIndex_eq (h : RxAt n c rx s) (hc : c.behind = 0) :
    rx.bufIndex = s.taken.length % n := by
  obtain ⟨k, hk, hidx⟩ := h.head
  rw [hidx, ← hk, hc, Nat.add_zero]

/-- The loop test of a poll that is up to date. -/
theorem testPoll (h : RxAt n .idle rx s) (hfull : rx.flags rx.bufIndex = 1) {p : PollCall}
    (hidx : p.bufIndex = rx.bufIndex) : RxAt n (.pollTested p) rx s :=
  ⟨h.ring, h.head, h.rung, h.tail, h.inOrder, hfull, hidx⟩

theorem testDmaRx (h : RxAt n .idle rx s) (hfull : rx.flags rx.bufIndex = 1)
    (calls : DmaRxCalls) : RxAt n (.dmaRxTested calls) rx s :=
  ⟨h.ring, h.head, h.rung, h.tail, h.inOrder, hfull⟩

/-- The frame at the index is the oldest one. -/
theorem read (hn : 0 < n) (h : RxAt n .idle rx s) (hfull : rx.flags rx.bufIndex = 1)
    {w : RxTaker} (hw : w.index rx = rx.bufIndex) :
    RxAt n (.read w) rx { s with taken := s.taken ++ [rx.frame rx.bufIndex] } := by
  have hidx : rx.bufIndex = s.taken.length % n := h.bufIndex_eq rfl
  have hring : FrameRing n s.produced s.taken.length rx.toDmaRegion := by
    obtain ⟨lo, hlo, hring⟩ := h.ring
    exact (show lo = s.taken.length from hlo) ▸ hring
  have hlt : s.taken.length < s.produced.length := by
    rw [hidx] at hfull
    exact (hring.full_head_iff hn).mp hfull
  have hframe : rx.frame rx.bufIndex = s.produced[s.taken.length] := by
    rw [hidx]
    exact hring.frame_head hlt
  have hrung : rx.doorbell = s.taken.length := h.rung
  exact {
    ring := ⟨s.taken.length, by simp [RxCall.held], hring⟩
    head := ⟨s.taken.length, by simp [RxCall.behind], hidx⟩
    rung := by
      simp [RxCall.unrung, hrung]
    tail := h.tail
    inOrder := by
      rw [hframe]
      exact List.concat_get_prefix h.inOrder hlt
    ready := hw }

/-- Clearing its flag, which gives the slot back. -/
theorem clear (hn : 0 < n) {w : RxTaker} (h : RxAt n (.read w) rx s) :
    RxAt n (.cleared w) (rx.setFlag (w.index rx) 0) s := by
  obtain ⟨lo, hlo, hring⟩ := h.ring
  obtain ⟨k, hk, hidx⟩ := h.head
  simp only [RxCall.held] at hlo
  simp only [RxCall.behind] at hk
  have hkl : k = lo := by omega
  have hlt : lo < s.produced.length := by
    have := h.inOrder.length_le
    omega
  have hslot : w.index rx = lo % n := by
    rw [show w.index rx = rx.bufIndex from h.ready, hidx, hkl]
  exact {
    ring := ⟨lo + 1, hlo, hslot ▸ hring.retire hn hlt⟩
    head := ⟨k, hk, hidx⟩
    rung := h.rung
    tail := h.tail
    inOrder := h.inOrder
    ready := trivial }

/-- The doorbell, which gives the device a credit for it. -/
theorem ringDoorbell {w : RxTaker} (h : RxAt n (.cleared w) rx s) :
    RxAt n (.rung w) rx.ringDoorbell s where
  ring := h.ring
  head := h.head
  rung := h.rung
  tail := h.tail
  inOrder := h.inOrder
  ready := trivial

/-- The index, which makes the ring ready for the next call. -/
theorem advance (hn : 0 < n) {w : RxTaker} (h : RxAt n (.rung w) rx s) :
    RxAt n .idle (rx.advance n) s where
  ring := h.ring
  head := by
    obtain ⟨k, hk, hidx⟩ := h.head
    refine ⟨k + 1, hk, ?_⟩
    rw [DmaStream.advance_bufIndex, hidx, next_mod hn]
  rung := h.rung
  tail := h.tail
  inOrder := h.inOrder
  ready := trivial

/-- The device may fill a slot at any moment of a call: a credit means a slot whose flag has been
cleared, and the flag a call has tested stays 1. -/
theorem produce (hn : 0 < n) (h : RxAt n c rx s) {f : Frame} (hf : f.Sized)
    (hcredit : s.produced.length < n + rx.doorbell) :
    RxAt n c (rx.hwFill s.hwIndex f)
      { s with hwIndex := next n s.hwIndex, produced := s.produced ++ [f] } := by
  -- the doorbell is rung after the flag is cleared
  have hunrung : c.held ≤ c.unrung := by
    cases c <;> simp [RxCall.held, RxCall.unrung]
  have hflag : rx.flags rx.bufIndex = 1 → (rx.hwFill s.hwIndex f).flags rx.bufIndex = 1 := by
    intro h1
    rcases eq_or_ne rx.bufIndex s.hwIndex with heq | hne
    · simp [DmaStream.hwFill, heq]
    · simpa [DmaStream.hwFill, hne] using h1
  exact {
    ring := by
      obtain ⟨lo, hlo, hring⟩ := h.ring
      -- a credit is a place beyond the frames that still hold their slots
      have hspace : s.produced.length < lo + n := by
        have := h.rung
        omega
      rw [h.tail]
      exact ⟨lo, hlo, hring.produce hn hspace hf⟩
    head := h.head
    rung := h.rung
    tail := by
      simp only [List.length_append, List.length_singleton]
      rw [h.tail, next_mod hn]
    inOrder := h.inOrder.trans (List.prefix_append _ _)
    ready := by
      have hready := h.ready
      cases c with
      | pollTested p => exact ⟨hflag hready.1, hready.2⟩
      | dmaRxTested calls => exact hflag hready
      | read w =>
        cases w with
        | poll p fate => exact hready
        | dmaRx calls => rfl
      | idle | pollLoop _ | cleared _ | rung _ => trivial }

end RxAt

/-- At most one call is inside the RX ring, and the ring is as that call leaves it. -/
def RxOk (n : Nat) (rx : DmaStream) (s : RxSide) : Prop :=
  ∃ t, (∀ t', t' ≠ t → ¬ (s.calls t').Inside) ∧ RxAt n (s.calls t) rx s

namespace RxOk

variable {n : Nat} {rx : DmaStream} {s : RxSide}

/-- With nobody inside it is the invariant of `RxRing`. -/
theorem idle (h : RxOk n rx s) (hall : ∀ t, ¬ (s.calls t).Inside) : RxAt n .idle rx s := by
  obtain ⟨t, _, hat⟩ := h
  exact hat.giveUp (RxCall.behind_of_outside (hall t))

/-- In any case the ring is at some point of one call. -/
theorem exists_at (h : RxOk n rx s) : ∃ c, RxAt n c rx s := by
  obtain ⟨t, _, hat⟩ := h
  exact ⟨s.calls t, hat⟩

/-- One call moves on while the others are outside. -/
theorem move {t : Nat} {c : RxCall} {rx' : DmaStream} {s' : RxSide}
    (halone : ∀ t', t' ≠ t → ¬ (s.calls t').Inside) (hcalls : s'.calls = s.calls)
    (hat : RxAt n c rx' s') :
    RxOk n rx' { s' with calls := Function.update s'.calls t c } := by
  refine ⟨t, ?_, ?_⟩
  · intro t' hne
    simpa [Function.update_of_ne hne, hcalls] using halone t' hne
  · simpa using hat.setCalls _

theorem stayOutside (h : RxOk n rx s) {t : Nat} (ht : ¬ (s.calls t).Inside) {c : RxCall}
    (hc : ¬ c.Inside) : RxOk n rx { s with calls := Function.update s.calls t c } := by
  obtain ⟨u, halone, hat⟩ := h
  rcases eq_or_ne u t with rfl | hne
  · exact move halone rfl ((hat.giveUp (RxCall.behind_of_outside ht)).outside hc)
  · refine ⟨u, ?_, ?_⟩
    · intro t' hne'
      rcases eq_or_ne t' t with rfl | ht'
      · simpa using hc
      · simpa [Function.update_of_ne ht'] using halone t' hne'
    · simpa [Function.update_of_ne hne] using hat.setCalls _

end RxOk

/-! ## Every interleaving of calls that keep out of each other's way

The condition is mutual exclusion, as a lock around each ring would give it, and that a poll does
not go by an index that another call has moved on. It is read on the state before a step, and then
no message and no frame is lost or taken twice. -/

/-- The condition on a step, read on the state before it. Whoever goes past its flag test finds
nobody else inside that ring, and a poll does so through an index that is still the stream's. -/
def Exclusive (s : Interleaved) : CallEvent → Prop
  | .startXmit skb netdev =>
    Sendable s.driver skb netdev → s.driver.txDmaStream.flags s.driver.txDmaStream.bufIndex ≠ 0 →
      ∀ t, s.tx.calls t = .idle
  | .dmaTxTest t info =>
    (dmaTxRequest info).isSome → s.driver.txDmaStream.flags s.driver.txDmaStream.bufIndex ≠ 0 →
      ∀ t', t' ≠ t → s.tx.calls t' = .idle
  | .pollTest t =>
    ∀ c, s.rx.calls t = .pollLoop c → pollTest s.driver c →
      c.bufIndex = s.driver.rxDmaStream.bufIndex ∧ ∀ t', t' ≠ t → ¬ (s.rx.calls t').Inside
  | .dmaRxTest t hasInfo calls =>
    dmaRxReady hasInfo calls → s.driver.rxDmaStream.flags s.driver.rxDmaStream.bufIndex = 1 →
      ∀ t', t' ≠ t → ¬ (s.rx.calls t').Inside
  | _ => True

/-- Each ring is at a point of one call at most. -/
structure InterleavedInv (n : Nat) (s : Interleaved) : Prop where
  size : s.driver.dmaCpuBufs = n
  up : s.driver.HwUp
  tx : TxOk n s.driver.txDmaStream s.tx
  rx : RxOk n s.driver.rxDmaStream s.rx

namespace InterleavedInv

variable {n : Nat} {s : Interleaved}

theorem init (d : Driver) (n : Nat) : InterleavedInv n (Interleaved.init d n) where
  size := rfl
  up := probeStreams_hwUp d n
  tx := by
    have h := TxInv.init d n
    exact ⟨0, fun _ _ => rfl, h.ring, ⟨0, rfl, h.tail⟩, h.rung, h.head, h.used, h.inOrder, trivial⟩
  rx := by
    have h := RxInv.init d n
    exact ⟨0, fun _ _ => id, ⟨0, rfl, h.ring⟩, ⟨0, rfl, h.head⟩, h.rung, h.tail, h.inOrder, trivial⟩

/-- The locked section, taken while no command is inside the TX ring. -/
theorem startXmit {b : Build} (hb : b.ghost = false) (hn : 0 < n) (h : InterleavedInv n s)
    (skb : SkBuff) (netdev : Nat) (hex : Exclusive s (.startXmit skb netdev)) :
    InterleavedInv n (s.startXmit b skb netdev) := by
  simp only [Interleaved.startXmit]
  obtain ⟨iface, hsend, _, hfree, heq⟩ | ⟨_, _, heq⟩ | ⟨_, r, _, hnone, heq⟩ :=
    nf10NdoStartXmit_cases hb h.up skb netdev
  · have hidle : ∀ t, s.tx.calls t = .idle := hex hsend hfree
    have hat := (h.tx.idle hidle).transmit hn (xmitData b skb) (txSetSrcIface 0 iface)
      hsend.fits hfree
    rw [heq]
    refine ⟨h.size, h.up, ⟨0, fun t' _ => hidle t', ?_⟩, h.rx⟩
    rw [← h.size] at hat ⊢
    simpa [hidle 0, XmitResult.message, Driver.countTxPacket] using hat
  · rw [heq]
    exact ⟨h.size, h.up, by simpa [XmitResult.message, Driver.countTxDropped] using h.tx, h.rx⟩
  · rw [heq]
    exact ⟨h.size, h.up, by simpa [hnone, Driver.countTxDropped] using h.tx, h.rx⟩

/-- A command that comes in finds nobody inside. -/
theorem dmaTxTest (h : InterleavedInv n s) (t : Nat) (info : Option GenlInfo)
    (hex : Exclusive s (.dmaTxTest t info)) : InterleavedInv n (s.dmaTxTest t info) := by
  unfold Interleaved.dmaTxTest
  split
  · next naMsg opcode hidle hreq =>
    split
    · exact h
    · next hfree =>
      -- `Exclusive` at the moment of the test
      have halone := hex (by simp [hreq]) hfree
      have hall : ∀ t', s.tx.calls t' = .idle := by
        intro t'
        rcases eq_or_ne t' t with rfl | hne
        · exact hidle
        · exact halone t' hne
      have hat := (h.tx.idle hall).test hfree naMsg opcode
      exact ⟨h.size, h.up, TxOk.move halone rfl hat, h.rx⟩
  · exact h

/-- Whatever step its call is at; one lemma of `TxAt` for each. -/
theorem dmaTxNext (hn : 0 < n) (h : InterleavedInv n s) (t : Nat) :
    InterleavedInv n (s.dmaTxNext t) := by
  obtain ⟨u, halone, hat⟩ := h.tx
  -- a thread other than the one inside is idle and has no next step
  rcases eq_or_ne t u with rfl | hne
  · unfold Interleaved.dmaTxNext
    cases hc : s.tx.calls t with
    | idle => exact h
    | tested naMsg opcode =>
      rw [hc] at hat
      exact ⟨h.size, h.up, TxOk.move halone rfl (hat.fill hn), h.rx⟩
    | filled m =>
      rw [hc] at hat
      exact ⟨h.size, h.up, TxOk.move halone rfl (hat.flag hn), h.rx⟩
    | flagged =>
      rw [hc] at hat
      exact ⟨h.size, h.up, TxOk.move halone rfl hat.ringDoorbell, h.rx⟩
    | rung =>
      rw [hc] at hat
      have hidle := hat.advance hn
      rw [← h.size] at hidle ⊢
      exact ⟨rfl, h.up, TxOk.move halone rfl hidle, h.size ▸ h.rx⟩
  · simpa [Interleaved.dmaTxNext, halone t hne] using h

/-- The device takes a message at any point of a call. -/
theorem hwConsume (hn : 0 < n) (h : InterleavedInv n s) : InterleavedInv n s.hwConsume := by
  simp only [Interleaved.hwConsume]
  split
  · next hun =>
    obtain ⟨u, halone, hat⟩ := h.tx
    refine ⟨h.size, h.up, ⟨u, halone, ?_⟩, h.rx⟩
    rw [h.size]
    exact hat.consume hn hun
  · exact h

theorem hwProduce (hn : 0 < n) (h : InterleavedInv n s) {f : Frame} (hf : f.Sized) :
    InterleavedInv n (s.hwProduce f) := by
  simp only [Interleaved.hwProduce]
  split
  · next hcredit =>
    obtain ⟨u, halone, hat⟩ := h.rx
    rw [h.size] at hcredit
    refine ⟨h.size, h.up, h.tx, ⟨u, halone, ?_⟩⟩
    rw [h.size]
    exact hat.produce hn hf hcredit
  · exact h

theorem pollEnter (h : InterleavedInv n s) (t : Nat) (budget : Int) :
    InterleavedInv n (s.pollEnter t budget) := by
  unfold Interleaved.pollEnter
  split
  · next hidle =>
    exact ⟨h.size, h.up, h.tx, h.rx.stayOutside (by simp [hidle, RxCall.Inside]) id⟩
  · exact h

/-- A poll that goes past its test finds nobody inside and its index up to date. -/
theorem pollTest (h : InterleavedInv n s) (t : Nat) (hex : Exclusive s (.pollTest t)) :
    InterleavedInv n (s.pollTest t) := by
  unfold Interleaved.pollTest
  split
  · next c hloop =>
    have hout : ¬ (s.rx.calls t).Inside := by simp [hloop, RxCall.Inside]
    split
    · next htest =>
      -- `Exclusive`: alone, and through an index that is still the stream's
      obtain ⟨hidx, halone⟩ := hex c hloop htest
      have hall : ∀ t', ¬ (s.rx.calls t').Inside := by
        intro t'
        rcases eq_or_ne t' t with rfl | hne
        · exact hout
        · exact halone t' hne
      have hfull : s.driver.rxDmaStream.flags s.driver.rxDmaStream.bufIndex = 1 := by
        simp only [Nf10.pollTest, Bool.and_eq_true, beq_iff_eq] at htest
        rw [← hidx]
        exact htest.2
      have hat := (h.rx.idle hall).testPoll hfull hidx
      exact ⟨h.size, h.up, h.tx, RxOk.move halone rfl hat⟩
    · exact ⟨h.size, h.up, h.tx, h.rx.stayOutside hout id⟩
  · exact h

/-- A command that goes past its test finds nobody inside. -/
theorem dmaRxTest (h : InterleavedInv n s) (t : Nat) (hasInfo : Bool) (calls : DmaRxCalls)
    (hex : Exclusive s (.dmaRxTest t hasInfo calls)) :
    InterleavedInv n (s.dmaRxTest t hasInfo calls) := by
  unfold Interleaved.dmaRxTest
  split
  · next hidle =>
    split
    · next hpass =>
      obtain ⟨hready, hfull⟩ := hpass
      have halone := hex hready hfull
      have hall : ∀ t', ¬ (s.rx.calls t').Inside := by
        intro t'
        rcases eq_or_ne t' t with rfl | hne
        · simp [hidle, RxCall.Inside]
        · exact halone t' hne
      have hat := (h.rx.idle hall).testDmaRx hfull calls
      exact ⟨h.size, h.up, h.tx, RxOk.move halone rfl hat⟩
    · exact h
  · exact h

theorem countFate (h : InterleavedInv n s) (len : UInt32) (fate : Fate) :
    InterleavedInv n { s with driver := s.driver.countFate len fate } := by
  refine ⟨?_, ?_, ?_, ?_⟩
  · simpa using h.size
  · cases fate <;> exact h.up
  · simpa using h.tx
  · simpa using h.rx

/-- The frame goes to the history and to the call's locals. -/
theorem takeFrame (hn : 0 < n) (h : InterleavedInv n s) {t : Nat}
    (halone : ∀ t', t' ≠ t → ¬ (s.rx.calls t').Inside)
    (hat : RxAt n .idle s.driver.rxDmaStream s.rx)
    (hfull : s.driver.rxDmaStream.flags s.driver.rxDmaStream.bufIndex = 1) {w : RxTaker}
    (hw : w.index s.driver.rxDmaStream = s.driver.rxDmaStream.bufIndex) :
    InterleavedInv n (s.takeFrame t s.driver.rxDmaStream.bufIndex w) :=
  ⟨h.size, h.up, h.tx, RxOk.move halone rfl (hat.read hn hfull hw)⟩

/-- The call is over, and a poll is back at its loop. -/
theorem leave (hsize : s.driver.dmaCpuBufs = n) (hup : s.driver.HwUp)
    (htx : TxOk n s.driver.txDmaStream s.tx) {t : Nat}
    (halone : ∀ t', t' ≠ t → ¬ (s.rx.calls t').Inside)
    (hat : RxAt n .idle s.driver.rxDmaStream s.rx) (w : RxTaker) :
    InterleavedInv n (s.leave t w) := by
  have hout {c : RxCall} (hc : ¬ c.Inside) : InterleavedInv n (s.setRx t c) :=
    ⟨hsize, hup, htx, RxOk.move halone rfl (hat.outside hc)⟩
  cases w with
  | dmaRx calls => exact hout id
  | poll c fate =>
    cases fate with
    | delivered netdev bytes => exact hout id
    | badOpcode => exact hout id
    | noSkb netdev => exact (hout id).countFate 0 (.noSkb netdev)

/-- Whatever step its call is at; one lemma of `RxAt` for each. -/
theorem rxNext (hn : 0 < n) (h : InterleavedInv n s) (t : Nat) (skbOk : Bool) :
    InterleavedInv n (s.rxNext t skbOk) := by
  obtain ⟨u, halone, hat⟩ := h.rx
  -- only the thread inside can have a next step that touches the ring
  rcases eq_or_ne t u with rfl | hne
  · simp only [Interleaved.rxNext]
    cases hc : s.rx.calls t with
    | idle => exact h
    | pollLoop c => exact h
    | pollTested c =>
      rw [hc] at hat
      obtain ⟨hfull, hidx⟩ := hat.ready
      simp only [hidx]
      have htake (fate : Fate) : InterleavedInv n
          (s.takeFrame t s.driver.rxDmaStream.bufIndex (.poll c fate)) :=
        h.takeFrame hn halone (hat.giveUp rfl) hfull hidx
      split
      · exact (htake _).countFate _ _
      · exact htake _
    | dmaRxTested calls =>
      rw [hc] at hat
      have hidle := hat.giveUp rfl
      simp only
      split
      · exact ⟨h.size, h.up, h.tx, RxOk.move halone rfl hidle⟩
      split
      · exact ⟨h.size, h.up, h.tx, RxOk.move halone rfl hidle⟩
      · exact h.takeFrame hn halone hidle hat.ready rfl
    | read w =>
      rw [hc] at hat
      exact ⟨h.size, h.up, h.tx, RxOk.move halone rfl (hat.clear hn)⟩
    | cleared w =>
      rw [hc] at hat
      exact ⟨h.size, h.up, h.tx, RxOk.move halone rfl hat.ringDoorbell⟩
    | rung w =>
      rw [hc] at hat
      have hidle : RxAt n .idle (s.driver.rxDmaStream.advance s.driver.dmaCpuBufs) s.rx := by
        rw [h.size]
        exact hat.advance hn
      exact leave (s := s.updateRx fun rx => rx.advance s.driver.dmaCpuBufs) h.size h.up h.tx
        halone hidle w
  · have hout := halone t hne
    obtain hc | ⟨p, hc⟩ := RxCall.outside_iff.mp hout
    · simpa [Interleaved.rxNext, hc] using h
    · simpa [Interleaved.rxNext, hc] using h

/-- **The step lemma.** Every step of the hardware build that meets `Exclusive` preserves the
invariant. -/
theorem step {b : Build} (hb : b.ghost = false) (hn : 0 < n) (h : InterleavedInv n s)
    (e : CallEvent) (hex : Exclusive s e) : InterleavedInv n (s.step b e) := by
  cases e with
  | startXmit skb netdev => exact h.startXmit hb hn skb netdev hex
  | dmaTxTest t info => exact h.dmaTxTest t info hex
  | dmaTxNext t => exact h.dmaTxNext hn t
  | hwConsume => exact h.hwConsume hn
  | hwProduce f => exact h.hwProduce hn f.property
  | pollEnter t budget => exact h.pollEnter t budget
  | pollTest t => exact h.pollTest t hex
  | dmaRxTest t hasInfo calls => exact h.dmaRxTest t hasInfo calls hex
  | rxNext t skbOk => exact h.rxNext hn t skbOk

end InterleavedInv

/-- Nothing lost, nothing repeated, on a system with `n` slots in each ring. -/
structure NoneLost (n : Nat) (s : Interleaved) : Prop where
  -- The device has read the accepted messages, in order, without a gap or a repetition.
  txInOrder : s.tx.consumed <+: s.tx.accepted
  -- No accepted message is overwritten before the device has read it.
  txIntact : ∀ j (h : j < s.tx.accepted.length), s.tx.consumed.length ≤ j →
    s.driver.txDmaStream.message (j % n) = s.tx.accepted[j]
  -- No frame is handed out twice or passed over.
  rxInOrder : s.rx.taken <+: s.rx.produced
  -- No frame is overwritten before it has been handed out.
  rxIntact : ∀ j (h : j < s.rx.produced.length), s.rx.taken.length ≤ j →
    s.driver.rxDmaStream.frame (j % n) = s.rx.produced[j]
  txIndexLt : s.driver.txDmaStream.bufIndex < n
  rxIndexLt : s.driver.rxDmaStream.bufIndex < n
  -- Between calls the TX index is at the slot after the last one filled.
  txIndex : (∀ t, s.tx.calls t = .idle) →
    s.driver.txDmaStream.bufIndex = s.tx.accepted.length % n
  -- Between calls the RX index is at the slot after the last one emptied.
  rxIndex : (∀ t, ¬ (s.rx.calls t).Inside) →
    s.driver.rxDmaStream.bufIndex = s.rx.taken.length % n

/-- The invariant gives the claim in a state reached. -/
theorem InterleavedInv.noneLost {n : Nat} {s : Interleaved} (hn : 0 < n)
    (h : InterleavedInv n s) : NoneLost n s := by
  obtain ⟨c, htx⟩ := h.tx.exists_at
  obtain ⟨c', hrx⟩ := h.rx.exists_at
  exact {
    txInOrder := htx.inOrder
    txIntact := fun j hj hlo => (htx.ring.entry j hj hlo).1
    rxInOrder := hrx.inOrder
    rxIntact := by
      intro j hj hlo
      obtain ⟨lo, hlo', hring⟩ := hrx.ring
      exact hring.holds.entry j hj (by omega)
    txIndexLt := by
      obtain ⟨k, _, hidx⟩ := htx.tail
      rw [hidx]
      exact Nat.mod_lt _ hn
    rxIndexLt := by
      obtain ⟨k, _, hidx⟩ := hrx.head
      rw [hidx]
      exact Nat.mod_lt _ hn
    txIndex := fun hall => (h.tx.idle hall).bufIndex_eq rfl
    rxIndex := fun hall => (h.rx.idle hall).bufIndex_eq rfl }

/-- **Interleaved calls.** In the hardware build, from the streams as `probe` sets them up with any
`n ≥ 1` slots, over every interleaving of any number of calls and of device steps in which no call
goes past its flag test while another is inside the same ring, or through an index that is no
longer the stream's, no message and no frame is lost, repeated or overwritten. -/
theorem interleaved_calls_safe (b : Build) (hb : b.ghost = false) (d : Driver) (n : Nat)
    (hn : 0 < n) (es : List CallEvent)
    (hex : Runs.Along (Interleaved.step b) Exclusive (Interleaved.init d n) es) :
    NoneLost n (Runs.run (Interleaved.step b) (Interleaved.init d n) es) := by
  have hstep : ∀ s e, InterleavedInv n s → Exclusive s e →
      InterleavedInv n (Interleaved.step b s e) :=
    fun s e h => h.step hb hn e
  exact (Runs.run_invariant hstep (InterleavedInv.init d n) hex).noneLost hn

/-! ## A packet between the test and the copy

One slot. `genl_cmd_dma_tx` finds it free; before it copies, `nf10_ndo_start_xmit` sends a packet
through the same slot; the copy then lands on top of the packet. -/

/-- A netlink command with five bytes of ones as its message and its opcode. -/
def onesCommand : Option GenlInfo := some ⟨fun _ => some ⟨fun _ => 1, 5⟩⟩

/-- A packet of 60 sevens, to tell it from what overwrites it. -/
def sevensPacket : SkBuff := ⟨fun _ => 7, 60⟩

/-- **Counterexample.** The packet has been accepted, the device has not read it, and its slot
carries the netlink message. -/
theorem interleaved_overwrite :
    ¬ NoneLost 1 (Runs.run (Interleaved.step plainBuild) (Interleaved.init plainDriver 1)
      [.dmaTxTest 0 onesCommand, .startXmit sevensPacket 2, .dmaTxNext 0]) := by
  intro h
  have hintact := h.txIntact 0 (by decide +kernel) (by decide +kernel)
  revert hintact
  decide +kernel

/-- A packet, a netlink message and a netlink read on rings of two slots, the two commands step by
step beside each other and beside the device. -/
theorem interleaved_calls_safe_side_by_side :
    NoneLost 2 (Runs.run (Interleaved.step plainBuild) (Interleaved.init plainDriver 2)
      [.startXmit sevensPacket 2, .dmaTxTest 0 onesCommand, .hwProduce (taggedFrame 0),
        .dmaTxNext 0, .dmaRxTest 1 true dmaRxCallsOk, .dmaTxNext 0, .hwConsume, .rxNext 1 true,
        .dmaTxNext 0, .rxNext 1 true, .hwConsume, .dmaTxNext 0, .rxNext 1 true, .rxNext 1 true]) :=
  interleaved_calls_safe plainBuild rfl plainDriver 2 (by decide) _
    ⟨fun _ _ _ => rfl, fun _ _ _ _ => rfl, trivial, trivial, fun _ _ _ _ => id, trivial, trivial,
      trivial, trivial, trivial, trivial, trivial, trivial, trivial, trivial⟩

end Nf10
