import Nf10.Driver.RingMemory
import Nf10.Driver.RxRing
import Nf10.Driver.TxRing

/-!
# Nf10 — both rings in one memory

`TxSys` and `RxSys` have each ring as three arrays of its own. Here there is one memory, which the
handlers reach through the pointers of their stream, the device through the registers `probe` wrote,
and the rest of the kernel wherever it is not in a region.

* **`DmaSys`** — the memory, the globals, and the histories of both rings;
* **`DmaSys.toTx` / `DmaSys.toRx`** — the ring systems that can be read off it;
* **`TxAgree` / `RxAgree`** — a step on one ring is the step of its ring system, up to bytes no slot
  is made of, and a step on the other ring is none;
* **`dma_rings_in_memory`** — over every interleaving both rings stay the queues that
  `TxRefinement` and `RxRefinement` describe, and nothing outside the regions is written.
-/

namespace Nf10

open CircularQueue

/-! ## Agreement on a ring

Two memories may differ in bytes that no slot is made of, and in what is behind the end of a packet.
The invariants of the rings see nothing of that: they pass from one state to every state that agrees
with it. -/

namespace SameRing

variable {n i : Nat} {r r' : DmaRegion}

theorem refl (r : DmaRegion) : SameRing n r r :=
  ⟨fun _ _ => rfl, fun _ _ => rfl, fun _ _ => rfl⟩

/-- The same ring has the same messages, up to the length that the metadata say. -/
theorem message (h : SameRing n r r') (hi : i < n)
    (hfit : (r'.message i).length.toNat ≤ dmaBufSize) : r.message i = r'.message i := by
  have hmd := h.metadata i hi
  have hfit : (r'.metadata i).length.toNat ≤ dmaBufSize := hfit
  simp only [DmaRegion.message, hmd]
  congr 1
  apply readMem_congr
  intro k hk
  apply h.buffers
  unfold dmaBufSize at *
  omega

theorem frame (h : SameRing n r r') (hi : i < n) : r.frame i = r'.frame i := by
  have hbuf : readMem r.buffers (i * dmaBufSize) dmaBufSize
      = readMem r'.buffers (i * dmaBufSize) dmaBufSize := by
    apply readMem_congr
    intro k hk
    apply h.buffers
    unfold dmaBufSize at *
    omega
  simp only [DmaRegion.frame, h.metadata i hi, hbuf]

end SameRing

/-- Two states of the TX system that differ in nothing a slot of the ring shows. -/
structure TxAgree (n : Nat) (s s' : TxSys) : Prop where
  size : s.driver.dmaCpuBufs = s'.driver.dmaCpuBufs
  hwState : s.driver.hwState = s'.driver.hwState
  ring : SameRing n s.driver.txDmaStream.toDmaRegion s'.driver.txDmaStream.toDmaRegion
  bufIndex : s.driver.txDmaStream.bufIndex = s'.driver.txDmaStream.bufIndex
  doorbell : s.driver.txDmaStream.doorbell = s'.driver.txDmaStream.doorbell
  hwIndex : s.hwIndex = s'.hwIndex
  hwUsed : s.hwUsed = s'.hwUsed
  accepted : s.accepted = s'.accepted
  consumed : s.consumed = s'.consumed

/-- The invariant of the TX ring passes over to a state that agrees. -/
theorem TxInv.of_agree {n : Nat} {s s' : TxSys} (hn : 0 < n) (h : TxInv n s') (ha : TxAgree n s s') :
    TxInv n s where
  size := ha.size.trans h.size
  up := by
    unfold Driver.HwUp
    rw [ha.hwState]
    exact h.up
  ring := by
    rw [ha.accepted, ha.consumed]
    apply Holds.congr hn h.ring
    · intro i hi
      rw [ha.ring.flags i hi]
    · rintro i m hi _ ⟨hm, hfit⟩
      exact ⟨(ha.ring.message hi (hm ▸ hfit)).trans hm, hfit⟩
  tail := by rw [ha.bufIndex, ha.accepted, h.tail]
  head := by rw [ha.hwIndex, ha.consumed, h.head]
  rung := by rw [ha.doorbell, ha.accepted, h.rung]
  used := by rw [ha.hwUsed, ha.consumed, h.used]
  inOrder := by
    rw [ha.consumed, ha.accepted]
    exact h.inOrder

/-- The same for the RX system. -/
structure RxAgree (n : Nat) (s s' : RxSys) : Prop where
  size : s.driver.dmaCpuBufs = s'.driver.dmaCpuBufs
  netdevs : s.driver.nf10Netdevs = s'.driver.nf10Netdevs
  ring : SameRing n s.driver.rxDmaStream.toDmaRegion s'.driver.rxDmaStream.toDmaRegion
  bufIndex : s.driver.rxDmaStream.bufIndex = s'.driver.rxDmaStream.bufIndex
  doorbell : s.driver.rxDmaStream.doorbell = s'.driver.rxDmaStream.doorbell
  poll : s.poll = s'.poll
  hwIndex : s.hwIndex = s'.hwIndex
  produced : s.produced = s'.produced
  taken : s.taken = s'.taken

theorem RxInv.of_agree {n : Nat} {s s' : RxSys} (hn : 0 < n) (h : RxInv n s') (ha : RxAgree n s s') :
    RxInv n s where
  size := ha.size.trans h.size
  ring := by
    rw [ha.produced, ha.taken]
    constructor
    · apply Holds.congr hn h.ring.holds
      · intro i hi
        rw [ha.ring.flags i hi]
      · intro i f hi _ hf
        exact (ha.ring.frame hi).trans hf
    · intro i hi
      rw [ha.ring.flags i hi]
      exact h.ring.binary i hi
  tail := by rw [ha.hwIndex, ha.produced, h.tail]
  head := by rw [ha.bufIndex, ha.taken, h.head]
  rung := by rw [ha.doorbell, ha.taken, h.rung]
  inOrder := by
    rw [ha.taken, ha.produced]
    exact h.inOrder
  fates := by
    rw [ha.taken, ha.netdevs]
    exact h.fates

/-! All four indices are inside the ring. -/

section

variable {n : Nat} (hn : 0 < n)
include hn

theorem TxInv.tail_lt {s : TxSys} (h : TxInv n s) : s.driver.txDmaStream.bufIndex < n := by
  rw [h.tail]
  exact Nat.mod_lt _ hn

theorem TxInv.head_lt {s : TxSys} (h : TxInv n s) : s.hwIndex < n := by
  rw [h.head]
  exact Nat.mod_lt _ hn

theorem RxInv.tail_lt {s : RxSys} (h : RxInv n s) : s.hwIndex < n := by
  rw [h.tail]
  exact Nat.mod_lt _ hn

theorem RxInv.head_lt {s : RxSys} (h : RxInv n s) : s.driver.rxDmaStream.bufIndex < n := by
  rw [h.head]
  exact Nat.mod_lt _ hn

end

/-! ## The system

One memory, one set of globals and two rings. Each step is given as the source has it, with its
stores made to the memory, and the rings are only ever read off. -/

/-- The two streams after `probe`. -/
structure DmaPorts where
  tx : DmaPort
  rx : DmaPort

/-- Memory, globals, device and histories. The regions of the two streams are in `mem`; those of
`driver` are not read. -/
structure DmaSys where
  mem : Nat → UInt8
  driver : Driver
  hwTxIndex : Nat
  hwTxUsed : Nat
  accepted : List Message
  consumed : List Message
  poll : Option PollCall
  hwRxIndex : Nat
  produced : List Frame
  taken : List (Frame × TakenBy)
  -- The memory as the rest of the kernel has written it.
  others : Nat → UInt8

/-- A step on either ring, or a store by the rest of the kernel. -/
inductive DmaEvent where
  | tx (e : TxEvent)
  | rx (e : RxEvent)
  | other (a : Nat) (v : UInt8)

namespace DmaSys

/-- The globals as a handler finds them. -/
def globals (c : DmaPorts) (s : DmaSys) : Driver :=
  { s.driver with
    txDmaStream := { s.driver.txDmaStream with toDmaRegion := regionAt s.mem c.tx.ptrs }
    rxDmaStream := { s.driver.rxDmaStream with toDmaRegion := regionAt s.mem c.rx.ptrs } }

/-- The TX ring, as the system has it at the moment. -/
def toTx (c : DmaPorts) (s : DmaSys) : TxSys where
  driver := s.globals c
  hwIndex := s.hwTxIndex
  hwUsed := s.hwTxUsed
  accepted := s.accepted
  consumed := s.consumed

/-- The RX ring, likewise. -/
def toRx (c : DmaPorts) (s : DmaSys) : RxSys where
  driver := s.globals c
  poll := s.poll
  hwIndex := s.hwRxIndex
  produced := s.produced
  taken := s.taken

/-! A handler decides on the globals it finds, and its stores go to memory: a message into the slot
at `buf_index`, or 0 into the flag of the slot it has emptied. -/

/-- The stores of a transmit call that has accepted `m`. -/
def memAfterXmit (c : DmaPorts) (s : DmaSys) (m : Option Message) : Nat → UInt8 :=
  m.elim s.mem (putMessage s.mem c.tx.ptrs s.driver.txDmaStream.bufIndex)

/-- A transmit call, or the device reading a slot that a doorbell has announced. -/
def txStep (b : Build) (c : DmaPorts) (s : DmaSys) : TxEvent → DmaSys
  | .startXmit skb netdev =>
    let r := nf10NdoStartXmit b (s.globals c) skb netdev
    { s with
      mem := s.memAfterXmit c r.2.message
      driver := r.1
      accepted := s.accepted ++ r.2.message.toList }
  | .dmaTx info =>
    let r := genlCmdDmaTx (s.globals c) info
    { s with
      mem := s.memAfterXmit c r.2.message
      driver := r.1
      accepted := s.accepted ++ r.2.message.toList }
  | .hwConsume =>
    if s.hwTxUsed < s.driver.txDmaStream.doorbell then
      { s with
        mem := c.tx.hwRelease s.mem s.hwTxIndex
        hwTxIndex := next s.driver.dmaCpuBufs s.hwTxIndex
        hwTxUsed := s.hwTxUsed + 1
        consumed := s.consumed ++ [c.tx.hwRead s.mem s.hwTxIndex] }
    else s

/-- Slot `i` of the RX ring marked empty. -/
def memAfterTake (c : DmaPorts) (s : DmaSys) (i : Nat) : Nat → UInt8 :=
  store32 s.mem (c.rx.ptrs.flags + i * 4) 0

/-- One turn of the loop of `nf10_napi_struct_poll`, or its end. -/
def pollTurn (b : Build) (c : DmaPorts) (s : DmaSys) (skbOk : Bool) : DmaSys :=
  match s.poll with
  | none => s
  | some call =>
    if pollTest (s.globals c) call then
      let r := pollIteration b (s.globals c) call skbOk
      { s with
        mem := s.memAfterTake c call.bufIndex
        driver := r.1
        poll := some r.2.1
        taken := s.taken
          ++ [((regionAt s.mem c.rx.ptrs).frame call.bufIndex, .poll r.2.2)] }
    else { s with poll := none }

/-- The device filling a slot it has been given, or a consumer of the RX ring. -/
def rxStep (b : Build) (c : DmaPorts) (s : DmaSys) : RxEvent → DmaSys
  | .hwProduce f =>
    if 0 < s.driver.dmaCpuBufs + s.driver.rxDmaStream.doorbell - s.produced.length then
      { s with
        mem := c.rx.hwFill s.mem s.hwRxIndex f.val
        hwRxIndex := next s.driver.dmaCpuBufs s.hwRxIndex
        produced := s.produced ++ [f.val] }
    else s
  | .pollStart budget =>
    match s.poll with
    | none => { s with poll := some (Nf10.pollStart (s.globals c) budget) }
    | some _ => s
  | .pollTurn skbOk => s.pollTurn b c skbOk
  | .dmaRx hasInfo calls =>
    let r := genlCmdDmaRx (s.globals c) hasInfo calls
    { s with
      mem := if r.2.taken.isSome then s.memAfterTake c s.driver.rxDmaStream.bufIndex else s.mem
      driver := r.1
      taken := s.taken ++ r.2.taken.toList.map fun f => (f, .dmaRx r.2.reply) }

/-- A step on a ring, or a store by the rest of the kernel. -/
def step (b : Build) (c : DmaPorts) (s : DmaSys) : DmaEvent → DmaSys
  | .tx e => s.txStep b c e
  | .rx e => s.rxStep b c e
  | .other a v =>
    { s with mem := Function.update s.mem a v, others := Function.update s.others a v }

end DmaSys

/-! ## What a step on one ring leaves of the other

The regions do not overlap, so a step on one ring is no step on the other. `TxFrame` and `RxFrame`
list what is left alone, and the ring that is left alone agrees with itself. -/

/-- The device reaches both regions, and they do not overlap. -/
structure DmaPorts.Ready (c : DmaPorts) (n : Nat) : Prop where
  tx : c.tx.Ready n
  rx : c.rx.Ready n
  apart : Disjoint (c.tx.ptrs.region n).bytes (c.rx.ptrs.region n).bytes

/-- What a step on the TX ring leaves alone. -/
structure TxFrame (n : Nat) (c : DmaPorts) (s s' : DmaSys) : Prop where
  mem : ∀ a, a ∉ (c.tx.ptrs.region n).bytes → s'.mem a = s.mem a
  size : s'.driver.dmaCpuBufs = s.driver.dmaCpuBufs
  netdevs : s'.driver.nf10Netdevs = s.driver.nf10Netdevs
  bufIndex : s'.driver.rxDmaStream.bufIndex = s.driver.rxDmaStream.bufIndex
  doorbell : s'.driver.rxDmaStream.doorbell = s.driver.rxDmaStream.doorbell
  poll : s'.poll = s.poll
  hwRxIndex : s'.hwRxIndex = s.hwRxIndex
  produced : s'.produced = s.produced
  taken : s'.taken = s.taken
  others : s'.others = s.others

/-- What a step on the RX ring leaves alone. -/
structure RxFrame (n : Nat) (c : DmaPorts) (s s' : DmaSys) : Prop where
  mem : ∀ a, a ∉ (c.rx.ptrs.region n).bytes → s'.mem a = s.mem a
  size : s'.driver.dmaCpuBufs = s.driver.dmaCpuBufs
  hwState : s'.driver.hwState = s.driver.hwState
  bufIndex : s'.driver.txDmaStream.bufIndex = s.driver.txDmaStream.bufIndex
  doorbell : s'.driver.txDmaStream.doorbell = s.driver.txDmaStream.doorbell
  hwTxIndex : s'.hwTxIndex = s.hwTxIndex
  hwTxUsed : s'.hwTxUsed = s.hwTxUsed
  accepted : s'.accepted = s.accepted
  consumed : s'.consumed = s.consumed
  others : s'.others = s.others

section

variable {n : Nat} {c : DmaPorts} {s s' : DmaSys}

/-- A step that does nothing leaves everything. -/
theorem TxFrame.refl (n : Nat) (c : DmaPorts) (s : DmaSys) : TxFrame n c s s :=
  ⟨fun _ _ => rfl, rfl, rfl, rfl, rfl, rfl, rfl, rfl, rfl, rfl⟩

theorem RxFrame.refl (n : Nat) (c : DmaPorts) (s : DmaSys) : RxFrame n c s s :=
  ⟨fun _ _ => rfl, rfl, rfl, rfl, rfl, rfl, rfl, rfl, rfl, rfl⟩

/-- After a step on the TX ring the RX ring is as it was. -/
theorem TxFrame.rxAgree (hc : c.Ready n) (h : TxFrame n c s s') :
    RxAgree n (s'.toRx c) (s.toRx c) where
  size := h.size
  netdevs := h.netdevs
  ring := sameRing_of_region hc.rx.inRow fun a ha =>
    h.mem a fun htx => Set.disjoint_left.mp hc.apart htx ha
  bufIndex := h.bufIndex
  doorbell := h.doorbell
  poll := h.poll
  hwIndex := h.hwRxIndex
  produced := h.produced
  taken := h.taken

/-- After a step on the RX ring the TX ring is as it was. -/
theorem RxFrame.txAgree (hc : c.Ready n) (h : RxFrame n c s s') :
    TxAgree n (s'.toTx c) (s.toTx c) where
  size := h.size
  hwState := h.hwState
  ring := sameRing_of_region hc.tx.inRow fun a ha =>
    h.mem a fun hrx => Set.disjoint_left.mp hc.apart ha hrx
  bufIndex := h.bufIndex
  doorbell := h.doorbell
  hwIndex := h.hwTxIndex
  hwUsed := h.hwTxUsed
  accepted := h.accepted
  consumed := h.consumed

end

/-! ## Steps on the TX ring

A transmit call decides on the globals and stores to memory. That both come to the same is the
content of `Transmits.agrees`; the handlers need only show that they transmit what they accept. -/

/-- What a transmit call does to the globals: it transmits the message it has accepted, and otherwise
leaves the streams alone. -/
structure Transmits (d d' : Driver) (m : Option Message) : Prop where
  tx : (m = none ∧ d'.txDmaStream = d.txDmaStream)
    ∨ ∃ (data : Nat → UInt8) (len opCode : UInt32), len.toNat ≤ dmaBufSize
      ∧ m = some (messageOf data len opCode)
      ∧ d'.txDmaStream = d.txDmaStream.transmit d.dmaCpuBufs data len opCode
  rx : d'.rxDmaStream = d.rxDmaStream
  size : d'.dmaCpuBufs = d.dmaCpuBufs
  netdevs : d'.nf10Netdevs = d.nf10Netdevs

/-- `nf10_ndo_start_xmit` transmits the packet it accepts. -/
theorem nf10NdoStartXmit_transmits {b : Build} (hb : b.ghost = false) {d : Driver} (hup : d.HwUp)
    (skb : SkBuff) (netdev : Nat) :
    Transmits d (nf10NdoStartXmit b d skb netdev).1 (nf10NdoStartXmit b d skb netdev).2.message := by
  obtain ⟨_, hsend, _, _, heq⟩ | ⟨_, _, heq⟩ | ⟨_, r, _, hnone, heq⟩ :=
    nf10NdoStartXmit_cases hb hup skb netdev
  · rw [heq]
    exact ⟨Or.inr ⟨_, _, _, hsend.fits, rfl, rfl⟩, rfl, rfl, rfl⟩
  · rw [heq]
    exact ⟨Or.inl ⟨rfl, rfl⟩, rfl, rfl, rfl⟩
  · rw [heq]
    exact ⟨Or.inl ⟨hnone, rfl⟩, rfl, rfl, rfl⟩

/-- `genl_cmd_dma_tx` transmits the message it accepts. -/
theorem genlCmdDmaTx_transmits (d : Driver) (info : Option GenlInfo) :
    Transmits d (genlCmdDmaTx d info).1 (genlCmdDmaTx d info).2.message := by
  obtain ⟨naMsg, _, _, _, heq⟩ | ⟨_, _, heq⟩ | ⟨_, r, _, hnone, heq⟩ :=
    genlCmdDmaTx_cases d info
  · rw [heq]
    exact ⟨Or.inr ⟨_, _, _, dmaTxLen_le naMsg, rfl, rfl⟩, rfl, rfl, rfl⟩
  · rw [heq]
    exact ⟨Or.inl ⟨rfl, rfl⟩, rfl, rfl, rfl⟩
  · rw [heq]
    exact ⟨Or.inl ⟨hnone, rfl⟩, rfl, rfl, rfl⟩

section

variable {n : Nat} {c : DmaPorts} {s : DmaSys}

/-- **A transmit call in memory**, whichever of the two it is. -/
theorem Transmits.agrees {d : Driver} {m : Option Message} (h : Transmits (s.globals c) d m)
    (hc : c.Ready n) (hi : s.driver.txDmaStream.bufIndex < n) :
    TxAgree n
        (DmaSys.toTx c { s with
          mem := s.memAfterXmit c m, driver := d, accepted := s.accepted ++ m.toList })
        { s.toTx c with driver := d, accepted := s.accepted ++ m.toList }
      ∧ TxFrame n c s { s with
          mem := s.memAfterXmit c m, driver := d, accepted := s.accepted ++ m.toList } := by
  have hmem : SameRing n (regionAt (s.memAfterXmit c m) c.tx.ptrs) d.txDmaStream.toDmaRegion
      ∧ ∀ a, a ∉ (c.tx.ptrs.region n).bytes → s.memAfterXmit c m a = s.mem a := by
    obtain ⟨rfl, htx⟩ | ⟨data, len, opCode, hlen, rfl, htx⟩ := h.tx
    · rw [htx]
      exact ⟨SameRing.refl _, fun _ _ => rfl⟩
    · rw [htx]
      refine ⟨?_, fun a ha => putMessage_of_outside hc.tx.inRow hi hlen ha⟩
      have hst : (s.globals c).txDmaStream.toDmaRegion = regionAt s.mem c.tx.ptrs := rfl
      exact sameRing_putMessage hc.tx.inRow hst hi _ data opCode hlen
  refine ⟨⟨rfl, rfl, hmem.1, rfl, rfl, rfl, rfl, rfl, rfl⟩, ?_⟩
  exact {
    mem := hmem.2
    size := h.size
    netdevs := h.netdevs
    bufIndex := by
      show d.rxDmaStream.bufIndex = _
      rw [h.rx]
      rfl
    doorbell := by
      show d.rxDmaStream.doorbell = _
      rw [h.rx]
      rfl
    poll := rfl
    hwRxIndex := rfl
    produced := rfl
    taken := rfl
    others := rfl }

/-- The device reads the slot that its ring system would read. -/
theorem DmaSys.hwConsume_agrees (b : Build) (hc : c.Ready n) (hi : s.hwTxIndex < n) :
    TxAgree n ((s.txStep b c .hwConsume).toTx c) (s.toTx c).hwConsume
      ∧ TxFrame n c s (s.txStep b c .hwConsume) := by
  by_cases hun : s.hwTxUsed < s.driver.txDmaStream.doorbell
  · have hstep : s.txStep b c .hwConsume = { s with
        mem := c.tx.hwRelease s.mem s.hwTxIndex
        hwTxIndex := next s.driver.dmaCpuBufs s.hwTxIndex
        hwTxUsed := s.hwTxUsed + 1
        consumed := s.consumed ++ [c.tx.hwRead s.mem s.hwTxIndex] } := if_pos hun
    have habs : (s.toTx c).hwConsume = { s.toTx c with
        driver := { s.globals c with
          txDmaStream := (s.globals c).txDmaStream.setFlag s.hwTxIndex 1 }
        hwIndex := next s.driver.dmaCpuBufs s.hwTxIndex
        hwUsed := s.hwTxUsed + 1
        consumed := s.consumed ++ [(regionAt s.mem c.tx.ptrs).message s.hwTxIndex] } := if_pos hun
    rw [hstep, habs, DmaPort.hwRead_eq hc.tx hi]
    refine ⟨⟨rfl, rfl, DmaPort.sameRing_hwRelease hc.tx hi, rfl, rfl, rfl, rfl, rfl, rfl⟩, ?_⟩
    exact ⟨fun a ha => DmaPort.hwRelease_of_outside hc.tx hi ha, rfl, rfl, rfl, rfl, rfl, rfl, rfl,
      rfl, rfl⟩
  · have hstep : s.txStep b c .hwConsume = s := if_neg hun
    have habs : (s.toTx c).hwConsume = s.toTx c := if_neg hun
    rw [hstep, habs]
    exact ⟨⟨rfl, rfl, SameRing.refl _, rfl, rfl, rfl, rfl, rfl, rfl⟩, TxFrame.refl n c s⟩

/-- **A step on the TX ring in memory** is the step of `TxSys`. -/
theorem DmaSys.txStep_agrees {b : Build} (hb : b.ghost = false) (hn : 0 < n) (hc : c.Ready n)
    (h : TxInv n (s.toTx c)) (e : TxEvent) :
    TxAgree n ((s.txStep b c e).toTx c) ((s.toTx c).step b e)
      ∧ TxFrame n c s (s.txStep b c e) := by
  have hi : s.driver.txDmaStream.bufIndex < n := h.tail_lt hn
  cases e with
  | startXmit skb netdev => exact (nf10NdoStartXmit_transmits hb h.up skb netdev).agrees hc hi
  | dmaTx info => exact (genlCmdDmaTx_transmits (s.globals c) info).agrees hc hi
  | hwConsume => exact DmaSys.hwConsume_agrees b hc (h.head_lt hn)

end

/-! ## Steps on the RX ring

A consumer clears the flag of the slot it has taken. The poll does so through the index it keeps for
itself, which is why its turn needs to be up to date. -/

/-- What a consumer that takes slot `i` does to the globals: it retires the slot and counts. -/
structure Retires (d d' : Driver) (i : Nat) : Prop where
  rx : d'.rxDmaStream = d.rxDmaStream.retired d.dmaCpuBufs i
  tx : d'.txDmaStream = d.txDmaStream
  size : d'.dmaCpuBufs = d.dmaCpuBufs
  hwState : d'.hwState = d.hwState

theorem pollIteration_retires {b : Build} (hb : b.ghost = false) (d : Driver) (call : PollCall)
    (skbOk : Bool) : Retires d (pollIteration b d call skbOk).1 call.bufIndex := by
  unfold pollIteration
  rw [hb]
  cases pollFate d call.bufIndex skbOk with
  | delivered netdev bytes => exact ⟨rfl, rfl, rfl, rfl⟩
  | badOpcode => exact ⟨rfl, rfl, rfl, rfl⟩
  | noSkb netdev => exact ⟨rfl, rfl, rfl, rfl⟩

section

variable {n : Nat} {c : DmaPorts} {s : DmaSys}

/-- **A slot taken in memory**, by whichever consumer. -/
theorem Retires.agrees {d : Driver} {i : Nat} (h : Retires (s.globals c) d i) (hc : c.Ready n)
    (hi : i < n) (poll : Option PollCall) (taken : List (Frame × TakenBy)) :
    RxAgree n
        (DmaSys.toRx c { s with mem := s.memAfterTake c i, driver := d, poll := poll, taken := taken })
        { s.toRx c with driver := d, poll := poll, taken := taken }
      ∧ RxFrame n c s
        { s with mem := s.memAfterTake c i, driver := d, poll := poll, taken := taken } := by
  have hring : SameRing n (regionAt (s.memAfterTake c i) c.rx.ptrs) d.rxDmaStream.toDmaRegion := by
    rw [h.rx]
    exact sameRing_storeFlag hc.rx.inRow hi 0
  refine ⟨⟨rfl, rfl, hring, rfl, rfl, rfl, rfl, rfl, rfl⟩, ?_⟩
  exact {
    mem := fun a ha => storeFlag_of_outside hc.rx.inRow hi 0 ha
    size := h.size
    hwState := h.hwState
    bufIndex := by
      show d.txDmaStream.bufIndex = _
      rw [h.tx]
      rfl
    doorbell := by
      show d.txDmaStream.doorbell = _
      rw [h.tx]
      rfl
    hwTxIndex := rfl
    hwTxUsed := rfl
    accepted := rfl
    consumed := rfl
    others := rfl }

theorem RxAgree.refl (n : Nat) (s : RxSys) : RxAgree n s s :=
  ⟨rfl, rfl, SameRing.refl _, rfl, rfl, rfl, rfl, rfl, rfl⟩

/-- The device fills the slot that its ring system would fill. -/
theorem DmaSys.hwProduce_agrees (b : Build) (hc : c.Ready n) (hi : s.hwRxIndex < n)
    (f : { f : Frame // f.Sized }) :
    RxAgree n ((s.rxStep b c (.hwProduce f)).toRx c) ((s.toRx c).hwProduce f.val)
      ∧ RxFrame n c s (s.rxStep b c (.hwProduce f)) := by
  by_cases hcredit : 0 < (s.toRx c).credits
  · have hstep : s.rxStep b c (.hwProduce f) = { s with
        mem := c.rx.hwFill s.mem s.hwRxIndex f.val
        hwRxIndex := next s.driver.dmaCpuBufs s.hwRxIndex
        produced := s.produced ++ [f.val] } := if_pos hcredit
    have habs : (s.toRx c).hwProduce f.val = { s.toRx c with
        driver := { s.globals c with
          rxDmaStream := (s.globals c).rxDmaStream.hwFill s.hwRxIndex f.val }
        hwIndex := next s.driver.dmaCpuBufs s.hwRxIndex
        produced := s.produced ++ [f.val] } := if_pos hcredit
    rw [hstep, habs]
    refine ⟨⟨rfl, rfl, ?_, rfl, rfl, rfl, rfl, rfl, rfl⟩, ?_⟩
    · have hst : (s.globals c).rxDmaStream.toDmaRegion = regionAt s.mem c.rx.ptrs := rfl
      exact DmaPort.sameRing_hwFill hc.rx hi hst f.val
    · exact ⟨fun a ha => DmaPort.hwFill_of_outside hc.rx hi f.val ha, rfl, rfl, rfl, rfl, rfl, rfl,
        rfl, rfl, rfl⟩
  · have hstep : s.rxStep b c (.hwProduce f) = s := if_neg hcredit
    have habs : (s.toRx c).hwProduce f.val = s.toRx c := if_neg hcredit
    rw [hstep, habs]
    exact ⟨RxAgree.refl n _, RxFrame.refl n c s⟩

/-- A turn of the poll that is up to date is the turn of the ring system. -/
theorem DmaSys.pollTurn_agrees {b : Build} (hb : b.ghost = false) (hn : 0 < n) (hc : c.Ready n)
    (h : RxInv n (s.toRx c)) (skbOk : Bool) (hup : PollUpToDate (s.toRx c) (.pollTurn skbOk)) :
    RxAgree n ((s.pollTurn b c skbOk).toRx c) ((s.toRx c).pollTurn b skbOk)
      ∧ RxFrame n c s (s.pollTurn b c skbOk) := by
  unfold DmaSys.pollTurn RxSys.pollTurn
  cases hpoll : s.poll with
  | none =>
    simp only [DmaSys.toRx, hpoll]
    exact ⟨RxAgree.refl n _, RxFrame.refl n c s⟩
  | some call =>
    by_cases htest : pollTest (s.globals c) call
    · have hi : call.bufIndex < n := by
        -- the local copy is the stream's index, and that is inside the ring
        rw [hup call hpoll htest]
        exact h.head_lt hn
      simp only [DmaSys.toRx, hpoll, htest, if_true]
      exact (pollIteration_retires hb (s.globals c) call skbOk).agrees hc hi _ _
    · simp only [DmaSys.toRx, hpoll, htest]
      exact ⟨⟨rfl, rfl, SameRing.refl _, rfl, rfl, rfl, rfl, rfl, rfl⟩,
        ⟨fun _ _ => rfl, rfl, rfl, rfl, rfl, rfl, rfl, rfl, rfl, rfl⟩⟩

/-- `genl_cmd_dma_rx` on memory is the command of the ring system. -/
theorem DmaSys.dmaRx_agrees (b : Build) (hn : 0 < n) (hc : c.Ready n) (h : RxInv n (s.toRx c))
    (hasInfo : Bool) (calls : DmaRxCalls) :
    RxAgree n ((s.rxStep b c (.dmaRx hasInfo calls)).toRx c) ((s.toRx c).dmaRx hasInfo calls)
      ∧ RxFrame n c s (s.rxStep b c (.dmaRx hasInfo calls)) := by
  have hcases := genlCmdDmaRx_cases (s.globals c) hasInfo calls
  have hdriver : (s.toRx c).driver = s.globals c := rfl
  simp only [DmaSys.rxStep, RxSys.dmaRx]
  rw [hdriver]
  generalize genlCmdDmaRx (s.globals c) hasInfo calls = r at *
  obtain ⟨hd, htaken⟩ | ⟨_, hd, htaken, _⟩ := hcases
  · simp only [hd, htaken]
    exact ⟨⟨rfl, rfl, SameRing.refl _, rfl, rfl, rfl, rfl, rfl, rfl⟩,
      ⟨fun _ _ => rfl, rfl, rfl, rfl, rfl, rfl, rfl, rfl, rfl, rfl⟩⟩
  · have hi : s.driver.rxDmaStream.bufIndex < n := h.head_lt hn
    have hretires : Retires (s.globals c) r.1 s.driver.rxDmaStream.bufIndex := by
      rw [hd]
      exact ⟨rfl, rfl, rfl, rfl⟩
    simp only [htaken, Option.isSome_some, if_true]
    exact hretires.agrees hc hi s.poll _

/-- **A step on the RX ring in memory** is the step of `RxSys`. -/
theorem DmaSys.rxStep_agrees {b : Build} (hb : b.ghost = false) (hn : 0 < n) (hc : c.Ready n)
    (h : RxInv n (s.toRx c)) (e : RxEvent) (hup : PollUpToDate (s.toRx c) e) :
    RxAgree n ((s.rxStep b c e).toRx c) ((s.toRx c).step b e)
      ∧ RxFrame n c s (s.rxStep b c e) := by
  cases e with
  | hwProduce f => exact DmaSys.hwProduce_agrees b hc (h.tail_lt hn) f
  | pollStart budget =>
    simp only [DmaSys.rxStep, RxSys.step, DmaSys.toRx]
    cases hpoll : s.poll with
    | none =>
      exact ⟨⟨rfl, rfl, SameRing.refl _, rfl, rfl, rfl, rfl, rfl, rfl⟩,
        ⟨fun _ _ => rfl, rfl, rfl, rfl, rfl, rfl, rfl, rfl, rfl, rfl⟩⟩
    | some call =>
      simp only [hpoll]
      exact ⟨RxAgree.refl n _, RxFrame.refl n c s⟩
  | pollTurn skbOk => exact DmaSys.pollTurn_agrees hb hn hc h skbOk hup
  | dmaRx hasInfo calls => exact DmaSys.dmaRx_agrees b hn hc h hasInfo calls

end

/-! ## Whole runs

The invariants of both rings and the memory around them, over any interleaving. No step needs more
than the lemma of its own ring and the frame of the other. -/

/-- What the surroundings promise: the rest of the kernel stays out of the regions, and no poll takes a
slot through an index left behind. -/
def DmaFed (n : Nat) (c : DmaPorts) (s : DmaSys) : DmaEvent → Prop
  | .tx _ => True
  | .rx e => PollUpToDate (s.toRx c) e
  | .other a _ => a ∉ (c.tx.ptrs.region n).bytes ∧ a ∉ (c.rx.ptrs.region n).bytes

instance (n : Nat) (c : DmaPorts) (s : DmaSys) : ∀ e, Decidable (DmaFed n c s e)
  | .tx _ => isTrue trivial
  | .rx e => inferInstanceAs (Decidable (PollUpToDate (s.toRx c) e))
  | .other a _ => inferInstanceAs (Decidable
      (¬ (c.tx.ptrs.buffers ≤ a ∧ a < c.tx.ptrs.buffers + 2068 * n)
        ∧ ¬ (c.rx.ptrs.buffers ≤ a ∧ a < c.rx.ptrs.buffers + 2068 * n)))

/-- Both rings keep their invariant, and the memory around them belongs to the others. -/
structure DmaInv (n : Nat) (c : DmaPorts) (s : DmaSys) : Prop where
  tx : TxInv n (s.toTx c)
  rx : RxInv n (s.toRx c)
  outside : ∀ a, a ∉ (c.tx.ptrs.region n).bytes → a ∉ (c.rx.ptrs.region n).bytes →
    s.mem a = s.others a

theorem DmaInv.step {n : Nat} {c : DmaPorts} {s : DmaSys} {b : Build} (hb : b.ghost = false)
    (hn : 0 < n) (hc : c.Ready n) (h : DmaInv n c s) (e : DmaEvent) (hfed : DmaFed n c s e) :
    DmaInv n c (s.step b c e) := by
  cases e with
  | tx e =>
    obtain ⟨hagree, hframe⟩ := DmaSys.txStep_agrees hb hn hc h.tx e
    refine ⟨(h.tx.step hb hn e).of_agree hn hagree, h.rx.of_agree hn (hframe.rxAgree hc), ?_⟩
    intro a htx hrx
    show (s.txStep b c e).mem a = (s.txStep b c e).others a
    rw [hframe.mem a htx, hframe.others]
    exact h.outside a htx hrx
  | rx e =>
    obtain ⟨hagree, hframe⟩ := DmaSys.rxStep_agrees hb hn hc h.rx e hfed
    refine ⟨h.tx.of_agree hn (hframe.txAgree hc), (h.rx.step hb hn e hfed).of_agree hn hagree, ?_⟩
    intro a htx hrx
    show (s.rxStep b c e).mem a = (s.rxStep b c e).others a
    rw [hframe.mem a hrx, hframe.others]
    exact h.outside a htx hrx
  | other a v =>
    obtain ⟨htx, hrx⟩ := hfed
    have hkept : ∀ a', a' ≠ a → Function.update s.mem a v a' = s.mem a' :=
      fun a' hne => Function.update_of_ne hne _ _
    refine ⟨?_, ?_, ?_⟩
    · refine h.tx.of_agree hn ⟨rfl, rfl, ?_, rfl, rfl, rfl, rfl, rfl, rfl⟩
      exact sameRing_of_region hc.tx.inRow fun a' ha' => hkept a' fun heq => htx (heq ▸ ha')
    · refine h.rx.of_agree hn ⟨rfl, rfl, ?_, rfl, rfl, rfl, rfl, rfl, rfl⟩
      exact sameRing_of_region hc.rx.inRow fun a' ha' => hkept a' fun heq => hrx (heq ▸ ha')
    · intro a' htx' hrx'
      show Function.update s.mem a v a' = Function.update s.others a v a'
      rw [Function.update_apply, Function.update_apply, h.outside a' htx' hrx']

/-! ## From `probe` on

The state that `probe` leaves: regions of its own for the two streams, and registers that say where
they are. From there on every run keeps the invariant. -/

/-- Where `probe` got its regions: below 4 GiB for the device, and apart for the driver. -/
structure DmaSetup where
  txVa : Nat
  rxVa : Nat
  txPa : UInt64
  rxPa : UInt64
  dp0Props : Nat
  dp1Props : Nat
  dmaCpuBufs : UInt32
  pos : 0 < dmaCpuBufs.toNat
  txFits : RegionFits txPa dmaCpuBufs
  rxFits : RegionFits rxPa dmaCpuBufs
  apart : txVa + 2068 * dmaCpuBufs.toNat ≤ rxVa ∨ rxVa + 2068 * dmaCpuBufs.toNat ≤ txVa

namespace DmaSetup

/-- The part of `probe` that sets up the streams. -/
def configure (u : DmaSetup) : Access Nat UInt8 DmaPorts := do
  let tx ← configureTx u.txVa u.txPa u.dp0Props u.dmaCpuBufs
  let rx ← configureRx u.rxVa u.rxPa u.dp1Props u.dmaCpuBufs
  pure ⟨⟨u.txVa, u.txPa, tx.1, tx.2⟩, ⟨u.rxVa, u.rxPa, rx.1, rx.2⟩⟩

/-- What `probe` computes of the two streams. -/
def ports (u : DmaSetup) (mem : Nat → UInt8) : DmaPorts :=
  (u.configure.run ⟨mem, []⟩).1

/-- The state `probe` leaves, in a memory and with globals that hold anything. -/
def init (u : DmaSetup) (d : Driver) (mem : Nat → UInt8) : DmaSys where
  mem := (u.configure.run ⟨mem, []⟩).2.mem
  driver := probeStreams d u.dmaCpuBufs.toNat
  hwTxIndex := 0
  hwTxUsed := 0
  accepted := []
  consumed := []
  poll := none
  hwRxIndex := 0
  produced := []
  taken := []
  others := mem

/-- The device reaches both regions, and they are apart. -/
theorem ready (u : DmaSetup) (mem : Nat → UInt8) : (u.ports mem).Ready u.dmaCpuBufs.toNat where
  tx := DmaPort.ready_of_configure 1 ocdpControlConsumer u.txVa u.txPa u.dp0Props u.dmaCpuBufs
    ⟨mem, []⟩ u.txFits
  rx := DmaPort.ready_of_configure 0 ocdpControlProducer u.rxVa u.rxPa u.dp1Props u.dmaCpuBufs
    ((configureTx u.txVa u.txPa u.dp0Props u.dmaCpuBufs).run ⟨mem, []⟩).2 u.rxFits
  apart := by
    rw [Set.disjoint_left]
    rintro a ⟨htx, htx'⟩ ⟨hrx, hrx'⟩
    have htx : u.txVa ≤ a := htx
    have htx' : a < u.txVa + 2068 * u.dmaCpuBufs.toNat := htx'
    have hrx : u.rxVa ≤ a := hrx
    have hrx' : a < u.rxVa + 2068 * u.dmaCpuBufs.toNat := hrx'
    rcases u.apart with h | h <;> omega

end DmaSetup

/-- The set-up of a stream writes in its region only. -/
theorem configureStream_of_outside (flag : UInt8) (dir : UInt32) (va : Nat) (pa : UInt64) (props : Nat)
    (n : UInt32) (s : AccessLog Nat UInt8) (h : RegionFits pa n) {a : Nat}
    (ha : a ∉ (((configureStream flag dir va pa props n).run s).1.1.region n.toNat).bytes) :
    ((configureStream flag dir va pa props n).run s).2.mem a = s.mem a := by
  have hmetadata := toNat_mul_dmaBufSize h
  have ha : ¬ (va ≤ a ∧ a < va + 2068 * n.toNat) := ha
  show ((memset (va + (n * dmaBufSize32).toNat + 16 * n.toNat) flag (n.toNat * 4)).run s).2.mem a = _
  rw [memset, Access.fill_mem, if_neg (by omega)]

/-- The record does not matter to it. -/
theorem configureStream_mem (flag : UInt8) (dir : UInt32) (va : Nat) (pa : UInt64) (props : Nat)
    (n : UInt32) (s : AccessLog Nat UInt8) :
    ((configureStream flag dir va pa props n).run s).2.mem
      = ((configureStream flag dir va pa props n).run ⟨s.mem, []⟩).2.mem := by
  funext a
  show ((memset _ flag (n.toNat * 4)).run s).2.mem a = ((memset _ flag (n.toNat * 4)).run _).2.mem a
  rw [memset, Access.fill_mem, Access.fill_mem]

/-- **The start.** -/
theorem DmaInv.init (u : DmaSetup) (d : Driver) (mem : Nat → UInt8) :
    DmaInv u.dmaCpuBufs.toNat (u.ports mem) (u.init d mem) := by
  have hc := u.ready mem
  -- the memory between the two streams
  generalize hmid : ((configureTx u.txVa u.txPa u.dp0Props u.dmaCpuBufs).run ⟨mem, []⟩).2.mem = mid
  have hend : (u.init d mem).mem
      = ((configureRx u.rxVa u.rxPa u.dp1Props u.dmaCpuBufs).run ⟨mid, []⟩).2.mem := by
    rw [← hmid]
    exact configureStream_mem _ _ _ _ _ _ _
  have hkept : ∀ a, a ∉ ((u.ports mem).rx.ptrs.region u.dmaCpuBufs.toNat).bytes →
      (u.init d mem).mem a = mid a := by
    intro a ha
    rw [hend]
    exact configureStream_of_outside _ _ _ _ _ _ _ u.rxFits ha
  refine ⟨?_, ?_, ?_⟩
  · let d' : Driver := { d with
      txDmaStream := { d.txDmaStream with toDmaRegion := regionAt mem (u.ports mem).tx.ptrs } }
    have hprobe := (configure_refines .tx u.txVa u.txPa u.dp0Props u.dmaCpuBufs u.txFits mem d'
      (SameRing.refl _)).1
    refine (TxInv.init d' u.dmaCpuBufs.toNat).of_agree u.pos ⟨rfl, rfl, ?_, rfl, rfl, rfl, rfl, rfl, rfl⟩
    refine SameRing.trans (sameRing_of_region hc.tx.inRow fun a ha => ?_) (hmid ▸ hprobe)
    exact hkept a fun hrx => Set.disjoint_left.mp hc.apart ha hrx
  · let d' : Driver := { d with
      rxDmaStream := { d.rxDmaStream with toDmaRegion := regionAt mid (u.ports mem).rx.ptrs } }
    have hprobe := (configure_refines .rx u.rxVa u.rxPa u.dp1Props u.dmaCpuBufs u.rxFits mid d'
      (SameRing.refl _)).1
    refine (RxInv.init d' u.dmaCpuBufs.toNat).of_agree u.pos
      ⟨rfl, rfl, ?_, rfl, rfl, rfl, rfl, rfl, rfl⟩
    show SameRing _ (regionAt (u.init d mem).mem _) _
    rw [hend]
    exact hprobe
  · intro a htx hrx
    rw [hkept a hrx, ← hmid]
    exact configureStream_of_outside _ _ _ _ _ _ _ u.txFits htx

/-- What a state guarantees, with rings of `n` slots. -/
structure DmaRefinement (b : Build) (n : Nat) (c : DmaPorts) (s : DmaSys) : Prop where
  -- The TX ring is a queue of messages to the device.
  tx : TxRefinement b n (s.toTx c)
  -- The RX ring is a queue of frames from it.
  rx : RxRefinement n (s.toRx c)
  -- At the addresses of its registers the device finds every message that it has not read yet.
  found : ∀ j (h : j < s.accepted.length), s.consumed.length ≤ j →
    c.tx.hwRead s.mem (j % n) = s.accepted[j]
  -- Around the regions there is what the rest of the kernel put there.
  outside : ∀ a, a ∉ (c.tx.ptrs.region n).bytes → a ∉ (c.rx.ptrs.region n).bytes →
    s.mem a = s.others a

/-- **The rings in memory.** In the hardware build, from the regions as `probe` sets them up, over every
interleaving of packets, netlink commands, polls, device steps and stores of the rest of the kernel,
both rings are queues, seen from either side, and nothing outside the regions is written. -/
theorem dma_rings_in_memory (b : Build) (hb : b.ghost = false) (u : DmaSetup) (d : Driver)
    (mem : Nat → UInt8) (es : List DmaEvent)
    (hfed : Runs.Along (DmaSys.step b (u.ports mem)) (DmaFed u.dmaCpuBufs.toNat (u.ports mem))
      (u.init d mem) es) :
    DmaRefinement b u.dmaCpuBufs.toNat (u.ports mem)
      (Runs.run (DmaSys.step b (u.ports mem)) (u.init d mem) es) := by
  have hc := u.ready mem
  have hstep : ∀ s e, DmaInv u.dmaCpuBufs.toNat (u.ports mem) s →
      DmaFed u.dmaCpuBufs.toNat (u.ports mem) s e →
      DmaInv u.dmaCpuBufs.toNat (u.ports mem) (DmaSys.step b (u.ports mem) s e) :=
    fun s e h => h.step hb u.pos hc e
  have hinv := Runs.run_invariant hstep (DmaInv.init u d mem) hfed
  refine ⟨hinv.tx.refinement hb u.pos, hinv.rx.refinement u.pos, ?_, hinv.outside⟩
  intro j hj hlo
  rw [DmaPort.hwRead_eq hc.tx (Nat.mod_lt _ u.pos)]
  exact (hinv.tx.ring.entry j hj hlo).1

/-- Two rings of one slot, 4 KiB apart, that the device has the other way round. -/
def smallSetup : DmaSetup where
  txVa := 0x10000
  rxVa := 0x11000
  txPa := 0xfff00000
  rxPa := 0x2000
  dp0Props := 0
  dp1Props := 0
  dmaCpuBufs := 1
  pos := by decide
  txFits := by
    unfold RegionFits
    decide
  rxFits := by
    unfold RegionFits
    decide
  apart := by decide

/-- A packet out, a frame in, and a store of the kernel right behind the TX region. -/
def smallTraffic : List DmaEvent :=
  [.tx (.startXmit ⟨fun _ => 7, 60⟩ 2), .rx (.hwProduce (taggedFrame 0)), .tx .hwConsume,
    .other 0x10814 9, .rx (.pollStart 64), .rx (.pollTurn true)]

/-- A packet goes out and a frame comes in, in rings of one slot. -/
theorem dma_rings_in_memory_small :
    DmaRefinement plainBuild 1 (smallSetup.ports fun _ => 0)
      (Runs.run (DmaSys.step plainBuild (smallSetup.ports fun _ => 0))
        (smallSetup.init plainDriver fun _ => 0) smallTraffic) :=
  dma_rings_in_memory plainBuild rfl smallSetup plainDriver (fun _ => 0) smallTraffic
    (by decide +kernel)

end Nf10
