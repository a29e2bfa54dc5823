import Nf10.Driver.Rings
import Nf10.Lib.Runs

/-!
# Nf10 — the TX ring against its hardware

`nf10_ndo_start_xmit` and `genl_cmd_dma_tx` feed one ring; the device drains it, seeing only the
flags, the slots and the doorbell. On this ring flag 0 is *full*: the driver writes 0, the device
writes 1 back, and `probe` fills the flags with `0x01010101`.

* **`TxSys`** — driver, device and the two histories (messages accepted, messages read);
* **`TxInv`** — the invariant that ties flags, doorbell and both indices to the histories;
* **`tx_ring_refines`** — over every interleaving the ring is a bounded queue of messages.
-/

namespace Nf10

open CircularQueue

/-! ## Driver and device

The driver with the device at the other end of the TX ring. The device counts doorbell writes and
has an index of its own; it reads a slot only for a doorbell write it has not used. -/

/-- The driver, the device's position in the ring, and the histories of both sides. -/
structure TxSys where
  driver : Driver
  -- The slot the device reads next.
  hwIndex : Nat
  -- Doorbell writes the device has used up.
  hwUsed : Nat
  accepted : List Message
  consumed : List Message

/-- A step: a call of one of the two producers, or the device consuming a slot. -/
inductive TxEvent where
  | startXmit (skb : SkBuff) (netdev : Nat)
  | dmaTx (info : Option GenlInfo)
  | hwConsume

/-- The message a transmit call put on the ring, if it did. -/
def XmitResult.message : XmitResult → Option Message
  | .accepted m => some m
  | _ => none

/-- The message a command put on the ring, if it did. -/
def DmaTxResult.message : DmaTxResult → Option Message
  | .accepted m => some m
  | _ => none

namespace TxSys

/-- From `probe` with `n` buffers: an empty ring, with the device at its first slot. -/
def init (d : Driver) (n : Nat) : TxSys where
  driver := probeStreams d n
  hwIndex := 0
  hwUsed := 0
  accepted := []
  consumed := []

/-- The device, given a doorbell write not yet used: read the next slot, set its flag to 1. -/
def hwConsume (s : TxSys) : TxSys :=
  let tx := s.driver.txDmaStream
  if s.hwUsed < tx.doorbell then
    { s with
      driver := { s.driver with txDmaStream := tx.setFlag s.hwIndex 1 }
      hwIndex := next s.driver.dmaCpuBufs s.hwIndex
      hwUsed := s.hwUsed + 1
      consumed := s.consumed ++ [tx.message s.hwIndex] }
  else s

/-- One call of a producer, or the device taking a message. A call runs to its end; what happens
inside one is in `Interleaving`. -/
def step (b : Build) (s : TxSys) : TxEvent → TxSys
  | .startXmit skb netdev =>
    let r := nf10NdoStartXmit b s.driver skb netdev
    { s with driver := r.1, accepted := s.accepted ++ r.2.message.toList }
  | .dmaTx info =>
    let r := genlCmdDmaTx s.driver info
    { s with driver := r.1, accepted := s.accepted ++ r.2.message.toList }
  | .hwConsume => s.hwConsume

/-- The device leaves the RX side alone, and reads. -/
theorem hwConsume_frame (s : TxSys) :
    s.hwConsume.driver.rxDmaStream = s.driver.rxDmaStream
      ∧ s.hwConsume.driver.dmaCpuBufs = s.driver.dmaCpuBufs
      ∧ s.hwConsume.driver.nf10Netdevs = s.driver.nf10Netdevs
      ∧ s.hwConsume.accepted = s.accepted ∧ s.consumed <+: s.hwConsume.consumed := by
  simp only [TxSys.hwConsume]
  split
  · exact ⟨rfl, rfl, rfl, rfl, List.prefix_append _ _⟩
  · exact ⟨rfl, rfl, rfl, rfl, List.prefix_refl _⟩

end TxSys

/-! ## One spec lemma per producer

What a call can do, said once: it leaves the ring alone, or puts one message into the slot at its
index. Everything below uses these cases and not the code. -/

/-- The hardware is there and working, as both bits of `hw_state` say. -/
def Driver.HwUp (d : Driver) : Prop :=
  d.hwState &&& hwFound ≠ 0 ∧ d.hwState &&& hwInit ≠ 0

/-- The packet is within the bounds of the hardware and its netdev is one of the driver's. -/
def Sendable (d : Driver) (skb : SkBuff) (netdev : Nat) : Prop :=
  nf10PktSizeMin ≤ skb.len ∧ skb.len ≤ nf10PktSizeMax
    ∧ (getIfaceFromNetdev d.nf10Netdevs netdev).isSome

theorem or_and_self_right (a b : UInt32) : (a ||| b) &&& b = b := by
  apply UInt32.toBitVec_inj.mp
  ext i hi
  simp only [UInt32.toBitVec_and, UInt32.toBitVec_or, BitVec.getElem_and, BitVec.getElem_or,
    Bool.and_eq_right_iff_imp, Bool.or_eq_true]
  exact Or.inr

/-- `probe` leaves the hardware state that `nf10_ndo_start_xmit` asks for. -/
theorem probeStreams_hwUp (d : Driver) (n : Nat) : (probeStreams d n).HwUp := by
  constructor
  · have hcomm : d.hwState ||| hwFound ||| hwInit = d.hwState ||| hwInit ||| hwFound := by
      rw [UInt32.or_assoc, UInt32.or_comm hwFound, ← UInt32.or_assoc]
    simp only [probeStreams]
    rw [hcomm, or_and_self_right]
    decide
  · simp only [probeStreams]
    rw [or_and_self_right]
    decide

/-- A packet that passes the length check fits a buffer. -/
theorem Sendable.fits {d : Driver} {skb : SkBuff} {netdev : Nat} (h : Sendable d skb netdev) :
    skb.len.toNat ≤ dmaBufSize := by
  have hmax : skb.len.toNat ≤ nf10PktSizeMax.toNat := UInt32.le_iff_toNat_le.mp h.2.1
  exact Nat.le_trans hmax (by decide)

/-- **`nf10_ndo_start_xmit` in the hardware build.** A sendable packet is transmitted, under the opcode
of its interface, when the slot at `buf_index` is free and refused for space when it is not; any other
packet is dropped. -/
theorem nf10NdoStartXmit_cases {b : Build} (hb : b.ghost = false) {d : Driver} (hup : d.HwUp)
    (skb : SkBuff) (netdev : Nat) :
    (∃ iface, Sendable d skb netdev ∧ getIfaceFromNetdev d.nf10Netdevs netdev = some iface
      ∧ d.txDmaStream.flags d.txDmaStream.bufIndex ≠ 0
      ∧ nf10NdoStartXmit b d skb netdev
        = ({ d with txDmaStream :=
              d.txDmaStream.transmit d.dmaCpuBufs (xmitData b skb) skb.len (txSetSrcIface 0 iface)
            }.countTxPacket netdev skb.len,
          .accepted (messageOf (xmitData b skb) skb.len (txSetSrcIface 0 iface))))
    ∨ (Sendable d skb netdev ∧ d.txDmaStream.flags d.txDmaStream.bufIndex = 0
      ∧ nf10NdoStartXmit b d skb netdev = (d.countTxDropped netdev, .full))
    ∨ (¬ Sendable d skb netdev ∧ ∃ r : XmitResult, r ≠ .full ∧ r.message = none
      ∧ nf10NdoStartXmit b d skb netdev = (d.countTxDropped netdev, r)) := by
  unfold nf10NdoStartXmit
  rw [if_neg (by simp [hb])]
  by_cases hlen : skb.len < nf10PktSizeMin ∨ skb.len > nf10PktSizeMax
  · rw [if_pos hlen]
    refine Or.inr (Or.inr ⟨?_, .badLength, by decide, rfl, rfl⟩)
    rintro ⟨hmin, hmax, _⟩
    rcases hlen with h | h
    · exact absurd hmin (UInt32.not_le.mpr h)
    · exact absurd hmax (UInt32.not_le.mpr h)
  · rw [if_neg hlen]
    have hmin : nf10PktSizeMin ≤ skb.len := UInt32.not_lt.mp (not_or.mp hlen).1
    have hmax : skb.len ≤ nf10PktSizeMax := UInt32.not_lt.mp (not_or.mp hlen).2
    -- a packet within the bounds of the hardware fits a buffer: the second test never fails
    have hfit : skb.len.toNat ≤ dmaBufSize :=
      Nat.le_trans (m := nf10PktSizeMax.toNat) (UInt32.le_iff_toNat_le.mp hmax) (by decide)
    rw [if_neg (by omega), if_neg (not_not.mpr (And.intro hup.1 hup.2))]
    cases hi : getIfaceFromNetdev d.nf10Netdevs netdev with
    | none =>
      refine Or.inr (Or.inr ⟨?_, .noIface, by decide, rfl, rfl⟩)
      rintro ⟨_, _, hsome⟩
      simp [hi] at hsome
    | some iface =>
      have hsend : Sendable d skb netdev := ⟨hmin, hmax, by simp [hi]⟩
      by_cases hfull : d.txDmaStream.flags d.txDmaStream.bufIndex = 0
      · exact Or.inr (Or.inl ⟨hsend, hfull, by simp [hfull]⟩)
      · exact Or.inl ⟨iface, hsend, rfl, hfull, by simp [hfull]⟩

/-- The command carries both the message and the opcode attribute. -/
def Complete (info : Option GenlInfo) : Prop :=
  ∃ i, info = some i ∧ (i.attrs .msg).isSome ∧ (i.attrs .opcode).isSome

theorem dmaTxLen_le (naMsg : Nlattr) : (dmaTxLen naMsg).toNat ≤ dmaBufSize := by
  have hcap : (if naMsg.len > dmaBufSize then dmaBufSize else naMsg.len) ≤ dmaBufSize := by
    split <;> omega
  have hbound : dmaBufSize < UInt32.size := by decide
  rw [dmaTxLen, UInt32.toNat_ofNat_of_lt' (Nat.lt_of_le_of_lt hcap hbound)]
  exact hcap

/-- **`genl_cmd_dma_tx`.** A complete command is transmitted, cut to `DMA_BUF_SIZE` and under the opcode
that it brings, when the slot at `buf_index` is free and refused for space when it is not; any other
command changes nothing. -/
theorem genlCmdDmaTx_cases (d : Driver) (info : Option GenlInfo) :
    (∃ naMsg naOpcode, (∃ i, info = some i ∧ i.attrs .msg = some naMsg
        ∧ i.attrs .opcode = some naOpcode)
      ∧ d.txDmaStream.flags d.txDmaStream.bufIndex ≠ 0
      ∧ genlCmdDmaTx d info
        = ({ d with txDmaStream :=
              d.txDmaStream.transmit d.dmaCpuBufs naMsg.data (dmaTxLen naMsg) (load32 naOpcode.data) },
          .accepted (messageOf naMsg.data (dmaTxLen naMsg) (load32 naOpcode.data))))
    ∨ (Complete info ∧ d.txDmaStream.flags d.txDmaStream.bufIndex = 0
      ∧ genlCmdDmaTx d info = (d, .full))
    ∨ (¬ Complete info ∧ ∃ r : DmaTxResult, r ≠ .full ∧ r.message = none
      ∧ genlCmdDmaTx d info = (d, r)) := by
  cases info with
  | none =>
    refine Or.inr (Or.inr ⟨?_, .noInfo, by decide, rfl, rfl⟩)
    rintro ⟨i, hi, _⟩
    cases hi
  | some info =>
    cases hm : info.attrs .msg with
    | none =>
      refine Or.inr (Or.inr ⟨?_, .noMsg, by decide, rfl, by simp [genlCmdDmaTx, hm]⟩)
      rintro ⟨i, hi, hsome, _⟩
      cases hi
      simp [hm] at hsome
    | some naMsg =>
      cases ho : info.attrs .opcode with
      | none =>
        refine Or.inr (Or.inr ⟨?_, .noOpcode, by decide, rfl, by simp [genlCmdDmaTx, hm, ho]⟩)
        rintro ⟨i, hi, _, hsome⟩
        cases hi
        simp [ho] at hsome
      | some naOpcode =>
        -- a complete command: what is left is the flag of the slot
        have hcomp : Complete (some info) := ⟨info, rfl, by simp [hm], by simp [ho]⟩
        by_cases hfull : d.txDmaStream.flags d.txDmaStream.bufIndex = 0
        · exact Or.inr (Or.inl ⟨hcomp, hfull, by simp [genlCmdDmaTx, hm, ho, hfull]⟩)
        · exact Or.inl ⟨naMsg, naOpcode, ⟨info, rfl, hm, ho⟩, hfull,
            by simp [genlCmdDmaTx, hm, ho, hfull]⟩

/-! ## The invariant

The accepted messages are a history; the ring holds the part of it that the device has not consumed,
and both indices are positions in it. -/

/-- The invariant over whole runs: the ring holds the accepted messages the device has not read,
one doorbell write stands for each accepted message, and both indices are at their ends of it. -/
structure TxInv (n : Nat) (s : TxSys) : Prop where
  size : s.driver.dmaCpuBufs = n
  up : s.driver.HwUp
  ring : MsgRing 0 n s.accepted s.consumed.length s.driver.txDmaStream.toDmaRegion
  tail : s.driver.txDmaStream.bufIndex = s.accepted.length % n
  head : s.hwIndex = s.consumed.length % n
  rung : s.driver.txDmaStream.doorbell = s.accepted.length
  used : s.hwUsed = s.consumed.length
  inOrder : s.consumed <+: s.accepted

namespace TxInv

variable {n : Nat} {s : TxSys}

theorem init (d : Driver) (n : Nat) : TxInv n (TxSys.init d n) where
  size := rfl
  up := probeStreams_hwUp d n
  ring := Holds.init (by
    intro i hi
    simp [TxSys.init, probeStreams, hi])
  tail := (Nat.zero_mod n).symm
  head := (Nat.zero_mod n).symm
  rung := rfl
  used := rfl
  inOrder := List.nil_prefix

/-- A producer that found room: whatever else it did to the globals, the TX stream transmitted. -/
theorem accept (hn : 0 < n) (h : TxInv n s) {d' : Driver} {data : Nat → UInt8}
    {len opcode : UInt32} (hsize : d'.dmaCpuBufs = n) (hup : d'.HwUp)
    (htx : d'.txDmaStream = s.driver.txDmaStream.transmit n data len opcode)
    (hlen : len.toNat ≤ dmaBufSize)
    (hfree : s.driver.txDmaStream.flags s.driver.txDmaStream.bufIndex ≠ 0) :
    TxInv n { s with driver := d', accepted := s.accepted ++ [messageOf data len opcode] } where
  size := hsize
  up := hup
  ring := htx ▸ h.ring.put hn data opcode hlen h.tail hfree
  tail := by
    rw [htx]
    simp [DmaStream.transmit, h.tail, next_mod hn]
  head := h.head
  rung := by
    rw [htx]
    simp [DmaStream.transmit, h.rung]
  used := h.used
  inOrder := h.inOrder.trans (List.prefix_append _ _)

/-- A call that leaves the TX stream alone keeps the ring. -/
theorem refuse (h : TxInv n s) {d : Driver} (hsize : d.dmaCpuBufs = n) (hup : d.HwUp)
    (htx : d.txDmaStream = s.driver.txDmaStream) : TxInv n { s with driver := d } where
  size := hsize
  up := hup
  ring := htx ▸ h.ring
  tail := htx ▸ h.tail
  head := h.head
  rung := htx ▸ h.rung
  used := h.used
  inOrder := h.inOrder

/-- What the device reads is the oldest message it has not had. -/
theorem read (h : TxInv n s) (hlt : s.consumed.length < s.accepted.length) :
    s.driver.txDmaStream.message s.hwIndex = s.accepted[s.consumed.length] := by
  rw [h.head]
  exact h.ring.message_head hlt

/-- The doorbell writes not yet used are as many as the messages outstanding, so the device may read
exactly when there is something. -/
theorem unused_iff (h : TxInv n s) :
    s.hwUsed < s.driver.txDmaStream.doorbell ↔ s.consumed.length < s.accepted.length := by
  rw [h.used, h.rung]

/-- The device takes the oldest message and returns its slot. -/
theorem hwConsume (hn : 0 < n) (h : TxInv n s) : TxInv n s.hwConsume := by
  simp only [TxSys.hwConsume]
  split
  · next hun =>
    have hlt := h.unused_iff.mp hun
    -- the device reads the oldest message it has not read
    have hcons : s.consumed ++ [s.driver.txDmaStream.message s.hwIndex] <+: s.accepted := by
      rw [h.read hlt]
      exact List.concat_get_prefix h.inOrder hlt
    exact {
      size := h.size
      up := h.up
      ring := by
        simp only [List.length_append, List.length_singleton, h.head]
        exact h.ring.take hn hlt (by decide)
      tail := h.tail
      head := by
        simp only [List.length_append, List.length_singleton]
        rw [h.head, h.size, next_mod hn]
      rung := h.rung
      used := by
        simp [h.used]
      inOrder := hcons }
  · exact h

/-- **The step lemma.** Every step of the hardware build preserves the invariant. -/
theorem step {b : Build} (hb : b.ghost = false) (hn : 0 < n) (h : TxInv n s) (e : TxEvent) :
    TxInv n (s.step b e) := by
  cases e with
  | startXmit skb netdev =>
    simp only [TxSys.step]
    obtain ⟨_, hsend, _, hfree, heq⟩ | ⟨_, _, heq⟩ | ⟨_, r, _, hnone, heq⟩ :=
      nf10NdoStartXmit_cases hb h.up skb netdev
    · rw [heq]
      exact h.accept hn h.size h.up (by rw [← h.size]; rfl) hsend.fits hfree
    · rw [heq]
      simpa [XmitResult.message] using
        h.refuse (d := s.driver.countTxDropped netdev) h.size h.up rfl
    · rw [heq]
      simpa [hnone] using h.refuse (d := s.driver.countTxDropped netdev) h.size h.up rfl
  | dmaTx info =>
    simp only [TxSys.step]
    obtain ⟨naMsg, _, _, hfree, heq⟩ | ⟨_, _, heq⟩ | ⟨_, r, _, hnone, heq⟩ :=
      genlCmdDmaTx_cases s.driver info
    · rw [heq]
      exact h.accept hn h.size h.up (by rw [← h.size]) (dmaTxLen_le naMsg) hfree
    · rw [heq]
      simpa [DmaTxResult.message] using h
    · rw [heq]
      simpa [hnone] using h
  | hwConsume => exact h.hwConsume hn

end TxInv

/-! ## The ring is a bounded queue

What the invariant means to the two sides: a bounded FIFO queue, refused only when full, counted
once. -/

/-- Between `d` and `d'` exactly one of `tx_packets` and `tx_dropped` of `netdev` went up, by one:
`tx_packets` if the call accepted a message, with its length in `tx_bytes`, and else `tx_dropped`. No
other netdev was touched. -/
def CountsOnce (d d' : Driver) (netdev : Nat) (accepted : Option Message) : Prop :=
  ((∃ m, accepted = some m
      ∧ (d'.stats netdev).txPackets = (d.stats netdev).txPackets + 1
      ∧ (d'.stats netdev).txBytes = (d.stats netdev).txBytes + m.length.toNat
      ∧ (d'.stats netdev).txDropped = (d.stats netdev).txDropped)
    ∨ (accepted = none
      ∧ (d'.stats netdev).txPackets = (d.stats netdev).txPackets
      ∧ (d'.stats netdev).txBytes = (d.stats netdev).txBytes
      ∧ (d'.stats netdev).txDropped = (d.stats netdev).txDropped + 1))
  ∧ ∀ p, p ≠ netdev → d'.stats p = d.stats p

/-- An accepted packet is counted once, with the length of its message. -/
theorem countsOnce_countTxPacket {d d' : Driver} (hstats : d'.stats = d.stats) (netdev : Nat)
    (data : Nat → UInt8) (len opcode : UInt32) :
    CountsOnce d (d'.countTxPacket netdev len) netdev (some (messageOf data len opcode)) := by
  refine ⟨Or.inl ⟨_, rfl, ?_⟩, fun p hp => by simp [Driver.countTxPacket, hp, hstats]⟩
  simp [Driver.countTxPacket, messageOf, hstats]

theorem countsOnce_countTxDropped (d : Driver) (netdev : Nat) :
    CountsOnce d (d.countTxDropped netdev) netdev none :=
  ⟨Or.inr ⟨rfl, by simp [Driver.countTxDropped]⟩, fun p hp => by simp [Driver.countTxDropped, hp]⟩

/-- What a state of the TX system guarantees, with `n` slots. -/
structure TxRefinement (b : Build) (n : Nat) (s : TxSys) : Prop where
  -- What the device read is what was accepted, in order, without a gap or a repetition.
  inOrder : s.consumed <+: s.accepted
  -- No accepted message still to be read has been overwritten.
  intact : ∀ j (h : j < s.accepted.length), s.consumed.length ≤ j →
    s.driver.txDmaStream.message (j % n) = s.accepted[j]
  -- No accepted message is lost: the device reads the oldest outstanding one next.
  nextRead : ∀ h : s.consumed.length < s.accepted.length,
    s.hwConsume.consumed = s.consumed ++ [s.accepted[s.consumed.length]]
  -- Nothing is read twice: with no message outstanding the device reads nothing.
  idle : s.consumed.length = s.accepted.length → s.hwConsume.consumed = s.consumed
  indexLt : s.driver.txDmaStream.bufIndex < n
  -- `nf10_ndo_start_xmit` refuses for space exactly when the ring is full.
  xmitFull : ∀ skb netdev, (nf10NdoStartXmit b s.driver skb netdev).2 = .full ↔
    Sendable s.driver skb netdev ∧ s.accepted.length - s.consumed.length = n
  -- `genl_cmd_dma_tx` refuses for space exactly when the ring is full.
  dmaTxFull : ∀ info, (genlCmdDmaTx s.driver info).2 = .full ↔
    Complete info ∧ s.accepted.length - s.consumed.length = n
  -- A sendable packet that is not refused is accepted: its bytes (after the switcharoo, with
  -- `DRIVER_LOOPB`), its length, and the opcode of its interface.
  xmitAccepts : ∀ skb netdev iface, nf10PktSizeMin ≤ skb.len → skb.len ≤ nf10PktSizeMax →
    getIfaceFromNetdev s.driver.nf10Netdevs netdev = some iface →
    s.accepted.length - s.consumed.length ≠ n →
    (s.step b (.startXmit skb netdev)).accepted
      = s.accepted ++ [messageOf (xmitData b skb) skb.len (txSetSrcIface 0 iface)]
  -- So is a complete command: its bytes, up to a buffer of them, and the opcode it brings.
  dmaTxAccepts : ∀ i naMsg naOpcode, i.attrs .msg = some naMsg → i.attrs .opcode = some naOpcode →
    s.accepted.length - s.consumed.length ≠ n →
    (s.step b (.dmaTx (some i))).accepted
      = s.accepted ++ [messageOf naMsg.data (dmaTxLen naMsg) (load32 naOpcode.data)]
  -- Every `nf10_ndo_start_xmit` call is counted once, as what it did.
  counted : ∀ skb netdev,
    CountsOnce s.driver (nf10NdoStartXmit b s.driver skb netdev).1 netdev
      (nf10NdoStartXmit b s.driver skb netdev).2.message

/-- The flag that makes a producer refuse says exactly that all slots are outstanding. -/
theorem TxInv.full_iff {n : Nat} {s : TxSys} (hn : 0 < n) (h : TxInv n s) :
    s.driver.txDmaStream.flags s.driver.txDmaStream.bufIndex = 0 ↔
      s.accepted.length - s.consumed.length = n := by
  rw [h.tail]
  exact h.ring.full_tail_iff hn

/-- The invariant gives the claim in a state reached. -/
theorem TxInv.refinement {b : Build} (hb : b.ghost = false) {n : Nat} {s : TxSys} (hn : 0 < n)
    (h : TxInv n s) : TxRefinement b n s where
  inOrder := h.inOrder
  intact j hj hlo := (h.ring.entry j hj hlo).1
  nextRead hlt := by
    simp only [TxSys.hwConsume]
    rw [if_pos (h.unused_iff.mpr hlt), h.read hlt]
  idle heq := by
    simp only [TxSys.hwConsume]
    rw [if_neg (mt h.unused_iff.mp (by omega))]
  indexLt := by
    rw [h.tail]
    exact Nat.mod_lt _ hn
  xmitFull skb netdev := by
    rw [← h.full_iff hn]
    obtain ⟨_, _, _, hfree, heq⟩ | ⟨hsend, hfull, heq⟩ | ⟨hnot, r, hr, _, heq⟩ :=
      nf10NdoStartXmit_cases hb h.up skb netdev
    · simp [heq, hfree]
    · simp [heq, hsend, hfull]
    · simp [heq, hnot, hr]
  dmaTxFull info := by
    rw [← h.full_iff hn]
    obtain ⟨_, _, _, hfree, heq⟩ | ⟨hcomp, hfull, heq⟩ | ⟨hnot, r, hr, _, heq⟩ :=
      genlCmdDmaTx_cases s.driver info
    · simp [heq, hfree]
    · simp [heq, hcomp, hfull]
    · simp [heq, hnot, hr]
  xmitAccepts skb netdev iface hmin hmax hiface hroom := by
    have hfree := mt (h.full_iff hn).mp hroom
    have hsend : Sendable s.driver skb netdev := ⟨hmin, hmax, by simp [hiface]⟩
    obtain ⟨iface', _, hiface', _, heq⟩ | ⟨_, hfull, _⟩ | ⟨hnot, _⟩ :=
      nf10NdoStartXmit_cases hb h.up skb netdev
    · rw [hiface] at hiface'
      cases hiface'
      simp only [TxSys.step, heq]
      rfl
    · exact absurd hfull hfree
    · exact absurd hsend hnot
  dmaTxAccepts i naMsg naOpcode hmsg hopcode hroom := by
    have hfree := mt (h.full_iff hn).mp hroom
    simp only [TxSys.step, genlCmdDmaTx, hmsg, hopcode, if_neg hfree]
    rfl
  counted skb netdev := by
    obtain ⟨iface, _, _, _, heq⟩ | ⟨_, _, heq⟩ | ⟨_, r, _, hnone, heq⟩ :=
      nf10NdoStartXmit_cases hb h.up skb netdev
    · rw [heq]
      exact countsOnce_countTxPacket rfl netdev _ _ _
    · rw [heq]
      exact countsOnce_countTxDropped s.driver netdev
    · rw [heq]
      dsimp only
      rw [hnone]
      exact countsOnce_countTxDropped s.driver netdev

end Nf10
