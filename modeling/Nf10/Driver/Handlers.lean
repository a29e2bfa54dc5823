import Nf10.Driver.Iface
import Nf10.Driver.Stream

/-!
# Nf10 — the ring handlers of the driver

The functions of `nf10_eth_driver_main.c` that touch a DMA ring, each as a function of the
driver's globals:

* **`nf10NdoStartXmit` / `nf10GhostXmit`** — packets from the network stack;
* **`genlCmdDmaTx` / `genlCmdDmaRx`** — messages from and to a netlink client;
* **`pollTest` / `pollIteration`** — one turn of the loop of `nf10_napi_struct_poll`, which keeps
  its own copy of the RX index.

A handler returns the globals it leaves and the way it went out. The C return value does not tell
these ways apart (`NETDEV_TX_OK` and `0` on nearly all of them), so they are listed.
-/

namespace Nf10

/-- Which driver is built: `DRIVER_GHOST` and `DRIVER_LOOPB` of the Makefile, and the kernel's
`ip_fast_csum` (bytes from the IP header on, `ihl`) it is linked against. -/
structure Build where
  ghost : Bool
  loopb : Bool
  ipFastCsum : (Nat → UInt8) → Nat → UInt16

/-- A packet buffer: the memory from `skb->data` on, of which `len` bytes are the packet. -/
structure SkBuff where
  data : Nat → UInt8
  len : UInt32

/-- A netlink attribute: the memory from `nla_data` on, of which `nla_len` bytes are payload.
`nla_data` is an address inside the message, never `NULL`. -/
structure Nlattr where
  data : Nat → UInt8
  len : Nat

/-- The attributes of `nf10_genl.h`. -/
inductive GenlAttr where
  | msg
  | dmaBuf
  | addr32
  | regval32
  | opcode
  | errno
deriving DecidableEq, Repr

/-- What a handler gets of a request: its attributes, by type. -/
structure GenlInfo where
  attrs : GenlAttr → Option Nlattr

/-- The globals of the driver that the ring handlers read and write. -/
structure Driver where
  nf10Netdevs : Netdevs
  stats : Nat → NetDeviceStats
  hwState : UInt32
  dmaCpuBufs : Nat
  txDmaStream : DmaStream
  rxDmaStream : DmaStream

/-- The two bits of `hw_state`. -/
def hwFound : UInt32 := 0x00000001
def hwInit : UInt32 := 0x00000002

/-- Bounds on a packet imposed by the hardware (`NF10_PKT_SIZE_MIN`, `NF10_PKT_SIZE_MAX`). -/
def nf10PktSizeMin : UInt32 := 33
/-- The longest packet the driver sends (`NF10_PKT_SIZE_MAX`). -/
def nf10PktSizeMax : UInt32 := 1514

/-- The globals when the module has been loaded: zero, but for the registered netdevs. -/
def Driver.loaded (devs : Netdevs) : Driver where
  nf10Netdevs := devs
  stats := fun _ => ⟨0, 0, 0, 0, 0, 0⟩
  hwState := 0
  dmaCpuBufs := 0
  txDmaStream := ⟨⟨fun _ => 0, fun _ => ⟨0, 0, 0, 0⟩, fun _ => 0⟩, 0, 0⟩
  rxDmaStream := ⟨⟨fun _ => 0, fun _ => ⟨0, 0, 0, 0⟩, fun _ => 0⟩, 0, 0⟩

/-- The build and the globals of concrete runs: no switcharoo, netdev `i` at address `i`. -/
def plainBuild : Build := ⟨false, false, fun _ _ => 0⟩
/-- A driver freshly loaded, with the netdevs numbered 0 to 3, to run on. -/
def plainDriver : Driver := Driver.loaded ⟨fun i => i.val, Fin.val_injective⟩

/-- The streams as `probe` sets them up for a ring of `n` slots: indices 0, TX flags memset to 1
byte by byte, RX flags 0, no doorbell written, the hardware found and initialized. Buffers and
metadata hold whatever the allocation did. -/
def probeStreams (d : Driver) (n : Nat) : Driver :=
  { d with
    hwState := d.hwState ||| hwFound ||| hwInit
    dmaCpuBufs := n
    txDmaStream := { d.txDmaStream with
      flags := fun i => if i < n then 0x01010101 else d.txDmaStream.flags i
      doorbell := 0
      bufIndex := 0 }
    rxDmaStream := { d.rxDmaStream with
      flags := fun i => if i < n then 0 else d.rxDmaStream.flags i
      doorbell := 0
      bufIndex := 0 } }

/-- A change to the statistics of one netdev. -/
def Driver.count (d : Driver) (netdev : Nat) (f : NetDeviceStats → NetDeviceStats) : Driver :=
  { d with stats := Function.update d.stats netdev (f (d.stats netdev)) }

/-- `netdev->stats.tx_dropped++` -/
def Driver.countTxDropped (d : Driver) (netdev : Nat) : Driver :=
  d.count netdev fun st => { st with txDropped := st.txDropped + 1 }

/-- `tx_packets` and `tx_bytes` of a packet that goes out. -/
def Driver.countTxPacket (d : Driver) (netdev : Nat) (len : UInt32) : Driver :=
  d.count netdev fun st =>
    { st with txPackets := st.txPackets + 1, txBytes := st.txBytes + len.toNat }

@[simp] theorem Driver.count_txDmaStream (d : Driver) (p : Nat)
    (f : NetDeviceStats → NetDeviceStats) : (d.count p f).txDmaStream = d.txDmaStream := rfl

@[simp] theorem Driver.count_rxDmaStream (d : Driver) (p : Nat)
    (f : NetDeviceStats → NetDeviceStats) : (d.count p f).rxDmaStream = d.rxDmaStream := rfl

@[simp] theorem Driver.count_dmaCpuBufs (d : Driver) (p : Nat)
    (f : NetDeviceStats → NetDeviceStats) : (d.count p f).dmaCpuBufs = d.dmaCpuBufs := rfl

@[simp] theorem Driver.count_nf10Netdevs (d : Driver) (p : Nat)
    (f : NetDeviceStats → NetDeviceStats) : (d.count p f).nf10Netdevs = d.nf10Netdevs := rfl

@[simp] theorem Driver.count_hwState (d : Driver) (p : Nat)
    (f : NetDeviceStats → NetDeviceStats) : (d.count p f).hwState = d.hwState := rfl

@[simp] theorem Driver.count_stats (d : Driver) (p : Nat)
    (f : NetDeviceStats → NetDeviceStats) :
    (d.count p f).stats = Function.update d.stats p (f (d.stats p)) := rfl

/-! ## Transmission from the network stack

`nf10_ndo_start_xmit` and, under `DRIVER_GHOST`, `nf10_ghost_xmit`. Both return `NETDEV_TX_OK`
whatever they do, so what became of the packet is a result of its own. -/

/-- "Do a switcharoo on the packet's IP address": on an IPv4 frame, flip the last bit of the third
octet of both addresses (bytes 28 and 32) and rebuild the header checksum (bytes 24 and 25). -/
def switcharoo (ipFastCsum : (Nat → UInt8) → Nat → UInt16) (data : Nat → UInt8) : Nat → UInt8 :=
  if data 12 = 0x08 ∧ data 13 = 0x00 then
    let data := Function.update data 28 (data 28 ^^^ 1)
    let data := Function.update data 32 (data 32 ^^^ 1)
    let data := Function.update (Function.update data 24 0) 25 0
    let check := ipFastCsum (fun i => data (14 + i)) (data 14 &&& 0x0f).toNat
    Function.update (Function.update data 24 check.toUInt8) 25 (check >>> 8).toUInt8
  else data

/-- How a transmit call ends. `accepted` carries the message the call put into the ring. -/
inductive XmitResult where
  | accepted (m : Message)
  | badLength
  | tooLong
  | noHardware
  | noIface
  | full
deriving DecidableEq, Repr

/-- The locked section of a transmit call that found a free buffer: fill it, set its flag to
full, ring the doorbell, step the index. -/
def DmaStream.transmit (s : DmaStream) (n : Nat) (data : Nat → UInt8) (len opcode : UInt32) :
    DmaStream :=
  (((s.fill data len opcode).setFlag s.bufIndex 0).ringDoorbell).advance n

/-- The packet `nf10_ghost_xmit` hands over, and the opcode that sends it to the paired interface:
`0->1`, `1->0`, `2->3`, `3->2`. -/
def ghostMessage (b : Build) (skb : SkBuff) (srcIface : Iface) : Message :=
  messageOf (switcharoo b.ipFastCsum skb.data) skb.len (rxSetDstIface 0 (srcIface.val ^^^ 1))

/-- `nf10_ghost_xmit`. The TX stream is the RX stream in disguise: flag 1 is full, and there is no
doorbell to ring. -/
def nf10GhostXmit (b : Build) (d : Driver) (skb : SkBuff) (netdev : Nat) : Driver × XmitResult :=
  if skb.len.toNat > dmaBufSize then (d.countTxDropped netdev, .tooLong)
  else
    match getIfaceFromNetdev d.nf10Netdevs netdev with
    | none => (d.countTxDropped netdev, .noIface)
    | some srcIface =>
      let tx := d.txDmaStream
      -- flag 1: the poll has not emptied the slot yet
      if tx.flags tx.bufIndex = 1 then (d.countTxDropped netdev, .full)
      else
        let data := switcharoo b.ipFastCsum skb.data
        let opcode := rxSetDstIface 0 (srcIface.val ^^^ 1)
        let tx := ((tx.fill data skb.len opcode).setFlag tx.bufIndex 1).advance d.dmaCpuBufs
        ({ d with txDmaStream := tx }.countTxPacket netdev skb.len,
          .accepted (ghostMessage b skb srcIface))

/-- The bytes `nf10_ndo_start_xmit` copies: with `DRIVER_LOOPB`, after the switcharoo. -/
def xmitData (b : Build) (skb : SkBuff) : Nat → UInt8 :=
  if b.loopb then switcharoo b.ipFastCsum skb.data else skb.data

/-- `nf10_ndo_start_xmit`. The checks stand in the source's order, and each way out before the ring
counts a drop. The frame is rewritten (`DRIVER_LOOPB`) after the checks and before the ring is looked at;
a packet that finds the ring full is freed, so it makes no difference there. -/
def nf10NdoStartXmit (b : Build) (d : Driver) (skb : SkBuff) (netdev : Nat) :
    Driver × XmitResult :=
  if b.ghost then nf10GhostXmit b d skb netdev
  else if skb.len < nf10PktSizeMin ∨ skb.len > nf10PktSizeMax then
    (d.countTxDropped netdev, .badLength)
  else if skb.len.toNat > dmaBufSize then (d.countTxDropped netdev, .tooLong)
  else if ¬ (d.hwState &&& hwFound ≠ 0 ∧ d.hwState &&& hwInit ≠ 0) then
    (d.countTxDropped netdev, .noHardware)
  else
    match getIfaceFromNetdev d.nf10Netdevs netdev with
    | none => (d.countTxDropped netdev, .noIface)
    | some iface =>
      let opcode := txSetSrcIface 0 iface
      let tx := d.txDmaStream
      -- flag 0: the device has not read the slot yet
      if tx.flags tx.bufIndex = 0 then (d.countTxDropped netdev, .full)
      else
        ({ d with txDmaStream := tx.transmit d.dmaCpuBufs (xmitData b skb) skb.len opcode
          }.countTxPacket netdev skb.len,
          .accepted (messageOf (xmitData b skb) skb.len opcode))

/-! ## Netlink commands on the rings

`genl_cmd_dma_tx` and `genl_cmd_dma_rx`, which use the rings of the packet path without its lock. A
kernel call that may fail is an input. -/

/-- A 32-bit load from `p`, least significant byte first. -/
def load32 (p : Nat → UInt8) : UInt32 :=
  (p 0).toUInt32 ||| (p 1).toUInt32 <<< 8 ||| (p 2).toUInt32 <<< 16 ||| (p 3).toUInt32 <<< 24

theorem load32_congr {p p' : Nat → UInt8} (h : ∀ k < 4, p' k = p k) : load32 p' = load32 p := by
  simp [load32, h]

/-- How `genl_cmd_dma_tx` ends; `-EINVAL` for `noInfo`, 0 otherwise. -/
inductive DmaTxResult where
  | noInfo
  | noMsg
  | noOpcode
  | full
  | accepted (m : Message)
deriving DecidableEq, Repr

/-- The message length, capped to `DMA_BUF_SIZE`. -/
def dmaTxLen (naMsg : Nlattr) : UInt32 :=
  UInt32.ofNat (if naMsg.len > dmaBufSize then dmaBufSize else naMsg.len)

/-- `genl_cmd_dma_tx`. The payload of the message attribute goes to the ring as it is, up to a
buffer of it; the opcode is whatever the client says, and no counter is touched. -/
def genlCmdDmaTx (d : Driver) (info : Option GenlInfo) : Driver × DmaTxResult :=
  match info with
  | none => (d, .noInfo)
  | some info =>
    match info.attrs .msg with
    | none => (d, .noMsg)
    | some naMsg =>
      match info.attrs .opcode with
      | none => (d, .noOpcode)
      | some naOpcode =>
        let tx := d.txDmaStream
        -- the same test as in `nf10NdoStartXmit`, without the lock
        if tx.flags tx.bufIndex = 0 then (d, .full)
        else
          let opcode := load32 naOpcode.data
          ({ d with txDmaStream := tx.transmit d.dmaCpuBufs naMsg.data (dmaTxLen naMsg) opcode },
            .accepted (messageOf naMsg.data (dmaTxLen naMsg) opcode))

/-- What the netlink calls of `genl_cmd_dma_rx` return: whether `genlmsg_new` and
`genlmsg_put_reply` give `NULL`, and the error codes of the rest. -/
structure DmaRxCalls where
  genlmsgNewNull : Bool
  genlmsgPutReplyNull : Bool
  nlaPut : Int
  nlaPutU32 : Int
  genlmsgReply : Int
deriving DecidableEq, Repr

/-- How `genl_cmd_dma_rx` ends: its return value, the frame it retired from the ring, and the reply
handed to the client, whose message is absent when the ring had none. -/
structure DmaRxResult where
  ret : Int
  taken : Option Frame
  reply : Option (Option Message)
deriving DecidableEq, Repr

/-- Retire slot `i` of the RX ring: mark it empty, tell the hardware, step the stream's index. The
ghost build has no hardware to tell. -/
def Driver.retire (ghost : Bool) (d : Driver) (i : Nat) : Driver :=
  let rx := d.rxDmaStream.setFlag i 0
  let rx := if ghost then rx else rx.ringDoorbell
  { d with rxDmaStream := rx.advance d.dmaCpuBufs }

@[simp] theorem Driver.retire_nf10Netdevs (g : Bool) (d : Driver) (i : Nat) :
    (d.retire g i).nf10Netdevs = d.nf10Netdevs := rfl

@[simp] theorem Driver.retire_dmaCpuBufs (g : Bool) (d : Driver) (i : Nat) :
    (d.retire g i).dmaCpuBufs = d.dmaCpuBufs := rfl

@[simp] theorem Driver.retire_hwState (g : Bool) (d : Driver) (i : Nat) :
    (d.retire g i).hwState = d.hwState := rfl

/-- `genl_cmd_dma_rx`; `hasInfo` is false when `info` is `NULL`. -/
def genlCmdDmaRx (d : Driver) (hasInfo : Bool) (calls : DmaRxCalls) : Driver × DmaRxResult :=
  if ¬ hasInfo then (d, ⟨-22, none, none⟩)
  else if calls.genlmsgNewNull then (d, ⟨-12, none, none⟩)
  else if calls.genlmsgPutReplyNull then (d, ⟨0, none, none⟩)
  else
    let rx := d.rxDmaStream
    if rx.flags rx.bufIndex = 1 then
      -- the reply is given up before the slot is retired, so the frame stays
      if calls.nlaPut ≠ 0 then (d, ⟨calls.nlaPut, none, none⟩)
      else if calls.nlaPutU32 ≠ 0 then (d, ⟨calls.nlaPutU32, none, none⟩)
      else
        (d.retire false rx.bufIndex,
          { ret := calls.genlmsgReply
            taken := some (rx.frame rx.bufIndex)
            reply :=
              if calls.genlmsgReply ≠ 0 then none else some (some (rx.message rx.bufIndex)) })
    else
      -- an empty ring is answered with an empty reply
      (d, ⟨calls.genlmsgReply, none, if calls.genlmsgReply ≠ 0 then none else some none⟩)

/-! ## The poll loop

`nf10_napi_struct_poll`, one iteration at a time: the test of the loop, and what its body does with
the frame. The index is the loop's own until it is stored. -/

/-- The locals of a running `nf10_napi_struct_poll`. `bufIndex` is its own copy of the stream's
index, refreshed at the end of each iteration and nowhere else. -/
structure PollCall where
  budget : Int
  nRx : Int
  bufIndex : Nat
deriving DecidableEq, Repr

/-- What `nf10_napi_struct_poll` has set up before its loop. -/
def pollStart (d : Driver) (budget : Int) : PollCall :=
  ⟨budget, 0, d.rxDmaStream.bufIndex⟩

/-- The loop test `n_rx < budget && rx_dma_stream.flags[buf_index] == 1`. -/
def pollTest (d : Driver) (c : PollCall) : Bool :=
  c.nRx < c.budget && d.rxDmaStream.flags c.bufIndex == 1

/-- What an iteration does with the frame in its slot. -/
inductive Fate where
  | delivered (netdev : Nat) (bytes : List UInt8)
  | badOpcode
  | noSkb (netdev : Nat)
deriving DecidableEq, Repr

/-- The branches of the loop body: the opcode names no interface, `dev_alloc_skb` fails, or the
packet goes up. -/
def pollFate (d : Driver) (i : Nat) (skbOk : Bool) : Fate :=
  match rxGetDstIface (d.rxDmaStream.metadata i).opCode with
  | none => .badOpcode
  | some dstIface =>
    if skbOk then .delivered (d.nf10Netdevs.dev dstIface) (d.rxDmaStream.message i).bytes
    else .noSkb (d.nf10Netdevs.dev dstIface)

/-- The statistics of the three branches; `len` is the length in the slot's metadata. -/
def Driver.countFate (d : Driver) (len : UInt32) : Fate → Driver
  | .delivered netdev _ => d.count netdev fun st =>
      { st with rxPackets := st.rxPackets + 1, rxBytes := st.rxBytes + len.toNat }
  | .badOpcode => d
  | .noSkb netdev => d.count netdev fun st => { st with rxDropped := st.rxDropped + 1 }

@[simp] theorem Driver.countFate_rxDmaStream (d : Driver) (len : UInt32) (fate : Fate) :
    (d.countFate len fate).rxDmaStream = d.rxDmaStream := by
  cases fate <;> rfl

@[simp] theorem Driver.countFate_txDmaStream (d : Driver) (len : UInt32) (fate : Fate) :
    (d.countFate len fate).txDmaStream = d.txDmaStream := by
  cases fate <;> rfl

@[simp] theorem Driver.countFate_dmaCpuBufs (d : Driver) (len : UInt32) (fate : Fate) :
    (d.countFate len fate).dmaCpuBufs = d.dmaCpuBufs := by
  cases fate <;> rfl

@[simp] theorem Driver.countFate_nf10Netdevs (d : Driver) (len : UInt32) (fate : Fate) :
    (d.countFate len fate).nf10Netdevs = d.nf10Netdevs := by
  cases fate <;> rfl

@[simp] theorem Driver.countFate_hwState (d : Driver) (len : UInt32) (fate : Fate) :
    (d.countFate len fate).hwState = d.hwState := by
  cases fate <;> rfl

/-- One iteration of the loop of `nf10_napi_struct_poll`, taken when `pollTest` holds. Only a
delivered packet counts against the budget. -/
def pollIteration (b : Build) (d : Driver) (c : PollCall) (skbOk : Bool) :
    Driver × PollCall × Fate :=
  let fate := pollFate d c.bufIndex skbOk
  let len := (d.rxDmaStream.metadata c.bufIndex).length
  let d' := (d.countFate len fate).retire b.ghost c.bufIndex
  -- a dropped packet is retired without `n_rx++`
  let nRx := match fate with
    | .delivered _ _ => c.nRx + 1
    | _ => c.nRx
  (d', { c with bufIndex := d'.rxDmaStream.bufIndex, nRx := nRx }, fate)

end Nf10
