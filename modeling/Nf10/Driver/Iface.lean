import Mathlib.Algebra.Ring.Nat
import Mathlib.Data.List.FinRange
import Mathlib.Data.Fintype.Basic

/-!
# Nf10 — interfaces, netdevs and opcodes

The opcode of a message names its ports in bits (`nf10_eth_driver.h`): bit `2 * i + 1` is CPU port
`i`, bit `2 * i` is MAC port `i`. The source writes the four cases of each helper out; so does the
model. The `-1` that the getters return for an opcode or a netdev they do not know is `none`.
-/

namespace Nf10

/-- The four ports of the board (`NUM_NETDEVS`). -/
abbrev numNetdevs : Nat := 4

/-- An interface number, `NF10_IFACE0` to `NF10_IFACE3`. -/
abbrev Iface : Type := Fin numNetdevs

instance : NeZero numNetdevs := ⟨Nat.succ_ne_zero 3⟩

/-- The opcode bit of each port on the CPU side; the bits between them are those of the MACs. -/
def opcodeCpu0 : UInt32 := 0x00000002
def opcodeCpu1 : UInt32 := 0x00000008
def opcodeCpu2 : UInt32 := 0x00000020
def opcodeCpu3 : UInt32 := 0x00000080
def opcodeCpuAll : UInt32 := 0x000000AA

/-- `rx_get_dst_iface`: the lowest CPU port the opcode names. -/
def rxGetDstIface (opcode : UInt32) : Option Iface :=
  if opcode &&& opcodeCpu0 ≠ 0 then some 0
  else if opcode &&& opcodeCpu1 ≠ 0 then some 1
  else if opcode &&& opcodeCpu2 ≠ 0 then some 2
  else if opcode &&& opcodeCpu3 ≠ 0 then some 3
  else none

/-- `rx_set_dst_iface`: clear the destination bits, then set the one of `dst_iface`. -/
def rxSetDstIface (opcode : UInt32) (dstIface : Nat) : UInt32 :=
  let opcode := opcode &&& ~~~opcodeCpuAll
  if dstIface = 0 then opcode ||| opcodeCpu0
  else if dstIface = 1 then opcode ||| opcodeCpu1
  else if dstIface = 2 then opcode ||| opcodeCpu2
  else if dstIface = 3 then opcode ||| opcodeCpu3
  else opcode

/-- `tx_set_src_iface`: on the way out the CPU bits name the source. -/
def txSetSrcIface (opcode : UInt32) (srcIface : Nat) : UInt32 :=
  rxSetDstIface opcode srcIface

/-- The opcode written for a destination decodes to that destination. -/
theorem rxGetDstIface_rxSetDstIface (i : Iface) :
    rxGetDstIface (rxSetDstIface 0 i) = some i := by
  revert i
  decide

/-! ## Netdevs

The kernel's netdevs are opaque numbers here. The four of the driver are distinct, as
`register_netdev` makes them, so looking one up is unambiguous. -/

/-- `nf10_netdevs`: the addresses of the four registered devices, each from its own
`alloc_netdev`. -/
structure Netdevs where
  dev : Iface → Nat
  distinct : Function.Injective dev

/-- `get_iface_from_netdev`: the first interface whose device this is. -/
def getIfaceFromNetdev (devs : Netdevs) (netdev : Nat) : Option Iface :=
  (List.finRange numNetdevs).find? fun i => devs.dev i = netdev

/-- The search finds a netdev exactly if it is one of the four, as these are distinct. -/
theorem getIfaceFromNetdev_eq_some {devs : Netdevs} {netdev : Nat} {i : Iface} :
    getIfaceFromNetdev devs netdev = some i ↔ devs.dev i = netdev := by
  constructor
  · intro h
    simpa using List.find?_some h
  · rintro rfl
    have hfound : (getIfaceFromNetdev devs (devs.dev i)).isSome := by
      rw [getIfaceFromNetdev, List.find?_isSome]
      exact ⟨i, List.mem_finRange i, by simp⟩
    obtain ⟨j, hj⟩ := Option.isSome_iff_exists.mp hfound
    have hji : devs.dev j = devs.dev i := by simpa using List.find?_some hj
    rw [hj, devs.distinct hji]

/-- The counters of a netdev the driver keeps (`struct net_device_stats`). -/
structure NetDeviceStats where
  txPackets : Nat
  txBytes : Nat
  txDropped : Nat
  rxPackets : Nat
  rxBytes : Nat
  rxDropped : Nat
deriving DecidableEq, Repr

end Nf10
