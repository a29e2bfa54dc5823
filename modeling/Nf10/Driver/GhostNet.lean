import Mathlib.Data.Fin.VecNotation
import Mathlib.Data.List.Forall2
import Nf10.Driver.GhostRing
import Nf10.Driver.Switcharoo

/-!
# Nf10 — IP packets across the ghost ring

What ghost mode is for: `nf0` and `nf1` are the two ends of a link, and so are `nf2` and `nf3`. The driver
builds the Ethernet headers itself (`nf10_netdev_header_ops`), from the addresses of the netdevs, which
`nf10_eth_driver_init` sets and `nf10_ndo_set_mac_address` may change.

* **`nf10NdhoCreate`** — "dest is us xor 1": the address of the other end, as long as the addresses of a
  pair differ in that bit only;
* **`GhostNet`** — the ghost system of `GhostRing`, with the packets of the IP layer on one side and what
  `eth_type_trans` makes of them on the other. The latter is the kernel's: any function is good that takes
  a frame to the address of the netdev for one to this host (`KnowsHost`);
* **`ghost_net_crosses`** — each packet comes up at the other end, for that host, with the third octets of
  its addresses flipped, or is dropped there for want of an skb; an answer comes back under the addresses
  it was asked for.
-/

namespace Nf10

open OnesComplement

/-! ## Addresses

The addresses the driver gives its netdevs at load, and what `ip link set address` may change them
to. -/

/-- An Ethernet address, first octet first. -/
abbrev EthAddr : Type := Fin 6 → UInt8

/-- `"NF%d"` behind a zero (`nf10_eth_driver_init`). -/
def factoryAddr (i : Iface) : EthAddr :=
  ![0, 78, 70, 48 + UInt8.ofNat i.val, 0, 0]

/-- `h_dest[ETH_ALEN-3] ^= 0x01` -/
def xorOne (a : EthAddr) : EthAddr :=
  Function.update a 3 (a 3 ^^^ 1)

/-- The group bit of the first octet. -/
def isMulticastEtherAddr (a : EthAddr) : Prop :=
  a 0 &&& 1 ≠ 0

instance (a : EthAddr) : Decidable (isMulticastEtherAddr a) :=
  inferInstanceAs (Decidable (_ ≠ _))

/-- What a host may have as its own address. -/
def isValidEtherAddr (a : EthAddr) : Prop :=
  ¬ isMulticastEtherAddr a ∧ a ≠ fun _ => 0

instance (a : EthAddr) : Decidable (isValidEtherAddr a) :=
  inferInstanceAs (Decidable (_ ∧ _))

/-- The error of an address that is not. -/
def eaddrnotavail : Int := 99

/-- What it returns, and the address of the netdev afterwards. -/
def nf10NdoSetMacAddress (devAddr addr : EthAddr) : Int × EthAddr :=
  if ¬ isValidEtherAddr addr then (-eaddrnotavail, devAddr) else (0, addr)

/-- The addresses the driver makes up are valid. -/
theorem factoryAddr_valid (i : Iface) : isValidEtherAddr (factoryAddr i) := by
  revert i
  decide

/-- Whatever is asked for, the address stays a valid one. -/
theorem nf10NdoSetMacAddress_valid {devAddr : EthAddr} (h : isValidEtherAddr devAddr) (addr : EthAddr) :
    isValidEtherAddr (nf10NdoSetMacAddress devAddr addr).2 := by
  unfold nf10NdoSetMacAddress
  split
  · exact h
  · next hvalid => exact not_not.mp hvalid

/-! ## Headers

The driver writes the link header itself: the destination is the address it is given, or its own, with
one bit flipped, as the two netdevs of a pair differ in that bit. The neighbours of a netdev without ARP
have its own address, so on a steady link both come to the same. -/

/-- The address as it stands in memory. -/
def EthAddr.mem (a : EthAddr) : Nat → UInt8 :=
  fun k => if h : k < 6 then a ⟨k, h⟩ else 0

/-- `skb_push`: `room` are the bytes in front of the packet. -/
def skbPush (skb : SkBuff) (room : Nat → UInt8) (len : Nat) : SkBuff where
  data := fun i => if i < len then room i else skb.data (i - len)
  len := skb.len + UInt32.ofNat len

/-- The end of both header functions: the source, the destination, and "dest is us xor 1". -/
def writeAddrs (data : Nat → UInt8) (dest source : EthAddr) : Nat → UInt8 :=
  let data := memcpy data 6 source.mem 6
  let data := memcpy data 0 dest.mem 6
  Function.update data 3 (data 3 ^^^ 1)

/-- `nf10_ndho_create`. Missing addresses are those of the netdev; the type is in network order. -/
def nf10NdhoCreate (skb : SkBuff) (room : Nat → UInt8) (devAddr : EthAddr) (type : UInt16)
    (daddr saddr : Option EthAddr) : SkBuff :=
  let skb := skbPush skb room 14
  let data := Function.update (Function.update skb.data 12 (type >>> 8).toUInt8) 13 type.toUInt8
  { skb with data := writeAddrs data (daddr.getD devAddr) (saddr.getD devAddr) }

/-- `nf10_ndho_rebuild`, for packets whose header was made without addresses. -/
def nf10NdhoRebuild (skb : SkBuff) (devAddr : EthAddr) : SkBuff :=
  { skb with data := writeAddrs skb.data devAddr devAddr }

/-- A frame with this header in front of this packet. -/
structure HeaderOf (skb frame : SkBuff) (dest source : EthAddr) (type : UInt16) : Prop where
  dest : ∀ j : Fin 6, frame.data j.val = dest j
  source : ∀ j : Fin 6, frame.data (6 + j.val) = source j
  typeHi : frame.data 12 = (type >>> 8).toUInt8
  typeLo : frame.data 13 = type.toUInt8
  packet : ∀ i, frame.data (14 + i) = skb.data i
  len : frame.len = skb.len + 14

section WriteAddrs

variable (data : Nat → UInt8) (dest source : EthAddr)

/-- The destination is flipped on the way into the frame. -/
theorem writeAddrs_dest (j : Fin 6) : writeAddrs data dest source j.val = xorOne dest j := by
  have hmem : ∀ j : Fin 6, memcpy (memcpy data 6 source.mem 6) 0 dest.mem 6 j.val = dest j := by
    intro j
    have hcopy : memcpy (memcpy data 6 source.mem 6) 0 dest.mem 6 (0 + j.val) = dest.mem j.val :=
      memcpy_add j.isLt
    rw [Nat.zero_add] at hcopy
    rw [hcopy, EthAddr.mem, dif_pos j.isLt]
  unfold writeAddrs xorOne
  by_cases hj : j = 3
  · subst hj
    rw [Function.update_self]
    exact (Function.update_self ..).trans (congrArg (· ^^^ 1) (hmem 3))
  · have hval : j.val ≠ 3 := fun h => hj (Fin.ext h)
    rw [Function.update_of_ne hj, Function.update_of_ne hval, hmem]

theorem writeAddrs_source (j : Fin 6) : writeAddrs data dest source (6 + j.val) = source j := by
  unfold writeAddrs
  rw [Function.update_of_ne (by omega), memcpy_of_ge (by omega), memcpy_add j.isLt, EthAddr.mem,
    dif_pos j.isLt]

theorem writeAddrs_of_ge {i : Nat} (h : 12 ≤ i) : writeAddrs data dest source i = data i := by
  unfold writeAddrs
  rw [Function.update_of_ne (by omega), memcpy_of_ge (by omega), memcpy_of_ge (by omega)]

end WriteAddrs

/-- What the header says, and that the payload follows it. -/
theorem nf10NdhoCreate_header (skb : SkBuff) (room : Nat → UInt8) (devAddr : EthAddr) (type : UInt16)
    (daddr saddr : Option EthAddr) :
    HeaderOf skb (nf10NdhoCreate skb room devAddr type daddr saddr) (xorOne (daddr.getD devAddr))
      (saddr.getD devAddr) type := by
  unfold nf10NdhoCreate
  constructor
  case dest => exact writeAddrs_dest _ _ _
  case source => exact writeAddrs_source _ _ _
  case typeHi =>
    dsimp only
    rw [writeAddrs_of_ge _ _ _ (Nat.le_refl 12), Function.update_of_ne (by decide),
      Function.update_self]
  case typeLo =>
    dsimp only
    rw [writeAddrs_of_ge _ _ _ (by decide), Function.update_self]
  case packet =>
    intro i
    dsimp only
    rw [writeAddrs_of_ge _ _ _ (by omega), Function.update_of_ne (by omega),
      Function.update_of_ne (by omega), skbPush]
    dsimp only
    rw [if_neg (by omega), Nat.add_sub_cancel_left]
  case len => rfl

/-- Rebuilding changes the addresses and nothing else. -/
theorem HeaderOf.rebuild {skb frame : SkBuff} {dest source : EthAddr} {type : UInt16}
    (h : HeaderOf skb frame dest source type) (devAddr : EthAddr) :
    HeaderOf skb (nf10NdhoRebuild frame devAddr) (xorOne devAddr) devAddr type := by
  have hkeep : ∀ i, 12 ≤ i → (nf10NdhoRebuild frame devAddr).data i = frame.data i :=
    fun i hi => writeAddrs_of_ge frame.data devAddr devAddr hi
  constructor
  case dest => exact writeAddrs_dest _ _ _
  case source => exact writeAddrs_source _ _ _
  case typeHi => exact (hkeep 12 (by decide)).trans h.typeHi
  case typeLo => exact (hkeep 13 (by decide)).trans h.typeLo
  case packet => exact fun i => (hkeep (14 + i) (by omega)).trans (h.packet i)
  case len => exact h.len

/-! ## Packets

An IP packet as the stack hands it down, and a frame as it is read at the other end. -/

/-- An IP address, first octet first. -/
abbrev IpAddr : Type := Fin 4 → UInt8

/-- A packet of the IP layer: a header of at least five words, and no more than the MTU that
`ether_setup` gives the netdevs. -/
structure IpPacket where
  skb : SkBuff
  header : 5 ≤ (skb.data 0 &&& 0x0f).toNat
  whole : 4 * (skb.data 0 &&& 0x0f).toNat ≤ skb.len.toNat
  mtu : skb.len.toNat ≤ 1500

/-- Where the packet comes from. -/
def IpPacket.saddr (p : IpPacket) : IpAddr :=
  fun j => p.skb.data (12 + j.val)

/-- Where it goes to. -/
def IpPacket.daddr (p : IpPacket) : IpAddr :=
  fun j => p.skb.data (16 + j.val)

/-- The address in the other of two neighbouring networks. -/
def otherNet (a : IpAddr) : IpAddr :=
  Function.update a 2 (a 2 ^^^ 1)

/-- The other net of the other net is the net. -/
theorem otherNet_otherNet (a : IpAddr) : otherNet (otherNet a) = a := by
  unfold otherNet
  rw [Function.update_self, Function.update_idem, UInt8.xor_assoc, UInt8.xor_self, UInt8.xor_zero,
    Function.update_eq_self]

section Bytes

variable (bytes : List UInt8)

/-- The fields of a frame by their offsets: the link addresses, the packet behind the header and
its IP addresses. -/
def hDest : EthAddr := fun j => bytes.getD j.val 0
def hSource : EthAddr := fun j => bytes.getD (6 + j.val) 0
def frameIp : Nat → UInt8 := fun i => bytes.getD (14 + i) 0
def frameSaddr : IpAddr := fun j => frameIp bytes (12 + j.val)
def frameDaddr : IpAddr := fun j => frameIp bytes (16 + j.val)

end Bytes

/-- The bytes of a frame that the packet has become at the other end. -/
structure Crossed (p : IpPacket) (bytes : List UInt8) : Prop where
  length : bytes.length = 14 + p.skb.len.toNat
  saddr : frameSaddr bytes = otherNet p.saddr
  daddr : frameDaddr bytes = otherNet p.daddr
  verifies : onesSum 0x10000 (beWord (frameIp bytes)) (2 * (frameIp bytes 0 &&& 0x0f).toNat) = 0xffff
  -- all but the third octets and the checksum
  others : ∀ i < p.skb.len.toNat, i ≠ 10 → i ≠ 11 → i ≠ 14 → i ≠ 18 →
    frameIp bytes i = p.skb.data i

/-- The EtherType of IP (`ETH_P_IP`). -/
def ethPIp : UInt16 := 0x0800

/-- A byte of a frame that was read from memory. -/
theorem getD_readMem (mem : Nat → UInt8) {len i : Nat} (h : i < len) :
    (readMem mem 0 len).getD i 0 = mem i := by
  simp [readMem, h]

section Crossing

variable {p : IpPacket} {frame : SkBuff} {dest source : EthAddr}
  (h : HeaderOf p.skb frame dest source ethPIp)

include h

/-- A frame with such a header is taken for IP by the rewriting. -/
theorem HeaderOf.isIp : isIp frame.data :=
  ⟨h.typeHi, h.typeLo⟩

/-- The header adds 14 bytes, and that does not wrap. -/
theorem HeaderOf.len_toNat : frame.len.toNat = 14 + p.skb.len.toNat := by
  have hmtu := p.mtu
  rw [h.len, UInt32.toNat_add, Nat.mod_eq_of_lt]
  · exact Nat.add_comm _ _
  · show p.skb.len.toNat + 14 < 2 ^ 32
    omega

/-- The header length the rewriting reads is that of the packet. -/
theorem HeaderOf.ihl : ihl frame.data = (p.skb.data 0 &&& 0x0f).toNat := by
  unfold Nf10.ihl
  rw [show (14 : Nat) = 14 + 0 from rfl, h.packet]

/-- The frame after the switcharoo, byte by byte. -/
theorem HeaderOf.switched_data {i : Nat} (h24 : i ≠ 24) (h25 : i ≠ 25) :
    switcharoo rfc1071 frame.data i = flipAddrs frame.data i := by
  rw [switcharoo_of_isIp _ h.isIp]
  simp [setCheck, h24, h25]

/-- What goes up is what the packet has become. -/
theorem HeaderOf.crossed :
    Crossed p (readMem (switcharoo rfc1071 frame.data) 0 frame.len.toNat) := by
  have hlen := h.len_toNat
  have hihl := h.ihl
  have hfive := p.header
  have hwhole := p.whole
  have hip : ∀ i < p.skb.len.toNat,
      frameIp (readMem (switcharoo rfc1071 frame.data) 0 frame.len.toNat) i
        = switcharoo rfc1071 frame.data (14 + i) :=
    fun i hi => getD_readMem _ (by omega)
  have hkeep : ∀ i < p.skb.len.toNat, i ≠ 10 → i ≠ 11 → i ≠ 14 → i ≠ 18 →
      frameIp (readMem (switcharoo rfc1071 frame.data) 0 frame.len.toNat) i = p.skb.data i := by
    intro i hi h10 h11 h14 h18
    rw [hip i hi, h.switched_data (by omega) (by omega), flipAddrs, Function.update_of_ne (by omega),
      Function.update_of_ne (by omega), h.packet]
  have hflip : ∀ i, i = 14 ∨ i = 18 →
      frameIp (readMem (switcharoo rfc1071 frame.data) 0 frame.len.toNat) i = p.skb.data i ^^^ 1 := by
    intro i hi
    rw [hip i (by omega), h.switched_data (by omega) (by omega), ← h.packet i]
    rcases hi with rfl | rfl <;> simp [flipAddrs]
  have haddr : ∀ o, o = 12 ∨ o = 16 → (fun j : Fin 4 =>
      frameIp (readMem (switcharoo rfc1071 frame.data) 0 frame.len.toNat) (o + j.val))
        = otherNet fun j => p.skb.data (o + j.val) := by
    intro o ho
    funext j
    unfold otherNet
    by_cases hj : j = 2
    · subst hj
      rw [Function.update_self]
      exact hflip (o + 2) (by omega)
    · have hval : j.val ≠ 2 := fun heq => hj (Fin.ext heq)
      have hlt := j.isLt
      rw [Function.update_of_ne hj]
      exact hkeep (o + j.val) (by omega) (by omega) (by omega) (by omega) (by omega)
  constructor
  case length => rw [length_readMem, hlen]
  case saddr => exact haddr 12 (Or.inl rfl)
  case daddr => exact haddr 16 (Or.inr rfl)
  case verifies =>
    have hfirst : frameIp (readMem (switcharoo rfc1071 frame.data) 0 frame.len.toNat) 0
        = p.skb.data 0 := hkeep 0 (by omega) (by decide) (by decide) (by decide) (by decide)
    have hheader : ipHeader (switcharoo rfc1071 frame.data) = checkedHeader (flipAddrs frame.data) := by
      rw [switcharoo_of_isIp _ h.isIp]
      rfl
    have h5 : 5 ≤ Nf10.ihl (flipAddrs frame.data) := by
      show 5 ≤ Nf10.ihl frame.data
      omega
    have hverifies := (onesSum_checkedHeader h5).2
    rw [← hheader, show Nf10.ihl (flipAddrs frame.data) = Nf10.ihl frame.data from rfl, hihl]
      at hverifies
    rw [hfirst, ← hverifies]
    apply onesSum_congr
    intro k hk
    unfold beWord ipHeader
    rw [hip (2 * k) (by omega), hip (2 * k + 1) (by omega)]
  case others => exact hkeep

/-- The rewriting leaves the link addresses, here the destination. -/
theorem HeaderOf.hDest : hDest (readMem (switcharoo rfc1071 frame.data) 0 frame.len.toNat) = dest := by
  have hlen := h.len_toNat
  funext j
  have hlt := j.isLt
  unfold Nf10.hDest
  rw [getD_readMem _ (by omega), h.switched_data (by omega) (by omega), flipAddrs,
    Function.update_of_ne (by omega), Function.update_of_ne (by omega), h.dest]

theorem HeaderOf.hSource :
    hSource (readMem (switcharoo rfc1071 frame.data) 0 frame.len.toNat) = source := by
  have hlen := h.len_toNat
  funext j
  have hlt := j.isLt
  unfold Nf10.hSource
  rw [getD_readMem _ (by omega), h.switched_data (by omega) (by omega), flipAddrs,
    Function.update_of_ne (by omega), Function.update_of_ne (by omega), h.source]

end Crossing

/-! ## The link

The system: packets go down on one netdev, through the ring, and up on the other. What
`eth_type_trans` says of a frame depends on the address the netdev has when it comes up. -/

/-- `PACKET_HOST` and so on. -/
inductive PktType where
  | host
  | broadcast
  | multicast
  | otherhost
deriving DecidableEq, Repr

/-- What is relied on of the kernel's `eth_type_trans`, which says for whom a frame is: one to the unicast
address of the netdev is for this host. The IP layer drops what is for another. -/
def KnowsHost (ethTypeTrans : EthAddr → List UInt8 → PktType) : Prop :=
  ∀ devAddr bytes, ¬ isMulticastEtherAddr devAddr → hDest bytes = devAddr →
    ethTypeTrans devAddr bytes = .host

/-- The ghost system, the addresses of the netdevs, and the histories: the packets accepted, with the
interface they were sent on, and for whom the packets polled were, if they went up. -/
structure GhostNet where
  sys : GhostSys
  devAddr : Iface → EthAddr
  sent : List (Iface × IpPacket)
  heard : List (Option PktType)

/-- A step: a packet of the IP layer, a change of address, or a step of the poll. For a neighbour the
kernel passes `daddr`; it may also let the header be rebuilt. -/
inductive NetEvent where
  | send (i : Iface) (p : IpPacket) (room : Nat → UInt8) (daddr : Option EthAddr) (rebuild : Bool)
  | setMac (i : Iface) (addr : EthAddr)
  | pollStart (budget : Int)
  | pollTurn (skbOk : Bool)

/-- The packet went onto the ring. -/
def XmitResult.isAccepted : XmitResult → Bool
  | .accepted _ => true
  | _ => false

/-- For whom a packet was that went up on its netdev. -/
def Fate.heard (ethTypeTrans : EthAddr → List UInt8 → PktType) (devs : Netdevs)
    (devAddr : Iface → EthAddr) : Fate → Option PktType
  | .delivered netdev bytes =>
    (getIfaceFromNetdev devs netdev).map fun i => ethTypeTrans (devAddr i) bytes
  | _ => none

namespace GhostSys

/-- A packet of a known netdev is on the ring with its interface and its message, or nothing has
happened to the ring. -/
theorem xmit_accepted (b : Build) (s : GhostSys) (skb : SkBuff) (i : Iface) :
    ((nf10GhostXmit b s.driver skb (s.driver.nf10Netdevs.dev i)).2.isAccepted = true
      ∧ (s.xmit b skb (s.driver.nf10Netdevs.dev i)).accepted
        = s.accepted ++ [(i, ghostMessage b skb i)])
    ∨ ((nf10GhostXmit b s.driver skb (s.driver.nf10Netdevs.dev i)).2.isAccepted = false
      ∧ (s.xmit b skb (s.driver.nf10Netdevs.dev i)).accepted = s.accepted) := by
  have hiface : getIfaceFromNetdev s.driver.nf10Netdevs (s.driver.nf10Netdevs.dev i) = some i :=
    getIfaceFromNetdev_eq_some.mpr rfl
  simp only [GhostSys.xmit]
  obtain ⟨j, _, hj, _, heq⟩ | ⟨_, _, heq⟩ | ⟨_, r, _, hna, heq⟩ :=
    nf10GhostXmit_cases b s.driver skb (s.driver.nf10Netdevs.dev i)
  · rw [hiface] at hj
    cases hj
    rw [heq, hiface]
    exact Or.inl ⟨rfl, rfl⟩
  · rw [heq, GhostSys.admitted_eq_nil _ (by simp), List.append_nil]
    exact Or.inr ⟨rfl, rfl⟩
  · rw [heq, GhostSys.admitted_eq_nil _ hna, List.append_nil]
    refine Or.inr ⟨?_, rfl⟩
    cases r with
    | accepted m => exact absurd rfl (hna m)
    | _ => rfl

theorem pollTurn_accepted (b : Build) (s : GhostSys) (skbOk : Bool) :
    (s.pollTurn b skbOk).accepted = s.accepted := by
  unfold GhostSys.pollTurn
  split
  · rfl
  · split <;> rfl

theorem pollTurn_taken (b : Build) (s : GhostSys) (skbOk : Bool) :
    (s.pollTurn b skbOk).taken = s.taken ∨ ∃ t, (s.pollTurn b skbOk).taken = s.taken ++ [t] := by
  unfold GhostSys.pollTurn
  split
  · exact Or.inl rfl
  · split
    · exact Or.inr ⟨_, rfl⟩
    · exact Or.inl rfl

end GhostSys

namespace GhostNet

/-- `enable_ghosting`, with the addresses made up at load and nothing sent. -/
def init (d : Driver) (n : Nat) : GhostNet where
  sys := GhostSys.init d n
  devAddr := factoryAddr
  sent := []
  heard := []

/-- The frame that the kernel hands to `nf10_ndo_start_xmit`. -/
def frame (s : GhostNet) (i : Iface) (p : IpPacket) (room : Nat → UInt8) (daddr : Option EthAddr)
    (rebuild : Bool) : SkBuff :=
  let skb := nf10NdhoCreate p.skb room (s.devAddr i) ethPIp daddr none
  if rebuild then nf10NdhoRebuild skb (s.devAddr i) else skb

/-- One step, with the `eth_type_trans` of the kernel. -/
def step (b : Build) (ethTypeTrans : EthAddr → List UInt8 → PktType) (s : GhostNet) :
    NetEvent → GhostNet
  | .send i p room daddr rebuild =>
    let skb := s.frame i p room daddr rebuild
    let netdev := s.sys.driver.nf10Netdevs.dev i
    { s with
      sys := s.sys.xmit b skb netdev
      sent := s.sent
        ++ if (nf10GhostXmit b s.sys.driver skb netdev).2.isAccepted then [(i, p)] else [] }
  | .setMac i addr =>
    { s with devAddr := Function.update s.devAddr i (nf10NdoSetMacAddress (s.devAddr i) addr).2 }
  | .pollStart budget => { s with sys := s.sys.step b (.pollStart budget) }
  | .pollTurn skbOk =>
    let sys := s.sys.pollTurn b skbOk
    { s with
      sys := sys
      heard := s.heard ++ (sys.taken.drop s.sys.taken.length).map
        fun t => t.2.heard ethTypeTrans sys.driver.nf10Netdevs s.devAddr }

/-- Addresses are changed while no packet is outstanding, and packets sent while the addresses of the two
ends differ in the one bit. The neighbours of a netdev without ARP have its own address. -/
def Steady (s : GhostNet) : NetEvent → Prop
  | .send i _ _ daddr _ =>
    daddr.getD (s.devAddr i) = s.devAddr i ∧ s.devAddr (i ^^^ 1) = xorOne (s.devAddr i)
  | .setMac _ _ => s.sys.taken.length = s.sys.accepted.length
  | .pollStart _ => True
  | .pollTurn _ => True

instance (s : GhostNet) (e : NetEvent) : Decidable (s.Steady e) :=
  match e with
  | .send .. => inferInstanceAs (Decidable (_ ∧ _))
  | .setMac .. => inferInstanceAs (Decidable (_ = _))
  | .pollStart _ => isTrue trivial
  | .pollTurn _ => isTrue trivial

/-- On a steady link every frame is addressed to the other end. -/
theorem frame_header (s : GhostNet) (i : Iface) (p : IpPacket) (room : Nat → UInt8)
    {daddr : Option EthAddr} (hdaddr : daddr.getD (s.devAddr i) = s.devAddr i) (rebuild : Bool) :
    HeaderOf p.skb (s.frame i p room daddr rebuild) (xorOne (s.devAddr i)) (s.devAddr i) ethPIp := by
  have hcreate := nf10NdhoCreate_header p.skb room (s.devAddr i) ethPIp daddr none
  rw [hdaddr] at hcreate
  unfold frame
  cases rebuild with
  | false => exact hcreate
  | true => exact hcreate.rebuild (s.devAddr i)

/-- What a run preserves. -/
structure Inv (base : Nat → NetDeviceStats) (n : Nat) (s : GhostNet) : Prop where
  ghost : GhostInv base n s.sys
  valid : ∀ i, isValidEtherAddr (s.devAddr i)
  sent : List.Forall₂ (fun a snt => a.1 = snt.1 ∧ Crossed snt.2 a.2.bytes) s.sys.accepted s.sent
  -- A packet outstanding is for the netdev that it will go up on.
  addressed : ∀ k a, s.sys.accepted[k]? = some a → s.sys.taken.length ≤ k →
    hDest a.2.bytes = s.devAddr (a.1 ^^^ 1)
  heard : List.Forall₂ (fun t h => ∀ netdev bytes, t.2 = .delivered netdev bytes → h = some .host)
    s.sys.taken s.heard

variable {base : Nat → NetDeviceStats} {n : Nat} {s : GhostNet} {b : Build}
  {ethTypeTrans : EthAddr → List UInt8 → PktType}

theorem Inv.init (d : Driver) (n : Nat) : Inv d.stats n (GhostNet.init d n) where
  ghost := GhostInv.init d n
  valid := factoryAddr_valid
  sent := List.Forall₂.nil
  addressed := fun _ _ h => nomatch h
  heard := List.Forall₂.nil

/-- A packet goes onto the ring with the header of its netdev. -/
theorem Inv.send (hn : 0 < n) (hcsum : b.ipFastCsum = rfc1071) (h : Inv base n s) (i : Iface)
    (p : IpPacket) (room : Nat → UInt8) {daddr : Option EthAddr} (rebuild : Bool)
    (hsteady : s.Steady (.send i p room daddr rebuild)) :
    Inv base n (s.step b ethTypeTrans (.send i p room daddr rebuild)) := by
  obtain ⟨hdaddr, hpair⟩ := hsteady
  have hheader := s.frame_header i p room hdaddr rebuild
  have hghost := h.ghost.xmit hn b (s.frame i p room daddr rebuild) (s.sys.driver.nf10Netdevs.dev i)
  have hbytes : (ghostMessage b (s.frame i p room daddr rebuild) i).bytes
      = readMem (switcharoo rfc1071 (s.frame i p room daddr rebuild).data) 0
        (s.frame i p room daddr rebuild).len.toNat := by
    rw [← hcsum]
    rfl
  obtain ⟨hyes, hacc⟩ | ⟨hno, hacc⟩ := s.sys.xmit_accepted b (s.frame i p room daddr rebuild) i
  · -- the frame is for the other end as long as the addresses stay
    refine ⟨hghost, h.valid, ?_, ?_, h.heard⟩
    · simp only [GhostNet.step, hyes, if_true, hacc]
      refine List.rel_append h.sent (List.Forall₂.cons ⟨rfl, ?_⟩ List.Forall₂.nil)
      rw [hbytes]
      exact hheader.crossed
    · simp only [GhostNet.step, hacc]
      intro k a ha hle
      rcases Nat.lt_or_ge k s.sys.accepted.length with hold | hnew
      · rw [List.getElem?_append_left hold] at ha
        exact h.addressed k a ha hle
      · rw [List.getElem?_append_right hnew] at ha
        obtain rfl := List.mem_singleton.mp (List.mem_of_getElem? ha)
        rw [hbytes, hheader.hDest, hpair]
  · refine ⟨hghost, h.valid, ?_, ?_, h.heard⟩
    · simpa [GhostNet.step, hno, hacc] using h.sent
    · simp only [GhostNet.step, hacc]
      exact h.addressed

/-- An address changes while nothing is outstanding, so no packet is on its way under the old one. -/
theorem Inv.setMac (h : Inv base n s) (i : Iface) (addr : EthAddr)
    (hsteady : s.Steady (.setMac i addr)) : Inv base n (s.step b ethTypeTrans (.setMac i addr)) := by
  refine ⟨h.ghost, ?_, h.sent, ?_, h.heard⟩
  · intro j
    simp only [GhostNet.step]
    rcases eq_or_ne j i with rfl | hne
    · rw [Function.update_self]
      exact nf10NdoSetMacAddress_valid (h.valid j) addr
    · rw [Function.update_of_ne hne]
      exact h.valid j
  · -- nothing is outstanding
    intro k a ha hle
    have hlt : k < s.sys.accepted.length := List.getElem?_eq_some_iff.mp ha |>.1
    have hall : s.sys.taken.length = s.sys.accepted.length := hsteady
    have hle' : s.sys.taken.length ≤ k := hle
    omega

/-- The packet just polled was the oldest one outstanding, and is for the netdev it went up on. -/
theorem Inv.pollTurn (hn : 0 < n) (hb : b.ghost = true) (htype : KnowsHost ethTypeTrans)
    (h : Inv base n s) (skbOk : Bool) :
    Inv base n (s.step b ethTypeTrans (.pollTurn skbOk)) := by
  have hghost := h.ghost.pollTurn hn hb skbOk
  have hacc := s.sys.pollTurn_accepted b skbOk
  obtain htaken | ⟨t, htaken⟩ := s.sys.pollTurn_taken b skbOk
  · refine ⟨hghost, h.valid, ?_, ?_, ?_⟩
    · simpa [GhostNet.step, hacc] using h.sent
    · simpa [GhostNet.step, hacc, htaken] using h.addressed
    · simpa [GhostNet.step, htaken] using h.heard
  · refine ⟨hghost, h.valid, ?_, ?_, ?_⟩
    · simpa [GhostNet.step, hacc] using h.sent
    · simp only [GhostNet.step, hacc, htaken, List.length_append, List.length_singleton]
      intro k a ha hle
      exact h.addressed k a ha (by omega)
    · simp only [GhostNet.step, htaken, List.drop_left, List.map_cons, List.map_nil]
      refine List.rel_append h.heard (List.Forall₂.cons ?_ List.Forall₂.nil)
      intro netdev bytes hfate
      have hlt : s.sys.taken.length < (s.sys.pollTurn b skbOk).taken.length := by
        rw [htaken, List.length_append, List.length_singleton]
        omega
      have hlt' : s.sys.taken.length < s.sys.accepted.length := by
        rw [← hacc]
        exact Nat.lt_of_lt_of_le hlt hghost.taken_le
      have hpair := hghost.paired s.sys.taken.length (hacc ▸ hlt') hlt
      have hdest := h.addressed s.sys.taken.length _ (List.getElem?_eq_getElem hlt') (Nat.le_refl _)
      simp only [hacc, htaken, List.getElem_append_right (Nat.le_refl _), Nat.sub_self,
        List.getElem_cons_zero] at hpair
      obtain ⟨-, hends⟩ := hpair
      rw [hfate] at hends ⊢
      rcases hends with hup | hlost
      · cases hup
        rw [Fate.heard, getIfaceFromNetdev_eq_some.mpr rfl, Option.map_some,
          htype _ _ (h.valid _).1 hdest]
      · cases hlost

/-- **The step lemma.** -/
theorem Inv.step (hn : 0 < n) (hb : b.ghost = true) (hcsum : b.ipFastCsum = rfc1071)
    (htype : KnowsHost ethTypeTrans) (h : Inv base n s) (e : NetEvent) (he : s.Steady e) :
    Inv base n (s.step b ethTypeTrans e) := by
  cases e with
  | send i p room daddr rebuild => exact h.send hn hcsum i p room rebuild he
  | setMac i addr => exact h.setMac i addr he
  | pollStart budget =>
    have hsame : (s.sys.step b (.pollStart budget)).accepted = s.sys.accepted
        ∧ (s.sys.step b (.pollStart budget)).taken = s.sys.taken := by
      unfold GhostSys.step
      dsimp only
      split <;> exact ⟨rfl, rfl⟩
    refine ⟨h.ghost.step hn hb (.pollStart budget), h.valid, ?_, ?_, ?_⟩
    · simpa [GhostNet.step, hsame] using h.sent
    · simpa [GhostNet.step, hsame] using h.addressed
    · simpa [GhostNet.step, hsame] using h.heard
  | pollTurn skbOk => exact h.pollTurn hn hb htype skbOk

end GhostNet

/-- Packet `k` of those accepted was `p`, sent on `i`, and has gone up on `netdev` as `bytes`. -/
structure GhostNet.Arrived (s : GhostNet) (k : Nat) (i : Iface) (p : IpPacket) (netdev : Nat)
    (bytes : List UInt8) : Prop where
  sent : s.sent[k]? = some (i, p)
  taken : (s.sys.taken[k]?).map Prod.snd = some (.delivered netdev bytes)

/-- What the IP layer at the two ends can rely on. -/
structure GhostLink (s : GhostNet) : Prop where
  -- The packets polled are the first of those accepted.
  inOrder : s.sys.taken.length ≤ s.sent.length
  -- Each of them went up at the other end, or was dropped there for want of an skb.
  ends : ∀ (k : Nat) t, s.sys.taken[k]? = some t → ∃ i p, s.sent[k]? = some (i, p)
    ∧ (t.2 = .noSkb (s.sys.driver.nf10Netdevs.dev (i ^^^ 1))
      ∨ ∃ bytes, s.Arrived k i p (s.sys.driver.nf10Netdevs.dev (i ^^^ 1)) bytes)
  -- One that goes up does so at the other end, for that host.
  crossed : ∀ {k i p netdev bytes}, s.Arrived k i p netdev bytes →
    netdev = s.sys.driver.nf10Netdevs.dev (i ^^^ 1) ∧ Crossed p bytes ∧ s.heard[k]? = some (some .host)
  -- What is sent back to where a packet came from comes from where that packet was sent to.
  answered : ∀ {k i p netdev bytes k' p' netdev' bytes'}, s.Arrived k i p netdev bytes →
    s.Arrived k' (i ^^^ 1) p' netdev' bytes' → p'.saddr = frameDaddr bytes →
    p'.daddr = frameSaddr bytes →
    netdev' = s.sys.driver.nf10Netdevs.dev i ∧ frameSaddr bytes' = p.daddr ∧ frameDaddr bytes' = p.saddr

/-- The invariant gives the claim in a state reached. -/
theorem GhostNet.Inv.link {base : Nat → NetDeviceStats} {n : Nat} {s : GhostNet}
    (h : GhostNet.Inv base n s) : GhostLink s := by
  have hcrossed : ∀ {k i p netdev bytes}, s.Arrived k i p netdev bytes →
      netdev = s.sys.driver.nf10Netdevs.dev (i ^^^ 1) ∧ Crossed p bytes
        ∧ s.heard[k]? = some (some .host) := by
    intro k i p netdev bytes harr
    obtain ⟨t, ht, hfate⟩ := Option.map_eq_some_iff.mp harr.taken
    obtain ⟨hk, htk⟩ := List.getElem?_eq_some_iff.mp ht
    have hk' : k < s.sys.accepted.length := Nat.lt_of_lt_of_le hk h.ghost.taken_le
    obtain ⟨hs, hsk⟩ := List.getElem?_eq_some_iff.mp harr.sent
    have hh : k < s.heard.length := h.heard.length_eq ▸ hk
    obtain ⟨hiface, hbytes⟩ := h.sent.get hk' hs
    have hhost := h.heard.get hk hh
    obtain ⟨-, hends⟩ := h.ghost.paired k hk' hk
    simp only [List.get_eq_getElem, hsk, htk] at hiface hbytes hhost hends
    rw [hfate, hiface] at hends
    rcases hends with hdel | hlost
    · cases hdel
      rw [List.getElem?_eq_getElem hh, hhost _ _ hfate]
      exact ⟨rfl, hbytes, rfl⟩
    · cases hlost
  have hback : ∀ i : Iface, i ^^^ 1 ^^^ 1 = i := by decide
  refine ⟨?_, ?_, hcrossed, ?_⟩
  · rw [← h.sent.length_eq]
    exact h.ghost.taken_le
  · intro k t ht
    obtain ⟨hk, htk⟩ := List.getElem?_eq_some_iff.mp ht
    have hk' : k < s.sys.accepted.length := Nat.lt_of_lt_of_le hk h.ghost.taken_le
    have hs : k < s.sent.length := h.sent.length_eq ▸ hk'
    obtain ⟨hiface, -⟩ := h.sent.get hk' hs
    obtain ⟨-, hends⟩ := h.ghost.paired k hk' hk
    simp only [List.get_eq_getElem] at hiface
    rw [htk, hiface] at hends
    refine ⟨s.sent[k].1, s.sent[k].2, List.getElem?_eq_getElem hs, ?_⟩
    rcases hends with hup | hlost
    · exact Or.inr ⟨_, List.getElem?_eq_getElem hs, by rw [ht, Option.map_some, hup]⟩
    · exact Or.inl hlost
  · intro k i p netdev bytes k' p' netdev' bytes' harr harr' hsaddr hdaddr
    obtain ⟨-, hout, -⟩ := hcrossed harr
    obtain ⟨hdev, hin, -⟩ := hcrossed harr'
    refine ⟨by rw [hdev, hback], ?_, ?_⟩
    · rw [hin.saddr, hsaddr, hout.daddr, otherNet_otherNet]
    · rw [hin.daddr, hdaddr, hout.saddr, otherNet_otherNet]

/-- **IP across the ghost ring.** In the ghost build, from the factory addresses, over every
interleaving of packets, changes of address and polls in which the link is steady. -/
theorem ghost_net_crosses (b : Build) (hb : b.ghost = true) (hcsum : b.ipFastCsum = rfc1071)
    (ethTypeTrans : EthAddr → List UInt8 → PktType) (htype : KnowsHost ethTypeTrans)
    (d : Driver) (n : Nat) (hn : 0 < n) (es : List NetEvent)
    (hes : Runs.Along (GhostNet.step b ethTypeTrans) GhostNet.Steady (GhostNet.init d n) es) :
    GhostLink (Runs.run (GhostNet.step b ethTypeTrans) (GhostNet.init d n) es) := by
  have hstep : ∀ s e, GhostNet.Inv d.stats n s → s.Steady e →
      GhostNet.Inv d.stats n (s.step b ethTypeTrans e) :=
    fun _ e h he => h.step hn hb hcsum htype e he
  exact (Runs.run_invariant hstep (GhostNet.Inv.init d n) hes).link

/-- A bare header from `saddr` to `daddr`. -/
def bareHeader (saddr daddr : IpAddr) : IpPacket where
  skb :=
    { data := fun i => if i = 0 then 0x45 else if h : 12 ≤ i ∧ i < 16 then saddr ⟨i - 12, by omega⟩
        else if h : 16 ≤ i ∧ i < 20 then daddr ⟨i - 16, by omega⟩ else 0
      len := 20 }
  header := show 5 ≤ (0x45 &&& 0x0f : UInt8).toNat by decide
  whole := show 4 * (0x45 &&& 0x0f : UInt8).toNat ≤ (20 : UInt32).toNat by decide
  mtu := show (20 : UInt32).toNat ≤ 1500 by decide

/-- The ghost build with the RFC 1071 sum. -/
def ghostNetBuild : Build := ⟨true, false, rfc1071⟩

/-- `eth_type_trans` as Linux has it. -/
def linuxEthTypeTrans (devAddr : EthAddr) (bytes : List UInt8) : PktType :=
  if isMulticastEtherAddr (hDest bytes) then
    if hDest bytes = fun _ => 0xff then .broadcast else .multicast
  else if hDest bytes = devAddr then .host
  else .otherhost

/-- It has the one property that is relied on. -/
theorem knowsHost_linuxEthTypeTrans : KnowsHost linuxEthTypeTrans := by
  intro devAddr bytes hunicast h
  unfold linuxEthTypeTrans
  rw [h, if_neg hunicast, if_pos rfl]

/-- 10.0.0.1 asks 10.0.0.2, which is 10.0.1.2 to the other end. The addresses of the pair change, and the
answer goes back; it is sent twice, and there is no skb for the first. -/
def askAndAnswer : List NetEvent :=
  [.send 0 (bareHeader ![10, 0, 0, 1] ![10, 0, 0, 2]) (fun _ => 0) none false,
    .pollStart 64, .pollTurn true,
    .setMac 0 ![2, 0, 0, 4, 0, 0], .setMac 1 ![2, 0, 0, 5, 0, 0],
    .send 1 (bareHeader ![10, 0, 1, 2] ![10, 0, 1, 1]) (fun _ => 0) none true,
    .send 1 (bareHeader ![10, 0, 1, 2] ![10, 0, 1, 1]) (fun _ => 0) none true,
    .pollTurn false, .pollTurn true]

/-- A packet, one that is dropped for want of an skb, and an answer: the run is steady, and what
was said of the link can be read off it. -/
theorem ghost_net_crosses_answer :
    Runs.Along (GhostNet.step ghostNetBuild linuxEthTypeTrans) GhostNet.Steady
        (GhostNet.init plainDriver 4) askAndAnswer
      ∧ GhostLink (Runs.run (GhostNet.step ghostNetBuild linuxEthTypeTrans)
          (GhostNet.init plainDriver 4) askAndAnswer)
      ∧ (Runs.run (GhostNet.step ghostNetBuild linuxEthTypeTrans) (GhostNet.init plainDriver 4)
          askAndAnswer).heard = [some .host, none, some .host] := by
  have hsteady : Runs.Along (GhostNet.step ghostNetBuild linuxEthTypeTrans) GhostNet.Steady
      (GhostNet.init plainDriver 4) askAndAnswer := by
    decide +kernel
  refine ⟨hsteady, ?_, by decide +kernel⟩
  exact ghost_net_crosses ghostNetBuild rfl rfl linuxEthTypeTrans knowsHost_linuxEthTypeTrans plainDriver
    4 (by decide) askAndAnswer hsteady

end Nf10
