import Nf10.Driver.RxRing
import Nf10.Driver.TxRing
import Nf10.Lib.Lanes

/-!
# Nf10 — the board between the two rings

The hardware tests run on a board whose ports are cabled to each other: what the device reads from the
TX ring goes out on the port that its opcode names, comes in on the port at the other end of the cable,
and is written to the RX ring. Two of them are modelled, `driver_ctrl_dma_rand.py` (`Nf10.Driver.CtrlLoop`)
and `raw_skt_loopback.py` (`Nf10.Driver.SktLoop`), and this is what they have in common.

The board is not among the sources. It loses nothing, it pads a short packet as the tests say it does, it
keeps the packets of each port in order (`Lanes`), and no other order.

* **`LoopBoard`** — the TX system and the RX system over one driver, with the cables between them;
* **`BoardInv`** — both rings are sound, and the board has given back, port by port, what it was given;
* **`BoardInv.takenFrom_brings`** — which message a frame taken from the RX ring brings back.
-/

namespace Nf10

open Lanes

/-- The interface that a transmitted packet comes from, in the same bits as the destination of a received
one. -/
def txGetSrcIface (opcode : UInt32) : Option Iface :=
  rxGetDstIface opcode

/-- An interface survives the way through the opcode. -/
theorem txGetSrcIface_txSetSrcIface (i : Iface) : txGetSrcIface (txSetSrcIface 0 i) = some i :=
  rxGetDstIface_rxSetDstIface i

/-- "Hardware MAC extends pkts to min len 60 with 0 pad". -/
def padded (bytes : List UInt8) : List UInt8 :=
  bytes ++ List.replicate (60 - bytes.length) 0

/-- A short frame comes back as 60 bytes, a long one as it is. -/
theorem length_padded (bytes : List UInt8) : (padded bytes).length = max 60 bytes.length := by
  rw [padded, List.length_append, List.length_replicate]
  omega

/-- A frame that brings a message back: on the port that the cable leads to. -/
def Brings (cabling : Iface → Iface) (m : Message) (f : Frame) : Prop :=
  rxGetDstIface f.metadata.opCode = (txGetSrcIface m.opCode).map cabling
    ∧ f.metadata.length.toNat = (padded m.bytes).length
    ∧ f.buffer.take (padded m.bytes).length = padded m.bytes

instance (cabling : Iface → Iface) (m : Message) (f : Frame) : Decidable (Brings cabling m f) :=
  inferInstanceAs (Decidable (_ ∧ _ ∧ _))

/-! ## The board

One board for both test programs: the messages it has taken from the TX ring, and the frames it has
returned, with the port each came from. -/

/-- The driver, a running poll if there is one, the device's position in either ring, and the histories
of the four ends. -/
structure LoopBoard where
  driver : Driver
  poll : Option PollCall
  -- The device's slot in either ring, and the doorbell writes it has used up.
  txIndex : Nat
  txUsed : Nat
  rxIndex : Nat
  accepted : List Message
  consumed : List Message
  produced : List Frame
  taken : List (Frame × TakenBy)
  -- The ports that the frames produced were sent from.
  origins : List Iface

namespace LoopBoard

/-- From `probe`, with nothing on the board. -/
def init (d : Driver) (n : Nat) : LoopBoard where
  driver := probeStreams d n
  poll := none
  txIndex := 0
  txUsed := 0
  rxIndex := 0
  accepted := []
  consumed := []
  produced := []
  taken := []
  origins := []

/-- One half of the board, as `Nf10.Driver.TxRing` has it. -/
def tx (s : LoopBoard) : TxSys :=
  ⟨s.driver, s.txIndex, s.txUsed, s.accepted, s.consumed⟩

/-- The other half, as `Nf10.Driver.RxRing` has it. -/
def rx (s : LoopBoard) : RxSys :=
  ⟨s.driver, s.poll, s.rxIndex, s.produced, s.taken⟩

/-- What the board was given, by port. -/
def given (s : LoopBoard) : List (Option Iface × Message) :=
  s.consumed.map fun m => (txGetSrcIface m.opCode, m)

/-- What it gave back, by the port it was sent from. -/
def returned (s : LoopBoard) : List (Option Iface × Frame) :=
  (s.origins.map some).zip s.produced

/-- The frames taken, with the ports that they were sent from. -/
def takenFrom (s : LoopBoard) : List (Option Iface × (Frame × TakenBy)) :=
  (s.origins.map some).zip s.taken

/-- The device reads a slot. -/
def hwConsume (s : LoopBoard) : LoopBoard :=
  let t := s.tx.hwConsume
  { s with driver := t.driver, txIndex := t.hwIndex, txUsed := t.hwUsed, consumed := t.consumed }

/-- The device fills a slot with the next packet from port `i`. -/
def hwReturn (cabling : Iface → Iface) (s : LoopBoard) (i : Iface) (f : Frame) : LoopBoard :=
  match (lane (some i) s.given)[(lane (some i) s.returned).length]? with
  | none => s
  | some m =>
    if 0 < s.rx.credits ∧ Brings cabling m f then
      let r := s.rx.hwProduce f
      { s with
        driver := r.driver
        rxIndex := r.hwIndex
        produced := r.produced
        origins := s.origins ++ [i] }
    else s

end LoopBoard

/-! ## The invariant

Both rings keep their invariants, and what the board returns on a port is what was given to it on
the port at the other end of the cable, in order. -/

/-- Both rings are sound. The board has given back, port by port, what it was given. -/
structure BoardInv (cabling : Iface → Iface) (n : Nat) (s : LoopBoard) : Prop where
  tx : TxInv n s.tx
  rx : RxInv n s.rx
  origins : s.origins.length = s.produced.length
  returned : Follows (Brings cabling) s.returned s.given

namespace BoardInv

variable {cabling : Iface → Iface} {n : Nat} {s : LoopBoard}

theorem init (cabling : Iface → Iface) (d : Driver) (n : Nat) :
    BoardInv cabling n (LoopBoard.init d n) where
  tx := TxInv.init d n
  rx := RxInv.init d n
  origins := rfl
  returned := follows_nil _ _

/-- A step of the TX side, which accepts what it accepts and leaves the RX side alone. -/
theorem setTx (h : BoardInv cabling n s) {d : Driver} {accepted : List Message}
    (htx : TxInv n ⟨d, s.txIndex, s.txUsed, accepted, s.consumed⟩)
    (hrx : d.rxDmaStream = s.driver.rxDmaStream) (hsize : d.dmaCpuBufs = s.driver.dmaCpuBufs)
    (hdevs : d.nf10Netdevs = s.driver.nf10Netdevs) :
    BoardInv cabling n { s with driver := d, accepted := accepted } :=
  ⟨htx, h.rx.congr hrx hsize hdevs, h.origins, h.returned⟩

/-- A step of the RX side, which takes what it takes and leaves the TX side alone. -/
theorem setRx (h : BoardInv cabling n s) {d : Driver} {poll : Option PollCall}
    {taken : List (Frame × TakenBy)} (hrx : RxInv n ⟨d, poll, s.rxIndex, s.produced, taken⟩)
    (htx : d.txDmaStream = s.driver.txDmaStream) (hstate : d.hwState = s.driver.hwState) :
    BoardInv cabling n { s with driver := d, poll := poll, taken := taken } := by
  have hup : d.HwUp := by
    unfold Driver.HwUp
    rw [hstate]
    exact h.tx.up
  exact ⟨h.tx.refuse hrx.size hup htx, hrx, h.origins, h.returned⟩

/-- The board takes a message from the TX ring. -/
theorem hwConsume (hn : 0 < n) (h : BoardInv cabling n s) : BoardInv cabling n s.hwConsume := by
  have htx := h.tx.hwConsume hn
  obtain ⟨hrx, hsize, hdevs, hacc, hcons⟩ := s.tx.hwConsume_frame
  refine ⟨?_, h.rx.congr hrx hsize hdevs, h.origins, h.returned.put (hcons.map _)⟩
  have hsys : s.hwConsume.tx = { s.tx.hwConsume with accepted := s.accepted } := rfl
  rw [hsys, show s.accepted = s.tx.hwConsume.accepted from hacc.symm]
  exact htx

/-- The oldest packet of port `i` that is still on its way comes back, if there is a free slot. -/
theorem hwReturn (hn : 0 < n) (h : BoardInv cabling n s) (i : Iface) {f : Frame} (hf : f.Sized) :
    BoardInv cabling n (s.hwReturn cabling i f) := by
  unfold LoopBoard.hwReturn
  split
  · exact h
  next m hm =>
  split
  · next hgo =>
    obtain ⟨hcredit, hbrings⟩ := hgo
    have hrx := h.rx.hwProduce hn hf
    have hprod : s.rx.hwProduce f = { s.rx with
        driver := { s.driver with rxDmaStream := s.driver.rxDmaStream.hwFill s.rxIndex f }
        hwIndex := CircularQueue.next s.driver.dmaCpuBufs s.rxIndex
        produced := s.produced ++ [f] } := if_pos hcredit
    rw [hprod] at hrx ⊢
    refine ⟨h.tx.refuse h.tx.size h.tx.up rfl, hrx, ?_, ?_⟩
    · rw [List.length_append, List.length_append, h.origins]
      rfl
    · have hzip : ((s.origins ++ [i]).map some).zip (s.produced ++ [f])
          = s.returned ++ [(some i, f)] := by
        rw [List.map_append, List.zip_append (by rw [List.length_map, h.origins])]
        rfl
      show Follows _ (((s.origins ++ [i]).map some).zip (s.produced ++ [f])) s.given
      rw [hzip]
      exact h.returned.take hm hbrings
  · exact h

/-- A frame that the board returns concerns the RX ring only. -/
theorem hwReturn_frame (cabling : Iface → Iface) (s : LoopBoard) (i : Iface) (f : Frame) :
    (s.hwReturn cabling i f).accepted = s.accepted
      ∧ (s.hwReturn cabling i f).taken = s.taken
      ∧ (s.hwReturn cabling i f).poll = s.poll
      ∧ (s.hwReturn cabling i f).driver.rxDmaStream.bufIndex = s.driver.rxDmaStream.bufIndex := by
  unfold LoopBoard.hwReturn RxSys.hwProduce
  split
  · exact ⟨rfl, rfl, rfl, rfl⟩
  split
  · dsimp only
    split
    · exact ⟨rfl, rfl, rfl, rfl⟩
    · exact ⟨rfl, rfl, rfl, rfl⟩
  · exact ⟨rfl, rfl, rfl, rfl⟩

/-! ### Frames taken

The frames taken by the driver, each with the port it was sent from. This is where the order of one
port is read off the order of all. -/

/-- The frames taken are among those the board returned. -/
theorem length_taken_le (h : BoardInv cabling n s) : s.taken.length ≤ (s.origins.map some).length := by
  have hle := h.rx.inOrder.length_le
  rw [List.length_map] at hle
  rw [List.length_map, h.origins]
  exact hle

/-- Tagging the frames taken with their port of origin adds nothing and drops nothing. -/
theorem map_snd_takenFrom (h : BoardInv cabling n s) : s.takenFrom.map Prod.snd = s.taken :=
  List.map_snd_zip h.length_taken_le

/-- The frames taken are the first of those returned, with the ports they came from. -/
theorem takenFrom_returned (h : BoardInv cabling n s) :
    (s.takenFrom.map fun x => (x.1, x.2.1)) <+: s.returned := by
  have hzip : (s.takenFrom.map fun x => (x.1, x.2.1))
      = (s.origins.map some).zip (s.taken.map Prod.fst) := by
    rw [LoopBoard.takenFrom, List.zip_map_right]
    rfl
  rw [hzip]
  exact zip_prefix (s.origins.map some) h.rx.inOrder

/-- **Entry by entry**: the `k`-th frame taken that was sent from a port brings back the `k`-th message
accepted for it. -/
theorem takenFrom_brings (h : BoardInv cabling n s) {o : Option Iface} {k : Nat}
    {t : Frame × TakenBy} (ht : (lane o s.takenFrom)[k]? = some t) :
    ∃ m, (lane o (s.accepted.map fun m => (txGetSrcIface m.opCode, m)))[k]? = some m
      ∧ Brings cabling m t.1 ∧ txGetSrcIface m.opCode = o := by
  have hgiven : s.given <+: s.accepted.map fun m => (txGetSrcIface m.opCode, m) :=
    h.tx.inOrder.map _
  have hframes := (h.returned.put hgiven).earlier h.takenFrom_returned
  have hlane : lane o (s.takenFrom.map fun x => (x.1, x.2.1)) = (lane o s.takenFrom).map Prod.fst :=
    lane_map (g := id) Function.injective_id Prod.fst o s.takenFrom
  obtain ⟨m, hm, hbrings⟩ := hframes o k t.1 (by rw [hlane, List.getElem?_map, ht, Option.map_some])
  refine ⟨m, hm, hbrings, ?_⟩
  obtain ⟨m', -, heq⟩ := List.mem_map.mp (mem_lane.mp (List.mem_of_getElem? hm))
  cases heq
  rfl

/-- The same down to what the messages were made of, for the packets or strings of a test. -/
theorem takenFrom_sent (h : BoardInv cabling n s) {α : Type} {S : Message → α → Prop}
    {sent : List (Option Iface × α)}
    (hsent : List.Forall₂ (fun m snt => txGetSrcIface m.opCode = snt.1 ∧ S m snt.2) s.accepted sent)
    {o : Option Iface} {k : Nat} {t : Frame × TakenBy} (ht : (lane o s.takenFrom)[k]? = some t) :
    ∃ a m, (lane o sent)[k]? = some a ∧ S m a ∧ Brings cabling m t.1
      ∧ txGetSrcIface m.opCode = o := by
  obtain ⟨m, hm, hbrings, htag⟩ := h.takenFrom_brings ht
  have hlanes : List.Forall₂ S
      (lane o (s.accepted.map fun m => (txGetSrcIface m.opCode, m))) (lane o sent) :=
    lane_forall₂ o (List.forall₂_map_left_iff.mpr hsent)
  obtain ⟨hk, rfl⟩ := List.getElem?_eq_some_iff.mp hm
  have hk' : k < (lane o sent).length := hlanes.length_eq ▸ hk
  exact ⟨_, _, List.getElem?_eq_getElem hk', hlanes.get hk hk', hbrings, htag⟩

/-- The port that a frame taken was sent from is where the cable of its own port leads. -/
theorem dst_of_takenFrom (h : BoardInv cabling n s) {x : Option Iface × (Frame × TakenBy)}
    (hx : x ∈ s.takenFrom) : rxGetDstIface x.2.1.metadata.opCode = x.1.map cabling := by
  obtain ⟨k, hk⟩ := List.getElem?_of_mem (mem_lane.mpr hx)
  obtain ⟨m, -, ⟨hop, -, -⟩, htag⟩ := h.takenFrom_brings hk
  rw [hop, htag]

/-- By the ports they came in on or by the ports they were sent from: the same lanes. -/
theorem lane_taken (h : BoardInv cabling n s) (hcab : Function.Injective cabling) {α : Type}
    (g : Frame × TakenBy → α) (i : Iface) :
    lane (some (cabling i)) (s.taken.map fun t => (rxGetDstIface t.1.metadata.opCode, g t))
      = (lane (some i) s.takenFrom).map g := by
  have hkeys : (s.taken.map fun t => (rxGetDstIface t.1.metadata.opCode, g t))
      = s.takenFrom.map fun x => (x.1.map cabling, g x.2) := by
    rw [← h.map_snd_takenFrom, List.map_map]
    apply List.map_congr_left
    intro x hx
    exact congrArg (·, g x.2) (h.dst_of_takenFrom hx)
  rw [hkeys]
  exact lane_map (Option.map_injective hcab) g (some i) s.takenFrom

end BoardInv

/-- What a frame carries that brings back a message of at most a buffer. -/
theorem Frame.Carries.of_brings {cabling : Iface → Iface} {m : Message} {f : Frame} {bytes : List UInt8}
    (h : f.Carries bytes) (hbrings : Brings cabling m f) (hfits : m.bytes.length ≤ dmaBufSize) :
    bytes = padded m.bytes := by
  obtain ⟨hlength, htake⟩ := h
  obtain ⟨-, hlen, hbytes⟩ := hbrings
  have hpadded := length_padded m.bytes
  have hbuf : dmaBufSize = 2048 := rfl
  rw [hlen] at hlength htake
  rwa [hbytes, List.take_of_length_le (by omega)] at htake

end Nf10
