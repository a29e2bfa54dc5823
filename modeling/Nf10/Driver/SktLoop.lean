import Nf10.Driver.Board

/-!
# Nf10 — packets out on one port and in on another

What `raw_skt_loopback.py` tests, in the hardware build, with `DRIVER_LOOPB` or without: packets are sent
through the four interfaces, go out of the board, come back on the ports they are cabled to, and go up on
the interfaces of those. "Check that the received packets are exactly the ones we sent in, and that we
received the packet on the expected interface according to the cabling."

The test sends one packet at a time. Here the transmit calls, the two sides of the device and the turns of
the poll come in any order, over the board of `Nf10.Driver.Board`, which loses nothing.

* **`SktLoop`** — the board with the packets sent through it;
* **`raw_skt_loopback`** — what the `k`-th packet to come up on an interface is.
-/

namespace Nf10

open Lanes

/-- The board, and the packets of the messages accepted. -/
structure SktLoop extends LoopBoard where
  sent : List (Option Iface × SkBuff)

/-- A transmit call, the device reading a slot or filling one with the next packet from port `i`, or a
step of the poll. -/
inductive SktEvent where
  | startXmit (skb : SkBuff) (netdev : Nat)
  | hwConsume
  | hwReturn (i : Iface) (f : { f : Frame // f.Sized })
  | pollStart (budget : Int)
  | pollTurn (skbOk : Bool)

/-- The netdev a packet came up on, or was dropped for. -/
def TakenBy.netdev : TakenBy → Option Nat
  | .poll (.delivered netdev _) => some netdev
  | .poll (.noSkb netdev) => some netdev
  | .poll .badOpcode => none
  | .dmaRx _ => none

namespace SktLoop

/-- From `probe`, with nothing sent. -/
def init (d : Driver) (n : Nat) : SktLoop :=
  ⟨LoopBoard.init d n, []⟩

/-- A packet from a raw socket. It is on record with its interface if it was accepted. -/
def startXmit (b : Build) (s : SktLoop) (skb : SkBuff) (netdev : Nat) : SktLoop :=
  let r := nf10NdoStartXmit b s.driver skb netdev
  { s with
    driver := r.1
    accepted := s.accepted ++ r.2.message.toList
    sent := s.sent ++ r.2.message.toList.map fun _ =>
      (getIfaceFromNetdev s.driver.nf10Netdevs netdev, skb) }

/-- The board with the receive side of a system that took a step on it. -/
def setRx (s : SktLoop) (r : RxSys) : SktLoop :=
  { s with driver := r.driver, poll := r.poll, taken := r.taken }

/-- A packet is sent, the board takes or returns one, or a poll makes a turn. -/
def step (b : Build) (cabling : Iface → Iface) (s : SktLoop) : SktEvent → SktLoop
  | .startXmit skb netdev => s.startXmit b skb netdev
  | .hwConsume => { s with toLoopBoard := s.toLoopBoard.hwConsume }
  | .hwReturn i f => { s with toLoopBoard := s.toLoopBoard.hwReturn cabling i f.val }
  | .pollStart budget => s.setRx (s.rx.step b (.pollStart budget))
  | .pollTurn skbOk => s.setRx (s.rx.pollTurn b skbOk)

/-- The packets accepted on interface `i`. -/
def sentOn (s : SktLoop) (i : Iface) : List SkBuff :=
  lane (some i) s.sent

/-- What came up on interface `j`, or was dropped for it. -/
def cameUp (s : SktLoop) (j : Iface) : List TakenBy :=
  lane (some (s.driver.nf10Netdevs.dev j)) (s.taken.map fun t => (t.2.netdev, t.2))

end SktLoop

/-- The bytes that the driver gives to the device. -/
def sentBytes (b : Build) (skb : SkBuff) : List UInt8 :=
  readMem (xmitData b skb) 0 skb.len.toNat

/-- The packet came up as it was sent, or was dropped for want of an skb. -/
def Came (b : Build) (netdev : Nat) (skb : SkBuff) (t : TakenBy) : Prop :=
  t = .poll (.delivered netdev (padded (sentBytes b skb))) ∨ t = .poll (.noSkb netdev)

/-! ## What one call does

The two calls of the test, on the record of the board: a packet that is accepted, and a frame that a
poll takes. -/

/-- The message of a packet. -/
structure SentAs (b : Build) (m : Message) (skb : SkBuff) : Prop where
  bytes : m.bytes = sentBytes b skb
  fits : m.bytes.length ≤ nf10PktSizeMax.toNat

/-- What a transmit call accepts goes out under the opcode of its interface. -/
theorem nf10NdoStartXmit_message {b : Build} (hb : b.ghost = false) {d : Driver} (hup : d.HwUp)
    (skb : SkBuff) (netdev : Nat) {m : Message}
    (h : (nf10NdoStartXmit b d skb netdev).2.message = some m) :
    txGetSrcIface m.opCode = getIfaceFromNetdev d.nf10Netdevs netdev ∧ SentAs b m skb := by
  obtain ⟨iface, hsend, hiface, _, heq⟩ | ⟨_, _, heq⟩ | ⟨_, _, _, hnone, heq⟩ :=
    nf10NdoStartXmit_cases hb hup skb netdev
  · rw [heq] at h
    cases h
    refine ⟨(txGetSrcIface_txSetSrcIface iface).trans hiface.symm, rfl, ?_⟩
    rw [messageOf, length_readMem]
    exact UInt32.le_iff_toNat_le.mp hsend.2.1
  · rw [heq] at h
    cases h
  · rw [heq] at h
    exact absurd (hnone.symm.trans h) (by simp)

/-- A transmit call does not touch the RX side. -/
theorem nf10NdoStartXmit_rx {b : Build} (hb : b.ghost = false) {d : Driver} (hup : d.HwUp)
    (skb : SkBuff) (netdev : Nat) :
    (nf10NdoStartXmit b d skb netdev).1.rxDmaStream = d.rxDmaStream
      ∧ (nf10NdoStartXmit b d skb netdev).1.dmaCpuBufs = d.dmaCpuBufs
      ∧ (nf10NdoStartXmit b d skb netdev).1.nf10Netdevs = d.nf10Netdevs := by
  obtain ⟨_, _, _, _, heq⟩ | ⟨_, _, heq⟩ | ⟨_, _, _, _, heq⟩ :=
    nf10NdoStartXmit_cases hb hup skb netdev
  all_goals
    rw [heq]
    exact ⟨rfl, rfl, rfl⟩

/-- Nor does the poll the TX side. -/
theorem pollIteration_tx (b : Build) (d : Driver) (c : PollCall) (skbOk : Bool) :
    (pollIteration b d c skbOk).1.txDmaStream = d.txDmaStream
      ∧ (pollIteration b d c skbOk).1.hwState = d.hwState := by
  simp [pollIteration, Driver.retire]

/-! ## The invariant

The invariant of the board, with the packets behind the messages. -/

/-- The board is sound, and the poll's copy of the index is the stream's. The messages accepted are the
packets sent. -/
structure SktInv (b : Build) (cabling : Iface → Iface) (n : Nat) (s : SktLoop) : Prop where
  board : BoardInv cabling n s.toLoopBoard
  upToDate : ∀ c ∈ s.poll, c.bufIndex = s.driver.rxDmaStream.bufIndex
  accepted : List.Forall₂ (fun m snt => txGetSrcIface m.opCode = snt.1 ∧ SentAs b m snt.2)
    s.accepted s.sent
  polled : ∀ t ∈ s.taken, ∃ fate, t.2 = .poll fate

namespace SktInv

variable {b : Build} {cabling : Iface → Iface} {n : Nat} {s : SktLoop}

theorem init (b : Build) (cabling : Iface → Iface) (d : Driver) (n : Nat) :
    SktInv b cabling n (SktLoop.init d n) where
  board := BoardInv.init cabling d n
  upToDate := fun _ h => nomatch h
  accepted := .nil
  polled := fun _ h => nomatch h

/-- A packet accepted is on the ring with its interface in the opcode. -/
theorem startXmit (hb : b.ghost = false) (hn : 0 < n) (h : SktInv b cabling n s) (skb : SkBuff)
    (netdev : Nat) : SktInv b cabling n (s.startXmit b skb netdev) := by
  obtain ⟨hrx, hsize, hdevs⟩ := nf10NdoStartXmit_rx hb h.board.tx.up skb netdev
  refine ⟨h.board.setTx (h.board.tx.step hb hn (.startXmit skb netdev)) hrx hsize hdevs, ?_, ?_,
    h.polled⟩
  · intro c hc
    rw [h.upToDate c hc]
    exact congrArg DmaStream.bufIndex hrx.symm
  · simp only [SktLoop.startXmit]
    cases hm : (nf10NdoStartXmit b s.driver skb netdev).2.message with
    | none => simpa using h.accepted
    | some m =>
      exact List.rel_append h.accepted (.cons (nf10NdoStartXmit_message hb h.board.tx.up skb netdev hm) .nil)

theorem hwConsume (hn : 0 < n) (h : SktInv b cabling n s) :
    SktInv b cabling n { s with toLoopBoard := s.toLoopBoard.hwConsume } := by
  obtain ⟨hrx, -⟩ := s.tx.hwConsume_frame
  refine ⟨h.board.hwConsume hn, ?_, h.accepted, h.polled⟩
  intro c hc
  rw [h.upToDate c hc]
  exact congrArg DmaStream.bufIndex hrx.symm

theorem hwReturn (hn : 0 < n) (h : SktInv b cabling n s) (i : Iface) {f : Frame} (hf : f.Sized) :
    SktInv b cabling n { s with toLoopBoard := s.toLoopBoard.hwReturn cabling i f } := by
  obtain ⟨haccepted, htaken, hpoll, hindex⟩ := BoardInv.hwReturn_frame cabling s.toLoopBoard i f
  refine ⟨h.board.hwReturn hn i hf, ?_, ?_, ?_⟩
  · intro c hc
    rw [hindex]
    exact h.upToDate c (hpoll ▸ hc)
  · dsimp only
    rw [haccepted]
    exact h.accepted
  · dsimp only
    rw [htaken]
    exact h.polled

/-- A poll takes the oldest frame from the ring, and it is the only consumer here. -/
theorem pollTurn (hb : b.ghost = false) (hn : 0 < n) (h : SktInv b cabling n s) (skbOk : Bool) :
    SktInv b cabling n (s.setRx (s.rx.pollTurn b skbOk)) := by
  have hrx := h.board.rx.pollTurn hn hb skbOk fun c hc _ => h.upToDate c hc
  unfold RxSys.pollTurn at hrx ⊢
  split
  · exact h
  next c hc =>
  rw [hc] at hrx
  split
  · next htest =>
    simp only [htest, if_true] at hrx
    obtain ⟨htx, hstate⟩ := pollIteration_tx b s.driver c skbOk
    refine ⟨h.board.setRx hrx htx hstate, ?_, h.accepted, ?_⟩
    · intro c' hc'
      cases hc'
      rfl
    · intro t ht
      rcases List.mem_append.mp ht with hold | hnew
      · exact h.polled t hold
      · exact ⟨_, congrArg Prod.snd (List.mem_singleton.mp hnew)⟩
  · exact ⟨h.board.setRx (h.board.rx.setPoll none) rfl rfl, (fun _ hc' => nomatch hc'), h.accepted,
      h.polled⟩

/-- **The step lemma.** One case for each event. -/
theorem step (hb : b.ghost = false) (hn : 0 < n) (h : SktInv b cabling n s) (e : SktEvent) :
    SktInv b cabling n (s.step b cabling e) := by
  cases e with
  | startXmit skb netdev => exact h.startXmit hb hn skb netdev
  | hwConsume => exact h.hwConsume hn
  | hwReturn i f => exact h.hwReturn hn i f.property
  | pollStart budget =>
    simp only [SktLoop.step, RxSys.step]
    split
    · refine ⟨h.board.setRx (h.board.rx.setPoll _) rfl rfl, ?_, h.accepted, h.polled⟩
      intro c hc
      cases hc
      rfl
    · exact h
  | pollTurn skbOk => exact h.pollTurn hb hn skbOk

end SktInv

/-! ## What came up

From the frames taken, lane by lane, to the packets of one pair of ports. -/

section CameUp

variable {b : Build} {cabling : Iface → Iface} {n : Nat} {s : SktLoop}

/-- A frame that brings a packet back goes up on the netdev at the other end of the cable. -/
theorem came_of_brings {devs : Netdevs} {i : Iface} {m : Message} {skb : SkBuff} {f : Frame}
    {fate : Fate} (hsent : SentAs b m skb) (hbrings : Brings cabling m f)
    (hi : txGetSrcIface m.opCode = some i) (hfate : FateOk devs f (.poll fate)) :
    Came b (devs.dev (cabling i)) skb (.poll fate) := by
  have hop := hbrings.1
  rw [hi, Option.map_some] at hop
  cases fate with
  | badOpcode => exact absurd (hop.symm.trans hfate) (by simp)
  | noSkb netdev =>
    obtain ⟨j, hj, rfl⟩ := hfate
    rw [hop] at hj
    cases hj
    exact Or.inr rfl
  | delivered netdev bytes =>
    obtain ⟨⟨j, hj, rfl⟩, hcarries⟩ := hfate
    rw [hop] at hj
    cases hj
    have hfits : m.bytes.length ≤ dmaBufSize := Nat.le_trans hsent.fits (by decide)
    rw [hcarries.of_brings hbrings hfits, hsent.bytes]
    exact Or.inl rfl

/-- The `k`-th frame taken that was sent on `i` is the `k`-th packet accepted on `i`, as it came up. -/
theorem SktInv.taken_came (h : SktInv b cabling n s) {i : Iface} {k : Nat} {t : Frame × TakenBy}
    (ht : (lane (some i) s.takenFrom)[k]? = some t) :
    ∃ skb, (s.sentOn i)[k]? = some skb ∧ Came b (s.driver.nf10Netdevs.dev (cabling i)) skb t.2 := by
  obtain ⟨skb, m, hskb, hsent, hbrings, htag⟩ := h.board.takenFrom_sent h.accepted ht
  have hmem : t ∈ s.taken := (List.of_mem_zip (mem_lane.mp (List.mem_of_getElem? ht))).2
  obtain ⟨fate, hfate⟩ := h.polled t hmem
  have hok := h.board.rx.fates t hmem
  rw [hfate] at hok ⊢
  exact ⟨skb, hskb, came_of_brings hsent hbrings htag hok⟩

/-- Delivered or dropped, it was on the one netdev. -/
theorem Came.netdev {netdev : Nat} {skb : SkBuff} {t : TakenBy} (h : Came b netdev skb t) :
    t.netdev = some netdev := by
  rcases h with rfl | rfl
  · rfl
  · rfl

/-- By the netdevs they came up on or by the ports they were sent from: the same lanes. -/
theorem SktInv.cameUp_eq (h : SktInv b cabling n s) (hcab : Function.Injective cabling) (i : Iface) :
    s.cameUp (cabling i) = (lane (some i) s.takenFrom).map Prod.snd := by
  have hinj : Function.Injective (Option.map fun i => s.driver.nf10Netdevs.dev (cabling i)) :=
    Option.map_injective (s.driver.nf10Netdevs.distinct.comp hcab)
  have hkeys : (s.taken.map fun t => (t.2.netdev, t.2)) = s.takenFrom.map fun x =>
      (x.1.map fun i => s.driver.nf10Netdevs.dev (cabling i), x.2.2) := by
    rw [← h.board.map_snd_takenFrom, List.map_map]
    apply List.map_congr_left
    intro x hx
    obtain ⟨j, -, hj⟩ := List.mem_map.mp (List.of_mem_zip hx).1
    obtain ⟨k, hk⟩ := List.getElem?_of_mem (mem_lane.mpr hx)
    rw [← hj] at hk ⊢
    obtain ⟨_, -, hcame⟩ := h.taken_came hk
    exact congrArg (·, x.2.2) hcame.netdev
  unfold SktLoop.cameUp
  rw [hkeys]
  exact lane_map hinj Prod.snd (some i) s.takenFrom

end CameUp

/-- **The raw socket test.** In the hardware build, from the streams as `probe` sets them up, whatever the
cables and the order of the steps: the `k`-th packet to come up on the interface at the other end of the
cable from `i` is the `k`-th packet accepted on `i`, padded to 60 bytes. -/
theorem raw_skt_loopback (b : Build) (hb : b.ghost = false) (cabling : Iface → Iface)
    (hcab : Function.Injective cabling) (d : Driver) (n : Nat) (hn : 0 < n) (es : List SktEvent)
    (i : Iface) (k : Nat) (t : TakenBy)
    (ht : ((Runs.run (SktLoop.step b cabling) (SktLoop.init d n) es).cameUp (cabling i))[k]? = some t) :
    ∃ skb, ((Runs.run (SktLoop.step b cabling) (SktLoop.init d n) es).sentOn i)[k]? = some skb
      ∧ Came b ((Runs.run (SktLoop.step b cabling) (SktLoop.init d n) es).driver.nf10Netdevs.dev
          (cabling i)) skb t := by
  have hstep : ∀ s e, SktInv b cabling n s → SktInv b cabling n (s.step b cabling e) :=
    fun _ e h => h.step hb hn e
  have hinv := Runs.run_invariant_of_step hstep (SktInv.init b cabling d n) es
  rw [hinv.cameUp_eq hcab i, List.getElem?_map] at ht
  obtain ⟨ft, hft, rfl⟩ := Option.map_eq_some_iff.mp ht
  exact hinv.taken_came hft

/-- 33 bytes, as they come back. -/
def frame33 : { f : Frame // f.Sized } :=
  ⟨⟨List.replicate 33 7 ++ List.replicate (dmaBufSize - 33) 0, ⟨60, opcodeCpu1, 0, 0⟩⟩, by
    rw [Frame.Sized, List.length_append, List.length_replicate, List.length_replicate]
    rfl⟩

/-- Out on `nf0`, in on `nf1`. -/
def crossing : List SktEvent :=
  [.startXmit ⟨fun _ => 7, 33⟩ 0, .hwConsume, .hwReturn 0 frame33, .pollStart 64, .pollTurn true]

/-- Two ports cabled to each other, and a packet of 33 bytes: it comes up on the other one with 27
zeros behind it. -/
theorem raw_skt_loopback_short :
    ((Runs.run (SktLoop.step plainBuild (· ^^^ 1)) (SktLoop.init plainDriver 2) crossing).cameUp 1)[0]?
        = some (.poll (.delivered 1 (List.replicate 33 7 ++ List.replicate 27 0)))
      ∧ ∃ skb, ((Runs.run (SktLoop.step plainBuild (· ^^^ 1)) (SktLoop.init plainDriver 2)
          crossing).sentOn 0)[0]? = some skb
        ∧ Came plainBuild 1 skb (.poll (.delivered 1 (List.replicate 33 7 ++ List.replicate 27 0))) := by
  have hcame : ((Runs.run (SktLoop.step plainBuild (· ^^^ 1)) (SktLoop.init plainDriver 2)
      crossing).cameUp 1)[0]?
        = some (.poll (.delivered 1 (List.replicate 33 7 ++ List.replicate 27 0))) := by
    decide +kernel
  refine ⟨hcame, ?_⟩
  exact raw_skt_loopback plainBuild rfl (· ^^^ 1) (by decide) plainDriver 2 (by decide) crossing 0 0 _ hcame

end Nf10
