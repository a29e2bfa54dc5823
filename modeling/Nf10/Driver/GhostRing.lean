import Nf10.Driver.Rings
import Nf10.Lib.Runs

/-!
# Nf10 — ghost mode

With `DRIVER_GHOST` there is no hardware: `enable_ghosting` lets the TX stream point into the RX
stream's region, `nf10_ghost_xmit` fills slots with flag 1 and the poll loop empties them. Producer
and consumer share the flags and nothing else; each keeps its own index.

* **`GhostSys`** — the two streams over one region, a running poll, and the two histories;
* **`GhostInv`** — the shared ring holds the packets accepted and not yet polled, and the poll's
  copy of the index is up to date, since nothing but the poll moves the RX index;
* **`ghost_ring_refines`** — ghost mode is a bounded queue between paired interfaces.
-/

namespace Nf10

open CircularQueue

/-! ## Two streams, one region

Under `DRIVER_GHOST` there is no hardware: the two streams are pointed to one region, the transmit
call sets the flag that the poll waits for, and the poll clears it. -/

/-- `enable_ghosting`, once `kmalloc` has given a region of `n` slots: flags 0, both indices 0, the
TX stream pointing where the RX stream points. -/
def enableGhosting (d : Driver) (n : Nat) : Driver :=
  let region : DmaRegion := { d.rxDmaStream.toDmaRegion with
    flags := fun i => if i < n then 0 else d.rxDmaStream.flags i }
  { d with
    dmaCpuBufs := n
    rxDmaStream := { d.rxDmaStream with toDmaRegion := region, bufIndex := 0 }
    txDmaStream := { d.txDmaStream with toDmaRegion := region, bufIndex := 0 } }

/-- A write through the TX stream is a write to the RX stream's region. -/
def Driver.aliasTx (d : Driver) : Driver :=
  { d with rxDmaStream := { d.rxDmaStream with toDmaRegion := d.txDmaStream.toDmaRegion } }

/-- A write through the RX stream is a write to the TX stream's region. -/
def Driver.aliasRx (d : Driver) : Driver :=
  { d with txDmaStream := { d.txDmaStream with toDmaRegion := d.rxDmaStream.toDmaRegion } }

/-- The driver, a running poll if there is one, and the histories: packets accepted, with the
interface they were sent on, and packets polled, with what became of them. -/
structure GhostSys where
  driver : Driver
  poll : Option PollCall
  accepted : List (Iface × Message)
  taken : List (Message × Fate)

/-- A step: a call of `nf10_ghost_xmit`, the entry of a poll, or one turn of its loop. -/
inductive GhostEvent where
  | xmit (skb : SkBuff) (netdev : Nat)
  | pollStart (budget : Int)
  | pollTurn (skbOk : Bool)

namespace GhostSys

/-- `enable_ghosting` with `n` buffers: one region, two streams on it, and no device. -/
def init (d : Driver) (n : Nat) : GhostSys where
  driver := enableGhosting d n
  poll := none
  accepted := []
  taken := []

/-- A packet that was put on the ring, with the interface it was sent on. -/
def admitted (src : Option Iface) (r : XmitResult) : List (Iface × Message) :=
  match src, r with
  | some i, .accepted m => [(i, m)]
  | _, _ => []

/-- A transmit call on the shared ring. Both streams point to the region, so the receive stream sees
what was stored. -/
def xmit (b : Build) (s : GhostSys) (skb : SkBuff) (netdev : Nat) : GhostSys :=
  let r := nf10GhostXmit b s.driver skb netdev
  { s with
    driver := r.1.aliasTx
    accepted := s.accepted ++ admitted (getIfaceFromNetdev s.driver.nf10Netdevs netdev) r.2 }

/-- An iteration of the poll on the shared ring; the transmit stream sees the flag it clears. -/
def pollTurn (b : Build) (s : GhostSys) (skbOk : Bool) : GhostSys :=
  match s.poll with
  | none => s
  | some c =>
    if pollTest s.driver c then
      let r := pollIteration b s.driver c skbOk
      { s with
        driver := r.1.aliasRx
        poll := some r.2.1
        taken := s.taken ++ [(s.driver.rxDmaStream.message c.bufIndex, r.2.2)] }
    else { s with poll := none }

/-- A call, or an iteration of a poll. -/
def step (b : Build) (s : GhostSys) : GhostEvent → GhostSys
  | .xmit skb netdev => s.xmit b skb netdev
  | .pollStart budget =>
    match s.poll with
    | none => { s with poll := some (pollStart s.driver budget) }
    | some _ => s
  | .pollTurn skbOk => s.pollTurn b skbOk

end GhostSys

/-! ## Spec lemmas

What the transmit call and the poll can do on the shared ring, as for the rings of the hardware
build. -/

/-- The packet fits a buffer and its netdev is one of the driver's. -/
def GhostSendable (d : Driver) (skb : SkBuff) (netdev : Nat) : Prop :=
  skb.len.toNat ≤ dmaBufSize ∧ (getIfaceFromNetdev d.nf10Netdevs netdev).isSome

/-- The TX stream after `nf10_ghost_xmit` has put a packet into its slot. -/
def DmaStream.ghostPut (s : DmaStream) (n : Nat) (b : Build) (skb : SkBuff) (srcIface : Iface) :
    DmaStream :=
  let data := switcharoo b.ipFastCsum skb.data
  ((s.fill data skb.len (rxSetDstIface 0 (srcIface.val ^^^ 1))).setFlag s.bufIndex 1).advance n

/-- **`nf10_ghost_xmit`.** A sendable packet goes into the slot at `buf_index` unless that has flag
1, and is then refused for space; any other packet is dropped. -/
theorem nf10GhostXmit_cases (b : Build) (d : Driver) (skb : SkBuff) (netdev : Nat) :
    (∃ i, GhostSendable d skb netdev ∧ getIfaceFromNetdev d.nf10Netdevs netdev = some i
      ∧ d.txDmaStream.flags d.txDmaStream.bufIndex ≠ 1
      ∧ nf10GhostXmit b d skb netdev
        = ({ d with txDmaStream := d.txDmaStream.ghostPut d.dmaCpuBufs b skb i
            }.countTxPacket netdev skb.len,
          .accepted (ghostMessage b skb i)))
    ∨ (GhostSendable d skb netdev ∧ d.txDmaStream.flags d.txDmaStream.bufIndex = 1
      ∧ nf10GhostXmit b d skb netdev = (d.countTxDropped netdev, .full))
    ∨ (¬ GhostSendable d skb netdev ∧ ∃ r : XmitResult, r ≠ .full ∧ (∀ m, r ≠ .accepted m)
      ∧ nf10GhostXmit b d skb netdev = (d.countTxDropped netdev, r)) := by
  unfold nf10GhostXmit
  -- the exits in the order of the source
  by_cases hlen : skb.len.toNat > dmaBufSize
  · rw [if_pos hlen]
    refine Or.inr (Or.inr ⟨?_, .tooLong, by decide, by simp, rfl⟩)
    rintro ⟨hfit, _⟩
    omega
  · rw [if_neg hlen]
    cases hi : getIfaceFromNetdev d.nf10Netdevs netdev with
    | none =>
      refine Or.inr (Or.inr ⟨?_, .noIface, by decide, by simp, rfl⟩)
      rintro ⟨_, hsome⟩
      simp [hi] at hsome
    | some i =>
      have hsend : GhostSendable d skb netdev := ⟨by omega, by simp [hi]⟩
      by_cases hfull : d.txDmaStream.flags d.txDmaStream.bufIndex = 1
      · exact Or.inr (Or.inl ⟨hsend, hfull, by simp [hfull]⟩)
      · refine Or.inl ⟨i, hsend, rfl, hfull, ?_⟩
        simp only [if_neg hfull]
        rfl

/-- A call that accepts nothing adds nothing to the history. -/
theorem GhostSys.admitted_eq_nil (src : Option Iface) {r : XmitResult}
    (hr : ∀ m, r ≠ .accepted m) : GhostSys.admitted src r = [] := by
  unfold GhostSys.admitted
  split
  · exact absurd rfl (hr _)
  · rfl

/-- The opcode of an accepted packet decodes to the interface paired with its source. -/
theorem rxGetDstIface_ghost (i : Iface) :
    rxGetDstIface (rxSetDstIface 0 (i.val ^^^ 1)) = some (i ^^^ 1) := by
  have hval : ∀ i : Iface, i.val ^^^ 1 = (i ^^^ 1).val := by decide
  rw [hval, rxGetDstIface_rxSetDstIface]

/-- A packet for interface `i` ends on that interface: delivered, or dropped there. -/
theorem pollFate_of_opCode {d : Driver} {slot : Nat} {i : Iface}
    (hop : rxGetDstIface (d.rxDmaStream.metadata slot).opCode = some i) (skbOk : Bool) :
    pollFate d slot skbOk = .delivered (d.nf10Netdevs.dev i) (d.rxDmaStream.message slot).bytes
      ∨ pollFate d slot skbOk = .noSkb (d.nf10Netdevs.dev i) := by
  unfold pollFate
  rw [hop]
  cases skbOk with
  | true => exact Or.inl rfl
  | false => exact Or.inr rfl

/-! ## The invariant

One history of packets: accepted by the transmit call, taken by the poll. Each is taken on the
netdev at the other end of its pair. -/

/-- A fate that is delivery on, or a drop counted for, the given netdev. -/
def Fate.EndsOn (m : Message) (netdev : Nat) (fate : Fate) : Prop :=
  fate = .delivered netdev m.bytes ∨ fate = .noSkb netdev

/-- A packet polled for one accepted on `i` is that packet, and ended on the interface paired with
`i`. -/
def GhostPair (devs : Netdevs) (a : Iface × Message) (t : Message × Fate) : Prop :=
  t.1 = a.2 ∧ t.2.EndsOn a.2 (devs.dev (a.1 ^^^ 1))

/-- Went up on this netdev. -/
def Fate.deliveredOn (netdev : Nat) : Fate → Bool
  | .delivered p _ => p == netdev
  | _ => false

/-- Was dropped on this netdev for want of an skb. -/
def Fate.droppedOn (netdev : Nat) : Fate → Bool
  | .noSkb p => p == netdev
  | _ => false

/-- The RX counters of every netdev stand at `base` plus the packets polled that ended there. -/
def RxCounted (base stats : Nat → NetDeviceStats) (taken : List (Message × Fate)) : Prop :=
  ∀ p, (stats p).rxPackets = (base p).rxPackets + taken.countP (fun t => t.2.deliveredOn p)
    ∧ (stats p).rxDropped = (base p).rxDropped + taken.countP (fun t => t.2.droppedOn p)

/-- The invariant over whole runs, from counters `base`. -/
structure GhostInv (base : Nat → NetDeviceStats) (n : Nat) (s : GhostSys) : Prop where
  size : s.driver.dmaCpuBufs = n
  aliased : s.driver.txDmaStream.toDmaRegion = s.driver.rxDmaStream.toDmaRegion
  ring : MsgRing 1 n (s.accepted.map Prod.snd) s.taken.length s.driver.txDmaStream.toDmaRegion
  tail : s.driver.txDmaStream.bufIndex = s.accepted.length % n
  head : s.driver.rxDmaStream.bufIndex = s.taken.length % n
  upToDate : ∀ c ∈ s.poll, c.bufIndex = s.driver.rxDmaStream.bufIndex
  opcodes : ∀ a ∈ s.accepted, a.2.opCode = rxSetDstIface 0 (a.1.val ^^^ 1)
  paired : ∀ k (ha : k < s.accepted.length) (ht : k < s.taken.length),
    GhostPair s.driver.nf10Netdevs s.accepted[k] s.taken[k]
  counted : RxCounted base s.driver.stats s.taken

/-- A packet refused on the way out is no matter for the receive counters. -/
theorem RxCounted.countTxDropped {base : Nat → NetDeviceStats} {d : Driver}
    {taken : List (Message × Fate)} (h : RxCounted base d.stats taken) (netdev : Nat) :
    RxCounted base (d.countTxDropped netdev).stats taken := by
  intro p
  rcases eq_or_ne p netdev with rfl | hne
  · simpa [Driver.countTxDropped] using h p
  · simpa [Driver.countTxDropped, hne] using h p

theorem RxCounted.countTxPacket {base : Nat → NetDeviceStats} {d : Driver}
    {taken : List (Message × Fate)} (h : RxCounted base d.stats taken) (netdev : Nat)
    (len : UInt32) : RxCounted base (d.countTxPacket netdev len).stats taken := by
  intro p
  rcases eq_or_ne p netdev with rfl | hne
  · simpa [Driver.countTxPacket] using h p
  · simpa [Driver.countTxPacket, hne] using h p

/-- A packet that is taken is counted by what became of it. -/
theorem RxCounted.countFate {base : Nat → NetDeviceStats} {d : Driver}
    {taken : List (Message × Fate)} (h : RxCounted base d.stats taken) (len : UInt32)
    (m : Message) (fate : Fate) :
    RxCounted base (d.countFate len fate).stats (taken ++ [(m, fate)]) := by
  intro p
  obtain ⟨hpk, hdr⟩ := h p
  cases fate with
  | badOpcode =>
    simpa [Driver.countFate, List.countP_append, Fate.deliveredOn, Fate.droppedOn] using h p
  | delivered q bytes =>
    -- the counters of `q` only
    rcases eq_or_ne q p with rfl | hne
    · simp [Driver.countFate, List.countP_append, Fate.deliveredOn, Fate.droppedOn, hpk, hdr]
      omega
    · simp [Driver.countFate, List.countP_append, Fate.deliveredOn, Fate.droppedOn, hpk, hdr, hne,
        Ne.symm hne]
  | noSkb q =>
    rcases eq_or_ne q p with rfl | hne
    · simp [Driver.countFate, List.countP_append, Fate.deliveredOn, Fate.droppedOn, hpk, hdr]
      omega
    · simp [Driver.countFate, List.countP_append, Fate.deliveredOn, Fate.droppedOn, hpk, hdr, hne,
        Ne.symm hne]

namespace GhostInv

variable {base : Nat → NetDeviceStats} {n : Nat} {s : GhostSys}

theorem init (d : Driver) (n : Nat) : GhostInv d.stats n (GhostSys.init d n) where
  size := rfl
  aliased := rfl
  ring := by
    apply Holds.init
    intro i hi
    simp [GhostSys.init, enableGhosting, hi]
  tail := (Nat.zero_mod n).symm
  head := (Nat.zero_mod n).symm
  upToDate := by
    intro c hc
    cases hc
  opcodes := by
    intro a ha
    cases ha
  paired := by
    intro k ha
    exact absurd ha (Nat.not_lt_zero k)
  counted := fun p => ⟨rfl, rfl⟩

theorem taken_le (h : GhostInv base n s) : s.taken.length ≤ s.accepted.length := by
  simpa using h.ring.lo_le

/-- The flag that makes `nf10_ghost_xmit` refuse says exactly that all slots are outstanding. -/
theorem full_iff (hn : 0 < n) (h : GhostInv base n s) :
    s.driver.txDmaStream.flags s.driver.txDmaStream.bufIndex = 1 ↔
      s.accepted.length - s.taken.length = n := by
  have hfull := h.ring.full_tail_iff hn
  rw [List.length_map, ← h.tail] at hfull
  exact hfull

/-- A call that is refused counts a drop and leaves the ring. -/
theorem refuse (h : GhostInv base n s) (netdev : Nat) :
    GhostInv base n { s with driver := (s.driver.countTxDropped netdev).aliasTx } where
  size := h.size
  aliased := rfl
  ring := h.ring
  tail := h.tail
  head := h.head
  upToDate := h.upToDate
  opcodes := h.opcodes
  paired := h.paired
  counted := h.counted.countTxDropped netdev

/-- A transmit call puts one packet at the end, or leaves the ring alone. -/
theorem xmit (hn : 0 < n) (h : GhostInv base n s) (b : Build) (skb : SkBuff) (netdev : Nat) :
    GhostInv base n (s.xmit b skb netdev) := by
  simp only [GhostSys.xmit]
  obtain ⟨i, hsend, hi, hfree, heq⟩ | ⟨_, _, heq⟩ | ⟨_, r, _, hna, heq⟩ :=
    nf10GhostXmit_cases b s.driver skb netdev
  · rw [heq, hi]
    -- accepted: the packet is put at the tail of the ring
    have htail : s.driver.txDmaStream.bufIndex = (s.accepted.map Prod.snd).length % n := by
      rw [List.length_map]
      exact h.tail
    have hput := h.ring.put hn (switcharoo b.ipFastCsum skb.data)
      (rxSetDstIface 0 (i.val ^^^ 1)) hsend.1 htail hfree
    exact {
      size := h.size
      aliased := rfl
      ring := by
        rw [List.map_append]
        exact hput
      tail := by
        simp only [GhostSys.admitted, List.length_append, List.length_singleton]
        rw [← next_mod hn, ← h.tail, ← h.size]
        rfl
      head := h.head
      upToDate := h.upToDate
      opcodes := by
        intro a ha
        rcases List.mem_append.mp ha with ha | ha
        · exact h.opcodes a ha
        · rw [List.mem_singleton.mp ha]
          rfl
      paired := by
        intro k _ ht
        have hk : k < s.accepted.length := Nat.lt_of_lt_of_le ht h.taken_le
        simp only [List.getElem_append_left hk]
        exact h.paired k hk ht
      counted := RxCounted.countTxPacket (d := { s.driver with
        txDmaStream := s.driver.txDmaStream.ghostPut s.driver.dmaCpuBufs b skb i })
        h.counted netdev skb.len }
  · rw [heq, GhostSys.admitted_eq_nil _ (by simp), List.append_nil]
    exact h.refuse netdev
  · rw [heq, GhostSys.admitted_eq_nil _ hna, List.append_nil]
    exact h.refuse netdev

/-- A slot taken through the RX index, which had flag 1: the oldest outstanding packet went where
its opcode says. -/
theorem takePacket (hn : 0 < n) (h : GhostInv base n s) {d' : Driver} {skbOk : Bool}
    {poll : Option PollCall}
    (hfull : s.driver.rxDmaStream.flags s.driver.rxDmaStream.bufIndex = 1)
    (hsize : d'.dmaCpuBufs = n) (hdevs : d'.nf10Netdevs = s.driver.nf10Netdevs)
    (hrx : d'.rxDmaStream
      = (s.driver.rxDmaStream.setFlag s.driver.rxDmaStream.bufIndex 0).advance n)
    (htx : d'.txDmaStream.bufIndex = s.driver.txDmaStream.bufIndex)
    (hstats : d'.stats = (s.driver.countFate
      (s.driver.rxDmaStream.metadata s.driver.rxDmaStream.bufIndex).length
      (pollFate s.driver s.driver.rxDmaStream.bufIndex skbOk)).stats)
    (hpoll : ∀ c ∈ poll, c.bufIndex = d'.rxDmaStream.bufIndex) :
    GhostInv base n { s with
      driver := d'.aliasRx
      poll := poll
      taken := s.taken ++ [(s.driver.rxDmaStream.message s.driver.rxDmaStream.bufIndex,
        pollFate s.driver s.driver.rxDmaStream.bufIndex skbOk)] } := by
  -- flag 1 at the RX index means that a packet is outstanding
  have hlt : s.taken.length < s.accepted.length := by
    have hfull' : s.driver.txDmaStream.flags (s.taken.length % n) = 1 := by
      rw [h.aliased, ← h.head]
      exact hfull
    simpa using (h.ring.full_head_iff hn).mp hfull'
  -- and the slot still carries the oldest one
  have hmsg : s.driver.rxDmaStream.message s.driver.rxDmaStream.bufIndex
      = s.accepted[s.taken.length].2 := by
    have hhead := h.ring.message_head (by simpa using hlt)
    rw [h.aliased, ← h.head] at hhead
    simpa using hhead
  -- so its opcode is the one the transmit call wrote
  have hpair : GhostPair s.driver.nf10Netdevs s.accepted[s.taken.length]
      (s.driver.rxDmaStream.message s.driver.rxDmaStream.bufIndex,
        pollFate s.driver s.driver.rxDmaStream.bufIndex skbOk) := by
    have hop : (s.driver.rxDmaStream.message s.driver.rxDmaStream.bufIndex).opCode
        = rxSetDstIface 0 (s.accepted[s.taken.length].1.val ^^^ 1) := by
      rw [hmsg]
      exact h.opcodes _ (List.getElem_mem hlt)
    have hdst := rxGetDstIface_ghost s.accepted[s.taken.length].1
    rw [← hop] at hdst
    refine ⟨hmsg, ?_⟩
    rw [← hmsg]
    exact pollFate_of_opCode hdst skbOk
  exact {
    size := hsize
    aliased := rfl
    ring := by
      have htake := h.ring.take hn (by simpa using hlt) (v := 0) (by decide)
      simp only [List.length_append, List.length_singleton, Driver.aliasRx, hrx,
        DmaStream.advance_toDmaRegion]
      simp only [DmaStream.setFlag, h.aliased] at htake ⊢
      rw [h.head]
      exact htake
    tail := htx.trans h.tail
    head := by
      simp only [List.length_append, List.length_singleton, Driver.aliasRx, hrx,
        DmaStream.advance_bufIndex, DmaStream.setFlag_bufIndex]
      rw [h.head, next_mod hn]
    upToDate := hpoll
    opcodes := h.opcodes
    paired := by
      intro k ha ht
      simp only [Driver.aliasRx, hdevs]
      -- `k` is an earlier packet, or the one just taken
      rcases Nat.lt_or_ge k s.taken.length with hk | hk
      · rw [List.getElem_append_left hk]
        exact h.paired k ha hk
      · have hk' : k = s.taken.length := by
          simp only [List.length_append, List.length_singleton] at ht
          omega
        subst hk'
        simpa using hpair
    counted := by
      simp only [Driver.aliasRx, hstats]
      exact h.counted.countFate _ _ _ }

/-- A poll takes the oldest packet, or nothing. It cannot be out of date: there is no other
consumer. -/
theorem pollTurn (hn : 0 < n) (h : GhostInv base n s) {b : Build} (hb : b.ghost = true)
    (skbOk : Bool) : GhostInv base n (s.pollTurn b skbOk) := by
  unfold GhostSys.pollTurn
  cases hpoll : s.poll with
  | none => exact h
  | some c =>
    by_cases htest : pollTest s.driver c
    · -- nobody else moves the RX index in the ghost build
      have hidx : c.bufIndex = s.driver.rxDmaStream.bufIndex := h.upToDate c hpoll
      have hfull : s.driver.rxDmaStream.flags s.driver.rxDmaStream.bufIndex = 1 := by
        simp only [pollTest, Bool.and_eq_true, beq_iff_eq] at htest
        rw [← hidx]
        exact htest.2
      simp only [htest, if_true, pollIteration, hidx, hb]
      apply h.takePacket hn hfull
      · simpa using h.size
      · simp
      · simp [Driver.retire, h.size]
      · simp [Driver.retire]
      · rfl
      · intro c' hc'
        cases hc'
        rfl
    · simp only [htest]
      exact ⟨h.size, h.aliased, h.ring, h.tail, h.head, by simp, h.opcodes, h.paired, h.counted⟩

/-- **The step lemma.** Every step of the ghost build preserves the invariant. -/
theorem step (hn : 0 < n) (h : GhostInv base n s) {b : Build} (hb : b.ghost = true)
    (e : GhostEvent) : GhostInv base n (s.step b e) := by
  cases e with
  | xmit skb netdev => exact h.xmit hn b skb netdev
  | pollStart budget =>
    simp only [GhostSys.step]
    split
    · refine ⟨h.size, h.aliased, h.ring, h.tail, h.head, ?_, h.opcodes, h.paired, h.counted⟩
      intro c hc
      cases hc
      rfl
    · exact h
  | pollTurn skbOk => exact h.pollTurn hn hb skbOk

end GhostInv

/-! ## Ghost mode is a bounded queue

What the invariant means: a bounded queue from each netdev to the one it is paired with, with every
packet counted once on either side. -/

/-- What a state of the ghost system guarantees, with `n` slots and counters started at `base`. -/
structure GhostRefinement (b : Build) (base : Nat → NetDeviceStats) (n : Nat) (s : GhostSys) :
    Prop where
  -- The packets polled are the packets accepted, in order, without a gap or a repetition.
  inOrder : s.taken.map Prod.fst <+: s.accepted.map Prod.snd
  -- A packet accepted on `i` ended on the interface paired with `i`.
  paired : ∀ k (ha : k < s.accepted.length) (ht : k < s.taken.length),
    GhostPair s.driver.nf10Netdevs s.accepted[k] s.taken[k]
  -- No netdev counts a packet that did not end on it.
  counted : RxCounted base s.driver.stats s.taken
  -- No accepted packet still to be polled has been overwritten.
  intact : ∀ j (h : j < s.accepted.length), s.taken.length ≤ j →
    s.driver.rxDmaStream.message (j % n) = s.accepted[j].2
  -- A sendable packet is refused exactly when `n` accepted packets are outstanding.
  refused : ∀ skb netdev, GhostSendable s.driver skb netdev →
    ((nf10GhostXmit b s.driver skb netdev).2 = .full ↔ s.accepted.length - s.taken.length = n)
  -- A sendable packet that is not refused is accepted, with the switcharoo applied.
  accepts : ∀ skb netdev i, skb.len.toNat ≤ dmaBufSize →
    getIfaceFromNetdev s.driver.nf10Netdevs netdev = some i →
    s.accepted.length - s.taken.length ≠ n →
    (s.xmit b skb netdev).accepted = s.accepted ++ [(i, ghostMessage b skb i)]

/-- The invariant gives the claim in a state reached. -/
theorem GhostInv.refinement {base : Nat → NetDeviceStats} {n : Nat} {s : GhostSys} (hn : 0 < n)
    (h : GhostInv base n s) (b : Build) : GhostRefinement b base n s where
  inOrder := by
    rw [List.prefix_iff_eq_take]
    apply List.ext_getElem
    · simp [h.taken_le]
    · intro k hk _
      have ht : k < s.taken.length := by simpa using hk
      have ha : k < s.accepted.length := Nat.lt_of_lt_of_le ht h.taken_le
      simpa using (h.paired k ha ht).1
  paired := h.paired
  counted := h.counted
  intact j hj hlo := by
    have hentry := (h.ring.entry j (by simpa using hj) hlo).1
    rw [h.aliased] at hentry
    simpa using hentry
  refused skb netdev hsend := by
    rw [← h.full_iff hn]
    obtain ⟨i, _, _, hfree, heq⟩ | ⟨_, hfull, heq⟩ | ⟨hnot, _⟩ :=
      nf10GhostXmit_cases b s.driver skb netdev
    · simp [heq, hfree]
    · simp [heq, hfull]
    · exact absurd hsend hnot
  accepts skb netdev i hlen hi hroom := by
    have hfree := mt (h.full_iff hn).mp hroom
    obtain ⟨i', _, hi', _, heq⟩ | ⟨_, hfull, _⟩ | ⟨hnot, _⟩ :=
      nf10GhostXmit_cases b s.driver skb netdev
    · rw [hi] at hi'
      cases hi'
      simp [GhostSys.xmit, heq, hi, GhostSys.admitted]
    · exact absurd hfull hfree
    · exact absurd ⟨hlen, by simp [hi]⟩ hnot

/-- **Ghost mode is a bounded queue between paired interfaces.** In the ghost build, from the
streams as `enable_ghosting` sets them up with any `n ≥ 1` slots, whatever interleaving of transmit
calls and poll iterations has run. -/
theorem ghost_ring_refines (b : Build) (hb : b.ghost = true) (d : Driver) (n : Nat) (hn : 0 < n)
    (es : List GhostEvent) :
    GhostRefinement b d.stats n (Runs.run (GhostSys.step b) (GhostSys.init d n) es) := by
  have hstep : ∀ s e, GhostInv d.stats n s → GhostInv d.stats n (GhostSys.step b s e) :=
    fun s e h => h.step hn hb e
  exact (Runs.run_invariant_of_step hstep (GhostInv.init d n) es).refinement hn b

/-- One slot: a packet sent on netdev 2 is polled and goes up on netdev 3; one sent on netdev 0
meanwhile is refused. -/
theorem ghost_ring_refines_one_slot :
    GhostRefinement { plainBuild with ghost := true } plainDriver.stats 1
      (Runs.run (GhostSys.step { plainBuild with ghost := true }) (GhostSys.init plainDriver 1)
        [.xmit ⟨fun _ => 7, 60⟩ 2, .xmit ⟨fun _ => 8, 60⟩ 0, .pollStart 64, .pollTurn true]) :=
  ghost_ring_refines _ rfl plainDriver 1 (by decide) _

end Nf10
