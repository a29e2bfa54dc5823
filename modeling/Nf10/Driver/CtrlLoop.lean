import Nf10.Driver.Board
import Nf10.Driver.DriverCtrl

/-!
# Nf10 — strings through the ring and back

The loop that `driver_ctrl_dma_rand.py` tests: with NAPI disabled and "all Ethernet ports looped back (in
any arrangement)", `driver_ctrl dma_tx` puts strings on the TX ring, the device sends them and gets them
back, and `driver_ctrl dma_rx` prints what it finds on the RX ring. The test waits for each string before
it sends the next. Here the commands and the two sides of the device come in any order, over the board of
`Nf10.Driver.Board`.

A frame that `genl_cmd_dma_rx` has taken is gone even if its reply could not be sent, so a string may be
lost between the ring and the client. It is then the only one.

* **`CtrlLoop`** — the board with the strings sent through it and what was printed;
* **`dma_loop_printed`** — what was printed are the frames taken whose reply was sent; the `k`-th frame
  that was taken of a port is the `k`-th string sent to the other end of its cable.
-/

namespace Nf10

open Lanes

/-- An argument of the command line. -/
def Arg : Type := { str : List UInt8 // 0 ∉ str }

/-- What lies around the commands: the kernel's parser and its replies, the size of a page, the number
of the family, and what a callback finds on its stack. -/
structure CtrlEnv where
  parse : MsgBuf → GenlAttr → Option Nlattr
  reply : Option Message → MsgBuf
  pageSize : Nat
  family : UInt16
  stack : Nat → Option Nat

/-- The content of a reply of `genl_cmd_dma_rx`. -/
def replyAttrs : Option Message → List (Records.Record UInt8)
  | none => []
  | some m => dmaRxAttrs m

/-- The kernel finds the attributes of a request and sends the attributes of a reply, and pages are of
at most 4 KiB. On a larger page a string could be longer than a buffer of the ring. -/
structure CtrlEnv.Sound (env : CtrlEnv) : Prop where
  parses : KernelParses env.parse
  replies : ∀ c, (∀ m, c = some m → m.bytes.length ≤ dmaBufSize) → (env.reply c).Carries (replyAttrs c)
  pageLow : attrsOffset ≤ env.pageSize
  pageHigh : env.pageSize ≤ 4096

/-- What the client prints of a reply. -/
def CtrlEnv.print (env : CtrlEnv) (reply : Option Message) : DmaRxOutput :=
  doDmaRxRecvMsgCb (env.reply reply) env.stack

/-- What is printed of a frame taken: nothing, if its reply was not sent. -/
def CtrlEnv.printed (env : CtrlEnv) : TakenBy → Option DmaRxOutput
  | .dmaRx reply => reply.map env.print
  | .poll _ => none

/-- The board, the strings of the messages accepted with the ports that their opcodes name, and what was
printed. -/
structure CtrlLoop extends LoopBoard where
  sent : List (Option Iface × Arg)
  printed : List DmaRxOutput

/-- A command, or the device reading a slot or filling one with the next packet from port `i`. -/
inductive CtrlEvent where
  | dmaTx (str : Arg) (opcode : UInt32)
  | hwConsume
  | hwReturn (i : Iface) (f : { f : Frame // f.Sized })
  | dmaRx (calls : DmaRxCalls)

namespace CtrlLoop

/-- The board at the start, with nothing sent and nothing printed. -/
def init (d : Driver) (n : Nat) : CtrlLoop :=
  ⟨LoopBoard.init d n, [], []⟩

/-- The command `dma_tx`: a request that is not sent changes nothing, and one that is goes through
the driver's handler. -/
def dmaTx (env : CtrlEnv) (s : CtrlLoop) (str : Arg) (opcode : UInt32) : CtrlLoop :=
  match doDmaTx env.pageSize env.family str.val opcode with
  | none => s
  | some msg =>
    let r := genlCmdDmaTx s.driver (some ⟨env.parse msg⟩)
    { s with
      driver := r.1
      accepted := s.accepted ++ r.2.message.toList
      sent := s.sent ++ r.2.message.toList.map fun _ => (txGetSrcIface opcode, str) }

/-- The command `dma_rx`. A frame taken for which no reply is sent is lost, and nothing is
printed. -/
def dmaRx (env : CtrlEnv) (s : CtrlLoop) (calls : DmaRxCalls) : CtrlLoop :=
  let r := genlCmdDmaRx s.driver true calls
  { s with
    driver := r.1
    taken := s.taken ++ r.2.taken.toList.map fun f => (f, .dmaRx r.2.reply)
    printed := s.printed ++ r.2.reply.toList.map env.print }

/-- One command of the user, or one move of the device. -/
def step (env : CtrlEnv) (cabling : Iface → Iface) (s : CtrlLoop) : CtrlEvent → CtrlLoop
  | .dmaTx str opcode => s.dmaTx env str opcode
  | .hwConsume => { s with toLoopBoard := s.toLoopBoard.hwConsume }
  | .hwReturn i f => { s with toLoopBoard := s.toLoopBoard.hwReturn cabling i f.val }
  | .dmaRx calls => s.dmaRx env calls

/-- The strings accepted whose opcode names interface `i`. -/
def sentOn (s : CtrlLoop) (i : Iface) : List Arg :=
  lane (some i) s.sent

/-- What was printed of the frames taken whose opcode names interface `j`, frame by frame. -/
def outputs (env : CtrlEnv) (s : CtrlLoop) (j : Iface) : List (Option DmaRxOutput) :=
  lane (some j) (s.taken.map fun t => (rxGetDstIface t.1.metadata.opCode, env.printed t.2))

end CtrlLoop

/-- The reply, once built, reaches the client. -/
def CtrlEvent.Answered : CtrlEvent → Prop
  | .dmaRx calls => calls.genlmsgReply = 0
  | _ => True

/-- What is to be printed of an argument that comes in on port `j`: the string, and the length of the
frame, which ends with the zero of the string or is padded. -/
def Arg.PrintedOn (a : Arg) (j : Iface) (out : DmaRxOutput) : Prop :=
  ∃ opcode, rxGetDstIface opcode = some j
    ∧ out = .data (some a.val) (max 60 (a.val.length + 1) : Nat) (some opcode)

/-! ## What one command does

The strings and the messages: what the handler puts on the ring for a string, and what the client
prints of a frame. -/

/-- A string that goes to the ring does so with its zero, and fits a buffer. -/
structure Sent (m : Message) (a : Arg) : Prop where
  bytes : m.bytes = a.val ++ [0]
  fits : m.bytes.length ≤ dmaBufSize

/-- A page of 4 KiB has no room for more than a buffer, let alone twice. -/
theorem sent_dmaTxMessage {pageSize : Nat} (hhigh : pageSize ≤ 4096) {str : Arg}
    (hroom : 48 + 2 * nlaTotalSize (str.val.length + 1) ≤ pageSize) (opcode : UInt32) :
    Sent (dmaTxMessage str.val opcode) str := by
  have hlen : (str.val ++ [0]).length = str.val.length + 1 := by simp
  have hshort : str.val.length + 1 ≤ dmaBufSize := by
    unfold nlaTotalSize nlaAlign nlaAttrSize nlaHdrlen at hroom
    unfold dmaBufSize
    omega
  have htake : (str.val ++ [0]).take dmaBufSize = str.val ++ [0] :=
    List.take_of_length_le (by omega)
  refine ⟨htake, ?_⟩
  show ((str.val ++ [0]).take dmaBufSize).length ≤ dmaBufSize
  rw [htake, hlen]
  exact hshort

/-- **`dma_tx` on the driver.** Nothing is accepted, or the string is, under the opcode given. -/
theorem dmaTx_message {env : CtrlEnv} (henv : env.Sound) (d : Driver) (str : Arg) (opcode : UInt32)
    {msg : MsgBuf} (hmsg : doDmaTx env.pageSize env.family str.val opcode = some msg) :
    (genlCmdDmaTx d (some ⟨env.parse msg⟩)).2.message = none
      ∨ ∃ m, (genlCmdDmaTx d (some ⟨env.parse msg⟩)).2.message = some m
        ∧ m.opCode = opcode ∧ Sent m str := by
  have hlow := henv.pageLow
  have hhigh := henv.pageHigh
  rw [doDmaTx_eq hlow (by omega)] at hmsg
  split at hmsg
  · next hfits =>
    obtain rfl := Option.some.inj hmsg
    have hs := putOpcode hlow (by omega) env.family nf10GenlCDmaTx str.val hfits opcode
    split at hs
    · next hboth =>
      obtain ⟨hfull, hfree⟩ := genlCmdDmaTx_both henv.parses d hs.carries
      by_cases hflag : d.txDmaStream.flags d.txDmaStream.bufIndex = 0
      · exact Or.inl (congrArg (fun r => r.2.message) (hfull hflag))
      · obtain ⟨d', heq, -⟩ := hfree hflag
        exact Or.inr ⟨_, congrArg (fun r => r.2.message) heq, rfl,
          sent_dmaTxMessage hhigh hboth opcode⟩
    · have hres := genlCmdDmaTx_noOpcode henv.parses d hs.carries
      exact Or.inl (congrArg (fun r => r.2.message) hres)
  · cases hmsg

/-- Whatever `genl_cmd_dma_tx` does, the RX side is not part of it. -/
theorem genlCmdDmaTx_rx (d : Driver) (info : Option GenlInfo) :
    (genlCmdDmaTx d info).1.rxDmaStream = d.rxDmaStream
      ∧ (genlCmdDmaTx d info).1.dmaCpuBufs = d.dmaCpuBufs
      ∧ (genlCmdDmaTx d info).1.nf10Netdevs = d.nf10Netdevs := by
  obtain ⟨_, _, _, _, heq⟩ | ⟨_, _, heq⟩ | ⟨_, _, _, _, heq⟩ := genlCmdDmaTx_cases d info
  all_goals
    rw [heq]
    exact ⟨rfl, rfl, rfl⟩

/-- An empty reply is printed as no data. -/
theorem CtrlEnv.print_none {env : CtrlEnv} (henv : env.Sound) : env.print none = .noData := by
  have hempty : (env.reply none).Carries [] := henv.replies none (by simp)
  have hnone : parsedAttrs (env.reply none) env.stack GenlAttr.dmaBuf.num = none := by
    unfold parsedAttrs
    rw [(genlmsgParse_carries hempty env.stack nf10GenlAMax).2.2]
    rfl
  unfold CtrlEnv.print doDmaRxRecvMsgCb
  simp only [hnone]

/-- A message of at most a buffer is printed as data, as `printedAs` has it. -/
theorem CtrlEnv.print_some {env : CtrlEnv} (henv : env.Sound) {m : Message}
    (hm : m.bytes.length ≤ dmaBufSize) :
    env.print (some m) = .data (some (printedAs m.bytes)) m.bytes.length (some m.opCode) := by
  have hcarries : (env.reply (some m)).Carries (dmaRxAttrs m) :=
    henv.replies (some m) (fun m' h => Option.some.inj h ▸ hm)
  exact doDmaRxRecvMsgCb_message hcarries env.stack

/-- The zero of the string ends what is printed of it, and hides the padding. -/
theorem printedAs_padded (a : Arg) : printedAs (padded (a.val ++ [0])) = a.val := by
  unfold printedAs padded
  rw [if_pos (by simp)]
  exact takeWhile_terminated a.property _

/-! ## The invariant

What a frame taken brings back is decided on the board, by the invariant it shares with the raw
sockets. What is added here is which string each message of the board was. -/

/-- The board is sound, and the messages accepted are the strings sent. Frames are taken by `dma_rx`
alone, and a reply for one has the message. -/
structure CtrlInv (cabling : Iface → Iface) (n : Nat) (s : CtrlLoop) : Prop where
  board : BoardInv cabling n s.toLoopBoard
  accepted : List.Forall₂ (fun m snt => txGetSrcIface m.opCode = snt.1 ∧ Sent m snt.2)
    s.accepted s.sent
  replied : ∀ t ∈ s.taken, t.2 = .dmaRx none ∨ ∃ m, t.2 = .dmaRx (some (some m))

namespace CtrlInv

variable {cabling : Iface → Iface} {n : Nat} {s : CtrlLoop}

theorem init (cabling : Iface → Iface) (d : Driver) (n : Nat) :
    CtrlInv cabling n (CtrlLoop.init d n) where
  board := BoardInv.init cabling d n
  accepted := .nil
  replied := fun _ h => nomatch h

/-- A string that is accepted is recorded beside its message. -/
theorem dmaTx {env : CtrlEnv} (henv : env.Sound) (hn : 0 < n) (h : CtrlInv cabling n s) (str : Arg)
    (opcode : UInt32) : CtrlInv cabling n (s.dmaTx env str opcode) := by
  unfold CtrlLoop.dmaTx
  cases hmsg : doDmaTx env.pageSize env.family str.val opcode with
  | none => exact h
  | some msg =>
    have htx := h.board.tx.step (b := plainBuild) rfl hn (.dmaTx (some ⟨env.parse msg⟩))
    obtain ⟨hrx, hsize, hdevs⟩ := genlCmdDmaTx_rx s.driver (some ⟨env.parse msg⟩)
    refine ⟨h.board.setTx htx hrx hsize hdevs, ?_, h.replied⟩
    dsimp only
    rcases dmaTx_message henv s.driver str opcode hmsg with hnone | ⟨m, hm, rfl, hsent⟩
    · rw [hnone]
      simpa using h.accepted
    · rw [hm]
      exact List.rel_append h.accepted (.cons ⟨rfl, hsent⟩ .nil)

/-- A frame that the device hands back changes neither record. -/
theorem hwReturn (hn : 0 < n) (h : CtrlInv cabling n s) (i : Iface) {f : Frame} (hf : f.Sized) :
    CtrlInv cabling n { s with toLoopBoard := s.toLoopBoard.hwReturn cabling i f } := by
  obtain ⟨haccepted, htaken, -, -⟩ := BoardInv.hwReturn_frame cabling s.toLoopBoard i f
  refine ⟨h.board.hwReturn hn i hf, ?_, ?_⟩
  · dsimp only
    rw [haccepted]
    exact h.accepted
  · dsimp only
    rw [htaken]
    exact h.replied

/-- A frame is taken with its reply, or nothing is taken. -/
theorem dmaRx (env : CtrlEnv) (hn : 0 < n) (h : CtrlInv cabling n s) (calls : DmaRxCalls) :
    CtrlInv cabling n (s.dmaRx env calls) := by
  have hrx := h.board.rx.dmaRx hn true calls
  obtain ⟨hd, htaken, -⟩ | ⟨-, hd, htaken, hreply⟩ := genlCmdDmaRx_cases s.driver true calls
  · have htx : (genlCmdDmaRx s.driver true calls).1.txDmaStream = s.driver.txDmaStream := by rw [hd]
    have hstate : (genlCmdDmaRx s.driver true calls).1.hwState = s.driver.hwState := by rw [hd]
    refine ⟨h.board.setRx hrx htx hstate, h.accepted, ?_⟩
    intro t ht
    simp only [CtrlLoop.dmaRx, htaken, Option.toList_none, List.map_nil, List.append_nil] at ht
    exact h.replied t ht
  · have htx : (genlCmdDmaRx s.driver true calls).1.txDmaStream = s.driver.txDmaStream := by
      rw [hd]
      rfl
    have hstate : (genlCmdDmaRx s.driver true calls).1.hwState = s.driver.hwState := by
      rw [hd]
      rfl
    refine ⟨h.board.setRx hrx htx hstate, h.accepted, ?_⟩
    intro t ht
    simp only [CtrlLoop.dmaRx, htaken, Option.toList_some, List.map_cons, List.map_nil] at ht
    rcases List.mem_append.mp ht with hold | hnew
    · exact h.replied t hold
    · rw [List.mem_singleton.mp hnew, hreply]
      split
      · exact Or.inl rfl
      · exact Or.inr ⟨_, rfl⟩

theorem step {env : CtrlEnv} (henv : env.Sound) (hn : 0 < n) (h : CtrlInv cabling n s)
    (e : CtrlEvent) : CtrlInv cabling n (s.step env cabling e) := by
  cases e with
  | dmaTx str opcode => exact h.dmaTx henv hn str opcode
  | hwConsume => exact ⟨h.board.hwConsume hn, h.accepted, h.replied⟩
  | hwReturn i f => exact h.hwReturn hn i f.property
  | dmaRx calls => exact h.dmaRx env hn calls

/-! ### What is printed

From the invariant, what is printed is read off frame by frame: the strings sent from a port, in
their order, on the port that it is cabled to. -/

variable {env : CtrlEnv}

/-- **What is printed of a frame taken**: the string it brings back, if the reply was sent. -/
theorem printed_of_brings (henv : env.Sound) {devs : Netdevs} {i : Iface} {m : Message} {a : Arg}
    {t : Frame × TakenBy} (hsent : Sent m a) (hbrings : Brings cabling m t.1)
    (hi : txGetSrcIface m.opCode = some i) (hfate : FateOk devs t.1 t.2) {reply : Message}
    (hreply : t.2 = .dmaRx (some (some reply))) :
    a.PrintedOn (cabling i) (env.print (some reply)) := by
  rw [hreply] at hfate
  obtain ⟨hop, hcarries⟩ := hfate reply rfl
  have hbytes := hcarries.of_brings hbrings hsent.fits
  rw [hsent.bytes] at hbytes
  have hlen : reply.bytes.length = max 60 (a.val.length + 1) := by
    rw [hbytes, length_padded, List.length_append, List.length_singleton]
  have hfits := hsent.fits
  rw [hsent.bytes, List.length_append, List.length_singleton] at hfits
  have hprint := env.print_some henv (m := reply) (by
    unfold dmaBufSize at hfits ⊢
    omega)
  refine ⟨reply.opCode, ?_, ?_⟩
  · rw [hop, hbrings.1, hi]
    rfl
  · rw [hprint, hlen, hbytes, printedAs_padded]

/-- The `k`th frame from a port prints the `k`th string sent there, or nothing if its reply
failed. -/
theorem output (henv : env.Sound) (h : CtrlInv cabling n s) {i : Iface} {k : Nat}
    {t : Frame × TakenBy} (ht : (lane (some i) s.takenFrom)[k]? = some t) :
    ∃ a, (s.sentOn i)[k]? = some a
      ∧ (t.2 = .dmaRx none
        ∨ ∃ out, env.printed t.2 = some out ∧ a.PrintedOn (cabling i) out) := by
  obtain ⟨a, m, ha, hsent, hbrings, htag⟩ := h.board.takenFrom_sent h.accepted ht
  have hmem : t ∈ s.taken := (List.of_mem_zip (mem_lane.mp (List.mem_of_getElem? ht))).2
  refine ⟨a, ha, (h.replied t hmem).imp_right ?_⟩
  rintro ⟨reply, hreply⟩
  have hprinted := printed_of_brings henv hsent hbrings htag (h.board.rx.fates t hmem) hreply
  exact ⟨_, by rw [hreply]; rfl, hprinted⟩

/-- Of a frame that was taken something is printed, if anything is. -/
theorem printed_ne_noData (henv : env.Sound) (h : CtrlInv cabling n s) {t : Frame × TakenBy}
    (ht : t ∈ s.taken) : env.printed t.2 ≠ some .noData := by
  rw [← h.board.map_snd_takenFrom] at ht
  obtain ⟨x, hx, rfl⟩ := List.mem_map.mp ht
  obtain ⟨i, -, hi⟩ := List.mem_map.mp (List.of_mem_zip hx).1
  obtain ⟨k, hk⟩ := List.getElem?_of_mem (mem_lane.mpr hx)
  rw [← hi] at hk
  obtain ⟨a, -, hnone | ⟨out, hout, opcode, -, rfl⟩⟩ := h.output henv hk
  · rw [hnone]
    simp [CtrlEnv.printed]
  · rw [hout]
    simp

end CtrlInv

/-- What was printed, empty replies aside, is what was taken and answered. -/
def CtrlLoop.PrintsTaken (env : CtrlEnv) (s : CtrlLoop) : Prop :=
  s.printed.filter (· ≠ .noData) = s.taken.filterMap fun t => env.printed t.2

/-- Every frame taken was answered. -/
def CtrlLoop.NoneLost (s : CtrlLoop) : Prop :=
  ∀ t ∈ s.taken, t.2 ≠ .dmaRx none

section Printed

variable {env : CtrlEnv} {cabling : Iface → Iface} {n : Nat} {s : CtrlLoop}

/-- One command prints what it takes. The frame is known to be data only after the step, when it counts
as taken. -/
theorem CtrlLoop.PrintsTaken.dmaRx (henv : env.Sound) (hp : s.PrintsTaken env) (calls : DmaRxCalls)
    (h' : CtrlInv cabling n (s.dmaRx env calls)) : (s.dmaRx env calls).PrintsTaken env := by
  have hdata := fun t => h'.printed_ne_noData (t := t) henv
  unfold CtrlLoop.PrintsTaken at hp ⊢
  simp only [CtrlLoop.dmaRx, List.filter_append, List.filterMap_append] at hdata ⊢
  rw [hp]
  congr 1
  obtain ⟨-, htaken, hnone⟩ | ⟨-, -, htaken, hreply⟩ := genlCmdDmaRx_cases s.driver true calls
  · rw [htaken]
    cases hr : (genlCmdDmaRx s.driver true calls).2.reply with
    | none => rfl
    | some c =>
      obtain rfl := hnone c hr
      simp [env.print_none henv]
  · rw [htaken]
    rw [htaken, hreply] at hdata
    rw [hreply]
    split
    · rfl
    · next hsent =>
      rw [if_neg hsent] at hdata
      have hne := hdata _ (List.mem_append_right _ (List.mem_singleton_self _))
      simp only [CtrlEnv.printed, Option.map_some, ne_eq, Option.some.injEq] at hne
      simp [CtrlEnv.printed, hne]

/-- One step keeps what is printed in step with the frames taken. -/
theorem CtrlLoop.PrintsTaken.step (henv : env.Sound) (hp : s.PrintsTaken env) (e : CtrlEvent)
    (h' : CtrlInv cabling n (s.step env cabling e)) : (s.step env cabling e).PrintsTaken env := by
  cases e with
  | dmaTx str opcode =>
    simp only [CtrlLoop.step, CtrlLoop.dmaTx]
    split <;> exact hp
  | hwConsume => exact hp
  | hwReturn i f =>
    obtain ⟨-, htaken, -, -⟩ := BoardInv.hwReturn_frame cabling s.toLoopBoard i f.val
    simp only [CtrlLoop.step, CtrlLoop.PrintsTaken]
    rw [htaken]
    exact hp
  | dmaRx calls => exact hp.dmaRx henv calls h'

/-- A reply that is built and sent is not lost. -/
theorem CtrlLoop.NoneLost.step {e : CtrlEvent} (he : e.Answered) (hall : s.NoneLost) :
    (s.step env cabling e).NoneLost := by
  cases e with
  | dmaTx str opcode =>
    simp only [CtrlLoop.step, CtrlLoop.dmaTx]
    split <;> exact hall
  | hwConsume => exact hall
  | hwReturn i f =>
    obtain ⟨-, htaken, -, -⟩ := BoardInv.hwReturn_frame cabling s.toLoopBoard i f.val
    simp only [CtrlLoop.step, CtrlLoop.NoneLost]
    rw [htaken]
    exact hall
  | dmaRx calls =>
    intro t ht
    replace he : calls.genlmsgReply = 0 := he
    simp only [CtrlLoop.step, CtrlLoop.dmaRx] at ht
    rcases List.mem_append.mp ht with hold | hnew
    · exact hall t hold
    obtain ⟨-, htaken, -⟩ | ⟨-, -, htaken, hreply⟩ := genlCmdDmaRx_cases s.driver true calls
    · rw [htaken] at hnew
      cases hnew
    · rw [htaken, hreply, if_neg (not_not.mpr he)] at hnew
      rw [List.mem_singleton.mp hnew]
      simp

end Printed

/-- **What the loop does**, in a state that it reached. -/
structure LoopPrinted (env : CtrlEnv) (cabling : Iface → Iface) (s : CtrlLoop) : Prop where
  -- What was printed, empty replies aside, is what was taken and answered, in order.
  inOrder : s.PrintsTaken env
  -- Every frame taken came in on a port at the end of a cable.
  ports : ∀ t ∈ s.taken, ∃ i, rxGetDstIface t.1.metadata.opCode = some (cabling i)
  -- The `k`-th of one port is the `k`-th string sent from the port at the other end, unless its reply
  -- was not sent.
  strings : ∀ (i : Iface) (k : Nat) out, (s.outputs env (cabling i))[k]? = some out →
    ∃ a, (s.sentOn i)[k]? = some a ∧ ∀ o, out = some o → a.PrintedOn (cabling i) o

/-- The invariant and the record of what is printed give the property. -/
theorem CtrlInv.loopPrinted {env : CtrlEnv} (henv : env.Sound) {cabling : Iface → Iface}
    (hcab : Function.Injective cabling) {n : Nat} {s : CtrlLoop} (h : CtrlInv cabling n s)
    (hp : s.PrintsTaken env) : LoopPrinted env cabling s where
  inOrder := hp
  ports := by
    intro t ht
    rw [← h.board.map_snd_takenFrom] at ht
    obtain ⟨x, hx, rfl⟩ := List.mem_map.mp ht
    obtain ⟨i, -, hi⟩ := List.mem_map.mp (List.of_mem_zip hx).1
    exact ⟨i, by rw [h.board.dst_of_takenFrom hx, ← hi, Option.map_some]⟩
  strings := by
    intro i k out hout
    rw [CtrlLoop.outputs, h.board.lane_taken hcab, List.getElem?_map] at hout
    obtain ⟨t, ht, rfl⟩ := Option.map_eq_some_iff.mp hout
    obtain ⟨a, ha, hnone | ⟨o, ho, hprinted⟩⟩ := h.output henv ht
    · exact ⟨a, ha, fun o ho => by rw [hnone] at ho; cases ho⟩
    · refine ⟨a, ha, fun o' ho' => ?_⟩
      rw [ho] at ho'
      exact Option.some.inj ho' ▸ hprinted

/-- **The test loop.** Whatever the cables and the order of commands and device steps: what `dma_rx` has
printed are the frames taken whose reply was sent, in order, and port by port these are the strings sent,
in the order in which they were sent and as they were sent. If every reply that was built was sent too,
nothing is missing. -/
theorem dma_loop_printed (env : CtrlEnv) (henv : env.Sound) (cabling : Iface → Iface)
    (hcab : Function.Injective cabling) (d : Driver) (n : Nat) (hn : 0 < n) (es : List CtrlEvent) :
    LoopPrinted env cabling (Runs.run (CtrlLoop.step env cabling) (CtrlLoop.init d n) es)
      ∧ ((∀ e ∈ es, e.Answered) →
        ∀ t ∈ (Runs.run (CtrlLoop.step env cabling) (CtrlLoop.init d n) es).taken,
          (env.printed t.2).isSome) := by
  have hstep : ∀ s e, CtrlInv cabling n s ∧ s.PrintsTaken env →
      CtrlInv cabling n (s.step env cabling e) ∧ (s.step env cabling e).PrintsTaken env := by
    rintro s e ⟨h, hp⟩
    have h' := h.step henv hn e
    exact ⟨h', hp.step henv e h'⟩
  obtain ⟨hinv, hp⟩ := Runs.run_invariant_of_step hstep ⟨CtrlInv.init cabling d n, rfl⟩ es
  refine ⟨hinv.loopPrinted henv hcab hp, fun hes t ht => ?_⟩
  have hnone : (CtrlLoop.init d n).NoneLost := fun _ h => nomatch h
  have hall : (Runs.run (CtrlLoop.step env cabling) (CtrlLoop.init d n) es).NoneLost :=
    Runs.run_invariant (fun _ _ h he => h.step he) hnone
      (Runs.along_of_mem (fun e he _ => hes e he) _)
  rcases hinv.replied t ht with hnone | ⟨m, hm⟩
  · exact absurd hnone (hall t ht)
  · rw [hm]
    rfl

/-! ### A kernel that works as libnl does

An environment that meets the assumptions, and a string that goes round in it. -/

/-- The parser and the messages of libnl in the place of the kernel's, and pages of 4 KiB. -/
def libnlEnv : CtrlEnv where
  parse := libnlParse
  reply c := libnlReply (replyAttrs c)
  pageSize := 4096
  family := 0
  stack _ := none

/-- It finds the attributes and lays out the replies as it has to. -/
theorem libnlEnv_sound : libnlEnv.Sound where
  parses := kernelParses_libnlParse
  replies := by
    intro c hc
    cases c with
    | none => exact libnlReply_empty
    | some m => exact libnlReply_carries (hc m rfl)
  pageLow := by decide
  pageHigh := by decide

/-- The frame of the string "A", as it comes in on port 1. -/
def frameA : { f : Frame // f.Sized } :=
  ⟨⟨65 :: List.replicate (dmaBufSize - 1) 0, ⟨60, opcodeCpu1, 0, 0⟩⟩, by
    rw [Frame.Sized, List.length_cons, List.length_replicate]
    rfl⟩

/-- The string goes round, out on port 0 and in on port 1. -/
def roundTrip : List CtrlEvent :=
  [.dmaTx ⟨[65], by decide⟩ opcodeCpu0, .hwConsume, .hwReturn 0 frameA, .dmaRx dmaRxCallsOk]

/-- The string "A" goes out on port 0 and is printed for port 1, at the length of a padded frame. -/
theorem dma_loop_printed_once :
    libnlEnv.Sound
      ∧ (Runs.run (CtrlLoop.step libnlEnv (· ^^^ 1)) (CtrlLoop.init plainDriver 1) roundTrip).printed
        = [.data (some [65]) 60 (some opcodeCpu1)]
      ∧ LoopPrinted libnlEnv (· ^^^ 1)
          (Runs.run (CtrlLoop.step libnlEnv (· ^^^ 1)) (CtrlLoop.init plainDriver 1) roundTrip)
      ∧ ∀ t ∈ (Runs.run (CtrlLoop.step libnlEnv (· ^^^ 1)) (CtrlLoop.init plainDriver 1)
          roundTrip).taken, (libnlEnv.printed t.2).isSome := by
  have hanswered : ∀ e ∈ roundTrip, e.Answered := by
    intro e he
    simp only [roundTrip, List.mem_cons, List.not_mem_nil, or_false] at he
    rcases he with rfl | rfl | rfl | rfl <;> trivial
  obtain ⟨hprinted, hall⟩ := dma_loop_printed libnlEnv libnlEnv_sound (· ^^^ 1) (by decide) plainDriver
    1 (by decide) roundTrip
  exact ⟨libnlEnv_sound, by decide +kernel, hprinted, hall hanswered⟩

end Nf10
