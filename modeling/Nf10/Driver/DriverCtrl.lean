import Mathlib.Data.List.TakeWhile
import Nf10.Driver.Attributes
import Nf10.Driver.Netlink
import Nf10.Driver.TxRing

/-!
# Nf10 — the control utility

`driver_ctrl.c`: the commands that move data through the driver, from the bytes of the request to
what is printed. The strings are those of the command line, without their terminating zero; an opcode
is the value `strtoull` made of its argument.

Two parts lie outside the sources. The kernel finds the attributes of a request (`KernelParses`), and
its messages carry what a handler puts into them (`MsgBuf.Carries`), like those of libnl.

* **`dma_tx_outcome`**: which strings go to the ring. The buffer of a message counts what is already in
  it twice, so a string of half a page leaves no room for the opcode; the client goes on without it,
  and the driver drops the request.
* **`dma_rx_printed_iff`**: what is printed of a frame. It is printed as a string, which ends with its
  first zero, or else behind the frame.
* **`echo_printed`**: a string that fits into a message is echoed, if the calls that make the reply
  succeed.
-/

namespace Nf10

/-- The numbers of `nf10_genl.h`. -/
def GenlAttr.num : GenlAttr → Nat
  | .msg => 1
  | .dmaBuf => 2
  | .addr32 => 3
  | .regval32 => 4
  | .opcode => 5
  | .errno => 6

/-- The constants of the family that the client uses. -/
def nf10GenlAMax : Nat := 6
def nf10GenlCEcho : UInt8 := 1
def nf10GenlCDmaTx : UInt8 := 2
def nf10GenlFamilyVersion : UInt8 := 1

/-- Every attribute of the family is within the range that is parsed. -/
theorem GenlAttr.num_le (a : GenlAttr) : 0 < a.num ∧ a.num ≤ nf10GenlAMax := by
  cases a <;> decide

/-! ## Requests

`driver_ctrl` builds its requests with the functions of `attr.c` and looks at their results. The
string comes from the command line, and its terminating zero goes into the message with it. -/

/-- A message with its headers, as every command begins. -/
def requestMsg (pageSize : Nat) (family : UInt16) (cmd : UInt8) : MsgBuf :=
  (genlmsgPut (nlmsgAlloc pageSize) 0 0 family 0 cmd nf10GenlFamilyVersion).1

/-- The message `do_echo` sends; what `nla_put_string` returns is not looked at. -/
def doEcho (pageSize : Nat) (family : UInt16) (str : List UInt8) : MsgBuf :=
  (nlaPutString (requestMsg pageSize family nf10GenlCEcho) GenlAttr.msg.num str).2

/-- The message `do_dma_tx` sends, if it does. Only the first put is checked. -/
def doDmaTx (pageSize : Nat) (family : UInt16) (str : List UInt8) (opcode : UInt32) :
    Option MsgBuf :=
  let (err, msg) := nlaPutString (requestMsg pageSize family nf10GenlCDmaTx) GenlAttr.msg.num str
  if err ≠ 0 then none
  else some (nlaPutU32 msg GenlAttr.opcode.num opcode).2

/-! ## Replies

What the client prints of a reply. A payload is printed with `%s`, so what is printed ends at the
first zero, and there may be none within the message. -/

/-- The string at `p`, up to a zero that has to come before `limit`. -/
def cString (mem : Nat → UInt8) (p limit : Nat) : Option (List UInt8) :=
  let bytes := readMem mem p (limit - p)
  if 0 ∈ bytes then some (bytes.takeWhile (· ≠ 0)) else none

/-- What `do_dma_rx_recv_msg_cb` prints: the string and the length of the buffer, and the opcode if
there is one. -/
inductive DmaRxOutput where
  | noData
  | data (msg : Option (List UInt8)) (len : Int) (opcode : Option UInt32)
deriving DecidableEq, Repr

/-- The array of a callback, which is not initialised: `genlmsg_parse` has to do it. -/
def parsedAttrs (msg : MsgBuf) (stack : Nat → Option Nat) : Nat → Option Nat :=
  (genlmsgParse msg.nlh msg.bytes 0 stack nf10GenlAMax none).2.tb

/-- `do_dma_rx_recv_msg_cb`. The opcode is printed if there is one. -/
def doDmaRxRecvMsgCb (msg : MsgBuf) (stack : Nat → Option Nat) : DmaRxOutput :=
  let attrs := parsedAttrs msg stack
  match attrs GenlAttr.dmaBuf.num with
  | none => .noData
  | some naMsg =>
    .data (cString msg.bytes (naMsg + nlaHdrlen) msg.nlh.nlmsgLen) (nlaLen msg.bytes naMsg)
      ((attrs GenlAttr.opcode.num).map fun na => load32 fun i => msg.bytes (na + nlaHdrlen + i))

/-- What `do_echo_recv_msg_cb` prints. `nla_data` of a missing attribute is 4, and printed too. -/
def doEchoRecvMsgCb (msg : MsgBuf) (stack : Nat → Option Nat) : Option (List UInt8) :=
  match parsedAttrs msg stack GenlAttr.msg.num with
  | none => none
  | some na => cString msg.bytes (na + nlaHdrlen) msg.nlh.nlmsgLen

/-! ## The kernel between the two

The kernel's own netlink code is not part of the repository, so it is a parameter: how it parses a
request and how it lays out a reply. What is asked of it is that a request's attributes are found
and a reply's attributes are there, which is what libnl does with the same format. -/

/-- The bytes of an attribute. -/
def Nlattr.payload (na : Nlattr) : List UInt8 :=
  readMem na.data 0 na.len

/-- Of each type the last attribute is found. -/
def KernelParses (parse : MsgBuf → GenlAttr → Option Nlattr) : Prop :=
  ∀ msg attrs, msg.Carries attrs → ∀ a,
    (parse msg a).map Nlattr.payload
      = (Records.Format.lookup attrs a.num).map Records.Record.data

/-- The four bytes of a 32-bit attribute. -/
def u32Bytes (v : UInt32) : List UInt8 :=
  readMem (nlaU32 v).data 0 4

@[simp] theorem length_u32Bytes (v : UInt32) : (u32Bytes v).length = 4 :=
  length_readMem ..

/-- What `genl_cmd_dma_rx` puts into its reply for a message. -/
def dmaRxAttrs (m : Message) : List (Records.Record UInt8) :=
  [⟨GenlAttr.dmaBuf.num, m.bytes⟩, ⟨GenlAttr.opcode.num, u32Bytes m.opCode⟩]

/-- What `genl_cmd_echo` puts into its reply for a string. -/
def echoAttrs (str : List UInt8) : List (Records.Record UInt8) :=
  [⟨GenlAttr.msg.num, str ++ [0]⟩]

/-- The parser of libnl finds what the kernel has to find. -/
def libnlParse (msg : MsgBuf) (a : GenlAttr) : Option Nlattr :=
  (parsedAttrs msg (fun _ => none) a.num).map fun nla =>
    ⟨fun i => msg.bytes (nla + nlaHdrlen + i), (nlaLen msg.bytes nla).toNat⟩

/-- A kernel that parses as libnl does meets the assumption. -/
theorem kernelParses_libnlParse : KernelParses libnlParse := by
  intro msg attrs h a
  have hpayload := payload_of_carries h (fun _ => none) nf10GenlAMax a.num
  rw [if_pos a.num_le] at hpayload
  rw [← hpayload, libnlParse, Option.map_map]
  congr 1
  funext nla
  show readMem _ 0 _ = readMem _ _ _
  apply readMem_congr
  intro i _
  dsimp only
  rw [Nat.zero_add]

/-! ## Puts into a request

The size test of `nla_reserve` on the two attributes of a request. The string goes in if `40 +
nla_total_size(strlen + 1)` is at most a page, the opcode if `48 + 2 * nla_total_size(strlen + 1)`
is. -/

/-- A request with its headers is a sound message without attributes. -/
theorem requestMsg_sound {pageSize : Nat} (hlow : attrsOffset ≤ pageSize) (family : UInt16)
    (cmd : UInt8) : (PutRun.mk (requestMsg pageSize family cmd) []).Sound pageSize := by
  obtain ⟨hcarries, hsize⟩ := genlmsgPut_carries hlow 0 0 family 0 cmd nf10GenlFamilyVersion
  exact ⟨hcarries, hsize⟩

section Puts

variable {pageSize : Nat} (hlow : attrsOffset ≤ pageSize) (hhigh : pageSize ≤ 2 ^ 16)
  (family : UInt16) (cmd : UInt8) (str : List UInt8)

include hlow

theorem requestMsg_len : (requestMsg pageSize family cmd).nlh.nlmsgLen = 20 :=
  (requestMsg_sound hlow family cmd).carries.len

/-- A string without room leaves the request as it was. -/
theorem putString_refused (h : pageSize < 40 + nlaTotalSize (str.length + 1)) :
    nlaPutString (requestMsg pageSize family cmd) GenlAttr.msg.num str
      = (-nleNomem, requestMsg pageSize family cmd) := by
  have hs := requestMsg_sound hlow family cmd
  have hlen := requestMsg_len hlow family cmd
  have hsize : (requestMsg pageSize family cmd).nmSize = pageSize := hs.nmSize
  apply nlaPut_refused hs.carries GenlAttr.msg.num (str ++ [0])
  rw [hsize, List.length_append, List.length_singleton]
  show _ < 2 * (requestMsg pageSize family cmd).nlh.nlmsgLen + _
  omega

include hhigh

/-- A string with room is the request's first attribute, zero included. -/
theorem putString_accepted (h : 40 + nlaTotalSize (str.length + 1) ≤ pageSize) :
    (nlaPutString (requestMsg pageSize family cmd) GenlAttr.msg.num str).1 = 0
      ∧ (PutRun.mk (nlaPutString (requestMsg pageSize family cmd) GenlAttr.msg.num str).2
          [⟨GenlAttr.msg.num, str ++ [0]⟩]).Sound pageSize := by
  have hs := requestMsg_sound hlow family cmd
  have hlen := requestMsg_len hlow family cmd
  have hroom : 2 * (requestMsg pageSize family cmd).nlh.nlmsgLen + nlaTotalSize (str ++ [0]).length
      ≤ pageSize := by
    rw [List.length_append, List.length_singleton]
    omega
  exact ⟨(hs.put_iff hhigh (GenlAttr.msg.num, str ++ [0])).mpr hroom,
    hs.put hhigh (GenlAttr.msg.num, str ++ [0]) hroom⟩

/-- The second put of `do_dma_tx`. -/
theorem putOpcode (h : 40 + nlaTotalSize (str.length + 1) ≤ pageSize) (opcode : UInt32) :
    (PutRun.mk (nlaPutU32 (nlaPutString (requestMsg pageSize family cmd) GenlAttr.msg.num str).2
        GenlAttr.opcode.num opcode).2
      (if 48 + 2 * nlaTotalSize (str.length + 1) ≤ pageSize then
        [⟨GenlAttr.msg.num, str ++ [0]⟩, ⟨GenlAttr.opcode.num, u32Bytes opcode⟩]
      else [⟨GenlAttr.msg.num, str ++ [0]⟩])).Sound pageSize := by
  obtain ⟨-, hs⟩ := putString_accepted hlow hhigh family cmd str h
  have hlen := hs.carries.len
  rw [Records.Format.size_cons, Records.Format.size_nil, nlaFormat_extent, List.length_append,
    List.length_singleton] at hlen
  have hoff : attrsOffset = 20 := rfl
  have hfour : nlaTotalSize (u32Bytes opcode).length = 8 := by
    rw [length_u32Bytes]
    rfl
  split
  · next hfits =>
    apply hs.put hhigh (GenlAttr.opcode.num, u32Bytes opcode)
    dsimp only at hlen ⊢
    omega
  · next hfits =>
    have hsize := hs.nmSize
    have hrefused := nlaPut_refused hs.carries GenlAttr.opcode.num (u32Bytes opcode) (by
      dsimp only at hlen hsize ⊢
      omega)
    unfold nlaPutU32
    show (PutRun.mk (nlaPut _ _ (u32Bytes opcode)).2 _).Sound pageSize
    rw [hrefused]
    exact hs

end Puts

/-! ## What the driver makes of a request

The driver's handler on a request that carries the attributes which the client put there. -/

theorem length_payload (na : Nlattr) : na.payload.length = na.len :=
  length_readMem ..

/-- What goes to the ring is the payload, cut to a buffer. -/
theorem messageOf_payload {na : Nlattr} {p : List UInt8} (h : na.payload = p) (opcode : UInt32) :
    messageOf na.data (dmaTxLen na) opcode
      = ⟨p.take dmaBufSize, UInt32.ofNat (min dmaBufSize p.length), opcode⟩ := by
  subst h
  have hlen : dmaTxLen na = UInt32.ofNat (min dmaBufSize na.len) := by
    unfold dmaTxLen
    congr 1
    split
    · omega
    · omega
  have hsmall : min dmaBufSize na.len < 2 ^ 32 := by
    unfold dmaBufSize
    omega
  unfold messageOf
  rw [hlen, UInt32.toNat_ofNat_of_lt' hsmall, length_payload]
  unfold Nlattr.payload
  rw [take_readMem]

/-- Four bytes in memory are the word whose bytes they are. -/
theorem load32_of_readMem {mem : Nat → UInt8} {p : Nat} {v : UInt32}
    (h : readMem mem p 4 = u32Bytes v) : load32 (fun i => mem (p + i)) = v := by
  have hbytes : ∀ k < 4, mem (p + k) = (nlaU32 v).data k := by
    intro k hk
    have hget := congrArg (·[k]?) h
    simpa [u32Bytes, readMem, List.getElem?_range hk] using hget
  rw [load32_congr hbytes, load32_nlaU32]

/-- A payload of four bytes is loaded as the word that was put there. -/
theorem load32_of_payload {na : Nlattr} {v : UInt32} (h : na.payload = u32Bytes v) :
    load32 na.data = v := by
  have hlen : na.len = 4 := by
    rw [← length_payload, h, length_u32Bytes]
  have hread : readMem na.data 0 4 = u32Bytes v := hlen ▸ h
  have hload := load32_of_readMem hread
  simpa only [Nat.zero_add] using hload

/-- What `dma_tx` is to put on the ring. -/
def dmaTxMessage (str : List UInt8) (opcode : UInt32) : Message :=
  ⟨(str ++ [0]).take dmaBufSize, UInt32.ofNat (min dmaBufSize (str.length + 1)), opcode⟩

/-- A message went to the TX ring: it is in the slot at `buf_index`, which is marked full, the doorbell
was written once and the index stepped. Nothing else of the ring or of the driver has changed. -/
structure Queued (d d' : Driver) (m : Message) : Prop where
  slot : d'.txDmaStream.message d.txDmaStream.bufIndex = m
  others : ∀ j, j ≠ d.txDmaStream.bufIndex → d'.txDmaStream.frame j = d.txDmaStream.frame j
  flags : d'.txDmaStream.flags = Function.update d.txDmaStream.flags d.txDmaStream.bufIndex 0
  doorbell : d'.txDmaStream.doorbell = d.txDmaStream.doorbell + 1
  bufIndex : d'.txDmaStream.bufIndex = CircularQueue.next d.dmaCpuBufs d.txDmaStream.bufIndex
  rest : d' = { d with txDmaStream := d'.txDmaStream }

/-- What `transmit` leaves in the slot, its flag, the doorbell and the index. -/
theorem queued_transmit (d : Driver) (data : Nat → UInt8) {len : UInt32} (opcode : UInt32)
    (hlen : len.toNat ≤ dmaBufSize) :
    Queued d { d with txDmaStream := d.txDmaStream.transmit d.dmaCpuBufs data len opcode }
      (messageOf data len opcode) where
  slot := message_fill_self d.txDmaStream data len opcode
  others _ hj := frame_fill_of_ne d.txDmaStream data opcode hj hlen
  flags := rfl
  doorbell := rfl
  bufIndex := rfl
  rest := rfl

section DmaTx

variable {parse : MsgBuf → GenlAttr → Option Nlattr} (hparse : KernelParses parse) {msg : MsgBuf}
  {str : List UInt8} {opcode : UInt32} (d : Driver)

include hparse

/-- A request with the string alone is turned away, and nothing changes. -/
theorem genlCmdDmaTx_noOpcode (h : msg.Carries [⟨GenlAttr.msg.num, str ++ [0]⟩]) :
    genlCmdDmaTx d (some ⟨parse msg⟩) = (d, .noOpcode) := by
  have hmsg : (parse msg .msg).map Nlattr.payload = some (str ++ [0]) := hparse msg _ h .msg
  have hop : (parse msg .opcode).map Nlattr.payload = none := hparse msg _ h .opcode
  obtain ⟨na, hna, -⟩ := Option.map_eq_some_iff.mp hmsg
  have hnone := Option.map_eq_none_iff.mp hop
  simp only [genlCmdDmaTx, hna, hnone]

/-- With both attributes there, the flag of the slot decides. -/
theorem genlCmdDmaTx_both
    (h : msg.Carries [⟨GenlAttr.msg.num, str ++ [0]⟩, ⟨GenlAttr.opcode.num, u32Bytes opcode⟩]) :
    (d.txDmaStream.flags d.txDmaStream.bufIndex = 0 →
        genlCmdDmaTx d (some ⟨parse msg⟩) = (d, .full))
      ∧ (d.txDmaStream.flags d.txDmaStream.bufIndex ≠ 0 →
        ∃ d', genlCmdDmaTx d (some ⟨parse msg⟩) = (d', .accepted (dmaTxMessage str opcode))
          ∧ Queued d d' (dmaTxMessage str opcode)) := by
  have hmsg : (parse msg .msg).map Nlattr.payload = some (str ++ [0]) := hparse msg _ h .msg
  have hop : (parse msg .opcode).map Nlattr.payload = some (u32Bytes opcode) :=
    hparse msg _ h .opcode
  obtain ⟨naMsg, hnaMsg, hpay⟩ := Option.map_eq_some_iff.mp hmsg
  obtain ⟨naOp, hnaOp, hpayOp⟩ := Option.map_eq_some_iff.mp hop
  have hmessage : messageOf naMsg.data (dmaTxLen naMsg) (load32 naOp.data)
      = dmaTxMessage str opcode := by
    rw [load32_of_payload hpayOp, messageOf_payload hpay, List.length_append, List.length_singleton]
    rfl
  constructor
  · intro hfull
    simp only [genlCmdDmaTx, hnaMsg, hnaOp, if_pos hfull]
  · intro hfree
    have hqueued := queued_transmit d naMsg.data (load32 naOp.data) (dmaTxLen_le naMsg)
    rw [hmessage] at hqueued
    refine ⟨_, ?_, hqueued⟩
    simp only [genlCmdDmaTx, hnaMsg, hnaOp, if_neg hfree, hmessage]

end DmaTx

/-- The message of `do_dma_tx` after both puts. -/
def dmaTxMsg (pageSize : Nat) (family : UInt16) (str : List UInt8) (opcode : UInt32) : MsgBuf :=
  (nlaPutU32 (nlaPutString (requestMsg pageSize family nf10GenlCDmaTx) GenlAttr.msg.num str).2
    GenlAttr.opcode.num opcode).2

/-- A request is sent exactly if the string has room; it may then lack its opcode. -/
theorem doDmaTx_eq {pageSize : Nat} (hlow : attrsOffset ≤ pageSize) (hhigh : pageSize ≤ 2 ^ 16)
    (family : UInt16) (str : List UInt8) (opcode : UInt32) :
    doDmaTx pageSize family str opcode
      = if 40 + nlaTotalSize (str.length + 1) ≤ pageSize then
          some (dmaTxMsg pageSize family str opcode)
        else none := by
  split
  · next h =>
    have hret := (putString_accepted hlow hhigh family nf10GenlCDmaTx str h).1
    simp [doDmaTx, hret, dmaTxMsg]
  · next h =>
    unfold doDmaTx
    rw [putString_refused hlow family nf10GenlCDmaTx str (by omega)]
    rfl

/-- **Which strings `dma_tx` puts on the ring.** With the room `n` that the string takes as an
attribute: it is refused if `n + 40` exceeds the page; it is sent without an opcode, and dropped by
the driver, if `2 n + 48` does; else the string goes to the ring with its zero, cut to a buffer, unless
the ring is full: it is then in its slot, the slot is marked full and the doorbell rung. -/
theorem dma_tx_outcome (parse : MsgBuf → GenlAttr → Option Nlattr) (hparse : KernelParses parse)
    (pageSize : Nat) (hlow : attrsOffset ≤ pageSize) (hhigh : pageSize ≤ 2 ^ 16) (family : UInt16)
    (str : List UInt8) (opcode : UInt32) (d : Driver) :
    (pageSize < 40 + nlaTotalSize (str.length + 1) →
        doDmaTx pageSize family str opcode = none)
      ∧ (40 + nlaTotalSize (str.length + 1) ≤ pageSize →
          pageSize < 48 + 2 * nlaTotalSize (str.length + 1) →
          ∃ msg, doDmaTx pageSize family str opcode = some msg
            ∧ genlCmdDmaTx d (some ⟨parse msg⟩) = (d, .noOpcode))
      ∧ (48 + 2 * nlaTotalSize (str.length + 1) ≤ pageSize →
          ∃ msg, doDmaTx pageSize family str opcode = some msg
            ∧ (d.txDmaStream.flags d.txDmaStream.bufIndex = 0 →
                genlCmdDmaTx d (some ⟨parse msg⟩) = (d, .full))
            ∧ (d.txDmaStream.flags d.txDmaStream.bufIndex ≠ 0 →
                ∃ d', genlCmdDmaTx d (some ⟨parse msg⟩) = (d', .accepted (dmaTxMessage str opcode))
                  ∧ Queued d d' (dmaTxMessage str opcode))) := by
  rw [doDmaTx_eq hlow hhigh family str opcode]
  refine ⟨fun h => if_neg (by omega), ?_, ?_⟩
  · intro h hsplit
    have hs := putOpcode hlow hhigh family nf10GenlCDmaTx str h opcode
    rw [if_neg (by omega)] at hs
    exact ⟨_, if_pos h, genlCmdDmaTx_noOpcode hparse d hs.carries⟩
  · intro h
    have hs := putOpcode hlow hhigh family nf10GenlCDmaTx str (by omega) opcode
    rw [if_pos h] at hs
    exact ⟨_, if_pos (by omega), genlCmdDmaTx_both hparse d hs.carries⟩

/-- A string of 2020 characters is the first that a page of 4 KiB leaves without an opcode. -/
theorem dma_tx_outcome_half_page :
    KernelParses libnlParse
      ∧ ∃ msg, doDmaTx 4096 0 (List.replicate 2020 65) 2 = some msg
        ∧ genlCmdDmaTx plainDriver (some ⟨libnlParse msg⟩) = (plainDriver, .noOpcode) :=
  ⟨kernelParses_libnlParse,
    (dma_tx_outcome libnlParse kernelParses_libnlParse 4096 (by decide) (by decide) 0
      (List.replicate 2020 65) 2 plainDriver).2.1
      (by rw [List.length_replicate]; decide) (by rw [List.length_replicate]; decide)⟩

/-! ## What is printed of a reply

What the client's callback finds in a reply that carries the driver's attributes, and where its `%s`
stops. -/

theorem readMem_add (mem : Nat → UInt8) (p k l : Nat) :
    readMem mem p (k + l) = readMem mem p k ++ readMem mem (p + k) l := by
  unfold readMem
  rw [List.range_add, List.map_append, List.map_map]
  congr 1
  apply List.map_congr_left
  intro i _
  show mem (p + (k + i)) = mem (p + k + i)
  rw [Nat.add_assoc]

/-- The string that starts with the frame: it ends with the first zero of the frame, or with the
padding, or inside the header of the next attribute, whose first byte is its length 8. -/
def printedAs (frame : List UInt8) : List UInt8 :=
  if 0 ∈ frame then frame.takeWhile (· ≠ 0)
  else if frame.length % 4 = 0 then frame ++ [8]
  else frame

/-- A search that ends in the first part never sees the second. -/
theorem takeWhile_of_mem {α : Type} {p : α → Bool} {xs : List α} (h : ∃ x ∈ xs, p x = false)
    (ys : List α) : (xs ++ ys).takeWhile p = xs.takeWhile p := by
  induction xs with
  | nil => simp at h
  | cons x xs ih =>
    cases hx : p x with
    | false => simp [hx]
    | true =>
      obtain ⟨y, hy, hpy⟩ := h
      rcases List.mem_cons.mp hy with rfl | hy
      · rw [hx] at hpy
        cases hpy
      · simp [hx, ih ⟨y, hy, hpy⟩]

/-- Behind a frame comes its padding, then the length of the next attribute. -/
theorem takeWhile_frame (frame rest : List UInt8) (h : ∃ ys,
    rest = List.replicate (nlaPadlen frame.length) 0 ++ (8 :: 0 :: ys)) :
    0 ∈ frame ++ rest ∧ (frame ++ rest).takeWhile (· ≠ 0) = printedAs frame := by
  obtain ⟨ys, rfl⟩ := h
  refine ⟨by simp, ?_⟩
  unfold printedAs
  split
  · next h0 => exact takeWhile_of_mem ⟨0, h0, by simp⟩ _
  · next h0 =>
    have hall : ∀ b ∈ frame, (decide (b ≠ 0)) = true := by
      intro b hb
      simpa using ne_of_mem_of_not_mem hb h0
    rw [List.takeWhile_append_of_pos hall]
    split
    · next hmod =>
      have hpad : nlaPadlen frame.length = 0 := by
        unfold nlaPadlen nlaTotalSize nlaAlign nlaAttrSize nlaHdrlen
        omega
      rw [hpad]
      simp
    · next hmod =>
      obtain ⟨k, hpad⟩ : ∃ k, nlaPadlen frame.length = k + 1 := by
        apply Nat.exists_eq_succ_of_ne_zero
        unfold nlaPadlen nlaTotalSize nlaAlign nlaAttrSize nlaHdrlen
        omega
      rw [hpad, List.replicate_succ]
      simp

/-- The bytes of a reply of two attributes, from the payload of the first to the end. -/
theorem reply_bytes {msg : MsgBuf} {t t' : Nat} {data data' : List UInt8}
    (h : msg.Carries [⟨t, data⟩, ⟨t', data'⟩]) (hdata' : data'.length = 4) :
    ∃ ys, readMem msg.bytes (attrsOffset + nlaHdrlen)
        (msg.nlh.nlmsgLen - (attrsOffset + nlaHdrlen))
      = data ++ (List.replicate (nlaPadlen data.length) 0 ++ (8 :: 0 :: ys)) := by
  obtain ⟨hat, hat', -⟩ := h.holds
  have hlen := h.len
  have hfour : nlaTotalSize 4 = 8 := rfl
  have hoff : attrsOffset = 20 := rfl
  have htotal : 4 + data.length + nlaPadlen data.length = nlaTotalSize data.length := by
    have hle : nlaAttrSize data.length ≤ nlaTotalSize data.length := le_nlaAlign _
    have hsize : nlaAttrSize data.length = 4 + data.length := rfl
    unfold nlaPadlen
    omega
  simp only [Records.Format.size_cons, Records.Format.size_nil, nlaFormat_extent, hdata', hfour]
    at hlen
  have hrest : msg.nlh.nlmsgLen - (attrsOffset + nlaHdrlen)
      = data.length + (nlaPadlen data.length + (1 + (1 + 6))) := by
    unfold nlaHdrlen
    omega
  have hpad : readMem msg.bytes (attrsOffset + nlaHdrlen + data.length) (nlaPadlen data.length)
      = List.replicate (nlaPadlen data.length) 0 := by
    apply List.ext_getElem (by simp)
    intro i hi hi'
    rw [length_readMem] at hi
    simp only [readMem, List.getElem_map, List.getElem_range, List.getElem_replicate]
    apply h.padded.1
    · show attrsOffset + (4 + data.length) ≤ attrsOffset + 4 + data.length + i
      omega
    · show attrsOffset + 4 + data.length + i < attrsOffset + nlaTotalSize data.length
      omega
  have hnext : attrsOffset + nlaHdrlen + data.length + nlaPadlen data.length
      = attrsOffset + nlaFormat.extent ⟨t, data⟩ := by
    show attrsOffset + 4 + data.length + nlaPadlen data.length
      = attrsOffset + nlaTotalSize data.length
    omega
  -- the length of the second attribute is 8, so its bytes are 8 and 0
  have hload : load16 msg.bytes (attrsOffset + nlaFormat.extent ⟨t, data⟩) = 4 + data'.length :=
    hat'.len
  unfold load16 at hload
  have hlt := (msg.bytes (attrsOffset + nlaFormat.extent ⟨t, data⟩)).toNat_lt
  have hb0 : msg.bytes (attrsOffset + nlaFormat.extent ⟨t, data⟩) = 8 := by
    apply UInt8.toNat_inj.mp
    show _ = 8
    omega
  have hb1 : msg.bytes (attrsOffset + nlaFormat.extent ⟨t, data⟩ + 1) = 0 := by
    apply UInt8.toNat_inj.mp
    show _ = 0
    omega
  refine ⟨readMem msg.bytes (attrsOffset + nlaFormat.extent ⟨t, data⟩ + 1 + 1) 6, ?_⟩
  rw [hrest, readMem_add, readMem_of_at hat, readMem_add, hpad, hnext, readMem_add, readMem_add]
  congr 2
  simp [readMem, hb0, hb1]

/-- Of the reply for a message: its bytes as `printedAs` has them, its length and its opcode. The
string always ends inside the reply. -/
theorem doDmaRxRecvMsgCb_message {reply : MsgBuf} {m : Message} (h : reply.Carries (dmaRxAttrs m))
    (stack : Nat → Option Nat) :
    doDmaRxRecvMsgCb reply stack
      = .data (some (printedAs m.bytes)) m.bytes.length (some m.opCode) := by
  obtain ⟨hat, hat', -⟩ := h.holds
  have htb := (genlmsgParse_carries h stack nf10GenlAMax).2.2
  have hindex : ∀ t, Records.Format.index nlaFormat reply.bytes
      (nlaFormat.positions attrsOffset (dmaRxAttrs m)) t
      = if 5 = t then some (attrsOffset + nlaFormat.extent ⟨GenlAttr.dmaBuf.num, m.bytes⟩)
        else if 2 = t then some attrsOffset else none := by
    intro t
    have hpos : nlaFormat.positions attrsOffset (dmaRxAttrs m)
        = [attrsOffset] ++ [attrsOffset + nlaFormat.extent ⟨GenlAttr.dmaBuf.num, m.bytes⟩] := rfl
    rw [hpos, Records.Format.index_append_singleton, Records.Format.index_cons, hat.tag, hat'.tag]
    rfl
  have hbuf : parsedAttrs reply stack GenlAttr.dmaBuf.num = some attrsOffset := by
    unfold parsedAttrs
    rw [htb, hindex]
    rfl
  have hop : parsedAttrs reply stack GenlAttr.opcode.num
      = some (attrsOffset + nlaFormat.extent ⟨GenlAttr.dmaBuf.num, m.bytes⟩) := by
    unfold parsedAttrs
    rw [htb, hindex]
    rfl
  have hlen : nlaLen reply.bytes attrsOffset = m.bytes.length := by
    have hload : load16 reply.bytes attrsOffset = 4 + m.bytes.length := hat.len
    unfold nlaLen nlaHdrlen
    omega
  have hopcode : load32 (fun i => reply.bytes
      (attrsOffset + nlaFormat.extent ⟨GenlAttr.dmaBuf.num, m.bytes⟩ + nlaHdrlen + i)) = m.opCode := by
    apply load32_of_readMem
    have hbytes := readMem_of_at hat'
    rwa [length_u32Bytes] at hbytes
  have hstr : cString reply.bytes (attrsOffset + nlaHdrlen) reply.nlh.nlmsgLen
      = some (printedAs m.bytes) := by
    obtain ⟨ys, hys⟩ := reply_bytes h (length_u32Bytes m.opCode)
    obtain ⟨hmem, htake⟩ := takeWhile_frame m.bytes _ ⟨ys, rfl⟩
    unfold cString
    rw [hys]
    dsimp only
    rw [if_pos hmem, htake]
  unfold doDmaRxRecvMsgCb
  simp only [hbuf, hop, hstr, hlen, Option.map_some, hopcode]

/-- Attributes put into a buffer of 64 KiB. -/
def libnlReply (attrs : List (Records.Record UInt8)) : MsgBuf :=
  (Runs.run PutRun.step (PutRun.mk (requestMsg (2 ^ 16) 0 3) []) (attrs.map fun r => (r.tag, r.data))).msg

/-- A reply that libnl builds carries its attributes, if they have room by the doubled test. -/
theorem libnlReply_holds {attrs : List (Records.Record UInt8)} (htags : ∀ r ∈ attrs, r.tag < 2 ^ 14)
    (hroom : 40 + 2 * nlaFormat.size attrs ≤ 2 ^ 16) : (libnlReply attrs).Carries attrs := by
  have hs := requestMsg_sound (show attrsOffset ≤ 2 ^ 16 by decide) 0 3
  have hlen := requestMsg_len (show attrsOffset ≤ 2 ^ 16 by decide) 0 3
  exact hs.run_records (Nat.le_refl _) htags (by
    dsimp only
    omega)

theorem libnlReply_empty : (libnlReply []).Carries [] :=
  libnlReply_holds (fun _ h => nomatch h) (by decide)

/-- The reply for a frame has room, since a buffer is 2 KiB. -/
theorem libnlReply_carries {m : Message} (h : m.bytes.length ≤ dmaBufSize) :
    (libnlReply (dmaRxAttrs m)).Carries (dmaRxAttrs m) := by
  have htotal : nlaTotalSize m.bytes.length ≤ 2055 := by
    unfold nlaTotalSize nlaAlign nlaAttrSize nlaHdrlen
    unfold dmaBufSize at h
    omega
  have hfour : nlaTotalSize 4 = 8 := rfl
  apply libnlReply_holds
  · simp [dmaRxAttrs, GenlAttr.num]
  · rw [dmaRxAttrs, Records.Format.size_cons, Records.Format.size_cons, Records.Format.size_nil,
      nlaFormat_extent, nlaFormat_extent, length_u32Bytes]
    dsimp only
    omega

/-- **What `dma_rx` prints of a frame.** The string ends with the first zero of the frame, or with the
frame, exactly if there is a zero or its length is not a multiple of 4. Otherwise the length of the next
attribute is printed behind it. -/
theorem dma_rx_printed_iff (reply : MsgBuf) (stack : Nat → Option Nat) (m : Message)
    (h : reply.Carries (dmaRxAttrs m)) :
    ∃ text, doDmaRxRecvMsgCb reply stack = .data (some text) m.bytes.length (some m.opCode)
      ∧ (text = m.bytes.takeWhile (· ≠ 0) ↔ 0 ∈ m.bytes ∨ m.bytes.length % 4 ≠ 0)
      ∧ (¬ (0 ∈ m.bytes ∨ m.bytes.length % 4 ≠ 0) → text = m.bytes ++ [8]) := by
  refine ⟨printedAs m.bytes, doDmaRxRecvMsgCb_message h stack, ?_⟩
  unfold printedAs
  split
  · next h0 => exact ⟨iff_of_true rfl (Or.inl h0), fun hnot => absurd (Or.inl h0) hnot⟩
  · next h0 =>
    have hall : m.bytes.takeWhile (· ≠ 0) = m.bytes := by
      apply List.takeWhile_eq_self_iff.mpr
      intro b hb
      simpa using ne_of_mem_of_not_mem hb h0
    rw [hall]
    split
    · next hmod => exact ⟨iff_of_false (by simp) (by simp [h0, hmod]), fun _ => rfl⟩
    · next hmod => exact ⟨iff_of_true rfl (Or.inr hmod), fun hnot => absurd (Or.inr hmod) hnot⟩

/-- "ABCD" is printed with a backspace behind it. -/
theorem dma_rx_printed_backspace :
    (libnlReply (dmaRxAttrs ⟨[65, 66, 67, 68], 4, 8⟩)).Carries (dmaRxAttrs ⟨[65, 66, 67, 68], 4, 8⟩)
      ∧ doDmaRxRecvMsgCb (libnlReply (dmaRxAttrs ⟨[65, 66, 67, 68], 4, 8⟩)) (fun _ => none)
        = .data (some [65, 66, 67, 68, 8]) 4 (some 8) := by
  have hcarries : (libnlReply (dmaRxAttrs ⟨[65, 66, 67, 68], 4, 8⟩)).Carries
      (dmaRxAttrs ⟨[65, 66, 67, 68], 4, 8⟩) := libnlReply_carries (by decide)
  obtain ⟨text, hout, -, htext⟩ := dma_rx_printed_iff _ (fun _ => none) _ hcarries
  rw [htext (by decide)] at hout
  exact ⟨hcarries, hout⟩

/-! ## The echo

The same for the echo, which comes back in the attribute it was sent in. -/

/-- A string that was sent with its zero ends there. -/
theorem strlen_of_payload {na : Nlattr} {str : List UInt8} (h : na.payload = str ++ [0])
    (h0 : 0 ∉ str) : na.strlen = str.length := by
  have hfind : na.strlen = (str ++ [0]).findIdx (· == 0) := by
    rw [← h]
    unfold Nlattr.strlen Nlattr.payload readMem
    rw [List.findIdx_map]
    simp only [Nat.zero_add]
    rfl
  have hnone : str.findIdx (· == 0) = str.length := by
    apply List.findIdx_eq_length.mpr
    intro b hb
    simpa using ne_of_mem_of_not_mem hb h0
  rw [hfind, List.findIdx_append, hnone]
  simp

/-- Up to the first zero, a terminated string is itself. -/
theorem takeWhile_terminated {str : List UInt8} (h0 : 0 ∉ str) (rest : List UInt8) :
    (str ++ [0] ++ rest).takeWhile (· ≠ 0) = str := by
  have hall : ∀ b ∈ str, decide (b ≠ 0) = true := by
    intro b hb
    simpa using ne_of_mem_of_not_mem hb h0
  rw [takeWhile_of_mem ⟨0, by simp, by simp⟩, List.takeWhile_append_of_pos hall]
  simp

/-- The client prints the string of the reply. -/
theorem doEchoRecvMsgCb_echo {reply : MsgBuf} {str : List UInt8} (h : reply.Carries (echoAttrs str))
    (h0 : 0 ∉ str) (stack : Nat → Option Nat) : doEchoRecvMsgCb reply stack = some str := by
  obtain ⟨hat, -⟩ := h.holds
  have hlen := h.len
  have htb := (genlmsgParse_carries h stack nf10GenlAMax).2.2
  have hpos : parsedAttrs reply stack GenlAttr.msg.num = some attrsOffset := by
    have hone : nlaFormat.positions attrsOffset (echoAttrs str) = [] ++ [attrsOffset] := rfl
    unfold parsedAttrs
    rw [htb, if_pos (by decide), hone, Records.Format.index_append_singleton, hat.tag]
    rfl
  have hrest : reply.nlh.nlmsgLen - (attrsOffset + nlaHdrlen)
      = (str ++ [0]).length + nlaPadlen (str ++ [0]).length := by
    have hle : nlaAttrSize (str ++ [0]).length ≤ nlaTotalSize (str ++ [0]).length := le_nlaAlign _
    have hsize : nlaAttrSize (str ++ [0]).length = 4 + (str ++ [0]).length := rfl
    simp only [echoAttrs, Records.Format.size_cons, Records.Format.size_nil, nlaFormat_extent] at hlen
    unfold nlaHdrlen nlaPadlen
    omega
  have hbytes := readMem_of_at hat
  have hstr : cString reply.bytes (attrsOffset + nlaHdrlen) reply.nlh.nlmsgLen = some str := by
    unfold cString
    rw [hrest, readMem_add, hbytes]
    dsimp only
    rw [if_pos (by simp), takeWhile_terminated h0]
  unfold doEchoRecvMsgCb
  rw [hpos]
  exact hstr

/-- The calls that make the reply succeed: `genlmsg_new` and `genlmsg_put_reply` give a message, the
string fits into it, and `genlmsg_reply` sends it. -/
structure EchoCalls.Succeed (calls : EchoCalls) : Prop where
  genlmsgNew : calls.genlmsgNewNull = false
  genlmsgPutReply : calls.genlmsgPutReplyNull = false
  nlaPutString : calls.nlaPutString = 0
  genlmsgReply : calls.genlmsgReply = 0

/-- A string of the request is answered with itself exactly if the calls that make the reply succeed. The
message for the reply is smaller than a page, so the string may fit the one and not the other. -/
theorem genlCmdEcho_of_payload {parse : GenlAttr → Option Nlattr} {na : Nlattr} {str : List UInt8}
    (hna : parse .msg = some na) (hpay : na.payload = str ++ [0]) (h0 : 0 ∉ str) (calls : EchoCalls) :
    (calls.Succeed → (genlCmdEcho (some ⟨parse⟩) calls).reply = some str)
      ∧ (¬ calls.Succeed → (genlCmdEcho (some ⟨parse⟩) calls).reply = none) := by
  have hread : readMem na.data 0 na.strlen = str := by
    have hlen : na.len = str.length + 1 := by
      rw [← length_payload, hpay, List.length_append, List.length_singleton]
    have htake : na.payload.take str.length = str := by
      rw [hpay]
      simp
    rw [strlen_of_payload hpay h0]
    rw [Nlattr.payload, take_readMem, Nat.min_eq_left (by omega)] at htake
    exact htake
  unfold genlCmdEcho
  simp only [hna]
  constructor
  · intro hcalls
    simp [hcalls.genlmsgNew, hcalls.genlmsgPutReply, hcalls.nlaPutString, hcalls.genlmsgReply, hread]
  · intro hcalls
    -- the exits in the order of the source
    split
    · rfl
    next hnew =>
    split
    · rfl
    next hput =>
    split
    · rfl
    next hstring =>
    split
    · rfl
    next hreply =>
    exact absurd ⟨eq_false_of_ne_true hnew, eq_false_of_ne_true hput, not_not.mp hstring,
      not_not.mp hreply⟩ hcalls

/-- **Echo.** A string that fits into a message comes back from the driver exactly if the calls that make
the reply succeed, and its reply is printed as the string; a longer one is not answered, whatever they
do. -/
theorem echo_printed (parse : MsgBuf → GenlAttr → Option Nlattr) (hparse : KernelParses parse)
    (pageSize : Nat) (hlow : attrsOffset ≤ pageSize) (hhigh : pageSize ≤ 2 ^ 16) (family : UInt16)
    (str : List UInt8) (h0 : 0 ∉ str) (calls : EchoCalls) :
    (pageSize < 40 + nlaTotalSize (str.length + 1) →
        (genlCmdEcho (some ⟨parse (doEcho pageSize family str)⟩) calls).reply = none)
      ∧ (40 + nlaTotalSize (str.length + 1) ≤ pageSize →
          (calls.Succeed →
              (genlCmdEcho (some ⟨parse (doEcho pageSize family str)⟩) calls).reply = some str)
            ∧ (¬ calls.Succeed →
              (genlCmdEcho (some ⟨parse (doEcho pageSize family str)⟩) calls).reply = none)
            ∧ ∀ reply stack, reply.Carries (echoAttrs str) →
                doEchoRecvMsgCb reply stack = some str) := by
  constructor
  · intro h
    have hmsg : doEcho pageSize family str = requestMsg pageSize family nf10GenlCEcho := by
      unfold doEcho
      rw [putString_refused hlow family nf10GenlCEcho str h]
    have hnone := hparse _ _ (requestMsg_sound hlow family nf10GenlCEcho).carries .msg
    have hnone' := Option.map_eq_none_iff.mp hnone
    rw [hmsg]
    simp only [genlCmdEcho, hnone']
  · intro h
    obtain ⟨-, hs⟩ := putString_accepted hlow hhigh family nf10GenlCEcho str h
    have hmsg : (parse (doEcho pageSize family str) .msg).map Nlattr.payload = some (str ++ [0]) :=
      hparse _ _ hs.carries .msg
    obtain ⟨na, hna, hpay⟩ := Option.map_eq_some_iff.mp hmsg
    obtain ⟨hsucceed, hfail⟩ := genlCmdEcho_of_payload hna hpay h0 calls
    exact ⟨hsucceed, hfail, fun reply stack hreply => doEchoRecvMsgCb_echo hreply h0 stack⟩

/-- "hi" comes back, and does not if the reply could not be sent. -/
theorem echo_printed_hi :
    KernelParses libnlParse
      ∧ (genlCmdEcho (some ⟨libnlParse (doEcho 4096 0 [104, 105])⟩) ⟨false, false, 0, 0⟩).reply
        = some [104, 105]
      ∧ (genlCmdEcho (some ⟨libnlParse (doEcho 4096 0 [104, 105])⟩) ⟨false, false, 0, -105⟩).reply
        = none := by
  have hecho := fun calls => (echo_printed libnlParse kernelParses_libnlParse 4096 (by decide)
    (by decide) 0 [104, 105] (by decide) calls).2 (by decide)
  refine ⟨kernelParses_libnlParse, (hecho _).1 ⟨rfl, rfl, rfl, rfl⟩, (hecho _).2.1 ?_⟩
  intro hcalls
  exact absurd hcalls.genlmsgReply (by decide)

end Nf10
