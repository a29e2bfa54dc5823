import Nf10.Driver.Datagram

/-!
# Nf10 — registers over the wire

A client that reads and writes registers with `nf10_reg_lib.c`, from the bytes of its requests to the
bytes it receives. Each call opens a socket of its own, sends one message and receives once.

The kernel between the two is outside the sources: it finds the attributes of a request
(`KernelParses`), answers under the sequence number of the request, and adds whatever else it sends
behind the reply (`RegEnv`, `RegEnv.Sound`).

* **`FlatSession`** — what the calls are for: a word for each address;
* **`reg_session_flat`** — over every sequence of calls that are answered, all that the calls return and
  all that they leave in `*val_ptr` is what the flat memory says.
-/

namespace Nf10

/-! ## Requests

`nf10_reg_rd` and `nf10_reg_wr` build a message, and `nl_send_auto` fills out what they left at
zero: the sender, the sequence number and the flags. -/

/-- The commands of the family for registers. -/
def nf10GenlCRegRd : UInt8 := 4
def nf10GenlCRegWr : UInt8 := 5

/-- The flags that every request gets. -/
def nlmFRequest : UInt16 := 1
def nlmFAck : UInt16 := 4

/-- The message of `nf10_reg_rd`. What `nla_put_u32` returns is not looked at. -/
def regRdMsg (pageSize : Nat) (family : UInt16) (addr : UInt32) : MsgBuf :=
  (nlaPutU32 (requestMsg pageSize family nf10GenlCRegRd) GenlAttr.addr32.num addr).2

/-- The message of `nf10_reg_wr`. -/
def regWrMsg (pageSize : Nat) (family : UInt16) (addr val : UInt32) : MsgBuf :=
  let msg := (nlaPutU32 (requestMsg pageSize family nf10GenlCRegWr) GenlAttr.addr32.num addr).2
  (nlaPutU32 msg GenlAttr.regval32.num val).2

/-- `nl_complete_msg`, on a socket that asks for acknowledgements. -/
def nlCompleteMsg (nlPid seqNext : UInt32) (msg : MsgBuf) : MsgBuf :=
  { msg with nlh := { msg.nlh with
      nlmsgPid := if msg.nlh.nlmsgPid = 0 then nlPid else msg.nlh.nlmsgPid
      nlmsgSeq := if msg.nlh.nlmsgSeq = 0 then seqNext else msg.nlh.nlmsgSeq
      nlmsgFlags := msg.nlh.nlmsgFlags ||| nlmFRequest ||| nlmFAck } }

theorem MsgBuf.Carries.complete {msg : MsgBuf} {attrs : List (Records.Record UInt8)}
    (h : msg.Carries attrs) (nlPid seqNext : UInt32) : (nlCompleteMsg nlPid seqNext msg).Carries attrs :=
  ⟨h.len, h.fits, h.holds, h.padded⟩

theorem nlaPut_nlmsgSeq (msg : MsgBuf) (attrtype : Nat) (data : List UInt8) :
    (nlaPut msg attrtype data).2.nlh.nlmsgSeq = msg.nlh.nlmsgSeq := by
  unfold nlaPut nlaReserve
  dsimp only
  split
  · rfl
  · next heq =>
    split at heq
    · cases heq
    · cases heq
      split
      · rfl
      · rfl

theorem requestMsg_nlmsgSeq (pageSize : Nat) (family : UInt16) (cmd : UInt8) :
    (requestMsg pageSize family cmd).nlh.nlmsgSeq = 0 := by
  unfold requestMsg genlmsgPut nlmsgPut nlmsgReserve
  dsimp only
  rw [if_pos (show 0 < genlHdrlen by decide)]
  split_ifs <;> rfl

/-- The request goes out under the number of the socket. -/
theorem regRdMsg_seq (pageSize : Nat) (family : UInt16) (addr nlPid seq : UInt32) :
    (nlCompleteMsg nlPid seq (regRdMsg pageSize family addr)).nlh.nlmsgSeq = seq := by
  have hzero : (regRdMsg pageSize family addr).nlh.nlmsgSeq = 0 := by
    unfold regRdMsg nlaPutU32
    rw [nlaPut_nlmsgSeq, requestMsg_nlmsgSeq]
  exact if_pos hzero

/-- So the number of a request is the socket's. -/
theorem regWrMsg_seq (pageSize : Nat) (family : UInt16) (addr val nlPid seq : UInt32) :
    (nlCompleteMsg nlPid seq (regWrMsg pageSize family addr val)).nlh.nlmsgSeq = seq := by
  have hzero : (regWrMsg pageSize family addr val).nlh.nlmsgSeq = 0 := by
    unfold regWrMsg nlaPutU32
    rw [nlaPut_nlmsgSeq, nlaPut_nlmsgSeq, requestMsg_nlmsgSeq]
  exact if_pos hzero

section Requests

variable {pageSize : Nat} (hlow : 64 ≤ pageSize) (hhigh : pageSize ≤ 2 ^ 16) (family : UInt16)
  (addr val : UInt32)

include hlow hhigh

/-- The address goes into a request of either kind. -/
theorem putAddr_sound (cmd : UInt8) :
    (PutRun.mk (nlaPutU32 (requestMsg pageSize family cmd) GenlAttr.addr32.num addr).2
      [⟨GenlAttr.addr32.num, u32Bytes addr⟩]).Sound pageSize := by
  have hoff : attrsOffset ≤ pageSize := Nat.le_trans (by decide) hlow
  have hlen := requestMsg_len hoff family cmd
  have hfour : nlaTotalSize (u32Bytes addr).length = 8 := by
    rw [length_u32Bytes]
    rfl
  apply (requestMsg_sound hoff family cmd).put hhigh (GenlAttr.addr32.num, u32Bytes addr)
  dsimp only
  omega

theorem regRdMsg_carries :
    (regRdMsg pageSize family addr).Carries [⟨GenlAttr.addr32.num, u32Bytes addr⟩] :=
  (putAddr_sound hlow hhigh family addr nf10GenlCRegRd).carries

/-- The request of a write has the address and the value. -/
theorem regWrMsg_carries :
    (regWrMsg pageSize family addr val).Carries
      [⟨GenlAttr.addr32.num, u32Bytes addr⟩, ⟨GenlAttr.regval32.num, u32Bytes val⟩] := by
  have hs := putAddr_sound hlow hhigh family addr nf10GenlCRegWr
  have hlen := hs.carries.len
  rw [Records.Format.size_cons, Records.Format.size_nil, nlaFormat_extent, length_u32Bytes] at hlen
  have height : nlaTotalSize 4 = 8 := rfl
  have hoff : attrsOffset = 20 := rfl
  have hput := hs.put hhigh (GenlAttr.regval32.num, u32Bytes val) (by
    rw [length_u32Bytes]
    dsimp only at hlen ⊢
    omega)
  exact hput.carries

end Requests

/-! ## The driver's answer

The driver finds in the request what the client put there, by the assumption on the kernel's parser,
and its reply is laid out by the kernel again. -/

/-- What the driver puts into a reply: the value if there is one, then the errno. -/
def RegReply.records (r : RegReply) : List (Records.Record UInt8) :=
  (r.regval.toList.map fun v => ⟨GenlAttr.regval32.num, u32Bytes v⟩)
    ++ [⟨GenlAttr.errno.num, u32Bytes (UInt32.ofInt r.errno)⟩]

/-- The kernel's parser and its replies to a request, the size of a page and the number of the
family. -/
structure RegEnv where
  parse : MsgBuf → GenlAttr → Option Nlattr
  reply : Nlmsghdr → List (Records.Record UInt8) → MsgBuf
  pageSize : Nat
  family : UInt16

/-- A reply carries what was put into it, under the number of the request, in one part. -/
structure RegEnv.Sound (env : RegEnv) : Prop where
  parses : KernelParses env.parse
  replies : ∀ (nlh : Nlmsghdr) (r : RegReply), (env.reply nlh r.records).Carries r.records
  seq : ∀ nlh attrs, (env.reply nlh attrs).nlh.nlmsgSeq = nlh.nlmsgSeq
  type : ∀ nlh attrs, (env.reply nlh attrs).nlh.nlmsgType = env.family
  single : ∀ nlh attrs, (env.reply nlh attrs).nlh.nlmsgFlags &&& nlmFMulti = 0
  -- The numbers below are those of netlink itself (`NLMSG_MIN_TYPE`).
  family : 16 ≤ env.family
  pageLow : 64 ≤ env.pageSize
  pageHigh : env.pageSize ≤ 2 ^ 16

/-- What arrives at the client: the driver's reply if there is one, and the rest. -/
def RegEnv.answer (env : RegEnv) (req : MsgBuf) (r : RegResult) (rest : List Recvmsg) :
    List Recvmsg :=
  (r.reply.toList.map fun reply => .datagram (env.reply req.nlh reply.records).datagram) ++ rest

section Requests

variable {env : RegEnv} (henv : env.Sound) (addr val nlPid seq : UInt32)

include henv

/-- The driver loads the word that the client put under this type. -/
theorem load32_parse {req : MsgBuf} {attrs : List (Records.Record UInt8)} (h : req.Carries attrs)
    {a : GenlAttr} {v : UInt32} (hlook : Records.Format.lookup attrs a.num = some ⟨a.num, u32Bytes v⟩) :
    ∃ na, env.parse req a = some na ∧ load32 na.data = v := by
  have hpay := henv.parses req attrs h a
  rw [hlook] at hpay
  obtain ⟨na, hna, hbytes⟩ := Option.map_eq_some_iff.mp hpay
  exact ⟨na, hna, load32_of_payload hbytes⟩

theorem regRdRequest_parse :
    regRdRequest ⟨env.parse (nlCompleteMsg nlPid seq (regRdMsg env.pageSize env.family addr))⟩
      = if Aligned addr then some addr else none := by
  have hcarries := (regRdMsg_carries henv.pageLow henv.pageHigh env.family addr).complete nlPid seq
  obtain ⟨na, hna, hload⟩ := load32_parse henv hcarries (a := .addr32) (v := addr) rfl
  simp only [regRdRequest, hna, hload]

theorem regWrRequest_parse :
    regWrRequest ⟨env.parse (nlCompleteMsg nlPid seq (regWrMsg env.pageSize env.family addr val))⟩
      = if Aligned addr then some (addr, val) else none := by
  have hcarries := (regWrMsg_carries henv.pageLow henv.pageHigh env.family addr val).complete nlPid seq
  obtain ⟨na, hna, hload⟩ := load32_parse henv hcarries (a := .addr32) (v := addr) rfl
  obtain ⟨na', hna', hload'⟩ := load32_parse henv hcarries (a := .regval32) (v := val) rfl
  simp only [regWrRequest, hna, hna', hload, hload']

end Requests

/-! ## The client receives

A reply is one datagram of one message, and a single part. So `recvmsgs` returns after it, with what
the callback returned; what the kernel sends afterwards stays in the socket, which the library
closes. -/

/-- The first datagram holds one message of a family that is not in parts. Whatever follows, the call
returns what the callback makes of it. -/
theorem nlRecvmsgs_reply {σ : Type} (cb : RawCb σ) {m : MsgBuf} (hlo : nlmsgHdrlen ≤ m.nlh.nlmsgLen)
    (hhi : m.nlh.nlmsgLen < 2 ^ 32) (htype : 16 ≤ m.nlh.nlmsgType)
    (hsingle : m.nlh.nlmsgFlags &&& nlmFMulti = 0) {pageSize : Nat} (hpage : m.nlh.nlmsgLen ≤ pageSize)
    (rest : List Recvmsg) (val : σ) :
    nlRecvmsgs pageSize cb (.datagram m.datagram :: rest) ⟨m.nlh.nlmsgSeq.toNat, val⟩
      = match rawCbCall cb.valid m.received ⟨m.nlh.nlmsgSeq.toNat, val⟩ with
        | (.next, s) => some (0, s)
        | (.stop, s) => some (0, s)
        | (.out err, s) => some (err, s) := by
  have hnlh := received_nlh hhi
  have hne : ∀ t : UInt16, t < 16 → m.nlh.nlmsgType ≠ t := by
    rintro t ht rfl
    exact absurd htype (UInt16.not_le.mpr ht)
  have hmsg : recvRawMsg cb m.received ⟨m.nlh.nlmsgSeq.toNat, val⟩
      = rawCbCall cb.valid m.received ⟨m.nlh.nlmsgSeq.toNat, val⟩ := by
    unfold recvRawMsg
    rw [hnlh, if_neg (by simp), if_neg (hne _ (by decide)), if_neg (hne _ (by decide)),
      if_neg (hne _ (by decide)), if_neg (hne _ (by decide))]
  have hparts : m.received.multipart false = false := by
    unfold MsgBuf.multipart
    rw [hnlh, if_neg (hne _ (by decide)), hsingle]
    rfl
  have hfits : m.datagram.Fits pageSize := by
    unfold nlmsgHdrlen at hlo
    exact ⟨Nat.ne_of_gt (show 0 < m.nlh.nlmsgLen by omega), hpage⟩
  unfold nlRecvmsgs
  rw [nlRecvs_of_fits hfits]
  unfold recvRawmsgs
  rw [messages_datagram hlo hhi]
  unfold recvRawDatagram recvRawDatagram
  rw [hmsg, hparts]
  generalize rawCbCall cb.valid m.received ⟨m.nlh.nlmsgSeq.toNat, val⟩ = r
  obtain ⟨flow, s⟩ := r
  cases flow with
  | next => rfl
  | stop => rfl
  | out err => rfl

/-- A request that is sent has the result of the receive. -/
theorem libRequestRaw_sent (pageSize : Nat) {c : LibCalls} (hc : c.sent = true) (cb : RawCb UInt32)
    (calls : List Recvmsg) (s : NlSock) :
    libRequestRaw pageSize c cb calls s
      = (nlRecvmsgs pageSize cb calls s.raw).map fun r => (r.1, r.2.val) := by
  simp only [LibCalls.sent, Bool.and_eq_true, beq_iff_eq, Bool.not_eq_true',
    decide_eq_true_eq] at hc
  have hsend : ¬ c.nlSendAuto < 0 := by omega
  simp [libRequestRaw, hc.1.1, hc.1.2, hsend]

/-- A 32-bit attribute of a message that carries it. -/
theorem parsedAttrs_u32 {m : MsgBuf} {attrs : List (Records.Record UInt8)} (h : m.Carries attrs)
    (stack : Nat → Option Nat) {a : GenlAttr} {v : UInt32}
    (hlook : Records.Format.lookup attrs a.num = some ⟨a.num, u32Bytes v⟩) :
    ∃ na, parsedAttrs m stack a.num = some na
      ∧ load32 (fun i => m.bytes (na + nlaHdrlen + i)) = v := by
  have hpay := payload_of_carries h stack nf10GenlAMax a.num
  rw [if_pos a.num_le, hlook] at hpay
  obtain ⟨na, hna, hbytes⟩ := Option.map_eq_some_iff.mp hpay
  refine ⟨na, hna, ?_⟩
  have hlen : (nlaLen m.bytes na).toNat = 4 := by
    have hlength := congrArg List.length hbytes
    rwa [nlaPayload, length_readMem, length_u32Bytes] at hlength
  apply load32_of_readMem
  rw [nlaPayload, hlen] at hbytes
  exact hbytes

theorem size_records (r : RegReply) : nlaFormat.size r.records ≤ 16 := by
  obtain ⟨regval, errno⟩ := r
  have height : nlaTotalSize 4 = 8 := rfl
  cases regval with
  | none =>
    simp only [RegReply.records, Option.toList_none, List.map_nil, List.nil_append,
      Records.Format.size_cons, Records.Format.size_nil, nlaFormat_extent, length_u32Bytes, height]
    decide
  | some v =>
    simp only [RegReply.records, Option.toList_some, List.map_cons, List.map_nil, List.cons_append,
      List.nil_append, Records.Format.size_cons, Records.Format.size_nil, nlaFormat_extent,
      length_u32Bytes, height]
    decide

/-- The attributes of a reply are far below the 64 KiB that the formats hold. -/
theorem size_records_lt (r : RegReply) : nlaFormat.size r.records < 2 ^ 16 :=
  Nat.lt_of_le_of_lt (size_records r) (by decide)

theorem tag_records (r : RegReply) : ∀ a ∈ r.records, a.tag < 2 ^ 14 := by
  obtain ⟨regval, errno⟩ := r
  cases regval <;> simp [RegReply.records, GenlAttr.num]

section Receive

variable {env : RegEnv} (henv : env.Sound) {c : LibCalls} (hc : c.sent = true) (nlh : Nlmsghdr)
  (rest : List Recvmsg) (stack : Nat → Option Nat) (val : UInt32)

include henv hc

/-- The library over the reply to a request. -/
theorem libRequestRaw_reply (cb : RawCb UInt32) (r : RegReply) :
    libRequestRaw env.pageSize c cb (.datagram (env.reply nlh r.records).datagram :: rest)
        ⟨nlh.nlmsgSeq.toNat, val⟩
      = match rawCbCall cb.valid (env.reply nlh r.records).received ⟨nlh.nlmsgSeq.toNat, val⟩ with
        | (.next, s) => some (0, s.val)
        | (.stop, s) => some (0, s.val)
        | (.out err, s) => some (err, s.val) := by
  have hcarries := henv.replies nlh r
  have hlt := hcarries.len_lt (size_records_lt r)
  have hlo : nlmsgHdrlen ≤ (env.reply nlh r.records).nlh.nlmsgLen := by
    rw [hcarries.len]
    exact Nat.le_trans (by decide) (Nat.le_add_right attrsOffset _)
  have hfam : 16 ≤ (env.reply nlh r.records).nlh.nlmsgType := by
    rw [henv.type]
    exact henv.family
  have hpage : (env.reply nlh r.records).nlh.nlmsgLen ≤ env.pageSize := by
    have hlen := hcarries.len
    have hsize := size_records r
    have hlow := henv.pageLow
    have hoff : attrsOffset = 20 := rfl
    omega
  rw [libRequestRaw_sent env.pageSize hc, ← henv.seq nlh r.records, NlSock.raw,
    nlRecvmsgs_reply cb hlo hlt hfam (henv.single nlh _) hpage rest val]
  generalize rawCbCall cb.valid _ _ = flow
  obtain ⟨flow, s⟩ := flow
  cases flow with
  | next => rfl
  | stop => rfl
  | out err => rfl

/-- `nf10_reg_wr` has no callback for the reply. -/
theorem nf10RegWrRaw_reply (r : RegReply) :
    nf10RegWrRaw env.pageSize c stack (.datagram (env.reply nlh r.records).datagram :: rest)
        ⟨nlh.nlmsgSeq.toNat, val⟩
      = some 0 := by
  unfold nf10RegWrRaw
  rw [libRequestRaw_reply henv hc]
  rfl

/-- A reply with a value gives the client the value. -/
theorem nf10RegRdRaw_value (v : UInt32) :
    nf10RegRdRaw env.pageSize c stack
        (.datagram (env.reply nlh (RegReply.records ⟨some v, 0⟩)).datagram :: rest)
        ⟨nlh.nlmsgSeq.toNat, val⟩
      = some (0, v) := by
  have hcarries := (henv.replies nlh ⟨some v, 0⟩).received (size_records_lt _)
  obtain ⟨na, hna, hload⟩ := parsedAttrs_u32 hcarries stack (a := .errno) (v := UInt32.ofInt 0) rfl
  obtain ⟨na', hna', hload'⟩ := parsedAttrs_u32 hcarries stack (a := .regval32) (v := v) rfl
  have herr : loadInt (fun i => (env.reply nlh (RegReply.records ⟨some v, 0⟩)).received.bytes
      (na + nlaHdrlen + i)) = 0 := by
    rw [loadInt, hload]
    decide
  unfold nf10RegRdRaw
  rw [libRequestRaw_reply henv hc]
  simp [rawCbCall, nf10RegRdRecvMsgCbRaw, hna, hna', herr, hload']

/-- A reply with an error gives the client -1, and leaves `*val_ptr`. -/
theorem nf10RegRdRaw_error :
    nf10RegRdRaw env.pageSize c stack
        (.datagram (env.reply nlh (RegReply.records ⟨none, -1⟩)).datagram :: rest)
        ⟨nlh.nlmsgSeq.toNat, val⟩
      = some (-1, val) := by
  have hcarries := (henv.replies nlh ⟨none, -1⟩).received (size_records_lt _)
  obtain ⟨na, hna, hload⟩ := parsedAttrs_u32 hcarries stack (a := .errno) (v := UInt32.ofInt (-1)) rfl
  have herr : loadInt (fun i => (env.reply nlh (RegReply.records ⟨none, -1⟩)).received.bytes
      (na + nlaHdrlen + i)) = -1 := by
    rw [loadInt, hload]
    decide
  unfold nf10RegRdRaw
  rw [libRequestRaw_reply henv hc]
  simp [rawCbCall, nf10RegRdRecvMsgCbRaw, hna, herr]

end Receive

/-! ## Sessions

A session is any sequence of calls, each with its own fortunes. On the other side stands the memory
that a user of the library has in mind, one word for each address. -/

/-- A call of the library. -/
inductive RegCall where
  | rd (addr : UInt32)
  | wr (addr val : UInt32)
deriving DecidableEq, Repr

/-- What a call returns; a read leaves a value in `*val_ptr`. -/
inductive RegAnswer where
  | rd (ret : Option (Int × UInt32))
  | wr (ret : Option Int)
deriving DecidableEq, Repr

/-- What a call meets: how the library and the driver fare, its socket, what is in `*val_ptr` and on its
stack, and what the kernel sends behind the reply. -/
structure CallEnv where
  lib : LibCalls
  calls : RegCalls
  nlPid : UInt32
  seq : UInt32
  val : UInt32
  stack : Nat → Option Nat
  rest : List Recvmsg

/-- The request is sent, and so is the driver's reply. -/
def CallEnv.Answered (e : CallEnv) : Prop :=
  e.lib.sent = true ∧ e.calls.delivered = true

/-- The registers, and what the calls have returned. -/
structure RegSession where
  regs : RegFile
  answers : List RegAnswer

/-- `nf10_reg_rd` and `nf10_reg_wr`, with the driver at the other end. A request that is not sent does
not reach it. -/
def RegSession.step (env : RegEnv) (s : RegSession) : RegCall × CallEnv → RegSession
  | (.rd addr, e) =>
    let req := nlCompleteMsg e.nlPid e.seq (regRdMsg env.pageSize env.family addr)
    let r := if e.lib.sent then genlCmdRegRd s.regs (some ⟨env.parse req⟩) e.calls
      else (s.regs, ⟨0, none, none⟩)
    { regs := r.1
      answers := s.answers
        ++ [.rd (nf10RegRdRaw env.pageSize e.lib e.stack (env.answer req r.2 e.rest)
          ⟨e.seq.toNat, e.val⟩)] }
  | (.wr addr val, e) =>
    let req := nlCompleteMsg e.nlPid e.seq (regWrMsg env.pageSize env.family addr val)
    let r := if e.lib.sent then genlCmdRegWr s.regs (some ⟨env.parse req⟩) e.calls
      else (s.regs, ⟨0, none, none⟩)
    { regs := r.1
      answers := s.answers
        ++ [.wr (nf10RegWrRaw env.pageSize e.lib e.stack (env.answer req r.2 e.rest)
          ⟨e.seq.toNat, e.val⟩)] }

/-- The same calls on a word for each address. A misaligned read is reported; a misaligned write is
not, and not carried out. -/
structure FlatSession where
  mem : Flat
  answers : List RegAnswer

/-- A call on the flat memory. -/
def FlatSession.step (s : FlatSession) : RegCall × CallEnv → FlatSession
  | (.rd addr, e) =>
    { s with answers := s.answers
        ++ [.rd (some (if Aligned addr then (0, s.mem addr) else (-1, e.val)))] }
  | (.wr addr val, _) =>
    { mem := if Aligned addr then Function.update s.mem addr val else s.mem
      answers := s.answers ++ [.wr (some 0)] }

/-! ## What the driver does with an answered request

The reply of a handler whose calls all succeed, for each of the two requests. An address that is not
aligned is answered too, with -1. -/

section Serve

variable (regs : RegFile) {info : GenlInfo} {calls : RegCalls} (hd : calls.delivered = true)
  {addr val : UInt32}

include hd

/-- A read replies with the register, or with -1. -/
theorem genlCmdRegRd_delivered (hreq : regRdRequest info = if Aligned addr then some addr else none) :
    (genlCmdRegRd regs (some info) calls).2.reply
      = some (if Aligned addr then ⟨some (regs.words (regPlace addr)), 0⟩ else ⟨none, -1⟩) := by
  obtain ⟨hp, hroom, -⟩ := RegCalls.delivered_spec hd
  split
  · next hal =>
    rw [if_pos hal] at hreq
    rw [genlCmdRegRd_served hp hreq]
    dsimp only
    rw [if_neg (by omega), sendError_delivered hd (by omega)]
  · next hal =>
    rw [if_neg hal] at hreq
    rw [genlCmdRegRd_refused hp hreq]
    dsimp only
    rw [sendError_delivered hd (by omega)]

theorem genlCmdRegWr_delivered
    (hreq : regWrRequest info = if Aligned addr then some (addr, val) else none) :
    ∃ r, (genlCmdRegWr regs (some info) calls).2.reply = some r := by
  obtain ⟨hp, hroom, -⟩ := RegCalls.delivered_spec hd
  by_cases hal : Aligned addr
  · rw [if_pos hal] at hreq
    rw [genlCmdRegWr_served hp hreq]
    dsimp only
    rw [sendError_delivered hd (by omega)]
    exact ⟨_, rfl⟩
  · rw [if_neg hal] at hreq
    rw [genlCmdRegWr_refused hp hreq]
    dsimp only
    rw [sendError_delivered hd (by omega)]
    exact ⟨_, rfl⟩

/-- The flat memory after the write. -/
theorem flat_step_wr (hreq : regWrRequest info = if Aligned addr then some (addr, val) else none)
    (m : Flat) :
    Flat.step m (.wr (some info) calls) = if Aligned addr then Function.update m addr val else m := by
  obtain ⟨hp, -, -⟩ := RegCalls.delivered_spec hd
  unfold Flat.step RegCmd.written
  simp only [hp, if_true, hreq]
  by_cases hal : Aligned addr
  · simp only [if_pos hal]
  · simp only [if_neg hal]

end Serve

/-! ## The session is flat

The registers refine the flat memory, as for the handlers alone, and the answers are equal. One call
keeps both. -/

/-- The registers hold the flat memory, and the answers so far are the same. -/
structure SessionAgrees (s : RegSession) (f : FlatSession) : Prop where
  regs : Refines s.regs f.mem
  answers : s.answers = f.answers

/-- **The step lemma.** -/
theorem SessionAgrees.step {env : RegEnv} (henv : env.Sound) {s : RegSession} {f : FlatSession}
    (h : SessionAgrees s f) {e : RegCall × CallEnv} (he : e.2.Answered) :
    SessionAgrees (s.step env e) (f.step e) := by
  obtain ⟨call, e⟩ := e
  obtain ⟨hsent, hd⟩ := he
  cases call with
  | rd addr =>
    have hreq := regRdRequest_parse henv addr e.nlPid e.seq
    have hseq := regRdMsg_seq env.pageSize env.family addr e.nlPid e.seq
    unfold RegSession.step FlatSession.step
    simp only at hsent hd ⊢
    generalize nlCompleteMsg e.nlPid e.seq (regRdMsg env.pageSize env.family addr) = req at hreq hseq ⊢
    have hreply := genlCmdRegRd_delivered s.regs hd hreq
    simp only [hsent, if_true]
    refine ⟨h.regs.step (.rd (some ⟨env.parse req⟩) e.calls), ?_⟩
    rw [h.answers, RegEnv.answer, hreply, ← hseq]
    apply congrArg (fun ret => f.answers ++ [RegAnswer.rd ret])
    by_cases hal : Aligned addr
    · rw [if_pos hal, if_pos hal, h.regs addr hal]
      exact nf10RegRdRaw_value henv hsent req.nlh e.rest e.stack e.val _
    · rw [if_neg hal, if_neg hal]
      exact nf10RegRdRaw_error henv hsent req.nlh e.rest e.stack e.val
  | wr addr val =>
    have hreq := regWrRequest_parse henv addr val e.nlPid e.seq
    have hseq := regWrMsg_seq env.pageSize env.family addr val e.nlPid e.seq
    unfold RegSession.step FlatSession.step
    simp only at hsent hd ⊢
    generalize nlCompleteMsg e.nlPid e.seq (regWrMsg env.pageSize env.family addr val) = req
      at hreq hseq ⊢
    obtain ⟨r, hreply⟩ := genlCmdRegWr_delivered s.regs hd hreq
    simp only [hsent, if_true]
    refine ⟨?_, ?_⟩
    · have hrefines := h.regs.step (.wr (some ⟨env.parse req⟩) e.calls)
      rwa [flat_step_wr hd hreq] at hrefines
    · rw [h.answers, RegEnv.answer, hreply, ← hseq]
      exact congrArg (fun ret => f.answers ++ [RegAnswer.wr ret])
        (nf10RegWrRaw_reply henv hsent req.nlh e.rest e.stack e.val r)

/-- **Registers over the wire.** Over every sequence of calls that are answered, whatever the kernel
sends behind the replies, the calls return what they would on a memory with a word for each address
that starts with the registers. -/
theorem reg_session_flat (env : RegEnv) (henv : env.Sound) (regs : RegFile)
    (es : List (RegCall × CallEnv)) (hes : ∀ e ∈ es, e.2.Answered) :
    (Runs.run (RegSession.step env) ⟨regs, []⟩ es).answers
      = (Runs.run FlatSession.step ⟨fun a => regs.words (regPlace a), []⟩ es).answers := by
  have hinit : SessionAgrees ⟨regs, []⟩ ⟨fun a => regs.words (regPlace a), []⟩ :=
    ⟨fun _ _ => rfl, rfl⟩
  have hstep : ∀ (s : RegSession) (f : FlatSession) (e : RegCall × CallEnv), SessionAgrees s f →
      e.2.Answered → SessionAgrees (s.step env e) (f.step e) :=
    fun _ _ _ h he => h.step henv he
  exact (Runs.run_lockstep hstep hinit hes).answers

/-! A kernel that works as libnl does, for the registers. -/

/-- A reply as libnl would build it, under the number of the request. -/
def libnlRegReply (nlh : Nlmsghdr) (attrs : List (Records.Record UInt8)) : MsgBuf :=
  let msg := libnlReply attrs
  { msg with nlh := { msg.nlh with nlmsgType := 16, nlmsgFlags := 0, nlmsgSeq := nlh.nlmsgSeq } }

/-- The parser and the messages of libnl in the place of the kernel's. -/
def libnlRegEnv : RegEnv where
  parse := libnlParse
  reply := libnlRegReply
  pageSize := 4096
  family := 16

theorem libnlRegEnv_sound : libnlRegEnv.Sound where
  parses := kernelParses_libnlParse
  replies := by
    intro nlh r
    have hsize := size_records r
    have hcarries : (libnlReply r.records).Carries r.records :=
      libnlReply_holds (tag_records r) (by omega)
    exact ⟨hcarries.len, hcarries.fits, hcarries.holds, hcarries.padded⟩
  seq _ _ := rfl
  type _ _ := rfl
  single _ _ := show 0 &&& nlmFMulti = 0 by decide
  family := by decide
  pageLow := by decide
  pageHigh := by decide

/-- The socket of the process 1, with an acknowledgement behind the reply. -/
def plainCall : CallEnv where
  lib := libCallsOk
  calls := regCallsOk
  nlPid := 1
  seq := 9
  val := 0
  stack _ := none
  rest := [.datagram (requestMsg 4096 2 0).datagram]

/-- A register is written and read back, a misaligned write reports success and does nothing, and
a misaligned read is refused. -/
theorem reg_session_flat_written :
    libnlRegEnv.Sound ∧ plainCall.Answered
      ∧ (Runs.run (RegSession.step libnlRegEnv) ⟨⟨0, fun _ => 5⟩, []⟩
          [(.wr 4 7, plainCall), (.rd 4, plainCall), (.wr 2 1, plainCall), (.rd 2, plainCall),
            (.rd 8, plainCall)]).answers
        = [.wr (some 0), .rd (some (0, 7)), .wr (some 0), .rd (some (-1, 0)), .rd (some (0, 5))] := by
  have hanswered : plainCall.Answered := by
    unfold CallEnv.Answered
    decide
  refine ⟨libnlRegEnv_sound, hanswered, ?_⟩
  rw [reg_session_flat libnlRegEnv libnlRegEnv_sound ⟨0, fun _ => 5⟩ _ (by
    intro e he
    simp only [List.mem_cons, List.not_mem_nil, or_false] at he
    rcases he with rfl | rfl | rfl | rfl | rfl <;> exact hanswered)]
  decide +kernel

end Nf10
