import Nf10.Driver.Registers

/-!
# Nf10 — the register library of the client

`nf10_reg_lib.c` over the `recvmsgs` of the bundled libnl. Both functions send a request, install
one callback and receive once. The driver answers a request with a message of its own and the kernel
adds its ACK, in two datagrams; `recvmsgs` reads one.

`nf10_reg_rd` waits for the driver's message (`NL_CB_VALID`), which is the first datagram.
`nf10_reg_wr` waits for the ACK (`NL_CB_ACK`), which is the second: the first is ignored for want of
a callback, and 0 is returned over whatever errno it carries. **`reg_lib_status_iff`**: the library
reports the driver's status exactly for the aligned addresses.
-/

namespace Nf10

/-! ## libnl

The library waits for its answer in `recvmsgs`, the receive loop of libnl. It is modelled with its
sequence check, its callbacks and its error codes, because the value a library call returns is what
this loop returns. -/

/-- What a message's type says of it: the control messages of netlink, or one of the family's own. -/
inductive NlKind where
  | done
  | noop
  | overrun
  | error (code : Int)
  | valid

/-- A message as `recvmsgs` meets it. `attrs` is what `genlmsg_parse` makes of its payload. -/
structure NlMsg where
  seq : Nat
  multi : Bool
  kind : NlKind
  attrs : GenlAttr → Option Nlattr

/-- The socket's expected sequence number, and the `*val_ptr` that a callback may write. -/
structure NlSock where
  seqExpect : Nat
  val : UInt32

/-- A callback for a message. It returns a libnl action or an error, and may write the value. -/
abbrev NlCallback := NlMsg → UInt32 → Int × UInt32

/-- The callbacks a client of the library installs; those of kind `NL_CB_DEFAULT` are `NULL`. -/
structure NlCb where
  valid : Option NlCallback
  ack : Option NlCallback

/-- The error numbers of `errno.h` that the library and the loop use. -/
def nleFailure : Int := 1
def nleNomem : Int := 5
def nleNoattr : Int := 13
def nleSeqMismatch : Int := 16
def nleMsgOverflow : Int := 17

/-- `nl_syserr2nlerr`: a system error as an error of libnl. -/
def nlSyserr2nlerr (error : Int) : Int :=
  match error.natAbs with
  | 9 => 3
  | 98 => 6
  | 17 => 6
  | 99 => 19
  | 2 => 12
  | 4 => 2
  | 11 => 4
  | 88 => 3
  | 92 => 7
  | 14 => 7
  | 13 => 27
  | 22 => 7
  | 105 => nleNomem
  | 12 => nleNomem
  | 97 => 11
  | 93 => 26
  | 95 => 10
  | 1 => 28
  | 16 => 25
  | 34 => 8
  | _ => nleFailure

/-- Where the processing of a message leaves `recvmsgs`. -/
inductive NlFlow where
  | next
  | stop
  | out (err : Int)

/-- `NL_CB_CALL`: `NL_OK` and `NL_SKIP` go on to the next message, `NL_STOP` ends with 0, and any
other value is returned. -/
def nlCbCall (cb : Option NlCallback) (m : NlMsg) (s : NlSock) : NlFlow × NlSock :=
  match cb with
  | none => (.next, s)
  | some f =>
    let r := f m s.val
    let s := { s with val := r.2 }
    if r.1 = 0 ∨ r.1 = 1 then (.next, s)
    else if r.1 = 2 then (.stop, s)
    else (.out r.1, s)

/-- One turn of the loop over the messages of a datagram. -/
def recvMsg (cb : NlCb) (m : NlMsg) (s : NlSock) : NlFlow × NlSock :=
  if m.seq ≠ s.seqExpect then (.out (-nleSeqMismatch), s)
  else
    match m.kind with
    | .done => (.next, { s with seqExpect := s.seqExpect + 1 })
    | .noop => (.next, { s with seqExpect := s.seqExpect + 1 })
    | .overrun => (.out (-nleMsgOverflow), { s with seqExpect := s.seqExpect + 1 })
    | .error code =>
      let s := { s with seqExpect := s.seqExpect + 1 }
      if code ≠ 0 then (.out (-nlSyserr2nlerr code), s) else nlCbCall cb.ack m s
    | .valid => nlCbCall cb.valid m s

/-- Whether the loop is inside a multipart message after `m`, when it was or was not before. -/
def NlMsg.multipart (m : NlMsg) (multipart : Bool) : Bool :=
  match m.kind with
  | .done => false
  | _ => multipart || m.multi

/-- The messages of one datagram. The first component is the return value if one of them ends the
call. -/
def recvDatagram (cb : NlCb) : List NlMsg → Bool → NlSock → Option Int × Bool × NlSock
  | [], multipart, s => (none, multipart, s)
  | m :: ms, multipart, s =>
    match recvMsg cb m s with
    | (.next, s) => recvDatagram cb ms (m.multipart multipart) s
    | (.stop, s) => (some 0, multipart, s)
    | (.out err, s) => (some err, multipart, s)

/-- What a call of `nl_recv` gives to `recvmsgs`: the messages of a datagram, or a number that is not
positive. -/
abbrev NlRead := Except Int (List NlMsg)

/-- `recvmsgs` on what its calls of `nl_recv` give, one after the other. It reads on only inside a
multipart message, and waits for ever if there is nothing to read. -/
def recvmsgs (cb : NlCb) : List NlRead → Bool → NlSock → Option (Int × NlSock)
  | [], _, _ => none
  -- `if (n <= 0) return n`
  | .error n :: _, _, s => some (n, s)
  | .ok dg :: reads, multipart, s =>
    match recvDatagram cb dg multipart s with
    | (some err, _, s) => some (err, s)
    | (none, true, s) => recvmsgs cb reads true s
    | (none, false, s) => some (0, s)

/-! ## The library

`nf10_reg_lib.c`: the two calls that read and write a register, each with the callback that takes
the driver's reply apart. -/

/-- A 32-bit `int` as the bits say. -/
def loadInt (p : Nat → UInt8) : Int :=
  (load32 p).toInt32.toInt

/-- The callback of a read. An error in the reply is returned as it is; the value is stored only
without one. -/
def nf10RegRdRecvMsgCb : NlCallback := fun msg val =>
  match msg.attrs .errno with
  | none => (-nleNoattr, val)
  | some naErrno =>
    let err := loadInt naErrno.data
    if err ≠ 0 then (err, val)
    else
      match msg.attrs .regval32 with
      | none => (-nleNoattr, val)
      | some naRegval => (0, load32 naRegval.data)

/-- The callback of a write returns the driver's error number. -/
def nf10RegWrRecvAckCb : NlCallback := fun msg val =>
  match msg.attrs .errno with
  | none => (-nleNoattr, val)
  | some naErrno => (loadInt naErrno.data, val)

/-- What the library calls answer before anything is received. -/
structure LibCalls where
  driverConnect : Int
  nlmsgAllocNull : Bool
  nlSendAuto : Int

/-- The request goes out. -/
def LibCalls.sent (c : LibCalls) : Bool :=
  c.driverConnect == 0 && !c.nlmsgAllocNull && decide (0 ≤ c.nlSendAuto)

/-- The common course of the two functions: connect, build and send the request, receive once. -/
def libRequest (c : LibCalls) (cb : NlCb) (reads : List NlRead) (s : NlSock) :
    Option (Int × UInt32) :=
  if c.driverConnect ≠ 0 then some (c.driverConnect, s.val)
  else if c.nlmsgAllocNull then some (-nleNomem, s.val)
  else if c.nlSendAuto < 0 then some (c.nlSendAuto, s.val)
  else (recvmsgs cb reads false s).map fun r => (r.1, r.2.val)

/-- `nf10_reg_rd`: its return value and what `*val_ptr` holds then. -/
def nf10RegRd (c : LibCalls) (reads : List NlRead) (s : NlSock) : Option (Int × UInt32) :=
  libRequest c ⟨some nf10RegRdRecvMsgCb, none⟩ reads s

/-- `nf10_reg_wr`: its return value. -/
def nf10RegWr (c : LibCalls) (reads : List NlRead) (s : NlSock) : Option Int :=
  (libRequest c ⟨none, some nf10RegWrRecvAckCb⟩ reads s).map Prod.fst

/-! ## Request and answer

The attributes of the requests as the library builds them, and the datagrams in which the kernel
answers. A reply of the driver comes first, and the acknowledgement of netlink after it. -/

/-- The driver's reply on the wire. The `int` errno travels as a `u32`. -/
def RegReply.attrs (r : RegReply) : GenlAttr → Option Nlattr
  | .errno => some (nlaU32 (UInt32.ofInt r.errno))
  | .regval32 => r.regval.map nlaU32
  | _ => none

/-- What the kernel sends back for a request with number `seq`: the driver's reply if there is one,
then the ACK with the driver's return value. `ackAttrs` is what parsing the ACK yields. -/
def answer (seq : Nat) (ackAttrs : GenlAttr → Option Nlattr) (r : RegResult) : List NlRead :=
  (r.reply.toList.map fun reply => .ok [⟨seq, false, .valid, reply.attrs⟩])
    ++ [.ok [⟨seq, false, .error r.ret, ackAttrs⟩]]

/-- `nf10_reg_wr` returns 0 if and only if the driver performed the write. -/
def WrFaithful (c : LibCalls) (s : NlSock) (ackAttrs : GenlAttr → Option Nlattr) (h : RegFile)
    (calls : RegCalls) (addr val : UInt32) : Prop :=
  let r := (genlCmdRegWr h (some (wrInfo addr val)) calls).2
  nf10RegWr c (answer s.seqExpect ackAttrs r) s = some 0 ↔ r.access.isSome

/-- `nf10_reg_rd` returns 0 if and only if the driver performed the read; `*val_ptr` then holds the
register, and is unchanged otherwise. -/
def RdFaithful (c : LibCalls) (s : NlSock) (ackAttrs : GenlAttr → Option Nlattr) (h : RegFile)
    (calls : RegCalls) (addr : UInt32) : Prop :=
  let r := (genlCmdRegRd h (some (rdInfo addr)) calls).2
  ∃ ret val, nf10RegRd c (answer s.seqExpect ackAttrs r) s = some (ret, val)
    ∧ (ret = 0 ↔ r.access.isSome)
    ∧ (∀ place, r.access = some place → val = h.words place)
    ∧ (r.access = none → val = s.val)

/-! ## Replies that reach the client

A handler that sends a reply has passed all its calls, so what it returned and accessed is known
from the reply alone. These lemmas say what a register access did, for every outcome of the calls. -/

section Replies

variable {h : RegFile} {calls : RegCalls} {addr val : UInt32}

/-- A reply that was sent is the one built, and the handler returns 0. -/
theorem sendError_of_reply {room : Nat} {regval : Option UInt32} {err : Int}
    {access : Option (Nat × Nat)} (hr : (sendError calls room regval err access).reply.isSome) :
    sendError calls room regval err access = ⟨0, some ⟨regval, err⟩, access⟩ := by
  unfold sendError at hr ⊢
  split
  · next hroom => simp [hroom] at hr
  · next hroom =>
    rw [if_neg hroom] at hr
    split
    · next hsend => simp [hsend] at hr
    · rfl

/-- A read that is answered has had its reply prepared. -/
theorem prepared_of_rd_reply {info : GenlInfo}
    (hr : (genlCmdRegRd h (some info) calls).2.reply.isSome) : calls.prepared = true := by
  unfold genlCmdRegRd at hr
  dsimp only at hr
  split at hr
  · cases hr
  split at hr
  · cases hr
  · simp_all [RegCalls.prepared]

/-- A write that is answered has had its reply prepared. -/
theorem prepared_of_wr_reply {info : GenlInfo}
    (hr : (genlCmdRegWr h (some info) calls).2.reply.isSome) : calls.prepared = true := by
  unfold genlCmdRegWr at hr
  dsimp only at hr
  split at hr
  · cases hr
  split at hr
  · cases hr
  · simp_all [RegCalls.prepared]

/-- A read that is answered: an aligned address is read, any other is refused with -1. -/
theorem rd_result (hr : (genlCmdRegRd h (some (rdInfo addr)) calls).2.reply.isSome) :
    (genlCmdRegRd h (some (rdInfo addr)) calls).2
      = if Aligned addr then
          ⟨0, some ⟨some (h.words (regPlace addr)), 0⟩, some (regPlace addr)⟩
        else ⟨0, some ⟨none, -1⟩, none⟩ := by
  have hp := prepared_of_rd_reply hr
  split
  · next hal =>
    have hreq : regRdRequest (rdInfo addr) = some addr := by simp [regRdRequest_rdInfo, hal]
    rw [genlCmdRegRd_served hp hreq] at hr ⊢
    dsimp only at hr ⊢
    split at hr
    · -- no room for the value means no room for the errno either
      simp [sendError] at hr
    · next hroom =>
      rw [if_neg hroom]
      exact sendError_of_reply hr
  · next hal =>
    have hreq : regRdRequest (rdInfo addr) = none := by simp [regRdRequest_rdInfo, hal]
    rw [genlCmdRegRd_refused hp hreq] at hr ⊢
    exact sendError_of_reply hr

/-- A write that is answered: an aligned address is written, any other is refused with -1. -/
theorem wr_result (hr : (genlCmdRegWr h (some (wrInfo addr val)) calls).2.reply.isSome) :
    (genlCmdRegWr h (some (wrInfo addr val)) calls).2
      = if Aligned addr then ⟨0, some ⟨none, 0⟩, some (regPlace addr)⟩
        else ⟨0, some ⟨none, -1⟩, none⟩ := by
  have hp := prepared_of_wr_reply hr
  split
  · next hal =>
    have hreq : regWrRequest (wrInfo addr val) = some (addr, val) := by
      simp [regWrRequest_wrInfo, hal]
    rw [genlCmdRegWr_served hp hreq] at hr ⊢
    exact sendError_of_reply hr
  · next hal =>
    have hreq : regWrRequest (wrInfo addr val) = none := by simp [regWrRequest_wrInfo, hal]
    rw [genlCmdRegWr_refused hp hreq] at hr ⊢
    exact sendError_of_reply hr

end Replies

/-! ## One receive

What the client's call makes of the answer. The loop reads one datagram, so a reply of the driver is
all it sees: a read finds its value there, but the callback that a write installs for the ACK is not
called. -/

section Receive

variable {c : LibCalls} {s : NlSock} {ackAttrs : GenlAttr → Option Nlattr} {h : RegFile}
  {calls : RegCalls} {addr val : UInt32}

/-- A request that goes out has the result of the receive loop. -/
theorem libRequest_sent (hc : c.sent = true) (cb : NlCb) (reads : List NlRead) (s : NlSock) :
    libRequest c cb reads s = (recvmsgs cb reads false s).map fun r => (r.1, r.2.val) := by
  simp only [LibCalls.sent, Bool.and_eq_true, beq_iff_eq, Bool.not_eq_true',
    decide_eq_true_eq] at hc
  have hsend : ¬ c.nlSendAuto < 0 := by omega
  simp [libRequest, hc.1.1, hc.1.2, hsend]

/-- Without a callback the driver's reply is passed over, and the ACK is not read any more. -/
theorem nf10RegWr_answer (hc : c.sent = true) {r : RegResult} (hr : r.reply.isSome) :
    nf10RegWr c (answer s.seqExpect ackAttrs r) s = some 0 := by
  obtain ⟨reply, hreply⟩ := Option.isSome_iff_exists.mp hr
  simp [nf10RegWr, libRequest_sent hc, answer, hreply, recvmsgs, recvDatagram, recvMsg, nlCbCall,
    NlMsg.multipart]

/-- The read callback gets the reply, and its verdict is what the library returns. -/
theorem nf10RegRd_answer (hc : c.sent = true) {r : RegResult} {reply : RegReply}
    (hr : r.reply = some reply) {ret : Int} {v : UInt32}
    (hcb : nf10RegRdRecvMsgCb ⟨s.seqExpect, false, .valid, reply.attrs⟩ s.val = (ret, v))
    (hret : ret ≠ 1 ∧ ret ≠ 2) :
    nf10RegRd c (answer s.seqExpect ackAttrs r) s = some (ret, v) := by
  by_cases h0 : ret = 0
  · simp [nf10RegRd, libRequest_sent hc, answer, hr, recvmsgs, recvDatagram, recvMsg, nlCbCall,
      hcb, h0, NlMsg.multipart]
  · simp [nf10RegRd, libRequest_sent hc, answer, hr, recvmsgs, recvDatagram, recvMsg, nlCbCall,
      hcb, h0, hret]

/-- A read that is answered comes back to the client as the driver answered it. -/
theorem rdFaithful_of_reply (hc : c.sent = true)
    (hr : (genlCmdRegRd h (some (rdInfo addr)) calls).2.reply.isSome) :
    RdFaithful c s ackAttrs h calls addr := by
  unfold RdFaithful
  rw [rd_result hr]
  have hzero : loadInt (nlaU32 (UInt32.ofInt 0)).data = 0 := by
    rw [loadInt, load32_nlaU32]
    decide
  have hminus : loadInt (nlaU32 (UInt32.ofInt (-1))).data = -1 := by
    rw [loadInt, load32_nlaU32]
    decide
  split
  · refine ⟨0, h.words (regPlace addr), ?_, by simp, ?_, ?_⟩
    · apply nf10RegRd_answer hc rfl _ (by decide)
      simp only [nf10RegRdRecvMsgCb, RegReply.attrs, hzero, ne_eq, not_true_eq_false, if_false,
        Option.map_some, load32_nlaU32]
    · rintro place ⟨⟩
      rfl
    · rintro ⟨⟩
  · refine ⟨-1, s.val, ?_, by simp, ?_, fun _ => rfl⟩
    · apply nf10RegRd_answer hc rfl _ (by decide)
      simp only [nf10RegRdRecvMsgCb, RegReply.attrs, hminus]
      rw [if_pos (by decide)]
    · rintro place ⟨⟩

/-- **The library's status.** When the request reaches the driver and its reply reaches the client,
the two functions report what the driver did exactly if the address is aligned: `nf10_reg_rd` always
does, `nf10_reg_wr` returns 0 for every address. -/
theorem reg_lib_status_iff (c : LibCalls) (hc : c.sent = true) (s : NlSock)
    (ackAttrs : GenlAttr → Option Nlattr) (h : RegFile) (wrCalls rdCalls : RegCalls)
    (addr val : UInt32)
    (hwr : (genlCmdRegWr h (some (wrInfo addr val)) wrCalls).2.reply.isSome)
    (hrd : (genlCmdRegRd h (some (rdInfo addr)) rdCalls).2.reply.isSome) :
    (WrFaithful c s ackAttrs h wrCalls addr val ∧ RdFaithful c s ackAttrs h rdCalls addr)
      ↔ addr % 4 = 0 := by
  have hal : addr % 4 = 0 ↔ Aligned addr := by
    unfold Aligned
    rw [← UInt32.toNat_inj]
    rfl
  have hzero : nf10RegWr c (answer s.seqExpect ackAttrs
      (genlCmdRegWr h (some (wrInfo addr val)) wrCalls).2) s = some 0 :=
    nf10RegWr_answer hc hwr
  rw [hal]
  constructor
  · rintro ⟨hfaithful, _⟩
    have haccess := hfaithful.mp hzero
    rw [wr_result hwr] at haccess
    by_contra hmis
    simp [hmis] at haccess
  · intro haligned
    refine ⟨?_, rdFaithful_of_reply hc hrd⟩
    unfold WrFaithful
    refine iff_of_true hzero ?_
    rw [wr_result hwr, if_pos haligned]
    rfl

end Receive

/-- A request of 36 bytes that is sent. -/
def libCallsOk : LibCalls := ⟨0, false, 36⟩

/-- A write and a read of the last register. -/
theorem reg_lib_status_iff_last :
    WrFaithful libCallsOk ⟨7, 0⟩ (fun _ => none) ⟨0, fun _ => 5⟩ regCallsOk 0xfffffffc 1
      ∧ RdFaithful libCallsOk ⟨7, 0⟩ (fun _ => none) ⟨0, fun _ => 5⟩ regCallsOk 0xfffffffc :=
  (reg_lib_status_iff libCallsOk rfl ⟨7, 0⟩ (fun _ => none) ⟨0, fun _ => 5⟩ regCallsOk regCallsOk
    0xfffffffc 1 (by decide +kernel) (by decide +kernel)).mpr (by decide)

/-- **Counterexample.** A write to address 2 is refused with errno -1, and `nf10_reg_wr` returns
0. -/
theorem misaligned_write_reported_done :
    ¬ WrFaithful libCallsOk ⟨7, 0⟩ (fun _ => none) ⟨0, fun _ => 5⟩ regCallsOk 2 1 := by
  intro hfaithful
  have haccess := hfaithful.mp (by decide +kernel)
  revert haccess
  decide +kernel

end Nf10
