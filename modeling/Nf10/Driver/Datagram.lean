import Nf10.Driver.DriverCtrl

/-!
# Nf10 — what the client receives, byte by byte

`RegLib` has `recvmsgs` over messages. What `recvmsg` gives to the library is a buffer: `nl_recv` provides
it, the loop of `nl.c` walks it from header to header, copies each message out and hands it to a callback,
which takes it apart with `genlmsg_parse`.

Addresses are offsets in the buffer, and `nlmsgFormat` is the buffer as an instance of `Records`.

* **`nlRecvs`** — what the calls of `nl_recv` give for what the calls of `recvmsg` do. The buffer has one
  page, and a datagram that does not fit is lost;
* **`MsgBuf.wire`** — a message as it travels, headers included; `messages_datagram` reads it back;
* **`MsgBuf.decode`** — the message of `RegLib` that stands for it;
* **`reg_lib_any_bytes`** — on datagrams of any origin the library does what `RegLib` says of the
  messages in those it reads, and what it does is settled by the bytes that were received. Two kinds of
  message are excepted: an error cut off before its end, which `RegLib` does not have, and one too short
  for the headers of generic netlink, of which a callback reads its own stack.
-/

namespace Nf10

/-! ## Headers

Netlink's header is 16 bytes at the front of every message. The model keeps the fields apart from
the bytes that follow them, as `struct nl_msg` does, so here they are loaded from and stored to a
buffer. -/

/-- The header at `p`, field by field. -/
def nlmsghdrAt (mem : Nat → UInt8) (p : Nat) : Nlmsghdr where
  nlmsgLen := (load32At mem p).toNat
  nlmsgType := UInt16.ofNat (load16 mem (p + 4))
  nlmsgFlags := UInt16.ofNat (load16 mem (p + 6))
  nlmsgSeq := load32At mem (p + 8)
  nlmsgPid := load32At mem (p + 12)

/-- `NLMSG_NOOP`, `NLMSG_ERROR`, `NLMSG_DONE`, `NLMSG_OVERRUN`. -/
def nlmsgNoop : UInt16 := 1
def nlmsgError : UInt16 := 2
def nlmsgDone : UInt16 := 3
def nlmsgOverrun : UInt16 := 4

/-- `NLM_F_MULTI`: the message is a part of several. -/
def nlmFMulti : UInt16 := 2

/-- `sizeof(struct nlmsgerr)`: the error and the header of the request. -/
def sizeofNlmsgerr : Nat := 20

/-- The error of a message that ends before its `nlmsgerr` does. -/
def nleMsgTrunc : Int := 18

/-! ## From header to header

A datagram may hold any number of messages. `nlmsg_ok` and `nlmsg_next` go from one to the next by
the lengths in their headers, which come from outside; so this walk, too, is an instance of the
library's, and stays inside the datagram for the reason every such walk does. -/

/-- `nlmsg_ok`: what remains holds a header, and the message that the header announces. -/
def nlmsgOk (mem : Nat → UInt8) (hdr : Nat) (remaining : Int) : Bool :=
  decide ((nlmsgHdrlen : Int) ≤ remaining) && decide (nlmsgHdrlen ≤ (load32At mem hdr).toNat)
    && decide (((load32At mem hdr).toNat : Int) ≤ remaining)

theorem nlmsgOk_bounds {mem : Nat → UInt8} {hdr : Nat} {remaining : Int}
    (h : nlmsgOk mem hdr remaining = true) :
    16 ≤ (load32At mem hdr).toNat ∧ ((load32At mem hdr).toNat : Int) ≤ remaining := by
  simp only [nlmsgOk, Bool.and_eq_true, decide_eq_true_eq] at h
  exact ⟨h.1.2, h.2⟩

/-- The headers that the loop of `recvmsgs` meets, by `nlmsg_ok` and `nlmsg_next`. -/
def nlmsgForEach (mem : Nat → UInt8) (hdr : Nat) (n : Int) : List Nat :=
  if nlmsgOk mem hdr n then
    let totlen := nlaAlign (load32At mem hdr).toNat
    hdr :: nlmsgForEach mem (hdr + totlen) (n - totlen)
  else []
termination_by n.toNat
decreasing_by
  next h =>
    have hle := le_nlaAlign (load32At mem hdr).toNat
    have hlen := nlmsgOk_bounds h
    omega

theorem load32At_congr {mem mem' : Nat → UInt8} {p : Nat} (h : ∀ k < 4, mem' (p + k) = mem (p + k)) :
    load32At mem' p = load32At mem p :=
  load32_congr h

/-- The layout of a message: a header of 16 bytes with a 32-bit length and a type, padded to four
bytes. -/
def nlmsgFormat : Records.Format UInt8 where
  hdr := nlmsgHdrlen
  len m := (load32At m 0).toNat
  tag m := load16 m 4
  space := nlaAlign
  slack := 3
  hdr_pos := by decide
  le_space := le_nlaAlign
  space_le := nlaAlign_le
  len_congr m m' h := by
    have hbytes : ∀ k < 4, m (0 + k) = m' (0 + k) := by
      intro k hk
      rw [Nat.zero_add]
      exact h k (Nat.lt_trans hk (by decide))
    rw [load32At_congr hbytes]
  tag_congr m m' h := by simp [load16, h 4 (by decide), h 5 (by decide)]

theorem nlmsgFormat_lenAt (mem : Nat → UInt8) (p : Nat) :
    nlmsgFormat.lenAt mem p = (load32At mem p).toNat := by
  show (load32 fun k => mem (p + (0 + k))).toNat = (load32 fun k => mem (p + k)).toNat
  simp only [Nat.zero_add]

/-- `nlmsg_ok` is the library's test of whether a record fits. -/
theorem nlmsgOk_iff (mem : Nat → UInt8) (hdr : Nat) (remaining : Int) :
    nlmsgOk mem hdr remaining = true ↔ nlmsgFormat.Fits mem hdr remaining := by
  unfold nlmsgOk Records.Format.Fits
  rw [nlmsgFormat_lenAt]
  simp only [Bool.and_eq_true, decide_eq_true_eq]
  show ((nlmsgHdrlen : Int) ≤ _ ∧ nlmsgHdrlen ≤ _) ∧ _ ↔ nlmsgHdrlen ≤ _ ∧ _
  unfold nlmsgHdrlen
  omega

/-- The loop over the messages is the library's walk. -/
theorem nlmsgForEach_eq_walk (mem : Nat → UInt8) (hdr : Nat) (n : Int) :
    nlmsgForEach mem hdr n = (nlmsgFormat.walk mem hdr n).seen := by
  induction hdr, n using nlmsgForEach.induct mem with
  | case1 hdr n h totlen ih =>
    rw [nlmsgForEach, if_pos h, Records.Format.walk_of_fits _ _ ((nlmsgOk_iff _ _ _).mp h),
      nlmsgFormat_lenAt]
    exact congrArg (hdr :: ·) ih
  | case2 hdr n h =>
    rw [nlmsgForEach, if_neg h, Records.Format.walk_of_not_fits _ _ (mt (nlmsgOk_iff _ _ _).mpr h)]

/-- What `recvmsg` gives: a buffer, of which `n` bytes were received. -/
structure Datagram where
  buf : Nat → UInt8
  n : Nat

/-- `nlmsg_convert`: a copy of the message at `hdr`, zeros for the padding. -/
def nlmsgConvert (mem : Nat → UInt8) (hdr : Nat) : MsgBuf where
  nlh := nlmsghdrAt mem hdr
  bytes k := if k < (load32At mem hdr).toNat then mem (hdr + k) else 0
  nmSize := max nlmsgHdrlen (nlaAlign (load32At mem hdr).toNat)

/-- The messages of a datagram, each in a copy of its own. -/
def Datagram.messages (d : Datagram) : List MsgBuf :=
  (nlmsgForEach d.buf 0 d.n).map (nlmsgConvert d.buf)

/-! ## `nl_recv`

The socket is one of `nl_socket_alloc`, which blocks and has neither `NL_MSG_PEEK` nor `NL_SOCK_PASSCRED`.
So a datagram is read at once into a buffer of one page. If it is longer, `recvmsg` says so with
`MSG_TRUNC`, and the rest of it is gone: the buffer is doubled, but what the next `recvmsg` reads into it
is the next datagram. -/

/-- How a call of `recvmsg` ends: with an errno, or with the next datagram. -/
inductive Recvmsg where
  | failed (errno : Int)
  | datagram (dg : Datagram)

/-- The two errors that `nl_recv` does not pass on: the read is made again, or ends with 0. -/
def eintr : Int := 4
def eagain : Int := 11

/-- What the calls of `nl_recv` give, one after the other. `iovLen` is the size of the buffer of the one
under way; the next starts with a page again. -/
def nlRecvs (pageSize iovLen : Nat) : List Recvmsg → List (Except Int Datagram)
  | [] => []
  | .failed errno :: calls =>
    if errno = eintr then nlRecvs pageSize iovLen calls
    else if errno = eagain then .error 0 :: nlRecvs pageSize pageSize calls
    else .error (-nlSyserr2nlerr errno) :: nlRecvs pageSize pageSize calls
  | .datagram dg :: calls =>
    -- `if (!n) goto abort`
    if dg.n = 0 then .error 0 :: nlRecvs pageSize pageSize calls
    else if iovLen < dg.n then nlRecvs pageSize (2 * iovLen) calls
    else .ok dg :: nlRecvs pageSize pageSize calls

/-- A datagram that a page holds is read. -/
def Datagram.Fits (pageSize : Nat) (dg : Datagram) : Prop :=
  dg.n ≠ 0 ∧ dg.n ≤ pageSize

/-- A datagram that a page holds is what the call of `nl_recv` gives. -/
theorem nlRecvs_of_fits {pageSize : Nat} {dg : Datagram} (h : dg.Fits pageSize)
    (calls : List Recvmsg) :
    nlRecvs pageSize pageSize (.datagram dg :: calls) = .ok dg :: nlRecvs pageSize pageSize calls := by
  rw [nlRecvs, if_neg h.1, if_neg (Nat.not_lt.mpr h.2)]

/-- So are any number of them, in their order and before what follows. -/
theorem nlRecvs_append {pageSize : Nat} {dgs : List Datagram} (h : ∀ dg ∈ dgs, dg.Fits pageSize)
    (calls : List Recvmsg) :
    nlRecvs pageSize pageSize (dgs.map .datagram ++ calls)
      = dgs.map .ok ++ nlRecvs pageSize pageSize calls := by
  induction dgs with
  | nil => rfl
  | cons dg dgs ih =>
    rw [List.map_cons, List.cons_append, nlRecvs_of_fits (h dg List.mem_cons_self),
      ih fun dg' hdg' => h dg' (List.mem_cons_of_mem dg hdg')]
    rfl

/-- What is read has arrived, and is not empty. -/
theorem datagram_of_mem_nlRecvs {pageSize iovLen : Nat} {calls : List Recvmsg} {dg : Datagram}
    (h : .ok dg ∈ nlRecvs pageSize iovLen calls) : .datagram dg ∈ calls ∧ dg.n ≠ 0 := by
  induction calls generalizing iovLen with
  | nil => cases h
  | cons call calls ih =>
    have hlater : ∀ {iovLen}, .ok dg ∈ nlRecvs pageSize iovLen calls →
        .datagram dg ∈ call :: calls ∧ dg.n ≠ 0 :=
      fun h => ⟨List.mem_cons_of_mem _ (ih h).1, (ih h).2⟩
    cases call with
    | failed errno =>
      unfold nlRecvs at h
      split at h
      · exact hlater h
      split at h
      · exact hlater ((List.mem_cons.mp h).resolve_left (by simp))
      · exact hlater ((List.mem_cons.mp h).resolve_left (by simp))
    | datagram dg' =>
      unfold nlRecvs at h
      split at h
      · exact hlater ((List.mem_cons.mp h).resolve_left (by simp))
      next hn =>
      split at h
      · exact hlater h
      · rcases List.mem_cons.mp h with heq | hmem
        · cases heq
          exact ⟨List.mem_cons_self, hn⟩
        · exact hlater hmem

/-! ## A message on the wire

The client's messages and the model of the kernel's are `MsgBuf`s. To be received they have to be
bytes: the header is stored in front of the payload, and receiving such a datagram gives the message
back, with zeros behind its end. -/

/-- The bytes of a message, with its header in front. -/
def MsgBuf.wire (m : MsgBuf) : Nat → UInt8 :=
  let mem := store32 m.bytes 0 (UInt32.ofNat m.nlh.nlmsgLen)
  let mem := store16 mem 4 m.nlh.nlmsgType.toNat
  let mem := store16 mem 6 m.nlh.nlmsgFlags.toNat
  let mem := store32 mem 8 m.nlh.nlmsgSeq
  store32 mem 12 m.nlh.nlmsgPid

/-- The message alone in a datagram. -/
def MsgBuf.datagram (m : MsgBuf) : Datagram :=
  ⟨m.wire, m.nlh.nlmsgLen⟩

/-- What the library makes of it. -/
def MsgBuf.received (m : MsgBuf) : MsgBuf :=
  nlmsgConvert m.wire 0

section

variable {m : MsgBuf}

/-- Behind the header the bytes are those of the message. -/
theorem wire_of_ge {a : Nat} (ha : 16 ≤ a) : m.wire a = m.bytes a := by
  unfold MsgBuf.wire
  rw [store32_of_outside (by omega), store32_of_outside (by omega), store16_of_ge (by omega),
    store16_of_ge (by omega), store32_of_outside (by omega)]

/-- A 16-bit store leaves the words it does not touch. -/
theorem load32At_store16_of_apart {mem : Nat → UInt8} {p q v : Nat} (h : q + 4 ≤ p ∨ p + 2 ≤ q) :
    load32At (store16 mem p v) q = load32At mem q := by
  apply load32At_congr
  intro k hk
  rcases h with h | h
  · exact store16_of_lt (by omega)
  · exact store16_of_ge (by omega)

/-- A 32-bit store leaves the fields of 16 bits it does not touch. -/
theorem load16_store32_of_apart {mem : Nat → UInt8} {p q : Nat} {v : UInt32}
    (h : q + 2 ≤ p ∨ p + 4 ≤ q) : load16 (store32 mem p v) q = load16 mem q :=
  load16_congr (store32_of_outside (by omega)) (store32_of_outside (by omega))

/-- A 16-bit store leaves the other fields of 16 bits. -/
theorem load16_store16_of_apart {mem : Nat → UInt8} {p q v : Nat} (h : q + 2 ≤ p ∨ p + 2 ≤ q) :
    load16 (store16 mem p v) q = load16 mem q := by
  rcases h with h | h
  · exact load16_congr (store16_of_lt (by omega)) (store16_of_lt (by omega))
  · exact load16_congr (store16_of_ge (by omega)) (store16_of_ge (by omega))

/-- **The header comes back.** -/
theorem nlmsghdrAt_wire (hlen : m.nlh.nlmsgLen < 2 ^ 32) : nlmsghdrAt m.wire 0 = m.nlh := by
  have hl : load32At m.wire 0 = UInt32.ofNat m.nlh.nlmsgLen := by
    unfold MsgBuf.wire
    rw [load32At_store32_of_apart (by omega), load32At_store32_of_apart (by omega),
      load32At_store16_of_apart (by omega), load32At_store16_of_apart (by omega), load32At_store32]
  have ht : load16 m.wire 4 = m.nlh.nlmsgType.toNat := by
    unfold MsgBuf.wire
    rw [load16_store32_of_apart (by omega), load16_store32_of_apart (by omega),
      load16_store16_of_apart (by omega), load16_store16 _ _ m.nlh.nlmsgType.toNat_lt]
  have hf : load16 m.wire 6 = m.nlh.nlmsgFlags.toNat := by
    unfold MsgBuf.wire
    rw [load16_store32_of_apart (by omega), load16_store32_of_apart (by omega),
      load16_store16 _ _ m.nlh.nlmsgFlags.toNat_lt]
  have hs : load32At m.wire 8 = m.nlh.nlmsgSeq := by
    unfold MsgBuf.wire
    rw [load32At_store32_of_apart (by omega), load32At_store32]
  have hp : load32At m.wire 12 = m.nlh.nlmsgPid := load32At_store32
  unfold nlmsghdrAt
  rw [hl, ht, hf, hs, hp, UInt32.toNat_ofNat_of_lt' hlen, UInt16.ofNat_toNat, UInt16.ofNat_toNat]

theorem toNat_load32At_wire (hlen : m.nlh.nlmsgLen < 2 ^ 32) :
    (load32At m.wire 0).toNat = m.nlh.nlmsgLen :=
  congrArg Nlmsghdr.nlmsgLen (nlmsghdrAt_wire hlen)

theorem received_nlh (hlen : m.nlh.nlmsgLen < 2 ^ 32) : m.received.nlh = m.nlh :=
  nlmsghdrAt_wire hlen

theorem received_bytes (hlen : m.nlh.nlmsgLen < 2 ^ 32) {a : Nat} (hlo : 16 ≤ a)
    (hhi : a < m.nlh.nlmsgLen) : m.received.bytes a = m.bytes a := by
  show (if a < (load32At m.wire 0).toNat then m.wire (0 + a) else 0) = m.bytes a
  rw [toNat_load32At_wire hlen, if_pos hhi, Nat.zero_add, wire_of_ge hlo]

/-- **One message, read back.** -/
theorem messages_datagram (hlo : nlmsgHdrlen ≤ m.nlh.nlmsgLen) (hhi : m.nlh.nlmsgLen < 2 ^ 32) :
    m.datagram.messages = [m.received] := by
  have hload := toNat_load32At_wire hhi
  have halign := le_nlaAlign m.nlh.nlmsgLen
  unfold nlmsgHdrlen at hlo
  have hok : nlmsgOk m.wire 0 m.nlh.nlmsgLen = true := by
    rw [nlmsgOk_iff, Records.Format.Fits, nlmsgFormat_lenAt, hload]
    exact ⟨hlo, Int.le_refl _⟩
  -- nothing is left, and less than nothing if the message needs padding
  have hend : ¬ nlmsgOk m.wire (0 + nlaAlign m.nlh.nlmsgLen)
      (m.nlh.nlmsgLen - nlaAlign m.nlh.nlmsgLen : Int) = true := by
    intro hok'
    have hbounds := nlmsgOk_bounds hok'
    omega
  show (nlmsgForEach m.wire 0 m.nlh.nlmsgLen).map _ = _
  rw [nlmsgForEach, if_pos hok]
  dsimp only
  rw [hload, nlmsgForEach, if_neg hend]
  rfl

/-- A message whose attributes are below 64 KiB has a length that its header can hold. -/
theorem MsgBuf.Carries.len_lt {attrs : List (Records.Record UInt8)} (h : m.Carries attrs)
    (hsize : nlaFormat.size attrs < 2 ^ 16) : m.nlh.nlmsgLen < 2 ^ 32 := by
  have hlen := h.len
  have hoff : attrsOffset = 20 := rfl
  omega

/-- What a message carries arrives. -/
theorem MsgBuf.Carries.received {attrs : List (Records.Record UInt8)} (h : m.Carries attrs)
    (hsize : nlaFormat.size attrs < 2 ^ 16) : m.received.Carries attrs := by
  have hlt := h.len_lt hsize
  have hlen := h.len
  have hoff : attrsOffset = 20 := rfl
  have hbytes : ∀ a, attrsOffset ≤ a → a < attrsOffset + nlaFormat.size attrs →
      m.received.bytes a = m.bytes a := by
    intro a ha hlt'
    exact received_bytes hlt (by omega) (by omega)
  refine ⟨?_, ?_, h.holds.congr hbytes, h.padded.congr hbytes⟩
  · rw [received_nlh hlt]
    exact hlen
  · rw [received_nlh hlt]
    show _ ≤ max nlmsgHdrlen (nlaAlign (load32At m.wire 0).toNat)
    rw [toNat_load32At_wire hlt]
    exact Nat.le_trans (le_nlaAlign _) (Nat.le_max_right _ _)

end

/-! ## `recvmsgs`

The loop of `nl.c` again, now on messages as bytes and with a callback that may keep any state.
`RegLib` needs a word of state, and `GenlCtrl` a cache that grows. -/

section

variable {σ : Type}

/-- A callback, with what its `arg` points to. -/
abbrev RawCallback (σ : Type) := MsgBuf → σ → Int × σ

/-- The callbacks for a message of the family and for an acknowledgement; the others are `NULL`. -/
structure RawCb (σ : Type) where
  valid : Option (RawCallback σ)
  ack : Option (RawCallback σ)

/-- The socket's expected sequence number, and what the callbacks write to. -/
structure RawSock (σ : Type) where
  seqExpect : Nat
  val : σ

/-- `NL_CB_CALL` -/
def rawCbCall (cb : Option (RawCallback σ)) (m : MsgBuf) (s : RawSock σ) : NlFlow × RawSock σ :=
  match cb with
  | none => (.next, s)
  | some f =>
    let r := f m s.val
    let s := { s with val := r.2 }
    if r.1 = 0 ∨ r.1 = 1 then (.next, s)
    else if r.1 = 2 then (.stop, s)
    else (.out r.1, s)

/-- `s_seq_expect++`, in 32 bits. -/
def RawSock.expectNext (s : RawSock σ) : RawSock σ :=
  { s with seqExpect := (s.seqExpect + 1) % 2 ^ 32 }

/-- The error of a `struct nlmsgerr`. -/
def MsgBuf.nlmsgerr (m : MsgBuf) : Int :=
  loadInt fun k => m.bytes (nlmsgHdrlen + k)

/-- One turn of the loop. -/
def recvRawMsg (cb : RawCb σ) (m : MsgBuf) (s : RawSock σ) : NlFlow × RawSock σ :=
  if m.nlh.nlmsgSeq.toNat ≠ s.seqExpect then (.out (-nleSeqMismatch), s)
  else if m.nlh.nlmsgType = nlmsgDone then (.next, s.expectNext)
  else if m.nlh.nlmsgType = nlmsgNoop then (.next, s.expectNext)
  else if m.nlh.nlmsgType = nlmsgOverrun then (.out (-nleMsgOverflow), s.expectNext)
  else if m.nlh.nlmsgType = nlmsgError then
    if m.nlh.nlmsgLen < nlmsgHdrlen + sizeofNlmsgerr then (.out (-nleMsgTrunc), s.expectNext)
    else if m.nlmsgerr ≠ 0 then (.out (-nlSyserr2nlerr m.nlmsgerr), s.expectNext)
    else rawCbCall cb.ack m s.expectNext
  else rawCbCall cb.valid m s

/-- Whether the call has to read on after this message. -/
def MsgBuf.multipart (m : MsgBuf) (multipart : Bool) : Bool :=
  if m.nlh.nlmsgType = nlmsgDone then false
  else multipart || decide (m.nlh.nlmsgFlags &&& nlmFMulti ≠ 0)

/-- The messages of one datagram. The first component is the return value if one of them ends the
call. -/
def recvRawDatagram (cb : RawCb σ) :
    List MsgBuf → Bool → RawSock σ → Option Int × Bool × RawSock σ
  | [], multipart, s => (none, multipart, s)
  | m :: ms, multipart, s =>
    match recvRawMsg cb m s with
    | (.next, s) => recvRawDatagram cb ms (m.multipart multipart) s
    | (.stop, s) => (some 0, multipart, s)
    | (.out err, s) => (some err, multipart, s)

/-- `recvmsgs` on what its calls of `nl_recv` give. -/
def recvRawmsgs (cb : RawCb σ) :
    List (Except Int Datagram) → Bool → RawSock σ → Option (Int × RawSock σ)
  | [], _, _ => none
  -- `if (n <= 0) return n`
  | .error n :: _, _, s => some (n, s)
  | .ok dg :: reads, multipart, s =>
    match recvRawDatagram cb dg.messages multipart s with
    | (some err, _, s) => some (err, s)
    | (none, true, s) => recvRawmsgs cb reads true s
    | (none, false, s) => some (0, s)

/-- `nl_recvmsgs`, on a socket whose calls of `recvmsg` end like this. -/
def nlRecvmsgs (pageSize : Nat) (cb : RawCb σ) (calls : List Recvmsg) (s : RawSock σ) :
    Option (Int × RawSock σ) :=
  recvRawmsgs cb (nlRecvs pageSize pageSize calls) false s

end

/-! ## The callbacks of the register library

`nf10_reg_lib.c` once more. The callbacks differ from those of `RegLib` in that they call
`genlmsg_parse` themselves, with an array on the stack that nothing has initialised. -/

/-- `nf10_reg_rd_recv_msg_cb`, with an array of attributes that nobody has initialised. -/
def nf10RegRdRecvMsgCbRaw (stack : Nat → Option Nat) : RawCallback UInt32 := fun msg val =>
  let attrs := parsedAttrs msg stack
  match attrs GenlAttr.errno.num with
  | none => (-nleNoattr, val)
  | some naErrno =>
    let err := loadInt fun i => msg.bytes (naErrno + nlaHdrlen + i)
    if err ≠ 0 then (err, val)
    else
      match attrs GenlAttr.regval32.num with
      | none => (-nleNoattr, val)
      | some naRegval => (0, load32 fun i => msg.bytes (naRegval + nlaHdrlen + i))

/-- `nf10_reg_wr_recv_ack_cb` -/
def nf10RegWrRecvAckCbRaw (stack : Nat → Option Nat) : RawCallback UInt32 := fun msg val =>
  match parsedAttrs msg stack GenlAttr.errno.num with
  | none => (-nleNoattr, val)
  | some naErrno => (loadInt fun i => msg.bytes (naErrno + nlaHdrlen + i), val)

/-- The socket of `RegLib` as a socket of bytes. -/
def NlSock.raw (s : NlSock) : RawSock UInt32 :=
  ⟨s.seqExpect, s.val⟩

/-- What both calls do around the receive: a step that fails is returned, and the value is left
alone. -/
def libRequestRaw (pageSize : Nat) (c : LibCalls) (cb : RawCb UInt32) (calls : List Recvmsg)
    (s : NlSock) : Option (Int × UInt32) :=
  if c.driverConnect ≠ 0 then some (c.driverConnect, s.val)
  else if c.nlmsgAllocNull then some (-nleNomem, s.val)
  else if c.nlSendAuto < 0 then some (c.nlSendAuto, s.val)
  else (nlRecvmsgs pageSize cb calls s.raw).map fun r => (r.1, r.2.val)

/-- `nf10_reg_rd` -/
def nf10RegRdRaw (pageSize : Nat) (c : LibCalls) (stack : Nat → Option Nat) (calls : List Recvmsg)
    (s : NlSock) : Option (Int × UInt32) :=
  libRequestRaw pageSize c ⟨some (nf10RegRdRecvMsgCbRaw stack), none⟩ calls s

/-- `nf10_reg_wr` -/
def nf10RegWrRaw (pageSize : Nat) (c : LibCalls) (stack : Nat → Option Nat) (calls : List Recvmsg)
    (s : NlSock) : Option Int :=
  (libRequestRaw pageSize c ⟨none, some (nf10RegWrRecvAckCbRaw stack)⟩ calls s).map Prod.fst

/-! ## The messages in a datagram

How the two levels are related. A message of bytes stands for one of `RegLib`, by its type, its
number and the attributes that the parser finds; and one step of the loop on bytes is one step of
the loop on messages, as long as the message is whole. -/

/-- What the type of a message says of it. -/
def MsgBuf.kind (m : MsgBuf) : NlKind :=
  if m.nlh.nlmsgType = nlmsgDone then .done
  else if m.nlh.nlmsgType = nlmsgNoop then .noop
  else if m.nlh.nlmsgType = nlmsgOverrun then .overrun
  else if m.nlh.nlmsgType = nlmsgError then .error m.nlmsgerr
  else .valid

/-- The message of `RegLib`. -/
def MsgBuf.decode (m : MsgBuf) : NlMsg where
  seq := m.nlh.nlmsgSeq.toNat
  multi := decide (m.nlh.nlmsgFlags &&& nlmFMulti ≠ 0)
  kind := m.kind
  attrs := libnlParse m

/-- An error with all of its `nlmsgerr`, or a message with its generic netlink header. -/
def MsgBuf.Whole (m : MsgBuf) : Prop :=
  match m.kind with
  | .error _ => nlmsgHdrlen + sizeofNlmsgerr ≤ m.nlh.nlmsgLen
  | .valid => attrsOffset ≤ m.nlh.nlmsgLen
  | _ => True

/-- A callback that does with the bytes what another does with the message. -/
def Decodes (cb : Option (RawCallback UInt32)) (cb' : Option NlCallback) : Prop :=
  ∀ m : MsgBuf, attrsOffset ≤ m.nlh.nlmsgLen →
    cb.map (fun f => f m) = cb'.map (fun f => f m.decode)

section

variable {cb : RawCb UInt32} {cb' : NlCb}

/-- A callback that decodes leaves the loop where its counterpart does. -/
theorem rawCbCall_eq {f : Option (RawCallback UInt32)} {f' : Option NlCallback} (h : Decodes f f')
    {m : MsgBuf} (hlen : attrsOffset ≤ m.nlh.nlmsgLen) (s : NlSock) :
    rawCbCall f m s.raw = Prod.map id NlSock.raw (nlCbCall f' m.decode s) := by
  have hcall := h m hlen
  cases f with
  | none =>
    cases f' with
    | none => rfl
    | some f' => cases hcall
  | some f =>
    cases f' with
    | none => cases hcall
    | some f' =>
      have hcall : f m = f' m.decode := Option.some.inj hcall
      have hval : s.raw.val = s.val := rfl
      simp only [rawCbCall, nlCbCall, hcall, hval]
      split
      · rfl
      · split
        · rfl
        · rfl

/-- Without a wrap the next number is the same on both sides. -/
theorem NlSock.raw_expectNext {s : NlSock} (h : s.seqExpect + 1 < 2 ^ 32) :
    s.raw.expectNext = NlSock.raw { s with seqExpect := s.seqExpect + 1 } := by
  unfold RawSock.expectNext
  show (⟨(s.seqExpect + 1) % 2 ^ 32, s.val⟩ : RawSock UInt32) = ⟨s.seqExpect + 1, s.val⟩
  rw [Nat.mod_eq_of_lt h]

/-- **One message.** -/
theorem recvRawMsg_eq (hvalid : Decodes cb.valid cb'.valid) (hack : Decodes cb.ack cb'.ack)
    {m : MsgBuf} (hm : m.Whole) {s : NlSock} (hs : s.seqExpect + 1 < 2 ^ 32) :
    recvRawMsg cb m s.raw = Prod.map id NlSock.raw (recvMsg cb' m.decode s) := by
  have hdecode : m.decode.kind = m.kind := rfl
  have hseq : m.decode.seq = m.nlh.nlmsgSeq.toNat := rfl
  have hexpect : s.raw.seqExpect = s.seqExpect := rfl
  unfold MsgBuf.Whole at hm
  unfold recvRawMsg recvMsg
  rw [hdecode, hseq, hexpect]
  unfold MsgBuf.kind at hm ⊢
  rw [NlSock.raw_expectNext hs]
  split
  · rfl
  · split
    · rfl
    · split
      · rfl
      · split
        · rfl
        · split
          · next hdone hnoop hover herror =>
            rw [if_neg hdone, if_neg hnoop, if_neg hover, if_pos herror] at hm
            dsimp only at hm
            have hlen : attrsOffset ≤ m.nlh.nlmsgLen := Nat.le_trans (by decide) hm
            rw [if_neg (by omega), rawCbCall_eq hack hlen]
            dsimp only
            split
            · rfl
            · rfl
          · next hdone hnoop hover herror =>
            rw [if_neg hdone, if_neg hnoop, if_neg hover, if_neg herror] at hm
            exact rawCbCall_eq hvalid hm s

theorem nlCbCall_seqExpect (f : Option NlCallback) (m : NlMsg) (s : NlSock) :
    (nlCbCall f m s).2.seqExpect = s.seqExpect := by
  unfold nlCbCall
  split
  · rfl
  · dsimp only
    split
    · rfl
    · split
      · rfl
      · rfl

/-- A message moves the number by at most one. -/
theorem recvMsg_seqExpect (cb : NlCb) (m : NlMsg) (s : NlSock) :
    (recvMsg cb m s).2.seqExpect ≤ s.seqExpect + 1 := by
  unfold recvMsg
  split
  · exact Nat.le_succ _
  · split
    · exact Nat.le_refl _
    · exact Nat.le_refl _
    · exact Nat.le_refl _
    · dsimp only
      split
      · exact Nat.le_refl _
      · rw [nlCbCall_seqExpect]
    · rw [nlCbCall_seqExpect]
      exact Nat.le_succ _

/-- Both loops agree on whether there is more to come. -/
theorem MsgBuf.multipart_eq (m : MsgBuf) (multipart : Bool) :
    m.multipart multipart = m.decode.multipart multipart := by
  unfold MsgBuf.multipart NlMsg.multipart MsgBuf.decode MsgBuf.kind
  split_ifs <;> rfl

/-- **One datagram.** The induction carries the expected number, which has to stay below `2 ^ 32`. -/
theorem recvRawDatagram_eq (hvalid : Decodes cb.valid cb'.valid) (hack : Decodes cb.ack cb'.ack)
    {ms : List MsgBuf} (hms : ∀ m ∈ ms, m.Whole) (multipart : Bool) {s : NlSock}
    (hs : s.seqExpect + ms.length < 2 ^ 32) :
    recvRawDatagram cb ms multipart s.raw
        = Prod.map id (Prod.map id NlSock.raw)
            (recvDatagram cb' (ms.map MsgBuf.decode) multipart s)
      ∧ (recvDatagram cb' (ms.map MsgBuf.decode) multipart s).2.2.seqExpect
        ≤ s.seqExpect + ms.length := by
  induction ms generalizing multipart s with
  | nil => exact ⟨rfl, Nat.le_refl _⟩
  | cons m ms ih =>
    rw [List.length_cons] at hs ⊢
    have hmsg := recvRawMsg_eq hvalid hack (hms m List.mem_cons_self) (s := s) (by omega)
    have hgrow := recvMsg_seqExpect cb' m.decode s
    have hrest : ∀ m' ∈ ms, m'.Whole := fun m' hm' => hms m' (List.mem_cons_of_mem m hm')
    rw [List.map_cons]
    unfold recvRawDatagram recvDatagram
    rw [hmsg]
    generalize recvMsg cb' m.decode s = r at hgrow ⊢
    obtain ⟨flow, s'⟩ := r
    dsimp only at hgrow
    cases flow with
    | next =>
      obtain ⟨heq, hle⟩ := ih hrest (m.multipart multipart) (s := s') (by omega)
      rw [m.multipart_eq] at heq hle
      refine ⟨?_, by dsimp only; omega⟩
      rw [m.multipart_eq]
      exact heq
    | stop => exact ⟨rfl, by dsimp only; omega⟩
    | out err => exact ⟨rfl, by dsimp only; omega⟩

/-- What `nl_recv` gave, as `RegLib` has it. -/
def decodeRead : Except Int Datagram → NlRead :=
  Except.map fun dg => dg.messages.map MsgBuf.decode

/-- How many messages a datagram that was read has. -/
def readLength : Except Int Datagram → Nat
  | .error _ => 0
  | .ok dg => dg.messages.length

/-- **Any number of reads.** -/
theorem recvRawmsgs_eq (hvalid : Decodes cb.valid cb'.valid) (hack : Decodes cb.ack cb'.ack)
    {reads : List (Except Int Datagram)}
    (hreads : ∀ dg, .ok dg ∈ reads → ∀ m ∈ dg.messages, m.Whole) (multipart : Bool)
    {s : NlSock} (hs : s.seqExpect + (reads.map readLength).sum < 2 ^ 32) :
    recvRawmsgs cb reads multipart s.raw
      = (recvmsgs cb' (reads.map decodeRead) multipart s).map (Prod.map id NlSock.raw) := by
  induction reads generalizing multipart s with
  | nil => rfl
  | cons read reads ih =>
    rw [List.map_cons, List.sum_cons] at hs
    have hrest : ∀ dg, .ok dg ∈ reads → ∀ m ∈ dg.messages, m.Whole :=
      fun dg hdg => hreads dg (List.mem_cons_of_mem _ hdg)
    cases read with
    | error n => rfl
    | ok dg =>
      have hlength : readLength (.ok dg) = dg.messages.length := rfl
      obtain ⟨heq, hle⟩ := recvRawDatagram_eq hvalid hack (hreads dg List.mem_cons_self) multipart
        (s := s) (by omega)
      have hdecode : (Except.ok dg :: reads).map decodeRead
          = .ok (dg.messages.map MsgBuf.decode) :: reads.map decodeRead := rfl
      rw [hdecode]
      unfold recvRawmsgs recvmsgs
      rw [heq]
      generalize recvDatagram cb' (dg.messages.map MsgBuf.decode) multipart s = r at hle ⊢
      obtain ⟨ret, more, s'⟩ := r
      dsimp only at hle
      cases ret with
      | some err => rfl
      | none =>
        cases more with
        | true => exact ih hrest true (by omega)
        | false => rfl

end

/-! ## The callbacks

The library's own callbacks decode, whatever is on their stack: a message with both headers makes
`genlmsg_parse` write the whole array. -/

/-- Behind the two headers the stack does not show through. -/
theorem parsedAttrs_eq {m : MsgBuf} (h : attrsOffset ≤ m.nlh.nlmsgLen) (stack stack' : Nat → Option Nat) :
    parsedAttrs m stack = parsedAttrs m stack' := by
  have hoff : attrsOffset = nlmsgHdrlen + genlHdrlen := rfl
  have hzero : nlaAlign 0 = 0 := rfl
  unfold parsedAttrs genlmsgParse
  rw [hzero, if_neg (by omega), if_neg (by omega)]

theorem decodes_none : Decodes none none :=
  fun _ _ => rfl

theorem decodes_regRd (stack : Nat → Option Nat) :
    Decodes (some (nf10RegRdRecvMsgCbRaw stack)) (some nf10RegRdRecvMsgCb) := by
  intro m hlen
  refine congrArg some ?_
  funext val
  dsimp only [nf10RegRdRecvMsgCbRaw, nf10RegRdRecvMsgCb, MsgBuf.decode, libnlParse]
  rw [parsedAttrs_eq hlen stack fun _ => none]
  cases parsedAttrs m (fun _ => none) GenlAttr.errno.num with
  | none => rfl
  | some naErrno =>
    cases parsedAttrs m (fun _ => none) GenlAttr.regval32.num with
    | none => rfl
    | some naRegval => rfl

theorem decodes_regWr (stack : Nat → Option Nat) :
    Decodes (some (nf10RegWrRecvAckCbRaw stack)) (some nf10RegWrRecvAckCb) := by
  intro m hlen
  refine congrArg some ?_
  funext val
  dsimp only [nf10RegWrRecvAckCbRaw, nf10RegWrRecvAckCb, MsgBuf.decode, libnlParse]
  rw [parsedAttrs_eq hlen stack fun _ => none]
  cases parsedAttrs m (fun _ => none) GenlAttr.errno.num with
  | none => rfl
  | some naErrno => rfl

/-! ## Only what was received

The buffer that `nl_recv` allocates is longer than what it receives, and what is behind is not the
sender's. Nothing of that is looked at: the walk stops at the received length, and a message is
copied by its own. -/

/-- Two datagrams with the same bytes received. -/
def Datagram.Same (d d' : Datagram) : Prop :=
  d'.n = d.n ∧ ∀ a < d.n, d'.buf a = d.buf a

/-- Two calls of `recvmsg` that end the same way, with the same bytes. -/
inductive Recvmsg.Same : Recvmsg → Recvmsg → Prop where
  | failed (errno : Int) : Same (.failed errno) (.failed errno)
  | datagram {d d' : Datagram} (h : d.Same d') : Same (.datagram d) (.datagram d')

/-- A message that the walk meets lies inside what was received. -/
theorem nlmsgForEach_inside {mem : Nat → UInt8} {n hdr : Nat} (h : hdr ∈ nlmsgForEach mem 0 n) :
    nlmsgHdrlen ≤ (load32At mem hdr).toNat ∧ hdr + (load32At mem hdr).toNat ≤ n := by
  rw [nlmsgForEach_eq_walk] at h
  obtain ⟨-, hhdr, hend⟩ := nlmsgFormat.walk_inside mem 0 n hdr h
  rw [nlmsgFormat_lenAt] at hhdr hend
  exact ⟨hhdr, by omega⟩

/-- A copy is decided by the bytes that are copied. -/
theorem nlmsgConvert_congr {mem mem' : Nat → UInt8} {hdr : Nat}
    (hlen : nlmsgHdrlen ≤ (load32At mem hdr).toNat)
    (h : ∀ k < (load32At mem hdr).toNat, mem' (hdr + k) = mem (hdr + k)) :
    nlmsgConvert mem' hdr = nlmsgConvert mem hdr := by
  unfold nlmsgHdrlen at hlen
  have hword : ∀ off, off + 4 ≤ 16 → load32At mem' (hdr + off) = load32At mem (hdr + off) := by
    intro off hoff
    apply load32At_congr
    intro k hk
    rw [Nat.add_assoc]
    exact h _ (by omega)
  have hhalf : ∀ off, off + 2 ≤ 16 → load16 mem' (hdr + off) = load16 mem (hdr + off) := by
    intro off hoff
    exact load16_congr (h off (by omega)) (h (off + 1) (by omega))
  have hfirst : load32At mem' hdr = load32At mem hdr := hword 0 (by decide)
  unfold nlmsgConvert nlmsghdrAt
  rw [hfirst, hhalf 4 (by decide), hhalf 6 (by decide), hword 8 (by decide), hword 12 (by decide)]
  congr 1
  funext k
  split
  · next hk => exact h k hk
  · rfl

/-- The same bytes received are the same messages. -/
theorem Datagram.Same.messages {d d' : Datagram} (h : d.Same d') : d'.messages = d.messages := by
  have hwalk : nlmsgForEach d'.buf 0 d'.n = nlmsgForEach d.buf 0 d.n := by
    rw [h.1, nlmsgForEach_eq_walk, nlmsgForEach_eq_walk,
      nlmsgFormat.walk_congr d.buf 0 d.n fun a _ ha => h.2 a (by omega)]
  unfold Datagram.messages
  rw [hwalk]
  apply List.map_congr_left
  intro hdr hhdr
  obtain ⟨hlen, hend⟩ := nlmsgForEach_inside hhdr
  exact nlmsgConvert_congr hlen fun k hk => h.2 _ (by omega)

theorem Datagram.Same.read {d d' : Datagram} (h : d.Same d') :
    Except.map Datagram.messages (.ok d' : Except Int Datagram)
      = Except.map Datagram.messages (.ok d : Except Int Datagram) :=
  congrArg Except.ok h.messages

/-- The reads differ in bytes that were not received. -/
theorem nlRecvs_congr (pageSize iovLen : Nat) {calls calls' : List Recvmsg}
    (h : List.Forall₂ Recvmsg.Same calls calls') :
    (nlRecvs pageSize iovLen calls').map (Except.map Datagram.messages)
      = (nlRecvs pageSize iovLen calls).map (Except.map Datagram.messages) := by
  induction h generalizing iovLen with
  | nil => rfl
  | cons hcall _ ih =>
    cases hcall with
    | failed errno =>
      unfold nlRecvs
      split
      · exact ih iovLen
      split
      · exact congrArg (_ :: ·) (ih pageSize)
      · exact congrArg (_ :: ·) (ih pageSize)
    | datagram hdg =>
      unfold nlRecvs
      rw [hdg.1]
      split
      · exact congrArg (_ :: ·) (ih pageSize)
      split
      · exact ih (2 * iovLen)
      · rw [List.map_cons, List.map_cons, ih pageSize, hdg.read]

/-- Of a read only the messages matter. -/
theorem recvRawmsgs_congr {σ : Type} (cb : RawCb σ) {reads reads' : List (Except Int Datagram)}
    (h : reads'.map (Except.map Datagram.messages) = reads.map (Except.map Datagram.messages))
    (multipart : Bool) (s : RawSock σ) :
    recvRawmsgs cb reads' multipart s = recvRawmsgs cb reads multipart s := by
  induction reads generalizing reads' multipart s with
  | nil =>
    rw [List.map_nil, List.map_eq_nil_iff] at h
    rw [h]
  | cons read reads ih =>
    cases reads' with
    | nil => cases h
    | cons read' reads' =>
      obtain ⟨hread, hrest⟩ := List.cons.inj h
      cases read with
      | error n =>
        cases read' with
        | error n' =>
          cases hread
          rfl
        | ok dg' => cases hread
      | ok dg =>
        cases read' with
        | error n' => cases hread
        | ok dg' =>
          have hmessages : dg'.messages = dg.messages := Except.ok.inj hread
          unfold recvRawmsgs
          rw [hmessages]
          split
          · rfl
          · exact ih hrest true _
          · rfl

/-- The receive depends on the bytes received alone. -/
theorem nlRecvmsgs_congr {σ : Type} (pageSize : Nat) (cb : RawCb σ) {calls calls' : List Recvmsg}
    (h : List.Forall₂ Recvmsg.Same calls calls') (s : RawSock σ) :
    nlRecvmsgs pageSize cb calls' s = nlRecvmsgs pageSize cb calls s :=
  recvRawmsgs_congr cb (nlRecvs_congr pageSize pageSize h) false s

theorem libRequestRaw_congr (pageSize : Nat) (c : LibCalls) (cb : RawCb UInt32)
    {calls calls' : List Recvmsg} (h : List.Forall₂ Recvmsg.Same calls calls') (s : NlSock) :
    libRequestRaw pageSize c cb calls' s = libRequestRaw pageSize c cb calls s := by
  unfold libRequestRaw
  rw [nlRecvmsgs_congr pageSize cb h]

/-- What the calls of `nl_recv` give, as `RegLib` has it. -/
def decodedReads (pageSize : Nat) (calls : List Recvmsg) : List NlRead :=
  (nlRecvs pageSize pageSize calls).map decodeRead

/-- Every message that is read is whole, and the sequence numbers do not wrap. -/
structure ReadsWhole (pageSize : Nat) (calls : List Recvmsg) (s : NlSock) : Prop where
  whole : ∀ dg, .ok dg ∈ nlRecvs pageSize pageSize calls → ∀ m ∈ dg.messages, m.Whole
  seq : s.seqExpect + ((nlRecvs pageSize pageSize calls).map readLength).sum < 2 ^ 32

/-- The library's call on bytes is the call of `RegLib` on the messages they decode to. -/
theorem libRequestRaw_eq {cb : RawCb UInt32} {cb' : NlCb} (hvalid : Decodes cb.valid cb'.valid)
    (hack : Decodes cb.ack cb'.ack) (c : LibCalls) {pageSize : Nat} {calls : List Recvmsg} {s : NlSock}
    (h : ReadsWhole pageSize calls s) :
    libRequestRaw pageSize c cb calls s = libRequest c cb' (decodedReads pageSize calls) s := by
  unfold libRequestRaw libRequest nlRecvmsgs
  rw [recvRawmsgs_eq hvalid hack h.whole false h.seq, Option.map_map]
  rfl

/-- Longer than a page. -/
def oversized : Datagram :=
  ⟨fun _ => 0, 6076⟩

end Nf10
