import Nf10.Driver.Registers

/-!
# Nf10 — what the commands read of their attributes

A netlink message is checked against `nf10_genl_policy` before a command sees it; the policy covers
`NF10_GENL_A_MSG` alone. The commands check that an attribute is present and that `nla_data` is not
`NULL`, which it never is. `footprint` lists the bytes of each attribute that a command reads, and
`outcome_of_agree` makes sure that the list is complete: a command cannot tell two messages apart that
agree on it.

**`reads_inside_iff`**: all reads stay inside the payloads exactly if every 32-bit load that is
reached meets an attribute of 4 bytes.
-/

namespace Nf10

/-! ## The echo command

`genl_cmd_echo` prints the string it is sent and puts it into its reply. Both go up to the first
zero byte and neither looks at the attribute's length; that there is a zero is left to the policy of
the family. -/

/-- What the netlink calls of `genl_cmd_echo` return. -/
structure EchoCalls where
  genlmsgNewNull : Bool
  genlmsgPutReplyNull : Bool
  nlaPutString : Int
  genlmsgReply : Int
deriving DecidableEq, Repr

/-- What the call returns, and the string of the reply when one went out. -/
structure EchoResult where
  ret : Int
  reply : Option (List UInt8)
deriving DecidableEq, Repr

/-- The position of the first zero byte of a payload, its length if there is none. -/
def Nlattr.strlen (na : Nlattr) : Nat :=
  (List.range na.len).findIdx fun i => na.data i == 0

/-- `genl_cmd_echo`. Without a message attribute, or when `genlmsg_put_reply` fails, it returns 0
and sends nothing. -/
def genlCmdEcho (info : Option GenlInfo) (calls : EchoCalls) : EchoResult :=
  match info with
  | none => ⟨-22, none⟩
  | some info =>
    match info.attrs .msg with
    | none => ⟨0, none⟩
    | some na =>
      -- here the message is printed with `%s`
      if calls.genlmsgNewNull then ⟨-12, none⟩
      else if calls.genlmsgPutReplyNull then ⟨0, none⟩
      else if calls.nlaPutString ≠ 0 then ⟨calls.nlaPutString, none⟩
      else if calls.genlmsgReply ≠ 0 then ⟨calls.genlmsgReply, none⟩
      else ⟨0, some (readMem na.data 0 na.strlen)⟩

/-! ## Requests and their footprint

Whether a handler stays inside the attributes it was sent is a question about its reads, so each
request is given the list of them. A read is the number of leading bytes that are looked at; no
handler reads an attribute from the middle. -/

/-- A command with the state it finds. -/
inductive GenlRequest where
  | echo (info : Option GenlInfo) (calls : EchoCalls)
  | dmaTx (d : Driver) (info : Option GenlInfo)
  | regRd (h : RegFile) (info : Option GenlInfo) (calls : RegCalls)
  | regWr (h : RegFile) (info : Option GenlInfo) (calls : RegCalls)

/-- The leading `bytes` bytes of an attribute are read. -/
structure AttrRead where
  attr : GenlAttr
  bytes : Nat
deriving DecidableEq, Repr

namespace GenlRequest

/-- The `struct genl_info` that the handler is called with. -/
def info : GenlRequest → Option GenlInfo
  | .echo info _ => info
  | .dmaTx _ info => info
  | .regRd _ info _ => info
  | .regWr _ info _ => info

/-- The attribute of a type in the request, if the message has one. -/
def attr (q : GenlRequest) (a : GenlAttr) : Option Nlattr :=
  q.info.bind fun info => info.attrs a

/-- What `genl_cmd_echo` reads. -/
def echoReads (info : GenlInfo) : List AttrRead :=
  match info.attrs .msg with
  | none => []
  -- `printk` and `nla_put_string` both go up to the terminating zero
  | some na => [⟨.msg, na.strlen + 1⟩]

/-- What `genl_cmd_dma_tx` reads: nothing when an attribute is missing or the ring is full, since
it looks at the payloads only to copy them. -/
def dmaTxReads (d : Driver) (info : GenlInfo) : List AttrRead :=
  match info.attrs .msg, info.attrs .opcode with
  | some naMsg, some _ =>
    if d.txDmaStream.flags d.txDmaStream.bufIndex = 0 then []
    else [⟨.msg, (dmaTxLen naMsg).toNat⟩, ⟨.opcode, 4⟩]
  | _, _ => []

/-- What `genl_cmd_reg_rd` reads. The address is looked at only once the reply has been prepared. -/
def regRdReads (info : GenlInfo) (calls : RegCalls) : List AttrRead :=
  if calls.prepared then
    match info.attrs .addr32 with
    | none => []
    | some _ => [⟨.addr32, 4⟩]
  else []

/-- The value is loaded after the alignment check. -/
def regWrReads (info : GenlInfo) (calls : RegCalls) : List AttrRead :=
  if calls.prepared then
    match info.attrs .addr32, info.attrs .regval32 with
    | some naAddr, some _ =>
      if Aligned (load32 naAddr.data) then [⟨.addr32, 4⟩, ⟨.regval32, 4⟩] else [⟨.addr32, 4⟩]
    | _, _ => []
  else []

/-- The bytes of the message's attributes that a command reads. -/
def footprint (q : GenlRequest) : List AttrRead :=
  match q, q.info with
  | _, none => []
  | .echo _ _, some info => echoReads info
  | .dmaTx d _, some info => dmaTxReads d info
  | .regRd _ _ calls, some info => regRdReads info calls
  | .regWr _ _ calls, some info => regWrReads info calls

/-- `nf10_genl_policy`: `NLA_NUL_STRING` for the message, nothing for the other attributes. -/
def Accepted (q : GenlRequest) : Prop :=
  ∀ na, q.attr .msg = some na → ∃ i < na.len, na.data i = 0

/-- Every byte read lies in the payload of its attribute, and what `genl_cmd_dma_tx` copies fits into
a DMA buffer. -/
structure ReadsInside (q : GenlRequest) : Prop where
  inPayload : ∀ r ∈ q.footprint, ∃ na, q.attr r.attr = some na ∧ r.bytes ≤ na.len
  copyFits : ∀ d info, q = .dmaTx d info → ∀ r ∈ q.footprint, r.attr = .msg →
    r.bytes ≤ dmaBufSize

/-- A 32-bit load that is reached finds 4 bytes: the opcode of a message for which there is a free
buffer, the address of a register command, and the value of one whose address is aligned. -/
def LongEnough : GenlRequest → Prop
  | .echo _ _ => True
  | .dmaTx d info => ∀ i naMsg naOpcode, info = some i → i.attrs .msg = some naMsg →
      i.attrs .opcode = some naOpcode → d.txDmaStream.flags d.txDmaStream.bufIndex ≠ 0 →
      4 ≤ naOpcode.len
  | .regRd _ info calls => ∀ i na, info = some i → calls.prepared = true →
      i.attrs .addr32 = some na → 4 ≤ na.len
  | .regWr _ info calls => ∀ i naAddr naVal, info = some i → calls.prepared = true →
      i.attrs .addr32 = some naAddr → i.attrs .regval32 = some naVal →
      4 ≤ naAddr.len ∧ (Aligned (load32 naAddr.data) → 4 ≤ naVal.len)

/-! ## Reads and payloads

The two directions of the equivalence. A request that stays inside its payloads has long enough
ones, as its own reads say so; and the policy's bounds together with `LongEnough` give each read its
room. -/

/-- A string with a zero in it ends before its payload does. -/
theorem strlen_lt {na : Nlattr} (h : ∃ i < na.len, na.data i = 0) : na.strlen < na.len := by
  obtain ⟨i, hi, h0⟩ := h
  have hfound : (List.range na.len).findIdx (fun i => na.data i == 0) < (List.range na.len).length :=
    List.findIdx_lt_length_of_exists ⟨i, List.mem_range.mpr hi, by simp [h0]⟩
  simpa [Nlattr.strlen] using hfound

/-- The copy is cut to the payload and to the buffer, whichever is shorter. -/
theorem dmaTxLen_le (na : Nlattr) :
    (dmaTxLen na).toNat ≤ na.len ∧ (dmaTxLen na).toNat ≤ dmaBufSize := by
  have hsmall : (if na.len > dmaBufSize then dmaBufSize else na.len) < 2 ^ 32 := by
    unfold dmaBufSize
    split <;> omega
  unfold dmaTxLen
  rw [UInt32.toNat_ofNat_of_lt' hsmall]
  split <;> omega

/-- A read that stays inside its attribute is no longer than it. -/
theorem le_of_mem_footprint {q : GenlRequest} {i : GenlInfo} (hi : q.info = some i)
    (h : ∀ r ∈ q.footprint, ∃ na, q.attr r.attr = some na ∧ r.bytes ≤ na.len) {a : GenlAttr}
    {n : Nat} {na : Nlattr} (hmem : ⟨a, n⟩ ∈ q.footprint) (hna : i.attrs a = some na) :
    n ≤ na.len := by
  obtain ⟨na', hna', hle⟩ := h _ hmem
  simp only [attr, hi, Option.bind_some, hna, Option.some.injEq] at hna'
  exact hna' ▸ hle

/-- Reads inside the payloads are payloads that are long enough, handler by handler. -/
theorem longEnough_of_inPayload (q : GenlRequest)
    (h : ∀ r ∈ q.footprint, ∃ na, q.attr r.attr = some na ∧ r.bytes ≤ na.len) :
    q.LongEnough := by
  cases q with
  | echo info calls => trivial
  | dmaTx d info =>
    rintro i naMsg naOpcode rfl hmsg hop hfree
    apply le_of_mem_footprint rfl h _ hop
    simp [footprint, GenlRequest.info, dmaTxReads, hmsg, hop, hfree]
  | regRd h' info calls =>
    rintro i na rfl hp hna
    apply le_of_mem_footprint rfl h _ hna
    simp [footprint, GenlRequest.info, regRdReads, hp, hna]
  | regWr h' info calls =>
    rintro i naAddr naVal rfl hp haddr hval
    constructor
    · apply le_of_mem_footprint rfl h _ haddr
      simp only [footprint, GenlRequest.info, regWrReads, hp, if_true, haddr, hval]
      split <;> simp
    · intro hal
      apply le_of_mem_footprint rfl h _ hval
      simp [footprint, GenlRequest.info, regWrReads, hp, haddr, hval, hal]

/-- Conversely, long enough payloads leave room for every read of an accepted message. -/
theorem inPayload_of_longEnough (q : GenlRequest) (hacc : q.Accepted) (h : q.LongEnough) :
    ∀ r ∈ q.footprint, ∃ na, q.attr r.attr = some na ∧ r.bytes ≤ na.len := by
  intro r hr
  cases q with
  | echo info calls =>
    cases info with
    | none => cases hr
    | some i =>
      simp only [footprint, GenlRequest.info, echoReads] at hr
      split at hr
      · cases hr
      · next na hmsg =>
        obtain rfl := List.mem_singleton.mp hr
        -- the string ends inside the payload, as the policy wants it
        exact ⟨na, hmsg, strlen_lt (hacc na hmsg)⟩
  | dmaTx d info =>
    cases info with
    | none => cases hr
    | some i =>
      simp only [footprint, GenlRequest.info, dmaTxReads] at hr
      split at hr
      · next naMsg naOpcode hmsg hop =>
        split at hr
        · cases hr
        · next hfree =>
          rcases List.mem_pair.mp hr with rfl | rfl
          · exact ⟨naMsg, hmsg, (dmaTxLen_le naMsg).1⟩
          · exact ⟨naOpcode, hop, h i naMsg naOpcode rfl hmsg hop hfree⟩
      · cases hr
  | regRd h' info calls =>
    cases info with
    | none => cases hr
    | some i =>
      simp only [footprint, GenlRequest.info, regRdReads] at hr
      split at hr
      · next hp =>
        split at hr
        · cases hr
        · next na hna =>
          obtain rfl := List.mem_singleton.mp hr
          exact ⟨na, hna, h i na rfl hp hna⟩
      · cases hr
  | regWr h' info calls =>
    cases info with
    | none => cases hr
    | some i =>
      simp only [footprint, GenlRequest.info, regWrReads] at hr
      split at hr
      · next hp =>
        split at hr
        · next naAddr naVal haddr hval =>
          obtain ⟨hlenAddr, hlenVal⟩ := h i naAddr naVal rfl hp haddr hval
          split at hr
          · next hal =>
            rcases List.mem_pair.mp hr with rfl | rfl
            · exact ⟨naAddr, haddr, hlenAddr⟩
            · exact ⟨naVal, hval, hlenVal hal⟩
          · obtain rfl := List.mem_singleton.mp hr
            exact ⟨naAddr, haddr, hlenAddr⟩
        · cases hr
      · cases hr

/-- The copy into a TX buffer stays inside the buffer, for every message. -/
theorem copyFits (d : Driver) (info : Option GenlInfo) {r : AttrRead}
    (hr : r ∈ (dmaTx d info).footprint) (hmsg : r.attr = .msg) : r.bytes ≤ dmaBufSize := by
  cases info with
  | none => cases hr
  | some i =>
    simp only [footprint, GenlRequest.info, dmaTxReads] at hr
    split at hr
    · next naMsg naOpcode _ _ =>
      split at hr
      · cases hr
      · rcases List.mem_pair.mp hr with rfl | rfl
        · exact (dmaTxLen_le naMsg).2
        · cases hmsg
    · cases hr

/-- **Reads inside the attributes.** A command reads a message that the policy accepts inside its
attributes exactly if every 32-bit load it comes to finds 4 bytes of payload. -/
theorem reads_inside_iff (q : GenlRequest) (hacc : q.Accepted) :
    q.ReadsInside ↔ q.LongEnough := by
  constructor
  · intro h
    exact longEnough_of_inPayload q h.inPayload
  · intro h
    refine ⟨inPayload_of_longEnough q hacc h, ?_⟩
    rintro d info rfl r hr hmsg
    exact copyFits d info hr hmsg

/-! ## The footprint is complete

The lists of reads would say little if a handler looked at a byte that is not on its list. Here two
requests that agree on the bytes listed are shown to have the same outcome, so the lists leave
nothing out. -/

/-- What a command leaves and answers. -/
inductive Outcome where
  | echo (r : EchoResult)
  | dmaTx (r : Driver × DmaTxResult)
  | reg (r : RegFile × RegResult)

/-- What a handler does with a request: its return value, its reply and the state it leaves. -/
def outcome : GenlRequest → Outcome
  | .echo info calls => .echo (genlCmdEcho info calls)
  | .dmaTx d info => .dmaTx (genlCmdDmaTx d info)
  | .regRd h info calls => .reg (genlCmdRegRd h info calls)
  | .regWr h info calls => .reg (genlCmdRegWr h info calls)

/-- The same request with another message. -/
def withInfo (q : GenlRequest) (i : GenlInfo) : GenlRequest :=
  match q with
  | .echo _ calls => .echo (some i) calls
  | .dmaTx d _ => .dmaTx d (some i)
  | .regRd h _ calls => .regRd h (some i) calls
  | .regWr h _ calls => .regWr h (some i) calls

/-- The messages have attributes of the same lengths, with the same bytes where the command reads. -/
structure Agree (q : GenlRequest) (i i' : GenlInfo) : Prop where
  lens : ∀ a, (i'.attrs a).map Nlattr.len = (i.attrs a).map Nlattr.len
  bytes : ∀ r ∈ q.footprint, ∀ na na', i.attrs r.attr = some na → i'.attrs r.attr = some na' →
    ∀ k < r.bytes, na'.data k = na.data k

/-- Messages that agree lack the same attributes. -/
theorem Agree.none {q : GenlRequest} {i i' : GenlInfo} (h : q.Agree i i') {a : GenlAttr}
    (ha : i.attrs a = none) : i'.attrs a = none := by
  simpa [ha] using h.lens a

/-- Messages that agree have the same attributes, with payloads of the same length. -/
theorem Agree.some {q : GenlRequest} {i i' : GenlInfo} (h : q.Agree i i') {a : GenlAttr}
    {na : Nlattr} (ha : i.attrs a = some na) : ∃ na', i'.attrs a = some na' ∧ na'.len = na.len := by
  have hlen := h.lens a
  rw [ha] at hlen
  simpa using hlen

/-- A string's end is found from the bytes up to it. -/
theorem strlen_congr {na na' : Nlattr} (hlen : na'.len = na.len)
    (h : ∀ k < na.strlen + 1, na'.data k = na.data k) : na'.strlen = na.strlen := by
  unfold Nlattr.strlen at h ⊢
  rw [hlen]
  by_cases hfound : (List.range na.len).findIdx (fun i => na.data i == 0) < (List.range na.len).length
  · rw [List.findIdx_eq hfound]
    constructor
    · have hzero := List.findIdx_getElem (w := hfound)
      simpa [h _ (Nat.lt_succ_self _)] using hzero
    · intro j hj
      have hnz := List.not_of_lt_findIdx hj
      simpa [h j (Nat.lt_succ_of_lt hj)] using hnz
  · -- no zero byte in the payload of either
    have hend : (List.range na.len).findIdx (fun i => na.data i == 0) = (List.range na.len).length :=
      Nat.le_antisymm List.findIdx_le_length (Nat.le_of_not_lt hfound)
    rw [hend] at h ⊢
    rw [List.findIdx_eq_length] at hend ⊢
    intro j hj
    have hj' : j < (List.range na.len).length + 1 := by
      simpa using Nat.lt_succ_of_lt (List.mem_range.mp hj)
    rw [h j hj']
    exact hend j hj

/-- What goes into a slot is decided by the bytes that are copied there. -/
theorem transmit_congr (s : DmaStream) (n : Nat) {p p' : Nat → UInt8} {len : UInt32}
    (h : ∀ k < len.toNat, p' k = p k) (opcode : UInt32) :
    s.transmit n p' len opcode = s.transmit n p len opcode := by
  have hcopy : memcpy s.buffers (s.bufIndex * dmaBufSize) p' len.toNat
      = memcpy s.buffers (s.bufIndex * dmaBufSize) p len.toNat := by
    funext a
    unfold memcpy
    split
    · exact h _ (by omega)
    · rfl
  simp only [DmaStream.transmit, DmaStream.fill, hcopy]

/-- The message recorded for a packet is decided by the bytes copied too. -/
theorem messageOf_congr {p p' : Nat → UInt8} {len : UInt32} (h : ∀ k < len.toNat, p' k = p k)
    (opcode : UInt32) : messageOf p' len opcode = messageOf p len opcode := by
  have hread : readMem p' 0 len.toNat = readMem p 0 len.toNat :=
    readMem_congr fun k hk => by simpa using h k hk
  simp only [messageOf, hread]

section Agreeing

variable {i i' : GenlInfo}

/-- `genl_cmd_echo` looks at no byte outside `echoReads`. -/
theorem genlCmdEcho_of_agree {calls : EchoCalls} (h : (echo (some i) calls).Agree i i') :
    genlCmdEcho (some i') calls = genlCmdEcho (some i) calls := by
  cases hmsg : i.attrs .msg with
  | none => simp only [genlCmdEcho, hmsg, h.none hmsg]
  | some na =>
    obtain ⟨na', hmsg', hlen⟩ := h.some hmsg
    have hbytes : ∀ k < na.strlen + 1, na'.data k = na.data k := by
      apply h.bytes ⟨.msg, na.strlen + 1⟩ _ na na' hmsg hmsg'
      simp [footprint, GenlRequest.info, echoReads, hmsg]
    have hread : readMem na'.data 0 na.strlen = readMem na.data 0 na.strlen :=
      readMem_congr fun k hk => by simpa using hbytes k (Nat.lt_succ_of_lt hk)
    simp only [genlCmdEcho, hmsg, hmsg', strlen_congr hlen hbytes, hread]

/-- `genl_cmd_dma_tx` looks at no byte outside `dmaTxReads`. -/
theorem genlCmdDmaTx_of_agree {d : Driver} (h : (dmaTx d (some i)).Agree i i') :
    genlCmdDmaTx d (some i') = genlCmdDmaTx d (some i) := by
  cases hmsg : i.attrs .msg with
  | none => simp only [genlCmdDmaTx, hmsg, h.none hmsg]
  | some naMsg =>
    obtain ⟨naMsg', hmsg', hlen⟩ := h.some hmsg
    cases hop : i.attrs .opcode with
    | none => simp only [genlCmdDmaTx, hmsg, hmsg', hop, h.none hop]
    | some naOp =>
      obtain ⟨naOp', hop', _⟩ := h.some hop
      simp only [genlCmdDmaTx, hmsg, hmsg', hop, hop']
      split
      · rfl
      · next hfree =>
        have hfoot : (dmaTx d (some i)).footprint
            = [⟨.msg, (dmaTxLen naMsg).toNat⟩, ⟨.opcode, 4⟩] := by
          simp [footprint, GenlRequest.info, dmaTxReads, hmsg, hop, hfree]
        have hbytes : ∀ k < (dmaTxLen naMsg).toNat, naMsg'.data k = naMsg.data k :=
          h.bytes ⟨.msg, (dmaTxLen naMsg).toNat⟩ (by simp [hfoot]) naMsg naMsg' hmsg hmsg'
        have hopcode : load32 naOp'.data = load32 naOp.data :=
          load32_congr (h.bytes ⟨.opcode, 4⟩ (by simp [hfoot]) naOp naOp' hop hop')
        have hcap : dmaTxLen naMsg' = dmaTxLen naMsg := by
          simp only [dmaTxLen, hlen]
        rw [hcap, hopcode, transmit_congr _ _ hbytes, messageOf_congr hbytes]

/-- `genl_cmd_reg_rd` looks at no byte outside its reads. -/
theorem genlCmdRegRd_of_agree {f : RegFile} {calls : RegCalls}
    (h : (regRd f (some i) calls).Agree i i') :
    genlCmdRegRd f (some i') calls = genlCmdRegRd f (some i) calls := by
  unfold genlCmdRegRd
  dsimp only
  split
  · rfl
  split
  · rfl
  next hnew hput =>
  have hp : calls.prepared = true := by simp [RegCalls.prepared, hnew, hput]
  cases haddr : i.attrs .addr32 with
  | none => rw [h.none haddr]
  | some na =>
    obtain ⟨na', haddr', _⟩ := h.some haddr
    have hload : load32 na'.data = load32 na.data := by
      apply load32_congr
      apply h.bytes ⟨.addr32, 4⟩ _ na na' haddr haddr'
      simp [footprint, GenlRequest.info, regRdReads, hp, haddr]
    simp only [haddr', hload]

/-- `genl_cmd_reg_wr` looks at no byte outside its reads. -/
theorem genlCmdRegWr_of_agree {f : RegFile} {calls : RegCalls}
    (h : (regWr f (some i) calls).Agree i i') :
    genlCmdRegWr f (some i') calls = genlCmdRegWr f (some i) calls := by
  unfold genlCmdRegWr
  dsimp only
  split
  · rfl
  split
  · rfl
  next hnew hput =>
  have hp : calls.prepared = true := by simp [RegCalls.prepared, hnew, hput]
  cases haddr : i.attrs .addr32 with
  | none => rw [h.none haddr]
  | some naAddr =>
    obtain ⟨naAddr', haddr', _⟩ := h.some haddr
    cases hval : i.attrs .regval32 with
    | none => simp only [haddr', h.none hval]
    | some naVal =>
      obtain ⟨naVal', hval', _⟩ := h.some hval
      have hfoot : (regWr f (some i) calls).footprint
          = if Aligned (load32 naAddr.data) then [⟨.addr32, 4⟩, ⟨.regval32, 4⟩]
            else [⟨.addr32, 4⟩] := by
        simp [footprint, GenlRequest.info, regWrReads, hp, haddr, hval]
      have hload : load32 naAddr'.data = load32 naAddr.data := by
        apply load32_congr
        apply h.bytes ⟨.addr32, 4⟩ _ naAddr naAddr' haddr haddr'
        rw [hfoot]
        split <;> simp
      simp only [haddr', hval', hload]
      split
      · rfl
      · next hal =>
        -- only an aligned address makes the value count
        have haligned : Aligned (load32 naAddr.data) :=
          (offset_aligned_iff _).mp (not_not.mp hal)
        have hloadVal : load32 naVal'.data = load32 naVal.data := by
          apply load32_congr
          apply h.bytes ⟨.regval32, 4⟩ _ naVal naVal' hval hval'
          simp [hfoot, haligned]
        rw [hloadVal]

/-- **Completeness.** A command treats two messages alike that agree on its footprint. -/
theorem outcome_of_agree {q : GenlRequest} (hi : q.info = some i) (h : q.Agree i i') :
    (q.withInfo i').outcome = q.outcome := by
  cases q with
  | echo info calls =>
    obtain rfl := hi
    exact congrArg Outcome.echo (genlCmdEcho_of_agree h)
  | dmaTx d info =>
    obtain rfl := hi
    exact congrArg Outcome.dmaTx (genlCmdDmaTx_of_agree h)
  | regRd f info calls =>
    obtain rfl := hi
    exact congrArg Outcome.reg (genlCmdRegRd_of_agree h)
  | regWr f info calls =>
    obtain rfl := hi
    exact congrArg Outcome.reg (genlCmdRegWr_of_agree h)

end Agreeing

end GenlRequest

/-- A register write as the library sends it. -/
theorem reads_inside_iff_reg_wr :
    (GenlRequest.regWr ⟨0, fun _ => 0⟩ (some (wrInfo 8 1)) regCallsOk).ReadsInside := by
  apply (GenlRequest.reads_inside_iff _ _).mpr
  · rintro i naAddr naVal ⟨⟩ _ ⟨⟩ ⟨⟩
    exact ⟨by decide, fun _ => by decide⟩
  · rintro na ⟨⟩

/-- An address attribute without payload. -/
def emptyAddrInfo : GenlInfo where
  attrs
    | .addr32 => some ⟨fun _ => 0, 0⟩
    | _ => none

/-- **Counterexample.** A register read whose address attribute has no payload passes the policy; the
address is loaded all the same. -/
theorem empty_address_read_outside :
    (GenlRequest.regRd ⟨0, fun _ => 0⟩ (some emptyAddrInfo) regCallsOk).Accepted
      ∧ ¬ (GenlRequest.regRd ⟨0, fun _ => 0⟩ (some emptyAddrInfo) regCallsOk).ReadsInside := by
  refine ⟨?_, fun h => ?_⟩
  · rintro na ⟨⟩
  · obtain ⟨na, ⟨⟩, hle⟩ := h.inPayload ⟨.addr32, 4⟩ (by decide)
    cases hle

end Nf10
