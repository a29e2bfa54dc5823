import Mathlib.Data.List.GetD
import Nf10.Driver.RegLib
import Nf10.Lib.Records
import Nf10.Lib.Runs

/-!
# Nf10 — netlink messages in memory

`msg.c`, `attr.c` and `genl.c` of the bundled libnl, as far as the clients of the driver use them: a
message is allocated, gets its headers and then its attributes one by one; a message that arrives is
taken apart by `genlmsg_parse`.

Addresses are offsets from the header of the message. Lengths are naturals: an `int` holds those of
any message, and the 16 bits of `nla_len` are cut explicitly. `nlaFormat` is the attribute stream as
an instance of `Records`.

* **`put_parse_round_trip`**: whatever is put into a message, the parser finds of each type the
  payload that was put last, among the puts that returned 0. A put is refused once twice the length so
  far and the attribute exceed the buffer.
* **`parse_any_bytes`**: on bytes of any origin, what the parser returns lies inside the message. It
  reads up to 5 bytes past its end, none if the length of the attributes is a multiple of 4.
-/

namespace Nf10

/-! ## Sizes

Headers and payloads are padded to four bytes. The padding belongs to the attribute before it,
except in the length that its header gives. -/

/-- `NLMSG_HDRLEN`, and below the headers of generic netlink and of an attribute. -/
def nlmsgHdrlen : Nat := 16
def genlHdrlen : Nat := 4
def nlaHdrlen : Nat := 4

/-- `NLMSG_ALIGN` and `NLA_ALIGN`: up to a multiple of 4. -/
def nlaAlign (len : Nat) : Nat := (len + 3) / 4 * 4

/-- `nla_attr_size`, `nla_total_size` and `nla_padlen`: an attribute without its padding, with it,
and the padding. -/
def nlaAttrSize (payload : Nat) : Nat := nlaHdrlen + payload
def nlaTotalSize (payload : Nat) : Nat := nlaAlign (nlaAttrSize payload)
def nlaPadlen (payload : Nat) : Nat := nlaTotalSize payload - nlaAttrSize payload

theorem le_nlaAlign (n : Nat) : n ≤ nlaAlign n := by
  unfold nlaAlign
  omega

theorem nlaAlign_le (n : Nat) : nlaAlign n ≤ n + 3 := by
  unfold nlaAlign
  omega

theorem nlaAlign_of_dvd {n : Nat} (h : n % 4 = 0) : nlaAlign n = n := by
  unfold nlaAlign
  omega

/-! ## Building a message

A message is built in a buffer of one page. `nlmsg_len` is both the length so far and the place
where the next attribute goes, and every function moves it on. -/

/-- `struct nlmsghdr`. -/
structure Nlmsghdr where
  nlmsgLen : Nat
  nlmsgType : UInt16
  nlmsgFlags : UInt16
  nlmsgSeq : UInt32
  nlmsgPid : UInt32

/-- `struct nl_msg`: the header at `nm_nlh`, the bytes behind it, and how many are allocated. -/
structure MsgBuf where
  nlh : Nlmsghdr
  bytes : Nat → UInt8
  nmSize : Nat

/-- `nlmsg_alloc` with `default_msg_size`, the size of a page. -/
def nlmsgAlloc (defaultMsgSize : Nat) : MsgBuf where
  nlh := ⟨nlmsgHdrlen, 0, 0, 0, 0⟩
  bytes _ := 0
  nmSize := max defaultMsgSize nlmsgHdrlen

/-- `nlmsg_reserve` with a `pad` of 4: the message with room for `len` bytes, and where it is. -/
def nlmsgReserve (n : MsgBuf) (len : Nat) : Option (MsgBuf × Nat) :=
  let tlen := nlaAlign len
  let buf := n.nlh.nlmsgLen
  if tlen + n.nlh.nlmsgLen > n.nmSize then none
  else
    some ({ n with
      nlh := { n.nlh with nlmsgLen := n.nlh.nlmsgLen + tlen }
      bytes := memcpy n.bytes (buf + len) (fun _ => 0) (tlen - len) }, buf)

/-- `nlmsg_put`: the header is filled out even if there is no room for the payload. -/
def nlmsgPut (n : MsgBuf) (pid seq : UInt32) (type : UInt16) (payload : Nat) (flags : UInt16) :
    MsgBuf × Bool :=
  let n := { n with nlh := ⟨n.nlh.nlmsgLen, type, flags, seq, pid⟩ }
  if 0 < payload then
    match nlmsgReserve n payload with
    | none => (n, false)
    | some (n, _) => (n, true)
  else (n, true)

/-- `genlmsg_put` without a user header; `false` stands for `NULL`. -/
def genlmsgPut (msg : MsgBuf) (pid seq : UInt32) (family flags : UInt16) (cmd version : UInt8) :
    MsgBuf × Bool :=
  match nlmsgPut msg pid seq family genlHdrlen flags with
  | (msg, false) => (msg, false)
  | (msg, true) =>
    ({ msg with bytes := memcpy msg.bytes nlmsgHdrlen ([cmd, version, 0, 0].getD · 0) genlHdrlen },
      true)

/-- A 16-bit field, least significant byte first. -/
def store16 (mem : Nat → UInt8) (p v : Nat) : Nat → UInt8 :=
  memcpy mem p ([UInt8.ofNat v, UInt8.ofNat (v / 256)].getD · 0) 2

/-- A 16-bit field, in the byte order of the host. -/
def load16 (mem : Nat → UInt8) (p : Nat) : Nat :=
  (mem p).toNat + 256 * (mem (p + 1)).toNat

/-- `nla_reserve`. The old length enters the test twice. -/
def nlaReserve (msg : MsgBuf) (attrtype attrlen : Nat) : Option (MsgBuf × Nat) :=
  let tlen := nlaAlign msg.nlh.nlmsgLen + nlaTotalSize attrlen
  if tlen + msg.nlh.nlmsgLen > msg.nmSize then none
  else
    let nla := nlaAlign msg.nlh.nlmsgLen
    let bytes := store16 msg.bytes (nla + 2) (attrtype % 2 ^ 16)
    let nlaLen := nlaAttrSize attrlen % 2 ^ 16
    let bytes := store16 bytes nla nlaLen
    let bytes :=
      if attrlen ≠ 0 then memcpy bytes (nla + nlaLen) (fun _ => 0) (nlaPadlen attrlen) else bytes
    some ({ msg with nlh := { msg.nlh with nlmsgLen := tlen }, bytes := bytes }, nla)

/-- `nla_put`: reserve the room and copy the payload into it. -/
def nlaPut (msg : MsgBuf) (attrtype : Nat) (data : List UInt8) : Int × MsgBuf :=
  match nlaReserve msg attrtype data.length with
  | none => (-nleNomem, msg)
  | some (msg, nla) =>
    if 0 < data.length then
      (0, { msg with bytes := memcpy msg.bytes (nla + nlaHdrlen) (data.getD · 0) data.length })
    else (0, msg)

/-- `nla_put_u32`. -/
def nlaPutU32 (msg : MsgBuf) (attrtype : Nat) (value : UInt32) : Int × MsgBuf :=
  nlaPut msg attrtype (readMem (nlaU32 value).data 0 4)

/-- `nla_put_string` of a string given by its characters. -/
def nlaPutString (msg : MsgBuf) (attrtype : Nat) (str : List UInt8) : Int × MsgBuf :=
  nlaPut msg attrtype (str ++ [0])

/-! ## Taking one apart

`nla_parse` walks the bytes of a message with a position and a count of what remains. Both are the
model's, so that bytes of any origin can be parsed and every byte looked at can be told. -/

/-- `nla_type`, without the two flag bits. -/
def nlaType (mem : Nat → UInt8) (nla : Nat) : Nat :=
  load16 mem (nla + 2) % 2 ^ 14

/-- `nla_len`: that of the payload. -/
def nlaLen (mem : Nat → UInt8) (nla : Nat) : Int :=
  (load16 mem nla : Int) - nlaHdrlen

/-- An `int` converted to `size_t`. -/
def toSizeT (n : Int) : Nat :=
  if n < 0 then (2 ^ 64 + n).toNat else n.toNat

/-- `nla_ok`. The first comparison is one of `size_t`, and holds of every negative `int`. -/
def nlaOk (mem : Nat → UInt8) (nla : Nat) (remaining : Int) : Bool :=
  decide (nlaHdrlen ≤ toSizeT remaining) && decide (nlaHdrlen ≤ load16 mem nla)
    && decide ((load16 mem nla : Int) ≤ remaining)

/-- What `nla_ok` reads: the length, unless the first comparison has failed. -/
def nlaOkReads (nla : Nat) (remaining : Int) : List Nat :=
  if nlaHdrlen ≤ toSizeT remaining then [nla, nla + 1] else []

/-- What `nla_ok` has checked: the length covers its own header, and what remains covers the
length. -/
theorem nlaOk_bounds {mem : Nat → UInt8} {nla : Nat} {remaining : Int}
    (h : nlaOk mem nla remaining = true) :
    4 ≤ load16 mem nla ∧ (load16 mem nla : Int) ≤ remaining := by
  simp only [nlaOk, Bool.and_eq_true, decide_eq_true_eq] at h
  exact ⟨h.1.2, h.2⟩

/-- The loop of `nla_for_each_attr`: the attributes met, and `pos` and `rem` in the end. -/
def nlaForEachAttr (mem : Nat → UInt8) (pos : Nat) (rem : Int) : Records.Format.Walk :=
  if nlaOk mem pos rem then
    let totlen := nlaAlign (load16 mem pos)
    let w := nlaForEachAttr mem (pos + totlen) (rem - totlen)
    ⟨pos :: w.seen, w.pos, w.rem⟩
  else ⟨[], pos, rem⟩
termination_by rem.toNat
decreasing_by
  next h =>
    have hle := le_nlaAlign (load16 mem pos)
    have hlen := nlaOk_bounds h
    omega

/-- The `NLA_*` types of a policy. -/
inductive NlaDataType where
  | unspec
  | u8
  | u16
  | u32
  | u64
  | string
  | flag
  | msecs
  | nested
deriving DecidableEq, Repr

/-- `struct nla_policy`. -/
structure NlaPolicy where
  type : NlaDataType
  minlen : Nat
  maxlen : Nat
deriving DecidableEq, Repr

/-- The table `nla_attr_minlen`. -/
def nlaAttrMinlen : NlaDataType → Nat
  | .u8 => 1
  | .u16 => 2
  | .u32 => 4
  | .u64 => 8
  | .string => 1
  | _ => 0

/-- The errors of `validate_nla`. -/
def nleInval : Int := 7
def nleRange : Int := 8
def nleMsgTooshort : Int := 21

/-- The least length that a policy asks for: its own, or else the one of its type. -/
def NlaPolicy.leastLen (pt : NlaPolicy) : Nat :=
  if pt.minlen ≠ 0 then pt.minlen
  else if pt.type ≠ .unspec then nlaAttrMinlen pt.type
  else 0

/-- The checks of `validate_nla` on the length of the payload. -/
def NlaPolicy.lengthOk (pt : NlaPolicy) (len : Int) : Bool :=
  !(decide (pt.type = .flag) && decide (0 < len)) && !decide (len < pt.leastLen)
    && !(decide (pt.maxlen ≠ 0) && decide ((pt.maxlen : Int) < len))

/-- The address of the last byte of the payload. -/
def nlaLast (mem : Nat → UInt8) (nla : Nat) : Nat :=
  ((nla : Int) + nlaHdrlen + (nlaLen mem nla - 1)).toNat

/-- `validate_nla`. A type out of range passes. -/
def validateNla (mem : Nat → UInt8) (nla maxtype : Nat) (policy : Nat → NlaPolicy) : Int :=
  let type := nlaType mem nla
  if type = 0 ∨ maxtype < type then 0
  else if !(policy type).lengthOk (nlaLen mem nla) then -nleRange
  else if (policy type).type = .string ∧ mem (nlaLast mem nla) ≠ 0 then -nleInval
  else 0

/-- What `validate_nla` reads besides the header. -/
def validateNlaReads (mem : Nat → UInt8) (nla maxtype : Nat) (policy : Nat → NlaPolicy) : List Nat :=
  let type := nlaType mem nla
  if type = 0 ∨ maxtype < type then []
  else if !(policy type).lengthOk (nlaLen mem nla) then []
  else if (policy type).type = .string then [nlaLast mem nla]
  else []

/-- What `nla_parse` prints to `stderr`: a type of zero, and bytes left over. -/
inductive NlaWarning where
  | illegalType
  | leftover (rem : Int)
deriving DecidableEq, Repr

/-- The table that `nla_parse` fills, what it prints to `stderr` and the addresses it reads. -/
structure ParseState where
  tb : Nat → Option Nat
  stderr : List NlaWarning
  reads : List Nat

/-- The body of the loop of `nla_parse`. The first component is the error that ends it. -/
def nlaParseBody (mem : Nat → UInt8) (maxtype : Nat) (policy : Option (Nat → NlaPolicy))
    (s : ParseState) (nla : Nat) : Option Int × ParseState :=
  let type := nlaType mem nla
  let s := { s with reads := s.reads ++ [nla, nla + 1, nla + 2, nla + 3] }
  if type = 0 then (none, { s with stderr := s.stderr ++ [.illegalType] })
  else if type ≤ maxtype then
    match policy with
    | none => (none, { s with tb := Function.update s.tb type (some nla) })
    | some policy =>
      let err := validateNla mem nla maxtype policy
      let s := { s with reads := s.reads ++ validateNlaReads mem nla maxtype policy }
      if err < 0 then (some err, s)
      else (none, { s with tb := Function.update s.tb type (some nla) })
  else (none, s)

/-- The loop of `nla_parse` over the attributes met. The first error ends it, with the attributes
before it already in the table. -/
def nlaParseLoop (mem : Nat → UInt8) (maxtype : Nat) (policy : Option (Nat → NlaPolicy)) :
    List Nat → ParseState → Option Int × ParseState
  | [], s => (none, s)
  | nla :: rest, s =>
    match nlaParseBody mem maxtype policy s nla with
    | (some err, s) => (some err, s)
    | (none, s) => nlaParseLoop mem maxtype policy rest s

/-- `nla_parse`. The attributes it meets are those of the walk, since its body moves nothing. -/
def nlaParse (mem : Nat → UInt8) (maxtype head : Nat) (len : Int)
    (policy : Option (Nat → NlaPolicy)) : Int × ParseState :=
  let w := nlaForEachAttr mem head len
  match nlaParseLoop mem maxtype policy w.seen ⟨fun _ => none, [], []⟩ with
  | (some err, s) => (err, s)
  | (none, s) =>
    (0, { s with
      stderr := s.stderr ++ (if 0 < w.rem then [.leftover w.rem] else [])
      reads := s.reads ++ nlaOkReads w.pos w.rem })

/-- `genlmsg_parse`. The table is left as it was if the message is too short for its headers. -/
def genlmsgParse (nlh : Nlmsghdr) (mem : Nat → UInt8) (hdrlen : Nat) (tb : Nat → Option Nat)
    (maxtype : Nat) (policy : Option (Nat → NlaPolicy)) : Int × ParseState :=
  if nlh.nlmsgLen < nlmsgHdrlen + genlHdrlen
      ∨ nlh.nlmsgLen - genlHdrlen - nlmsgHdrlen < nlaAlign hdrlen then
    (-nleMsgTooshort, ⟨tb, [], []⟩)
  else
    nlaParse mem maxtype (nlmsgHdrlen + genlHdrlen + nlaAlign hdrlen)
      (nlh.nlmsgLen - genlHdrlen - nlmsgHdrlen - nlaAlign hdrlen : Nat) policy

/-! ## The attribute stream as records

The walk of `nla_for_each_attr` is an instance of the library's walk over records with a header, a
length and a tag. What holds of every such walk is then used here by name. -/

/-- The layout of an attribute: a 4-byte header with a length and a type, and a payload that is
padded. -/
def nlaFormat : Records.Format UInt8 where
  hdr := nlaHdrlen
  len m := load16 m 0
  tag m := nlaType m 0
  space := nlaAlign
  slack := 3
  hdr_pos := by decide
  le_space := le_nlaAlign
  space_le := nlaAlign_le
  len_congr m m' h := by simp [load16, h 0 (by decide), h 1 (by decide)]
  tag_congr m m' h := by simp [nlaType, load16, h 2 (by decide), h 3 (by decide)]

theorem nlaFormat_lenAt (mem : Nat → UInt8) (p : Nat) : nlaFormat.lenAt mem p = load16 mem p := rfl

theorem nlaFormat_tagAt (mem : Nat → UInt8) (p : Nat) : nlaFormat.tagAt mem p = nlaType mem p := rfl

/-- The odd first comparison decides nothing: what it lets through fails the last one. -/
theorem nlaOk_iff (mem : Nat → UInt8) (nla : Nat) (remaining : Int) :
    nlaOk mem nla remaining = true ↔ nlaFormat.Fits mem nla remaining := by
  unfold nlaOk Records.Format.Fits toSizeT
  simp only [nlaFormat_lenAt, Bool.and_eq_true, decide_eq_true_eq]
  show (nlaHdrlen ≤ _ ∧ nlaHdrlen ≤ _) ∧ _ ↔ nlaHdrlen ≤ _ ∧ _
  unfold nlaHdrlen
  constructor
  · rintro ⟨⟨-, hlow⟩, hhigh⟩
    exact ⟨hlow, hhigh⟩
  · rintro ⟨hlow, hhigh⟩
    refine ⟨⟨?_, hlow⟩, hhigh⟩
    rw [if_neg (by omega)]
    omega

/-- An attribute that passes `nla_ok` is met, and the walk goes on behind its padding. -/
theorem nlaForEachAttr_of_ok {mem : Nat → UInt8} {pos : Nat} {rem : Int}
    (h : nlaOk mem pos rem = true) :
    nlaForEachAttr mem pos rem
      = ⟨pos :: (nlaForEachAttr mem (pos + nlaAlign (load16 mem pos))
            (rem - nlaAlign (load16 mem pos))).seen,
          (nlaForEachAttr mem (pos + nlaAlign (load16 mem pos)) (rem - nlaAlign (load16 mem pos))).pos,
          (nlaForEachAttr mem (pos + nlaAlign (load16 mem pos))
            (rem - nlaAlign (load16 mem pos))).rem⟩ := by
  rw [nlaForEachAttr, if_pos h]

/-- The loop of the source is the library's walk. -/
theorem nlaForEachAttr_eq_walk (mem : Nat → UInt8) (pos : Nat) (rem : Int) :
    nlaForEachAttr mem pos rem = nlaFormat.walk mem pos rem := by
  induction pos, rem using nlaForEachAttr.induct mem with
  | case1 pos rem h totlen ih =>
    rw [nlaForEachAttr_of_ok h, Records.Format.walk_of_fits _ _ ((nlaOk_iff _ _ _).mp h), ih]
    rfl
  | case2 pos rem h =>
    rw [nlaForEachAttr, if_neg h, Records.Format.walk_of_not_fits _ _ (mt (nlaOk_iff _ _ _).mpr h)]

/-- A record takes up what `nla_total_size` says. -/
theorem nlaFormat_extent (r : Records.Record UInt8) :
    nlaFormat.extent r = nlaTotalSize r.data.length := rfl

/-- An attribute takes up a multiple of four bytes. -/
theorem nlaTotalSize_mod (n : Nat) : nlaTotalSize n % 4 = 0 := by
  unfold nlaTotalSize nlaAlign
  omega

theorem size_mod_four (attrs : List (Records.Record UInt8)) : nlaFormat.size attrs % 4 = 0 := by
  induction attrs with
  | nil => rfl
  | cons r attrs ih =>
    have hr := nlaTotalSize_mod r.data.length
    rw [Records.Format.size_cons, nlaFormat_extent]
    omega

/-! ## What a put does

`nla_reserve` checks for room, pads, and writes the header. Its size test counts `nlmsg_len` twice,
so it refuses an attribute when about half of the buffer is still free; the lemmas have the test as
it is. -/

/-- A 16-bit field is decided by its two bytes. -/
theorem load16_congr {mem mem' : Nat → UInt8} {p : Nat} (h : mem' p = mem p)
    (h' : mem' (p + 1) = mem (p + 1)) : load16 mem' p = load16 mem p := by
  unfold load16
  rw [h, h']

theorem load16_store16 (mem : Nat → UInt8) (p : Nat) {v : Nat} (h : v < 2 ^ 16) :
    load16 (store16 mem p v) p = v := by
  have h0 : store16 mem p v p = UInt8.ofNat v :=
    memcpy_add (i := 0) (by decide)
  have h1 : store16 mem p v (p + 1) = UInt8.ofNat (v / 256) :=
    memcpy_add (i := 1) (by decide)
  unfold load16
  rw [h0, h1, UInt8.toNat_ofNat', UInt8.toNat_ofNat']
  omega

theorem store16_of_lt {mem : Nat → UInt8} {p v a : Nat} (h : a < p) : store16 mem p v a = mem a :=
  memcpy_of_lt h

theorem store16_of_ge {mem : Nat → UInt8} {p v a : Nat} (h : p + 2 ≤ a) : store16 mem p v a = mem a :=
  memcpy_of_ge h

/-- What a message looks like after room for an attribute has been reserved in it. -/
structure Reserved (msg msg' : MsgBuf) (attrtype attrlen : Nat) : Prop where
  len : msg'.nlh.nlmsgLen = msg.nlh.nlmsgLen + nlaTotalSize attrlen
  size : msg'.nmSize = msg.nmSize
  nlaLen : load16 msg'.bytes msg.nlh.nlmsgLen = nlaAttrSize attrlen
  nlaType : nlaType msg'.bytes msg.nlh.nlmsgLen = attrtype % 2 ^ 14
  below : ∀ a < msg.nlh.nlmsgLen, msg'.bytes a = msg.bytes a
  above : ∀ a, msg'.nlh.nlmsgLen ≤ a → msg'.bytes a = msg.bytes a
  padding : ∀ a, msg.nlh.nlmsgLen + nlaAttrSize attrlen ≤ a → a < msg'.nlh.nlmsgLen →
    msg'.bytes a = 0

/-- The padding is zeroed in any case: an empty attribute has none. -/
theorem nlaReserve_bytes (mem : Nat → UInt8) (p attrlen : Nat) :
    (if attrlen ≠ 0 then memcpy mem p (fun _ => 0) (nlaPadlen attrlen) else mem)
      = memcpy mem p (fun _ => 0) (nlaPadlen attrlen) := by
  split
  · rfl
  · next h =>
    obtain rfl : attrlen = 0 := by omega
    funext a
    unfold memcpy
    rw [if_neg]
    show ¬ (p ≤ a ∧ a < p + 0)
    omega

/-- With room the header is written at the old length, and the bytes before it are kept. -/
theorem nlaReserve_reserved {msg : MsgBuf} (hal : msg.nlh.nlmsgLen % 4 = 0) (attrtype : Nat)
    {attrlen : Nat} (hlen : nlaAttrSize attrlen < 2 ^ 16)
    (hroom : 2 * msg.nlh.nlmsgLen + nlaTotalSize attrlen ≤ msg.nmSize) :
    ∃ msg', nlaReserve msg attrtype attrlen = some (msg', msg.nlh.nlmsgLen)
      ∧ Reserved msg msg' attrtype attrlen := by
  have htotal : nlaAttrSize attrlen + nlaPadlen attrlen = nlaTotalSize attrlen := by
    have hle : nlaAttrSize attrlen ≤ nlaTotalSize attrlen := le_nlaAlign _
    unfold nlaPadlen
    omega
  have hsize : 4 ≤ nlaAttrSize attrlen := by
    unfold nlaAttrSize nlaHdrlen
    omega
  unfold nlaReserve
  rw [nlaAlign_of_dvd hal, if_neg (by omega)]
  simp only [Nat.mod_eq_of_lt hlen, nlaReserve_bytes]
  refine ⟨_, rfl, rfl, rfl, ?_, ?_, ?_, ?_, ?_⟩
  · show load16 (memcpy _ _ _ _) _ = _
    rw [load16_congr (memcpy_of_lt (by omega)) (memcpy_of_lt (by omega)), load16_store16 _ _ hlen]
  · show load16 (memcpy _ _ _ _) _ % 2 ^ 14 = _
    rw [load16_congr (memcpy_of_lt (by omega)) (memcpy_of_lt (by omega)),
      load16_congr (store16_of_ge (by omega)) (store16_of_ge (by omega)),
      load16_store16 _ _ (Nat.mod_lt _ (by decide))]
    exact Nat.mod_mod_of_dvd _ (by decide)
  · intro a ha
    dsimp only
    rw [memcpy_of_lt (by omega), store16_of_lt (by omega), store16_of_lt (by omega)]
  · intro a ha
    replace ha : msg.nlh.nlmsgLen + nlaTotalSize attrlen ≤ a := ha
    dsimp only
    rw [memcpy_of_ge (by omega), store16_of_ge (by omega), store16_of_ge (by omega)]
  · intro a ha hlt
    replace hlt : a < msg.nlh.nlmsgLen + nlaTotalSize attrlen := hlt
    obtain ⟨i, rfl⟩ := Nat.exists_eq_add_of_le ha
    dsimp only
    rw [memcpy_add (by omega)]

theorem nlaReserve_none {msg : MsgBuf} (hal : msg.nlh.nlmsgLen % 4 = 0) (attrtype : Nat)
    {attrlen : Nat} (hroom : msg.nmSize < 2 * msg.nlh.nlmsgLen + nlaTotalSize attrlen) :
    nlaReserve msg attrtype attrlen = none := by
  unfold nlaReserve
  rw [nlaAlign_of_dvd hal, if_pos (by omega)]

/-! ## Messages under construction

A message carries a list of attributes if its bytes are a message header and these attributes one
after the other. This is the invariant of building one: each put appends to the list or leaves the
message alone. -/

/-- Where the attributes of a message without a user header begin. -/
def attrsOffset : Nat := nlmsgHdrlen + genlHdrlen

/-- The message holds these attributes behind its headers, with zeros for padding, and ends with
them. -/
structure MsgBuf.Carries (msg : MsgBuf) (attrs : List (Records.Record UInt8)) : Prop where
  len : msg.nlh.nlmsgLen = attrsOffset + nlaFormat.size attrs
  fits : msg.nlh.nlmsgLen ≤ msg.nmSize
  holds : nlaFormat.Holds msg.bytes attrsOffset attrs
  padded : nlaFormat.Padded msg.bytes 0 attrsOffset attrs

/-- The next attribute goes to a multiple of four. -/
theorem MsgBuf.Carries.aligned {msg : MsgBuf} {attrs : List (Records.Record UInt8)}
    (h : msg.Carries attrs) : msg.nlh.nlmsgLen % 4 = 0 := by
  have hsize := size_mod_four attrs
  have hoff : attrsOffset = 20 := rfl
  have hlen := h.len
  omega

/-- The record of a put; the two upper bits of its type are not part of it. -/
def attrRecord (attrtype : Nat) (data : List UInt8) : Records.Record UInt8 :=
  ⟨attrtype % 2 ^ 14, data⟩

/-- `nlmsg_reserve` with room moves the length on by the padded size. -/
theorem nlmsgReserve_of_room {n : MsgBuf} {len : Nat}
    (h : nlaAlign len + n.nlh.nlmsgLen ≤ n.nmSize) :
    nlmsgReserve n len = some ({ n with
      nlh := { n.nlh with nlmsgLen := n.nlh.nlmsgLen + nlaAlign len }
      bytes := memcpy n.bytes (n.nlh.nlmsgLen + len) (fun _ => 0) (nlaAlign len - len) },
      n.nlh.nlmsgLen) :=
  if_neg (by omega)

/-- A message with its two headers carries no attribute yet. -/
theorem genlmsgPut_carries {defaultMsgSize : Nat} (h : attrsOffset ≤ defaultMsgSize)
    (pid seq : UInt32) (family flags : UInt16) (cmd version : UInt8) :
    (genlmsgPut (nlmsgAlloc defaultMsgSize) pid seq family flags cmd version).1.Carries []
      ∧ (genlmsgPut (nlmsgAlloc defaultMsgSize) pid seq family flags cmd version).1.nmSize
        = defaultMsgSize := by
  have hoff : attrsOffset = 20 := rfl
  have hsize : max defaultMsgSize nlmsgHdrlen = defaultMsgSize := by
    unfold nlmsgHdrlen
    omega
  unfold genlmsgPut nlmsgPut
  rw [if_pos (by decide), nlmsgReserve_of_room]
  · refine ⟨⟨rfl, ?_, trivial, trivial⟩, hsize⟩
    show attrsOffset ≤ max defaultMsgSize nlmsgHdrlen
    omega
  · show 20 ≤ max defaultMsgSize nlmsgHdrlen
    omega

/-- A put without room returns `-NLE_NOMEM` and leaves the message as it was. -/
theorem nlaPut_refused {msg : MsgBuf} {attrs : List (Records.Record UInt8)} (h : msg.Carries attrs)
    (attrtype : Nat) (data : List UInt8)
    (hroom : msg.nmSize < 2 * msg.nlh.nlmsgLen + nlaTotalSize data.length) :
    nlaPut msg attrtype data = (-nleNomem, msg) := by
  unfold nlaPut
  rw [nlaReserve_none h.aligned attrtype hroom]

/-- With or without a payload, the bytes are those of one copy. -/
theorem nlaPut_of_reserve {msg msg' : MsgBuf} {attrtype nla : Nat} {data : List UInt8}
    (h : nlaReserve msg attrtype data.length = some (msg', nla)) :
    nlaPut msg attrtype data = (0, { msg' with
      bytes := memcpy msg'.bytes (nla + nlaHdrlen) (data.getD · 0) data.length }) := by
  unfold nlaPut
  rw [h]
  show (if 0 < data.length then _ else _) = _
  split
  · rfl
  · next hnil =>
    have hcopy : memcpy msg'.bytes (nla + nlaHdrlen) (data.getD · 0) data.length = msg'.bytes := by
      funext a
      exact if_neg (by omega)
    rw [hcopy]

/-- The room reserved, filled with the payload. -/
theorem Reserved.carries {msg msg' : MsgBuf} {attrs : List (Records.Record UInt8)} {attrtype : Nat}
    {data : List UInt8} (hmsg : Reserved msg msg' attrtype data.length) (h : msg.Carries attrs)
    (hroom : msg'.nlh.nlmsgLen ≤ msg.nmSize) :
    MsgBuf.Carries { msg' with
        bytes := memcpy msg'.bytes (msg.nlh.nlmsgLen + nlaHdrlen) (data.getD · 0) data.length }
      (attrs ++ [attrRecord attrtype data]) := by
  have hhdr : nlaHdrlen = 4 := rfl
  have hsize : nlaAttrSize data.length = 4 + data.length := rfl
  have hlen := h.len
  have hmlen := hmsg.len
  have hbelow : ∀ a, attrsOffset ≤ a → a < attrsOffset + nlaFormat.size attrs →
      memcpy msg'.bytes (msg.nlh.nlmsgLen + nlaHdrlen) (data.getD · 0) data.length a = msg.bytes a := by
    intro a _ ha
    rw [memcpy_of_lt (by omega), hmsg.below a (by omega)]
  refine ⟨?_, ?_, ?_, ?_⟩
  · show msg'.nlh.nlmsgLen = _
    rw [Records.Format.size_append, Records.Format.size_cons, Records.Format.size_nil,
      nlaFormat_extent]
    show _ = _ + (_ + (nlaTotalSize data.length + 0))
    omega
  · show msg'.nlh.nlmsgLen ≤ msg'.nmSize
    rw [hmsg.size]
    exact hroom
  · apply Records.Format.holds_append.mpr
    rw [← h.len]
    refine ⟨h.holds.congr hbelow, ⟨?_, ?_, ?_⟩, trivial⟩
    · show load16 (memcpy _ _ _ _) _ % 2 ^ 14 = _
      rw [load16_congr (memcpy_of_lt (by omega)) (memcpy_of_lt (by omega))]
      exact hmsg.nlaType
    · show load16 (memcpy _ _ _ _) _ = _
      rw [load16_congr (memcpy_of_lt (by omega)) (memcpy_of_lt (by omega))]
      exact hmsg.nlaLen
    · intro i hi
      calc memcpy msg'.bytes (msg.nlh.nlmsgLen + 4) (data.getD · 0) data.length
            (msg.nlh.nlmsgLen + 4 + i)
          = data.getD i 0 := memcpy_add hi
        _ = data[i] := List.getD_eq_getElem _ _ hi
  · apply Records.Format.padded_append.mpr
    rw [← h.len]
    refine ⟨h.padded.congr hbelow, ?_, trivial⟩
    intro a ha hlt
    replace ha : msg.nlh.nlmsgLen + (4 + data.length) ≤ a := ha
    replace hlt : a < msg.nlh.nlmsgLen + nlaTotalSize data.length := hlt
    dsimp only
    rw [memcpy_of_ge (by omega), hmsg.padding a (by omega) (by omega)]

theorem nlaPut_accepted {msg : MsgBuf} {attrs : List (Records.Record UInt8)} (h : msg.Carries attrs)
    (hpage : msg.nmSize ≤ 2 ^ 16) (attrtype : Nat) {data : List UInt8}
    (hroom : 2 * msg.nlh.nlmsgLen + nlaTotalSize data.length ≤ msg.nmSize) :
    (nlaPut msg attrtype data).1 = 0
      ∧ (nlaPut msg attrtype data).2.nmSize = msg.nmSize
      ∧ (∀ a, msg.nmSize ≤ a → (nlaPut msg attrtype data).2.bytes a = msg.bytes a)
      ∧ (nlaPut msg attrtype data).2.Carries (attrs ++ [attrRecord attrtype data]) := by
  have hoff : attrsOffset = 20 := rfl
  have hlen := h.len
  have hattr : nlaAttrSize data.length ≤ nlaTotalSize data.length := le_nlaAlign _
  have hsize : nlaAttrSize data.length = 4 + data.length := rfl
  have hhdr : nlaHdrlen = 4 := rfl
  obtain ⟨msg', hres, hmsg⟩ := nlaReserve_reserved h.aligned attrtype (by omega) hroom
  have hmlen := hmsg.len
  rw [nlaPut_of_reserve hres]
  refine ⟨rfl, hmsg.size, ?_, hmsg.carries h (by omega)⟩
  intro a ha
  dsimp only
  rw [memcpy_of_ge (by omega), hmsg.above a (by omega)]

/-- A sequence of puts, with those on record that returned 0. -/
structure PutRun where
  msg : MsgBuf
  done : List (Records.Record UInt8)

/-- One more put; its attribute is recorded if it succeeds. -/
def PutRun.step (s : PutRun) (put : Nat × List UInt8) : PutRun where
  msg := (nlaPut s.msg put.1 put.2).2
  done :=
    if (nlaPut s.msg put.1 put.2).1 = 0 then s.done ++ [attrRecord put.1 put.2] else s.done

/-- What every put keeps of a message in a buffer of `size` bytes. -/
structure PutRun.Sound (size : Nat) (s : PutRun) : Prop where
  carries : s.msg.Carries s.done
  nmSize : s.msg.nmSize = size

/-- A put succeeds exactly if the doubled size test passes. -/
theorem PutRun.Sound.put_iff {size : Nat} {s : PutRun} (h : s.Sound size) (hpage : size ≤ 2 ^ 16)
    (put : Nat × List UInt8) :
    (nlaPut s.msg put.1 put.2).1 = 0
      ↔ 2 * s.msg.nlh.nlmsgLen + nlaTotalSize put.2.length ≤ size := by
  have hsize := h.nmSize
  constructor
  · intro hret
    by_contra hroom
    rw [nlaPut_refused h.carries put.1 put.2 (by omega)] at hret
    exact absurd (show -nleNomem = 0 from hret) (by decide)
  · intro hroom
    exact (nlaPut_accepted h.carries (by omega) put.1 (by omega)).1

/-- A put keeps the message sound, whether it succeeds or not. -/
theorem PutRun.Sound.step {size : Nat} {s : PutRun} (h : s.Sound size) (hpage : size ≤ 2 ^ 16)
    (put : Nat × List UInt8) : (s.step put).Sound size := by
  have hsize := h.nmSize
  have hput := h.put_iff hpage put
  unfold PutRun.step
  by_cases hroom : 2 * s.msg.nlh.nlmsgLen + nlaTotalSize put.2.length ≤ size
  · obtain ⟨-, hnm, -, hcarries⟩ := nlaPut_accepted h.carries (by omega) put.1 (hsize ▸ hroom)
    rw [if_pos (hput.mpr hroom)]
    exact ⟨hcarries, hnm.trans hsize⟩
  · rw [if_neg (mt hput.mp hroom), nlaPut_refused h.carries put.1 put.2 (by omega)]
    exact h

/-- A put that fits adds its attribute. -/
theorem PutRun.Sound.put {size : Nat} {s : PutRun} (h : s.Sound size) (hpage : size ≤ 2 ^ 16)
    (put : Nat × List UInt8)
    (hroom : 2 * s.msg.nlh.nlmsgLen + nlaTotalSize put.2.length ≤ size) :
    (PutRun.mk (nlaPut s.msg put.1 put.2).2 (s.done ++ [attrRecord put.1 put.2])).Sound size := by
  have hnext := h.step hpage put
  unfold PutRun.step at hnext
  rw [if_pos ((h.put_iff hpage put).mpr hroom)] at hnext
  exact hnext

/-- If twice the message fits with all of them in it, all puts add their attributes. -/
theorem PutRun.Sound.run_records {size : Nat} {s : PutRun} (h : s.Sound size) (hpage : size ≤ 2 ^ 16)
    {rs : List (Records.Record UInt8)} (htags : ∀ r ∈ rs, r.tag < 2 ^ 14)
    (hroom : 2 * (s.msg.nlh.nlmsgLen + nlaFormat.size rs) ≤ size) :
    (Runs.run PutRun.step s (rs.map fun r => (r.tag, r.data))).msg.Carries (s.done ++ rs) := by
  induction rs generalizing s with
  | nil =>
    rw [List.append_nil]
    exact h.carries
  | cons r rs ih =>
    rw [Records.Format.size_cons, nlaFormat_extent] at hroom
    have hfits : (nlaPut s.msg r.tag r.data).1 = 0 :=
      (h.put_iff hpage (r.tag, r.data)).mpr (by
        dsimp only
        omega)
    have hrecord : attrRecord r.tag r.data = r := by
      unfold attrRecord
      rw [Nat.mod_eq_of_lt (htags r List.mem_cons_self)]
    have hdone : (s.step (r.tag, r.data)).done = s.done ++ [r] := by
      unfold PutRun.step
      rw [if_pos hfits, hrecord]
    have hnext := h.step hpage (r.tag, r.data)
    have hlen : (s.step (r.tag, r.data)).msg.nlh.nlmsgLen
        = s.msg.nlh.nlmsgLen + nlaTotalSize r.data.length := by
      rw [hnext.carries.len, hdone, h.carries.len, Records.Format.size_append, Records.Format.size_cons,
        Records.Format.size_nil, nlaFormat_extent]
      omega
    have hrest := ih hnext (fun r' hr' => htags r' (List.mem_cons_of_mem r hr')) (by omega)
    rwa [hdone, List.append_assoc] at hrest

/-! ## What the parser makes of it

The parser on a message that was built. It meets the attributes in the order in which they were put,
so its table has the last of each type. -/

/-- The payload of the attribute at `nla`. -/
def nlaPayload (mem : Nat → UInt8) (nla : Nat) : List UInt8 :=
  readMem mem (nla + nlaHdrlen) (nlaLen mem nla).toNat

/-- The payload of a record is in memory behind its header. -/
theorem readMem_of_at {mem : Nat → UInt8} {nla : Nat} {r : Records.Record UInt8}
    (h : nlaFormat.At mem nla r) : readMem mem (nla + nlaHdrlen) r.data.length = r.data := by
  apply List.ext_getElem (length_readMem ..)
  intro i hi hi'
  simp only [readMem, List.getElem_map, List.getElem_range]
  exact h.data i hi'

/-- `nla_data` and `nla_len` give that payload. -/
theorem nlaPayload_of_at {mem : Nat → UInt8} {nla : Nat} {r : Records.Record UInt8}
    (h : nlaFormat.At mem nla r) : nlaPayload mem nla = r.data := by
  have hlen : (nlaLen mem nla).toNat = r.data.length := by
    have hload : load16 mem nla = 4 + r.data.length := h.len
    unfold nlaLen nlaHdrlen
    omega
  unfold nlaPayload
  rw [hlen, readMem_of_at h]

/-- Without a policy, the table is the index of the attributes met, for types in range. -/
theorem nlaParseLoop_tb (mem : Nat → UInt8) (maxtype : Nat) (ps : List Nat) (s : ParseState)
    (t : Nat) :
    (nlaParseLoop mem maxtype none ps s).2.tb t
      = if 0 < t ∧ t ≤ maxtype then (Records.Format.index nlaFormat mem ps t).or (s.tb t)
        else s.tb t := by
  induction ps generalizing s with
  | nil => simp [nlaParseLoop, Records.Format.index]
  | cons nla ps ih =>
    rw [Records.Format.index_cons, nlaFormat_tagAt]
    simp only [nlaParseLoop, nlaParseBody]
    by_cases h0 : nlaType mem nla = 0
    · rw [if_pos h0, ih, h0]
      by_cases ht : 0 < t ∧ t ≤ maxtype
      · simp [ht, show (0 : Nat) ≠ t by omega]
      · simp [ht]
    rw [if_neg h0]
    by_cases hmax : nlaType mem nla ≤ maxtype
    · rw [if_pos hmax, ih]
      by_cases hty : nlaType mem nla = t
      · subst hty
        simp [hmax, show 0 < nlaType mem nla by omega, Function.update_self]
      · simp [hty, Function.update_of_ne (Ne.symm hty)]
    · rw [if_neg hmax, ih]
      by_cases ht : 0 < t ∧ t ≤ maxtype
      · simp [ht, show nlaType mem nla ≠ t by omega]
      · simp [ht]

/-- Without a policy nothing ends the loop early. -/
theorem nlaParseLoop_ret_none (mem : Nat → UInt8) (maxtype : Nat) (ps : List Nat) (s : ParseState) :
    (nlaParseLoop mem maxtype none ps s).1 = none := by
  induction ps generalizing s with
  | nil => rfl
  | cons nla ps ih =>
    have hbody : (nlaParseBody mem maxtype none s nla).1 = none := by
      simp only [nlaParseBody]
      split
      · rfl
      split
      · rfl
      · rfl
    unfold nlaParseLoop
    split
    · next err s' heq =>
      rw [heq] at hbody
      exact absurd hbody (by simp)
    · exact ih _

/-! ## Bytes of any origin

A message from elsewhere may have anything in it. Three facts hold of it all the same: which bytes
are looked at, which attributes can get into the table, and that no other byte has a part in the
result. -/

/-- A string that passes its length check is not empty, so it has a last byte to look at. -/
theorem lengthOk_string {pt : NlaPolicy} (hty : pt.type = .string) {len : Int}
    (h : pt.lengthOk len = true) : 0 < len := by
  have hleast : 0 < pt.leastLen := by
    unfold NlaPolicy.leastLen
    split
    · omega
    · rw [hty]
      decide
  simp only [NlaPolicy.lengthOk, Bool.and_eq_true, Bool.not_eq_true', decide_eq_false_iff_not] at h
  omega

/-- `validate_nla` reads the last byte of a payload only where there is one. -/
theorem validateNlaReads_inside {mem : Nat → UInt8} {nla maxtype : Nat} {policy : Nat → NlaPolicy}
    {a : Nat} (h : a ∈ validateNlaReads mem nla maxtype policy) :
    nla ≤ a ∧ a < nla + load16 mem nla := by
  simp only [validateNlaReads] at h
  split at h
  · cases h
  split at h
  · cases h
  next hlen =>
  split at h
  · next hty =>
    have hpos := lengthOk_string hty (by simpa using hlen)
    obtain rfl := List.mem_singleton.mp h
    unfold nlaLast
    unfold nlaLen nlaHdrlen at *
    omega
  · cases h

/-- One round looks at no byte outside its attribute. -/
theorem mem_nlaParseBody_reads {mem : Nat → UInt8} {maxtype : Nat}
    {policy : Option (Nat → NlaPolicy)} {s : ParseState} {nla a : Nat} (hlen : 4 ≤ load16 mem nla)
    (h : a ∈ (nlaParseBody mem maxtype policy s nla).2.reads) :
    a ∈ s.reads ∨ nla ≤ a ∧ a < nla + load16 mem nla := by
  have hhdr : ∀ b ∈ s.reads ++ [nla, nla + 1, nla + 2, nla + 3],
      b ∈ s.reads ∨ nla ≤ b ∧ b < nla + load16 mem nla := by
    intro b hb
    simp only [List.mem_append, List.mem_cons, List.not_mem_nil, or_false] at hb
    rcases hb with hb | hb
    · exact Or.inl hb
    · exact Or.inr (by omega)
  have hval : ∀ policy, ∀ b ∈ (s.reads ++ [nla, nla + 1, nla + 2, nla + 3])
      ++ validateNlaReads mem nla maxtype policy, b ∈ s.reads ∨ nla ≤ b ∧ b < nla + load16 mem nla := by
    intro policy b hb
    rcases List.mem_append.mp hb with hb | hb
    · exact hhdr b hb
    · exact Or.inr (validateNlaReads_inside hb)
  simp only [nlaParseBody] at h
  split at h
  · exact hhdr a h
  split at h
  · cases policy with
    | none => exact hhdr a h
    | some policy =>
      dsimp only at h
      split at h
      · exact hval policy a h
      · exact hval policy a h
  · exact hhdr a h

/-- One round leaves the table or puts its own attribute there, in range and validated. -/
theorem nlaParseBody_tb (mem : Nat → UInt8) (maxtype : Nat) (policy : Option (Nat → NlaPolicy))
    (s : ParseState) (nla : Nat) :
    (nlaParseBody mem maxtype policy s nla).2.tb = s.tb
      ∨ (0 < nlaType mem nla ∧ nlaType mem nla ≤ maxtype
        ∧ (∀ pt ∈ policy, 0 ≤ validateNla mem nla maxtype pt)
        ∧ (nlaParseBody mem maxtype policy s nla).2.tb
          = Function.update s.tb (nlaType mem nla) (some nla)) := by
  simp only [nlaParseBody]
  split
  · exact Or.inl rfl
  next h0 =>
  split
  · next hmax =>
    cases policy with
    | none => exact Or.inr ⟨by omega, hmax, (fun _ h => nomatch h), rfl⟩
    | some policy =>
      dsimp only
      split
      · exact Or.inl rfl
      · next herr =>
        refine Or.inr ⟨by omega, hmax, ?_, rfl⟩
        intro pt hpt
        obtain rfl := Option.some.inj hpt
        omega
  · exact Or.inl rfl

/-- What the body keeps at each attribute that the loop meets, the whole loop keeps. -/
theorem nlaParseLoop_invariant {mem : Nat → UInt8} {maxtype : Nat}
    {policy : Option (Nat → NlaPolicy)} {Inv : ParseState → Prop} {ps : List Nat}
    (hbody : ∀ nla ∈ ps, ∀ s, Inv s → Inv (nlaParseBody mem maxtype policy s nla).2)
    {s : ParseState} (hs : Inv s) : Inv (nlaParseLoop mem maxtype policy ps s).2 := by
  induction ps generalizing s with
  | nil => exact hs
  | cons nla ps ih =>
    have hnext := hbody nla List.mem_cons_self s hs
    unfold nlaParseLoop
    split
    · next err s' heq =>
      rw [heq] at hnext
      exact hnext
    · next s' heq =>
      rw [heq] at hnext
      exact ih (fun nla' hnla' => hbody nla' (List.mem_cons_of_mem nla hnla')) hnext

/-- Validation depends on the bytes of its attribute alone. -/
theorem validateNla_congr {mem mem' : Nat → UInt8} {nla : Nat} (maxtype : Nat)
    (policy : Nat → NlaPolicy) (hlen : 4 ≤ load16 mem nla)
    (h : ∀ a, nla ≤ a → a < nla + load16 mem nla → mem' a = mem a) :
    validateNla mem' nla maxtype policy = validateNla mem nla maxtype policy
      ∧ validateNlaReads mem' nla maxtype policy = validateNlaReads mem nla maxtype policy := by
  have hload : load16 mem' nla = load16 mem nla :=
    load16_congr (h _ (by omega) (by omega)) (h _ (by omega) (by omega))
  have htype : nlaType mem' nla = nlaType mem nla := by
    unfold nlaType
    rw [load16_congr (h _ (by omega) (by omega)) (h _ (by omega) (by omega))]
  have hnlaLen : nlaLen mem' nla = nlaLen mem nla := by
    unfold nlaLen
    rw [hload]
  have hlast : nlaLast mem' nla = nlaLast mem nla := by
    unfold nlaLast
    rw [hnlaLen]
  simp only [validateNla, validateNlaReads, htype, hnlaLen, hlast, and_true]
  split
  · rfl
  split
  · rfl
  next hok =>
  by_cases hty : (policy (nlaType mem nla)).type = .string
  · have hpos := lengthOk_string hty (by simpa using hok)
    have hin : nla ≤ nlaLast mem nla ∧ nlaLast mem nla < nla + load16 mem nla := by
      unfold nlaLast
      unfold nlaLen nlaHdrlen at *
      omega
    rw [h _ hin.1 hin.2]
  · simp [hty]

theorem nlaParseBody_congr {mem mem' : Nat → UInt8} {maxtype : Nat}
    {policy : Option (Nat → NlaPolicy)} {s : ParseState} {nla : Nat} (hlen : 4 ≤ load16 mem nla)
    (h : ∀ a, nla ≤ a → a < nla + load16 mem nla → mem' a = mem a) :
    nlaParseBody mem' maxtype policy s nla = nlaParseBody mem maxtype policy s nla := by
  have htype : nlaType mem' nla = nlaType mem nla := by
    unfold nlaType
    rw [load16_congr (h _ (by omega) (by omega)) (h _ (by omega) (by omega))]
  cases policy with
  | none => simp only [nlaParseBody, htype]
  | some policy =>
    obtain ⟨hval, hreads⟩ := validateNla_congr maxtype policy hlen h
    simp only [nlaParseBody, htype, hval, hreads]

/-- The loop depends on the bytes of the attributes it goes through. -/
theorem nlaParseLoop_congr {mem mem' : Nat → UInt8} {maxtype : Nat}
    {policy : Option (Nat → NlaPolicy)} {ps : List Nat}
    (h : ∀ nla ∈ ps, 4 ≤ load16 mem nla
      ∧ ∀ a, nla ≤ a → a < nla + load16 mem nla → mem' a = mem a) (s : ParseState) :
    nlaParseLoop mem' maxtype policy ps s = nlaParseLoop mem maxtype policy ps s := by
  induction ps generalizing s with
  | nil => rfl
  | cons nla ps ih =>
    obtain ⟨hlen, hagree⟩ := h nla List.mem_cons_self
    unfold nlaParseLoop
    rw [nlaParseBody_congr hlen hagree]
    split
    · rfl
    · exact ih (fun nla' hnla' => h nla' (List.mem_cons_of_mem nla hnla')) _

/-- Where the length is a multiple of 4, the padding of every attribute that fits does too. -/
theorem walk_rem_nonneg (mem : Nat → UInt8) (pos : Nat) (rem : Int) (hmod : rem % 4 = 0)
    (hrem : 0 ≤ rem) : 0 ≤ (nlaFormat.walk mem pos rem).rem := by
  induction pos, rem using Records.Format.walk.induct nlaFormat mem with
  | case1 pos rem h ih =>
    rw [Records.Format.walk_of_fits _ _ h]
    have hlen : (load16 mem pos : Int) ≤ rem := h.2
    have hspace : nlaFormat.space (nlaFormat.lenAt mem pos) = (load16 mem pos + 3) / 4 * 4 := rfl
    apply ih
    · rw [hspace]
      omega
    · rw [hspace]
      omega
  | case2 pos rem h =>
    rw [Records.Format.walk_of_not_fits _ _ h]
    exact hrem

/-- `nla_ok` loads a length where at least a header remains, or where the remainder is negative. -/
theorem mem_nlaOkReads {nla a : Nat} {remaining : Int} (h : a ∈ nlaOkReads nla remaining) :
    (a = nla ∨ a = nla + 1) ∧ (remaining < 0 ∨ 4 ≤ remaining) := by
  unfold nlaOkReads at h
  split at h
  · next hgate =>
    refine ⟨by simpa using h, ?_⟩
    by_cases hneg : remaining < 0
    · exact Or.inl hneg
    · rw [toSizeT, if_neg hneg] at hgate
      unfold nlaHdrlen at hgate
      omega
  · cases h

/-- All that has been read lies between `lo` and `hi`. -/
def ParseState.ReadsIn (lo hi : Nat) (s : ParseState) : Prop :=
  ∀ a ∈ s.reads, lo ≤ a ∧ a < hi

/-- Every entry of the table is one of `ps` under its own type, and has been validated. -/
def ParseState.Tables (mem : Nat → UInt8) (maxtype : Nat) (policy : Option (Nat → NlaPolicy))
    (ps : List Nat) (s : ParseState) : Prop :=
  ∀ t q, s.tb t = some q → 0 < t ∧ t ≤ maxtype ∧ nlaType mem q = t ∧ q ∈ ps
    ∧ ∀ pt ∈ policy, 0 ≤ validateNla mem q maxtype pt

/-- The loop stays between the head and the end of the bytes. -/
theorem nlaParseLoop_readsIn (mem : Nat → UInt8) (maxtype head len : Nat)
    (policy : Option (Nat → NlaPolicy)) :
    (nlaParseLoop mem maxtype policy (nlaFormat.walk mem head len).seen
      ⟨fun _ => none, [], []⟩).2.ReadsIn head (head + len) := by
  apply nlaParseLoop_invariant
  · intro nla hnla s hs a ha
    obtain ⟨hle, hhdr, hend⟩ := nlaFormat.walk_inside mem head len nla hnla
    rw [nlaFormat_lenAt] at hhdr hend
    rcases mem_nlaParseBody_reads hhdr ha with ha | ha
    · exact hs a ha
    · omega
  · simp [ParseState.ReadsIn]

/-- What the loop puts into the table are attributes that the walk met. -/
theorem nlaParseLoop_tables (mem : Nat → UInt8) (maxtype : Nat) (policy : Option (Nat → NlaPolicy))
    (ps : List Nat) :
    (nlaParseLoop mem maxtype policy ps ⟨fun _ => none, [], []⟩).2.Tables mem maxtype policy ps := by
  apply nlaParseLoop_invariant
  · intro nla hnla s hs t q htq
    rcases nlaParseBody_tb mem maxtype policy s nla with heq | ⟨hpos, hmax, hvalid, heq⟩
    · rw [heq] at htq
      exact hs t q htq
    · rw [heq] at htq
      by_cases ht : t = nlaType mem nla
      · subst ht
        rw [Function.update_self] at htq
        obtain rfl := Option.some.inj htq
        exact ⟨hpos, hmax, rfl, hnla, hvalid⟩
      · rw [Function.update_of_ne ht] at htq
        exact hs t q htq
  · intro t q h
    cases h

/-- `nla_parse` by its loop, whose table it returns as it is. -/
theorem nlaParse_eq_loop (mem : Nat → UInt8) (maxtype head len : Nat)
    (policy : Option (Nat → NlaPolicy)) :
    ∃ s, (nlaParseLoop mem maxtype policy (nlaFormat.walk mem head len).seen
        ⟨fun _ => none, [], []⟩).2 = s
      ∧ (nlaParse mem maxtype head len policy).2.tb = s.tb
      ∧ ∀ a ∈ (nlaParse mem maxtype head len policy).2.reads, a ∈ s.reads
          ∨ a ∈ nlaOkReads (nlaFormat.walk mem head len).pos (nlaFormat.walk mem head len).rem := by
  refine ⟨_, rfl, ?_⟩
  unfold nlaParse
  rw [nlaForEachAttr_eq_walk]
  dsimp only
  split
  · next err s heq =>
    rw [heq]
    exact ⟨rfl, fun a ha => Or.inl ha⟩
  · next s heq =>
    rw [heq]
    exact ⟨rfl, fun a ha => List.mem_append.mp ha⟩

/-- The parser looks at the bytes it was given. When the padding of the last attribute passes
their end, `nla_ok` compares the remainder as unsigned and its header is loaded from beyond. -/
theorem mem_nlaParse_reads {mem : Nat → UInt8} {maxtype head len : Nat}
    {policy : Option (Nat → NlaPolicy)} {a : Nat}
    (h : a ∈ (nlaParse mem maxtype head len policy).2.reads) :
    head ≤ a ∧ (a < head + len ∨ (nlaFormat.walk mem head len).rem < 0 ∧ a < head + len + 5) := by
  obtain ⟨s, hs, -, hreads⟩ := nlaParse_eq_loop mem maxtype head len policy
  obtain ⟨hpos, hsum, -, hlow⟩ := nlaFormat.walk_stop mem head len
  have hslack : nlaFormat.slack = 3 := rfl
  rcases hreads a h with h | h
  · have hin := nlaParseLoop_readsIn mem maxtype head len policy a (hs ▸ h)
    exact ⟨hin.1, Or.inl hin.2⟩
  · obtain ⟨ha, hrem⟩ := mem_nlaOkReads h
    omega

/-- What the table holds lies inside and has been validated. -/
theorem nlaParse_entry {mem : Nat → UInt8} {maxtype head len : Nat}
    {policy : Option (Nat → NlaPolicy)} {t q : Nat}
    (h : (nlaParse mem maxtype head len policy).2.tb t = some q) :
    0 < t ∧ t ≤ maxtype ∧ nlaType mem q = t ∧ head ≤ q ∧ 0 ≤ nlaLen mem q
      ∧ q + nlaHdrlen + (nlaLen mem q).toNat ≤ head + len
      ∧ ∀ pt ∈ policy, 0 ≤ validateNla mem q maxtype pt := by
  obtain ⟨s, hs, htb, -⟩ := nlaParse_eq_loop mem maxtype head len policy
  rw [htb, ← hs] at h
  obtain ⟨hpos, hmax, hty, hseen, hvalid⟩ := nlaParseLoop_tables mem maxtype policy _ t q h
  obtain ⟨hle, hhdr, hend⟩ := nlaFormat.walk_inside mem head len q hseen
  rw [nlaFormat_lenAt] at hhdr hend
  have hfour : nlaFormat.hdr = 4 := rfl
  unfold nlaLen nlaHdrlen
  exact ⟨hpos, hmax, hty, hle, by omega, by omega, hvalid⟩

/-- **A message of any origin.** What `nla_parse` returns are attributes of the right type that lie
wholly inside the message. Its reads end less than 5 bytes behind the message, and inside it if the
attributes' length is a multiple of 4. The result depends on the message alone. -/
theorem parse_any_bytes (mem : Nat → UInt8) (maxtype head len : Nat)
    (policy : Option (Nat → NlaPolicy)) :
    (∀ t q, (nlaParse mem maxtype head len policy).2.tb t = some q →
        0 < t ∧ t ≤ maxtype ∧ nlaType mem q = t ∧ head ≤ q ∧ 0 ≤ nlaLen mem q
          ∧ q + nlaHdrlen + (nlaLen mem q).toNat ≤ head + len)
      ∧ (∀ a ∈ (nlaParse mem maxtype head len policy).2.reads, head ≤ a ∧ a < head + len + 5)
      ∧ (len % 4 = 0 → ∀ a ∈ (nlaParse mem maxtype head len policy).2.reads, a < head + len)
      ∧ ∀ mem' : Nat → UInt8, (∀ a, head ≤ a → a < head + len → mem' a = mem a) →
          nlaParse mem' maxtype head len policy = nlaParse mem maxtype head len policy := by
  refine ⟨?_, ?_, ?_, ?_⟩
  · intro t q htq
    obtain ⟨hpos, hmax, hty, hle, hlen, hend, -⟩ := nlaParse_entry htq
    exact ⟨hpos, hmax, hty, hle, hlen, hend⟩
  · intro a ha
    have hin := mem_nlaParse_reads ha
    omega
  · intro hmod a ha
    have hrem := walk_rem_nonneg mem head len (by omega) (by omega)
    have hin := mem_nlaParse_reads ha
    omega
  · intro mem' hagree
    have hwalk : nlaFormat.walk mem' head len = nlaFormat.walk mem head len :=
      nlaFormat.walk_congr mem head len fun a ha hlt => hagree a ha (by omega)
    unfold nlaParse
    rw [nlaForEachAttr_eq_walk, nlaForEachAttr_eq_walk, hwalk]
    dsimp only
    rw [nlaParseLoop_congr]
    intro nla hnla
    obtain ⟨hle, hhdr, hend⟩ := nlaFormat.walk_inside mem head len nla hnla
    rw [nlaFormat_lenAt] at hhdr hend
    exact ⟨hhdr, fun a ha hlt => hagree a (by omega) (by omega)⟩

-- a message cut off before the padding of its only attribute: 2 bytes behind it are read
example :
    (nlaParse ([5, 0, 1, 0, 42].getD · 0) 6 0 5 none).2.reads = [0, 1, 2, 3, 8, 9] := by
  have hend : nlaForEachAttr ([5, 0, 1, 0, 42].getD · 0) 8 (-3) = ⟨[], 8, -3⟩ := by
    rw [nlaForEachAttr, if_neg (by decide)]
  have hloop : nlaForEachAttr ([5, 0, 1, 0, 42].getD · 0) 0 5 = ⟨[0], 8, -3⟩ := by
    rw [nlaForEachAttr_of_ok (by decide)]
    show Records.Format.Walk.mk (0 :: (nlaForEachAttr ([5, 0, 1, 0, 42].getD · 0) 8 (-3)).seen)
      (nlaForEachAttr ([5, 0, 1, 0, 42].getD · 0) 8 (-3)).pos
      (nlaForEachAttr ([5, 0, 1, 0, 42].getD · 0) 8 (-3)).rem = _
    rw [hend]
  unfold nlaParse
  rw [hloop]
  rfl

/-! ## The round trip

Building and taking apart put together: what was put is found, the last of each type. -/

/-- What `genlmsg_parse` makes of a message that carries attributes. -/
theorem genlmsgParse_carries {msg : MsgBuf} {attrs : List (Records.Record UInt8)}
    (h : msg.Carries attrs) (tb : Nat → Option Nat) (maxtype : Nat) :
    genlmsgParse msg.nlh msg.bytes 0 tb maxtype none
        = nlaParse msg.bytes maxtype attrsOffset (nlaFormat.size attrs : Nat) none
      ∧ (genlmsgParse msg.nlh msg.bytes 0 tb maxtype none).1 = 0
      ∧ ∀ t, (genlmsgParse msg.nlh msg.bytes 0 tb maxtype none).2.tb t
          = if 0 < t ∧ t ≤ maxtype then
              Records.Format.index nlaFormat msg.bytes (nlaFormat.positions attrsOffset attrs) t
            else none := by
  have hlen := h.len
  have hparse : genlmsgParse msg.nlh msg.bytes 0 tb maxtype none
      = nlaParse msg.bytes maxtype attrsOffset (nlaFormat.size attrs : Nat) none := by
    have hoff : nlmsgHdrlen + genlHdrlen = attrsOffset := rfl
    have hzero : nlaAlign 0 = 0 := rfl
    have hattrs : msg.nlh.nlmsgLen - genlHdrlen - nlmsgHdrlen = nlaFormat.size attrs := by omega
    unfold genlmsgParse
    rw [hattrs, hzero, hoff, if_neg (by omega)]
    rfl
  have hret := nlaParseLoop_ret_none msg.bytes maxtype (nlaFormat.positions attrsOffset attrs)
    ⟨fun _ => none, [], []⟩
  have htb := nlaParseLoop_tb msg.bytes maxtype (nlaFormat.positions attrsOffset attrs)
    ⟨fun _ => none, [], []⟩
  refine ⟨hparse, ?_⟩
  rw [hparse]
  unfold nlaParse
  rw [nlaForEachAttr_eq_walk, Records.Format.walk_of_holds h.holds]
  dsimp only
  split
  · next err s heq =>
    rw [heq] at hret
    cases hret
  · next s heq =>
    rw [heq] at htb
    simpa using htb

/-- The payload that the parser finds of each type is that of the last attribute of the type. -/
theorem payload_of_carries {msg : MsgBuf} {attrs : List (Records.Record UInt8)}
    (h : msg.Carries attrs) (tb : Nat → Option Nat) (maxtype t : Nat) :
    ((genlmsgParse msg.nlh msg.bytes 0 tb maxtype none).2.tb t).map (nlaPayload msg.bytes)
      = if 0 < t ∧ t ≤ maxtype then (Records.Format.lookup attrs t).map Records.Record.data
        else none := by
  rw [(genlmsgParse_carries h tb maxtype).2.2 t]
  split
  · obtain ⟨hnone, hsome⟩ := Records.Format.index_of_holds h.holds t
    cases hlook : Records.Format.lookup attrs t with
    | none => rw [hnone hlook]; rfl
    | some r =>
      obtain ⟨q, hq, -, -, hat⟩ := hsome r hlook
      rw [hq, Option.map_some, Option.map_some, nlaPayload_of_at hat]
  · rfl

/-- A fresh message with its headers, and nothing put into it. -/
def PutRun.start (defaultMsgSize : Nat) (family : UInt16) (cmd version : UInt8) : PutRun :=
  ⟨(genlmsgPut (nlmsgAlloc defaultMsgSize) 0 0 family 0 cmd version).1, []⟩

theorem PutRun.sound_run {defaultMsgSize : Nat} (hlow : attrsOffset ≤ defaultMsgSize)
    (hhigh : defaultMsgSize ≤ 2 ^ 16) (family : UInt16) (cmd version : UInt8)
    (puts : List (Nat × List UInt8)) :
    (Runs.run PutRun.step (PutRun.start defaultMsgSize family cmd version) puts).Sound
      defaultMsgSize := by
  have hstep : ∀ (s : PutRun) put, s.Sound defaultMsgSize → (s.step put).Sound defaultMsgSize :=
    fun s put hs => hs.step hhigh put
  obtain ⟨hcarries, hsize⟩ := genlmsgPut_carries hlow 0 0 family 0 cmd version
  exact Runs.run_invariant_of_step hstep ⟨hcarries, hsize⟩ puts

/-- **Round trip.** Whatever is put into a message of at most 64 KiB, `genlmsg_parse` finds of each
type the payload that was put last, of the puts that returned 0, and reads nothing behind the message.
A further put returns 0 exactly if it fits together with twice the length so far. -/
theorem put_parse_round_trip (defaultMsgSize : Nat) (hlow : attrsOffset ≤ defaultMsgSize)
    (hhigh : defaultMsgSize ≤ 2 ^ 16) (family : UInt16) (cmd version : UInt8)
    (puts : List (Nat × List UInt8)) (tb : Nat → Option Nat) (maxtype : Nat) :
    let s := Runs.run PutRun.step (PutRun.start defaultMsgSize family cmd version) puts
    let r := genlmsgParse s.msg.nlh s.msg.bytes 0 tb maxtype none
    s.msg.nlh.nlmsgLen ≤ defaultMsgSize
      ∧ (∀ put : Nat × List UInt8, (nlaPut s.msg put.1 put.2).1 = 0
          ↔ 2 * s.msg.nlh.nlmsgLen + nlaTotalSize put.2.length ≤ defaultMsgSize)
      ∧ r.1 = 0
      ∧ (∀ a ∈ r.2.reads, a < s.msg.nlh.nlmsgLen)
      ∧ ∀ t, (r.2.tb t).map (nlaPayload s.msg.bytes)
          = if 0 < t ∧ t ≤ maxtype then
              (Records.Format.lookup s.done t).map Records.Record.data
            else none := by
  intro s r
  have hs : s.Sound defaultMsgSize := PutRun.sound_run hlow hhigh family cmd version puts
  obtain ⟨hparse, hret, -⟩ := genlmsgParse_carries hs.carries tb maxtype
  refine ⟨hs.nmSize ▸ hs.carries.fits, hs.put_iff hhigh, hret, ?_,
    payload_of_carries hs.carries tb maxtype⟩
  intro a ha
  replace ha : a ∈ (genlmsgParse s.msg.nlh s.msg.bytes 0 tb maxtype none).2.reads := ha
  rw [hparse] at ha
  have hin := mem_nlaParse_reads ha
  have hrem := walk_rem_nonneg s.msg.bytes attrsOffset (nlaFormat.size s.done : Nat)
    (by have := size_mod_four s.done; omega) (by omega)
  have hlen := hs.carries.len
  omega

/-- Two attributes of one type in a page: the second is found. -/
theorem put_parse_round_trip_page :
    attrsOffset ≤ 4096 ∧ 4096 ≤ 2 ^ 16
      ∧ ((genlmsgParse
          (Runs.run PutRun.step (PutRun.start 4096 0 1 1) [(1, [65, 0]), (1, [66, 0])]).msg.nlh
          (Runs.run PutRun.step (PutRun.start 4096 0 1 1) [(1, [65, 0]), (1, [66, 0])]).msg.bytes
          0 (fun _ => none) 6 none).2.tb 1).map
        (nlaPayload
          (Runs.run PutRun.step (PutRun.start 4096 0 1 1) [(1, [65, 0]), (1, [66, 0])]).msg.bytes)
        = some [66, 0] := by
  refine ⟨by decide, by decide, ?_⟩
  have hround := (put_parse_round_trip 4096 (by decide) (by decide) 0 1 1
    [(1, [65, 0]), (1, [66, 0])] (fun _ => none) 6).2.2.2.2 1
  exact hround.trans rfl

end Nf10
