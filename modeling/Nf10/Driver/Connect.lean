import Nf10.Driver.GenlCtrl

/-!
# Nf10 — the families of a running kernel

What the resolver makes of the controller's own messages. A family's operations and groups are
attributes inside attributes inside attributes: `nlaBytes` is such a payload, and `nested_holds` turns
it back into records, one level at a time.

* **`nlCacheParse_describes`** — a message about a family is parsed into that family.
* **`recvRawmsgs_dump`** — a dump, however it is cut into datagrams, reaches the callback message by
  message and ends with `NLMSG_DONE`.
* **`driver_connect_finds`** puts them together.
-/

namespace Nf10

open Records.Format (lookup)

/-! ## Attributes inside an attribute

A nested attribute has a list of attributes for a payload. To say what the kernel sends, such a
payload has to be a list of bytes, and to say what the parser does with it, these bytes have to be
records in memory again. -/

/-- The two bytes of a 16-bit value. -/
def u16Bytes (v : Nat) : List UInt8 :=
  [UInt8.ofNat v, UInt8.ofNat (v / 256)]

/-- An attribute as bytes: its length, its type, its payload and the padding. -/
def recordBytes (r : Records.Record UInt8) : List UInt8 :=
  u16Bytes (nlaAttrSize r.data.length) ++ (u16Bytes r.tag
    ++ (r.data ++ List.replicate (nlaPadlen r.data.length) 0))

/-- Attributes one behind the other, as a payload. -/
def nlaBytes (attrs : List (Records.Record UInt8)) : List UInt8 :=
  attrs.flatMap recordBytes

/-- An attribute is as long as the layout says. -/
theorem length_recordBytes (r : Records.Record UInt8) :
    (recordBytes r).length = nlaFormat.extent r := by
  have hle := le_nlaAlign (nlaAttrSize r.data.length)
  rw [nlaFormat_extent]
  simp only [recordBytes, u16Bytes, List.length_append, List.length_cons, List.length_nil,
    List.length_replicate, nlaPadlen, nlaTotalSize]
  unfold nlaAttrSize nlaHdrlen at *
  omega

theorem length_nlaBytes (attrs : List (Records.Record UInt8)) :
    (nlaBytes attrs).length = nlaFormat.size attrs := by
  induction attrs with
  | nil => rfl
  | cons r attrs ih =>
    rw [Records.Format.size_cons, ← ih, ← length_recordBytes]
    exact List.length_append

/-- A record that its header has room for. -/
def Headed (r : Records.Record UInt8) : Prop :=
  r.tag < 2 ^ 14 ∧ nlaAttrSize r.data.length < 2 ^ 16

/-- A record of a payload below 64 KiB has a length that 16 bits hold. -/
theorem headed_of_size {r : Records.Record UInt8} {attrs : List (Records.Record UInt8)}
    (hr : r ∈ attrs) (htag : r.tag < 2 ^ 14) (hsize : nlaFormat.size attrs < 2 ^ 16) : Headed r := by
  have hle := Records.Format.extent_le_size (F := nlaFormat) hr
  have hextent : nlaAttrSize r.data.length ≤ nlaFormat.extent r := nlaFormat.le_extent r
  exact ⟨htag, by omega⟩

section Nested

variable {mem : Nat → UInt8}

/-- Memory that reads as two lists holds the one behind the other. -/
theorem readMem_append {p k : Nat} {xs ys : List UInt8} (hk : xs.length = k) {l : Nat}
    (h : readMem mem p (k + l) = xs ++ ys) :
    readMem mem p k = xs ∧ readMem mem (p + k) l = ys := by
  rw [readMem_add] at h
  exact List.append_inj h (by rw [length_readMem, hk])

/-- Two bytes in memory are the value whose bytes they are. -/
theorem load16_of_readMem {p v : Nat} (hv : v < 2 ^ 16) (h : readMem mem p 2 = u16Bytes v) :
    load16 mem p = v := by
  have hbytes : mem p = UInt8.ofNat v ∧ mem (p + 1) = UInt8.ofNat (v / 256) := by
    simpa [readMem, u16Bytes, List.range_succ] using h
  unfold load16
  rw [hbytes.1, hbytes.2, UInt8.toNat_ofNat', UInt8.toNat_ofNat']
  omega

/-- The bytes of an attribute in memory are a record there. -/
theorem at_of_readMem {p : Nat} {r : Records.Record UInt8} (hr : Headed r)
    (h : readMem mem p (nlaFormat.extent r) = recordBytes r) : nlaFormat.At mem p r := by
  obtain ⟨htag, hlen⟩ := hr
  have hsplit : nlaFormat.extent r = 2 + (2 + (r.data.length + nlaPadlen r.data.length)) := by
    rw [← length_recordBytes]
    simp only [recordBytes, u16Bytes, List.length_append, List.length_cons, List.length_nil,
      List.length_replicate]
  rw [hsplit, recordBytes] at h
  obtain ⟨hlenBytes, h⟩ := readMem_append (by rfl) h
  obtain ⟨htagBytes, h⟩ := readMem_append (by rfl) h
  obtain ⟨hdata, -⟩ := readMem_append (by rfl) h
  refine ⟨?_, load16_of_readMem hlen hlenBytes, ?_⟩
  · show load16 mem (p + 2) % 2 ^ 14 = r.tag
    rw [load16_of_readMem (by omega) htagBytes]
    exact Nat.mod_eq_of_lt htag
  · intro i hi
    have hget := congrArg (·[i]?) hdata
    simp only [readMem, List.getElem?_map, List.getElem?_range hi, Option.map_some,
      List.getElem?_eq_getElem hi] at hget
    exact Option.some.inj hget

/-- The bytes of a list of attributes are the records, one after the other. -/
theorem holds_of_readMem {p : Nat} {attrs : List (Records.Record UInt8)}
    (hattrs : ∀ r ∈ attrs, Headed r)
    (h : readMem mem p (nlaFormat.size attrs) = nlaBytes attrs) : nlaFormat.Holds mem p attrs := by
  induction attrs generalizing p with
  | nil => trivial
  | cons r attrs ih =>
    rw [Records.Format.size_cons] at h
    obtain ⟨hr, hrest⟩ := readMem_append (length_recordBytes r) h
    exact ⟨at_of_readMem (hattrs r List.mem_cons_self) hr,
      ih (fun r' hr' => hattrs r' (List.mem_cons_of_mem r hr')) hrest⟩

/-- **One level down.** -/
theorem nested_holds {nla t : Nat} {attrs : List (Records.Record UInt8)}
    (hattrs : ∀ r ∈ attrs, Headed r) (h : nlaFormat.At mem nla ⟨t, nlaBytes attrs⟩) :
    nlaFormat.Holds mem (nla + nlaHdrlen) attrs ∧ nlaLen mem nla = nlaFormat.size attrs := by
  have hlen := length_nlaBytes attrs
  refine ⟨holds_of_readMem hattrs ?_, ?_⟩
  · rw [← hlen]
    exact readMem_of_at h
  · have hload : load16 mem nla = 4 + (nlaBytes attrs).length := h.len
    unfold nlaLen nlaHdrlen
    omega

end Nested

/-! ## Attributes under a policy

The controller's messages are parsed under a policy, and one attribute that fails it would end the
dump. The kernel's attributes pass: an attribute that the policy admits is found as if there were
none. -/

/-- What `validate_nla` lets through. -/
def NlaPolicy.Admits (pt : NlaPolicy) (data : List UInt8) : Prop :=
  pt.lengthOk data.length = true ∧ (pt.type = .string → data.getLast? = some 0)

section Policy

variable {mem : Nat → UInt8} {maxtype : Nat} {policy : Nat → NlaPolicy}

/-- `nla_len` of a record is the length of its payload. -/
theorem nlaLen_of_at {nla : Nat} {r : Records.Record UInt8} (h : nlaFormat.At mem nla r) :
    nlaLen mem nla = r.data.length := by
  have hload : load16 mem nla = 4 + r.data.length := h.len
  unfold nlaLen nlaHdrlen
  omega

/-- A record that the policy admits is validated. -/
theorem validateNla_of_at {nla : Nat} {r : Records.Record UInt8} (h : nlaFormat.At mem nla r)
    (hadmits : 0 < r.tag → r.tag ≤ maxtype → (policy r.tag).Admits r.data) :
    validateNla mem nla maxtype policy = 0 := by
  have htype : nlaType mem nla = r.tag := h.tag
  have hlen := nlaLen_of_at h
  unfold validateNla
  dsimp only
  rw [htype, hlen]
  split
  · rfl
  · next hrange =>
    obtain ⟨hok, hlast⟩ := hadmits (by omega) (by omega)
    rw [hok, if_neg (by decide), if_neg]
    rintro ⟨hstring, hne⟩
    obtain ⟨str, hstr⟩ := List.getLast?_eq_some_iff.mp (hlast hstring)
    have hlength : r.data.length = str.length + 1 := by
      rw [hstr, List.length_append, List.length_singleton]
    have hplace : nlaLast mem nla = nla + nlaFormat.hdr + str.length := by
      show ((nla : Int) + nlaHdrlen + (nlaLen mem nla - 1)).toNat = nla + nlaHdrlen + str.length
      omega
    apply hne
    rw [hplace, h.data str.length (by omega)]
    simp [hstr]

/-- A policy that admits everything changes nothing. -/
theorem nlaParseLoop_admitted {ps : List Nat}
    (h : ∀ nla ∈ ps, validateNla mem nla maxtype policy = 0) {s s' : ParseState} (htb : s.tb = s'.tb) :
    (nlaParseLoop mem maxtype (some policy) ps s).1 = none
      ∧ (nlaParseLoop mem maxtype (some policy) ps s).2.tb
        = (nlaParseLoop mem maxtype none ps s').2.tb := by
  induction ps generalizing s s' with
  | nil => exact ⟨rfl, htb⟩
  | cons nla ps ih =>
    have hrest : ∀ nla' ∈ ps, validateNla mem nla' maxtype policy = 0 :=
      fun nla' hnla' => h nla' (List.mem_cons_of_mem nla hnla')
    simp only [nlaParseLoop, nlaParseBody, h nla List.mem_cons_self]
    by_cases h0 : nlaType mem nla = 0
    · rw [if_pos h0, if_pos h0]
      exact ih hrest htb
    · rw [if_neg h0, if_neg h0]
      by_cases hmax : nlaType mem nla ≤ maxtype
      · rw [if_pos hmax, if_pos hmax, if_neg (by decide)]
        exact ih hrest (by rw [htb])
      · rw [if_neg hmax, if_neg hmax]
        exact ih hrest htb

/-- **Records under a policy that admits them** are all found. -/
theorem nlaParseOr_holds {head : Nat} {attrs : List (Records.Record UInt8)}
    (h : nlaFormat.Holds mem head attrs)
    (hadmits : ∀ r ∈ attrs, 0 < r.tag → r.tag ≤ maxtype → (policy r.tag).Admits r.data) :
    ∃ tb, nlaParseOr mem maxtype head (nlaFormat.size attrs : Nat) policy = .ok tb
      ∧ ∀ t, 0 < t → t ≤ maxtype → Option.Rel (nlaFormat.At mem) (tb t) (lookup attrs t) := by
  have hvalid : ∀ nla ∈ nlaFormat.positions head attrs, validateNla mem nla maxtype policy = 0 := by
    intro nla hnla
    obtain ⟨r, hr, hat⟩ := Records.Format.at_of_mem_positions h hnla
    exact validateNla_of_at hat (hadmits r hr)
  obtain ⟨hret, htb⟩ := nlaParseLoop_admitted hvalid
    (show (⟨fun _ => none, [], []⟩ : ParseState).tb = (⟨fun _ => none, [], []⟩ : ParseState).tb from rfl)
  have hparse : nlaParseOr mem maxtype head (nlaFormat.size attrs : Nat) policy
      = .ok (nlaParseLoop mem maxtype (some policy) (nlaFormat.positions head attrs)
          ⟨fun _ => none, [], []⟩).2.tb := by
    unfold nlaParseOr nlaParse
    rw [nlaForEachAttr_eq_walk, Records.Format.walk_of_holds h]
    dsimp only
    generalize nlaParseLoop mem maxtype (some policy) _ _ = r at hret ⊢
    obtain ⟨ret, s⟩ := r
    obtain rfl : ret = none := hret
    rfl
  refine ⟨_, hparse, ?_⟩
  intro t hpos hmax
  rw [htb, nlaParseLoop_tb, if_pos ⟨hpos, hmax⟩, Option.or_none]
  obtain ⟨hnone, hsome⟩ := Records.Format.index_of_holds h t
  cases hlook : lookup attrs t with
  | none =>
    rw [hnone hlook]
    exact .none
  | some r =>
    obtain ⟨q, hq, -, -, hat⟩ := hsome r hlook
    rw [hq]
    exact .some hat

end Policy

/-! ## A family of the kernel

What the kernel has of a family, and the attributes in which it tells. The lists come last and are
left out when they are empty, and the elements of a list are numbered from 1. -/

/-- A name as the kernel has it, without the terminating zero. -/
abbrev GenlName := { name : List UInt8 // name.length < genlNamsiz ∧ 0 ∉ name }

/-- A family of generic netlink: its operations with their flags, and its multicast groups with
their names. -/
structure CtrlFamily where
  id : UInt16
  name : GenlName
  version : UInt32
  hdrsize : UInt32
  maxattr : UInt32
  ops : List (UInt32 × UInt32)
  grps : List (UInt32 × GenlName)

/-- The attributes of an operation. -/
def opAttrs (op : UInt32 × UInt32) : List (Records.Record UInt8) :=
  [⟨ctrlAttrOpId, u32Bytes op.1⟩, ⟨ctrlAttrOpFlags, u32Bytes op.2⟩]

/-- The attributes of a group. -/
def grpAttrs (grp : UInt32 × GenlName) : List (Records.Record UInt8) :=
  [⟨ctrlAttrMcastGrpId, u32Bytes grp.1⟩, ⟨ctrlAttrMcastGrpName, grp.2.val ++ [0]⟩]

/-- Payloads as attributes of the types 1, 2 and so on. -/
def numbered (payloads : List (List UInt8)) : List (Records.Record UInt8) :=
  payloads.mapIdx fun i data => ⟨i + 1, data⟩

/-- An attribute with a list in it, which is left out if the list is empty. -/
def listAttr (t : Nat) (payloads : List (List UInt8)) : List (Records.Record UInt8) :=
  if payloads = [] then [] else [⟨t, nlaBytes (numbered payloads)⟩]

/-- The attributes of a message about a family. -/
def CtrlFamily.attrs (f : CtrlFamily) : List (Records.Record UInt8) :=
  [⟨ctrlAttrFamilyName, f.name.val ++ [0]⟩, ⟨ctrlAttrFamilyId, u16Bytes f.id.toNat⟩,
    ⟨ctrlAttrVersion, u32Bytes f.version⟩, ⟨ctrlAttrHdrsize, u32Bytes f.hdrsize⟩,
    ⟨ctrlAttrMaxattr, u32Bytes f.maxattr⟩]
  ++ (listAttr ctrlAttrOps (f.ops.map fun op => nlaBytes (opAttrs op))
  ++ listAttr ctrlAttrMcastGroups (f.grps.map fun grp => nlaBytes (grpAttrs grp)))

/-- The object that the library has for it: the version is cut to a byte. -/
def CtrlFamily.cached (f : CtrlFamily) : GenlFamily where
  ceMask := if f.ops = [] then 0x1f else 0x3f
  ceMsgtype := genlIdCtrl
  gfId := f.id
  gfName := f.name.val
  gfVersion := f.version.toUInt8.toUInt32
  gfHdrsize := f.hdrsize
  gfMaxattr := f.maxattr
  gfOps := f.ops
  gfMcGrps := f.grps.map fun grp => (grp.1, grp.2.val)

/-- What is related to something is something. -/
theorem exists_of_rel {α β : Type} {R : α → β → Prop} {x : Option α} {b : β}
    (h : Option.Rel R x (some b)) : ∃ a, x = some a ∧ R a b := by
  cases h with
  | some h => exact ⟨_, rfl, h⟩

section Values

variable {mem : Nat → UInt8} {nla t : Nat}

/-- `nla_get_u32` of a record is the word that was put there. -/
theorem nlaGetU32_of_at {v : UInt32} (h : nlaFormat.At mem nla ⟨t, u32Bytes v⟩) :
    nlaGetU32 mem nla = v := by
  have hbytes := readMem_of_at h
  rw [length_u32Bytes] at hbytes
  exact load32_of_readMem hbytes

theorem nlaGetU16_of_at {v : UInt16} (h : nlaFormat.At mem nla ⟨t, u16Bytes v.toNat⟩) :
    nlaGetU16 mem nla = v := by
  unfold nlaGetU16
  rw [load16_of_readMem v.toNat_lt (readMem_of_at h), UInt16.ofNat_toNat]

theorem strncpyName_of_at {name : GenlName} (h : nlaFormat.At mem nla ⟨t, name.val ++ [0]⟩) :
    strncpyName mem (nla + nlaHdrlen) = name.val := by
  have hbytes := readMem_of_at h
  rw [List.length_append, List.length_singleton] at hbytes
  obtain ⟨hname, hzero⟩ := readMem_append rfl hbytes
  have h0 : mem (nla + nlaHdrlen + name.val.length) = 0 := by simpa [readMem] using hzero
  rw [strncpyName_eq name.property.1 h0, hname]
  apply List.takeWhile_eq_self_iff.mpr
  intro c hc
  simpa using ne_of_mem_of_not_mem hc name.property.2

end Values

/-! ## Operations and groups

The two loops of `ctrl_msg_parser` over a nested list. Each turn parses the attributes of one
element; the induction is on the list, with the memory as it is. -/

section Lists

variable {mem : Nat → UInt8} {calloc : Nat → Bool} (hcalloc : ∀ n, calloc n = true)

include hcalloc

theorem ctrlParseOp_at {nla t : Nat} {op : UInt32 × UInt32}
    (h : nlaFormat.At mem nla ⟨t, nlaBytes (opAttrs op)⟩) (s : Building) :
    ctrlParseOp calloc mem s nla = .ok (s.1.addOp op, s.2 + 1) := by
  have hheaded : ∀ r ∈ opAttrs op, Headed r := by
    simp [opAttrs, Headed, ctrlAttrOpId, ctrlAttrOpFlags, nlaAttrSize, nlaHdrlen]
  have hadmits : ∀ r ∈ opAttrs op, 0 < r.tag → r.tag ≤ ctrlAttrOpMax →
      (familyOpPolicy r.tag).Admits r.data := by
    simp [opAttrs, NlaPolicy.Admits, familyOpPolicy, ctrlAttrOpId, ctrlAttrOpFlags, NlaPolicy.lengthOk,
      NlaPolicy.leastLen, nlaAttrMinlen]
  obtain ⟨hholds, hlen⟩ := nested_holds hheaded h
  obtain ⟨tb, hparse, hrel⟩ := nlaParseOr_holds hholds hadmits
  obtain ⟨id, hid, hatId⟩ := exists_of_rel (hrel ctrlAttrOpId (by decide) (by decide))
  obtain ⟨flags, hflags, hatFlags⟩ := exists_of_rel (hrel ctrlAttrOpFlags (by decide) (by decide))
  unfold ctrlParseOp nlaParseNested
  rw [hlen, hparse]
  dsimp only [bind, Except.bind]
  rw [hid, hflags]
  dsimp only [Option.elim]
  rw [nlaGetU32_of_at hatId, nlaGetU32_of_at hatFlags, genlFamilyAddOp, if_pos (hcalloc _)]

theorem ctrlParseGrp_at {nla t : Nat} {grp : UInt32 × GenlName}
    (h : nlaFormat.At mem nla ⟨t, nlaBytes (grpAttrs grp)⟩) (s : Building) :
    ctrlParseGrp calloc mem s nla = .ok (s.1.addGrp (grp.1, grp.2.val), s.2 + 1) := by
  have hname := grp.2.property.1
  unfold genlNamsiz at hname
  have hheaded : ∀ r ∈ grpAttrs grp, Headed r := by
    intro r hr
    unfold grpAttrs at hr
    rcases List.mem_pair.mp hr with rfl | rfl
    · refine ⟨show ctrlAttrMcastGrpId < 2 ^ 14 by decide, ?_⟩
      rw [length_u32Bytes]
      decide
    · refine ⟨show ctrlAttrMcastGrpName < 2 ^ 14 by decide, ?_⟩
      rw [List.length_append, List.length_singleton, nlaAttrSize, nlaHdrlen]
      omega
  have hadmits : ∀ r ∈ grpAttrs grp, 0 < r.tag → r.tag ≤ ctrlAttrMcastGrpMax →
      (familyGrpPolicy r.tag).Admits r.data := by
    simp [grpAttrs, NlaPolicy.Admits, familyGrpPolicy, ctrlAttrMcastGrpId, ctrlAttrMcastGrpName,
      NlaPolicy.lengthOk, NlaPolicy.leastLen, nlaAttrMinlen]
  obtain ⟨hholds, hlen⟩ := nested_holds hheaded h
  obtain ⟨tb, hparse, hrel⟩ := nlaParseOr_holds hholds hadmits
  obtain ⟨id, hid, hatId⟩ := exists_of_rel (hrel ctrlAttrMcastGrpId (by decide) (by decide))
  obtain ⟨name, hna, hatName⟩ := exists_of_rel (hrel ctrlAttrMcastGrpName (by decide) (by decide))
  unfold ctrlParseGrp nlaParseNested
  rw [hlen, hparse]
  dsimp only [bind, Except.bind]
  rw [hid, hna]
  dsimp only
  rw [nlaGetU32_of_at hatId, strncpyName_of_at hatName, genlFamilyAddGrp, if_pos (hcalloc _)]

end Lists

/-- A loop whose turns each add their element adds the whole list. -/
theorem foldlM_positions {mem : Nat → UInt8} {α : Type} {enc : α → List UInt8}
    {body : Building → Nat → Except Int Building} {add : GenlFamily → α → GenlFamily}
    (hbody : ∀ {nla t x}, nlaFormat.At mem nla ⟨t, enc x⟩ → ∀ s, body s nla = .ok (add s.1 x, s.2 + 1))
    {xs : List α} {rs : List (Records.Record UInt8)}
    (hrs : rs.map Records.Record.data = xs.map enc) {p : Nat} (h : nlaFormat.Holds mem p rs)
    (s : Building) :
    (nlaFormat.positions p rs).foldlM body s = .ok (xs.foldl add s.1, s.2 + xs.length) := by
  induction xs generalizing rs p s with
  | nil =>
    obtain rfl := List.map_eq_nil_iff.mp hrs
    rfl
  | cons x xs ih =>
    cases rs with
    | nil => cases hrs
    | cons r rs =>
      obtain ⟨hr, hrest⟩ := List.cons.inj hrs
      obtain ⟨t, data⟩ := r
      obtain rfl : data = enc x := hr
      show (p :: nlaFormat.positions _ rs).foldlM body s = _
      rw [List.foldlM_cons, hbody h.1 s]
      show (nlaFormat.positions _ rs).foldlM body (add s.1 x, s.2 + 1) = _
      rw [ih hrest h.2, List.foldl_cons, List.length_cons, Nat.add_assoc, Nat.add_comm 1]

theorem map_data_numbered (payloads : List (List UInt8)) :
    (numbered payloads).map Records.Record.data = payloads := by
  apply List.ext_getElem
  · rw [List.length_map, numbered, List.length_mapIdx]
  · intro i hi hi'
    simp only [numbered, List.getElem_map, List.getElem_mapIdx]

/-- Elements of a payload below 64 KiB have headers that hold them, and numbers below the flag
bits. -/
theorem headed_numbered {payloads : List (List UInt8)}
    (hsize : nlaFormat.size (numbered payloads) < 2 ^ 16) : ∀ r ∈ numbered payloads, Headed r := by
  intro r hr
  have hle : 4 * (numbered payloads).length ≤ nlaFormat.size (numbered payloads) :=
    nlaFormat.hdr_mul_length_le_size (numbered payloads)
  have hlength : (numbered payloads).length = payloads.length := List.length_mapIdx
  refine headed_of_size hr ?_ hsize
  obtain ⟨i, hi, rfl⟩ := List.mem_mapIdx.mp hr
  show i + 1 < 2 ^ 14
  omega

/-- **A loop over a list of the family** goes through the list. -/
theorem ctrlParseList_at {mem : Nat → UInt8} {α : Type} {enc : α → List UInt8}
    {body : Building → Nat → Except Int Building} {add : GenlFamily → α → GenlFamily}
    (hbody : ∀ {nla t x}, nlaFormat.At mem nla ⟨t, enc x⟩ → ∀ s, body s nla = .ok (add s.1 x, s.2 + 1))
    {xs : List α} {attr : Option Nat} {t : Nat}
    (hsize : nlaFormat.size (numbered (xs.map enc)) < 2 ^ 16)
    (hattr : Option.Rel (nlaFormat.At mem) attr (lookup (listAttr t (xs.map enc)) t)) (s : Building) :
    ctrlParseList mem body attr s = .ok (xs.foldl add s.1, s.2 + xs.length) := by
  unfold listAttr at hattr
  split at hattr
  · next hnil =>
    obtain rfl := List.map_eq_nil_iff.mp hnil
    cases hattr
    rfl
  · rw [Records.Format.lookup_cons, if_pos rfl] at hattr
    obtain ⟨nla, rfl, hat⟩ := exists_of_rel hattr
    obtain ⟨hholds, hlen⟩ := nested_holds (headed_numbered hsize) hat
    unfold ctrlParseList nlaForEachNested
    dsimp only
    rw [hlen, nlaForEachAttr_eq_walk, Records.Format.walk_of_holds hholds]
    exact foldlM_positions hbody (map_data_numbered _) hholds s

theorem foldl_addOp (f : GenlFamily) (ops : List (UInt32 × UInt32)) :
    ops.foldl GenlFamily.addOp f = { f with
      gfOps := f.gfOps ++ ops
      ceMask := if ops = [] then f.ceMask else f.ceMask ||| familyAttrOps } := by
  induction ops generalizing f with
  | nil => simp
  | cons op ops ih =>
    rw [List.foldl_cons, ih, if_neg (List.cons_ne_nil op ops)]
    simp only [GenlFamily.addOp, List.append_assoc, List.singleton_append, UInt32.or_assoc,
      UInt32.or_self, ite_self]

theorem foldl_addGrp (f : GenlFamily) (grps : List (UInt32 × GenlName)) :
    grps.foldl (fun f grp => f.addGrp (grp.1, grp.2.val)) f
      = { f with gfMcGrps := f.gfMcGrps ++ grps.map fun grp => (grp.1, grp.2.val) } := by
  induction grps generalizing f with
  | nil => simp
  | cons grp grps ih =>
    rw [List.foldl_cons, ih]
    simp only [GenlFamily.addGrp, List.append_assoc, List.singleton_append, List.map_cons]

/-! ## A message about a family

The attributes of a family and the parser's table: each type that the parser looks up is found, with
the value that the kernel put there, and what other kernels may add has numbers that it does not
look at. -/

/-- A part of the dump that `seq` asked for. Other kernels may have more to say about a family. -/
structure MsgBuf.Describes (seq : UInt32) (f : CtrlFamily) (m : MsgBuf) : Prop where
  type : m.nlh.nlmsgType = genlIdCtrl
  part : m.nlh.nlmsgFlags &&& nlmFMulti ≠ 0
  seq : m.nlh.nlmsgSeq = seq
  cmd : m.bytes nlmsgHdrlen = ctrlCmdNewfamily
  attrs : ∃ more, (∀ r ∈ more, ctrlAttrMax < r.tag) ∧ m.Carries (f.attrs ++ more)
    ∧ nlaFormat.size (f.attrs ++ more) < 2 ^ 16

theorem lookup_listAttr_of_ne {t t' : Nat} (h : t ≠ t') (payloads : List (List UInt8)) :
    lookup (listAttr t payloads) t' = none := by
  apply Records.Format.lookup_eq_none
  unfold listAttr
  split
  · exact fun _ hr => nomatch hr
  · intro r hr
    rw [List.mem_singleton.mp hr]
    exact h

/-- The elements of a list take up no more than the list. -/
theorem size_numbered_le (t : Nat) (payloads : List (List UInt8)) :
    nlaFormat.size (numbered payloads) ≤ nlaFormat.size (listAttr t payloads) := by
  unfold listAttr
  split
  · next hnil =>
    rw [hnil]
    exact Nat.le_refl _
  · rw [Records.Format.size_cons, ← length_nlaBytes]
    have hle := nlaFormat.le_extent ⟨t, nlaBytes (numbered payloads)⟩
    dsimp only at hle
    omega

namespace CtrlFamily

variable (f : CtrlFamily) {more : List (Records.Record UInt8)} (hmore : ∀ r ∈ more, ctrlAttrMax < r.tag)

include hmore

/-- What other kernels add is not in the way. -/
theorem lookup_of_le {t : Nat} (ht : t ≤ ctrlAttrMax) : lookup (f.attrs ++ more) t = lookup f.attrs t := by
  rw [Records.Format.lookup_append, Records.Format.lookup_eq_none, Option.none_or]
  intro r hr
  have htag := hmore r hr
  omega

theorem lookup_ops : lookup (f.attrs ++ more) ctrlAttrOps
    = lookup (listAttr ctrlAttrOps (f.ops.map fun op => nlaBytes (opAttrs op))) ctrlAttrOps := by
  rw [f.lookup_of_le hmore (by decide), attrs, Records.Format.lookup_append,
    Records.Format.lookup_append, lookup_listAttr_of_ne (by decide), Option.none_or]
  exact Option.or_none

theorem lookup_grps : lookup (f.attrs ++ more) ctrlAttrMcastGroups
    = lookup (listAttr ctrlAttrMcastGroups (f.grps.map fun grp => nlaBytes (grpAttrs grp)))
        ctrlAttrMcastGroups := by
  rw [f.lookup_of_le hmore (by decide), attrs, Records.Format.lookup_append,
    Records.Format.lookup_append, lookup_listAttr_of_ne (t := ctrlAttrOps) (by decide), Option.or_none]
  exact Option.or_none

/-- The attributes that are always there. -/
theorem lookup_field {t : Nat} (ht : t ≤ ctrlAttrMaxattr) : lookup (f.attrs ++ more) t
    = lookup [⟨ctrlAttrFamilyName, f.name.val ++ [0]⟩, ⟨ctrlAttrFamilyId, u16Bytes f.id.toNat⟩,
        ⟨ctrlAttrVersion, u32Bytes f.version⟩, ⟨ctrlAttrHdrsize, u32Bytes f.hdrsize⟩,
        ⟨ctrlAttrMaxattr, u32Bytes f.maxattr⟩] t := by
  have hmax : ctrlAttrMaxattr = 5 := rfl
  have hops : ctrlAttrOps = 6 := rfl
  have hgrps : ctrlAttrMcastGroups = 7 := rfl
  have hlast : ctrlAttrMax = 7 := rfl
  rw [f.lookup_of_le hmore (by omega), attrs, Records.Format.lookup_append,
    Records.Format.lookup_append, lookup_listAttr_of_ne (by omega), lookup_listAttr_of_ne (by omega)]
  rfl

/-- Every attribute of the kernel passes the policy of `ctrl.c`. -/
theorem admits : ∀ r ∈ f.attrs ++ more, 0 < r.tag → r.tag ≤ ctrlAttrMax →
    (ctrlPolicy r.tag).Admits r.data := by
  intro r hr _ hmax
  have hname := f.name.property.1
  -- a nested attribute may have any length
  have hlist : ∀ t payloads, ctrlPolicy t = ⟨.nested, 0, 0⟩ → r ∈ listAttr t payloads →
      (ctrlPolicy r.tag).Admits r.data := by
    intro t payloads hnested hr
    unfold listAttr at hr
    split at hr
    · cases hr
    · rw [List.mem_singleton.mp hr, hnested]
      simp [NlaPolicy.Admits, NlaPolicy.lengthOk, NlaPolicy.leastLen, nlaAttrMinlen]
  rcases List.mem_append.mp hr with hr | hr
  · rcases List.mem_append.mp hr with hr | hr
    · simp only [List.mem_cons, List.not_mem_nil, or_false] at hr
      rcases hr with rfl | rfl | rfl | rfl | rfl
      · have hle : (f.name.val.length : Int) + 1 ≤ genlNamsiz := by omega
        simpa [NlaPolicy.Admits, NlaPolicy.lengthOk, NlaPolicy.leastLen, nlaAttrMinlen, ctrlPolicy,
          ctrlAttrFamilyName, genlNamsiz] using hle
      · simp [NlaPolicy.Admits, NlaPolicy.lengthOk, NlaPolicy.leastLen, nlaAttrMinlen, ctrlPolicy,
          ctrlAttrFamilyId, u16Bytes]
      all_goals
        simp [NlaPolicy.Admits, NlaPolicy.lengthOk, NlaPolicy.leastLen, nlaAttrMinlen, ctrlPolicy,
          ctrlAttrVersion, ctrlAttrHdrsize, ctrlAttrMaxattr]
    · rcases List.mem_append.mp hr with hr | hr
      · exact hlist _ _ rfl hr
      · exact hlist _ _ rfl hr
  · have htag := hmore r hr
    omega

end CtrlFamily

/-- `nlmsg_parse` behind the generic header, for a message whose attributes the policy admits. -/
theorem nlmsgParse_carries {m : MsgBuf} {attrs : List (Records.Record UInt8)} {maxtype : Nat}
    {policy : Nat → NlaPolicy} (h : m.Carries attrs)
    (hadmits : ∀ r ∈ attrs, 0 < r.tag → r.tag ≤ maxtype → (policy r.tag).Admits r.data) :
    ∃ tb, nlmsgParse m genlHdrlen maxtype policy = .ok tb
      ∧ ∀ t, 0 < t → t ≤ maxtype →
        Option.Rel (nlaFormat.At m.bytes) (tb t) (lookup attrs t) := by
  have hoff : attrsOffset = nlmsgHdrlen + genlHdrlen := rfl
  have hfour : nlaAlign genlHdrlen = genlHdrlen := rfl
  have hlen := h.len
  obtain ⟨tb, hparse, hrel⟩ := nlaParseOr_holds h.holds hadmits
  refine ⟨tb, ?_, hrel⟩
  have hrest : (m.nlh.nlmsgLen : Int) - nlmsgHdrlen - nlaAlign genlHdrlen
      = (nlaFormat.size attrs : Nat) := by
    rw [hfour]
    omega
  unfold nlmsgParse
  rw [if_neg (by omega), hrest, hfour, ← hoff]
  exact hparse

section Parsed

variable {m : MsgBuf} {f : CtrlFamily} {more : List (Records.Record UInt8)}
  (hmore : ∀ r ∈ more, ctrlAttrMax < r.tag) {tb : Nat → Option Nat}
  (hrel : ∀ t, 0 < t → t ≤ ctrlAttrMax →
    Option.Rel (nlaFormat.At m.bytes) (tb t) (lookup (f.attrs ++ more) t))

include hmore hrel

/-- The fields of a family, from the attributes of its message. -/
theorem ctrlFields_found (htype : m.nlh.nlmsgType = genlIdCtrl) :
    ∃ name id, tb ctrlAttrFamilyName = some name ∧ tb ctrlAttrFamilyId = some id
      ∧ ctrlFields m tb name id
        = { f.cached with ceMask := 0x1f, gfOps := [], gfMcGrps := [] } := by
  have hfield : ∀ t, 0 < t → t ≤ ctrlAttrMaxattr → ∀ r, lookup (f.attrs ++ more) t = some r →
      ∃ na, tb t = some na ∧ nlaFormat.At m.bytes na r := by
    intro t hpos hle r hr
    have hfound := hrel t hpos (Nat.le_trans hle (by decide))
    rw [hr] at hfound
    exact exists_of_rel hfound
  obtain ⟨name, hname, hname'⟩ := hfield ctrlAttrFamilyName (by decide) (by decide) _
    (f.lookup_field hmore (by decide))
  obtain ⟨id, hid, hid'⟩ := hfield ctrlAttrFamilyId (by decide) (by decide) _
    (f.lookup_field hmore (by decide))
  obtain ⟨version, hversion, hversion'⟩ := hfield ctrlAttrVersion (by decide) (by decide) _
    (f.lookup_field hmore (by decide))
  obtain ⟨hdrsize, hhdrsize, hhdrsize'⟩ := hfield ctrlAttrHdrsize (by decide) (by decide) _
    (f.lookup_field hmore (by decide))
  obtain ⟨maxattr, hmaxattr, hmaxattr'⟩ := hfield ctrlAttrMaxattr (by decide) (by decide) _
    (f.lookup_field hmore (by decide))
  refine ⟨name, id, hname, hid, ?_⟩
  unfold ctrlFields
  rw [hversion, hhdrsize, hmaxattr, htype]
  dsimp only [Option.elim]
  rw [nlaGetU16_of_at hid', strncpyName_of_at hname', nlaGetU32_of_at hversion',
    nlaGetU32_of_at hhdrsize', nlaGetU32_of_at hmaxattr']
  have hmask : 0 ||| familyAttrId ||| familyAttrName ||| familyAttrVersion ||| familyAttrHdrsize
      ||| familyAttrMaxattr = 0x1f := by decide
  exact congrArg (fun mask => { f.cached with ceMask := mask, gfOps := [], gfMcGrps := [] }) hmask

variable {calloc : Nat → Bool} (hcalloc : ∀ n, calloc n = true)
  (hsize : nlaFormat.size (f.attrs ++ more) < 2 ^ 16)

include hcalloc hsize

/-- The loop over the operations gives the family's. -/
theorem ctrlParseOps_found (s : Building) :
    ctrlParseList m.bytes (ctrlParseOp calloc m.bytes) (tb ctrlAttrOps) s
      = .ok (f.ops.foldl GenlFamily.addOp s.1, s.2 + f.ops.length) := by
  have hops := hrel ctrlAttrOps (by decide) (by decide)
  rw [f.lookup_ops hmore] at hops
  have hle := size_numbered_le ctrlAttrOps (f.ops.map fun op => nlaBytes (opAttrs op))
  simp only [CtrlFamily.attrs, Records.Format.size_append] at hsize
  exact ctrlParseList_at (fun hat s => ctrlParseOp_at hcalloc hat s) (by omega) hops s

/-- The loop over the groups gives the family's. -/
theorem ctrlParseGrps_found (s : Building) :
    ctrlParseList m.bytes (ctrlParseGrp calloc m.bytes) (tb ctrlAttrMcastGroups) s
      = .ok (f.grps.foldl (fun f grp => f.addGrp (grp.1, grp.2.val)) s.1, s.2 + f.grps.length) := by
  have hgrps := hrel ctrlAttrMcastGroups (by decide) (by decide)
  rw [f.lookup_grps hmore] at hgrps
  have hle := size_numbered_le ctrlAttrMcastGroups (f.grps.map fun grp => nlaBytes (grpAttrs grp))
  simp only [CtrlFamily.attrs, Records.Format.size_append] at hsize
  exact ctrlParseList_at (fun hat s => ctrlParseGrp_at hcalloc hat s) (by omega) hgrps s

/-- The parser gives the object of the family. -/
theorem ctrlMsgParser_found (htype : m.nlh.nlmsgType = genlIdCtrl) (n : Nat) :
    ctrlMsgParser calloc m tb n = .ok (f.cached, n + 1 + f.ops.length + f.grps.length) := by
  obtain ⟨name, id, hname, hid, hfields⟩ := ctrlFields_found hmore hrel htype
  unfold ctrlMsgParser
  rw [hcalloc, if_neg (by decide), hname, hid]
  dsimp only [bind, Except.bind]
  rw [hfields, ctrlParseOps_found hmore hrel hcalloc hsize]
  dsimp only
  rw [ctrlParseGrps_found hmore hrel hcalloc hsize, foldl_addOp, foldl_addGrp]
  have hmask : 0x1f ||| familyAttrOps = 0x3f := by decide
  simp only [List.nil_append, hmask]
  rfl

end Parsed

/-- **A message about a family is parsed into that family.** -/
theorem nlCacheParse_describes {calloc : Nat → Bool} (hcalloc : ∀ n, calloc n = true) {seq : UInt32}
    {f : CtrlFamily} {m : MsgBuf} (h : m.Describes seq f) (n : Nat) :
    nlCacheParse calloc m n = .ok (f.cached, n + 1 + f.ops.length + f.grps.length) := by
  obtain ⟨more, hmore, hcarries, hsize⟩ := h.attrs
  have hoff : attrsOffset = nlmsgHdrlen + genlHdrlen := rfl
  have hlen := hcarries.len
  obtain ⟨tb, hparse, hrel⟩ := nlmsgParse_carries hcarries (f.admits hmore)
  unfold nlCacheParse genlMsgParser
  rw [if_neg (by omega), if_pos h.type]
  dsimp only
  rw [if_pos h.cmd, hparse]
  dsimp only [bind, Except.bind]
  rw [ctrlMsgParser_found hmore hrel hcalloc hsize h.type]

/-! ## A dump in datagrams

A dump is a multipart answer. The kernel packs as many messages into a datagram as it likes, so
where one datagram ends and the next begins is left open. -/

/-- A message of a family that is one of several parts. -/
structure MsgBuf.IsPart (seq : UInt32) (m : MsgBuf) : Prop where
  type : 16 ≤ m.nlh.nlmsgType
  part : m.nlh.nlmsgFlags &&& nlmFMulti ≠ 0
  seq : m.nlh.nlmsgSeq = seq

/-- The message that ends a dump. -/
structure MsgBuf.IsDone (seq : UInt32) (m : MsgBuf) : Prop where
  type : m.nlh.nlmsgType = nlmsgDone
  seq : m.nlh.nlmsgSeq = seq

section Dump

variable {σ τ : Type} {g : RawCallback σ} {ack : Option (RawCallback σ)} {seq : UInt32}
  {R : τ → MsgBuf → Prop} {f : σ → τ → σ} {done : MsgBuf}

/-- A part goes to the callback, and the loop goes on under the same number. -/
theorem recvRawMsg_part {m : MsgBuf} (hm : m.IsPart seq) {v v' : σ} (hg : g m v = (0, v')) :
    recvRawMsg ⟨some g, ack⟩ m ⟨seq.toNat, v⟩ = (.next, ⟨seq.toNat, v'⟩) := by
  have hne : ∀ t : UInt16, t < 16 → m.nlh.nlmsgType ≠ t := by
    rintro t ht heq
    exact absurd (heq ▸ hm.type) (UInt16.not_le.mpr ht)
  unfold recvRawMsg
  rw [hm.seq, if_neg (by simp), if_neg (hne _ (by decide)), if_neg (hne _ (by decide)),
    if_neg (hne _ (by decide)), if_neg (hne _ (by decide))]
  unfold rawCbCall
  dsimp only
  rw [hg, if_pos (Or.inl rfl)]

theorem multipart_part {m : MsgBuf} (hm : m.IsPart seq) (multipart : Bool) :
    m.multipart multipart = true := by
  have hdone : m.nlh.nlmsgType ≠ nlmsgDone := by
    intro heq
    exact absurd (heq ▸ hm.type) (by decide)
  unfold MsgBuf.multipart
  rw [if_neg hdone, decide_eq_true hm.part, Bool.or_true]

theorem recvRawDatagram_done (hdone : done.IsDone seq) (cb : RawCb σ) (multipart : Bool) (v : σ) :
    recvRawDatagram cb [done] multipart ⟨seq.toNat, v⟩
      = (none, false, ⟨(seq.toNat + 1) % 2 ^ 32, v⟩) := by
  have hmsg : recvRawMsg cb done ⟨seq.toNat, v⟩ = (.next, ⟨(seq.toNat + 1) % 2 ^ 32, v⟩) := by
    unfold recvRawMsg
    rw [hdone.seq, if_neg (by simp), if_pos hdone.type]
    rfl
  have hlast : done.multipart multipart = false := if_pos hdone.type
  rw [recvRawDatagram, hmsg]
  dsimp only
  rw [hlast, recvRawDatagram]

variable (hR : ∀ x m, R x m → m.IsPart seq ∧ ∀ v, g m v = (0, f v x))

include hR

/-- The callback gets each part. -/
theorem recvRawDatagram_parts (ack : Option (RawCallback σ)) {xs : List τ} {ms : List MsgBuf}
    (h : List.Forall₂ R xs ms) (multipart : Bool) (v : σ) (rest : List MsgBuf) :
    recvRawDatagram ⟨some g, ack⟩ (ms ++ rest) multipart ⟨seq.toNat, v⟩
      = recvRawDatagram ⟨some g, ack⟩ rest (multipart || !ms.isEmpty) ⟨seq.toNat, xs.foldl f v⟩ := by
  induction h generalizing multipart v with
  | nil =>
    rw [List.isEmpty_nil, Bool.not_true, Bool.or_false]
    rfl
  | cons hm _ ih =>
    obtain ⟨hpart, hg⟩ := hR _ _ hm
    rw [List.cons_append, recvRawDatagram, recvRawMsg_part hpart (hg v)]
    dsimp only
    rw [ih, multipart_part hpart, List.foldl_cons, List.isEmpty_cons, Bool.true_or, Bool.not_false,
      Bool.or_true]

/-- **A dump, however it is cut.** The induction is on the datagrams; the last one ends with
`NLMSG_DONE`, and each one before leaves `recvmsgs` waiting for more. -/
theorem recvRawmsgs_dump (ack : Option (RawCallback σ)) (hdone : done.IsDone seq)
    {dgs : List Datagram} {xs : List τ} {ms : List MsgBuf} (h : List.Forall₂ R xs ms)
    (hdgs : (dgs.map Datagram.messages).flatten = ms ++ [done])
    (hne : ∀ dg ∈ dgs, dg.messages ≠ []) (multipart : Bool) (v : σ)
    (rest : List (Except Int Datagram)) :
    recvRawmsgs ⟨some g, ack⟩ (dgs.map .ok ++ rest) multipart ⟨seq.toNat, v⟩
      = some (0, ⟨(seq.toNat + 1) % 2 ^ 32, xs.foldl f v⟩) := by
  induction dgs generalizing xs ms multipart v with
  | nil =>
    have hlength := congrArg List.length hdgs
    simp at hlength
  | cons dg dgs ih =>
    rw [List.map_cons, List.flatten_cons] at hdgs
    rw [List.map_cons, List.cons_append]
    -- a datagram of parts only
    have hparts : ∀ ms', ms = dg.messages ++ ms' →
        (dgs.map Datagram.messages).flatten = ms' ++ [done] →
        recvRawmsgs ⟨some g, ack⟩ (.ok dg :: (dgs.map .ok ++ rest)) multipart ⟨seq.toNat, v⟩
          = some (0, ⟨(seq.toNat + 1) % 2 ^ 32, xs.foldl f v⟩) := by
      rintro ms' rfl htail
      have hhead := recvRawDatagram_parts hR ack (List.forall₂_take_append _ _ _ h) multipart v []
      have hmore : (multipart || !dg.messages.isEmpty) = true := by
        simp [hne dg List.mem_cons_self]
      rw [List.append_nil, hmore, recvRawDatagram] at hhead
      rw [recvRawmsgs, hhead]
      dsimp only
      rw [ih (List.forall₂_drop_append _ _ _ h) htail
        (fun dg' hdg' => hne dg' (List.mem_cons_of_mem dg hdg')), ← List.foldl_append,
        List.take_append_drop]
    rcases List.append_eq_append_iff.mp hdgs with ⟨ms', hms, htail⟩ | ⟨last, hlast, htail⟩
    · exact hparts ms' hms htail
    · rcases List.singleton_eq_append_iff.mp htail with ⟨rfl, hrest⟩ | ⟨rfl, -⟩
      · refine hparts [] ?_ hrest
        rw [hlast, List.append_nil, List.append_nil]
      · have hhead := recvRawDatagram_parts hR ack h multipart v [done]
        rw [← hlast, recvRawDatagram_done hdone] at hhead
        rw [recvRawmsgs, hhead]

end Dump

/-! ## Connecting

The pieces together. The calls on the way are assumed to succeed, and the datagrams to fit a page,
since `nl_recv` loses one that does not. -/

/-- No call on the way fails. -/
structure ConnectCalls.Succeed (c : ConnectCalls) : Prop where
  socket : c.nlSocketAllocNull = false
  connect : c.genlConnect = 0
  cache : c.nlCacheAllocNull = false
  send : 0 ≤ c.genlSendSimple
  clone : c.nlCbCloneNull = false
  calloc : ∀ n, c.calloc n = true

/-- The controller's answer: a message for each family and one for the end, in datagrams that are not
empty and that a page can hold. -/
structure CtrlDump (pageSize : Nat) (seq : UInt32) (fams : List CtrlFamily) (dgs : List Datagram) :
    Prop where
  messages : ∃ ms done, List.Forall₂ (MsgBuf.Describes seq) fams ms ∧ done.IsDone seq
    ∧ (dgs.map Datagram.messages).flatten = ms ++ [done]
  nonempty : ∀ dg ∈ dgs, dg.messages ≠ []
  fits : ∀ dg ∈ dgs, dg.n ≤ pageSize

/-- A datagram with a message in it has bytes. -/
theorem Datagram.ne_zero_of_messages {dg : Datagram} (h : dg.messages ≠ []) : dg.n ≠ 0 := by
  rintro hn
  apply h
  unfold Datagram.messages
  rw [hn, nlmsgForEach, if_neg]
  · rfl
  · intro hok
    have hbounds := nlmsgOk_bounds hok
    omega

theorem CtrlDump.read {pageSize : Nat} {seq : UInt32} {fams : List CtrlFamily} {dgs : List Datagram}
    (h : CtrlDump pageSize seq fams dgs) : ∀ dg ∈ dgs, dg.Fits pageSize :=
  fun dg hdg => ⟨Datagram.ne_zero_of_messages (h.nonempty dg hdg), h.fits dg hdg⟩

/-- The cache with one family more. -/
def NlCache.add (cache : NlCache) (f : CtrlFamily) : NlCache :=
  ⟨cache.items ++ [f.cached], cache.callocs + 1 + f.ops.length + f.grps.length⟩

/-- The cache has the families in the order of their messages. -/
theorem items_foldl_add (fams : List CtrlFamily) (cache : NlCache) :
    (fams.foldl NlCache.add cache).items = cache.items ++ fams.map CtrlFamily.cached := by
  induction fams generalizing cache with
  | nil => rw [List.foldl_nil, List.map_nil, List.append_nil]
  | cons f fams ih =>
    rw [List.foldl_cons, ih, List.map_cons]
    show cache.items ++ [f.cached] ++ _ = _
    rw [List.append_assoc, List.singleton_append]

/-- A message about a family is a part of the dump, and adds the family to the cache. -/
theorem updateMsgParser_describes {calloc : Nat → Bool} (hcalloc : ∀ n, calloc n = true) {seq : UInt32}
    (f : CtrlFamily) (m : MsgBuf) (h : m.Describes seq f) :
    m.IsPart seq ∧ ∀ cache, updateMsgParser calloc m cache = (0, cache.add f) := by
  refine ⟨⟨?_, h.part, h.seq⟩, ?_⟩
  · rw [h.type]
    decide
  · intro cache
    unfold updateMsgParser
    rw [nlCacheParse_describes hcalloc h]
    rfl

/-- The object has the name and the number of its family. -/
theorem CtrlFamily.cached_named (f : CtrlFamily) : f.cached.Named f.id f.name.val := by
  refine ⟨rfl, rfl, ?_⟩
  show (if f.ops = [] then 0x1f else 0x3f : UInt32) &&& familyAttrId ≠ 0
  split
  · decide
  · decide

/-- **The cache is what the kernel has.** -/
theorem nlCacheAllocAndFill_dump {pageSize : Nat} {c : ConnectCalls} (hc : c.Succeed) {seq : UInt32}
    {fams : List CtrlFamily} {dgs : List Datagram} (h : CtrlDump pageSize seq fams dgs)
    (rest : List Recvmsg) :
    nlCacheAllocAndFill pageSize c (dgs.map .datagram ++ rest) seq.toNat
      = some (.ok (fams.map CtrlFamily.cached)) := by
  obtain ⟨ms, done, hms, hdone, hflat⟩ := h.messages
  have hsend := hc.send
  have hrecv := recvRawmsgs_dump (updateMsgParser_describes hc.calloc) none hdone hms hflat h.nonempty
    false ⟨[], 0⟩ (nlRecvs pageSize pageSize rest)
  unfold nlCacheAllocAndFill nlRecvmsgs
  rw [if_neg (by rw [hc.cache]; decide), if_neg (by omega), if_neg (by rw [hc.clone]; decide),
    nlRecvs_append h.read, hrecv]
  show some (Except.ok _) = _
  rw [items_foldl_add, List.nil_append]

/-- **Connecting to the driver.** Whatever families the kernel has, in whatever datagrams of up to a page
it sends them and whatever follows, if the calls on the way succeed the library has them all as they are,
and `driver_connect` takes the number of the first one with the driver's name. Without one it fails with
`-NLE_OBJ_NOTFOUND`. -/
theorem driver_connect_finds (pageSize : Nat) (c : ConnectCalls) (hc : c.Succeed) (seq : UInt32)
    (fams : List CtrlFamily) (dgs : List Datagram) (rest : List Recvmsg)
    (h : CtrlDump pageSize seq fams dgs) :
    nlCacheAllocAndFill pageSize c (dgs.map .datagram ++ rest) seq.toNat
        = some (.ok (fams.map CtrlFamily.cached))
      ∧ driverConnect pageSize c (dgs.map .datagram ++ rest) seq.toNat
        = some ((fams.find? fun f => f.name.val = nf10GenlFamilyName).elim
            (-nleObjNotfound, some (-nleObjNotfound)) fun f => (0, some (f.id.toNat : Int))) := by
  have hfill := nlCacheAllocAndFill_dump hc h rest
  refine ⟨hfill, ?_⟩
  unfold driverConnect genlCtrlResolve
  rw [if_neg (by rw [hc.socket]; decide), if_neg (by rw [hc.connect]; decide), hfill]
  have hsearch : genlCtrlSearchByName (fams.map CtrlFamily.cached) nf10GenlFamilyName
      = (fams.find? fun f => f.name.val = nf10GenlFamilyName).map CtrlFamily.cached :=
    List.find?_map
  simp only [Option.map_some, hsearch]
  cases fams.find? fun f => f.name.val = nf10GenlFamilyName with
  | none => rfl
  | some f =>
    simp only [Option.map_some, f.cached_named.getId, UInt16.toNat_toUInt32]
    rw [if_neg (by omega)]
    rfl

/-! A kernel with the driver in it, behind the controller itself. -/

/-- The controller, with an operation and a group. -/
def nlctrlFamily : CtrlFamily :=
  ⟨16, ⟨[110, 108, 99, 116, 114, 108], by decide⟩, 2, 0, 7, [(3, 0xe)], [(1, ⟨[110], by decide⟩)]⟩

/-- The driver's family, under the number 21. -/
def nf10Family : CtrlFamily :=
  ⟨21, ⟨nf10GenlFamilyName, by decide⟩, 1, 0, 6, [], []⟩

/-- The message of a family, alone in its buffer. -/
def dumpMsg (seq : UInt32) (f : CtrlFamily) : MsgBuf :=
  let msg := libnlReply f.attrs
  { msg with
    nlh := { msg.nlh with nlmsgType := genlIdCtrl, nlmsgFlags := nlmFMulti, nlmsgSeq := seq }
    bytes := Function.update msg.bytes nlmsgHdrlen ctrlCmdNewfamily }

/-- The message that ends the dump. -/
def doneMsg (seq : UInt32) : MsgBuf :=
  ⟨⟨20, nlmsgDone, nlmFMulti, seq, 0⟩, fun _ => 0, 20⟩

/-- The message of a family, alone in its datagram, describes it. -/
theorem dumpMsg_describes {f : CtrlFamily} (htags : ∀ r ∈ f.attrs, r.tag < 2 ^ 14)
    (hroom : 40 + 2 * nlaFormat.size f.attrs ≤ 2 ^ 16) (seq : UInt32) :
    (dumpMsg seq f).datagram.messages = [(dumpMsg seq f).received]
      ∧ (dumpMsg seq f).received.Describes seq f := by
  have hreply := libnlReply_holds htags hroom
  have hoff : attrsOffset = 20 := rfl
  have hhdr : nlmsgHdrlen = 16 := rfl
  have hbytes : ∀ a, attrsOffset ≤ a → a < attrsOffset + nlaFormat.size f.attrs →
      (dumpMsg seq f).bytes a = (libnlReply f.attrs).bytes a :=
    fun a ha _ => Function.update_of_ne (by omega) _ _
  have hcarries : (dumpMsg seq f).Carries f.attrs :=
    ⟨hreply.len, hreply.fits, hreply.holds.congr hbytes, hreply.padded.congr hbytes⟩
  have hlen := hcarries.len
  have hlt := hcarries.len_lt (by omega)
  have hnlh := received_nlh hlt
  refine ⟨messages_datagram (by omega) hlt, ?_, ?_, ?_, ?_, ?_⟩
  · rw [hnlh]
    rfl
  · rw [hnlh]
    show nlmFMulti &&& nlmFMulti ≠ 0
    decide
  · rw [hnlh]
    rfl
  · rw [received_bytes hlt (by omega) (by omega)]
    show Function.update (libnlReply f.attrs).bytes nlmsgHdrlen ctrlCmdNewfamily nlmsgHdrlen = _
    exact Function.update_self ..
  · refine ⟨[], (fun _ h => nomatch h), ?_, ?_⟩
    · rw [List.append_nil]
      exact hcarries.received (by omega)
    · rw [List.append_nil]
      omega

/-- No call fails, and the request is 20 bytes long. -/
def connectCallsOk : ConnectCalls :=
  ⟨false, 0, false, 20, false, fun _ => true⟩

/-- The driver has the number 21. -/
theorem driver_connect_finds_loaded :
    connectCallsOk.Succeed
      ∧ CtrlDump 4096 9 [nlctrlFamily, nf10Family]
          [(dumpMsg 9 nlctrlFamily).datagram, (dumpMsg 9 nf10Family).datagram, (doneMsg 9).datagram]
      ∧ driverConnect 4096 connectCallsOk
          ([(dumpMsg 9 nlctrlFamily).datagram, (dumpMsg 9 nf10Family).datagram,
            (doneMsg 9).datagram].map .datagram) 9
        = some (0, some 21) := by
  have hc : connectCallsOk.Succeed := ⟨rfl, rfl, rfl, by decide, rfl, fun _ => rfl⟩
  obtain ⟨hmsgs, hdesc⟩ := dumpMsg_describes (f := nlctrlFamily) (by decide) (by decide) 9
  obtain ⟨hmsgs', hdesc'⟩ := dumpMsg_describes (f := nf10Family) (by decide) (by decide) 9
  have hdone : (doneMsg 9).datagram.messages = [(doneMsg 9).received] :=
    messages_datagram (by decide) (by decide)
  have hnlh : (doneMsg 9).received.nlh = (doneMsg 9).nlh := received_nlh (by decide)
  have hdump : CtrlDump 4096 9 [nlctrlFamily, nf10Family]
      [(dumpMsg 9 nlctrlFamily).datagram, (dumpMsg 9 nf10Family).datagram, (doneMsg 9).datagram] := by
    refine ⟨⟨_, (doneMsg 9).received, .cons hdesc (.cons hdesc' .nil), ?_, ?_⟩, ?_, ?_⟩
    · exact ⟨by rw [hnlh]; rfl, by rw [hnlh]; rfl⟩
    · simp only [List.map_cons, List.map_nil, hmsgs, hmsgs', hdone]
      rfl
    · intro dg hdg
      simp only [List.mem_cons, List.not_mem_nil, or_false] at hdg
      rcases hdg with rfl | rfl | rfl
      · rw [hmsgs]
        exact List.cons_ne_nil _ _
      · rw [hmsgs']
        exact List.cons_ne_nil _ _
      · rw [hdone]
        exact List.cons_ne_nil _ _
    · intro dg hdg
      simp only [List.mem_cons, List.not_mem_nil, or_false] at hdg
      rcases hdg with rfl | rfl | rfl <;> decide
  refine ⟨hc, hdump, ?_⟩
  have hfinds := (driver_connect_finds 4096 connectCallsOk hc 9 _ _ [] hdump).2
  rw [List.append_nil] at hfinds
  exact hfinds.trans (by decide)

end Nf10
