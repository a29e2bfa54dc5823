import Nf10.Driver.Datagram

/-!
# Nf10 — how a client finds the driver

`driver_connect` of `nf10_reg_lib.c`. The number of the driver's family is not fixed: the client asks
the controller of generic netlink for all families and looks for a name among them. `ctrl.c` of the
bundled libnl turns each message of the answer into an object, operations and groups in nested
attributes included, `cache.c` collects the objects, and a message that cannot be parsed ends it all.

* **`driverConnect`** — from the socket to the number of the family;
* **`genl_ctrl_resolve_any_bytes`** — whatever arrives, a number that is returned stands in a message
  that arrived, together with the name that was asked for.

What a kernel answers, and that the client finds the driver in it, is in `Nf10.Driver.Connect`.
-/

namespace Nf10

/-! ## Numbers

The numbers of `netlink/errno.h` and `linux/genetlink.h` that the resolver uses, and the policies of
`ctrl.c`. -/

/-- `NLE_OPNOTSUPP` -/
def nleOpnotsupp : Int := 10
/-- `NLE_OBJ_NOTFOUND` -/
def nleObjNotfound : Int := 12
/-- `NLE_MISSING_ATTR` -/
def nleMissingAttr : Int := 14
/-- `NLE_MSGTYPE_NOSUPPORT` -/
def nleMsgtypeNosupport : Int := 22

/-- The controller's own family, the one number that is fixed. -/
def genlIdCtrl : UInt16 := 16
/-- The command of a message about a family. -/
def ctrlCmdNewfamily : UInt8 := 1
/-- The room for a name, its zero included. -/
def genlNamsiz : Nat := 16

/-- The attributes of a family. Its operations and its groups are lists of nested attributes. -/
def ctrlAttrFamilyId : Nat := 1
def ctrlAttrFamilyName : Nat := 2
def ctrlAttrVersion : Nat := 3
def ctrlAttrHdrsize : Nat := 4
def ctrlAttrMaxattr : Nat := 5
def ctrlAttrOps : Nat := 6
def ctrlAttrMcastGroups : Nat := 7
def ctrlAttrMax : Nat := 7

/-- The attributes of an operation. -/
def ctrlAttrOpId : Nat := 1
def ctrlAttrOpFlags : Nat := 2
def ctrlAttrOpMax : Nat := 2

/-- The attributes of a multicast group. -/
def ctrlAttrMcastGrpName : Nat := 1
def ctrlAttrMcastGrpId : Nat := 2
def ctrlAttrMcastGrpMax : Nat := 2

/-- `ctrl_policy` -/
def ctrlPolicy : Nat → NlaPolicy
  | 1 => ⟨.u16, 0, 0⟩
  | 2 => ⟨.string, 0, genlNamsiz⟩
  | 3 => ⟨.u32, 0, 0⟩
  | 4 => ⟨.u32, 0, 0⟩
  | 5 => ⟨.u32, 0, 0⟩
  | 6 => ⟨.nested, 0, 0⟩
  | 7 => ⟨.nested, 0, 0⟩
  | _ => ⟨.unspec, 0, 0⟩

/-- `family_op_policy` -/
def familyOpPolicy : Nat → NlaPolicy
  | 1 => ⟨.u32, 0, 0⟩
  | 2 => ⟨.u32, 0, 0⟩
  | _ => ⟨.unspec, 0, 0⟩

/-- `family_grp_policy` -/
def familyGrpPolicy : Nat → NlaPolicy
  | 1 => ⟨.string, 0, 0⟩
  | 2 => ⟨.u32, 0, 0⟩
  | _ => ⟨.unspec, 0, 0⟩

/-! ## Families

The object that libnl keeps of a family. `ce_mask` says which of its fields have been set; the
number of a family counts only with its bit. -/

/-- `struct genl_family`. The strings are without their terminating zero. -/
structure GenlFamily where
  ceMask : UInt32 := 0
  ceMsgtype : UInt16 := 0
  gfId : UInt16 := 0
  gfName : List UInt8 := []
  gfVersion : UInt32 := 0
  gfHdrsize : UInt32 := 0
  gfMaxattr : UInt32 := 0
  gfOps : List (UInt32 × UInt32) := []
  gfMcGrps : List (UInt32 × List UInt8) := []
deriving DecidableEq, Repr

/-- The bits of `ce_mask`. -/
def familyAttrId : UInt32 := 0x01
def familyAttrName : UInt32 := 0x02
def familyAttrVersion : UInt32 := 0x04
def familyAttrHdrsize : UInt32 := 0x08
def familyAttrMaxattr : UInt32 := 0x10
def familyAttrOps : UInt32 := 0x20

/-- What `strncpy` of `GENL_NAMSIZ - 1` bytes leaves in an array of zeros. -/
def strncpyName (mem : Nat → UInt8) (p : Nat) : List UInt8 :=
  (readMem mem p (genlNamsiz - 1)).takeWhile (· ≠ 0)

namespace GenlFamily

/-- `genl_family_get_id`; without an id, `GENL_ID_GENERATE`. -/
def getId (f : GenlFamily) : UInt32 :=
  if f.ceMask &&& familyAttrId ≠ 0 then f.gfId.toUInt32 else 0

/-- `genl_family_set_id` -/
def setId (f : GenlFamily) (id : UInt16) : GenlFamily :=
  { f with gfId := id, ceMask := f.ceMask ||| familyAttrId }

/-- `genl_family_set_name` -/
def setName (f : GenlFamily) (name : List UInt8) : GenlFamily :=
  { f with gfName := name, ceMask := f.ceMask ||| familyAttrName }

/-- `genl_family_set_version`, whose argument has 8 bits. -/
def setVersion (f : GenlFamily) (version : UInt32) : GenlFamily :=
  { f with gfVersion := version.toUInt8.toUInt32, ceMask := f.ceMask ||| familyAttrVersion }

/-- `genl_family_set_hdrsize` -/
def setHdrsize (f : GenlFamily) (hdrsize : UInt32) : GenlFamily :=
  { f with gfHdrsize := hdrsize, ceMask := f.ceMask ||| familyAttrHdrsize }

/-- `genl_family_set_maxattr` -/
def setMaxattr (f : GenlFamily) (maxattr : UInt32) : GenlFamily :=
  { f with gfMaxattr := maxattr, ceMask := f.ceMask ||| familyAttrMaxattr }

/-- An operation at the end of the list. -/
def addOp (f : GenlFamily) (op : UInt32 × UInt32) : GenlFamily :=
  { f with gfOps := f.gfOps ++ [op], ceMask := f.ceMask ||| familyAttrOps }

/-- A group at the end of the list, which has no bit in the mask. -/
def addGrp (f : GenlFamily) (grp : UInt32 × List UInt8) : GenlFamily :=
  { f with gfMcGrps := f.gfMcGrps ++ [grp] }

end GenlFamily

/-! ## The parser of the controller's messages

From a message to an object: `cache.c` looks at the type, `genl.c` at the command, and `ctrl.c` at
the attributes, those inside attributes included. Every one of them may fail, and the error ends the
dump. -/

/-- `nla_get_u16` -/
def nlaGetU16 (mem : Nat → UInt8) (nla : Nat) : UInt16 :=
  UInt16.ofNat (load16 mem (nla + nlaHdrlen))

/-- `nla_get_u32` -/
def nlaGetU32 (mem : Nat → UInt8) (nla : Nat) : UInt32 :=
  load32At mem (nla + nlaHdrlen)

/-- `nla_parse` or its error. -/
def nlaParseOr (mem : Nat → UInt8) (maxtype head : Nat) (len : Int) (policy : Nat → NlaPolicy) :
    Except Int (Nat → Option Nat) :=
  let r := nlaParse mem maxtype head len (some policy)
  if r.1 < 0 then .error r.1 else .ok r.2.tb

/-- `nla_parse_nested` -/
def nlaParseNested (mem : Nat → UInt8) (maxtype nla : Nat) (policy : Nat → NlaPolicy) :
    Except Int (Nat → Option Nat) :=
  nlaParseOr mem maxtype (nla + nlaHdrlen) (nlaLen mem nla) policy

/-- The attributes that `nla_for_each_nested` meets. -/
def nlaForEachNested (mem : Nat → UInt8) (nla : Nat) : List Nat :=
  (nlaForEachAttr mem (nla + nlaHdrlen) (nlaLen mem nla)).seen

/-- `nlmsg_parse` -/
def nlmsgParse (m : MsgBuf) (hdrlen maxtype : Nat) (policy : Nat → NlaPolicy) :
    Except Int (Nat → Option Nat) :=
  if m.nlh.nlmsgLen < nlmsgHdrlen + hdrlen then .error (-nleMsgTooshort)
  else
    nlaParseOr m.bytes maxtype (nlmsgHdrlen + nlaAlign hdrlen)
      ((m.nlh.nlmsgLen : Int) - nlmsgHdrlen - nlaAlign hdrlen) policy

section Parser

-- whether there is memory for the `n`-th object since the start
variable (calloc : Nat → Bool)

/-- An object under construction, and how many have been allocated. -/
abbrev Building := GenlFamily × Nat

/-- `genl_family_add_op`, which needs memory for the operation. -/
def genlFamilyAddOp (s : Building) (id flags : UInt32) : Except Int Building :=
  if calloc s.2 then .ok (s.1.addOp (id, flags), s.2 + 1) else .error (-nleNomem)

/-- `genl_family_add_grp`, likewise. -/
def genlFamilyAddGrp (s : Building) (id : UInt32) (name : List UInt8) : Except Int Building :=
  if calloc s.2 then .ok (s.1.addGrp (id, name), s.2 + 1) else .error (-nleNomem)

/-- The body of the loop over `CTRL_ATTR_OPS`. -/
def ctrlParseOp (mem : Nat → UInt8) (s : Building) (nla : Nat) : Except Int Building := do
  let tb ← nlaParseNested mem ctrlAttrOpMax nla familyOpPolicy
  match tb ctrlAttrOpId with
  | none => .error (-nleMissingAttr)
  | some id =>
    let flags := (tb ctrlAttrOpFlags).elim 0 (nlaGetU32 mem)
    genlFamilyAddOp calloc s (nlaGetU32 mem id) flags

/-- The body of the loop over `CTRL_ATTR_MCAST_GROUPS`. -/
def ctrlParseGrp (mem : Nat → UInt8) (s : Building) (nla : Nat) : Except Int Building := do
  let tb ← nlaParseNested mem ctrlAttrMcastGrpMax nla familyGrpPolicy
  match tb ctrlAttrMcastGrpId with
  | none => .error (-nleMissingAttr)
  | some id =>
    match tb ctrlAttrMcastGrpName with
    | none => .error (-nleMissingAttr)
    | some name =>
      genlFamilyAddGrp calloc s (nlaGetU32 mem id) (strncpyName mem (name + nlaHdrlen))

/-- One of the two loops, if its attribute is there. -/
def ctrlParseList (mem : Nat → UInt8) (body : Building → Nat → Except Int Building)
    (attr : Option Nat) (s : Building) : Except Int Building :=
  match attr with
  | none => .ok s
  | some nla => (nlaForEachNested mem nla).foldlM body s

/-- The fields of a family that are not lists. -/
def ctrlFields (m : MsgBuf) (attrs : Nat → Option Nat) (name id : Nat) : GenlFamily :=
  let family : GenlFamily := { ceMsgtype := m.nlh.nlmsgType }
  let family := family.setId (nlaGetU16 m.bytes id)
  let family := family.setName (strncpyName m.bytes (name + nlaHdrlen))
  let family := (attrs ctrlAttrVersion).elim family fun na => family.setVersion (nlaGetU32 m.bytes na)
  let family := (attrs ctrlAttrHdrsize).elim family fun na => family.setHdrsize (nlaGetU32 m.bytes na)
  (attrs ctrlAttrMaxattr).elim family fun na => family.setMaxattr (nlaGetU32 m.bytes na)

/-- `ctrl_msg_parser`, up to the callback that gets the family. -/
def ctrlMsgParser (m : MsgBuf) (attrs : Nat → Option Nat) (n : Nat) : Except Int Building :=
  if !calloc n then .error (-nleNomem)
  else
    match attrs ctrlAttrFamilyName with
    | none => .error (-nleMissingAttr)
    | some name =>
      match attrs ctrlAttrFamilyId with
      | none => .error (-nleMissingAttr)
      | some id => do
        let s := (ctrlFields m attrs name id, n + 1)
        let s ← ctrlParseList m.bytes (ctrlParseOp calloc m.bytes) (attrs ctrlAttrOps) s
        ctrlParseList m.bytes (ctrlParseGrp calloc m.bytes) (attrs ctrlAttrMcastGroups) s

/-- `genl_msg_parser` with the commands of the controller, of which only the first has a parser. -/
def genlMsgParser (m : MsgBuf) (n : Nat) : Except Int Building :=
  let cmd := m.bytes nlmsgHdrlen
  if cmd = ctrlCmdNewfamily then do
    let attrs ← nlmsgParse m genlHdrlen ctrlAttrMax ctrlPolicy
    ctrlMsgParser calloc m attrs n
  else if 2 ≤ cmd ∧ cmd ≤ 5 then .error (-nleOpnotsupp)
  else .error (-nleMsgtypeNosupport)

/-- `nl_cache_parse` with the one message type of the controller. -/
def nlCacheParse (m : MsgBuf) (n : Nat) : Except Int Building :=
  if m.nlh.nlmsgLen < nlmsgHdrlen + genlHdrlen then .error (-nleMsgTooshort)
  else if m.nlh.nlmsgType = genlIdCtrl then
    match genlMsgParser calloc m n with
    | .ok s => .ok s
    | .error err => .error (if err ≠ -nleOpnotsupp then err else -nleMsgtypeNosupport)
  else .error (-nleMsgtypeNosupport)

/-- `struct nl_cache` while it is filled. -/
structure NlCache where
  items : List GenlFamily
  callocs : Nat

/-- `update_msg_parser`, which adds the family to the cache. -/
def updateMsgParser : RawCallback NlCache := fun m cache =>
  match nlCacheParse calloc m cache.callocs with
  | .error err => (err, cache)
  | .ok s => (0, ⟨cache.items ++ [s.1], s.2⟩)

end Parser

/-! ## The client

The calls of `driver_connect`, from the socket to the number. Each may fail in a way of its own, and
the number is looked for only in a cache that was filled to the end. -/

/-- What the calls on the way return. -/
structure ConnectCalls where
  nlSocketAllocNull : Bool
  genlConnect : Int
  nlCacheAllocNull : Bool
  genlSendSimple : Int
  nlCbCloneNull : Bool
  calloc : Nat → Bool

/-- `nl_cache_alloc_and_fill` on a socket that expects `seq`, and what its calls of `recvmsg` give. -/
def nlCacheAllocAndFill (pageSize : Nat) (c : ConnectCalls) (calls : List Recvmsg) (seq : Nat) :
    Option (Except Int (List GenlFamily)) :=
  if c.nlCacheAllocNull then some (.error (-nleNomem))
  else if c.genlSendSimple < 0 then some (.error c.genlSendSimple)
  else if c.nlCbCloneNull then some (.error (-nleNomem))
  else
    (nlRecvmsgs pageSize ⟨some (updateMsgParser c.calloc), none⟩ calls ⟨seq, ⟨[], 0⟩⟩).map fun r =>
      if r.1 < 0 then .error r.1 else .ok r.2.val.items

/-- `genl_ctrl_search_by_name`: the first family of that name. -/
def genlCtrlSearchByName (cache : List GenlFamily) (name : List UInt8) : Option GenlFamily :=
  cache.find? fun fam => fam.gfName = name

/-- `genl_ctrl_resolve`: the number of the family, or an error. -/
def genlCtrlResolve (pageSize : Nat) (c : ConnectCalls) (calls : List Recvmsg) (seq : Nat)
    (name : List UInt8) : Option Int :=
  (nlCacheAllocAndFill pageSize c calls seq).map fun
    | .error err => err
    | .ok cache =>
      match genlCtrlSearchByName cache name with
      | none => -nleObjNotfound
      | some family => family.getId.toNat

/-- "NF10_ETH_DRIVER" -/
def nf10GenlFamilyName : List UInt8 :=
  [78, 70, 49, 48, 95, 69, 84, 72, 95, 68, 82, 73, 86, 69, 82]

/-- `driver_connect`: what it returns, and `nf10_genl_family` if it has been set. -/
def driverConnect (pageSize : Nat) (c : ConnectCalls) (calls : List Recvmsg) (seq : Nat) :
    Option (Int × Option Int) :=
  if c.nlSocketAllocNull then some (-nleNomem, none)
  else if c.genlConnect ≠ 0 then some (c.genlConnect, none)
  else
    (genlCtrlResolve pageSize c calls seq nf10GenlFamilyName).map fun family =>
      if family < 0 then (family, some family) else (0, some family)

/-! ## Bytes of any origin

The client trusts what it receives, so the question is how far. Below, a family that gets into the
cache is shown to stand in one message, its number and its name in attributes that lie inside it;
and `recvmsgs` puts nothing else there. -/

/-- A sequence succeeds if both of its parts do. -/
theorem bind_eq_ok {ε α β : Type} {x : Except ε α} {f : α → Except ε β} {b : β}
    (h : x >>= f = .ok b) : ∃ a, x = .ok a ∧ f a = .ok b := by
  cases x with
  | error e => cases h
  | ok a => exact ⟨a, rfl, h⟩

/-- What every turn of a loop keeps, the loop keeps. -/
theorem foldlM_invariant {σ ε α : Type} {P : σ → Prop} {f : σ → α → Except ε σ}
    (hstep : ∀ s a s', P s → f s a = .ok s' → P s') {as : List α} {s s' : σ} (h : P s)
    (hfold : as.foldlM f s = .ok s') : P s' := by
  induction as generalizing s with
  | nil =>
    cases hfold
    exact h
  | cons a as ih =>
    rw [List.foldlM_cons] at hfold
    obtain ⟨s₁, hs₁, hfold⟩ := bind_eq_ok hfold
    exact ih (hstep s a s₁ h hs₁) hfold

/-- A family that the resolver finds under this name and number. -/
structure GenlFamily.Named (f : GenlFamily) (id : UInt16) (name : List UInt8) : Prop where
  gfId : f.gfId = id
  gfName : f.gfName = name
  hasId : f.ceMask &&& familyAttrId ≠ 0

namespace GenlFamily.Named

variable {f : GenlFamily} {id : UInt16} {name : List UInt8}

theorem hasId_or {mask : UInt32} (h : mask &&& familyAttrId ≠ 0) (bit : UInt32) :
    (mask ||| bit) &&& familyAttrId ≠ 0 := by
  have hdistrib : (mask ||| bit) &&& familyAttrId = (mask &&& familyAttrId) ||| (bit &&& familyAttrId) :=
    UInt32.toNat_inj.mp (by simp only [UInt32.toNat_and, UInt32.toNat_or, Nat.and_or_distrib_right])
  rw [hdistrib, Ne, UInt32.or_eq_zero_iff]
  exact fun hzero => h hzero.1

theorem getId (h : f.Named id name) : f.getId = id.toUInt32 := by
  unfold GenlFamily.getId
  rw [if_pos h.hasId, h.gfId]

theorem addOp (h : f.Named id name) (op : UInt32 × UInt32) : (f.addOp op).Named id name :=
  ⟨h.gfId, h.gfName, hasId_or h.hasId _⟩

theorem addGrp (h : f.Named id name) (grp : UInt32 × List UInt8) : (f.addGrp grp).Named id name :=
  ⟨h.gfId, h.gfName, h.hasId⟩

theorem setVersion (h : f.Named id name) (version : UInt32) : (f.setVersion version).Named id name :=
  ⟨h.gfId, h.gfName, hasId_or h.hasId _⟩

/-- Setting the size of the header leaves them. -/
theorem setHdrsize (h : f.Named id name) (hdrsize : UInt32) : (f.setHdrsize hdrsize).Named id name :=
  ⟨h.gfId, h.gfName, hasId_or h.hasId _⟩

/-- Setting the number of attributes leaves them. -/
theorem setMaxattr (h : f.Named id name) (maxattr : UInt32) : (f.setMaxattr maxattr).Named id name :=
  ⟨h.gfId, h.gfName, hasId_or h.hasId _⟩

/-- An attribute that may be missing leaves them either way. -/
theorem elim (h : f.Named id name) (attr : Option Nat) {set : Nat → GenlFamily}
    (hset : ∀ na, (set na).Named id name) : (attr.elim f set).Named id name := by
  cases attr with
  | none => exact h
  | some na => exact hset na

end GenlFamily.Named

/-- The fields of a message have its name and its number. -/
theorem ctrlFields_named (m : MsgBuf) (attrs : Nat → Option Nat) (name id : Nat) :
    (ctrlFields m attrs name id).Named (nlaGetU16 m.bytes id)
      (strncpyName m.bytes (name + nlaHdrlen)) := by
  unfold ctrlFields
  have hnamed : ((({ ceMsgtype := m.nlh.nlmsgType } : GenlFamily).setId (nlaGetU16 m.bytes id)).setName
      (strncpyName m.bytes (name + nlaHdrlen))).Named (nlaGetU16 m.bytes id)
      (strncpyName m.bytes (name + nlaHdrlen)) :=
    ⟨rfl, rfl, show (0 ||| familyAttrId ||| familyAttrName) &&& familyAttrId ≠ 0 by decide⟩
  have hversion := hnamed.elim (attrs ctrlAttrVersion) fun na =>
    hnamed.setVersion (nlaGetU32 m.bytes na)
  have hhdrsize := hversion.elim (attrs ctrlAttrHdrsize) fun na =>
    hversion.setHdrsize (nlaGetU32 m.bytes na)
  exact hhdrsize.elim (attrs ctrlAttrMaxattr) fun na => hhdrsize.setMaxattr (nlaGetU32 m.bytes na)

section Sound

variable {calloc : Nat → Bool} {id : UInt16} {name : List UInt8}

/-- One turn of the loop over the operations leaves them. -/
theorem ctrlParseOp_named {mem : Nat → UInt8} {s s' : Building} {nla : Nat} (h : s.1.Named id name)
    (hs : ctrlParseOp calloc mem s nla = .ok s') : s'.1.Named id name := by
  obtain ⟨tb, -, hs⟩ := bind_eq_ok hs
  dsimp only at hs
  split at hs
  · cases hs
  · unfold genlFamilyAddOp at hs
    split at hs
    · cases hs
      exact h.addOp _
    · cases hs

/-- One turn of the loop over the groups does too. -/
theorem ctrlParseGrp_named {mem : Nat → UInt8} {s s' : Building} {nla : Nat} (h : s.1.Named id name)
    (hs : ctrlParseGrp calloc mem s nla = .ok s') : s'.1.Named id name := by
  obtain ⟨tb, -, hs⟩ := bind_eq_ok hs
  split at hs
  · cases hs
  · split at hs
    · cases hs
    · unfold genlFamilyAddGrp at hs
      split at hs
      · cases hs
        exact h.addGrp _
      · cases hs

theorem ctrlParseList_named {mem : Nat → UInt8} {body : Building → Nat → Except Int Building}
    (hbody : ∀ s nla s', s.1.Named id name → body s nla = .ok s' → s'.1.Named id name)
    {attr : Option Nat} {s s' : Building} (h : s.1.Named id name)
    (hs : ctrlParseList mem body attr s = .ok s') : s'.1.Named id name := by
  unfold ctrlParseList at hs
  split at hs
  · cases hs
    exact h
  · exact foldlM_invariant hbody h hs

/-- A family that is parsed has the name and the number of the message. -/
theorem ctrlMsgParser_named {m : MsgBuf} {attrs : Nat → Option Nat} {n : Nat} {s : Building}
    (hs : ctrlMsgParser calloc m attrs n = .ok s) :
    ∃ naName naId, attrs ctrlAttrFamilyName = some naName ∧ attrs ctrlAttrFamilyId = some naId
      ∧ s.1.Named (nlaGetU16 m.bytes naId) (strncpyName m.bytes (naName + nlaHdrlen)) := by
  unfold ctrlMsgParser at hs
  split at hs
  · cases hs
  · split at hs
    · cases hs
    · next naName hname =>
      split at hs
      · cases hs
      · next naId hid =>
        obtain ⟨s₁, hops, hgrps⟩ := bind_eq_ok hs
        have hfields := ctrlFields_named m attrs naName naId
        have hs₁ := ctrlParseList_named (fun _ _ _ => ctrlParseOp_named) hfields hops
        exact ⟨naName, naId, hname, hid, ctrlParseList_named (fun _ _ _ => ctrlParseGrp_named) hs₁ hgrps⟩

/-- Attributes that were parsed are the parser's table. -/
theorem nlaParseOr_eq_ok {mem : Nat → UInt8} {maxtype head : Nat} {len : Int}
    {policy : Nat → NlaPolicy} {tb : Nat → Option Nat}
    (h : nlaParseOr mem maxtype head len policy = .ok tb) :
    (nlaParse mem maxtype head len (some policy)).2.tb = tb := by
  unfold nlaParseOr at h
  dsimp only at h
  split at h
  · cases h
  · exact Except.ok.inj h

/-- An attribute of the message: where it is, and that it is of type `t`. -/
structure MsgBuf.HasAttr (m : MsgBuf) (t na : Nat) : Prop where
  type : nlaType m.bytes na = t
  behind : attrsOffset ≤ na
  long : 0 ≤ nlaLen m.bytes na
  inside : na + nlaHdrlen + (nlaLen m.bytes na).toNat ≤ m.nlh.nlmsgLen

/-- The message announces a family with this number and this name: the string ends inside its
attribute, and the number is inside the other. -/
structure MsgBuf.Announces (m : MsgBuf) (id : UInt16) (name : List UInt8) : Prop where
  type : m.nlh.nlmsgType = genlIdCtrl
  cmd : m.bytes nlmsgHdrlen = ctrlCmdNewfamily
  number : ∃ na, m.HasAttr ctrlAttrFamilyId na ∧ 2 ≤ nlaLen m.bytes na ∧ nlaGetU16 m.bytes na = id
  string : ∃ na, m.HasAttr ctrlAttrFamilyName na ∧ (name ++ [0]) <+: nlaPayload m.bytes na

/-- A string ends at its first zero, whatever is behind. -/
theorem takeWhile_append_zero (str rest : List UInt8) :
    (str ++ 0 :: rest).takeWhile (· ≠ 0) = str.takeWhile (· ≠ 0) := by
  induction str with
  | nil => simp
  | cons c str ih =>
    rw [List.cons_append]
    by_cases hc : c = 0
    · simp [hc]
    · simp only [List.takeWhile_cons, ih]

/-- The string with its zero is in front of the bytes. -/
theorem takeWhile_zero_prefix (str rest : List UInt8) :
    str.takeWhile (· ≠ 0) ++ [0] <+: str ++ 0 :: rest := by
  induction str with
  | nil => exact ⟨rest, rfl⟩
  | cons c str ih =>
    by_cases hc : c = 0
    · subst hc
      exact ⟨str ++ 0 :: rest, rfl⟩
    · rw [List.takeWhile_cons_of_pos (by simpa using hc)]
      exact (List.prefix_cons_inj c).mpr ih

/-- A string of at most 16 bytes with a zero at the end is copied to its first zero. -/
theorem strncpyName_eq {mem : Nat → UInt8} {p k : Nat} (hk : k < genlNamsiz) (h0 : mem (p + k) = 0) :
    strncpyName mem p = (readMem mem p k).takeWhile (· ≠ 0) := by
  unfold genlNamsiz at hk
  show (readMem mem p 15).takeWhile (· ≠ 0) = _
  by_cases hlast : k = 15
  · rw [hlast]
  · have hone : readMem mem (p + k) 1 = [0] := by simp [readMem, h0]
    obtain ⟨j, hj⟩ : ∃ j, 15 = k + (1 + j) := ⟨14 - k, by omega⟩
    rw [hj, readMem_add, readMem_add, hone]
    exact takeWhile_append_zero _ _

/-- A name that ends within `GENL_NAMSIZ` is copied whole. -/
theorem strncpyName_prefix {mem : Nat → UInt8} {p k : Nat} (hk : k < genlNamsiz) (h0 : mem (p + k) = 0) :
    strncpyName mem p ++ [0] <+: readMem mem p (k + 1) := by
  have hone : readMem mem (p + k) 1 = [0] := by simp [readMem, h0]
  rw [strncpyName_eq hk h0, readMem_add, hone]
  exact takeWhile_zero_prefix _ _

/-- What an attribute that was validated has passed. -/
theorem validateNla_nonneg {mem : Nat → UInt8} {nla maxtype : Nat} {policy : Nat → NlaPolicy}
    (hpos : 0 < nlaType mem nla) (hmax : nlaType mem nla ≤ maxtype)
    (h : 0 ≤ validateNla mem nla maxtype policy) :
    (policy (nlaType mem nla)).lengthOk (nlaLen mem nla) = true
      ∧ ((policy (nlaType mem nla)).type = .string → mem (nlaLast mem nla) = 0) := by
  unfold validateNla at h
  dsimp only at h
  rw [if_neg (by omega)] at h
  split at h
  · exact absurd h (by decide)
  · next hlen =>
    refine ⟨by simpa using hlen, ?_⟩
    intro hstring
    split at h
    · exact absurd h (by decide)
    · next hlast => exact not_not.mp fun h0 => hlast ⟨hstring, h0⟩

/-- The bounds of a length that was accepted. -/
theorem lengthOk_bounds {pt : NlaPolicy} {len : Int} (h : pt.lengthOk len = true) :
    (pt.leastLen : Int) ≤ len ∧ (pt.maxlen ≠ 0 → len ≤ pt.maxlen) := by
  simp only [NlaPolicy.lengthOk, Bool.and_eq_true, Bool.not_eq_true', Bool.and_eq_false_iff,
    decide_eq_false_iff_not] at h
  obtain ⟨⟨-, hleast⟩, hmax⟩ := h
  refine ⟨Int.not_lt.mp hleast, ?_⟩
  intro hne
  rcases hmax with hzero | hlt
  · exact absurd hne hzero
  · exact Int.not_lt.mp hlt

/-- The attributes that the controller's messages are parsed into. -/
theorem nlmsgParse_entry {m : MsgBuf} {attrs : Nat → Option Nat}
    (h : nlmsgParse m genlHdrlen ctrlAttrMax ctrlPolicy = .ok attrs) {t na : Nat}
    (hna : attrs t = some na) :
    m.HasAttr t na ∧ (ctrlPolicy t).lengthOk (nlaLen m.bytes na) = true
      ∧ ((ctrlPolicy t).type = .string → m.bytes (nlaLast m.bytes na) = 0) := by
  unfold nlmsgParse at h
  split at h
  · cases h
  · next hlen =>
    have hoff : attrsOffset = nlmsgHdrlen + genlHdrlen := rfl
    have hfour : nlaAlign genlHdrlen = genlHdrlen := rfl
    have hattrs : (m.nlh.nlmsgLen : Int) - nlmsgHdrlen - nlaAlign genlHdrlen
        = ((m.nlh.nlmsgLen - attrsOffset : Nat) : Int) := by
      rw [hfour]
      omega
    rw [hattrs, hfour, ← hoff] at h
    rw [← nlaParseOr_eq_ok h] at hna
    obtain ⟨hpos, hmax, hty, hbehind, hlong, hinside, hvalid⟩ := nlaParse_entry hna
    have hchecked := validateNla_nonneg (by omega) (by omega) (hvalid ctrlPolicy rfl)
    rw [hty] at hchecked
    exact ⟨⟨hty, hbehind, hlong, by omega⟩, hchecked⟩

/-- The name that was validated ends inside its attribute. -/
theorem ctrlName_prefix {mem : Nat → UInt8} {na : Nat}
    (hlen : (ctrlPolicy ctrlAttrFamilyName).lengthOk (nlaLen mem na) = true)
    (hlast : mem (nlaLast mem na) = 0) :
    strncpyName mem (na + nlaHdrlen) ++ [0] <+: nlaPayload mem na := by
  obtain ⟨hlow, hhigh⟩ := lengthOk_bounds hlen
  replace hlow : (1 : Int) ≤ nlaLen mem na := hlow
  replace hhigh : nlaLen mem na ≤ genlNamsiz := hhigh (by decide)
  obtain ⟨k, hk⟩ : ∃ k : Nat, nlaLen mem na = k + 1 := ⟨(nlaLen mem na - 1).toNat, by omega⟩
  have hplace : nlaLast mem na = na + nlaHdrlen + k := by
    unfold nlaLast
    omega
  have hsize : (nlaLen mem na).toNat = k + 1 := by omega
  unfold nlaPayload
  rw [hsize]
  rw [hplace] at hlast
  exact strncpyName_prefix (by omega) hlast

/-- **What is parsed was announced.** -/
theorem nlCacheParse_announces {m : MsgBuf} {n : Nat} {s : Building}
    (h : nlCacheParse calloc m n = .ok s) : ∃ id name, m.Announces id name ∧ s.1.Named id name := by
  unfold nlCacheParse at h
  split at h
  · cases h
  · split at h
    · next htype =>
      split at h
      · next s' hparse =>
        obtain rfl := Except.ok.inj h
        unfold genlMsgParser at hparse
        dsimp only at hparse
        split at hparse
        · next hcmd =>
          obtain ⟨attrs, hattrs, hparse⟩ := bind_eq_ok hparse
          obtain ⟨naName, naId, hname, hid, hnamed⟩ := ctrlMsgParser_named hparse
          obtain ⟨hhas, hlen, -⟩ := nlmsgParse_entry hattrs hid
          obtain ⟨hhas', hlen', hlast⟩ := nlmsgParse_entry hattrs hname
          refine ⟨_, _, ⟨htype, hcmd, ⟨naId, hhas, ?_, rfl⟩, ⟨naName, hhas', ?_⟩⟩, hnamed⟩
          · exact (lengthOk_bounds hlen).1
          · exact ctrlName_prefix hlen' (hlast rfl)
        · split at hparse
          · cases hparse
          · cases hparse
      · cases h
    · cases h

end Sound

/-! What the callbacks keep on each message, `recvmsgs` keeps. -/

section Invariant

variable {σ : Type} {cb : RawCb σ} {P : σ → Prop}

/-- A callback that keeps `P` keeps it inside the loop. -/
theorem rawCbCall_invariant {f : Option (RawCallback σ)} {m : MsgBuf}
    (hf : ∀ g ∈ f, ∀ v, P v → P (g m v).2) {s : RawSock σ} (h : P s.val) :
    P (rawCbCall f m s).2.val := by
  cases f with
  | none => exact h
  | some g =>
    have hval := hf g rfl s.val h
    unfold rawCbCall
    dsimp only
    split
    · exact hval
    · split
      · exact hval
      · exact hval

/-- Both callbacks keep `P` on `m`. -/
def RawCb.Keeps (cb : RawCb σ) (P : σ → Prop) (m : MsgBuf) : Prop :=
  (∀ g ∈ cb.valid, ∀ v, P v → P (g m v).2) ∧ ∀ g ∈ cb.ack, ∀ v, P v → P (g m v).2

theorem recvRawMsg_invariant {m : MsgBuf} (hm : cb.Keeps P m) {s : RawSock σ} (h : P s.val) :
    P (recvRawMsg cb m s).2.val := by
  have hnext : P s.expectNext.val := h
  unfold recvRawMsg
  split_ifs
  · exact h
  · exact hnext
  · exact hnext
  · exact hnext
  · exact hnext
  · exact hnext
  · exact rawCbCall_invariant hm.2 hnext
  · exact rawCbCall_invariant hm.1 h

theorem recvRawDatagram_invariant {ms : List MsgBuf} (hms : ∀ m ∈ ms, cb.Keeps P m)
    {multipart : Bool} {s : RawSock σ} (h : P s.val) :
    P (recvRawDatagram cb ms multipart s).2.2.val := by
  induction ms generalizing multipart s with
  | nil => exact h
  | cons m ms ih =>
    have hval := recvRawMsg_invariant (hms m List.mem_cons_self) h
    unfold recvRawDatagram
    generalize recvRawMsg cb m s = r at hval ⊢
    obtain ⟨flow, s'⟩ := r
    cases flow with
    | next => exact ih (fun m' hm' => hms m' (List.mem_cons_of_mem m hm')) hval
    | stop => exact hval
    | out err => exact hval

/-- What holds at first and is kept on every message that is read holds when `recvmsgs` returns, whichever
way it does. -/
theorem recvRawmsgs_invariant {reads : List (Except Int Datagram)}
    (hreads : ∀ dg, .ok dg ∈ reads → ∀ m ∈ dg.messages, cb.Keeps P m) {multipart : Bool}
    {s : RawSock σ} (h : P s.val) : ∀ r ∈ recvRawmsgs cb reads multipart s, P r.2.val := by
  induction reads generalizing multipart s with
  | nil => exact fun _ hr => nomatch hr
  | cons read reads ih =>
    cases read with
    | error n =>
      rintro r ⟨⟩
      exact h
    | ok dg =>
      have hval : P (recvRawDatagram cb dg.messages multipart s).2.2.val :=
        recvRawDatagram_invariant (hreads dg List.mem_cons_self) h
      unfold recvRawmsgs
      generalize recvRawDatagram cb dg.messages multipart s = d at hval ⊢
      obtain ⟨ret, more, s'⟩ := d
      cases ret with
      | some err =>
        rintro r ⟨⟩
        exact hval
      | none =>
        cases more with
        | true => exact ih (fun dg' hdg' => hreads dg' (List.mem_cons_of_mem _ hdg')) hval
        | false =>
          rintro r ⟨⟩
          exact hval

end Invariant

/-- Every family in the cache was announced by a datagram that arrived. -/
def NlCache.From (calls : List Recvmsg) (cache : NlCache) : Prop :=
  ∀ f ∈ cache.items, ∃ dg, .datagram dg ∈ calls ∧ ∃ m ∈ dg.messages, ∃ id name,
    m.Announces id name ∧ f.Named id name

/-- The callback of the cache adds what a message announces, or nothing. -/
theorem updateMsgParser_from {calloc : Nat → Bool} {calls : List Recvmsg} {dg : Datagram}
    (hdg : .datagram dg ∈ calls) {m : MsgBuf} (hm : m ∈ dg.messages) {cache : NlCache}
    (h : cache.From calls) : (updateMsgParser calloc m cache).2.From calls := by
  unfold updateMsgParser
  split
  · exact h
  · next s hparse =>
    obtain ⟨id, name, hann, hnamed⟩ := nlCacheParse_announces hparse
    intro f hf
    rcases List.mem_append.mp hf with hf | hf
    · exact h f hf
    · rw [List.mem_singleton.mp hf]
      exact ⟨dg, hdg, m, hm, id, name, hann, hnamed⟩

/-- A cache that is filled has nothing but what arrived. -/
theorem nlCacheAllocAndFill_from {pageSize : Nat} {c : ConnectCalls} {calls : List Recvmsg} {seq : Nat}
    {cache : List GenlFamily} (h : nlCacheAllocAndFill pageSize c calls seq = some (.ok cache)) :
    ∀ f ∈ cache, ∃ dg, .datagram dg ∈ calls ∧ ∃ m ∈ dg.messages, ∃ id name,
      m.Announces id name ∧ f.Named id name := by
  unfold nlCacheAllocAndFill at h
  split_ifs at h with hnull hsend hclone
  · cases h
  · cases h
  · cases h
  obtain ⟨r, hrecv, hr⟩ := Option.map_eq_some_iff.mp h
  have hkeeps : ∀ dg, .ok dg ∈ nlRecvs pageSize pageSize calls → ∀ m ∈ dg.messages,
      RawCb.Keeps ⟨some (updateMsgParser c.calloc), none⟩ (NlCache.From calls) m := by
    intro dg hdg m hm
    refine ⟨?_, (fun _ hg => nomatch hg)⟩
    rintro g ⟨⟩ cache hcache
    exact updateMsgParser_from (datagram_of_mem_nlRecvs hdg).1 hm hcache
  have hempty : NlCache.From calls ⟨[], 0⟩ := fun _ hf => nomatch hf
  have hfrom := recvRawmsgs_invariant hkeeps
    (show NlCache.From calls (RawSock.val ⟨seq, ⟨[], 0⟩⟩) from hempty) r hrecv
  split_ifs at hr
  · rw [← Except.ok.inj hr]
    exact hfrom

/-- An error is negative, so that it is not taken for the number of a family. -/
theorem nlCacheAllocAndFill_error {pageSize : Nat} {c : ConnectCalls} {calls : List Recvmsg} {seq : Nat}
    {err : Int} (h : nlCacheAllocAndFill pageSize c calls seq = some (.error err)) : err < 0 := by
  unfold nlCacheAllocAndFill at h
  split_ifs at h with hnull hsend hclone
  · cases h
    decide
  · cases h
    exact hsend
  · cases h
    decide
  · obtain ⟨r, -, hr⟩ := Option.map_eq_some_iff.mp h
    split_ifs at hr with hneg
    · rw [← Except.error.inj hr]
      exact hneg

/-- **Resolving on bytes of any origin.** However the calls of `recvmsg` end, a number that is returned
stands in a message that arrived, which announces it together with the name. Bytes that were not received
change nothing. -/
theorem genl_ctrl_resolve_any_bytes (pageSize : Nat) (c : ConnectCalls) (calls : List Recvmsg)
    (seq : Nat) (name : List UInt8) :
    (∀ r : Int, genlCtrlResolve pageSize c calls seq name = some r → 0 ≤ r →
        ∃ id : UInt16, r = id.toNat
          ∧ ∃ dg, .datagram dg ∈ calls ∧ ∃ m ∈ dg.messages, m.Announces id name)
      ∧ ∀ calls', List.Forall₂ Recvmsg.Same calls calls' →
          genlCtrlResolve pageSize c calls' seq name = genlCtrlResolve pageSize c calls seq name := by
  refine ⟨?_, ?_⟩
  · intro r hr hnat
    obtain ⟨filled, hfill, hret⟩ := Option.map_eq_some_iff.mp hr
    cases filled with
    | error err =>
      have hneg := nlCacheAllocAndFill_error hfill
      dsimp only at hret
      omega
    | ok cache =>
      dsimp only at hret
      split at hret
      · subst hret
        exact absurd hnat (by decide)
      · next family hfind =>
        have hmem := List.mem_of_find?_eq_some hfind
        have hname : family.gfName = name := by simpa using List.find?_some hfind
        obtain ⟨dg, hdg, m, hm, id, name', hann, hnamed⟩ := nlCacheAllocAndFill_from hfill family hmem
        obtain rfl : name' = name := hnamed.gfName.symm.trans hname
        refine ⟨id, ?_, dg, hdg, m, hm, hann⟩
        rw [← hret, hnamed.getId]
        rfl
  · intro calls' hsame
    unfold genlCtrlResolve nlCacheAllocAndFill
    rw [nlRecvmsgs_congr pageSize _ hsame]

end Nf10
