import Nf10.Driver.Handlers
import Nf10.Lib.Runs

/-!
# Nf10 — registers behind a page window

`genl_cmd_reg_rd` and `genl_cmd_reg_wr`. The hardware shows one page of `2 ^ 18` words at a time,
the one whose number was last written to `pageWindow`; the two commands offer one address space of
32 bits on top of it. The window keeps its page from one command to the next, so a command may rely
on nothing it did not write itself.

* **`Flat`** — what the commands make of the hardware: a word for each address;
* **`paged_registers_flat`** — over any sequence of commands, served, refused or given up, an aligned
  read answers with the latest value written to its address, and a refused command leaves no trace.
-/

namespace Nf10

/-! ## The hardware

The registers behind BAR0: pages of a megabyte, one of which is in the window at a time. An access
goes to whatever page is in the window. -/

/-- Size of the window onto the registers in bytes (`OCCP_WORKER_CONFIG_SIZE`). -/
def occpWorkerConfigSize : UInt32 := 0x100000

/-- The registers: one word for each page and index. The hardware has 12 bits for the page. -/
structure RegFile where
  pageWindow : UInt32
  words : Nat × Nat → UInt32

namespace RegFile

/-- Where an access to `nf10_regs[i]` ends up. -/
def place (h : RegFile) (i : UInt32) : Nat × Nat :=
  (h.pageWindow.toNat % 2 ^ 12, i.toNat)

/-- Turns the page. -/
def setPageWindow (h : RegFile) (page : UInt32) : RegFile :=
  { h with pageWindow := page }

/-- A read of the word at index `i` of the window. -/
def load (h : RegFile) (i : UInt32) : UInt32 :=
  h.words (h.place i)

/-- A write to it. -/
def store (h : RegFile) (i val : UInt32) : RegFile :=
  { h with words := Function.update h.words (h.place i) val }

end RegFile

/-! ## The commands

`genl_cmd_reg_rd` and `genl_cmd_reg_wr`. Both set the page first, and neither can be interrupted by
the other: netlink commands are serialized. -/

/-- The error of an attribute that does not fit the reply. -/
def emsgsize : Int := -90

/-- What the netlink calls of a register command return. `tailroom` is the number of 32-bit
attributes that the reply has room for; `nla_put_u32` is `-EMSGSIZE` when there is none. -/
structure RegCalls where
  genlmsgNewNull : Bool
  genlmsgPutReplyNull : Bool
  tailroom : Nat
  genlmsgReply : Int
deriving DecidableEq, Repr

/-- The attributes `NF10_GENL_A_REGVAL32` and `NF10_GENL_A_ERRNO` of a reply. -/
structure RegReply where
  regval : Option UInt32
  errno : Int
deriving DecidableEq, Repr

/-- How a register command ends: its return value, the reply handed to the client, and the place of
the register it accessed. -/
structure RegResult where
  ret : Int
  reply : Option RegReply
  access : Option (Nat × Nat)
deriving DecidableEq, Repr

/-- From the label `send_error` on, with the room that is left in the reply. -/
def sendError (calls : RegCalls) (room : Nat) (regval : Option UInt32) (err : Int)
    (access : Option (Nat × Nat)) : RegResult :=
  if room = 0 then ⟨emsgsize, none, access⟩
  else if calls.genlmsgReply ≠ 0 then ⟨calls.genlmsgReply, none, access⟩
  else ⟨0, some ⟨regval, err⟩, access⟩

/-- `genl_cmd_reg_rd`. An address that is not a multiple of four is answered with the error -1. -/
def genlCmdRegRd (h : RegFile) (info : Option GenlInfo) (calls : RegCalls) :
    RegFile × RegResult :=
  match info with
  | none => (h, ⟨-22, none, none⟩)
  | some info =>
    if calls.genlmsgNewNull then (h, ⟨-12, none, none⟩)
    else if calls.genlmsgPutReplyNull then (h, ⟨0, none, none⟩)
    else
      match info.attrs .addr32 with
      | none => (h, sendError calls calls.tailroom none (-1) none)
      | some na =>
        let regAddr := load32 na.data
        let regAddrPage := regAddr / occpWorkerConfigSize
        let regAddrOffset := regAddr % occpWorkerConfigSize
        if regAddrOffset % 4 ≠ 0 then (h, sendError calls calls.tailroom none (-1) none)
        else
          let h := h.setPageWindow regAddrPage
          let regVal := h.load (regAddrOffset >>> 2)
          let access := some (h.place (regAddrOffset >>> 2))
          -- the value goes into the reply first, so it may take the last room
          if calls.tailroom = 0 then (h, sendError calls 0 none emsgsize access)
          else (h, sendError calls (calls.tailroom - 1) (some regVal) 0 access)

/-- `genl_cmd_reg_wr`, likewise. -/
def genlCmdRegWr (h : RegFile) (info : Option GenlInfo) (calls : RegCalls) :
    RegFile × RegResult :=
  match info with
  | none => (h, ⟨-22, none, none⟩)
  | some info =>
    if calls.genlmsgNewNull then (h, ⟨-12, none, none⟩)
    else if calls.genlmsgPutReplyNull then (h, ⟨0, none, none⟩)
    else
      match info.attrs .addr32 with
      | none => (h, sendError calls calls.tailroom none (-1) none)
      | some naAddr =>
        match info.attrs .regval32 with
        | none => (h, sendError calls calls.tailroom none (-1) none)
        | some naVal =>
          let regAddr := load32 naAddr.data
          let regAddrPage := regAddr / occpWorkerConfigSize
          let regAddrOffset := regAddr % occpWorkerConfigSize
          if regAddrOffset % 4 ≠ 0 then (h, sendError calls calls.tailroom none (-1) none)
          else
            let regVal := load32 naVal.data
            let h := h.setPageWindow regAddrPage
            let access := some (h.place (regAddrOffset >>> 2))
            (h.store (regAddrOffset >>> 2) regVal, sendError calls calls.tailroom none 0 access)

/-- A command with its request and with what the kernel answers to the calls on the way. -/
inductive RegCmd where
  | rd (info : Option GenlInfo) (calls : RegCalls)
  | wr (info : Option GenlInfo) (calls : RegCalls)

/-- The handler of the command. -/
def RegCmd.serve (h : RegFile) : RegCmd → RegFile × RegResult
  | .rd info calls => genlCmdRegRd h info calls
  | .wr info calls => genlCmdRegWr h info calls

/-- What the kernel answers. -/
def RegCmd.calls : RegCmd → RegCalls
  | .rd _ calls => calls
  | .wr _ calls => calls

/-- The registers after a command. -/
def RegFile.step (h : RegFile) (cmd : RegCmd) : RegFile :=
  (cmd.serve h).1

/-! ## The address space

Page and index of an address. On multiples of four this is a bijection, which is what makes the
pages look like one memory. -/

/-- A multiple of four, which is what the handlers check. -/
def Aligned (a : UInt32) : Prop := a.toNat % 4 = 0

instance (a : UInt32) : Decidable (Aligned a) :=
  inferInstanceAs (Decidable (_ = _))

/-- The page and the index that the commands take an address apart into. -/
def regPlace (a : UInt32) : Nat × Nat :=
  ((a / occpWorkerConfigSize).toNat, ((a % occpWorkerConfigSize) >>> 2).toNat)

/-- The divisions of the source as divisions of naturals. -/
theorem regPlace_eq (a : UInt32) : regPlace a = (a.toNat / 2 ^ 20, a.toNat % 2 ^ 20 / 4) := by
  simp [regPlace, occpWorkerConfigSize, Nat.shiftRight_eq_div_pow]

/-- Twelve bits of page, and eighteen of index. -/
theorem regPlace_lt (a : UInt32) : (regPlace a).1 < 2 ^ 12 ∧ (regPlace a).2 < 2 ^ 18 := by
  have ha : a.toNat < 2 ^ 32 := a.toNat_lt
  rw [regPlace_eq]
  constructor
  · show a.toNat / 2 ^ 20 < 2 ^ 12
    omega
  · show a.toNat % 2 ^ 20 / 4 < 2 ^ 18
    omega

theorem regPlace_injOn {a a' : UInt32} (ha : Aligned a) (ha' : Aligned a')
    (h : regPlace a = regPlace a') : a = a' := by
  unfold Aligned at ha ha'
  rw [regPlace_eq, regPlace_eq, Prod.mk.injEq] at h
  apply UInt32.toNat_inj.mp
  omega

/-- The handlers test the offset in the page, and that is as good as testing the address. -/
theorem offset_aligned_iff (a : UInt32) :
    a % occpWorkerConfigSize % 4 = 0 ↔ Aligned a := by
  unfold Aligned occpWorkerConfigSize
  rw [← UInt32.toNat_inj]
  simp only [UInt32.toNat_mod, UInt32.reduceToNat]
  omega

/-- Setting the window before the access makes the place that of the whole address: no page is cut
off by the 12 bits of the hardware. -/
theorem place_setPageWindow (h : RegFile) (a : UInt32) :
    (h.setPageWindow (a / occpWorkerConfigSize)).place ((a % occpWorkerConfigSize) >>> 2)
      = regPlace a := by
  have hpage : (a / occpWorkerConfigSize).toNat < 2 ^ 12 := (regPlace_lt a).1
  unfold RegFile.place RegFile.setPageWindow regPlace
  rw [Nat.mod_eq_of_lt hpage]

/-! ## What a command does

Each handler in two equations: what it does with a request that names a word, and with any other. -/

/-- The reply could be set up, so the command is carried out. -/
def RegCalls.prepared (calls : RegCalls) : Bool :=
  !calls.genlmsgNewNull && !calls.genlmsgPutReplyNull

/-- The reply could be set up, takes both attributes, and is sent. -/
def RegCalls.delivered (calls : RegCalls) : Bool :=
  calls.prepared && decide (2 ≤ calls.tailroom) && calls.genlmsgReply == 0

/-- The address a read asks for, if it is one to be served. -/
def regRdRequest (info : GenlInfo) : Option UInt32 :=
  match info.attrs .addr32 with
  | none => none
  | some na => if Aligned (load32 na.data) then some (load32 na.data) else none

/-- What a write asks for, if it is in order. -/
def regWrRequest (info : GenlInfo) : Option (UInt32 × UInt32) :=
  match info.attrs .addr32, info.attrs .regval32 with
  | some naAddr, some naVal =>
    if Aligned (load32 naAddr.data) then some (load32 naAddr.data, load32 naVal.data) else none
  | _, _ => none

theorem aligned_of_regRdRequest {info : GenlInfo} {a : UInt32} (h : regRdRequest info = some a) :
    Aligned a := by
  unfold regRdRequest at h
  split at h
  · cases h
  · split at h
    · next hal =>
      cases h
      exact hal
    · cases h

theorem aligned_of_regWrRequest {info : GenlInfo} {a v : UInt32}
    (h : regWrRequest info = some (a, v)) : Aligned a := by
  unfold regWrRequest at h
  split at h
  · split at h
    · next hal =>
      cases h
      exact hal
    · cases h
  · cases h

section Commands

variable {h : RegFile} {info : GenlInfo} {calls : RegCalls}

/-- A read that is in order: the page is turned, and the word is put into the reply if there is
room. -/
theorem genlCmdRegRd_served {a : UInt32} (hp : calls.prepared = true)
    (ha : regRdRequest info = some a) :
    genlCmdRegRd h (some info) calls
      = (h.setPageWindow (a / occpWorkerConfigSize),
          if calls.tailroom = 0 then sendError calls 0 none emsgsize (some (regPlace a))
          else sendError calls (calls.tailroom - 1) (some (h.words (regPlace a))) 0
            (some (regPlace a))) := by
  simp only [RegCalls.prepared, Bool.and_eq_true, Bool.not_eq_true'] at hp
  have hal := aligned_of_regRdRequest ha
  unfold regRdRequest at ha
  split at ha
  · cases ha
  · next na hna =>
    rw [if_pos (by split at ha <;> simp_all)] at ha
    cases ha
    have hoff : load32 na.data % occpWorkerConfigSize % 4 = 0 := (offset_aligned_iff _).mpr hal
    simp only [genlCmdRegRd, hp.1, hp.2, hna, hoff, RegFile.load, place_setPageWindow,
      Bool.false_eq_true, if_false, ne_eq, not_true_eq_false]
    split
    · rfl
    · rfl

/-- Any other read is answered with an error and touches nothing. -/
theorem genlCmdRegRd_refused (hp : calls.prepared = true) (ha : regRdRequest info = none) :
    genlCmdRegRd h (some info) calls = (h, sendError calls calls.tailroom none (-1) none) := by
  simp only [RegCalls.prepared, Bool.and_eq_true, Bool.not_eq_true'] at hp
  unfold regRdRequest at ha
  split at ha
  · next hna => simp [genlCmdRegRd, hp, hna]
  · next na hna =>
    split at ha
    · cases ha
    · next hal =>
      have hoff := mt (offset_aligned_iff _).mp hal
      simp [genlCmdRegRd, hp, hna, hoff]

/-- A write that is in order is carried out, whether its reply can be sent or not. -/
theorem genlCmdRegWr_served {a v : UInt32} (hp : calls.prepared = true)
    (ha : regWrRequest info = some (a, v)) :
    genlCmdRegWr h (some info) calls
      = ({ pageWindow := a / occpWorkerConfigSize
           words := Function.update h.words (regPlace a) v },
          sendError calls calls.tailroom none 0 (some (regPlace a))) := by
  simp only [RegCalls.prepared, Bool.and_eq_true, Bool.not_eq_true'] at hp
  have hal := aligned_of_regWrRequest ha
  unfold regWrRequest at ha
  split at ha
  · next naAddr naVal haddr hval =>
    rw [if_pos (by split at ha <;> simp_all)] at ha
    cases ha
    have hoff : load32 naAddr.data % occpWorkerConfigSize % 4 = 0 := (offset_aligned_iff _).mpr hal
    simp only [genlCmdRegWr, hp.1, hp.2, haddr, hval, hoff, RegFile.store, place_setPageWindow,
      Bool.false_eq_true, if_false, ne_eq, not_true_eq_false]
    rfl
  · cases ha

/-- Any other write is answered with an error and touches nothing. -/
theorem genlCmdRegWr_refused (hp : calls.prepared = true) (ha : regWrRequest info = none) :
    genlCmdRegWr h (some info) calls = (h, sendError calls calls.tailroom none (-1) none) := by
  simp only [RegCalls.prepared, Bool.and_eq_true, Bool.not_eq_true'] at hp
  cases haddr : info.attrs .addr32 with
  | none => simp [genlCmdRegWr, hp, haddr]
  | some naAddr =>
    cases hval : info.attrs .regval32 with
    | none => simp [genlCmdRegWr, hp, haddr, hval]
    | some naVal =>
      have hal : ¬ Aligned (load32 naAddr.data) := by
        intro hal
        simp [regWrRequest, haddr, hval, hal] at ha
      have hoff := mt (offset_aligned_iff _).mp hal
      simp [genlCmdRegWr, hp, haddr, hval, hoff]

/-- A command whose reply cannot be set up is given up before it looks at its attributes. -/
theorem serve_unprepared (h : RegFile) (info : Option GenlInfo) {calls : RegCalls}
    (hp : calls.prepared = false) :
    (genlCmdRegRd h info calls).1 = h ∧ (genlCmdRegWr h info calls).1 = h := by
  cases info with
  | none => exact ⟨rfl, rfl⟩
  | some info =>
    by_cases hnew : calls.genlmsgNewNull = true
    · simp [genlCmdRegRd, genlCmdRegWr, hnew]
    · have hput : calls.genlmsgPutReplyNull = true := by
        simpa [RegCalls.prepared, hnew] using hp
      simp [genlCmdRegRd, genlCmdRegWr, hnew, hput]

/-- A reply with room for it gets to the client. -/
theorem sendError_delivered (hd : calls.delivered = true) {room : Nat} (hroom : room ≠ 0)
    (regval : Option UInt32) (err : Int) (access : Option (Nat × Nat)) :
    sendError calls room regval err access = ⟨0, some ⟨regval, err⟩, access⟩ := by
  simp only [RegCalls.delivered, Bool.and_eq_true, beq_iff_eq] at hd
  simp [sendError, hroom, hd.2]

/-- What it takes for a reply to be delivered whole. -/
theorem RegCalls.delivered_spec (hd : calls.delivered = true) :
    calls.prepared = true ∧ 2 ≤ calls.tailroom ∧ calls.genlmsgReply = 0 := by
  simpa [RegCalls.delivered, and_assoc] using hd

end Commands

/-! ## The flat memory

What the registers are for: a word for each address. The page in the window is not part of it. -/

/-- What the commands present: a word for each address. -/
abbrev Flat := UInt32 → UInt32

/-- The address and the value that a command writes, if it writes. -/
def RegCmd.written : RegCmd → Option (UInt32 × UInt32)
  | .wr (some info) calls => if calls.prepared then regWrRequest info else none
  | _ => none

/-- A command on the flat memory: a write that is in order, or nothing. -/
def Flat.step (m : Flat) (cmd : RegCmd) : Flat :=
  match cmd.written with
  | some (a, v) => Function.update m a v
  | none => m

/-- The hardware holds the flat memory at its aligned addresses, whatever page the window is on. -/
def Refines (h : RegFile) (m : Flat) : Prop :=
  ∀ a, Aligned a → h.words (regPlace a) = m a

/-- What a command does to the words behind the window, whichever page is in it. -/
theorem step_words (h : RegFile) (cmd : RegCmd) :
    (h.step cmd).words
      = match cmd.written with
        | some (a, v) => Function.update h.words (regPlace a) v
        | none => h.words := by
  cases cmd with
  | rd info calls =>
    by_cases hp : calls.prepared = true
    · cases info with
      | none => rfl
      | some info =>
        simp only [RegFile.step, RegCmd.serve, RegCmd.written]
        cases ha : regRdRequest info with
        | none => rw [genlCmdRegRd_refused hp ha]
        | some a =>
          rw [genlCmdRegRd_served hp ha]
          rfl
    · simp only [RegFile.step, RegCmd.serve, RegCmd.written,
        (serve_unprepared h info (Bool.not_eq_true _ ▸ hp)).1]
  | wr info calls =>
    by_cases hp : calls.prepared = true
    · cases info with
      | none => rfl
      | some info =>
        simp only [RegFile.step, RegCmd.serve, RegCmd.written, hp, if_true]
        cases ha : regWrRequest info with
        | none => rw [genlCmdRegWr_refused hp ha]
        | some av => rw [genlCmdRegWr_served hp ha]
    · have hkept := (serve_unprepared h info (Bool.not_eq_true _ ▸ hp)).2
      cases info <;> simp [RegFile.step, RegCmd.serve, RegCmd.written, hkept, hp]

theorem aligned_of_written {cmd : RegCmd} {a v : UInt32} (h : cmd.written = some (a, v)) :
    Aligned a := by
  cases cmd with
  | rd info calls => cases h
  | wr info calls =>
    cases info with
    | none => cases h
    | some info =>
      simp only [RegCmd.written] at h
      split at h
      · exact aligned_of_regWrRequest h
      · cases h

/-- **The step lemma.** One command on either side. -/
theorem Refines.step {h : RegFile} {m : Flat} (hr : Refines h m) (cmd : RegCmd) :
    Refines (h.step cmd) (Flat.step m cmd) := by
  intro a ha
  rw [step_words]
  unfold Flat.step
  cases hw : cmd.written with
  | none => exact hr a ha
  | some av =>
    obtain ⟨a', v⟩ := av
    simp only
    by_cases haa : a = a'
    · subst haa
      rw [Function.update_self, Function.update_self]
    · -- distinct aligned addresses are distinct places
      have hplace : regPlace a ≠ regPlace a' := by
        intro heq
        exact haa (regPlace_injOn ha (aligned_of_written hw) heq)
      rw [Function.update_of_ne hplace, Function.update_of_ne haa]
      exact hr a ha

theorem Refines.run {h : RegFile} {m : Flat} (hr : Refines h m) (cmds : List RegCmd) :
    Refines (Runs.run RegFile.step h cmds) (Runs.run Flat.step m cmds) := by
  induction cmds generalizing h m with
  | nil => exact hr
  | cons cmd cmds ih => exact ih (hr.step cmd)

/-- The value of the latest command that wrote to `a`. -/
def lastWritten (cmds : List RegCmd) (a : UInt32) : Option UInt32 :=
  cmds.reverse.findSome? fun cmd =>
    cmd.written.bind fun av => if av.1 = a then some av.2 else none

/-- In a flat memory a word is what was last written to it. -/
theorem flat_run_eq (m : Flat) (cmds : List RegCmd) (a : UInt32) :
    Runs.run Flat.step m cmds a = (lastWritten cmds a).getD (m a) := by
  induction cmds using List.reverseRecOn with
  | nil => rfl
  | append_singleton cmds cmd ih =>
    rw [Runs.run_append]
    simp only [Runs.run_cons, Runs.run_nil, lastWritten, List.reverse_append, List.reverse_cons,
      List.reverse_nil, List.nil_append, List.singleton_append, List.findSome?_cons, Flat.step]
    cases hw : cmd.written with
    | none => exact ih
    | some av =>
      obtain ⟨a', v⟩ := av
      by_cases haa : a' = a
      · simp [haa]
      · simp only [Option.bind_some, haa, if_false]
        rw [Function.update_of_ne (Ne.symm haa)]
        exact ih

/-- The command is to be refused: it lacks an attribute, or its address is not aligned. -/
def RegCmd.Misfit : RegCmd → Prop
  | .rd info _ => ∃ i, info = some i
      ∧ (i.attrs .addr32 = none ∨ ∃ na, i.attrs .addr32 = some na ∧ ¬ Aligned (load32 na.data))
  | .wr info _ => ∃ i, info = some i
      ∧ (i.attrs .addr32 = none ∨ i.attrs .regval32 = none
        ∨ ∃ na, i.attrs .addr32 = some na ∧ ¬ Aligned (load32 na.data))

/-- A command that does not fit is not in order. -/
theorem RegCmd.Misfit.request_none {cmd : RegCmd} (hm : cmd.Misfit) :
    (∃ info calls, cmd = .rd (some info) calls ∧ regRdRequest info = none)
      ∨ ∃ info calls, cmd = .wr (some info) calls ∧ regWrRequest info = none := by
  cases cmd with
  | rd info calls =>
    obtain ⟨i, rfl, hnone | ⟨na, hna, hal⟩⟩ := hm
    · exact Or.inl ⟨i, calls, rfl, by simp [regRdRequest, hnone]⟩
    · exact Or.inl ⟨i, calls, rfl, by simp [regRdRequest, hna, hal]⟩
  | wr info calls =>
    obtain ⟨i, rfl, hnone | hnone | ⟨na, hna, hal⟩⟩ := hm
    · exact Or.inr ⟨i, calls, rfl, by simp [regWrRequest, hnone]⟩
    · exact Or.inr ⟨i, calls, rfl, by simp [regWrRequest, hnone]⟩
    · refine Or.inr ⟨i, calls, rfl, ?_⟩
      cases hval : i.attrs .regval32 <;> simp [regWrRequest, hna, hval, hal]

/-- It is answered with an error, and no register is touched. -/
theorem serve_misfit {cmd : RegCmd} (hm : cmd.Misfit) (h : RegFile) :
    (cmd.serve h).1 = h
      ∧ (cmd.calls.delivered = true → (cmd.serve h).2 = ⟨0, some ⟨none, -1⟩, none⟩) := by
  obtain ⟨info, calls, rfl, hnone⟩ | ⟨info, calls, rfl, hnone⟩ := hm.request_none
  · constructor
    · by_cases hp : calls.prepared = true
      · simp only [RegCmd.serve, genlCmdRegRd_refused hp hnone]
      · exact (serve_unprepared h (some info) (Bool.not_eq_true _ ▸ hp)).1
    · intro (hd : calls.delivered = true)
      obtain ⟨hp, hroom, _⟩ := RegCalls.delivered_spec hd
      simp only [RegCmd.serve, genlCmdRegRd_refused hp hnone]
      exact sendError_delivered hd (by omega) _ _ _
  · constructor
    · by_cases hp : calls.prepared = true
      · simp only [RegCmd.serve, genlCmdRegWr_refused hp hnone]
      · exact (serve_unprepared h (some info) (Bool.not_eq_true _ ▸ hp)).2
    · intro (hd : calls.delivered = true)
      obtain ⟨hp, hroom, _⟩ := RegCalls.delivered_spec hd
      simp only [RegCmd.serve, genlCmdRegWr_refused hp hnone]
      exact sendError_delivered hd (by omega) _ _ _

/-- **One flat address space.** After any sequence of commands: an aligned read that is answered
answers with the latest value written to its address, or the initial one, and `ERRNO` 0; a write
does not change what another aligned address holds; aligned addresses have distinct places of 12 and
18 bits; and a command without an attribute or with a misaligned address changes nothing, not even
the window, and is answered with `ERRNO` -1. -/
theorem paged_registers_flat (h₀ : RegFile) (cmds : List RegCmd) :
    (∀ (info : GenlInfo) (calls : RegCalls) (na : Nlattr), calls.delivered = true →
      info.attrs .addr32 = some na → Aligned (load32 na.data) →
      (genlCmdRegRd (Runs.run RegFile.step h₀ cmds) (some info) calls).2.reply
        = some ⟨some ((lastWritten cmds (load32 na.data)).getD
            (h₀.words (regPlace (load32 na.data)))), 0⟩)
    ∧ (∀ (cmd : RegCmd) (a a' v : UInt32), cmd.written = some (a', v) → Aligned a → a ≠ a' →
      ((Runs.run RegFile.step h₀ cmds).step cmd).words (regPlace a)
        = (Runs.run RegFile.step h₀ cmds).words (regPlace a))
    ∧ (∀ a, (regPlace a).1 < 2 ^ 12 ∧ (regPlace a).2 < 2 ^ 18)
    ∧ (∀ a a', Aligned a → Aligned a' → regPlace a = regPlace a' → a = a')
    ∧ ∀ cmd : RegCmd, cmd.Misfit →
      (Runs.run RegFile.step h₀ cmds).step cmd = Runs.run RegFile.step h₀ cmds
        ∧ (cmd.calls.delivered = true →
          (cmd.serve (Runs.run RegFile.step h₀ cmds)).2.reply = some ⟨none, -1⟩) := by
  have hinit : Refines h₀ fun a => h₀.words (regPlace a) := fun a _ => rfl
  have hrun := hinit.run cmds
  refine ⟨?_, ?_, regPlace_lt, fun a a' => regPlace_injOn, ?_⟩
  · intro info calls na hd hna hal
    obtain ⟨hp, hroom, _⟩ := RegCalls.delivered_spec hd
    have hreq : regRdRequest info = some (load32 na.data) := by
      simp [regRdRequest, hna, hal]
    rw [genlCmdRegRd_served hp hreq]
    simp only
    rw [if_neg (by omega), sendError_delivered hd (by omega), hrun _ hal, flat_run_eq]
  · intro cmd a a' v hw hal hne
    have hplace : regPlace a ≠ regPlace a' := by
      intro heq
      exact hne (regPlace_injOn hal (aligned_of_written hw) heq)
    rw [step_words, hw]
    exact Function.update_of_ne hplace _ _
  · intro cmd hm
    obtain ⟨hkept, hreply⟩ := serve_misfit hm (Runs.run RegFile.step h₀ cmds)
    exact ⟨hkept, fun hd => by rw [hreply hd]⟩

/-! ## Attributes of 32 bits

The attributes that carry an address or a value, in the byte order of the host. -/

/-- The attribute that `nla_put_u32` makes. -/
def nlaU32 (v : UInt32) : Nlattr where
  data i := (v >>> (8 * UInt32.ofNat i)).toUInt8
  len := 4

theorem load32_nlaU32 (v : UInt32) : load32 (nlaU32 v).data = v := by
  apply UInt32.toBitVec_inj.mp
  apply BitVec.eq_of_getLsbD_eq
  intro i hi
  have hbits : (load32 (nlaU32 v).data).toBitVec.getLsbD i
      = ((decide (i < 8) && v.toBitVec.getLsbD i)
        || (!decide (i < 8) && decide (i - 8 < 8) && v.toBitVec.getLsbD (8 + (i - 8)))
        || (!decide (i < 16) && decide (i - 16 < 8) && v.toBitVec.getLsbD (16 + (i - 16)))
        || (!decide (i < 24) && decide (i - 24 < 8) && v.toBitVec.getLsbD (24 + (i - 24)))) := by
    have h32 : ∀ k, i - k < 32 := fun k => by omega
    simp only [load32, nlaU32, UInt32.toBitVec_or, UInt32.toBitVec_shiftLeft,
      UInt8.toBitVec_toUInt32, UInt32.toBitVec_toUInt8, UInt32.toBitVec_shiftRight,
      BitVec.getLsbD_or]
    simp [hi, h32, Bool.and_assoc]
  rw [hbits]
  rcases Nat.lt_or_ge i 8 with h8 | h8
  · simp [h8, show i < 16 by omega, show i < 24 by omega]
  rcases Nat.lt_or_ge i 16 with h16 | h16
  · simp [show ¬ i < 8 by omega, h16, show i - 8 < 8 by omega, show i < 24 by omega,
      Nat.add_sub_of_le h8]
  rcases Nat.lt_or_ge i 24 with h24 | h24
  · simp [show ¬ i < 16 by omega, show ¬ i - 8 < 8 by omega, h24, show i - 16 < 8 by omega,
      Nat.add_sub_of_le h16]
  · simp [show ¬ i < 24 by omega, show ¬ i - 8 < 8 by omega, show ¬ i - 16 < 8 by omega, 
      show i - 24 < 8 by omega, Nat.add_sub_of_le h24]

/-- A 32-bit store to `p`, least significant byte first. -/
def store32 (mem : Nat → UInt8) (p : Nat) (v : UInt32) : Nat → UInt8 :=
  memcpy mem p (nlaU32 v).data 4

/-- A 32-bit load from `p`. -/
def load32At (mem : Nat → UInt8) (p : Nat) : UInt32 :=
  load32 fun k => mem (p + k)

section

variable {mem : Nat → UInt8} {p q a : Nat} {v : UInt32}

theorem store32_of_outside (h : a < p ∨ p + 4 ≤ a) : store32 mem p v a = mem a := by
  rcases h with h | h
  · exact memcpy_of_lt h
  · exact memcpy_of_ge h

theorem load32At_store32 : load32At (store32 mem p v) p = v := by
  have hbytes : ∀ k < 4, store32 mem p v (p + k) = (nlaU32 v).data k :=
    fun k hk => memcpy_add hk
  show load32 (fun k => store32 mem p v (p + k)) = v
  rw [load32_congr hbytes, load32_nlaU32]

theorem load32At_store32_of_apart (h : q + 4 ≤ p ∨ p + 4 ≤ q) :
    load32At (store32 mem p v) q = load32At mem q := by
  apply load32_congr
  intro k hk
  exact store32_of_outside (by omega)

end

/-- The message `nf10_reg_rd` sends. -/
def rdInfo (addr : UInt32) : GenlInfo where
  attrs
    | .addr32 => some (nlaU32 addr)
    | _ => none

/-- The message `nf10_reg_wr` sends. -/
def wrInfo (addr val : UInt32) : GenlInfo where
  attrs
    | .addr32 => some (nlaU32 addr)
    | .regval32 => some (nlaU32 val)
    | _ => none

/-- The request of a client for an address: in order if it names a word. -/
theorem regRdRequest_rdInfo (addr : UInt32) :
    regRdRequest (rdInfo addr) = if Aligned addr then some addr else none := by
  simp only [regRdRequest, rdInfo, load32_nlaU32]

theorem regWrRequest_wrInfo (addr val : UInt32) :
    regWrRequest (wrInfo addr val) = if Aligned addr then some (addr, val) else none := by
  simp only [regWrRequest, wrInfo, load32_nlaU32]

/-- The kernel refuses nothing. -/
def regCallsOk : RegCalls := ⟨false, false, 2, 0⟩

-- the last word of a page, the first of the next, and the last there is
example :
    (genlCmdRegRd (Runs.run RegFile.step ⟨0, fun _ => 0⟩
      [.wr (some (wrInfo 0x000ffffc 1)) regCallsOk, .wr (some (wrInfo 0x00100000 2)) regCallsOk,
        .wr (some (wrInfo 0xfffffffc 3)) regCallsOk, .wr (some (wrInfo 0x000ffffe 4)) regCallsOk])
      (some (rdInfo 0x000ffffc)) regCallsOk).2 = ⟨0, some ⟨some 1, 0⟩, some (0, 262143)⟩ := by
  decide +kernel

end Nf10
