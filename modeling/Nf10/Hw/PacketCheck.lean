import Nf10.Hw.PacketGen

/-!
# Nf10 — the packet checker of `nf10_axis_gen_check`

`check_p` of `nf10_axis_gen_check.vhd` takes the first word of a packet for its seed, compares each
further word with the rotated one before it, and after `C_CHECK_PKT_SIZE` words looks at
`S_AXIS_TLAST`: if it is there the packet is judged (`CHECK_FINISH`, one cycle in which no word is
looked at), if not it is an error and the rest of it is skipped (`CHECK_WAIT_LAST`). Before that word
`S_AXIS_TLAST` is not looked at, so a packet that is too short is not seen to end.

* **`CheckPhase`** — the registers against the packets taken so far, one clause per state;
* **`checkInv_step`** — kept by every cycle that ends no packet too early;
* **`longEnough_of_classified`** — and by no cycle that does;
* **`counts_delivered`** — on the generator's own stream nothing is counted as an error.
-/

namespace Nf10.GenCheck

open Framing Runs

variable {W : Nat}

/-! ## The process

`check_p`, with the counters apart from the state machine: `count_reset` overrides them in every
state, and changes nothing else. -/

/-- `check_state`: before a packet, about to count it, inside it, behind the end it should have
had. -/
inductive CheckState where
  | idle
  | finish
  | compare
  | waitLast
deriving DecidableEq, Repr

/-- The registers `check_p` drives. -/
structure Check (W : Nat) where
  checkState : CheckState
  checkWordNum : BitVec 16
  rxCount : BitVec 32
  errCount : BitVec 32
  ok : Bool
  pktRxBuf : BitVec W
deriving DecidableEq, Repr

/-- The inputs of the process; it has no `tready`. -/
structure CheckIn (W : Nat) where
  tdata : BitVec W
  tvalid : Bool
  tlast : Bool
  countReset : Bool
deriving DecidableEq, Repr

namespace Check

/-- `pkt_rx_buf` has no reset. -/
def reset (pktRxBuf : BitVec W) : Check W where
  checkState := .idle
  checkWordNum := 0
  rxCount := 0
  errCount := 0
  ok := true
  pktRxBuf := pktRxBuf

/-- The state machine, with `P` for `C_CHECK_PKT_SIZE`. -/
def next (P : Nat) (k : Check W) (c : CheckIn W) : Check W :=
  match k.checkState with
  | .idle =>
    if c.tvalid then
      { k with
        ok := true, pktRxBuf := c.tdata.rotateRight 1, checkWordNum := 0, checkState := .compare }
    else k
  | .compare =>
    if c.tvalid then
      let k' : Check W :=
        { k with
          pktRxBuf := k.pktRxBuf.rotateRight 1, checkWordNum := k.checkWordNum + 1,
          ok := if c.tdata = k.pktRxBuf then k.ok else false }
      if slvEq k.checkWordNum (P - 2) then
        if c.tlast then { k' with checkState := .finish }
        else { k' with ok := false, checkState := .waitLast }
      else k'
    else k
  | .finish =>
    if k.ok then { k with rxCount := k.rxCount + 1, checkState := .idle, ok := true }
    else { k with errCount := k.errCount + 1, checkState := .idle, ok := true }
  | .waitLast => if c.tlast && c.tvalid then { k with checkState := .finish } else k

/-- One clock edge: `count_reset` overrides the counters and nothing else. -/
def step (P : Nat) (k : Check W) (c : CheckIn W) : Check W :=
  if c.countReset then { k.next P c with rxCount := 0, errCount := 0 } else k.next P c

end Check

/-- The checker with the words it was given, and whether the last cycle brought a last word. -/
structure CheckSys (W : Nat) where
  check : Check W
  seen : List (BitVec W × Bool)
  justLast : Bool
deriving DecidableEq, Repr

namespace CheckSys

/-- After reset nothing has been seen. -/
def reset (pktRxBuf : BitVec W) : CheckSys W :=
  ⟨Check.reset pktRxBuf, [], false⟩

/-- A clock edge, with the word on record. -/
def step (P : Nat) (s : CheckSys W) (c : CheckIn W) : CheckSys W where
  check := s.check.step P c
  seen := if c.tvalid then s.seen ++ [(c.tdata, c.tlast)] else s.seen
  justLast := c.tvalid && c.tlast

/-- The packets it should have judged: all that have ended, but for one that ended in the last
cycle. -/
def judged (s : CheckSys W) : List (List (BitVec W)) :=
  if s.justLast then (packets s.seen).1.dropLast else (packets s.seen).1

/-- The words of the packet that has not ended. -/
def unfinished (s : CheckSys W) : List (BitVec W) :=
  (packets s.seen).2

end CheckSys

/-! ## What a packet should be

A packet is good if it is what the generator would have sent for its first word. Any seed is
allowed, so a packet of one word is always good as far as it goes. -/

/-- The packet has `n` words, each further one the first rotated by its position. -/
def isRotations (n : Nat) (p : List (BitVec W)) : Bool :=
  decide (p = rotations (p.headD 0) n)

theorem isRotations_eq_false {n : Nat} {p : List (BitVec W)} (h : p.length ≠ n) :
    isRotations n p = false := by
  apply decide_eq_false
  intro hp
  apply h
  rw [hp, length_rotations]

theorem isRotations_singleton (d : BitVec W) : isRotations 1 [d] = true := by
  apply decide_eq_true
  simp [rotations, rotateRight_zero]

/-- A further word does not change the first. -/
theorem headD_concat {p : List (BitVec W)} (hp : p ≠ []) (d : BitVec W) :
    (p ++ [d]).headD 0 = p.headD 0 := by
  cases p with
  | nil => exact absurd rfl hp
  | cons x p => rfl

/-- One word more: it has to be the first one rotated once more than the word before it. -/
theorem isRotations_concat {p : List (BitVec W)} (hp : p ≠ []) (d : BitVec W) :
    isRotations (p.length + 1) (p ++ [d]) =
      (isRotations p.length p && decide (d = (p.headD 0).rotateRight p.length)) := by
  rw [isRotations, headD_concat hp, rotations_succ, isRotations, ← Bool.decide_and, decide_eq_decide]
  constructor
  · intro h
    obtain ⟨h1, h2⟩ := List.append_inj h (by simp)
    exact ⟨h1, by simpa using h2⟩
  · rintro ⟨h1, h2⟩
    rw [← h1, h2]

theorem isRotations_rotations {n : Nat} (hn : 0 < n) (x : BitVec W) :
    isRotations n (rotations x n) = true := by
  have hhead : (rotations x n).headD 0 = x := by
    cases n with
    | zero => exact absurd hn (by decide)
    | succ n => simp [rotations, List.range_succ_eq_map, rotateRight_zero]
  rw [isRotations, hhead]
  exact decide_eq_true rfl

/-! ## The registers against the packets

The packets so far are computed from the words by `Framing.packets`, without looking at the checker.
In each state the registers say something about them, and a cycle takes one clause to the next as
long as no packet ends before word `P`. -/

/-- The two counters, for the packets `ps`. -/
def Counted (P : Nat) (k : Check W) (ps : List (List (BitVec W))) : Prop :=
  k.rxCount = BitVec.ofNat 32 (ps.countP (isRotations P))
    ∧ k.errCount = BitVec.ofNat 32 (ps.countP fun p => !isRotations P p)

/-- What the registers hold when `st` is the packets that have ended and the words of the one that has
not, and `last` says whether the last cycle ended one. -/
def CheckPhase (P : Nat) (k : Check W) (st : List (List (BitVec W)) × List (BitVec W))
    (last : Bool) : Prop :=
  match k.checkState with
  | .idle => st.2 = [] ∧ last = false ∧ Counted P k st.1
  | .compare =>
    st.2 ≠ [] ∧ st.2.length < P ∧ k.checkWordNum.toNat + 1 = st.2.length
      ∧ k.pktRxBuf = (st.2.headD 0).rotateRight st.2.length ∧ k.ok = isRotations st.2.length st.2
      ∧ last = false ∧ Counted P k st.1
  | .waitLast => P ≤ st.2.length ∧ k.ok = false ∧ last = false ∧ Counted P k st.1
  | .finish =>
    st.2 = [] ∧ last = true
      ∧ ∃ ps p, st.1 = ps ++ [p] ∧ k.ok = isRotations P p ∧ Counted P k ps

/-- The packets after a cycle. -/
def packetsAfter (st : List (List (BitVec W)) × List (BitVec W)) (c : CheckIn W) :
    List (List (BitVec W)) × List (BitVec W) :=
  if c.tvalid then push st (c.tdata, c.tlast) else st

section Step

variable {P : Nat} {k : Check W} {st : List (List (BitVec W)) × List (BitVec W)} {last : Bool}
  {c : CheckIn W}

theorem packetsAfter_quiet (hv : c.tvalid = false) : packetsAfter st c = st := by
  simp [packetsAfter, hv]

/-- A word that is not the last of its packet. -/
theorem packetsAfter_word (hv : c.tvalid = true) (hl : c.tlast = false) :
    packetsAfter st c = (st.1, st.2 ++ [c.tdata]) := by
  simp [packetsAfter, hv, hl]

theorem packetsAfter_last (hv : c.tvalid = true) (hl : c.tlast = true) :
    packetsAfter st c = (st.1 ++ [st.2 ++ [c.tdata]], []) := by
  simp [packetsAfter, hv, hl]

/-- A cycle of `CHECK_IDLE`: a first word becomes the seed. -/
theorem checkPhase_idle (hP : 2 ≤ P) (hst : k.checkState = .idle) (h : CheckPhase P k st last)
    (hlong : c.tvalid = true → c.tlast = true → P ≤ st.2.length + 1) :
    CheckPhase P (k.next P c) (packetsAfter st c) (c.tvalid && c.tlast) := by
  simp only [CheckPhase, hst] at h
  obtain ⟨hcur, _, hcount⟩ := h
  cases hv : c.tvalid with
  | false => simpa [CheckPhase, Check.next, packetsAfter, hst, hv] using ⟨hcur, hcount⟩
  | true =>
    have hl : c.tlast = false := by
      by_contra h
      have := hlong hv (by simpa using h)
      simp only [hcur, List.length_nil] at this
      omega
    have hnext : k.next P c =
        { k with
          ok := true, pktRxBuf := c.tdata.rotateRight 1, checkWordNum := 0,
          checkState := .compare } := by
      simp [Check.next, hst, hv]
    rw [packetsAfter_word hv hl, hcur, hnext, hl]
    exact ⟨List.cons_ne_nil _ _, hP, rfl, rfl, (isRotations_singleton _).symm, rfl, hcount⟩

/-- A cycle of `CHECK_FINISH`: the packet is counted, and no word may come. -/
theorem checkPhase_finish (hst : k.checkState = .finish) (h : CheckPhase P k st last)
    (hidle : last = true → c.tvalid = false) :
    CheckPhase P (k.next P c) (packetsAfter st c) (c.tvalid && c.tlast) := by
  simp only [CheckPhase, hst] at h
  obtain ⟨hcur, hlast, ps, p, hps, hok, hrx, herr⟩ := h
  have hv : c.tvalid = false := hidle hlast
  rw [packetsAfter_quiet hv, hv]
  cases hp : isRotations P p with
  | false =>
    have hnext : k.next P c = { k with errCount := k.errCount + 1, checkState := .idle, ok := true } := by
      simp [Check.next, hst, hok, hp]
    rw [hnext]
    refine ⟨hcur, rfl, ?_, ?_⟩
    · rw [hps, List.countP_append, List.countP_singleton, hp]
      exact hrx
    · rw [hps, List.countP_append, List.countP_singleton, hp, BitVec.ofNat_add, ← herr]
      rfl
  | true =>
    have hnext : k.next P c = { k with rxCount := k.rxCount + 1, checkState := .idle, ok := true } := by
      simp [Check.next, hst, hok, hp]
    rw [hnext]
    refine ⟨hcur, rfl, ?_, ?_⟩
    · rw [hps, List.countP_append, List.countP_singleton, hp, BitVec.ofNat_add, ← hrx]
      rfl
    · rw [hps, List.countP_append, List.countP_singleton, hp]
      exact herr

/-- A cycle of `CHECK_WAIT_LAST`: the packet is too long, and its end is awaited. -/
theorem checkPhase_waitLast (hst : k.checkState = .waitLast) (h : CheckPhase P k st last) :
    CheckPhase P (k.next P c) (packetsAfter st c) (c.tvalid && c.tlast) := by
  simp only [CheckPhase, hst] at h
  obtain ⟨hlen, hok, _, hcount⟩ := h
  cases hv : c.tvalid with
  | false => simpa [CheckPhase, Check.next, packetsAfter, hst, hv] using ⟨hlen, hok, hcount⟩
  | true =>
    cases hl : c.tlast with
    | false =>
      have hnext : k.next P c = k := by
        simp [Check.next, hst, hl]
      rw [packetsAfter_word hv hl, hnext, CheckPhase, hst]
      refine ⟨?_, hok, rfl, hcount⟩
      rw [List.length_append]
      omega
    | true =>
      have hnext : k.next P c = { k with checkState := .finish } := by
        simp [Check.next, hst, hv, hl]
      have hbad : isRotations P (st.2 ++ [c.tdata]) = false := by
        apply isRotations_eq_false
        rw [List.length_append, List.length_singleton]
        omega
      rw [packetsAfter_last hv hl, hnext]
      refine ⟨rfl, rfl, st.1, _, rfl, ?_, hcount⟩
      rw [hbad]
      exact hok

/-- In `CHECK_COMPARE` `ok` after a word says whether the words so far are rotations. -/
theorem ok_compare (hne : st.2 ≠ [])
    (hbuf : k.pktRxBuf = (st.2.headD 0).rotateRight st.2.length)
    (hok : k.ok = isRotations st.2.length st.2) :
    (if c.tdata = k.pktRxBuf then k.ok else false) =
      isRotations (st.2.length + 1) (st.2 ++ [c.tdata]) := by
  rw [isRotations_concat hne, ← hok, ← hbuf]
  by_cases h : c.tdata = k.pktRxBuf
  · rw [if_pos h, decide_eq_true h, Bool.and_true]
  · rw [if_neg h, decide_eq_false h, Bool.and_false]

/-- A cycle of `CHECK_COMPARE`: a word is compared, and `S_AXIS_TLAST` is looked at if it is word
`P`. -/
theorem checkPhase_compare (hP : 2 ≤ P) (hfit : P ≤ 2 ^ 16 + 1) (hst : k.checkState = .compare)
    (h : CheckPhase P k st last)
    (hlong : c.tvalid = true → c.tlast = true → P ≤ st.2.length + 1) :
    CheckPhase P (k.next P c) (packetsAfter st c) (c.tvalid && c.tlast) := by
  simp only [CheckPhase, hst] at h
  obtain ⟨hne, hlt, hnum, hbuf, hok, _, hcount⟩ := h
  cases hv : c.tvalid with
  | false =>
    have hnext : k.next P c = k := by
      simp [Check.next, hst, hv]
    rw [packetsAfter_quiet hv, hnext, CheckPhase, hst]
    exact ⟨hne, hlt, hnum, hbuf, hok, rfl, hcount⟩
  | true =>
    have hok' := ok_compare (c := c) hne hbuf hok
    have heq : slvEq k.checkWordNum (P - 2) = true ↔ st.2.length = P - 1 := by
      rw [slvEq_iff (by omega)]
      omega
    by_cases hend : st.2.length = P - 1
    · -- the word that should be the last one
      have hfull : st.2.length + 1 = P := by omega
      cases hl : c.tlast with
      | true =>
        have hnext : k.next P c =
            { k with
              pktRxBuf := k.pktRxBuf.rotateRight 1, checkWordNum := k.checkWordNum + 1,
              ok := if c.tdata = k.pktRxBuf then k.ok else false, checkState := .finish } := by
          simp [Check.next, hst, hv, hl, heq.mpr hend]
        rw [packetsAfter_last hv hl, hnext]
        refine ⟨rfl, rfl, st.1, _, rfl, ?_, hcount⟩
        rw [hok', hfull]
      | false =>
        have hnext : k.next P c =
            { k with
              pktRxBuf := k.pktRxBuf.rotateRight 1, checkWordNum := k.checkWordNum + 1,
              ok := false, checkState := .waitLast } := by
          simp [Check.next, hst, hv, hl, heq.mpr hend]
        rw [packetsAfter_word hv hl, hnext]
        refine ⟨?_, rfl, rfl, hcount⟩
        rw [List.length_append, List.length_singleton, hfull]
    · have hl : c.tlast = false := by
        by_contra h
        have := hlong hv (by simpa using h)
        omega
      have hnext : k.next P c =
          { k with
            checkState := .compare, pktRxBuf := k.pktRxBuf.rotateRight 1,
            checkWordNum := k.checkWordNum + 1,
            ok := if c.tdata = k.pktRxBuf then k.ok else false } := by
        simp [Check.next, hst, hv, heq.not.mpr hend]
      have hlen : (st.2 ++ [c.tdata]).length = st.2.length + 1 := by
        rw [List.length_append, List.length_singleton]
      rw [packetsAfter_word hv hl, hnext, hl]
      refine ⟨?_, ?_, ?_, ?_, ?_, rfl, hcount⟩
      · simp
      · rw [hlen]
        omega
      · rw [hlen]
        show (k.checkWordNum + 1).toNat + 1 = _
        rw [toNat_wordNum_succ (by omega), hnum]
      · rw [hlen, headD_concat hne, hbuf, rotateRight_succ]
      · rw [hlen, hok']

end Step

/-! ## Every packet is judged

The phase over whole runs. It is kept by every cycle that meets two conditions, one on the
surroundings and one on the packets, and it gives the counts. -/

/-- What the surroundings promise: the counters are not being reset, and after the last word of a
packet the next cycle brings no word. -/
def Fed (s : CheckSys W) (c : CheckIn W) : Prop :=
  c.countReset = false ∧ (s.justLast = true → c.tvalid = false)

/-- A packet that ends in this cycle has `P` words or more. -/
def LongEnough (P : Nat) (s : CheckSys W) (c : CheckIn W) : Prop :=
  c.tvalid = true → c.tlast = true → P ≤ s.unfinished.length + 1

instance (s : CheckSys W) (c : CheckIn W) : Decidable (Fed s c) :=
  inferInstanceAs (Decidable (_ ∧ (_ → _)))

instance (P : Nat) (s : CheckSys W) (c : CheckIn W) : Decidable (LongEnough P s c) :=
  inferInstanceAs (Decidable (_ → _ → _))

/-- **The packets that have ended are judged, each by itself.** `boundary` says that no packet is
judged together with words of another: wherever one ends, the checker is about to count it, and after
that waits for the first word of the next. -/
structure Classified (P : Nat) (s : CheckSys W) : Prop where
  rx : s.check.rxCount = BitVec.ofNat 32 (s.judged.countP (isRotations P))
  err : s.check.errCount = BitVec.ofNat 32 (s.judged.countP fun p => !isRotations P p)
  total : s.check.rxCount + s.check.errCount = BitVec.ofNat 32 s.judged.length
  boundary : s.unfinished = [] → s.check.checkState = if s.justLast then .finish else .idle

/-- The registers stand where the packets seen so far say. -/
def CheckInv (P : Nat) (s : CheckSys W) : Prop :=
  CheckPhase P s.check (packets s.seen) s.justLast

theorem checkInv_reset (P : Nat) (pktRxBuf : BitVec W) : CheckInv P (CheckSys.reset pktRxBuf) :=
  ⟨rfl, rfl, rfl, rfl⟩

section Run

variable {P : Nat} {s : CheckSys W} {c : CheckIn W}

/-- The packets after a cycle. -/
theorem packets_step : packets (s.step P c).seen = packetsAfter (packets s.seen) c := by
  rw [CheckSys.step, packetsAfter]
  cases c.tvalid with
  | false => rfl
  | true => exact packets_concat _ _

/-- Without a reset of the counters a cycle is one of the state machine. -/
theorem check_step (hc : c.countReset = false) : (s.step P c).check = s.check.next P c := by
  simp [CheckSys.step, Check.step, hc]

/-- A cycle keeps the invariant, if it ends no packet too early. -/
theorem checkInv_step (hP : 2 ≤ P) (hfit : P ≤ 2 ^ 16 + 1) (h : CheckInv P s) (hfed : Fed s c)
    (hlong : LongEnough P s c) : CheckInv P (s.step P c) := by
  unfold CheckInv at h ⊢
  rw [packets_step, check_step hfed.1]
  show CheckPhase P (s.check.next P c) _ (c.tvalid && c.tlast)
  cases hst : s.check.checkState with
  | idle => exact checkPhase_idle hP hst h hlong
  | finish => exact checkPhase_finish hst h hfed.2
  | compare => exact checkPhase_compare hP hfit hst h hlong
  | waitLast => exact checkPhase_waitLast hst h

/-- All that have ended are counted, or all but the one that ended in the last cycle. -/
theorem CheckInv.counted_or_finish (h : CheckInv P s) :
    (s.justLast = false ∧ s.check.checkState ≠ .finish ∧ Counted P s.check (packets s.seen).1)
      ∨ (s.justLast = true ∧ s.check.checkState = .finish
        ∧ Counted P s.check (packets s.seen).1.dropLast) := by
  unfold CheckInv at h
  cases hst : s.check.checkState with
  | idle =>
    simp only [CheckPhase, hst] at h
    exact Or.inl ⟨h.2.1, nofun, h.2.2⟩
  | finish =>
    simp only [CheckPhase, hst] at h
    obtain ⟨_, hlast, ps, p, hps, _, hcount⟩ := h
    rw [hps, List.dropLast_concat]
    exact Or.inr ⟨hlast, rfl, hcount⟩
  | compare =>
    simp only [CheckPhase, hst] at h
    obtain ⟨_, _, _, _, _, hlast, hcount⟩ := h
    exact Or.inl ⟨hlast, nofun, hcount⟩
  | waitLast =>
    simp only [CheckPhase, hst] at h
    exact Or.inl ⟨h.2.2.1, nofun, h.2.2.2⟩

theorem CheckInv.counted (h : CheckInv P s) : Counted P s.check s.judged := by
  rw [CheckSys.judged]
  rcases h.counted_or_finish with ⟨hlast, _, hcount⟩ | ⟨hlast, _, hcount⟩
  · rw [hlast]
    exact hcount
  · rw [hlast]
    exact hcount

/-- A packet has just ended exactly in `CHECK_FINISH`. -/
theorem CheckInv.justLast_eq (h : CheckInv P s) :
    s.justLast = decide (s.check.checkState = .finish) := by
  rcases h.counted_or_finish with ⟨hlast, hst, _⟩ | ⟨hlast, hst, _⟩
  · rw [hlast, decide_eq_false hst]
  · rw [hlast, decide_eq_true hst]

/-- Between packets the checker waits for one or counts one. -/
theorem CheckInv.boundary (hP : 2 ≤ P) (h : CheckInv P s) (hnil : s.unfinished = []) :
    s.check.checkState = if s.justLast then .finish else .idle := by
  rw [h.justLast_eq]
  unfold CheckInv at h
  unfold CheckSys.unfinished at hnil
  cases hst : s.check.checkState with
  | idle => rfl
  | finish => rfl
  | compare =>
    simp only [CheckPhase, hst] at h
    exact absurd hnil h.1
  | waitLast =>
    simp only [CheckPhase, hst, hnil, List.length_nil] at h
    omega

theorem CheckInv.classified (hP : 2 ≤ P) (h : CheckInv P s) : Classified P s where
  rx := h.counted.1
  err := h.counted.2
  total := by
    rw [h.counted.1, h.counted.2, ← BitVec.ofNat_add,
      List.length_eq_countP_add_countP (isRotations P)]
    simp
  boundary := h.boundary hP

/-- A packet that ends too early is not seen to end. -/
theorem longEnough_of_classified (hfit : P ≤ 2 ^ 16 + 1) (h : CheckInv P s) (hfed : Fed s c)
    (hstep : Classified P (s.step P c)) : LongEnough P s c := by
  intro hv hl
  by_contra hshort
  have hfinish : (s.check.next P c).checkState = .finish := by
    have hnil : (s.step P c).unfinished = [] := by
      rw [CheckSys.unfinished, packets_step, packetsAfter_last hv hl]
    have hjust : (s.step P c).justLast = true := by
      simp [CheckSys.step, hv, hl]
    rw [← check_step hfed.1, hstep.boundary hnil, hjust]
    rfl
  unfold CheckInv at h
  unfold CheckSys.unfinished at hshort
  cases hst : s.check.checkState with
  | idle => simp [Check.next, hst, hv] at hfinish
  | finish =>
    simp only [CheckPhase, hst] at h
    rw [hfed.2 h.2.1] at hv
    cases hv
  | compare =>
    simp only [CheckPhase, hst] at h
    obtain ⟨hne, hlt, hnum, _⟩ := h
    have heq : ¬ slvEq s.check.checkWordNum (P - 2) = true := by
      rw [slvEq_iff (by omega)]
      omega
    simp [Check.next, hst, hv, heq] at hfinish
  | waitLast =>
    simp only [CheckPhase, hst] at h
    omega

/-- **Which streams are judged right.** Under any gaps, the checker counts each packet once and in the
right counter, exactly when no packet has fewer words than the size it was built for. -/
theorem classified_iff_longEnough (hP : 2 ≤ P) (hfit : P ≤ 2 ^ 16 + 1) (pktRxBuf : BitVec W)
    {cs : List (CheckIn W)}
    (hfed : Along (CheckSys.step P) Fed (CheckSys.reset pktRxBuf) cs) :
    (∀ k, Classified P (run (CheckSys.step P) (CheckSys.reset pktRxBuf) (cs.take k)))
      ↔ Along (CheckSys.step P) (LongEnough P) (CheckSys.reset pktRxBuf) cs :=
  forall_take_safe_iff_along_of (fun _ h => h.classified hP)
    (fun _ _ h hfed hlong => checkInv_step hP hfit h hfed hlong)
    (fun _ _ h hfed hstep => longEnough_of_classified hfit h hfed hstep)
    (checkInv_reset P pktRxBuf) hfed

end Run

/-- Two packets of one word each for a checker of two-word packets, with gaps. -/
def shortPackets : List (CheckIn 8) :=
  [⟨0x01, true, true, false⟩, ⟨0, false, false, false⟩, ⟨0x80, true, true, false⟩,
    ⟨0, false, false, false⟩, ⟨0, false, false, false⟩]

/-- **A short packet is not told from the next one.** Neither of the two has two words, and the
checker counts one good packet and no bad one. -/
theorem short_packets_counted_as_one :
    Along (CheckSys.step 2) Fed (CheckSys.reset 0) shortPackets
      ∧ (run (CheckSys.step 2) (CheckSys.reset 0) shortPackets).judged = [[0x01], [0x80]]
      ∧ (run (CheckSys.step 2) (CheckSys.reset 0) shortPackets).check.rxCount = 1
      ∧ (run (CheckSys.step 2) (CheckSys.reset 0) shortPackets).check.errCount = 0
      ∧ ¬ Classified 2 (run (CheckSys.step 2) (CheckSys.reset 0) (shortPackets.take 5)) := by
  refine ⟨by decide, by decide, by decide, by decide, ?_⟩
  intro h
  have htotal := h.total
  revert htotal
  decide

/-- A good packet with a gap in it, and one that is too long. -/
def goodAndLong : List (CheckIn 8) :=
  [⟨0x01, true, false, false⟩, ⟨0, false, false, false⟩, ⟨0x80, true, true, false⟩,
    ⟨0, false, false, false⟩, ⟨0x01, true, false, false⟩, ⟨0x80, true, false, false⟩,
    ⟨0x40, true, true, false⟩, ⟨0, false, false, false⟩]

/-- The good packet is counted as good and the long one as an error, at every point of the run. -/
theorem classified_iff_longEnough_long :
    Along (CheckSys.step 2) Fed (CheckSys.reset 0) goodAndLong
      ∧ ∀ k, Classified 2 (run (CheckSys.step 2) (CheckSys.reset 0) (goodAndLong.take k)) := by
  have hlong : Along (CheckSys.step 2) (LongEnough 2) (CheckSys.reset 0) goodAndLong := by decide
  have hfed : Along (CheckSys.step 2) Fed (CheckSys.reset 0) goodAndLong := by decide
  exact ⟨hfed, (classified_iff_longEnough (by decide) (by decide) 0 hfed).mpr hlong⟩

/-! ## The generator's stream

The generator's packets all have `P` words, so on its stream the condition is met and every packet
is good. Here the stream is given by its words; how they get to the checker is another matter. -/

/-- The word of a cycle, if there is one. -/
def CheckIn.beat (c : CheckIn W) : List (BitVec W × Bool) :=
  if c.tvalid then [(c.tdata, c.tlast)] else []

/-- The words of a list of cycles. -/
def beats (cs : List (CheckIn W)) : List (BitVec W × Bool) :=
  cs.flatMap CheckIn.beat

/-- The word of this cycle, if there is one, is the next of the generator's stream. -/
def Follows (P : Nat) (s : CheckSys W) (c : CheckIn W) : Prop :=
  c.tvalid = true → (c.tdata, c.tlast) = genWord W P s.seen.length

section Delivered

variable {P : Nat} {s : CheckSys W} {c : CheckIn W} {cs : List (CheckIn W)}

theorem seen_step : (s.step P c).seen = s.seen ++ c.beat := by
  rw [CheckSys.step, CheckIn.beat]
  cases c.tvalid with
  | false => exact (List.append_nil _).symm
  | true => rfl

theorem seen_run (s : CheckSys W) (cs : List (CheckIn W)) :
    (run (CheckSys.step P) s cs).seen = s.seen ++ beats cs := by
  induction cs generalizing s with
  | nil => exact (List.append_nil _).symm
  | cons c cs ih => rw [run_cons, ih, seen_step, List.append_assoc, beats, beats, List.flatMap_cons]

/-- Delivered in order and unchanged, every word is the one that comes next. -/
theorem along_follows {n : Nat} (h : s.seen ++ beats cs <+: genStream W P n) :
    Along (CheckSys.step P) (Follows P) s cs := by
  induction cs generalizing s with
  | nil => trivial
  | cons c cs ih =>
    rw [beats, List.flatMap_cons, ← List.append_assoc] at h
    refine ⟨?_, ih (by rw [seen_step]; exact h)⟩
    intro hv
    have hword : (s.seen ++ c.beat)[s.seen.length]? = some (c.tdata, c.tlast) := by
      simp [CheckIn.beat, hv]
    have hpre : s.seen ++ c.beat <+: genStream W P n := (List.prefix_append _ _).trans h
    obtain ⟨t, ht⟩ := hpre
    obtain ⟨hlt, _⟩ := List.getElem?_eq_some_iff.mp hword
    rw [← List.getElem?_append_left hlt, ht] at hword
    exact getElem?_genStream hword

/-- On the generator's stream every packet ends where the checker looks for its end. -/
theorem longEnough_of_follows (hP : 2 ≤ P) (hs : s.seen = genStream W P s.seen.length)
    (hf : Follows P s c) : LongEnough P s c := by
  intro hv hl
  have hword := hf hv
  have hlast : s.seen.length % P = P - 1 := by
    have := congrArg Prod.snd hword
    rw [hl] at this
    exact of_decide_eq_true this.symm
  have hcur : s.unfinished = rotations (seedWord W) (s.seen.length % P) := by
    rw [CheckSys.unfinished, hs, packets_genStream (by omega), length_genStream]
  rw [hcur, length_rotations, hlast]
  omega

/-- What was the stream so far is the stream with one word more. -/
theorem seen_eq_genStream_step (hs : s.seen = genStream W P s.seen.length) (hf : Follows P s c) :
    (s.step P c).seen = genStream W P (s.step P c).seen.length := by
  rw [seen_step, CheckIn.beat]
  cases hv : c.tvalid with
  | false => simpa using hs
  | true =>
    rw [if_pos rfl, hf hv, List.length_append, List.length_singleton, genStream_succ, ← hs]

/-- Where the checker stands on the generator's stream. -/
theorem checkInv_delivered (hP : 2 ≤ P) (hfit : P ≤ 2 ^ 16 + 1) (pktRxBuf : BitVec W)
    (hfed : Along (CheckSys.step P) Fed (CheckSys.reset pktRxBuf) cs) {n : Nat}
    (hcs : beats cs <+: genStream W P n) :
    CheckInv P (run (CheckSys.step P) (CheckSys.reset pktRxBuf) cs) := by
  have hfollows : Along (CheckSys.step P) (Follows P) (CheckSys.reset pktRxBuf) cs :=
    along_follows hcs
  have hlong : Along (CheckSys.step P) (LongEnough P) (CheckSys.reset pktRxBuf) cs :=
    along_of_invariant (fun _ _ => seen_eq_genStream_step) (fun _ _ => longEnough_of_follows hP)
      rfl hfollows
  exact run_invariant (fun _ _ h hc => checkInv_step hP hfit h hc.1 hc.2)
    (checkInv_reset P pktRxBuf) (hfed.and hlong)

/-- A beginning of the stream is the stream of its length. -/
theorem isPrefix_genStream {l : List (BitVec W × Bool)} {n : Nat} (h : l <+: genStream W P n) :
    l = genStream W P l.length := by
  have hle : l.length ≤ n := by
    simpa using h.length_le
  rw [List.prefix_iff_eq_take.mp h, genStream, ← List.map_take, List.take_range]
  simp [genStream]

/-- On the generator's stream every packet is good. -/
theorem isRotations_of_mem_judged (hP : 0 < P) (hs : s.seen = genStream W P s.seen.length) :
    ∀ p ∈ s.judged, isRotations P p = true := by
  have hall : ∀ p ∈ (packets s.seen).1, isRotations P p = true := by
    intro p hp
    rw [hs, packets_genStream hP] at hp
    rw [List.eq_of_mem_replicate hp]
    exact isRotations_rotations hP _
  intro p hp
  rw [CheckSys.judged] at hp
  split at hp
  · exact hall p (List.mem_of_mem_dropLast hp)
  · exact hall p hp

theorem length_judged (h : CheckInv P s) :
    s.judged.length =
      (packets s.seen).1.length - if s.check.checkState = .finish then 1 else 0 := by
  rw [CheckSys.judged, h.justLast_eq]
  by_cases hst : s.check.checkState = .finish
  · rw [decide_eq_true hst, if_pos rfl, if_pos hst, List.length_dropLast]
  · rw [decide_eq_false hst, if_neg hst]
    rfl

/-- No false errors, and every packet counted but for the one in `CHECK_FINISH`. -/
theorem counts_delivered (hP : 2 ≤ P) (h : CheckInv P s)
    (hs : s.seen = genStream W P s.seen.length) :
    s.check.errCount = 0
      ∧ s.check.rxCount = BitVec.ofNat 32
        ((packets s.seen).1.length - if s.check.checkState = .finish then 1 else 0) := by
  have hgood := isRotations_of_mem_judged (by omega) hs
  obtain ⟨hrx, herr⟩ := h.counted
  constructor
  · have hnone : (s.judged.countP fun p => !isRotations P p) = 0 := by
      rw [List.countP_eq_zero]
      intro p hp
      simp [hgood p hp]
    rw [herr, hnone]
    rfl
  · rw [hrx, List.countP_eq_length.mpr hgood, length_judged h]

end Delivered

section Loop

variable {P IFG : Nat}

/-- **The generator sends its packets, and a checker behind it counts them.** `is` is any readiness of
the receiver and `cs` any delivery of what it has taken so far; that `GenSys.ready` is bounded by the
packets sent says that the generator never stops. -/
theorem gen_check_no_false_errors (hP : 2 ≤ P) (hI : 1 ≤ IFG) (hfit : P + IFG ≤ 2 ^ 16)
    (tdata pktTxBuf pktRxBuf : BitVec W) {is : List GenIn} (his : ∀ i ∈ is, i.countReset = false)
    {g : GenSys W} (hg : g = run (GenSys.step P IFG) (GenSys.reset tdata pktTxBuf) is) :
    g.sent = genStream W P g.sent.length
      ∧ g.gen.txCount = BitVec.ofNat 32 (packets g.sent).1.length
      ∧ g.ready < (P + IFG + 1) * ((packets g.sent).1.length + 2)
      ∧ ∀ cs : List (CheckIn W),
        Along (CheckSys.step P) Fed (CheckSys.reset pktRxBuf) cs → beats cs <+: g.sent →
        ∀ s, s = run (CheckSys.step P) (CheckSys.reset pktRxBuf) cs →
          s.check.errCount = 0
            ∧ s.check.rxCount = BitVec.ofNat 32
              ((packets (beats cs)).1.length - if s.check.checkState = .finish then 1 else 0) := by
  have hinv : GenInv P IFG g := by
    rw [hg]
    exact genInv_run hP hI hfit tdata pktTxBuf his
  have hpackets : (packets g.sent).1.length = g.sent.length / P := by
    rw [hinv.sent_eq, packets_genStream (by omega), length_genStream, List.length_replicate]
  refine ⟨hinv.sent_eq, ?_, ?_, ?_⟩
  · rw [hpackets]
    exact hinv.txCount_eq
  · rw [hpackets]
    exact hinv.ready_lt hP
  · intro cs hfed hcs s hs
    rw [hinv.sent_eq] at hcs
    have hseen : s.seen = beats cs := by
      rw [hs, seen_run]
      rfl
    have hcheck : CheckInv P s := by
      rw [hs]
      exact checkInv_delivered hP (by omega) pktRxBuf hfed hcs
    rw [← hseen]
    apply counts_delivered hP hcheck
    rw [hseen]
    exact isPrefix_genStream hcs

end Loop

/-- One packet of the generator, with a gap in it. -/
def onePacket : List (CheckIn 8) :=
  [⟨0xEF, true, false, false⟩, ⟨0, false, false, false⟩, ⟨0xF7, true, true, false⟩,
    ⟨0, false, false, false⟩]

/-- A packet of two words is counted as good. -/
theorem gen_check_no_false_errors_one_packet :
    beats onePacket <+:
        (run (GenSys.step 2 1) (GenSys.reset 0 0) (List.replicate 6 ⟨true, false⟩)).sent
      ∧ (run (CheckSys.step 2) (CheckSys.reset 0) onePacket).check.errCount = 0
      ∧ (run (CheckSys.step 2) (CheckSys.reset 0) onePacket).check.rxCount = 1 := by
  have hsent : beats onePacket <+:
      (run (GenSys.step 2 1) (GenSys.reset 0 0) (List.replicate 6 ⟨true, false⟩)).sent := by decide
  have hquiet : ∀ i ∈ List.replicate 6 (⟨true, false⟩ : GenIn), i.countReset = false := by decide
  have hfit : 2 + 1 ≤ 2 ^ 16 := by decide
  obtain ⟨_, _, _, hloop⟩ :=
    gen_check_no_false_errors (le_refl 2) (le_refl 1) hfit (0 : BitVec 8) 0 0 hquiet rfl
  obtain ⟨herr, hrx⟩ := hloop onePacket (by decide) hsent _ rfl
  exact ⟨hsent, herr, hrx.trans (by decide)⟩

end Nf10.GenCheck
