import Mathlib.Algebra.Ring.Nat
import Nf10.Hw.RxStream

/-!
# Nf10 — room for an admitted frame

`rx_queue` looks at `almost_full` at the first word of a frame and not again, so a frame is admitted
with 129 free places at least and needs one place a word and one for the word that closes it.

* **`rx_admission_iff`** — with an exact `ALMOSTFULL`, the data FIFO is never written while full in
  any run of frames up to `b` bytes exactly when `b ≤ 128 * lanes`: 1024 bytes in the 10G core, 128
  in the 1G core;
* **`rx_overflow`** — a reader that stalls and frames within the Ethernet maximum overflow the FIFO.
-/

namespace Nf10.Hw

open Framing

variable {p : Port}

/-- The bytes of a frame: all but the last word are full. -/
def MacFrame.byteLength (f : MacFrame p) : Nat :=
  p.lanes * f.rest.length + (f.words.getLast f.words_ne_nil).validBytes

/-- Every frame offered has at most `b` bytes. -/
def FramesWithin (b : Nat) : RxStep p → Prop
  | .mac c => ∀ f ∈ c.offer, f.byteLength ≤ b
  | _ => True

theorem FramesWithin.mono {b b' : Nat} {e : RxStep p} (h : FramesWithin b e) (hb : b ≤ b') :
    FramesWithin b' e := by
  cases e with
  | mac c => exact fun f hf => Nat.le_trans (h f hf) hb
  | axi i => trivial
  | syncData => trivial
  | syncInfo => trivial

theorem Word.validBytes_pos {w : Word p} (h : w.strb ≠ 0) : 0 < w.validBytes := by
  obtain ⟨i, hi⟩ : ∃ i, w.strb.getLsbD i = true := by
    by_contra hnone
    apply h
    apply BitVec.eq_of_getLsbD_eq
    intro i _
    simpa using fun hi => hnone ⟨i, hi⟩
  apply List.countP_pos_iff.mpr
  refine ⟨i, ?_, hi⟩
  rw [List.mem_range]
  exact BitVec.lt_of_getLsbD hi

theorem Word.validBytes_full (data : BitVec (8 * p.lanes)) :
    (Word.full data).validBytes = p.lanes := by
  unfold Word.validBytes
  rw [List.countP_eq_length.mpr, List.length_range]
  intro i hi
  simpa [Word.full] using hi

/-- A frame of at most `k` words' bytes has at most `k` words. -/
theorem MacFrame.words_length_le {f : MacFrame p} {k : Nat} (h : f.byteLength ≤ k * p.lanes) :
    f.words.length ≤ k := by
  have hlast : f.words.getLast f.words_ne_nil ∈ f.words := List.getLast_mem _
  have hpos : 0 < (f.words.getLast f.words_ne_nil).validBytes := by
    apply Word.validBytes_pos
    simpa [Word.isEnd] using f.isEnd_of_mem _ hlast
  have hlt : p.lanes * f.rest.length < p.lanes * k := by
    rw [Nat.mul_comm p.lanes k]
    unfold MacFrame.byteLength at h
    omega
  exact Nat.lt_of_mul_lt_mul_left hlt

/-! ## Frames that fit

`almost_full` is looked at once, so what it promised has to last for the whole frame: when it was
low there were 129 places free, and only this frame is written until its end. The invariant sets the
places aside, and each word takes one of them. -/

/-- With `almost_full` low there are more than 128 places. -/
theorem RxFlagsExact.free_of_low {s : RxBench p} {c : MacCycle p} (h : RxFlagsExact s (.mac c))
    (hlow : c.fifoAlmostFull = false) :
    s.queue.rxFifo.count + almostFullOffset < p.rxFifoDepth := by
  have hflag : c.fifoAlmostFull
      = decide (p.rxFifoDepth ≤ s.queue.rxFifo.count + almostFullOffset) := h
  rw [hlow] at hflag
  exact Nat.lt_of_not_le (of_decide_eq_false hflag.symm)

/-- The invariant: an admitted frame finds room for its words still to come and the word that closes
it. -/
structure RxRoomInv (s : RxBench p) : Prop where
  stream : RxStreamInv s
  room : s.queue.state = .waitForEop →
    s.queue.rxFifo.count + s.mac.current.length + 1 ≤ p.rxFifoDepth

namespace RxRoomInv

variable {s : RxBench p}

theorem fits (h : RxRoomInv s) {e : RxStep p} (hexact : RxFlagsExact s e) : RxFits s e := by
  cases e with
  | axi i => trivial
  | syncData => trivial
  | syncInfo => trivial
  | mac c =>
    intro hwr
    cases hst : s.queue.state with
    -- places for the words to come are set aside
    | waitForEop =>
      have := h.room hst
      omega
    | drop =>
      simp only [RxBench.writes, hst, rxWrite] at hwr
      split at hwr <;> cases hwr
    | idle =>
      simp only [RxBench.writes, hst, rxWrite] at hwr
      split at hwr
      · -- a first word is written only with `almost_full` low
        have hlow : c.fifoAlmostFull = false := by
          cases hf : c.fifoAlmostFull with
          | false => rfl
          | true => simp [hf] at hwr
        have hfree := RxFlagsExact.free_of_low hexact hlow
        omega
      · cases hwr

theorem reset (axis : Word p) : RxRoomInv (RxBench.reset axis) :=
  ⟨RxStreamInv.reset axis, fun h => by cases h⟩

theorem count_write_le (s : RxBench p) (c : MacCycle p) :
    (s.macStep c).queue.rxFifo.count ≤ s.queue.rxFifo.count + 1 := by
  rw [s.macStep_rxFifo c]
  split
  · cases s.queue.fifoFull with
    | true => simp
    | false => simp [AsyncFifo.count]
  · exact Nat.le_succ _

/-- A cycle of the MAC clock: a frame that is admitted gets its places, and one under way uses
one. -/
theorem macStep (h : RxRoomInv s) {k : Nat} (hk : k ≤ almostFullOffset) (c : MacCycle p)
    (hexact : RxFlagsExact s (.mac c)) (hwithin : FramesWithin (k * p.lanes) (.mac c)) :
    RxRoomInv (s.macStep c) := by
  refine ⟨h.stream.macStep c (h.fits hexact), ?_⟩
  intro hst
  rw [s.macStep_state c] at hst
  have hcount := count_write_le s c
  obtain ⟨written, popped, _, hw, _, _⟩ := h.stream
  obtain ⟨w, rest, hcur, hnext⟩ | ⟨f, hcur, hsp, hoffer, hnext⟩ | ⟨hcur, hnext⟩ :=
    s.mac.next_cases c.offer c.idleData
  · -- a word of the frame under way
    have hwait : s.queue.state = .waitForEop := by
      obtain ⟨hidle, _, _⟩ | ⟨hwait, _⟩ := rxWrite_eq_waitForEop hst
      · rw [hidle] at hw
        simp [hw.current_of_idle] at hcur
      · exact hwait
    have hroom := h.room hwait
    have hrest : (s.macStep c).mac.current = rest := by
      simp [RxBench.macStep, hnext]
    rw [hcur, List.length_cons] at hroom
    rw [hrest]
    omega
  · -- the first word of a frame: at least 129 places are free
    have hidle := hw.state_of_spaced hsp
    have hrest : (s.macStep c).mac.current = f.rest := by
      simp [RxBench.macStep, hnext]
    have hlow : c.fifoAlmostFull = false := by
      obtain ⟨_, _, hlow⟩ | ⟨hwait, _⟩ := rxWrite_eq_waitForEop hst
      · exact hlow
      · rw [hidle] at hwait
        cases hwait
    have hfree := RxFlagsExact.free_of_low hexact hlow
    have hlen : f.rest.length + 1 ≤ k := MacFrame.words_length_le (hwithin f hoffer)
    rw [hrest]
    omega
  · -- without data the queue does not go on waiting
    rw [hnext] at hst
    obtain ⟨_, hfull, _⟩ | ⟨_, hne⟩ := rxWrite_eq_waitForEop hst
    · exact absurd hfull.symm p.allOnes_ne_zero
    · exact absurd rfl hne

theorem step (h : RxRoomInv s) {k : Nat} (hk : k ≤ almostFullOffset) (e : RxStep p)
    (hexact : RxFlagsExact s e) (hwithin : FramesWithin (k * p.lanes) e) :
    RxRoomInv (s.step e) := by
  cases e with
  | mac c => exact h.macStep hk c hexact hwithin
  | axi i =>
    refine ⟨h.stream.axiStep i, ?_⟩
    intro hst
    have hroom := h.room hst
    have hcount : (s.queue.axiEdge i).rxFifo.count ≤ s.queue.rxFifo.count := by
      simp only [RxQueue.axiEdge]
      split
      · exact AsyncFifo.count_read_le _
      · exact Nat.le_refl _
    show (s.queue.axiEdge i).rxFifo.count + s.mac.current.length + 1 ≤ p.rxFifoDepth
    omega
  | syncData =>
    refine ⟨h.stream.step .syncData trivial, ?_⟩
    simpa [RxBench.step, AsyncFifo.count] using h.room
  | syncInfo => exact ⟨h.stream.step .syncInfo trivial, h.room⟩

end RxRoomInv

/-! ## Frames fed to a reader that stalls

Runs of MAC cycles alone, each with the exact flag of the count it finds. -/

/-- `ALMOSTFULL` of a FIFO with `count` words in it. -/
def exactFlag (p : Port) (count : Nat) : Bool :=
  decide (p.rxFifoDepth ≤ count + almostFullOffset)

/-- A cycle of the MAC clock without a verdict. -/
def quietCycle (count : Nat) (offer : Option (MacFrame p)) : RxStep p :=
  .mac ⟨offer, 0, false, exactFlag p count, false⟩

/-- Cycles in which the MAC goes on with what it has begun. -/
def wordCycles : Nat → Nat → List (RxStep p)
  | _, 0 => []
  | count, k + 1 => quietCycle count none :: wordCycles (count + 1) k

/-- The cycles of one frame, with the one behind it that closes it. -/
def frameCycles (count : Nat) (f : MacFrame p) : List (RxStep p) :=
  quietCycle count (some f) :: wordCycles (count + 1) (f.rest.length + 1)

/-- The cycles of frames one after the other, with the count that each finds. -/
def feedCycles : Nat → List (MacFrame p) → List (RxStep p)
  | _, [] => []
  | count, f :: fs => frameCycles count f ++ feedCycles (count + f.words.length + 1) fs

/-- The places frames take in the FIFO. -/
def places (fs : List (MacFrame p)) : Nat :=
  (fs.map fun f => f.words.length + 1).sum

/-- What frames leave in the FIFO. -/
def stored (fs : List (MacFrame p)) : List (Word p) :=
  fs.flatMap fun f => f.words ++ [⟨0, 0⟩]

theorem length_stored (fs : List (MacFrame p)) : (stored fs).length = places fs := by
  simp [stored, places, List.length_flatMap]

namespace RxBench

/-- The bench after writes: `words` more in the FIFO, and `admitted` more on record. -/
def fed (s : RxBench p) (state : RxState) (words : List (Word p)) (mac : Mac p)
    (admitted : List (MacFrame p)) : RxBench p :=
  { s with
    queue := { s.queue with
      state := state
      rxFifo := { s.queue.rxFifo with inFlight := s.queue.rxFifo.inFlight ++ words } }
    mac := mac
    admitted := s.admitted ++ admitted }

variable {s : RxBench p} {owed : List Bool} {count : Nat}

@[simp] theorem fed_fed (state state' : RxState) (ws ws' : List (Word p)) (m m' : Mac p)
    (fs fs' : List (MacFrame p)) :
    (s.fed state ws m fs).fed state' ws' m' fs' = s.fed state' (ws ++ ws') m' (fs ++ fs') := by
  simp [fed]

@[simp] theorem fed_state (state : RxState) (ws : List (Word p)) (m : Mac p)
    (fs : List (MacFrame p)) : (s.fed state ws m fs).queue.state = state := rfl

@[simp] theorem fed_mac (state : RxState) (ws : List (Word p)) (m : Mac p)
    (fs : List (MacFrame p)) : (s.fed state ws m fs).mac = m := rfl

@[simp] theorem fed_count (state : RxState) (ws : List (Word p)) (m : Mac p)
    (fs : List (MacFrame p)) :
    (s.fed state ws m fs).queue.rxFifo.count = s.queue.rxFifo.count + ws.length := by
  simp [fed, AsyncFifo.count, AsyncFifo.contents]
  omega

/-- A cycle with the exact flag, and room for a word. -/
theorem exactCycle_ok (hcount : s.queue.rxFifo.count = count) (hroom : count < p.rxFifoDepth)
    (offer : Option (MacFrame p)) (pulse : Bool) :
    RxFlagsExact s (.mac ⟨offer, 0, pulse, exactFlag p count, false⟩)
      ∧ RxFits s (.mac ⟨offer, 0, pulse, exactFlag p count, false⟩) :=
  ⟨by simp [RxFlagsExact, exactFlag, hcount], fun _ => hcount ▸ hroom⟩

/-- The first word of a frame, with `almost_full` low. -/
theorem step_first (hst : s.queue.state = .idle) (hmac : s.mac = ⟨[], true, owed⟩)
    (hcount : s.queue.rxFifo.count = count) (hfree : count + almostFullOffset < p.rxFifoDepth)
    (f : MacFrame p) :
    s.step (quietCycle count (some f))
      = s.fed .waitForEop [Word.full f.first] ⟨f.rest, false, owed ++ [f.bad]⟩ [f] := by
  have hlow : exactFlag p count = false := decide_eq_false (by omega)
  have hnotFull : s.queue.fifoFull = false := decide_eq_false (by omega)
  simp [step, quietCycle, macStep, macIn, verdict?, RxQueue.macEdge, rxWrite, Mac.next, fed,
    AsyncFifo.write, Word.full, hst, hmac, hlow, hnotFull]

theorem step_word {w : Word p} {more : List (Word p)} (hst : s.queue.state = .waitForEop)
    (hmac : s.mac = ⟨w :: more, false, owed⟩) (hw : w.strb ≠ 0)
    (hcount : s.queue.rxFifo.count = count) (hroom : count < p.rxFifoDepth) :
    s.step (quietCycle count none) = s.fed .waitForEop [w] ⟨more, false, owed⟩ [] := by
  have hnotFull : s.queue.fifoFull = false := decide_eq_false (by omega)
  have hw' : ¬ w.strb = 0#p.lanes := hw
  simp [step, quietCycle, macStep, macIn, verdict?, RxQueue.macEdge, rxWrite, Mac.next, fed,
    AsyncFifo.write, hst, hmac, hw', hnotFull]

theorem step_end (hst : s.queue.state = .waitForEop) (hmac : s.mac = ⟨[], false, owed⟩)
    (hcount : s.queue.rxFifo.count = count) (hroom : count < p.rxFifoDepth) :
    s.step (quietCycle count none) = s.fed .idle [⟨0, 0⟩] ⟨[], true, owed⟩ [] := by
  have hnotFull : s.queue.fifoFull = false := decide_eq_false (by omega)
  simp [step, quietCycle, macStep, macIn, verdict?, RxQueue.macEdge, rxWrite, Mac.next, fed,
    AsyncFifo.write, hst, hmac, hnotFull]

/-- Any number of further words. The induction is on them. -/
theorem run_words (ws : List (Word p)) {more : List (Word p)} (hst : s.queue.state = .waitForEop)
    (hmac : s.mac = ⟨ws ++ more, false, owed⟩) (hws : ∀ w ∈ ws, w.strb ≠ 0)
    (hcount : s.queue.rxFifo.count = count) (hroom : count + ws.length ≤ p.rxFifoDepth) :
    Runs.run step s (wordCycles count ws.length) = s.fed .waitForEop ws ⟨more, false, owed⟩ []
      ∧ Runs.Along step (fun s e => RxFlagsExact s e ∧ RxFits s e) s
        (wordCycles count ws.length) := by
  -- one word a cycle; the count goes up with the words
  induction ws generalizing s count with
  | nil =>
    refine ⟨?_, trivial⟩
    simp only [List.nil_append] at hmac
    simp [wordCycles, fed, ← hst, ← hmac]
  | cons w ws ih =>
    rw [List.length_cons] at hroom
    have hstep := step_word hst hmac (hws w (List.mem_cons_self ..)) hcount (by omega)
    have hcount' : (s.fed .waitForEop [w] ⟨ws ++ more, false, owed⟩ []).queue.rxFifo.count
        = count + 1 := by
      simp [hcount]
    obtain ⟨hrun, halong⟩ := ih rfl rfl (fun v hv => hws v (List.mem_cons_of_mem w hv)) hcount'
      (by omega)
    simp only [List.length_cons, wordCycles, Runs.run_cons, Runs.along_cons]
    rw [hstep]
    refine ⟨?_, exactCycle_ok hcount (by omega) none false, halong⟩
    rw [show ws.append more = ws ++ more from rfl, hrun]
    simp

/-- A frame is begun and written up to its last word, given room for its words. -/
theorem run_begin (f : MacFrame p) (hst : s.queue.state = .idle) (hmac : s.mac = ⟨[], true, owed⟩)
    (hcount : s.queue.rxFifo.count = count) (hfree : count + almostFullOffset < p.rxFifoDepth)
    (hroom : count + f.words.length ≤ p.rxFifoDepth) :
    Runs.run step s (quietCycle count (some f) :: wordCycles (count + 1) f.rest.length)
        = s.fed .waitForEop f.words ⟨[], false, owed ++ [f.bad]⟩ [f]
      ∧ Runs.Along step (fun s e => RxFlagsExact s e ∧ RxFits s e) s
        (quietCycle count (some f) :: wordCycles (count + 1) f.rest.length) := by
  have hstep := step_first hst hmac hcount hfree f
  have hlen : f.words.length = f.rest.length + 1 := rfl
  have hcount' : (s.fed .waitForEop [Word.full f.first] ⟨f.rest ++ [], false, owed ++ [f.bad]⟩
      [f]).queue.rxFifo.count = count + 1 := by
    simp [hcount]
  obtain ⟨hrun, halong⟩ := run_words f.rest rfl rfl f.valid hcount' (by omega)
  rw [List.append_nil] at hrun halong
  simp only [Runs.run_cons, Runs.along_cons]
  rw [hstep]
  refine ⟨?_, exactCycle_ok hcount (by omega) (some f) false, halong⟩
  rw [hrun]
  simp [MacFrame.words]

end RxBench

theorem wordCycles_succ (count k : Nat) :
    (wordCycles count (k + 1) : List (RxStep p))
      = wordCycles count k ++ [quietCycle (count + k) none] := by
  induction k generalizing count with
  | zero => rfl
  | succ k ih =>
    rw [wordCycles, ih (count + 1), Nat.add_assoc, Nat.add_comm 1 k]
    rfl

namespace RxBench

variable {s : RxBench p} {owed : List Bool} {count : Nat}

/-- **A whole frame**, given room for its words and the one that closes it. -/
theorem run_frame (f : MacFrame p) (hst : s.queue.state = .idle) (hmac : s.mac = ⟨[], true, owed⟩)
    (hcount : s.queue.rxFifo.count = count) (hfree : count + almostFullOffset < p.rxFifoDepth)
    (hroom : count + f.words.length < p.rxFifoDepth) :
    Runs.run step s (frameCycles count f)
        = s.fed .idle (f.words ++ [⟨0, 0⟩]) ⟨[], true, owed ++ [f.bad]⟩ [f]
      ∧ Runs.Along step (fun s e => RxFlagsExact s e ∧ RxFits s e) s (frameCycles count f) := by
  obtain ⟨hrun, halong⟩ := run_begin f hst hmac hcount hfree (by omega)
  have hcut : frameCycles count f
      = (quietCycle count (some f) :: wordCycles (count + 1) f.rest.length)
      ++ [quietCycle (count + f.words.length) none] := by
    rw [frameCycles, wordCycles_succ, List.cons_append]
    simp [MacFrame.words, Nat.add_assoc, Nat.add_comm]
  have hcount' : (s.fed .waitForEop f.words ⟨[], false, owed ++ [f.bad]⟩ [f]).queue.rxFifo.count
      = count + f.words.length := by
    simp [hcount]
  rw [hcut, Runs.run_append, Runs.along_append, hrun]
  refine ⟨?_, halong, exactCycle_ok hcount' hroom none false, trivial⟩
  simp only [Runs.run_cons, Runs.run_nil]
  rw [step_end rfl rfl hcount' hroom]
  simp

/-- **Frames fed until the FIFO is almost full.** -/
theorem run_feed (fs : List (MacFrame p)) (hst : s.queue.state = .idle)
    (hmac : s.mac = ⟨[], true, owed⟩) (hcount : s.queue.rxFifo.count = count)
    (hroom : count + places fs + almostFullOffset ≤ p.rxFifoDepth) :
    Runs.run step s (feedCycles count fs)
        = s.fed .idle (stored fs) ⟨[], true, owed ++ fs.map MacFrame.bad⟩ fs
      ∧ Runs.Along step (fun s e => RxFlagsExact s e ∧ RxFits s e) s (feedCycles count fs) := by
  induction fs generalizing s owed count with
  | nil =>
    refine ⟨?_, trivial⟩
    simp [feedCycles, stored, fed, ← hst, ← hmac]
  | cons f fs ih =>
    have hplaces : places (f :: fs) = f.words.length + 1 + places fs := by
      simp [places]
    obtain ⟨hrun, halong⟩ := run_frame f hst hmac hcount (by omega) (by omega)
    have hcount' : (s.fed .idle (f.words ++ [⟨0, 0⟩]) ⟨[], true, owed ++ [f.bad]⟩
        [f]).queue.rxFifo.count = count + f.words.length + 1 := by
      simp [hcount, Nat.add_assoc]
    obtain ⟨hrest, hrest'⟩ := ih rfl rfl hcount' (by omega)
    rw [feedCycles, Runs.run_append, Runs.along_append, hrun, hrest]
    exact ⟨by simp [stored], halong, hrest'⟩

end RxBench

/-- Cycles that begin no frame keep every bound. -/
theorem framesWithin_wordCycles (b count k : Nat) :
    ∀ e ∈ (wordCycles count k : List (RxStep p)), FramesWithin b e := by
  induction k generalizing count with
  | zero => simp [wordCycles]
  | succ k ih =>
    intro e he
    rcases List.mem_cons.mp he with rfl | he
    · intro f hf
      cases hf
    · exact ih (count + 1) e he

theorem framesWithin_frameCycles {b : Nat} {f : MacFrame p} (hf : f.byteLength ≤ b)
    (count k : Nat) :
    ∀ e ∈ quietCycle count (some f) :: wordCycles (count + 1) k, FramesWithin b e := by
  intro e he
  rcases List.mem_cons.mp he with rfl | he
  · intro g hg
    rw [← Option.some.inj hg]
    exact hf
  · exact framesWithin_wordCycles b _ _ e he

/-- The cycles of frames keep a bound that all of them keep. -/
theorem framesWithin_feedCycles {b : Nat} {fs : List (MacFrame p)}
    (hfs : ∀ f ∈ fs, f.byteLength ≤ b) (count : Nat) :
    ∀ e ∈ feedCycles count fs, FramesWithin b e := by
  induction fs generalizing count with
  | nil => simp [feedCycles]
  | cons f fs ih =>
    intro e he
    rcases List.mem_append.mp he with he | he
    · exact framesWithin_frameCycles (hfs f (List.mem_cons_self ..)) count _ e he
    · exact ih (fun g hg => hfs g (List.mem_cons_of_mem f hg)) _ e he

/-! ## One byte too many

The bound is sharp. A frame of 128 full words and a byte is 129 words, and its closing word is one
more than the places that `almost_full` had promised; short frames fill the FIFO so that there are
no others. -/

/-- A frame of `k + 1` fully valid words of zeros. -/
def zeroFrame (p : Port) (k : Nat) (bad : Bool) : MacFrame p where
  first := 0
  rest := List.replicate k (Word.full 0)
  valid := by
    intro w hw
    rw [List.eq_of_mem_replicate hw]
    exact p.allOnes_ne_zero
  full := by
    intro w hw
    rw [List.eq_of_mem_replicate (List.dropLast_subset _ hw)]
    rfl
  bad := bad

/-- A frame of 128 full words and one more byte. -/
def byteOverFrame (p : Port) : MacFrame p where
  first := 0
  rest := List.replicate 127 (Word.full 0) ++ [⟨0, 1⟩]
  valid := by
    intro w hw
    rcases List.mem_append.mp hw with hw | hw
    · rw [List.eq_of_mem_replicate hw]
      exact p.allOnes_ne_zero
    · rw [List.mem_singleton.mp hw]
      cases p <;> decide
  full := by
    intro w hw
    rw [List.dropLast_concat] at hw
    rw [List.eq_of_mem_replicate hw]
    rfl
  bad := false

theorem byteLength_byteOverFrame (p : Port) : (byteOverFrame p).byteLength = 128 * p.lanes + 1 := by
  have hlast : (byteOverFrame p).words.getLast (byteOverFrame p).words_ne_nil = ⟨0, 1⟩ := by
    simp only [MacFrame.words, byteOverFrame, ← List.cons_append]
    exact List.getLast_concat
  have hbytes : (⟨0, 1⟩ : Word p).validBytes = 1 := by
    cases p <;> decide
  have hrest : (byteOverFrame p).rest.length = 128 := by
    simp only [byteOverFrame, List.length_append, List.length_replicate, List.length_singleton]
  rw [MacFrame.byteLength, hlast, hbytes, hrest, Nat.mul_comm]

theorem length_words_zeroFrame (p : Port) (k : Nat) (bad : Bool) :
    (zeroFrame p k bad).words.length = k + 1 := by
  simp only [MacFrame.words, zeroFrame, List.length_cons, List.length_replicate]

theorem byteLength_zeroFrame (p : Port) (k : Nat) (bad : Bool) :
    (zeroFrame p k bad).byteLength = (k + 1) * p.lanes := by
  have hlast : (zeroFrame p k bad).words.getLast (zeroFrame p k bad).words_ne_nil
      = Word.full 0 := by
    have hmem := List.getLast_mem (zeroFrame p k bad).words_ne_nil
    rcases List.mem_cons.mp hmem with h | h
    · exact h
    · exact List.eq_of_mem_replicate h
  have hrest : (zeroFrame p k bad).rest.length = k := List.length_replicate
  rw [MacFrame.byteLength, hlast, Word.validBytes_full, hrest, Nat.mul_comm, Nat.succ_mul]

/-- Frames that leave exactly 129 places. -/
def fillFrames (p : Port) : List (MacFrame p) :=
  zeroFrame p 1 false :: List.replicate ((p.rxFifoDepth - 132) / 2) (zeroFrame p 0 false)

theorem places_fillFrames (p : Port) : places (fillFrames p) = p.rxFifoDepth - 129 := by
  simp only [places, fillFrames, List.map_cons, List.map_replicate, List.sum_cons,
    List.sum_replicate_nat, length_words_zeroFrame]
  cases p <;> rfl

/-- The FIFO is filled up to 129 free places, a frame of 129 words takes them all, and the cycle
that closes it writes once more. -/
def overflowRun (p : Port) : List (RxStep p) :=
  feedCycles 0 (fillFrames p)
    ++ (quietCycle (p.rxFifoDepth - 129) (some (byteOverFrame p))
      :: wordCycles (p.rxFifoDepth - 129 + 1) (byteOverFrame p).rest.length)
    ++ [quietCycle p.rxFifoDepth none]

/-- They are within the bound that is shown to be too much. -/
theorem byteLength_fillFrames (p : Port) :
    ∀ f ∈ fillFrames p, f.byteLength ≤ 128 * p.lanes + 1 := by
  intro f hf
  have hlanes := p.lanes_pos
  rcases List.mem_cons.mp hf with rfl | hf
  · rw [byteLength_zeroFrame]
    omega
  · rw [List.eq_of_mem_replicate hf, byteLength_zeroFrame]
    omega

/-- **Overflow.** The run keeps to exact flags and to frames of `128 * lanes + 1` bytes, and writes
the data FIFO while full. -/
theorem overflowRun_overflows (p : Port) :
    Runs.Along RxBench.step (fun s e => RxFlagsExact s e ∧ FramesWithin (128 * p.lanes + 1) e)
        (RxBench.reset ⟨0, 0⟩) (overflowRun p)
      ∧ ¬ Runs.Along RxBench.step RxFits (RxBench.reset ⟨0, 0⟩) (overflowRun p) := by
  have hdepth : 129 < p.rxFifoDepth := by
    cases p <;> decide
  have hplaces := places_fillFrames p
  have hlong : (byteOverFrame p).words.length = 129 := by
    simp only [MacFrame.words, byteOverFrame, List.length_cons, List.length_append,
      List.length_replicate, List.length_nil]
  have hempty : (RxBench.reset ⟨0, 0⟩ : RxBench p).queue.rxFifo.count = 0 := rfl
  -- up to 129 free places nothing is lost
  obtain ⟨hfill, hfillOk⟩ := RxBench.run_feed (fillFrames p) rfl rfl hempty
    (by simp only [almostFullOffset]; omega)
  have hcount : (Runs.run RxBench.step (RxBench.reset ⟨0, 0⟩) (feedCycles 0 (fillFrames p))
      ).queue.rxFifo.count = p.rxFifoDepth - 129 := by
    rw [hfill, RxBench.fed_count, hempty, length_stored, hplaces, Nat.zero_add]
  rw [hfill] at hcount
  obtain ⟨hlast, hlastOk⟩ := RxBench.run_begin (byteOverFrame p) rfl rfl hcount
    (by simp only [almostFullOffset]; omega) (by omega)
  -- the words of the long frame take them all
  have hfull : (Runs.run RxBench.step (RxBench.reset ⟨0, 0⟩)
      (feedCycles 0 (fillFrames p) ++ (quietCycle (p.rxFifoDepth - 129) (some (byteOverFrame p))
        :: wordCycles (p.rxFifoDepth - 129 + 1) (byteOverFrame p).rest.length))
      ).queue.rxFifo.count = p.rxFifoDepth := by
    rw [Runs.run_append, hfill, hlast, RxBench.fed_count, hcount, hlong]
    omega
  constructor
  · apply Runs.Along.and_of_mem
    · rw [overflowRun, Runs.along_append, Runs.along_append, hfill]
      refine ⟨⟨hfillOk.mono fun _ _ h => h.1, hlastOk.mono fun _ _ h => h.1⟩, ?_, trivial⟩
      show exactFlag p p.rxFifoDepth = decide _
      rw [hfull]
      rfl
    · intro e he
      rcases List.mem_append.mp he with he | he
      · rcases List.mem_append.mp he with he | he
        · exact framesWithin_feedCycles (byteLength_fillFrames p) 0 e he
        · exact framesWithin_frameCycles (byteLength_byteOverFrame p).le _ _ e he
      · rw [List.mem_singleton.mp he]
        intro f hf
        cases hf
  · rw [overflowRun, Runs.along_append]
    -- the cycle that closes it is the one that does not fit
    rintro ⟨_, hfits, _⟩
    have hroom := hfits (by rw [Runs.run_append, hfill, hlast]; rfl)
    rw [hfull] at hroom
    omega

/-- **Admission.** With an exact `ALMOSTFULL`: the data FIFO is never written while full, whatever
the frames of at most `b` bytes, the clocks and `tready`, exactly when `b` is at most 128 words'
worth of bytes. -/
theorem rx_admission_iff (p : Port) (b : Nat) :
    (∀ (axis : Word p) (es : List (RxStep p)),
      Runs.Along RxBench.step (fun s e => RxFlagsExact s e ∧ FramesWithin b e)
        (RxBench.reset axis) es → Runs.Along RxBench.step RxFits (RxBench.reset axis) es)
      ↔ b ≤ 128 * p.lanes := by
  constructor
  · intro h
    by_contra hb
    -- one byte over the limit is enough
    obtain ⟨hrun, hover⟩ := overflowRun_overflows p
    apply hover
    apply h
    apply hrun.mono
    rintro s e ⟨hexact, hwithin⟩
    exact ⟨hexact, hwithin.mono (by omega)⟩
  · intro hb axis es hrun
    have hstep : ∀ (s : RxBench p) e, RxRoomInv s → RxFlagsExact s e ∧ FramesWithin b e →
        RxRoomInv (s.step e) := by
      rintro s e h ⟨hexact, hwithin⟩
      exact h.step (Nat.le_refl almostFullOffset) e hexact (hwithin.mono hb)
    exact Runs.along_of_invariant hstep (fun s e h hP => h.fits hP.1) (RxRoomInv.reset axis) hrun

/-- **Counterexample.** Frames of at most 1518 bytes overflow the data FIFO of both cores. -/
theorem rx_overflow :
    (Runs.Along RxBench.step (fun s e => RxFlagsExact s e ∧ FramesWithin 1518 e)
        (RxBench.reset ⟨0, 0⟩) (overflowRun .tenGig)
      ∧ ¬ Runs.Along RxBench.step RxFits (RxBench.reset ⟨0, 0⟩) (overflowRun .tenGig))
    ∧ (Runs.Along RxBench.step (fun s e => RxFlagsExact s e ∧ FramesWithin 1518 e)
        (RxBench.reset ⟨0, 0⟩) (overflowRun .oneGig)
      ∧ ¬ Runs.Along RxBench.step RxFits (RxBench.reset ⟨0, 0⟩) (overflowRun .oneGig)) := by
  have hcore (p : Port) (hlanes : 128 * p.lanes + 1 ≤ 1518) :
      Runs.Along RxBench.step (fun s e => RxFlagsExact s e ∧ FramesWithin 1518 e)
        (RxBench.reset ⟨0, 0⟩) (overflowRun p)
      ∧ ¬ Runs.Along RxBench.step RxFits (RxBench.reset ⟨0, 0⟩) (overflowRun p) := by
    obtain ⟨hrun, hover⟩ := overflowRun_overflows p
    refine ⟨hrun.mono ?_, hover⟩
    rintro s e ⟨hexact, hwithin⟩
    exact ⟨hexact, hwithin.mono hlanes⟩
  exact ⟨hcore .tenGig (by decide), hcore .oneGig (by decide)⟩

end Nf10.Hw
