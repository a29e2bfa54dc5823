import Mathlib.Algebra.BigOperators.Group.List.Basic
import Nf10.Driver.Probe
import Nf10.Lib.AccessLog

/-!
# Nf10 — the report in `/proc`

"Called to fill @buf when user reads our file in /proc": `read_proc` prints a line for every flag of
both rings into the page that the kernel hands it, with `sprintf` and no look at how much of the page
is left.

* **`readProc_run`** — what it leaves in memory: the report and a NUL, and it returns the length of the
  report. Nothing bounds that length;
* **`read_proc_fits_iff`** — it fits in the page up to 64 slots. With 128 and 256 it depends on how wide
  the flags are in decimal, and from 512 on it never fits.

`c` is a natural here; neither the `unsigned int` nor the returned `int` overflows
(`toInt_readProc_ret`).
-/

namespace Nf10

/-- What a `read_proc_t` may write (`PAGE_SIZE`). -/
def pageSize : Nat := 4096

/-! ## Printing

`sprintf` into a page, as accesses to memory: the characters and the NUL behind them, wherever the
page ends. -/

/-- `%d` -/
def decimal : Int → List Char
  | .ofNat n => Nat.toDigits 10 n
  | .negSucc n => '-' :: Nat.toDigits 10 (n + 1)

/-- The characters of the formatted text, and a NUL. Returns the number of characters. -/
def sprintf (off : Nat) (text : List Char) : Access Nat UInt8 Nat := do
  Access.storeList off (text.map Char.toUInt8 ++ [0])
  pure text.length

/-- The texts it prints. -/
def procHeader : List Char :=
  "NetFPGA-10G Ethernet Driver\n-----------------------------\n".toList

def txHeading : List Char :=
  "TX Flags:\n".toList

def rxHeading : List Char :=
  "RX Flags:\n".toList

/-- `"\t%d: %d\n"`. The flag is a `uint32_t` and is printed as an `int`. -/
def flagLine (i : Nat) (flag : UInt32) : List Char :=
  ['\t'] ++ decimal i ++ [':', ' '] ++ decimal flag.toInt32.toInt ++ ['\n']

/-- The loop over one of the rings. -/
def printFlags (flags : Nat → UInt32) (n c : Nat) : Access Nat UInt8 Nat :=
  (List.range n).foldlM
    (fun c i => do
      let k ← sprintf c (flagLine i (flags i))
      pure (c + k))
    c

/-- The return value and `*eof`. -/
structure ProcRead where
  ret : Nat
  eof : Int
deriving DecidableEq, Repr

/-- `read_proc`: a header, then the flags of either ring. It sets `*eof` and returns the number of
characters, and looks at neither `count` nor the size of the page. -/
def readProc (d : Driver) : Access Nat UInt8 ProcRead := do
  let c ← sprintf 0 procHeader
  let k ← sprintf c txHeading
  let c ← printFlags d.txDmaStream.flags d.dmaCpuBufs (c + k)
  let k ← sprintf c rxHeading
  let c ← printFlags d.rxDmaStream.flags d.dmaCpuBufs (c + k)
  pure ⟨c, 1⟩

/-! ## The text

What is printed, as one text. The calls write over each other's NUL, so what is left is the text and
one NUL. -/

/-- The lines of one ring. -/
def flagLines (flags : Nat → UInt32) (n : Nat) : List Char :=
  (List.range n).flatMap fun i => flagLine i (flags i)

/-- All that is printed. -/
def report (d : Driver) : List Char :=
  procHeader ++ txHeading ++ flagLines d.txDmaStream.flags d.dmaCpuBufs
    ++ rxHeading ++ flagLines d.rxDmaStream.flags d.dmaCpuBufs

/-- `text` stands at the start of the buffer, and nothing behind it was written but a NUL. -/
structure Begun (text : List Char) (s : AccessLog Nat UInt8) : Prop where
  chars : ∀ i ch, text[i]? = some ch → s.mem i = ch.toUInt8
  all : ∀ i, i < text.length → i ∈ s.touched
  below : ∀ i ∈ s.touched, i ≤ text.length

/-- The NUL is there. -/
structure Printed (text : List Char) (s : AccessLog Nat UInt8) : Prop extends Begun text s where
  nul : s.mem text.length = 0
  last : text.length ∈ s.touched

theorem begun_nil (buf : Nat → UInt8) : Begun [] ⟨buf, []⟩ := by
  refine ⟨?_, ?_, ?_⟩
  · intro i ch h
    simp at h
  · intro i h
    simp at h
  · intro i h
    simp at h

/-- `p`, given the length of what is there, prints `more` behind it and returns the new length. -/
def Prints (p : Nat → Access Nat UInt8 Nat) (more : List Char) : Prop :=
  ∀ text s, Printed text s →
    ((p text.length).run s).1 = (text ++ more).length
      ∧ Printed (text ++ more) ((p text.length).run s).2

/-- **One `sprintf`** behind what is there, over the NUL. -/
theorem Begun.sprintf {text : List Char} {s : AccessLog Nat UInt8} (h : Begun text s)
    (more : List Char) : Printed (text ++ more) ((sprintf text.length more).run s).2 := by
  have hstored : ((Nf10.sprintf text.length more).run s).2
      = ((Access.storeList text.length (more.map Char.toUInt8 ++ [0])).run s).2 := rfl
  have hlen : (more.map Char.toUInt8 ++ [0]).length = more.length + 1 := by simp
  refine ⟨⟨?_, ?_, ?_⟩, ?_, ?_⟩
  · intro i ch hch
    rw [hstored]
    by_cases hi : i < text.length
    · rw [Access.storeList_mem_of_lt hi]
      rw [List.getElem?_append_left hi] at hch
      exact h.chars i ch hch
    · obtain ⟨k, rfl⟩ := Nat.exists_eq_add_of_le (Nat.le_of_not_lt hi)
      rw [List.getElem?_append_right (by omega), Nat.add_sub_cancel_left] at hch
      apply Access.storeList_mem_add
      have hk : k < (more.map Char.toUInt8).length := by
        have := (List.getElem?_eq_some_iff.mp hch).1
        simpa using this
      rw [List.getElem?_append_left hk, List.getElem?_map, hch]
      rfl
  · intro i hi
    rw [hstored, Access.mem_touched_storeList, hlen]
    rw [List.length_append] at hi
    by_cases hlt : i < text.length
    · exact Or.inl (h.all i hlt)
    · exact Or.inr (by omega)
  · intro i hi
    rw [hstored, Access.mem_touched_storeList, hlen] at hi
    rw [List.length_append]
    rcases hi with hi | hi
    · have := h.below i hi
      omega
    · omega
  · rw [hstored, List.length_append]
    apply Access.storeList_mem_add
    rw [List.getElem?_append_right (by simp)]
    simp
  · rw [hstored, Access.mem_touched_storeList, hlen, List.length_append]
    exact Or.inr (by omega)

theorem prints_sprintf (more : List Char) :
    Prints (fun c => do let k ← sprintf c more; pure (c + k)) more := by
  intro text s h
  refine ⟨?_, h.toBegun.sprintf more⟩
  rw [List.length_append]
  rfl

theorem Prints.bind {p q : Nat → Access Nat UInt8 Nat} {more more' : List Char}
    (hp : Prints p more) (hq : Prints q more') :
    Prints (fun c => p c >>= q) (more ++ more') := by
  intro text s h
  obtain ⟨hret, hprinted⟩ := hp text s h
  have hnext := hq (text ++ more) _ hprinted
  rw [← hret, List.append_assoc] at hnext
  exact hnext

/-- **The loop** prints its lines. -/
theorem prints_printFlags (flags : Nat → UInt32) (n : Nat) :
    Prints (fun c => printFlags flags n c) (flagLines flags n) := by
  unfold printFlags flagLines
  induction List.range n with
  | nil =>
    intro text s h
    rw [List.flatMap_nil, List.append_nil]
    exact ⟨rfl, h⟩
  | cons i is ih =>
    rw [List.flatMap_cons]
    exact (prints_sprintf (flagLine i (flags i))).bind ih

/-- **What `read_proc` leaves behind**, whatever the buffer held: the report, and its length. -/
theorem readProc_run (d : Driver) (buf : Nat → UInt8) :
    ((readProc d).run ⟨buf, []⟩).1 = ⟨(report d).length, 1⟩
      ∧ Printed (report d) ((readProc d).run ⟨buf, []⟩).2 := by
  unfold readProc report
  -- none of the following depends on what the headings say
  generalize procHeader = header
  generalize txHeading = tx
  generalize rxHeading = rx
  have hheader := (begun_nil buf).sprintf header
  have hrest := (((prints_sprintf tx).bind
    (prints_printFlags d.txDmaStream.flags d.dmaCpuBufs)).bind
    (prints_sprintf rx)).bind (prints_printFlags d.rxDmaStream.flags d.dmaCpuBufs)
  obtain ⟨hret, hprinted⟩ := hrest header _ hheader
  simp only [← List.append_assoc] at hret hprinted
  exact ⟨congrArg (fun c => ProcRead.mk c 1) hret, hprinted⟩

/-! ## How long it is

The length is made of fixed texts, the widths of the indices and the widths of the flags. Only the
last depends on what the device has put there. -/

/-- Characters of a flag in decimal, the sign included. -/
def flagWidth (flag : UInt32) : Nat :=
  (decimal flag.toInt32.toInt).length

/-- The same over all flags of both rings. -/
def flagWidths (d : Driver) : Nat :=
  ((List.range d.dmaCpuBufs).map fun i =>
    flagWidth (d.txDmaStream.flags i) + flagWidth (d.rxDmaStream.flags i)).sum

/-- The digits of all indices below `n`. -/
def indexWidths (n : Nat) : Nat :=
  ((List.range n).map fun i : Nat => (decimal i).length).sum

theorem indexWidths_succ (n : Nat) : indexWidths (n + 1) = indexWidths n + (decimal n).length := by
  simp [indexWidths, List.range_succ]

/-- A line has four characters beside the two numbers. -/
theorem length_flagLine (i : Nat) (flag : UInt32) :
    (flagLine i flag).length = 4 + (decimal i).length + flagWidth flag := by
  simp only [flagLine, flagWidth, List.length_append, List.length_cons, List.length_nil]
  omega

theorem length_flagLines (flags : Nat → UInt32) (n : Nat) :
    (flagLines flags n).length
      = 4 * n + indexWidths n + ((List.range n).map fun i => flagWidth (flags i)).sum := by
  induction n with
  | zero => rfl
  | succ n ih =>
    unfold flagLines at *
    rw [indexWidths_succ]
    simp only [List.range_succ, List.flatMap_append, List.flatMap_cons, List.flatMap_nil,
      List.append_nil, List.map_append, List.map_cons, List.map_nil, List.sum_append,
      List.sum_cons, List.sum_nil, List.length_append, length_flagLine, ih]
    omega

theorem length_procHeader : procHeader.length = 58 := by decide +kernel

theorem length_txHeading : txHeading.length = 10 := by decide +kernel

theorem length_rxHeading : rxHeading.length = 10 := by decide +kernel

/-- **The length of the report**: headings and punctuation, indices, flags. -/
theorem length_report (d : Driver) :
    (report d).length
      = 78 + 8 * d.dmaCpuBufs + 2 * indexWidths d.dmaCpuBufs + flagWidths d := by
  have hwidths : flagWidths d
      = ((List.range d.dmaCpuBufs).map fun i => flagWidth (d.txDmaStream.flags i)).sum
        + ((List.range d.dmaCpuBufs).map fun i => flagWidth (d.rxDmaStream.flags i)).sum :=
    List.sum_map_add
  rw [hwidths, report]
  simp only [List.length_append, length_procHeader, length_txHeading, length_rxHeading,
    length_flagLines]
  omega

/-- A 32-bit number takes one to ten digits, and a sign. -/
theorem flagWidth_bounds (flag : UInt32) : 1 ≤ flagWidth flag ∧ flagWidth flag ≤ 11 := by
  have hlt := flag.toInt32.toInt_lt
  have hge := flag.toInt32.le_toInt
  have hten : ∀ m : Nat, m ≤ 2 ^ 31 → (Nat.toDigits 10 m).length ≤ 10 := by
    intro m hm
    exact (Nat.length_toDigits_le_iff (by decide) (by decide)).mpr (by omega)
  have hpos : ∀ m : Nat, 0 < (Nat.toDigits 10 m).length := fun m => Nat.length_toDigits_pos
  unfold flagWidth
  cases hint : flag.toInt32.toInt with
  | ofNat m =>
    rw [hint, Int.ofNat_eq_natCast] at hlt
    have hm := hten m (by omega)
    exact ⟨hpos m, by simp only [decimal]; omega⟩
  | negSucc m =>
    rw [hint] at hge
    have hm := hten (m + 1) (by omega)
    exact ⟨by simp [decimal], by simp only [decimal, List.length_cons]; omega⟩

/-- An index below `10 ^ k` has `k` digits at most. -/
theorem indexWidth_le {i k : Nat} (hk : 0 < k) (hi : i < 10 ^ k) : (decimal i).length ≤ k :=
  (Nat.length_toDigits_le_iff (by decide) hk).mpr hi

theorem indexWidths_le {n k : Nat} (hk : 0 < k) (hn : n ≤ 10 ^ k) : indexWidths n ≤ n * k := by
  induction n with
  | zero => exact Nat.zero_le _
  | succ n ih =>
    have hlast : (decimal n).length ≤ k := indexWidth_le hk hn
    rw [indexWidths_succ, Nat.succ_mul]
    exact Nat.add_le_add (ih (Nat.le_of_succ_le hn)) hlast

/-- A flag has one character at least and eleven at most, the sign included. -/
theorem flagWidths_bounds (d : Driver) :
    2 * d.dmaCpuBufs ≤ flagWidths d ∧ flagWidths d ≤ 22 * d.dmaCpuBufs := by
  unfold flagWidths
  induction d.dmaCpuBufs with
  | zero => exact ⟨Nat.le_refl _, Nat.le_refl _⟩
  | succ n ih =>
    have htx := flagWidth_bounds (d.txDmaStream.flags n)
    have hrx := flagWidth_bounds (d.rxDmaStream.flags n)
    rw [List.range_succ, List.map_append, List.sum_append]
    simp only [List.map_cons, List.map_nil, List.sum_cons, List.sum_nil]
    omega

/-- The returned `int`, in its 32 bits, is the number of characters: five digits for an index, eleven
characters for a flag and a line for each of at most 32768 slots stay far below `2 ^ 31`. -/
theorem toInt_readProc_ret {d : Driver} (hn : d.dmaCpuBufs ≤ dmaCpuBufsMax) (buf : Nat → UInt8) :
    (Int32.ofNat ((readProc d).run ⟨buf, []⟩).1.ret).toInt = (report d).length := by
  have hlength : (report d).length < 2 ^ 31 := by
    unfold dmaCpuBufsMax at hn
    have hindex : indexWidths d.dmaCpuBufs ≤ d.dmaCpuBufs * 5 :=
      indexWidths_le (by decide) (by omega)
    have hflags := flagWidths_bounds d
    rw [length_report]
    omega
  rw [(readProc_run d buf).1]
  exact Int32.toInt_ofNat_of_lt hlength

/-! ## Whether it fits

What the kernel asks of the function, against what it does, for the numbers of buffers that `probe`
tries. -/

/-- What is asked of a `read_proc_t`: it stays inside the page and returns the number of characters,
which stand from the start of the page on, with a NUL behind them. -/
structure ProcFits (d : Driver) (buf : Nat → UInt8) : Prop where
  within : (readProc d).Within buf pageSize
  chars : ∀ i < ((readProc d).run ⟨buf, []⟩).1.ret, ((readProc d).run ⟨buf, []⟩).2.mem i ≠ 0
  nul : ((readProc d).run ⟨buf, []⟩).2.mem ((readProc d).run ⟨buf, []⟩).1.ret = 0
  written : ∀ i, i ∈ ((readProc d).run ⟨buf, []⟩).2.touched
    ↔ i ≤ ((readProc d).run ⟨buf, []⟩).1.ret

theorem digit_ne_nul {ch : Char} {n : Nat} (h : ch ∈ Nat.toDigits 10 n) : ch.toUInt8 ≠ 0 := by
  have hdigit := Nat.isDigit_of_mem_toDigits (by decide) (by decide) h
  simp only [Char.isDigit, Bool.and_eq_true, decide_eq_true_eq] at hdigit
  obtain ⟨hlo, hhi⟩ := hdigit
  have hlo : 48 ≤ ch.val.toNat := hlo
  have hhi : ch.val.toNat ≤ 57 := hhi
  intro hzero
  have hnat : ch.val.toNat % 256 = 0 := congrArg UInt8.toNat hzero
  omega

theorem decimal_ne_nul {ch : Char} {i : Int} (h : ch ∈ decimal i) : ch.toUInt8 ≠ 0 := by
  cases i with
  | ofNat n => exact digit_ne_nul h
  | negSucc n =>
    rcases List.mem_cons.mp h with rfl | h
    · decide
    · exact digit_ne_nul h

theorem flagLines_ne_nul {ch : Char} {flags : Nat → UInt32} {n : Nat} (h : ch ∈ flagLines flags n) :
    ch.toUInt8 ≠ 0 := by
  obtain ⟨i, -, h⟩ := List.mem_flatMap.mp h
  simp only [flagLine, List.mem_append, List.mem_cons, List.not_mem_nil, or_false] at h
  rcases h with ((((rfl | h) | rfl | rfl) | h) | rfl)
  · decide
  · exact decimal_ne_nul h
  · decide
  · decide
  · exact decimal_ne_nul h
  · decide

theorem ne_nul_of_all {text : List Char} (h : (text.all fun ch => ch.toUInt8 != 0) = true)
    {ch : Char} (hch : ch ∈ text) : ch.toUInt8 ≠ 0 := by
  have hne := List.all_eq_true.mp h ch hch
  simpa using hne

/-- No character of the report ends it early. -/
theorem report_ne_nul {d : Driver} {ch : Char} (h : ch ∈ report d) : ch.toUInt8 ≠ 0 := by
  simp only [report, List.mem_append] at h
  rcases h with (((h | h) | h) | h) | h
  · exact ne_nul_of_all (by decide +kernel) h
  · exact ne_nul_of_all (by decide +kernel) h
  · exact flagLines_ne_nul h
  · exact ne_nul_of_all (by decide +kernel) h
  · exact flagLines_ne_nul h

/-- The NUL is the byte that decides. -/
theorem procFits_iff (d : Driver) (buf : Nat → UInt8) :
    ProcFits d buf ↔ (report d).length < pageSize := by
  obtain ⟨hret, hprinted⟩ := readProc_run d buf
  have hret : ((readProc d).run ⟨buf, []⟩).1.ret = (report d).length := congrArg ProcRead.ret hret
  constructor
  · intro h
    exact h.within _ hprinted.last
  · intro hlen
    refine ⟨?_, ?_, ?_, ?_⟩
    · intro i hi
      exact Nat.lt_of_le_of_lt (hprinted.below i hi) hlen
    · intro i hi
      rw [hret] at hi
      rw [hprinted.chars i _ (List.getElem?_eq_getElem hi)]
      exact report_ne_nul (List.getElem_mem hi)
    · rw [hret]
      exact hprinted.nul
    · intro i
      rw [hret]
      constructor
      · exact hprinted.below i
      · intro hi
        rcases Nat.eq_or_lt_of_le hi with rfl | hi
        · exact hprinted.last
        · exact hprinted.all i hi

/-- The ring is short enough, or its flags narrow enough. -/
def ShortReport (d : Driver) : Prop :=
  d.dmaCpuBufs ≤ 64
    ∨ (d.dmaCpuBufs = 128 ∧ flagWidths d ≤ 2445)
    ∨ (d.dmaCpuBufs = 256 ∧ flagWidths d ≤ 653)

instance (d : Driver) : Decidable (ShortReport d) :=
  inferInstanceAs (Decidable (_ ∨ _ ∨ _))

/-- The numbers tried, as far as the length is concerned. -/
theorem tried_cases {n : Nat} (h : n ∈ dmaCpuBufsTried) :
    n ≤ 64 ∨ n = 128 ∨ n = 256 ∨ 512 ≤ n := by
  revert n
  decide

/-- From 512 slots on, the punctuation alone is too long. -/
theorem pageSize_le_length_report {d : Driver} (h : 512 ≤ d.dmaCpuBufs) :
    pageSize ≤ (report d).length := by
  have hflags := flagWidths_bounds d
  rw [length_report, pageSize]
  omega

/-- The report is shorter than a page exactly for the short reports: always up to 64 slots, never
from 512 on, and depending on the flags in between. -/
theorem length_report_lt_iff {d : Driver} (hn : d.dmaCpuBufs ∈ dmaCpuBufsTried) :
    (report d).length < pageSize ↔ ShortReport d := by
  have hflags := flagWidths_bounds d
  have hlength := length_report d
  unfold ShortReport pageSize
  rcases tried_cases hn with h | h | h | h
  · have hindex : indexWidths d.dmaCpuBufs ≤ d.dmaCpuBufs * 2 :=
      indexWidths_le (by decide) (by omega)
    omega
  · have hindex : indexWidths 128 = 274 := by decide +kernel
    rw [h, hindex] at hlength
    omega
  · have hindex : indexWidths 256 = 658 := by decide +kernel
    rw [h, hindex] at hlength
    omega
  · have hlong := pageSize_le_length_report h
    unfold pageSize at hlong
    omega

/-- **The report fits its page** exactly when the ring is short or its flags are narrow. -/
theorem read_proc_fits_iff (d : Driver) (hn : d.dmaCpuBufs ∈ dmaCpuBufsTried) (buf : Nat → UInt8) :
    ProcFits d buf ↔ ShortReport d := by
  rw [procFits_iff]
  exact length_report_lt_iff hn

/-- The ring of the first size that `probe` tries, as it sets it up. -/
theorem read_proc_overflows :
    dmaCpuBufsMax ∈ dmaCpuBufsTried
      ∧ ¬ ProcFits (probeStreams plainDriver dmaCpuBufsMax) fun _ => 0 := by
  refine ⟨by decide, ?_⟩
  rw [procFits_iff, Nat.not_lt]
  exact pageSize_le_length_report (by decide)

/-- With 128 slots as `probe` sets them up, it still fits. -/
theorem read_proc_fits_probed :
    128 ∈ dmaCpuBufsTried ∧ ShortReport (probeStreams plainDriver 128)
      ∧ ProcFits (probeStreams plainDriver 128) fun _ => 0 :=
  ⟨by decide, by decide +kernel,
    (read_proc_fits_iff (probeStreams plainDriver 128) (by decide) fun _ => 0).mpr
      (by decide +kernel)⟩

end Nf10
