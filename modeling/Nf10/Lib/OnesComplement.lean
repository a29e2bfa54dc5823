import Mathlib.Algebra.BigOperators.Group.Finset.Basic
import Mathlib.Algebra.BigOperators.Intervals
import Mathlib.Data.Nat.ModEq

/-!
# One's-complement sums

Addition with an end-around carry in base `B`: a carry out of the top is added back in at the bottom.
The sums are residues modulo `B - 1` with zero in two forms, `0` and `B - 1`; a sum is `0` only when
every term is, so all other multiples of `B - 1` come out as `B - 1` (`onesSum_eq_top`). That is
what makes a checksum verify.
-/

namespace OnesComplement

variable {B : Nat}

/-- Addition with end-around carry. -/
def onesAdd (B x y : Nat) : Nat :=
  if x + y < B then x + y else x + y + 1 - B

/-- The sum of the first `n` terms. -/
def onesSum (B : Nat) (f : Nat → Nat) : Nat → Nat
  | 0 => 0
  | n + 1 => onesAdd B (onesSum B f n) (f n)

/-- The end-around carry keeps the sum of two words in a word. -/
theorem onesAdd_lt {x y : Nat} (hx : x < B) (hy : y < B) : onesAdd B x y < B := by
  unfold onesAdd
  split <;> omega

/-- Modulo `B - 1` the carry counts as what it is worth, so this is plain addition. -/
theorem onesAdd_modEq (hB : 1 ≤ B) (x y : Nat) : onesAdd B x y ≡ x + y [MOD B - 1] := by
  unfold onesAdd
  split
  · exact Nat.ModEq.refl _
  · have hsplit : x + y = (x + y + 1 - B) + (B - 1) := by omega
    calc x + y + 1 - B ≡ (x + y + 1 - B) + (B - 1) [MOD B - 1] := (Nat.add_modEq_right).symm
      _ = x + y := hsplit.symm

/-- A sum is zero only if nothing was added: the other zero is `B - 1`. -/
theorem onesAdd_eq_zero {x y : Nat} (h : onesAdd B x y = 0) : x = 0 ∧ y = 0 := by
  unfold onesAdd at h
  split at h <;> omega

theorem onesSum_lt {f : Nat → Nat} (hf : ∀ k, f k < B) (n : Nat) : onesSum B f n < B := by
  induction n with
  | zero => exact Nat.lt_of_le_of_lt (Nat.zero_le _) (hf 0)
  | succ n ih => exact onesAdd_lt ih (hf n)

theorem onesSum_congr {f g : Nat → Nat} {n : Nat} (h : ∀ k < n, f k = g k) :
    onesSum B f n = onesSum B g n := by
  induction n with
  | zero => rfl
  | succ n ih =>
    rw [onesSum, onesSum, h n (Nat.lt_succ_self n), ih fun k hk => h k (Nat.lt_succ_of_lt hk)]

/-- The whole sum modulo `B - 1`, in any order. -/
theorem onesSum_modEq (hB : 1 ≤ B) (f : Nat → Nat) (n : Nat) :
    onesSum B f n ≡ ∑ k ∈ Finset.range n, f k [MOD B - 1] := by
  induction n with
  | zero => exact Nat.ModEq.refl _
  | succ n ih =>
    rw [Finset.sum_range_succ]
    exact (onesAdd_modEq hB _ _).trans (ih.add_right _)

/-- A sum that comes out as zero had nothing in it. -/
theorem sum_eq_zero_of_onesSum_eq_zero {f : Nat → Nat} {n : Nat} (h : onesSum B f n = 0) :
    ∑ k ∈ Finset.range n, f k = 0 := by
  induction n with
  | zero => rfl
  | succ n ih =>
    obtain ⟨hrest, hlast⟩ := onesAdd_eq_zero h
    rw [Finset.sum_range_succ, ih hrest, hlast]

/-- Carries only make it smaller. -/
theorem onesSum_le (hB : 1 ≤ B) (f : Nat → Nat) (n : Nat) :
    onesSum B f n ≤ ∑ k ∈ Finset.range n, f k := by
  induction n with
  | zero => exact Nat.le_refl _
  | succ n ih =>
    rw [Finset.sum_range_succ, onesSum, onesAdd]
    split <;> omega

/-- **The two zeros.** A sum that is not zero throughout shows a multiple of `B - 1` as `B - 1`. -/
theorem onesSum_eq_top {f : Nat → Nat} {n : Nat} (hf : ∀ k, f k < B)
    (hpos : ∑ k ∈ Finset.range n, f k ≠ 0)
    (hmod : ∑ k ∈ Finset.range n, f k ≡ 0 [MOD B - 1]) : onesSum B f n = B - 1 := by
  have hlt : onesSum B f n < B := onesSum_lt hf n
  have hne : onesSum B f n ≠ 0 := fun h => hpos (sum_eq_zero_of_onesSum_eq_zero h)
  have hdvd : B - 1 ∣ onesSum B f n :=
    (Nat.modEq_zero_iff_dvd).mp ((onesSum_modEq (by omega) f n).trans hmod)
  have hle : B - 1 ≤ onesSum B f n := Nat.le_of_dvd (by omega) hdvd
  omega

/-- **The complement balances the sum.** Where term `i` is free, putting the complement of the sum
there makes the whole a multiple of `B - 1`, and not zero. -/
theorem sum_with_complement {f g : Nat → Nat} {n i : Nat} (hf : ∀ k, f k < B) (hi : i < n)
    (hfree : f i = 0) (hg : ∀ k, k ≠ i → g k = f k) (hcomp : g i = B - 1 - onesSum B f n)
    (hB : 2 ≤ B) :
    ∑ k ∈ Finset.range n, g k ≡ 0 [MOD B - 1] ∧ ∑ k ∈ Finset.range n, g k ≠ 0 := by
  have hmem : i ∈ Finset.range n := Finset.mem_range.mpr hi
  have hrest : ∑ k ∈ (Finset.range n).erase i, g k = ∑ k ∈ (Finset.range n).erase i, f k :=
    Finset.sum_congr rfl fun k hk => hg k (Finset.ne_of_mem_erase hk)
  have hsum : ∑ k ∈ Finset.range n, g k = g i + ∑ k ∈ Finset.range n, f k := by
    rw [← Finset.add_sum_erase _ g hmem, ← Finset.add_sum_erase _ f hmem, hrest, hfree,
      Nat.zero_add]
  have hlt : onesSum B f n < B := onesSum_lt hf n
  constructor
  · rw [hsum, hcomp]
    calc B - 1 - onesSum B f n + ∑ k ∈ Finset.range n, f k
        ≡ B - 1 - onesSum B f n + onesSum B f n [MOD B - 1] :=
          ((onesSum_modEq (by omega) f n).symm).add_left _
      _ = B - 1 := by omega
      _ ≡ 0 [MOD B - 1] := (Nat.modEq_zero_iff_dvd).mpr (Nat.dvd_refl _)
  · rw [hsum, hcomp]
    intro hzero
    -- a sum of zero has the complement `B - 1`
    have hle := onesSum_le (by omega : 1 ≤ B) f n
    omega

/-- A term with its two digits swapped. -/
theorem swap_modEq {b : Nat} (hb : 1 ≤ b) (x y : Nat) :
    b * x + y ≡ b * (x + b * y) [MOD b * b - 1] := by
  have hbb : 1 ≤ b * b := Nat.mul_pos hb hb
  have hcarry : b * (x + b * y) = b * x + y + (b * b - 1) * y := by
    rw [Nat.mul_add, ← Nat.mul_assoc, Nat.sub_mul, Nat.one_mul]
    have : y ≤ b * b * y := Nat.le_mul_of_pos_left y hbb
    omega
  rw [hcarry]
  exact (Nat.modEq_zero_iff_dvd.mpr (Nat.dvd_mul_right _ _)).add_left _ |>.symm

/-- Swapping the digits of every term multiplies the sum by the base of a digit. -/
theorem sum_swap_modEq {b : Nat} (hb : 1 ≤ b) (x y : Nat → Nat) (n : Nat) :
    ∑ k ∈ Finset.range n, (b * x k + y k)
      ≡ b * ∑ k ∈ Finset.range n, (x k + b * y k) [MOD b * b - 1] := by
  induction n with
  | zero => exact Nat.ModEq.refl _
  | succ n ih =>
    rw [Finset.sum_range_succ, Finset.sum_range_succ, Nat.mul_add]
    exact ih.add (swap_modEq hb (x n) (y n))

end OnesComplement
