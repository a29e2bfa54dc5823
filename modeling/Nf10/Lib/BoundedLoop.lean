import Mathlib.Data.List.Basic

/-!
# Loops that end within a bound

`while (test) body` as a function of its fuel, the number of iterations it may make; running out is
`none`. The body gets the number of the iteration, so that what the surroundings answer may differ
from one iteration to the next.

`whileLoop_of_false` is the rule: a loop whose test would fail after `n` iterations ends within `n`,
after the first number of them at which it fails.
-/

namespace BoundedLoop

variable {σ : Type*} (test : σ → Bool) (body : Nat → σ → σ)

/-- The loop from iteration `k` on. -/
def whileLoop : (fuel k : Nat) → σ → Option σ
  | 0, _, s => if test s then none else some s
  | fuel + 1, k, s => if test s then whileLoop fuel (k + 1) (body k s) else some s

/-- The state after a number of iterations, test or no test. -/
def iterates (s : σ) : Nat → σ
  | 0 => s
  | k + 1 => body k (iterates s k)

@[simp] theorem iterates_zero (s : σ) : iterates body s 0 = s := rfl

@[simp] theorem iterates_succ (s : σ) (k : Nat) :
    iterates body s (k + 1) = body k (iterates body s k) := rfl

variable {test body}

/-- The induction behind `whileLoop_of_false`, from the `k`-th iterate on: if the test is false
after `fuel` more rounds at the latest, the loop ends at the first round where it is. -/
theorem whileLoop_of_false_from {s : σ} {fuel k : Nat}
    (h : test (iterates body s (k + fuel)) = false) :
    ∃ m, k ≤ m ∧ m ≤ k + fuel
      ∧ whileLoop test body fuel k (iterates body s k) = some (iterates body s m)
      ∧ (∀ j, k ≤ j → j < m → test (iterates body s j) = true)
      ∧ test (iterates body s m) = false := by
  induction fuel generalizing k with
  | zero =>
    refine ⟨k, Nat.le_refl k, Nat.le_refl k, ?_, by omega, h⟩
    unfold whileLoop
    rw [if_neg (by simpa using h)]
  | succ fuel ih =>
    cases htest : test (iterates body s k) with
    | false =>
      refine ⟨k, Nat.le_refl k, by omega, ?_, by omega, htest⟩
      unfold whileLoop
      rw [if_neg (by simp [htest])]
    | true =>
      rw [← Nat.add_assoc, Nat.add_right_comm] at h
      obtain ⟨m, hk, hm, heq, hall, hend⟩ := ih h
      refine ⟨m, by omega, by omega, ?_, ?_, hend⟩
      · unfold whileLoop
        rw [if_pos htest]
        exact heq
      · intro j hj hjm
        rcases Nat.eq_or_lt_of_le hj with rfl | hlt
        · exact htest
        · exact hall j hlt hjm

/-- **The loop ends** after the first number of iterations at which its test fails. -/
theorem whileLoop_of_false {s : σ} {n : Nat} (h : test (iterates body s n) = false) :
    ∃ m ≤ n, whileLoop test body n 0 s = some (iterates body s m)
      ∧ (∀ j < m, test (iterates body s j) = true) ∧ test (iterates body s m) = false := by
  rw [← Nat.zero_add n] at h
  obtain ⟨m, -, hm, heq, hall, hend⟩ := whileLoop_of_false_from h
  exact ⟨m, by omega, heq, fun j hj => hall j (Nat.zero_le j) hj, hend⟩

end BoundedLoop
