import Mathlib.Data.List.Basic

/-!
# A ledger of acquired resources

What a program holds, as a list, and what it gave back without holding it. Acquisitions may fail
one by one: `acquireEach` stops at the first that does and says how far it came, which is what the
unwinding loop after it counts down from.
-/

/-- What is held, the latest first, and what was released without being held: a double release does
not disappear from the record. -/
structure Ledger (ρ : Type*) where
  held : List ρ
  -- Released while not held.
  unheld : List ρ
deriving DecidableEq, Repr

namespace Ledger

variable {ρ : Type*} [DecidableEq ρ]

/-- Before the first acquisition. -/
def empty : Ledger ρ := ⟨[], []⟩

/-- Takes hold of a resource. -/
def acquire (l : Ledger ρ) (r : ρ) : Ledger ρ :=
  { l with held := r :: l.held }

/-- Gives a resource back, or records that it was not held. -/
def release (l : Ledger ρ) (r : ρ) : Ledger ρ :=
  if r ∈ l.held then { l with held := l.held.erase r }
  else { l with unheld := r :: l.unheld }

/-- Gives a number of resources back, one after another. -/
def releaseEach (l : Ledger ρ) (rs : List ρ) : Ledger ρ :=
  rs.foldl release l

/-- Drop what goes away together with something else. -/
def forget (l : Ledger ρ) (p : ρ → Bool) : Ledger ρ :=
  { l with held := l.held.filter fun r => !p r }

/-- Acquire the resources in order, each answered by an error code. The error is the ledger at the
first code that is not 0, the number acquired so far, and the code. -/
def acquireEach (l : Ledger ρ) : List (ρ × Int) → Except (Ledger ρ × Nat × Int) (Ledger ρ)
  | [] => .ok l
  | (r, err) :: rs =>
    if err ≠ 0 then .error (l, 0, err)
    else
      match (l.acquire r).acquireEach rs with
      | .ok l' => .ok l'
      | .error (l', i, err) => .error (l', i + 1, err)

/-- Acquired and given back at once. -/
@[simp] theorem release_acquire (l : Ledger ρ) (r : ρ) : (l.acquire r).release r = l := by
  simp [acquire, release]

theorem mem_of_mem_release {l : Ledger ρ} {r x : ρ} (h : x ∈ (l.release r).held) :
    x ∈ l.held := by
  unfold release at h
  split at h
  · exact List.mem_of_mem_erase h
  · exact h

theorem mem_of_mem_releaseEach {l : Ledger ρ} {rs : List ρ} {x : ρ}
    (h : x ∈ (l.releaseEach rs).held) : x ∈ l.held := by
  induction rs generalizing l with
  | nil => exact h
  | cons r rs ih => exact mem_of_mem_release (ih h)

omit [DecidableEq ρ] in
theorem mem_of_mem_forget {l : Ledger ρ} {p : ρ → Bool} {x : ρ} (h : x ∈ (l.forget p).held) :
    x ∈ l.held :=
  List.mem_of_mem_filter h

/-- Giving back what is not held is on record. -/
theorem release_unheld_ne_nil {l : Ledger ρ} {r : ρ} (h : r ∉ l.held) :
    (l.release r).unheld ≠ [] := by
  unfold release
  rw [if_neg h]
  exact List.cons_ne_nil _ _

omit [DecidableEq ρ] in
/-- If every acquisition succeeds all of them are held afterwards, the last one on top. -/
theorem acquireEach_of_all {rs : List (ρ × Int)} (h : ∀ p ∈ rs, p.2 = 0) (l : Ledger ρ) :
    l.acquireEach rs = .ok { l with held := (rs.map Prod.fst).reverse ++ l.held } := by
  induction rs generalizing l with
  | nil => rfl
  | cons p rs ih =>
    have hp : p.2 = 0 := h p (List.mem_cons_self ..)
    have hrest : ∀ q ∈ rs, q.2 = 0 := fun q hq => h q (List.mem_cons_of_mem p hq)
    unfold acquireEach
    rw [if_neg (by simpa using hp), ih hrest]
    simp [acquire]

omit [DecidableEq ρ] in
/-- If one fails the sequence stops there with its error, and nothing is held beyond what was and
what came before it. -/
theorem acquireEach_of_not_all {rs : List (ρ × Int)} (h : ¬ ∀ p ∈ rs, p.2 = 0) (l : Ledger ρ) :
    ∃ l' i err, l.acquireEach rs = .error (l', i, err) ∧ err ≠ 0
      ∧ ∀ x ∈ l'.held, x ∈ rs.map Prod.fst ∨ x ∈ l.held := by
  induction rs generalizing l with
  | nil => simp at h
  | cons p rs ih =>
    obtain ⟨r, err⟩ := p
    by_cases herr : err = 0
    · have hrest : ¬ ∀ q ∈ rs, q.2 = 0 := by
        intro hall
        exact h (by simpa [herr] using hall)
      obtain ⟨l', i, err', heq, hne, hheld⟩ := ih hrest (l.acquire r)
      refine ⟨l', i + 1, err', ?_, hne, ?_⟩
      · unfold acquireEach
        rw [if_neg (by simpa using herr), heq]
      · intro x hx
        have hx' := hheld x hx
        simp only [acquire, List.mem_cons] at hx'
        simp only [List.map_cons, List.mem_cons]
        tauto
    · refine ⟨l, 0, err, ?_, herr, fun x hx => Or.inr hx⟩
      unfold acquireEach
      rw [if_pos herr]

end Ledger
