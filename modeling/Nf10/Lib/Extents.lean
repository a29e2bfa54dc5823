import Mathlib.Algebra.Ring.Nat
import Mathlib.Data.List.Basic
import Mathlib.Data.Set.Lattice
import Mathlib.Order.CompletePartialOrder
import Mathlib.Order.Interval.Set.Basic

/-!
# Extents in memory

Ranges of addresses by start and size. `Tiles` says that some of them fill an interval without
overlap; `chain` places sizes one behind the other, and a chain always tiles (`tiles_chain`). An
array is the chain of equal sizes (`chain_replicate`).
-/

/-- A stretch of memory: `size` bytes from `start` on. -/
structure Extent where
  start : Nat
  size : Nat
deriving DecidableEq, Repr

namespace Extent

/-- The addresses of an extent. -/
def bytes (e : Extent) : Set Nat :=
  Set.Ico e.start (e.start + e.size)

@[simp] theorem mem_bytes {e : Extent} {a : Nat} :
    a ∈ e.bytes ↔ e.start ≤ a ∧ a < e.start + e.size := Iff.rfl

/-- No two of the extents overlap, and together they are the interval from `lo` to `hi`. -/
structure Tiles (es : List Extent) (lo hi : Nat) : Prop where
  apart : es.Pairwise fun e f => Disjoint e.bytes f.bytes
  fills : ∀ a, (∃ e ∈ es, a ∈ e.bytes) ↔ lo ≤ a ∧ a < hi

/-- Sizes placed one behind the other. -/
def chain (base : Nat) : List Nat → List Extent
  | [] => []
  | w :: ws => ⟨base, w⟩ :: chain (base + w) ws

/-- Extents laid end to end, in two parts: the second starts where the first ends. -/
theorem chain_append (base : Nat) (vs ws : List Nat) :
    chain base (vs ++ ws) = chain base vs ++ chain (base + vs.sum) ws := by
  induction vs generalizing base with
  | nil => rfl
  | cons v vs ih =>
    simp only [List.cons_append, chain, ih, List.sum_cons, Nat.add_assoc]

/-- An array of `n` elements. -/
def array (base w n : Nat) : List Extent :=
  (List.range n).map fun i => ⟨base + i * w, w⟩

theorem chain_replicate (base w n : Nat) : chain base (List.replicate n w) = array base w n := by
  induction n with
  | zero => rfl
  | succ n ih =>
    rw [List.replicate_succ', chain_append, ih]
    simp [chain, array, List.range_succ]

/-- **A chain tiles** the interval from its base on. -/
theorem tiles_chain (base : Nat) (ws : List Nat) :
    Tiles (chain base ws) base (base + ws.sum) := by
  induction ws generalizing base with
  | nil =>
    refine ⟨List.Pairwise.nil, ?_⟩
    intro a
    simp only [chain, List.not_mem_nil, false_and, exists_false, List.sum_nil, false_iff]
    omega
  | cons w ws ih =>
    have hrest := ih (base + w)
    refine ⟨List.Pairwise.cons ?_ hrest.apart, ?_⟩
    · intro e he
      rw [Set.disjoint_left]
      intro a ha hae
      -- the others start behind the first
      have hbehind := (hrest.fills a).mp ⟨e, he, hae⟩
      exact absurd ha.2 (Nat.not_lt.mpr hbehind.1)
    · intro a
      simp only [chain, List.mem_cons, exists_eq_or_imp, List.sum_cons]
      rw [hrest.fills a]
      show (base ≤ a ∧ a < base + w ∨ _) ↔ _
      omega

theorem Tiles.bounds {es : List Extent} {lo hi : Nat} (h : Tiles es lo hi) {e : Extent} (he : e ∈ es)
    {a : Nat} (ha : a ∈ e.bytes) : lo ≤ a ∧ a < hi :=
  (h.fills a).mp ⟨e, he, ha⟩

end Extent
