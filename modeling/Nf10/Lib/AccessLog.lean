import Mathlib.Logic.Function.Basic

/-!
# Memory accesses on record

A program over a memory `α → β` that records every address it reads or writes. What such a program
computes is a function of the memory; the record says which part of it. `loadAll` is a call that
reads a given set of addresses and returns a value, `storeList` one that stores values one behind
the other, `fill` one that stores the same value over and over.
-/

/-- The memory, and the addresses touched so far, in order. A load leaves the memory alone and is on
record all the same. -/
structure AccessLog (α β : Type*) where
  mem : α → β
  -- Addresses read or written, oldest first.
  touched : List α

/-- A program with its accesses on record. -/
def Access (α β γ : Type) : Type :=
  AccessLog α β → γ × AccessLog α β

namespace Access

variable {α β γ δ : Type}

/-- Runs a program from a memory and a log; what it returns comes with the log grown by its own
accesses. -/
def run (p : Access α β γ) (s : AccessLog α β) : γ × AccessLog α β :=
  p s

instance : Monad (Access α β) where
  pure x := fun s => (x, s)
  bind p q := fun s => (q (p.run s).1).run (p.run s).2

/-- Reads one place, and leaves the address in the log. -/
def load (i : α) : Access α β β :=
  fun s => (s.mem i, { s with touched := s.touched ++ [i] })

/-- Writes one place, and leaves the address in the log. -/
def store [DecidableEq α] (i : α) (v : β) : Access α β Unit :=
  fun s => ((), { s with mem := Function.update s.mem i v, touched := s.touched ++ [i] })

/-- Reads a number of places at once and computes with what is there, for a call whose reads are
known but whose body is not under study. -/
def loadAll (is : List α) (f : (α → β) → γ) : Access α β γ :=
  fun s => (f s.mem, { s with touched := s.touched ++ is })

@[simp] theorem run_pure (x : γ) (s : AccessLog α β) : (pure x : Access α β γ).run s = (x, s) := rfl

@[simp] theorem run_bind (p : Access α β γ) (q : γ → Access α β δ) (s : AccessLog α β) :
    (p >>= q).run s = (q (p.run s).1).run (p.run s).2 := rfl

@[simp] theorem run_load (i : α) (s : AccessLog α β) :
    (load i).run s = (s.mem i, { s with touched := s.touched ++ [i] }) := rfl

@[simp] theorem run_store [DecidableEq α] (i : α) (v : β) (s : AccessLog α β) :
    (store i v).run s
      = ((), { s with mem := Function.update s.mem i v, touched := s.touched ++ [i] }) := rfl

@[simp] theorem run_loadAll (is : List α) (f : (α → β) → γ) (s : AccessLog α β) :
    (loadAll is f).run s = (f s.mem, { s with touched := s.touched ++ is }) := rfl

/-! ## Stores in a row

The calls of a program that write a stretch of memory: what they leave there, and that their log is
exactly the stretch. Whether such a call stays inside a buffer is then a comparison of numbers. -/

/-- Writes a list from `i` on, one place after another: a `memcpy` or a `strcpy` of known bytes. -/
def storeList (i : Nat) : List β → Access Nat β Unit
  | [] => pure ()
  | v :: vs => do
    store i v
    storeList (i + 1) vs

/-- The log of `storeList` is the extent of the list, whatever is written into it. -/
theorem mem_touched_storeList (i : Nat) (vs : List β) (s : AccessLog Nat β) (a : Nat) :
    a ∈ ((storeList i vs).run s).2.touched ↔ a ∈ s.touched ∨ i ≤ a ∧ a < i + vs.length := by
  induction vs generalizing i s with
  | nil =>
    show a ∈ s.touched ↔ _
    simp only [List.length_nil]
    constructor
    · exact Or.inl
    · rintro (h | h)
      · exact h
      · omega
  | cons v vs ih =>
    show a ∈ ((storeList (i + 1) vs).run ((store i v).run s).2).2.touched ↔ _
    rw [ih, run_store]
    simp only [List.mem_append, List.mem_singleton, List.length_cons]
    constructor
    · rintro ((h | h) | h)
      · exact Or.inl h
      · exact Or.inr (by omega)
      · exact Or.inr (by omega)
    · rintro (h | h)
      · exact Or.inl (Or.inl h)
      · rcases Nat.eq_or_lt_of_le h.1 with heq | hlt
        · exact Or.inl (Or.inr heq.symm)
        · exact Or.inr (by omega)

theorem storeList_mem_of_lt {i a : Nat} (h : a < i) (vs : List β) (s : AccessLog Nat β) :
    ((storeList i vs).run s).2.mem a = s.mem a := by
  induction vs generalizing i s with
  | nil => rfl
  | cons v vs ih =>
    show ((storeList (i + 1) vs).run ((store i v).run s).2).2.mem a = _
    rw [ih (by omega), run_store]
    exact Function.update_of_ne (by omega) _ _

theorem storeList_mem_of_ge {i a : Nat} {vs : List β} (h : i + vs.length ≤ a) (s : AccessLog Nat β) :
    ((storeList i vs).run s).2.mem a = s.mem a := by
  induction vs generalizing i s with
  | nil => rfl
  | cons v vs ih =>
    rw [List.length_cons] at h
    show ((storeList (i + 1) vs).run ((store i v).run s).2).2.mem a = _
    rw [ih (by omega), run_store]
    exact Function.update_of_ne (by omega) _ _

/-- Inside the range that was stored stands the list, element by element. -/
theorem storeList_mem_add {i k : Nat} {vs : List β} {v : β} (h : vs[k]? = some v)
    (s : AccessLog Nat β) : ((storeList i vs).run s).2.mem (i + k) = v := by
  induction vs generalizing i k s with
  | nil => simp at h
  | cons w vs ih =>
    show ((storeList (i + 1) vs).run ((store i w).run s).2).2.mem (i + k) = v
    cases k with
    | zero =>
      rw [storeList_mem_of_lt (by omega), run_store]
      simpa using h
    | succ k =>
      rw [show i + (k + 1) = i + 1 + k by omega]
      exact ih (by simpa using h) _

/-- One value stored `len` times. -/
def fill (i : Nat) (v : β) (len : Nat) : Access Nat β Unit :=
  storeList i (List.replicate len v)

theorem mem_touched_fill (i : Nat) (v : β) (len : Nat) (s : AccessLog Nat β) (a : Nat) :
    a ∈ ((fill i v len).run s).2.touched ↔ a ∈ s.touched ∨ i ≤ a ∧ a < i + len := by
  rw [fill, mem_touched_storeList, List.length_replicate]

/-- `memset` in one equation: the value inside the extent, the old contents outside. -/
theorem fill_mem (i : Nat) (v : β) (len : Nat) (s : AccessLog Nat β) (a : Nat) :
    ((fill i v len).run s).2.mem a = if i ≤ a ∧ a < i + len then v else s.mem a := by
  unfold fill
  split
  · next h =>
    obtain ⟨k, rfl⟩ := Nat.exists_eq_add_of_le h.1
    apply storeList_mem_add
    rw [List.getElem?_replicate, if_pos (by omega)]
  · next h =>
    by_cases hlt : a < i
    · exact storeList_mem_of_lt hlt _ _
    · apply storeList_mem_of_ge
      rw [List.length_replicate]
      omega

/-- Every access stays below `len`. -/
def Within (p : Access Nat β γ) (mem : Nat → β) (len : Nat) : Prop :=
  ∀ i ∈ (p.run ⟨mem, []⟩).2.touched, i < len

instance (p : Access Nat β γ) (mem : Nat → β) (len : Nat) : Decidable (Within p mem len) :=
  inferInstanceAs (Decidable (∀ i ∈ (p.run ⟨mem, []⟩).2.touched, i < len))

end Access
