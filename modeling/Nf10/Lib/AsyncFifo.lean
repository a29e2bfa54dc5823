import Mathlib.Data.List.Basic
import Mathlib.Logic.Function.Iterate

/-!
# FIFOs between two clocks

A queue with its two ends in different clock domains. An entry that has been written is in flight
until it becomes visible at the read side; how long that takes is left open, so it is an event of
its own (`sync`), one entry at a time and in order. The read side sees `seen` and nothing else.

`Carries` is the abstract view: what was written is what was read followed by what is inside.
-/

/-- The state of the FIFO. There is no capacity in it: whether there is room is told by a flag from
outside, and a write under that flag is lost. -/
structure AsyncFifo (α : Type*) where
  -- The entries the read side sees, oldest first.
  seen : List α
  -- Entries written and not yet visible.
  inFlight : List α
deriving DecidableEq, Repr

namespace AsyncFifo

variable {α : Type*}

/-- After reset nothing is inside. -/
def empty : AsyncFifo α := ⟨[], []⟩

/-- All entries inside, oldest first, visible or not. -/
def contents (f : AsyncFifo α) : List α :=
  f.seen ++ f.inFlight

/-- How many entries are inside; what a full flag is computed from. -/
def count (f : AsyncFifo α) : Nat :=
  f.contents.length

/-- A write while `full` is discarded. -/
def write (f : AsyncFifo α) (full : Bool) (x : α) : AsyncFifo α :=
  if full then f else { f with inFlight := f.inFlight ++ [x] }

/-- The oldest entry in flight becomes visible. -/
def sync (f : AsyncFifo α) : AsyncFifo α :=
  match f.inFlight with
  | [] => f
  | x :: rest => ⟨f.seen ++ [x], rest⟩

/-- Takes the oldest visible entry. With none visible it does nothing, like the read port of an
empty FIFO. -/
def read (f : AsyncFifo α) : AsyncFifo α :=
  { f with seen := f.seen.tail }

/-- What the data output shows: the oldest visible entry, or anything at all. -/
def front (f : AsyncFifo α) (stale : α) : α :=
  f.seen.head?.getD stale

@[simp] theorem contents_empty : (empty : AsyncFifo α).contents = [] := rfl

@[simp] theorem contents_write (f : AsyncFifo α) (x : α) :
    (f.write false x).contents = f.contents ++ [x] := by
  simp [write, contents]

@[simp] theorem write_full (f : AsyncFifo α) (x : α) : f.write true x = f := rfl

@[simp] theorem seen_write (f : AsyncFifo α) (full : Bool) (x : α) :
    (f.write full x).seen = f.seen := by
  cases full <;> rfl

@[simp] theorem contents_sync (f : AsyncFifo α) : f.sync.contents = f.contents := by
  obtain ⟨seen, inFlight⟩ := f
  cases inFlight with
  | nil => rfl
  | cons x rest => simp [sync, contents]

/-- The oldest visible entry is the oldest of all. -/
theorem contents_of_seen {f : AsyncFifo α} {x : α} {rest : List α} (h : f.seen = x :: rest) :
    f.contents = x :: f.read.contents := by
  simp [contents, read, h]

/-- A read of a FIFO that shows nothing is ignored. -/
theorem read_of_seen_nil {f : AsyncFifo α} (h : f.seen = []) : f.read = f := by
  obtain ⟨seen, inFlight⟩ := f
  subst h
  rfl

/-- What one arrival adds to what is visible: the oldest entry in flight, if there is one. -/
theorem seen_sync (f : AsyncFifo α) : f.sync.seen = f.seen ++ f.inFlight.head?.toList := by
  obtain ⟨seen, inFlight⟩ := f
  cases inFlight with
  | nil => simp [sync]
  | cons x rest => rfl

/-- An arrival takes nothing back that was visible, so an offer based on it stands. -/
theorem seen_prefix_sync (f : AsyncFifo α) : f.seen <+: f.sync.seen := by
  rw [seen_sync]
  exact List.prefix_append _ _

/-- Several entries become visible. -/
theorem sync_iterate (f : AsyncFifo α) (k : Nat) :
    sync^[k] f = ⟨f.seen ++ f.inFlight.take k, f.inFlight.drop k⟩ := by
  induction k generalizing f with
  | zero => simp
  | succ k ih =>
    rw [Function.iterate_succ_apply, ih]
    obtain ⟨seen, inFlight⟩ := f
    cases inFlight with
    | nil => simp [sync]
    | cons x rest => simp [sync]

/-- A write is not visible at once, so it makes no difference to a read of the same instant which of
the two comes first. -/
theorem read_write (f : AsyncFifo α) (full : Bool) (x : α) :
    (f.write full x).read = f.read.write full x := by
  cases full <;> rfl

/-- Nor does it to the arrival of entries that were in flight before it. -/
theorem sync_iterate_write (f : AsyncFifo α) (full : Bool) (x : α) {k : Nat}
    (hk : k ≤ f.inFlight.length) : sync^[k] (f.write full x) = (sync^[k] f).write full x := by
  cases full with
  | true => rfl
  | false =>
    simp only [sync_iterate, write, Bool.false_eq_true, if_false]
    rw [List.take_append_of_le_length hk, List.drop_append_of_le_length hk]

theorem count_read_le (f : AsyncFifo α) : f.read.count ≤ f.count := by
  simp [count, contents, read]

section Map

variable {β : Type*} (g : α → β)

/-- The FIFO with every entry read through `g`: what a user sees that looks at a part of it. -/
def map (f : AsyncFifo α) : AsyncFifo β :=
  ⟨f.seen.map g, f.inFlight.map g⟩

/-- A write of `x` is a write of `g x` to who looks through `g`. -/
theorem map_write (f : AsyncFifo α) (full : Bool) (x : α) :
    (f.write full x).map g = (f.map g).write full (g x) := by
  cases full with
  | true => rfl
  | false => simp [write, map]

/-- A read does not look at the entry it takes. -/
theorem map_read (f : AsyncFifo α) : f.read.map g = (f.map g).read := by
  simp [read, map]

theorem map_sync_iterate (f : AsyncFifo α) (k : Nat) :
    (sync^[k] f).map g = sync^[k] (f.map g) := by
  simp [sync_iterate, map]

@[simp] theorem isEmpty_seen_map (f : AsyncFifo α) :
    (f.map g).seen.isEmpty = f.seen.isEmpty := by
  simp [map]

theorem front_map (f : AsyncFifo α) (stale : α) :
    (f.map g).front (g stale) = g (f.front stale) := by
  obtain ⟨seen, inFlight⟩ := f
  cases seen <;> rfl

end Map

/-- The history view: of what was `written`, `popped` has been read and the rest is inside. -/
def Carries (f : AsyncFifo α) (written popped : List α) : Prop :=
  popped ++ f.contents = written

namespace Carries

variable {f : AsyncFifo α} {written popped : List α}

theorem init : Carries (empty : AsyncFifo α) [] [] := rfl

/-- A write that is not lost goes into the history of writes. -/
theorem write (h : f.Carries written popped) (x : α) :
    (f.write false x).Carries (written ++ [x]) popped := by
  unfold Carries at h ⊢
  rw [contents_write, ← List.append_assoc, h]

theorem sync (h : f.Carries written popped) : f.sync.Carries written popped := by
  unfold Carries at h ⊢
  rw [contents_sync, h]

/-- A read of an entry that is there goes into the history of reads. -/
theorem read (h : f.Carries written popped) {x : α} {rest : List α} (hseen : f.seen = x :: rest) :
    f.read.Carries written (popped ++ [x]) := by
  unfold Carries at h ⊢
  rw [← h, contents_of_seen hseen]
  simp

/-- What was read is a prefix of what was written: nothing is lost, doubled or overtaken. -/
theorem popped_isPrefix (h : f.Carries written popped) : popped <+: written :=
  ⟨f.contents, h⟩

end Carries

end AsyncFifo
