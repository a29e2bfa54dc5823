import Mathlib.Data.List.Basic
import Mathlib.Data.List.Forall2
import Mathlib.Logic.Function.Basic

/-!
# Lanes

Several queues seen as one list: each entry is tagged with the lane it is in. Entries of one lane keep
their order, entries of different lanes do not.

`Follows R outs ins`: what has come out of each lane is, entry by entry, what went into it first. The
rules are those of a queue that anything may be put into and whose oldest entries come out.
-/

namespace Lanes

variable {ι κ α β γ : Type*} [DecidableEq ι]

/-! ## One lane

A lane is picked out by its index. The facts are those of a filter; what they are for is that a step
of the whole appends to one lane and leaves the others alone. -/

/-- What went through lane `i`, in order. -/
def lane (i : ι) (xs : List (ι × α)) : List α :=
  xs.filterMap fun x => if x.1 = i then some x.2 else none

@[simp] theorem lane_nil (i : ι) : lane i ([] : List (ι × α)) = [] := rfl

/-- A lane of two stretches is the two lanes in a row. -/
theorem lane_append (i : ι) (xs ys : List (ι × α)) : lane i (xs ++ ys) = lane i xs ++ lane i ys :=
  List.filterMap_append

@[simp] theorem lane_singleton_self (i : ι) (a : α) : lane i [(i, a)] = [a] := by
  simp [lane]

@[simp] theorem lane_singleton_of_ne {i j : ι} (h : j ≠ i) (a : α) : lane i [(j, a)] = [] := by
  simp [lane, h]

theorem lane_prefix (i : ι) {xs ys : List (ι × α)} (h : xs <+: ys) : lane i xs <+: lane i ys :=
  h.filterMap _

/-- What is in a lane is in the whole, under the lane's index. -/
theorem mem_lane {i : ι} {a : α} {xs : List (ι × α)} : a ∈ lane i xs ↔ (i, a) ∈ xs := by
  simp only [lane, List.mem_filterMap, Option.ite_none_right_eq_some, Option.some.injEq]
  constructor
  · rintro ⟨x, hx, rfl, rfl⟩
    exact hx
  · intro h
    exact ⟨(i, a), h, rfl, rfl⟩

/-- Lanes may be renamed. -/
theorem lane_map [DecidableEq κ] {g : ι → κ} (hg : Function.Injective g) (f : α → β) (i : ι)
    (xs : List (ι × α)) :
    lane (g i) (xs.map fun x => (g x.1, f x.2)) = (lane i xs).map f := by
  induction xs with
  | nil => rfl
  | cons x xs ih =>
    by_cases hx : x.1 = i
    · simpa [lane, hx] using ih
    · simpa [lane, hx, hg.ne hx] using ih

/-- Two wholes that agree element by element agree lane by lane. -/
theorem lane_forall₂ {S : α → γ → Prop} (i : ι) {xs : List (ι × α)} {ys : List (ι × γ)}
    (h : List.Forall₂ (fun x y => x.1 = y.1 ∧ S x.2 y.2) xs ys) :
    List.Forall₂ S (lane i xs) (lane i ys) := by
  refine List.rel_filterMap ?_ h
  rintro x y ⟨htag, hS⟩
  dsimp only
  rw [htag]
  split
  · exact .some hS
  · exact .none

/-! ## What comes out follows what goes in

The order is kept in each lane and not across lanes: two frames that come in on different ports may
overtake each other, two on one port may not. So the relation is stated lane by lane. -/

/-- Lane by lane, what came out corresponds to the first part of what went in, in order. Nothing is
said of the order across lanes. -/
def Follows (R : α → β → Prop) (outs : List (ι × β)) (ins : List (ι × α)) : Prop :=
  ∀ (i : ι) (k : Nat) (b : β), (lane i outs)[k]? = some b → ∃ a, (lane i ins)[k]? = some a ∧ R a b

variable {R : α → β → Prop} {outs : List (ι × β)} {ins : List (ι × α)}

/-- Before anything has come out there is nothing to show. -/
theorem follows_nil (R : α → β → Prop) (ins : List (ι × α)) : Follows R [] ins :=
  fun _ _ _ h => nomatch h

/-- More input changes nothing for what has come out. -/
theorem Follows.put (h : Follows R outs ins) {ins' : List (ι × α)} (hins : ins <+: ins') :
    Follows R outs ins' := by
  intro i k b hb
  obtain ⟨a, ha, hR⟩ := h i k b hb
  obtain ⟨later, hlater⟩ := lane_prefix i hins
  refine ⟨a, ?_, hR⟩
  rw [← hlater, List.getElem?_append_left (List.getElem?_eq_some_iff.mp ha).1, ha]

/-- The oldest entry of lane `j` that has not come out does. -/
theorem Follows.take (h : Follows R outs ins) {j : ι} {a : α} {b : β}
    (ha : (lane j ins)[(lane j outs).length]? = some a) (hR : R a b) :
    Follows R (outs ++ [(j, b)]) ins := by
  intro i k b' hb'
  rw [lane_append] at hb'
  by_cases hj : j = i
  · subst hj
    rw [lane_singleton_self] at hb'
    rcases Nat.lt_trichotomy k (lane j outs).length with hk | rfl | hk
    · rw [List.getElem?_append_left hk] at hb'
      exact h j k b' hb'
    · rw [List.getElem?_concat_length] at hb'
      cases hb'
      exact ⟨a, ha, hR⟩
    · rw [List.getElem?_eq_none (by simp; omega)] at hb'
      cases hb'
  · rw [lane_singleton_of_ne hj, List.append_nil] at hb'
    exact h i k b' hb'

/-- What held of a longer output held of a shorter one. -/
theorem Follows.earlier (h : Follows R outs ins) {outs' : List (ι × β)} (houts : outs' <+: outs) :
    Follows R outs' ins := by
  intro i k b hb
  obtain ⟨later, hlater⟩ := lane_prefix i houts
  refine h i k b ?_
  rw [← hlater, List.getElem?_append_left (List.getElem?_eq_some_iff.mp hb).1, hb]

/-- A shorter second list makes a shorter zip. -/
theorem zip_prefix {α β : Type*} (zs : List α) {xs ys : List β} (h : xs <+: ys) :
    zs.zip xs <+: zs.zip ys := by
  obtain ⟨later, rfl⟩ := h
  induction xs generalizing zs with
  | nil =>
    rw [List.zip_nil_right]
    exact List.nil_prefix
  | cons x xs ih =>
    cases zs with
    | nil => exact List.nil_prefix
    | cons z zs => exact List.cons_prefix_cons.mpr ⟨rfl, ih zs⟩

end Lanes
