import Mathlib.Data.Finset.Card
import Mathlib.Data.Finset.Image
import Mathlib.Data.Nat.ModEq
import Mathlib.Order.Interval.Finset.Nat

/-!
# Circular queues with per-slot full marks

A ring of `n` slots shared by a producer and a consumer that exchange nothing but a mark per
slot. The abstract view is a history: `hist` is everything ever put in, `lo` how many entries
have been taken out, and entry `j` lives in slot `j % n`. Counting entries absolutely, and not
from a moving head, keeps wrap-around out of the statements.

* **`next`** — the successor index as C code writes it (increment, reset at the end);
* **`Holds`** — the representation relation between the history and the slots;
* **`Holds.push` / `Holds.pop`** — its preservation by one insertion and one removal;
* **`Holds.full_tail_iff`** — the mark at the tail says whether the ring is full;
* **`Holds.card_free`** — the unmarked slots are exactly the free capacity.
-/

namespace CircularQueue

/-- Increment an index and reset it when it reaches the ring size. -/
def next (n i : Nat) : Nat :=
  if i + 1 = n then 0 else i + 1

/-- Stepping the slot of entry `k` gives the slot of entry `k + 1`. -/
theorem next_mod {n : Nat} (hn : 0 < n) (k : Nat) : next n (k % n) = (k + 1) % n := by
  have hk : k % n < n := Nat.mod_lt k hn
  rw [← Nat.mod_add_mod]
  unfold next
  split
  · next hwrap => rw [hwrap, Nat.mod_self]
  · next hstay => exact (Nat.mod_eq_of_lt (by omega : k % n + 1 < n)).symm

/-- Two entries at most a ring apart that share a slot are the same entry. -/
theorem eq_of_mod_eq {n lo j k : Nat} (hj : lo ≤ j) (hjn : j < lo + n) (hk : lo ≤ k)
    (hkn : k < lo + n) (h : j % n = k % n) : j = k := by
  wlog hjk : j ≤ k generalizing j k
  · exact (this hk hkn hj hjn h.symm (by omega)).symm
  have hdvd : n ∣ k - j := (Nat.modEq_iff_dvd' hjk).mp h
  rcases Nat.eq_zero_or_pos (k - j) with h0 | h0
  · omega
  · have := Nat.le_of_dvd h0 hdvd
    omega

/-- **The representation relation.** Of the history `hist`, the entries from `lo` on sit in
their slots; exactly these slots are marked `full`; they fit in the ring. -/
structure Holds {α : Type*} (n : Nat) (hist : List α) (lo : Nat) (full : Nat → Prop)
    (slot : Nat → α → Prop) : Prop where
  lo_le : lo ≤ hist.length
  fits : hist.length ≤ lo + n
  full_iff : ∀ i < n, full i ↔ ∃ j, lo ≤ j ∧ j < hist.length ∧ j % n = i
  entry : ∀ j (h : j < hist.length), lo ≤ j → slot (j % n) hist[j]

namespace Holds

variable {α : Type*} {n lo : Nat} {hist : List α} {full full' : Nat → Prop}
  {slot slot' : Nat → α → Prop}

theorem init (hfull : ∀ i < n, ¬ full i) : Holds n ([] : List α) 0 full slot where
  lo_le := Nat.le_refl _
  fits := Nat.zero_le _
  full_iff i hi := by simp [hfull i hi]
  entry j h := absurd h (Nat.not_lt_zero j)

/-- The slot the next entry would go to is marked exactly when a whole ring of entries is
outstanding. -/
theorem full_tail_iff (hn : 0 < n) (h : Holds n hist lo full slot) :
    full (hist.length % n) ↔ hist.length = lo + n := by
  rw [h.full_iff _ (Nat.mod_lt _ hn)]
  constructor
  · rintro ⟨j, hlo, hlt, hmod⟩
    by_contra hne
    have hfits := h.fits
    have := eq_of_mod_eq hlo (by omega) h.lo_le (by omega) hmod
    omega
  · intro heq
    refine ⟨lo, Nat.le_refl _, by omega, ?_⟩
    rw [heq, Nat.add_mod_right]

/-- The test a consumer makes at its own index: the slot there is full exactly when something is
outstanding. -/
theorem full_head_iff (hn : 0 < n) (h : Holds n hist lo full slot) :
    full (lo % n) ↔ lo < hist.length := by
  rw [h.full_iff _ (Nat.mod_lt _ hn)]
  constructor
  · rintro ⟨j, hlo, hlt, _⟩
    omega
  · intro hlt
    exact ⟨lo, Nat.le_refl _, hlt, rfl⟩

/-- The slots may be re-described as long as the marks stay and the marked slots keep their
entries. -/
theorem congr (hn : 0 < n) (h : Holds n hist lo full slot) (hfull : ∀ i < n, full' i ↔ full i)
    (hslot : ∀ i m, i < n → full i → slot i m → slot' i m) :
    Holds n hist lo full' slot' where
  lo_le := h.lo_le
  fits := h.fits
  full_iff i hi := (hfull i hi).trans (h.full_iff i hi)
  entry j hj hlo := by
    have hi : j % n < n := Nat.mod_lt _ hn
    exact hslot _ _ hi ((h.full_iff _ hi).mpr ⟨j, hlo, hj, rfl⟩) (h.entry j hj hlo)

/-- **Insertion.** Marking the tail slot and storing the new entry there, leaving every other
slot's mark and entry alone, extends the history. -/
theorem push (hn : 0 < n) (h : Holds n hist lo full slot) {x : α}
    (hspace : hist.length < lo + n)
    (hfull : ∀ i < n, full' i ↔ full i ∨ i = hist.length % n)
    (hnew : slot' (hist.length % n) x)
    (hold : ∀ i m, i < n → i ≠ hist.length % n → slot i m → slot' i m) :
    Holds n (hist ++ [x]) lo full' slot' where
  lo_le := by
    have := h.lo_le
    simp only [List.length_append, List.length_singleton]
    omega
  fits := by
    simp only [List.length_append, List.length_singleton]
    omega
  full_iff i hi := by
    rw [hfull i hi, h.full_iff i hi]
    have hlo := h.lo_le
    constructor
    · rintro (⟨j, hj, hlt, hmod⟩ | rfl)
      · exact ⟨j, hj, by simp only [List.length_append, List.length_singleton]; omega, hmod⟩
      · exact ⟨hist.length, hlo, by simp, rfl⟩
    · rintro ⟨j, hj, hlt, hmod⟩
      simp only [List.length_append, List.length_singleton] at hlt
      rcases Nat.lt_or_ge j hist.length with hlt' | hge
      · exact Or.inl ⟨j, hj, hlt', hmod⟩
      · have : j = hist.length := by omega
        exact Or.inr (by rw [← hmod, this])
  entry j hj hlo := by
    simp only [List.length_append, List.length_singleton] at hj
    rcases Nat.lt_or_ge j hist.length with hlt | hge
    · rw [List.getElem_append_left hlt]
      -- an outstanding entry is less than a ring away from the tail, so it keeps its own slot
      have hne : j % n ≠ hist.length % n := by
        intro hmod
        have := eq_of_mod_eq hlo (by omega) h.lo_le (by omega) hmod
        omega
      exact hold _ _ (Nat.mod_lt _ hn) hne (h.entry j hlt hlo)
    · have hj' : j = hist.length := by omega
      subst hj'
      simpa using hnew

/-- **Removal.** Unmarking the slot of the oldest outstanding entry retires it. -/
theorem pop (hn : 0 < n) (h : Holds n hist lo full slot) (hlt : lo < hist.length)
    (hfull : ∀ i < n, full' i ↔ full i ∧ i ≠ lo % n)
    (hold : ∀ i m, i < n → slot i m → slot' i m) :
    Holds n hist (lo + 1) full' slot' where
  lo_le := hlt
  fits := by
    have := h.fits
    omega
  full_iff i hi := by
    rw [hfull i hi, h.full_iff i hi]
    have hfits := h.fits
    constructor
    · -- the entry of a slot other than the oldest one's comes later
      rintro ⟨⟨j, hj, hjlt, hmod⟩, hne⟩
      refine ⟨j, ?_, hjlt, hmod⟩
      rcases Nat.eq_or_lt_of_le hj with heq | hlt'
      · exact absurd (by rw [← hmod, heq]) hne
      · exact hlt'
    · rintro ⟨j, hj, hjlt, hmod⟩
      refine ⟨⟨j, by omega, hjlt, hmod⟩, ?_⟩
      -- a later entry in the oldest one's slot would be a whole ring away
      rintro rfl
      have hjlo : lo ≤ j := by omega
      have := eq_of_mod_eq hjlo (by omega) (Nat.le_refl lo) (by omega) hmod
      omega
  entry j hj hlo := hold _ _ (Nat.mod_lt _ hn) (h.entry j hj (by omega))

/-- **Free slots are free capacity.** The unmarked slots number the ring size less the entries
outstanding. -/
theorem card_free (hn : 0 < n) (h : Holds n hist lo full slot) [DecidablePred full] :
    ((Finset.range n).filter fun i => ¬ full i).card = lo + n - hist.length := by
  -- the marked slots are the slots of the outstanding entries, which are all different
  have himage : (Finset.range n).filter full
      = (Finset.Ico lo hist.length).image fun j => j % n := by
    ext i
    simp only [Finset.mem_filter, Finset.mem_range, Finset.mem_image, Finset.mem_Ico]
    constructor
    · rintro ⟨hi, hf⟩
      obtain ⟨j, hlo, hlt, hmod⟩ := (h.full_iff i hi).mp hf
      exact ⟨j, ⟨hlo, hlt⟩, hmod⟩
    · rintro ⟨j, ⟨hlo, hlt⟩, rfl⟩
      have hi := Nat.mod_lt j hn
      exact ⟨hi, (h.full_iff _ hi).mpr ⟨j, hlo, hlt, rfl⟩⟩
  have hcard : ((Finset.range n).filter full).card = hist.length - lo := by
    rw [himage, Finset.card_image_of_injOn, Nat.card_Ico]
    intro a ha b hb hab
    simp only [Finset.coe_Ico, Set.mem_Ico] at ha hb
    have hfits := h.fits
    exact eq_of_mod_eq ha.1 (by omega) hb.1 (by omega) hab
  have hsum := Finset.card_filter_add_card_filter_not (s := Finset.range n) full
  rw [Finset.card_range, hcard] at hsum
  have hlo := h.lo_le
  have hfits := h.fits
  omega

end Holds

end CircularQueue
