import Mathlib.Algebra.Ring.Nat
import Mathlib.Data.List.Induction

/-!
# Tagged records one behind the other

A format of records whose headers hold a tag and a length, laid out in a memory `Nat → β`. Each
record takes the room that `space` gives its length; padding is what that leaves unused.

* **`Holds`**: the memory from `p` on holds a list of records.
* **`walk`**: the positions met on the way from header to header while a record still fits into what
  remains. What remains may end up negative: the padding of the last record need not be there.
* **`walk_of_holds`**: over the records that memory holds, the walk meets all of them and nothing
  remains.
* **`index_of_holds`**: the last position with a tag is that of the last record with it.
-/

namespace Records

/-- A record as its writer sees it: a tag and its data. -/
structure Record (β : Type*) where
  tag : Nat
  data : List β

/-- How records lie in memory: the size of the header, how the length and the tag are read off it, and
how much room a record takes, which is its length and at most `slack` bytes of padding. -/
structure Format (β : Type*) where
  hdr : Nat
  len : (Nat → β) → Nat
  tag : (Nat → β) → Nat
  space : Nat → Nat
  slack : Nat
  hdr_pos : 0 < hdr
  le_space : ∀ n, n ≤ space n
  space_le : ∀ n, space n ≤ n + slack
  len_congr : ∀ m m' : Nat → β, (∀ i < hdr, m i = m' i) → len m = len m'
  tag_congr : ∀ m m' : Nat → β, (∀ i < hdr, m i = m' i) → tag m = tag m'

namespace Format

variable {β : Type*} (F : Format β) (mem : Nat → β)

/-- The length of the record at `p`, its header included. -/
def lenAt (p : Nat) : Nat :=
  F.len fun i => mem (p + i)

/-- The tag field of the record at `p`. -/
def tagAt (p : Nat) : Nat :=
  F.tag fun i => mem (p + i)

/-- A record that is at least a header and no longer than what remains. -/
def Fits (p : Nat) (rem : Int) : Prop :=
  F.hdr ≤ F.lenAt mem p ∧ (F.lenAt mem p : Int) ≤ rem

instance (p : Nat) (rem : Int) : Decidable (F.Fits mem p rem) :=
  inferInstanceAs (Decidable (_ ∧ _))

/-- Where a walk has been, and where it stopped with how much remaining. -/
structure Walk where
  seen : List Nat
  pos : Nat
  rem : Int

/-- The reader's loop over records of unknown origin, from `p` on with `rem` bytes left, as long as
one fits. It ends because every record takes room. -/
def walk (p : Nat) (rem : Int) : Walk :=
  if F.Fits mem p rem then
    let w := walk (p + F.space (F.lenAt mem p)) (rem - F.space (F.lenAt mem p))
    ⟨p :: w.seen, w.pos, w.rem⟩
  else ⟨[], p, rem⟩
termination_by rem.toNat
decreasing_by
  next h =>
    have hpos := F.hdr_pos
    have hspace := F.le_space (F.lenAt mem p)
    unfold Fits at h
    omega

/-! ## What a walk meets

A walk is over bytes of any origin. Wherever it goes, it stays inside the range it was given, and it
sees no byte outside. -/

theorem walk_of_fits {p : Nat} {rem : Int} (h : F.Fits mem p rem) :
    F.walk mem p rem
      = ⟨p :: (F.walk mem (p + F.space (F.lenAt mem p)) (rem - F.space (F.lenAt mem p))).seen,
          (F.walk mem (p + F.space (F.lenAt mem p)) (rem - F.space (F.lenAt mem p))).pos,
          (F.walk mem (p + F.space (F.lenAt mem p)) (rem - F.space (F.lenAt mem p))).rem⟩ := by
  rw [walk, if_pos h]

theorem walk_of_not_fits {p : Nat} {rem : Int} (h : ¬ F.Fits mem p rem) :
    F.walk mem p rem = ⟨[], p, rem⟩ := by
  rw [walk, if_neg h]

/-- Whatever the bytes are, a record that the loop visits has a header and lies wholly inside the
range. -/
theorem walk_inside (p : Nat) (rem : Int) :
    ∀ q ∈ (F.walk mem p rem).seen,
      p ≤ q ∧ F.hdr ≤ F.lenAt mem q ∧ (q : Int) + F.lenAt mem q ≤ p + rem := by
  induction p, rem using walk.induct F mem with
  | case1 p rem h ih =>
    rw [walk_of_fits F mem h]
    have hspace := F.le_space (F.lenAt mem p)
    rintro q (_ | ⟨_, hq⟩)
    · exact ⟨Nat.le_refl p, h.1, by have := h.2; omega⟩
    · obtain ⟨hpq, hhdr, hend⟩ := ih q hq
      exact ⟨by omega, hhdr, by push_cast at hend; omega⟩
  | case2 p rem h =>
    rw [walk_of_not_fits F mem h]
    simp

/-- The walk ends where nothing fits, having overshot the end by the last padding at most. -/
theorem walk_stop (p : Nat) (rem : Int) :
    p ≤ (F.walk mem p rem).pos
      ∧ ((F.walk mem p rem).pos : Int) + (F.walk mem p rem).rem = p + rem
      ∧ ¬ F.Fits mem (F.walk mem p rem).pos (F.walk mem p rem).rem
      ∧ min rem (-F.slack) ≤ (F.walk mem p rem).rem := by
  induction p, rem using walk.induct F mem with
  | case1 p rem h ih =>
    rw [walk_of_fits F mem h]
    obtain ⟨hpos, hsum, hstop, hlow⟩ := ih
    have hslack := F.space_le (F.lenAt mem p)
    have hrem := h.2
    refine ⟨Nat.le_trans (by omega) hpos, ?_, hstop, Int.le_trans (by omega) hlow⟩
    rw [hsum]
    push_cast
    omega
  | case2 p rem h =>
    rw [walk_of_not_fits F mem h]
    exact ⟨Nat.le_refl p, rfl, h, Int.min_le_left _ _⟩

/-- A walk is settled by the memory it walks over. -/
theorem walk_congr {mem' : Nat → β} (p : Nat) (rem : Int)
    (h : ∀ a, p ≤ a → (a : Int) < p + rem → mem' a = mem a) :
    F.walk mem' p rem = F.walk mem p rem := by
  induction p, rem using walk.induct F mem with
  | case1 p rem hfit ih =>
    have hrem := hfit.2
    have hhdr := hfit.1
    have hlen : F.lenAt mem' p = F.lenAt mem p :=
      F.len_congr _ _ fun i hi => h (p + i) (by omega) (by push_cast; omega)
    have hfit' : F.Fits mem' p rem := by
      unfold Fits
      rw [hlen]
      exact hfit
    rw [walk_of_fits F mem hfit, walk_of_fits F mem' hfit', hlen, ih]
    intro a ha hlt
    exact h a (by omega) (by push_cast at hlt; omega)
  | case2 p rem hfit =>
    rw [walk_of_not_fits F mem hfit, walk_of_not_fits]
    intro hfit'
    have hrem := hfit'.2
    -- a header that does not fit may lie outside, but then the other one would have to fit
    by_cases hin : (F.hdr : Int) ≤ rem
    · have hlen : F.lenAt mem' p = F.lenAt mem p :=
        F.len_congr _ _ fun i hi => h (p + i) (by omega) (by push_cast; omega)
      unfold Fits at hfit hfit'
      rw [hlen] at hfit'
      exact hfit hfit'
    · have hhdr := hfit'.1
      omega

/-! ## Memory that holds records

The other side: a memory that a writer has filled. A walk over it visits the records, in order, and
nothing else. -/

/-- The record `r` lies at `p`: its header says so and its data follow. -/
structure At (p : Nat) (r : Record β) : Prop where
  tag : F.tagAt mem p = r.tag
  len : F.lenAt mem p = F.hdr + r.data.length
  data : ∀ i (h : i < r.data.length), mem (p + F.hdr + i) = r.data[i]

/-- The room a record takes. -/
def extent (r : Record β) : Nat :=
  F.space (F.hdr + r.data.length)

/-- Room for a list of records. -/
def size (rs : List (Record β)) : Nat :=
  (rs.map F.extent).sum

/-- The records lie one behind the other from `p` on. -/
def Holds : Nat → List (Record β) → Prop
  | _, [] => True
  | p, r :: rs => F.At mem p r ∧ Holds (p + F.extent r) rs

/-- Between the end of each record and the next, the memory holds `z`. -/
def Padded (z : β) : Nat → List (Record β) → Prop
  | _, [] => True
  | p, r :: rs =>
    (∀ a, p + (F.hdr + r.data.length) ≤ a → a < p + F.extent r → mem a = z)
      ∧ Padded z (p + F.extent r) rs

/-- Where they begin. -/
def positions : Nat → List (Record β) → List Nat
  | _, [] => []
  | p, r :: rs => p :: positions (p + F.extent r) rs

@[simp] theorem size_nil : F.size ([] : List (Record β)) = 0 := rfl

@[simp] theorem size_cons (r : Record β) (rs : List (Record β)) :
    F.size (r :: rs) = F.extent r + F.size rs := by
  simp [size]

theorem size_append (rs rs' : List (Record β)) : F.size (rs ++ rs') = F.size rs + F.size rs' := by
  simp [size]

/-- A record takes the room of its header and its data at least; the rest is padding. -/
theorem le_extent (r : Record β) : F.hdr + r.data.length ≤ F.extent r :=
  F.le_space _

/-- One record of a list takes no more room than the list. -/
theorem extent_le_size {r : Record β} {rs : List (Record β)} (h : r ∈ rs) :
    F.extent r ≤ F.size rs := by
  induction rs with
  | nil => cases h
  | cons r' rs ih =>
    rw [size_cons]
    rcases List.mem_cons.mp h with rfl | h
    · omega
    · have hle := ih h
      omega

/-- A list takes a header for each record at least, which bounds how many fit a buffer. -/
theorem hdr_mul_length_le_size (rs : List (Record β)) : F.hdr * rs.length ≤ F.size rs := by
  induction rs with
  | nil => simp
  | cons r rs ih =>
    have hle := F.le_extent r
    rw [size_cons, List.length_cons, Nat.mul_succ]
    omega

variable {F mem}

theorem At.congr {mem' : Nat → β} {p : Nat} {r : Record β} (hr : F.At mem p r)
    (h : ∀ a, p ≤ a → a < p + F.extent r → mem' a = mem a) : F.At mem' p r := by
  have hle := F.le_extent r
  have hhdr : ∀ i < F.hdr, mem' (p + i) = mem (p + i) := fun i hi => h _ (by omega) (by omega)
  refine ⟨?_, ?_, ?_⟩
  · exact (F.tag_congr _ _ hhdr).trans hr.tag
  · exact (F.len_congr _ _ hhdr).trans hr.len
  · intro i hi
    rw [h _ (by omega) (by omega)]
    exact hr.data i hi

theorem Holds.congr {mem' : Nat → β} {p : Nat} {rs : List (Record β)} (hrs : F.Holds mem p rs)
    (h : ∀ a, p ≤ a → a < p + F.size rs → mem' a = mem a) : F.Holds mem' p rs := by
  induction rs generalizing p with
  | nil => trivial
  | cons r rs ih =>
    rw [size_cons] at h
    refine ⟨hrs.1.congr fun a ha hlt => h a ha (by omega), ih hrs.2 ?_⟩
    intro a ha hlt
    exact h a (by omega) (by omega)

/-- Records in two parts: the second lies behind the first. -/
theorem holds_append {p : Nat} {rs rs' : List (Record β)} :
    F.Holds mem p (rs ++ rs') ↔ F.Holds mem p rs ∧ F.Holds mem (p + F.size rs) rs' := by
  induction rs generalizing p with
  | nil => simp [Holds]
  | cons r rs ih =>
    rw [List.cons_append, size_cons, ← Nat.add_assoc]
    show F.At mem p r ∧ F.Holds mem (p + F.extent r) (rs ++ rs') ↔ _
    rw [ih, ← and_assoc]
    rfl

theorem Padded.congr {mem' : Nat → β} {z : β} {p : Nat} {rs : List (Record β)}
    (hrs : F.Padded mem z p rs) (h : ∀ a, p ≤ a → a < p + F.size rs → mem' a = mem a) :
    F.Padded mem' z p rs := by
  induction rs generalizing p with
  | nil => trivial
  | cons r rs ih =>
    rw [size_cons] at h
    refine ⟨?_, ih hrs.2 fun a ha hlt => h a (by omega) (by omega)⟩
    intro a ha hlt
    rw [h a (by omega) (by omega)]
    exact hrs.1 a ha hlt

theorem padded_append {z : β} {p : Nat} {rs rs' : List (Record β)} :
    F.Padded mem z p (rs ++ rs') ↔ F.Padded mem z p rs ∧ F.Padded mem z (p + F.size rs) rs' := by
  induction rs generalizing p with
  | nil => simp [Padded]
  | cons r rs ih =>
    rw [List.cons_append, size_cons, ← Nat.add_assoc]
    show _ ∧ F.Padded mem z (p + F.extent r) (rs ++ rs') ↔ _
    rw [ih, ← and_assoc]
    rfl

/-- **The walk over records that are there** meets each of them, and stops right behind them. -/
theorem walk_of_holds {p : Nat} {rs : List (Record β)} (h : F.Holds mem p rs) :
    F.walk mem p (F.size rs) = ⟨F.positions p rs, p + F.size rs, 0⟩ := by
  induction rs generalizing p with
  | nil =>
    apply walk_of_not_fits
    intro hfit
    have hlow := hfit.1
    have hhigh := hfit.2
    have hpos := F.hdr_pos
    simp only [size_nil] at hhigh
    omega
  | cons r rs ih =>
    have hlen : F.lenAt mem p = F.hdr + r.data.length := h.1.len
    have hspace : F.space (F.lenAt mem p) = F.extent r := by
      rw [hlen]
      rfl
    have hfit : F.Fits mem p (F.size (r :: rs)) := by
      have hle := F.le_extent r
      refine ⟨by omega, ?_⟩
      rw [size_cons, hlen]
      push_cast
      omega
    have hrem : (F.size (r :: rs) : Int) - F.extent r = F.size rs := by
      rw [size_cons]
      omega
    rw [walk_of_fits F mem hfit, hspace, hrem, ih h.2, size_cons, Nat.add_assoc]
    rfl

/-- At each of the positions there is one of the records. -/
theorem at_of_mem_positions {p q : Nat} {rs : List (Record β)} (h : F.Holds mem p rs)
    (hq : q ∈ F.positions p rs) : ∃ r ∈ rs, F.At mem q r := by
  induction rs generalizing p with
  | nil => cases hq
  | cons r rs ih =>
    rcases List.mem_cons.mp hq with rfl | hq
    · exact ⟨r, List.mem_cons_self, h.1⟩
    · obtain ⟨r', hr', hat⟩ := ih h.2 hq
      exact ⟨r', List.mem_cons_of_mem r hr', hat⟩

/-! ## The last record with a tag

A parser keeps a table by tag, and a later record overwrites an earlier one with its tag. `lookup`
is that table over the records as written, `index` over where they lie. -/

/-- The last record with the tag, which is the one that a parser's table ends up with. -/
def lookup (rs : List (Record β)) (t : Nat) : Option (Record β) :=
  rs.reverse.find? fun r => r.tag == t

/-- The same over positions in memory: where the last record with the tag is. -/
def index (F : Format β) (mem : Nat → β) (ps : List Nat) (t : Nat) : Option Nat :=
  ps.reverse.find? fun p => F.tagAt mem p == t

/-- One more record at the end hides earlier ones with its tag. -/
theorem lookup_append_singleton (rs : List (Record β)) (r : Record β) (t : Nat) :
    lookup (rs ++ [r]) t = if r.tag = t then some r else lookup rs t := by
  rw [lookup, List.reverse_append, List.reverse_singleton, List.singleton_append]
  split
  · next h => exact List.find?_cons_of_pos (by simpa using h)
  · next h => exact List.find?_cons_of_neg (by simpa using h)

theorem lookup_append (rs rs' : List (Record β)) (t : Nat) :
    lookup (rs ++ rs') t = (lookup rs' t).or (lookup rs t) := by
  rw [lookup, List.reverse_append, List.find?_append]
  rfl

/-- A record at the front is found only if no later one has its tag. -/
theorem lookup_cons (r : Record β) (rs : List (Record β)) (t : Nat) :
    lookup (r :: rs) t = (lookup rs t).or (if r.tag = t then some r else none) := by
  rw [lookup, List.reverse_cons, List.find?_append]
  congr 1
  by_cases h : r.tag = t <;> simp [h]

theorem lookup_eq_none {rs : List (Record β)} {t : Nat} (h : ∀ r ∈ rs, r.tag ≠ t) :
    lookup rs t = none := by
  apply List.find?_eq_none.mpr
  intro r hr
  simpa using h r (List.mem_reverse.mp hr)

/-- One more position at the end, like `lookup_append_singleton`. -/
theorem index_append_singleton (ps : List Nat) (p t : Nat) :
    index F mem (ps ++ [p]) t = if F.tagAt mem p = t then some p else index F mem ps t := by
  rw [index, List.reverse_append, List.reverse_singleton, List.singleton_append]
  split
  · next h => exact List.find?_cons_of_pos (by simpa using h)
  · next h => exact List.find?_cons_of_neg (by simpa using h)

/-- A position at the front, like `lookup_cons`. -/
theorem index_cons (p : Nat) (ps : List Nat) (t : Nat) :
    index F mem (p :: ps) t
      = (index F mem ps t).or (if F.tagAt mem p = t then some p else none) := by
  rw [index, List.reverse_cons, List.find?_append]
  congr 1
  by_cases h : F.tagAt mem p = t <;> simp [h]

/-- One more record begins where the others end. -/
theorem positions_append_singleton (p : Nat) (rs : List (Record β)) (r : Record β) :
    F.positions p (rs ++ [r]) = F.positions p rs ++ [p + F.size rs] := by
  induction rs generalizing p with
  | nil => rfl
  | cons r' rs ih =>
    rw [List.cons_append, size_cons, ← Nat.add_assoc]
    show p :: F.positions (p + F.extent r') (rs ++ [r]) = _
    rw [ih]
    rfl

/-- The last position with a tag is that of the last record with it. -/
theorem index_of_holds {p : Nat} {rs : List (Record β)} (h : F.Holds mem p rs) (t : Nat) :
    (lookup rs t = none → index F mem (F.positions p rs) t = none)
      ∧ ∀ r, lookup rs t = some r →
          ∃ q, index F mem (F.positions p rs) t = some q ∧ p ≤ q ∧ q + F.extent r ≤ p + F.size rs
            ∧ F.At mem q r := by
  induction rs using List.reverseRecOn with
  | nil => exact ⟨fun _ => rfl, by simp [lookup]⟩
  | append_singleton rs r ih =>
    obtain ⟨hrs, hr, -⟩ := holds_append.mp h
    obtain ⟨hnone, hsome⟩ := ih hrs
    rw [positions_append_singleton, index_append_singleton, lookup_append_singleton, hr.tag,
      size_append, size_cons, size_nil]
    split
    · next htag =>
      refine ⟨by simp, ?_⟩
      rintro _ ⟨rfl⟩
      exact ⟨_, rfl, by omega, by omega, hr⟩
    · next htag =>
      refine ⟨hnone, ?_⟩
      intro r' hr'
      obtain ⟨q, hq, hpq, hend, hat⟩ := hsome r' hr'
      exact ⟨q, hq, hpq, by omega, hat⟩

end Format

end Records
