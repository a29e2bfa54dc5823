import Mathlib.Logic.Function.Basic
import Mathlib.Algebra.Ring.Nat

/-!
# Gray-coded counters

Counters that cross between two clocks do so in the binary-reflected Gray code, and they wrap. What
a comparison of two such codes says about the numbers behind them:

* **`encode_injective`** — codes are equal when the counters are; `decode` is the inverse;
* **`encode_add_half`** — half a turn of the counter inverts the two top bits of its code;
* **`ofNat_eq_iff`** — counters less than one turn apart are equal when the numbers are;
* **`encode_eq_iff` / `encode_eq_half_iff`** — the two tests a queue is run by: nothing between the
  counters, and half a turn between them.
-/

namespace GrayCode

variable {n : Nat}

/-- The Gray code of a counter: neighbours differ in one bit, so a sample in the other clock domain
is the old value or the new one. -/
def encode (x : BitVec n) : BitVec n :=
  (x >>> 1) ^^^ x

/-- The exclusive or of the low `k` bits. -/
def parity (x : BitVec n) : Nat → Bool
  | 0 => false
  | k + 1 => parity x k ^^ x.getLsbD k

/-- Bit `i` is the parity of all bits from `i` on. -/
def decode (g : BitVec n) : BitVec n :=
  (BitVec.iunfoldr (fun i (_ : Unit) => ((), parity (g >>> i.val) n)) ()).2

/-- Bit by bit: each bit of the code is the exclusive or of two neighbours. -/
theorem getLsbD_encode (x : BitVec n) (i : Nat) :
    (encode x).getLsbD i = (x.getLsbD (i + 1) ^^ x.getLsbD i) := by
  rw [encode, BitVec.getLsbD_xor, BitVec.getLsbD_ushiftRight, Nat.add_comm 1 i]

/-- The parity of a run of bits of a code telescopes. -/
theorem parity_encode (x : BitVec n) (i k : Nat) :
    parity (encode x >>> i) k = (x.getLsbD i ^^ x.getLsbD (i + k)) := by
  induction k with
  | zero => simp [parity]
  | succ k ih =>
    rw [parity, ih, BitVec.getLsbD_ushiftRight, getLsbD_encode, Nat.add_assoc]
    cases x.getLsbD i <;> cases x.getLsbD (i + k) <;> simp

/-- The exclusive or of all higher bits undoes the code. -/
theorem decode_encode (x : BitVec n) : decode (encode x) = x := by
  apply BitVec.iunfoldr_replace_snd (fun _ => ()) x () rfl
  intro i
  have hover : x.getLsbD (i.val + n) = false := BitVec.getLsbD_of_ge x _ (Nat.le_add_left n i)
  rw [parity_encode, hover, Bool.xor_false, BitVec.getLsbD_eq_getElem i.isLt]

/-- Two counters with one code are equal, so comparing codes is comparing counters. -/
theorem encode_injective : Function.Injective (encode : BitVec n → BitVec n) :=
  Function.LeftInverse.injective decode_encode

/-- The code is linear, which is what moves a difference in the top bits through it. -/
theorem encode_xor (x y : BitVec n) : encode (x ^^^ y) = encode x ^^^ encode y := by
  ext i hi
  simp only [← BitVec.getLsbD_eq_getElem, getLsbD_encode, BitVec.getLsbD_xor]
  cases x.getLsbD i <;> cases x.getLsbD (i + 1) <;> simp

/-! ## Half a turn

A FIFO of `2 ^ n` places has counters of one bit more. It is full when the counters are half a turn
apart, and in the code half a turn is the inversion of the two top bits. -/

/-- Adding the top bit is inverting it. -/
theorem add_half (x : BitVec (n + 1)) :
    x + BitVec.twoPow (n + 1) n = x ^^^ BitVec.twoPow (n + 1) n := by
  ext i hi
  have hcarry : BitVec.carry i x (BitVec.twoPow (n + 1) n) false = false := by
    have hdvd : 2 ^ n % 2 ^ i = 0 := Nat.mod_eq_zero_of_dvd (Nat.pow_dvd_pow 2 (by omega))
    have hlt : x.toNat % 2 ^ i < 2 ^ i := Nat.mod_lt _ (Nat.two_pow_pos i)
    rw [BitVec.carry, BitVec.toNat_twoPow_of_lt (Nat.lt_succ_self n), hdvd]
    apply decide_eq_false
    simpa using hlt
  rw [← BitVec.getLsbD_eq_getElem, ← BitVec.getLsbD_eq_getElem, BitVec.getLsbD_add hi, hcarry,
    Bool.xor_false, BitVec.getLsbD_xor]

/-- The code with its two top bits inverted. -/
def invertTop (g : BitVec (n + 1)) : BitVec (n + 1) :=
  (~~~(g.extractLsb' (n - 1) 2) ++ g.extractLsb' 0 (n - 1)).setWidth (n + 1)

/-- The comparison of `wptr_full`: the two top bits inverted and the others as they are. -/
theorem getLsbD_invertTop (g : BitVec (n + 1)) {i : Nat} (hi : i < n + 1) :
    (invertTop g).getLsbD i = (decide (n - 1 ≤ i) ^^ g.getLsbD i) := by
  rw [invertTop, BitVec.getLsbD_setWidth, BitVec.getLsbD_append, decide_eq_true hi, Bool.true_and]
  by_cases h : i < n - 1
  · rw [decide_eq_false (Nat.not_le_of_lt h), if_pos h]
    simp [h]
  · have hwithin : i - (n - 1) < 2 := by omega
    have hback : n - 1 + (i - (n - 1)) = i := by omega
    rw [decide_eq_true (Nat.le_of_not_lt h), if_neg h]
    simp [hwithin, hback]

/-- **Half a turn.** The top bit of the counter is in the two top bits of its code. -/
theorem encode_add_half (x : BitVec (n + 1)) :
    encode (x + BitVec.twoPow (n + 1) n) = invertTop (encode x) := by
  ext i hi
  rw [add_half, encode_xor, ← BitVec.getLsbD_eq_getElem, ← BitVec.getLsbD_eq_getElem,
    getLsbD_invertTop _ hi, BitVec.getLsbD_xor, Bool.xor_comm, getLsbD_encode (BitVec.twoPow _ _)]
  congr 1
  rw [BitVec.getLsbD_twoPow, BitVec.getLsbD_twoPow, decide_eq_true (Nat.lt_succ_self n),
    Bool.true_and, Bool.true_and]
  -- of the bits below the top, the one next to it is the only one the shift reaches
  rcases Nat.lt_trichotomy (i + 1) n with h | h | h
  · rw [decide_eq_false (by omega), decide_eq_false (by omega), decide_eq_false (by omega)]
    rfl
  · rw [decide_eq_true h.symm, decide_eq_false (by omega), decide_eq_true (by omega)]
    rfl
  · rw [decide_eq_false (by omega), decide_eq_true (by omega), decide_eq_true (by omega)]
    rfl

/-! ## Comparing counters

The counters are compared as codes of naturals that lie close together; here the comparison of codes
becomes the comparison of the naturals. -/

/-- Less than one turn apart, counters are equal when the numbers are. -/
theorem ofNat_eq_iff {a b : Nat} (hab : a ≤ b) (hlt : b < a + 2 ^ n) :
    BitVec.ofNat n a = BitVec.ofNat n b ↔ a = b := by
  constructor
  · intro h
    have hmod : a % 2 ^ n = b % 2 ^ n := by
      simpa using congrArg BitVec.toNat h
    have hzero : (b - a) % 2 ^ n = 0 := Nat.sub_mod_eq_zero_of_mod_eq hmod.symm
    rw [Nat.mod_eq_of_lt (by omega)] at hzero
    omega
  · intro h
    rw [h]

/-- Within one round of the counter, equal codes mean equal numbers. -/
theorem encode_eq_iff {a b : Nat} (hab : a ≤ b) (hlt : b < a + 2 ^ n) :
    encode (BitVec.ofNat n a) = encode (BitVec.ofNat n b) ↔ a = b := by
  rw [encode_injective.eq_iff]
  exact ofNat_eq_iff hab hlt

/-- The counter at `b` is half a turn ahead of the one at `a`. -/
theorem encode_eq_half_iff {a b : Nat} (hab : a ≤ b) (hle : b ≤ a + 2 ^ n) :
    encode (BitVec.ofNat (n + 1) b) = invertTop (encode (BitVec.ofNat (n + 1) a))
      ↔ b = a + 2 ^ n := by
  have hhalf : BitVec.ofNat (n + 1) a + BitVec.twoPow (n + 1) n
      = BitVec.ofNat (n + 1) (a + 2 ^ n) := by
    rw [BitVec.ofNat_add]
    congr 1
    apply BitVec.eq_of_toNat_eq
    rw [BitVec.toNat_twoPow, BitVec.toNat_ofNat]
  have hpos : 0 < 2 ^ n := Nat.two_pow_pos n
  have hturn : 2 ^ (n + 1) = 2 ^ n + 2 ^ n := by
    rw [Nat.pow_succ]
    omega
  rw [← encode_add_half, hhalf]
  exact encode_eq_iff hle (by omega)

end GrayCode
