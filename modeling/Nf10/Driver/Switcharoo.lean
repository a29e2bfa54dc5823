import Mathlib.Algebra.BigOperators.Ring.Finset
import Mathlib.Algebra.Order.BigOperators.Group.Finset
import Nf10.Driver.Handlers
import Nf10.Lib.AccessLog
import Nf10.Lib.OnesComplement

/-!
# Nf10 — the switcharoo on a frame

"Do a switcharoo on the packet's IP address": `nf10_ghost_xmit`, and `nf10_ndo_start_xmit` with
`DRIVER_LOOPB`, flip one bit in each address of an IPv4 frame and rebuild the header checksum.

* **`switcharoo_within_iff`** — the rewrite goes by fixed offsets and by the header length in the frame,
  and the transmit paths check neither against the length of the packet;
* **`LoopPath.sends_switcharoo`** — what the two functions put into the ring is the rewritten packet;
* **`switcharoo_correct`** — a frame that is well formed goes out with the changes it should have and a
  header that verifies, and sending it twice undoes them. `ip_fast_csum` is the RFC 1071 checksum here.
-/

namespace Nf10

/-! ## What it touches

The rewriting looks at the EtherType and, in an IP packet, at the header as long as its own length
field says, without a look at the length of the frame. -/

/-- `eth->h_proto == htons(ETH_P_IP)` -/
def isIp (data : Nat → UInt8) : Prop :=
  data 12 = 0x08 ∧ data 13 = 0x00

instance (data : Nat → UInt8) : Decidable (isIp data) :=
  inferInstanceAs (Decidable (_ ∧ _))

/-- `ip->ihl` -/
def ihl (data : Nat → UInt8) : Nat :=
  (data 14 &&& 0x0f).toNat

/-- `switcharoo` access by access. `ip_fast_csum` reads `ihl` words of 32 bits. -/
def switcharooAccess (ipFastCsum : (Nat → UInt8) → Nat → UInt16) : Access Nat UInt8 Unit := do
  let protoHi ← Access.load 12
  let protoLo ← Access.load 13
  if protoHi = 0x08 ∧ protoLo = 0x00 then
    let saddr ← Access.load 28
    Access.store 28 (saddr ^^^ 1)
    let daddr ← Access.load 32
    Access.store 32 (daddr ^^^ 1)
    Access.store 24 0
    Access.store 25 0
    let verIhl ← Access.load 14
    let words := (verIhl &&& 0x0f).toNat
    let check ← Access.loadAll ((List.range (4 * words)).map (14 + ·)) fun mem =>
      ipFastCsum (fun i => mem (14 + i)) words
    Access.store 24 check.toUInt8
    Access.store 25 (check >>> 8).toUInt8

/-- The accesses in order. -/
def touchedBy (data : Nat → UInt8) : List Nat :=
  if isIp data then
    [12, 13, 28, 28, 32, 32, 24, 25, 14] ++ (List.range (4 * ihl data)).map (14 + ·) ++ [24, 25]
  else [12, 13]

/-- On record or not, the frame is the same afterwards. -/
theorem switcharooAccess_mem (ipFastCsum : (Nat → UInt8) → Nat → UInt16) (data : Nat → UInt8) :
    ((switcharooAccess ipFastCsum).run ⟨data, []⟩).2.mem = switcharoo ipFastCsum data := by
  by_cases hip : data 12 = 0x08 ∧ data 13 = 0x00
  · simp [switcharooAccess, switcharoo, hip]
  · simp [switcharooAccess, switcharoo, hip]

theorem switcharooAccess_touched (ipFastCsum : (Nat → UInt8) → Nat → UInt16) (data : Nat → UInt8) :
    ((switcharooAccess ipFastCsum).run ⟨data, []⟩).2.touched = touchedBy data := by
  by_cases hip : data 12 = 0x08 ∧ data 13 = 0x00
  · simp [switcharooAccess, touchedBy, isIp, ihl, hip]
  · simp [switcharooAccess, touchedBy, isIp, hip]

/-- **How far it reaches.** The EtherType is at 12 and 13, the addresses end at 32, and the checksum
covers the header. -/
theorem switcharooAccess_within_iff (ipFastCsum : (Nat → UInt8) → Nat → UInt16)
    (data : Nat → UInt8) (len : Nat) :
    (switcharooAccess ipFastCsum).Within data len ↔
      14 ≤ len ∧ (isIp data → 33 ≤ len ∧ 14 + 4 * ihl data ≤ len) := by
  rw [Access.Within, switcharooAccess_touched, touchedBy]
  by_cases hip : isIp data
  · simp only [hip, if_true, true_implies]
    constructor
    · intro h
      have h32 : 32 < len := h 32 (by simp)
      refine ⟨by omega, by omega, ?_⟩
      rcases Nat.eq_zero_or_pos (ihl data) with hzero | hpos
      · omega
      · -- the last byte of the header
        have hlast : 14 + (4 * ihl data - 1) < len := by
          apply h
          apply List.mem_append_left
          apply List.mem_append_right
          exact List.mem_map_of_mem (List.mem_range.mpr (by omega))
        omega
    · rintro ⟨-, h33, hheader⟩ i hi
      rcases List.mem_append.mp hi with hi | hi
      · rcases List.mem_append.mp hi with hi | hi
        · simp only [List.mem_cons, List.not_mem_nil, or_false] at hi
          omega
        · obtain ⟨j, hj, rfl⟩ := List.mem_map.mp hi
          have := List.mem_range.mp hj
          omega
      · simp only [List.mem_cons, List.not_mem_nil, or_false] at hi
        omega
  · simp only [hip, if_false, false_implies, and_true]
    constructor
    · intro h
      have h13 : 13 < len := h 13 (by simp)
      omega
    · intro h i hi
      simp only [List.mem_cons, List.not_mem_nil, or_false] at hi
      omega

/-! ## What the transmit paths let through

The length checks of the two paths. One of them bounds the length from both sides and the other from
above only; neither looks at the header. -/

/-- The two transmit paths with a switcharoo. -/
inductive LoopPath where
  | loopb
  | ghost
deriving DecidableEq, Repr

/-- The length checks in front of it. -/
def LoopPath.Admits : LoopPath → UInt32 → Prop
  | .loopb, len => ¬ (len < nf10PktSizeMin ∨ len > nf10PktSizeMax) ∧ ¬ len.toNat > dmaBufSize
  | .ghost, len => ¬ len.toNat > dmaBufSize

instance (p : LoopPath) (len : UInt32) : Decidable (p.Admits len) :=
  match p with
  | .loopb => inferInstanceAs (Decidable (¬ (_ ∨ _) ∧ ¬ _))
  | .ghost => inferInstanceAs (Decidable (¬ _))

/-- A packet that is transmitted has passed them. -/
theorem admits_of_accepted {b : Build} {d : Driver} {skb : SkBuff} {netdev : Nat} {m : Message}
    (h : (nf10NdoStartXmit b d skb netdev).2 = .accepted m) :
    (if b.ghost then LoopPath.ghost else LoopPath.loopb).Admits skb.len := by
  unfold nf10NdoStartXmit at h
  split
  · next hg =>
    rw [if_pos hg, nf10GhostXmit] at h
    split at h
    · cases h
    · next hlen => exact hlen
  · next hg =>
    rw [if_neg hg] at h
    split at h
    · cases h
    · next hbounds =>
      split at h
      · cases h
      · next hlen => exact ⟨hbounds, hlen⟩

/-- The frame is as long as its EtherType and its header length say. -/
def HeaderFits (skb : SkBuff) : LoopPath → Prop
  | .loopb => isIp skb.data → 14 + 4 * ihl skb.data ≤ skb.len.toNat
  | .ghost => 14 ≤ skb.len.toNat
      ∧ (isIp skb.data → 33 ≤ skb.len.toNat ∧ 14 + 4 * ihl skb.data ≤ skb.len.toNat)

/-- **The switcharoo stays inside the frame** exactly when the header does. -/
theorem switcharoo_within_iff (p : LoopPath) (ipFastCsum : (Nat → UInt8) → Nat → UInt16)
    (skb : SkBuff) (h : p.Admits skb.len) :
    (switcharooAccess ipFastCsum).Within skb.data skb.len.toNat ↔ HeaderFits skb p := by
  rw [switcharooAccess_within_iff]
  cases p with
  | ghost => exact Iff.rfl
  | loopb =>
    have hmin : 33 ≤ skb.len.toNat := by
      have := h.1
      simp only [nf10PktSizeMin, not_or, UInt32.not_lt] at this
      exact this.1
    show _ ↔ (isIp skb.data → 14 + 4 * ihl skb.data ≤ skb.len.toNat)
    constructor
    · exact fun hall hip => (hall.2 hip).2
    · exact fun hip => ⟨by omega, fun hyes => ⟨hmin, hip hyes⟩⟩

/-- A frame of 33 bytes with the EtherType of IP and a header of 60 bytes. -/
def longHeader : SkBuff :=
  ⟨fun i => if i = 12 then 0x08 else if i = 14 then 0x4f else 0, 33⟩

/-- Let through by `nf10_ndo_start_xmit`, and the checksum reads 41 bytes behind it; an empty frame is
let through by `nf10_ghost_xmit`. -/
theorem switcharoo_reads_past :
    LoopPath.loopb.Admits longHeader.len
    ∧ ¬ (switcharooAccess fun _ _ => 0).Within longHeader.data longHeader.len.toNat
    ∧ LoopPath.ghost.Admits 0
    ∧ ¬ (switcharooAccess fun _ _ => 0).Within (fun _ => 0) 0 := by
  refine ⟨by decide, ?_, by decide, ?_⟩
  · rw [switcharooAccess_within_iff]
    decide
  · rw [switcharooAccess_within_iff]
    decide

/-- A frame of 34 bytes with an IPv4 header of 20 and zero addresses. -/
def shortHeader : SkBuff :=
  ⟨fun i => if i = 12 then 0x08 else if i = 14 then 0x45 else 0, 34⟩

/-- A frame that is shorter than the header it announces passes the check. -/
theorem switcharoo_within_short :
    LoopPath.loopb.Admits shortHeader.len
    ∧ ((switcharooAccess fun _ _ => 0).Within shortHeader.data shortHeader.len.toNat
      ↔ HeaderFits shortHeader .loopb) :=
  ⟨by decide, switcharoo_within_iff .loopb (fun _ _ => 0) shortHeader (by decide)⟩

/-! ## What it computes

The frame afterwards, and that doing it twice gives the frame back. The third octets of both
addresses are flipped, so the checksum has to be computed anew. -/

open OnesComplement

/-- Word `k` of 16 bits as a little-endian host loads it. -/
def leWord (p : Nat → UInt8) (k : Nat) : Nat :=
  (p (2 * k)).toNat + 256 * (p (2 * k + 1)).toNat

/-- Word `k` of 16 bits in network order. -/
def beWord (p : Nat → UInt8) (k : Nat) : Nat :=
  256 * (p (2 * k)).toNat + (p (2 * k + 1)).toNat

/-- The RFC 1071 checksum over `ihl` words of 32 bits, as a little-endian host computes it and stores
it back: the complement of the one's-complement sum. -/
def rfc1071 (p : Nat → UInt8) (ihl : Nat) : UInt16 :=
  UInt16.ofNat (0xffff - onesSum 0x10000 (leWord p) (2 * ihl))

/-- The IP header of a frame. -/
def ipHeader (data : Nat → UInt8) : Nat → UInt8 :=
  fun i => data (14 + i)

/-- With `ip->check` zero. -/
def clearCheck (data : Nat → UInt8) : Nat → UInt8 :=
  Function.update (Function.update data 24 0) 25 0

/-- Stores the checksum, low byte first. -/
def setCheck (data : Nat → UInt8) (check : UInt16) : Nat → UInt8 :=
  Function.update (Function.update data 24 check.toUInt8) 25 (check >>> 8).toUInt8

/-- The two address flips. -/
def flipAddrs (data : Nat → UInt8) : Nat → UInt8 :=
  Function.update (Function.update data 28 (data 28 ^^^ 1)) 32 (data 32 ^^^ 1)

/-- The checksum that `ip_fast_csum` computes for the frame. -/
def checkOf (ipFastCsum : (Nat → UInt8) → Nat → UInt16) (data : Nat → UInt8) : UInt16 :=
  ipFastCsum (ipHeader (clearCheck data)) (ihl data)

/-! ### The bytes

The three stores touch different places: the addresses, and the two bytes of the checksum. -/

theorem flipAddrs_flipAddrs (data : Nat → UInt8) : flipAddrs (flipAddrs data) = data := by
  funext i
  have hflip : ∀ x : UInt8, x ^^^ 1 ^^^ 1 = x := fun x => by rw [UInt8.xor_assoc]; simp
  by_cases h32 : i = 32
  · subst h32
    simp [flipAddrs, hflip]
  · by_cases h28 : i = 28
    · subst h28
      simp [flipAddrs, hflip]
    · simp [flipAddrs, h28, h32]

/-- Clearing the checksum is storing a zero. -/
theorem clearCheck_eq (data : Nat → UInt8) : clearCheck data = setCheck data 0 := rfl

/-- The last store counts. -/
theorem setCheck_setCheck (data : Nat → UInt8) (check check' : UInt16) :
    setCheck (setCheck data check) check' = setCheck data check' := by
  funext i
  by_cases h24 : i = 24
  · simp [setCheck, h24]
  · by_cases h25 : i = 25
    · simp [setCheck, h25]
    · simp [setCheck, h24, h25]

/-- The addresses and the checksum are apart. -/
theorem flipAddrs_setCheck (data : Nat → UInt8) (check : UInt16) :
    flipAddrs (setCheck data check) = setCheck (flipAddrs data) check := by
  funext i
  by_cases h24 : i = 24
  · simp [flipAddrs, setCheck, h24]
  · by_cases h25 : i = 25
    · simp [flipAddrs, setCheck, h25]
    · by_cases h28 : i = 28
      · simp [flipAddrs, setCheck, h28]
      · by_cases h32 : i = 32
        · simp [flipAddrs, setCheck, h32]
        · simp [flipAddrs, setCheck, h24, h25, h28, h32]

/-- The checksum is computed over a header whose own checksum is cleared, so what stood there does
not matter. -/
theorem checkOf_setCheck (ipFastCsum : (Nat → UInt8) → Nat → UInt16) (data : Nat → UInt8)
    (check : UInt16) : checkOf ipFastCsum (setCheck data check) = checkOf ipFastCsum data := by
  unfold checkOf
  rw [clearCheck_eq, clearCheck_eq, setCheck_setCheck]
  rfl

section

variable (ipFastCsum : (Nat → UInt8) → Nat → UInt16) {data : Nat → UInt8}

/-- What happens to an IP packet, as two stores. -/
theorem switcharoo_of_isIp (h : isIp data) :
    switcharoo ipFastCsum data
      = setCheck (flipAddrs data) (checkOf ipFastCsum (flipAddrs data)) := by
  have hip : data 12 = 0x08 ∧ data 13 = 0x00 := h
  unfold switcharoo
  rw [if_pos hip]
  -- the zero stored in between is overwritten
  show setCheck (clearCheck (flipAddrs data)) (checkOf ipFastCsum (flipAddrs data)) = _
  rw [clearCheck_eq, setCheck_setCheck]

theorem switcharoo_of_not_isIp (h : ¬ isIp data) : switcharoo ipFastCsum data = data := by
  unfold switcharoo
  exact if_neg h

end

/-- The EtherType stays. -/
theorem isIp_switched {data : Nat → UInt8} (h : isIp data) (check : UInt16) :
    isIp (setCheck (flipAddrs data) check) := h

/-- `ip->check` is what `ip_fast_csum` computes. -/
def CheckRight (ipFastCsum : (Nat → UInt8) → Nat → UInt16) (data : Nat → UInt8) : Prop :=
  data 24 = (checkOf ipFastCsum data).toUInt8 ∧ data 25 = (checkOf ipFastCsum data >>> 8).toUInt8

/-- Storing the right checksum where it stands already changes nothing. -/
theorem CheckRight.setCheck {ipFastCsum : (Nat → UInt8) → Nat → UInt16} {data : Nat → UInt8}
    (h : CheckRight ipFastCsum data) : setCheck data (checkOf ipFastCsum data) = data := by
  funext i
  by_cases h25 : i = 25
  · subst h25
    simp [Nf10.setCheck, ← h.2]
  · by_cases h24 : i = 24
    · subst h24
      simp [Nf10.setCheck, ← h.1]
    · simp [Nf10.setCheck, h24, h25]

/-- **The second switcharoo undoes the first.** -/
theorem switcharoo_switcharoo {ipFastCsum : (Nat → UInt8) → Nat → UInt16} {data : Nat → UInt8}
    (hip : isIp data) (hcheck : CheckRight ipFastCsum data) :
    switcharoo ipFastCsum (switcharoo ipFastCsum data) = data := by
  rw [switcharoo_of_isIp _ hip, switcharoo_of_isIp _ (isIp_switched hip _), flipAddrs_setCheck,
    flipAddrs_flipAddrs, checkOf_setCheck, setCheck_setCheck]
  exact hcheck.setCheck

/-! ### The checksum

With the RFC 1071 sum in the place of `ip_fast_csum`: the words of the header with the new checksum
add up to all ones, in either byte order. -/

theorem leWord_lt (p : Nat → UInt8) (k : Nat) : leWord p k < 0x10000 := by
  have hlo := (p (2 * k)).toNat_lt
  have hhi := (p (2 * k + 1)).toNat_lt
  unfold leWord
  omega

theorem beWord_lt (p : Nat → UInt8) (k : Nat) : beWord p k < 0x10000 := by
  have hhi := (p (2 * k)).toNat_lt
  have hlo := (p (2 * k + 1)).toNat_lt
  unfold beWord
  omega

/-- The checksum is word 5 of the header. -/
theorem leWord_setCheck (data : Nat → UInt8) (check : UInt16) :
    leWord (ipHeader (setCheck data check)) 5 = check.toNat := by
  have hlo : ipHeader (setCheck data check) (2 * 5) = check.toUInt8 := by
    simp [ipHeader, setCheck]
  have hhi : ipHeader (setCheck data check) (2 * 5 + 1) = (check >>> 8).toUInt8 := by
    simp [ipHeader, setCheck]
  have hcheck := check.toNat_lt
  rw [leWord, hlo, hhi, UInt16.toNat_toUInt8, UInt16.toNat_toUInt8, UInt16.toNat_shiftRight]
  have hshift : check.toNat >>> (UInt16.toNat 8 % 16) = check.toNat / 256 :=
    Nat.shiftRight_eq_div_pow _ 8
  rw [hshift]
  omega

theorem leWord_clearCheck (data : Nat → UInt8) : leWord (ipHeader (clearCheck data)) 5 = 0 :=
  leWord_setCheck data 0

/-- No other word has a byte of it. -/
theorem leWord_setCheck_of_ne (data : Nat → UInt8) (check : UInt16) {k : Nat} (hk : k ≠ 5) :
    leWord (ipHeader (setCheck data check)) k = leWord (ipHeader (clearCheck data)) k := by
  have hsame : ∀ i, i ≠ 10 → i ≠ 11 →
      ipHeader (setCheck data check) i = ipHeader (clearCheck data) i := by
    intro i h10 h11
    have h24 : 14 + i ≠ 24 := by omega
    have h25 : 14 + i ≠ 25 := by omega
    simp [ipHeader, setCheck, clearCheck, h24, h25]
  unfold leWord
  rw [hsame (2 * k) (by omega) (by omega), hsame (2 * k + 1) (by omega) (by omega)]

theorem toNat_rfc1071 (p : Nat → UInt8) (n : Nat) :
    (rfc1071 p n).toNat = 0x10000 - 1 - onesSum 0x10000 (leWord p) (2 * n) := by
  rw [rfc1071, UInt16.toNat_ofNat']
  exact Nat.mod_eq_of_lt (by omega)

/-- The header with its checksum in place. -/
def checkedHeader (data : Nat → UInt8) : Nat → UInt8 :=
  ipHeader (setCheck data (checkOf rfc1071 data))

/-- The words with the checksum among them add up to zero modulo `2 ^ 16 - 1`, and not to zero
itself. -/
theorem sum_leWord_checkedHeader {data : Nat → UInt8} (h5 : 5 ≤ ihl data) :
    ∑ k ∈ Finset.range (2 * ihl data), leWord (checkedHeader data) k ≡ 0 [MOD 0x10000 - 1]
      ∧ ∑ k ∈ Finset.range (2 * ihl data), leWord (checkedHeader data) k ≠ 0 := by
  refine sum_with_complement (leWord_lt (ipHeader (clearCheck data))) (i := 5) (by omega)
    (leWord_clearCheck data) (fun k hk => leWord_setCheck_of_ne data _ hk) ?_ (by decide)
  rw [checkedHeader, leWord_setCheck, checkOf, toNat_rfc1071]

/-- **The header verifies**, in the order of the host and in that of the network. -/
theorem onesSum_checkedHeader {data : Nat → UInt8} (h5 : 5 ≤ ihl data) :
    onesSum 0x10000 (leWord (checkedHeader data)) (2 * ihl data) = 0xffff
      ∧ onesSum 0x10000 (beWord (checkedHeader data)) (2 * ihl data) = 0xffff := by
  obtain ⟨hmod, hpos⟩ := sum_leWord_checkedHeader h5
  generalize checkedHeader data = p at *
  refine ⟨onesSum_eq_top (leWord_lt p) hpos hmod, onesSum_eq_top (beWord_lt p) ?_ ?_⟩
  · intro hzero
    have hle : ∑ k ∈ Finset.range (2 * ihl data), leWord p k
        ≤ ∑ k ∈ Finset.range (2 * ihl data), 256 * beWord p k := by
      apply Finset.sum_le_sum
      intro k _
      unfold leWord beWord
      omega
    rw [← Finset.mul_sum, hzero] at hle
    omega
  · have hswap := sum_swap_modEq (b := 256) (by decide) (fun k => (p (2 * k)).toNat)
      (fun k => (p (2 * k + 1)).toNat) (2 * ihl data)
    exact hswap.trans (hmod.mul_left 256)

/-! ### The rewrite

Both paths send the rewritten bytes, and rewriting what arrives gives what was sent. The theorem is
about the bytes on the ring and not about the function alone. -/

/-- What the switcharoo makes of an IPv4 frame. -/
structure Switched (ipFastCsum : (Nat → UInt8) → Nat → UInt16) (data data' : Nat → UInt8) :
    Prop where
  -- The third octets of the addresses.
  source : data' 28 = data 28 ^^^ 1
  destination : data' 32 = data 32 ^^^ 1
  -- Nothing else but the checksum.
  others : ∀ i, i ≠ 24 → i ≠ 25 → i ≠ 28 → i ≠ 32 → data' i = data i
  verifies : onesSum 0x10000 (beWord (ipHeader data')) (2 * ihl data') = 0xffff
  verifiesLe : onesSum 0x10000 (leWord (ipHeader data')) (2 * ihl data') = 0xffff
  twice : CheckRight ipFastCsum data → switcharoo ipFastCsum data' = data

/-- The rewrite of an IPv4 frame with a whole header. -/
theorem switched_of_isIp {ipFastCsum : (Nat → UInt8) → Nat → UInt16} (hcsum : ipFastCsum = rfc1071)
    {data : Nat → UInt8} (hip : isIp data) (h5 : 5 ≤ ihl data) :
    Switched ipFastCsum data (switcharoo ipFastCsum data) := by
  have hdata := switcharoo_of_isIp ipFastCsum hip
  have hihl : ihl (switcharoo ipFastCsum data) = ihl (flipAddrs data) := by
    rw [hdata]
    rfl
  have hheader : ipHeader (switcharoo ipFastCsum data) = checkedHeader (flipAddrs data) := by
    rw [hdata, hcsum]
    rfl
  have h5' : 5 ≤ ihl (flipAddrs data) := h5
  obtain ⟨hle, hbe⟩ := onesSum_checkedHeader h5'
  refine ⟨?_, ?_, ?_, ?_, ?_, switcharoo_switcharoo hip⟩
  · rw [hdata]
    simp [setCheck, flipAddrs]
  · rw [hdata]
    simp [setCheck, flipAddrs]
  · intro i h24 h25 h28 h32
    rw [hdata]
    simp [setCheck, flipAddrs, h24, h25, h28, h32]
  · rw [hihl, hheader]
    exact hbe
  · rw [hihl, hheader]
    exact hle

/-! ### On the way out

The rewrite is done on the packet itself, in the middle of the two transmit functions. What can be seen
of it is what they put into the ring. -/

/-- The transmit function of a path: `nf10_ndo_start_xmit` as `DRIVER_LOOPB` builds it, and
`nf10_ghost_xmit`. -/
def LoopPath.xmit : LoopPath → Build → Driver → SkBuff → Nat → Driver × XmitResult
  | .loopb, b => nf10NdoStartXmit { b with ghost := false, loopb := true }
  | .ghost, b => nf10GhostXmit b

/-- In whatever state the packet is accepted, the message in the ring has these bytes. -/
def LoopPath.Sends (p : LoopPath) (b : Build) (skb : SkBuff) (data : Nat → UInt8) : Prop :=
  ∀ d netdev m, (p.xmit b d skb netdev).2 = .accepted m →
    m.bytes = readMem data 0 skb.len.toNat ∧ m.length = skb.len

/-- **Both paths send the rewritten packet.** The exits in front of the ring are those of the source;
only the last way out accepts. -/
theorem LoopPath.sends_switcharoo (p : LoopPath) (b : Build) (skb : SkBuff) :
    p.Sends b skb (switcharoo b.ipFastCsum skb.data) := by
  intro d netdev m h
  cases p with
  | loopb =>
    unfold LoopPath.xmit nf10NdoStartXmit at h
    dsimp only at h
    rw [if_neg (by decide)] at h
    split at h
    · cases h
    split at h
    · cases h
    split at h
    · cases h
    split at h
    · cases h
    split at h
    · cases h
    cases h
    exact ⟨rfl, rfl⟩
  | ghost =>
    unfold LoopPath.xmit nf10GhostXmit at h
    dsimp only at h
    split at h
    · cases h
    split at h
    · cases h
    split at h
    · cases h
    cases h
    exact ⟨rfl, rfl⟩

/-- **The rewrite of the transmit paths is correct and its own inverse.** What `nf10_ndo_start_xmit` and
`nf10_ghost_xmit` put into the ring of an IPv4 frame with a whole header is the frame with its addresses
flipped and its checksum right; sent once more it is the frame they were given. Every other frame goes
out as it is. -/
theorem switcharoo_correct (b : Build) (hcsum : b.ipFastCsum = rfc1071) (p : LoopPath) (skb : SkBuff) :
    p.Sends b skb (switcharoo b.ipFastCsum skb.data)
    ∧ (isIp skb.data → 5 ≤ ihl skb.data → 14 + 4 * ihl skb.data ≤ skb.len.toNat →
      Switched b.ipFastCsum skb.data (switcharoo b.ipFastCsum skb.data)
      ∧ (CheckRight b.ipFastCsum skb.data →
        p.Sends b ⟨switcharoo b.ipFastCsum skb.data, skb.len⟩ skb.data))
    ∧ (¬ isIp skb.data → p.Sends b skb skb.data) := by
  refine ⟨p.sends_switcharoo b skb, ?_, ?_⟩
  · intro hip h5 _
    have hswitched := switched_of_isIp hcsum hip h5
    refine ⟨hswitched, ?_⟩
    intro hcheck
    have hsends := p.sends_switcharoo b ⟨switcharoo b.ipFastCsum skb.data, skb.len⟩
    dsimp only at hsends
    rwa [hswitched.twice hcheck] at hsends
  · intro hip
    have hsends := p.sends_switcharoo b skb
    rwa [switcharoo_of_not_isIp _ hip] at hsends

/-- The hardware found and initialized, with a free slot in a ring of one. -/
def readyDriver : Driver := probeStreams plainDriver 1

/-- A short header goes out rewritten on either path, from a driver with room for it. -/
theorem switcharoo_correct_short :
    isIp shortHeader.data ∧ 5 ≤ ihl shortHeader.data
    ∧ 14 + 4 * ihl shortHeader.data ≤ shortHeader.len.toNat
    ∧ (∀ p : LoopPath, ∃ m, (p.xmit { plainBuild with ipFastCsum := rfc1071 } readyDriver shortHeader 2).2
        = .accepted m ∧ m.bytes = readMem (switcharoo rfc1071 shortHeader.data) 0 34)
    ∧ Switched rfc1071 shortHeader.data (switcharoo rfc1071 shortHeader.data) := by
  have hcorrect := switcharoo_correct { plainBuild with ipFastCsum := rfc1071 } rfl
  refine ⟨by decide, by decide, by decide, ?_, ?_⟩
  · intro p
    have haccepted : ∃ m, (p.xmit { plainBuild with ipFastCsum := rfc1071 } readyDriver shortHeader 2).2
        = .accepted m := by
      cases p with
      | loopb => exact ⟨_, rfl⟩
      | ghost => exact ⟨_, rfl⟩
    obtain ⟨m, hm⟩ := haccepted
    exact ⟨m, hm, ((hcorrect p shortHeader).1 _ _ m hm).1⟩
  · exact ((hcorrect .ghost shortHeader).2.1 (by decide) (by decide) (by decide)).1

end Nf10
