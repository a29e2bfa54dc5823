import Nf10.Hw.TxQueue

/-!
# Nf10 — one info entry per packet

A word goes into `tx_fifo` when `tready` is high; an entry goes into `tx_info_fifo` for every cycle
in which a last word is *on offer*, taken or not (`winc` is not gated by `tready`; the 10G core only
delays it by a cycle). A last word that waits for `tready` is counted once a cycle.

* **`tx_accounting_iff`** — the counts agree all along a run exactly when, in each cycle, a last
  word on offer is not written if and only if a push is lost to a full info FIFO;
* **`tx_accounting_stalled_last`** — one cycle of waiting, and the counts differ.
-/

namespace Nf10.Hw

variable {p : Port}

/-- Pushes that the register `info_fifo_wr_en` still holds back. -/
def TxQueue.delayedPush (q : TxQueue p) : Nat :=
  match p with
  | .tenGig => q.infoFifoWrEn.toNat
  | .oneGig => 0

/-- As many entries in the info FIFO, up to the delay of `info_fifo_wr_en`, as last
words written. -/
def Balanced (s : TxBench p) : Prop :=
  s.pushed + s.queue.delayedPush = s.input.1.length

instance (s : TxBench p) : Decidable (Balanced s) :=
  inferInstanceAs (Decidable (_ = _))

/-- In this cycle a last word on offer is not written (`tready` is low, or the FIFO is full) exactly
if a push is lost to a full info FIFO. -/
def PushMatches (s : TxBench p) : TxStep p → Prop
  | .axi c =>
    ((s.axiIn c).offersLast && !s.queue.writes (s.axiIn c))
      = (s.queue.winc (s.axiIn c) && (s.axiIn c).infoWfull)
  | _ => True

/-! ## One cycle

What one cycle adds to each side of the balance. A last word on offer is a push, at once or a cycle
later; it is a packet written only if it is taken. The two differ by the words that wait and by the
pushes that a full info FIFO drops. -/

/-- The balance depends on the pushes, the register and the packets written. -/
theorem Balanced.of_eq {s s' : TxBench p} (h : Balanced s) (hpushed : s'.pushed = s.pushed)
    (hwrEn : s'.queue.infoFifoWrEn = s.queue.infoFifoWrEn) (hinput : s'.input = s.input) :
    Balanced s' := by
  have hdelayed : s'.queue.delayedPush = s.queue.delayedPush := by
    cases p with
    | tenGig => exact congrArg Bool.toNat hwrEn
    | oneGig => rfl
  unfold Balanced
  rw [hpushed, hdelayed, hinput]
  exact h

/-- A last word on offer is worth one push, now or in the next cycle. -/
theorem TxQueue.winc_add_delayed (q : TxQueue p) (i : TxAxiIn p) :
    (q.winc i).toNat + (q.axiEdge i).delayedPush = q.delayedPush + i.offersLast.toNat := by
  cases p with
  | tenGig =>
    simp only [TxQueue.winc, TxQueue.delayedPush, TxQueue.axiEdge, TxQueue.infoFifoWrEnNext,
      TxAxiIn.offersLast, Bool.and_comm]
  | oneGig => simp [TxQueue.winc, TxQueue.delayedPush, TxAxiIn.offersLast, TxAxiIn.eopAxi]

/-- A packet is written when its last word is. -/
theorem TxBench.length_input (s : TxBench p) (c : TxCycle p) :
    (s.axiStep c).input.1.length
      = s.input.1.length + ((s.axiIn c).offersLast && s.queue.writes (s.axiIn c)).toNat := by
  simp only [TxBench.axiStep]
  by_cases hw : s.queue.writes (s.axiIn c)
  · have hvalid := TxQueue.tvalid_of_writes hw
    rw [if_pos hw, Framing.length_push]
    simp [hw, hvalid, TxAxiIn.offersLast, TxBeat.marked]
  · rw [if_neg hw]
    simp [hw]

/-- The equation of one cycle: pushes made and lost on the left, last words written and left
waiting on the right. -/
theorem TxBench.balance_axiStep (s : TxBench p) (c : TxCycle p) :
    ((s.axiStep c).pushed + (s.axiStep c).queue.delayedPush)
        + (s.queue.winc (s.axiIn c) && (s.axiIn c).infoWfull).toNat + s.input.1.length
      = (s.pushed + s.queue.delayedPush) + (s.axiStep c).input.1.length
        + ((s.axiIn c).offersLast && !s.queue.writes (s.axiIn c)).toNat := by
  have hpush := s.queue.winc_add_delayed (s.axiIn c)
  have hinput := s.length_input c
  -- on offer: written now, or kept waiting
  have hsplit : (s.axiIn c).offersLast.toNat
      = ((s.axiIn c).offersLast && s.queue.writes (s.axiIn c)).toNat
        + ((s.axiIn c).offersLast && !s.queue.writes (s.axiIn c)).toNat := by
    cases (s.axiIn c).offersLast <;> cases s.queue.writes (s.axiIn c) <;> rfl
  -- a push: counted, or lost to a full info FIFO
  have hwinc : (s.axiStep c).pushed + (s.queue.winc (s.axiIn c) && (s.axiIn c).infoWfull).toNat
      = s.pushed + (s.queue.winc (s.axiIn c)).toNat := by
    simp only [TxBench.axiStep]
    cases s.queue.winc (s.axiIn c) <;> cases (s.axiIn c).infoWfull <;> simp
  have hqueue : (s.axiStep c).queue = s.queue.axiEdge (s.axiIn c) := rfl
  rw [hqueue]
  omega

theorem toNat_injective {a b : Bool} (h : a.toNat = b.toNat) : a = b := by
  revert a b
  decide

/-- **The step lemma.** From a balanced state, a step keeps the balance exactly if it meets
`PushMatches`. -/
theorem balanced_step_iff {s : TxBench p} (h : Balanced s) (e : TxStep p) :
    Balanced (s.step e) ↔ PushMatches s e := by
  cases e with
  | axi c =>
    have hstep := s.balance_axiStep c
    unfold Balanced at h ⊢
    simp only [PushMatches, TxBench.step]
    constructor
    · intro h'
      have heq : ((s.axiIn c).offersLast && !s.queue.writes (s.axiIn c)).toNat
          = (s.queue.winc (s.axiIn c) && (s.axiIn c).infoWfull).toNat := by
        omega
      exact toNat_injective heq
    · intro heq
      rw [heq] at hstep
      omega
  | mac i => exact ⟨fun _ => trivial, fun _ => h.of_eq rfl rfl rfl⟩
  | syncData => exact ⟨fun _ => trivial, fun _ => h.of_eq rfl rfl rfl⟩
  | syncInfo => exact ⟨fun _ => trivial, fun _ => h.of_eq rfl rfl rfl⟩

/-- **Packet accounting.** For every AXI input that obeys the handshake, every pattern of the flags
and every interleaving, the counts agree after each step of a run exactly when in no cycle a last
word on offer is not written, or a push lost to a full info FIFO, without the other. -/
theorem tx_accounting_iff (es : List (TxStep p)) :
    (∀ k, Balanced (Runs.run TxBench.step (TxBench.reset : TxBench p) (es.take k)))
      ↔ Runs.Along TxBench.step PushMatches (TxBench.reset : TxBench p) es := by
  have hreset : Balanced (TxBench.reset : TxBench p) := by
    cases p <;> rfl
  have hstep : ∀ (s : TxBench p) (e : TxStep p), Balanced s →
      (Balanced (s.step e) ↔ PushMatches s e) :=
    fun _ e h => balanced_step_iff h e
  exact Runs.forall_take_iff_along hstep hreset es

/-- A packet of one word that waits for `tready` through one cycle, and two cycles more. -/
def stalledLast (p : Port) : List (TxStep p) :=
  [.axi ⟨some ⟨0, 1, true⟩, ⟨0, 0, false⟩, true, false⟩,
    .axi ⟨none, ⟨0, 0, false⟩, false, false⟩, .axi ⟨none, ⟨0, 0, false⟩, false, false⟩]

/-- **Counterexample.** One packet written, two entries pushed, in both cores. -/
theorem tx_accounting_stalled_last :
    (¬ Balanced (Runs.run TxBench.step (TxBench.reset : TxBench .tenGig) (stalledLast .tenGig)))
      ∧ ¬ Balanced (Runs.run TxBench.step (TxBench.reset : TxBench .oneGig)
        (stalledLast .oneGig)) := by
  decide

end Nf10.Hw
