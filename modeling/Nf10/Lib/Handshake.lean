import Nf10.Lib.Runs

/-!
# Valid/ready channels

A channel of a clocked system: some events are cycles of its clock, in a cycle the sender may offer a
payload (`valid`) and the receiver may be `ready`, and the payload is taken when both are. Events of
other clocks may come between two cycles.

* **`Holds`** — an offer that was not taken is there again, unchanged, in the next cycle;
* **`handshakes`** — how many payloads a run hands over.

`holds_iff_along` reduces the first to single steps.
-/

namespace Handshake

open Runs

variable {σ ε ω : Type*}

/-- One side of a valid/ready channel as an observer sees it: which events are cycles of its clock,
what is on offer in a state, and whether a cycle takes it. -/
structure Channel (σ ε ω : Type*) where
  -- The events that are cycles of the channel's clock.
  cycle : ε → Bool
  -- The payload in a cycle with `valid`.
  offer : σ → ε → Option ω
  ready : σ → ε → Bool

namespace Channel

/-- The payload is taken. -/
def fires (c : Channel σ ε ω) (s : σ) (e : ε) : Bool :=
  c.cycle e && (c.offer s e).isSome && c.ready s e

/-- Whatever the next cycle brings, `w` is on offer in it. -/
def Offers (c : Channel σ ε ω) (s : σ) (w : ω) : Prop :=
  ∀ e, c.cycle e = true → c.offer s e = some w

variable (step : σ → ε → σ) (c : Channel σ ε ω)

/-- An offer not taken in a cycle is there in the next one, with only events of other clocks
between them. -/
def Holds (s : σ) (es : List ε) : Prop :=
  ∀ pre e mid post w, es = pre ++ e :: (mid ++ post) → (∀ f ∈ mid, c.cycle f = false) →
    c.cycle e = true → c.offer (run step s pre) e = some w → c.ready (run step s pre) e = false →
    c.Offers (run step s (pre ++ e :: mid)) w

/-- The same for one step. -/
def Keeps (s : σ) (e : ε) : Prop :=
  ∀ w, c.cycle e = true → c.offer s e = some w → c.ready s e = false → c.Offers (step s e) w

variable {step c}

/-- An offer that no event between two cycles withdraws is still there at the next cycle. -/
theorem Offers.run_idle
    (hidle : ∀ s f w, c.cycle f = false → c.Offers s w → c.Offers (step s f) w)
    {s : σ} {w : ω} (h : c.Offers s w) {mid : List ε} (hmid : ∀ f ∈ mid, c.cycle f = false) :
    c.Offers (run step s mid) w := by
  have hall : Along step (fun _ f => c.cycle f = false) s mid :=
    along_of_mem (fun f hf _ => hmid f hf) s
  exact run_invariant (fun s f hs hf => hidle s f w hf hs) h hall

/-- **Step by step.** Where the events of other clocks leave an offer alone, holding it is a matter
of the single cycles. -/
theorem holds_iff_along
    (hidle : ∀ s f w, c.cycle f = false → c.Offers s w → c.Offers (step s f) w) (s : σ)
    (es : List ε) : c.Holds step s es ↔ Along step (c.Keeps step) s es := by
  constructor
  · intro h
    induction es generalizing s with
    | nil => trivial
    | cons e es ih =>
      refine ⟨?_, ih (step s e) ?_⟩
      · intro w hcycle hoffer hready
        exact h [] e [] es w rfl (by simp) hcycle hoffer hready
      · intro pre e' mid post w hes
        exact h (e :: pre) e' mid post w (congrArg (e :: ·) hes)
  · intro h pre e mid post w hes hmid hcycle hoffer hready
    rw [hes, along_append, along_cons] at h
    have hnext : c.Offers (step (run step s pre) e) w := h.2.1 w hcycle hoffer hready
    rw [run_append, run_cons]
    exact hnext.run_idle hidle hmid

variable (step c)

/-- The handshakes of a run. -/
def handshakes : σ → List ε → Nat
  | _, [] => 0
  | s, e :: es => (c.fires s e).toNat + handshakes (step s e) es

@[simp] theorem handshakes_nil (s : σ) : c.handshakes step s [] = 0 := rfl

/-- One step adds the handshake that it makes, if it makes one. -/
theorem handshakes_concat (s : σ) (es : List ε) (e : ε) :
    c.handshakes step s (es ++ [e])
      = c.handshakes step s es + (c.fires (run step s es) e).toNat := by
  induction es generalizing s with
  | nil => simp [handshakes]
  | cons e' es ih =>
    show (c.fires s e').toNat + c.handshakes step (step s e') (es ++ [e]) = _
    rw [ih, run_cons, handshakes, Nat.add_assoc]

end Channel

end Handshake
