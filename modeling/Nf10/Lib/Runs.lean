import Mathlib.Data.List.Basic

/-!
# Runs of a deterministic transition system

A system is a step function `step : σ → ε → σ`; an event that is not enabled leaves the state
alone, so every list of events is a run. This module owns the two notions every system of the
development is stated with, and the rules that reason about them:

* **`run`** — the state after a list of events;
* **`Along`** — a condition on (state, event) pairs met by every step of a run.

`run_invariant` is the one induction on runs. A safety theorem about a system is a step lemma
fed to it.
-/

namespace Runs

variable {σ ε : Type*} (step : σ → ε → σ)

/-- The state after a list of events. -/
def run (s : σ) (es : List ε) : σ :=
  es.foldl step s

@[simp] theorem run_nil (s : σ) : run step s [] = s := rfl

@[simp] theorem run_cons (s : σ) (e : ε) (es : List ε) :
    run step s (e :: es) = run step (step s e) es := rfl

theorem run_append (s : σ) (es fs : List ε) :
    run step s (es ++ fs) = run step (run step s es) fs := by
  simp [run]

/-- Every step of the run meets `P`, read on the state before the step and its event. -/
def Along (P : σ → ε → Prop) : σ → List ε → Prop
  | _, [] => True
  | s, e :: es => P s e ∧ Along P (step s e) es

@[simp] theorem along_nil (P : σ → ε → Prop) (s : σ) : Along step P s [] := trivial

@[simp] theorem along_cons (P : σ → ε → Prop) (s : σ) (e : ε) (es : List ε) :
    Along step P s (e :: es) ↔ P s e ∧ Along step P (step s e) es := Iff.rfl

instance Along.instDecidable (P : σ → ε → Prop) [∀ s e, Decidable (P s e)] :
    ∀ (s : σ) (es : List ε), Decidable (Along step P s es)
  | _, [] => isTrue trivial
  | s, e :: es =>
    have := Along.instDecidable P (step s e) es
    inferInstanceAs (Decidable (P s e ∧ Along step P (step s e) es))

/-- A condition along a run in two parts: along the first, and along the second from where the first
ends. -/
theorem along_append (P : σ → ε → Prop) (s : σ) (es fs : List ε) :
    Along step P s (es ++ fs) ↔ Along step P s es ∧ Along step P (run step s es) fs := by
  induction es generalizing s with
  | nil => simp
  | cons e es ih => simp [ih, and_assoc]

variable {step}

/-- A weaker condition is met by every run that meets a stronger one. -/
theorem Along.mono {P Q : σ → ε → Prop} (h : ∀ s e, P s e → Q s e) {s : σ} {es : List ε}
    (hP : Along step P s es) : Along step Q s es := by
  induction es generalizing s with
  | nil => trivial
  | cons e es ih => exact ⟨h _ _ hP.1, ih hP.2⟩

/-- A condition on the events alone, whatever the states. -/
theorem along_of_mem {P : σ → ε → Prop} {es : List ε} (h : ∀ e ∈ es, ∀ s, P s e) (s : σ) :
    Along step P s es := by
  induction es generalizing s with
  | nil => trivial
  | cons e es ih =>
    have hrest : ∀ e' ∈ es, ∀ s, P s e' := fun e' he' => h e' (List.mem_cons_of_mem e he')
    exact ⟨h e (List.mem_cons_self ..) s, ih hrest (step s e)⟩

/-- Two conditions met by every step of a run are met together. -/
theorem Along.and {P Q : σ → ε → Prop} {s : σ} {es : List ε} (hP : Along step P s es)
    (hQ : Along step Q s es) : Along step (fun s e => P s e ∧ Q s e) s es := by
  induction es generalizing s with
  | nil => trivial
  | cons e es ih => exact ⟨⟨hP.1, hQ.1⟩, ih hP.2 hQ.2⟩

/-- A condition on the events alone may be checked one by one. -/
theorem Along.and_of_mem {P : σ → ε → Prop} {Q : ε → Prop} {s : σ} {es : List ε}
    (hP : Along step P s es) (hQ : ∀ e ∈ es, Q e) :
    Along step (fun s e => P s e ∧ Q e) s es :=
  hP.and (along_of_mem (fun e he _ => hQ e he) s)

/-- **The induction on runs.** What the steps meeting `P` preserve holds wherever a run of such
steps ends. -/
theorem run_invariant {Inv : σ → Prop} {P : σ → ε → Prop}
    (hstep : ∀ s e, Inv s → P s e → Inv (step s e)) {s : σ} {es : List ε}
    (hs : Inv s) (hP : Along step P s es) : Inv (run step s es) := by
  induction es generalizing s with
  | nil => exact hs
  | cons e es ih => exact ih (hstep s e hs hP.1) hP.2

/-- The same where every step is allowed: an invariant holds wherever a run ends. -/
theorem run_invariant_of_step {Inv : σ → Prop} (hstep : ∀ s e, Inv s → Inv (step s e))
    {s : σ} (hs : Inv s) (es : List ε) : Inv (run step s es) := by
  induction es generalizing s with
  | nil => exact hs
  | cons e es ih => exact ih (hstep s e hs)

/-- Two systems that take the same events in lockstep. What relates their states and is kept by the
steps of events with `P` relates where their runs end. -/
theorem run_lockstep {τ : Type*} {step' : τ → ε → τ} {R : σ → τ → Prop} {P : ε → Prop}
    (hstep : ∀ s t e, R s t → P e → R (step s e) (step' t e)) {s : σ} {t : τ} {es : List ε}
    (h : R s t) (hP : ∀ e ∈ es, P e) : R (run step s es) (run step' t es) := by
  induction es generalizing s t with
  | nil => exact h
  | cons e es ih =>
    exact ih (hstep s t e h (hP e List.mem_cons_self))
      fun e' he' => hP e' (List.mem_cons_of_mem e he')

/-- **The forward simulation.** A step of the one system is a few steps of the other, seen through
`abs`; so is a run. -/
theorem run_simulates {τ δ : Type*} {step' : τ → δ → τ} (abs : σ → τ) {Inv : σ → Prop}
    {steps : σ → ε → List δ} (hinv : ∀ s e, Inv s → Inv (step s e))
    (hstep : ∀ s e, Inv s → abs (step s e) = run step' (abs s) (steps s e)) {s : σ} (hs : Inv s)
    (es : List ε) : ∃ ds, abs (run step s es) = run step' (abs s) ds := by
  induction es generalizing s with
  | nil => exact ⟨[], rfl⟩
  | cons e es ih =>
    obtain ⟨ds, hds⟩ := ih (hinv s e hs)
    refine ⟨steps s e ++ ds, ?_⟩
    rw [run_cons, hds, hstep s e hs, run_append]

/-- What an invariant of the run gives at each state is met along the run. -/
theorem along_of_invariant {Inv : σ → Prop} {P Q : σ → ε → Prop}
    (hstep : ∀ s e, Inv s → P s e → Inv (step s e)) (hQ : ∀ s e, Inv s → P s e → Q s e)
    {s : σ} {es : List ε} (hs : Inv s) (hP : Along step P s es) : Along step Q s es := by
  induction es generalizing s with
  | nil => trivial
  | cons e es ih => exact ⟨hQ s e hs hP.1, ih (hstep s e hs hP.1) hP.2⟩

/-- **An exact condition.** `Good` is what the steps meeting `P` preserve, and `Safe` the part of it
that is claimed; `E` is what the surroundings promise. If a step from a good state is safe only when
it meets `P`, a run stays safe exactly when all its steps meet `P`. -/
theorem forall_take_safe_iff_along_of {Good Safe : σ → Prop} {E P : σ → ε → Prop}
    (hsafe : ∀ s, Good s → Safe s) (hgood : ∀ s e, Good s → E s e → P s e → Good (step s e))
    (hexact : ∀ s e, Good s → E s e → Safe (step s e) → P s e) {s : σ} (hs : Good s) {es : List ε}
    (hE : Along step E s es) : (∀ k, Safe (run step s (es.take k))) ↔ Along step P s es := by
  induction es generalizing s with
  | nil => simp [hsafe s hs]
  | cons e es ih =>
    rw [along_cons]
    constructor
    · intro h
      have hP : P s e := hexact s e hs hE.1 (h 1)
      exact ⟨hP, (ih (hgood s e hs hE.1 hP) hE.2).mp fun k => h (k + 1)⟩
    · rintro ⟨hP, hrest⟩ k
      cases k with
      | zero => exact hsafe s hs
      | succ k => exact (ih (hgood s e hs hE.1 hP) hE.2).mpr hrest k

/-- The same with no promise from outside. -/
theorem forall_take_safe_iff_along {Good Safe : σ → Prop} {P : σ → ε → Prop}
    (hsafe : ∀ s, Good s → Safe s) (hgood : ∀ s e, Good s → P s e → Good (step s e))
    (hexact : ∀ s e, Good s → Safe (step s e) → P s e) {s : σ} (hs : Good s) (es : List ε) :
    (∀ k, Safe (run step s (es.take k))) ↔ Along step P s es := by
  have hE : Along step (fun _ _ => True) s es := along_of_mem (fun _ _ _ => trivial) s
  exact forall_take_safe_iff_along_of hsafe (fun s e h _ => hgood s e h)
    (fun s e h _ => hexact s e h) hs hE

/-- The same where nothing has to be carried beside the claim either. -/
theorem forall_take_iff_along {Inv : σ → Prop} {P : σ → ε → Prop}
    (hstep : ∀ s e, Inv s → (Inv (step s e) ↔ P s e)) {s : σ} (hs : Inv s) (es : List ε) :
    (∀ k, Inv (run step s (es.take k))) ↔ Along step P s es :=
  forall_take_safe_iff_along (fun _ h => h) (fun s e h => (hstep s e h).mpr)
    (fun s e h => (hstep s e h).mp) hs es

end Runs
