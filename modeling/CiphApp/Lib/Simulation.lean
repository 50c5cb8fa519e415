import Mathlib.Data.List.Basic

/-!
# Labelled runs and simulation

A system is a relation between a state, the label of a step and the next state.  `Trace` is a run
with the labels in the order of the steps.  A `Simulation` relates the states of two systems with
the same labels, such that each step of the first is matched by a step of the second; then every
trace of the first is a trace of the second (`Simulation.trace`).

The labels are what an observer sees, so the second system can be a specification: what its traces
satisfy, the traces of the first satisfy too.  Steps that nobody sees have a label of their own, and
the second system has to match them by a step that does nothing.  `Trace.induct` is the rule for
invariants, and `Trace.append` puts runs together.
-/

namespace Lib

variable {σ τ ℓ : Type*}

/-- A run from a state, with its labels in the order of the steps.  The last step is the outermost
one, so that an induction goes over the runs from a fixed beginning. -/
inductive Trace (step : σ → ℓ → σ → Prop) (s : σ) : List ℓ → σ → Prop
  | nil : Trace step s [] s
  | snoc {ls : List ℓ} {t u : σ} (l : ℓ) (h : Trace step s ls t) (hs : step t l u) :
      Trace step s (ls ++ [l]) u

/-- Runs one after the other. -/
lemma Trace.append {step : σ → ℓ → σ → Prop} {s t u : σ} {ls ls' : List ℓ} (h : Trace step s ls t)
    (h' : Trace step t ls' u) : Trace step s (ls ++ ls') u := by
  induction h' with
  | nil => rwa [List.append_nil]
  | snoc l _ hs ih =>
      rw [← List.append_assoc]
      exact .snoc l ih hs

/-- The invariant rule of a trace. -/
lemma Trace.induct {step : σ → ℓ → σ → Prop} {Q : σ → Prop}
    (hstep : ∀ s l t, step s l t → Q s → Q t) {s t : σ} {ls : List ℓ} (h : Trace step s ls t)
    (hs : Q s) : Q t := by
  induction h with
  | nil => exact hs
  | snoc l _ hst ih => exact hstep _ l _ hst ih

/-- A step of the first system from related states is matched by one step of the second with the
same label, and the states after it are related again.  Nothing is asked of steps of the second
system. -/
def Simulation (step : σ → ℓ → σ → Prop) (spec : τ → ℓ → τ → Prop) (R : σ → τ → Prop) : Prop :=
  ∀ s l s' t, R s t → step s l s' → ∃ t', spec t l t' ∧ R s' t'

/-- **Traces are preserved.** -/
theorem Simulation.trace {step : σ → ℓ → σ → Prop} {spec : τ → ℓ → τ → Prop} {R : σ → τ → Prop}
    (h : Simulation step spec R) {s s' : σ} {t : τ} (hst : R s t) {ls : List ℓ}
    (ht : Trace step s ls s') : ∃ t', Trace spec t ls t' ∧ R s' t' := by
  induction ht with
  | nil => exact ⟨t, .nil, hst⟩
  | snoc l _ hs ih =>
      obtain ⟨u, hu, hR⟩ := ih
      obtain ⟨u', hstep, hR'⟩ := h _ l _ u hR hs
      exact ⟨u', .snoc l hu hstep, hR'⟩

end Lib
