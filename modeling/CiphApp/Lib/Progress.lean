import Mathlib.Data.Nat.Init
import Mathlib.Tactic.Choose

/-!
# Progress by turns

A system with several agents makes progress if there is always one agent whose step brings it closer
to the goal, and no other step takes that away.  States are related to abstract ones, and an
abstract state has a rank and an agent whose turn it is (`Turns`).

Runs are infinite here, and `Fair` is weak fairness: an agent that has something to do, and goes on
having it, takes a step at some time.  An agent with nothing to do need not be called.  In a fair
run rank `0` is reached and kept (`Turns.eventually`); the proof is by induction on the rank, and
for one rank by induction on the time until the agent takes its step (`Turns.lower`).

`exists_infinite_run` gives such runs: from a step that can always be taken, with whatever is to
hold of the labels along the way.
-/

namespace Lib

variable {σ ρ ℓ κ : Type*}

/-- A step stays at the same abstract state or lowers the rank; the agent whose turn it is lowers
it, and has something to do until then. -/
structure Turns (rel : σ → ρ → Prop) (step : σ → ℓ → σ → Prop) (agent : ℓ → Option κ)
    (due : σ → κ → Prop) (rank : ρ → ℕ) (turn : ρ → κ) : Prop where
  advance : ∀ {s : σ} {l : ℓ} {s' : σ} {r : ρ}, rel s r → step s l s' → ∃ r', rel s' r' ∧
    (r' = r ∨ rank r' < rank r) ∧ (rank r ≠ 0 → agent l = some (turn r) → rank r' < rank r)
  due_turn : ∀ {s : σ} {r : ρ}, rel s r → rank r ≠ 0 → due s (turn r)

/-- **Weak fairness.**  No agent has something to do for ever and takes no step. -/
def Fair (agent : ℓ → Option κ) (due : σ → κ → Prop) (run : ℕ → σ) (label : ℕ → ℓ) : Prop :=
  ∀ k t, ∃ t' ≥ t, agent (label t') = some k ∨ ¬due (run t') k

section Eventually

variable {rel : σ → ρ → Prop} {step : σ → ℓ → σ → Prop} {agent : ℓ → Option κ}
  {due : σ → κ → Prop} {rank : ρ → ℕ} {turn : ρ → κ} {run : ℕ → σ} {label : ℕ → ℓ}

/-- The rank is lower at the latest when the agent has taken its step. -/
lemma Turns.lower (h : Turns rel step agent due rank turn)
    (hstep : ∀ t, step (run t) (label t) (run (t + 1))) {r : ρ} (hrank : rank r ≠ 0) (d : ℕ) :
    ∀ t, rel (run t) r →
      agent (label (t + d)) = some (turn r) ∨ ¬due (run (t + d)) (turn r) →
      ∃ t' ≥ t, ∃ r', rel (run t') r' ∧ rank r' < rank r := by
  induction d with
  | zero =>
      intro t hr hagent
      have hagent' := hagent.resolve_right (not_not_intro (h.due_turn hr hrank))
      obtain ⟨r', hr', -, hlt⟩ := h.advance hr (hstep t)
      exact ⟨t + 1, Nat.le_succ t, r', hr', hlt hrank hagent'⟩
  | succ d ih =>
      intro t hr hagent
      obtain ⟨r', hr', hcases, -⟩ := h.advance hr (hstep t)
      rcases hcases with rfl | hlt
      · rw [Nat.add_comm d 1, ← Nat.add_assoc] at hagent
        obtain ⟨t', ht', hlower⟩ := ih (t + 1) hr' hagent
        exact ⟨t', Nat.le_of_succ_le ht', hlower⟩
      · exact ⟨t + 1, Nat.le_succ t, r', hr', hlt⟩

/-- Rank `0` is kept. -/
lemma Turns.stays (h : Turns rel step agent due rank turn)
    (hstep : ∀ t, step (run t) (label t) (run (t + 1))) {t : ℕ} {r : ρ} (hr : rel (run t) r)
    (hzero : rank r = 0) : ∀ t' ≥ t, rel (run t') r := by
  intro t' ht'
  induction ht' with
  | refl => exact hr
  | step _ ih =>
      obtain ⟨r', hr', hcases, -⟩ := h.advance ih (hstep _)
      rcases hcases with rfl | hlt
      · exact hr'
      · exact absurd hlt (hzero ▸ Nat.not_lt_zero _)

/-- **Rank `0` is reached and kept** in a fair run. -/
theorem Turns.eventually (h : Turns rel step agent due rank turn)
    (hstep : ∀ t, step (run t) (label t) (run (t + 1))) (hfair : Fair agent due run label) {t : ℕ}
    {r : ρ} (hr : rel (run t) r) :
    ∃ t' r', rank r' = 0 ∧ ∀ t'' ≥ t', rel (run t'') r' := by
  -- strong induction on the rank, for all times
  generalize hn : rank r = n
  induction n using Nat.strongRecOn generalizing t r with
  | _ n ih =>
      by_cases hzero : n = 0
      · exact ⟨t, r, hn.trans hzero, h.stays hstep hr (hn.trans hzero)⟩
      · obtain ⟨t₁, ht₁, hagent⟩ := hfair (turn r) t
        obtain ⟨d, rfl⟩ := Nat.exists_eq_add_of_le ht₁
        obtain ⟨t', -, r', hr', hlt⟩ := h.lower hstep (hn ▸ hzero) d t hr hagent
        exact ih (rank r') (hn ▸ hlt) hr' rfl

end Eventually

/-- A step that can always be taken is taken for ever. -/
theorem exists_infinite_run {step : σ → ℓ → σ → Prop} {Q : ℕ → σ → Prop} {L : ℕ → σ → ℓ → Prop}
    (h : ∀ t s, Q t s → ∃ l s', L t s l ∧ step s l s' ∧ Q (t + 1) s') {s₀ : σ} (h₀ : Q 0 s₀) :
    ∃ (run : ℕ → σ) (label : ℕ → ℓ), run 0 = s₀ ∧
      ∀ t, Q t (run t) ∧ L t (run t) (label t) ∧ step (run t) (label t) (run (t + 1)) := by
  choose l s' hl hs hq using h
  let next : (t : ℕ) → { s // Q t s } :=
    Nat.rec ⟨s₀, h₀⟩ fun t s => ⟨s' t s.1 s.2, hq t s.1 s.2⟩
  exact ⟨fun t => (next t).1, fun t => l t (next t).1 (next t).2, rfl, fun t =>
    ⟨(next t).2, hl t _ (next t).2, hs t _ (next t).2⟩⟩

end Lib
