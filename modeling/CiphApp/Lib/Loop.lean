import Mathlib

/-!
# Loops and runs

`forUpTo n f s` is the `for (i = 0; i < n; ++i)` loop of an imperative program, read as a
function on its state: the body `f i` is applied for `i = 0, …, n - 1` in this order.  The
recursion peels the *last* iteration, so the state after `n + 1` rounds is `f n` applied to the
state after `n` rounds; that is the shape in which loop invariants are stated.

`firstFree p k i` is the search loop `for (; …; ++i) if (p(i)) return i;` with at most `k`
rounds.  It recurses on the number of rounds that are left, so that it stops evaluating at the
first hit.

`doWhileDec body c s` is the loop `do { body } while (--c)` on an unsigned counter of `w` bits.  The
counter is decremented before it is tested, so a loop that starts at 0 goes round once for every
value of the counter (`doWhileDec_zero`).

`run_induct` is the invariant rule of a transition system.

Nothing here is about a particular program.
-/

namespace Lib

/-! ## The loop and its invariant rule -/

/-- Run the body `f` on the indices `0, …, n - 1`, in increasing order. -/
def forUpTo {σ : Type*} : ℕ → (ℕ → σ → σ) → σ → σ
  | 0, _, s => s
  | n + 1, f, s => f n (forUpTo n f s)

section ForUpTo

variable {σ τ : Type*} {f g : ℕ → σ → σ} {s : σ}

@[simp] lemma forUpTo_zero : forUpTo 0 f s = s := rfl

lemma forUpTo_succ (n : ℕ) : forUpTo (n + 1) f s = f n (forUpTo n f s) := rfl

/-- **The invariant rule.**  What holds on entry and is carried from round `i` to round `i + 1`
holds on exit. -/
lemma forUpTo_induct {P : ℕ → σ → Prop} {n : ℕ} (h0 : P 0 s)
    (hstep : ∀ i t, i < n → P i t → P (i + 1) (f i t)) : P n (forUpTo n f s) := by
  induction n with
  | zero => exact h0
  | succ n ih =>
      rw [forUpTo_succ]
      exact hstep n _ (by omega) (ih fun i t hi => hstep i t (by omega))

/-- A part of the state that no round touches is the same after the loop. -/
lemma forUpTo_frame (π : σ → τ) {n : ℕ} (h : ∀ i t, i < n → π (f i t) = π t) :
    π (forUpTo n f s) = π s :=
  forUpTo_induct (P := fun _ t => π t = π s) rfl fun i t hi ht => (h i t hi).trans ht

/-- A loop that rewrites entry `i` of an array in round `i`, beside other work, rewrites each of
the first `n` entries once. -/
lemma forUpTo_pointwise (g : ℕ → σ → σ) (k : ℕ → τ → τ) (n : ℕ) (s : (ℕ → σ) × τ) (i : ℕ) :
    (forUpTo n (fun i s => (Function.update s.1 i (g i (s.1 i)), k i s.2)) s).1 i =
      if i < n then g i (s.1 i) else s.1 i := by
  induction n with
  | zero => simp
  | succ n ih =>
      rw [forUpTo_succ]
      by_cases hi : i = n
      · subst hi
        simp [ih]
      · have hiff : i < n + 1 ↔ i < n := by omega
        simp only [Function.update_of_ne hi, ih, hiff]

end ForUpTo

/-- The indices of a loop of `n + k` rounds are those of the first `n` and those of the other
`k`. -/
lemma range_append_range' (n k : ℕ) : List.range n ++ List.range' n k = List.range (n + k) := by
  rw [List.range_eq_range', List.range_eq_range', ← List.range'_append_1, Nat.zero_add]

/-! ## Searching for the first index that fits -/

/-- The first index from `i` on, among `k` of them, at which `p` holds. -/
def firstFree (p : ℕ → Bool) : ℕ → ℕ → Option ℕ
  | 0, _ => none
  | k + 1, i => if p i then some i else firstFree p k (i + 1)

section FirstFree

variable {p : ℕ → Bool} {k i j : ℕ}

lemma firstFree_some (h : firstFree p k i = some j) :
    i ≤ j ∧ j < i + k ∧ p j = true ∧ ∀ l, i ≤ l → l < j → p l = false := by
  induction k generalizing i with
  | zero => simp [firstFree] at h
  | succ k ih =>
      rw [firstFree] at h
      split_ifs at h with hp
      · obtain rfl : i = j := by simpa using h
        exact ⟨le_rfl, by omega, hp, fun l h1 h2 => by omega⟩
      · obtain ⟨h1, h2, h3, h4⟩ := ih h
        refine ⟨by omega, by omega, h3, fun l hl hj => ?_⟩
        rcases Nat.eq_or_lt_of_le hl with rfl | hlt
        · simpa using hp
        · exact h4 l hlt hj

lemma firstFree_none (h : firstFree p k i = none) : ∀ l, i ≤ l → l < i + k → p l = false := by
  induction k generalizing i with
  | zero => intro l h1 h2; omega
  | succ k ih =>
      rw [firstFree] at h
      split_ifs at h with hp
      intro l h1 h2
      rcases Nat.eq_or_lt_of_le h1 with rfl | hlt
      · simpa using hp
      · exact ih h l hlt (by omega)

end FirstFree

/-! ## Counting down -/

section DoWhileDec

variable {σ : Type*} {w : ℕ}

lemma toNat_pred_add_one {c : BitVec w} (h : c ≠ 0) : (c - 1).toNat + 1 = c.toNat := by
  have h0 : c.toNat ≠ 0 := fun h' => h (BitVec.eq_of_toNat_eq (by simpa using h'))
  have hlt := c.isLt
  have h1 : 1 < 2 ^ w := by omega
  have hone : (1 : BitVec w).toNat = 1 := by simp [Nat.mod_eq_of_lt h1]
  rw [BitVec.toNat_sub_of_le]
  · omega
  · rw [BitVec.le_def]
    omega

/-- `do { body } while (--c)`, for a counter of `w` bits. -/
def doWhileDec (body : σ → σ) (c : BitVec w) (s : σ) : σ :=
  if h : c - 1 = 0 then body s else doWhileDec body (c - 1) (body s)
termination_by (c - 1).toNat
decreasing_by
  have hlt := toNat_pred_add_one h
  omega

lemma doWhileDec_eq_iterate {body : σ → σ} (c : BitVec w) (s : σ) :
    doWhileDec body c s = body^[(c - 1).toNat + 1] s := by
  induction c, s using doWhileDec.induct body with
  | case1 c s h =>
      rw [doWhileDec, dif_pos h, h]
      rfl
  | case2 c s h ih =>
      rw [doWhileDec, dif_neg h, ih, toNat_pred_add_one h]
      rfl

lemma doWhileDec_of_ne_zero {body : σ → σ} {c : BitVec w} (h : c ≠ 0) (s : σ) :
    doWhileDec body c s = body^[c.toNat] s := by
  rw [doWhileDec_eq_iterate, toNat_pred_add_one h]

/-- **A counter that starts at 0 wraps** and passes through all its values. -/
lemma doWhileDec_zero {body : σ → σ} (s : σ) :
    doWhileDec body (0 : BitVec w) s = body^[2 ^ w] s := by
  have hwrap : ((0 : BitVec w) - 1).toNat + 1 = 2 ^ w := by
    cases w with
    | zero => rfl
    | succ w =>
        have hpos : 0 < 2 ^ (w + 1) := by positivity
        have hpred : ((0 : BitVec (w + 1)) - 1).toNat = 2 ^ (w + 1) - 1 := by simp
        rw [hpred]
        omega
  rw [doWhileDec_eq_iterate, hwrap]

end DoWhileDec

/-! ## Runs of a transition system -/

/-- What every step keeps, a run keeps. -/
lemma run_induct {σ : Type*} {step : σ → σ → Prop} {Q : σ → Prop}
    (hstep : ∀ a b, step a b → Q a → Q b) {a b : σ} (h : Relation.ReflTransGen step a b)
    (ha : Q a) : Q b := by
  induction h with
  | refl => exact ha
  | tail _ hs ih => exact hstep _ _ hs ih

end Lib
