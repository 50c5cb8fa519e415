import Mathlib

/-!
# Ledgers

A ledger is a list of entries.  Each entry is made for an *item* and posted to an *account*, and a
program that keeps counters keeps, in effect, the column sums of such a table.  `tally` counts the
entries of an item, `posted` those of an account; both add up to the length of the ledger
(`sum_tally`, `sum_posted`), so a statement about every item is a statement about the counters.

A ledger is usually built item by item, one list of entries for each (`tally_flatMap_range`), or it
has entries of a single item (`tally_eq_length`).  The sum over the items is over any finite set
that has the items of all entries, since a program numbers its items and works on some of them;
accounts are the counters of the program, a finite type.  Nothing here is about a particular
program.
-/

namespace Lib

/-- An entry of a ledger. -/
structure Entry (ι κ : Type*) where
  item : ι
  account : κ
  deriving DecidableEq, Repr

/-- The classes of a list add up to its length. -/
lemma sum_countP_eq_length {α β : Type*} [DecidableEq β] {l : List α} {g : α → β} {s : Finset β}
    (h : ∀ a ∈ l, g a ∈ s) : ∑ b ∈ s, l.countP (fun a => g a = b) = l.length := by
  have hcount : ∀ b, l.countP (fun a => g a = b) = Multiset.count b (l.map g : List β) := by
    intro b
    rw [Multiset.coe_count, List.count, List.countP_map]
    exact List.countP_congr fun a _ => by simp
  rw [Finset.sum_congr rfl fun b _ => hcount b, Multiset.sum_count_eq_card]
  · simp
  · simpa using h

/-! ## Items -/

section Items

variable {ι κ : Type*} [DecidableEq ι]

/-- The number of entries made for an item. -/
def tally (L : List (Entry ι κ)) (i : ι) : ℕ := L.countP fun e => e.item = i

@[simp] lemma tally_append (L L' : List (Entry ι κ)) (i : ι) :
    tally (L ++ L') i = tally L i + tally L' i :=
  List.countP_append

lemma tally_eq_zero {L : List (Entry ι κ)} {i : ι} (h : ∀ e ∈ L, e.item ≠ i) : tally L i = 0 :=
  List.countP_eq_zero.mpr fun e he => by simpa using h e he

/-- All entries are for one item. -/
lemma tally_eq_length {L : List (Entry ι κ)} {i : ι} (h : ∀ e ∈ L, e.item = i) :
    tally L i = L.length :=
  List.countP_eq_length.mpr fun e he => by simpa using h e he

lemma sum_tally {L : List (Entry ι κ)} {s : Finset ι} (h : ∀ e ∈ L, e.item ∈ s) :
    ∑ i ∈ s, tally L i = L.length :=
  sum_countP_eq_length h

/-- A loop whose pass `i` makes entries for item `i` only: the tally of an item is what its own
pass has entered. -/
lemma tally_flatMap_range {f : ℕ → List (Entry ℕ κ)} (hf : ∀ i, ∀ e ∈ f i, e.item = i) (n j : ℕ) :
    tally ((List.range n).flatMap f) j = if j < n then (f j).length else 0 := by
  induction n with
  | zero => rfl
  | succ n ih =>
      rw [List.range_succ, List.flatMap_append, tally_append, ih, List.flatMap_singleton]
      by_cases hj : j = n
      · subst hj
        rw [if_neg (lt_irrefl _), if_pos (by omega), tally_eq_length (hf j), Nat.zero_add]
      · have hnone : tally (f n) j = 0 := tally_eq_zero fun e he => by
          rw [hf n e he]
          exact Ne.symm hj
        have hiff : j < n + 1 ↔ j < n := by omega
        simp only [hnone, hiff, Nat.add_zero]

end Items

/-! ## Accounts -/

section Accounts

variable {ι κ : Type*} [DecidableEq κ]

/-- The number of entries posted to an account. -/
def posted (L : List (Entry ι κ)) (k : κ) : ℕ := L.countP fun e => e.account = k

@[simp] lemma posted_append (L L' : List (Entry ι κ)) (k : κ) :
    posted (L ++ L') k = posted L k + posted L' k :=
  List.countP_append

lemma sum_posted [Fintype κ] (L : List (Entry ι κ)) : ∑ k, posted L k = L.length :=
  sum_countP_eq_length fun _ _ => Finset.mem_univ _

end Accounts

end Lib
