import Mathlib

/-!
# Queues with tickets

A device accepts items, numbers them with consecutive tickets from `base` on, and gives them back
in any order.  `Tickets base items returned queue` relates the items accepted so far, the tickets
given back so far and what the device holds: every ticket handed out has either come back or is in
the queue, exactly once, and the queue holds each item under its own ticket.

`Tickets.enqueue` and `Tickets.dequeue` are the two steps.  `Tickets.length_add` and `Tickets.nodup`
are what follows for the counters of a program that waits until everything has come back: as many
items are missing as the queue holds, and no item comes back twice.  The rest is about lists that
are paired with such a list of tickets entry by entry, as results are with the items they are for
(`forall₂_mem` and its companions), and about counting: if everything in a set has a partner in a
subset and no two share one, then the subset is all of it (`eq_of_partners`).
-/

namespace Lib

section Lookup

variable {α β : Type*} [DecidableEq α] {l : List (α × β)} {t : α} {v : β}

lemma mem_of_lookup (h : l.lookup t = some v) : (t, v) ∈ l := by
  induction l with
  | nil => simp at h
  | cons x l ih =>
      rw [List.lookup_cons] at h
      by_cases hx : t = x.1
      · subst hx
        simp only [beq_self_eq_true, Option.some.injEq] at h
        subst h
        exact List.mem_cons_self
      · simp only [beq_eq_false_iff_ne.mpr hx] at h
        exact List.mem_cons_of_mem x (ih h)

lemma lookup_isSome (h : t ∈ l.map Prod.fst) : ∃ v, l.lookup t = some v := by
  induction l with
  | nil => simp at h
  | cons x l ih =>
      rw [List.lookup_cons]
      by_cases hx : t = x.1
      · exact ⟨x.2, by simp [hx]⟩
      · simp only [beq_eq_false_iff_ne.mpr hx]
        exact ih (by simpa [hx] using h)

/-- Taking an entry out leaves the other keys. -/
lemma perm_cons_filter (hnd : (l.map Prod.fst).Nodup) (h : t ∈ l.map Prod.fst) :
    (l.map Prod.fst).Perm (t :: (l.filter fun x => x.1 ≠ t).map Prod.fst) := by
  induction l with
  | nil => simp at h
  | cons x l ih =>
      rw [List.map_cons, List.nodup_cons] at hnd
      by_cases hx : x.1 = t
      · -- no other entry has this key, so the filter keeps the rest
        have hrest : l.filter (fun x => x.1 ≠ t) = l := by
          rw [List.filter_eq_self]
          intro y hy
          have : y.1 ≠ x.1 := fun he => hnd.1 (he ▸ List.mem_map_of_mem hy)
          simpa [hx] using this
        rw [List.filter_cons_of_neg (by simp [hx]), hrest, List.map_cons, hx]
      · have ht : t ∈ l.map Prod.fst := by
          rw [List.map_cons, List.mem_cons] at h
          exact h.resolve_left fun he => hx he.symm
        rw [List.filter_cons_of_pos (by simpa using hx), List.map_cons, List.map_cons]
        exact ((ih hnd.2 ht).cons x.1).trans (List.Perm.swap _ _ _)

end Lookup

/-- The tickets `base, base + 1, …` of the items, `returned` and `queue` fit together.  Each ticket
is either among those that came back or in the queue, and never twice; an entry of the queue has the
item its ticket was handed out for.  The order in which tickets come back is left open. -/
structure Tickets {β : Type*} (base : ℕ) (items : List β) (returned : List ℕ)
    (queue : List (ℕ × β)) : Prop where
  perm : (returned ++ queue.map Prod.fst).Perm (List.range' base items.length)
  item : ∀ x ∈ queue, ∃ k, x.1 = base + k ∧ items[k]? = some x.2

namespace Tickets

variable {β : Type*} {base : ℕ} {items : List β} {returned : List ℕ} {queue : List (ℕ × β)}

lemma empty (base : ℕ) : Tickets base ([] : List β) [] [] :=
  ⟨by simp, fun x hx => by simp at hx⟩

lemma length_add (h : Tickets base items returned queue) :
    returned.length + queue.length = items.length := by
  simpa using h.perm.length_eq

lemma nodup (h : Tickets base items returned queue) :
    (returned ++ queue.map Prod.fst).Nodup :=
  h.perm.nodup_iff.mpr List.nodup_range'

/-- More items are accepted. -/
lemma enqueue (h : Tickets base items returned queue) (new : List β) :
    Tickets base (items ++ new) returned
      (queue ++ new.mapIdx fun i x => (base + items.length + i, x)) := by
  have hnew : (new.mapIdx fun i x => (base + items.length + i, x)).map Prod.fst =
      List.range' (base + items.length) new.length := by
    apply List.ext_getElem <;> simp
  constructor
  · rw [List.map_append, hnew, ← List.append_assoc, List.length_append,
      ← List.range'_append_1]
    exact h.perm.append_right _
  · intro x hx
    rcases List.mem_append.mp hx with hx | hx
    · obtain ⟨k, hk, hi⟩ := h.item x hx
      obtain ⟨hlt, -⟩ := List.getElem?_eq_some_iff.mp hi
      exact ⟨k, hk, by rw [List.getElem?_append_left hlt, hi]⟩
    · obtain ⟨i, hi, rfl⟩ := List.mem_mapIdx.mp hx
      refine ⟨items.length + i, by simp [Nat.add_assoc], ?_⟩
      rw [List.getElem?_append_right (by omega)]
      simp [hi]

/-- An item comes back. -/
lemma dequeue (h : Tickets base items returned queue) {t : ℕ} {v : β}
    (ht : queue.lookup t = some v) :
    Tickets base items (returned ++ [t]) (queue.filter fun x => x.1 ≠ t) := by
  have hmem := mem_of_lookup ht
  have hnd : (queue.map Prod.fst).Nodup := (List.nodup_append.mp h.nodup).2.1
  constructor
  · rw [List.append_assoc, List.singleton_append]
    have := perm_cons_filter hnd (List.mem_map_of_mem hmem)
    exact (this.symm.append_left returned).trans h.perm
  · intro x hx
    exact h.item x (List.mem_filter.mp hx).1

/-- A ticket that was handed out and has not come back is held. -/
lemma held (h : Tickets base items returned queue) {t : ℕ} (h1 : base ≤ t)
    (h2 : t < base + items.length) (h3 : t ∉ returned) : ∃ v, queue.lookup t = some v := by
  have hmem : t ∈ returned ++ queue.map Prod.fst :=
    h.perm.mem_iff.mpr (by simpa using ⟨h1, h2⟩)
  exact lookup_isSome ((List.mem_append.mp hmem).resolve_left h3)

end Tickets

/-! ## Paired lists -/

lemma forall₂_zip_mem {α β : Type*} {R : α → β → Prop} {l : List α} {l' : List β}
    (h : List.Forall₂ R l l') {a : α} (ha : a ∈ l) : ∃ b, (a, b) ∈ l.zip l' ∧ R a b := by
  induction h with
  | nil => exact absurd ha List.not_mem_nil
  | cons hab _ ih =>
      rcases List.mem_cons.mp ha with rfl | ha
      · exact ⟨_, List.mem_cons_self, hab⟩
      · obtain ⟨b, hb, hr⟩ := ih ha
        exact ⟨b, List.mem_cons_of_mem _ hb, hr⟩

lemma forall₂_getElem {α β : Type*} {P : α → β → Prop} {as : List α} {bs : List β}
    (h : List.Forall₂ P as bs) {b : β} (hb : b ∈ bs) :
    ∃ (q : ℕ) (a : α), as[q]? = some a ∧ P a b := by
  induction h with
  | nil => simp at hb
  | cons hab _ ih =>
      rcases List.mem_cons.mp hb with rfl | hb
      · exact ⟨0, _, rfl, hab⟩
      · obtain ⟨q, a, ha, hp⟩ := ih hb
        exact ⟨q + 1, a, by simpa using ha, hp⟩

lemma forall₂_mem {α β : Type*} {P : α → β → Prop} {as : List α} {bs : List β}
    (h : List.Forall₂ P as bs) {a : α} (ha : a ∈ as) : ∃ b ∈ bs, P a b := by
  induction h with
  | nil => simp at ha
  | cons hab _ ih =>
      rcases List.mem_cons.mp ha with rfl | ha
      · exact ⟨_, List.mem_cons_self, hab⟩
      · obtain ⟨b, hb, hp⟩ := ih ha
        exact ⟨b, List.mem_cons_of_mem _ hb, hp⟩

/-! ## Counting -/

/-- If everything in `U` has a partner in its subset `S`, and no two share one, `U` is `S`. -/
lemma eq_of_partners {α : Type*} (rel : α → α → Prop) {U S : Finset α} (hSU : S ⊆ U)
    (hex : ∀ p ∈ U, ∃ q ∈ S, rel p q) (hinj : ∀ p p' q, rel p q → rel p' q → p = p') : U = S := by
  classical
  choose! f hf hrel using hex
  have hcard : U.card ≤ S.card := Finset.card_le_card_of_injOn f hf
    fun p hp p' hp' he => hinj p p' (f p) (hrel p hp) (he ▸ hrel p' hp')
  exact (Finset.eq_of_subset_of_card_le hSU hcard).symm

end Lib
