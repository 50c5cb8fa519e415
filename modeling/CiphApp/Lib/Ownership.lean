import Mathlib

/-!
# A table that owns what is out of a pool

A pool hands out objects and a table keeps them: `Owns T out` says that the objects in the cells
of `T` are exactly the objects of `out`, each in one cell only.  An object that is taken is put
into a free cell at once, and one that is given back leaves its cell; these two steps keep the
relation, and with it the pool can never run dry unnoticed: as many objects are out as cells are
taken (`Owns.ncard_eq`).

The steps are `Owns.insert` and `Owns.erase`, and the relation starts with `Owns.empty`.
`Owns.not_held` is what a fresh object gives: it is in no cell.  `Owns.inj` is what the users of a
table rely on, that what they find in their cell is theirs.
-/

namespace Lib

section Ownership

variable {ι α : Type*} {T : ι → Option α} {out : Finset α}

/-- Every held object is out of the pool, and every object that is out is held in exactly one
cell. -/
structure Owns (T : ι → Option α) (out : Finset α) : Prop where
  held : ∀ c s, T c = some s → s ∈ out
  cell : ∀ s ∈ out, ∃! c, T c = some s

namespace Owns

lemma empty : Owns (fun _ : ι => (none : Option α)) ∅ :=
  ⟨fun _ _ h => by simp at h, fun s hs => by simp at hs⟩

/-- Two cells never hold the same object. -/
lemma inj (h : Owns T out) {c d : ι} {s : α} (hc : T c = some s) (hd : T d = some s) : c = d :=
  (h.cell s (h.held c s hc)).unique hc hd

lemma not_held (h : Owns T out) {s : α} (hs : s ∉ out) (c : ι) : T c ≠ some s :=
  fun hc => hs (h.held c s hc)

variable [DecidableEq ι] [DecidableEq α]

/-- An object that was not out is put into a free cell. -/
lemma insert (h : Owns T out) {c : ι} {s : α} (hc : T c = none) (hs : s ∉ out) :
    Owns (Function.update T c (some s)) (insert s out) := by
  constructor
  · intro d t hd
    by_cases hdc : d = c
    · subst hdc
      obtain rfl : s = t := by simpa using hd
      exact Finset.mem_insert_self s out
    · rw [Function.update_of_ne hdc] at hd
      exact Finset.mem_insert_of_mem (h.held d t hd)
  · intro t ht
    rcases Finset.mem_insert.mp ht with rfl | ht
    · refine ⟨c, by simp, fun d hd => ?_⟩
      by_contra hdc
      simp only [Function.update_of_ne hdc] at hd
      exact h.not_held hs d hd
    · obtain ⟨d, hd, huniq⟩ := h.cell t ht
      have hdc : d ≠ c := by
        rintro rfl
        simp [hc] at hd
      refine ⟨d, by simp [Function.update_of_ne hdc, hd], fun e he => huniq e ?_⟩
      by_cases hec : e = c
      · subst hec
        obtain rfl : s = t := by simpa using he
        exact absurd ht hs
      · simpa only [Function.update_of_ne hec] using he

/-- A held object is given back and its cell is emptied. -/
lemma erase (h : Owns T out) {c : ι} {s : α} (hc : T c = some s) :
    Owns (Function.update T c none) (out.erase s) := by
  constructor
  · intro d t hd
    have hdc : d ≠ c := by
      rintro rfl
      simp at hd
    rw [Function.update_of_ne hdc] at hd
    refine Finset.mem_erase.mpr ⟨?_, h.held d t hd⟩
    rintro rfl
    exact hdc (h.inj hd hc)
  · intro t ht
    obtain ⟨hts, ht⟩ := Finset.mem_erase.mp ht
    obtain ⟨d, hd, huniq⟩ := h.cell t ht
    have hdc : d ≠ c := by
      rintro rfl
      exact hts (by simpa [hc] using hd.symm)
    refine ⟨d, by simp [Function.update_of_ne hdc, hd], fun e he => huniq e ?_⟩
    have hec : e ≠ c := by
      rintro rfl
      simp at he
    simpa only [Function.update_of_ne hec] using he

omit [DecidableEq ι] [DecidableEq α] in
/-- **As many objects are out as cells are taken.** -/
lemma ncard_eq (h : Owns T out) : {c | T c ≠ none}.ncard = out.card := by
  have hcell : ∀ s : out, ∃ c, T c = some s.1 := fun s => (h.cell s.1 s.2).exists
  choose f hf using hcell
  have hinj : Function.Injective f := by
    intro s t hst
    have : some s.1 = some t.1 := by rw [← hf s, ← hf t, hst]
    exact Subtype.ext (by simpa using this)
  have himage : {c | T c ≠ none} = Set.range f := by
    ext c
    constructor
    · intro hc
      obtain ⟨s, hs⟩ := Option.ne_none_iff_exists'.mp hc
      exact ⟨⟨s, h.held c s hs⟩, h.inj (hf _) hs⟩
    · rintro ⟨s, rfl⟩
      simp [hf s]
  rw [himage, ← Set.image_univ, Set.ncard_image_of_injective _ hinj, Set.ncard_univ]
  simp

end Owns

end Ownership

end Lib
