import CiphApp.Libmemif.Ring

/-!
# The lists of libmemif

`add_list_elt`, `get_list_elt` and `free_list_elt` of `libmemif/src/main.c`.
libmemif finds connections by the number of a file descriptor or of an interface, in arrays of
entries with a key.  An entry without data is free; a new entry takes the first free place, and an
array without one is doubled.

An array with a key at most once (`Keyed`) is a map from keys to data: `lookup_addListElt` and
`lookup_freeListElt` say how the operations change it, and the proofs about the control channel use
nothing else.  The key `-1` stands for no key, and is never found.

Both are cases of `lookup_set`, the replacement of one entry.  A slave is entered without a key
before it has a socket, and `memif_request_connection` sets its key in place (`modify_addListElt`).
-/

namespace CiphApp.Libmemif

/-- `memif_list_elt_t`. -/
structure MemifListElt (α : Type) where
  key : ℤ
  dataStruct : Option α

section ListElt

variable {α : Type}

/-- An entry that is free. -/
def MemifListElt.unused : MemifListElt α := ⟨-1, none⟩

/-- `add_list_elt`: the list, and the position of the new entry. -/
def addListElt (e : MemifListElt α) (list : List (MemifListElt α)) : List (MemifListElt α) × ℕ :=
  match list.findIdx? fun x => x.dataStruct.isNone with
  | some i => (list.set i e, i)
  | none => (list ++ e :: List.replicate (list.length - 1) .unused, list.length)

/-- `get_list_elt`: the position of the entry. -/
def getListElt (list : List (MemifListElt α)) (key : ℤ) : Option ℕ :=
  if key = -1 then none else list.findIdx? fun x => x.key == key

/-- `free_list_elt`. -/
def freeListElt (list : List (MemifListElt α)) (key : ℤ) : List (MemifListElt α) :=
  match list.findIdx? fun x => x.key == key with
  | some i => list.set i .unused
  | none => list

/-- The data of the entry with a key. -/
def lookup (list : List (MemifListElt α)) (key : ℤ) : Option α :=
  (getListElt list key).bind fun i => list[i]?.bind MemifListElt.dataStruct

/-! ## Lists with a key at most once -/

/-- Free entries have no key, and no key stands twice. -/
structure Keyed (list : List (MemifListElt α)) : Prop where
  unused : ∀ (i : ℕ) (e : MemifListElt α), list[i]? = some e → e.dataStruct = none → e.key = -1
  inj : ∀ (i j : ℕ) (e e' : MemifListElt α), list[i]? = some e → list[j]? = some e' →
    e.key = e'.key → e.key ≠ -1 → i = j

variable {list : List (MemifListElt α)} {e : MemifListElt α} {i : ℕ} {key : ℤ} {a : α}

lemma Keyed.replicate (n : ℕ) : Keyed (List.replicate n (.unused : MemifListElt α)) where
  unused i e he _ := by
    rw [List.eq_of_mem_replicate (List.mem_of_getElem? he)]
    rfl
  inj i j e e' he _ _ hkey := by
    rw [List.eq_of_mem_replicate (List.mem_of_getElem? he)] at hkey
    exact absurd rfl hkey

lemma getListElt_eq_some (h : Keyed list) :
    getListElt list key = some i ↔
      key ≠ -1 ∧ ∃ e : MemifListElt α, list[i]? = some e ∧ e.key = key := by
  rw [getListElt]
  by_cases hkey : key = -1
  · rw [if_pos hkey]
    exact iff_of_false (by simp) fun h' => h'.1 hkey
  · rw [if_neg hkey, List.findIdx?_eq_some_iff_getElem]
    constructor
    · rintro ⟨hi, heq, -⟩
      exact ⟨hkey, list[i], List.getElem?_eq_getElem hi, eq_of_beq heq⟩
    · rintro ⟨-, e, he, rfl⟩
      obtain ⟨hi, rfl⟩ := List.getElem?_eq_some_iff.mp he
      refine ⟨hi, beq_self_eq_true _, fun j hj heq => ?_⟩
      have hji := h.inj j i _ _ (List.getElem?_eq_getElem (hj.trans hi)) he (eq_of_beq heq)
        (by rwa [eq_of_beq heq])
      omega

lemma lookup_eq_some (h : Keyed list) :
    lookup list key = some a ↔ key ≠ -1 ∧ ∃ i : ℕ, list[i]? = some ⟨key, some a⟩ := by
  rw [lookup, Option.bind_eq_some_iff]
  constructor
  · rintro ⟨i, hi, ha⟩
    obtain ⟨hkey, e, he, rfl⟩ := (getListElt_eq_some h).mp hi
    rw [he, Option.bind_some] at ha
    refine ⟨hkey, i, ?_⟩
    rw [he, ← ha]
  · rintro ⟨hkey, i, hi⟩
    refine ⟨i, (getListElt_eq_some h).mpr ⟨hkey, _, hi, rfl⟩, ?_⟩
    rw [hi, Option.bind_some]

lemma lookup_eq_none (h : Keyed list) (hkey : key ≠ -1) :
    lookup list key = none ↔
      ∀ (i : ℕ) (e : MemifListElt α), list[i]? = some e → e.key ≠ key := by
  constructor
  · rintro hnone i e he rfl
    cases hdata : e.dataStruct with
    | none => exact hkey (h.unused i e he hdata)
    | some a =>
        have hsome : lookup list e.key = some a := by
          refine (lookup_eq_some h).mpr ⟨hkey, i, ?_⟩
          rw [he, ← hdata]
        rw [hnone] at hsome
        cases hsome
  · intro hall
    cases hfound : lookup list key with
    | none => rfl
    | some a =>
        obtain ⟨-, i, hi⟩ := (lookup_eq_some h).mp hfound
        exact absurd rfl (hall i _ hi)

lemma getListElt_eq_none (h : Keyed list) :
    getListElt list key = none ↔ lookup list key = none := by
  constructor
  · intro hnone
    rw [lookup, hnone, Option.bind_none]
  · intro hnone
    by_contra hsome
    obtain ⟨i, hi⟩ := Option.ne_none_iff_exists'.mp hsome
    obtain ⟨hkey, e, he, heq⟩ := (getListElt_eq_some h).mp hi
    exact (lookup_eq_none h hkey).mp hnone i e he heq

/-! ## Changing one entry -/

lemma getElem?_set_cases {j : ℕ} {x : MemifListElt α} (hx : (list.set i e)[j]? = some x) :
    (j = i ∧ x = e) ∨ (j ≠ i ∧ list[j]? = some x) := by
  rw [List.getElem?_set] at hx
  by_cases hij : i = j
  · rw [if_pos hij] at hx
    obtain ⟨-, hex⟩ := Option.ite_none_right_eq_some.mp hx
    exact .inl ⟨hij.symm, (Option.some.inj hex).symm⟩
  · rw [if_neg hij] at hx
    exact .inr ⟨Ne.symm hij, hx⟩

/-- An entry can be replaced by one whose key is not found elsewhere. -/
lemma Keyed.set (h : Keyed list) (hunused : e.dataStruct = none → e.key = -1)
    (hfresh : e.key ≠ -1 →
      ∀ (j : ℕ) (e' : MemifListElt α), list[j]? = some e' → e'.key = e.key → j = i) :
    Keyed (list.set i e) where
  unused j x hx := by
    rcases getElem?_set_cases hx with ⟨-, rfl⟩ | ⟨-, hx⟩
    · exact hunused
    · exact h.unused j x hx
  inj j k x y hx hy hxy hkey := by
    rcases getElem?_set_cases hx with ⟨rfl, rfl⟩ | ⟨-, hx'⟩
    · rcases getElem?_set_cases hy with ⟨rfl, -⟩ | ⟨-, hy'⟩
      · rfl
      · exact (hfresh hkey k y hy' hxy.symm).symm
    · rcases getElem?_set_cases hy with ⟨rfl, rfl⟩ | ⟨-, hy'⟩
      · exact hfresh (hxy ▸ hkey) j x hx' hxy
      · exact h.inj j k x y hx' hy' hxy hkey

lemma lookup_set (h : Keyed list) (h' : Keyed (list.set i e)) {old : MemifListElt α}
    (hold : list[i]? = some old) (hkey : key ≠ -1) :
    lookup (list.set i e) key =
      if key = e.key then e.dataStruct else if key = old.key then none else lookup list key := by
  have hi : i < list.length := (List.getElem?_eq_some_iff.mp hold).1
  have hself : (list.set i e)[i]? = some e := by rw [List.getElem?_set_self hi]
  by_cases hnew : key = e.key
  · rw [if_pos hnew]
    cases hdata : e.dataStruct with
    | none => exact absurd (hnew.trans (h'.unused i e hself hdata)) hkey
    | some a =>
        refine (lookup_eq_some h').mpr ⟨hkey, i, ?_⟩
        rw [hself, hnew, ← hdata]
  · rw [if_neg hnew]
    have hother : ∀ (j : ℕ) x, (list.set i e)[j]? = some x → x.key = key →
        list[j]? = some x ∧ j ≠ i := by
      rintro j x hx rfl
      rcases getElem?_set_cases hx with ⟨-, rfl⟩ | ⟨hji, hx⟩
      · exact absurd rfl hnew
      · exact ⟨hx, hji⟩
    by_cases heq : key = old.key
    · rw [if_pos heq, lookup_eq_none h' hkey]
      intro j x hx hxk
      obtain ⟨hx', hji⟩ := hother j x hx hxk
      exact hji (h.inj j i x old hx' hold (hxk.trans heq) (hxk ▸ hkey))
    · rw [if_neg heq]
      cases hfound : lookup list key with
      | none =>
          rw [lookup_eq_none h' hkey]
          intro j x hx hxk
          exact (lookup_eq_none h hkey).mp hfound j x (hother j x hx hxk).1 hxk
      | some a =>
          obtain ⟨-, j, hj⟩ := (lookup_eq_some h).mp hfound
          refine (lookup_eq_some h').mpr ⟨hkey, j, ?_⟩
          rw [List.getElem?_set, if_neg, hj]
          rintro rfl
          rw [hold] at hj
          exact heq (congrArg MemifListElt.key (Option.some.inj hj)).symm

/-! ## The operations -/

/-- **Adding a key** that is not found makes its data found, and changes nothing else. -/
lemma lookup_addListElt (h : Keyed list) (hkey : key ≠ -1) (hnone : lookup list key = none) :
    Keyed (addListElt ⟨key, some a⟩ list).1 ∧
      ∀ k, lookup (addListElt ⟨key, some a⟩ list).1 k =
        if k = key then some a else lookup list k := by
  have hfresh := (lookup_eq_none h hkey).mp hnone
  have hdead : ∀ l : List (MemifListElt α), lookup l (-1) = none := fun l => by
    rw [lookup, getListElt, if_pos rfl, Option.bind_none]
  rw [addListElt]
  cases hfind : list.findIdx? fun x => x.dataStruct.isNone with
  | some i =>
      obtain ⟨hi, hisNone, -⟩ := List.findIdx?_eq_some_iff_getElem.mp hfind
      have hold : list[i]? = some list[i] := List.getElem?_eq_getElem hi
      have hunused := h.unused i _ hold (Option.isNone_iff_eq_none.mp hisNone)
      have h' : Keyed (list.set i ⟨key, some a⟩) :=
        h.set (fun hdata => by cases hdata) fun _ j e' he' heq => absurd heq (hfresh j e' he')
      refine ⟨h', fun k => ?_⟩
      by_cases hk : k = -1
      · rw [hk, hdead, hdead, if_neg (Ne.symm hkey)]
      · rw [lookup_set h h' hold hk, hunused, if_neg (show ¬k = -1 from hk)]
  | none =>
      -- the array is doubled, and the new entry is the first of the second half
      have hright : ∀ n (j : ℕ) x, list.length ≤ j →
          (list ++ (⟨key, some a⟩ : MemifListElt α) :: List.replicate n .unused)[j]? = some x →
          (j = list.length ∧ x = ⟨key, some a⟩) ∨ x = .unused := by
        intro n j x hj hx
        rw [List.getElem?_append_right hj, List.getElem?_cons] at hx
        by_cases hzero : j - list.length = 0
        · rw [if_pos hzero] at hx
          exact .inl ⟨by omega, (Option.some.inj hx).symm⟩
        · rw [if_neg hzero] at hx
          exact .inr (List.eq_of_mem_replicate (List.mem_of_getElem? hx))
      have hcases : ∀ (j : ℕ) x,
          (list ++ (⟨key, some a⟩ : MemifListElt α) ::
            List.replicate (list.length - 1) .unused)[j]? = some x →
          list[j]? = some x ∨ (j = list.length ∧ x = ⟨key, some a⟩) ∨ x = .unused := by
        intro j x hx
        rcases Nat.lt_or_ge j list.length with hj | hj
        · rw [List.getElem?_append_left hj] at hx
          exact .inl hx
        · exact .inr (hright _ j x hj hx)
      have h' : Keyed (list ++ (⟨key, some a⟩ : MemifListElt α) ::
          List.replicate (list.length - 1) .unused) := {
        unused := by
          intro j x hx hdata
          rcases hcases j x hx with hx | ⟨-, rfl⟩ | rfl
          · exact h.unused j x hx hdata
          · cases hdata
          · rfl
        inj := by
          intro j k x y hx hy hxy hxk
          rcases hcases j x hx with hx | ⟨rfl, rfl⟩ | rfl
          · rcases hcases k y hy with hy | ⟨rfl, rfl⟩ | rfl
            · exact h.inj j k x y hx hy hxy hxk
            · exact absurd hxy (hfresh j x hx)
            · exact absurd hxy hxk
          · rcases hcases k y hy with hy | ⟨rfl, rfl⟩ | rfl
            · exact absurd hxy.symm (hfresh k y hy)
            · rfl
            · exact absurd hxy hxk
          · exact absurd rfl hxk }
      refine ⟨h', fun k => ?_⟩
      by_cases hk : k = -1
      · rw [hk, hdead, hdead, if_neg (Ne.symm hkey)]
      · by_cases heq : k = key
        · rw [if_pos heq]
          refine (lookup_eq_some h').mpr ⟨hk, list.length, ?_⟩
          rw [List.getElem?_append_right le_rfl, Nat.sub_self, List.getElem?_cons_zero, heq]
        · rw [if_neg heq]
          cases hfound : lookup list k with
          | none =>
              rw [lookup_eq_none h' hk]
              intro j x hx
              rcases hcases j x hx with hx | ⟨-, rfl⟩ | rfl
              · exact (lookup_eq_none h hk).mp hfound j x hx
              · exact Ne.symm heq
              · exact Ne.symm hk
          | some b =>
              obtain ⟨-, j, hj⟩ := (lookup_eq_some h).mp hfound
              refine (lookup_eq_some h').mpr ⟨hk, j, ?_⟩
              rw [List.getElem?_append_left (List.getElem?_eq_some_iff.mp hj).1, hj]

/-- An entry without a key that is given one at its place. -/
lemma modify_addListElt (list : List (MemifListElt α)) (a : Option α) (key key' : ℤ) :
    ((addListElt ⟨key, a⟩ list).1.modify (addListElt ⟨key, a⟩ list).2 fun e =>
      { e with key := key' }) = (addListElt ⟨key', a⟩ list).1 := by
  rw [addListElt, addListElt]
  cases hfind : list.findIdx? fun x => x.dataStruct.isNone with
  | some i =>
      obtain ⟨hi, -⟩ := List.findIdx?_eq_some_iff_getElem.mp hfind
      simp only [List.modify_eq_set_getElem?, List.getElem?_set_self hi, Option.map_eq_map,
        Option.map_some, Option.getD_some, List.set_set]
  | none =>
      simp only [List.modify_eq_set_getElem?, List.getElem?_append_right le_rfl, Nat.sub_self,
        List.getElem?_cons_zero, Option.map_eq_map, Option.map_some, Option.getD_some,
        List.set_append_right _ _ le_rfl, List.set_cons_zero]

/-- **Freeing a key** makes it not found, and changes nothing else. -/
lemma lookup_freeListElt (h : Keyed list) (hkey : key ≠ -1) :
    Keyed (freeListElt list key) ∧
      ∀ k, lookup (freeListElt list key) k = if k = key then none else lookup list k := by
  rw [freeListElt]
  cases hfind : list.findIdx? fun x => x.key == key with
  | some i =>
      have hi : getListElt list key = some i := by rw [getListElt, if_neg hkey, hfind]
      obtain ⟨-, old, hold, holdk⟩ := (getListElt_eq_some h).mp hi
      have h' : Keyed (list.set i .unused) := h.set (fun _ => rfl) fun hne => absurd rfl hne
      refine ⟨h', fun k => ?_⟩
      by_cases hk : k = -1
      · rw [hk, if_neg (Ne.symm hkey), lookup, lookup, getListElt, getListElt, if_pos rfl,
          if_pos rfl, Option.bind_none, Option.bind_none]
      · rw [lookup_set h h' hold hk, holdk,
          if_neg (show ¬k = (MemifListElt.unused : MemifListElt α).key from hk)]
  | none =>
      have hnone : lookup list key = none := by
        rw [lookup, getListElt, if_neg hkey, hfind, Option.bind_none]
      refine ⟨h, fun k => ?_⟩
      by_cases heq : k = key
      · rw [if_pos heq, heq, hnone]
      · rw [if_neg heq]

end ListElt

end CiphApp.Libmemif
