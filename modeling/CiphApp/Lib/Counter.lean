import Mathlib.Data.Nat.ModEq
import Mathlib.Tactic

/-!
# Free-running counters of 16 bits

An index into a ring of `2 ^ k` cells is often a machine integer that is only ever incremented; it
wraps at its width, and is masked when it is used.  Here such an index is `UInt16.ofNat n` for the
number `n` of times it was incremented, and the lemmas say that masks, sums and differences of
indices are what they would be for `n` itself, as long as the counters are less than `2 ^ 16` apart.

`toNat_ofNat_and_mask` is for the cell an index names, `toNat_ofNat_sub` and `ofNat_eq_ofNat_iff`
for what lies between two indices.  The room that is left in a ring is computed by programs in
several ways, in 16 bits or in a wider type that is cut off afterwards; `toUInt16_room` and
`room_eq` say that these agree.
-/

namespace Lib

/-- **The mask of an index** is the cell of its counter, however often the index has wrapped. -/
lemma toNat_ofNat_and_mask {k : ℕ} (hk : k ≤ 16) (n : ℕ) :
    (UInt16.ofNat n &&& UInt16.ofNat (2 ^ k - 1)).toNat = n % 2 ^ k := by
  have hle : 2 ^ k ≤ 2 ^ 16 := Nat.pow_le_pow_right (by decide) hk
  have hmask : 2 ^ k - 1 < 2 ^ 16 := by
    have hpos := Nat.two_pow_pos k
    omega
  rw [UInt16.toNat_and, UInt16.toNat_ofNat', UInt16.toNat_ofNat', Nat.mod_eq_of_lt hmask,
    Nat.and_two_pow_sub_one_eq_mod, Nat.mod_mod_of_dvd _ (Nat.pow_dvd_pow 2 hk)]

/-- The distance of two indices is that of their counters. -/
lemma toNat_ofNat_sub {m n : ℕ} (h : m ≤ n) (hlt : n < m + 2 ^ 16) :
    (UInt16.ofNat n - UInt16.ofNat m).toNat = n - m := by
  rw [← UInt16.ofNat_sub h, UInt16.toNat_ofNat', Nat.mod_eq_of_lt (by omega)]

/-- Indices are equal if their counters are. -/
lemma ofNat_eq_ofNat_iff {m n : ℕ} (h : m ≤ n) (hlt : n < m + 2 ^ 16) :
    UInt16.ofNat m = UInt16.ofNat n ↔ m = n := by
  refine ⟨fun heq => ?_, fun heq => by rw [heq]⟩
  have hsub := toNat_ofNat_sub h hlt
  rw [heq, UInt16.sub_self] at hsub
  have hzero : n - m = 0 := hsub.symm
  omega

/-- A sum that is computed with 32 bits and stored with 16. -/
lemma toUInt16_add (n : ℕ) (a : UInt32) :
    ((UInt16.ofNat n).toUInt32 + a).toUInt16 = UInt16.ofNat (n + a.toNat) := by
  rw [← UInt16.toNat_inj]
  simp only [UInt32.toNat_toUInt16, UInt32.toNat_add, UInt16.toNat_toUInt32, UInt16.toNat_ofNat']
  omega

/-- A difference that is computed with 32 bits and stored with 16. -/
lemma toUInt16_sub {s l : ℕ} {a : UInt32} (h : s + a.toNat ≤ l) :
    ((UInt16.ofNat l).toUInt32 - ((UInt16.ofNat s).toUInt32 + a)).toUInt16 =
      UInt16.ofNat (l - (s + a.toNat)) := by
  rw [← UInt16.toNat_inj]
  have ha := a.toNat_lt
  simp only [UInt32.toNat_toUInt16, UInt32.toNat_add, UInt32.toNat_sub, UInt16.toNat_toUInt32,
    UInt16.toNat_ofNat']
  omega

/-- What is left of a ring of `l` cells, computed with 32 bits and stored with 16. -/
lemma toUInt16_room {s t l : ℕ} {a : UInt32} (h : s + a.toNat ≤ l + t) :
    ((UInt16.ofNat l).toUInt32 - ((UInt16.ofNat s).toUInt32 + a) +
      (UInt16.ofNat t).toUInt32).toUInt16 = UInt16.ofNat (l + t - (s + a.toNat)) := by
  rw [← UInt16.toNat_inj]
  have ha := a.toNat_lt
  simp only [UInt32.toNat_toUInt16, UInt32.toNat_add, UInt32.toNat_sub, UInt16.toNat_toUInt32,
    UInt16.toNat_ofNat']
  omega

/-- The same with 16 bits throughout. -/
lemma room_eq {s t l : ℕ} (h : s ≤ l + t) :
    UInt16.ofNat l - UInt16.ofNat s + UInt16.ofNat t = UInt16.ofNat (l + t - s) := by
  rw [← UInt16.toNat_inj]
  simp only [UInt16.toNat_add, UInt16.toNat_sub, UInt16.toNat_ofNat']
  omega

end Lib
