import CiphApp.Libmemif.Calls

/-!
# The layout of shared memory

`memif_add_region`, `memif_get_ring` and `memif_init_queues` of `libmemif/src/main.c`.  The slave
makes two regions: region 0 has the rings, one after the other, and region 1 the buffers.  Each
descriptor of each ring gets a buffer of its own, by a number that is kept in 16 bits.

`buffers_apart_iff` says that the buffers are apart and inside their region exactly if there are not
more than `2 ^ 16` of them.  The program has two rings in each direction with 1024 descriptors each
(`ciphRunArgs`).

`DescId` names a descriptor by its ring and its index, and `DescId.number` counts them in the order
in which `memif_init_queues` goes through them.  `offset_eq` is the offset that the source computes
from this number, cut to 16 bits; `number_injective` and `exists_number` say that the numbers are
those below the total.  So as long as nothing is cut off, different descriptors have offsets a
buffer apart (`apart_of_ne`), and if something is, two of them have the same.  `Libmemif.SharedRing`
takes the buffers of one ring from here.
-/

namespace CiphApp.Libmemif

open Lib

/-! ## Regions -/

/-- `memif_region_t`. -/
structure MemifRegion where
  regionSize : UInt32
  bufferOffset : UInt32

/-- `sizeof (memif_ring_t)`: two cache lines in front of the descriptors. -/
def sizeofMemifRing : ℕ := 128

/-- `sizeof (memif_desc_t)`. -/
def sizeofMemifDesc : ℕ := 16

/-- `1 << log2_ring_size`. -/
def MemifConnRunArgs.ringSize (a : MemifConnRunArgs) : ℕ := 2 ^ a.log2RingSize.toNat

/-- The number of rings. -/
def MemifConnRunArgs.numRings (a : MemifConnRunArgs) : ℕ :=
  a.numS2mRings.toNat + a.numM2sRings.toNat

/-- The bytes a ring takes. -/
def MemifConnRunArgs.ringBytes (a : MemifConnRunArgs) : ℕ :=
  sizeofMemifRing + sizeofMemifDesc * a.ringSize

/-- `memif_add_region`. -/
def memifAddRegion (a : MemifConnRunArgs) (hasBuffers : Bool) : MemifRegion :=
  let bufferOffset := if hasBuffers then 0 else UInt32.ofNat (a.numRings * a.ringBytes)
  ⟨if hasBuffers then
      bufferOffset + UInt32.ofNat (a.bufferSize.toNat * a.ringSize * a.numRings)
    else bufferOffset, bufferOffset⟩

/-- The number of a ring among all rings of a connection. -/
def MemifConnRunArgs.ringNumber (a : MemifConnRunArgs) : MemifRingType → ℕ → ℕ
  | .s2m, i => i
  | .m2s, i => i + a.numS2mRings.toNat

/-- `memif_get_ring`, as an offset into region 0. -/
def memifGetRing (a : MemifConnRunArgs) (type : MemifRingType) (ringNum : ℕ) : ℕ :=
  a.ringNumber type ringNum * a.ringBytes

/-! ## Rings and queues -/

/-- `uint16_t slot = (i [+ num_s2m_rings]) * (1 << log2_ring_size) + j`. -/
def initSlot (a : MemifConnRunArgs) (type : MemifRingType) (i j : ℕ) : UInt16 :=
  UInt16.ofNat (a.ringNumber type i * a.ringSize + j)

/-- A descriptor as `memif_init_queues` leaves it in fresh memory.  `offset` is
`regions[1].buffer_offset + (uint32_t)(slot * buffer_size)`. -/
def initDesc (a : MemifConnRunArgs) (type : MemifRingType) (i j : ℕ) : MemifDesc where
  flags := 0
  region := 1
  length := a.bufferSize.toUInt32
  offset := (memifAddRegion a true).bufferOffset +
    (initSlot a type i j).toUInt32 * a.bufferSize.toUInt32

/-- A ring as `memif_init_queues` leaves it. -/
def initRing (a : MemifConnRunArgs) (type : MemifRingType) (i : ℕ) : MemifRing :=
  ⟨0, 0, 0, initDesc a type i⟩

/-- A queue as `memif_init_queues` leaves it. -/
def initQueue (a : MemifConnRunArgs) : MemifQueue := ⟨a.log2RingSize, 0, 0, 0⟩

/-- `memif_connect1` on a queue and its ring.  It does not touch `last_tail`. -/
def connect1 (mq : MemifQueue) (ring : MemifRing) : MemifQueue × MemifRing :=
  ({ mq with lastHead := 0, allocBufs := 0 }, { ring with head := 0, tail := 0 })

/-! ## Buffers are apart -/

/-- Descriptor `j` of ring `i` of a connection. -/
@[ext]
structure DescId (a : MemifConnRunArgs) where
  type : MemifRingType
  ring : ℕ
  desc : ℕ
  ring_lt : ring < match type with
    | .s2m => a.numS2mRings.toNat
    | .m2s => a.numM2sRings.toNat
  desc_lt : desc < a.ringSize

namespace DescId

variable {a : MemifConnRunArgs}

/-- The number of the descriptor. -/
def number (d : DescId a) : ℕ := a.ringNumber d.type d.ring * a.ringSize + d.desc

/-- Where its buffer starts in region 1. -/
def offset (d : DescId a) : ℕ := (initDesc a d.type d.ring d.desc).offset.toNat

lemma ringNumber_lt (d : DescId a) : a.ringNumber d.type d.ring < a.numRings := by
  obtain ⟨type, ring, desc, hring, -⟩ := d
  cases type with
  | s2m =>
      show ring < a.numS2mRings.toNat + _
      have hring' : ring < a.numS2mRings.toNat := hring
      omega
  | m2s =>
      show ring + a.numS2mRings.toNat < _ + a.numM2sRings.toNat
      have hring' : ring < a.numM2sRings.toNat := hring
      omega

lemma number_lt (d : DescId a) : d.number < a.numRings * a.ringSize :=
  calc d.number < a.ringNumber d.type d.ring * a.ringSize + a.ringSize :=
        Nat.add_lt_add_left d.desc_lt _
    _ = (a.ringNumber d.type d.ring + 1) * a.ringSize := (Nat.succ_mul _ _).symm
    _ ≤ a.numRings * a.ringSize := Nat.mul_le_mul_right _ d.ringNumber_lt

/-- The number of a ring tells its type and its index. -/
lemma ringNumber_injective {t t' : MemifRingType} {i i' : ℕ}
    (hi : t = .s2m → i < a.numS2mRings.toNat) (hi' : t' = .s2m → i' < a.numS2mRings.toNat)
    (h : a.ringNumber t i = a.ringNumber t' i') : t = t' ∧ i = i' := by
  cases t with
  | s2m =>
      have hlt := hi rfl
      cases t' with
      | s2m => exact ⟨rfl, h⟩
      | m2s =>
          have heq : i = i' + a.numS2mRings.toNat := h
          omega
  | m2s =>
      cases t' with
      | s2m =>
          have hlt := hi' rfl
          have heq : i + a.numS2mRings.toNat = i' := h
          omega
      | m2s =>
          have heq : i + a.numS2mRings.toNat = i' + a.numS2mRings.toNat := h
          exact ⟨rfl, by omega⟩

lemma ring_lt_of_s2m (d : DescId a) (h : d.type = .s2m) : d.ring < a.numS2mRings.toNat := by
  have hlt := d.ring_lt
  rw [h] at hlt
  exact hlt

/-- **The numbers of two descriptors are different.** -/
lemma number_injective : Function.Injective (number (a := a)) := by
  intro d d' h
  have hpos : 0 < a.ringSize := Nat.two_pow_pos _
  have hmod : d.desc = d'.desc := by
    have hd : d.number % a.ringSize = d.desc := by
      rw [number, Nat.mul_add_mod', Nat.mod_eq_of_lt d.desc_lt]
    have hd' : d'.number % a.ringSize = d'.desc := by
      rw [number, Nat.mul_add_mod', Nat.mod_eq_of_lt d'.desc_lt]
    rw [← hd, ← hd', h]
  have hdiv : a.ringNumber d.type d.ring = a.ringNumber d'.type d'.ring := by
    have heq : a.ringNumber d.type d.ring * a.ringSize =
        a.ringNumber d'.type d'.ring * a.ringSize := by
      rw [number, number, hmod] at h
      exact Nat.add_right_cancel h
    exact Nat.eq_of_mul_eq_mul_right hpos heq
  obtain ⟨htype, hring⟩ := ringNumber_injective d.ring_lt_of_s2m d'.ring_lt_of_s2m hdiv
  exact DescId.ext htype hring hmod

/-- The offset of a buffer, for any number of descriptors. -/
lemma offset_eq (d : DescId a) : d.offset = d.number % 2 ^ 16 * a.bufferSize.toNat := by
  have hslot : d.number % 2 ^ 16 < 2 ^ 16 := Nat.mod_lt _ (by decide)
  have hsize := a.bufferSize.toNat_lt
  have hlt : d.number % 2 ^ 16 * a.bufferSize.toNat < 2 ^ 32 := by nlinarith
  show (0 + (initSlot a d.type d.ring d.desc).toUInt32 * a.bufferSize.toUInt32).toNat = _
  rw [UInt32.zero_add, UInt32.toNat_mul, UInt16.toNat_toUInt32, UInt16.toNat_toUInt32, initSlot,
    UInt16.toNat_ofNat']
  exact Nat.mod_eq_of_lt hlt

lemma exists_number {n : ℕ} (h : n < a.numRings * a.ringSize) : ∃ d : DescId a, d.number = n := by
  have hpos : 0 < a.ringSize := Nat.two_pow_pos _
  have hring : n / a.ringSize < a.numRings := Nat.div_lt_of_lt_mul (by rwa [Nat.mul_comm] at h)
  have hdesc : n % a.ringSize < a.ringSize := Nat.mod_lt _ hpos
  have hn : n / a.ringSize * a.ringSize + n % a.ringSize = n := Nat.div_add_mod' _ _
  by_cases hs : n / a.ringSize < a.numS2mRings.toNat
  · exact ⟨⟨.s2m, n / a.ringSize, n % a.ringSize, hs, hdesc⟩, hn⟩
  · refine ⟨⟨.m2s, n / a.ringSize - a.numS2mRings.toNat, n % a.ringSize, ?_, hdesc⟩, ?_⟩
    · show _ - _ < a.numM2sRings.toNat
      rw [MemifConnRunArgs.numRings] at hring
      omega
    · show (n / a.ringSize - a.numS2mRings.toNat + a.numS2mRings.toNat) * a.ringSize + _ = n
      rw [Nat.sub_add_cancel (Nat.le_of_not_lt hs), hn]

/-- The buffers of two descriptors do not overlap. -/
def Apart (d d' : DescId a) : Prop :=
  d.offset + a.bufferSize.toNat ≤ d'.offset ∨ d'.offset + a.bufferSize.toNat ≤ d.offset

/-- With at most `2 ^ 16` descriptors, the offset is that of the number. -/
lemma offset_of_le (h : a.numRings * a.ringSize ≤ 2 ^ 16) (d : DescId a) :
    d.offset = d.number * a.bufferSize.toNat := by
  rw [offset_eq, Nat.mod_eq_of_lt (d.number_lt.trans_le h)]

lemma apart_of_lt {d d' : DescId a} (h : a.numRings * a.ringSize ≤ 2 ^ 16)
    (hlt : d.number < d'.number) : d.offset + a.bufferSize.toNat ≤ d'.offset := by
  rw [offset_of_le h, offset_of_le h, ← Nat.succ_mul]
  exact Nat.mul_le_mul_right _ hlt

/-- **The buffers of two descriptors are apart**, if there are at most `2 ^ 16`. -/
lemma apart_of_ne {d d' : DescId a} (h : a.numRings * a.ringSize ≤ 2 ^ 16) (hne : d ≠ d') :
    d.Apart d' := by
  rcases Nat.lt_or_gt_of_ne (fun heq => hne (number_injective heq)) with hlt | hgt
  · exact .inl (apart_of_lt h hlt)
  · exact .inr (apart_of_lt h hgt)

lemma regionSize_eq (h : a.numRings * a.ringSize ≤ 2 ^ 16) :
    (memifAddRegion a true).regionSize.toNat =
      a.numRings * a.ringSize * a.bufferSize.toNat := by
  have hsize := a.bufferSize.toNat_lt
  have hlt : a.numRings * a.ringSize * a.bufferSize.toNat < 2 ^ 32 :=
    calc a.numRings * a.ringSize * a.bufferSize.toNat ≤ 2 ^ 16 * (2 ^ 16 - 1) :=
          Nat.mul_le_mul h (by omega)
      _ < 2 ^ 32 := by decide
  have hcomm : a.bufferSize.toNat * a.ringSize * a.numRings =
      a.numRings * a.ringSize * a.bufferSize.toNat := by ring
  show (0 + UInt32.ofNat (a.bufferSize.toNat * a.ringSize * a.numRings)).toNat = _
  rw [UInt32.zero_add, UInt32.toNat_ofNat', hcomm, Nat.mod_eq_of_lt hlt]

end DescId

/-- **The buffers of a connection are apart, and inside the region made for them, exactly if there
are at most `2 ^ 16` descriptors.**  The number of a buffer has 16 bits, and the rings of a
connection may have `510 * 2 ^ 14` descriptors. -/
theorem buffers_apart_iff (a : MemifConnRunArgs) (hsize : a.bufferSize ≠ 0) :
    ((∀ d d' : DescId a, d ≠ d' → d.Apart d') ∧
        ∀ d : DescId a, d.offset + a.bufferSize.toNat ≤
          (memifAddRegion a true).regionSize.toNat) ↔
      a.numRings * a.ringSize ≤ 2 ^ 16 := by
  constructor
  · rintro ⟨hapart, -⟩
    by_contra hmany
    -- descriptors number 0 and 65536 have the same buffer
    obtain ⟨d, hd⟩ := DescId.exists_number (a := a) (n := 0) (by omega)
    obtain ⟨d', hd'⟩ := DescId.exists_number (a := a) (n := 2 ^ 16) (by omega)
    have hne : d ≠ d' := by
      rintro rfl
      omega
    have hoff : d'.offset = d.offset := by
      rw [DescId.offset_eq, DescId.offset_eq, hd, hd', Nat.mod_self, Nat.zero_mod]
    have hpos := toNat_pos hsize
    rcases hapart d d' hne with h | h <;> rw [hoff] at h <;> omega
  · intro h
    refine ⟨fun d d' hne => DescId.apart_of_ne h hne, fun d => ?_⟩
    rw [DescId.offset_of_le h, DescId.regionSize_eq h, ← Nat.succ_mul]
    exact Nat.mul_le_mul_right _ d.number_lt

/-- The configuration of this program: two rings in each direction, of 1024 descriptors with 16384
bytes each. -/
def ciphRunArgs : MemifConnRunArgs := ⟨2, 2, 16384, 10⟩

/-- The buffers of this program are apart and inside their region. -/
theorem buffers_apart_ciphRunArgs : ciphRunArgs.bufferSize ≠ 0 ∧
    (∀ d d' : DescId ciphRunArgs, d ≠ d' → d.Apart d') ∧
      ∀ d : DescId ciphRunArgs, d.offset + ciphRunArgs.bufferSize.toNat ≤
        (memifAddRegion ciphRunArgs true).regionSize.toNat :=
  ⟨by decide, (buffers_apart_iff ciphRunArgs (by decide)).mpr (by decide)⟩

end CiphApp.Libmemif
