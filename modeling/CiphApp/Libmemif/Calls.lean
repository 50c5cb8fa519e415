import CiphApp.Lib.Counter
import CiphApp.Libmemif.Ring

/-!
# What the four calls do

One specification for each call on a ring, in terms of the counters behind the indices: an index is
`UInt16.ofNat n`, and the descriptor it names is `n % 2 ^ k`.

* `bufferAlloc_spec`: the buffers of as many slots as are free, in the order of the slots.  It needs
  that a packet fits one buffer; a chain is followed by `chainLoop`, and `chainLoop_of_fits` says
  that there is none.
* `txLoop_length`, `txLoop_length_of_ne`: the descriptors of the buffers get their lengths, and no
  others.
* `rxLoop_spec`: the buffers of the received slots, with the lengths in the descriptors.
* `refillLoop_desc`: what the slave offers again is as it was, if nothing has changed it.

The bodies get their queue and their ring as arguments.  Of the connection they read which side it
is on and the arguments it runs with (`SameSide`); the rest of it matters to the checks on entry
(`checkCall_eq_ok_iff`).
-/

namespace CiphApp.Libmemif

open Lib

/-! ## Descriptors -/

namespace MemifRing

variable (ring : MemifRing) (mask slot : UInt16) (f : MemifDesc → MemifDesc)

@[simp] lemma head_setDesc : (ring.setDesc mask slot f).head = ring.head := rfl

@[simp] lemma tail_setDesc : (ring.setDesc mask slot f).tail = ring.tail := rfl

@[simp] lemma flags_setDesc : (ring.setDesc mask slot f).flags = ring.flags := rfl

lemma desc_setDesc_self :
    (ring.setDesc mask slot f).desc (slot &&& mask).toNat = f (ring.desc (slot &&& mask).toNat) :=
  Function.update_self _ _ _

lemma desc_setDesc_of_ne {j : ℕ} (h : j ≠ (slot &&& mask).toNat) :
    (ring.setDesc mask slot f).desc j = ring.desc j :=
  Function.update_of_ne h _ _

/-- A property of the descriptors that the change does not affect. -/
lemma map_desc_setDesc {α : Type*} (π : MemifDesc → α) (j : ℕ)
    (h : π (f (ring.desc (slot &&& mask).toNat)) = π (ring.desc (slot &&& mask).toNat)) :
    π ((ring.setDesc mask slot f).desc j) = π (ring.desc j) := by
  by_cases hj : j = (slot &&& mask).toNat
  · subst hj
    rw [desc_setDesc_self, h]
  · rw [desc_setDesc_of_ne ring mask slot f hj]

/-- The indices and the buffers of the descriptors are the same in `r`. -/
structure Same (ring r : MemifRing) : Prop where
  head : r.head = ring.head
  tail : r.tail = ring.tail
  flags : r.flags = ring.flags
  region : ∀ j, (r.desc j).region = (ring.desc j).region
  offset : ∀ j, (r.desc j).offset = (ring.desc j).offset

lemma Same.refl (ring : MemifRing) : ring.Same ring := ⟨rfl, rfl, rfl, fun _ => rfl, fun _ => rfl⟩

lemma Same.trans {r₁ r₂ r₃ : MemifRing} (h : r₁.Same r₂) (h' : r₂.Same r₃) : r₁.Same r₃ :=
  ⟨h'.head.trans h.head, h'.tail.trans h.tail, h'.flags.trans h.flags,
    fun j => (h'.region j).trans (h.region j), fun j => (h'.offset j).trans (h.offset j)⟩

lemma same_setDesc
    (hregion : (f (ring.desc (slot &&& mask).toNat)).region =
      (ring.desc (slot &&& mask).toNat).region)
    (hoffset : (f (ring.desc (slot &&& mask).toNat)).offset =
      (ring.desc (slot &&& mask).toNat).offset) : ring.Same (ring.setDesc mask slot f) :=
  ⟨rfl, rfl, rfl, fun j => map_desc_setDesc ring mask slot f MemifDesc.region j hregion,
    fun j => map_desc_setDesc ring mask slot f MemifDesc.offset j hoffset⟩

lemma Same.memifGetBuffer {ring r : MemifRing} (h : ring.Same r) (index : UInt16) :
    memifGetBuffer r index = memifGetBuffer ring index := by
  rw [Libmemif.memifGetBuffer, Libmemif.memifGetBuffer, h.region, h.offset]

end MemifRing

/-- The offsets of a ring are multiples of the buffer size, as far as the connection can tell. -/
def Aligned (c : MemifConnection) (ring : MemifRing) : Prop :=
  ∀ j, (ring.desc j).offset &&& c.offsetMask = 0

lemma Aligned.of_same {c : MemifConnection} {ring r : MemifRing} (h : Aligned c ring)
    (hs : ring.Same r) : Aligned c r := fun j => by rw [hs.offset, h j]

lemma Aligned.reset {c : MemifConnection} {ring : MemifRing} (h : Aligned c ring) (j : ℕ) :
    (ring.desc j).offset - ((ring.desc j).offset &&& c.offsetMask) = (ring.desc j).offset := by
  rw [h j, UInt32.sub_zero]

/-! ## Allocation -/

/-- What fits a descriptor. -/
def roomAt (c : MemifConnection) (d : MemifDesc) : UInt16 :=
  if c.isMaster then d.length.toUInt16 else c.runArgs.bufferSize

/-- One buffer is granted. -/
def AllocState.grant (c : MemifConnection) (mask size : UInt16) (s : AllocState) : AllocState :=
  ((s.openSlot mask).place c mask size).advance

/-- **No chain.**  A packet that fits the buffer is placed there. -/
lemma chainLoop_of_fits {c : MemifConnection} {mask : UInt16} {saved savedCount count : ℕ}
    {dstLeft size : UInt16} {s : AllocState} (hsize : size ≠ 0) (hfit : size ≤ dstLeft) :
    chainLoop c mask saved savedCount count dstLeft size s = (false, s.place c mask size) := by
  have hpos := toNat_pos hsize
  have hle := UInt16.le_iff_toNat_le.mp hfit
  have hdst : dstLeft ≠ 0 := by
    rintro rfl
    have hzero : (0 : UInt16).toNat = 0 := rfl
    omega
  have hmin : memifMin dstLeft size = size := by
    rw [← UInt16.toNat_inj, toNat_memifMin, min_eq_right hle]
  rw [chainLoop, if_neg hsize, if_neg hdst, hmin, UInt16.sub_self, chainLoop, if_pos rfl]

namespace AllocState

section Grant

variable (c : MemifConnection) (mask size : UInt16) (s : AllocState)

lemma ring_openSlot :
    (s.openSlot mask).ring = s.ring.setDesc mask s.slot fun d => { d with flags := 0 } := rfl

lemma ring_place : (s.place c mask size).ring =
    if c.isMaster then s.ring else
      s.ring.setDesc mask s.slot fun d =>
        { d with offset := d.offset - (d.offset &&& c.offsetMask) } := rfl

@[simp] lemma slot_grant : (s.grant c mask size).slot = s.slot + 1 := rfl

@[simp] lemma countOut_grant : (s.grant c mask size).countOut = s.countOut + 1 := rfl

@[simp] lemma allocBufs_grant : (s.grant c mask size).allocBufs = s.allocBufs + 1 := rfl

@[simp] lemma ns_grant : (s.grant c mask size).ns = s.ns - 1 := rfl

lemma length_openSlot (j : ℕ) :
    ((s.openSlot mask).ring.desc j).length = (s.ring.desc j).length := by
  rw [ring_openSlot]
  exact MemifRing.map_desc_setDesc _ _ _ _ MemifDesc.length j rfl

lemma length_place (j : ℕ) :
    ((s.place c mask size).ring.desc j).length = (s.ring.desc j).length := by
  rw [ring_place]
  by_cases hm : c.isMaster
  · rw [if_pos hm]
  · rw [if_neg hm]
    exact MemifRing.map_desc_setDesc _ _ _ _ MemifDesc.length j rfl

lemma length_grant (j : ℕ) :
    ((s.grant c mask size).ring.desc j).length = (s.ring.desc j).length :=
  (length_place c mask size (s.openSlot mask) j).trans (length_openSlot mask s j)

lemma roomAt_grant (j : ℕ) :
    roomAt c ((s.grant c mask size).ring.desc j) = roomAt c (s.ring.desc j) := by
  rw [roomAt, roomAt, length_grant]

lemma same_openSlot : s.ring.Same (s.openSlot mask).ring := by
  rw [ring_openSlot]
  exact MemifRing.same_setDesc _ _ _ _ rfl rfl

variable {c s}

lemma same_place (h : c.isMaster = false → Aligned c s.ring) :
    s.ring.Same (s.place c mask size).ring := by
  rw [ring_place]
  by_cases hm : c.isMaster
  · rw [if_pos hm]
    exact .refl _
  · rw [if_neg hm]
    exact MemifRing.same_setDesc _ _ _ _ rfl ((h (Bool.eq_false_iff.mpr hm)).reset _)

lemma same_grant (h : c.isMaster = false → Aligned c s.ring) :
    s.ring.Same (s.grant c mask size).ring :=
  (same_openSlot mask s).trans
    (same_place mask size fun hm => (h hm).of_same (same_openSlot mask s))

lemma bufs_grant_self (h : c.isMaster = false → Aligned c s.ring) :
    (s.grant c mask size).bufs s.countOut.toNat =
      { s.bufs s.countOut.toNat with
        descIndex := s.slot
        len := size.toUInt32
        data := some (memifGetBuffer s.ring (s.slot &&& mask)) } := by
  rw [← (same_grant mask size h).memifGetBuffer (s.slot &&& mask)]
  simp only [grant, advance, ring_place]
  simp only [place, openSlot, setBuf, Function.update_self]

lemma bufs_grant_of_ne {i : ℕ} (hi : i ≠ s.countOut.toNat) :
    (s.grant c mask size).bufs i = s.bufs i := by
  simp only [grant, advance, place, openSlot, setBuf, Function.update_of_ne hi]

end Grant

end AllocState

lemma allocLoop_of_fits {c : MemifConnection} {mask size : UInt16} (hsize : size ≠ 0) (count : ℕ)
    {s : AllocState}
    (hfit : ∀ i < min count s.ns.toNat,
      size ≤ roomAt c (s.ring.desc ((s.slot + UInt16.ofNat i) &&& mask).toNat)) :
    allocLoop c mask size count s =
      (count - min count s.ns.toNat, (AllocState.grant c mask size)^[min count s.ns.toNat] s) := by
  induction count generalizing s with
  | zero => rw [allocLoop, Nat.zero_min, Function.iterate_zero_apply]
  | succ count ih =>
      rw [allocLoop]
      by_cases hns : s.ns = 0
      · have hzero : s.ns.toNat = 0 := by
          rw [hns]
          rfl
        rw [if_pos hns, hzero, Nat.min_zero, Function.iterate_zero_apply, Nat.sub_zero]
      · have hpos := toNat_pos hns
        have hpred : (s.ns - 1).toNat = s.ns.toNat - 1 :=
          UInt16.toNat_sub_of_le _ _ (UInt16.le_iff_toNat_le.mpr hpos)
        have hmin : min (count + 1) s.ns.toNat = min count (s.ns - 1).toNat + 1 := by omega
        -- the packet fits the first slot
        have h0 : size ≤ (s.openSlot mask).dstLeft c mask := by
          have hroom := hfit 0 (by omega)
          have hslot : s.slot + UInt16.ofNat 0 = s.slot := UInt16.add_zero _
          rw [hslot, roomAt, ← AllocState.length_openSlot mask] at hroom
          exact hroom
        rw [if_neg hns, chainLoop_of_fits hsize h0]
        show allocLoop c mask size count (s.grant c mask size) = _
        rw [ih ?_, hmin, Function.iterate_succ_apply, AllocState.ns_grant, Nat.add_sub_add_right]
        intro i hi
        rw [AllocState.ns_grant] at hi
        have hslot : s.slot + 1 + UInt16.ofNat i = s.slot + UInt16.ofNat (i + 1) := by
          rw [UInt16.ofNat_add, UInt16.add_comm (UInt16.ofNat i), UInt16.add_assoc]
          rfl
        rw [AllocState.roomAt_grant, AllocState.slot_grant, hslot]
        exact hfit (i + 1) (by omega)

/-- What holds when `n` buffers have been granted from state `s` on. -/
structure Granted (mask size : UInt16) (s : AllocState) (n : ℕ) (t : AllocState) : Prop where
  slot : t.slot = s.slot + UInt16.ofNat n
  countOut : t.countOut = s.countOut + UInt16.ofNat n
  allocBufs : t.allocBufs = s.allocBufs + UInt32.ofNat n
  same : s.ring.Same t.ring
  length : ∀ j, (t.ring.desc j).length = (s.ring.desc j).length
  bufs : ∀ i < n, (t.bufs (s.countOut.toNat + i)).descIndex = s.slot + UInt16.ofNat i ∧
    (t.bufs (s.countOut.toNat + i)).len = size.toUInt32 ∧
    (t.bufs (s.countOut.toNat + i)).data =
      some (memifGetBuffer s.ring ((s.slot + UInt16.ofNat i) &&& mask))

lemma granted_iterate {c : MemifConnection} (mask size : UInt16) {s : AllocState}
    (h : c.isMaster = false → Aligned c s.ring) (n : ℕ) (hn : s.countOut.toNat + n < 2 ^ 16) :
    Granted mask size s n ((AllocState.grant c mask size)^[n] s) := by
  induction n with
  | zero =>
      exact ⟨(UInt16.add_zero _).symm, (UInt16.add_zero _).symm, (UInt32.add_zero _).symm,
        .refl _, fun _ => rfl, fun i hi => absurd hi (Nat.not_lt_zero i)⟩
  | succ n ih =>
      obtain ⟨t, ht⟩ : ∃ t, (AllocState.grant c mask size)^[n] s = t := ⟨_, rfl⟩
      have ih := ih (by omega)
      rw [ht] at ih
      rw [Function.iterate_succ_apply', ht]
      have haligned : c.isMaster = false → Aligned c t.ring := fun hm => (h hm).of_same ih.same
      have hcount : t.countOut.toNat = s.countOut.toNat + n := by
        rw [ih.countOut, UInt16.toNat_add, UInt16.toNat_ofNat', Nat.add_mod_mod,
          Nat.mod_eq_of_lt (by omega)]
      refine ⟨?_, ?_, ?_, ih.same.trans (AllocState.same_grant mask size haligned), fun j => ?_, ?_⟩
      · rw [AllocState.slot_grant, ih.slot, UInt16.ofNat_add, UInt16.add_assoc]
        rfl
      · rw [AllocState.countOut_grant, ih.countOut, UInt16.ofNat_add, UInt16.add_assoc]
        rfl
      · rw [AllocState.allocBufs_grant, ih.allocBufs, UInt32.ofNat_add, UInt32.add_assoc]
        rfl
      · rw [AllocState.length_grant, ih.length]
      · intro i hi
        rcases Nat.lt_succ_iff_lt_or_eq.mp hi with hlt | rfl
        · rw [AllocState.bufs_grant_of_ne mask size (by omega)]
          exact ih.bufs i hlt
        · rw [← hcount, AllocState.bufs_grant_self mask size haligned, ih.slot]
          exact ⟨rfl, rfl, congrArg some (ih.same.memifGetBuffer _)⟩

/-- **Allocation.**  If a packet fits a buffer, the call grants the buffers of the first slots from
`a` on, as many as are asked for and free. -/
theorem bufferAlloc_spec (c : MemifConnection) (mq : MemifQueue) (ring : MemifRing)
    (bufs : ℕ → MemifBuffer) (count : UInt16) {size : UInt16} {n : ℕ} (hsize : size ≠ 0)
    (hn : n = min count.toNat (allocNs c mq ring).toNat)
    (haligned : c.isMaster = false → Aligned c ring)
    (hfit : ∀ i < n, size ≤
      roomAt c (ring.desc ((allocSlot c mq ring + UInt16.ofNat i) &&& mq.mask).toNat)) :
    (bufferAlloc c mq ring bufs count size).err =
        (if n = count.toNat then .success else .nobufRing) ∧
      (bufferAlloc c mq ring bufs count size).countOut.toNat = n ∧
      (bufferAlloc c mq ring bufs count size).mq =
        { mq with allocBufs := mq.allocBufs + UInt32.ofNat n } ∧
      ring.Same (bufferAlloc c mq ring bufs count size).ring ∧
      (∀ j, ((bufferAlloc c mq ring bufs count size).ring.desc j).length =
        (ring.desc j).length) ∧
      ∀ i < n, ((bufferAlloc c mq ring bufs count size).bufs i).descIndex =
          allocSlot c mq ring + UInt16.ofNat i ∧
        ((bufferAlloc c mq ring bufs count size).bufs i).len = size.toUInt32 ∧
        ((bufferAlloc c mq ring bufs count size).bufs i).data =
          some (memifGetBuffer ring ((allocSlot c mq ring + UInt16.ofNat i) &&& mq.mask)) := by
  have hlt : n < 2 ^ 16 := by
    have hcount := count.toNat_lt
    omega
  have hloop : allocLoop c mq.mask size count.toNat
      ⟨ring, bufs, mq.allocBufs, 0, allocSlot c mq ring, allocNs c mq ring⟩ = _ :=
    allocLoop_of_fits hsize count.toNat (hn ▸ hfit)
  have hgranted := granted_iterate mq.mask size
    (s := ⟨ring, bufs, mq.allocBufs, 0, allocSlot c mq ring, allocNs c mq ring⟩) haligned n
    (by simpa using hlt)
  simp only [← hn] at hloop
  simp only [bufferAlloc, hloop]
  refine ⟨?_, ?_, ?_, hgranted.same, hgranted.length, fun i hi => ?_⟩
  · have hiff : count.toNat - n = 0 ↔ n = count.toNat := by omega
    simp only [hiff]
  · rw [hgranted.countOut, UInt16.zero_add, UInt16.toNat_ofNat', Nat.mod_eq_of_lt hlt]
  · rw [hgranted.allocBufs]
  · have hb := hgranted.bufs i hi
    simpa using hb

/-! ## Sending -/

section Tx

variable (mask : UInt16) (bufs : ℕ → MemifBuffer) (ring : MemifRing)

lemma txLoop_succ (n : ℕ) : txLoop mask bufs (n + 1) ring =
    (txLoop mask bufs n ring).setDesc mask (bufs n).descIndex
      fun d => { d with length := (bufs n).len } := rfl

lemma same_txLoop (n : ℕ) : ring.Same (txLoop mask bufs n ring) := by
  refine forUpTo_induct (P := fun _ r => ring.Same r) (.refl ring) fun k r _ hr => hr.trans ?_
  exact MemifRing.same_setDesc _ _ _ _ rfl rfl

lemma txLoop_length_of_ne {n j : ℕ} (h : ∀ k < n, j ≠ ((bufs k).descIndex &&& mask).toNat) :
    ((txLoop mask bufs n ring).desc j).length = (ring.desc j).length := by
  refine forUpTo_frame (fun r : MemifRing => (r.desc j).length) fun k r hk => ?_
  show ((MemifRing.setDesc r mask _ _).desc j).length = (r.desc j).length
  rw [MemifRing.desc_setDesc_of_ne _ _ _ _ (h k hk)]

/-- The descriptor of a buffer gets its length, if no later buffer has the same one. -/
lemma txLoop_length {n k : ℕ} (hk : k < n)
    (h : ∀ l < n, k < l →
      ((bufs k).descIndex &&& mask).toNat ≠ ((bufs l).descIndex &&& mask).toNat) :
    ((txLoop mask bufs n ring).desc ((bufs k).descIndex &&& mask).toNat).length =
      (bufs k).len := by
  induction n with
  | zero => exact absurd hk (Nat.not_lt_zero k)
  | succ n ih =>
      rw [txLoop_succ]
      rcases Nat.lt_succ_iff_lt_or_eq.mp hk with hlt | rfl
      · rw [MemifRing.desc_setDesc_of_ne _ _ _ _ (h n (Nat.lt_succ_self n) hlt)]
        exact ih hlt fun l hl => h l (by omega)
      · rw [MemifRing.desc_setDesc_self]

end Tx

lemma toNat_txCount {mq : MemifQueue} {count : UInt16} :
    (txCount mq count).toNat = min count.toNat mq.allocBufs.toNat := by
  have hcount := count.toNat_lt
  rw [txCount]
  by_cases h : mq.allocBufs < count.toUInt32
  · have hlt := UInt32.lt_iff_toNat_lt.mp h
    rw [UInt16.toNat_toUInt32] at hlt
    rw [if_pos h, UInt32.toNat_toUInt16, min_eq_right hlt.le, Nat.mod_eq_of_lt (by omega)]
  · have hle : count.toNat ≤ mq.allocBufs.toNat := by
      have hnot := UInt32.lt_iff_toNat_lt.not.mp h
      rw [UInt16.toNat_toUInt32] at hnot
      omega
    rw [if_neg h, min_eq_left hle]

lemma publishTx_self {c : MemifConnection} {ring : MemifRing} {index : UInt16}
    (h : (if c.isMaster then ring.tail else ring.head) = index) :
    publishTx c index ring = ring := by
  rw [publishTx]
  by_cases hm : c.isMaster
  · rw [if_pos hm] at h ⊢
    rw [← h]
  · rw [if_neg hm] at h ⊢
    rw [← h]

/-- What is sent does not depend on whether the other side can be notified. -/
lemma tx_txBurst (c : MemifConnection) (mq : MemifQueue) (ring : MemifRing)
    (bufs : ℕ → MemifBuffer) (count : UInt16) (intWrite : Bool) :
    (txBurst c mq ring bufs count intWrite).tx = txCount mq count := by
  rw [txBurst]
  by_cases h0 : txCount mq count = 0
  · rw [if_pos h0, h0]
  · rw [if_neg h0]

/-- **Sending.**  The first buffers are sent, as many as are asked for and allocated.  The index
behind the last of them is published, whether or not the other side can be notified. -/
theorem txBurst_spec (c : MemifConnection) (mq : MemifQueue) (ring : MemifRing)
    (bufs : ℕ → MemifBuffer) (count : UInt16) (intWrite : Bool) {n a : ℕ}
    (hn : n = min count.toNat mq.allocBufs.toNat)
    (hown : (if c.isMaster then ring.tail else ring.head) = UInt16.ofNat a)
    (hidx : ∀ k < n, (bufs k).descIndex = UInt16.ofNat (a + k)) :
    (txBurst c mq ring bufs count intWrite).tx.toNat = n ∧
      (txBurst c mq ring bufs count intWrite).mq =
        { mq with allocBufs := mq.allocBufs - UInt32.ofNat n } ∧
      (txBurst c mq ring bufs count intWrite).ring =
        publishTx c (UInt16.ofNat (a + n)) (txLoop mq.mask bufs n ring) := by
  have htx : (txCount mq count).toNat = n := toNat_txCount.trans hn.symm
  rw [txBurst]
  by_cases h0 : txCount mq count = 0
  · obtain rfl : n = 0 := by
      rw [← htx, h0]
      rfl
    have hzero : mq.allocBufs - UInt32.ofNat 0 = mq.allocBufs := UInt32.sub_zero _
    rw [if_pos h0, hzero]
    exact ⟨rfl, rfl, (publishTx_self hown).symm⟩
  · have hpos : 0 < n := htx ▸ toNat_pos h0
    have hlast : (bufs (n - 1)).descIndex + 1 = UInt16.ofNat (a + n) := by
      rw [hidx (n - 1) (by omega)]
      show _ + UInt16.ofNat 1 = _
      rw [← UInt16.ofNat_add]
      congr 1
      omega
    have hcount : (txCount mq count).toUInt32 = UInt32.ofNat n := by
      rw [← UInt32.toNat_inj, UInt16.toNat_toUInt32, htx, UInt32.toNat_ofNat',
        Nat.mod_eq_of_lt (by have := count.toNat_lt; omega)]
    rw [if_neg h0]
    simp only [htx, hlast, hcount, and_self]

/-! ## Receiving -/

section Rx

variable (c : MemifConnection) (mask curSlot : UInt16) (ring : MemifRing) (bufs : ℕ → MemifBuffer)

lemma rxLoop_succ (n : ℕ) : rxLoop c mask curSlot (n + 1) ring bufs =
    rxRound c mask (curSlot + UInt16.ofNat n) n (rxLoop c mask curSlot n ring bufs) := rfl

lemma same_rxLoop (n : ℕ) : ring.Same (rxLoop c mask curSlot n ring bufs).1 := by
  refine forUpTo_induct (P := fun _ s => ring.Same (Prod.fst s)) (.refl ring) ?_
  intro k s _ hs
  exact hs.trans (MemifRing.same_setDesc _ _ _ _ rfl rfl)

lemma rxLoop_length_of_ne {n j : ℕ}
    (h : ∀ k < n, j ≠ ((curSlot + UInt16.ofNat k) &&& mask).toNat) :
    ((rxLoop c mask curSlot n ring bufs).1.desc j).length = (ring.desc j).length := by
  refine forUpTo_frame (fun s : MemifRing × (ℕ → MemifBuffer) => (s.1.desc j).length)
    fun k s hk => ?_
  rw [rxRound, MemifRing.desc_setDesc_of_ne _ _ _ _ (h k hk)]

lemma rxLoop_length_slave (hm : c.isMaster = false) {n k : ℕ} (hk : k < n) :
    ((rxLoop c mask curSlot n ring bufs).1.desc
      ((curSlot + UInt16.ofNat k) &&& mask).toNat).length = c.runArgs.bufferSize.toUInt32 := by
  induction n with
  | zero => exact absurd hk (Nat.not_lt_zero k)
  | succ n ih =>
      rw [rxLoop_succ, rxRound]
      by_cases heq : ((curSlot + UInt16.ofNat k) &&& mask).toNat =
          ((curSlot + UInt16.ofNat n) &&& mask).toNat
      · rw [heq, MemifRing.desc_setDesc_self, rxDesc, if_neg (Bool.eq_false_iff.mp hm)]
      · rw [MemifRing.desc_setDesc_of_ne _ _ _ _ heq]
        rcases Nat.lt_succ_iff_lt_or_eq.mp hk with hlt | rfl
        · exact ih hlt
        · exact absurd rfl heq

lemma rxLoop_bufs {n : ℕ}
    (h : ∀ k l, k < l → l < n → ((curSlot + UInt16.ofNat l) &&& mask).toNat ≠
      ((curSlot + UInt16.ofNat k) &&& mask).toNat) {k : ℕ} (hk : k < n) :
    ((rxLoop c mask curSlot n ring bufs).2 k).descIndex = curSlot + UInt16.ofNat k ∧
      ((rxLoop c mask curSlot n ring bufs).2 k).len =
        (ring.desc ((curSlot + UInt16.ofNat k) &&& mask).toNat).length ∧
      ((rxLoop c mask curSlot n ring bufs).2 k).data =
        some (memifGetBuffer ring ((curSlot + UInt16.ofNat k) &&& mask)) := by
  induction n with
  | zero => exact absurd hk (Nat.not_lt_zero k)
  | succ n ih =>
      simp only [rxLoop_succ, rxRound]
      rcases Nat.lt_succ_iff_lt_or_eq.mp hk with hlt | rfl
      · rw [Function.update_of_ne hlt.ne]
        exact ih (fun i l hil hl => h i l hil (by omega)) hlt
      · rw [Function.update_self]
        refine ⟨rfl, ?_, congrArg some ((same_rxLoop c mask curSlot ring bufs k).memifGetBuffer _)⟩
        exact rxLoop_length_of_ne c mask curSlot ring bufs fun i hi => h i k hi (Nat.lt_succ_self k)

end Rx

/-- **Receiving.**  The buffers from `a` on, as many as are asked for and were sent when the index
of the sender was read.  They are taken even if the call reports an error. -/
theorem rxBurst_spec (c : MemifConnection) (mq : MemifQueue) (ring : MemifRing)
    (bufs : ℕ → MemifBuffer) (count : UInt16) (intRead : Bool) {n a m : ℕ}
    (hcur : rxCurSlot c mq = UInt16.ofNat a) (hlast : rxLastSlot c ring = UInt16.ofNat m)
    (ham : a ≤ m) (hlt : m < a + 2 ^ 16) (hn : n = min (m - a) count.toNat) :
    ((rxBurst c mq ring bufs count intRead).err = .nobuf ↔ a + count.toNat < m) ∧
      (rxBurst c mq ring bufs count intRead).rx.toNat = n ∧
      rxCurSlot c (rxBurst c mq ring bufs count intRead).mq = UInt16.ofNat (a + n) ∧
      (rxBurst c mq ring bufs count intRead).mq.log2RingSize = mq.log2RingSize ∧
      (rxBurst c mq ring bufs count intRead).ring =
        (rxLoop c mq.mask (UInt16.ofNat a) n ring bufs).1 ∧
      (rxBurst c mq ring bufs count intRead).bufs =
        (rxLoop c mq.mask (UInt16.ofNat a) n ring bufs).2 := by
  rw [rxBurst, hcur, hlast]
  by_cases h0 : UInt16.ofNat a = UInt16.ofNat m
  · obtain rfl : a = m := (ofNat_eq_ofNat_iff ham hlt).mp h0
    obtain rfl : n = 0 := by omega
    rw [if_pos rfl]
    refine ⟨iff_of_false ?_ (by omega), rfl, hcur, rfl, rfl, rfl⟩
    cases intRead <;> exact MemifErr.noConfusion
  · have hmin : memifMin (UInt16.ofNat m - UInt16.ofNat a) count = UInt16.ofNat n := by
      have hcount := count.toNat_lt
      rw [← UInt16.toNat_inj, toNat_memifMin, toNat_ofNat_sub ham hlt, ← hn, UInt16.toNat_ofNat',
        Nat.mod_eq_of_lt (by omega)]
    have hnat : (UInt16.ofNat n).toNat = n := by
      have hcount := count.toNat_lt
      rw [UInt16.toNat_ofNat', Nat.mod_eq_of_lt (by omega)]
    have hmore : count < UInt16.ofNat m - UInt16.ofNat a ↔ a + count.toNat < m := by
      rw [UInt16.lt_iff_toNat_lt, toNat_ofNat_sub ham hlt]
      omega
    rw [if_neg h0]
    simp only [hmin, hnat, ← UInt16.ofNat_add, and_self, and_true, true_and, hmore]
    refine ⟨?_, ?_, ?_⟩
    · by_cases hm : a + count.toNat < m
      · rw [if_pos hm]
        exact iff_of_true rfl hm
      · rw [if_neg hm]
        refine iff_of_false ?_ hm
        cases intRead <;> decide
    · rw [rxCurSlot]
      by_cases hm : c.isMaster
      · rw [if_pos hm, if_pos hm]
      · rw [if_neg hm, if_neg hm]
    · by_cases hm : c.isMaster
      · rw [if_pos hm]
      · rw [if_neg hm]

/-- Receiving leaves the indices and the flags of the ring alone. -/
lemma indices_rxBurst (c : MemifConnection) (mq : MemifQueue) (ring : MemifRing)
    (bufs : ℕ → MemifBuffer) (count : UInt16) (intRead : Bool) :
    (rxBurst c mq ring bufs count intRead).ring.head = ring.head ∧
      (rxBurst c mq ring bufs count intRead).ring.tail = ring.tail ∧
      (rxBurst c mq ring bufs count intRead).ring.flags = ring.flags := by
  rw [rxBurst]
  by_cases h0 : rxCurSlot c mq = rxLastSlot c ring
  · rw [if_pos h0]
    exact ⟨rfl, rfl, rfl⟩
  · rw [if_neg h0]
    have hsame := same_rxLoop c mq.mask (rxCurSlot c mq) ring bufs
      (memifMin (rxLastSlot c ring - rxCurSlot c mq) count).toNat
    exact ⟨hsame.head, hsame.tail, hsame.flags⟩

/-! ## Giving buffers back -/

/-- **What the slave offers again is as it was**, if the buffers are the ones it was given and their
lengths were reset when they were received.  So nothing is missing where the loop is not entered,
which is the case when `head` wraps. -/
lemma refillLoop_desc {c : MemifConnection} (mask head : UInt16) {ring : MemifRing}
    (haligned : Aligned c ring) (hregion : ∀ j, (ring.desc j).region = 1)
    (hlength : ∀ k < head.toNat - ring.head.toNat,
      (ring.desc ((ring.head + UInt16.ofNat k) &&& mask).toNat).length =
        c.runArgs.bufferSize.toUInt32) :
    ring.Same (refillLoop c mask 0 head ring) ∧
      ∀ j, ((refillLoop c mask 0 head ring).desc j).length = (ring.desc j).length := by
  refine forUpTo_induct
    (P := fun _ r => ring.Same r ∧ ∀ j, (MemifRing.desc r j).length = (ring.desc j).length)
    ⟨.refl ring, fun _ => rfl⟩ ?_
  rintro k r hk ⟨hsame, hlen⟩
  refine ⟨hsame.trans (MemifRing.same_setDesc _ _ _ _ ?_ ?_), fun j => ?_⟩
  · exact ((hsame.region _).trans (hregion _)).symm
  · show _ - _ + (0 : UInt16).toUInt32 = _
    rw [(haligned.of_same hsame).reset]
    exact UInt32.add_zero _
  · refine Eq.trans (MemifRing.map_desc_setDesc _ _ _ _ MemifDesc.length j ?_) (hlen j)
    rw [hlen, hlength k hk]
    exact UInt32.sub_zero _

/-! ## What a call reads of its connection -/

/-- **The checks on entry** let a call through on a connection that is up and has the queue. -/
lemma checkCall_eq_ok_iff {conn : Option MemifConnection} {num : MemifConnection → UInt8}
    {qid : UInt16} {out : Bool} {c : MemifConnection} :
    checkCall conn num qid out = .ok c ↔
      conn = some c ∧ 0 ≤ c.fd ∧ qid.toNat < (num c).toNat ∧ out = true := by
  cases conn with
  | none => simp [checkCall]
  | some c' =>
      rw [checkCall]
      split_ifs with hfd hqid hout
      · simp only [Option.some.injEq, false_iff]
        rintro ⟨rfl, h, -⟩
        omega
      · simp only [Option.some.injEq, false_iff]
        rintro ⟨rfl, -, h, -⟩
        omega
      · simp only [Option.some.injEq, false_iff]
        rintro ⟨-, -, -, rfl⟩
        exact absurd hout (by decide)
      · simp only [Except.ok.injEq, Option.some.injEq]
        refine ⟨?_, fun h => h.1⟩
        rintro rfl
        exact ⟨rfl, not_lt.mp hfd, not_le.mp hqid, by simpa using hout⟩

/-- The connections are on the same side and have the same arguments. -/
structure MemifConnection.SameSide (c c' : MemifConnection) : Prop where
  isMaster : c'.isMaster = c.isMaster
  runArgs : c'.runArgs = c.runArgs

section SameSide

variable {c c' : MemifConnection} {mq : MemifQueue} {ring : MemifRing} {bufs : ℕ → MemifBuffer}

lemma MemifConnection.SameSide.dstLeft (h : c.SameSide c') (mask : UInt16) (s : AllocState) :
    s.dstLeft c' mask = s.dstLeft c mask := by
  rw [AllocState.dstLeft, AllocState.dstLeft, h.isMaster, h.runArgs]

lemma MemifConnection.SameSide.place (h : c.SameSide c') (mask len : UInt16) (s : AllocState) :
    s.place c' mask len = s.place c mask len := by
  unfold AllocState.place MemifConnection.offsetMask
  rw [h.isMaster, h.runArgs]

lemma MemifConnection.SameSide.chainLoop (h : c.SameSide c') (mask : UInt16)
    (saved savedCount count : ℕ) (dstLeft srcLeft : UInt16) (s : AllocState) :
    chainLoop c' mask saved savedCount count dstLeft srcLeft s =
      chainLoop c mask saved savedCount count dstLeft srcLeft s := by
  fun_induction Libmemif.chainLoop c mask saved savedCount count dstLeft srcLeft s with
  | case1 dstLeft s => rw [Libmemif.chainLoop, if_pos rfl]
  | case2 srcLeft s hsrc hns ih =>
      rw [Libmemif.chainLoop, if_neg hsrc, if_pos rfl, if_pos hns, h.dstLeft, h.place, ih]
  | case3 srcLeft s hsrc hns => rw [Libmemif.chainLoop, if_neg hsrc, if_pos rfl, if_neg hns]
  | case4 dstLeft srcLeft s hsrc hdst ih =>
      rw [Libmemif.chainLoop, if_neg hsrc, if_neg hdst, h.place, ih]

lemma MemifConnection.SameSide.allocLoop (h : c.SameSide c') (mask size : UInt16) (count : ℕ)
    (s : AllocState) : allocLoop c' mask size count s = allocLoop c mask size count s := by
  induction count generalizing s with
  | zero => rfl
  | succ count ih =>
      rw [Libmemif.allocLoop, Libmemif.allocLoop, h.dstLeft, h.chainLoop]
      simp only [ih]

/-- The body of each call reads of the connection which side it is on and the arguments. -/
lemma MemifConnection.SameSide.bufferAlloc (h : c.SameSide c') (count size : UInt16) :
    bufferAlloc c' mq ring bufs count size = bufferAlloc c mq ring bufs count size := by
  unfold Libmemif.bufferAlloc allocSlot allocNs
  rw [h.allocLoop, h.isMaster]

lemma MemifConnection.SameSide.txBurst (h : c.SameSide c') (count : UInt16) (intWrite : Bool) :
    txBurst c' mq ring bufs count intWrite = txBurst c mq ring bufs count intWrite := by
  unfold Libmemif.txBurst publishTx
  rw [h.isMaster]

lemma MemifConnection.SameSide.rxBurst (h : c.SameSide c') (count : UInt16) (intRead : Bool) :
    rxBurst c' mq ring bufs count intRead = rxBurst c mq ring bufs count intRead := by
  have hdesc : rxDesc c' = rxDesc c := by
    funext d
    rw [rxDesc, rxDesc, h.isMaster, h.runArgs]
  unfold Libmemif.rxBurst rxCurSlot rxLastSlot rxLoop rxRound
  rw [h.isMaster, hdesc]

lemma MemifConnection.SameSide.refillQueue (h : c.SameSide c') (count headroom : UInt16) :
    refillQueue c' mq ring count headroom = refillQueue c mq ring count headroom := by
  unfold Libmemif.refillQueue refillLoop MemifConnection.offsetMask
  rw [h.isMaster, h.runArgs]

end SameSide

end CiphApp.Libmemif
