import CiphApp.Agent.Codec

/-!
# The wire format round trip

Encoder, relay copy and decoder compute the offsets of payload, key and IV each on their own.
`SlotHolds h p c d payload key iv` says what a slot means, and each function has one lemma in
these terms: `SlotHolds.encode` establishes it for whatever the slot held before,
`SlotHolds.copy` carries it from slot to slot, `SlotHolds.share` from one process to the other,
and `SlotHolds.decode` reads the operation back.  `wireFormat_roundTrip` chains them.

The buffers of the operation lie outside the slot that is written (`Outside`); the client's own
memory is never a slot of the ring.

## What is general

The encoder copies a buffer only if it has data; for one that has a length and no data the slot
keeps what it held.  So what lands at a place is the bytes of the buffer or the old contents
(`CryptoBuff.landed`, `CryptoBuffList.landed`), and `SlotHolds.encode_landed` is stated with it, for
every operation whose payload fits.  `Agent.Encoder` takes it from there; for operations that have
data wherever they have a length (`Fits`), the bytes that land are those of the operation.

`Views` is the decoder for arbitrary slots: the views it returns are fixed by the lengths in the
slot, whether or not somebody has encoded it.  `Agent.Containment` and `Agent.Server` use it in this
form.
-/

namespace CiphApp

open Lib

/-! ## Contexts and lengths -/

/-- The context written to a slot is the context read from it. -/
@[simp] lemma loadContext_storeContext (h : Heap) (p : Ptr) (c : CryptoOperationContext) :
    loadContext (storeContext h p c) p = c := by
  simp [loadContext, storeContext, Heap.get32_put32_add, Heap.get32_put64_add,
    Heap.get64_put32_add, Heap.get64_put64_add, -Ptr.add_zero]

lemma frame_storeContext (h : Heap) (p : Ptr) (c : CryptoOperationContext) :
    h.Frame (storeContext h p c) p.region p.off (p.off + sizeofContext) := by
  have key := (((((((((Heap.frame_put32 h (p.add 0) c.opStatus).trans
    (Heap.frame_put64 _ (p.add 8) c.opCtxPtr)).trans
    (Heap.frame_put64 _ (p.add 16) c.outbuffPtr)).trans
    (Heap.frame_put32 _ (p.add 24) c.outbuffLen)).trans
    (Heap.frame_put64 _ (p.add 32) c.seq)).trans
    (Heap.frame_put32 _ (p.add 40) c.opType)).trans
    (Heap.frame_put32 _ (p.add 44) c.sessId)).trans
    (Heap.frame_put32 _ (p.add 48) c.cipherAlgo)).trans
    (Heap.frame_put32 _ (p.add 52) c.cipherOp)).trans
    (Heap.frame_put32 _ (p.add 56) c.reserved1)
  refine key.mono ?_ ?_
  · simp only [Ptr.add_off, le_min_iff]
    omega
  · simp only [Ptr.add_off, max_le_iff, sizeofContext]
    omega

/-- Two slots with the same first 60 bytes hold the same context. -/
lemma loadContext_congr {h h' : Heap} {p q : Ptr}
    (H : ∀ i < sizeofContext, h.mem p.region (p.off + i) = h'.mem q.region (q.off + i)) :
    loadContext h p = loadContext h' q := by
  have field : ∀ o n, o + n ≤ sizeofContext → h.bytes (p.add o) n = h'.bytes (q.add o) n := by
    intro o n ho
    apply Heap.bytes_congr
    intro i hi
    simp only [Ptr.add_off, Ptr.add_region, Nat.add_assoc]
    exact H (o + i) (by omega)
  simp only [loadContext, Heap.get32_congr (field 0 4 (by decide)),
    Heap.get64_congr (field 8 8 (by decide)), Heap.get64_congr (field 16 8 (by decide)),
    Heap.get32_congr (field 24 4 (by decide)), Heap.get64_congr (field 32 8 (by decide)),
    Heap.get32_congr (field 40 4 (by decide)), Heap.get32_congr (field 44 4 (by decide)),
    Heap.get32_congr (field 48 4 (by decide)), Heap.get32_congr (field 52 4 (by decide)),
    Heap.get32_congr (field 56 4 (by decide))]

@[simp] lemma loadLengths_storeLengths (h : Heap) (p : Ptr) (d : DataLengths) :
    loadLengths (storeLengths h p d) p = d := by
  simp [loadLengths, storeLengths, Heap.get32_put32_add, -Ptr.add_zero]

lemma frame_storeLengths (h : Heap) (p : Ptr) (d : DataLengths) :
    h.Frame (storeLengths h p d) p.region p.off (p.off + sizeofDataLengths) := by
  have key := ((Heap.frame_put32 h (p.add 0) d.ciphertextLength).trans
    (Heap.frame_put32 _ (p.add 4) d.cipherKeyLength)).trans
    (Heap.frame_put32 _ (p.add 8) d.cipherIvLength)
  refine key.mono ?_ ?_
  · simp only [Ptr.add_off, le_min_iff]
    omega
  · simp only [Ptr.add_off, max_le_iff, sizeofDataLengths]
    omega

lemma loadLengths_congr {h h' : Heap} {p q : Ptr}
    (H : ∀ i < sizeofDataLengths, h.mem p.region (p.off + i) = h'.mem q.region (q.off + i)) :
    loadLengths h p = loadLengths h' q := by
  have field : ∀ o n, o + n ≤ sizeofDataLengths →
      h.bytes (p.add o) n = h'.bytes (q.add o) n := by
    intro o n ho
    apply Heap.bytes_congr
    intro i hi
    simp only [Ptr.add_off, Ptr.add_region, Nat.add_assoc]
    exact H (o + i) (by omega)
  simp only [loadLengths, Heap.get32_congr (field 0 4 (by decide)),
    Heap.get32_congr (field 4 4 (by decide)), Heap.get32_congr (field 8 4 (by decide))]

/-- The front of a slot is as it was if the slot is. -/
lemma front_of_mem_eq {h h' : Heap} {p : Ptr} (H : h'.mem p.region = h.mem p.region) :
    loadContext h' p = loadContext h p ∧
      loadLengths h' (p.add sizeofContext) = loadLengths h (p.add sizeofContext) := by
  constructor
  · exact loadContext_congr fun i _ => by rw [H]
  · refine loadLengths_congr fun i _ => ?_
    rw [Ptr.add_region, H]

lemma mem_foldl_load (fields : List (ℕ × ℕ)) (h : Heap) (p : Ptr) :
    (fields.foldl (fun h f => h.load (p.add f.1) f.2) h).mem = h.mem := by
  induction fields generalizing h with
  | nil => rfl
  | cons f fields ih =>
      rw [List.foldl_cons, ih]
      rfl

@[simp] lemma mem_touchContext (h : Heap) (p : Ptr) : (touchContext h p).mem = h.mem :=
  mem_foldl_load contextFields h p

@[simp] lemma mem_touchLengths (h : Heap) (p : Ptr) : (touchLengths h p).mem = h.mem := rfl

/-! ## Copying buffers -/

lemma frame_putBuff (h : Heap) (dst : Ptr) (b : CryptoBuff) :
    h.Frame (putBuff h dst b) dst.region dst.off (dst.off + b.length.toNat) := by
  unfold putBuff
  split_ifs
  · exact Heap.frame_memcpy h dst b.data b.length.toNat
  · exact Heap.Frame.refl _ _ _ _
  · exact Heap.Frame.refl _ _ _ _

/-- What stands at `dst` after a buffer was put there: its bytes, or what stood there before if it
has no data. -/
def CryptoBuff.landed (b : CryptoBuff) (h : Heap) (dst : Ptr) : List UInt8 :=
  if b.data = null then h.bytes dst b.length.toNat else b.bytes h

lemma bytes_putBuff (h : Heap) (dst : Ptr) (b : CryptoBuff) :
    (putBuff h dst b).bytes dst b.length.toNat = b.landed h dst := by
  by_cases hz : b.length = 0
  · simp [CryptoBuff.landed, CryptoBuff.bytes, hz, Heap.bytes]
  · by_cases hn : b.data = null
    · rw [putBuff, if_pos hz, if_neg (not_not.mpr hn), CryptoBuff.landed, if_pos hn]
    · rw [putBuff, if_pos hz, if_pos hn, CryptoBuff.landed, if_neg hn, CryptoBuff.bytes]
      exact Heap.bytes_memcpy_self h dst b.data b.length.toNat

/-- A buffer that the encoder copies as it is: it has data wherever it has a length, and does not
lie in the slot. -/
def CryptoBuff.Copied (b : CryptoBuff) (slot : Region) : Prop :=
  (b.length ≠ 0 → b.data ≠ null) ∧ b.data.region ≠ slot

lemma CryptoBuff.landed_of_data {b : CryptoBuff} (hb : b.length ≠ 0 → b.data ≠ null) (h : Heap)
    (dst : Ptr) : b.landed h dst = b.bytes h := by
  by_cases hz : b.length = 0
  · simp [CryptoBuff.landed, CryptoBuff.bytes, hz, Heap.bytes]
  · rw [landed, if_neg (hb hz)]

/-- What lands depends on the bytes of the buffer and of its place. -/
lemma CryptoBuff.landed_congr {b : CryptoBuff} {h h' : Heap} {dst : Ptr}
    (hb : b.bytes h' = b.bytes h)
    (hd : h'.bytes dst b.length.toNat = h.bytes dst b.length.toNat) :
    b.landed h' dst = b.landed h dst := by
  rw [landed, landed, hb, hd]

/-- The length of the first `n` segments. -/
def CryptoBuffList.prefixTotal (l : CryptoBuffList) (n : ℕ) : ℕ :=
  ((List.range n).map fun i => (l.buffs i).length.toNat).sum

lemma CryptoBuffList.prefixTotal_succ (l : CryptoBuffList) (n : ℕ) :
    l.prefixTotal (n + 1) = l.prefixTotal n + (l.buffs n).length.toNat := by
  simp [prefixTotal, List.range_succ]

/-- Where the cursor of the payload loop stands after `n` rounds, and how far the loop has
written. -/
lemma copySegments_cursor (h : Heap) (dst : Ptr) (l : CryptoBuffList) (n : ℕ) :
    (forUpTo n (fun i s => (putBuff s.1 s.2 (l.buffs i), s.2.add (l.buffs i).length.toNat))
        (h, dst)).2 = dst.add (l.prefixTotal n) ∧
      h.Frame (forUpTo n (fun i s => (putBuff s.1 s.2 (l.buffs i),
        s.2.add (l.buffs i).length.toNat)) (h, dst)).1 dst.region dst.off
        (dst.off + l.prefixTotal n) := by
  refine forUpTo_induct
    (P := fun n (s : Heap × Ptr) => s.2 = dst.add (l.prefixTotal n) ∧
      h.Frame s.1 dst.region dst.off (dst.off + l.prefixTotal n))
    ⟨by simp [CryptoBuffList.prefixTotal], Heap.Frame.refl _ _ _ _⟩ ?_
  rintro i ⟨g, cur⟩ _ ⟨rfl, hframe⟩
  refine ⟨by simp [CryptoBuffList.prefixTotal_succ], ?_⟩
  refine (hframe.trans (frame_putBuff g (dst.add (l.prefixTotal i)) (l.buffs i))).mono ?_ ?_
  · simp
  · simp only [Ptr.add_off, CryptoBuffList.prefixTotal_succ]
    omega

/-- The payload loop writes from its start on, as far as the lengths go, whatever the segments
are. -/
lemma frame_copySegments (h : Heap) (dst : Ptr) (l : CryptoBuffList) :
    h.Frame (copySegments h dst l).1 dst.region dst.off (dst.off + l.total) :=
  (copySegments_cursor h dst l l.buffListLength.toNat).2

/-- Each segment has landed at its place after the payload loop. -/
lemma bytes_copySegments (h : Heap) (dst : Ptr) (l : CryptoBuffList)
    (hapart : ∀ i < l.buffListLength.toNat, (l.buffs i).data.region ≠ dst.region) :
    (copySegments h dst l).1.bytes dst l.total =
      (List.range l.buffListLength.toNat).flatMap fun i =>
        (l.buffs i).landed h (dst.add (l.prefixTotal i)) := by
  have inv := forUpTo_induct (n := l.buffListLength.toNat) (s := (h, dst))
    (f := fun i s => (putBuff s.1 s.2 (l.buffs i), s.2.add (l.buffs i).length.toNat))
    (P := fun n s => s = forUpTo n (fun i s => (putBuff s.1 s.2 (l.buffs i),
        s.2.add (l.buffs i).length.toNat)) (h, dst) ∧
      s.1.bytes dst (l.prefixTotal n) = (List.range n).flatMap fun i =>
        (l.buffs i).landed h (dst.add (l.prefixTotal i)))
    ⟨rfl, by simp [CryptoBuffList.prefixTotal, Heap.bytes]⟩ ?_
  · exact inv.2
  · rintro i s hi ⟨hs, hbytes⟩
    obtain ⟨hcur, hframe⟩ := copySegments_cursor h dst l i
    rw [← hs] at hcur hframe
    obtain ⟨g, cur⟩ := s
    obtain rfl : cur = _ := hcur
    have hput := frame_putBuff g (dst.add (l.prefixTotal i)) (l.buffs i)
    -- segment and place are still as they were at the start
    have hseg : (l.buffs i).landed g (dst.add (l.prefixTotal i)) =
        (l.buffs i).landed h (dst.add (l.prefixTotal i)) :=
      CryptoBuff.landed_congr (hframe.bytes (.inl (hapart i hi)))
        (hframe.bytes (.inr (.inr (by simp))))
    refine ⟨by rw [forUpTo_succ, ← hs], ?_⟩
    rw [CryptoBuffList.prefixTotal_succ, Heap.bytes_add, bytes_putBuff, hseg, List.range_succ,
      List.flatMap_append, List.flatMap_singleton, ← hbytes]
    congr 1
    exact hput.bytes (.inr (.inl (by simp)))

/-- The payload as it lands in a slot at `p`. -/
def CryptoBuffList.landed (l : CryptoBuffList) (h : Heap) (p : Ptr) : List UInt8 :=
  (List.range l.buffListLength.toNat).flatMap fun i =>
    (l.buffs i).landed h ((p.add payloadOff).add (l.prefixTotal i))

lemma CryptoBuffList.landed_of_data {l : CryptoBuffList}
    (hl : ∀ i < l.buffListLength.toNat, (l.buffs i).length ≠ 0 → (l.buffs i).data ≠ null)
    (h : Heap) (p : Ptr) : l.landed h p = l.bytes h := by
  unfold landed bytes
  refine List.flatMap_congr fun i hi => ?_
  exact CryptoBuff.landed_of_data (hl i (List.mem_range.mp hi)) h _

lemma CryptoBuffList.prefixTotal_le (l : CryptoBuffList) {i : ℕ}
    (hi : i < l.buffListLength.toNat) :
    l.prefixTotal i + (l.buffs i).length.toNat ≤ l.total := by
  have hsub : (List.range (i + 1)).Sublist (List.range l.buffListLength.toNat) := by
    rw [List.range_sublist]
    omega
  have hle := (hsub.map fun i => (l.buffs i).length.toNat).sum_le_sum fun _ _ => Nat.zero_le _
  rwa [← CryptoBuffList.prefixTotal_succ]

lemma toNat_ciphertextLength (l : CryptoBuffList) :
    (ciphertextLength l).toNat = l.total % 2 ^ 32 := by
  refine forUpTo_induct (n := l.buffListLength.toNat) (s := (0 : UInt32))
    (f := fun i n => n + (l.buffs i).length)
    (P := fun n s => s.toNat = l.prefixTotal n % 2 ^ 32) (by simp [CryptoBuffList.prefixTotal]) ?_
  intro i s _ hs
  rw [UInt32.toNat_add, hs, CryptoBuffList.prefixTotal_succ, Nat.mod_add_mod]

/-! ## What a slot holds -/

/-- The slot at `p` holds a message: context, lengths, payload, key and IV. -/
structure SlotHolds (h : Heap) (p : Ptr) (c : CryptoOperationContext) (d : DataLengths)
    (payload key iv : List UInt8) : Prop where
  context : loadContext h p = c
  lengths : loadLengths h (p.add sizeofContext) = d
  payload_eq : h.bytes (p.add payloadOff) d.ciphertextLength.toNat = payload
  key_eq : h.bytes (p.add keyOff) d.cipherKeyLength.toNat = key
  iv_eq : h.bytes (p.add (keyOff + d.cipherKeyLength.toNat)) d.cipherIvLength.toNat = iv

/-- An operation that fits a slot: at most a hundred segments, data wherever there is a length,
at most 9000 bytes of payload, and room for the key and the IV behind it. -/
structure Fits (vec : CryptoOperation) : Prop where
  segments : vec.cipherBuffList.buffListLength.toNat ≤ maxCryptoBuffListSize
  data : ∀ i < vec.cipherBuffList.buffListLength.toNat,
    (vec.cipherBuffList.buffs i).length ≠ 0 → (vec.cipherBuffList.buffs i).data ≠ null
  keyData : vec.cipherKey.length ≠ 0 → vec.cipherKey.data ≠ null
  ivData : vec.cipherIv.length ≠ 0 → vec.cipherIv.data ≠ null
  payload : vec.cipherBuffList.total ≤ buffSize
  slot : keyOff + vec.cipherKey.length.toNat + vec.cipherIv.length.toNat ≤ slotSize

/-- No buffer of the operation lies in region `r`. -/
structure Outside (vec : CryptoOperation) (r : Region) : Prop where
  data : ∀ i < vec.cipherBuffList.buffListLength.toNat,
    (vec.cipherBuffList.buffs i).data.region ≠ r
  key : vec.cipherKey.data.region ≠ r
  iv : vec.cipherIv.data.region ≠ r

/-- The lengths written for an operation. -/
def lengthsOf (vec : CryptoOperation) : DataLengths :=
  ⟨ciphertextLength vec.cipherBuffList, vec.cipherKey.length, vec.cipherIv.length⟩

lemma toNat_ciphertextLength_of_le {l : CryptoBuffList} (hl : l.total ≤ buffSize) :
    (ciphertextLength l).toNat = l.total := by
  have hb := layout
  rw [toNat_ciphertextLength, Nat.mod_eq_of_lt (by omega)]

lemma Fits.toNat_ciphertextLength {vec : CryptoOperation} (hf : Fits vec) :
    (ciphertextLength vec.cipherBuffList).toNat = vec.cipherBuffList.total :=
  toNat_ciphertextLength_of_le hf.payload

/-- **Encoding.**  After `crypto_job_to_buffer` the slot holds the context and the lengths, and
each part has landed at its place: a part without data leaves what the slot held before. -/
lemma SlotHolds.encode_landed (h : Heap) (p : Ptr) (vec : CryptoOperation)
    (hdata : ∀ i < vec.cipherBuffList.buffListLength.toNat,
      (vec.cipherBuffList.buffs i).data.region ≠ p.region)
    (hpay : vec.cipherBuffList.total ≤ buffSize) :
    ∃ key iv, SlotHolds (cryptoJobToBuffer h p vec).1 p vec.op (lengthsOf vec)
        (vec.cipherBuffList.landed h p) key iv ∧
      (vec.cipherKey.data.region ≠ p.region → key = vec.cipherKey.landed h (p.add keyOff)) ∧
      (vec.cipherIv.data.region ≠ p.region →
        iv = vec.cipherIv.landed h (p.add (keyOff + vec.cipherKey.length.toNat))) := by
  have hlen := toNat_ciphertextLength_of_le hpay
  have hl := layout
  -- the five writes, one after the other
  set h1 := storeContext h p vec.op with hh1
  set h2 := storeLengths h1 (p.add sizeofContext) (lengthsOf vec) with hh2
  set h3 := (copySegments h2 (p.add payloadOff) vec.cipherBuffList).1 with hh3
  set h4 := putBuff h3 (p.add keyOff) vec.cipherKey with hh4
  set h5 := putBuff h4 (p.add (keyOff + vec.cipherKey.length.toNat)) vec.cipherIv with hh5
  have henc : (cryptoJobToBuffer h p vec).1 = h5 := by
    rw [cryptoJobToBuffer, if_neg (by omega)]
    rfl
  have f1 := frame_storeContext h p vec.op
  have f2 := frame_storeLengths h1 (p.add sizeofContext) (lengthsOf vec)
  have f3 := frame_copySegments h2 (p.add payloadOff) vec.cipherBuffList
  have b3 := bytes_copySegments h2 (p.add payloadOff) vec.cipherBuffList hdata
  have f4 := frame_putBuff h3 (p.add keyOff) vec.cipherKey
  have f5 := frame_putBuff h4 (p.add (keyOff + vec.cipherKey.length.toNat)) vec.cipherIv
  rw [← hh1] at f1
  rw [← hh2] at f2
  rw [← hh3] at f3 b3
  rw [← hh4] at f4
  rw [← hh5] at f5
  simp only [Ptr.add_off, Ptr.add_region] at f1 f2 f3 f4 f5
  have f12 := f1.trans f2
  have f13 := f12.trans f3
  have f14 := f13.trans f4
  -- a segment and its place are read as they were before the call
  have hsegs : ∀ i < vec.cipherBuffList.buffListLength.toNat,
      (vec.cipherBuffList.buffs i).landed h2
          ((p.add payloadOff).add (vec.cipherBuffList.prefixTotal i)) =
        (vec.cipherBuffList.buffs i).landed h
          ((p.add payloadOff).add (vec.cipherBuffList.prefixTotal i)) := fun i hi =>
    CryptoBuff.landed_congr (f12.bytes (.inl (hdata i hi)))
      (f12.bytes (.inr (.inr (by simp only [Ptr.add_off]; omega))))
  -- what is written behind the context does not reach it
  have f25 := (((f2.trans f3).trans f4).trans f5)
  have f35 := ((f3.trans f4).trans f5)
  rw [henc]
  refine ⟨_, _, ⟨?_, ?_, ?_, rfl, rfl⟩, fun hr => ?_, fun hr => ?_⟩
  · rw [← loadContext_storeContext h p vec.op]
    apply loadContext_congr
    intro i hi
    exact f25 _ _ (by omega)
  · rw [← loadLengths_storeLengths h1 (p.add sizeofContext) (lengthsOf vec)]
    apply loadLengths_congr
    intro i hi
    refine f35 _ _ ?_
    rintro ⟨-, hlo, -⟩
    simp only [Ptr.add_off, min_le_iff] at hlo
    omega
  · show h5.bytes (p.add payloadOff) (ciphertextLength vec.cipherBuffList).toNat = _
    rw [hlen, CryptoBuffList.landed,
      ← List.flatMap_congr fun i hi => hsegs i (List.mem_range.mp hi), ← b3]
    refine (f4.trans f5).bytes (.inr (.inl ?_))
    simp only [Ptr.add_off]
    omega
  · have hkey : vec.cipherKey.landed h3 (p.add keyOff) = vec.cipherKey.landed h (p.add keyOff) :=
      CryptoBuff.landed_congr (f13.bytes (.inl hr))
        (f13.bytes (.inr (.inr (by simp only [Ptr.add_off]; omega))))
    show h5.bytes (p.add keyOff) vec.cipherKey.length.toNat = _
    rw [← hkey, ← bytes_putBuff h3 (p.add keyOff) vec.cipherKey]
    refine f5.bytes (.inr (.inl ?_))
    simp only [Ptr.add_off]
    omega
  · have hiv : vec.cipherIv.landed h4 (p.add (keyOff + vec.cipherKey.length.toNat)) =
        vec.cipherIv.landed h (p.add (keyOff + vec.cipherKey.length.toNat)) :=
      CryptoBuff.landed_congr (f14.bytes (.inl hr))
        (f14.bytes (.inr (.inr (by simp only [Ptr.add_off]; omega))))
    show h5.bytes (p.add (keyOff + vec.cipherKey.length.toNat)) vec.cipherIv.length.toNat = _
    rw [← hiv]
    exact bytes_putBuff h4 _ vec.cipherIv

lemma SlotHolds.encode_payload (h : Heap) (p : Ptr) (vec : CryptoOperation)
    (hdata : ∀ i < vec.cipherBuffList.buffListLength.toNat,
      (vec.cipherBuffList.buffs i).Copied p.region)
    (hpay : vec.cipherBuffList.total ≤ buffSize) :
    ∃ key iv, SlotHolds (cryptoJobToBuffer h p vec).1 p vec.op (lengthsOf vec)
        (vec.cipherBuffList.bytes h) key iv ∧
      (vec.cipherKey.Copied p.region → key = vec.cipherKey.bytes h) ∧
      (vec.cipherIv.Copied p.region → iv = vec.cipherIv.bytes h) := by
  obtain ⟨key, iv, hs, hkey, hiv⟩ :=
    SlotHolds.encode_landed h p vec (fun i hi => (hdata i hi).2) hpay
  rw [CryptoBuffList.landed_of_data fun i hi => (hdata i hi).1] at hs
  refine ⟨key, iv, hs, fun hk => ?_, fun hi => ?_⟩
  · rw [hkey hk.2, CryptoBuff.landed_of_data hk.1]
  · rw [hiv hi.2, CryptoBuff.landed_of_data hi.1]

lemma SlotHolds.encode (h : Heap) (p : Ptr) (vec : CryptoOperation) (hf : Fits vec)
    (ho : Outside vec p.region) :
    SlotHolds (cryptoJobToBuffer h p vec).1 p vec.op (lengthsOf vec)
      (vec.cipherBuffList.bytes h) (vec.cipherKey.bytes h) (vec.cipherIv.bytes h) := by
  obtain ⟨key, iv, hs, hkey, hiv⟩ := SlotHolds.encode_payload h p vec
    (fun i hi => ⟨hf.data i hi, ho.data i hi⟩) hf.payload
  rwa [hkey ⟨hf.keyData, ho.key⟩, hiv ⟨hf.ivData, ho.iv⟩] at hs

/-- A message is read from the bytes of its slot alone. -/
lemma SlotHolds.of_mem_eq {h h' : Heap} {p : Ptr} {c : CryptoOperationContext} {d : DataLengths}
    {payload key iv : List UInt8} (hs : SlotHolds h p c d payload key iv)
    (H : h'.mem p.region = h.mem p.region) : SlotHolds h' p c d payload key iv := by
  have hb : ∀ o n, h'.bytes (p.add o) n = h.bytes (p.add o) n := fun o n =>
    Heap.bytes_of_mem_eq (p := p.add o) H n
  constructor
  · rw [← hs.context]
    exact loadContext_congr fun i _ => congrFun H _
  · rw [← hs.lengths]
    exact loadLengths_congr fun i _ => congrFun H _
  · rw [hb, hs.payload_eq]
  · rw [hb, hs.key_eq]
  · rw [hb, hs.iv_eq]

/-- The other process sees the message in the shared slot. -/
lemma SlotHolds.share {h : Heap} {p : Ptr} {c : CryptoOperationContext} {d : DataLengths}
    {payload key iv : List UInt8} (hs : SlotHolds h p c d payload key iv) (h' : Heap) :
    SlotHolds (h'.share h p.region) p c d payload key iv :=
  hs.of_mem_eq (by funext a; simp [Heap.share])

lemma frame_copyArea (h : Heap) (dst src : Ptr) (n : UInt32) :
    h.Frame (copyArea h dst src n) dst.region dst.off (dst.off + n.toNat) := by
  unfold copyArea
  split_ifs
  · exact Heap.frame_memcpy h dst src n.toNat
  · exact Heap.Frame.refl _ _ _ _

lemma bytes_copyArea (h : Heap) (dst src : Ptr) (n : UInt32) :
    (copyArea h dst src n).bytes dst n.toNat = h.bytes src n.toNat := by
  by_cases hz : n = 0
  · simp [hz, Heap.bytes]
  · rw [copyArea, if_pos hz]
    exact Heap.bytes_memcpy_self h dst src n.toNat

/-- The front of the relayed slot is the front of the request, whatever the lengths are: what is
copied behind it does not reach back. -/
lemma front_copyBufferToBuffer (h : Heap) {p q : Ptr} (hpq : p.region ≠ q.region) :
    loadContext (copyBufferToBuffer h p q) q = loadContext h p ∧
      loadLengths (copyBufferToBuffer h p q) (q.add sizeofContext) =
        loadLengths h (p.add sizeofContext) := by
  have hl := layout
  set d := loadLengths h (p.add sizeofContext) with hd
  set h1 := storeContext (touchContext h p) q (loadContext h p) with hh1
  have f1 := frame_storeContext (touchContext h p) q (loadContext h p)
  have hd1 : loadLengths h1 (p.add sizeofContext) = d :=
    loadLengths_congr fun i _ => congrFun (f1.mem_of_ne hpq) _
  set h2 := storeLengths (touchLengths h1 (p.add sizeofContext)) (q.add sizeofContext) d with hh2
  set h3 := copyArea h2 (q.add payloadOff) (p.add payloadOff) d.ciphertextLength with hh3
  set h4 := copyArea h3 (q.add keyOff) (p.add keyOff) d.cipherKeyLength with hh4
  have hcopy : copyBufferToBuffer h p q =
      copyArea h4 (q.add (keyOff + d.cipherKeyLength.toNat))
        (p.add (keyOff + d.cipherKeyLength.toNat)) d.cipherIvLength := by
    rw [copyBufferToBuffer, ← hh1, hd1]
  have f2 := frame_storeLengths (touchLengths h1 (p.add sizeofContext)) (q.add sizeofContext) d
  have f35 := ((frame_copyArea h2 (q.add payloadOff) (p.add payloadOff) d.ciphertextLength).trans
    (frame_copyArea h3 (q.add keyOff) (p.add keyOff) d.cipherKeyLength)).trans
    (frame_copyArea h4 (q.add (keyOff + d.cipherKeyLength.toNat))
      (p.add (keyOff + d.cipherKeyLength.toNat)) d.cipherIvLength)
  rw [← hcopy] at f35
  rw [← hh2] at f2
  simp only [Ptr.add_off, Ptr.add_region] at f2 f35
  constructor
  · rw [← loadContext_storeContext (touchContext h p) q (loadContext h p)]
    apply loadContext_congr
    intro i hi
    refine (f2.trans f35) _ _ ?_
    rintro ⟨-, hlo, -⟩
    simp only [min_le_iff] at hlo
    omega
  · rw [← loadLengths_storeLengths (touchLengths h1 (p.add sizeofContext)) (q.add sizeofContext) d]
    apply loadLengths_congr
    intro i hi
    refine f35 _ _ ?_
    rintro ⟨-, hlo, -⟩
    simp only [Ptr.add_off, min_le_iff] at hlo
    omega

/-- **Relaying.**  `copy_buffer_to_buffer` carries a message whose payload stays in the payload
area to the other slot. -/
lemma SlotHolds.copy {h : Heap} {p q : Ptr} {c : CryptoOperationContext} {d : DataLengths}
    {payload key iv : List UInt8} (hs : SlotHolds h p c d payload key iv)
    (hct : d.ciphertextLength.toNat ≤ buffSize) (hpq : p.region ≠ q.region) :
    SlotHolds (copyBufferToBuffer h p q) q c d payload key iv := by
  have hl := layout
  set h1 := storeContext (touchContext h p) q (loadContext h p) with hh1
  have f1 := frame_storeContext (touchContext h p) q (loadContext h p)
  have hd : loadLengths h1 (p.add sizeofContext) = d := by
    rw [← hs.lengths]
    exact loadLengths_congr fun i _ => congrFun (f1.mem_of_ne hpq) _
  set h2 := storeLengths (touchLengths h1 (p.add sizeofContext)) (q.add sizeofContext) d with hh2
  set h3 := copyArea h2 (q.add payloadOff) (p.add payloadOff) d.ciphertextLength with hh3
  set h4 := copyArea h3 (q.add keyOff) (p.add keyOff) d.cipherKeyLength with hh4
  set h5 := copyArea h4 (q.add (keyOff + d.cipherKeyLength.toNat))
    (p.add (keyOff + d.cipherKeyLength.toNat)) d.cipherIvLength with hh5
  have hcopy : copyBufferToBuffer h p q = h5 := by
    rw [copyBufferToBuffer, ← hh1, hd]
  have f2 := frame_storeLengths (touchLengths h1 (p.add sizeofContext)) (q.add sizeofContext) d
  have f3 := frame_copyArea h2 (q.add payloadOff) (p.add payloadOff) d.ciphertextLength
  have f4 := frame_copyArea h3 (q.add keyOff) (p.add keyOff) d.cipherKeyLength
  have f5 := frame_copyArea h4 (q.add (keyOff + d.cipherKeyLength.toNat))
    (p.add (keyOff + d.cipherKeyLength.toNat)) d.cipherIvLength
  rw [← hh3] at f3
  rw [← hh4] at f4
  rw [← hh5] at f5
  -- nothing is written to the request slot
  have src2 : h2.mem p.region = h.mem p.region := by
    rw [f2.mem_of_ne hpq, mem_touchLengths, f1.mem_of_ne hpq, mem_touchContext]
  have src3 : h3.mem p.region = h.mem p.region := (f3.mem_of_ne hpq).trans src2
  have src4 : h4.mem p.region = h.mem p.region := (f4.mem_of_ne hpq).trans src3
  obtain ⟨hctx, hlen⟩ := front_copyBufferToBuffer h hpq
  constructor
  · rw [hctx, hs.context]
  · rw [hlen, hs.lengths]
  · rw [hcopy, ← hs.payload_eq, ← Heap.bytes_of_mem_eq (p := p.add payloadOff) src2,
      ← bytes_copyArea h2 (q.add payloadOff) (p.add payloadOff)]
    refine (f4.trans f5).bytes (.inr (.inl ?_))
    simp only [Ptr.add_off, le_min_iff]
    omega
  · rw [hcopy, ← hs.key_eq, ← Heap.bytes_of_mem_eq (p := p.add keyOff) src3,
      ← bytes_copyArea h3 (q.add keyOff) (p.add keyOff)]
    refine f5.bytes (.inr (.inl ?_))
    simp only [Ptr.add_off]
    omega
  · rw [hcopy, ← hs.iv_eq,
      ← Heap.bytes_of_mem_eq (p := p.add (keyOff + d.cipherKeyLength.toNat)) src4]
    exact bytes_copyArea h4 _ _ d.cipherIvLength

/-! ## Decoding -/

/-- The decoder writes to nothing but its own memory. -/
lemma mem_cryptoJobFromBuffer (h : Heap) (p : Ptr) (vec : CryptoOperation) {r : Region}
    (hr : r ≠ .user) : (cryptoJobFromBuffer h p vec).2.mem r = h.mem r := by
  simp only [cryptoJobFromBuffer]
  split_ifs
  · rw [Heap.mem_memcpy_of_ne _ _ _ _ hr, mem_touchLengths, mem_touchContext]
  · rw [mem_touchLengths, mem_touchContext]

/-- What the decoder makes of a slot, the memory apart: the context under the output rule and
the three views into the slot. -/
structure Views (v : CryptoOperation) (p : Ptr) (c : CryptoOperationContext) (d : DataLengths) :
    Prop where
  context : v.op = outputRule c d.ciphertextLength
  segments : v.cipherBuffList.buffListLength = 1
  payload : v.cipherBuffList.buffs 0 = ⟨d.ciphertextLength, p.add payloadOff⟩
  key : v.cipherKey = ⟨d.cipherKeyLength, p.add keyOff⟩
  iv : v.cipherIv = ⟨d.cipherIvLength, p.add (keyOff + d.cipherKeyLength.toNat)⟩

/-- **Decoding.**  The decoded operation is a view of the slot. -/
lemma views_cryptoJobFromBuffer (h : Heap) (p : Ptr) (vec : CryptoOperation) :
    Views (cryptoJobFromBuffer h p vec).1 p (loadContext h p)
      (loadLengths h (p.add sizeofContext)) := by
  -- the lengths are read after the context
  have hd : loadLengths (touchContext h p) (p.add sizeofContext) =
      loadLengths h (p.add sizeofContext) := loadLengths_congr fun i _ => by rw [mem_touchContext]
  simp only [cryptoJobFromBuffer, hd]
  generalize loadLengths h (p.add sizeofContext) = d
  generalize loadContext h p = c
  exact ⟨rfl, rfl, rfl, rfl, rfl⟩

lemma CryptoBuffList.bytes_one {l : CryptoBuffList} (hl : l.buffListLength = 1) (h : Heap) :
    l.bytes h = (l.buffs 0).bytes h := by
  simp [CryptoBuffList.bytes, hl]

/-- The operation a decoder returns, read in the memory the decoder leaves, is the operation
`vec` was in memory `h`: same context up to the output rule, one buffer with the concatenated
segments, same key, same IV. -/
structure SameOperation (r : CryptoOperation × Heap) (vec : CryptoOperation) (h : Heap) :
    Prop where
  context : r.1.op = outputRule vec.op (UInt32.ofNat vec.cipherBuffList.total)
  segments : r.1.cipherBuffList.buffListLength = 1
  payload : (r.1.cipherBuffList.buffs 0).bytes r.2 = vec.cipherBuffList.bytes h
  key : r.1.cipherKey.bytes r.2 = vec.cipherKey.bytes h
  iv : r.1.cipherIv.bytes r.2 = vec.cipherIv.bytes h

/-- A slot that holds the encoding of `vec` decodes to `vec`. -/
lemma SlotHolds.decode {hd h : Heap} {p : Ptr} {vec : CryptoOperation} (hf : Fits vec)
    (hs : SlotHolds hd p vec.op (lengthsOf vec) (vec.cipherBuffList.bytes h)
      (vec.cipherKey.bytes h) (vec.cipherIv.bytes h)) (hp : p.region ≠ .user)
    (old : CryptoOperation) : SameOperation (cryptoJobFromBuffer hd p old) vec h := by
  have hv := views_cryptoJobFromBuffer hd p old
  rw [hs.context, hs.lengths] at hv
  have hs' := hs.of_mem_eq (mem_cryptoJobFromBuffer hd p old hp)
  have hn : UInt32.ofNat vec.cipherBuffList.total = (lengthsOf vec).ciphertextLength := by
    rw [← hf.toNat_ciphertextLength, UInt32.ofNat_toNat]
    rfl
  constructor
  · rw [hv.context, hn]
  · exact hv.segments
  · rw [hv.payload]
    exact hs'.payload_eq
  · rw [hv.key]
    exact hs'.key_eq
  · rw [hv.iv]
    exact hs'.iv_eq

lemma Fits.encodedLength {vec : CryptoOperation} (hf : Fits vec) (h : Heap) (p : Ptr) :
    (cryptoJobToBuffer h p vec).2.toNat =
      108 + 9000 + vec.cipherKey.length.toNat + vec.cipherIv.length.toNat := by
  have hlen := hf.toNat_ciphertextLength
  have hpay := hf.payload
  have hslot := hf.slot
  have hl := layout
  rw [cryptoJobToBuffer, if_neg (by omega)]
  simp only [UInt32.toNat_add, UInt32.reduceToNat]
  omega

/-- **The wire format round trip.**  The client encodes `vec` in its memory `h`; a decoder with
any memory `hd` of its own that shares the slot gets the operation back, and so does a server
with memory `hs` that first relays the slot to another one.  The slots may have held anything. -/
theorem wireFormat_roundTrip (h hd hs : Heap) (slot slot' : Region) (vec old : CryptoOperation)
    (hf : Fits vec) (ho : Outside vec slot) (hslot : slot ≠ .user) (hslot' : slot' ≠ .user)
    (hne : slot ≠ slot') :
    SameOperation
      (cryptoJobFromBuffer (hd.share (cryptoJobToBuffer h ⟨slot, 0⟩ vec).1 slot) ⟨slot, 0⟩ old)
      vec h ∧
    SameOperation
      (cryptoJobFromBuffer
        (copyBufferToBuffer (hs.share (cryptoJobToBuffer h ⟨slot, 0⟩ vec).1 slot) ⟨slot, 0⟩
          ⟨slot', 0⟩)
        ⟨slot', 0⟩ old)
      vec h ∧
    (cryptoJobToBuffer h ⟨slot, 0⟩ vec).2.toNat =
      108 + 9000 + vec.cipherKey.length.toNat + vec.cipherIv.length.toNat := by
  have henc := SlotHolds.encode h ⟨slot, 0⟩ vec hf ho
  have hct : (lengthsOf vec).ciphertextLength.toNat ≤ buffSize :=
    hf.toNat_ciphertextLength.le.trans hf.payload
  refine ⟨?_, ?_, hf.encodedLength h _⟩
  · exact (henc.share hd).decode hf hslot old
  · exact ((henc.share hs).copy hct hne).decode hf hslot' old

/-- A process whose memory counts up from its address. -/
def countingHeap : Heap := ⟨fun _ a => UInt8.ofNat a, []⟩

/-- A `CIPHERING` request with an empty segment between two others. -/
def segmentedRequest : CryptoOperation where
  op := ⟨cryptoOpStatusNotProcessed, 4096, 8192, 5, 77, cryptoOpTypeSessCiphering, 3,
    cryptoCipherAesCtr, cryptoCipherOpEncrypt, 0⟩
  cipherBuffList :=
    { buffListLength := 3
      buffs := fun i => if i = 0 then ⟨2, ⟨.user, 16⟩⟩ else if i = 1 then ⟨0, null⟩
        else ⟨3, ⟨.user, 32⟩⟩ }
  cipherKey := ⟨0, null⟩
  cipherIv := ⟨16, ⟨.user, 64⟩⟩

lemma fits_segmentedRequest : Fits segmentedRequest := by
  constructor <;> decide

lemma outside_segmentedRequest (i : ℕ) : Outside segmentedRequest (.req i) := by
  refine ⟨fun j _ => ?_, by simp [segmentedRequest, null], by simp [segmentedRequest]⟩
  simp only [segmentedRequest]
  split_ifs <;> simp [null]

/-- The relayed request still carries the bytes of both segments, in order. -/
theorem wireFormat_roundTrip_segmented :
    (((cryptoJobFromBuffer
        (copyBufferToBuffer
          (countingHeap.share (cryptoJobToBuffer countingHeap ⟨.req 0, 0⟩ segmentedRequest).1
            (.req 0)) ⟨.req 0, 0⟩ ⟨.resp 0, 0⟩)
        ⟨.resp 0, 0⟩ segmentedRequest).1.cipherBuffList.buffs 0).bytes
      (cryptoJobFromBuffer
        (copyBufferToBuffer
          (countingHeap.share (cryptoJobToBuffer countingHeap ⟨.req 0, 0⟩ segmentedRequest).1
            (.req 0)) ⟨.req 0, 0⟩ ⟨.resp 0, 0⟩)
        ⟨.resp 0, 0⟩ segmentedRequest).2) = [16, 17, 32, 33, 34] := by
  rw [(wireFormat_roundTrip countingHeap countingHeap countingHeap (.req 0) (.resp 0)
    segmentedRequest segmentedRequest fits_segmentedRequest (outside_segmentedRequest 0)
    (by decide) (by decide) (by decide)).2.1.payload]
  decide

end CiphApp
