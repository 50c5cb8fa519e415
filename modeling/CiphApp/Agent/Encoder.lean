import CiphApp.Agent.Containment

/-!
# The encoder on any operation

`wireFormat_roundTrip` is about operations that fit.  Here the operation may be anything: too
large, with segments whose lengths add up to more than a 32-bit number can hold, or with parts
that have a length and no data.

The encoder adds the segment lengths in 32 bits and compares the sum once with the size of the
payload area.  `guardExact_iff` says for which operations this is the comparison one wants.

A slot is used again without being cleared, and a part without data is skipped with its length
still announced.  `noLeftovers_iff` says for which operations a decoder sees nothing of what the
slot held before.
-/

namespace CiphApp

open Lib

/-! ## The context -/

/-- The condition of the oversize branch. -/
def Oversize (l : CryptoBuffList) : Prop := buffSize < (ciphertextLength l).toNat

instance (l : CryptoBuffList) : Decidable (Oversize l) :=
  inferInstanceAs (Decidable (_ < _))

lemma cryptoJobToBuffer_oversize (h : Heap) (p : Ptr) {vec : CryptoOperation}
    (ho : Oversize vec.cipherBuffList) :
    cryptoJobToBuffer h p vec =
      (storeLengths ((storeContext h p vec.op).put32 (p.add 0) cryptoOpStatusFailed)
        (p.add sizeofContext) ⟨0, 0, 0⟩, 64 + 12) := by
  rw [cryptoJobToBuffer, if_pos (show buffSize < _ from ho)]

/-- The other branch, with the three writes behind the front as one list. -/
lemma cryptoJobToBuffer_copied (h : Heap) (p : Ptr) {vec : CryptoOperation}
    (ho : ¬Oversize vec.cipherBuffList) :
    (cryptoJobToBuffer h p vec).1 =
      putBuff (putBuff (copySegments (storeLengths (storeContext h p vec.op)
          (p.add sizeofContext) (lengthsOf vec)) (p.add payloadOff) vec.cipherBuffList).1
        (p.add keyOff) vec.cipherKey)
        (p.add (keyOff + vec.cipherKey.length.toNat)) vec.cipherIv := by
  rw [cryptoJobToBuffer, if_neg (show ¬buffSize < _ from ho)]
  rfl

lemma loadContext_storeLengths (h : Heap) (p : Ptr) (d : DataLengths) :
    loadContext (storeLengths h (p.add sizeofContext) d) p = loadContext h p := by
  refine loadContext_congr fun i hi => frame_storeLengths h (p.add sizeofContext) d _ _ ?_
  rintro ⟨-, hlo, -⟩
  simp only [Ptr.add_off] at hlo
  omega

lemma loadContext_put32_status (h : Heap) (p : Ptr) (c : CryptoOperationContext) (st : UInt32) :
    loadContext ((storeContext h p c).put32 (p.add 0) st) p = { c with opStatus := st } := by
  simp [loadContext, storeContext, Heap.get32_put32_add, Heap.get32_put64_add,
    Heap.get64_put32_add, Heap.get64_put64_add, -Ptr.add_zero]

/-- The payload, the key and the IV go behind the lengths. -/
lemma mem_front_cryptoJobToBuffer (h : Heap) (p : Ptr) {vec : CryptoOperation}
    (ho : ¬Oversize vec.cipherBuffList) {a : ℕ} (ha : a < p.off + payloadOff) :
    (cryptoJobToBuffer h p vec).1.mem p.region a = (storeLengths (storeContext h p vec.op)
      (p.add sizeofContext) (lengthsOf vec)).mem p.region a := by
  have hl := layout
  have f := ((frame_copySegments (storeLengths (storeContext h p vec.op)
    (p.add sizeofContext) (lengthsOf vec)) (p.add payloadOff) vec.cipherBuffList).trans
      (frame_putBuff _ (p.add keyOff) vec.cipherKey)).trans
      (frame_putBuff _ (p.add (keyOff + vec.cipherKey.length.toNat)) vec.cipherIv)
  rw [cryptoJobToBuffer_copied h p ho]
  refine f _ _ ?_
  rintro ⟨-, hlo, -⟩
  simp only [Ptr.add_off, min_le_iff] at hlo
  omega

/-- **The context arrives**, whatever the operation is, except that an oversize operation is
marked as failed. -/
lemma loadContext_cryptoJobToBuffer (h : Heap) (p : Ptr) (vec : CryptoOperation) :
    loadContext (cryptoJobToBuffer h p vec).1 p =
      if Oversize vec.cipherBuffList then { vec.op with opStatus := cryptoOpStatusFailed }
      else vec.op := by
  have hl := layout
  split_ifs with ho
  · rw [cryptoJobToBuffer_oversize h p ho, loadContext_storeLengths, loadContext_put32_status]
  · exact (loadContext_congr fun i hi => mem_front_cryptoJobToBuffer h p ho (by omega)).trans
      ((loadContext_storeLengths _ p _).trans (loadContext_storeContext h p vec.op))

/-! ## The oversize guard -/

/-- The accesses for one part. -/
def partAccesses (dst : Ptr) (b : CryptoBuff) : List (Access Region) :=
  if b.length ≠ 0 ∧ b.data ≠ null then
    [⟨.load, b.data, b.length.toNat⟩, ⟨.store, dst, b.length.toNat⟩]
  else []

lemma log_putBuff (h : Heap) (dst : Ptr) (b : CryptoBuff) :
    (putBuff h dst b).log = h.log ++ partAccesses dst b := by
  unfold putBuff partAccesses
  by_cases hz : b.length = 0
  · simp [hz]
  · by_cases hn : b.data = null
    · simp [hz, hn]
    · simp [hz, hn]

lemma log_copySegments (h : Heap) (dst : Ptr) (l : CryptoBuffList) :
    (copySegments h dst l).1.log = h.log ++ (List.range l.buffListLength.toNat).flatMap fun i =>
      partAccesses (dst.add (l.prefixTotal i)) (l.buffs i) := by
  have inv := forUpTo_induct (n := l.buffListLength.toNat) (s := (h, dst))
    (f := fun i s => (putBuff s.1 s.2 (l.buffs i), s.2.add (l.buffs i).length.toNat))
    (P := fun n s => s.2 = dst.add (l.prefixTotal n) ∧
      s.1.log = h.log ++ (List.range n).flatMap fun i =>
        partAccesses (dst.add (l.prefixTotal i)) (l.buffs i))
    ⟨by simp [CryptoBuffList.prefixTotal], by simp⟩ ?_
  · exact inv.2
  · rintro i ⟨g, cur⟩ _ ⟨rfl, hlog⟩
    refine ⟨by simp [CryptoBuffList.prefixTotal_succ], ?_⟩
    rw [log_putBuff, hlog, List.range_succ, List.flatMap_append, List.flatMap_singleton,
      List.append_assoc]

/-- What the oversize branch promises: the message is marked as failed, all lengths are zero, and
nothing is read, or written behind the front. -/
structure Rejected (h : Heap) (p : Ptr) (vec : CryptoOperation) : Prop where
  status : (loadContext (cryptoJobToBuffer h p vec).1 p).opStatus = cryptoOpStatusFailed
  lengths : loadLengths (cryptoJobToBuffer h p vec).1 (p.add sizeofContext) = ⟨0, 0, 0⟩
  nothing : ∀ a ∈ (cryptoJobToBuffer h.fresh p vec).1.log,
    a.kind = .store ∧ a.Inside p.region (p.off + sizeofContext + sizeofDataLengths)

/-- The stores of the payload loop stay in the payload area. -/
def PayloadInside (h : Heap) (p : Ptr) (l : CryptoBuffList) : Prop :=
  ∀ a ∈ (copySegments h.fresh (p.add payloadOff) l).1.log, a.kind = .store →
    p.off + payloadOff ≤ a.ptr.off ∧ a.Inside p.region (p.off + keyOff)

/-- **The guard is exact** for an operation: it is taken if and only if the segments do not fit,
and it keeps its promise; otherwise the payload stays in its area. -/
structure GuardExact (h : Heap) (p : Ptr) (vec : CryptoOperation) : Prop where
  exact_iff : Oversize vec.cipherBuffList ↔ buffSize < vec.cipherBuffList.total
  rejected : Oversize vec.cipherBuffList → Rejected h p vec
  inside : ¬Oversize vec.cipherBuffList → PayloadInside h p vec.cipherBuffList

lemma rejected_of_oversize (h : Heap) (p : Ptr) {vec : CryptoOperation}
    (ho : Oversize vec.cipherBuffList) : Rejected h p vec := by
  have hl := layout
  refine ⟨?_, ?_, ?_⟩
  · rw [loadContext_cryptoJobToBuffer, if_pos ho]
  · rw [cryptoJobToBuffer_oversize h p ho, loadLengths_storeLengths]
  · rw [cryptoJobToBuffer_oversize h.fresh p ho]
    have hfields : ∀ f ∈ contextFields, f.1 + f.2 ≤ sizeofContext := by decide
    intro a ha
    simp only [log_storeLengths, Heap.log_put32, log_storeContext, Heap.log_fresh,
      List.nil_append, List.mem_append, List.mem_map, List.mem_cons, List.not_mem_nil,
      or_false] at ha
    rcases ha with (⟨f, hf, rfl⟩ | rfl) | rfl | rfl | rfl
    · have := hfields f hf
      exact ⟨rfl, rfl, by simp only [Ptr.add_off]; omega⟩
    all_goals exact ⟨rfl, rfl, by simp only [Ptr.add_off]; omega⟩

lemma loadLengths_cryptoJobToBuffer (h : Heap) (vec : CryptoOperation) (p : Ptr) :
    loadLengths (cryptoJobToBuffer h p vec).1 (p.add sizeofContext) =
      if Oversize vec.cipherBuffList then ⟨0, 0, 0⟩ else lengthsOf vec := by
  have hl := layout
  split_ifs with ho
  · exact (rejected_of_oversize h p ho).lengths
  · refine (loadLengths_congr fun i hi => ?_).trans
      (loadLengths_storeLengths (storeContext h p vec.op) (p.add sizeofContext) (lengthsOf vec))
    exact mem_front_cryptoJobToBuffer h p ho (by simp only [Ptr.add_off]; omega)

lemma payloadInside_of_total_le (h : Heap) (p : Ptr) {l : CryptoBuffList}
    (hl : l.total ≤ buffSize) : PayloadInside h p l := by
  have hlay := layout
  intro a ha hk
  rw [log_copySegments, Heap.log_fresh, List.nil_append] at ha
  obtain ⟨i, hi, ha⟩ := List.mem_flatMap.mp ha
  have hle := l.prefixTotal_le (List.mem_range.mp hi)
  unfold partAccesses at ha
  split_ifs at ha
  · simp only [List.mem_cons, List.not_mem_nil, or_false] at ha
    rcases ha with rfl | rfl
    · cases hk
    · simp only [Access.Inside, Ptr.add_off, Ptr.add_region]
      exact ⟨by omega, trivial, by omega⟩
  · exact absurd ha List.not_mem_nil

/-- **When the guard is exact**: when the sum of the lengths fits 32 bits, or is too large even
after it was reduced. -/
theorem guardExact_iff (h : Heap) (p : Ptr) (vec : CryptoOperation) :
    GuardExact h p vec ↔
      vec.cipherBuffList.total < 2 ^ 32 ∨ buffSize < vec.cipherBuffList.total % 2 ^ 32 := by
  have hl := layout
  have hsum := toNat_ciphertextLength vec.cipherBuffList
  have hexact : (Oversize vec.cipherBuffList ↔ buffSize < vec.cipherBuffList.total) ↔
      vec.cipherBuffList.total < 2 ^ 32 ∨ buffSize < vec.cipherBuffList.total % 2 ^ 32 := by
    unfold Oversize
    omega
  constructor
  · intro hg
    exact hexact.mp hg.exact_iff
  · intro hc
    have he := hexact.mpr hc
    exact ⟨he, rejected_of_oversize h p, fun hno =>
      payloadInside_of_total_le h p (Nat.le_of_not_lt fun hlt => hno (he.mpr hlt))⟩

/-- Two segments of `2 ^ 31` bytes each. -/
def wrappingRequest : CryptoOperation where
  op := ⟨cryptoOpStatusNotProcessed, 0, 4096, 16, 0, cryptoOpTypeSessCiphering, 0,
    cryptoCipherAesCtr, cryptoCipherOpEncrypt, 0⟩
  cipherBuffList := ⟨2, fun _ => ⟨2147483648, ⟨.user, 64⟩⟩⟩
  cipherKey := ⟨0, null⟩
  cipherIv := ⟨16, ⟨.user, 80⟩⟩

/-- **The sum of the lengths wraps to zero.**  The operation is not rejected, and the encoder
stores `2 ^ 31` bytes from the start of the 9000-byte payload area. -/
theorem oversize_not_rejected :
    wrappingRequest.cipherBuffList.total = 2 ^ 32 ∧ ¬Oversize wrappingRequest.cipherBuffList ∧
    ⟨.store, ⟨.req 0, 108⟩, 2147483648⟩ ∈
      (cryptoJobToBuffer ⟨fun _ _ => 0, []⟩ ⟨.req 0, 0⟩ wrappingRequest).1.log ∧
    ¬GuardExact ⟨fun _ _ => 0, []⟩ ⟨.req 0, 0⟩ wrappingRequest := by
  have htotal : wrappingRequest.cipherBuffList.total = 2 ^ 32 := by decide
  have hno : ¬Oversize wrappingRequest.cipherBuffList := by decide
  refine ⟨htotal, hno, ?_, fun hg => hno (hg.exact_iff.mpr ?_)⟩
  · rw [cryptoJobToBuffer_copied _ _ hno, log_putBuff, log_putBuff, log_copySegments]
    have hfirst : ⟨.store, ⟨.req 0, 108⟩, 2147483648⟩ ∈
        partAccesses (Ptr.add (Ptr.add ⟨.req 0, 0⟩ payloadOff)
          (wrappingRequest.cipherBuffList.prefixTotal 0))
          (wrappingRequest.cipherBuffList.buffs 0) := by decide
    refine List.mem_append_left _ (List.mem_append_left _ (List.mem_append_right _ ?_))
    exact List.mem_flatMap.mpr ⟨0, by decide, hfirst⟩
  · rw [htotal]
    decide

/-! ## What a slot held before -/

/-- What a decoder gets out of a slot. -/
structure Contents where
  context : CryptoOperationContext
  payload : List UInt8
  key : List UInt8
  iv : List UInt8
  deriving DecidableEq

/-- A slot that held `c` is filled by a client with memory `h` and decoded by a process with memory
`hd`. -/
def contentsAfter (h hd : Heap) (slot : Region) (vec old : CryptoOperation) (c : ℕ → UInt8) :
    Contents :=
  let encoded := (cryptoJobToBuffer (h.share ⟨fun _ => c, []⟩ slot) ⟨slot, 0⟩ vec).1
  let d := cryptoJobFromBuffer (hd.share encoded slot) ⟨slot, 0⟩ old
  ⟨d.1.op, d.1.cipherBuffList.bytes d.2, d.1.cipherKey.bytes d.2, d.1.cipherIv.bytes d.2⟩

/-- **No leftovers**: what the slot held before makes no difference to a decoder. -/
def NoLeftovers (h hd : Heap) (slot : Region) (vec old : CryptoOperation) : Prop :=
  ∀ c c', contentsAfter h hd slot vec old c = contentsAfter h hd slot vec old c'

/-- Every part with a length has data. -/
structure AllData (vec : CryptoOperation) : Prop where
  segments : ∀ i < vec.cipherBuffList.buffListLength.toNat,
    (vec.cipherBuffList.buffs i).length ≠ 0 → (vec.cipherBuffList.buffs i).data ≠ null
  key : vec.cipherKey.length ≠ 0 → vec.cipherKey.data ≠ null
  iv : vec.cipherIv.length ≠ 0 → vec.cipherIv.data ≠ null

section Leftovers

variable {h hd : Heap} {slot : Region} {vec old : CryptoOperation}

lemma SlotHolds.contents {g : Heap} {c : CryptoOperationContext} {d : DataLengths}
    {payload key iv : List UInt8} (hs : SlotHolds g ⟨slot, 0⟩ c d payload key iv)
    (hslot : slot ≠ .user) (hd : Heap) (old : CryptoOperation) :
    (cryptoJobFromBuffer (hd.share g slot) ⟨slot, 0⟩ old).1.op = outputRule c d.ciphertextLength ∧
    (cryptoJobFromBuffer (hd.share g slot) ⟨slot, 0⟩ old).1.cipherBuffList.bytes
      (cryptoJobFromBuffer (hd.share g slot) ⟨slot, 0⟩ old).2 = payload ∧
    (cryptoJobFromBuffer (hd.share g slot) ⟨slot, 0⟩ old).1.cipherKey.bytes
      (cryptoJobFromBuffer (hd.share g slot) ⟨slot, 0⟩ old).2 = key ∧
    (cryptoJobFromBuffer (hd.share g slot) ⟨slot, 0⟩ old).1.cipherIv.bytes
      (cryptoJobFromBuffer (hd.share g slot) ⟨slot, 0⟩ old).2 = iv := by
  have hshared := hs.share hd
  have hv := views_cryptoJobFromBuffer (hd.share g slot) ⟨slot, 0⟩ old
  rw [hshared.context, hshared.lengths] at hv
  have hafter := hshared.of_mem_eq (mem_cryptoJobFromBuffer (hd.share g slot) ⟨slot, 0⟩ old hslot)
  refine ⟨hv.context, ?_, ?_, ?_⟩
  · rw [CryptoBuffList.bytes_one hv.segments, hv.payload]
    exact hafter.payload_eq
  · rw [hv.key]
    exact hafter.key_eq
  · rw [hv.iv]
    exact hafter.iv_eq

/-- What a decoder gets from an operation that fits: each part as it landed. -/
lemma contentsAfter_landed (hslot : slot ≠ .user) (ho : Outside vec slot)
    (hpay : vec.cipherBuffList.total ≤ buffSize) (c : ℕ → UInt8) :
    contentsAfter h hd slot vec old c =
      ⟨outputRule vec.op (lengthsOf vec).ciphertextLength,
        vec.cipherBuffList.landed (h.share ⟨fun _ => c, []⟩ slot) ⟨slot, 0⟩,
        vec.cipherKey.landed (h.share ⟨fun _ => c, []⟩ slot) (Ptr.add ⟨slot, 0⟩ keyOff),
        vec.cipherIv.landed (h.share ⟨fun _ => c, []⟩ slot)
          (Ptr.add ⟨slot, 0⟩ (keyOff + vec.cipherKey.length.toNat))⟩ := by
  obtain ⟨key, iv, hs, hkey, hiv⟩ :=
    SlotHolds.encode_landed (h.share ⟨fun _ => c, []⟩ slot) ⟨slot, 0⟩ vec ho.data hpay
  obtain ⟨h1, h2, h3, h4⟩ := hs.contents hslot hd old
  rw [contentsAfter]
  simp only [h1, h2, h3, h4, hkey ho.key, hiv ho.iv]

/-- What a decoder gets from an oversize operation: a failure without data. -/
lemma contentsAfter_oversize (hslot : slot ≠ .user) (hover : Oversize vec.cipherBuffList)
    (c : ℕ → UInt8) :
    contentsAfter h hd slot vec old c =
      ⟨outputRule { vec.op with opStatus := cryptoOpStatusFailed } 0, [], [], []⟩ := by
  have hr := rejected_of_oversize (h.share ⟨fun _ => c, []⟩ slot) ⟨slot, 0⟩ hover
  have hctx := loadContext_cryptoJobToBuffer (h.share ⟨fun _ => c, []⟩ slot) ⟨slot, 0⟩ vec
  rw [if_pos hover] at hctx
  have hs : SlotHolds (cryptoJobToBuffer (h.share ⟨fun _ => c, []⟩ slot) ⟨slot, 0⟩ vec).1
      ⟨slot, 0⟩ { vec.op with opStatus := cryptoOpStatusFailed } ⟨0, 0, 0⟩ [] [] [] :=
    ⟨hctx, hr.lengths, rfl, rfl, rfl⟩
  obtain ⟨h1, h2, h3, h4⟩ := hs.contents hslot hd old
  rw [contentsAfter]
  simp only [h1, h2, h3, h4]

/-- A part without data lands as what the slot held there. -/
lemma CryptoBuff.landed_share_null {b : CryptoBuff} (hb : b.data = null) (c : ℕ → UInt8)
    {dst : Ptr} (hdst : dst.region = slot) :
    b.landed (h.share ⟨fun _ => c, []⟩ slot) dst =
      (List.range b.length.toNat).map fun i => c (dst.off + i) := by
  rw [landed, if_pos hb, Heap.bytes]
  simp [Heap.share, hdst]

/-- If a part lands the same way on zeros and on ones, it has data. -/
lemma CryptoBuff.data_of_landed_eq {b : CryptoBuff} {dst : Ptr} (hdst : dst.region = slot)
    (he : b.landed (h.share ⟨fun _ _ => 0, []⟩ slot) dst =
      b.landed (h.share ⟨fun _ _ => 1, []⟩ slot) dst) :
    b.length ≠ 0 → b.data ≠ null := by
  intro hz hn
  rw [landed_share_null hn _ hdst, landed_share_null hn _ hdst, List.map_inj_left] at he
  have hpos : 0 < b.length.toNat := by
    have : b.length.toNat ≠ 0 := fun h0 => hz (UInt32.toNat_inj.mp h0)
    omega
  exact absurd (he 0 (List.mem_range.mpr hpos)) (by decide)

/-- What lands from a part with data outside the slot does not depend on the slot. -/
lemma CryptoBuff.landed_share_data {b : CryptoBuff} (hb : b.length ≠ 0 → b.data ≠ null)
    (hr : b.data.region ≠ slot) (c : ℕ → UInt8) (dst : Ptr) :
    b.landed (h.share ⟨fun _ => c, []⟩ slot) dst = b.bytes h := by
  rw [landed_of_data hb, CryptoBuff.bytes, CryptoBuff.bytes, Heap.bytes_share_of_ne _ _ _ hr]

@[simp] lemma CryptoBuff.length_landed (b : CryptoBuff) (h : Heap) (dst : Ptr) :
    (b.landed h dst).length = b.length.toNat := by
  unfold landed
  split_ifs <;> simp

end Leftovers

/-- Two concatenations of lists that agree in their lengths agree list by list. -/
lemma eq_of_flatMap_eq {l : List ℕ} {f g : ℕ → List UInt8}
    (hlen : ∀ i ∈ l, (f i).length = (g i).length) (he : l.flatMap f = l.flatMap g) :
    ∀ i ∈ l, f i = g i := by
  induction l with
  | nil => simp
  | cons a l ih =>
      rw [List.flatMap_cons, List.flatMap_cons] at he
      obtain ⟨ha, hl⟩ := List.append_inj he (hlen a List.mem_cons_self)
      intro i hi
      rcases List.mem_cons.mp hi with rfl | hi
      · exact ha
      · exact ih (fun i hi => hlen i (List.mem_cons_of_mem a hi)) hl i hi

/-- **When a message has no leftovers**: when the operation is rejected as oversize, or every part
of it that has a length also has data. -/
theorem noLeftovers_iff (h hd : Heap) (slot : Region) (vec old : CryptoOperation)
    (hslot : slot ≠ .user) (ho : Outside vec slot)
    (hfits : Oversize vec.cipherBuffList ∨ vec.cipherBuffList.total ≤ buffSize) :
    NoLeftovers h hd slot vec old ↔ Oversize vec.cipherBuffList ∨ AllData vec := by
  constructor
  · intro hno
    refine or_iff_not_imp_left.mpr fun hover => ?_
    have hpay := hfits.resolve_left hover
    -- compare a slot of zeros with a slot of ones
    have he := hno (fun _ => 0) fun _ => 1
    rw [contentsAfter_landed hslot ho hpay, contentsAfter_landed hslot ho hpay,
      Contents.mk.injEq] at he
    obtain ⟨-, hp, hk, hi⟩ := he
    refine ⟨fun i hi' => ?_, CryptoBuff.data_of_landed_eq rfl hk,
      CryptoBuff.data_of_landed_eq rfl hi⟩
    exact CryptoBuff.data_of_landed_eq rfl
      (eq_of_flatMap_eq (fun j _ => by simp) hp i (List.mem_range.mpr hi'))
  · intro hc c c'
    by_cases hover : Oversize vec.cipherBuffList
    · rw [contentsAfter_oversize hslot hover, contentsAfter_oversize hslot hover]
    · have hdata := hc.resolve_left hover
      have hpay := hfits.resolve_left hover
      have hpart : ∀ c, vec.cipherBuffList.landed (h.share ⟨fun _ => c, []⟩ slot) ⟨slot, 0⟩ =
          vec.cipherBuffList.bytes h := fun c =>
        List.flatMap_congr fun i hi => CryptoBuff.landed_share_data
          (hdata.segments i (List.mem_range.mp hi)) (ho.data i (List.mem_range.mp hi)) c _
      rw [contentsAfter_landed hslot ho hpay, contentsAfter_landed hslot ho hpay, hpart, hpart,
        CryptoBuff.landed_share_data hdata.key ho.key,
        CryptoBuff.landed_share_data hdata.key ho.key,
        CryptoBuff.landed_share_data hdata.iv ho.iv, CryptoBuff.landed_share_data hdata.iv ho.iv]

/-- A request whose parts have data, an empty segment apart, has no leftovers. -/
theorem noLeftovers_segmented :
    NoLeftovers countingHeap countingHeap (.req 0) segmentedRequest segmentedRequest :=
  (noLeftovers_iff _ _ _ _ _ (by decide) (outside_segmentedRequest 0) (.inr (by decide))).mpr
    (.inr ⟨fits_segmentedRequest.data, fits_segmentedRequest.keyData,
      fits_segmentedRequest.ivData⟩)

/-- A request that announces 16 bytes of key and has none. -/
def keylessRequest : CryptoOperation := { segmentedRequest with cipherKey := ⟨16, null⟩ }

/-- **A key left over.**  The decoder takes for the key of the request what the slot held there
before. -/
theorem leftover_key :
    (contentsAfter countingHeap countingHeap (.req 0) keylessRequest keylessRequest
      fun _ => 0).key = List.replicate 16 0 ∧
    (contentsAfter countingHeap countingHeap (.req 0) keylessRequest keylessRequest
      fun _ => 7).key = List.replicate 16 7 ∧
    ¬NoLeftovers countingHeap countingHeap (.req 0) keylessRequest keylessRequest := by
  have hout : Outside keylessRequest (.req 0) :=
    { outside_segmentedRequest 0 with key := by decide }
  have hkey : ∀ v, (contentsAfter countingHeap countingHeap (.req 0) keylessRequest keylessRequest
      fun _ => v).key = (List.range 16).map fun _ => v := fun v => by
    rw [contentsAfter_landed (by decide) hout (by decide)]
    exact CryptoBuff.landed_share_null (b := keylessRequest.cipherKey) rfl _ rfl
  refine ⟨hkey 0, hkey 7, fun hno => ?_⟩
  have he := congrArg Contents.key (hno (fun _ => 0) fun _ => 7)
  rw [hkey 0, hkey 7] at he
  exact absurd he (by decide)

end CiphApp
