import CiphApp.Agent.Encoder
import CiphApp.Libmemif.Runs

/-!
# The length of a message

A descriptor of a ring carries a length next to its data.  On the way to the server it is what
`crypto_job_to_buffer` has added up.  On the way back it is 128, the size `on_interrupt00_poll`
asks `memif_buffer_alloc` for (`len_memifBufferAlloc`): `copy_buffer_to_buffer` is passed a pointer
to the length and does not store through it, and the length that `ctx_to_buffer` reports goes to a
local variable of `on_recv_cb`.  The decoder takes the length as an argument and does not look at
it, so the messages are read all the same.

`covers_request_iff` and `covers_response_iff` say when the length of a descriptor covers what the
decoder exposes.  A response never has the length of the request it was copied from
(`lengths_never_agree`).
-/

namespace CiphApp

open Lib

/-! ## Buffers with a length -/

/-- `memif_buffer_t`. -/
structure MemifBuffer where
  data : Ptr
  len : UInt32

/-- `memif_buffer_alloc` for one packet of `size` bytes, on a ring of which everything is offered.
The buffer it is granted is the slot at `data`. -/
def memifBufferAlloc (type : Libmemif.MemifRingType) (size : UInt16) (data : Ptr) : MemifBuffer :=
  ⟨data, ((Libmemif.bufferAlloc (Libmemif.ciphRing type).producer
    (Libmemif.ciphOffered type).txQueue (Libmemif.ciphOffered type).ring (fun _ => .zero) 1
    size).bufs 0).len⟩

/-- **The length is the size that was asked for**, if that is not more than a slot.  The same holds
in every state of a ring (`Libmemif.Refines.alloc_fresh`). -/
lemma len_memifBufferAlloc (type : Libmemif.MemifRingType) {size : UInt16} (hsize : size ≠ 0)
    (hfit : size ≤ 16384) (data : Ptr) :
    (memifBufferAlloc type size data).len = size.toUInt32 := by
  obtain ⟨c, hR, hfree⟩ := Libmemif.refines_ciphOffered type
  have hfit' : size ≤ (Libmemif.ciphRing type).args.bufferSize := hfit
  obtain ⟨hcount, -, hbufs⟩ := hR.alloc_fresh hsize hfit' rfl
  refine (hbufs 0 ?_).1
  rw [hcount, hfree]
  decide

/-- `Ciph_vec_burst_serializer::serialize` of an operation of its list. -/
def serializeInto (h : Heap) (b : MemifBuffer) (vec : CryptoOperation) : Heap × MemifBuffer :=
  ((cryptoJobToBuffer h b.data vec).1, { b with len := (cryptoJobToBuffer h b.data vec).2 })

/-- The copy of a request to its response buffer: the length of the output is not set. -/
def copyInto (h : Heap) (rx tx : MemifBuffer) : Heap × MemifBuffer :=
  (copyBufferToBuffer h rx.data tx.data, tx)

/-- The last loop of `on_recv_cb` for one buffer, where `vec` is the job after `run_jobs`: the
length of `ctx_to_buffer` is dropped. -/
def answerInto (h : Heap) (tx : MemifBuffer) (vec : CryptoOperation) : Heap × MemifBuffer :=
  ((ctxToBuffer h tx.data vec).1, tx)

/-- A request as it is passed to `memif_tx_burst`.  The client asks for a whole slot. -/
def request (h : Heap) (slot : ℕ) (vec : CryptoOperation) : Heap × MemifBuffer :=
  serializeInto h (memifBufferAlloc .s2m 16384 ⟨.req slot, 0⟩) vec

/-- The response to it, as it is passed to `memif_tx_burst`.  `hs` is the memory of the server,
which shares the request slot with that of the client, `hc`.  The client gives the server
descriptors of the size of a slot.  What `run_jobs` does to the payload before the context is
written is left out. -/
def response (hc hs : Heap) (rx : MemifBuffer) (slot : ℕ) (job : CryptoOperation) :
    Heap × MemifBuffer :=
  let tx := memifBufferAlloc .m2s 128 ⟨.resp slot, 0⟩
  let copied := copyInto (hs.share hc rx.data.region) rx tx
  answerInto copied.1 copied.2 job

/-! ## Coverage -/

/-- The lengths in the slot of a buffer. -/
def MemifBuffer.lengths (b : MemifBuffer) (h : Heap) : DataLengths :=
  loadLengths h (b.data.add sizeofContext)

/-- The end of what `crypto_job_from_buffer` exposes of a message: context, lengths, headroom and
payload, and the key and the IV if they are not empty. -/
def exposedEnd (d : DataLengths) : ℕ :=
  max (payloadOff + d.ciphertextLength.toNat)
    (max (if d.cipherKeyLength ≠ 0 then keyOff + d.cipherKeyLength.toNat else 0)
      (if d.cipherIvLength ≠ 0 then keyOff + d.cipherKeyLength.toNat + d.cipherIvLength.toNat
        else 0))

/-- The length of the descriptor covers the message. -/
def MemifBuffer.Covers (b : MemifBuffer) (h : Heap) : Prop :=
  exposedEnd (b.lengths h) ≤ b.len.toNat

lemma exposedEnd_le_iff {d : DataLengths} {n : ℕ} : exposedEnd d ≤ n ↔
    108 + d.ciphertextLength.toNat ≤ n ∧
      (d.cipherKeyLength.toNat ≠ 0 → 9108 + d.cipherKeyLength.toNat ≤ n) ∧
      (d.cipherIvLength.toNat ≠ 0 →
        9108 + d.cipherKeyLength.toNat + d.cipherIvLength.toNat ≤ n) := by
  have hkey : d.cipherKeyLength ≠ 0 ↔ d.cipherKeyLength.toNat ≠ 0 := UInt32.toNat_inj.symm.not
  have hiv : d.cipherIvLength ≠ 0 ↔ d.cipherIvLength.toNat ≠ 0 := UInt32.toNat_inj.symm.not
  have hpayload : payloadOff = 108 := rfl
  have hkeyOff : keyOff = 9108 := rfl
  rw [exposedEnd, hpayload, hkeyOff, max_le_iff, max_le_iff]
  simp only [hkey, hiv]
  split_ifs <;> omega

section Coverage

variable (h hs : Heap) (slot slot' : ℕ) (vec job : CryptoOperation)

lemma lengths_request : (request h slot vec).2.lengths (request h slot vec).1 =
    if Oversize vec.cipherBuffList then ⟨0, 0, 0⟩ else lengthsOf vec :=
  loadLengths_cryptoJobToBuffer h vec ⟨.req slot, 0⟩

lemma len_request : ((request h slot vec).2.len).toNat =
    if Oversize vec.cipherBuffList then 76
    else (9108 + vec.cipherKey.length.toNat + vec.cipherIv.length.toNat) % 2 ^ 32 := by
  show (cryptoJobToBuffer h ⟨.req slot, 0⟩ vec).2.toNat = _
  split_ifs with ho
  · rw [cryptoJobToBuffer_oversize h _ ho]
    rfl
  · rw [cryptoJobToBuffer, if_neg (show ¬buffSize < _ from ho)]
    simp only [UInt32.toNat_add, UInt32.reduceToNat]
    omega

/-- **A request is covered** if it was not too large and its length fits 32 bits. -/
theorem covers_request_iff : (request h slot vec).2.Covers (request h slot vec).1 ↔
    ¬Oversize vec.cipherBuffList ∧
      9108 + vec.cipherKey.length.toNat + vec.cipherIv.length.toNat < 2 ^ 32 := by
  rw [MemifBuffer.Covers, lengths_request, len_request]
  by_cases ho : Oversize vec.cipherBuffList
  · rw [if_pos ho, if_pos ho]
    exact iff_of_false (by decide) fun hn => hn.1 ho
  · have hct : (ciphertextLength vec.cipherBuffList).toNat ≤ 9000 := Nat.le_of_not_lt ho
    have hkey := vec.cipherKey.length.toNat_lt
    have hiv := vec.cipherIv.length.toNat_lt
    rw [if_neg ho, if_neg ho, exposedEnd_le_iff, and_iff_right ho]
    simp only [lengthsOf]
    omega

lemma len_response (rx : MemifBuffer) : (response h hs rx slot' job).2.len = 128 :=
  len_memifBufferAlloc .m2s (by decide) (by decide) _

lemma lengths_response (rx : MemifBuffer) (hrx : rx.data = ⟨.req slot, 0⟩) :
    (response h hs rx slot' job).2.lengths (response h hs rx slot' job).1 = rx.lengths h := by
  have hl := layout
  have hne : rx.data.region ≠ (Ptr.mk (.resp slot') 0 : Ptr).region := by
    rw [hrx]
    simp
  have hcopied := (front_copyBufferToBuffer (hs.share h rx.data.region) hne).2
  have hshare : loadLengths (hs.share h rx.data.region) (rx.data.add sizeofContext) =
      rx.lengths h := loadLengths_congr fun i _ => by simp [Heap.share]
  refine Eq.trans ?_ (hcopied.trans hshare)
  -- the context is written in front of the lengths
  refine loadLengths_congr fun i _ => frame_storeContext _ _ _ _ _ ?_
  rintro ⟨-, -, hhi⟩
  have hhi' : 0 + sizeofContext + i < 0 + sizeofContext := hhi
  omega

/-- **A response is covered** if there is next to nothing in it. -/
theorem covers_response_iff :
    (response (request h slot vec).1 hs (request h slot vec).2 slot' job).2.Covers
        (response (request h slot vec).1 hs (request h slot vec).2 slot' job).1 ↔
      Oversize vec.cipherBuffList ∨ ((ciphertextLength vec.cipherBuffList).toNat ≤ 20 ∧
        vec.cipherKey.length = 0 ∧ vec.cipherIv.length = 0) := by
  rw [MemifBuffer.Covers, lengths_response _ _ slot slot' job _ rfl, lengths_request, len_response]
  by_cases ho : Oversize vec.cipherBuffList
  · rw [if_pos ho]
    exact iff_of_true (by decide) (.inl ho)
  · rw [if_neg ho, exposedEnd_le_iff, or_iff_right ho, ← UInt32.toNat_inj, ← UInt32.toNat_inj]
    simp only [lengthsOf, UInt32.reduceToNat]
    omega

end Coverage

/-- **The lengths of a request and its response agree**: each covers its message, and they are the
same. -/
structure LengthsAgree (req resp : Heap × MemifBuffer) : Prop where
  request : req.2.Covers req.1
  response : resp.2.Covers resp.1
  same : resp.2.len = req.2.len

/-- **The lengths never agree.**  For every operation, every memory on the two sides, every slot and
whatever `run_jobs` makes of the job: the descriptor of the request does not cover it, or that of
the response does not, or the two have different lengths. -/
theorem lengths_never_agree (h hs : Heap) (slot slot' : ℕ) (vec job : CryptoOperation) :
    ¬LengthsAgree (request h slot vec)
      (response (request h slot vec).1 hs (request h slot vec).2 slot' job) := by
  intro hagree
  obtain ⟨ho, hfit⟩ := (covers_request_iff h slot vec).mp hagree.request
  have hlen := len_request h slot vec
  rw [if_neg ho, ← hagree.same, Nat.mod_eq_of_lt hfit] at hlen
  rw [len_response, show (128 : UInt32).toNat = 128 from rfl] at hlen
  omega

/-- A request with five bytes of payload and an IV has length 9124, and its response 128. -/
theorem lengths_of_segmentedRequest :
    (request countingHeap 0 segmentedRequest).2.len = 9124 ∧
      (response (request countingHeap 0 segmentedRequest).1 countingHeap
        (request countingHeap 0 segmentedRequest).2 0 segmentedRequest).2.len = 128 ∧
      ¬LengthsAgree (request countingHeap 0 segmentedRequest)
        (response (request countingHeap 0 segmentedRequest).1 countingHeap
          (request countingHeap 0 segmentedRequest).2 0 segmentedRequest) := by
  have hreq : (request countingHeap 0 segmentedRequest).2.len = 9124 := rfl
  have hresp : (response (request countingHeap 0 segmentedRequest).1 countingHeap
      (request countingHeap 0 segmentedRequest).2 0 segmentedRequest).2.len = 128 := len_response ..
  refine ⟨hreq, hresp, fun hagree => ?_⟩
  have hsame := hagree.same
  rw [hreq, hresp] at hsame
  exact absurd hsame (by decide)

end CiphApp
