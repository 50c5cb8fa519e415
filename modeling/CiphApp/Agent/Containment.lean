import CiphApp.Agent.RoundTrip

/-!
# What the server touches for a request it did not write

A client has the ring mapped and can place any bytes in a request slot.  The three lengths at
offset 64 steer every copy of `copy_buffer_to_buffer` and every view of
`crypto_job_from_buffer`, and neither function compares them with anything: the guard against
oversized payloads is in the encoder, on the other side.

## Accesses

The heap keeps a log of its accesses, so what a function touches is what it adds to the log.
`log_copyBufferToBuffer` writes the log of the relay copy out: the context, the lengths, and one
read and one write for each of payload, key and IV (`areaAccesses`), with the lengths the request
carries.  The other `log_` lemmas are its parts.

## Containment

`Contained` is the containment of one request: the relay copy reads the request slot and writes the
response slot, and the views the decoder then hands to the device lie in the response slot.
`contained_iff_lengths` says for which lengths it holds, and nothing else about the request
matters.  `contained_of_lengths` is the direction that `Memif.SlotOrder` uses, where the lengths
are known from what the clients send.
-/

namespace CiphApp

open Lib

/-! ## The accesses of the relay copy -/

lemma log_storeContext (h : Heap) (p : Ptr) (c : CryptoOperationContext) :
    (storeContext h p c).log =
      h.log ++ contextFields.map fun f => ⟨.store, p.add f.1, f.2⟩ := by
  simp [storeContext, contextFields]

lemma log_touchContext (h : Heap) (p : Ptr) :
    (touchContext h p).log = h.log ++ contextFields.map fun f => ⟨.load, p.add f.1, f.2⟩ := by
  simp [touchContext, contextFields]

lemma log_storeLengths (h : Heap) (p : Ptr) (d : DataLengths) :
    (storeLengths h p d).log =
      h.log ++ [⟨.store, p.add 0, 4⟩, ⟨.store, p.add 4, 4⟩, ⟨.store, p.add 8, 4⟩] := by
  simp [storeLengths]

lemma log_touchLengths (h : Heap) (p : Ptr) :
    (touchLengths h p).log =
      h.log ++ [⟨.load, p.add 0, 4⟩, ⟨.load, p.add 4, 4⟩, ⟨.load, p.add 8, 4⟩] := by
  simp [touchLengths]

/-- The accesses of `if (n) memcpy(dst, src, n)`. -/
def areaAccesses (dst src : Ptr) (n : UInt32) : List (Access Region) :=
  if n ≠ 0 then [⟨.load, src, n.toNat⟩, ⟨.store, dst, n.toNat⟩] else []

lemma log_copyArea (h : Heap) (dst src : Ptr) (n : UInt32) :
    (copyArea h dst src n).log = h.log ++ areaAccesses dst src n := by
  unfold copyArea areaAccesses
  split_ifs
  · exact Heap.log_memcpy h dst src n.toNat
  · simp

/-- The accesses to the two fronts: ten context fields and three lengths, each read from the
request and written to the response. -/
def frontAccesses (p q : Ptr) : List (Access Region) :=
  (contextFields.map fun f => ⟨.load, p.add f.1, f.2⟩) ++
    (contextFields.map fun f => ⟨.store, q.add f.1, f.2⟩) ++
    ([0, 4, 8].map fun o => ⟨.load, p.add (sizeofContext + o), 4⟩) ++
    ([0, 4, 8].map fun o => ⟨.store, q.add (sizeofContext + o), 4⟩)

/-- **Everything the relay copy touches.** -/
lemma log_copyBufferToBuffer (h : Heap) {p q : Ptr} (hpq : p.region ≠ q.region) :
    (copyBufferToBuffer h p q).log = h.log ++ frontAccesses p q ++
      areaAccesses (q.add payloadOff) (p.add payloadOff)
        (loadLengths h (p.add sizeofContext)).ciphertextLength ++
      areaAccesses (q.add keyOff) (p.add keyOff)
        (loadLengths h (p.add sizeofContext)).cipherKeyLength ++
      areaAccesses
        (q.add (keyOff + (loadLengths h (p.add sizeofContext)).cipherKeyLength.toNat))
        (p.add (keyOff + (loadLengths h (p.add sizeofContext)).cipherKeyLength.toNat))
        (loadLengths h (p.add sizeofContext)).cipherIvLength := by
  -- the context is written to the other slot, so the lengths are read as they were
  have f1 := frame_storeContext (touchContext h p) q (loadContext h p)
  have hd : loadLengths (storeContext (touchContext h p) q (loadContext h p))
      (p.add sizeofContext) = loadLengths h (p.add sizeofContext) :=
    loadLengths_congr fun i _ => congrFun (f1.mem_of_ne hpq) _
  simp only [copyBufferToBuffer, hd, log_copyArea, log_storeLengths, log_touchLengths,
    log_storeContext, log_touchContext, frontAccesses, List.append_assoc, List.map_cons,
    List.map_nil, Ptr.add_add]

/-! ## Containment -/

/-- An access of the relay copy stays where it should: it reads the request slot or writes the
response slot. -/
def Access.Relay (a : Access Region) (inSlot outSlot : Region) : Prop :=
  match a.kind with
  | .load => a.Inside inSlot slotSize
  | .store => a.Inside outSlot slotSize

/-- A view lies in the slot. -/
def CryptoBuff.Within (b : CryptoBuff) (slot : Region) : Prop :=
  b.data.region = slot ∧ b.data.off + b.length.toNat ≤ slotSize

/-- The operation the server decodes for the request in `inSlot`. -/
def relayed (h : Heap) (inSlot outSlot : Region) (old : CryptoOperation) : CryptoOperation :=
  (cryptoJobFromBuffer (copyBufferToBuffer h ⟨inSlot, 0⟩ ⟨outSlot, 0⟩) ⟨outSlot, 0⟩ old).1

/-- The server handles the request in `inSlot` inside the two slots: the relay copy reads only
the request and writes only the response, and the views the decoder then returns lie in the
response. -/
structure Contained (h : Heap) (inSlot outSlot : Region) (old : CryptoOperation) : Prop where
  relay : ∀ a ∈ (copyBufferToBuffer h.fresh ⟨inSlot, 0⟩ ⟨outSlot, 0⟩).log,
    Access.Relay a inSlot outSlot
  payload : ∀ i < (relayed h inSlot outSlot old).cipherBuffList.buffListLength.toNat,
    ((relayed h inSlot outSlot old).cipherBuffList.buffs i).Within outSlot
  key : (relayed h inSlot outSlot old).cipherKey.Within outSlot
  iv : (relayed h inSlot outSlot old).cipherIv.Within outSlot

/-- The lengths a request carries. -/
def requestLengths (h : Heap) (slot : Region) : DataLengths :=
  loadLengths h (Ptr.add ⟨slot, 0⟩ sizeofContext)

lemma views_relayed (h : Heap) {inSlot outSlot : Region} (hne : inSlot ≠ outSlot)
    (old : CryptoOperation) :
    Views (relayed h inSlot outSlot old) ⟨outSlot, 0⟩ (loadContext h ⟨inSlot, 0⟩)
      (requestLengths h inSlot) := by
  obtain ⟨hc, hd⟩ := front_copyBufferToBuffer h (p := ⟨inSlot, 0⟩) (q := ⟨outSlot, 0⟩) hne
  rw [← hc, requestLengths, ← hd]
  exact views_cryptoJobFromBuffer _ _ _

lemma contextFields_within : ∀ f ∈ contextFields, f.1 + f.2 ≤ sizeofContext := by decide

lemma relay_frontAccesses {inSlot outSlot : Region} :
    ∀ a ∈ frontAccesses ⟨inSlot, 0⟩ ⟨outSlot, 0⟩, Access.Relay a inSlot outSlot := by
  have hl := layout
  have hlen : ∀ o ∈ [0, 4, 8], o + 4 ≤ sizeofDataLengths := by decide
  intro a ha
  simp only [frontAccesses, List.mem_append, List.mem_map] at ha
  rcases ha with ((⟨f, hf, rfl⟩ | ⟨f, hf, rfl⟩) | ⟨o, ho, rfl⟩) | ⟨o, ho, rfl⟩
  · have := contextFields_within f hf
    exact ⟨rfl, by simp only [Ptr.add_off]; omega⟩
  · have := contextFields_within f hf
    exact ⟨rfl, by simp only [Ptr.add_off]; omega⟩
  · have := hlen o ho
    exact ⟨rfl, by simp only [Ptr.add_off]; omega⟩
  · have := hlen o ho
    exact ⟨rfl, by simp only [Ptr.add_off]; omega⟩

/-- A copied area is contained when it ends inside the slot. -/
lemma relay_areaAccesses {inSlot outSlot : Region} {off : ℕ} {n : UInt32}
    (hn : off + n.toNat ≤ slotSize) :
    ∀ a ∈ areaAccesses (Ptr.add ⟨outSlot, 0⟩ off) (Ptr.add ⟨inSlot, 0⟩ off) n,
      Access.Relay a inSlot outSlot := by
  intro a ha
  unfold areaAccesses at ha
  split_ifs at ha
  · simp only [List.mem_cons, List.not_mem_nil, or_false] at ha
    rcases ha with rfl | rfl <;> exact ⟨rfl, by simpa using hn⟩
  · simp at ha

/-- **Lengths that end inside the slot** keep the server inside the two slots. -/
lemma contained_of_lengths (h : Heap) {inSlot outSlot : Region} (old : CryptoOperation)
    (hne : inSlot ≠ outSlot)
    (hp : payloadOff + (requestLengths h inSlot).ciphertextLength.toNat ≤ slotSize)
    (hki : keyOff + (requestLengths h inSlot).cipherKeyLength.toNat +
      (requestLengths h inSlot).cipherIvLength.toNat ≤ slotSize) :
    Contained h inSlot outSlot old := by
  have hv := views_relayed h hne old
  have hlog := log_copyBufferToBuffer h.fresh (p := ⟨inSlot, 0⟩) (q := ⟨outSlot, 0⟩) hne
  constructor
  · intro a ha
    rw [hlog] at ha
    simp only [Heap.log_fresh, List.nil_append, List.mem_append] at ha
    rcases ha with ((ha | ha) | ha) | ha
    · exact relay_frontAccesses a ha
    · exact relay_areaAccesses hp a ha
    · refine relay_areaAccesses ?_ a ha
      show keyOff + (requestLengths h inSlot).cipherKeyLength.toNat ≤ slotSize
      omega
    · exact relay_areaAccesses hki a ha
  · intro i hi
    obtain rfl : i = 0 := by simpa [hv.segments] using hi
    rw [hv.payload]
    exact ⟨rfl, by simp only [Ptr.add_off]; omega⟩
  · rw [hv.key]
    exact ⟨rfl, by simp only [Ptr.add_off]; omega⟩
  · rw [hv.iv]
    exact ⟨rfl, by simp only [Ptr.add_off]; omega⟩

/-- **Containment is a condition on the three lengths.**  The server stays inside the two slots
exactly when the payload ends inside the slot and so do key and IV, which start behind the
payload area; nothing on the server checks that they do. -/
theorem contained_iff_lengths (h : Heap) (inSlot outSlot : Region) (old : CryptoOperation)
    (hne : inSlot ≠ outSlot) :
    Contained h inSlot outSlot old ↔
      108 + (requestLengths h inSlot).ciphertextLength.toNat ≤ 16384 ∧
      9108 + (requestLengths h inSlot).cipherKeyLength.toNat +
        (requestLengths h inSlot).cipherIvLength.toNat ≤ 16384 := by
  have hl := layout
  constructor
  · intro hc
    -- the views alone force both bounds
    have hv := views_relayed h hne old
    have hp := (hc.payload 0 (by simp [hv.segments])).2
    have hi := hc.iv.2
    simp only [hv.payload, hv.iv, Ptr.add_off] at hp hi
    omega
  · rintro ⟨hp, hki⟩
    exact contained_of_lengths h old hne (by omega) (by omega)

/-- A request slot that is zero but for the length of its payload. -/
def requestOfLength (n : UInt32) : Heap :=
  storeLengths ⟨fun _ _ => 0, []⟩ (Ptr.add ⟨.req 0, 0⟩ sizeofContext) ⟨n, 0, 0⟩

@[simp] lemma requestLengths_requestOfLength (n : UInt32) :
    requestLengths (requestOfLength n) (.req 0) = ⟨n, 0, 0⟩ := by
  simp [requestLengths, requestOfLength]

/-- The longest payload that stays inside the slot. -/
theorem contained_longest :
    Contained (requestOfLength 16276) (.req 0) (.resp 0) segmentedRequest := by
  rw [contained_iff_lengths _ _ _ _ (by decide), requestLengths_requestOfLength]
  decide

/-- **Out of bounds.**  For a request that says its payload has 20000 bytes the relay copy
stores 20000 bytes at offset 108 of the 16384-byte response slot. -/
theorem relay_out_of_bounds :
    ⟨.store, ⟨.resp 0, 108⟩, 20000⟩ ∈
        (copyBufferToBuffer (requestOfLength 20000).fresh ⟨.req 0, 0⟩ ⟨.resp 0, 0⟩).log ∧
      ¬Contained (requestOfLength 20000) (.req 0) (.resp 0) segmentedRequest := by
  have hstore : ⟨.store, ⟨.resp 0, 108⟩, 20000⟩ ∈
      (copyBufferToBuffer (requestOfLength 20000).fresh ⟨.req 0, 0⟩ ⟨.resp 0, 0⟩).log := by
    have hd : loadLengths (requestOfLength 20000).fresh (Ptr.add ⟨.req 0, 0⟩ sizeofContext) =
        ⟨20000, 0, 0⟩ := requestLengths_requestOfLength 20000
    rw [log_copyBufferToBuffer _ (by decide), hd]
    simp [areaAccesses, Ptr.add, payloadOff, sizeofContext, sizeofDataLengths, buffHeadroom]
  refine ⟨hstore, fun hc => ?_⟩
  have := (hc.relay _ hstore).2
  simp [slotSize] at this

end CiphApp
