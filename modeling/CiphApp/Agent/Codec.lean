import CiphApp.Lib.Loop
import CiphApp.DataVectors

/-!
# The wire codec of the agent

The five functions of `libciph_agent/ciph_agent.cpp` that move an operation through a ring slot:
`crypto_job_to_buffer` fills a request slot, `copy_buffer_to_buffer` copies a request slot into a
response slot, `crypto_job_from_buffer` decodes a slot (on both sides), and `ctx_to_buffer`
rewrites the context at the front of a response slot.

A slot holds the 64-byte context, the 12 bytes of `Data_lengths`, 32 bytes of headroom, a payload
area of 9000 bytes, and then the key and the IV one after the other.  The offsets of the ten
context fields are those of the C structure, padding included.

The source lists the ten field assignments five times, each time the same fields in the same
order; here they are `storeContext` and `loadContext`.  `copy_buffer_to_buffer` and
`crypto_job_from_buffer` take the length of the descriptor as an argument and do not use it, and
the former does not set the length of its output; neither is an argument here.
-/

namespace CiphApp

/-! ## Layout -/

/-- `sizeof(Crypto_operation_context)`. -/
def sizeofContext : ℕ := 64

/-- `sizeof(Data_lengths)`. -/
def sizeofDataLengths : ℕ := 12

/-- `BUFF_HEADROOM` of the agent. -/
def buffHeadroom : ℕ := 32

/-- `BUFF_SIZE` of the agent, the size of the payload area. -/
def buffSize : ℕ := 9000

/-- `BUFF_SIZE` of the transport, the size of a ring slot. -/
def slotSize : ℕ := 16384

/-- Where the payload starts. -/
def payloadOff : ℕ := sizeofContext + sizeofDataLengths + buffHeadroom

/-- Where the key starts. -/
def keyOff : ℕ := payloadOff + buffSize

/-- The layout in numbers. -/
lemma layout : sizeofContext = 64 ∧ sizeofDataLengths = 12 ∧ buffSize = 9000 ∧
    payloadOff = 108 ∧ keyOff = 9108 ∧ slotSize = 16384 := by
  decide

/-- `Data_lengths`. -/
structure DataLengths where
  ciphertextLength : UInt32
  cipherKeyLength : UInt32
  cipherIvLength : UInt32
  deriving DecidableEq, Repr

/-! ## Contexts and lengths in memory -/

/-- The ten field assignments `buffer_op->f = op.f`. -/
def storeContext (h : Heap) (p : Ptr) (c : CryptoOperationContext) : Heap :=
  let h := h.put32 (p.add 0) c.opStatus
  let h := h.put64 (p.add 8) c.opCtxPtr
  let h := h.put64 (p.add 16) c.outbuffPtr
  let h := h.put32 (p.add 24) c.outbuffLen
  let h := h.put64 (p.add 32) c.seq
  let h := h.put32 (p.add 40) c.opType
  let h := h.put32 (p.add 44) c.sessId
  let h := h.put32 (p.add 48) c.cipherAlgo
  let h := h.put32 (p.add 52) c.cipherOp
  h.put32 (p.add 56) c.reserved1

/-- The ten field reads `op.f = buffer_op->f`. -/
def loadContext (h : Heap) (p : Ptr) : CryptoOperationContext where
  opStatus := h.get32 (p.add 0)
  opCtxPtr := h.get64 (p.add 8)
  outbuffPtr := h.get64 (p.add 16)
  outbuffLen := h.get32 (p.add 24)
  seq := h.get64 (p.add 32)
  opType := h.get32 (p.add 40)
  sessId := h.get32 (p.add 44)
  cipherAlgo := h.get32 (p.add 48)
  cipherOp := h.get32 (p.add 52)
  reserved1 := h.get32 (p.add 56)

/-- Offset and width of the context fields. -/
def contextFields : List (ℕ × ℕ) :=
  [(0, 4), (8, 8), (16, 8), (24, 4), (32, 8), (40, 4), (44, 4), (48, 4), (52, 4), (56, 4)]

/-- The loads of `loadContext`. -/
def touchContext (h : Heap) (p : Ptr) : Heap :=
  contextFields.foldl (fun h f => h.load (p.add f.1) f.2) h

def storeLengths (h : Heap) (p : Ptr) (d : DataLengths) : Heap :=
  let h := h.put32 (p.add 0) d.ciphertextLength
  let h := h.put32 (p.add 4) d.cipherKeyLength
  h.put32 (p.add 8) d.cipherIvLength

def loadLengths (h : Heap) (p : Ptr) : DataLengths where
  ciphertextLength := h.get32 (p.add 0)
  cipherKeyLength := h.get32 (p.add 4)
  cipherIvLength := h.get32 (p.add 8)

/-- The loads of `loadLengths`. -/
def touchLengths (h : Heap) (p : Ptr) : Heap :=
  ((h.load (p.add 0) 4).load (p.add 4) 4).load (p.add 8) 4

/-! ## `crypto_job_to_buffer` -/

/-- `if (b.length) { if (NULL != b.data) memcpy(dst, b.data, b.length); }`, the step that is
made for each segment, for the key and for the IV. -/
def putBuff (h : Heap) (dst : Ptr) (b : CryptoBuff) : Heap :=
  if b.length ≠ 0 then
    if b.data ≠ null then h.memcpy dst b.data b.length.toNat else h
  else h

/-- The payload loop, with its write cursor. -/
def copySegments (h : Heap) (dst : Ptr) (l : CryptoBuffList) : Heap × Ptr :=
  Lib.forUpTo l.buffListLength.toNat
    (fun i s => (putBuff s.1 s.2 (l.buffs i), s.2.add (l.buffs i).length.toNat)) (h, dst)

/-- The 32-bit sum of the segment lengths. -/
def ciphertextLength (l : CryptoBuffList) : UInt32 :=
  Lib.forUpTo l.buffListLength.toNat (fun i n => n + (l.buffs i).length) 0

/-- `crypto_job_to_buffer`: the slot and the length reported in `*len`. -/
def cryptoJobToBuffer (h : Heap) (buffer : Ptr) (vec : CryptoOperation) : Heap × UInt32 :=
  let h := storeContext h buffer vec.op
  let n := ciphertextLength vec.cipherBuffList
  if buffSize < n.toNat then
    -- too large for the payload area: the message keeps its context and nothing else
    let h := h.put32 (buffer.add 0) cryptoOpStatusFailed
    (storeLengths h (buffer.add sizeofContext) ⟨0, 0, 0⟩, 64 + 12)
  else
    let h := storeLengths h (buffer.add sizeofContext)
      ⟨n, vec.cipherKey.length, vec.cipherIv.length⟩
    let h := (copySegments h (buffer.add payloadOff) vec.cipherBuffList).1
    let h := putBuff h (buffer.add keyOff) vec.cipherKey
    let h := putBuff h (buffer.add (keyOff + vec.cipherKey.length.toNat)) vec.cipherIv
    (h, 64 + 12 + 32 + 9000 + vec.cipherKey.length + vec.cipherIv.length)

/-! ## `crypto_job_from_buffer` -/

/-- The output rule of the decoder: what happens to a `CIPHERING` context that arrives as
`SUCC` with `len` bytes of payload. -/
def outputRule (c : CryptoOperationContext) (len : UInt32) : CryptoOperationContext :=
  if c.opType = cryptoOpTypeSessCiphering ∧ c.opStatus = cryptoOpStatusSucc then
    if c.outbuffPtr ≠ 0 ∧ len ≤ c.outbuffLen then { c with outbuffLen := len }
    else { c with opStatus := cryptoOpStatusFailed }
  else c

/-- The decoder copies the payload to `outbuff_ptr`. -/
def CopiesOut (c : CryptoOperationContext) (len : UInt32) : Prop :=
  c.opType = cryptoOpTypeSessCiphering ∧ c.opStatus = cryptoOpStatusSucc ∧
    c.outbuffPtr ≠ 0 ∧ len ≤ c.outbuffLen

instance (c : CryptoOperationContext) (len : UInt32) : Decidable (CopiesOut c len) :=
  inferInstanceAs (Decidable (_ ∧ _ ∧ _ ∧ _))

/-- `crypto_job_from_buffer`: the decoded operation and the memory after the copy to
`outbuff_ptr`, if there is one.  `vec` is the pool entry that is overwritten. -/
def cryptoJobFromBuffer (h : Heap) (buffer : Ptr) (vec : CryptoOperation) :
    CryptoOperation × Heap :=
  let c := loadContext h buffer
  let h := touchContext h buffer
  let d := loadLengths h (buffer.add sizeofContext)
  let h := touchLengths h (buffer.add sizeofContext)
  let h := if CopiesOut c d.ciphertextLength then
      h.memcpy ⟨.user, c.outbuffPtr.toNat⟩ (buffer.add payloadOff) d.ciphertextLength.toNat
    else h
  ({ op := outputRule c d.ciphertextLength
     cipherBuffList :=
       { buffListLength := 1
         buffs := Function.update vec.cipherBuffList.buffs 0
           ⟨d.ciphertextLength, buffer.add payloadOff⟩ }
     cipherKey := ⟨d.cipherKeyLength, buffer.add keyOff⟩
     cipherIv := ⟨d.cipherIvLength, buffer.add (keyOff + d.cipherKeyLength.toNat)⟩ }, h)

/-! ## `ctx_to_buffer` and `copy_buffer_to_buffer` -/

/-- `ctx_to_buffer`. -/
def ctxToBuffer (h : Heap) (buffer : Ptr) (vec : CryptoOperation) : Heap × UInt32 :=
  (storeContext h buffer vec.op, 64)

/-- `if (n) memcpy(dst, src, n)`. -/
def copyArea (h : Heap) (dst src : Ptr) (n : UInt32) : Heap :=
  if n ≠ 0 then h.memcpy dst src n.toNat else h

/-- `copy_buffer_to_buffer`. -/
def copyBufferToBuffer (h : Heap) (inBuffer outBuffer : Ptr) : Heap :=
  let h := storeContext (touchContext h inBuffer) outBuffer (loadContext h inBuffer)
  let d := loadLengths h (inBuffer.add sizeofContext)
  let h := storeLengths (touchLengths h (inBuffer.add sizeofContext))
    (outBuffer.add sizeofContext) d
  let h := copyArea h (outBuffer.add payloadOff) (inBuffer.add payloadOff) d.ciphertextLength
  let h := copyArea h (outBuffer.add keyOff) (inBuffer.add keyOff) d.cipherKeyLength
  copyArea h (outBuffer.add (keyOff + d.cipherKeyLength.toNat))
    (inBuffer.add (keyOff + d.cipherKeyLength.toNat)) d.cipherIvLength

end CiphApp
