import CiphApp.Agent.Server
import CiphApp.Cryptodev.Single

/-!
# One request, from the client and back

The client encodes an operation into a request slot, the server handles it as a batch of one, and
the client decodes the response slot.  Each process has a memory of its own; a slot is what they
share.  The memory of the client when it decodes may be any memory: between the two calls the
client goes on with its work.

On the server three things happen to the response slot in place: the relay copy fills it, the
device overwrites the payload, and `ctx_to_buffer` overwrites the context.  `request_endToEnd` is
the composition of all of them.

`Request` is what is asked of the operation: it is new, has an IV of 16 bytes, and fits its slot.
Whether it can be carried out is another matter.  `Deliverable` says that its session is live, that
the device has a result for it and that the output buffer has room, and `Response` has both
outcomes: the result in the output buffer if it is deliverable, and a failure that leaves the memory
of the client alone if not.  `requestBatch_call` turns the batch into a burst of one job, to which
`Cryptodev.Single` applies.
-/

namespace CiphApp

open Lib

/-! ## The path of a request -/

/-- The batch in which the server meets the request: request slot `i` holds what the client with
memory `hc` encodes, the rest of memory is `hs`. -/
def requestBatch (hc hs : Heap) (i k connId : ℕ) (vec : CryptoOperation) (script : Script) :
    Batch where
  connId
  rx := fun _ => i
  tx := fun _ => k
  len := 1
  script
  heap := hs.share (cryptoJobToBuffer hc ⟨.req i, 0⟩ vec).1 (.req i)

section Batch

variable (hc hs : Heap) (i k connId : ℕ) (vec : CryptoOperation) (script : Script)

@[simp] lemma requestBatch_len : (requestBatch hc hs i k connId vec script).len = 1 := rfl

@[simp] lemma requestBatch_txBufs :
    (requestBatch hc hs i k connId vec script).txBufs = fun _ => ⟨.resp k, 0⟩ := rfl

@[simp] lemma requestBatch_rxBufs :
    (requestBatch hc hs i k connId vec script).rxBufs = fun _ => ⟨.req i, 0⟩ := rfl

@[simp] lemma requestBatch_heap : (requestBatch hc hs i k connId vec script).heap =
    hs.share (cryptoJobToBuffer hc ⟨.req i, 0⟩ vec).1 (.req i) := rfl

lemma requestBatch_copyLoop :
    copyLoop (requestBatch hc hs i k connId vec script).rxBufs
        (requestBatch hc hs i k connId vec script).txBufs
        (requestBatch hc hs i k connId vec script).len
        (requestBatch hc hs i k connId vec script).heap =
      copyBufferToBuffer (hs.share (cryptoJobToBuffer hc ⟨.req i, 0⟩ vec).1 (.req i))
        ⟨.req i, 0⟩ ⟨.resp k, 0⟩ := by
  rw [copyLoop, requestBatch_len, forUpTo_succ, forUpTo_zero, requestBatch_rxBufs,
    requestBatch_txBufs, requestBatch_heap]

lemma requestBatch_encodeLoop (jobs : Jobs) (h : Heap) :
    encodeLoop (requestBatch hc hs i k connId vec script).txBufs
        (requestBatch hc hs i k connId vec script).len jobs h =
      storeContext h ⟨.resp k, 0⟩ (jobs 0).op := by
  rw [encodeLoop, requestBatch_len, forUpTo_succ, forUpTo_zero, ctxToBuffer, requestBatch_txBufs]

end Batch

/-- The client with memory `hc'` decodes response slot `k` of the server with memory `h'`. -/
def clientDecode (hc' h' : Heap) (k : ℕ) (old : CryptoOperation) : CryptoOperation × Heap :=
  cryptoJobFromBuffer (hc'.share h' (.resp k)) ⟨.resp k, 0⟩ old

/-- A request: a new operation with at most a hundred segments and 9000 bytes of payload, an IV of
16 bytes, and a key that leaves room for both in the slot.  Segments have data and lie outside the
slot. -/
structure Request (vec : CryptoOperation) (slot : Region) : Prop where
  status : vec.op.opStatus = cryptoOpStatusNotProcessed
  segments : vec.cipherBuffList.buffListLength.toNat ≤ maxCryptoBuffListSize
  data : ∀ i < vec.cipherBuffList.buffListLength.toNat, (vec.cipherBuffList.buffs i).Copied slot
  payload : vec.cipherBuffList.total ≤ buffSize
  iv : vec.cipherIv.length = 16
  slot : keyOff + vec.cipherKey.length.toNat + vec.cipherIv.length.toNat ≤ slotSize

/-! ## The client decodes -/

/-- A message that is copied out arrives in the output buffer and nowhere else. -/
lemma cryptoJobFromBuffer_copied {h : Heap} {p : Ptr} (vec : CryptoOperation)
    (hout : CopiesOut (loadContext h p) (loadLengths h (p.add sizeofContext)).ciphertextLength) :
    (cryptoJobFromBuffer h p vec).2.bytes ⟨.user, (loadContext h p).outbuffPtr.toNat⟩
        (loadLengths h (p.add sizeofContext)).ciphertextLength.toNat =
      h.bytes (p.add payloadOff) (loadLengths h (p.add sizeofContext)).ciphertextLength.toNat ∧
    h.Frame (cryptoJobFromBuffer h p vec).2 .user (loadContext h p).outbuffPtr.toNat
      ((loadContext h p).outbuffPtr.toNat +
        (loadLengths h (p.add sizeofContext)).ciphertextLength.toNat) := by
  have hd : loadLengths (touchContext h p) (p.add sizeofContext) =
      loadLengths h (p.add sizeofContext) :=
    loadLengths_congr fun i _ => by rw [mem_touchContext]
  have hmem : (touchLengths (touchContext h p) (p.add sizeofContext)).mem = h.mem := by
    rw [mem_touchLengths, mem_touchContext]
  simp only [cryptoJobFromBuffer, hd, if_pos hout]
  generalize touchLengths (touchContext h p) (p.add sizeofContext) = g at hmem
  refine ⟨?_, fun r a ha => ?_⟩
  · rw [Heap.bytes_memcpy_self]
    exact Heap.bytes_of_mem_eq (congrFun hmem _) _
  · rw [Heap.frame_memcpy g _ _ _ r a ha, hmem]

lemma cryptoJobFromBuffer_not_copied {h : Heap} {p : Ptr} (vec : CryptoOperation)
    (hout : ¬CopiesOut (loadContext h p)
      (loadLengths h (p.add sizeofContext)).ciphertextLength) :
    (cryptoJobFromBuffer h p vec).2.mem = h.mem := by
  have hd : loadLengths (touchContext h p) (p.add sizeofContext) =
      loadLengths h (p.add sizeofContext) :=
    loadLengths_congr fun i _ => by rw [mem_touchContext]
  simp only [cryptoJobFromBuffer, hd, if_neg hout, mem_touchLengths, mem_touchContext]

/-! ## The server handles -/

/-- **The job the server makes of a request** is the request, with its payload in the response
slot. -/
lemma requestBatch_call (hc hs : Heap) (k connId : ℕ) (script : Script) (s : Server) {i : ℕ}
    {vec : CryptoOperation} (hvec : Request vec (.req i)) :
    (((requestBatch hc hs i k connId vec script).call s).jobs 0).op = vec.op ∧
    Views (((requestBatch hc hs i k connId vec script).call s).jobs 0) ⟨.resp k, 0⟩ vec.op
      (lengthsOf vec) ∧
    ∃ key iv, SlotHolds ((requestBatch hc hs i k connId vec script).call s).heap ⟨.resp k, 0⟩
        vec.op (lengthsOf vec) (vec.cipherBuffList.bytes hc) key iv ∧
      (vec.cipherIv.Copied (.req i) → iv = vec.cipherIv.bytes hc) := by
  obtain ⟨key, iv, henc, -, hiv⟩ :=
    SlotHolds.encode_payload hc ⟨.req i, 0⟩ vec hvec.data hvec.payload
  have hct : (lengthsOf vec).ciphertextLength.toNat ≤ buffSize :=
    (toNat_ciphertextLength_of_le hvec.payload).le.trans hvec.payload
  have hcopy := (henc.share hs).copy (q := ⟨.resp k, 0⟩) hct (by simp)
  have hdec := (requestBatch hc hs i k connId vec script).decoded s
  rw [requestBatch_copyLoop, requestBatch_txBufs, requestBatch_len] at hdec
  generalize (requestBatch hc hs i k connId vec script).call s = x at hdec ⊢
  generalize copyBufferToBuffer _ _ _ = g at hdec hcopy
  have hviews := hdec.views 0 Nat.one_pos
  rw [hcopy.context, hcopy.lengths] at hviews
  refine ⟨?_, hviews, key, iv, hcopy.of_mem_eq (hdec.mem (.resp k) (by simp)), hiv⟩
  -- a new operation is not copied out by the server
  rw [hviews.context, outputRule, if_neg]
  rintro ⟨-, hsucc⟩
  rw [hvec.status] at hsucc
  exact absurd hsucc (by decide)

/-- The response slot as the client sees it: a new context in front of lengths and payload. -/
lemma response_slot (hc' h : Heap) (k : ℕ) (c : CryptoOperationContext) :
    loadContext (hc'.share (storeContext h ⟨.resp k, 0⟩ c) (.resp k)) ⟨.resp k, 0⟩ = c ∧
    loadLengths (hc'.share (storeContext h ⟨.resp k, 0⟩ c) (.resp k))
      (Ptr.add ⟨.resp k, 0⟩ sizeofContext) = loadLengths h (Ptr.add ⟨.resp k, 0⟩ sizeofContext) ∧
    ∀ n, (hc'.share (storeContext h ⟨.resp k, 0⟩ c) (.resp k)).bytes
      (Ptr.add ⟨.resp k, 0⟩ payloadOff) n = h.bytes (Ptr.add ⟨.resp k, 0⟩ payloadOff) n := by
  have hmem : ∀ a, (hc'.share (storeContext h ⟨.resp k, 0⟩ c) (.resp k)).mem (.resp k) a =
      (storeContext h ⟨.resp k, 0⟩ c).mem (.resp k) a := fun a => by simp [Heap.share]
  have hf := frame_storeContext h ⟨.resp k, 0⟩ c
  have hl := layout
  refine ⟨?_, loadLengths_congr fun j hj => ?_, fun n => Heap.bytes_congr fun j hj => ?_⟩
  · rw [← loadContext_storeContext h ⟨.resp k, 0⟩ c]
    exact loadContext_congr fun j _ => by rw [loadContext_storeContext]; exact hmem _
  · refine (hmem _).trans (hf _ _ ?_)
    rintro ⟨-, -, hlt⟩
    simp only [Ptr.add_off] at hlt
    omega
  · refine (hmem _).trans (hf _ _ ?_)
    rintro ⟨-, -, hlt⟩
    simp only [Ptr.add_off] at hlt
    omega

/-- What the client makes of a response slot with context `c` in front of the lengths `d`. -/
lemma clientDecode_response (hc' h : Heap) (k : ℕ) (c : CryptoOperationContext)
    (old : CryptoOperation) {d : DataLengths}
    (hd : loadLengths h (Ptr.add ⟨.resp k, 0⟩ sizeofContext) = d) :
    (clientDecode hc' (storeContext h ⟨.resp k, 0⟩ c) k old).1.op =
        outputRule c d.ciphertextLength ∧
    (CopiesOut c d.ciphertextLength →
      (clientDecode hc' (storeContext h ⟨.resp k, 0⟩ c) k old).2.bytes
          ⟨.user, c.outbuffPtr.toNat⟩ d.ciphertextLength.toNat =
        h.bytes (Ptr.add ⟨.resp k, 0⟩ payloadOff) d.ciphertextLength.toNat ∧
      ∀ a, a < c.outbuffPtr.toNat ∨ c.outbuffPtr.toNat + d.ciphertextLength.toNat ≤ a →
        (clientDecode hc' (storeContext h ⟨.resp k, 0⟩ c) k old).2.mem .user a =
          hc'.mem .user a) ∧
    (¬CopiesOut c d.ciphertextLength →
      (clientDecode hc' (storeContext h ⟨.resp k, 0⟩ c) k old).2.mem .user =
        hc'.mem .user) := by
  obtain ⟨hctx, hlens, hbytes⟩ := response_slot hc' h k c
  unfold clientDecode
  have huser : ∀ a, (hc'.share (storeContext h ⟨.resp k, 0⟩ c) (.resp k)).mem .user a =
      hc'.mem .user a := fun a => by simp [Heap.share]
  generalize hc'.share (storeContext h ⟨.resp k, 0⟩ c) (.resp k) = g at *
  rw [hd] at hlens
  refine ⟨?_, fun hout => ?_, fun hout => ?_⟩
  · rw [(views_cryptoJobFromBuffer g ⟨.resp k, 0⟩ old).context, hctx, hlens]
  · rw [← hctx, ← hlens] at hout
    obtain ⟨hb, hf⟩ := cryptoJobFromBuffer_copied old hout
    rw [hctx, hlens] at hb hf
    refine ⟨by rw [hb, hbytes], fun a ha => (hf .user a ?_).trans (huser a)⟩
    rintro ⟨-, hlo, hhi⟩
    omega
  · rw [← hctx, ← hlens] at hout
    rw [cryptoJobFromBuffer_not_copied old hout]
    exact funext huser

lemma WrittenAt.loadLengths {h h' : Heap} {p : Ptr} (hw : WrittenAt h (p.add payloadOff) h') :
    CiphApp.loadLengths h' (p.add sizeofContext) = CiphApp.loadLengths h (p.add sizeofContext) := by
  rcases hw with rfl | ⟨bs, rfl⟩
  · rfl
  · have hl := layout
    refine loadLengths_congr fun j hj => ?_
    rw [Heap.mem_store, if_neg]
    rintro ⟨-, hlo, -⟩
    simp only [Ptr.add_off] at hlo
    omega

/-! ## There and back -/

/-- A request to which the device can give the result `out` and the client can take it: the
session is live, `F` gives `out` for its session, IV and payload, and `out` has room. -/
structure Deliverable (cfg : Config) (connId : ℕ) (cl : Client) (F : CipherFun) (hc : Heap)
    (vec : CryptoOperation) (out : List UInt8) : Prop where
  result : ∃ sess, getSession cfg connId vec.op.sessId cl = some sess ∧
    F sess (vec.cipherIv.bytes hc) (vec.cipherBuffList.bytes hc) = some out
  outbuff : vec.op.outbuffPtr ≠ 0
  room : vec.cipherBuffList.total ≤ vec.op.outbuffLen.toNat

/-- The response with which the client ends up, `d` being what it decodes: the context of the
request, and for a ciphering request whose IV was sent the result in the output buffer, or a
failure that leaves the memory of the client alone. -/
structure Response (cfg : Config) (connId : ℕ) (cl : Client) (F : CipherFun) (slot : Region)
    (hc hc' : Heap) (vec : CryptoOperation) (d : CryptoOperation × Heap) : Prop where
  answers : Answers vec.op d.1.op
  success : vec.op.opType = cryptoOpTypeSessCiphering → vec.cipherIv.Copied slot → ∀ out,
    Deliverable cfg connId cl F hc vec out →
      d.1.op.opStatus = cryptoOpStatusSucc ∧
      d.1.op.outbuffLen.toNat = vec.cipherBuffList.total ∧
      d.2.bytes ⟨.user, vec.op.outbuffPtr.toNat⟩ vec.cipherBuffList.total = out ∧
      ∀ a, a < vec.op.outbuffPtr.toNat ∨
          vec.op.outbuffPtr.toNat + vec.cipherBuffList.total ≤ a →
        d.2.mem .user a = hc'.mem .user a
  failure : vec.op.opType = cryptoOpTypeSessCiphering → vec.cipherIv.Copied slot →
    (∀ out, ¬Deliverable cfg connId cl F hc vec out) →
      d.1.op.opStatus = cryptoOpStatusFailed ∧ d.2.mem .user = hc'.mem .user

lemma requestBatch_result (cfg : Config) (F : CipherFun) (hc hs : Heap) (k connId : ℕ)
    (script : Script) (s : Server) {i : ℕ} {vec : CryptoOperation} (hvec : Request vec (.req i))
    (hiv : vec.cipherIv.Copied (.req i)) :
    ((requestBatch hc hs i k connId vec script).call s).result cfg s.cl F =
      (getSession cfg connId vec.op.sessId s.cl).bind fun sess =>
        F sess (vec.cipherIv.bytes hc) (vec.cipherBuffList.bytes hc) := by
  obtain ⟨hop, hviews, key, iv, hslot, hkept⟩ := requestBatch_call hc hs k connId script s hvec
  rw [BurstCall.result, hop, hviews.iv, hviews.payload]
  have hi := hslot.iv_eq
  rw [hkept hiv] at hi
  rw [← hi, ← hslot.payload_eq]
  rfl

/-- **One request, end to end.**  The server has the devices 0 and 1 and any sessions, the slots
hold anything; the op pool serves the request and the devices compute `F` in place.  Then the
server handles the request, and the client decodes a proper response. -/
theorem request_endToEnd (m : UInt32) (behind : UInt32 → RteCipherOp) (F : CipherFun) (hm : m ≠ 0)
    (hlen : ∀ sess iv payload out, F sess iv payload = some out → out.length = payload.length)
    (hc hs hc' : Heap) (i k connId : ℕ) (vec old : CryptoOperation) (script : Script) (s : Server)
    (hvec : Request vec (.req i)) (hidle : Idle s.cl)
    (hserved : ((requestBatch hc hs i k connId vec script).call s).Served
      (Config.ofDevices 0 1 m behind) s.cl)
    (hF : ((requestBatch hc hs i k connId vec script).call s).Computes
      (Config.ofDevices 0 1 m behind) s.cl F) :
    ∃ s' h', (requestBatch hc hs i k connId vec script).handle (Config.ofDevices 0 1 m behind) s =
        some (s', h') ∧
      Response (Config.ofDevices 0 1 m behind) connId s.cl F (.req i) hc hc' vec
        (clientDecode hc' h' k old) := by
  obtain ⟨hop, hviews, key, iv, hslot, -⟩ := requestBatch_call hc hs k connId script s hvec
  have hresult := requestBatch_result (Config.ofDevices 0 1 m behind) F hc hs k connId script s hvec
  have htotal : (lengthsOf vec).ciphertextLength.toNat = vec.cipherBuffList.total :=
    toNat_ciphertextLength_of_le hvec.payload
  have hone : ((requestBatch hc hs i k connId vec script).call s).size = 1 := rfl
  obtain ⟨r, hrun, hw, hciph⟩ := run_one hm hone hidle hserved hF
    (by rw [hviews.payload]; exact htotal.le.trans hvec.payload)
    (by rw [hviews.iv]; exact hvec.iv) (by rw [hop, hvec.status]; decide)
  rw [hviews.payload] at hw
  have hans := run_answers (by rw [hone]; decide) hrun 0
  rw [hop] at hciph hans
  have hhandle := Batch.handle_of_run hrun
  rw [requestBatch_encodeLoop] at hhandle
  refine ⟨_, _, hhandle, ?_⟩
  -- the client meets the new context, the old lengths and the payload the device left
  obtain ⟨hcontext, hcopied, hkept⟩ := clientDecode_response hc' r.heap k (r.jobs 0).op old
    (hw.loadLengths.trans hslot.lengths)
  generalize clientDecode hc' (storeContext r.heap ⟨.resp k, 0⟩ (r.jobs 0).op) k old = d
    at hcontext hcopied hkept ⊢
  rw [htotal] at hcopied
  constructor
  · rw [hcontext]
    exact hans.trans (answers_outputRule _ _)
  · rintro htype hiv out ⟨⟨sess, hget, hout⟩, hptr, hroom⟩
    have hres := hresult hiv
    rw [hget, Option.bind_some, hout] at hres
    obtain ⟨hjob, hheap⟩ := (hciph htype).success out hres
    rw [hop] at hjob
    rw [hjob] at hcontext hcopied
    have hfit : (lengthsOf vec).ciphertextLength ≤ vec.op.outbuffLen := by
      rw [UInt32.le_iff_toNat_le, htotal]
      exact hroom
    obtain ⟨hbytes, hrest⟩ := hcopied ⟨htype, rfl, hptr, hfit⟩
    rw [outputRule, if_pos ⟨htype, rfl⟩, if_pos ⟨hptr, hfit⟩] at hcontext
    refine ⟨by rw [hcontext], by rw [hcontext]; exact htotal, hbytes.trans ?_, hrest⟩
    -- what the device stored is as long as the payload
    have hself := Heap.bytes_store_self
      ((requestBatch hc hs i k connId vec script).call s).heap (Ptr.add ⟨.resp k, 0⟩ payloadOff) out
    rw [hlen _ _ _ _ hout, CryptoBuffList.bytes_length] at hself
    rw [hheap, hviews.payload]
    exact hself
  · intro htype hiv hno
    have hres := hresult hiv
    cases hF : ((requestBatch hc hs i k connId vec script).call s).result
        (Config.ofDevices 0 1 m behind) s.cl F with
    | none =>
        have hjob := (hciph htype).failure hF
        rw [hop] at hjob
        rw [hjob] at hcontext hkept
        rw [outputRule, if_neg fun hc => absurd hc.2 failed_ne_succ] at hcontext
        exact ⟨by rw [hcontext], hkept fun hc => absurd hc.2.1 failed_ne_succ⟩
    | some out =>
        -- the device succeeded, so it is the client that cannot take the result
        obtain ⟨sess, hget, hout⟩ := Option.bind_eq_some_iff.mp (hres.symm.trans hF)
        obtain ⟨hjob, -⟩ := (hciph htype).success out hF
        rw [hop] at hjob
        rw [hjob] at hcontext hkept
        have hfit : ¬(vec.op.outbuffPtr ≠ 0 ∧
            (lengthsOf vec).ciphertextLength ≤ vec.op.outbuffLen) := by
          rintro ⟨hptr, hle⟩
          rw [UInt32.le_iff_toNat_le, htotal] at hle
          exact hno out ⟨⟨sess, hget, hout⟩, hptr, hle⟩
        rw [outputRule, if_pos ⟨htype, rfl⟩, if_neg hfit] at hcontext
        exact ⟨by rw [hcontext], hkept fun hc => hfit hc.2.2⟩

/-- A device that combines every payload byte with the first byte of the IV. -/
def xorFirst : CipherFun := fun _ iv payload => some (payload.map (· ^^^ iv.headD 0))

/-- `segmentedRequest` on the session that `createdOn` has. -/
def liveRequest : CryptoOperation := segmentedRequest.setSessId 0

lemma request_liveRequest : Request liveRequest (.req 0) where
  status := rfl
  segments := by decide
  data := fun i hi => ⟨fits_segmentedRequest.data i hi, (outside_segmentedRequest 0).data i hi⟩
  payload := by decide
  iv := rfl
  slot := by decide

/-- A server with one session, and the request on its way to it; the device returns `xorFirst` of
the request. -/
def liveServer : Server := ⟨createdOn (sampleConfig 0 1), fun _ _ => .zero⟩

def liveScript : Script where
  sess := fun _ => ⟨none, false, ⟨true, true⟩⟩
  dev := fun _ => ⟨[⟨some fun _ => freshOp, 1, [⟨0, .success, [80, 81, 96, 97, 98]⟩]⟩], []⟩

def liveCall : BurstCall :=
  (requestBatch countingHeap countingHeap 0 0 0 liveRequest liveScript).call liveServer

lemma liveCall_served : liveCall.Served (sampleConfig 0 1) liveServer.cl := by
  intro d hd hne
  rw [sorted_idxs_one rfl] at hne ⊢
  have hbase : baseTicket (sampleConfig 0 1) liveServer.cl d = 0 := by
    rcases Nat.lt_succ_iff_lt_or_eq.mp hd with h1 | rfl
    · obtain rfl : d = 0 := by omega
      rfl
    · rfl
  rw [if_pos (by by_contra hc; simp [hc] at hne), hbase]
  exact ⟨⟨_, _, rfl, le_rfl⟩, fun _ hD => absurd hD List.not_mem_nil,
    fun _ hD => by simp [show (liveCall.script.dev d).drain = [] from rfl] at hD, .refl _⟩

lemma liveCall_computes : liveCall.Computes (sampleConfig 0 1) liveServer.cl xorFirst := by
  intro r hrun ev hev d hd hdev a ha _
  have henqs : (liveCall.run (sampleConfig 0 1) liveServer.cl).map (fun r => r.enqs.map fun ev =>
        (ev.dev, ev.op.session, (List.range 16).map ev.op.iv,
          liveCall.heap.bytes ev.op.bufAddr ev.op.cipherDataLength.toNat)) =
      some [(0, some 7, (List.range 16).map fun i => UInt8.ofNat (64 + i),
        [16, 17, 32, 33, 34])] := rfl
  rw [hrun, Option.map_some, Option.some.injEq, List.map_eq_singleton_iff] at henqs
  obtain ⟨ev', he, hop⟩ := henqs
  rw [he, List.mem_singleton] at hev
  subst hev
  simp only [Prod.mk.injEq] at hop
  obtain ⟨hdev0, hsess, hiv, hbytes⟩ := hop
  obtain rfl : d = 0 := by
    rcases Nat.lt_succ_iff_lt_or_eq.mp hd with h1 | rfl
    · omega
    · exact absurd (hdev0.symm.trans hdev) (by decide)
  obtain rfl : a = ⟨0, .success, [80, 81, 96, 97, 98]⟩ := List.mem_singleton.mp ha
  refine ⟨7, hsess, ?_⟩
  rw [hiv, show ((sampleConfig 0 1).enabledCdevs 0).byteLength ev.op =
    ev.op.cipherDataLength.toNat from rfl, hbytes]
  exact ⟨rfl, by decide⟩

/-- The payload `[16, 17, 32, 33, 34]` comes back combined with `64`, in the output buffer. -/
theorem request_endToEnd_live :
    ∃ s' h', (requestBatch countingHeap countingHeap 0 0 0 liveRequest liveScript).handle
        (sampleConfig 0 1) liveServer = some (s', h') ∧
      (clientDecode countingHeap h' 0 liveRequest).1.op.opStatus = cryptoOpStatusSucc ∧
      (clientDecode countingHeap h' 0 liveRequest).2.bytes ⟨.user, 8192⟩ 5 =
        [80, 81, 96, 97, 98] := by
  obtain ⟨s', h', hrun, hresp⟩ := request_endToEnd 64 (fun _ => .encrypt) xorFirst (by decide)
    (fun _ _ payload out h => by
      obtain rfl := Option.some.inj h
      exact List.length_map _)
    countingHeap countingHeap countingHeap 0 0 0 liveRequest liveRequest liveScript liveServer
    request_liveRequest (fun _ => rfl) liveCall_served liveCall_computes
  obtain ⟨hst, -, hbytes, -⟩ := hresp.success rfl ⟨by decide, by decide⟩ [80, 81, 96, 97, 98]
    ⟨⟨7, rfl, by decide⟩, by decide, by decide⟩
  exact ⟨s', h', hrun, hst, hbytes⟩
end CiphApp
