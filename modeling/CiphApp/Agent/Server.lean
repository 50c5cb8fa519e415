import CiphApp.Agent.Containment
import CiphApp.Cryptodev.Computing
import CiphApp.Cryptodev.DevPhase
import CiphApp.Cryptodev.PoolObject

/-!
# The server

One pass of the server over a batch of requests: the copy loop of `on_interrupt00_poll` fills a
response slot from each request slot, and `on_recv_cb` decodes the response slots, hands the jobs
to `run_jobs` and writes the contexts back to the front of the slots.

Memory is an input of each pass.  Between two passes a client may have changed every byte of the
rings, and nothing the server keeps refers to memory except the operations its devices still hold.
Request and response slots are regions of their own, and so is the memory a client pointer refers
to; where a copy leaves its slot (`contained_iff_lengths` says when), the model does not say what
is behind it.  Nor does it say where a device writes after a long IV has run over the mbuf of an
operation (`keepsMbuf_iff`): an IV can then put any address there, also one of a client.
`Batch.InArea` asks for requests that do neither.

The decoder is the one the clients use.  It copies a payload to `outbuff_ptr` if the message is a
`CIPHERING` one that says it succeeded, and a request can say so.  `client_pointer_iff` says that
for requests that stay in their areas this is the only way in which the server writes through a
pointer of a client.
-/

namespace CiphApp

open Lib Relation

/-! ## The handler -/

/-- The copy loop of `on_interrupt00_poll`. -/
def copyLoop (rxBufs txBufs : ℕ → Ptr) (n : ℕ) (h : Heap) : Heap :=
  forUpTo n (fun i h => copyBufferToBuffer h (rxBufs i) (txBufs i)) h

/-- The first loop of `on_recv_cb`. -/
def decodeLoop (rxBufs : ℕ → Ptr) (len : ℕ) (s : Heap × Jobs) : Heap × Jobs :=
  forUpTo len
    (fun i s =>
      let d := cryptoJobFromBuffer s.1 (rxBufs i) (s.2 i)
      (d.2, Function.update s.2 i d.1)) s

/-- The second loop of `on_recv_cb`. -/
def encodeLoop (rxBufs : ℕ → Ptr) (len : ℕ) (jobs : Jobs) (h : Heap) : Heap :=
  forUpTo len (fun i h => (ctxToBuffer h (rxBufs i) (jobs i)).1) h

/-- What the server keeps between two passes: the client of the devices, and `_pool_vecs`. -/
structure Server where
  cl : Client
  poolVecs : ℕ → Jobs

/-- An operation of zero bytes. -/
def CryptoOperation.zero : CryptoOperation :=
  ⟨⟨0, 0, 0, 0, 0, 0, 0, 0, 0, 0⟩, ⟨0, fun _ => ⟨0, null⟩⟩, ⟨0, null⟩, ⟨0, null⟩⟩

/-- The server after `init`. -/
def Server.init : Server := ⟨Client.init, fun _ _ => .zero⟩

/-- The call of `run_jobs` that `on_recv_cb` makes: the registered callback hands the decoded jobs
on as they are.  (It skips the call if there are none; `run_jobs` then does nothing either.) -/
def Server.recvCall (s : Server) (connId : ℕ) (rxBufs : ℕ → Ptr) (len : ℕ) (script : Script)
    (h : Heap) : BurstCall where
  ch := connId
  script := script
  heap := (decodeLoop rxBufs len (h, s.poolVecs connId)).1
  jobs := (decodeLoop rxBufs len (h, s.poolVecs connId)).2
  size := len

/-- `on_recv_cb` of the server. -/
def onRecvCb (cfg : Config) (connId : ℕ) (rxBufs : ℕ → Ptr) (len : ℕ) (script : Script) (h : Heap)
    (s : Server) : Option (Server × Heap) :=
  ((s.recvCall connId rxBufs len script h).run cfg s.cl).map fun r =>
    (⟨r.cl, Function.update s.poolVecs connId r.jobs⟩, encodeLoop rxBufs len r.jobs r.heap)

/-- A batch of requests of a connection: the request slots `rx i`, the response slots `tx i` that
were allocated for them, and the memory and the environment the pass meets. -/
structure Batch where
  connId : ℕ
  rx : ℕ → ℕ
  tx : ℕ → ℕ
  len : ℕ
  script : Script
  heap : Heap

namespace Batch

def rxBufs (b : Batch) (i : ℕ) : Ptr := ⟨.req (b.rx i), 0⟩

def txBufs (b : Batch) (i : ℕ) : Ptr := ⟨.resp (b.tx i), 0⟩

/-- The copy loop and the callback. -/
def handle (b : Batch) (cfg : Config) (s : Server) : Option (Server × Heap) :=
  onRecvCb cfg b.connId b.txBufs b.len b.script (copyLoop b.rxBufs b.txBufs b.len b.heap) s

/-- The call of `run_jobs` a pass makes. -/
def call (b : Batch) (s : Server) : BurstCall :=
  s.recvCall b.connId b.txBufs b.len b.script (copyLoop b.rxBufs b.txBufs b.len b.heap)

/-- The context request `i` carries. -/
def context (b : Batch) (i : ℕ) : CryptoOperationContext := loadContext b.heap (b.rxBufs i)

/-- The lengths request `i` carries. -/
def lengths (b : Batch) (i : ℕ) : DataLengths :=
  loadLengths b.heap ((b.rxBufs i).add sizeofContext)

/-- At most 64 requests of one of the connections, each with a response slot of its own. -/
structure Valid (b : Batch) : Prop where
  connId : b.connId < maxChannelNum
  len : b.len ≤ maxJobsBurstSize
  tx : ∀ i < b.len, ∀ k < b.len, b.tx i = b.tx k → i = k

/-- **The requests stay in their areas**: payload, key and IV end inside the slot, and the IV of a
request that can be submitted fits the IV area of an operation. -/
structure InArea (b : Batch) : Prop extends b.Valid where
  payload : ∀ i < b.len, payloadOff + (b.lengths i).ciphertextLength.toNat ≤ slotSize
  keyIv : ∀ i < b.len,
    keyOff + (b.lengths i).cipherKeyLength.toNat + (b.lengths i).cipherIvLength.toNat ≤ slotSize
  iv : ∀ i < b.len, (b.context i).opType = cryptoOpTypeSessCiphering →
    (b.context i).opStatus ≠ cryptoOpStatusFailed →
      (b.lengths i).cipherIvLength.toNat ≤ cipherIvLength

end Batch

/-- **One step of the server**: a batch whose requests stay in their areas, whatever else they say,
or the cleanup of a connection. -/
inductive ServerStep (cfg : Config) (s : Server) : Server → Prop
  | batch (b : Batch) (s' : Server) (h' : Heap) (hb : b.InArea)
      (hrun : b.handle cfg s = some (s', h')) : ServerStep cfg s s'
  | cleanup (ch : ℕ) (ans : ℕ → ℕ → ReleaseAns) (hch : ch < maxChannelNum) :
      ServerStep cfg s { s with cl := cleanupConn cfg ch ans s.cl }

/-- The states the server can reach by batches whose requests stay in their areas, and by
cleanups. -/
def ServerReachable (cfg : Config) (s : Server) : Prop :=
  ReflTransGen (ServerStep cfg) Server.init s

/-! ## The loops -/

lemma mem_copyBufferToBuffer_of_ne (h : Heap) (p q : Ptr) {r : Region} (hr : r ≠ q.region) :
    (copyBufferToBuffer h p q).mem r = h.mem r := by
  have hadd : ∀ n, r ≠ (q.add n).region := fun _ => hr
  unfold copyBufferToBuffer
  simp only
  rw [(frame_copyArea _ _ _ _).mem_of_ne (hadd _), (frame_copyArea _ _ _ _).mem_of_ne (hadd _),
    (frame_copyArea _ _ _ _).mem_of_ne (hadd _), (frame_storeLengths _ _ _).mem_of_ne (hadd _),
    mem_touchLengths, (frame_storeContext _ _ _).mem_of_ne hr, mem_touchContext]

section Loops

variable {b : Batch}

/-- **The copy loop** gives each response slot the front of its request. -/
lemma Batch.front_copyLoop (hb : b.Valid) {i : ℕ} (hi : i < b.len) :
    loadContext (copyLoop b.rxBufs b.txBufs b.len b.heap) (b.txBufs i) = b.context i ∧
      loadLengths (copyLoop b.rxBufs b.txBufs b.len b.heap) ((b.txBufs i).add sizeofContext) =
        b.lengths i := by
  -- invariant: the requests are as they were, and the slots filled so far have their fronts
  have hinv := forUpTo_induct (n := b.len) (s := b.heap)
    (f := fun i h => copyBufferToBuffer h (b.rxBufs i) (b.txBufs i))
    (P := fun n h => (∀ k, h.mem (.req k) = b.heap.mem (.req k)) ∧ ∀ k < n, k < b.len →
      loadContext h (b.txBufs k) = b.context k ∧
        loadLengths h ((b.txBufs k).add sizeofContext) = b.lengths k)
    ⟨fun _ => rfl, fun k hk => by omega⟩ ?_
  · exact hinv.2 i hi hi
  · rintro n h hn ⟨hreq, hdone⟩
    refine ⟨fun k => ?_, fun k hk hkb => ?_⟩
    · rw [mem_copyBufferToBuffer_of_ne h _ _ (by simp [txBufs]), hreq]
    · rcases Nat.lt_succ_iff_lt_or_eq.mp hk with hlt | rfl
      · -- another slot is filled
        have hne : (b.txBufs k).region ≠ (b.txBufs n).region := by
          intro he
          have := hb.tx k hkb n hn (by simpa [txBufs] using he)
          omega
        have hmem := mem_copyBufferToBuffer_of_ne h (b.rxBufs n) (b.txBufs n) hne
        obtain ⟨hc, hl⟩ := hdone k hlt hkb
        obtain ⟨hc', hl'⟩ := front_of_mem_eq hmem
        exact ⟨hc'.trans hc, hl'.trans hl⟩
      · obtain ⟨hc, hl⟩ := front_copyBufferToBuffer h (p := b.rxBufs k) (q := b.txBufs k)
          (by simp [rxBufs, txBufs])
        have hrx : h.mem (b.rxBufs k).region = b.heap.mem (b.rxBufs k).region := hreq (b.rx k)
        obtain ⟨hc', hl'⟩ := front_of_mem_eq hrx
        exact ⟨hc.trans hc', hl.trans hl'⟩

lemma grows_copyBufferToBuffer (h : Heap) {p q : Ptr} (hpq : p.region ≠ q.region) :
    h.Grows (copyBufferToBuffer h p q) fun a => a.ptr.region = q.region := by
  have harea : ∀ (o : ℕ) (n : UInt32), ∀ a ∈ areaAccesses (q.add o) (p.add o) n,
      a.kind = .store → a.ptr.region = q.region := by
    intro o n a ha hk
    unfold areaAccesses at ha
    split_ifs at ha
    · simp only [List.mem_cons, List.not_mem_nil, or_false] at ha
      rcases ha with rfl | rfl
      · cases hk
      · rfl
    · simp at ha
  have hlog := log_copyBufferToBuffer h hpq
  simp only [List.append_assoc] at hlog
  refine .of_append hlog fun a ha hk => ?_
  simp only [List.mem_append] at ha
  rcases ha with ha | ha | ha | ha
  · simp only [frontAccesses, List.mem_append, List.mem_map] at ha
    rcases ha with ((⟨f, -, rfl⟩ | ⟨f, -, rfl⟩) | ⟨o, -, rfl⟩) | ⟨o, -, rfl⟩
    · cases hk
    · rfl
    · cases hk
    · rfl
  · exact harea _ _ a ha hk
  · exact harea _ _ a ha hk
  · exact harea _ _ a ha hk

lemma Batch.grows_copyLoop (b : Batch) :
    b.heap.Grows (copyLoop b.rxBufs b.txBufs b.len b.heap) fun a => a.ptr.region ≠ .user := by
  refine forUpTo_induct (P := fun _ h => b.heap.Grows h _) (.refl _ _) fun i h _ ih => ?_
  refine ih.trans ((grows_copyBufferToBuffer h (by simp [rxBufs, txBufs])).mono fun a ha => ?_)
  simp [ha, txBufs]

lemma Batch.grows_encodeLoop (b : Batch) (jobs : Jobs) (h : Heap) :
    h.Grows (encodeLoop b.txBufs b.len jobs h) fun a => a.ptr.region ≠ .user := by
  refine forUpTo_induct (P := fun _ t => h.Grows t _) (.refl _ _) fun i t _ ih => ?_
  refine ih.trans (.of_append (log_storeContext t (b.txBufs i) (jobs i).op) fun a ha _ => ?_)
  obtain ⟨f, -, rfl⟩ := List.mem_map.mp ha
  simp [txBufs]

/-- The store of the decoder for a message with context `c` and `n` bytes of payload. -/
def outStore (c : CryptoOperationContext) (n : UInt32) : Access Region :=
  ⟨.store, ⟨.user, c.outbuffPtr.toNat⟩, n.toNat⟩

/-- The decoder stores if and only if it copies a payload out. -/
lemma grows_cryptoJobFromBuffer (h : Heap) (p : Ptr) (vec : CryptoOperation) :
    (h.Grows (cryptoJobFromBuffer h p vec).2 fun a =>
      CopiesOut (loadContext h p) (loadLengths h (p.add sizeofContext)).ciphertextLength ∧
        a = outStore (loadContext h p)
          (loadLengths h (p.add sizeofContext)).ciphertextLength) ∧
    (CopiesOut (loadContext h p) (loadLengths h (p.add sizeofContext)).ciphertextLength →
      outStore (loadContext h p) (loadLengths h (p.add sizeofContext)).ciphertextLength ∈
        (cryptoJobFromBuffer h p vec).2.log) := by
  have hd : loadLengths (touchContext h p) (p.add sizeofContext) =
      loadLengths h (p.add sizeofContext) :=
    loadLengths_congr fun i _ => by rw [mem_touchContext]
  -- reading the context and the lengths is no store
  have hload : h.Grows (touchLengths (touchContext h p) (p.add sizeofContext)) fun _ => False := by
    have hlog := log_touchLengths (touchContext h p) (p.add sizeofContext)
    rw [log_touchContext, List.append_assoc] at hlog
    refine .of_append hlog fun a ha hk => ?_
    rcases List.mem_append.mp ha with ha | ha
    · obtain ⟨f, -, rfl⟩ := List.mem_map.mp ha
      cases hk
    · simp only [List.mem_cons, List.not_mem_nil, or_false] at ha
      rcases ha with rfl | rfl | rfl <;> cases hk
  simp only [cryptoJobFromBuffer, hd]
  split_ifs with hout
  · refine ⟨(hload.mono fun _ => False.elim).trans (.of_append (Heap.log_memcpy _ _ _ _) ?_),
      fun _ => by simp [outStore]⟩
    intro a ha hk
    simp only [List.mem_cons, List.not_mem_nil, or_false] at ha
    rcases ha with rfl | rfl
    · cases hk
    · exact ⟨hout, rfl⟩
  · exact ⟨hload.mono fun _ => False.elim, fun h => absurd h hout⟩

/-- What the decode loop has done after `n` rounds: the slots are as they were, each job is a view
of its slot, and the stores are those of the messages that are copied out. -/
structure Decoded (bufs : ℕ → Ptr) (h : Heap) (n : ℕ) (s : Heap × Jobs) : Prop where
  mem : ∀ r ≠ .user, s.1.mem r = h.mem r
  views : ∀ i < n, Views (s.2 i) (bufs i) (loadContext h (bufs i))
    (loadLengths h ((bufs i).add sizeofContext))
  grows : h.Grows s.1 fun a => ∃ i < n,
    CopiesOut (loadContext h (bufs i))
        (loadLengths h ((bufs i).add sizeofContext)).ciphertextLength ∧
      a = outStore (loadContext h (bufs i))
        (loadLengths h ((bufs i).add sizeofContext)).ciphertextLength
  copied : ∀ i < n, CopiesOut (loadContext h (bufs i))
      (loadLengths h ((bufs i).add sizeofContext)).ciphertextLength →
    outStore (loadContext h (bufs i))
      (loadLengths h ((bufs i).add sizeofContext)).ciphertextLength ∈ s.1.log

/-- **The decode loop**, on slots that are not the memory of the process. -/
lemma decoded_decodeLoop {bufs : ℕ → Ptr} (hbufs : ∀ i, (bufs i).region ≠ .user) (h : Heap)
    (jobs : Jobs) (n : ℕ) : Decoded bufs h n (decodeLoop bufs n (h, jobs)) := by
  refine forUpTo_induct (P := Decoded bufs h)
    ⟨fun _ _ => rfl, by omega, .refl _ _, by omega⟩ fun k t _ ih => ?_
  have hmem := ih.mem _ (hbufs k)
  -- the fronts of the slots are read as they were before the loop
  obtain ⟨hc, hl⟩ := front_of_mem_eq hmem
  have hv := views_cryptoJobFromBuffer t.1 (bufs k) (t.2 k)
  obtain ⟨hg, hcopy⟩ := grows_cryptoJobFromBuffer t.1 (bufs k) (t.2 k)
  rw [hc, hl] at hv hg hcopy
  refine ⟨fun r hr => ?_, fun i hi => ?_, ?_, fun i hi hout => ?_⟩
  · exact (mem_cryptoJobFromBuffer _ _ (t.2 k) hr).trans (ih.mem r hr)
  · rcases Nat.lt_succ_iff_lt_or_eq.mp hi with hlt | rfl
    · simpa only [Function.update_of_ne hlt.ne] using ih.views i hlt
    · simpa only [Function.update_self] using hv
  · refine (ih.grows.mono ?_).trans (hg.mono fun a ha => ⟨k, by omega, ha⟩)
    rintro a ⟨i, hi, ha⟩
    exact ⟨i, by omega, ha⟩
  · rcases Nat.lt_succ_iff_lt_or_eq.mp hi with hlt | rfl
    · exact hg.kept _ (ih.copied i hlt hout)
    · exact hcopy hout

end Loops

/-! ## The stores of a pass -/

section Stores

variable {cfg : Config} {s s' : Server} {b : Batch} {h' : Heap}

lemma Batch.handle_of_run {r : Run} (h : (b.call s).run cfg s.cl = some r) :
    b.handle cfg s = some (⟨r.cl, Function.update s.poolVecs b.connId r.jobs⟩,
      encodeLoop b.txBufs b.len r.jobs r.heap) := by
  rw [Batch.handle, onRecvCb]
  exact congrArg (Option.map _) h

lemma Batch.handle_eq_some (hrun : b.handle cfg s = some (s', h')) :
    ∃ r, (b.call s).run cfg s.cl = some r ∧
      s' = ⟨r.cl, Function.update s.poolVecs b.connId r.jobs⟩ ∧
      h' = encodeLoop b.txBufs b.len r.jobs r.heap := by
  obtain ⟨r, hr, he⟩ := Option.map_eq_some_iff.mp hrun
  obtain ⟨rfl, rfl⟩ := Prod.mk.inj he
  exact ⟨r, hr, rfl, rfl⟩

lemma Batch.decoded (b : Batch) (s : Server) :
    Decoded b.txBufs (copyLoop b.rxBufs b.txBufs b.len b.heap) b.len
      ((b.call s).heap, (b.call s).jobs) :=
  decoded_decodeLoop (by simp [txBufs]) _ _ _

/-- **The jobs the server hands on do not share buffers**: each is a view of its own slot. -/
theorem Batch.ownBuffers (hb : b.Valid) (s : Server) : (b.call s).OwnBuffers := by
  intro i hi k hk hik
  have hvi := (b.decoded s).views i hi
  have hvk := (b.decoded s).views k hk
  have hslot : ∀ p q, (b.txBufs i).add p ≠ (b.txBufs k).add q := by
    intro p q h
    exact hik (hb.tx i hi k hk (Region.resp.inj (congrArg Ptr.region h)))
  refine ⟨fun p _ q _ => ?_, fun p _ q _ => ?_, fun p _ q _ => ?_⟩
  · rw [CryptoOperation.payload, CryptoOperation.payload, hvi.payload, hvk.payload,
      Ptr.add_add, Ptr.add_add]
    exact hslot _ _
  · rw [CryptoOperation.payload, hvi.payload, hvk.iv, Ptr.add_add, Ptr.add_add]
    exact hslot _ _
  · rw [CryptoOperation.payload, hvi.payload, hvk.key, Ptr.add_add, Ptr.add_add]
    exact hslot _ _

/-- What the devices hold points into the rings. -/
abbrev Server.InRings (s : Server) : Prop := InFlight (fun p => p.region ≠ .user) s.cl

lemma Batch.writes (hs : s.InRings) (hb : b.Valid) {r : Run}
    (hr : (b.call s).run cfg s.cl = some r) :
    WritesIn (fun p => p.region ≠ .user) (b.call s) r := by
  refine run_writes hb.len (fun j hj => ?_) hs hr
  rw [((b.decoded s).views j hj).payload]
  simp [txBufs]

/-- **What the devices hold points into the rings**, in every state the server reaches. -/
theorem ServerReachable.inRings (h : ServerReachable cfg s) : s.InRings := by
  induction h with
  | refl =>
      intro dev e he
      exact absurd he List.not_mem_nil
  | tail _ hstep ih =>
      cases hstep with
      | batch b _ h' hb hrun =>
          obtain ⟨r, hr, rfl, -⟩ := Batch.handle_eq_some hrun
          exact (Batch.writes ih hb.toValid hr).inFlight
      | cleanup ch ans _ => exact cleanupConn_inFlight _ ch ans ih

/-- **The stores of a pass** outside the rings are those of the decoder. -/
lemma Batch.stores (hs : s.InRings) (hb : b.Valid) (hrun : b.handle cfg s = some (s', h')) :
    (b.heap.Grows h' fun a => a.ptr.region ≠ .user ∨
      ∃ i < b.len, CopiesOut (b.context i) (b.lengths i).ciphertextLength ∧
        a = outStore (b.context i) (b.lengths i).ciphertextLength) ∧
    ∀ i < b.len, CopiesOut (b.context i) (b.lengths i).ciphertextLength →
      outStore (b.context i) (b.lengths i).ciphertextLength ∈ h'.log := by
  obtain ⟨r, hr, -, rfl⟩ := Batch.handle_eq_some hrun
  have hdec := b.decoded s
  have hw := Batch.writes hs hb hr
  have hdev : (b.call s).heap.Grows r.heap fun a => a.ptr.region ≠ .user :=
    ⟨hw.kept, fun a ha _ => (hw.log a ha).imp_right And.right⟩
  have henc := b.grows_encodeLoop r.jobs r.heap
  constructor
  · refine ((b.grows_copyLoop.mono fun _ => .inl).trans (hdec.grows.mono ?_)).trans
      ((hdev.trans henc).mono fun _ => .inl)
    rintro a ⟨i, hi, ha⟩
    obtain ⟨hc, hl⟩ := Batch.front_copyLoop hb hi
    rw [hc, hl] at ha
    exact .inr ⟨i, hi, ha⟩
  · intro i hi hout
    obtain ⟨hc, hl⟩ := Batch.front_copyLoop hb hi
    have hmem := hdec.copied i hi
    rw [hc, hl] at hmem
    exact henc.kept _ (hdev.kept _ (hmem hout))

end Stores

/-! ## The answers of a pass -/

section Answers

variable {cfg : Config} {s s' : Server} {b : Batch} {h' : Heap}

lemma answers_outputRule (c : CryptoOperationContext) (len : UInt32) :
    Answers c (outputRule c len) := by
  unfold outputRule
  split_ifs
  · exact ⟨rfl, rfl, rfl, rfl, rfl, rfl, rfl, fun _ => rfl⟩
  · exact ⟨rfl, rfl, rfl, rfl, rfl, rfl, rfl, fun _ => rfl⟩
  · exact .refl c

/-- The context rewrite puts the context of each job into its slot. -/
lemma Batch.loadContext_encodeLoop (hb : b.Valid) (jobs : Jobs) (h : Heap) {i : ℕ}
    (hi : i < b.len) :
    loadContext (encodeLoop b.txBufs b.len jobs h) (b.txBufs i) = (jobs i).op := by
  refine forUpTo_induct (n := b.len) (s := h)
    (f := fun i h => (ctxToBuffer h (b.txBufs i) (jobs i)).1)
    (P := fun n h => ∀ k < n, k < b.len → loadContext h (b.txBufs k) = (jobs k).op)
    (fun k hk => by omega) (fun n h hn ih k hk hkb => ?_) i hi hi
  rcases Nat.lt_succ_iff_lt_or_eq.mp hk with hlt | rfl
  · have hne : (b.txBufs k).region ≠ (b.txBufs n).region := by
      intro he
      have := hb.tx k hkb n hn (by simpa [txBufs] using he)
      omega
    rw [← ih k hlt hkb]
    exact loadContext_congr fun j _ =>
      congrFun ((frame_storeContext h (b.txBufs n) (jobs n).op).mem_of_ne hne) _
  · exact loadContext_storeContext h (b.txBufs k) (jobs k).op

/-- **Each response answers its own request**, whatever the requests say and the devices do. -/
theorem Batch.handle_answers (hb : b.Valid) (hrun : b.handle cfg s = some (s', h')) {i : ℕ}
    (hi : i < b.len) : Answers (b.context i) (loadContext h' (b.txBufs i)) := by
  obtain ⟨r, hr, -, rfl⟩ := Batch.handle_eq_some hrun
  rw [Batch.loadContext_encodeLoop hb r.jobs r.heap hi]
  refine Answers.trans ?_ (run_answers hb.len hr i)
  rw [((b.decoded s).views i hi).context, (Batch.front_copyLoop hb hi).1]
  exact answers_outputRule _ _

end Answers

/-! ## The pointer of a client -/

/-- The pass whose memory ends as `h'` made no store at the address a request carries in
`outbuff_ptr`. -/
def Batch.SparesPointers (b : Batch) (h' : Heap) : Prop :=
  ∀ i < b.len, ∀ a ∈ h'.log, a.kind = .store →
    ¬a.Covers ⟨.user, (b.context i).outbuffPtr.toNat⟩

/-- **When the server writes through a pointer of a client**: when a request arrives as a
`CIPHERING` operation that has succeeded, with a payload that is not empty and fits its output
buffer.  As long as the requests stay in their areas, nothing else a client can say makes it do so,
in any state the server can reach and whatever the devices do. -/
theorem client_pointer_iff (cfg : Config) (s s' : Server) (b : Batch) (h' : Heap)
    (hs : ServerReachable cfg s) (hb : b.InArea) (hlog : b.heap.log = [])
    (hrun : b.handle cfg s = some (s', h')) :
    b.SparesPointers h' ↔
      ∀ i < b.len, ¬((b.context i).opType = cryptoOpTypeSessCiphering ∧
        (b.context i).opStatus = cryptoOpStatusSucc ∧ (b.context i).outbuffPtr ≠ 0 ∧
        (b.lengths i).ciphertextLength ≤ (b.context i).outbuffLen ∧
        (b.lengths i).ciphertextLength ≠ 0) := by
  obtain ⟨hnew, hout⟩ := Batch.stores hs.inRings hb.toValid hrun
  constructor
  · rintro h i hi ⟨htype, hstatus, hptr, hfit, hlen⟩
    refine h i hi _ (hout i hi ⟨htype, hstatus, hptr, hfit⟩) rfl ⟨rfl, le_rfl, ?_⟩
    have : (b.lengths i).ciphertextLength.toNat ≠ 0 := fun h0 => hlen (UInt32.toNat_inj.mp h0)
    simp only [outStore]
    omega
  · rintro h i hi a ha hstore ⟨hreg, hle, hlt⟩
    rcases hnew.new a ha hstore with ha | hring | ⟨k, hk, ⟨htype, hstatus, hptr, hfit⟩, rfl⟩
    · rw [hlog] at ha
      exact absurd ha List.not_mem_nil
    · exact hring hreg
    · -- a store of the decoder that covers a byte has a length
      refine h k hk ⟨htype, hstatus, hptr, hfit, fun h0 => ?_⟩
      simp only [outStore, h0, UInt32.toNat_zero] at hle hlt
      omega

/-- An operation of a client with 16 bytes of payload and room for 16 bytes of output. -/
def clientOperation (opStatus : UInt32) : CryptoOperation where
  op := ⟨opStatus, 0, 4096, 16, 0, cryptoOpTypeSessCiphering, 0, cryptoCipherAesCtr,
    cryptoCipherOpEncrypt, 0⟩
  cipherBuffList := ⟨1, fun _ => ⟨16, ⟨.user, 64⟩⟩⟩
  cipherKey := ⟨0, null⟩
  cipherIv := ⟨16, ⟨.user, 80⟩⟩

/-- The batch of one request, as the encoder of the client writes it into an empty slot. -/
def batchOf (vec : CryptoOperation) : Batch where
  connId := 0
  rx := id
  tx := id
  len := 1
  script := ⟨fun _ => ⟨none, true, ⟨true, true⟩⟩, fun _ => ⟨[], []⟩⟩
  heap := (cryptoJobToBuffer ⟨fun _ _ => 0, []⟩ ⟨.req 0, 0⟩ vec).1.fresh

lemma batchOf_valid (vec : CryptoOperation) : (batchOf vec).Valid where
  connId := by simp [batchOf, maxChannelNum]
  len := by simp [batchOf, maxJobsBurstSize]
  tx := fun _ _ _ _ h => h

/-- The requests of a client with an IV of 16 bytes and no key stay in their areas. -/
lemma batchOf_clientOperation_inArea {opStatus : UInt32}
    (h : (batchOf (clientOperation opStatus)).lengths 0 = ⟨16, 0, 16⟩) :
    (batchOf (clientOperation opStatus)).InArea where
  toValid := batchOf_valid _
  payload := fun i hi => by
    obtain rfl : i = 0 := Nat.lt_one_iff.mp hi
    rw [h]
    decide
  keyIv := fun i hi => by
    obtain rfl : i = 0 := Nat.lt_one_iff.mp hi
    rw [h]
    decide
  iv := fun i hi _ _ => by
    obtain rfl : i = 0 := Nat.lt_one_iff.mp hi
    rw [h]
    decide

/-- A new operation is no such request. -/
theorem client_pointer_new_operation :
    ∃ s' h', (batchOf (clientOperation cryptoOpStatusNotProcessed)).handle (sampleConfig 0 1)
        Server.init = some (s', h') ∧
      (batchOf (clientOperation cryptoOpStatusNotProcessed)).SparesPointers h' := by
  obtain ⟨s', h', hrun⟩ : ∃ s' h', (batchOf (clientOperation cryptoOpStatusNotProcessed)).handle
      (sampleConfig 0 1) Server.init = some (s', h') := ⟨_, _, rfl⟩
  refine ⟨s', h', hrun, (client_pointer_iff _ _ _ _ _ .refl
    (batchOf_clientOperation_inArea (by decide)) rfl hrun).mpr ?_⟩
  decide

/-- **A store through a pointer of a client.**  The operation is submitted once more after it has
succeeded; the server stores 16 bytes at its `outbuff_ptr`. -/
theorem server_stores_at_outbuff :
    ServerReachable (sampleConfig 0 1) Server.init ∧
    (batchOf (clientOperation cryptoOpStatusSucc)).InArea ∧
    ∃ s' h', (batchOf (clientOperation cryptoOpStatusSucc)).handle (sampleConfig 0 1)
        Server.init = some (s', h') ∧
      ⟨.store, ⟨.user, 4096⟩, 16⟩ ∈ h'.log ∧
      ¬(batchOf (clientOperation cryptoOpStatusSucc)).SparesPointers h' := by
  obtain ⟨s', h', hrun, hstore⟩ : ∃ s' h', (batchOf (clientOperation cryptoOpStatusSucc)).handle
      (sampleConfig 0 1) Server.init = some (s', h') ∧
        ⟨.store, ⟨.user, 4096⟩, 16⟩ ∈ h'.log := ⟨_, _, rfl, by decide⟩
  refine ⟨.refl, batchOf_clientOperation_inArea (by decide), s', h', hrun, hstore, fun h => ?_⟩
  exact h 0 (by decide) _ hstore rfl ⟨rfl, by decide, by decide⟩

end CiphApp
