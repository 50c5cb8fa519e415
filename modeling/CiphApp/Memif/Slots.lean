import CiphApp.Memif.Ordering

/-!
# The slots of a connection in one memory

`Link` gives each message its slot for itself.  In the shared region of a connection the slots are
16384 consecutive bytes each: those of request ring 0, then those of request ring 1, then the
response rings.  `crypto_job_to_buffer` compares the payload with the size of its area, and key and
IV with nothing.  Where they end behind the slot, the encoder writes on into the next one, and if a
request is waiting there, its bytes are no longer those that were sent.

Here the request rings of a connection share one memory.  The ring under consideration is a `Link`
whose messages show what their slots hold *now* (`Link.reread`); the other ring only matters for
what it writes.  The `k`-th packet of ring `q` has slot `k % 1024` of that ring.  The response slots
stay private to their messages; that the server does not leave them is a result, not an assumption
(`slots_contained`).

An operation fits its slot (`FitsSlot`) if the encoder rejects it, or its payload fits the payload
area and key and IV end inside the slot.  This file says what the write of such an operation does:
its slot holds it afterwards (`holds_putSlot`), and every other slot is as it was
(`sameSlot_putSlot`); then the same for a round of `send`.  `Memif.SlotOrder` draws the conclusions.
-/

namespace CiphApp

open Lib Relation

/-! ## Slots -/

/-- Slot `k` of the shared region. -/
def slotAt (mem : ℕ → UInt8) (k : ℕ) : Slot := fun a => mem (slotSize * k + a)

/-- The three lengths in a slot. -/
def Slot.lengths (c : Slot) : DataLengths := loadLengths ⟨fun _ => c, []⟩ ⟨.user, sizeofContext⟩

/-- **The slot holds the request** with context `op`: a response to what is in the slot answers it,
and payload, key and IV end inside the slot. -/
structure Slot.Holds (c : Slot) (op : CryptoOperationContext) : Prop where
  answers : Answers op c.context
  payload : payloadOff + c.lengths.ciphertextLength.toNat ≤ slotSize
  keyIv : keyOff + c.lengths.cipherKeyLength.toNat + c.lengths.cipherIvLength.toNat ≤ slotSize

/-- The slot of the `n`-th packet of request ring `q`. -/
def slotIndex (q n : ℕ) : ℕ := q * ringSize + n % ringSize

/-- What a client sees: the shared region, here region `req 0`, and memory of its own. -/
def clientHeap (mem : ℕ → UInt8) (user : Heap) : Heap :=
  ⟨fun r => if r = .req 0 then mem else user.mem r, []⟩

/-- The shared region after `crypto_job_to_buffer` was called for slot `k`. -/
def putSlot (mem : ℕ → UInt8) (user : Heap) (k : ℕ) (vec : CryptoOperation) : ℕ → UInt8 :=
  (cryptoJobToBuffer (clientHeap mem user) ⟨.req 0, slotSize * k⟩ vec).1.mem (.req 0)

/-- **The operation fits its slot**: the encoder rejects it, or the payload fits the payload area
and key and IV end inside the slot.  The encoder itself checks the 32-bit sum of the payload lengths
and nothing else. -/
def CryptoOperation.FitsSlot (vec : CryptoOperation) : Prop :=
  Oversize vec.cipherBuffList ∨ (vec.cipherBuffList.total ≤ buffSize ∧
    keyOff + vec.cipherKey.length.toNat + vec.cipherIv.length.toNat ≤ slotSize)

instance (vec : CryptoOperation) : Decidable vec.FitsSlot :=
  inferInstanceAs (Decidable (_ ∨ _ ∧ _))

/-- The shared region after the packets from the `n`-th on of ring `q` were written for these
indices of a burst. -/
def Sending.writeRound (s : Sending) (users : ℕ → Heap) (q : ℕ) :
    ℕ → List ℕ → (ℕ → UInt8) → ℕ → UInt8
  | _, [], mem => mem
  | n, ind :: inds, mem =>
      s.writeRound users q (n + 1) inds
        (if ind < s.size then putSlot mem (users n) (slotIndex q n) (s.vecs ind) else mem)

/-! ## A ring over the shared memory -/

/-- Messages with the bytes their slots hold; the last one is packet `n - 1`, and `slot k` is the
slot of packet `k`. -/
def reread (slot : ℕ → Slot) (n : ℕ) : List Message → List Message
  | [] => []
  | m :: ms => ⟨m.id, slot (n - 1 - ms.length)⟩ :: reread slot n ms

namespace Link

/-- The requests the server has received and not yet copied. -/
def received (l : Link) : List Message :=
  match l.serverPoll with
  | .received rx => rx
  | _ => []

/-- The requests whose slots are still to be read, oldest first. -/
def pending (l : Link) : List Message := l.received ++ l.c2s.queue

/-- The pair with the pending requests as their slots are now, after `n` packets. -/
def reread (l : Link) (slot : ℕ → Slot) (n : ℕ) : Link :=
  { l with
    c2s := { l.c2s with queue := CiphApp.reread slot n l.c2s.queue }
    serverPoll := match l.serverPoll with
      | .received rx => .received (CiphApp.reread slot (n - l.c2s.queue.length) rx)
      | p => p }

/-- A round of `send` puts `tx` packets into the ring. -/
def put (l : Link) (s : Sending) (tx : ℕ) (users : ℕ → Heap) : Link :=
  { l with
    c2s := l.c2s.tx (s.messages tx users)
    sending := some { s with count := s.count - tx, ind := s.ind + UInt16.ofNat tx } }

end Link

/-- One queue of a connected pair, the shared region and the number of packets that were put into
each request ring. -/
structure SlotLink where
  link : Link
  mem : ℕ → UInt8
  puts : ℕ → ℕ

/-- The number of request rings of a connection, `num_s2m_rings`. -/
def requestRings : ℕ := 2

/-- The slots of ring `q`, packet by packet. -/
def ringSlot (mem : ℕ → UInt8) (q k : ℕ) : Slot := slotAt mem (slotIndex q k)

/-- A pair that has just been connected; the region may hold anything. -/
def SlotLink.init (mem : ℕ → UInt8) : SlotLink := ⟨.init, mem, fun _ => 0⟩

/-- **One step of queue `q` over the shared region.**  The operations that are serialised meet `ok`.
-/
inductive SlotStep (cfg : Config) (P : Policy) (q : ℕ) (ok : CryptoOperation → Prop)
    (t : SlotLink) : SlotLink → Prop
  /-- A step that puts nothing into the request ring.  Requests are read as they are in memory. -/
  | link (l' : Link) (h : LinkStep cfg P t.link l') (hput : l'.c2s.queue <:+ t.link.c2s.queue) :
      SlotStep cfg P q ok t { t with link := l' }
  /-- A round of `send` is granted `tx` buffers, writes them one after the other and sends them. -/
  | sendRound (s : Sending) (tx : ℕ) (users : ℕ → Heap) (mem' : ℕ → UInt8)
      (hs : t.link.sending = some s) (hcount : s.count ≠ 0)
      (htx : P.grant (min (min maxMemifBufs s.count) t.link.c2s.free) tx)
      (hok : ∀ ind ∈ sendIndices tx s.ind, ind < s.size → ok (s.vecs ind))
      (hmem : mem' = s.writeRound users q (t.puts q) (sendIndices tx s.ind) t.mem) :
      SlotStep cfg P q ok t
        ⟨(t.link.put s tx users).reread (ringSlot mem' q) (t.puts q + tx), mem',
          Function.update t.puts q (t.puts q + tx)⟩
  /-- The client puts a packet into another request ring. -/
  | other (q' : ℕ) (user : Heap) (vec : CryptoOperation) (mem' : ℕ → UInt8) (hne : q' ≠ q)
      (hq' : q' < requestRings) (hok : ok vec)
      (hmem : mem' = putSlot t.mem user (slotIndex q' (t.puts q')) vec) :
      SlotStep cfg P q ok t
        ⟨t.link.reread (ringSlot mem' q) (t.puts q), mem',
          Function.update t.puts q' (t.puts q' + 1)⟩

/-! ## Writes that stay in their slot -/

/-- Slot `k` is the same in both memories. -/
def SameSlot (mem mem' : ℕ → UInt8) (k : ℕ) : Prop :=
  ∀ a < slotSize, mem' (slotSize * k + a) = mem (slotSize * k + a)

lemma SameSlot.trans {mem mem' mem'' : ℕ → UInt8} {k : ℕ} (h : SameSlot mem mem' k)
    (h' : SameSlot mem' mem'' k) : SameSlot mem mem'' k :=
  fun a ha => (h' a ha).trans (h a ha)

lemma SameSlot.holds {mem mem' : ℕ → UInt8} {k : ℕ} (h : SameSlot mem mem' k)
    {op : CryptoOperationContext} (hold : (slotAt mem k).Holds op) : (slotAt mem' k).Holds op := by
  have hl := layout
  have hctx : (slotAt mem' k).context = (slotAt mem k).context :=
    loadContext_congr fun i hi => by
      simp only [Nat.zero_add]
      exact h i (by omega)
  have hlen : (slotAt mem' k).lengths = (slotAt mem k).lengths :=
    loadLengths_congr fun i hi => h (sizeofContext + i) (by omega)
  obtain ⟨hans, hpay, hki⟩ := hold
  rw [← hctx] at hans
  rw [← hlen] at hpay hki
  exact ⟨hans, hpay, hki⟩

/-- **The encoder stays inside the slot** of an operation that fits it. -/
lemma frame_cryptoJobToBuffer (h : Heap) (p : Ptr) {vec : CryptoOperation} (hf : vec.FitsSlot) :
    h.Frame (cryptoJobToBuffer h p vec).1 p.region p.off (p.off + slotSize) := by
  have hl := layout
  by_cases ho : Oversize vec.cipherBuffList
  · rw [cryptoJobToBuffer_oversize h p ho]
    refine (((frame_storeContext h p vec.op).trans (Heap.frame_put32 _ (p.add 0) _)).trans
      (frame_storeLengths _ (p.add sizeofContext) _)).mono ?_ ?_
    · simp only [Ptr.add_off]
      omega
    · simp only [Ptr.add_off]
      omega
  · obtain ⟨hpay, hki⟩ := hf.resolve_left ho
    rw [cryptoJobToBuffer_copied h p ho]
    refine (((((frame_storeContext h p vec.op).trans
      (frame_storeLengths _ (p.add sizeofContext) (lengthsOf vec))).trans
      (frame_copySegments _ (p.add payloadOff) vec.cipherBuffList)).trans
      (frame_putBuff _ (p.add keyOff) vec.cipherKey)).trans
      (frame_putBuff _ (p.add (keyOff + vec.cipherKey.length.toNat)) vec.cipherIv)).mono ?_ ?_
    · simp only [Ptr.add_off]
      omega
    · simp only [Ptr.add_off]
      omega

lemma sameSlot_putSlot (mem : ℕ → UInt8) (user : Heap) {j k : ℕ} (hjk : j ≠ k)
    {vec : CryptoOperation} (hf : vec.FitsSlot) : SameSlot mem (putSlot mem user j vec) k := by
  have hl := layout
  intro a ha
  refine frame_cryptoJobToBuffer (clientHeap mem user) ⟨.req 0, slotSize * j⟩ hf _ _ ?_
  rintro ⟨-, hlo, hhi⟩
  -- the byte would belong to two slots
  simp only at hlo hhi
  rcases Nat.lt_or_gt_of_ne hjk with h | h
  · have := Nat.mul_le_mul_left slotSize (Nat.succ_le_of_lt h)
    rw [Nat.mul_succ] at this
    omega
  · have := Nat.mul_le_mul_left slotSize (Nat.succ_le_of_lt h)
    rw [Nat.mul_succ] at this
    omega

/-- The slot that is written holds the operation. -/
lemma holds_putSlot (mem : ℕ → UInt8) (user : Heap) (k : ℕ) {vec : CryptoOperation}
    (hf : vec.FitsSlot) : (slotAt (putSlot mem user k vec) k).Holds vec.op := by
  have hl := layout
  set p : Ptr := ⟨.req 0, slotSize * k⟩ with hp
  have hctx : (slotAt (putSlot mem user k vec) k).context =
      loadContext (cryptoJobToBuffer (clientHeap mem user) p vec).1 p :=
    loadContext_congr fun i _ => by simp [slotAt, putSlot, hp]
  have hlen : (slotAt (putSlot mem user k vec) k).lengths =
      loadLengths (cryptoJobToBuffer (clientHeap mem user) p vec).1 (p.add sizeofContext) :=
    loadLengths_congr fun i _ => by simp [slotAt, putSlot, hp, Nat.add_assoc]
  rw [loadContext_cryptoJobToBuffer] at hctx
  rw [loadLengths_cryptoJobToBuffer] at hlen
  by_cases ho : Oversize vec.cipherBuffList
  · rw [if_pos ho] at hctx hlen
    exact ⟨hctx ▸ .setStatus vec _, by rw [hlen]; decide, by rw [hlen]; decide⟩
  · obtain ⟨-, hki⟩ := hf.resolve_left ho
    rw [if_neg ho] at hctx hlen
    have hpay : (ciphertextLength vec.cipherBuffList).toNat ≤ buffSize := Nat.le_of_not_lt ho
    refine ⟨hctx ▸ .refl _, ?_, ?_⟩
    · rw [hlen]
      show payloadOff + (ciphertextLength vec.cipherBuffList).toNat ≤ slotSize
      omega
    · rw [hlen]
      exact hki

lemma slotIndex_ne {q m n : ℕ} (hmn : m < n) (hlt : n < m + ringSize) :
    slotIndex q m ≠ slotIndex q n := by
  unfold ringSize at hlt
  unfold slotIndex ringSize
  omega

lemma other_ring_ne {q q' : ℕ} (hne : q' ≠ q) (m n : ℕ) : slotIndex q' m ≠ slotIndex q n := by
  unfold slotIndex ringSize
  omega

section Round

variable {s : Sending} {q : ℕ} {users : ℕ → Heap}

lemma sameSlot_writeRound {k : ℕ} : ∀ (n : ℕ) (inds : List ℕ) (mem : ℕ → UInt8),
    (∀ ind ∈ inds, ind < s.size → (s.vecs ind).FitsSlot) →
    (∀ i < inds.length, slotIndex q (n + i) ≠ k) →
    SameSlot mem (s.writeRound users q n inds mem) k
  | _, [], _, _, _ => fun _ _ => rfl
  | n, ind :: inds, mem, hfit, hne => by
      rw [Sending.writeRound]
      refine SameSlot.trans ?_ (sameSlot_writeRound (n + 1) inds _
        (fun i hi => hfit i (List.mem_cons_of_mem _ hi)) fun i hi => ?_)
      · split_ifs with hlt
        · exact sameSlot_putSlot mem _ (hne 0 (Nat.succ_pos _)) (hfit ind List.mem_cons_self hlt)
        · exact fun _ _ => rfl
      · have := hne (i + 1) (Nat.succ_lt_succ hi)
        rwa [Nat.add_assoc, Nat.add_comm 1 i]

lemma holds_writeRound : ∀ (n : ℕ) (inds : List ℕ) (mem : ℕ → UInt8),
    (∀ ind ∈ inds, ind < s.size → (s.vecs ind).FitsSlot) → inds.length ≤ ringSize →
    ∀ i ind, inds[i]? = some ind → ind < s.size →
      (ringSlot (s.writeRound users q n inds mem) q (n + i)).Holds (s.vecs ind).op
  | _, [], _, _, _, _, _, hi, _ => by simp at hi
  | n, ind :: inds, mem, hfit, hlen, i, ind', hi, hlt => by
      have hfit' : ∀ j ∈ inds, j < s.size → (s.vecs j).FitsSlot :=
        fun j hj => hfit j (List.mem_cons_of_mem _ hj)
      have hlen' : inds.length < ringSize := hlen
      rw [Sending.writeRound]
      cases i with
      | zero =>
          obtain rfl : ind = ind' := by simpa using hi
          rw [if_pos hlt]
          -- the packets behind it have other slots
          exact (sameSlot_writeRound (n + 1) inds _ hfit' fun j hj =>
            (slotIndex_ne (by omega) (by omega)).symm).holds
              (holds_putSlot _ _ _ (hfit ind List.mem_cons_self hlt))
      | succ i =>
          have := holds_writeRound (n + 1) inds
            (if ind < s.size then putSlot mem (users n) (slotIndex q n) (s.vecs ind) else mem)
            hfit' hlen'.le i ind' (by simpa using hi) hlt
          rwa [Nat.add_assoc, Nat.add_comm 1 i] at this

end Round

/-! ## Pending requests -/

section Reread

variable {slot : ℕ → Slot} {n : ℕ}

@[simp] lemma length_reread (ms : List Message) : (reread slot n ms).length = ms.length := by
  induction ms with
  | nil => rfl
  | cons m ms ih => rw [reread, List.length_cons, List.length_cons, ih]

@[simp] lemma ids_reread (ms : List Message) :
    (reread slot n ms).map (·.id) = ms.map (·.id) := by
  induction ms with
  | nil => rfl
  | cons m ms ih => rw [reread, List.map_cons, List.map_cons, ih]

lemma reread_append (ms ms' : List Message) :
    reread slot n (ms ++ ms') = reread slot (n - ms'.length) ms ++ reread slot n ms' := by
  induction ms with
  | nil => rfl
  | cons m ms ih =>
      have hk : n - 1 - (ms ++ ms').length = n - ms'.length - 1 - ms.length := by
        rw [List.length_append]
        omega
      rw [List.cons_append, reread, reread, ih, hk]
      rfl

/-- A message that was read stands where it stood, with what its slot holds. -/
lemma reread_eq_append {ms pre post : List Message} {m : Message}
    (h : reread slot n ms = pre ++ m :: post) :
    ∃ pre₀ m₀ post₀, ms = pre₀ ++ m₀ :: post₀ ∧ post₀.length = post.length ∧
      m = ⟨m₀.id, slot (n - 1 - post.length)⟩ := by
  induction ms generalizing pre with
  | nil => simp [reread] at h
  | cons m₀ ms ih =>
      rw [reread] at h
      cases pre with
      | nil =>
          obtain ⟨hm, hpost⟩ := List.cons.inj h
          have hlen : ms.length = post.length := by rw [← hpost, length_reread]
          exact ⟨[], m₀, ms, rfl, hlen, by rw [← hm, hlen]⟩
      | cons m' pre =>
          obtain ⟨-, htail⟩ := List.cons.inj h
          obtain ⟨pre₀, m₁, post₀, rfl, hlen, hm⟩ := ih htail
          exact ⟨m₀ :: pre₀, m₁, post₀, rfl, hlen, hm⟩

end Reread

section Link

variable {cfg : Config} {P : Policy} {l l' : Link}

lemma Link.pending_reread (l : Link) (slot : ℕ → Slot) (n : ℕ) :
    (l.reread slot n).pending = CiphApp.reread slot n l.pending := by
  unfold pending received Link.reread
  cases l.serverPoll with
  | received rx => exact (reread_append rx l.c2s.queue).symm
  | _ => rfl

lemma Link.pipeline_reread (l : Link) (slot : ℕ → Slot) (n : ℕ) :
    (l.reread slot n).pipeline = l.pipeline := by
  unfold pipeline inHand Link.reread
  cases l.serverPoll <;> simp only [ids_reread]

lemma Link.inRing_reread (l : Link) (slot : ℕ → Slot) (n : ℕ) :
    (l.reread slot n).inRing = l.inRing := by
  unfold inRing incoming outgoing Link.reread
  cases l.serverPoll <;> rfl

/-- The requests that were copied are not read again. -/
lemma Link.mem_reread {slot : ℕ → Slot} {n : ℕ} {m : Message}
    (hm : m ∈ (l.reread slot n).inHand ++ (l.reread slot n).c2s.queue) :
    m ∈ CiphApp.reread slot n l.pending ∨ m ∈ l.inHand := by
  rw [← Link.pending_reread]
  unfold pending received inHand Link.reread at *
  cases hp : l.serverPoll with
  | received rx => exact .inl (by simpa only [hp] using hm)
  | _ =>
      simp only [hp] at hm ⊢
      exact (List.mem_append.mp hm).symm

/-- **Reading the slots again** keeps the invariant if the slots hold what they should. -/
lemma LinkInv.reread (h : LinkInv l) {slot : ℕ → Slot} {n : ℕ}
    (hctx : ∀ m ∈ CiphApp.reread slot n l.pending, Responds l.requests m.id m) :
    LinkInv (l.reread slot n) where
  sending := h.sending
  pipeline := by
    rw [Link.pipeline_reread]
    exact h.pipeline
  contexts := fun m hm => (Link.mem_reread hm).elim (hctx m) fun hm =>
    h.contexts m (List.mem_append_left _ hm)
  responses := by
    rw [Link.inRing_reread]
    exact h.responses

end Link

end CiphApp
