import CiphApp.Libmemif.SharedRing

/-!
# A ring is a bounded channel

Every step of the two processes on a ring is a step of a `Channel`: what the producer sends is
appended to the queue, what the consumer receives is taken from its front, and no more than
`1 << log2_ring_size` packets are on their way or held.  The channel has natural numbers for
counters; the ring has 16-bit indices that wrap, and each side works on an index of the other that
may be out of date.  `Refines` says how the two hang together.

The relation covers the contents of shared memory: the buffers of packets that were sent and not yet
given back hold what was sent.  So a buffer is not written again while it is queued or held.
-/

namespace CiphApp.Libmemif

open Lib

/-! ## The relation -/

/-- The index the consumer publishes when the producer may reserve up to `limit`.  On a ring to the
master it counts what was given back, on one to the slave what was offered. -/
def RingConfig.released (g : RingConfig) (limit : ℕ) : ℕ :=
  match g.type with
  | .s2m => limit - g.size
  | .m2s => limit

/-- On a ring to the master, all buffers are offered from the beginning. -/
def RingConfig.Offered (g : RingConfig) (limit : ℕ) : Prop := g.type = .s2m → g.size ≤ limit

/-- **A ring and the channel it implements.**  The 16-bit indices are the counters of the channel,
cut off; the two indices that a side has read are those of some earlier moment.  Descriptors keep
the buffers they were given, so the buffer of a packet is found from its number alone (`bufferAt`),
and the bytes of a packet stay where they are from the time it is sent until its cell is released.
What the two applications have in hand are the buffers of the cells they have reserved or not
released. -/
structure Refines (g : RingConfig) (s : SharedRing) (c : Channel g.size Packet) : Prop where
  prodIndex : prodIndex g.type s.ring = UInt16.ofNat c.log.length
  consIndex : consIndex g.type s.ring = UInt16.ofNat (g.released c.limit)
  offered : g.Offered c.limit
  txLog2 : s.txQueue.log2RingSize = g.args.log2RingSize
  rxLog2 : s.rxQueue.log2RingSize = g.args.log2RingSize
  allocBufs : s.txQueue.allocBufs.toNat = c.unsent
  curSlot : rxCurSlot g.consumer s.rxQueue = UInt16.ofNat c.received
  /-- What the producer has seen of the consumer. -/
  seenTx : ∃ l, g.Offered l ∧ c.reserved ≤ l ∧ l ≤ c.limit ∧
    s.seenTx = UInt16.ofNat (g.released l)
  /-- What the consumer has seen of the producer. -/
  seenRx : ∃ m, c.received ≤ m ∧ m ≤ c.log.length ∧ s.seenRx = UInt16.ofNat m
  region : ∀ j, (s.ring.desc j).region = 1
  offset : ∀ j, (s.ring.desc j).offset = (initDesc g.args g.type g.index j).offset
  /-- The slave has reset the lengths of what the master may fill. -/
  room : g.type = .m2s → ∀ i, c.log.length ≤ i → i < c.received + g.size →
    (s.ring.desc (i % g.size)).length = g.args.bufferSize.toUInt32
  unsent_length : s.unsent.length = c.unsent
  unsent : ∀ i b, s.unsent[i]? = some b →
    b.descIndex = UInt16.ofNat (c.log.length + i) ∧ b.data = some (g.bufferAt (c.log.length + i))
  /-- The descriptors of the queue have the lengths of the packets. -/
  length : ∀ i x, c.received ≤ i → c.log[i]? = some x →
    (s.ring.desc (i % g.size)).length = x.len
  /-- The buffers that are queued or withheld have the bytes of the packets. -/
  data : ∀ i x, c.limit ≤ i + g.size → c.log[i]? = some x →
    s.shm.bytes (g.bufferAt i) g.bufferSize = x.data
  held_length : s.held.length ≤ c.received ∧ s.held.length ≤ c.withheld
  /-- The master holds all that it withholds. -/
  held_all : g.type = .s2m → s.held.length = c.withheld
  held : ∀ i b, s.held[i]? = some b → ∃ x, c.log[c.received - s.held.length + i]? = some x ∧
    b.len = x.len ∧ b.data = some (g.bufferAt (c.received - s.held.length + i))

/-! ## Indices -/

/-- An entry of a list of buffers to which a call has added `n`. -/
lemma getElem?_append_map_range {α : Type*} {xs : List α} {f : ℕ → α} {n i : ℕ} {b : α}
    (h : (xs ++ (List.range n).map f)[i]? = some b) :
    xs[i]? = some b ∨ ∃ k < n, i = xs.length + k ∧ b = f k := by
  rcases Nat.lt_or_ge i xs.length with hi | hi
  · rw [List.getElem?_append_left hi] at h
    exact .inl h
  · rw [List.getElem?_append_right hi] at h
    obtain ⟨hlt, heq⟩ := List.getElem?_eq_some_iff.mp h
    rw [List.getElem_map, List.getElem_range] at heq
    rw [List.length_map, List.length_range] at hlt
    exact .inr ⟨i - xs.length, hlt, by omega, heq.symm⟩

/-- An entry of the log to which the first `n` of a list were appended. -/
lemma getElem?_append_map_take {α β : Type*} {xs : List α} {ys : List β} {f : β → α} {n i : ℕ}
    {x : α} (h : (xs ++ (ys.take n).map f)[i]? = some x) :
    xs[i]? = some x ∨ ∃ k < n, ∃ b, i = xs.length + k ∧ ys[k]? = some b ∧ x = f b := by
  rcases Nat.lt_or_ge i xs.length with hi | hi
  · rw [List.getElem?_append_left hi] at h
    exact .inl h
  · rw [List.getElem?_append_right hi, List.getElem?_map, Option.map_eq_some_iff] at h
    obtain ⟨b, hb, rfl⟩ := h
    rw [List.getElem?_take] at hb
    by_cases hlt : i - xs.length < n
    · rw [if_pos hlt] at hb
      exact .inr ⟨i - xs.length, hlt, b, by omega, hb, rfl⟩
    · rw [if_neg hlt] at hb
      cases hb

section Index

variable {g : RingConfig} {mq : MemifQueue}

lemma ringSize_eq (h : mq.log2RingSize = g.args.log2RingSize) :
    mq.ringSize = UInt16.ofNat g.size := by
  rw [MemifQueue.ringSize, h]
  rfl

lemma and_mask (h : mq.log2RingSize = g.args.log2RingSize) (i : ℕ) :
    (UInt16.ofNat i &&& mq.mask).toNat = i % g.size := by
  rw [MemifQueue.mask, h]
  exact toNat_ofNat_and_mask (g.log2RingSize_le.trans (by decide)) i

lemma ofNat_add_and_mask (h : mq.log2RingSize = g.args.log2RingSize) (i k : ℕ) :
    ((UInt16.ofNat i + UInt16.ofNat k) &&& mq.mask).toNat = (i + k) % g.size := by
  rw [← UInt16.ofNat_add, and_mask h]

end Index

section Fields

variable {g : RingConfig} {s : SharedRing} {c : Channel g.size Packet}

lemma Refines.memifGetBuffer (h : Refines g s c) {mq : MemifQueue} {ring : MemifRing}
    (hmq : mq.log2RingSize = g.args.log2RingSize) (hdesc : ring.desc = s.ring.desc) (i k : ℕ) :
    memifGetBuffer ring ((UInt16.ofNat i + UInt16.ofNat k) &&& mq.mask) = g.bufferAt (i + k) := by
  rw [Libmemif.memifGetBuffer, ofNat_add_and_mask hmq, hdesc, h.region, h.offset]
  rfl

/-- The offsets are aligned for a side that is the slave. -/
lemma Refines.aligned (h : Refines g s c) {conn : MemifConnection} {ring : MemifRing}
    (hargs : conn.runArgs = g.args) (hdesc : ring.desc = s.ring.desc) : Aligned conn ring := by
  intro j
  rw [hdesc, h.offset, MemifConnection.offsetMask, hargs]
  exact g.initDesc_aligned j

lemma RingConfig.producer_slave (g : RingConfig) (h : g.producer.isMaster = false) :
    g.type = .s2m := by
  rw [g.producer_isMaster, decide_eq_false_iff_not] at h
  cases hty : g.type with
  | s2m => rfl
  | m2s => exact absurd hty h

end Fields

/-! ## The producer -/

section Producer

variable {g : RingConfig} {s : SharedRing} {c : Channel g.size Packet}

lemma Refines.allocSlot (h : Refines g s c) :
    allocSlot g.producer s.txQueue (withConsIndex g.type s.seenTx s.ring) =
      UInt16.ofNat c.reserved := by
  have hsent := c.sent_le
  have hidx := h.prodIndex
  have hown : (if g.producer.isMaster then (withConsIndex g.type s.seenTx s.ring).tail
      else (withConsIndex g.type s.seenTx s.ring).head) = UInt16.ofNat c.log.length := by
    rw [g.producer_isMaster, ← hidx]
    cases g.type <;> rfl
  rw [Libmemif.allocSlot, hown, toUInt16_add, h.allocBufs, Channel.unsent]
  congr 1
  omega

/-- The producer sees the room up to where the consumer was when it looked. -/
lemma Refines.allocNs (h : Refines g s c) {l : ℕ} (hl : g.Offered l) (hle : c.reserved ≤ l)
    (hseen : s.seenTx = UInt16.ofNat (g.released l)) :
    allocNs g.producer s.txQueue (withConsIndex g.type s.seenTx s.ring) =
      UInt16.ofNat (l - c.reserved) := by
  have hsent := c.sent_le
  have hidx := h.prodIndex
  have halloc : c.log.length + s.txQueue.allocBufs.toNat = c.reserved := by
    rw [h.allocBufs, Channel.unsent]
    omega
  rw [Libmemif.allocNs, g.producer_isMaster, hseen]
  cases hty : g.type with
  | s2m =>
      have hoffered := hl hty
      rw [hty] at hidx
      have hhead : s.ring.head = UInt16.ofNat c.log.length := hidx
      have hreleased : g.released l = l - g.size := by rw [RingConfig.released, hty]
      rw [if_neg (by decide), hreleased, ringSize_eq h.txLog2]
      show (_ - (s.ring.head.toUInt32 + _) + (UInt16.ofNat (l - g.size)).toUInt32).toUInt16 = _
      rw [hhead, toUInt16_room (by omega), halloc]
      congr 1
      omega
  | m2s =>
      rw [hty] at hidx
      have htail : s.ring.tail = UInt16.ofNat c.log.length := hidx
      have hreleased : g.released l = l := by rw [RingConfig.released, hty]
      rw [if_pos (by decide), hreleased]
      show ((UInt16.ofNat l).toUInt32 - (s.ring.tail.toUInt32 + _)).toUInt16 = _
      rw [htail, toUInt16_sub (by omega), halloc]

/-- A packet fits the buffer of each slot that can be allocated. -/
lemma Refines.roomAt (h : Refines g s c) {size : UInt16} (hfit : size ≤ g.args.bufferSize) {i : ℕ}
    (hi : c.log.length ≤ i) (hi' : i < c.received + g.size) :
    size ≤ roomAt g.producer (s.ring.desc (i % g.size)) := by
  rw [Libmemif.roomAt]
  by_cases hm : g.producer.isMaster
  · have hty : g.type = .m2s := by simpa [g.producer_isMaster] using hm
    rw [if_pos hm, h.room hty i hi hi', UInt16.toUInt16_toUInt32]
    exact hfit
  · rw [if_neg hm, g.producer_args (g.producer_slave (Bool.eq_false_iff.mpr hm))]
    exact hfit

/-- **Allocation** reserves cells that are free. -/
lemma Refines.alloc (h : Refines g s c) {bufs : ℕ → MemifBuffer} {count size : UInt16}
    {r : AllocResult} (hsize : size ≠ 0) (hfit : size ≤ g.args.bufferSize)
    (hr : r = bufferAlloc g.producer s.txQueue (withConsIndex g.type s.seenTx s.ring) bufs count
      size) :
    ∃ hn : r.countOut.toNat ≤ c.free,
      Refines g
        { s with
          ring := { s.ring with desc := r.ring.desc }
          txQueue := r.mq
          unsent := s.unsent ++ (List.range r.countOut.toNat).map r.bufs }
        (c.reserve r.countOut.toNat hn) := by
  obtain ⟨l, hl, hle, hlim, hseen⟩ := h.seenTx
  have hsize_le := g.size_le
  have hsent := c.sent_le
  have hreceived := c.received_le
  have hlimit := c.limit_le
  have hns : (Libmemif.allocNs g.producer s.txQueue
      (withConsIndex g.type s.seenTx s.ring)).toNat = l - c.reserved := by
    rw [h.allocNs hl hle hseen, UInt16.toNat_ofNat', Nat.mod_eq_of_lt (by omega)]
  obtain ⟨n, hn⟩ : ∃ n, n = min count.toNat (l - c.reserved) := ⟨_, rfl⟩
  have hdesc := desc_withConsIndex g.type s.seenTx s.ring
  have hspec := bufferAlloc_spec g.producer s.txQueue (withConsIndex g.type s.seenTx s.ring) bufs
    count hsize (hns ▸ hn)
    (fun hm => h.aligned (g.producer_args (g.producer_slave hm)) hdesc)
    (fun i hi => by
      rw [h.allocSlot, ofNat_add_and_mask h.txLog2, hdesc]
      exact h.roomAt hfit (by omega) (by omega))
  rw [← hr, h.allocSlot] at hspec
  obtain ⟨-, rfl, hmq, hsame, hlen, hbufs⟩ := hspec
  obtain ⟨n, hcount⟩ : ∃ n, r.countOut.toNat = n := ⟨_, rfl⟩
  rw [hcount] at hn hmq hbufs
  simp only [hcount]
  have hfree : n ≤ c.free := by
    rw [Channel.free]
    omega
  have halloc : s.txQueue.allocBufs.toNat + n = c.reserved + n - c.log.length := by
    rw [h.allocBufs, Channel.unsent]
    omega
  refine ⟨hfree, ?_⟩
  exact {
    prodIndex := (prodIndex_desc _ _ _).trans h.prodIndex
    consIndex := (consIndex_desc _ _ _).trans h.consIndex
    offered := h.offered
    txLog2 := by rw [hmq, h.txLog2]
    rxLog2 := h.rxLog2
    allocBufs := by
      rw [hmq]
      show (s.txQueue.allocBufs + UInt32.ofNat n).toNat = c.reserved + n - c.log.length
      have hunsent := h.allocBufs
      rw [Channel.unsent] at hunsent
      rw [UInt32.toNat_add, UInt32.toNat_ofNat', Nat.add_mod_mod, halloc]
      exact Nat.mod_eq_of_lt (by omega)
    curSlot := h.curSlot
    seenTx := ⟨l, hl, show c.reserved + n ≤ l by omega, hlim, hseen⟩
    seenRx := h.seenRx
    region := fun j => by rw [hsame.region, hdesc, h.region]
    offset := fun j => by rw [hsame.offset, hdesc, h.offset]
    room := fun hty i hi hi' => by rw [hlen, hdesc, h.room hty i hi hi']
    unsent_length := by
      rw [List.length_append, List.length_map, List.length_range, h.unsent_length]
      show c.reserved - c.log.length + n = c.reserved + n - c.log.length
      omega
    unsent := by
      intro i b hb
      rcases getElem?_append_map_range hb with hb' | ⟨k, hk, rfl, rfl⟩
      · exact h.unsent i b hb'
      · obtain ⟨hidx, -, hdata⟩ := hbufs k hk
        have hpos : c.reserved + k = c.log.length + (s.unsent.length + k) := by
          rw [h.unsent_length, Channel.unsent]
          omega
        rw [hidx, hdata, h.memifGetBuffer h.txLog2 hdesc, ← UInt16.ofNat_add, hpos]
        exact ⟨rfl, rfl⟩
    length := fun i x hi hx => by rw [hlen, hdesc, h.length i x hi hx]
    data := h.data
    held_length := h.held_length
    held_all := h.held_all
    held := h.held }

/-- **Sending** appends the packets to the queue. -/
lemma Refines.tx (h : Refines g s c) {count : UInt16} {intWrite : Bool} {r : TxResult}
    (hr : r = txBurst g.producer s.txQueue s.ring (fun k => s.unsent.getD k .zero) count intWrite) :
    ∃ hn : ((s.unsent.take r.tx.toNat).map (packet g s.shm)).length ≤ c.unsent,
      Refines g
        { s with
          ring := r.ring
          txQueue := r.mq
          unsent := s.unsent.drop r.tx.toNat }
        (c.send ((s.unsent.take r.tx.toNat).map (packet g s.shm)) hn) := by
  have hsent := c.sent_le
  have hreserved := c.reserved_le
  have hreceived := c.received_le
  have hlimit := c.limit_le
  have hsize := g.size_le
  have hlength := h.unsent_length
  obtain ⟨n, hn⟩ : ∃ n, n = min count.toNat s.txQueue.allocBufs.toNat := ⟨_, rfl⟩
  have hle : n ≤ c.unsent := by
    rw [← h.allocBufs]
    omega
  -- the buffers are those of the cells behind the queue
  have hbuf : ∀ k < n, ∃ b, s.unsent[k]? = some b ∧ s.unsent.getD k .zero = b := fun k hk => by
    have hk' : k < s.unsent.length := by omega
    exact ⟨s.unsent[k], List.getElem?_eq_getElem hk', by
      rw [List.getD, List.getElem?_eq_getElem hk', Option.getD_some]⟩
  have hidx : ∀ k < n, (s.unsent.getD k .zero).descIndex = UInt16.ofNat (c.log.length + k) := by
    intro k hk
    obtain ⟨b, hb, hget⟩ := hbuf k hk
    rw [hget, (h.unsent k b hb).1]
  have hown : (if g.producer.isMaster then s.ring.tail else s.ring.head) =
      UInt16.ofNat c.log.length := by
    rw [g.producer_isMaster, ← h.prodIndex]
    cases g.type <;> rfl
  have hspec := txBurst_spec g.producer s.txQueue s.ring (fun k => s.unsent.getD k .zero) count
    intWrite hn hown hidx
  rw [← hr] at hspec
  obtain ⟨htx, hmq, hring⟩ := hspec
  obtain ⟨ring, hloop⟩ : ∃ ring,
      txLoop s.txQueue.mask (fun k => s.unsent.getD k .zero) n s.ring = ring := ⟨_, rfl⟩
  have hsame : s.ring.Same ring := hloop ▸ same_txLoop _ _ _ n
  have hcell : ∀ k < n, ((s.unsent.getD k .zero).descIndex &&& s.txQueue.mask).toNat =
      (c.log.length + k) % g.size := fun k hk => by rw [hidx k hk, and_mask h.txLog2]
  have hother : ∀ j, (∀ k < n, j ≠ (c.log.length + k) % g.size) →
      (ring.desc j).length = (s.ring.desc j).length := by
    intro j hj
    rw [← hloop]
    exact txLoop_length_of_ne _ _ _ fun k hk => by
      rw [hcell k hk]
      exact hj k hk
  have hset : ∀ k < n, (ring.desc ((c.log.length + k) % g.size)).length =
      (s.unsent.getD k .zero).len := by
    intro k hk
    rw [← hcell k hk, ← hloop]
    refine txLoop_length _ _ _ hk fun l hl hkl => ?_
    rw [hcell k hk, hcell l hl]
    rw [Channel.unsent] at hle
    exact mod_ne_mod (by omega) (by omega)
  rw [hloop] at hring
  simp only [htx]
  have hlen : ((s.unsent.take n).map (packet g s.shm)).length = n := by
    rw [List.length_map, List.length_take]
    omega
  refine ⟨hlen.trans_le hle, ?_⟩
  have hlog : (c.send ((s.unsent.take n).map (packet g s.shm)) (hlen.trans_le hle)).log.length =
      c.log.length + n := by
    show (c.log ++ _).length = _
    rw [List.length_append, hlen]
  rw [Channel.unsent] at hle
  have hdesc : r.ring.desc = ring.desc := by
    rw [hring, publishTx]
    split_ifs <;> rfl
  exact {
    prodIndex := by
      rw [hlog, hring, publishTx, g.producer_isMaster]
      cases g.type <;> rfl
    consIndex := by
      refine Eq.trans ?_ h.consIndex
      rw [hring, publishTx, g.producer_isMaster]
      cases g.type with
      | s2m => exact hsame.tail
      | m2s => exact hsame.head
    offered := h.offered
    txLog2 := by rw [hmq, h.txLog2]
    rxLog2 := h.rxLog2
    allocBufs := by
      have halloc := h.allocBufs
      rw [Channel.unsent] at halloc
      have hsub : (s.txQueue.allocBufs - UInt32.ofNat n).toNat =
          s.txQueue.allocBufs.toNat - n := by
        have hnat : (UInt32.ofNat n).toNat = n := by
          have hcount := count.toNat_lt
          rw [UInt32.toNat_ofNat', Nat.mod_eq_of_lt (by omega)]
        rw [UInt32.toNat_sub_of_le _ _ (by rw [UInt32.le_iff_toNat_le, hnat]; omega), hnat]
      rw [hmq, Channel.unsent, hlog]
      show (s.txQueue.allocBufs - UInt32.ofNat n).toNat = c.reserved - (c.log.length + n)
      omega
    curSlot := h.curSlot
    seenTx := h.seenTx
    seenRx := by
      obtain ⟨m, h1, h2, h3⟩ := h.seenRx
      exact ⟨m, h1, by omega, h3⟩
    region := fun j => by rw [hdesc, hsame.region, h.region]
    offset := fun j => by rw [hdesc, hsame.offset, h.offset]
    room := by
      intro hty i hi hi'
      rw [hlog] at hi
      have hi'' : i < c.received + g.size := hi'
      rw [hdesc, hother _ fun k hk => (mod_ne_mod (by omega) (by omega)).symm]
      exact h.room hty i (by omega) hi''
    unsent_length := by
      rw [Channel.unsent] at hlength ⊢
      rw [List.length_drop, hlog, hlength]
      show c.reserved - c.log.length - n = c.reserved - (c.log.length + n)
      omega
    unsent := by
      intro i b hb
      rw [List.getElem?_drop] at hb
      rw [hlog, Nat.add_assoc]
      exact h.unsent (n + i) b hb
    length := by
      intro i x hi hx
      have hi' : c.received ≤ i := hi
      rw [hdesc]
      rcases getElem?_append_map_take hx with hx' | ⟨k, hk, b, rfl, hb, rfl⟩
      · have hlt : i < c.log.length := (List.getElem?_eq_some_iff.mp hx').1
        rw [hother _ fun k hk => mod_ne_mod (by omega) (by omega)]
        exact h.length i x hi' hx'
      · obtain ⟨b', hb', hget⟩ := hbuf k hk
        obtain rfl : b' = b := Option.some.inj (hb'.symm.trans hb)
        rw [hset k hk, hget]
        rfl
    data := by
      intro i x hi hx
      rcases getElem?_append_map_take hx with hx' | ⟨k, hk, b, rfl, hb, rfl⟩
      · exact h.data i x hi hx'
      · simp only [packet, (h.unsent k b hb).2]
    held_length := h.held_length
    held_all := h.held_all
    held := by
      intro i b hb
      obtain ⟨x, hx, hrest⟩ := h.held i b hb
      have hlt : c.received - s.held.length + i < c.log.length :=
        (List.getElem?_eq_some_iff.mp hx).1
      exact ⟨x, (List.getElem?_append_left hlt).trans hx, hrest⟩ }

lemma Refines.fill (h : Refines g s c) {i : ℕ} {b : MemifBuffer} {p : ShmPtr} {len : UInt32}
    {bs : List UInt8} (hb : s.unsent[i]? = some b) (hp : b.data = some p)
    (hbs : bs.length ≤ g.bufferSize) :
    Refines g { s with shm := s.shm.store p bs, unsent := s.unsent.set i { b with len } } c := by
  have hdata := (h.unsent i b hb).2
  obtain rfl : g.bufferAt (c.log.length + i) = p := Option.some.inj (hdata.symm.trans hp)
  have hi : i < c.unsent := by
    rw [← h.unsent_length]
    exact (List.getElem?_eq_some_iff.mp hb).1
  exact { h with
    unsent_length := by rw [List.length_set, h.unsent_length]
    unsent := by
      intro k b' hb'
      by_cases hk : i = k
      · subst hk
        have hset : (s.unsent.set i { b with len })[i]? = some { b with len } :=
          List.getElem?_set_self (List.getElem?_eq_some_iff.mp hb).1
        obtain rfl : { b with len } = b' := Option.some.inj (hset.symm.trans hb')
        exact h.unsent i b hb
      · rw [List.getElem?_set_ne hk] at hb'
        exact h.unsent k b' hb'
    data := by
      intro k x hk hx
      have hlt : k < c.log.length := (List.getElem?_eq_some_iff.mp hx).1
      rw [g.bytes_store_bufferAt (c.cell_ne hi hlt hk) hbs]
      exact h.data k x hk hx }

lemma Refines.lookTx (h : Refines g s c) :
    Refines g { s with seenTx := Libmemif.consIndex g.type s.ring } c :=
  { h with seenTx := ⟨c.limit, h.offered, c.reserved_le, le_rfl, h.consIndex⟩ }

end Producer

/-! ## The consumer -/

section Consumer

variable {g : RingConfig} {s : SharedRing} {c : Channel g.size Packet}

lemma Refines.lookRx (h : Refines g s c) :
    Refines g { s with seenRx := Libmemif.prodIndex g.type s.ring } c :=
  { h with seenRx := ⟨c.log.length, c.received_le, le_rfl, h.prodIndex⟩ }

/-- **Receiving** takes packets from the front of the queue. -/
lemma Refines.rx (h : Refines g s c) {bufs : ℕ → MemifBuffer} {count : UInt16} {intRead : Bool}
    {r : RxResult}
    (hr : r = rxBurst g.consumer s.rxQueue (withProdIndex g.type s.seenRx s.ring) bufs count
      intRead) :
    ∃ hn : r.rx.toNat ≤ c.queue.length,
      ((List.range r.rx.toNat).map fun k => packet g s.shm (r.bufs k)) =
          c.queue.take r.rx.toNat ∧
        Refines g
          { s with
            ring := { s.ring with desc := r.ring.desc }
            rxQueue := r.mq
            held := s.held ++ (List.range r.rx.toNat).map r.bufs }
          (c.receive r.rx.toNat hn) := by
  obtain ⟨m, hrm, hms, hseen⟩ := h.seenRx
  have hsent := c.sent_le
  have hreserved := c.reserved_le
  have hlimit := c.limit_le
  have hsize := g.size_le
  obtain ⟨n, hn⟩ : ∃ n, n = min (m - c.received) count.toNat := ⟨_, rfl⟩
  have hdesc := desc_withProdIndex g.type s.seenRx s.ring
  have hlast : rxLastSlot g.consumer (withProdIndex g.type s.seenRx s.ring) = UInt16.ofNat m := by
    rw [rxLastSlot, g.consumer_isMaster, ← hseen]
    cases g.type <;> rfl
  have hspec := rxBurst_spec g.consumer s.rxQueue (withProdIndex g.type s.seenRx s.ring) bufs count
    intRead h.curSlot hlast hrm (by omega) hn
  rw [← hr] at hspec
  obtain ⟨-, hrx, hcur, hlog2, hring, hbufs⟩ := hspec
  -- the slots that are received are different
  have hcell : ∀ k, ((UInt16.ofNat c.received + UInt16.ofNat k) &&& s.rxQueue.mask).toNat =
      (c.received + k) % g.size := fun k => ofNat_add_and_mask h.rxLog2 _ _
  have hbuf : ∀ k < n, (r.bufs k).len = (s.ring.desc ((c.received + k) % g.size)).length ∧
      (r.bufs k).data = some (g.bufferAt (c.received + k)) := by
    intro k hk
    obtain ⟨-, hlen, hdata⟩ := rxLoop_bufs g.consumer s.rxQueue.mask (UInt16.ofNat c.received)
      (withProdIndex g.type s.seenRx s.ring) bufs (n := n) (fun i l hil hl => by
        rw [hcell, hcell]
        exact (mod_ne_mod (by omega) (by omega)).symm) hk
    rw [← hbufs] at hlen hdata
    rw [hlen, hdata, hcell, hdesc, h.memifGetBuffer h.rxLog2 hdesc]
    exact ⟨rfl, rfl⟩
  have hlogk : ∀ k < n, ∃ x, c.log[c.received + k]? = some x ∧ (r.bufs k).len = x.len ∧
      packet g s.shm (r.bufs k) = x := by
    intro k hk
    have hlt : c.received + k < c.log.length := by omega
    have hx : c.log[c.received + k]? = some c.log[c.received + k] := List.getElem?_eq_getElem hlt
    have hlen := h.length _ _ (by omega) hx
    have hdata := h.data _ _ (by omega) hx
    obtain ⟨h1, h2⟩ := hbuf k hk
    refine ⟨_, hx, h1.trans hlen, ?_⟩
    rw [packet, h1, hlen, h2]
    simp only [hdata]
  simp only [hrx]
  have hle : n ≤ c.queue.length := by
    rw [Channel.queue, List.length_drop]
    omega
  refine ⟨hle, ?_, ?_⟩
  · apply List.ext_getElem?
    intro k
    rw [List.getElem?_take, List.getElem?_map]
    by_cases hk : k < n
    · obtain ⟨x, hx, -, hpacket⟩ := hlogk k hk
      rw [List.getElem?_range hk, Option.map_some, hpacket, if_pos hk, Channel.queue,
        List.getElem?_drop, hx]
    · rw [if_neg hk, List.getElem?_eq_none (by simpa using hk), Option.map_none]
  · have hsame : s.ring.Same { s.ring with desc := r.ring.desc } := by
      have hloop := same_rxLoop g.consumer s.rxQueue.mask (UInt16.ofNat c.received)
        (withProdIndex g.type s.seenRx s.ring) bufs n
      rw [← hring] at hloop
      refine ⟨rfl, rfl, rfl, fun j => ?_, fun j => ?_⟩
      · rw [hloop.region, hdesc]
      · rw [hloop.offset, hdesc]
    have hother : ∀ j, (∀ k < n, j ≠ (c.received + k) % g.size) →
        (r.ring.desc j).length = (s.ring.desc j).length := by
      intro j hj
      rw [hring, rxLoop_length_of_ne _ _ _ _ _ fun k hk => by
        rw [hcell]
        exact hj k hk, hdesc]
    exact {
      prodIndex := (prodIndex_desc _ _ _).trans h.prodIndex
      consIndex := (consIndex_desc _ _ _).trans h.consIndex
      offered := h.offered
      txLog2 := h.txLog2
      rxLog2 := hlog2.trans h.rxLog2
      allocBufs := h.allocBufs
      curSlot := hcur
      seenTx := h.seenTx
      seenRx := ⟨m, show c.received + n ≤ m by omega, hms, hseen⟩
      region := fun j => (hsame.region j).trans (h.region j)
      offset := fun j => (hsame.offset j).trans (h.offset j)
      room := by
        intro hty i hi hi'
        have hi₁ : c.log.length ≤ i := hi
        have hi₂ : i < c.received + n + g.size := hi'
        rcases Nat.lt_or_ge i (c.received + g.size) with hlt | hge
        · rw [hother _ fun k hk => (mod_ne_mod (by omega) (by omega)).symm]
          exact h.room hty i hi₁ hlt
        · -- a cell that was just received, one round later
          have hslave : g.consumer.isMaster = false := by
            rw [g.consumer_isMaster, hty]
            rfl
          have hreset := rxLoop_length_slave g.consumer s.rxQueue.mask (UInt16.ofNat c.received)
            (withProdIndex g.type s.seenRx s.ring) bufs hslave
            (show i - (c.received + g.size) < n by omega)
          have hpos : c.received + (i - (c.received + g.size)) + g.size = i := by omega
          rw [← hring, hcell, g.consumer_args hty, ← Nat.add_mod_right, hpos] at hreset
          exact hreset
      unsent_length := h.unsent_length
      unsent := h.unsent
      length := by
        intro i x hi hx
        have hi₁ : c.received + n ≤ i := hi
        have hlt : i < c.log.length := (List.getElem?_eq_some_iff.mp hx).1
        rw [hother _ fun k hk => (mod_ne_mod (by omega) (by omega)).symm]
        exact h.length i x (by omega) hx
      data := h.data
      held_length := by
        have hheld := h.held_length
        rw [Channel.withheld] at hheld ⊢
        rw [List.length_append, List.length_map, List.length_range]
        show _ ≤ c.received + n ∧ _ ≤ c.received + n + g.size - c.limit
        omega
      held_all := by
        intro hty
        have hall := h.held_all hty
        rw [Channel.withheld] at hall ⊢
        rw [List.length_append, List.length_map, List.length_range]
        show _ = c.received + n + g.size - c.limit
        omega
      held := by
        intro i b hb
        have hheld := h.held_length.1
        rw [List.length_append, List.length_map, List.length_range]
        show ∃ x, c.log[c.received + n - (s.held.length + n) + i]? = some x ∧ _ ∧
          _ = some (g.bufferAt (c.received + n - (s.held.length + n) + i))
        rw [Nat.add_sub_add_right]
        rcases getElem?_append_map_range hb with hb' | ⟨k, hk, rfl, rfl⟩
        · exact h.held i b hb'
        · have hpos : c.received - s.held.length + (s.held.length + k) = c.received + k := by omega
          obtain ⟨x, hx, hlen, -⟩ := hlogk k hk
          rw [hpos]
          exact ⟨x, hx, hlen, (hbuf k hk).2⟩ }

/-- What giving buffers back does: `k` more cells are offered, of which the application has given up
at least as many, and the descriptors are as they were. -/
structure Refilled (g : RingConfig) (s : SharedRing) (c : Channel g.size Packet) (count : UInt16)
    (ring : MemifRing) (k : ℕ) : Prop where
  le : k ≤ c.withheld
  all : c.withheld ≤ count.toNat → k = c.withheld
  held : s.held.length - count.toNat ≤ c.withheld - k
  held_all : g.type = .s2m → s.held.length - count.toNat = c.withheld - k
  consIndex : consIndex g.type ring = UInt16.ofNat (g.released (c.limit + k))
  prodIndex : Libmemif.prodIndex g.type ring = Libmemif.prodIndex g.type s.ring
  region : ∀ j, (ring.desc j).region = (s.ring.desc j).region
  offset : ∀ j, (ring.desc j).offset = (s.ring.desc j).offset
  length : ∀ j, (ring.desc j).length = (s.ring.desc j).length

/-- On a ring to the master, the tail is as far behind the last head as buffers are held. -/
lemma Refines.refill_indices (h : Refines g s c) (hty : g.type = .s2m) :
    s.ring.tail = UInt16.ofNat (c.limit - g.size) ∧
      s.rxQueue.lastHead = UInt16.ofNat (c.limit - g.size + s.held.length) := by
  have hmaster : g.consumer.isMaster = true := by
    rw [g.consumer_isMaster, hty]
    rfl
  have hcons := h.consIndex
  have hcur := h.curSlot
  rw [RingConfig.released, hty] at hcons
  rw [rxCurSlot, if_pos hmaster] at hcur
  refine ⟨hcons, ?_⟩
  rw [hcur, h.held_all hty, Channel.withheld]
  congr 1
  have hlimit := c.limit_le
  have hoffered := h.offered hty
  omega

lemma Refines.refilled_s2m (h : Refines g s c) (hty : g.type = .s2m) {count : UInt16}
    (hexact : s.RefillExact g count) :
    ∃ k, Refilled g s c count (refillQueue g.consumer s.rxQueue s.ring count 0) k := by
  have hmaster : g.consumer.isMaster = true := by
    rw [g.consumer_isMaster, hty]
    rfl
  have hoffered := h.offered hty
  have hlimit := c.limit_le
  have hsize := g.size_le
  have hwithheld := c.withheld_le
  have hreleased : ∀ l, g.released l = l - g.size := fun l => by rw [RingConfig.released, hty]
  obtain ⟨htail, hlast⟩ := h.refill_indices hty
  have htail' : s.ring.tail.toNat = (c.limit - g.size) % 2 ^ 16 := by
    rw [htail, UInt16.toNat_ofNat']
  have hlast' : s.rxQueue.lastHead.toNat = (c.limit - g.size + s.held.length) % 2 ^ 16 := by
    rw [hlast, UInt16.toNat_ofNat']
  have hexact := hexact hty
  have hall := h.held_all hty
  rw [Channel.withheld] at hwithheld hall
  -- the tail either moves by what is given back or catches up with the head
  obtain ⟨k, hk, hcount, hindex⟩ : ∃ k, k ≤ c.received + g.size - c.limit ∧
      s.held.length - count.toNat = c.received + g.size - c.limit - k ∧
      refillTail s.rxQueue s.ring count = UInt16.ofNat (c.limit - g.size + k) := by
    rw [refillTail]
    by_cases hle : s.ring.tail.toNat + count.toNat ≤ s.rxQueue.lastHead.toNat
    · refine ⟨count.toNat, by omega, by omega, ?_⟩
      rw [if_pos hle, htail, UInt16.ofNat_add, UInt16.ofNat_toNat]
    · refine ⟨c.received + g.size - c.limit, le_rfl, by omega, ?_⟩
      rw [if_neg hle, hlast, hall]
  refine ⟨k, ?_⟩
  rw [refillQueue, if_pos hmaster, hindex]
  exact {
    le := hk
    all := fun hle => by
      rw [Channel.withheld] at hle ⊢
      omega
    held := hcount.le
    held_all := fun _ => hcount
    consIndex := by
      rw [hreleased, hty]
      show UInt16.ofNat _ = UInt16.ofNat _
      congr 1
      omega
    prodIndex := by
      rw [hty]
      rfl
    region := fun _ => rfl
    offset := fun _ => rfl
    length := fun _ => rfl }

/-- The slave gives back by its head.  Nothing depends on whether the loop over the descriptors is
entered. -/
lemma Refines.refilled_m2s (h : Refines g s c) (hty : g.type = .m2s) (count : UInt16) :
    ∃ k, Refilled g s c count (refillQueue g.consumer s.rxQueue s.ring count 0) k := by
  have hslave : ¬g.consumer.isMaster = true := by
    rw [g.consumer_isMaster, hty]
    decide
  have hlimit := c.limit_le
  have hsize := g.size_le
  have hreserved := c.reserved_le
  have hsent := c.sent_le
  have hreleased : ∀ l, g.released l = l := fun l => by rw [RingConfig.released, hty]
  have hhead : s.ring.head = UInt16.ofNat c.limit := by
    rw [← hreleased c.limit, ← h.consIndex, hty]
    rfl
  have hlast : s.rxQueue.lastTail = UInt16.ofNat c.received := by
    rw [← h.curSlot, rxCurSlot, if_neg hslave]
  have hns : s.rxQueue.ringSize - s.ring.head + s.rxQueue.lastTail = UInt16.ofNat c.withheld := by
    rw [ringSize_eq h.rxLog2, hhead, hlast, room_eq (by omega), Channel.withheld, Nat.add_comm]
  obtain ⟨k, hk⟩ : ∃ k, k = min count.toNat c.withheld := ⟨_, rfl⟩
  have hmin : memifMin count (s.rxQueue.ringSize - s.ring.head + s.rxQueue.lastTail) =
      UInt16.ofNat k := by
    have hlt : c.withheld < 2 ^ 16 := by
      have hwithheld := c.withheld_le
      omega
    have hcount := count.toNat_lt
    rw [← UInt16.toNat_inj, toNat_memifMin, hns, UInt16.toNat_ofNat', Nat.mod_eq_of_lt hlt, ← hk,
      UInt16.toNat_ofNat', Nat.mod_eq_of_lt (by omega)]
  have hnew : refillHead s.rxQueue s.ring count = UInt16.ofNat (c.limit + k) := by
    rw [refillHead, hmin, hhead, UInt16.ofNat_add]
  have hargs := g.consumer_args hty
  obtain ⟨hsame, hlen⟩ := refillLoop_desc s.rxQueue.mask (UInt16.ofNat (c.limit + k))
    (h.aligned hargs rfl) h.region (fun i hi => by
      rw [hhead, UInt16.toNat_ofNat', UInt16.toNat_ofNat'] at hi
      rw [Channel.withheld] at hk
      rw [hhead, ofNat_add_and_mask h.rxLog2, hargs]
      exact h.room hty _ (by omega) (by omega))
  refine ⟨k, ?_⟩
  rw [refillQueue, if_neg hslave, hnew]
  exact {
    le := hk ▸ min_le_right _ _
    all := fun hle => hk.trans (min_eq_right hle)
    held := by
      have hheld := h.held_length.2
      omega
    held_all := fun hty' => by
      rw [hty] at hty'
      cases hty'
    consIndex := by
      rw [hreleased, hty]
      rfl
    prodIndex := by
      rw [hty]
      exact hsame.tail
    region := hsame.region
    offset := hsame.offset
    length := hlen }

/-- **Giving back** releases cells that are withheld, and all of them if that many are given back.
-/
lemma Refines.refill (h : Refines g s c) {count : UInt16} {ring : MemifRing}
    (hexact : s.RefillExact g count)
    (hr : ring = refillQueue g.consumer s.rxQueue s.ring count 0) :
    ∃ hk : (Libmemif.consIndex g.type ring - Libmemif.consIndex g.type s.ring).toNat ≤ c.withheld,
      (c.withheld ≤ count.toNat →
        (Libmemif.consIndex g.type ring - Libmemif.consIndex g.type s.ring).toNat = c.withheld) ∧
      Refines g { s with ring, held := s.held.drop count.toNat } (c.release _ hk) := by
  obtain ⟨k, hk⟩ : ∃ k, Refilled g s c count ring k := by
    rw [hr]
    cases hty : g.type with
    | s2m => exact h.refilled_s2m hty hexact
    | m2s => exact h.refilled_m2s hty count
  have hlimit := c.limit_le
  have hsize := g.size_le
  have hle := hk.le
  have hheld := h.held_length
  have hcount := hk.held
  have hreleased : g.released (c.limit + k) = g.released c.limit + k := by
    have hoffered := h.offered
    cases hty : g.type with
    | s2m =>
        have hle' := hoffered hty
        simp only [RingConfig.released, hty]
        omega
    | m2s => simp only [RingConfig.released, hty]
  have hlabel : (Libmemif.consIndex g.type ring - Libmemif.consIndex g.type s.ring).toNat = k := by
    have hwithheld := c.withheld_le
    rw [hk.consIndex, h.consIndex, hreleased, toNat_ofNat_sub (by omega) (by omega)]
    omega
  simp only [hlabel]
  refine ⟨hle, hk.all, ?_⟩
  rw [Channel.withheld] at hle hheld hcount
  exact { h with
    prodIndex := hk.prodIndex.trans h.prodIndex
    consIndex := hk.consIndex
    offered := fun hty => (h.offered hty).trans (Nat.le_add_right _ _)
    seenTx := by
      obtain ⟨l, h1, h2, h3, h4⟩ := h.seenTx
      exact ⟨l, h1, h2, h3.trans (Nat.le_add_right _ _), h4⟩
    region := fun j => (hk.region j).trans (h.region j)
    offset := fun j => (hk.offset j).trans (h.offset j)
    room := fun hty i hi hi' => (hk.length _).trans (h.room hty i hi hi')
    length := fun i x hi hx => (hk.length _).trans (h.length i x hi hx)
    data := by
      intro i x hi hx
      have hi' : c.limit + k ≤ i + g.size := hi
      exact h.data i x (by omega) hx
    held_length := by
      rw [List.length_drop]
      show _ ≤ c.received ∧ _ ≤ c.received + g.size - (c.limit + k)
      omega
    held_all := by
      intro hty
      have hall := hk.held_all hty
      rw [Channel.withheld] at hall
      rw [List.length_drop]
      show _ = c.received + g.size - (c.limit + k)
      omega
    held := by
      intro i b hb
      rw [List.getElem?_drop] at hb
      have hlt : count.toNat + i < s.held.length := (List.getElem?_eq_some_iff.mp hb).1
      obtain ⟨x, hx⟩ := h.held _ b hb
      have hpos : c.received - s.held.length + (count.toNat + i) =
          c.received - (s.held.length - count.toNat) + i := by omega
      rw [hpos] at hx
      rw [List.length_drop]
      exact ⟨x, hx⟩ }

end Consumer

/-! ## The simulation -/

/-- The channel of a ring when both sides have just connected.  On a ring to the slave, no buffer is
offered yet. -/
def RingConfig.channel (g : RingConfig) : Channel g.size Packet :=
  match g.type with
  | .s2m => .init g.size le_rfl
  | .m2s => .init 0 (Nat.zero_le _)

lemma RingConfig.channel_fresh (g : RingConfig) :
    g.channel.log = [] ∧ g.channel.received = 0 ∧ g.channel.reserved = 0 := by
  rw [RingConfig.channel]
  cases g.type <;> exact ⟨rfl, rfl, rfl⟩

lemma refines_init (g : RingConfig) (shm : Shm) : Refines g (.init g shm) g.channel := by
  obtain ⟨hlog, hreceived, hreserved⟩ := g.channel_fresh
  have hreleased : g.released g.channel.limit = 0 := by
    rw [RingConfig.released, RingConfig.channel]
    cases g.type with
    | s2m => exact Nat.sub_self _
    | m2s => rfl
  have hoffered : g.Offered g.channel.limit := by
    rw [RingConfig.Offered, RingConfig.channel]
    cases g.type with
    | s2m => exact fun _ => le_rfl
    | m2s => exact fun h => absurd h (by decide)
  have hunsent : g.channel.unsent = 0 := by rw [Channel.unsent, hreserved, Nat.zero_sub]
  exact {
    prodIndex := by
      rw [hlog]
      cases g.type <;> rfl
    consIndex := by
      rw [hreleased]
      cases g.type <;> rfl
    offered := hoffered
    txLog2 := rfl
    rxLog2 := rfl
    allocBufs := by
      rw [hunsent]
      rfl
    curSlot := by
      rw [hreceived, rxCurSlot]
      split_ifs <;> rfl
    seenTx := ⟨g.channel.limit, hoffered, g.channel.reserved_le, le_rfl, by
      rw [hreleased]
      rfl⟩
    seenRx := ⟨0, hreceived.le, Nat.zero_le _, rfl⟩
    region := fun _ => rfl
    offset := fun _ => rfl
    room := fun _ _ _ _ => rfl
    unsent_length := hunsent.symm
    unsent := fun i b hb => by cases hb
    length := fun i x _ hx => by
      rw [hlog] at hx
      cases hx
    data := fun i x _ hx => by
      rw [hlog] at hx
      cases hx
    held_length := ⟨Nat.zero_le _, Nat.zero_le _⟩
    held_all := by
      intro hty
      rw [Channel.withheld, RingConfig.channel, hty]
      show 0 = 0 + g.size - g.size
      omega
    held := fun i b hb => by cases hb }

/-- **Each step is one of the channel.** -/
lemma Refines.step {g : RingConfig} {s s' : SharedRing} {c : Channel g.size Packet}
    {o : ChannelOp Packet} (h : Refines g s c) (hs : RingStep g s o s') :
    ∃ c', c.Step o c' ∧ Refines g s' c' := by
  cases hs with
  | lookTx => exact ⟨c, .silent, h.lookTx⟩
  | alloc bufs count size r hsize hfit hr =>
      obtain ⟨hn, h'⟩ := h.alloc hsize hfit hr
      exact ⟨_, .reserve _ hn, h'⟩
  | fill i b p len bs hb hp hbs => exact ⟨c, .silent, h.fill hb hp hbs⟩
  | tx count intWrite r hr =>
      obtain ⟨hn, h'⟩ := h.tx hr
      exact ⟨_, .send _ hn, h'⟩
  | lookRx => exact ⟨c, .silent, h.lookRx⟩
  | rx bufs count intRead r hr =>
      obtain ⟨hn, hlabel, h'⟩ := h.rx hr
      rw [hlabel]
      exact ⟨_, .receive _ hn, h'⟩
  | refill count ring hexact hr =>
      obtain ⟨hk, -, h'⟩ := h.refill hexact hr
      exact ⟨_, .release _ hk, h'⟩
  | env flags shm hshm =>
      exact ⟨c, .silent, { h with
        prodIndex := by
          rw [← h.prodIndex]
          cases g.type <;> rfl
        consIndex := by
          rw [← h.consIndex]
          cases g.type <;> rfl
        data := fun i x hi hx => (hshm i).trans (h.data i x hi hx) }⟩

lemma simulation (g : RingConfig) : Simulation (RingStep g) Channel.Step (Refines g) :=
  fun _ _ _ _ h hs => h.step hs

end CiphApp.Libmemif
