import CiphApp.Lib.Channel
import CiphApp.Libmemif.Layout

/-!
# A ring under two processes

The producer and the consumer of a ring run in different processes.  Here the state of both sides of
one ring is put together, and each side may take its next step at any time.  The producer allocates
buffers, fills them and sends them; the consumer receives buffers, reads them and gives them back.

A call looks at the index of the other side once, then does its work, and publishes its own index
last.  So a call is two steps here: a `look` loads the index, and the call then runs on what was
loaded, however old that is.  An atomic call is a `look` followed by the call.

The `unsent` and `held` buffers are those that the application of each side has: it sends buffers in
the order in which it was given them, and it gives back the oldest ones first.  `env` is everything
else that happens in the two processes; it does not touch the buffers of this ring, since those of
other rings are elsewhere.

Two conditions on the applications are part of the steps.  A packet fits one buffer, and what is
given back on a ring to the master is all that is held, or the indices have not wrapped in between
(`RefillExact`).
-/

namespace CiphApp.Libmemif

open Lib

/-! ## One ring of a connection -/

/-- A ring of a connection, with its two sides.  The buffer size is a power of two, and the
descriptors of the connection can be numbered with 16 bits.  The master does not know the buffer
size. -/
structure RingConfig where
  args : MemifConnRunArgs
  type : MemifRingType
  index : ℕ
  index_lt : index < match type with
    | .s2m => args.numS2mRings.toNat
    | .m2s => args.numM2sRings.toNat
  log2BufferSize : ℕ
  bufferSize_eq : args.bufferSize.toNat = 2 ^ log2BufferSize
  log2RingSize_le : args.log2RingSize.toNat ≤ 14
  descs_le : args.numRings * args.ringSize ≤ 2 ^ 16
  producer : MemifConnection
  consumer : MemifConnection
  producer_isMaster : producer.isMaster = decide (type = .m2s)
  consumer_isMaster : consumer.isMaster = decide (type = .s2m)
  producer_args : type = .s2m → producer.runArgs = args
  consumer_args : type = .m2s → consumer.runArgs = args

namespace RingConfig

variable (g : RingConfig)

/-- The number of descriptors. -/
abbrev size : ℕ := g.args.ringSize

/-- The size of a buffer. -/
abbrev bufferSize : ℕ := g.args.bufferSize.toNat

/-- The buffer of the packet with number `i`. -/
def bufferAt (i : ℕ) : ShmPtr :=
  ⟨1, (initDesc g.args g.type g.index (i % g.size)).offset.toNat⟩

end RingConfig

/-- A packet: the length in its descriptor, and the bytes of its buffer. -/
structure Packet where
  len : UInt32
  data : List UInt8
  deriving DecidableEq

/-- The packet in a buffer. -/
def packet (g : RingConfig) (shm : Shm) (b : MemifBuffer) : Packet :=
  ⟨b.len, match b.data with
    | some p => shm.bytes p g.bufferSize
    | none => []⟩

/-- The index the producer publishes. -/
def prodIndex (type : MemifRingType) (ring : MemifRing) : UInt16 :=
  match type with
  | .s2m => ring.head
  | .m2s => ring.tail

/-- The index the consumer publishes. -/
def consIndex (type : MemifRingType) (ring : MemifRing) : UInt16 :=
  match type with
  | .s2m => ring.tail
  | .m2s => ring.head

lemma prodIndex_desc (type : MemifRingType) (ring : MemifRing) (desc : ℕ → MemifDesc) :
    prodIndex type { ring with desc } = prodIndex type ring := by
  cases type <;> rfl

lemma consIndex_desc (type : MemifRingType) (ring : MemifRing) (desc : ℕ → MemifDesc) :
    consIndex type { ring with desc } = consIndex type ring := by
  cases type <;> rfl

/-- The ring as the producer sees it. -/
def withConsIndex (type : MemifRingType) (seen : UInt16) (ring : MemifRing) : MemifRing :=
  match type with
  | .s2m => { ring with tail := seen }
  | .m2s => { ring with head := seen }

lemma desc_withConsIndex (type : MemifRingType) (seen : UInt16) (ring : MemifRing) :
    (withConsIndex type seen ring).desc = ring.desc := by
  cases type <;> rfl

/-- The ring as the consumer sees it. -/
def withProdIndex (type : MemifRingType) (seen : UInt16) (ring : MemifRing) : MemifRing :=
  match type with
  | .s2m => { ring with head := seen }
  | .m2s => { ring with tail := seen }

lemma desc_withProdIndex (type : MemifRingType) (seen : UInt16) (ring : MemifRing) :
    (withProdIndex type seen ring).desc = ring.desc := by
  cases type <;> rfl

/-- Both sides of a ring: what is in shared memory, the queue that each process keeps, and the
buffers that each application has in hand.  A call of libmemif reads the index of the other side
once and works with the value it has read.  The other process may go on meanwhile, so the value is
kept here (`seenTx`, `seenRx`) and may be older than the ring. -/
structure SharedRing where
  ring : MemifRing
  shm : Shm
  /-- The queue of the producer. -/
  txQueue : MemifQueue
  /-- The index of the consumer when the producer last looked. -/
  seenTx : UInt16
  /-- The buffers that were allocated and not yet sent. -/
  unsent : List MemifBuffer
  /-- The queue of the consumer. -/
  rxQueue : MemifQueue
  /-- The index of the producer when the consumer last looked. -/
  seenRx : UInt16
  /-- The buffers that were received and not yet given back. -/
  held : List MemifBuffer

/-- A ring when both sides have just connected. -/
def SharedRing.init (g : RingConfig) (shm : Shm) : SharedRing where
  ring := (connect1 (initQueue g.args) (initRing g.args g.type g.index)).2
  shm
  txQueue := (connect1 (initQueue g.args) (initRing g.args g.type g.index)).1
  seenTx := 0
  unsent := []
  rxQueue := (connect1 (initQueue g.args) (initRing g.args g.type g.index)).1
  seenRx := 0
  held := []

/-! ## Steps -/

/-- All that is held is given back, or the tail has not yet to follow the head over the end of the
16 bits.  On a ring to the slave there is no condition. -/
def SharedRing.RefillExact (g : RingConfig) (s : SharedRing) (count : UInt16) : Prop :=
  g.type = .s2m → s.held.length ≤ count.toNat ∨ s.ring.tail.toNat ≤ s.rxQueue.lastHead.toNat

/-- **One step of the two processes.** -/
inductive RingStep (g : RingConfig) (s : SharedRing) : ChannelOp Packet → SharedRing → Prop
  /-- The producer loads the index of the consumer. -/
  | lookTx : RingStep g s .silent { s with seenTx := consIndex g.type s.ring }
  /-- `memif_buffer_alloc`. -/
  | alloc (bufs : ℕ → MemifBuffer) (count size : UInt16) (r : AllocResult) (hsize : size ≠ 0)
      (hfit : size ≤ g.args.bufferSize)
      (hr : r = bufferAlloc g.producer s.txQueue (withConsIndex g.type s.seenTx s.ring) bufs count
        size) :
      RingStep g s (.reserve r.countOut.toNat)
        { s with
          ring := { s.ring with desc := r.ring.desc }
          txQueue := r.mq
          unsent := s.unsent ++ (List.range r.countOut.toNat).map r.bufs }
  /-- The producer writes to a buffer and sets its length. -/
  | fill (i : ℕ) (b : MemifBuffer) (p : ShmPtr) (len : UInt32) (bs : List UInt8)
      (hb : s.unsent[i]? = some b) (hp : b.data = some p) (hbs : bs.length ≤ g.bufferSize) :
      RingStep g s .silent
        { s with
          shm := s.shm.store p bs
          unsent := s.unsent.set i { b with len } }
  /-- `memif_tx_burst`. -/
  | tx (count : UInt16) (intWrite : Bool) (r : TxResult)
      (hr : r = txBurst g.producer s.txQueue s.ring (fun k => s.unsent.getD k .zero) count
        intWrite) :
      RingStep g s (.send ((s.unsent.take r.tx.toNat).map (packet g s.shm)))
        { s with
          ring := r.ring
          txQueue := r.mq
          unsent := s.unsent.drop r.tx.toNat }
  /-- The consumer loads the index of the producer. -/
  | lookRx : RingStep g s .silent { s with seenRx := prodIndex g.type s.ring }
  /-- `memif_rx_burst`. -/
  | rx (bufs : ℕ → MemifBuffer) (count : UInt16) (intRead : Bool) (r : RxResult)
      (hr : r = rxBurst g.consumer s.rxQueue (withProdIndex g.type s.seenRx s.ring) bufs count
        intRead) :
      RingStep g s (.receive ((List.range r.rx.toNat).map fun k => packet g s.shm (r.bufs k)))
        { s with
          ring := { s.ring with desc := r.ring.desc }
          rxQueue := r.mq
          held := s.held ++ (List.range r.rx.toNat).map r.bufs }
  /-- `memif_refill_queue`, without headroom. -/
  | refill (count : UInt16) (ring : MemifRing) (hexact : s.RefillExact g count)
      (hr : ring = refillQueue g.consumer s.rxQueue s.ring count 0) :
      RingStep g s (.release (consIndex g.type ring - consIndex g.type s.ring).toNat)
        { s with
          ring
          held := s.held.drop count.toNat }
  /-- Anything else: interrupts are masked or not, and other memory is written. -/
  | env (flags : UInt16) (shm : Shm)
      (hshm : ∀ i, shm.bytes (g.bufferAt i) g.bufferSize =
        s.shm.bytes (g.bufferAt i) g.bufferSize) :
      RingStep g s .silent { s with ring := { s.ring with flags }, shm }

/-! ## The two ends

The steps run the bodies of the calls on the queues of the state.  At an end of the ring that is up,
the calls themselves do the same. -/

/-- **The end of the producer**: a connection on its side that is up, and whose transmit queue `qid`
is this ring. -/
structure RingConfig.TxEnd (g : RingConfig) (mq : MemifQueue) (c : MemifConnection)
    (qid : UInt16) : Prop where
  side : g.producer.SameSide c
  up : 0 ≤ c.fd
  qid_lt : qid.toNat < c.numTx.toNat
  queue : c.txQueues qid.toNat = mq

/-- **The end of the consumer**, with receive queue `qid`. -/
structure RingConfig.RxEnd (g : RingConfig) (mq : MemifQueue) (c : MemifConnection)
    (qid : UInt16) : Prop where
  side : g.consumer.SameSide c
  up : 0 ≤ c.fd
  qid_lt : qid.toNat < c.numRx.toNat
  queue : c.rxQueues qid.toNat = mq

/-- The connection after a call has changed its transmit queue. -/
def MemifConnection.withTxQueue (c : MemifConnection) (qid : UInt16) (mq : MemifQueue) :
    MemifConnection :=
  { c with txQueues := Function.update c.txQueues qid.toNat mq }

/-- The connection after a call has changed its receive queue. -/
def MemifConnection.withRxQueue (c : MemifConnection) (qid : UInt16) (mq : MemifQueue) :
    MemifConnection :=
  { c with rxQueues := Function.update c.rxQueues qid.toNat mq }

section Ends

variable {g : RingConfig} {mq : MemifQueue} {c : MemifConnection} {qid : UInt16} {ring : MemifRing}
  {bufs : ℕ → MemifBuffer}

lemma RingConfig.TxEnd.withTxQueue (h : g.TxEnd mq c qid) (mq' : MemifQueue) :
    g.TxEnd mq' (c.withTxQueue qid mq') qid :=
  ⟨⟨h.side.isMaster, h.side.runArgs⟩, h.up, h.qid_lt, Function.update_self _ _ _⟩

lemma RingConfig.RxEnd.withRxQueue (h : g.RxEnd mq c qid) (mq' : MemifQueue) :
    g.RxEnd mq' (c.withRxQueue qid mq') qid :=
  ⟨⟨h.side.isMaster, h.side.runArgs⟩, h.up, h.qid_lt, Function.update_self _ _ _⟩

lemma RingConfig.TxEnd.memifBufferAlloc (h : g.TxEnd mq c qid) (count size : UInt16) :
    memifBufferAlloc (some c) ring qid bufs count true size =
      .ok (bufferAlloc g.producer mq ring bufs count size) := by
  rw [Libmemif.memifBufferAlloc, checkCall_eq_ok_iff.mpr ⟨rfl, h.up, h.qid_lt, rfl⟩, ← h.queue,
    ← h.side.bufferAlloc]
  rfl

lemma RingConfig.TxEnd.memifTxBurst (h : g.TxEnd mq c qid) (count : UInt16) (intWrite : Bool) :
    memifTxBurst (some c) ring qid bufs count true intWrite =
      .ok (txBurst g.producer mq ring bufs count intWrite) := by
  rw [Libmemif.memifTxBurst, checkCall_eq_ok_iff.mpr ⟨rfl, h.up, h.qid_lt, rfl⟩, ← h.queue,
    ← h.side.txBurst]
  rfl

lemma RingConfig.RxEnd.memifRxBurst (h : g.RxEnd mq c qid) (count : UInt16) (intRead : Bool) :
    memifRxBurst (some c) ring qid bufs count true intRead =
      .ok (rxBurst g.consumer mq ring bufs count intRead) := by
  rw [Libmemif.memifRxBurst, checkCall_eq_ok_iff.mpr ⟨rfl, h.up, h.qid_lt, rfl⟩, ← h.queue,
    ← h.side.rxBurst]
  rfl

lemma RingConfig.RxEnd.memifRefillQueue (h : g.RxEnd mq c qid) (count headroom : UInt16) :
    memifRefillQueue (some c) ring qid count headroom =
      .ok (refillQueue g.consumer mq ring count headroom) := by
  rw [Libmemif.memifRefillQueue, checkCall_eq_ok_iff.mpr ⟨rfl, h.up, h.qid_lt, rfl⟩, ← h.queue,
    ← h.side.refillQueue]
  rfl

end Ends

/-! ## Geometry -/

namespace RingConfig

variable (g : RingConfig)

lemma size_pos : 0 < g.size := Nat.two_pow_pos _

lemma size_le : g.size ≤ 2 ^ 14 := Nat.pow_le_pow_right (by decide) g.log2RingSize_le

/-- Descriptor `i % size`. -/
def descId (i : ℕ) : DescId g.args :=
  ⟨g.type, g.index, i % g.size, g.index_lt, Nat.mod_lt _ g.size_pos⟩

lemma offset_descId (i : ℕ) : (g.descId i).offset = (g.bufferAt i).off := rfl

/-- **Different cells have buffers apart.** -/
lemma bufferAt_apart {i j : ℕ} (h : i % g.size ≠ j % g.size) :
    (g.bufferAt i).off + g.bufferSize ≤ (g.bufferAt j).off ∨
      (g.bufferAt j).off + g.bufferSize ≤ (g.bufferAt i).off := by
  have hne : g.descId i ≠ g.descId j := fun heq => h (congrArg DescId.desc heq)
  have hapart := DescId.apart_of_ne g.descs_le hne
  rwa [DescId.Apart, offset_descId, offset_descId] at hapart

/-- The buffers are those of the program, and a store into one leaves the others alone. -/
lemma bytes_store_bufferAt {shm : Shm} {bs : List UInt8} {i j : ℕ} (h : i % g.size ≠ j % g.size)
    (hbs : bs.length ≤ g.bufferSize) :
    (shm.store (g.bufferAt j) bs).bytes (g.bufferAt i) g.bufferSize =
      shm.bytes (g.bufferAt i) g.bufferSize := by
  refine Heap.bytes_store_apart shm bs _ ?_
  rcases g.bufferAt_apart h with h' | h' <;> omega

lemma initDesc_aligned (j : ℕ) :
    (initDesc g.args g.type g.index j).offset &&& (g.args.bufferSize.toUInt32 - 1) = 0 := by
  have hb := g.bufferSize_eq
  have hlt := g.args.bufferSize.toNat_lt
  have hpos : 0 < 2 ^ g.log2BufferSize := Nat.two_pow_pos _
  have hle : g.log2BufferSize ≤ 32 := by
    by_contra hgt
    have hge : 2 ^ 32 ≤ 2 ^ g.log2BufferSize := Nat.pow_le_pow_right (by decide) (by omega)
    omega
  have hmask : (g.args.bufferSize.toUInt32 - 1).toNat = 2 ^ g.log2BufferSize - 1 := by
    rw [UInt32.toNat_sub_of_le]
    · rw [UInt16.toNat_toUInt32, hb]
      rfl
    · rw [UInt32.le_iff_toNat_le, UInt16.toNat_toUInt32, hb]
      exact hpos
  rw [← UInt32.toNat_inj, UInt32.toNat_and, hmask, Nat.and_two_pow_sub_one_eq_mod]
  show (0 + _ * g.args.bufferSize.toUInt32).toNat % 2 ^ g.log2BufferSize = 0
  rw [UInt32.zero_add, UInt32.toNat_mul, UInt16.toNat_toUInt32, UInt16.toNat_toUInt32, hb,
    Nat.mod_mod_of_dvd _ (Nat.pow_dvd_pow 2 hle), Nat.mul_mod_left]

end RingConfig

end CiphApp.Libmemif
