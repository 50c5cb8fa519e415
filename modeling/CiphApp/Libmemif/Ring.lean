import CiphApp.Lib.ByteMemory
import CiphApp.Lib.Loop

/-!
# The rings of libmemif

`libmemif/src/main.c`, the calls that move packets: `memif_buffer_alloc`, `memif_tx_burst`,
`memif_rx_burst` and `memif_refill_queue`.  A ring lies in memory that two processes share, the
*master* and the *slave* of a connection.  It has an array of descriptors and two 16-bit indices,
`head` and `tail`, that run freely and are masked when they are used.

* On a ring from slave to master (`s2m`) the slave sends by advancing `head`, and the master gives
  descriptors back by advancing `tail`.
* On a ring from master to slave (`m2s`) it is the other way round: the slave advances `head` to
  offer empty buffers, and the master sends by advancing `tail`.

Each side keeps a `memif_queue_t` of its own for each ring: the last index it has looked at
(`last_head` on the master, `last_tail` on the slave), and the number of buffers it has allocated
and not sent.

The functions are those of the source with their arguments made explicit: the ring a queue points
to is passed and returned, `NULL` is `none` or `false`, and what the kernel answers to the read or
write of an event descriptor is an argument.  Buffers outside shared memory
(`get_external_buffer_offset`) are not used by this program.
-/

namespace CiphApp.Libmemif

open Lib (forUpTo)

/-! ## Data -/

/-- A pointer into shared memory: the number of a region and an offset. -/
abbrev ShmPtr := Lib.Ptr UInt16

/-- Shared memory. -/
abbrev Shm := Lib.Heap UInt16

/-- `memif_ring_type_t`. -/
inductive MemifRingType
  | s2m
  | m2s
  deriving DecidableEq, Repr

/-- The codes that the modelled functions return.  `syscall` is what `memif_syscall_error_handler`
makes of `errno`, and `fail` is a plain `-1`. -/
inductive MemifErr
  | success
  | syscall
  | connrefused
  | invalArg
  | noconn
  | noShmfd
  | cookie
  | nobufRing
  | nobuf
  | intWrite
  | mfmsg
  | qid
  | proto
  | id
  | accslave
  | alrconn
  | mode
  | secret
  | nosecret
  | maxreg
  | maxring
  | maxRing
  | noIntfd
  | disconnect
  | disconnected
  | unknownMsg
  | privhdr
  | fail
  deriving DecidableEq, Repr

/-- `memif_desc_t`. -/
structure MemifDesc where
  flags : UInt16
  region : UInt16
  length : UInt32
  offset : UInt32

/-- `memif_ring_t`. -/
structure MemifRing where
  flags : UInt16
  head : UInt16
  tail : UInt16
  desc : ℕ → MemifDesc

/-- `memif_queue_t`. -/
structure MemifQueue where
  log2RingSize : UInt8
  lastHead : UInt16
  lastTail : UInt16
  allocBufs : UInt32

/-- `memif_buffer_t`. -/
structure MemifBuffer where
  descIndex : UInt16
  len : UInt32
  flags : UInt8
  data : Option ShmPtr
  deriving DecidableEq

/-- A `memif_buffer_t` after `memset`. -/
def MemifBuffer.zero : MemifBuffer := ⟨0, 0, 0, none⟩

/-- `memif_conn_run_args_t`. -/
structure MemifConnRunArgs where
  numS2mRings : UInt8
  numM2sRings : UInt8
  bufferSize : UInt16
  log2RingSize : UInt8
  deriving DecidableEq, Repr

/-- What the calls read of `memif_connection_t`. -/
structure MemifConnection where
  isMaster : Bool
  fd : ℤ
  runArgs : MemifConnRunArgs
  txQueues : ℕ → MemifQueue
  rxQueues : ℕ → MemifQueue

/-- `MEMIF_DESC_FLAG_NEXT`. -/
def memifDescFlagNext : UInt16 := 1

/-- `MEMIF_RING_FLAG_MASK_INT`. -/
def memifRingFlagMaskInt : UInt16 := 1

/-- `MEMIF_BUFFER_FLAG_NEXT`. -/
def memifBufferFlagNext : UInt8 := 1

/-- `MEMIF_BUFFER_FLAG_RX`. -/
def memifBufferFlagRx : UInt8 := 2

/-- `uint16_t ring_size = 1 << mq->log2_ring_size`. -/
def MemifQueue.ringSize (mq : MemifQueue) : UInt16 := UInt16.ofNat (2 ^ mq.log2RingSize.toNat)

/-- `uint16_t mask = (1 << mq->log2_ring_size) - 1`. -/
def MemifQueue.mask (mq : MemifQueue) : UInt16 := UInt16.ofNat (2 ^ mq.log2RingSize.toNat - 1)

/-- `uint32_t offset_mask = c->run_args.buffer_size - 1`. -/
def MemifConnection.offsetMask (c : MemifConnection) : UInt32 := c.runArgs.bufferSize.toUInt32 - 1

/-- Change descriptor `slot & mask`. -/
def MemifRing.setDesc (ring : MemifRing) (mask slot : UInt16) (f : MemifDesc → MemifDesc) :
    MemifRing :=
  { ring with
    desc := Function.update ring.desc (slot &&& mask).toNat (f (ring.desc (slot &&& mask).toNat)) }

/-- `memif_get_buffer`, with a pointer in place of the address. -/
def memifGetBuffer (ring : MemifRing) (index : UInt16) : ShmPtr :=
  ⟨(ring.desc index.toNat).region, (ring.desc index.toNat).offset.toNat⟩

/-- `memif_min`. -/
def memifMin (a b : UInt16) : UInt16 := if a < b then a else b

lemma toNat_memifMin (a b : UInt16) : (memifMin a b).toNat = min a.toNat b.toNat := by
  rw [memifMin]
  by_cases h : a < b
  · rw [if_pos h, min_eq_left (UInt16.lt_iff_toNat_lt.mp h).le]
  · rw [if_neg h, min_eq_right (Nat.le_of_not_lt fun hlt => h (UInt16.lt_iff_toNat_lt.mpr hlt))]

lemma toNat_pos {a : UInt16} (h : a ≠ 0) : 0 < a.toNat :=
  Nat.pos_of_ne_zero fun h' => h (UInt16.toNat_inj.mp h')

/-! ## The checks on entry -/

/-- The checks that all four calls make first.  `num` is the number of queues of the kind, and `out`
says whether the result pointer is not `NULL`. -/
def checkCall (conn : Option MemifConnection) (num : MemifConnection → UInt8) (qid : UInt16)
    (out : Bool) : Except MemifErr MemifConnection :=
  match conn with
  | none => .error .noconn
  | some c =>
      if c.fd < 0 then .error .disconnected
      else if (num c).toNat ≤ qid.toNat then .error .qid
      else if !out then .error .invalArg
      else .ok c

/-- The number of transmit queues. -/
def MemifConnection.numTx (c : MemifConnection) : UInt8 :=
  if c.isMaster then c.runArgs.numM2sRings else c.runArgs.numS2mRings

/-- The number of receive queues. -/
def MemifConnection.numRx (c : MemifConnection) : UInt8 :=
  if c.isMaster then c.runArgs.numS2mRings else c.runArgs.numM2sRings

/-! ## `memif_buffer_alloc` -/

/-- The variables of `memif_buffer_alloc`: the ring and the buffers it writes to, `mq->alloc_bufs`,
`count_out_buf`, the next slot and the number of slots that are left. -/
structure AllocState where
  ring : MemifRing
  bufs : ℕ → MemifBuffer
  allocBufs : UInt32
  countOut : UInt16
  slot : UInt16
  ns : UInt16

namespace AllocState

/-- Change the buffer `bufs + *count_out`. -/
def setBuf (s : AllocState) (f : MemifBuffer → MemifBuffer) : AllocState :=
  { s with bufs := Function.update s.bufs s.countOut.toNat (f (s.bufs s.countOut.toNat)) }

/-- `b0->desc_index = slot; ring->desc[slot & mask].flags = 0`. -/
def openSlot (mask : UInt16) (s : AllocState) : AllocState :=
  { s.setBuf fun b => { b with descIndex := s.slot } with
    ring := s.ring.setDesc mask s.slot fun d => { d with flags := 0 } }

/-- `slot++; *count_out += 1; mq->alloc_bufs++; ns--`. -/
def advance (s : AllocState) : AllocState :=
  { s with
    slot := s.slot + 1
    countOut := s.countOut + 1
    allocBufs := s.allocBufs + 1
    ns := s.ns - 1 }

/-- What fits the descriptor of the current slot.  The slave can produce a buffer with the original
length. -/
def dstLeft (c : MemifConnection) (mask : UInt16) (s : AllocState) : UInt16 :=
  if c.isMaster then (s.ring.desc (s.slot &&& mask).toNat).length.toUInt16 else c.runArgs.bufferSize

/-- The current buffer gets a length, and the slave resets the offset of the descriptor. -/
def place (c : MemifConnection) (mask len : UInt16) (s : AllocState) : AllocState :=
  let ring := if c.isMaster then s.ring else
    s.ring.setDesc mask s.slot fun d => { d with offset := d.offset - (d.offset &&& c.offsetMask) }
  { s.setBuf fun b =>
      { b with len := len.toUInt32, data := some (memifGetBuffer ring (s.slot &&& mask)) } with
    ring := ring }

/-- The current buffer is continued in the next slot. -/
def chain (mask : UInt16) (s : AllocState) : AllocState :=
  let b0 := s.bufs s.countOut.toNat
  openSlot mask (advance
    { s.setBuf fun b => { b with flags := b.flags ||| memifBufferFlagNext } with
      ring := s.ring.setDesc mask b0.descIndex fun d =>
        { d with flags := d.flags ||| memifDescFlagNext } })

/-- The buffers of a chain that does not fit are cleared.  `saved` is where the chain starts, and
`count` and `savedCount` are the counters now and when it was started. -/
def rollback (saved savedCount count : ℕ) (s : AllocState) : AllocState :=
  { s with
    bufs := fun i => if saved ≤ i ∧ i < saved + (savedCount - count + 1) then .zero else s.bufs i
    countOut := s.countOut - UInt16.ofNat (savedCount - count)
    allocBufs := UInt32.ofNat (savedCount - count) }

@[simp] lemma ns_setBuf (s : AllocState) (f : MemifBuffer → MemifBuffer) :
    (s.setBuf f).ns = s.ns := rfl

@[simp] lemma ns_place (c : MemifConnection) (mask len : UInt16) (s : AllocState) :
    (place c mask len s).ns = s.ns := rfl

@[simp] lemma ns_chain (mask : UInt16) (s : AllocState) : (chain mask s).ns = s.ns - 1 := rfl

end AllocState

/-- What is left of a packet when a part of it has been placed. -/
lemma toNat_sub_memifMin (a b : UInt16) :
    (b - memifMin a b).toNat = b.toNat - min a.toNat b.toNat := by
  have hle : memifMin a b ≤ b := by
    rw [UInt16.le_iff_toNat_le, toNat_memifMin]
    exact min_le_right _ _
  rw [UInt16.toNat_sub_of_le _ _ hle, toNat_memifMin]

/-- The inner loop, `while (src_left)`: as much of the packet as fits is placed in the current slot,
the rest in the slots behind it.  The result says whether the chain was given up. -/
def chainLoop (c : MemifConnection) (mask : UInt16) (saved savedCount count : ℕ)
    (dstLeft srcLeft : UInt16) (s : AllocState) : Bool × AllocState :=
  if srcLeft = 0 then (false, s)
  else if dstLeft = 0 then
    if count ≠ 0 ∧ s.ns ≠ 0 then
      chainLoop c mask saved savedCount count
        ((s.chain mask).dstLeft c mask - memifMin ((s.chain mask).dstLeft c mask) srcLeft)
        (srcLeft - memifMin ((s.chain mask).dstLeft c mask) srcLeft)
        ((s.chain mask).place c mask (memifMin ((s.chain mask).dstLeft c mask) srcLeft))
    else (true, s.rollback saved savedCount count)
  else
    chainLoop c mask saved savedCount count (dstLeft - memifMin dstLeft srcLeft)
      (srcLeft - memifMin dstLeft srcLeft) (s.place c mask (memifMin dstLeft srcLeft))
termination_by srcLeft.toNat + s.ns.toNat
decreasing_by
  · rename_i _ _ hns
    have hns' := toNat_pos hns.2
    have hpred : (s.ns - 1).toNat = s.ns.toNat - 1 :=
      UInt16.toNat_sub_of_le _ _ (UInt16.le_iff_toNat_le.mpr hns')
    simp only [AllocState.ns_place, AllocState.ns_chain, toNat_sub_memifMin, hpred]
    omega
  · rename_i hsrc hdst
    have hsrc' := toNat_pos hsrc
    have hdst' := toNat_pos hdst
    simp only [AllocState.ns_place, toNat_sub_memifMin]
    omega

/-- The outer loop, `while (count && ns)`.  Returns the count that is left. -/
def allocLoop (c : MemifConnection) (mask size : UInt16) : ℕ → AllocState → ℕ × AllocState
  | 0, s => (0, s)
  | count + 1, s =>
      if s.ns = 0 then (count + 1, s)
      else
        match chainLoop c mask s.countOut.toNat (count + 1) (count + 1)
            ((s.openSlot mask).dstLeft c mask) size (s.openSlot mask) with
        | (true, s') => (count + 1, s')
        | (false, s') => allocLoop c mask size count s'.advance

/-- The first free slot: `slot = is_master ? ring->tail : ring->head; slot += mq->alloc_bufs`. -/
def allocSlot (c : MemifConnection) (mq : MemifQueue) (ring : MemifRing) : UInt16 :=
  ((if c.isMaster then ring.tail else ring.head).toUInt32 + mq.allocBufs).toUInt16

/-- The number of free slots. -/
def allocNs (c : MemifConnection) (mq : MemifQueue) (ring : MemifRing) : UInt16 :=
  if c.isMaster then (ring.head.toUInt32 - (ring.tail.toUInt32 + mq.allocBufs)).toUInt16
  else
    (mq.ringSize.toUInt32 - (ring.head.toUInt32 + mq.allocBufs) + ring.tail.toUInt32).toUInt16

/-- What a call leaves behind. -/
structure AllocResult where
  err : MemifErr
  countOut : UInt16
  bufs : ℕ → MemifBuffer
  ring : MemifRing
  mq : MemifQueue

/-- The body of `memif_buffer_alloc`. -/
def bufferAlloc (c : MemifConnection) (mq : MemifQueue) (ring : MemifRing)
    (bufs : ℕ → MemifBuffer) (count size : UInt16) : AllocResult :=
  let r := allocLoop c mq.mask size count.toNat
    ⟨ring, bufs, mq.allocBufs, 0, allocSlot c mq ring, allocNs c mq ring⟩
  ⟨if r.1 = 0 then .success else .nobufRing, r.2.countOut, r.2.bufs, r.2.ring,
    { mq with allocBufs := r.2.allocBufs }⟩

/-- `memif_buffer_alloc`. -/
def memifBufferAlloc (conn : Option MemifConnection) (ring : MemifRing) (qid : UInt16)
    (bufs : ℕ → MemifBuffer) (count : UInt16) (countOut : Bool) (size : UInt16) :
    Except MemifErr AllocResult := do
  let c ← checkCall conn MemifConnection.numTx qid countOut
  return bufferAlloc c (c.txQueues qid.toNat) ring bufs count size

/-! ## `memif_tx_burst` -/

/-- What a call leaves behind. -/
structure TxResult where
  err : MemifErr
  tx : UInt16
  ring : MemifRing
  mq : MemifQueue

/-- `if (count > mq->alloc_bufs) count = mq->alloc_bufs`. -/
def txCount (mq : MemifQueue) (count : UInt16) : UInt16 :=
  if mq.allocBufs < count.toUInt32 then mq.allocBufs.toUInt16 else count

/-- The loop that sets the lengths. -/
def txLoop (mask : UInt16) (bufs : ℕ → MemifBuffer) (count : ℕ) (ring : MemifRing) : MemifRing :=
  forUpTo count
    (fun k ring => ring.setDesc mask (bufs k).descIndex fun d => { d with length := (bufs k).len })
    ring

/-- The index that publishes the buffers. -/
def publishTx (c : MemifConnection) (index : UInt16) (ring : MemifRing) : MemifRing :=
  if c.isMaster then { ring with tail := index } else { ring with head := index }

/-- The body of `memif_tx_burst`; `intWrite` says whether the other side can be notified. -/
def txBurst (c : MemifConnection) (mq : MemifQueue) (ring : MemifRing) (bufs : ℕ → MemifBuffer)
    (count : UInt16) (intWrite : Bool) : TxResult :=
  let count := txCount mq count
  if count = 0 then ⟨.success, 0, ring, mq⟩
  else
    let ring' := publishTx c ((bufs (count.toNat - 1)).descIndex + 1)
      (txLoop mq.mask bufs count.toNat ring)
    ⟨if ring'.flags &&& memifRingFlagMaskInt = 0 ∧ !intWrite then .intWrite else .success, count,
      ring', { mq with allocBufs := mq.allocBufs - count.toUInt32 }⟩

/-- `memif_tx_burst`. -/
def memifTxBurst (conn : Option MemifConnection) (ring : MemifRing) (qid : UInt16)
    (bufs : ℕ → MemifBuffer) (count : UInt16) (tx intWrite : Bool) : Except MemifErr TxResult := do
  let c ← checkCall conn MemifConnection.numTx qid tx
  return txBurst c (c.txQueues qid.toNat) ring bufs count intWrite

/-! ## `memif_rx_burst` -/

/-- What a call leaves behind. -/
structure RxResult where
  err : MemifErr
  rx : UInt16
  bufs : ℕ → MemifBuffer
  ring : MemifRing
  mq : MemifQueue

/-- The buffer that is received in slot `cur_slot`. -/
def rxBuffer (mask curSlot : UInt16) (ring : MemifRing) : MemifBuffer :=
  let d := ring.desc (curSlot &&& mask).toNat
  ⟨curSlot, d.length,
    if d.flags &&& memifDescFlagNext ≠ 0 then memifBufferFlagRx ||| memifBufferFlagNext
    else memifBufferFlagRx,
    some (memifGetBuffer ring (curSlot &&& mask))⟩

/-- What becomes of its descriptor.  The slave resets the length. -/
def rxDesc (c : MemifConnection) (d : MemifDesc) : MemifDesc :=
  { d with
    length := if c.isMaster then d.length else c.runArgs.bufferSize.toUInt32
    flags := if d.flags &&& memifDescFlagNext ≠ 0 then d.flags &&& ~~~memifDescFlagNext
      else d.flags }

/-- One round of the loop. -/
def rxRound (c : MemifConnection) (mask curSlot : UInt16) (k : ℕ)
    (s : MemifRing × (ℕ → MemifBuffer)) : MemifRing × (ℕ → MemifBuffer) :=
  (s.1.setDesc mask curSlot (rxDesc c), Function.update s.2 k (rxBuffer mask curSlot s.1))

/-- The loop `while (ns && count)`, which makes `n` rounds. -/
def rxLoop (c : MemifConnection) (mask curSlot : UInt16) (n : ℕ) (ring : MemifRing)
    (bufs : ℕ → MemifBuffer) : MemifRing × (ℕ → MemifBuffer) :=
  forUpTo n (fun k s => rxRound c mask (curSlot + UInt16.ofNat k) k s) (ring, bufs)

/-- The first slot to be received. -/
def rxCurSlot (c : MemifConnection) (mq : MemifQueue) : UInt16 :=
  if c.isMaster then mq.lastHead else mq.lastTail

/-- The end of what was sent. -/
def rxLastSlot (c : MemifConnection) (ring : MemifRing) : UInt16 :=
  if c.isMaster then ring.head else ring.tail

/-- The body of `memif_rx_burst`; `intRead` says whether the read of the event descriptor succeeds
or reports `EAGAIN`. -/
def rxBurst (c : MemifConnection) (mq : MemifQueue) (ring : MemifRing) (bufs : ℕ → MemifBuffer)
    (count : UInt16) (intRead : Bool) : RxResult :=
  let curSlot := rxCurSlot c mq
  let ns := rxLastSlot c ring - curSlot
  if curSlot = rxLastSlot c ring then
    ⟨if intRead then .success else .syscall, 0, bufs, ring, mq⟩
  else
    let n := memifMin ns count
    let r := rxLoop c mq.mask curSlot n.toNat ring bufs
    let last := curSlot + n
    ⟨if count < ns then .nobuf else if intRead then .success else .syscall, n, r.2, r.1,
      if c.isMaster then { mq with lastHead := last } else { mq with lastTail := last }⟩

/-- `memif_rx_burst`. -/
def memifRxBurst (conn : Option MemifConnection) (ring : MemifRing) (qid : UInt16)
    (bufs : ℕ → MemifBuffer) (count : UInt16) (rx intRead : Bool) : Except MemifErr RxResult := do
  let c ← checkCall conn MemifConnection.numRx qid rx
  return rxBurst c (c.rxQueues qid.toNat) ring bufs count intRead

/-! ## `memif_refill_queue` -/

/-- The tail the master publishes.  The comparison is one of `int`s, so it does not wrap. -/
def refillTail (mq : MemifQueue) (ring : MemifRing) (count : UInt16) : UInt16 :=
  if ring.tail.toNat + count.toNat ≤ mq.lastHead.toNat then ring.tail + count else mq.lastHead

/-- The head the slave publishes. -/
def refillHead (mq : MemifQueue) (ring : MemifRing) (count : UInt16) : UInt16 :=
  ring.head + memifMin count (mq.ringSize - ring.head + mq.lastTail)

/-- The loop `while (slot < head)` that resets the descriptors the slave offers. -/
def refillLoop (c : MemifConnection) (mask headroom head : UInt16) (ring : MemifRing) :
    MemifRing :=
  forUpTo (head.toNat - ring.head.toNat)
    (fun k r => r.setDesc mask (ring.head + UInt16.ofNat k) fun d =>
      { d with
        region := 1
        length := c.runArgs.bufferSize.toUInt32 - headroom.toUInt32
        offset := d.offset - (d.offset &&& c.offsetMask) + headroom.toUInt32 })
    ring

/-- The body of `memif_refill_queue`. -/
def refillQueue (c : MemifConnection) (mq : MemifQueue) (ring : MemifRing)
    (count headroom : UInt16) : MemifRing :=
  if c.isMaster then { ring with tail := refillTail mq ring count }
  else
    let head := refillHead mq ring count
    { refillLoop c mq.mask headroom head ring with head }

/-- `memif_refill_queue`, which succeeds if the checks do. -/
def memifRefillQueue (conn : Option MemifConnection) (ring : MemifRing)
    (qid count headroom : UInt16) : Except MemifErr MemifRing := do
  let c ← checkCall conn MemifConnection.numRx qid true
  return refillQueue c (c.rxQueues qid.toNat) ring count headroom

end CiphApp.Libmemif
