import CiphApp.Libmemif.Runs
import CiphApp.Memif.Link

/-!
# What a ring guarantees

Consequences of the simulation for whole runs of the two processes, in every order of their steps
and however often the indices wrap.  The runs are those of `RingStep` on a `RingConfig`, and all
that is assumed of the two applications is in these two: buffers are allocated for packets of
1 to `buffer_size` bytes, the buffer size is a power of two, the connection has at most `2 ^ 16`
descriptors and `2 ^ 14` to a ring, buffers are sent and given back in order and without headroom,
and on a ring to the master a part of what is held is given back only while the indices have not
wrapped (`RefillExact`).

* `ring_delivers`: what is received is a beginning of what was sent, in order and byte for byte, and
  at most a ring of packets is on the way.
* `held_unchanged`: what the consumer holds is what it received, until it gives it back.
* `ring_drains`: `memif_tx_burst`, `memif_rx_burst` and `memif_refill_queue`, called once each,
  empty the ring, and then all of it is free.
* `rx_exact` and `alloc_exact`: what a `memif_rx_burst` receives and a `memif_buffer_alloc` is
  granted, and what they return.
* `refill_moves_tail`: when the master gives back a part of what it holds, and when all of it.
* `ring_refines_link`: the rings of `CiphApp.Link` are what libmemif provides.

`ring_drains`, `rx_exact` and `alloc_exact` are about the calls themselves, checks included, on two
connections that are up and have the ring as one of their queues (`TxEnd`, `RxEnd`).
-/

namespace CiphApp.Libmemif

open Lib

/-! ## Whole runs -/

/-- **A ring delivers what was sent.**  In every run, from the connection on, with the steps of the
producer and the consumer in any order: the packets that were received are the first of those that
were sent, in the same order and with the same bytes, and at most as many as the ring has
descriptors are on the way. -/
theorem ring_delivers (g : RingConfig) (shm : Shm) (ls : List (ChannelOp Packet)) (s : SharedRing)
    (h : Trace (RingStep g) (.init g shm) ls s) :
    receivedBy ls <+: sentBy ls ∧ (sentBy ls).length ≤ (receivedBy ls).length + g.size := by
  obtain ⟨c, -, -, hsent, hreceived⟩ := exists_channel h
  have h1 := c.received_le
  have h2 := c.sent_le
  have h3 := c.reserved_le
  have h4 := c.limit_le
  rw [hsent, hreceived, List.length_take, min_eq_left h1]
  exact ⟨List.take_prefix _ _, by omega⟩

/-- Of four packets on a ring of this program, two were received: the first two. -/
theorem ring_delivers_ciphRing : ∃ ls s,
    Trace (RingStep (ciphRing .s2m)) ciphStart ls s ∧
      sentBy ls = [samplePacket 0, samplePacket 1, samplePacket 2, samplePacket 3] ∧
      receivedBy ls = [samplePacket 0, samplePacket 1] ∧ receivedBy ls <+: sentBy ls := by
  obtain ⟨ls, s, h⟩ := exists_run_samples (n := 4) (m := 2) (k := 1) (by decide) (by decide)
    (by decide)
  exact ⟨ls, s, h.trace, h.sent, h.received, (ring_delivers _ _ ls s h.trace).1⟩

/-- **What is held stays as it was received.**  In every run, the buffers that the consumer has not
given back hold the packets it received last, whatever the producer has done since. -/
theorem held_unchanged (g : RingConfig) (shm : Shm) (ls : List (ChannelOp Packet)) (s : SharedRing)
    (h : Trace (RingStep g) (.init g shm) ls s) :
    s.held.map (packet g s.shm) <:+ receivedBy ls := by
  obtain ⟨c, -, hR, -, hreceived⟩ := exists_channel h
  have h1 := c.received_le
  have h2 := hR.held_length
  have h4 := c.limit_le
  have heq : s.held.map (packet g s.shm) =
      (c.log.take c.received).drop (c.received - s.held.length) := by
    apply List.ext_getElem?
    intro i
    rw [List.getElem?_map, List.getElem?_drop, List.getElem?_take]
    rcases Nat.lt_or_ge i s.held.length with hi | hi
    · have hb : s.held[i]? = some s.held[i] := List.getElem?_eq_getElem hi
      obtain ⟨x, hx, hlen, hdata⟩ := hR.held i _ hb
      have hbytes := hR.data _ x (by rw [Channel.withheld] at h2; omega) hx
      rw [hb, Option.map_some, if_pos (by omega), hx, packet, hlen, hdata]
      simp only [hbytes]
    · rw [List.getElem?_eq_none hi, Option.map_none, if_neg (by omega)]
  rw [heq, hreceived]
  exact List.drop_suffix _ _

/-- Five packets were sent and three of them received, and the first was given back: the other two
are in the buffers that are held. -/
theorem held_unchanged_ciphRing : ∃ ls s,
    Trace (RingStep (ciphRing .s2m)) ciphStart ls s ∧ (sentBy ls).length = 5 ∧
      s.held.map (packet (ciphRing .s2m) s.shm) = [samplePacket 1, samplePacket 2] := by
  obtain ⟨ls, s, h⟩ := exists_run_samples (n := 5) (m := 3) (k := 2) (by decide) (by decide)
    (by decide)
  refine ⟨ls, s, h.trace, congrArg List.length h.sent, ?_⟩
  have hsuffix := held_unchanged _ _ ls s h.trace
  rw [List.suffix_iff_eq_drop, List.length_map, h.held, h.received] at hsuffix
  exact hsuffix

/-- **Three calls empty a ring.**  After every run, the producer sends what it has, the consumer
receives all that was sent, and it gives back all that it holds: one call each, none of which fails,
whatever becomes of the event descriptors.  Then everything that was ever sent has been received,
and the next `memif_buffer_alloc` is granted a whole ring if it asks for that many. -/
theorem ring_drains (g : RingConfig) (shm : Shm) (ls : List (ChannelOp Packet)) (s : SharedRing)
    (h : Trace (RingStep g) (.init g shm) ls s) (p c : MemifConnection) (qid qid' : UInt16)
    (hp : g.TxEnd s.txQueue p qid) (hc : g.RxEnd s.rxQueue c qid') (bufs : ℕ → MemifBuffer)
    (intWrite intRead : Bool) :
    ∃ tx rx ring k s',
      memifTxBurst (some p) s.ring qid (fun i => s.unsent.getD i .zero) 65535 true intWrite =
        .ok tx ∧
      memifRxBurst (some c) tx.ring qid' bufs 65535 true intRead = .ok rx ∧
      memifRefillQueue (some (c.withRxQueue qid' rx.mq)) rx.ring qid' 65535 0 = .ok ring ∧
      Trace (RingStep g) (.init g shm)
        (ls ++ [.send (s.unsent.map (packet g s.shm)), .silent, .receive (rx.packets g s.shm),
          .release k]) s' ∧
      receivedBy ls ++ rx.packets g s.shm = sentBy ls ++ s.unsent.map (packet g s.shm) ∧
      s'.ring = ring ∧ s'.txQueue = tx.mq ∧ s'.rxQueue = rx.mq ∧ s'.unsent = [] ∧ s'.held = [] ∧
      ∀ (bufs : ℕ → MemifBuffer) (count size : UInt16), size ≠ 0 → size ≤ g.args.bufferSize →
        ∃ r, memifBufferAlloc (some (p.withTxQueue qid tx.mq)) ring qid bufs count true size =
            .ok r ∧ r.countOut.toNat = min count.toNat g.size := by
  obtain ⟨ch, -, hR, hsent, hreceived⟩ := exists_channel h
  obtain ⟨tx, htx⟩ : ∃ tx, tx = txBurst g.producer s.txQueue s.ring
      (fun i => s.unsent.getD i .zero) 65535 intWrite := ⟨_, rfl⟩
  obtain ⟨hn, t₁, h₁⟩ := hR.run_tx intWrite htx
  obtain ⟨rx, hrx⟩ : ∃ rx, rx = rxBurst g.consumer s.rxQueue tx.ring bufs 65535 intRead := ⟨_, rfl⟩
  obtain ⟨bs, hbs, hlen, t₂, h₂⟩ := h₁.run_rx bufs 65535 intRead hrx
  obtain ⟨ring, hring⟩ : ∃ ring, ring = refillQueue g.consumer rx.mq rx.ring 65535 0 := ⟨_, rfl⟩
  obtain ⟨t₃, h₃⟩ := h₂.run_refill hring
  -- all that was sent is received
  have hall : (ch.send _ hn).queue.length ≤ (65535 : UInt16).toNat := by
    have hcells := (ch.send _ hn).conservation
    have hsize := g.size_le
    show _ ≤ 65535
    omega
  rw [min_eq_right hall] at hlen
  have hpackets : rx.packets g s.shm = (ch.send _ hn).queue :=
    (h₁.rx_fresh hrx).1.trans (List.take_of_length_le hall)
  rw [List.take_of_length_le hall, ← hpackets] at t₂
  refine ⟨tx, rx, ring, _, _, ?_, ?_, ?_, h.append ((t₁.append t₂).append t₃), ?_, rfl, rfl, rfl,
    rfl, rfl, fun bufs' count size hsize hfit => ?_⟩
  · rw [hp.memifTxBurst, htx]
  · rw [hc.memifRxBurst, hrx]
  · rw [(hc.withRxQueue rx.mq).memifRefillQueue, hring]
  · rw [hpackets, hsent, hreceived]
    show _ ++ (ch.log ++ _).drop ch.received = _
    rw [← List.take_append_of_le_length ch.received_le, List.take_append_drop]
  · refine ⟨_, (hp.withTxQueue tx.mq).memifBufferAlloc count size, ?_⟩
    rw [(h₃.alloc_fresh hsize hfit rfl).1,
      (ch.send _ hn).free_drained hbs h₃.unsent_length.symm hlen.symm]

/-- A ring of this program is emptied on which five packets were sent and three received, two of
which are held. -/
theorem ring_drains_ciphRing : ∃ ls s,
    Trace (RingStep (ciphRing .s2m)) ciphStart ls s ∧ s.held.length = 2 ∧
      ∃ tx rx ring,
        memifTxBurst (some (ciphTxEnd s)) s.ring 0 (fun i => s.unsent.getD i .zero) 65535 true
          true = .ok tx ∧
        memifRxBurst (some (ciphRxEnd s)) tx.ring 0 (fun _ => .zero) 65535 true true = .ok rx ∧
        memifRefillQueue (some ((ciphRxEnd s).withRxQueue 0 rx.mq)) rx.ring 0 65535 0 = .ok ring ∧
        rx.packets (ciphRing .s2m) s.shm = [samplePacket 3, samplePacket 4] := by
  obtain ⟨ls, s, h⟩ := exists_run_samples (n := 5) (m := 3) (k := 2) (by decide) (by decide)
    (by decide)
  obtain ⟨tx, rx, ring, k, s', htx, hrx, hring, -, hall, -⟩ := ring_drains _ _ ls s h.trace _ _ 0 0
    (txEnd_ciphTxEnd s) (rxEnd_ciphRxEnd s) (fun _ => .zero) true true
  refine ⟨ls, s, h.trace, h.held, tx, rx, ring, htx, hrx, hring, ?_⟩
  rw [h.received, h.sent, h.unsent, List.map_nil, List.append_nil] at hall
  exact List.append_cancel_left (hall.trans (List.take_append_drop 3 _).symm)

/-- **Nothing that was sent is passed over.**  After every run, a `memif_rx_burst` on the end of the
consumer receives exactly the next packets, as many as were sent and it asks for, whatever it
returns; and it returns `MEMIF_ERR_NOBUF` exactly if there are more. -/
theorem rx_exact (g : RingConfig) (shm : Shm) (ls : List (ChannelOp Packet)) (s : SharedRing)
    (h : Trace (RingStep g) (.init g shm) ls s) (c : MemifConnection) (qid : UInt16)
    (hc : g.RxEnd s.rxQueue c qid) (bufs : ℕ → MemifBuffer) (count : UInt16) (intRead : Bool) :
    ∃ r, memifRxBurst (some c) s.ring qid bufs count true intRead = .ok r ∧
      r.packets g s.shm = ((sentBy ls).drop (receivedBy ls).length).take count.toNat ∧
      (r.err = .nobuf ↔ (receivedBy ls).length + count.toNat < (sentBy ls).length) := by
  obtain ⟨ch, -, hR, hsent, hreceived⟩ := exists_channel h
  refine ⟨_, hc.memifRxBurst count intRead, ?_⟩
  rw [hsent, hreceived, List.length_take, min_eq_left ch.received_le]
  exact hR.rx_fresh rfl

/-- Three packets wait on a ring of this program, and two are asked for. -/
theorem rx_exact_ciphRing : ∃ ls s,
    Trace (RingStep (ciphRing .s2m)) ciphStart ls s ∧ (receivedBy ls).length = 1 ∧
      ∃ r, memifRxBurst (some (ciphRxEnd s)) s.ring 0 (fun _ => .zero) 2 true true = .ok r ∧
        r.packets (ciphRing .s2m) s.shm = [samplePacket 1, samplePacket 2] ∧ r.err = .nobuf := by
  obtain ⟨ls, s, h⟩ := exists_run_samples (n := 4) (m := 1) (k := 1) (by decide) (by decide)
    (by decide)
  have hone : (receivedBy ls).length = 1 := congrArg List.length h.received
  obtain ⟨r, hr, hpackets, herr⟩ := rx_exact _ _ ls s h.trace _ 0 (rxEnd_ciphRxEnd s)
    (fun _ => .zero) 2 true
  refine ⟨ls, s, h.trace, hone, r, hr, ?_, ?_⟩
  · rw [hpackets, hone, h.sent]
    rfl
  · rw [herr, hone, h.sent]
    decide

/-- The two ranges of a buffer's size do not overlap. -/
def BuffersApart (g : RingConfig) (b b' : MemifBuffer) : Prop :=
  ∀ p p', b.data = some p → b'.data = some p' →
    p.region = p'.region → p.off + g.bufferSize ≤ p'.off ∨ p'.off + g.bufferSize ≤ p.off

/-- **No buffer is lost, and none is granted twice.**  After every run, a `memif_buffer_alloc` on
the end of the producer, for packets of a size that is not zero and fits a buffer, is granted
exactly what was offered and not yet reserved, as far as it asks for it; it reports success exactly
if that is all; and no buffer it is granted overlaps one that either side still has. -/
theorem alloc_exact (g : RingConfig) (shm : Shm) (ls : List (ChannelOp Packet)) (s : SharedRing)
    (h : Trace (RingStep g) (.init g shm) ls s) (p : MemifConnection) (qid : UInt16)
    (hp : g.TxEnd s.txQueue p qid) (bufs : ℕ → MemifBuffer) (count size : UInt16)
    (hsize : size ≠ 0) (hfit : size ≤ g.args.bufferSize) :
    ∃ r, memifBufferAlloc (some p) s.ring qid bufs count true size = .ok r ∧
      r.countOut.toNat = min count.toNat (g.channel.limit + (ls.map ChannelOp.released).sum -
        (ls.map ChannelOp.reserved).sum) ∧
      (r.err = .success ↔ r.countOut = count) ∧
      ∀ i < r.countOut.toNat, ∀ b ∈ s.unsent ++ s.held, BuffersApart g (r.bufs i) b := by
  obtain ⟨c, hc, hR, -⟩ := exists_channel h
  refine ⟨_, hp.memifBufferAlloc count size, ?_⟩
  obtain ⟨hcount, herr, hdata⟩ := hR.alloc_fresh
    (r := bufferAlloc g.producer s.txQueue s.ring bufs count size) hsize hfit rfl
  have hcells := Channel.trace_cells hc
  rw [g.channel_fresh.2.2, Nat.zero_add] at hcells
  have h1 := c.received_le
  have h2 := c.sent_le
  have h3 := c.reserved_le
  have h4 := c.limit_le
  refine ⟨?_, herr, fun i hi b hb => ?_⟩
  · rw [hcount, Channel.free, hcells.1, hcells.2]
  · rw [hcount, Channel.free] at hi
    -- the cell of `b` is another one
    obtain ⟨j, hj, hne⟩ : ∃ j, b.data = some (g.bufferAt j) ∧
        j % g.size ≠ (c.reserved + i) % g.size := by
      obtain ⟨k, hk⟩ := List.mem_iff_getElem?.mp hb
      rcases Nat.lt_or_ge k s.unsent.length with hlt | hge
      · rw [List.getElem?_append_left hlt] at hk
        have hlen := hR.unsent_length
        rw [Channel.unsent] at hlen
        exact ⟨_, (hR.unsent k b hk).2, mod_ne_mod (by omega) (by omega)⟩
      · rw [List.getElem?_append_right hge] at hk
        obtain ⟨x, -, -, hd⟩ := hR.held _ b hk
        have hlt := (List.getElem?_eq_some_iff.mp hk).1
        have hheld := hR.held_length
        rw [Channel.withheld] at hheld
        exact ⟨_, hd, mod_ne_mod (by omega) (by omega)⟩
    intro q q' hq hq' _
    rw [(hdata i (by rw [hcount, Channel.free]; exact hi)).2] at hq
    rw [hj] at hq'
    obtain rfl := Option.some.inj hq
    obtain rfl := Option.some.inj hq'
    exact g.bufferAt_apart hne.symm

/-- Three packets were received on a ring of this program, and their buffers are held: 64 buffers of
the whole size are granted, and they are apart from those three. -/
theorem alloc_exact_ciphRing : ∃ ls s,
    Trace (RingStep (ciphRing .s2m)) ciphStart ls s ∧ s.held.length = 3 ∧
      ∃ r, memifBufferAlloc (some (ciphTxEnd s)) s.ring 0 (fun _ => .zero) 64 true 16384 = .ok r ∧
        (r.err = .success ↔ r.countOut = 64) ∧
        ∀ i < r.countOut.toNat, ∀ b ∈ s.unsent ++ s.held,
          BuffersApart (ciphRing .s2m) (r.bufs i) b := by
  obtain ⟨ls, s, h⟩ := exists_run_samples (n := 5) (m := 4) (k := 3) (by decide) (by decide)
    (by decide)
  obtain ⟨r, hr, -, herr, hapart⟩ := alloc_exact _ _ ls s h.trace _ 0 (txEnd_ciphTxEnd s)
    (fun _ => .zero) 64 16384 (by decide) (by decide)
  exact ⟨ls, s, h.trace, h.held, r, hr, herr, hapart⟩

/-! ## Giving a part back -/

/-- **A part is given back unless the indices have wrapped.**  On a ring to the master, after every
run, `memif_refill_queue` moves the tail by as much as it is told to, or over all that is held if
that is less; but if less than all is to be given back and the head has wrapped around and the tail
has not, then it gives back everything. -/
theorem refill_moves_tail (g : RingConfig) (hty : g.type = .s2m) (shm : Shm)
    (ls : List (ChannelOp Packet)) (s : SharedRing) (h : Trace (RingStep g) (.init g shm) ls s)
    (count : UInt16) (n : ℕ)
    (hn : n = ((refillQueue g.consumer s.rxQueue s.ring count 0).tail - s.ring.tail).toNat) :
    (s.RefillExact g count → n = min count.toNat s.held.length) ∧
      (¬s.RefillExact g count → n = s.held.length) := by
  obtain ⟨c, -, hR, -⟩ := exists_channel h
  have hmaster : g.consumer.isMaster = true := by
    rw [g.consumer_isMaster, hty]
    rfl
  obtain ⟨htail, hlast⟩ := hR.refill_indices hty
  have hsize := g.size_le
  have hheld := hR.held_length.2.trans c.withheld_le
  rw [refillQueue, if_pos hmaster] at hn
  have hexact : s.RefillExact g count ↔
      s.held.length ≤ count.toNat ∨ s.ring.tail.toNat ≤ s.rxQueue.lastHead.toNat :=
    ⟨fun h' => h' hty, fun h' _ => h'⟩
  have htail' : s.ring.tail.toNat = (c.limit - g.size) % 2 ^ 16 := by
    rw [htail, UInt16.toNat_ofNat']
  have hlast' : s.rxQueue.lastHead.toNat = (c.limit - g.size + s.held.length) % 2 ^ 16 := by
    rw [hlast, UInt16.toNat_ofNat']
  rw [hexact]
  by_cases hle : s.ring.tail.toNat + count.toNat ≤ s.rxQueue.lastHead.toNat
  · have hmove : n = count.toNat := by
      rw [hn, refillTail, if_pos hle]
      show (s.ring.tail + count - s.ring.tail).toNat = _
      rw [UInt16.add_comm, UInt16.add_sub_cancel]
    rw [hmove]
    exact ⟨fun _ => by omega, fun _ => by omega⟩
  · have hmove : n = s.held.length := by
      rw [hn, refillTail, if_neg hle]
      show (s.rxQueue.lastHead - s.ring.tail).toNat = _
      rw [htail, hlast, toNat_ofNat_sub (by omega) (by omega)]
      omega
    rw [hmove]
    exact ⟨fun _ => by omega, fun _ => rfl⟩

/-- On a ring of this program, of six buffers that are held three are to be given back.  After six
packets it is three; after 65539 of them the head is 3 and the tail 65533, and it is all six. -/
theorem refill_moves_tail_ciphRing :
    (∃ ls s, Trace (RingStep (ciphRing .s2m)) ciphStart ls s ∧ s.held.length = 6 ∧
      s.ring.tail = 0 ∧ s.rxQueue.lastHead = 6 ∧
      ((refillQueue (ciphRing .s2m).consumer s.rxQueue s.ring 3 0).tail - s.ring.tail).toNat = 3) ∧
    ∃ ls s, Trace (RingStep (ciphRing .s2m)) ciphStart ls s ∧ s.held.length = 6 ∧
      s.ring.tail = 65533 ∧ s.rxQueue.lastHead = 3 ∧
      ((refillQueue (ciphRing .s2m).consumer s.rxQueue s.ring 3 0).tail - s.ring.tail).toNat =
        6 := by
  constructor
  · obtain ⟨ls, s, h⟩ := exists_run_samples (n := 6) (m := 6) (k := 6) (by decide) (by decide)
      (by decide)
    obtain ⟨htail, hlast⟩ := h.indices rfl
    refine ⟨ls, s, h.trace, h.held, htail, hlast, ?_⟩
    have hmoves := (refill_moves_tail _ rfl _ ls s h.trace 3 _ rfl).1 fun _ => .inr (by
      rw [htail, hlast]
      decide)
    rw [hmoves, h.held]
    rfl
  · obtain ⟨ls, s, h⟩ := exists_run_samples (n := 65539) (m := 65539) (k := 6) (by decide)
      (by decide) (by decide)
    obtain ⟨htail, hlast⟩ := h.indices rfl
    refine ⟨ls, s, h.trace, h.held, htail, hlast, ?_⟩
    have hwrapped : ¬s.RefillExact (ciphRing .s2m) 3 := by
      intro hexact
      have hor := hexact rfl
      rw [h.held, htail, hlast] at hor
      exact absurd hor (by decide)
    rw [(refill_moves_tail _ rfl _ ls s h.trace 3 _ rfl).2 hwrapped, h.held]

/-! ## The rings of a link -/

/-- The bytes of a slot with a packet. -/
def Packet.slot (x : Packet) : Slot := fun i => x.data.getD i 0

/-- A ring of a `Link`, with the buffers its sender was granted and has not yet sent. -/
structure Port where
  ring : Ring
  unsent : ℕ

/-- On a ring to the slave nothing can be sent before the slave has offered buffers. -/
def Port.init : MemifRingType → Port
  | .s2m => ⟨.empty, 0⟩
  | .m2s => ⟨⟨[], ringSize⟩, 0⟩

/-- What the two sides of a `Link` do with a ring. -/
inductive PortStep (p : Port) : ChannelOp Packet → Port → Prop
  | reserve (k : ℕ) (h : k ≤ p.ring.free - p.unsent) :
      PortStep p (.reserve k) { p with unsent := p.unsent + k }
  | send (ms : List Message) (xs : List Packet) (hms : ms.map (·.slot) = xs.map Packet.slot)
      (h : ms.length ≤ p.unsent) : PortStep p (.send xs) ⟨p.ring.tx ms, p.unsent - ms.length⟩
  | receive (n : ℕ) (xs : List Packet) (h : n ≤ p.ring.queue.length)
      (hxs : xs.map Packet.slot = (p.ring.queue.take n).map (·.slot)) :
      PortStep p (.receive xs) { p with ring := p.ring.rx n }
  | release (k : ℕ) (h : k ≤ p.ring.held) :
      PortStep p (.release k) { p with ring := p.ring.refill k }
  | silent : PortStep p .silent p

/-- A ring of a link and a channel that hold the same. -/
structure Port.Matches {N : ℕ} (p : Port) (c : Channel N Packet) : Prop where
  queue : p.ring.queue.map (·.slot) = c.queue.map Packet.slot
  held : p.ring.held = c.withheld
  unsent : p.unsent = c.unsent

/-- The cells that are free are those that are not granted yet. -/
lemma Port.Matches.free {N : ℕ} {c : Channel N Packet} {p : Port} (h : p.Matches c)
    (hN : N = ringSize) : p.ring.free - p.unsent = c.free := by
  have hcells := c.conservation
  have hqueue : p.ring.queue.length = c.queue.length := by
    have hlen := congrArg List.length h.queue
    rwa [List.length_map, List.length_map] at hlen
  rw [Ring.free, h.held, h.unsent, hqueue]
  omega

/-- **A channel of 1024 cells is a ring of a link.** -/
lemma port_simulation {N : ℕ} (hN : N = ringSize) :
    Simulation (Channel.Step (N := N)) PortStep fun c p => p.Matches c := by
  rintro c o c' p h hs
  have hlen : p.ring.queue.length = c.queue.length := by
    have hlen := congrArg List.length h.queue
    rwa [List.length_map, List.length_map] at hlen
  have h1 := c.received_le
  have h2 := c.sent_le
  have h4 := c.limit_le
  cases hs with
  | reserve k hk =>
      refine ⟨_, .reserve k (by rwa [h.free hN]), h.queue, h.held, ?_⟩
      show p.unsent + k = c.reserved + k - c.log.length
      rw [h.unsent, Channel.unsent]
      omega
  | send xs hxs =>
      obtain ⟨ms, hms⟩ : ∃ ms : List Message, ms = xs.map fun x => ⟨0, x.slot⟩ := ⟨_, rfl⟩
      have hslots : ms.map (·.slot) = xs.map Packet.slot := by
        rw [hms, List.map_map]
        rfl
      have hcount : ms.length = xs.length := by rw [hms, List.length_map]
      refine ⟨_, .send ms xs hslots (by rwa [hcount, h.unsent]), ?_, h.held, ?_⟩
      · show (p.ring.queue ++ ms).map (·.slot) = ((c.log ++ xs).drop c.received).map _
        rw [List.drop_append_of_le_length h1, List.map_append, List.map_append, h.queue, hslots]
        rfl
      · show p.unsent - ms.length = c.reserved - (c.log ++ xs).length
        rw [List.length_append, h.unsent, hcount, Channel.unsent]
        omega
  | receive k hk =>
      refine ⟨_, .receive k _ (by rwa [hlen]) ?_, ?_, ?_, h.unsent⟩
      · rw [List.map_take, List.map_take, h.queue]
      · show (p.ring.queue.drop k).map (·.slot) = (c.log.drop (c.received + k)).map _
        rw [List.map_drop, h.queue, ← List.map_drop, Channel.queue, List.drop_drop]
      · show p.ring.held + k = c.received + k + N - c.limit
        rw [h.held, Channel.withheld]
        omega
  | release k hk =>
      refine ⟨_, .release k (by rwa [h.held]), h.queue, ?_, h.unsent⟩
      show p.ring.held - k = c.received + N - (c.limit + k)
      rw [h.held, Channel.withheld]
      omega
  | silent => exact ⟨p, .silent, h⟩

lemma port_init (g : RingConfig) (hsize : g.size = ringSize) :
    (Port.init g.type).Matches g.channel := by
  have hchannel : g.channel.queue = [] := by
    rw [Channel.queue, RingConfig.channel]
    cases g.type <;> rfl
  refine ⟨?_, ?_, ?_⟩
  · rw [hchannel]
    cases g.type <;> rfl
  · rw [Channel.withheld, RingConfig.channel]
    cases g.type with
    | s2m =>
        show 0 = 0 + g.size - g.size
        omega
    | m2s =>
        show ringSize = 0 + g.size - 0
        omega
  · rw [Channel.unsent, RingConfig.channel]
    cases g.type <;> rfl

/-- **A ring of libmemif behaves as a ring of a `Link`.**  Each run of the two processes on a ring
with 1024 descriptors is, step for step, one of the bounded queue that `Link` has: a sender is
granted what is free there, what is sent and received is the same, and so is what waits. -/
theorem ring_refines_link (g : RingConfig) (hsize : g.size = ringSize) (shm : Shm)
    (ls : List (ChannelOp Packet)) (s : SharedRing)
    (h : Trace (RingStep g) (.init g shm) ls s) :
    ∃ p, Trace PortStep (.init g.type) ls p ∧
      p.ring.queue.map (·.slot) =
        ((sentBy ls).drop (receivedBy ls).length).map Packet.slot ∧
      p.unsent = s.unsent.length ∧ (g.type = .s2m → p.ring.held = s.held.length) := by
  obtain ⟨c, hc, hR, hsent, hreceived⟩ := exists_channel h
  obtain ⟨p, hp, hm⟩ := (port_simulation hsize).trace (port_init g hsize) hc
  refine ⟨p, hp, ?_, hm.unsent.trans hR.unsent_length.symm, fun hty => ?_⟩
  · rw [hsent, hreceived, List.length_take, min_eq_left c.received_le, hm.queue, Channel.queue]
  · rw [hm.held, hR.held_all hty]

/-- Of three packets on a ring of this program two were received, and their buffers are held. -/
theorem ring_refines_link_ciphRing : ∃ ls s,
    Trace (RingStep (ciphRing .s2m)) ciphStart ls s ∧
      ∃ p, Trace PortStep (.init .s2m) ls p ∧ p.ring.held = 2 ∧ p.unsent = 0 ∧
        p.ring.queue.map (·.slot) = [(samplePacket 2).slot] := by
  obtain ⟨ls, s, h⟩ := exists_run_samples (n := 3) (m := 2) (k := 2) (by decide) (by decide)
    (by decide)
  obtain ⟨p, hp, hqueue, hunsent, hheld⟩ :=
    ring_refines_link (ciphRing .s2m) (by decide) _ ls s h.trace
  refine ⟨ls, s, h.trace, p, hp, (hheld rfl).trans h.held, ?_, ?_⟩
  · rw [hunsent, h.unsent, List.length_nil]
  · rw [hqueue, h.sent, h.received]
    rfl

end CiphApp.Libmemif
