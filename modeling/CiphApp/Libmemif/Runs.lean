import CiphApp.Libmemif.Refinement

/-!
# Runs of a ring

What the calls do when nothing is stale, and the runs that this makes possible.

A call of the source loads the index of the other side and goes on at once, so it is a `look` and
the step of the call, with nothing in between.  For calls of this kind the channel says exactly what
happens: a consumer receives what it asks for as far as it was sent (`Refines.rx_fresh`), and a
producer is granted what it asks for as far as it is free (`Refines.alloc_fresh`).

`Refines.run_alloc`, `run_tx`, `run_rx` and `run_refill` are the same as steps of the two processes,
with the state that is reached.  They are what `ring_drains` puts together to empty a ring, and what
`exists_run` puts together to show that a ring can be in any of the states that its size allows: for
every list of packets there is a run in which they are sent, a given number of them is received, and
a given number of those is still held.  There the indices have wrapped as often as the list is long.
-/

namespace CiphApp.Libmemif

open Lib

/-- What was sent in a run. -/
abbrev sentBy (ls : List (ChannelOp Packet)) : List Packet := ls.flatMap ChannelOp.sent

/-- The packets of a call that receives. -/
abbrev RxResult.packets (r : RxResult) (g : RingConfig) (shm : Shm) : List Packet :=
  (List.range r.rx.toNat).map fun k => packet g shm (r.bufs k)

/-- What was received in a run. -/
abbrev receivedBy (ls : List (ChannelOp Packet)) : List Packet := ls.flatMap ChannelOp.received

/-- **Every run is one of the channel.** -/
lemma exists_channel {g : RingConfig} {shm : Shm} {ls : List (ChannelOp Packet)} {s : SharedRing}
    (h : Trace (RingStep g) (.init g shm) ls s) :
    ∃ c, Trace Channel.Step g.channel ls c ∧ Refines g s c ∧ sentBy ls = c.log ∧
      receivedBy ls = c.log.take c.received := by
  obtain ⟨c, hc, hR⟩ := (simulation g).trace (refines_init g shm) h
  exact ⟨c, hc, hR, Channel.trace_log g.channel_fresh.1 hc⟩

/-! ## Calls that look first -/

section Fresh

variable {g : RingConfig} {s : SharedRing} {c : Channel g.size Packet}

lemma withProdIndex_self (type : MemifRingType) (ring : MemifRing) :
    withProdIndex type (prodIndex type ring) ring = ring := by
  cases type <;> rfl

lemma withConsIndex_self (type : MemifRingType) (ring : MemifRing) :
    withConsIndex type (consIndex type ring) ring = ring := by
  cases type <;> rfl

/-- A consumer that looks first receives what is in the queue. -/
lemma Refines.rx_fresh (h : Refines g s c) {bufs : ℕ → MemifBuffer} {count : UInt16}
    {intRead : Bool} {r : RxResult}
    (hr : r = rxBurst g.consumer s.rxQueue s.ring bufs count intRead) :
    ((List.range r.rx.toNat).map fun k => packet g s.shm (r.bufs k)) =
        c.queue.take count.toNat ∧
      (r.err = .nobuf ↔ c.received + count.toNat < c.log.length) := by
  have h1 := c.received_le
  have h2 := c.sent_le
  have h3 := c.reserved_le
  have h4 := c.limit_le
  have h5 := g.size_le
  have hlast : rxLastSlot g.consumer s.ring = UInt16.ofNat c.log.length := by
    rw [rxLastSlot, g.consumer_isMaster, ← h.prodIndex]
    cases g.type <;> rfl
  obtain ⟨herr, hrx, -⟩ := rxBurst_spec g.consumer s.rxQueue s.ring bufs count intRead h.curSlot
    hlast h1 (by omega) rfl
  rw [← hr] at herr hrx
  have hstale : r = rxBurst g.consumer s.rxQueue
      (withProdIndex g.type (Libmemif.prodIndex g.type s.ring) s.ring) bufs count intRead := by
    rw [withProdIndex_self, hr]
  obtain ⟨-, hlabel, -⟩ := h.lookRx.rx hstale
  refine ⟨hlabel.trans ?_, herr⟩
  have hqueue : c.queue.length = c.log.length - c.received := List.length_drop
  rw [hrx, ← hqueue, ← List.take_take, List.take_of_length_le]
  rw [List.length_take]
  exact min_le_right _ _

/-- A producer that looks first is granted what is free, with the length it asks for. -/
lemma Refines.alloc_fresh (h : Refines g s c) {bufs : ℕ → MemifBuffer} {count size : UInt16}
    {r : AllocResult} (hsize : size ≠ 0) (hfit : size ≤ g.args.bufferSize)
    (hr : r = bufferAlloc g.producer s.txQueue s.ring bufs count size) :
    r.countOut.toNat = min count.toNat c.free ∧
      (r.err = .success ↔ r.countOut = count) ∧
      ∀ i < r.countOut.toNat, (r.bufs i).len = size.toUInt32 ∧
        (r.bufs i).data = some (g.bufferAt (c.reserved + i)) := by
  have h2 := c.sent_le
  have h3 := c.reserved_le
  have h4 := c.limit_le
  have h1 := c.received_le
  have h5 := g.size_le
  have hslot := h.lookTx.allocSlot
  have hns := h.lookTx.allocNs h.offered c.reserved_le h.consIndex
  rw [withConsIndex_self] at hslot hns
  have hns' : (Libmemif.allocNs g.producer s.txQueue s.ring).toNat = c.free := by
    rw [hns, UInt16.toNat_ofNat', Nat.mod_eq_of_lt (by omega), Channel.free]
  have hspec := bufferAlloc_spec g.producer s.txQueue s.ring bufs count hsize
    (show min count.toNat c.free = min count.toNat _ by rw [hns'])
    (fun hm => h.aligned (g.producer_args (g.producer_slave hm)) rfl)
    (fun i hi => by
      rw [hslot, ofNat_add_and_mask h.txLog2]
      rw [Channel.free] at hi
      exact h.roomAt hfit (by omega) (by omega))
  rw [← hr, hslot] at hspec
  obtain ⟨herr, hcount, -, -, -, hbufs⟩ := hspec
  refine ⟨hcount, ?_, fun i hi => ?_⟩
  · rw [herr, ← UInt16.toNat_inj, hcount]
    by_cases hall : min count.toNat c.free = count.toNat
    · rw [if_pos hall]
      exact iff_of_true rfl hall
    · rw [if_neg hall]
      exact iff_of_false (by decide) hall
  · obtain ⟨-, hlen, hdata⟩ := hbufs i (hcount ▸ hi)
    exact ⟨hlen, by rw [hdata, h.memifGetBuffer h.txLog2 rfl]⟩

end Fresh

/-! ## Calls as steps -/

section Progress

variable {g : RingConfig} {s : SharedRing} {c : Channel g.size Packet}

/-- A producer that looks can reserve any number of cells that are free. -/
lemma Refines.run_alloc (h : Refines g s c) {k : ℕ} (hk : k ≤ c.free) :
    ∃ s' bs, Trace (RingStep g) s [.silent, .reserve k] s' ∧ s'.unsent = s.unsent ++ bs ∧
      s'.held = s.held ∧ Refines g s' (c.reserve k hk) := by
  have hsize := g.size_le
  have hcells := c.conservation
  have hfit : (1 : UInt16) ≤ g.args.bufferSize := by
    rw [UInt16.le_iff_toNat_le, g.bufferSize_eq]
    exact Nat.two_pow_pos _
  obtain ⟨r, hr⟩ : ∃ r, r = bufferAlloc g.producer s.txQueue s.ring (fun _ => .zero)
      (UInt16.ofNat k) 1 := ⟨_, rfl⟩
  have hall : r.countOut.toNat = k := by
    rw [(h.alloc_fresh (by decide) hfit hr).1, UInt16.toNat_ofNat', Nat.mod_eq_of_lt (by omega),
      min_eq_left hk]
  rw [← withConsIndex_self g.type s.ring] at hr
  obtain ⟨hn, h'⟩ := h.lookTx.alloc (by decide) hfit hr
  have ht : Trace (RingStep g) s [.silent, .reserve r.countOut.toNat] _ :=
    (Trace.nil.snoc _ RingStep.lookTx).snoc _
      (RingStep.alloc (fun _ => .zero) (UInt16.ofNat k) 1 r (by decide) hfit hr)
  subst hall
  exact ⟨_, _, ht, rfl, rfl, h'⟩

/-- A producer that asks for it sends all that it has. -/
lemma Refines.run_tx (h : Refines g s c) (intWrite : Bool) {r : TxResult}
    (hr : r = txBurst g.producer s.txQueue s.ring (fun k => s.unsent.getD k .zero) 65535
      intWrite) :
    ∃ hn : (s.unsent.map (packet g s.shm)).length ≤ c.unsent,
      Trace (RingStep g) s [.send (s.unsent.map (packet g s.shm))]
          { s with ring := r.ring, txQueue := r.mq, unsent := [] } ∧
        Refines g { s with ring := r.ring, txQueue := r.mq, unsent := [] } (c.send _ hn) := by
  have hcells := c.conservation
  have hsize := g.size_le
  have hall : r.tx.toNat = s.unsent.length := by
    rw [hr, tx_txBurst, toNat_txCount, h.allocBufs, h.unsent_length]
    exact min_eq_right (show c.unsent ≤ 65535 by omega)
  have htake : s.unsent.take r.tx.toNat = s.unsent := by rw [hall, List.take_length]
  have hdrop : s.unsent.drop r.tx.toNat = [] := by rw [hall, List.drop_length]
  obtain ⟨hn, h'⟩ := h.tx hr
  have ht : Trace (RingStep g) s [.send ((s.unsent.take r.tx.toNat).map (packet g s.shm))] _ :=
    Trace.nil.snoc _ (RingStep.tx 65535 intWrite r hr)
  simp only [htake, hdrop] at h' ht
  exact ⟨_, ht, h'⟩

/-- A consumer that looks receives what it asks for, as far as it was sent. -/
lemma Refines.run_rx (h : Refines g s c) (bufs : ℕ → MemifBuffer) (count : UInt16)
    (intRead : Bool) {r : RxResult}
    (hr : r = rxBurst g.consumer s.rxQueue s.ring bufs count intRead) :
    ∃ (bs : List MemifBuffer) (hn : bs.length ≤ c.queue.length),
      bs.length = min count.toNat c.queue.length ∧
      Trace (RingStep g) s [.silent, .receive (c.queue.take count.toNat)]
          { s with ring := r.ring, rxQueue := r.mq, seenRx := Libmemif.prodIndex g.type s.ring,
                   held := s.held ++ bs } ∧
        Refines g { s with ring := r.ring, rxQueue := r.mq,
                           seenRx := Libmemif.prodIndex g.type s.ring, held := s.held ++ bs }
          (c.receive bs.length hn) := by
  have hlabel := (h.rx_fresh hr).1
  obtain ⟨bs, hbs⟩ : ∃ bs, bs = (List.range r.rx.toNat).map r.bufs := ⟨_, rfl⟩
  have hrx : bs.length = r.rx.toNat := by rw [hbs, List.length_map, List.length_range]
  have hlen : bs.length = min count.toNat c.queue.length := by
    have hlen := congrArg List.length hlabel
    rwa [List.length_map, List.length_range, List.length_take, ← hrx] at hlen
  -- the call leaves the indices alone
  have hring : { s.ring with desc := r.ring.desc } = r.ring := by
    obtain ⟨hhead, htail, hflags⟩ := indices_rxBurst g.consumer s.rxQueue s.ring bufs count intRead
    rw [← hr] at hhead htail hflags
    show MemifRing.mk s.ring.flags s.ring.head s.ring.tail r.ring.desc = r.ring
    rw [← hhead, ← htail, ← hflags]
  rw [← withProdIndex_self g.type s.ring] at hr
  obtain ⟨hn, -, h'⟩ := h.lookRx.rx hr
  have ht : Trace (RingStep g) s [.silent,
      .receive ((List.range r.rx.toNat).map fun k => packet g s.shm (r.bufs k))] _ :=
    (Trace.nil.snoc _ RingStep.lookRx).snoc _ (RingStep.rx bufs count intRead r hr)
  simp only [hlabel, hring, ← hbs] at h' ht
  simp only [← hrx] at h'
  exact ⟨bs, _, hlen, ht, h'⟩

/-- A consumer that asks for it gives back all that is withheld. -/
lemma Refines.run_refill (h : Refines g s c) {ring : MemifRing}
    (hr : ring = refillQueue g.consumer s.rxQueue s.ring 65535 0) :
    Trace (RingStep g) s [.release c.withheld] { s with ring, held := [] } ∧
      Refines g { s with ring, held := [] } (c.release c.withheld le_rfl) := by
  have hsize := g.size_le
  have hwithheld : c.withheld ≤ (65535 : UInt16).toNat :=
    c.withheld_le.trans (show g.size ≤ 65535 by omega)
  have hheld : s.held.length ≤ (65535 : UInt16).toNat := h.held_length.2.trans hwithheld
  have hexact : s.RefillExact g 65535 := fun _ => .inl hheld
  obtain ⟨hk, hall, h'⟩ := h.refill hexact hr
  have ht : Trace (RingStep g) s _ _ := Trace.nil.snoc _ (RingStep.refill 65535 ring hexact hr)
  simp only [hall hwithheld, List.drop_of_length_le hheld] at h' ht
  exact ⟨ht, h'⟩

end Progress

/-! ## Runs with given packets -/

/-- A run of a ring at whose end the packets `ys` were sent, the first `m` of them were received,
and the last `k` of those are held. -/
structure Exchanged (g : RingConfig) (shm : Shm) (ys : List Packet) (m k : ℕ)
    (ls : List (ChannelOp Packet)) (s : SharedRing) : Prop where
  trace : Trace (RingStep g) (.init g shm) ls s
  sent : sentBy ls = ys
  received : receivedBy ls = ys.take m
  received_le : m ≤ ys.length
  unsent : s.unsent = []
  held : s.held.length = k

section Exchanged

variable {g : RingConfig} {shm : Shm} {ys : List Packet} {m k : ℕ} {ls : List (ChannelOp Packet)}
  {s : SharedRing}

/-- The channel of such a run.  On a ring to the master, the cells that are neither in the queue nor
held are free. -/
lemma Exchanged.channel (h : Exchanged g shm ys m k ls s) (hty : g.type = .s2m) :
    ∃ c, Refines g s c ∧ c.log = ys ∧ c.received = m ∧ c.queue = ys.drop m ∧
      c.free + (ys.length - m) + k = g.size := by
  obtain ⟨c, -, hR, hsent, hreceived⟩ := exists_channel h.trace
  have hlog : c.log = ys := hsent.symm.trans h.sent
  have hm : c.received = m := by
    have hlen := congrArg List.length (hreceived.symm.trans h.received)
    have h1 := c.received_le
    have h2 := h.received_le
    rw [List.length_take, List.length_take, hlog] at hlen
    rw [hlog] at h1
    omega
  have hqueue : c.queue = ys.drop m := by rw [Channel.queue, hlog, hm]
  refine ⟨c, hR, hlog, hm, hqueue, ?_⟩
  have hcells := c.conservation
  have hunsent : c.unsent = 0 := by rw [← hR.unsent_length, h.unsent, List.length_nil]
  rw [hunsent, hqueue, List.length_drop, ← hR.held_all hty, h.held] at hcells
  omega

/-- One more packet is sent: a buffer is allocated, filled and sent. -/
lemma Exchanged.send (h : Exchanged g shm ys m k ls s) (hty : g.type = .s2m)
    (hfree : ys.length + k < m + g.size) {y : Packet} (hy : y.data.length = g.bufferSize) :
    ∃ ls' s', Exchanged g shm (ys ++ [y]) m k ls' s' := by
  obtain ⟨c, hR, -, -, -, hcells⟩ := h.channel hty
  have hm := h.received_le
  obtain ⟨s₁, bs, t₁, hunsent, hheld, hR₁⟩ := hR.run_alloc (k := 1) (by omega)
  rw [h.unsent, List.nil_append] at hunsent
  obtain ⟨b, rfl⟩ : ∃ b, bs = [b] := by
    rw [← List.length_eq_one_iff, ← hunsent, hR₁.unsent_length]
    have hnone : c.reserved - c.log.length = 0 := by
      rw [← Channel.unsent, ← hR.unsent_length, h.unsent, List.length_nil]
    have hle := c.sent_le
    show c.reserved + 1 - c.log.length = 1
    omega
  have hb : s₁.unsent[0]? = some b := by rw [hunsent, List.getElem?_cons_zero]
  obtain ⟨p, hp⟩ : ∃ p, b.data = some p := ⟨_, (hR₁.unsent 0 b hb).2⟩
  have hR₂ : Refines g { s₁ with
      shm := s₁.shm.store p y.data
      unsent := s₁.unsent.set 0 { b with len := y.len } } _ := hR₁.fill hb hp hy.le
  have t₂ := t₁.snoc _ (RingStep.fill 0 b p y.len y.data hb hp hy.le)
  obtain ⟨-, t₃, -⟩ := hR₂.run_tx true rfl
  have hpacket : (s₁.unsent.set 0 { b with len := y.len }).map
      (packet g (s₁.shm.store p y.data)) = [y] := by
    rw [hunsent, List.set_cons_zero, List.map_singleton, packet]
    simp only [hp]
    rw [← hy, Heap.bytes_store_self]
  simp only [hpacket] at t₃
  have ht := h.trace.append (t₂.append t₃)
  refine ⟨_, _, ht, ?_, ?_, ?_, rfl, ?_⟩
  · rw [sentBy, List.flatMap_append, ← sentBy, h.sent]
    rfl
  · rw [receivedBy, List.flatMap_append, ← receivedBy, h.received,
      List.take_append_of_le_length hm]
    exact List.append_nil _
  · rw [List.length_append]
    omega
  · exact (congrArg List.length hheld).trans h.held

lemma Exchanged.receive (h : Exchanged g shm ys m k ls s) (hty : g.type = .s2m) {n : ℕ}
    (hn : m + n ≤ ys.length) :
    ∃ ls' s', Exchanged g shm ys (m + n) (k + n) ls' s' := by
  obtain ⟨c, hR, hlog, hm, hqueue, hcells⟩ := h.channel hty
  have hsize := g.size_le
  have hcount : (UInt16.ofNat n).toNat = n := by
    rw [UInt16.toNat_ofNat', Nat.mod_eq_of_lt (by omega)]
  obtain ⟨bs, -, hbs, t, -⟩ := hR.run_rx (fun _ => .zero) (UInt16.ofNat n) true rfl
  rw [hcount, hqueue, List.length_drop, min_eq_left (by omega)] at hbs
  rw [hcount, hqueue] at t
  refine ⟨_, _, h.trace.append t, ?_, ?_, hn, h.unsent, ?_⟩
  · rw [sentBy, List.flatMap_append, ← sentBy, h.sent]
    exact List.append_nil _
  · rw [receivedBy, List.flatMap_append, ← receivedBy, h.received, List.take_add]
    exact congrArg (ys.take m ++ ·) (List.append_nil _)
  · show (s.held ++ bs).length = k + n
    rw [List.length_append, h.held, hbs]

/-- Where the two indices of a ring to the master are, modulo `2 ^ 16`. -/
lemma Exchanged.indices (h : Exchanged g shm ys m k ls s) (hty : g.type = .s2m) :
    s.ring.tail = UInt16.ofNat (m - k) ∧ s.rxQueue.lastHead = UInt16.ofNat m := by
  obtain ⟨c, hR, -, hm, -⟩ := h.channel hty
  obtain ⟨htail, hlast⟩ := hR.refill_indices hty
  have hheld := hR.held_all hty
  have hoffered := hR.offered hty
  have hlimit := c.limit_le
  rw [h.held, Channel.withheld, hm] at hheld
  rw [h.held] at hlast
  rw [hm] at hlimit
  exact ⟨htail.trans (congrArg _ (by omega)), hlast.trans (congrArg _ (by omega))⟩

lemma Exchanged.release (h : Exchanged g shm ys m k ls s) (hty : g.type = .s2m) :
    ∃ ls' s', Exchanged g shm ys m 0 ls' s' := by
  obtain ⟨c, hR, -⟩ := h.channel hty
  obtain ⟨t, -⟩ := hR.run_refill rfl
  refine ⟨_, _, h.trace.append t, ?_, ?_, h.received_le, h.unsent, rfl⟩
  · rw [sentBy, List.flatMap_append, ← sentBy, h.sent]
    exact List.append_nil _
  · rw [receivedBy, List.flatMap_append, ← receivedBy, h.received]
    exact List.append_nil _

end Exchanged

section Streams

variable {g : RingConfig}

lemma exists_stream (hty : g.type = .s2m) (shm : Shm) (ys : List Packet)
    (hys : ∀ y ∈ ys, y.data.length = g.bufferSize) :
    ∃ ls s, Exchanged g shm ys ys.length 0 ls s := by
  induction ys using List.reverseRecOn with
  | nil => exact ⟨[], _, .nil, rfl, rfl, le_rfl, rfl, rfl⟩
  | append_singleton ys y ih =>
      have hsize := g.size_pos
      obtain ⟨ls, s, h⟩ := ih fun x hx => hys x (List.mem_append_left _ hx)
      obtain ⟨ls₁, s₁, h₁⟩ := h.send hty (by omega) (hys y (List.mem_append_right _ (.head _)))
      obtain ⟨ls₂, s₂, h₂⟩ := h₁.receive hty (n := 1) (by rw [List.length_append]; exact le_rfl)
      obtain ⟨ls₃, s₃, h₃⟩ := h₂.release hty
      refine ⟨ls₃, s₃, ?_⟩
      rwa [List.length_append]

lemma Exchanged.exists_sends {shm : Shm} {ys : List Packet} {m k : ℕ}
    {ls : List (ChannelOp Packet)} {s : SharedRing} (h : Exchanged g shm ys m k ls s)
    (hty : g.type = .s2m) (zs : List Packet) (hzs : ∀ z ∈ zs, z.data.length = g.bufferSize)
    (hfree : ys.length + zs.length + k ≤ m + g.size) :
    ∃ ls' s', Exchanged g shm (ys ++ zs) m k ls' s' := by
  induction zs using List.reverseRecOn with
  | nil =>
      refine ⟨ls, s, ?_⟩
      rwa [List.append_nil]
  | append_singleton zs z ih =>
      rw [List.length_append, List.length_singleton] at hfree
      obtain ⟨ls₁, s₁, h₁⟩ := ih (fun x hx => hzs x (List.mem_append_left _ hx)) (by omega)
      rw [← List.append_assoc]
      refine h₁.send hty ?_ (hzs z (List.mem_append_right _ (.head _)))
      rw [List.length_append]
      omega

/-- **Every exchange that fits the ring has a run.**  The packets before those that are held go
through one by one, the others are sent one after the other, and then those that are to be held are
received. -/
lemma exists_run (hty : g.type = .s2m) (shm : Shm) (ys : List Packet)
    (hys : ∀ y ∈ ys, y.data.length = g.bufferSize) {m k : ℕ} (hk : k ≤ m)
    (hm : m ≤ ys.length) (hfits : ys.length + k ≤ m + g.size) :
    ∃ ls s, Exchanged g shm ys m k ls s := by
  have hlen : (ys.take (m - k)).length = m - k := by
    rw [List.length_take]
    omega
  obtain ⟨ls, s, h⟩ := exists_stream hty shm (ys.take (m - k))
    fun y hy => hys y (List.mem_of_mem_take hy)
  obtain ⟨ls₁, s₁, h₁⟩ := h.exists_sends hty (ys.drop (m - k))
    (fun y hy => hys y (List.mem_of_mem_drop hy))
    (by rw [hlen, List.length_drop]; omega)
  rw [List.take_append_drop, hlen] at h₁
  obtain ⟨ls₂, s₂, h₂⟩ := h₁.receive hty (n := k) (by omega)
  rw [Nat.sub_add_cancel hk, Nat.zero_add] at h₂
  exact ⟨ls₂, s₂, h₂⟩

end Streams

/-! ## The rings of this program -/

/-- A ring of this program. -/
def ciphRing (type : MemifRingType) : RingConfig where
  args := ciphRunArgs
  type
  index := 0
  index_lt := by cases type <;> decide
  log2BufferSize := 14
  bufferSize_eq := by decide
  log2RingSize_le := by decide
  descs_le := by decide
  producer := ⟨decide (type = .m2s), 3, ciphRunArgs, fun _ => initQueue ciphRunArgs,
    fun _ => initQueue ciphRunArgs⟩
  consumer := ⟨decide (type = .s2m), 4, ciphRunArgs, fun _ => initQueue ciphRunArgs,
    fun _ => initQueue ciphRunArgs⟩
  producer_isMaster := rfl
  consumer_isMaster := rfl
  producer_args := fun _ => rfl
  consumer_args := fun _ => rfl

/-- A ring of this program to the master, over memory that is all zero. -/
abbrev ciphStart : SharedRing := .init (ciphRing .s2m) ⟨fun _ _ => 0, []⟩

/-- A ring of this program on which everything is offered to the producer. -/
def ciphOffered (type : MemifRingType) : SharedRing :=
  let s := SharedRing.init (ciphRing type) ⟨fun _ _ => 0, []⟩
  { s with ring := refillQueue (ciphRing type).consumer s.rxQueue s.ring 65535 0, held := [] }

lemma refines_ciphOffered (type : MemifRingType) :
    ∃ c, Refines (ciphRing type) (ciphOffered type) c ∧ c.free = 1024 := by
  obtain ⟨-, h⟩ := (refines_init (ciphRing type) ⟨fun _ _ => 0, []⟩).run_refill rfl
  refine ⟨_, h, ?_⟩
  cases type <;> rfl

/-- The two ends of that ring: the slave, which sends, and the master, with the queues of a state.
-/
def ciphTxEnd (s : SharedRing) : MemifConnection :=
  (ciphRing .s2m).producer.withTxQueue 0 s.txQueue

def ciphRxEnd (s : SharedRing) : MemifConnection :=
  (ciphRing .s2m).consumer.withRxQueue 0 s.rxQueue

lemma txEnd_ciphTxEnd (s : SharedRing) : (ciphRing .s2m).TxEnd s.txQueue (ciphTxEnd s) 0 :=
  have hend : (ciphRing .s2m).TxEnd (initQueue ciphRunArgs) (ciphRing .s2m).producer 0 :=
    ⟨⟨rfl, rfl⟩, by decide, by decide, rfl⟩
  hend.withTxQueue s.txQueue

lemma rxEnd_ciphRxEnd (s : SharedRing) : (ciphRing .s2m).RxEnd s.rxQueue (ciphRxEnd s) 0 :=
  have hend : (ciphRing .s2m).RxEnd (initQueue ciphRunArgs) (ciphRing .s2m).consumer 0 :=
    ⟨⟨rfl, rfl⟩, by decide, by decide, rfl⟩
  hend.withRxQueue s.rxQueue

/-- A packet of length `n` in a buffer that is filled with the byte `n`. -/
def samplePacket (n : ℕ) : Packet := ⟨UInt32.ofNat n, List.replicate 16384 (UInt8.ofNat n)⟩

/-- The packets `samplePacket 0`, `samplePacket 1` and so on go through a ring of this program,
which has 1024 buffers; `m` are received, and `k` of them held. -/
lemma exists_run_samples {n m k : ℕ} (hk : k ≤ m) (hm : m ≤ n) (hfits : n + k ≤ m + 1024) :
    ∃ ls s, Exchanged (ciphRing .s2m) ⟨fun _ _ => 0, []⟩ ((List.range n).map samplePacket) m k
      ls s := by
  have hlen : ((List.range n).map samplePacket).length = n := by
    rw [List.length_map, List.length_range]
  refine exists_run (g := ciphRing .s2m) rfl _ _ ?_ hk (by rwa [hlen]) ?_
  · intro y hy
    obtain ⟨i, -, rfl⟩ := List.mem_map.mp hy
    exact List.length_replicate
  · rwa [hlen]

end CiphApp.Libmemif
