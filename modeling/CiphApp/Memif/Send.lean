import CiphApp.Agent.Polling
import CiphApp.Memif.Ordering

/-!
# What `send` puts into the ring

`Memif_client::send` asks libmemif for buffers in rounds of at most 64, serialises the next
operations into those it is granted, and transmits them.  Three counters have to stay in step: the
64-bit number of operations that are left, the 16-bit index of the next operation, and the 16-bit
`tx_buf_num` of the queue, which outlives the call and is what `memif_tx_burst` is told to send.

They do as long as the index and `tx_buf_num` do not wrap (`SendState.Progress`).  An index that
wraps starts again with the first operation.  A `tx_buf_num` that wraps makes a round transmit
less than it has serialised, so the loop ends after more operations than there are.  `tx_buf_num`
need not be 0 when a call starts: a `memif_tx_burst` that fails leaves what was added to it.

The loop is a function of the answers of libmemif, one for each round.  The descriptors of the
ring are counted without wrapping, and `slots` says which operation the call has serialised into
which of them.
-/

namespace CiphApp

open Lib

/-! ## The loop -/

/-- What `memif_tx_burst` returns. -/
inductive TxResult
  /-- It fails before it has done anything: the connection is gone. -/
  | refused
  /-- It sends the buffers and fails to write the interrupt descriptor. -/
  | failed
  | success
  deriving DecidableEq, Repr

/-- The answers in one round of `send`. -/
structure SendAnswers where
  /-- `c->connected`, if the round looks at it. -/
  connected : Bool
  alloc : AllocAns
  tx : TxResult
  deriving DecidableEq, Repr

/-- `send` under way: its locals, the fields of the queue it works on, and what libmemif keeps for
the ring. -/
structure SendState where
  /-- `tx_buf_num` of the queue. -/
  txBufNum : UInt16
  txCounter : UInt64
  /-- `desc_index` of the entries of `tx_bufs`. -/
  txBufs : ℕ → ℕ
  /-- `head` of the ring. -/
  head : ℕ
  /-- `alloc_bufs` of the queue in libmemif. -/
  allocBufs : ℕ
  /-- The operations this call has serialised into the descriptors. -/
  slots : ℕ → Option ℕ
  count : ℕ
  ind : UInt16
  retries : ℕ
  /-- The indices `serialize` was called with, in order. -/
  serialized : List ℕ

namespace SendState

/-- `memif_buffer_alloc` grants `tx` buffers behind those that are allocated already, and the next
operations are serialised into them; for an index outside the list nothing is written. -/
def fill (size tx : ℕ) (s : SendState) : SendState :=
  let first := s.head + s.allocBufs
  let inds := sendIndices tx s.ind
  { s with
    txBufNum := s.txBufNum + UInt16.ofNat tx
    txBufs := fun k => if k < tx then first + k else s.txBufs k
    allocBufs := s.allocBufs + tx
    slots := fun p =>
      if first ≤ p ∧ p < first + tx then inds[p - first]?.filter (· < size) else s.slots p
    ind := s.ind + UInt16.ofNat tx
    serialized := s.serialized ++ inds }

/-- The number of buffers `memif_tx_burst` sends: what it is told to, but no more than are
allocated. -/
def burst (s : SendState) : ℕ := min s.txBufNum.toNat s.allocBufs

/-- `memif_tx_burst` sends the first `n` entries of `tx_bufs`: the head of the ring moves behind
the last one. -/
def transmit (n : ℕ) (s : SendState) : SendState :=
  { s with
    head := if n = 0 then s.head else s.txBufs (n - 1) + 1
    allocBufs := s.allocBufs - n }

/-- The end of a round in which `n` buffers were sent. -/
def account (n : ℕ) (s : SendState) : SendState :=
  { s with
    txBufNum := s.txBufNum - UInt16.ofNat n
    txCounter := s.txCounter + UInt64.ofNat n
    count := s.count - n }

/-- A round that is granted `g` buffers and goes through. -/
def round (size g : ℕ) (s : SendState) : SendState :=
  ((s.fill size g).transmit (s.fill size g).burst).account (s.fill size g).burst

/-- The operations between the head of the ring as it was and as it is. -/
def transmitted (s : SendState) (head : ℕ) : List (Option ℕ) :=
  (List.range' head (s.head - head)).map s.slots

end SendState

/-- `MAX_SEND_RETRIES`. -/
def maxSendRetries : ℕ := 1000000

/-- One round of `send`: what it returns, or `none` if the loop goes on. -/
def sendRound (size : ℕ) (s : SendState) (a : SendAnswers) : Option ℤ × SendState :=
  let due := maxSendRetries < s.retries + 1
  let s := { s with retries := if due then 0 else s.retries + 1 }
  if due ∧ a.connected = false then (some (-2), s)
  else
    match a.alloc with
    | .failed => (some (-1), s)
    | .granted tx =>
        let s := s.fill size (min tx.toNat (min maxMemifBufs s.count))
        let n := s.burst
        if a.tx = .refused then (some (-1), s)
        -- with nothing to send the interrupt descriptor is not written
        else if a.tx = .failed ∧ n ≠ 0 then (some (-1), s.transmit n)
        else (none, (s.transmit n).account n)

/-- The loop of `send`; `none` if the answers end before the loop does. -/
def sendLoop (size : ℕ) : SendState → List SendAnswers → Option ℤ × SendState
  | s, [] => (if s.count = 0 then some 0 else none, s)
  | s, a :: rest =>
      if s.count = 0 then (some 0, s)
      else
        match sendRound size s a with
        | (some ret, s') => (some ret, s')
        | (none, s') => sendLoop size s' rest

/-- The transmit side of a queue between two calls.  No buffer is allocated then
(`SendState.Progress.allocBufs_sendLoop`). -/
structure TxQueue where
  txBufNum : UInt16
  txCounter : UInt64
  txBufs : ℕ → ℕ
  head : ℕ

/-- The state in which the loop starts. -/
def SendState.start (q : TxQueue) (size : ℕ) : SendState :=
  ⟨q.txBufNum, q.txCounter, q.txBufs, q.head, 0, fun _ => none, size, 0, 0, []⟩

/-- What `send` checks of an entry of `memif_connection`. -/
structure SendConnection where
  /-- `c->conn` is not `NULL`. -/
  allocated : Bool
  connected : Bool
  deriving DecidableEq, Repr

/-- The checks of `Memif_client::send`: 0, or what it returns. -/
def sendCheck (conns : ℕ → SendConnection) (index : ℤ) : ℤ :=
  if maxConns ≤ index then -1
  else if index < 0 then -1
  else if (conns index.toNat).allocated = false then -1
  else if (conns index.toNat).connected = false then -2
  else 0

/-- `Memif_client::send` on a queue `q`. -/
def memifSend (conns : ℕ → SendConnection) (index : ℤ) (q : TxQueue) (size : ℕ)
    (answers : List SendAnswers) : Option ℤ × SendState :=
  if sendCheck conns index = 0 then sendLoop size (.start q size) answers
  else (some (sendCheck conns index), .start q size)

/-- `Ciph_comm_agent_client::send`.  There is no result if the memif index overflows. -/
def clientSend (conns : ℕ → SendConnection) (agent : ClientAgent) (connId : UInt32) (q : TxQueue)
    (size : UInt32) (answers : List SendAnswers) : Option (Option ℤ × SendState) :=
  if checkConnId agent.clientId connId then
    if agent.isConnActive connId then
      (getMemifConnId agent.clientId connId).map fun index =>
        memifSend conns index.toNat q size.toNat answers
    else some (some (-2), .start q size.toNat)
  else some (some (-1), .start q size.toNat)

/-! ## In order -/

/-- **The operations were sent once and in order**: those that were serialised and those that were
transmitted are the first ones of the list, and all of them when `send` has returned 0. -/
structure SentInOrder (size head : ℕ) (ret : Option ℤ) (s : SendState) : Prop where
  serialized : s.serialized <+: List.range size
  transmitted : s.transmitted head <+: (List.range size).map some
  whole : ret = some 0 → s.serialized = List.range size ∧
    s.transmitted head = (List.range size).map some

/-- What a round can do, once it has counted its retries: `g` is the number of buffers it was
granted. -/
inductive RoundStep (size : ℕ) (s : SendState) (a : SendAnswers) : Option ℤ → SendState → Prop
  | dropped : RoundStep size s a (some (-2)) s
  | notGranted : RoundStep size s a (some (-1)) s
  | refused (g : ℕ) (hg : g ≤ min maxMemifBufs s.count) (ha : a.tx = .refused) :
      RoundStep size s a (some (-1)) (s.fill size g)
  | failed (g : ℕ) (hg : g ≤ min maxMemifBufs s.count) :
      RoundStep size s a (some (-1)) ((s.fill size g).transmit (s.fill size g).burst)
  | sent (g : ℕ) (hg : g ≤ min maxMemifBufs s.count) :
      RoundStep size s a none (s.round size g)

lemma sendRound_step (size : ℕ) (s : SendState) (a : SendAnswers) : ∃ r,
    RoundStep size { s with retries := r } a (sendRound size s a).1 (sendRound size s a).2 := by
  unfold sendRound
  dsimp only
  generalize (if maxSendRetries < s.retries + 1 then 0 else s.retries + 1) = r
  refine ⟨r, ?_⟩
  by_cases hdue : maxSendRetries < s.retries + 1 ∧ a.connected = false
  · rw [if_pos hdue]
    exact .dropped
  · rw [if_neg hdue]
    cases a.alloc with
    | failed => exact .notGranted
    | granted tx =>
        have hg : min tx.toNat (min maxMemifBufs s.count) ≤ min maxMemifBufs s.count :=
          Nat.min_le_right _ _
        dsimp only
        split_ifs with href hfail
        · exact .refused _ hg href
        · exact .failed _ hg
        · exact .sent _ hg

namespace SendState

/-- **The counters are in step**: of `size` operations all but `count` were serialised and
transmitted from descriptor `base` on, nothing is left allocated, and the next round does not wrap
`tx_buf_num`. -/
structure Progress (size base : ℕ) (s : SendState) : Prop where
  count : s.count ≤ size
  serialized : s.serialized = List.range (size - s.count)
  ind : s.ind = UInt16.ofNat (size - s.count)
  head : s.head = base + (size - s.count)
  slots : ∀ k < size - s.count, s.slots (base + k) = some k
  allocBufs : s.allocBufs = 0
  room : s.txBufNum.toNat + min maxMemifBufs s.count < 65536

section Progress

variable {size base g : ℕ} {s : SendState}

lemma Progress.start (q : TxQueue) {size : ℕ}
    (h : q.txBufNum.toNat + min maxMemifBufs size < 65536) :
    Progress size q.head (.start q size) where
  count := le_rfl
  serialized := by simp [SendState.start]
  ind := by simp [SendState.start]
  head := by simp [SendState.start]
  slots := by simp [SendState.start]
  allocBufs := rfl
  room := h

lemma Progress.retry (h : Progress size base s) (r : ℕ) :
    Progress size base { s with retries := r } :=
  ⟨h.count, h.serialized, h.ind, h.head, h.slots, h.allocBufs, h.room⟩

lemma Progress.indices (h : Progress size base s) (hfit : size - s.count + g ≤ 65536) :
    sendIndices g s.ind = List.range' (size - s.count) g := by
  rcases Nat.eq_zero_or_pos g with rfl | hpos
  · rfl
  · have hind : s.ind.toNat = size - s.count := by
      rw [h.ind, UInt16.toNat_ofNat']
      omega
    rw [sendIndices_eq g s.ind (by omega), hind]

lemma Progress.serialized_fill (h : Progress size base s) (hfit : size - s.count + g ≤ 65536) :
    (s.fill size g).serialized = List.range (size - s.count + g) := by
  rw [fill, h.serialized, h.indices hfit, range_append_range']

lemma Progress.slots_fill (h : Progress size base s) (hg : g ≤ s.count)
    (hfit : size - s.count + g ≤ 65536) :
    ∀ k < size - s.count + g, (s.fill size g).slots (base + k) = some k := by
  intro k hk
  have hcount := h.count
  have hfirst : s.head + s.allocBufs = base + (size - s.count) := by
    rw [h.head, h.allocBufs, Nat.add_zero]
  simp only [fill, hfirst, h.indices hfit]
  split_ifs with hin
  · have hidx : base + k - (base + (size - s.count)) < g := by omega
    rw [List.getElem?_range' hidx]
    have hval : size - s.count + 1 * (base + k - (base + (size - s.count))) = k := by omega
    rw [hval]
    simp only [Option.filter_some, decide_eq_true_eq, ite_eq_left_iff, reduceCtorEq, imp_false,
      not_not]
    omega
  · exact h.slots k (by omega)

lemma burst_fill (hroom : s.txBufNum.toNat + g < 65536) :
    (s.fill size g).burst = g + min s.txBufNum.toNat s.allocBufs := by
  have hsum : (s.txBufNum + UInt16.ofNat g).toNat = s.txBufNum.toNat + g := by
    rw [UInt16.toNat_add, UInt16.toNat_ofNat']
    omega
  show min (s.txBufNum + UInt16.ofNat g).toNat (s.allocBufs + g) = _
  rw [hsum]
  omega

lemma Progress.burst_fill (h : Progress size base s) (hg : g ≤ min maxMemifBufs s.count) :
    (s.fill size g).burst = g := by
  have hroom := h.room
  rw [SendState.burst_fill (by omega), h.allocBufs, Nat.min_zero, Nat.add_zero]

lemma Progress.head_transmit (h : Progress size base s) :
    ((s.fill size g).transmit g).head = base + (size - s.count + g) := by
  rcases Nat.eq_zero_or_pos g with rfl | hpos
  · simp [transmit, fill, h.head]
  · have hlt : g - 1 < g := by omega
    simp only [transmit, fill, if_neg hpos.ne', if_pos hlt, h.head, h.allocBufs]
    omega

lemma transmitted_eq {n : ℕ} (hhead : s.head = base + n)
    (hslots : ∀ k < n, s.slots (base + k) = some k) :
    s.transmitted base = (List.range n).map some := by
  rw [SendState.transmitted, hhead, Nat.add_sub_cancel_left]
  apply List.ext_getElem
  · simp
  · intro k hk _
    have hk' : k < n := by simpa using hk
    simp [hslots k hk']

lemma prefix_range {n : ℕ} (h : n ≤ size) : List.range n <+: List.range size :=
  ⟨List.range' n (size - n), by
    rw [range_append_range', Nat.add_sub_cancel' h]⟩

/-- A call that stops early, with `m` operations serialised and `n` of them transmitted. -/
lemma sentInOrder_of_lt {m n : ℕ} {ret : ℤ} (hret : ret ≠ 0) (hm : m ≤ size) (hn : n ≤ size)
    (hserialized : s.serialized = List.range m)
    (htransmitted : s.transmitted base = (List.range n).map some) :
    SentInOrder size base (some ret) s where
  serialized := hserialized ▸ prefix_range hm
  transmitted := htransmitted ▸ (prefix_range hn).map some
  whole := fun h => absurd (Option.some.inj h) hret

lemma Progress.transmitted (h : Progress size base s) :
    s.transmitted base = (List.range (size - s.count)).map some :=
  transmitted_eq h.head h.slots

/-- **A round keeps the counters in step.** -/
lemma Progress.step (h : Progress size base s) {a : SendAnswers} {s' : SendState}
    (hfit : size - s.count + min maxMemifBufs s.count ≤ 65536)
    (hs : RoundStep size s a none s') : Progress size base s' := by
  have hcount := h.count
  cases hs with
  | sent g hg =>
      have hfit' : size - s.count + g ≤ 65536 := by omega
      have hleft : size - (s.count - g) = size - s.count + g := by omega
      rw [SendState.round, h.burst_fill hg]
      refine ⟨(Nat.sub_le _ _).trans h.count, ?_, ?_, ?_, ?_, ?_, ?_⟩
      · exact (h.serialized_fill hfit').trans (by rw [← hleft]; rfl)
      · show s.ind + UInt16.ofNat g = UInt16.ofNat (size - (s.count - g))
        rw [h.ind, hleft, UInt16.ofNat_add]
      · exact h.head_transmit.trans (by rw [← hleft]; rfl)
      · intro k hk
        have hk' : k < size - (s.count - g) := hk
        exact h.slots_fill (by omega) hfit' k (by omega)
      · show s.allocBufs + g - g = 0
        rw [h.allocBufs]
        omega
      · have hroom := h.room
        show (s.txBufNum + UInt16.ofNat g - UInt16.ofNat g).toNat +
          min maxMemifBufs (s.count - g) < 65536
        rw [add_sub_cancel_right]
        omega

/-- A round that ends the call has sent a part of the list. -/
lemma Progress.stop (h : Progress size base s) {a : SendAnswers} {ret : ℤ} {s' : SendState}
    (hfit : size - s.count + min maxMemifBufs s.count ≤ 65536)
    (hs : RoundStep size s a (some ret) s') : SentInOrder size base (some ret) s' := by
  have hcount := h.count
  cases hs with
  | dropped | notGranted =>
      exact sentInOrder_of_lt (by decide) (Nat.sub_le _ _) (Nat.sub_le _ _) h.serialized
        h.transmitted
  | refused g hg _ =>
      -- what was serialised stays in its descriptors, behind the head
      have hfit' : size - s.count + g ≤ 65536 := by omega
      exact sentInOrder_of_lt (by decide) (by omega) (Nat.sub_le size s.count)
        (h.serialized_fill hfit')
        (transmitted_eq h.head fun k hk => h.slots_fill (by omega) hfit' k (by omega))
  | failed g hg =>
      have hfit' : size - s.count + g ≤ 65536 := by omega
      rw [h.burst_fill hg]
      exact sentInOrder_of_lt (m := size - s.count + g) (by decide) (by omega) (by omega)
        (h.serialized_fill hfit')
        (transmitted_eq h.head_transmit (h.slots_fill (by omega) hfit'))

end Progress

end SendState

section Loop

variable {size base : ℕ} {s s' : SendState} {answers : List SendAnswers} {ret : Option ℤ}

lemma sendLoop_cons (hcount : s.count ≠ 0) (a : SendAnswers) (rest : List SendAnswers) :
    ∃ r, (∃ s', RoundStep size { s with retries := r } a none s' ∧
        sendLoop size s (a :: rest) = sendLoop size s' rest) ∨
      ∃ ret s', RoundStep size { s with retries := r } a (some ret) s' ∧
        sendLoop size s (a :: rest) = (some ret, s') := by
  obtain ⟨r, hstep⟩ := sendRound_step size s a
  refine ⟨r, ?_⟩
  rw [sendLoop, if_neg hcount]
  generalize sendRound size s a = result at hstep
  obtain ⟨_ | ret, s'⟩ := result
  · exact .inl ⟨s', hstep, rfl⟩
  · exact .inr ⟨ret, s', hstep, rfl⟩

lemma sendLoop_of_count_eq_zero (hcount : s.count = 0) (answers : List SendAnswers) :
    sendLoop size s answers = (some 0, s) := by
  cases answers with
  | nil => rw [sendLoop, if_pos hcount]
  | cons a rest => rw [sendLoop, if_pos hcount]

/-- **The loop sends in order**, if the index fits 16 bits. -/
lemma SendState.Progress.sendLoop (h : s.Progress size base) (hsize : size ≤ 65536)
    (answers : List SendAnswers) :
    SentInOrder size base (CiphApp.sendLoop size s answers).1
      (CiphApp.sendLoop size s answers).2 := by
  have hdone : ∀ t : SendState, t.Progress size base → ∀ ret : Option ℤ,
      (ret = some 0 → t.count = 0) → SentInOrder size base ret t := by
    intro t ht ret hret
    refine ⟨?_, ?_, fun h0 => ?_⟩
    · rw [ht.serialized]
      exact SendState.prefix_range (Nat.sub_le _ _)
    · rw [ht.transmitted]
      exact (SendState.prefix_range (Nat.sub_le _ _)).map some
    · rw [ht.serialized, ht.transmitted, hret h0, Nat.sub_zero]
      exact ⟨rfl, rfl⟩
  induction answers generalizing s with
  | nil =>
      rw [CiphApp.sendLoop]
      refine hdone s h _ fun h0 => ?_
      by_contra hne
      simp [hne] at h0
  | cons a rest ih =>
      by_cases hcount : s.count = 0
      · rw [sendLoop_of_count_eq_zero hcount]
        exact hdone s h _ fun _ => hcount
      · have hle := h.count
        have hfit : size - s.count + min maxMemifBufs s.count ≤ 65536 := by omega
        obtain ⟨r, ⟨s', hstep, heq⟩ | ⟨ret, s', hstep, heq⟩⟩ := sendLoop_cons hcount a rest
        · rw [heq]
          exact ih ((h.retry r).step hfit hstep)
        · rw [heq]
          exact (h.retry r).stop hfit hstep

/-- A call that meets its condition leaves no buffer allocated, unless the connection is gone. -/
theorem SendState.Progress.allocBufs_sendLoop (h : s.Progress size base) (hsize : size ≤ 65536)
    (hanswers : ∀ a ∈ answers, a.tx ≠ .refused) :
    (CiphApp.sendLoop size s answers).2.allocBufs = 0 := by
  induction answers generalizing s with
  | nil => exact h.allocBufs
  | cons a rest ih =>
      by_cases hcount : s.count = 0
      · rw [sendLoop_of_count_eq_zero hcount]
        exact h.allocBufs
      · have hle := h.count
        have hfit : size - s.count + min maxMemifBufs s.count ≤ 65536 := by omega
        obtain ⟨r, ⟨s', hstep, heq⟩ | ⟨ret, s', hstep, heq⟩⟩ := sendLoop_cons hcount a rest
        · rw [heq]
          exact ih ((h.retry r).step hfit hstep) fun b hb => hanswers b (List.mem_cons_of_mem a hb)
        · rw [heq]
          cases hstep with
          | dropped | notGranted => exact h.allocBufs
          | refused g hg ha => exact absurd ha (hanswers a List.mem_cons_self)
          | failed g hg =>
              rw [(h.retry r).burst_fill hg]
              show s.allocBufs + g - g = 0
              rw [h.allocBufs]
              omega

end Loop

/-! ## Counters that wrap -/

/-- A round in which everything is granted and sent. -/
def fullAnswers : SendAnswers := ⟨true, .granted 64, .success⟩

section Wrap

variable {size base : ℕ} {s : SendState}

lemma sendLoop_full (size : ℕ) (hcount : s.count ≠ 0) (rest : List SendAnswers) :
    ∃ r, sendLoop size s (fullAnswers :: rest) =
      sendLoop size ({ s with retries := r }.round size (min maxMemifBufs s.count)) rest := by
  refine ⟨if maxSendRetries < s.retries + 1 then 0 else s.retries + 1, ?_⟩
  have hgrant : min 64 (min maxMemifBufs s.count) = min maxMemifBufs s.count :=
    Nat.min_eq_right (Nat.min_le_left _ _)
  rw [sendLoop, if_neg hcount, sendRound]
  simp [fullAnswers, hgrant, SendState.round]

namespace SendState

lemma length_serialized_round (size : ℕ) (s : SendState) (g : ℕ) :
    (s.round size g).serialized.length = s.serialized.length + g := by
  show (s.serialized ++ sendIndices g s.ind).length = _
  rw [List.length_append, length_sendIndices]

/-- `tx_buf_num` does not wrap, and nothing is sent beyond what is granted. -/
structure Steady (s : SendState) : Prop where
  room : s.txBufNum.toNat + min maxMemifBufs s.count < 65536
  exact : s.txBufNum = 0 ∨ s.allocBufs = 0

lemma Steady.burst (h : s.Steady) :
    (s.fill size (min maxMemifBufs s.count)).burst = min maxMemifBufs s.count := by
  have hmin : min s.txBufNum.toNat s.allocBufs = 0 := by
    rcases h.exact with h0 | h0 <;> simp [h0]
  rw [burst_fill h.room, hmin, Nat.add_zero]

lemma Steady.round (size : ℕ) (h : s.Steady) : (s.round size (min maxMemifBufs s.count)).Steady ∧
    (s.round size (min maxMemifBufs s.count)).count = s.count - min maxMemifBufs s.count := by
  have hroom := h.room
  rw [SendState.round, h.burst]
  have hnum : (s.txBufNum + UInt16.ofNat (min maxMemifBufs s.count) -
      UInt16.ofNat (min maxMemifBufs s.count)) = s.txBufNum := add_sub_cancel_right _ _
  refine ⟨⟨?_, ?_⟩, rfl⟩
  · show (s.txBufNum + UInt16.ofNat (min maxMemifBufs s.count) -
      UInt16.ofNat (min maxMemifBufs s.count)).toNat + min maxMemifBufs (s.count - _) < 65536
    rw [hnum]
    omega
  · refine h.exact.imp (fun h0 => hnum.trans h0) fun h0 => ?_
    show s.allocBufs + min maxMemifBufs s.count - min maxMemifBufs s.count = 0
    omega

/-- **A round in which `tx_buf_num` wraps** sends what is above 65536, and leaves it at 0. -/
lemma round_of_wrap (size : ℕ) (halloc : s.allocBufs = 0)
    (hwrap : 65536 ≤ s.txBufNum.toNat + min maxMemifBufs s.count) :
    (s.round size (min maxMemifBufs s.count)).txBufNum = 0 ∧
      (s.round size (min maxMemifBufs s.count)).count =
        s.count - (s.txBufNum.toNat + min maxMemifBufs s.count - 65536) := by
  have hlt := s.txBufNum.toNat_lt
  have hle : min maxMemifBufs s.count ≤ 64 := Nat.min_le_left _ _
  have hnum : (s.txBufNum + UInt16.ofNat (min maxMemifBufs s.count)).toNat =
      s.txBufNum.toNat + min maxMemifBufs s.count - 65536 := by
    rw [UInt16.toNat_add, UInt16.toNat_ofNat']
    omega
  have hburst : (s.fill size (min maxMemifBufs s.count)).burst =
      s.txBufNum.toNat + min maxMemifBufs s.count - 65536 := by
    show min (s.txBufNum + UInt16.ofNat (min maxMemifBufs s.count)).toNat
      (s.allocBufs + min maxMemifBufs s.count) = _
    rw [hnum, halloc]
    omega
  rw [SendState.round, hburst]
  refine ⟨?_, rfl⟩
  show s.txBufNum + UInt16.ofNat (min maxMemifBufs s.count) - UInt16.ofNat
    (s.txBufNum.toNat + min maxMemifBufs s.count - 65536) = 0
  rw [← hnum, UInt16.ofNat_toNat, sub_self]

lemma Steady.retry (h : s.Steady) (r : ℕ) : Steady { s with retries := r } := ⟨h.room, h.exact⟩

/-- **From a steady state `send` serialises as many operations as it counts**, whatever is
allocated. -/
lemma Steady.sendLoop (size : ℕ) (h : s.Steady) {k : ℕ} (hk : s.count ≤ k) :
    (CiphApp.sendLoop size s (List.replicate k fullAnswers)).1 = some 0 ∧
      (CiphApp.sendLoop size s (List.replicate k fullAnswers)).2.serialized.length =
        s.serialized.length + s.count := by
  induction k generalizing s with
  | zero =>
      have h0 : s.count = 0 := by omega
      rw [sendLoop_of_count_eq_zero h0, h0]
      exact ⟨rfl, rfl⟩
  | succ k ih =>
      by_cases hcount : s.count = 0
      · rw [sendLoop_of_count_eq_zero hcount, hcount]
        exact ⟨rfl, rfl⟩
      · have hpos : 0 < min maxMemifBufs s.count := Nat.lt_min.mpr ⟨by decide, by omega⟩
        obtain ⟨r, hround⟩ := sendLoop_full size hcount (List.replicate k fullAnswers)
        rw [List.replicate_succ, hround]
        generalize hs' : { s with retries := r }.round size (min maxMemifBufs s.count) = s'
        have hsteady : s'.Steady := hs' ▸ ((h.retry r).round size).1
        have hleft : s'.count = s.count - min maxMemifBufs s.count :=
          hs' ▸ ((h.retry r).round size).2
        have hlen : s'.serialized.length = s.serialized.length + min maxMemifBufs s.count :=
          hs' ▸ length_serialized_round size { s with retries := r } _
        obtain ⟨hret, hserialized⟩ := ih hsteady (by omega)
        exact ⟨hret, by omega⟩

end SendState

lemma SendState.Progress.full_rounds (h : s.Progress size base) (hall : s.count = size) {k : ℕ}
    (hk : 64 * k ≤ 65536) (hsize : 64 * k ≤ size) (rest : List SendAnswers) :
    ∃ s', s'.Progress size base ∧ s'.count = size - 64 * k ∧
      CiphApp.sendLoop size s (List.replicate k fullAnswers ++ rest) =
        CiphApp.sendLoop size s' rest := by
  induction k generalizing rest with
  | zero => exact ⟨s, h, hall, rfl⟩
  | succ k ih =>
      obtain ⟨s', hs', hcount, heq⟩ := ih (by omega) (by omega) (fullAnswers :: rest)
      obtain ⟨r, hround⟩ := sendLoop_full size (s := s') (by omega) rest
      have hmin : min maxMemifBufs s'.count = 64 := by
        rw [maxMemifBufs]
        omega
      rw [hmin] at hround
      have hburst : ({ s' with retries := r }.fill size 64).burst = 64 :=
        (hs'.retry r).burst_fill (by rw [← hmin])
      refine ⟨_, (hs'.retry r).step (a := fullAnswers) ?_ (.sent 64 (by rw [← hmin])), ?_, ?_⟩
      · show size - s'.count + min maxMemifBufs s'.count ≤ 65536
        omega
      · show s'.count - ({ s' with retries := r }.fill size 64).burst = _
        omega
      · rw [List.replicate_succ', List.append_assoc, List.singleton_append, heq, hround]

lemma getElem?_sendIndices_zero {tx : ℕ} (h : tx ≠ 0) (ind : UInt16) :
    (sendIndices tx ind)[0]? = some ind.toNat := by
  fun_cases sendIndices tx ind with
  | case1 => exact absurd rfl h
  | case2 => rfl
  | case3 => rfl
  | case4 => rfl

/-- **An index that wraps starts again.**  After 1024 full rounds the index is 0, and the next
round serialises the first operation once more. -/
lemma serialized_wraps (hsize : 65536 < size) (h : s.Progress size base) (hall : s.count = size) :
    (sendLoop size s (List.replicate 1024 fullAnswers ++ [fullAnswers])).2.serialized[65536]? =
      some 0 := by
  obtain ⟨s', hs', hcount, heq⟩ := h.full_rounds hall (k := 1024) (by omega) (by omega)
    [fullAnswers]
  obtain ⟨r, hround⟩ := sendLoop_full size (s := s') (by omega) []
  have hleft : size - s'.count = 65536 := by omega
  have hind : s'.ind = 0 := by
    rw [hs'.ind, hleft]
    rfl
  have hpos : min maxMemifBufs s'.count ≠ 0 := by
    rw [maxMemifBufs]
    omega
  rw [heq, hround, sendLoop]
  show (s'.serialized ++ sendIndices (min maxMemifBufs s'.count) s'.ind)[65536]? = some 0
  rw [hs'.serialized, hleft, hind, List.getElem?_append_right (by rw [List.length_range]),
    List.length_range, Nat.sub_self, getElem?_sendIndices_zero hpos]
  rfl

lemma not_sentInOrder_of_size (hsize : 65536 < size) (h : s.Progress size base)
    (hall : s.count = size) :
    ¬SentInOrder size base (sendLoop size s (List.replicate 1024 fullAnswers ++ [fullAnswers])).1
      (sendLoop size s (List.replicate 1024 fullAnswers ++ [fullAnswers])).2 := by
  intro hin
  have hwrap := serialized_wraps hsize h hall
  obtain ⟨hlt, -⟩ := List.getElem?_eq_some_iff.mp hwrap
  obtain ⟨t, ht⟩ := hin.serialized
  have hnth : (List.range size)[65536]? = some 0 := by
    rw [← ht, List.getElem?_append_left hlt, hwrap]
  rw [List.getElem?_range hsize] at hnth
  exact absurd (Option.some.inj hnth) (by decide)

/-- **A `tx_buf_num` that wraps** makes the first round send less than it has serialised, and in
the end more is serialised than there is. -/
lemma not_sentInOrder_of_txBufNum {q : TxQueue} (hsize : size ≠ 0)
    (hwrap : 65536 ≤ q.txBufNum.toNat + min maxMemifBufs size) (base : ℕ) :
    ¬SentInOrder size base (sendLoop size (.start q size) (List.replicate (size + 1) fullAnswers)).1
      (sendLoop size (.start q size) (List.replicate (size + 1) fullAnswers)).2 := by
  obtain ⟨r, hround⟩ := sendLoop_full size (s := .start q size) hsize
    (List.replicate size fullAnswers)
  obtain ⟨s', hs'⟩ : ∃ s', ({ SendState.start q size with retries := r } : SendState).round size
    (min maxMemifBufs size) = s' := ⟨_, rfl⟩
  have hfirst : sendLoop size (.start q size) (fullAnswers :: List.replicate size fullAnswers) =
      sendLoop size s' (List.replicate size fullAnswers) := hs' ▸ hround
  have hpart := SendState.round_of_wrap size (s := { SendState.start q size with retries := r })
    rfl hwrap
  have hzero : s'.txBufNum = 0 := hs' ▸ hpart.1
  have hcount : s'.count = size - (q.txBufNum.toNat + min maxMemifBufs size - 65536) :=
    hs' ▸ hpart.2
  have hlen : s'.serialized.length = 0 + min maxMemifBufs size :=
    hs' ▸ SendState.length_serialized_round size { SendState.start q size with retries := r } _
  have hlt := q.txBufNum.toNat_lt
  -- from there on nothing wraps, so the rest is serialised as it is counted
  have hsteady : s'.Steady := by
    refine ⟨?_, .inl hzero⟩
    have hle : min maxMemifBufs s'.count ≤ 64 := Nat.min_le_left _ _
    rw [hzero, UInt16.toNat_zero]
    omega
  intro hin
  rw [List.replicate_succ, hfirst] at hin
  have htotal := (hsteady.sendLoop size (k := size) (by omega)).2
  have hmost := hin.serialized.length_le
  rw [List.length_range] at hmost
  omega

/-! ## When operations are sent once and in order -/

/-- `send` gets to its loop. -/
def SendReaches (conns : ℕ → SendConnection) (agent : ClientAgent) (connId : UInt32) : Prop :=
  ∃ index, agent.Reaches connId index ∧ sendCheck conns index.toNat = 0

lemma clientSend_of_reaches {conns : ℕ → SendConnection} {agent : ClientAgent} {connId : UInt32}
    (h : SendReaches conns agent connId) (q : TxQueue) (size : UInt32)
    (answers : List SendAnswers) : clientSend conns agent connId q size answers =
      some (sendLoop size.toNat (.start q size.toNat) answers) := by
  obtain ⟨index, hreach, hcheck⟩ := h
  rw [clientSend, if_pos hreach.checked, if_pos hreach.active, hreach.addressed, Option.map_some,
    memifSend, if_pos hcheck]

/-- A call that does not get to its loop returns an error and has sent nothing. -/
lemma clientSend_of_not_reaches {conns : ℕ → SendConnection} {agent : ClientAgent}
    {connId : UInt32} (h : ¬SendReaches conns agent connId) {q : TxQueue} {size : UInt32}
    {answers : List SendAnswers} {ret : Option ℤ} {s : SendState}
    (hcall : clientSend conns agent connId q size answers = some (ret, s)) :
    s = .start q size.toNat ∧ ret ≠ some 0 := by
  unfold clientSend at hcall
  split_ifs at hcall with hcheck hactive
  · obtain ⟨index, hindex, heq⟩ := Option.map_eq_some_iff.mp hcall
    have hsend : sendCheck conns index.toNat ≠ 0 := fun h0 =>
      h ⟨index, ⟨hcheck, hactive, hindex⟩, h0⟩
    rw [memifSend, if_neg hsend] at heq
    obtain ⟨rfl, rfl⟩ := Prod.mk.inj heq
    exact ⟨rfl, fun h0 => hsend (Option.some.inj h0)⟩
  · obtain ⟨rfl, rfl⟩ := Prod.mk.inj (Option.some.inj hcall)
    exact ⟨rfl, by decide⟩
  · obtain ⟨rfl, rfl⟩ := Prod.mk.inj (Option.some.inj hcall)
    exact ⟨rfl, by decide⟩

lemma sentInOrder_start (q : TxQueue) (size : ℕ) {ret : Option ℤ} (h : ret = some 0 → size = 0) :
    SentInOrder size q.head ret (.start q size) where
  serialized := List.nil_prefix
  transmitted := by simp [SendState.transmitted, SendState.start]
  whole := fun h0 => by
    rw [h h0]
    simp [SendState.transmitted, SendState.start]

/-- **When `send` sends once and in order.**  For every connection, every state of its queue and
every size: whatever libmemif answers, the operations that `send` serialises and transmits are the
first ones of the list in order, all of them when it returns 0, and no index outside the list is
serialised, if and only if `send` does not get to its loop, or there is nothing to send, or the
list has at most 65536 operations and the first round does not wrap `tx_buf_num`. -/
theorem send_in_order_iff (conns : ℕ → SendConnection) (agent : ClientAgent) (connId : UInt32)
    (q : TxQueue) (size : UInt32) :
    (∀ answers ret s, clientSend conns agent connId q size answers = some (ret, s) →
      SentInOrder size.toNat q.head ret s) ↔
      (SendReaches conns agent connId → size = 0 ∨
        size.toNat ≤ 65536 ∧ q.txBufNum.toNat + min maxMemifBufs size.toNat < 65536) := by
  constructor
  · intro hall hreach
    by_contra hcond
    have hsize : size.toNat ≠ 0 := fun h0 => hcond (.inl (UInt32.toNat_inj.mp h0))
    have hloop := fun answers => hall answers _ _ (clientSend_of_reaches hreach q size answers)
    by_cases hroom : q.txBufNum.toNat + min maxMemifBufs size.toNat < 65536
    · have hbig : 65536 < size.toNat := by
        by_contra hle
        exact hcond (.inr ⟨by omega, hroom⟩)
      exact not_sentInOrder_of_size hbig (.start q hroom) rfl (hloop _)
    · exact not_sentInOrder_of_txBufNum hsize (by omega) q.head (hloop _)
  · intro hcond answers ret s hcall
    by_cases hreach : SendReaches conns agent connId
    · rw [clientSend_of_reaches hreach] at hcall
      have heq := Option.some.inj hcall
      rcases hcond hreach with rfl | ⟨hsize, hroom⟩
      · rw [sendLoop_of_count_eq_zero rfl] at heq
        obtain ⟨rfl, rfl⟩ := Prod.mk.inj heq
        exact sentInOrder_start q 0 fun _ => rfl
      · have hin := (SendState.Progress.start q hroom).sendLoop hsize answers
        rwa [heq] at hin
    · obtain ⟨rfl, hret⟩ := clientSend_of_not_reaches hreach hcall
      exact sentInOrder_start q _ fun h0 => absurd h0 hret

/-- All connections are there, and connected. -/
def allAllocated (_ : ℕ) : SendConnection := ⟨true, true⟩

/-- A queue nothing was sent on. -/
def TxQueue.fresh : TxQueue := ⟨0, 0, fun _ => 0, 0⟩

/-- Three operations on such a queue. -/
theorem send_in_order_iff_three :
    ∀ answers ret s, clientSend allAllocated activeAgent 0 .fresh 3 answers = some (ret, s) →
      SentInOrder 3 0 ret s :=
  (send_in_order_iff allAllocated activeAgent 0 .fresh 3).mpr
    fun _ => .inr ⟨by decide, by decide⟩

/-- Of 65537 operations the last one is not sent: the first one is serialised in its place. -/
theorem send_repeats_first :
    ∃ answers ret s, clientSend allAllocated activeAgent 0 .fresh 65537 answers = some (ret, s) ∧
      s.serialized[65536]? = some 0 ∧ ¬SentInOrder 65537 0 ret s := by
  have hreach : SendReaches allAllocated activeAgent 0 := ⟨0, activeAgent_reaches, rfl⟩
  have hstart : (SendState.start .fresh 65537).Progress 65537 0 := .start .fresh (by decide)
  have hcall := clientSend_of_reaches hreach .fresh 65537
    (List.replicate 1024 fullAnswers ++ [fullAnswers])
  have hsize : (65537 : UInt32).toNat = 65537 := rfl
  have hwrap := serialized_wraps (by decide) hstart rfl
  have hnot := not_sentInOrder_of_size (by decide) hstart rfl
  rw [hsize] at hcall
  generalize sendLoop 65537 _ _ = result at hcall hwrap hnot
  exact ⟨_, result.1, result.2, hcall, hwrap, hnot⟩

end Wrap

end CiphApp
