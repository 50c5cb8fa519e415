import Mathlib

/-!
# Receive buffers are given back

`on_interrupt00_poll` is the poll of the server and `on_interrupt02_poll` that of the client.  Each
is a loop that receives a burst of buffers, works on it, and gives the buffers back to libmemif
with `memif_refill_queue`.  A call of libmemif that fails ends the loop at the label `error`, which
gives back `rx` buffers, whatever `rx` is at that point:

* a `memif_rx_burst` that fails before it writes `*rx` leaves the value of the round before, whose
  buffers were given back already, or, in the first round, what was on the stack;
* one that fails later has received `rx` buffers, but they were not added to `rx_buf_num`;
* a `memif_buffer_alloc` that fails leaves the buffers of the round to be given back, which is the
  case the label was written for;
* a `memif_tx_burst` that fails comes after the buffers of the round were given back.

The loops are functions of the answers of libmemif, one for each round.  `released_once_iff` says
for which answers the buffers are given back exactly once.
-/

namespace CiphApp

/-! ## The answers of libmemif -/

/-- What `memif_rx_burst` does. -/
inductive RxAns
  /-- It fails before it has written `*rx`: no connection, disconnected, no such queue. -/
  | refused
  /-- It receives `rx` buffers and returns 0, or `MEMIF_ERR_NOBUF` if there are more. -/
  | received (rx : UInt16) (more : Bool)
  /-- It receives `rx` buffers and fails to read the interrupt descriptor. -/
  | failed (rx : UInt16)
  deriving DecidableEq, Repr

/-- What `memif_buffer_alloc` does. -/
inductive AllocAns
  | failed
  /-- It grants `tx` buffers and returns 0, or `MEMIF_ERR_NOBUF_RING` if that is less than it was
  asked for. -/
  | granted (tx : UInt16)
  deriving DecidableEq, Repr

/-- What `memif_tx_burst` does. -/
inductive TxAns
  /-- It fails before it has done anything. -/
  | refused
  /-- It sends the buffers and fails to write the interrupt descriptor. -/
  | failed
  | sent (tx : UInt16)
  deriving DecidableEq, Repr

/-- The answers in one round of `on_interrupt00_poll`. -/
structure Answers00 where
  rx : RxAns
  alloc : AllocAns
  tx : TxAns
  deriving DecidableEq, Repr

/-! ## The loops -/

/-- The receive side of a queue of a connection: `rx_buf_num`, the counters of the connection, and
what has happened, which no step reads. -/
structure RxQueue where
  rxBufNum : UInt16
  rxCounter : UInt64
  txCounter : UInt64
  txErrCounter : UInt64
  /-- The buffers `memif_rx_burst` has handed out. -/
  received : ℕ
  /-- The buffers `memif_refill_queue` was asked to take back. -/
  refilled : ℕ
  /-- The numbers of buffers the callback was called with. -/
  delivered : List ℕ
  deriving DecidableEq, Repr

namespace RxQueue

/-- libmemif hands out `rx` buffers. -/
def receive (q : RxQueue) (rx : UInt16) : RxQueue := { q with received := q.received + rx.toNat }

/-- The poll takes note of them. -/
def hold (q : RxQueue) (rx : UInt16) : RxQueue :=
  { q with rxBufNum := q.rxBufNum + rx, rxCounter := q.rxCounter + rx.toUInt64 }

/-- `memif_refill_queue(rx)`, and `rx_buf_num -= rx`. -/
def release (q : RxQueue) (rx : UInt16) : RxQueue :=
  { q with rxBufNum := q.rxBufNum - rx, refilled := q.refilled + rx.toNat }

/-- `on_recv_cb_fn` is called with `len` buffers. -/
def deliver (q : RxQueue) (len : UInt16) : RxQueue :=
  { q with delivered := q.delivered ++ [len.toNat] }

/-- `rx - tx` messages of a burst got no response buffer. -/
def drop (q : RxQueue) (rx tx : UInt16) : RxQueue :=
  { q with txErrCounter := q.txErrCounter + (rx.toUInt64 - tx.toUInt64) }

def send (q : RxQueue) (tx : UInt16) : RxQueue :=
  { q with txCounter := q.txCounter + tx.toUInt64 }

end RxQueue

/-- The loop of `on_interrupt02_poll`; `rx` is the local variable as the last round left it.  There
is no result when the answers end before the loop does. -/
def onInterrupt02Loop : UInt16 → RxQueue → List RxAns → Option (ℤ × RxQueue)
  | _, _, [] => none
  | rx, q, .refused :: _ => some (-1, q.release rx)
  | _, q, .failed rx :: _ => some (-1, (q.receive rx).release rx)
  | _, q, .received rx more :: rest =>
      let q := (((q.receive rx).hold rx).deliver rx).release rx
      if more then onInterrupt02Loop rx q rest else some (0, q)

/-- The loop of `on_interrupt00_poll`. -/
def onInterrupt00Loop : UInt16 → RxQueue → List Answers00 → Option (ℤ × RxQueue)
  | _, _, [] => none
  | rx, q, a :: rest =>
      match a.rx with
      | .refused => some (-1, q.release rx)
      | .failed rx => some (-1, (q.receive rx).release rx)
      | .received rx more =>
          let q := (q.receive rx).hold rx
          match a.alloc with
          | .failed => some (-1, q.release rx)
          | .granted tx =>
              let q := ((q.drop rx tx).release rx).deliver tx
              match a.tx with
              | .refused => some (-1, q.release rx)
              | .failed => some (-1, q.release rx)
              | .sent tx =>
                  let q := q.send tx
                  if more then onInterrupt00Loop rx q rest else some (0, q)

/-- `MAX_CONNS`. -/
def maxConns : ℕ := 100

/-- What the polls check of an entry of `memif_connection`. -/
structure MemifConnection where
  index : UInt16
  connected : Bool
  deriving DecidableEq, Repr

/-- The checks at the head of both polls: 0, or what they return. -/
def pollCheck (conns : ℕ → MemifConnection) (index : ℤ) : ℤ :=
  if maxConns ≤ index then -1
  else if index < 0 then -1
  else if (conns index.toNat).index.toNat ≠ index then -1
  else if (conns index.toNat).connected = false then -2
  else 0

/-- `on_interrupt02_poll`; `rx₀` is what is on the stack where `rx` is. -/
def onInterrupt02Poll (conns : ℕ → MemifConnection) (index : ℤ) (rx₀ : UInt16) (q : RxQueue)
    (answers : List RxAns) : Option (ℤ × RxQueue) :=
  if pollCheck conns index = 0 then onInterrupt02Loop rx₀ q answers
  else some (pollCheck conns index, q)

/-- `on_interrupt00_poll`. -/
def onInterrupt00Poll (conns : ℕ → MemifConnection) (index : ℤ) (rx₀ : UInt16) (q : RxQueue)
    (answers : List Answers00) : Option (ℤ × RxQueue) :=
  if pollCheck conns index = 0 then onInterrupt00Loop rx₀ q answers
  else some (pollCheck conns index, q)

/-! ## Released once -/

/-- **Between `q` and `q'` buffers were given back exactly once**: as many as were received, and
`rx_buf_num` is as it was. -/
structure RxQueue.Balanced (q q' : RxQueue) : Prop where
  refilled : q'.refilled + q.received = q'.received + q.refilled
  rxBufNum : q'.rxBufNum = q.rxBufNum

/-- The answers for which `on_interrupt02_poll` gives every buffer back once: `memif_rx_burst` does
not fail, or nothing was received by it, or by the round before if it did not get as far. -/
def Harmless02 : UInt16 → List RxAns → Prop
  | _, [] => True
  | rx, .refused :: _ => rx = 0
  | _, .failed rx :: _ => rx = 0
  | _, .received rx more :: rest => more = true → Harmless02 rx rest

/-- The answers for which `on_interrupt00_poll` does: the same of `memif_rx_burst`, and
`memif_tx_burst` fails only in a round that received nothing. -/
def Harmless00 : UInt16 → List Answers00 → Prop
  | _, [] => True
  | rx, a :: rest =>
      match a.rx with
      | .refused => rx = 0
      | .failed rx => rx = 0
      | .received rx more =>
          match a.alloc with
          | .failed => True
          | .granted _ =>
              match a.tx with
              | .refused => rx = 0
              | .failed => rx = 0
              | .sent _ => more = true → Harmless00 rx rest

section Released

variable {q q₁ q' : RxQueue} {rx : UInt16} {ret : ℤ}

lemma RxQueue.Balanced.refl (q : RxQueue) : q.Balanced q := ⟨Nat.add_comm _ _, rfl⟩

lemma RxQueue.Balanced.iff_of_left (h : q.Balanced q₁) : q.Balanced q' ↔ q₁.Balanced q' := by
  have h1 := h.refilled
  constructor
  · intro h'
    have h2 := h'.refilled
    exact ⟨by omega, h'.rxBufNum.trans h.rxBufNum.symm⟩
  · intro h'
    have h2 := h'.refilled
    exact ⟨by omega, h'.rxBufNum.trans h.rxBufNum⟩

/-- The label `error` after everything was given back. -/
lemma balanced_release_iff (q : RxQueue) (rx : UInt16) : q.Balanced (q.release rx) ↔ rx = 0 := by
  constructor
  · intro h
    have h1 : q.refilled + rx.toNat + q.received = q.received + q.refilled := h.refilled
    exact UInt16.toNat_inj.mp (show rx.toNat = 0 by omega)
  · rintro rfl
    exact ⟨Nat.add_comm _ _, UInt16.sub_zero q.rxBufNum⟩

/-- The label `error` after a `memif_rx_burst` that received and failed. -/
lemma balanced_failed_iff (q : RxQueue) (rx : UInt16) :
    q.Balanced ((q.receive rx).release rx) ↔ rx = 0 := by
  constructor
  · intro h
    have h1 : q.rxBufNum - rx = q.rxBufNum := h.rxBufNum
    exact sub_eq_self.mp h1
  · rintro rfl
    exact ⟨Nat.add_comm _ _, UInt16.sub_zero q.rxBufNum⟩

/-- Buffers that are received, noted and given back, whatever is done with them. -/
lemma balanced_round (rx : UInt16) (hreceived : q'.received = q.received + rx.toNat)
    (hrefilled : q'.refilled = q.refilled + rx.toNat)
    (hnum : q'.rxBufNum = q.rxBufNum + rx - rx) : q.Balanced q' :=
  ⟨by omega, hnum.trans (add_sub_cancel_right _ _)⟩

/-- The loop of the client.  The buffers of a round that went through are balanced, so the last
round decides. -/
lemma onInterrupt02Loop_balanced {answers : List RxAns}
    (h : onInterrupt02Loop rx q answers = some (ret, q')) :
    q.Balanced q' ↔ Harmless02 rx answers := by
  induction answers generalizing rx q with
  | nil => cases h
  | cons a rest ih =>
      cases a with
      | refused =>
          cases h
          exact balanced_release_iff q rx
      | failed n =>
          cases h
          exact balanced_failed_iff q n
      | received n more =>
          have hround : q.Balanced ((((q.receive n).hold n).deliver n).release n) :=
            balanced_round n rfl rfl rfl
          cases more with
          | false =>
              cases h
              exact iff_of_true hround nofun
          | true =>
              rw [hround.iff_of_left, ih h]
              exact ⟨fun h _ => h, fun h => h rfl⟩

lemma onInterrupt00Loop_balanced {answers : List Answers00}
    (h : onInterrupt00Loop rx q answers = some (ret, q')) :
    q.Balanced q' ↔ Harmless00 rx answers := by
  induction answers generalizing rx q with
  | nil => cases h
  | cons a rest ih =>
      obtain ⟨arx, alloc, atx⟩ := a
      cases arx with
      | refused =>
          cases h
          exact balanced_release_iff q rx
      | failed n =>
          cases h
          exact balanced_failed_iff q n
      | received n more =>
          cases alloc with
          | failed =>
              cases h
              exact iff_of_true (balanced_round n rfl rfl rfl) trivial
          | granted tx =>
              have hround : q.Balanced
                  (((((q.receive n).hold n).drop n tx).release n).deliver tx) :=
                balanced_round n rfl rfl rfl
              cases atx with
              | refused =>
                  cases h
                  exact hround.iff_of_left.trans (balanced_release_iff _ n)
              | failed =>
                  cases h
                  exact hround.iff_of_left.trans (balanced_release_iff _ n)
              | sent sent =>
                  have hsent : q.Balanced
                      ((((((q.receive n).hold n).drop n tx).release n).deliver tx).send sent) :=
                    ⟨hround.refilled, hround.rxBufNum⟩
                  cases more with
                  | false =>
                      cases h
                      exact iff_of_true hsent nofun
                  | true =>
                      rw [hsent.iff_of_left, ih h]
                      exact ⟨fun h _ => h, fun h => h rfl⟩

/-- **When the buffers of a poll are released exactly once.**  For every connection, every state of
the queue, every content of the stack and all answers of libmemif: a poll that returns, with
whatever result, has asked for as many buffers to be taken back as it received and left
`rx_buf_num` as it was, if and only if it did not get past its checks or the answers are
harmless. -/
theorem released_once_iff (conns : ℕ → MemifConnection) (index : ℤ) (rx₀ : UInt16)
    (q q' : RxQueue) (ret : ℤ) :
    (∀ answers, onInterrupt00Poll conns index rx₀ q answers = some (ret, q') →
      (q.Balanced q' ↔ pollCheck conns index ≠ 0 ∨ Harmless00 rx₀ answers)) ∧
    ∀ answers, onInterrupt02Poll conns index rx₀ q answers = some (ret, q') →
      (q.Balanced q' ↔ pollCheck conns index ≠ 0 ∨ Harmless02 rx₀ answers) := by
  refine ⟨fun answers h => ?_, fun answers h => ?_⟩
  · unfold onInterrupt00Poll at h
    split_ifs at h with hc
    · rw [onInterrupt00Loop_balanced h]
      simp [hc]
    · cases h
      exact iff_of_true (.refl q) (.inl hc)
  · unfold onInterrupt02Poll at h
    split_ifs at h with hc
    · rw [onInterrupt02Loop_balanced h]
      simp [hc]
    · cases h
      exact iff_of_true (.refl q) (.inl hc)

/-- A queue of a connection that has just been made. -/
def RxQueue.fresh : RxQueue := ⟨0, 0, 0, 0, 0, 0, []⟩

/-- Every entry of `memif_connection` is connected. -/
def allConnected (i : ℕ) : MemifConnection := ⟨UInt16.ofNat i, true⟩

/-- A burst of 64 for which no response buffer can be allocated. -/
theorem released_once_iff_alloc_failed :
    ∃ q', onInterrupt00Poll allConnected 0 7 .fresh [⟨.received 64 false, .failed, .refused⟩] =
        some (-1, q') ∧ RxQueue.fresh.Balanced q' ∧ q'.refilled = 64 :=
  ⟨_, rfl, ((released_once_iff allConnected 0 7 .fresh _ (-1)).1
    [⟨.received 64 false, .failed, .refused⟩] rfl).mpr (.inr trivial), rfl⟩

/-- One request is received and answered, and the interrupt for the response cannot be written: the
one buffer is given back twice, and `rx_buf_num` becomes 65535. -/
theorem released_twice_after_tx_failed :
    ∃ q', onInterrupt00Poll allConnected 0 0 .fresh [⟨.received 1 false, .granted 1, .failed⟩] =
        some (-1, q') ∧ q'.received = 1 ∧ q'.refilled = 2 ∧ q'.rxBufNum = 65535 ∧
      ¬RxQueue.fresh.Balanced q' :=
  ⟨_, rfl, rfl, rfl, rfl, fun h => absurd h.rxBufNum (by decide)⟩

end Released

end CiphApp
