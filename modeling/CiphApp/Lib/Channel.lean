import Mathlib
import CiphApp.Lib.Simulation

/-!
# A bounded channel between a producer and a consumer

The producer reserves cells, fills them and sends them; the consumer receives what was sent and
releases the cells it is done with.  There are `N` cells, and the cell of the element with number
`i` is cell `i % N`.  `Channel N α` is what such a channel is for: the list of all elements that
were sent, and three counters.  The counters are natural numbers that never wrap and carry their
order as fields:

`received ≤ log.length ≤ reserved ≤ limit ≤ received + N`.

`limit` is how far the producer may reserve.  The elements the consumer has received and not yet
released are those from `limit - N` to `received`: their cells are the ones that the producer cannot
get.  `mod_ne_mod` is what makes this safe.

`Channel.Step` says what the two parties can do, with what is sent and received in the labels;
`Channel.trace_log` says what its traces are like.
-/

namespace Lib

/-- Two numbers less than `N` apart name different cells. -/
lemma mod_ne_mod {N i j : ℕ} (hij : i < j) (hj : j < i + N) : i % N ≠ j % N := by
  intro h
  have hdvd : N ∣ j - i := (Nat.modEq_iff_dvd' hij.le).mp h
  have hle : N ≤ j - i := Nat.le_of_dvd (by omega) hdvd
  omega

/-- All elements that were sent, and the counters of the two parties.  The counters only grow, and
cell `i % N` is that of element `i`.  The producer has reserved the cells below `reserved` and may
reserve those below `limit`; the consumer has received the elements below `received` and moves
`limit` by releasing cells.  The four inequalities are what makes a cell belong to one party at a
time. -/
structure Channel (N : ℕ) (α : Type*) where
  log : List α
  received : ℕ
  reserved : ℕ
  limit : ℕ
  received_le : received ≤ log.length
  sent_le : log.length ≤ reserved
  reserved_le : reserved ≤ limit
  limit_le : limit ≤ received + N

/-- The labels of a channel. -/
inductive ChannelOp (α : Type*)
  /-- `k` cells are reserved. -/
  | reserve (k : ℕ)
  /-- These elements are sent. -/
  | send (xs : List α)
  /-- These elements are received. -/
  | receive (xs : List α)
  /-- `k` cells are released. -/
  | release (k : ℕ)
  /-- Nothing that the other party can see. -/
  | silent

namespace ChannelOp

variable {α : Type*}

/-- What a label sends. -/
def sent : ChannelOp α → List α
  | send xs => xs
  | _ => []

/-- What a label receives. -/
def received : ChannelOp α → List α
  | receive xs => xs
  | _ => []

/-- How many cells a label reserves. -/
def reserved : ChannelOp α → ℕ
  | reserve k => k
  | _ => 0

/-- How many cells a label releases. -/
def released : ChannelOp α → ℕ
  | release k => k
  | _ => 0

end ChannelOp

namespace Channel

variable {N : ℕ} {α : Type*}

/-- What was sent and not yet received. -/
def queue (c : Channel N α) : List α := c.log.drop c.received

/-- The cells the producer can still reserve. -/
def free (c : Channel N α) : ℕ := c.limit - c.reserved

/-- The cells reserved and not yet sent. -/
def unsent (c : Channel N α) : ℕ := c.reserved - c.log.length

/-- The cells the consumer has not offered to the producer. -/
def withheld (c : Channel N α) : ℕ := c.received + N - c.limit

/-- A channel on which nothing has happened, with `k` of its cells offered. -/
def init (k : ℕ) (h : k ≤ N) : Channel N α where
  log := []
  received := 0
  reserved := 0
  limit := k
  received_le := le_rfl
  sent_le := le_rfl
  reserved_le := Nat.zero_le k
  limit_le := by omega

/-- **No cell is lost**: each is free, reserved, in the queue or withheld. -/
lemma conservation (c : Channel N α) :
    c.free + c.unsent + c.queue.length + c.withheld = N := by
  have h1 := c.received_le
  have h2 := c.sent_le
  have h3 := c.reserved_le
  have h4 := c.limit_le
  simp only [free, unsent, queue, withheld, List.length_drop]
  omega

lemma withheld_le (c : Channel N α) : c.withheld ≤ N := by
  have h := c.conservation
  omega

/-- **A reserved cell is free of elements**: it is not that of one in the queue or withheld. -/
lemma cell_ne (c : Channel N α) {i k : ℕ} (hk : k < c.unsent) (hi : i < c.log.length)
    (hlimit : c.limit ≤ i + N) : i % N ≠ (c.log.length + k) % N := by
  have hreserved := c.reserved_le
  rw [unsent] at hk
  exact mod_ne_mod (by omega) (by omega)

/-! ## Steps -/

/-- Reserve `k` cells. -/
def reserve (c : Channel N α) (k : ℕ) (h : k ≤ c.free) : Channel N α :=
  { c with
    reserved := c.reserved + k
    sent_le := c.sent_le.trans (Nat.le_add_right _ _)
    reserved_le := by
      have h3 := c.reserved_le
      rw [free] at h
      omega }

/-- Send these elements. -/
def send (c : Channel N α) (xs : List α) (h : xs.length ≤ c.unsent) : Channel N α :=
  { c with
    log := c.log ++ xs
    received_le := by
      rw [List.length_append]
      exact c.received_le.trans (Nat.le_add_right _ _)
    sent_le := by
      have h2 := c.sent_le
      rw [unsent] at h
      rw [List.length_append]
      omega }

/-- Receive `k` elements. -/
def receive (c : Channel N α) (k : ℕ) (h : k ≤ c.queue.length) : Channel N α :=
  { c with
    received := c.received + k
    received_le := by
      have h1 := c.received_le
      rw [queue, List.length_drop] at h
      omega
    limit_le := c.limit_le.trans (by omega) }

/-- Release `k` cells. -/
def release (c : Channel N α) (k : ℕ) (h : k ≤ c.withheld) : Channel N α :=
  { c with
    limit := c.limit + k
    reserved_le := c.reserved_le.trans (Nat.le_add_right _ _)
    limit_le := by
      have h4 := c.limit_le
      rw [withheld] at h
      omega }

/-- **A channel that is drained is free**: nothing is reserved, the whole queue is received, and all
that is withheld then is released. -/
lemma free_drained (c : Channel N α) {k : ℕ} (hk : k ≤ c.queue.length) (hunsent : c.unsent = 0)
    (hall : c.queue.length = k) : ((c.receive k hk).release _ le_rfl).free = N := by
  have hcells := ((c.receive k hk).release _ le_rfl).conservation
  have hnone : ((c.receive k hk).release _ le_rfl).unsent = 0 := hunsent
  have hqueue : ((c.receive k hk).release _ le_rfl).queue.length = 0 := by
    show (c.log.drop (c.received + k)).length = 0
    rw [← List.drop_drop, ← queue, List.length_drop, hall, Nat.sub_self]
  have hwithheld : ((c.receive k hk).release _ le_rfl).withheld = 0 := by
    show c.received + k + N - (c.limit + (c.received + k + N - c.limit)) = 0
    omega
  rwa [hnone, hqueue, hwithheld] at hcells

/-- **One step of the channel.**  The producer reserves cells that are free and sends elements in
cells it has reserved; the consumer receives elements that were sent, in order, and releases cells
it has received.  The label has all that the other party or an observer sees of it. -/
inductive Step (c : Channel N α) : ChannelOp α → Channel N α → Prop
  | reserve (k : ℕ) (h : k ≤ c.free) : Step c (.reserve k) (c.reserve k h)
  | send (xs : List α) (h : xs.length ≤ c.unsent) : Step c (.send xs) (c.send xs h)
  | receive (k : ℕ) (h : k ≤ c.queue.length) :
      Step c (.receive (c.queue.take k)) (c.receive k h)
  | release (k : ℕ) (h : k ≤ c.withheld) : Step c (.release k) (c.release k h)
  | silent : Step c .silent c

/-- The log grows by what a step sends. -/
lemma Step.log_eq {c c' : Channel N α} {o : ChannelOp α} (h : c.Step o c') :
    c'.log = c.log ++ o.sent := by
  cases h with
  | reserve k h => exact (List.append_nil _).symm
  | send xs h => rfl
  | receive k h => exact (List.append_nil _).symm
  | release k h => exact (List.append_nil _).symm
  | silent => exact (List.append_nil _).symm

/-- What was received grows by what a step receives. -/
lemma Step.take_received {c c' : Channel N α} {o : ChannelOp α} (h : c.Step o c') :
    c'.log.take c'.received = c.log.take c.received ++ o.received := by
  have h1 := c.received_le
  cases h with
  | reserve k h => exact (List.append_nil _).symm
  | send xs h =>
      show (c.log ++ xs).take c.received = _ ++ []
      rw [List.take_append_of_le_length h1, List.append_nil]
  | receive k h =>
      show c.log.take (c.received + k) = c.log.take c.received ++ (c.log.drop c.received).take k
      exact List.take_add
  | release k h => exact (List.append_nil _).symm
  | silent => exact (List.append_nil _).symm

/-- The counters of the cells move by what a step reserves and releases. -/
lemma Step.cells {c c' : Channel N α} {o : ChannelOp α} (h : c.Step o c') :
    c'.reserved = c.reserved + o.reserved ∧ c'.limit = c.limit + o.released := by
  cases h with
  | reserve k h => exact ⟨rfl, rfl⟩
  | send xs h => exact ⟨rfl, rfl⟩
  | receive k h => exact ⟨rfl, rfl⟩
  | release k h => exact ⟨rfl, rfl⟩
  | silent => exact ⟨rfl, rfl⟩

/-- Along every trace, the cells that were reserved and released add up. -/
lemma trace_cells {c₀ c : Channel N α} {ls : List (ChannelOp α)} (h : Trace Step c₀ ls c) :
    c.reserved = c₀.reserved + (ls.map ChannelOp.reserved).sum ∧
      c.limit = c₀.limit + (ls.map ChannelOp.released).sum := by
  induction h with
  | nil => exact ⟨rfl, rfl⟩
  | snoc l _ hs ih =>
      rw [hs.cells.1, hs.cells.2, ih.1, ih.2, List.map_append, List.map_append, List.sum_append,
        List.sum_append, List.map_singleton, List.map_singleton, List.sum_singleton,
        List.sum_singleton]
      omega

/-- **Received in order, once, and nothing else.**  Along every trace from a channel on which
nothing has happened, the log is all that was sent, and what was received is its beginning. -/
lemma trace_log {c₀ c : Channel N α} (hlog : c₀.log = []) {ls : List (ChannelOp α)}
    (h : Trace Step c₀ ls c) :
    ls.flatMap ChannelOp.sent = c.log ∧
      ls.flatMap ChannelOp.received = c.log.take c.received := by
  induction h with
  | nil =>
      rw [hlog, List.take_nil]
      exact ⟨rfl, rfl⟩
  | snoc l _ hs ih =>
      rw [List.flatMap_append, List.flatMap_append, ih.1, ih.2, hs.take_received, hs.log_eq,
        List.flatMap_singleton, List.flatMap_singleton]
      exact ⟨rfl, rfl⟩

end Channel

end Lib
