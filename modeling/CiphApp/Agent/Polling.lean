import CiphApp.Agent.Addressing
import CiphApp.Agent.Connections
import CiphApp.Memif.Receive

/-!
# How long a poll goes on

`Ciph_comm_agent_client::poll` and `Ciph_comm_agent_server::poll` turn the number of jobs they are
asked for into a number of passes, one for each burst of 64, and call the poll of the transport in
a `do … while (--poll_count)` loop, with the lock of the connection held.

* `poll_passes_iff` — the number of passes is the intended one except for a size of 0, for which
  the counter wraps and there are 2³² of them.
* `poll_limit_iff` — the passes do not bound what is returned: the poll of the transport has a loop
  of its own, which goes on as long as the ring holds more than one burst, so the first pass
  empties the ring.
-/

namespace CiphApp

open Lib

/-! ## The agents -/

/-- What a poll of an agent does that others can see. -/
inductive PollEvent
  | lock (connId : UInt32)
  /-- A call of `Memif_client::poll` or `Memif_client::poll_00`. -/
  | transport (index : UInt32) (qid : UInt16)
  | unlock (connId : UInt32)
  deriving DecidableEq, Repr

/-- The state during a poll: that of the transport, and the events so far. -/
structure Polling (σ : Type*) where
  world : σ
  trace : List PollEvent

variable {σ : Type*}

namespace Polling

def emit (p : Polling σ) (e : PollEvent) : Polling σ := { p with trace := p.trace ++ [e] }

/-- One call of the transport, whose result is dropped. -/
def call (transport : UInt32 → UInt16 → σ → σ) (index : UInt32) (qid : UInt16) (p : Polling σ) :
    Polling σ :=
  emit { p with world := transport index qid p.world } (.transport index qid)

end Polling

/-- The loop of both polls. -/
def pollLoop (call : Polling σ → Polling σ) (size : UInt32) (p : Polling σ) : Polling σ :=
  doWhileDec call (pollCount size).toBitVec p

/-- What the client agent knows of its connections. -/
structure ClientAgent where
  clientId : Int32
  /-- `_is_conn_active`. -/
  isConnActive : UInt32 → Bool

/-- `Ciph_comm_agent_client::poll`.  There is no result if the memif index overflows. -/
def clientPoll (transport : UInt32 → UInt16 → σ → σ) (agent : ClientAgent) (connId : UInt32)
    (qid : UInt16) (size : UInt32) (p : Polling σ) : Option (ℤ × Polling σ) :=
  if checkConnId agent.clientId connId then
    let p := p.emit (.lock connId)
    if agent.isConnActive connId then
      (getMemifConnId agent.clientId connId).map fun index =>
        (0, (pollLoop (Polling.call transport index qid) size p).emit (.unlock connId))
    else some (-2, p.emit (.unlock connId))
  else some (-1, p)

/-- `Ciph_comm_agent_server::poll`. -/
def serverPoll (transport : UInt32 → UInt16 → σ → σ) (connId : UInt32) (qid : UInt16)
    (size : UInt32) (p : Polling σ) : Polling σ :=
  pollLoop (Polling.call transport connId qid) size p

/-- The locked section of `poll_all` for an active connection. -/
def pollAllVisit (transport : UInt32 → UInt16 → σ → σ) (connId size : UInt32) (p : Polling σ) :
    Polling σ :=
  ((serverPoll transport connId 1 size
    (serverPoll transport connId 0 size (p.emit (.lock connId)))).emit (.unlock connId))

/-! ## The number of passes -/

/-- One pass for each burst of 64, and at least one. -/
def intendedPasses (size : UInt32) : ℕ := max 1 ((size.toNat + 63) / 64)

section Passes

lemma toNat_pollCount (size : UInt32) : (pollCount size).toNat = (size.toNat + 63) / 64 := by
  have hlt := size.toNat_lt
  have hmod : (size % 64).toNat = size.toNat % 64 := UInt32.toNat_mod size 64
  have hdiv : (size / 64).toNat = size.toNat / 64 := UInt32.toNat_div size 64
  unfold pollCount
  split_ifs with h
  · have hne : size.toNat % 64 ≠ 0 := fun h0 => h (UInt32.toNat_inj.mp (by rw [hmod, h0]; rfl))
    rw [UInt32.toNat_add, hdiv, show (1 : UInt32).toNat = 1 from rfl]
    omega
  · have h0 : size.toNat % 64 = 0 := by rw [← hmod, not_not.mp h]; rfl
    rw [hdiv]
    omega

lemma pollCount_eq_zero_iff (size : UInt32) : pollCount size = 0 ↔ size = 0 := by
  have hcount := toNat_pollCount size
  rw [← UInt32.toNat_inj, ← UInt32.toNat_inj (a := size), hcount, UInt32.toNat_zero]
  omega

/-- The loop goes round `pollCalls` times, the number `poll_all` was modelled with. -/
lemma pollLoop_eq_iterate {call : Polling σ → Polling σ} (size : UInt32) (p : Polling σ) :
    pollLoop call size p = call^[pollCalls size] p := by
  have hcalls : pollCalls size = if pollCount size = 0 then 2 ^ 32 else (pollCount size).toNat :=
    rfl
  rw [pollLoop, hcalls]
  split_ifs with h
  · rw [h]
    exact doWhileDec_zero p
  · have hne : (pollCount size).toBitVec ≠ 0 := fun h0 => h (UInt32.toBitVec_inj.mp h0)
    rw [doWhileDec_of_ne_zero hne, UInt32.toNat_toBitVec]

/-- **The intended number of passes**, but for a size of 0. -/
lemma pollCalls_eq_iff (size : UInt32) : pollCalls size = intendedPasses size ↔ size ≠ 0 := by
  have hcalls : pollCalls size = if pollCount size = 0 then 2 ^ 32 else (pollCount size).toNat :=
    rfl
  have hcount := toNat_pollCount size
  have hzero := pollCount_eq_zero_iff size
  constructor
  · rintro h rfl
    exact absurd h (by decide)
  · intro hne
    have hpos : size.toNat ≠ 0 := fun h0 => hne (UInt32.toNat_inj.mp h0)
    rw [hcalls, if_neg (mt hzero.mp hne), hcount, intendedPasses]
    omega

lemma iterate_call (transport : UInt32 → UInt16 → σ → σ) (index : UInt32) (qid : UInt16) (n : ℕ)
    (p : Polling σ) : (Polling.call transport index qid)^[n] p =
      ⟨(transport index qid)^[n] p.world,
        p.trace ++ List.replicate n (PollEvent.transport index qid)⟩ := by
  induction n generalizing p with
  | zero => simp
  | succ n ih =>
      rw [Function.iterate_succ_apply, ih]
      simp [Polling.call, Polling.emit, List.replicate_succ]

/-- **What the loop does**: it iterates the transport, and calls it so many times. -/
lemma pollLoop_call (transport : UInt32 → UInt16 → σ → σ) (index : UInt32) (qid : UInt16)
    (size : UInt32) (p : Polling σ) : pollLoop (Polling.call transport index qid) size p =
      ⟨(transport index qid)^[pollCalls size] p.world,
        p.trace ++ List.replicate (pollCalls size) (PollEvent.transport index qid)⟩ := by
  rw [pollLoop_eq_iterate, iterate_call]

/-- `poll` of the client gets to its loop. -/
structure ClientAgent.Reaches (agent : ClientAgent) (connId index : UInt32) : Prop where
  checked : checkConnId agent.clientId connId = true
  active : agent.isConnActive connId = true
  addressed : getMemifConnId agent.clientId connId = some index

lemma clientPoll_of_reaches {agent : ClientAgent} {connId index : UInt32}
    (h : agent.Reaches connId index) (transport : UInt32 → UInt16 → σ → σ) (qid : UInt16)
    (size : UInt32) (w : σ) : clientPoll transport agent connId qid size ⟨w, []⟩ =
      some (0, ⟨(transport index qid)^[pollCalls size] w, PollEvent.lock connId ::
        (List.replicate (pollCalls size) (PollEvent.transport index qid) ++
          [PollEvent.unlock connId])⟩) := by
  rw [clientPoll, if_pos h.checked]
  simp only [h.active, if_true, h.addressed, Option.map_some, pollLoop_call]
  rfl

lemma replicate_pollCalls_iff {size : UInt32} {e : PollEvent} :
    List.replicate (pollCalls size) e = List.replicate (intendedPasses size) e ↔ size ≠ 0 := by
  rw [← pollCalls_eq_iff]
  refine ⟨fun h => ?_, fun h => by rw [h]⟩
  simpa using congrArg List.length h

/-- **How often a poll calls the transport.**  For every size, every transport and every state of
it: the loop of the client, when it is reached, and that of the server call the poll of the
transport `max 1 ⌈size / 64⌉` times before the lock of the connection is released, if and only if
the size is not 0. -/
theorem poll_passes_iff (transport : UInt32 → UInt16 → σ → σ) (agent : ClientAgent)
    (connId index : UInt32) (qid : UInt16) (size : UInt32) (w : σ)
    (h : agent.Reaches connId index) :
    ((clientPoll transport agent connId qid size ⟨w, []⟩).map (fun r => (r.1, r.2.trace)) =
        some (0, .lock connId :: (List.replicate (intendedPasses size) (.transport index qid) ++
          [.unlock connId])) ↔ size ≠ 0) ∧
    ((serverPoll transport connId qid size ⟨w, []⟩).trace =
        List.replicate (intendedPasses size) (.transport connId qid) ↔ size ≠ 0) ∧
    ((pollAllVisit transport connId size ⟨w, []⟩).trace =
        .lock connId :: (List.replicate (intendedPasses size) (.transport connId 0) ++
          List.replicate (intendedPasses size) (.transport connId 1) ++ [.unlock connId]) ↔
      size ≠ 0) := by
  refine ⟨?_, ?_, ?_⟩
  · rw [clientPoll_of_reaches h, ← replicate_pollCalls_iff (e := .transport index qid)]
    simp
  · rw [serverPoll, pollLoop_call]
    exact replicate_pollCalls_iff
  · have htrace : (pollAllVisit transport connId size ⟨w, []⟩).trace = PollEvent.lock connId ::
        (List.replicate (pollCalls size) (PollEvent.transport connId 0) ++
          List.replicate (pollCalls size) (PollEvent.transport connId 1) ++
            [PollEvent.unlock connId]) := by
      simp [pollAllVisit, serverPoll, pollLoop_call, Polling.emit]
    rw [htrace]
    constructor
    · intro heq
      have hlen := congrArg List.length heq
      simp only [List.length_cons, List.length_append, List.length_replicate,
        List.length_nil] at hlen
      exact (pollCalls_eq_iff size).mp (by omega)
    · intro hne
      rw [(pollCalls_eq_iff size).mpr hne]

/-- A client with id 0 and all its connections active. -/
def activeAgent : ClientAgent := ⟨0, fun _ => true⟩

lemma activeAgent_reaches : activeAgent.Reaches 0 0 := ⟨rfl, rfl, rfl⟩

/-- A poll for 65 jobs makes two passes. -/
theorem poll_passes_iff_two :
    (clientPoll (fun _ _ w => w) activeAgent 0 0 65 ⟨(), []⟩).map (fun r => (r.1, r.2.trace)) =
      some (0, [.lock 0, .transport 0 0, .transport 0 0, .unlock 0]) :=
  (poll_passes_iff (fun _ _ w => w) activeAgent 0 0 0 65 () activeAgent_reaches).1.mpr (by decide)

/-- A poll for no job makes 2³² passes with the lock held, instead of one. -/
theorem poll_zero_passes :
    (clientPoll (fun _ _ w => w) activeAgent 0 0 0 ⟨(), []⟩).map (fun r => r.2.trace) =
        some (.lock 0 :: (List.replicate (2 ^ 32) (.transport 0 0) ++ [.unlock 0])) ∧
      intendedPasses 0 = 1 := by
  refine ⟨?_, rfl⟩
  rw [clientPoll_of_reaches activeAgent_reaches, Option.map_some]
  exact congrArg (fun n => some (PollEvent.lock 0 ::
    (List.replicate n (PollEvent.transport 0 0) ++ [PollEvent.unlock 0])))
    (show pollCalls 0 = 2 ^ 32 from rfl)

end Passes

/-! ## What a poll returns -/

/-- The answers of `memif_rx_burst` on a ring that holds `backlog` messages and gets no more. -/
def ringAnswers (backlog : ℕ) : List RxAns :=
  if 64 < backlog then .received 64 true :: ringAnswers (backlog - 64)
  else [.received (UInt16.ofNat backlog) false]

/-- The receive side of a queue of the client, and the responses that wait in its ring. -/
structure ClientRing where
  queue : RxQueue
  backlog : ℕ

/-- The number of jobs the callback was handed. -/
def ClientRing.handed (w : ClientRing) : ℕ := w.queue.delivered.sum

/-- `Memif_client::poll` on such a ring. -/
def ClientRing.poll (conns : ℕ → MemifConnection) (rx₀ : UInt16) (index : UInt32) (_qid : UInt16)
    (w : ClientRing) : ClientRing :=
  match onInterrupt02Poll conns index.toNat rx₀ w.queue (ringAnswers w.backlog) with
  | some (_, q') => ⟨q', w.backlog - (q'.received - w.queue.received)⟩
  | none => w

/-- The number of jobs a poll may return: the size, rounded up to a multiple of 64. -/
def pollLimit (size : UInt32) : ℕ := (size.toNat + 63) / 64 * 64

section Limit

variable {conns : ℕ → MemifConnection} {rx₀ : UInt16} {index : UInt32} {qid : UInt16}

lemma delivered_round (q : RxQueue) (rx : UInt16) :
    ((((q.receive rx).hold rx).deliver rx).release rx).delivered.sum =
      q.delivered.sum + rx.toNat := by
  simp [RxQueue.release, RxQueue.deliver, RxQueue.hold, RxQueue.receive]

lemma received_round (q : RxQueue) (rx : UInt16) :
    ((((q.receive rx).hold rx).deliver rx).release rx).received = q.received + rx.toNat := rfl

/-- **One call empties the ring.** -/
lemma onInterrupt02Loop_ringAnswers (rx : UInt16) (q : RxQueue) (backlog : ℕ) :
    ∃ q', onInterrupt02Loop rx q (ringAnswers backlog) = some (0, q') ∧
      q'.delivered.sum = q.delivered.sum + backlog ∧ q'.received = q.received + backlog := by
  induction backlog using Nat.strong_induction_on generalizing rx q with
  | _ b ih =>
      rw [ringAnswers]
      split_ifs with h
      · obtain ⟨q', hq', hsum, hrec⟩ := ih (b - 64) (by omega) 64
          ((((q.receive 64).hold 64).deliver 64).release 64)
        have h64 : (64 : UInt16).toNat = 64 := rfl
        refine ⟨q', hq', ?_, ?_⟩
        · rw [hsum, delivered_round, h64]
          omega
        · rw [hrec, received_round, h64]
          omega
      · have hb : (UInt16.ofNat b).toNat = b := by
          rw [UInt16.toNat_ofNat']
          omega
        refine ⟨_, rfl, ?_, ?_⟩
        · rw [delivered_round, hb]
        · rw [received_round, hb]

lemma ClientRing.poll_of_connected (h : pollCheck conns index.toNat = 0) (rx₀ : UInt16)
    (qid : UInt16) (w : ClientRing) :
    (w.poll conns rx₀ index qid).handed = w.handed + w.backlog ∧
      (w.poll conns rx₀ index qid).backlog = 0 := by
  obtain ⟨q', hq', hsum, hrec⟩ := onInterrupt02Loop_ringAnswers rx₀ w.queue w.backlog
  have hpoll : w.poll conns rx₀ index qid =
      ⟨q', w.backlog - (q'.received - w.queue.received)⟩ := by
    rw [ClientRing.poll, onInterrupt02Poll, if_pos h, hq']
  rw [hpoll]
  refine ⟨hsum, ?_⟩
  show w.backlog - (q'.received - w.queue.received) = 0
  omega

lemma ClientRing.poll_of_not_connected (h : pollCheck conns index.toNat ≠ 0) (w : ClientRing) :
    (w.poll conns rx₀ index qid).handed = w.handed := by
  rw [ClientRing.poll, onInterrupt02Poll, if_neg h]
  rfl

lemma ClientRing.iterate_poll (h : pollCheck conns index.toNat = 0) (rx₀ qid : UInt16) {n : ℕ}
    (hn : n ≠ 0) (w : ClientRing) : ((ClientRing.poll conns rx₀ index qid)^[n] w).handed =
      w.handed + w.backlog := by
  suffices ((ClientRing.poll conns rx₀ index qid)^[n] w).handed = w.handed + w.backlog ∧
      ((ClientRing.poll conns rx₀ index qid)^[n] w).backlog = 0 from this.1
  induction n, Nat.one_le_iff_ne_zero.mpr hn using Nat.le_induction with
  | base => exact w.poll_of_connected h rx₀ qid
  | succ n hle ih =>
      obtain ⟨hhanded, hbacklog⟩ := ih (Nat.one_le_iff_ne_zero.mp hle)
      rw [Function.iterate_succ_apply']
      obtain ⟨hnext, hempty⟩ := ClientRing.poll_of_connected h rx₀ qid
        ((ClientRing.poll conns rx₀ index qid)^[n] w)
      exact ⟨by rw [hnext, hhanded, hbacklog, Nat.add_zero], hempty⟩

lemma ClientRing.iterate_poll_not_connected (h : pollCheck conns index.toNat ≠ 0) (n : ℕ)
    (w : ClientRing) : ((ClientRing.poll conns rx₀ index qid)^[n] w).handed = w.handed := by
  induction n with
  | zero => rfl
  | succ n ih => rw [Function.iterate_succ_apply', ClientRing.poll_of_not_connected h, ih]

lemma pollCalls_ne_zero (size : UInt32) : pollCalls size ≠ 0 := by
  have hcalls : pollCalls size = if pollCount size = 0 then 2 ^ 32 else (pollCount size).toNat :=
    rfl
  rw [hcalls]
  split_ifs with h
  · decide
  · exact fun h0 => h (UInt32.toNat_inj.mp h0)

/-- A poll that does not get to its loop leaves the ring alone. -/
lemma clientPoll_world_of_not_reaches {transport : UInt32 → UInt16 → σ → σ} {agent : ClientAgent}
    {connId size : UInt32} {w : σ} {ret : ℤ} {p' : Polling σ}
    (h : clientPoll transport agent connId qid size ⟨w, []⟩ = some (ret, p'))
    (hnot : ¬∃ index, agent.Reaches connId index) : p'.world = w := by
  unfold clientPoll at h
  split_ifs at h with hcheck hactive
  · obtain ⟨index, hindex, -⟩ := Option.map_eq_some_iff.mp h
    exact absurd ⟨index, hcheck, hactive, hindex⟩ hnot
  · cases h
    rfl
  · cases h
    rfl

/-- **When a poll keeps to its limit.**  For every connection, every size and every number of
responses that wait in the ring: a call of `poll` hands the callback at most as many jobs
as its size says, rounded up to a multiple of 64, if and only if no more than that are waiting, or
the poll does not get to the ring. -/
theorem poll_limit_iff (conns : ℕ → MemifConnection) (rx₀ : UInt16) (agent : ClientAgent)
    (connId : UInt32) (qid : UInt16) (size : UInt32) (w : ClientRing) (ret : ℤ)
    (p' : Polling ClientRing)
    (h : clientPoll (ClientRing.poll conns rx₀) agent connId qid size ⟨w, []⟩ = some (ret, p')) :
    p'.world.handed ≤ w.handed + pollLimit size ↔
      ((∃ index, agent.Reaches connId index ∧ pollCheck conns index.toNat = 0) →
        w.backlog ≤ pollLimit size) := by
  by_cases hreach : ∃ index, agent.Reaches connId index
  · obtain ⟨index, hreach⟩ := hreach
    rw [clientPoll_of_reaches hreach] at h
    obtain ⟨-, rfl⟩ := Prod.mk.inj (Option.some.inj h)
    by_cases hconn : pollCheck conns index.toNat = 0
    · rw [ClientRing.iterate_poll hconn rx₀ qid (pollCalls_ne_zero size)]
      constructor
      · intro hle _
        omega
      · intro hle
        have hle' := hle ⟨index, hreach, hconn⟩
        omega
    · rw [ClientRing.iterate_poll_not_connected hconn]
      refine iff_of_true (Nat.le_add_right _ _) ?_
      rintro ⟨index', hreach', hconn'⟩
      obtain rfl : index = index' :=
        Option.some.inj (hreach.addressed.symm.trans hreach'.addressed)
      exact absurd hconn' hconn
  · rw [clientPoll_world_of_not_reaches h hreach]
    refine iff_of_true (Nat.le_add_right _ _) ?_
    rintro ⟨index, hr, -⟩
    exact absurd ⟨index, hr⟩ hreach

/-- A poll for one job with 64 responses waiting. -/
theorem poll_limit_iff_burst :
    ∃ ret p', clientPoll (ClientRing.poll allConnected 0) activeAgent 0 0 1
        ⟨⟨.fresh, 64⟩, []⟩ = some (ret, p') ∧ p'.world.handed ≤ pollLimit 1 := by
  refine ⟨_, _, clientPoll_of_reaches activeAgent_reaches _ _ _ _, ?_⟩
  have h := (poll_limit_iff allConnected 0 activeAgent 0 0 1 ⟨.fresh, 64⟩ 0 _
    (clientPoll_of_reaches activeAgent_reaches _ _ _ _)).mpr fun _ => by decide
  simpa [ClientRing.handed, RxQueue.fresh] using h

/-- A poll for one job with 65 responses waiting returns all of them, and its limit is 64. -/
theorem poll_beyond_limit :
    ∃ ret p', clientPoll (ClientRing.poll allConnected 0) activeAgent 0 0 1
        ⟨⟨.fresh, 65⟩, []⟩ = some (ret, p') ∧ p'.world.handed = 65 ∧ pollLimit 1 = 64 := by
  refine ⟨_, _, clientPoll_of_reaches activeAgent_reaches _ _ _ _, ?_, rfl⟩
  exact ClientRing.iterate_poll rfl 0 0 (pollCalls_ne_zero 1) ⟨.fresh, 65⟩

end Limit

end CiphApp
