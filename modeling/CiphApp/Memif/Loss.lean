import CiphApp.Memif.Ordering

/-!
# Requests that get lost

The server takes requests out of their ring before it knows how many responses there is room for.
It gives all of them back to the client and answers only those it was granted a buffer for.  As
long as there is room for a response to each request received, no request is dropped and the
pipeline has no gaps (`link_complete`); a client that sends 1025 requests before it polls loses
one (`request_lost`).

That nothing is lost is a statement about numbers.  `Memif.Ordering` reads the numbers of all
messages off the pipeline, from the responses that were delivered to the requests that wait, and
shows them in order.  `Complete` says that they are also without gaps: every number below the next
one is there. A step keeps this if there is room for a response to each request the server has
received (`LinkStep.complete`), and `RoomyStep` asks for that at every step of a run.
-/

namespace CiphApp

open Lib Relation

/-- `memif_buffer_alloc` grants what is free. -/
def exactGrants (burst : ℕ → Prop) : Policy := ⟨fun m t => t = m, burst⟩

/-- Every request whose `send` has returned 0 is still in the ring, or executed with its response
in the ring, or delivered.  The poll of the server takes several steps here, so a request may also
be with a poll in progress. -/
def Link.NoneLost (l : Link) : Prop :=
  ∀ id ∈ l.returned, id ∈ l.c2s.queue.map (·.id) ∨ id ∈ l.inHand.map (·.id) ∨
    (id ∈ l.executed ∧ id ∈ l.inRing.map (·.id)) ∨ id ∈ l.delivered.map (·.id)

/-! ## With room for the responses -/

/-- The pipeline has no gaps: every number that was given to a request is on its way, in hand or
delivered, and those whose `send` has returned are among them. -/
structure Complete (l : Link) : Prop extends LinkInv l where
  complete : l.pipeline = List.range l.next
  returned : ∀ id ∈ l.returned, id < l.next

section Complete

variable {cfg : Config} {burst : ℕ → Prop} {l l' : Link}

lemma exactGrants_sound (hburst : ∀ n, burst n → n ≤ 65536) : (exactGrants burst).Sound :=
  ⟨fun _ _ h => h.le, hburst⟩

/-- **With room for the responses, a step shortens the pipeline by nothing.** -/
lemma PipelineStep.length (hroom : l.Roomy) (h : PipelineStep (exactGrants burst) l l')
    (hlen : l.pipeline.length = l.next) : l'.pipeline.length = l'.next := by
  cases h with
  | kept hkept hnext => rw [hkept, hnext, hlen]
  | sent tx hsent hnext => rw [hsent, hnext, List.length_append, List.length_range', hlen]
  | granted rx tx hp htx hgranted hnext =>
      -- all of them are granted a buffer
      have hall : rx.take tx = rx := by
        have htx' : tx = min rx.length l.s2c.free := htx
        exact List.take_of_length_le (by have := hroom rx hp; omega)
      have hhand : l.inHand = rx := by rw [Link.inHand, hp]
      rw [hgranted, hall, hnext, ← hlen, Link.pipeline, hhand]

lemma LinkStep.returned (hburst : ∀ n, burst n → n ≤ 65536)
    (h : LinkStep cfg (exactGrants burst) l l') (hi : LinkInv l)
    (hret : ∀ id ∈ l.returned, id < l.next) : ∀ id ∈ l'.returned, id < l'.next := by
  have hle := (h.pipelineStep (exactGrants_sound hburst) hi.sending).next_le
  have hold : ∀ id ∈ l.returned, id < l'.next := fun id hid => (hret id hid).trans_le hle
  cases h with
  | sendReturn s hs hcount =>
      intro id hid
      have hbase := (hi.sending s hs).base
      rcases List.mem_append.mp hid with hid | hid
      · exact hold id hid
      · rw [List.mem_range'_1] at hid
        show id < l.requests.length
        omega
  | _ => exact hold

lemma LinkInv.executed_eq (h : LinkInv l) :
    l.executed = (l.delivered ++ l.inRing).map (·.id) := by
  have heq : List.Forall₂ (· = ·) l.executed ((l.delivered ++ l.inRing).map (·.id)) :=
    List.forall₂_map_right_iff.mpr (h.responses.imp fun _ _ hr => hr.1.symm)
  rwa [List.forall₂_eq_eq_eq] at heq

/-- **With room for the responses, each step keeps the pipeline complete.** -/
lemma LinkStep.complete (hburst : ∀ n, burst n → n ≤ 65536) (hroom : l.Roomy)
    (h : LinkStep cfg (exactGrants burst) l l') (hc : Complete l) : Complete l' := by
  have hi := h.inv (exactGrants_sound hburst) hc.toLinkInv
  have hpipe := h.pipelineStep (exactGrants_sound hburst) hc.sending
  have hlen : l'.pipeline.length = l'.next :=
    hpipe.length hroom (by rw [hc.complete, List.length_range])
  exact ⟨hi, hi.pipeline.eq_of_length (by rw [hlen, List.length_range]),
    h.returned hburst hc.toLinkInv hc.returned⟩

lemma Complete.noneLost (h : Complete l) : l.NoneLost := by
  intro id hid
  have hmem : id ∈ l.pipeline := by
    rw [h.complete]
    exact List.mem_range.mpr (h.returned id hid)
  rcases List.mem_append.mp hmem with hex | hmem
  · -- an executed request has its response somewhere
    have hresp := hex
    rw [h.executed_eq, List.map_append] at hresp
    rcases List.mem_append.mp hresp with hm | hm
    · exact .inr (.inr (.inr hm))
    · exact .inr (.inr (.inl ⟨hex, hm⟩))
  · rcases List.mem_append.mp hmem with hm | hm
    · exact .inr (.inl hm)
    · exact .inl hm

end Complete

/-- **With room for the responses nothing is lost**: in every run in which bursts have at most
65536 requests and the server finds room for a response to each request it has received, every
request is accounted for at any time. -/
theorem link_complete (cfg : Config) (l : Link)
    (h : ReflTransGen (RoomyStep cfg (exactGrants (· ≤ 65536))) .init l) :
    l.NoneLost := by
  have hc : Complete l := by
    induction h with
    | refl => exact ⟨.init, rfl, fun _ h => (nomatch h)⟩
    | tail _ hstep ih =>
        exact hstep.2.complete (fun _ h => h) hstep.1 ih
  exact hc.noneLost

/-- A request that was sent and not yet received. -/
theorem link_complete_sent :
    ∃ l, ReflTransGen (RoomyStep (sampleConfig 0 1) (exactGrants (· ≤ 65536))) .init l ∧
      l.returned = [0] ∧ l.NoneLost := by
  have h := Link.run_send (sampleConfig 0 1) (P := exactGrants (· ≤ 65536)) (fun _ => rfl)
    (show 1 ≤ 65536 by decide) Server.init [] []
  exact ⟨_, h, rfl, link_complete _ _ h⟩

/-! ## Without room -/

/-- A client that does not poll can fill the response ring. -/
lemma Link.run_waiting (cfg : Config) {P : ℕ → Prop} (hburst : P 1) {n : ℕ} (hn : n ≤ ringSize) :
    ∃ server responses requests, responses.map (·.id) = List.range n ∧ requests.length = n ∧
      ReflTransGen (LinkStep cfg (exactGrants P)) .init (.waiting server responses requests) := by
  induction n with
  | zero => exact ⟨_, [], [], rfl, rfl, .refl⟩
  | succ n ih =>
      obtain ⟨server, responses, requests, hids, hlen, hrun⟩ := ih (by omega)
      have hfree : responses.length = n := by rw [← List.length_map, hids, List.length_range]
      have hsend := Link.run_send cfg (P := exactGrants P) (fun _ => rfl) hburst server
        responses requests
      obtain ⟨server', h', hpoll⟩ := Link.run_poll cfg (P := exactGrants P) server responses
        requests (show 1 = min 1 (ringSize - responses.length) by omega)
      refine ⟨server', responses ++ [⟨requests.length, h'.mem (.resp 0)⟩],
        requests ++ [closeOperation.op], ?_, by simp [hlen], ?_⟩
      · rw [List.map_append, hids, List.range_succ, ← hlen]
        rfl
      · have hend := hrun.trans ((RoomyStep.run hsend).trans hpoll)
        have hrange : List.range requests.length ++ [requests.length] =
            List.range (requests ++ [closeOperation.op]).length := by
          rw [List.length_append, List.length_singleton, List.range_succ]
        simp only [Link.waiting, ← hrange]
        exact hend

/-- **A lost request.**  A client sends 1025 requests, one after the other, and the server serves
each of them at once.  When it receives the last one the response ring is full: the request is
given back, and nothing is left of it. -/
theorem request_lost :
    ∃ l, ReflTransGen (LinkStep (sampleConfig 0 1) (exactGrants fun _ => True)) .init l ∧
      l.serverPoll = .idle ∧ l.clientPoll = .idle ∧ 1024 ∈ l.returned ∧ l.c2s.queue = [] ∧
      1024 ∉ l.executed ∧ 1024 ∉ l.inRing.map (·.id) ∧ l.delivered = [] ∧ ¬l.NoneLost := by
  obtain ⟨server, responses, requests, hids, hlen, hrun⟩ :=
    Link.run_waiting (sampleConfig 0 1) (P := fun _ => True) trivial le_rfl
  have hlen' : requests.length = 1024 := hlen
  have hfull : responses.length = ringSize := by rw [← List.length_map, hids, List.length_range]
  have hsend := Link.run_send (sampleConfig 0 1) (P := exactGrants fun _ => True) (fun _ => rfl)
    trivial server responses requests
  obtain ⟨server', h', hpoll⟩ := Link.run_poll (sampleConfig 0 1)
    (P := exactGrants fun _ => True) server responses requests
    (show 0 = min 1 (ringSize - responses.length) by omega)
  have hret : 1024 ∈ List.range requests.length ++ [requests.length] := by simp [hlen']
  have hexec : 1024 ∉ List.range requests.length ++ [] := by simp [hlen']
  have hring : 1024 ∉ List.map (fun m : Message => m.id) ([] ++ ((responses ++ []) ++ [])) := by
    rw [List.nil_append, List.append_nil, List.append_nil, hids]
    exact fun h => (List.mem_range.mp h).ne rfl
  refine ⟨_, hrun.trans ((RoomyStep.run hsend).trans hpoll), rfl, rfl, hret, rfl, hexec, hring,
    rfl, fun hnone => ?_⟩
  rcases hnone 1024 hret with h | h | h | h
  · exact List.not_mem_nil h
  · exact List.not_mem_nil h
  · exact hexec h.1
  · exact List.not_mem_nil h

end CiphApp
