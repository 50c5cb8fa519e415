import CiphApp.Memif.Link

/-!
# Order and multiplicity on a queue

Requests are numbered in the order in which they are passed to `send`.  At any time the numbers of
the requests that were executed, of those the server has in hand and of those in the ring, one
after the other, form an increasing sequence: this is `LinkInv.pipeline`, and each step of the
pair either moves a number from one part to the next or drops some at the end of a part.  On the way
back nothing is dropped: the responses that exist are those of the executed requests, in the same
order.  `Link.Ordered` is what a client can see of it, and `Memif.SlotOrder` has the runs in which
it holds.
-/

namespace CiphApp

open Lib Relation

/-! ## Where the messages are -/

namespace Link

/-- The requests the server has received and not yet executed. -/
def inHand (l : Link) : List Message :=
  match l.serverPoll with
  | .received rx => rx
  | .copied _ granted => granted
  | .refilled granted => granted
  | _ => []

/-- The responses in buffers of the ring that the server has not sent yet. -/
def outgoing (l : Link) : List Message :=
  match l.serverPoll with
  | .answered tx => tx
  | _ => []

/-- The responses the client has received and not yet passed to its callback. -/
def incoming (l : Link) : List Message :=
  match l.clientPoll with
  | .received rx => rx
  | _ => []

/-- The responses still in the ring. -/
def inRing (l : Link) : List Message := l.incoming ++ (l.s2c.queue ++ l.outgoing)

/-- The number of the next request to go into the ring. -/
def next (l : Link) : ℕ :=
  match l.sending with
  | none => l.requests.length
  | some s => s.base + (s.size - s.count)

/-- The requests that were executed, then those in hand, then those in the ring. -/
def pipeline (l : Link) : List ℕ :=
  l.executed ++ (l.inHand.map (·.id) ++ l.c2s.queue.map (·.id))

end Link

/-- `m` is a response to request `id`. -/
def Responds (requests : List CryptoOperationContext) (id : ℕ) (m : Message) : Prop :=
  m.id = id ∧ ∃ c, requests[id]? = some c ∧ Answers c (Slot.context m.slot)

/-- A call of `send` in progress is about the last requests, and its index is where it should
be. -/
structure Sending.Consistent (s : Sending) (requests : List CryptoOperationContext) : Prop where
  size : s.size ≤ 65536
  count : s.count ≤ s.size
  ind : s.ind = UInt16.ofNat (s.size - s.count)
  base : s.base + s.size = requests.length
  vecs : ∀ i < s.size, requests[s.base + i]? = some (s.vecs i).op

/-- **The invariant of a queue.**  The numbers of all messages, from the responses that were
delivered to the requests that wait, are in order and below the next one.  A message that has not
been handled has the context of the request with its number, and the responses that exist answer,
one by one, the requests that were handed to `run_jobs`. -/
structure LinkInv (l : Link) : Prop where
  sending : ∀ s, l.sending = some s → s.Consistent l.requests
  pipeline : l.pipeline.Sublist (List.range l.next)
  contexts : ∀ m ∈ l.inHand ++ l.c2s.queue, Responds l.requests m.id m
  responses : List.Forall₂ (Responds l.requests) l.executed (l.delivered ++ l.inRing)

/-! ## Sending -/

lemma length_sendIndices (tx : ℕ) (ind : UInt16) : (sendIndices tx ind).length = tx := by
  fun_induction sendIndices tx ind with
  | case1 => rfl
  | case2 => rfl
  | case3 => rfl
  | case4 tx ind ih =>
      rw [List.length_cons, List.length_cons, ih]

/-- The indices of a round are consecutive as long as they fit 16 bits. -/
lemma sendIndices_eq (tx : ℕ) (ind : UInt16) (h : ind.toNat + tx ≤ 65536) :
    sendIndices tx ind = List.range' ind.toNat tx := by
  fun_induction sendIndices tx ind with
  | case1 => rfl
  | case2 => rfl
  | case3 ind =>
      have : (ind + 1).toNat = ind.toNat + 1 := by
        rw [UInt16.toNat_add]
        simp only [UInt16.reduceToNat]
        omega
      simp [this, List.range'_succ]
  | case4 tx ind ih =>
      have : (ind + 2).toNat = ind.toNat + 2 := by
        rw [UInt16.toNat_add]
        simp only [UInt16.reduceToNat]
        omega
      rw [ih (by omega), this]
      simp [List.range'_succ]

section Sending

variable {s : Sending} {requests : List CryptoOperationContext} {tx : ℕ}

lemma Sending.Consistent.toNat_ind (h : s.Consistent requests) (hcount : s.count ≠ 0) :
    s.ind.toNat = s.size - s.count := by
  have h1 := h.size
  have h2 := h.count
  rw [h.ind, UInt16.toNat_ofNat']
  omega

/-- The numbers of the messages of a round follow those sent before. -/
lemma Sending.Consistent.ids_messages (h : s.Consistent requests) (hcount : s.count ≠ 0)
    (htx : tx ≤ s.count) (heaps : ℕ → Heap) :
    (s.messages tx heaps).map (·.id) = List.range' (s.base + (s.size - s.count)) tx := by
  have h1 := h.size
  have h2 := h.count
  have hind := h.toNat_ind hcount
  rw [messages, sendIndices_eq tx s.ind (by omega), hind]
  apply List.ext_getElem
  · simp
  · intro i _ _
    simp only [List.getElem_map, List.getElem_mapIdx, List.getElem_range']
    omega

/-- The messages of a round carry the contexts of their requests. -/
lemma Sending.Consistent.responds_messages (h : s.Consistent requests) (hcount : s.count ≠ 0)
    (htx : tx ≤ s.count) (heaps : ℕ → Heap) :
    ∀ m ∈ s.messages tx heaps, Responds requests m.id m := by
  intro m hm
  have h1 := h.size
  have h2 := h.count
  have hind := h.toNat_ind hcount
  rw [messages, sendIndices_eq tx s.ind (by omega), hind] at hm
  obtain ⟨k, hk, rfl⟩ := List.mem_mapIdx.mp hm
  have hk' : k < tx := by simpa using hk
  have hlt : s.size - s.count + k < s.size := by omega
  simp only [List.getElem_range', one_mul]
  exact ⟨rfl, _, h.vecs _ hlt, answers_serialize s.vecs hlt (heaps k)⟩

lemma Sending.Consistent.round (h : s.Consistent requests) (htx : tx ≤ s.count) :
    Sending.Consistent { s with count := s.count - tx, ind := s.ind + UInt16.ofNat tx }
      requests where
  size := h.size
  count := (Nat.sub_le _ _).trans h.count
  ind := by
    have h2 := h.count
    show s.ind + UInt16.ofNat tx = UInt16.ofNat (s.size - (s.count - tx))
    rw [h.ind, ← UInt16.ofNat_add]
    congr 1
    omega
  base := h.base
  vecs := h.vecs

end Sending

/-! ## The step lemma -/

lemma Responds.append {requests : List CryptoOperationContext} {id : ℕ} {m : Message}
    (h : Responds requests id m) (more : List CryptoOperationContext) :
    Responds (requests ++ more) id m := by
  obtain ⟨hid, c, hc, hans⟩ := h
  obtain ⟨hlt, -⟩ := List.getElem?_eq_some_iff.mp hc
  exact ⟨hid, c, by rw [List.getElem?_append_left hlt, hc], hans⟩

/-- A policy under which the invariant holds: no more is granted than there is, and the index of
`send`, which has 16 bits, does not come round within a burst. -/
structure Policy.Sound (P : Policy) : Prop where
  grant : ∀ m t, P.grant m t → t ≤ m
  burst : ∀ n, P.burst n → n ≤ 65536

section Steps

variable {cfg : Config} {P : Policy} {l l' : Link}

lemma Batch.responds_responses {b : Batch} {s s' : Server} {h' : Heap} {granted : List Message}
    {requests : List CryptoOperationContext} (hb : b.Valid) (hheld : b.Holds granted)
    (hrun : b.handle cfg s = some (s', h')) (hctx : ∀ m ∈ granted, Responds requests m.id m) :
    List.Forall₂ (Responds requests) (granted.map (·.id)) (b.responses granted h') := by
  rw [List.forall₂_map_left_iff, List.forall₂_iff_get]
  obtain ⟨hlen, hans⟩ := List.forall₂_iff_get.mp (Batch.answers_responses hb hheld hrun)
  refine ⟨hlen, fun i hi hi' => ?_⟩
  obtain ⟨-, c, hc, hreq⟩ := hctx _ (List.get_mem granted ⟨i, hi⟩)
  obtain ⟨hid, hresp⟩ := hans i hi hi'
  exact ⟨hid.symm, c, hc, hreq.trans hresp⟩

/-- **What a step does to the pipeline**: nothing, or the numbers of a round of `send` go behind all
others, or the requests that are not granted a response buffer drop out. -/
inductive PipelineStep (P : Policy) (l l' : Link) : Prop
  | kept (hpipe : l'.pipeline = l.pipeline) (hnext : l'.next = l.next)
  | sent (tx : ℕ) (hpipe : l'.pipeline = l.pipeline ++ List.range' l.next tx)
      (hnext : l'.next = l.next + tx)
  | granted (rx : List Message) (tx : ℕ) (hp : l.serverPoll = .received rx)
      (htx : P.grant (min rx.length l.s2c.free) tx)
      (hpipe : l'.pipeline =
        l.executed ++ ((rx.take tx).map (·.id) ++ l.c2s.queue.map (·.id)))
      (hnext : l'.next = l.next)

lemma PipelineStep.next_le (h : PipelineStep P l l') : l.next ≤ l'.next := by
  cases h with
  | kept _ hnext => exact hnext.ge
  | sent tx _ hnext => omega
  | granted _ _ _ _ _ hnext => exact hnext.ge

lemma PipelineStep.sublist (h : PipelineStep P l l')
    (hpipe : l.pipeline.Sublist (List.range l.next)) :
    l'.pipeline.Sublist (List.range l'.next) := by
  cases h with
  | kept hkept hnext => rwa [hkept, hnext]
  | sent tx hsent hnext =>
      rw [hsent, hnext, ← range_append_range']
      exact hpipe.append (List.Sublist.refl _)
  | granted rx tx hp _ hgranted hnext =>
      have hhand : l.inHand = rx := by rw [Link.inHand, hp]
      rw [Link.pipeline, hhand] at hpipe
      rw [hgranted, hnext]
      exact ((List.Sublist.refl _).append
        (((List.take_sublist tx rx).map _).append (List.Sublist.refl _))).trans hpipe

lemma LinkStep.pipelineStep (hP : P.Sound) (h : LinkStep cfg P l l')
    (hsend : ∀ s, l.sending = some s → s.Consistent l.requests) : PipelineStep P l l' := by
  cases h with
  | sendStart vecs size hs hsize =>
      have hnext : l.next = l.requests.length := by rw [Link.next, hs]
      refine .kept rfl ?_
      show l.requests.length + (size - size) = l.next
      omega
  | sendRound s tx heaps hs hcount htx =>
      have hnext : l.next = s.base + (s.size - s.count) := by rw [Link.next, hs]
      have hle := hP.grant _ _ htx
      have hcons := hsend s hs
      have hc := hcons.count
      refine .sent tx ?_ ?_
      · show l.executed ++ (l.inHand.map (·.id) ++
          (l.c2s.queue ++ s.messages tx heaps).map (·.id)) = _
        rw [List.map_append, hcons.ids_messages hcount (by omega) heaps, ← hnext, Link.pipeline,
          List.append_assoc, List.append_assoc]
      · show s.base + (s.size - (s.count - tx)) = l.next + tx
        omega
  | sendReturn s hs hcount =>
      have hnext : l.next = s.base + (s.size - s.count) := by rw [Link.next, hs]
      have hbase := (hsend s hs).base
      refine .kept rfl ?_
      show l.requests.length = l.next
      omega
  | serverRx rx hp hrx =>
      have hhand : l.inHand = [] := by rw [Link.inHand, hp]
      refine .kept ?_ rfl
      show l.executed ++ ((l.c2s.queue.take rx).map (·.id) ++
        (l.c2s.queue.drop rx).map (·.id)) = l.pipeline
      rw [← List.map_append, List.take_append_drop, Link.pipeline, hhand, List.map_nil,
        List.nil_append]
  | serverAlloc rx tx hp htx => exact .granted rx tx hp htx rfl rfl
  | serverRefill rx granted hp =>
      have hhand : l.inHand = granted := by rw [Link.inHand, hp]
      refine .kept ?_ rfl
      rw [Link.pipeline, Link.pipeline, hhand]
      rfl
  | serverExec granted b s' h' hp hb hheld hrun =>
      have hhand : l.inHand = granted := by rw [Link.inHand, hp]
      refine .kept ?_ rfl
      show l.executed ++ granted.map (·.id) ++ ([] ++ l.c2s.queue.map (·.id)) = l.pipeline
      rw [List.nil_append, Link.pipeline, hhand, List.append_assoc]
  | serverTx tx hp =>
      have hhand : l.inHand = [] := by rw [Link.inHand, hp]
      refine .kept ?_ rfl
      rw [Link.pipeline, Link.pipeline, hhand]
      rfl
  | _ => exact .kept rfl rfl

lemma LinkStep.consistent (hP : P.Sound) (h : LinkStep cfg P l l')
    (hsend : ∀ s, l.sending = some s → s.Consistent l.requests) :
    ∀ s, l'.sending = some s → s.Consistent l'.requests := by
  cases h with
  | sendStart vecs size hs hsize =>
      intro s hs'
      obtain rfl := Option.some.inj hs'
      refine ⟨hP.burst _ hsize, le_rfl, by simp, by simp, fun i hi => ?_⟩
      rw [List.getElem?_append_right (by simp)]
      simp [hi]
  | sendRound s tx heaps hs hcount htx =>
      intro s' hs'
      obtain rfl := Option.some.inj hs'
      have hle := hP.grant _ _ htx
      exact (hsend s hs).round (by omega)
  | sendReturn => exact fun s hs' => (nomatch hs')
  | _ => exact hsend

lemma LinkStep.requests_append (h : LinkStep cfg P l l') :
    ∃ more, l'.requests = l.requests ++ more := by
  cases h with
  | sendStart => exact ⟨_, rfl⟩
  | _ => exact ⟨[], (List.append_nil _).symm⟩

/-- **Where a message on its way to the server comes from**: it was on its way before, or a round
of `send` has put it into the ring. -/
lemma LinkStep.onTheWay (h : LinkStep cfg P l l') : ∀ m ∈ l'.inHand ++ l'.c2s.queue,
    m ∈ l.inHand ++ l.c2s.queue ∨ ∃ s tx heaps, l.sending = some s ∧ s.count ≠ 0 ∧
      P.grant (min (min maxMemifBufs s.count) l.c2s.free) tx ∧
      l'.c2s.queue = l.c2s.queue ++ s.messages tx heaps ∧ m ∈ s.messages tx heaps := by
  intro m hm
  cases h with
  | sendRound s tx heaps hs hcount htx =>
      have hm' : m ∈ (l.inHand ++ l.c2s.queue) ++ s.messages tx heaps := by
        rw [List.append_assoc]
        exact hm
      exact (List.mem_append.mp hm').imp_right fun hm =>
        ⟨s, tx, heaps, hs, hcount, htx, rfl, hm⟩
  | serverRx rx hp hrx =>
      refine .inl (List.mem_append_right _ ?_)
      rw [← List.take_append_drop rx l.c2s.queue]
      exact hm
  | serverAlloc rx tx hp htx =>
      have hhand : l.inHand = rx := by rw [Link.inHand, hp]
      rw [hhand]
      exact .inl (List.mem_append.mpr ((List.mem_append.mp hm).imp_left List.mem_of_mem_take))
  | serverRefill rx granted hp =>
      have hhand : l.inHand = granted := by rw [Link.inHand, hp]
      rw [hhand]
      exact .inl hm
  | serverExec => exact .inl (List.mem_append_right _ hm)
  | serverTx => exact .inl (List.mem_append_right _ hm)
  | _ => exact .inl hm

/-- The messages on their way to the server keep the contexts of their requests. -/
lemma LinkStep.contexts (hP : P.Sound) (h : LinkStep cfg P l l') (hi : LinkInv l) :
    ∀ m ∈ l'.inHand ++ l'.c2s.queue, Responds l'.requests m.id m := by
  obtain ⟨more, hmore⟩ := h.requests_append
  intro m hm
  rw [hmore]
  rcases h.onTheWay m hm with hm | ⟨s, tx, heaps, hs, hcount, htx, -, hm⟩
  · exact (hi.contexts m hm).append more
  · have hle := hP.grant _ _ htx
    exact ((hi.sending s hs).responds_messages hcount (by omega) heaps m hm).append more

lemma LinkStep.responses (h : LinkStep cfg P l l') (hi : LinkInv l) :
    List.Forall₂ (Responds l'.requests) l'.executed (l'.delivered ++ l'.inRing) := by
  have hresp := hi.responses
  cases h with
  | sendStart => exact hresp.imp fun _ _ h => h.append _
  | serverRx rx hp hrx =>
      have hout : l.outgoing = [] := by rw [Link.outgoing, hp]
      rwa [Link.inRing, hout] at hresp
  | serverAlloc rx tx hp htx =>
      have hout : l.outgoing = [] := by rw [Link.outgoing, hp]
      rwa [Link.inRing, hout] at hresp
  | serverRefill rx granted hp =>
      have hout : l.outgoing = [] := by rw [Link.outgoing, hp]
      rwa [Link.inRing, hout] at hresp
  | serverExec granted b s' h' hp hb hheld hrun =>
      have hhand : l.inHand = granted := by rw [Link.inHand, hp]
      have hout : l.outgoing = [] := by rw [Link.outgoing, hp]
      rw [Link.inRing, hout, List.append_nil] at hresp
      -- the responses to the granted requests come behind all others
      have hnew := Batch.responds_responses hb hheld hrun
        fun m hm => hi.contexts m (List.mem_append_left _ (by rwa [hhand]))
      have hall : List.Forall₂ (Responds l.requests) (l.executed ++ granted.map (·.id))
          ((l.delivered ++ (l.incoming ++ l.s2c.queue)) ++ b.responses granted h') :=
        List.rel_append hresp hnew
      rwa [List.append_assoc, List.append_assoc] at hall
  | serverTx tx hp =>
      have hout : l.outgoing = tx := by rw [Link.outgoing, hp]
      rw [Link.inRing, hout] at hresp
      show List.Forall₂ _ l.executed (l.delivered ++ (l.incoming ++ ((l.s2c.queue ++ tx) ++ [])))
      rwa [List.append_nil]
  | clientRx rx hp hrx =>
      have hin : l.incoming = [] := by rw [Link.incoming, hp]
      rw [Link.inRing, hin, List.nil_append] at hresp
      show List.Forall₂ _ l.executed
        (l.delivered ++ (l.s2c.queue.take rx ++ (l.s2c.queue.drop rx ++ l.outgoing)))
      rwa [← List.append_assoc (l.s2c.queue.take rx), List.take_append_drop]
  | clientRecv rx hp =>
      have hin : l.incoming = rx := by rw [Link.incoming, hp]
      rwa [Link.inRing, hin, ← List.append_assoc] at hresp
  | clientRefill rx hp =>
      have hin : l.incoming = [] := by rw [Link.incoming, hp]
      rwa [Link.inRing, hin] at hresp
  | _ => exact hresp

/-- **Each step keeps the invariant.** -/
lemma LinkStep.inv (hP : P.Sound) (h : LinkStep cfg P l l') (hi : LinkInv l) : LinkInv l' where
  sending := h.consistent hP hi.sending
  pipeline := (h.pipelineStep hP hi.sending).sublist hi.pipeline
  contexts := h.contexts hP hi
  responses := h.responses hi

lemma LinkInv.init : LinkInv .init :=
  ⟨fun _ h => (nomatch h), .slnil, fun _ h => (nomatch h), .nil⟩

lemma LinkInv.next_le (h : LinkInv l) : l.next ≤ l.requests.length := by
  rw [Link.next]
  split
  · exact le_rfl
  next s hs =>
    have h1 := (h.sending s hs).base
    have h2 := (h.sending s hs).count
    omega

end Steps

/-! ## Order -/

/-- Any number of buffers up to what is free may be granted, and bursts are below 65536. -/
def partialGrants : Policy := ⟨fun m t => t ≤ m, fun n => n < 65536⟩

lemma partialGrants_sound : partialGrants.Sound := ⟨fun _ _ h => h, fun _ h => h.le⟩

/-- **Nothing is reordered, duplicated or invented.**  The requests handed to `run_jobs` are a
subsequence of those passed to `send`, and the responses that were delivered, followed by those
still in the ring, answer exactly these requests, one each, in order and with the context of the
request. -/
structure Link.Ordered (l : Link) : Prop where
  executed : l.executed.Sublist (List.range l.requests.length)
  responses : List.Forall₂ (Responds l.requests) l.executed (l.delivered ++ l.inRing)

lemma LinkInv.ordered {l : Link} (h : LinkInv l) : l.Ordered := by
  refine ⟨?_, h.responses⟩
  have hpipe : l.pipeline.Sublist (List.range l.requests.length) :=
    h.pipeline.trans (List.range_sublist.mpr h.next_le)
  exact (List.sublist_append_left _ _).trans hpipe

end CiphApp
