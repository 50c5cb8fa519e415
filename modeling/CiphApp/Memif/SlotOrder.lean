import CiphApp.Memif.Slots

/-!
# Order on a queue whose slots are in one memory

Two facts about the ring carry everything here.  The packets that are pending have consecutive
numbers, and there are at most 1024 of them, so a round of `send` writes slots that none of them
has; and a write that fits its slot keeps all others.  Hence a waiting request is what was sent
until the server has copied it, and the invariant of `Link` holds over the shared memory as it does
over private slots: `slots_ordered`.

The condition is on every operation that is sent, on this queue and on the other one.  An operation
that does not fit overwrites the request in the next slot, also where that is the first slot of the
other ring, and the response that comes back for the overwritten request is the response to
something else: `overrun_loses_context`.
-/

namespace CiphApp

open Lib Relation

/-! ## The invariant -/

/-- The message carries its request. -/
def Carries (requests : List CryptoOperationContext) (m : Message) : Prop :=
  ∃ op, requests[m.id]? = some op ∧ Slot.Holds m.slot op

lemma Carries.responds {requests : List CryptoOperationContext} {m : Message}
    (h : Carries requests m) : Responds requests m.id m := by
  obtain ⟨op, hop, hold⟩ := h
  exact ⟨rfl, op, hop, hold.answers⟩

lemma Carries.append {requests : List CryptoOperationContext} {m : Message}
    (h : Carries requests m) (more : List CryptoOperationContext) :
    Carries (requests ++ more) m := by
  obtain ⟨op, hop, hold⟩ := h
  obtain ⟨hlt, -⟩ := List.getElem?_eq_some_iff.mp hop
  exact ⟨op, by rw [List.getElem?_append_left hlt, hop], hold⟩

/-- **The invariant of a queue over the shared region**: that of `Link`, the requests on their way
are what was sent, those that are pending are what their slots hold, and the ring has not overtaken
them. -/
structure SlotInv (q : ℕ) (t : SlotLink) : Prop extends LinkInv t.link where
  carries : ∀ m ∈ t.link.inHand ++ t.link.c2s.queue, Carries t.link.requests m
  slots : ∀ pre m post, t.link.pending = pre ++ m :: post →
    m.slot = ringSlot t.mem q (t.puts q - 1 - post.length)
  held : t.link.received.length ≤ t.link.c2s.held
  room : t.link.c2s.queue.length + t.link.c2s.held ≤ ringSize
  count : t.link.pending.length ≤ t.puts q

section Steps

variable {cfg : Config} {P : Policy} {q : ℕ} {ok : CryptoOperation → Prop} {t t' : SlotLink}
  {l l' : Link}

/-- A step that puts nothing into the ring can only take requests out at the front. -/
lemma LinkStep.pending_suffix (h : LinkStep cfg P l l') (hput : l'.c2s.queue <:+ l.c2s.queue) :
    l'.pending <:+ l.pending := by
  cases h with
  | sendRound s tx heaps =>
      have heq : l.c2s.queue ++ s.messages tx heaps = l.c2s.queue :=
        hput.eq_of_length_le (by simp [Ring.tx])
      show l.received ++ (l.c2s.queue ++ s.messages tx heaps) <:+ l.received ++ l.c2s.queue
      rw [heq]
  | serverRx rx hp hrx =>
      show l.c2s.queue.take rx ++ l.c2s.queue.drop rx <:+ l.received ++ l.c2s.queue
      rw [List.take_append_drop]
      exact List.suffix_append _ _
  | serverAlloc => exact List.suffix_append l.received l.c2s.queue
  | serverRefill => exact List.suffix_append l.received l.c2s.queue
  | serverExec => exact List.suffix_append l.received l.c2s.queue
  | serverTx => exact List.suffix_append l.received l.c2s.queue
  | _ => exact List.suffix_rfl

lemma LinkStep.room (hP : P.Sound) (h : LinkStep cfg P l l')
    (hheld : l.received.length ≤ l.c2s.held) (hroom : l.c2s.queue.length + l.c2s.held ≤ ringSize) :
    l'.received.length ≤ l'.c2s.held ∧ l'.c2s.queue.length + l'.c2s.held ≤ ringSize := by
  cases h with
  | sendRound s tx heaps hs hcount htx =>
      have hle := hP.grant _ _ htx
      have hfree : l.c2s.free = ringSize - (l.c2s.queue.length + l.c2s.held) := rfl
      have hlen : (s.messages tx heaps).length = tx := by
        rw [Sending.messages, List.length_mapIdx, length_sendIndices]
      refine ⟨hheld, ?_⟩
      show (l.c2s.queue ++ s.messages tx heaps).length + l.c2s.held ≤ ringSize
      rw [List.length_append, hlen]
      omega
  | serverRx rx hp hrx =>
      refine ⟨?_, ?_⟩
      · show (l.c2s.queue.take rx).length ≤ l.c2s.held + rx
        rw [List.length_take]
        omega
      · show (l.c2s.queue.drop rx).length + (l.c2s.held + rx) ≤ ringSize
        rw [List.length_drop]
        omega
  | serverAlloc => exact ⟨Nat.zero_le _, hroom⟩
  | serverRefill rx =>
      refine ⟨Nat.zero_le _, ?_⟩
      show l.c2s.queue.length + (l.c2s.held - rx) ≤ ringSize
      omega
  | serverExec => exact ⟨Nat.zero_le _, hroom⟩
  | serverTx => exact ⟨Nat.zero_le _, hroom⟩
  | _ => exact ⟨hheld, hroom⟩

lemma SlotInv.link (hP : P.Sound) (hi : SlotInv q t) (h : LinkStep cfg P t.link l')
    (hput : l'.c2s.queue <:+ t.link.c2s.queue) : SlotInv q { t with link := l' } := by
  obtain ⟨more, hmore⟩ := h.pending_suffix hput
  obtain ⟨hheld, hroom⟩ := h.room hP hi.held hi.room
  obtain ⟨new, hnew⟩ := h.requests_append
  refine ⟨h.inv hP hi.toLinkInv, fun m hm => ?_, fun pre m post hsplit => ?_, hheld, hroom, ?_⟩
  · rcases h.onTheWay m hm with hm | ⟨s, tx, heaps, -, -, -, hqueue, hm⟩
    · show Carries l'.requests m
      rw [hnew]
      exact (hi.carries m hm).append new
    · -- nothing was put into the ring
      have hlen := hput.length_le
      rw [hqueue, List.length_append] at hlen
      exact absurd (List.length_pos_of_mem hm) (by omega)
  · refine hi.slots (more ++ pre) m post ?_
    rw [← hmore, hsplit, List.append_assoc]
  · have hlen := congrArg List.length hmore
    rw [List.length_append] at hlen
    have := hi.count
    show l'.pending.length ≤ t.puts q
    omega

lemma Link.received_subset_inHand (l : Link) : l.received ⊆ l.inHand := by
  unfold received inHand
  cases l.serverPoll <;> simp

/-- **Writes that keep the pending slots** keep the requests in them. -/
lemma SlotInv.carries_reread (hi : SlotInv q t) {slot : ℕ → Slot}
    (hsame : ∀ k < t.puts q, t.puts q ≤ k + t.link.pending.length → ∀ op,
      (ringSlot t.mem q k).Holds op → (slot k).Holds op) :
    ∀ m ∈ reread slot (t.puts q) t.link.pending, Carries t.link.requests m := by
  intro m hm
  obtain ⟨pre, post, hsplit⟩ := List.append_of_mem hm
  obtain ⟨pre₀, m₀, post₀, hpend, hlen, rfl⟩ := reread_eq_append hsplit
  have hslot := hi.slots pre₀ m₀ post₀ hpend
  rw [hlen] at hslot
  have hcount := hi.count
  have hpos : post.length < t.link.pending.length := by
    rw [hpend, List.length_append, List.length_cons]
    omega
  have hmem : m₀ ∈ t.link.inHand ++ t.link.c2s.queue :=
    List.mem_append.mpr ((List.mem_append.mp (show m₀ ∈ t.link.received ++ t.link.c2s.queue by
      rw [← Link.pending, hpend]
      simp)).imp_left fun h => Link.received_subset_inHand t.link h)
  obtain ⟨op, hop, hold⟩ := hi.carries m₀ hmem
  rw [hslot] at hold
  exact ⟨op, hop, hsame _ (by omega) (by omega) op hold⟩

lemma slots_reread (l : Link) (slot : ℕ → Slot) (n : ℕ) : ∀ pre m post,
    (l.reread slot n).pending = pre ++ m :: post → m.slot = slot (n - 1 - post.length) := by
  intro pre m post hsplit
  rw [Link.pending_reread] at hsplit
  obtain ⟨-, m₀, -, -, -, rfl⟩ := reread_eq_append hsplit
  rfl

lemma Link.received_reread_length (l : Link) (slot : ℕ → Slot) (n : ℕ) :
    (l.reread slot n).received.length = l.received.length := by
  unfold received Link.reread
  cases l.serverPoll with
  | received rx => exact length_reread rx
  | _ => rfl

lemma SlotInv.of_reread {n : ℕ} {mem' : ℕ → UInt8} {puts' : ℕ → ℕ} (hn : puts' q = n)
    (hinv : LinkInv l) (hhand : ∀ m ∈ l.inHand, Carries l.requests m)
    (hctx : ∀ m ∈ reread (ringSlot mem' q) n l.pending, Carries l.requests m)
    (hheld : l.received.length ≤ l.c2s.held) (hroom : l.c2s.queue.length + l.c2s.held ≤ ringSize)
    (hcount : l.pending.length ≤ n) :
    SlotInv q ⟨l.reread (ringSlot mem' q) n, mem', puts'⟩ := by
  subst hn
  refine ⟨hinv.reread fun m hm => (hctx m hm).responds, fun m hm =>
    (Link.mem_reread hm).elim (hctx m) (hhand m), slots_reread _ _ _, ?_, ?_, ?_⟩
  · rw [Link.received_reread_length]
    exact hheld
  · show (reread _ _ l.c2s.queue).length + l.c2s.held ≤ ringSize
    rw [length_reread]
    exact hroom
  · rw [Link.pending_reread, length_reread]
    exact hcount

lemma SlotInv.other (hi : SlotInv q t) {q' : ℕ} (hne : q' ≠ q) {user : Heap}
    {vec : CryptoOperation} (hfit : vec.FitsSlot) {mem' : ℕ → UInt8}
    (hmem : mem' = putSlot t.mem user (slotIndex q' (t.puts q')) vec) :
    SlotInv q ⟨t.link.reread (ringSlot mem' q) (t.puts q), mem',
      Function.update t.puts q' (t.puts q' + 1)⟩ := by
  refine .of_reread (Function.update_of_ne hne.symm _ _) hi.toLinkInv
    (fun m hm => hi.carries m (List.mem_append_left _ hm))
    (hi.carries_reread fun k _ _ op => ?_) hi.held hi.room hi.count
  rw [hmem]
  exact (sameSlot_putSlot t.mem user (other_ring_ne hne _ k) hfit).holds

lemma Sending.Consistent.carries_reread {s : Sending} {requests : List CryptoOperationContext}
    (h : s.Consistent requests) (hcount : s.count ≠ 0) {tx n : ℕ} (htx : tx ≤ s.count)
    (hring : tx ≤ ringSize) {users : ℕ → Heap} {mem : ℕ → UInt8}
    (hfit : ∀ ind ∈ sendIndices tx s.ind, ind < s.size → (s.vecs ind).FitsSlot) :
    ∀ m ∈ reread (ringSlot (s.writeRound users q n (sendIndices tx s.ind) mem) q) (n + tx)
      (s.messages tx users), Carries requests m := by
  intro m hm
  have h1 := h.size
  have h2 := h.count
  have hids := h.ids_messages hcount htx users
  have hinds : sendIndices tx s.ind = List.range' (s.size - s.count) tx := by
    rw [sendIndices_eq tx s.ind (by rw [h.toNat_ind hcount]; omega), h.toNat_ind hcount]
  obtain ⟨pre, post, hsplit⟩ := List.append_of_mem hm
  obtain ⟨pre₀, m₀, post₀, hlist, hlen, rfl⟩ := reread_eq_append hsplit
  rw [hlist, List.map_append, List.map_cons] at hids
  -- it is packet `pre₀.length` of the round
  have hpos : pre₀.length + (post.length + 1) = tx := by
    have := congrArg List.length hids
    simpa [hlen] using this
  have hid : m₀.id = s.base + (s.size - s.count) + pre₀.length := by
    have := congrArg (·[pre₀.length]?) hids
    simp only [List.getElem?_append_right (List.length_map _).le, List.length_map, Nat.sub_self,
      List.getElem?_cons_zero, List.getElem?_range' (show pre₀.length < tx by omega),
      Nat.one_mul] at this
    exact Option.some.inj this
  have hget : (sendIndices tx s.ind)[pre₀.length]? = some (s.size - s.count + pre₀.length) := by
    rw [hinds, List.getElem?_range' (by omega), Nat.one_mul]
  have hlt : s.size - s.count + pre₀.length < s.size := by omega
  have hold : (ringSlot (s.writeRound users q n (sendIndices tx s.ind) mem) q
      (n + pre₀.length)).Holds _ :=
    holds_writeRound n _ mem hfit (by rwa [length_sendIndices]) pre₀.length _ hget hlt
  rw [hid, Nat.add_assoc s.base, show n + tx - 1 - post.length = n + pre₀.length by omega]
  exact ⟨_, h.vecs _ hlt, hold⟩

/-- **A round of `send`** writes slots that no pending request has. -/
lemma SlotInv.sendRound (cfg : Config) (hP : P.Sound) (hi : SlotInv q t) {s : Sending} {tx : ℕ}
    {users : ℕ → Heap} {mem' : ℕ → UInt8} (hs : t.link.sending = some s) (hcount : s.count ≠ 0)
    (htx : P.grant (min (min maxMemifBufs s.count) t.link.c2s.free) tx)
    (hfit : ∀ ind ∈ sendIndices tx s.ind, ind < s.size → (s.vecs ind).FitsSlot)
    (hmem : mem' = s.writeRound users q (t.puts q) (sendIndices tx s.ind) t.mem) :
    SlotInv q ⟨(t.link.put s tx users).reread (ringSlot mem' q) (t.puts q + tx), mem',
      Function.update t.puts q (t.puts q + tx)⟩ := by
  have hstep : LinkStep cfg P t.link (t.link.put s tx users) := .sendRound s tx users hs hcount htx
  obtain ⟨hheld, hroom⟩ := hstep.room hP hi.held hi.room
  have hle := hP.grant _ _ htx
  have hfree : t.link.c2s.free = ringSize - (t.link.c2s.queue.length + t.link.c2s.held) := rfl
  have hlen : (s.messages tx users).length = tx := by
    rw [Sending.messages, List.length_mapIdx, length_sendIndices]
  have hpend : (t.link.put s tx users).pending = t.link.pending ++ s.messages tx users :=
    (List.append_assoc _ _ _).symm
  have hsize : t.link.pending.length + tx ≤ ringSize := by
    have h1 := hi.held
    have h2 := hi.room
    rw [Link.pending, List.length_append]
    omega
  have hputs := hi.count
  refine .of_reread (Function.update_self _ _ _) (hstep.inv hP hi.toLinkInv)
    (fun m hm => hi.carries m (List.mem_append_left _ hm)) ?_ hheld hroom ?_
  · rw [hpend, reread_append, hlen, Nat.add_sub_cancel]
    intro m hm
    rcases List.mem_append.mp hm with hm | hm
    · -- the slots of the pending requests lie behind those that are written
      refine hi.carries_reread (fun k hk hk' op => ?_) m hm
      rw [hmem]
      refine SameSlot.holds (sameSlot_writeRound _ _ _ hfit fun i hin => ?_)
      rw [length_sendIndices] at hin
      exact (slotIndex_ne (by omega) (by omega)).symm
    · subst hmem
      exact (hi.sending s hs).carries_reread hcount (by omega) (by omega) hfit m hm
  · rw [hpend, List.length_append, hlen]
    omega

/-- **Each step keeps the invariant**, if the operations that are sent fit their slots. -/
lemma SlotStep.inv (hP : P.Sound) (h : SlotStep cfg P q CryptoOperation.FitsSlot t t')
    (hi : SlotInv q t) : SlotInv q t' := by
  cases h with
  | link l' h hput => exact hi.link hP h hput
  | sendRound s tx users mem' hs hcount htx hok hmem =>
      exact hi.sendRound cfg hP hs hcount htx hok hmem
  | other q' user vec mem' hne hq' hok hmem => exact hi.other hne hok hmem

/-- The invariant holds in every reachable state. -/
lemma SlotInv.of_reachable (hP : P.Sound) {mem : ℕ → UInt8}
    (h : ReflTransGen (SlotStep cfg P q CryptoOperation.FitsSlot) (.init mem) t) :
    SlotInv q t := by
  induction h with
  | refl =>
      refine ⟨.init, fun _ h => (nomatch h), fun pre m post h => ?_, le_rfl, Nat.zero_le _,
        Nat.zero_le _⟩
      exact absurd h.symm (List.append_ne_nil_of_right_ne_nil pre (List.cons_ne_nil m post))
  | tail _ hstep ih => exact hstep.inv hP ih

end Steps

/-! ## Order -/

/-- **Nothing is reordered, duplicated or invented, and each response has the context of its
request**, in every run in which the operations that are sent, on this queue and on the other one,
fit their slots. -/
theorem slots_ordered (cfg : Config) (q : ℕ) (mem : ℕ → UInt8) (t : SlotLink)
    (h : ReflTransGen (SlotStep cfg partialGrants q CryptoOperation.FitsSlot) (.init mem) t) :
    t.link.Ordered :=
  (SlotInv.of_reachable partialGrants_sound h).ordered

/-- **The server stays inside the slots**, in every such run: whatever batch it makes of the
requests it was granted responses for, the relay copy reads the request slots and writes the
response slots, and the jobs it decodes are views of the response slots. -/
theorem slots_contained (cfg : Config) (q : ℕ) (mem : ℕ → UInt8) (t : SlotLink)
    (h : ReflTransGen (SlotStep cfg partialGrants q CryptoOperation.FitsSlot) (.init mem) t)
    (granted : List Message) (hp : t.link.serverPoll = .refilled granted) (b : Batch)
    (hb : b.Holds granted) (old : CryptoOperation) (i : ℕ) (hi : i < b.len) :
    Contained b.heap (.req (b.rx i)) (.resp (b.tx i)) old := by
  have hinv := SlotInv.of_reachable partialGrants_sound h
  have hlt : i < granted.length := hb.1 ▸ hi
  have hhand : t.link.inHand = granted := by rw [Link.inHand, hp]
  have hmem : granted[i] ∈ t.link.inHand ++ t.link.c2s.queue :=
    List.mem_append_left _ (hhand ▸ List.getElem_mem hlt)
  obtain ⟨op, -, hold⟩ := hinv.carries _ hmem
  have hlen : requestLengths b.heap (.req (b.rx i)) = Slot.lengths granted[i].slot := by
    rw [← hb.2 i _ (List.getElem?_eq_getElem hlt)]
    exact loadLengths_congr fun k _ => by simp
  refine contained_of_lengths b.heap old (by simp) ?_ ?_
  · rw [hlen]
    exact hold.payload
  · rw [hlen]
    exact hold.keyIv

/-! ## Two runs

A request waits in slot 0 of request ring 1, the client puts packets into ring 0, and then the
server and the client poll. -/

section Runs

variable {cfg : Config} {q : ℕ} {ok : CryptoOperation → Prop}

/-- A step that puts nothing into the request ring. -/
def QuietStep (cfg : Config) (l l' : Link) : Prop :=
  LinkStep cfg partialGrants l l' ∧ l'.c2s.queue <:+ l.c2s.queue

lemma SlotLink.run_quiet {l l' : Link} (h : ReflTransGen (QuietStep cfg) l l')
    (mem : ℕ → UInt8) (puts : ℕ → ℕ) :
    ReflTransGen (SlotStep cfg partialGrants q ok) ⟨l, mem, puts⟩ ⟨l', mem, puts⟩ :=
  h.lift (fun l => SlotLink.mk l mem puts) fun _ l' h => .link l' h.1 h.2

/-- The server receives a waiting request, copies it to a response slot and gives it back. -/
lemma Link.run_copy (cfg : Config) {l : Link} {m : Message} (hc2s : l.c2s = ⟨[m], 0⟩)
    (hs2c : l.s2c = .empty) (hserver : l.serverPoll = .idle) :
    ReflTransGen (QuietStep cfg) l { l with c2s := .empty, serverPoll := .refilled [m] } := by
  obtain ⟨server, c2s, s2c, sending, serverPoll, clientPoll, requests, executed, delivered,
    returned⟩ := l
  simp only at hc2s hs2c hserver
  subst hc2s hs2c hserver
  have hrx : QuietStep cfg ⟨server, ⟨[m], 0⟩, .empty, sending, .idle, clientPoll, requests,
      executed, delivered, returned⟩ _ :=
    ⟨.serverRx 1 rfl (show 1 ≤ min maxMemifBufs 1 by decide), List.nil_suffix⟩
  exact ((ReflTransGen.single hrx).tail
    ⟨.serverAlloc [m] 1 rfl (show 1 ≤ min 1 ringSize by decide), List.suffix_rfl⟩).tail
    ⟨.serverRefill 1 [m] rfl, List.suffix_rfl⟩

/-- **A waiting request is answered as its slot is now.** -/
lemma Link.run_deliver (cfg : Config) {l : Link} {m : Message} (hc2s : l.c2s = ⟨[m], 0⟩)
    (hs2c : l.s2c = .empty) (hserver : l.serverPoll = .idle) (hclient : l.clientPoll = .idle)
    (hop : (Slot.context m.slot).opType ≠ cryptoOpTypeSessCiphering) :
    ∃ l' m', ReflTransGen (QuietStep cfg) l l' ∧ l'.requests = l.requests ∧
      l'.executed = l.executed ++ [m.id] ∧ l'.delivered = l.delivered ++ [m'] ∧ l'.inRing = [] ∧
      m'.id = m.id ∧ Answers (Slot.context m.slot) (Slot.context m'.slot) := by
  have hcopy := Link.run_copy cfg hc2s hs2c hserver
  obtain ⟨server, c2s, s2c, sending, serverPoll, clientPoll, requests, executed, delivered,
    returned⟩ := l
  simp only at hc2s hs2c hserver hclient
  subst hc2s hs2c hserver hclient
  have hvalid : (Batch.of [m]).Valid := Batch.valid_of (by simp [maxJobsBurstSize])
  obtain ⟨server', h', hrun⟩ : ∃ s' h', (Batch.of [m]).handle cfg server = some (s', h') := by
    refine Batch.handle_returns cfg server hvalid fun i hi => ?_
    obtain rfl : i = 0 := by simpa [Batch.of] using hi
    exact hop
  obtain ⟨-, hans⟩ : _ ∧ Answers _ _ := List.forall₂_cons.mp
    (Batch.answers_responses hvalid (Batch.holds_of [m]) hrun) |>.1
  have hanswer := (hcopy.tail ⟨.serverExec [m] (Batch.of [m]) server' h' rfl hvalid
    (Batch.holds_of [m]) hrun, List.suffix_rfl⟩).tail ⟨.serverTx _ rfl, List.suffix_rfl⟩
  have hrecv := (hanswer.tail ⟨.clientRx 1 rfl (show 1 ≤ min maxMemifBufs 1 by decide),
    List.suffix_rfl⟩).tail ⟨.clientRecv _ rfl, List.suffix_rfl⟩
  exact ⟨_, ⟨m.id, h'.mem (.resp 0)⟩, hrecv, rfl, rfl, rfl, rfl, rfl, hans⟩

/-- A request waits in ring 1, and `send` has returned. -/
def Link.waitingRequest (slot : Slot) : Link :=
  { Link.init with
    c2s := ⟨[⟨0, slot⟩], 0⟩
    requests := [closeOperation.op]
    returned := [0] }

/-- One packet was put into ring 1, and `n` into ring 0. -/
def putsOther (n : ℕ) : ℕ → ℕ
  | 0 => n
  | 1 => 1
  | _ => 0

lemma update_putsOther (n : ℕ) : Function.update (putsOther n) 0 (n + 1) = putsOther (n + 1) := by
  funext q
  rcases q with _ | _ | q <;> rfl

lemma SlotLink.run_request (cfg : Config) (ok : CryptoOperation → Prop) (hok : ok closeOperation)
    (mem : ℕ → UInt8) (user : Heap) :
    ∃ mem', ReflTransGen (SlotStep cfg partialGrants 1 ok) (.init mem)
      ⟨.waitingRequest (ringSlot mem' 1 0), mem', putsOther 0⟩ := by
  set mem' := putSlot mem user (slotIndex 1 0) closeOperation with hmem
  set s : Sending := ⟨fun _ => closeOperation, 1, 0, 1, 0⟩ with hs
  have hstart : SlotStep cfg partialGrants 1 ok (.init mem)
      ⟨{ Link.init with sending := some s, requests := [closeOperation.op] }, mem, fun _ => 0⟩ :=
    .link _ (.sendStart (fun _ => closeOperation) 1 rfl (show 1 < 65536 by decide))
      List.suffix_rfl
  have hputs : Function.update (fun _ => 0) 1 (0 + 1) = putsOther 0 := by
    funext q
    rcases q with _ | _ | q <;> rfl
  have hround : SlotStep cfg partialGrants 1 ok
      ⟨{ Link.init with sending := some s, requests := [closeOperation.op] }, mem, fun _ => 0⟩
      ⟨{ Link.init with
          c2s := ⟨[⟨0, ringSlot mem' 1 0⟩], 0⟩
          sending := some { s with count := 0, ind := 1 }
          requests := [closeOperation.op] }, mem', putsOther 0⟩ := by
    rw [← hputs]
    exact .sendRound s 1 (fun _ => user) mem' rfl Nat.one_ne_zero
      (show 1 ≤ min (min maxMemifBufs 1) ringSize by decide) (fun _ _ _ => hok) rfl
  exact ⟨mem', ((ReflTransGen.single hstart).tail hround).tail
    (.link _ (.sendReturn { s with count := 0, ind := 1 } rfl rfl) List.suffix_rfl)⟩

/-- The client puts `n` packets into ring 0 while the request waits. -/
lemma SlotLink.run_other (cfg : Config) (ok : CryptoOperation → Prop) (hok : ok closeOperation)
    (user : Heap) (mem : ℕ → UInt8) (n : ℕ) :
    ∃ mem', ReflTransGen (SlotStep cfg partialGrants 1 ok)
      ⟨.waitingRequest (ringSlot mem 1 0), mem, putsOther 0⟩
      ⟨.waitingRequest (ringSlot mem' 1 0), mem', putsOther n⟩ := by
  induction n with
  | zero => exact ⟨mem, .refl⟩
  | succ n ih =>
      obtain ⟨mem', hrun⟩ := ih
      have hput := hrun.tail (.other 0 user closeOperation _ (by decide) (by decide) hok rfl)
      rw [← update_putsOther]
      exact ⟨_, hput⟩

end Runs

/-- The request is delivered although the other ring is in use. -/
theorem slots_ordered_delivered :
    ∃ t, ReflTransGen (SlotStep (sampleConfig 0 1) partialGrants 1 CryptoOperation.FitsSlot)
        (.init fun _ => 0) t ∧
      t.puts 0 = 3 ∧ t.link.delivered.map (·.id) = [0] ∧ t.link.Ordered := by
  have hok : closeOperation.FitsSlot := by decide
  obtain ⟨mem₁, hsend⟩ := SlotLink.run_request (sampleConfig 0 1) _ hok (fun _ => 0)
    ⟨fun _ _ => 0, []⟩
  obtain ⟨mem₂, hother⟩ := SlotLink.run_other (sampleConfig 0 1) _ hok ⟨fun _ _ => 0, []⟩
    mem₁ 3
  -- the waiting request is still the one that was sent
  have hwait := hsend.trans hother
  obtain ⟨hid, c, hc, hans⟩ := (SlotInv.of_reachable partialGrants_sound hwait).contexts
    ⟨0, ringSlot mem₂ 1 0⟩ (List.mem_singleton_self _)
  obtain rfl : closeOperation.op = c := Option.some.inj hc
  have hop : (ringSlot mem₂ 1 0).context.opType ≠ cryptoOpTypeSessCiphering := by
    rw [hans.opType]
    decide
  obtain ⟨l', m', hrun, -, -, hdel, -, hid', -⟩ := Link.run_deliver (sampleConfig 0 1)
    (l := .waitingRequest (ringSlot mem₂ 1 0)) rfl rfl rfl rfl hop
  have hall := hwait.trans (SlotLink.run_quiet hrun mem₂ (putsOther 3))
  refine ⟨_, hall, rfl, ?_, slots_ordered _ _ _ _ hall⟩
  show l'.delivered.map (·.id) = [0]
  rw [hdel]
  exact congrArg (fun id => [id]) hid'

/-- The server has copied the request. -/
theorem slots_contained_request :
    ∃ t m, ReflTransGen (SlotStep (sampleConfig 0 1) partialGrants 1 CryptoOperation.FitsSlot)
        (.init fun _ => 0) t ∧ t.link.serverPoll = .refilled [m] ∧
      Contained (Batch.of [m]).heap (.req 0) (.resp 0) closeOperation := by
  have hok : closeOperation.FitsSlot := by decide
  obtain ⟨mem, hsend⟩ := SlotLink.run_request (sampleConfig 0 1) _ hok (fun _ => 0)
    ⟨fun _ _ => 0, []⟩
  have hcopy := Link.run_copy (sampleConfig 0 1) (l := .waitingRequest (ringSlot mem 1 0))
    (m := ⟨0, ringSlot mem 1 0⟩) rfl rfl rfl
  have hall := hsend.trans (SlotLink.run_quiet hcopy mem (putsOther 0))
  exact ⟨_, _, hall, rfl, slots_contained _ _ _ _ hall _ rfl (Batch.of [⟨0, ringSlot mem 1 0⟩])
    (Batch.holds_of _) closeOperation 0 Nat.one_pos⟩

/-- An operation whose key ends at the end of the slot, with an IV of 64 bytes behind it. -/
def longIvOperation : CryptoOperation :=
  { closeOperation with cipherKey := ⟨7276, ⟨.user, 64⟩⟩, cipherIv := ⟨64, ⟨.user, 64⟩⟩ }

/-- The IV lands on the context in the next slot. -/
lemma context_longIvOperation (mem : ℕ → UInt8) (k : ℕ) :
    (slotAt (putSlot mem ⟨fun _ _ => 1, []⟩ k longIvOperation) (k + 1)).context =
      loadContext ⟨fun _ _ => 1, []⟩ ⟨.user, 0⟩ := by
  refine loadContext_congr fun i hi => ?_
  have hi' : i < 64 := hi
  have ho : ¬Oversize longIvOperation.cipherBuffList := by decide
  show (cryptoJobToBuffer _ _ longIvOperation).1.mem (.req 0) (slotSize * (k + 1) + (0 + i)) = 1
  rw [cryptoJobToBuffer_copied _ _ ho]
  -- the memory of the client is as it was when the IV is copied
  have huser : ∀ p : Ptr, p.region = .req 0 →
      (putBuff (copySegments (storeLengths (storeContext (clientHeap mem ⟨fun _ _ => 1, []⟩) p
        longIvOperation.op) (p.add sizeofContext) (lengthsOf longIvOperation)) (p.add payloadOff)
          longIvOperation.cipherBuffList).1 (p.add keyOff) longIvOperation.cipherKey).mem .user =
        fun _ => 1 := by
    intro p hp
    have hne : ∀ n, Region.user ≠ (p.add n).region := by simp [hp]
    rw [(frame_putBuff _ _ _).mem_of_ne (hne _), (frame_copySegments _ _ _).mem_of_ne (hne _),
      (frame_storeLengths _ _ _).mem_of_ne (hne _),
      (frame_storeContext _ p _).mem_of_ne (hne 0)]
    rfl
  generalize hh : putBuff (copySegments _ _ _).1 _ _ = h
  have hone : h.mem .user = fun _ => 1 := by rw [← hh]; exact huser ⟨.req 0, slotSize * k⟩ rfl
  have hl := layout
  have hk : slotSize * (k + 1) = slotSize * k + slotSize := Nat.mul_succ _ _
  have hkey : longIvOperation.cipherKey.length.toNat = 7276 := rfl
  have hiv : longIvOperation.cipherIv.length.toNat = 64 := rfl
  have haddr : slotSize * (k + 1) + (0 + i) =
      slotSize * k + (keyOff + longIvOperation.cipherKey.length.toNat) + i := by
    rw [hkey]
    omega
  have hlt : i < (h.bytes longIvOperation.cipherIv.data
      longIvOperation.cipherIv.length.toNat).length := by rwa [Heap.bytes_length, hiv]
  rw [putBuff, if_pos (by decide), if_pos (by decide), Heap.memcpy, Heap.mem_store, haddr,
    if_pos ⟨rfl, Nat.le_add_right _ _, Nat.add_lt_add_left hlt _⟩, Ptr.add_off,
    Nat.add_sub_cancel_left, List.getD_eq_getElem _ _ hlt]
  simp only [Heap.bytes, List.getElem_map]
  exact congrFun hone _

/-- **A waiting request loses its context.**  The client sends a request on ring 1 and 1024 packets
on ring 0.  The last one has a key of 7276 bytes and an IV of 64 bytes; all others fit their slots.
It is in slot 1023, its IV goes into the slot behind it, which is slot 0 of ring 1, and the response
to the waiting request has none of the fields of the request. -/
theorem overrun_loses_context :
    ¬longIvOperation.FitsSlot ∧
    ∃ t, ReflTransGen (SlotStep (sampleConfig 0 1) partialGrants 1
        fun vec => vec.FitsSlot ∨ vec = longIvOperation) (.init fun _ => 0) t ∧
      t.link.requests = [closeOperation.op] ∧ t.link.executed = [0] ∧
      t.link.delivered.map (·.id) = [0] ∧
      t.link.delivered.map (fun m => (Slot.context m.slot).opType) = [0x01010101] ∧
      ¬t.link.Ordered := by
  have hok : closeOperation.FitsSlot ∨ closeOperation = longIvOperation := .inl (by decide)
  obtain ⟨mem₁, hsend⟩ := SlotLink.run_request (sampleConfig 0 1)
    (fun vec => vec.FitsSlot ∨ vec = longIvOperation) hok (fun _ => 0) ⟨fun _ _ => 1, []⟩
  obtain ⟨mem₂, hother⟩ := SlotLink.run_other (sampleConfig 0 1)
    (fun vec => vec.FitsSlot ∨ vec = longIvOperation) hok ⟨fun _ _ => 1, []⟩ mem₁ 1023
  obtain ⟨mem₃, hmem⟩ : ∃ mem₃, mem₃ = putSlot mem₂ ⟨fun _ _ => 1, []⟩ 1023 longIvOperation :=
    ⟨_, rfl⟩
  have hover : SlotStep (sampleConfig 0 1) partialGrants 1
      (fun vec => vec.FitsSlot ∨ vec = longIvOperation)
      ⟨.waitingRequest (ringSlot mem₂ 1 0), mem₂, putsOther 1023⟩
      ⟨.waitingRequest (ringSlot mem₃ 1 0), mem₃, Function.update (putsOther 1023) 0 1024⟩ :=
    .other 0 _ longIvOperation mem₃ (by decide) (by decide) (.inr rfl) hmem
  -- what the server reads is the IV
  have hctx : (ringSlot mem₃ 1 0).context = loadContext ⟨fun _ _ => 1, []⟩ ⟨.user, 0⟩ := by
    rw [hmem]
    exact context_longIvOperation mem₂ 1023
  have hop : (ringSlot mem₃ 1 0).context.opType = 0x01010101 := by
    rw [hctx]
    decide
  obtain ⟨l', m', hrun, hreq, hexec, hdel, hring, hid, hans⟩ := Link.run_deliver
    (sampleConfig 0 1) (l := .waitingRequest (ringSlot mem₃ 1 0)) rfl rfl rfl rfl
    (by rw [hop]; decide)
  have hop' : (Slot.context m'.slot).opType = 0x01010101 := hans.opType.trans hop
  refine ⟨by decide, _, (hsend.trans hother).tail hover |>.trans (SlotLink.run_quiet hrun mem₃ _),
    hreq, hexec, ?_, ?_, fun hord => ?_⟩
  · show l'.delivered.map (·.id) = [0]
    rw [hdel]
    exact congrArg (fun id => [id]) hid
  · show l'.delivered.map (fun m => (Slot.context m.slot).opType) = _
    rw [hdel]
    exact congrArg (fun op => [op]) hop'
  · have hresp : List.Forall₂ (Responds l'.requests) l'.executed (l'.delivered ++ l'.inRing) :=
      hord.responses
    rw [hreq, hexec, hdel, hring] at hresp
    obtain ⟨⟨-, c, hc, hc'⟩, -⟩ := List.forall₂_cons.mp hresp
    obtain rfl : closeOperation.op = c := Option.some.inj hc
    exact absurd (hop'.symm.trans hc'.opType) (by decide)

end CiphApp
