import CiphApp.Agent.Encoder
import CiphApp.Agent.Server

/-!
# One queue of a connection

The three loops of `libmemif_client/memif_client.cpp` that move messages between a client and the
server: `Memif_client::send` on the client, `on_interrupt00_poll` on the server and
`on_interrupt02_poll` on the client.  A ring of libmemif is a bounded FIFO of 1024 descriptors; a
descriptor that was received still takes its place until it is given back.

The state is that of one queue of one connected pair.  The loops are split where another party can
come in between: a round of `send` is one step, a poll of the server takes five and a poll of the
client three, and any party may take its next step at any time.  What other connections and other
queues do meanwhile appears as `serverOther`: the state of the server changes in some way.  The
calls report no error; `memif_buffer_alloc` may still grant less than it was asked for.

The messages carry a number that the source does not have: the position of the request among all
that were passed to `send`.  The other histories (`requests`, `executed`, `delivered`, `returned`)
record what has happened and are read by no step.
-/

namespace CiphApp

open Lib Relation

/-! ## Messages and rings -/

/-- The bytes of a ring slot.  At this level each message has a slot for itself, however long its
parts are.  In memory a slot has 16384 bytes and the next one follows; `Memif.Slots` puts the slots
there and says for which operations they do not disturb each other. -/
abbrev Slot := ℕ → UInt8

/-- The context at the front of a slot. -/
def Slot.context (c : Slot) : CryptoOperationContext :=
  loadContext ⟨fun _ => c, []⟩ ⟨.user, 0⟩

/-- A message in a ring: the number of the request and the bytes of the slot. -/
structure Message where
  id : ℕ
  slot : Slot

/-- The size of a ring, `1 << log2_ring_size`. -/
def ringSize : ℕ := 1024

/-- `MAX_MEMIF_BUFS`. -/
def maxMemifBufs : ℕ := 64

/-- A ring: the messages sent and not yet received, oldest first, and the number of descriptors
that were received and not yet given back. -/
structure Ring where
  queue : List Message
  held : ℕ

namespace Ring

def empty : Ring := ⟨[], 0⟩

/-- The descriptors a sender can get. -/
def free (r : Ring) : ℕ := ringSize - (r.queue.length + r.held)

/-- `memif_tx_burst`. -/
def tx (r : Ring) (ms : List Message) : Ring := { r with queue := r.queue ++ ms }

/-- `memif_rx_burst` returning `n` messages. -/
def rx (r : Ring) (n : ℕ) : Ring := ⟨r.queue.drop n, r.held + n⟩

/-- `memif_refill_queue`. -/
def refill (r : Ring) (n : ℕ) : Ring := { r with held := r.held - n }

end Ring

/-! ## The parties -/

/-- A call of `send` in progress: the operations it was called with, how many are left, and the
index of the next one, which has 16 bits in the source and wraps. -/
structure Sending where
  vecs : ℕ → CryptoOperation
  size : ℕ
  /-- The number of its first request. -/
  base : ℕ
  count : ℕ
  ind : UInt16

/-- The indices a round of `send` serialises when `tx` buffers were granted.  The loop takes two
at a time while there are more than two; the index is a 16-bit number, and `ind + 1` is not. -/
def sendIndices : ℕ → UInt16 → List ℕ
  | 0, _ => []
  | 1, ind => [ind.toNat]
  | 2, ind => [ind.toNat, (ind + 1).toNat]
  | tx + 3, ind => ind.toNat :: (ind.toNat + 1) :: sendIndices (tx + 1) (ind + 2)

/-- `Ciph_vec_burst_serializer::serialize`; `h` is the memory of the client, with the slot as it
was left by its last use. -/
def serialize (vecs : ℕ → CryptoOperation) (size : ℕ) (h : Heap) (ind : ℕ) : Slot :=
  if ind < size then (cryptoJobToBuffer h ⟨.req 0, 0⟩ (vecs ind)).1.mem (.req 0)
  else h.mem (.req 0)

/-- The messages of a round of `send`. -/
def Sending.messages (s : Sending) (tx : ℕ) (heaps : ℕ → Heap) : List Message :=
  (sendIndices tx s.ind).mapIdx fun k ind =>
    ⟨s.base + ind, serialize s.vecs s.size (heaps k) ind⟩

/-- Where `on_interrupt00_poll` stands, between two calls of libmemif.  The requests are given back
before they are handled, and those that got no response buffer are in none of the later states. -/
inductive ServerPoll
  | idle
  /-- `memif_rx_burst` has returned these. -/
  | received (rx : List Message)
  /-- `rx` descriptors were received, and these of them copied to response buffers. -/
  | copied (rx : ℕ) (granted : List Message)
  /-- The received descriptors were given back. -/
  | refilled (granted : List Message)
  /-- `on_recv_cb` has run, and these are the responses. -/
  | answered (tx : List Message)

/-- Where `on_interrupt02_poll` stands, between two calls of libmemif. -/
inductive ClientPoll
  | idle
  /-- `memif_rx_burst` has returned these. -/
  | received (rx : List Message)
  /-- The callback has run on them. -/
  | done (rx : ℕ)

/-- One queue of a connected pair: the server, the two rings, and where each side is in its calls.
The last four fields are a history that no step reads. -/
structure Link where
  server : Server
  c2s : Ring
  s2c : Ring
  sending : Option Sending
  serverPoll : ServerPoll
  clientPoll : ClientPoll
  /-- The contexts of all operations that were passed to `send`, in order. -/
  requests : List CryptoOperationContext
  /-- The requests that were handed to `run_jobs`, in order. -/
  executed : List ℕ
  /-- What was passed to the callback of the client, in order. -/
  delivered : List Message
  /-- The requests whose `send` has returned 0. -/
  returned : List ℕ

/-- A pair that has just been connected. -/
def Link.init : Link :=
  ⟨Server.init, .empty, .empty, none, .idle, .idle, [], [], [], []⟩

/-! ## Steps -/

/-- What is left open: of the `m` buffers that could be granted, `grant m t` says whether `t` may
be, and `burst` says which sizes `send` is called with. -/
structure Policy where
  grant : ℕ → ℕ → Prop
  burst : ℕ → Prop

/-- The messages of a batch of the server, as far as they were granted a response buffer, are those
in the request slots. -/
def Batch.Holds (b : Batch) (ms : List Message) : Prop :=
  b.len = ms.length ∧ ∀ i m, ms[i]? = some m → b.heap.mem (.req (b.rx i)) = m.slot

/-- The response slots of a batch after it was handled. -/
def Batch.responses (b : Batch) (ms : List Message) (h' : Heap) : List Message :=
  ms.mapIdx fun i m => ⟨m.id, h'.mem (.resp (b.tx i))⟩

/-- **One step of the pair.**  A call of `send` or of a poll is cut where another process can see
what it has done, and the steps of the two sides may come in any order.  How many buffers are
granted and how large the bursts are is up to `P`.  `serverOther` is everything the server does for
other queues and connections in between. -/
inductive LinkStep (cfg : Config) (P : Policy) (l : Link) : Link → Prop
  /-- `send` is called. -/
  | sendStart (vecs : ℕ → CryptoOperation) (size : ℕ) (hs : l.sending = none)
      (hsize : P.burst size) :
      LinkStep cfg P l
        { l with
          sending := some ⟨vecs, size, l.requests.length, size, 0⟩
          requests := l.requests ++ (List.range size).map fun i => (vecs i).op }
  /-- A round of `send` is granted `tx` buffers, fills them and sends them. -/
  | sendRound (s : Sending) (tx : ℕ) (heaps : ℕ → Heap) (hs : l.sending = some s)
      (hcount : s.count ≠ 0)
      (htx : P.grant (min (min maxMemifBufs s.count) l.c2s.free) tx) :
      LinkStep cfg P l
        { l with
          c2s := l.c2s.tx (s.messages tx heaps)
          sending := some { s with count := s.count - tx, ind := s.ind + UInt16.ofNat tx } }
  /-- `send` returns 0. -/
  | sendReturn (s : Sending) (hs : l.sending = some s) (hcount : s.count = 0) :
      LinkStep cfg P l
        { l with
          sending := none
          returned := l.returned ++ List.range' s.base s.size }
  | serverRx (rx : ℕ) (hp : l.serverPoll = .idle)
      (hrx : rx ≤ min maxMemifBufs l.c2s.queue.length) :
      LinkStep cfg P l
        { l with
          c2s := l.c2s.rx rx
          serverPoll := .received (l.c2s.queue.take rx) }
  /-- `tx` response buffers are granted, and as many messages are copied. -/
  | serverAlloc (rx : List Message) (tx : ℕ) (hp : l.serverPoll = .received rx)
      (htx : P.grant (min rx.length l.s2c.free) tx) :
      LinkStep cfg P l { l with serverPoll := .copied rx.length (rx.take tx) }
  | serverRefill (rx : ℕ) (granted : List Message) (hp : l.serverPoll = .copied rx granted) :
      LinkStep cfg P l { l with c2s := l.c2s.refill rx, serverPoll := .refilled granted }
  /-- `on_recv_cb` runs on the granted messages. -/
  | serverExec (granted : List Message) (b : Batch) (s' : Server) (h' : Heap)
      (hp : l.serverPoll = .refilled granted) (hb : b.Valid) (hheld : b.Holds granted)
      (hrun : b.handle cfg l.server = some (s', h')) :
      LinkStep cfg P l
        { l with
          server := s'
          serverPoll := .answered (b.responses granted h')
          executed := l.executed ++ granted.map (·.id) }
  | serverTx (tx : List Message) (hp : l.serverPoll = .answered tx) :
      LinkStep cfg P l { l with s2c := l.s2c.tx tx, serverPoll := .idle }
  | serverOther (s' : Server) : LinkStep cfg P l { l with server := s' }
  | clientRx (rx : ℕ) (hp : l.clientPoll = .idle)
      (hrx : rx ≤ min maxMemifBufs l.s2c.queue.length) :
      LinkStep cfg P l
        { l with
          s2c := l.s2c.rx rx
          clientPoll := .received (l.s2c.queue.take rx) }
  | clientRecv (rx : List Message) (hp : l.clientPoll = .received rx) :
      LinkStep cfg P l
        { l with
          clientPoll := .done rx.length
          delivered := l.delivered ++ rx }
  | clientRefill (rx : ℕ) (hp : l.clientPoll = .done rx) :
      LinkStep cfg P l { l with s2c := l.s2c.refill rx, clientPoll := .idle }

/-! ## Contexts of messages -/

lemma Slot.context_eq (h : Heap) (p : Ptr) (hp : p.off = 0) :
    Slot.context (h.mem p.region) = loadContext h p :=
  loadContext_congr fun i _ => by simp [hp]

/-- The encoder keeps the context, but for the mark of an oversize operation. -/
lemma answers_serialize (vecs : ℕ → CryptoOperation) {size ind : ℕ} (hind : ind < size)
    (h : Heap) : Answers (vecs ind).op (serialize vecs size h ind).context := by
  rw [serialize, if_pos hind, Slot.context_eq _ ⟨.req 0, 0⟩ rfl, loadContext_cryptoJobToBuffer]
  split_ifs
  · exact .setStatus (vecs ind) _
  · exact .refl _

lemma Batch.answers_responses {cfg : Config} {s s' : Server} {b : Batch} {h' : Heap}
    {ms : List Message} (hb : b.Valid) (hheld : b.Holds ms)
    (hrun : b.handle cfg s = some (s', h')) :
    List.Forall₂ (fun m m' => m.id = m'.id ∧ Answers (Slot.context m.slot) (Slot.context m'.slot))
      ms (b.responses ms h') := by
  rw [List.forall₂_iff_get]
  refine ⟨by simp [Batch.responses], fun i hi hi' => ?_⟩
  have hm : ms[i]? = some ms[i] := List.getElem?_eq_getElem hi
  simp only [Batch.responses, List.get_eq_getElem, List.getElem_mapIdx, true_and]
  have hreq : Slot.context (b.heap.mem (.req (b.rx i))) = b.context i :=
    Slot.context_eq b.heap (b.rxBufs i) rfl
  have hresp : Slot.context (h'.mem (.resp (b.tx i))) = loadContext h' (b.txBufs i) :=
    Slot.context_eq h' (b.txBufs i) rfl
  rw [← hheld.2 i _ hm, hreq, hresp]
  exact Batch.handle_answers hb hrun (hheld.1 ▸ hi)

/-- A batch without ciphering requests is handled, whatever state the devices are in. -/
lemma Batch.handle_returns (cfg : Config) (s : Server) {b : Batch} (hb : b.Valid)
    (h : ∀ i < b.len, (b.context i).opType ≠ cryptoOpTypeSessCiphering) :
    ∃ s' h', b.handle cfg s = some (s', h') := by
  have hunlisted : ∀ d, ∀ i < b.len, ¬Listed cfg (b.call s) s.cl d i := by
    intro d i hi hl
    refine h i hi ((listed_iff.mp hl).2.1.symm.trans ?_).symm
    rw [((b.decoded s).views i hi).context, (Batch.front_copyLoop hb hi).1]
    exact (answers_outputRule _ _).opType
  obtain ⟨r, hr⟩ : ∃ r, (b.call s).run cfg s.cl = some r := run_returns_of_unlisted hunlisted
  exact ⟨_, _, Batch.handle_of_run hr⟩

/-! ## One request at a time

A client that closes a session over and over and never polls: after `n` requests that were all
served, all `n` responses wait in their ring. -/

/-- There is room for a response to each request the server has just received. -/
def Link.Roomy (l : Link) : Prop := ∀ rx, l.serverPoll = .received rx → rx.length ≤ l.s2c.free

/-- Steps that meet a pair with room for the responses. -/
def RoomyStep (cfg : Config) (P : Policy) (l l' : Link) : Prop := l.Roomy ∧ LinkStep cfg P l l'

lemma RoomyStep.run {cfg : Config} {P : Policy} {l l' : Link}
    (h : ReflTransGen (RoomyStep cfg P) l l') : ReflTransGen (LinkStep cfg P) l l' :=
  ReflTransGen.mono (fun _ _ h => h.2) _ _ h

/-- All parties are idle, and the responses to all requests wait in their ring. -/
def Link.waiting (server : Server) (responses : List Message)
    (requests : List CryptoOperationContext) : Link where
  server
  c2s := .empty
  s2c := ⟨responses, 0⟩
  sending := none
  serverPoll := .idle
  clientPoll := .idle
  requests
  executed := List.range requests.length
  delivered := []
  returned := List.range requests.length

/-- A request to close session 0. -/
def closeOperation : CryptoOperation where
  op := ⟨cryptoOpStatusNotProcessed, 0, 0, 0, 0, cryptoOpTypeSessClose, 0, cryptoCipherAesCtr,
    cryptoCipherOpEncrypt, 0⟩
  cipherBuffList := ⟨0, fun _ => ⟨0, null⟩⟩
  cipherKey := ⟨0, null⟩
  cipherIv := ⟨0, null⟩

/-- The message that carries it. -/
def closeMessage (id : ℕ) : Message :=
  ⟨id, serialize (fun _ => closeOperation) 1 ⟨fun _ _ => 0, []⟩ 0⟩

/-- One more request is in its ring, and `send` has returned. -/
def Link.sent (server : Server) (responses : List Message)
    (requests : List CryptoOperationContext) : Link :=
  { Link.waiting server responses requests with
    c2s := ⟨[closeMessage requests.length], 0⟩
    requests := requests ++ [closeOperation.op]
    returned := List.range requests.length ++ [requests.length] }

/-- The batch of these messages. -/
def Batch.of (ms : List Message) : Batch where
  connId := 0
  rx := fun i => i
  tx := fun i => i
  len := ms.length
  script := ⟨fun _ => ⟨none, true, ⟨true, true⟩⟩, fun _ => ⟨[], []⟩⟩
  heap := ⟨fun r => match r with
    | .req i => (ms.map (·.slot)).getD i fun _ => 0
    | _ => fun _ => 0, []⟩

/-- The server has received the request, and answered it if it was granted a buffer. -/
def Link.polled (server : Server) (responses : List Message)
    (requests : List CryptoOperationContext) (tx : ℕ) (h' : Heap) : Link :=
  let ms := [closeMessage requests.length].take tx
  { Link.sent server (responses ++ (Batch.of ms).responses ms h') requests with
    c2s := .empty
    executed := List.range requests.length ++ ms.map (·.id) }

section Waiting

lemma Batch.valid_of {ms : List Message} (h : ms.length ≤ maxJobsBurstSize) : (Batch.of ms).Valid :=
  ⟨by simp [Batch.of, maxChannelNum], h, fun _ _ _ _ h => h⟩

lemma Batch.holds_of (ms : List Message) : (Batch.of ms).Holds ms :=
  ⟨rfl, fun i m hm => by simp [Batch.of, List.getD, hm]⟩

lemma Link.roomy_of_idle {l : Link} (h : l.serverPoll = .idle) : l.Roomy := fun rx hrx => by
  rw [h] at hrx
  cases hrx

lemma Link.run_send (cfg : Config) {P : Policy} (hgrant : ∀ m, P.grant m m) (hburst : P.burst 1)
    (server : Server) (responses : List Message) (requests : List CryptoOperationContext) :
    ReflTransGen (RoomyStep cfg P) (.waiting server responses requests)
      (.sent server responses requests) := by
  refine ReflTransGen.tail (ReflTransGen.tail (ReflTransGen.single ⟨roomy_of_idle rfl,
    .sendStart (fun _ => closeOperation) 1 rfl hburst⟩) ⟨roomy_of_idle rfl,
    .sendRound _ 1 (fun _ => ⟨fun _ _ => 0, []⟩) rfl Nat.one_ne_zero (hgrant 1)⟩)
    ⟨roomy_of_idle rfl, ?_⟩
  exact .sendReturn ⟨fun _ => closeOperation, 1, requests.length, 0, 0 + UInt16.ofNat 1⟩ rfl rfl

lemma opType_closeMessage (id : ℕ) :
    (Slot.context (closeMessage id).slot).opType = cryptoOpTypeSessClose :=
  (answers_serialize (fun _ => closeOperation) Nat.one_pos _).opType

lemma Batch.run_of (cfg : Config) (s : Server) {ms : List Message}
    (hlen : ms.length ≤ maxJobsBurstSize)
    (h : ∀ m ∈ ms, (Slot.context m.slot).opType = cryptoOpTypeSessClose) :
    ∃ s' h', (Batch.of ms).handle cfg s = some (s', h') := by
  refine Batch.handle_returns cfg s (Batch.valid_of hlen) fun i hi => ?_
  have hm : ms[i]? = some ms[i] := List.getElem?_eq_getElem hi
  have hctx : (Batch.of ms).context i = Slot.context ms[i].slot := by
    rw [← (Batch.holds_of ms).2 i _ hm]
    exact (Slot.context_eq _ ((Batch.of ms).rxBufs i) rfl).symm
  rw [hctx, h _ (List.getElem_mem hi)]
  decide

lemma Link.run_poll (cfg : Config) {P : Policy} (server : Server) (responses : List Message)
    (requests : List CryptoOperationContext) {tx : ℕ}
    (htx : P.grant (min 1 (ringSize - responses.length)) tx) :
    ∃ server' h', ReflTransGen (LinkStep cfg P) (.sent server responses requests)
      (.polled server' responses requests tx h') := by
  set ms := [closeMessage requests.length].take tx with hms
  have hlen : ms.length ≤ maxJobsBurstSize := by
    rw [hms, List.length_take]
    exact (Nat.min_le_right _ _).trans (show 1 ≤ maxJobsBurstSize by decide)
  obtain ⟨server', h', hrun⟩ := Batch.run_of cfg server hlen fun m hm => by
    rw [List.mem_singleton.mp (List.mem_of_mem_take hm), opType_closeMessage]
  refine ⟨server', h', ?_⟩
  refine ReflTransGen.head (.serverRx 1 rfl (show 1 ≤ min maxMemifBufs 1 by decide)) ?_
  refine ReflTransGen.head (.serverAlloc [closeMessage requests.length] tx rfl htx) ?_
  refine ReflTransGen.head (.serverRefill 1 ms rfl) ?_
  refine ReflTransGen.head (.serverExec ms (Batch.of ms) server' h' rfl (Batch.valid_of hlen)
    (Batch.holds_of ms) hrun) ?_
  exact ReflTransGen.single (.serverTx _ rfl)

end Waiting

end CiphApp
