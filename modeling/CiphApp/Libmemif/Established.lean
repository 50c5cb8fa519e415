import CiphApp.Libmemif.Completion
import CiphApp.Libmemif.SharedRing

/-!
# Connections that are established

What a handshake guarantees, for every slave and master that fit (`Pairing`) and every run of their
processes from the greeting on (`Pairing.Start`).

* `handshake_safe`: every call succeeds, at most one message is on its way, and the master is
  connected before the slave.
* `handshake_agrees`: when the slave is connected, both ends have the same rings in the same files.
* `handshake_completes`: both ends are connected at some time, if the kernel reports all that is
  ready and calls the ends that have something to do.
* `handshake_stalls`: what happens if it does not, and the master takes `CONNECT` in a call that
  does not write.
* `handshake_starts_rings`: the rings of a connection that is up are where the runs of
  `Libmemif.Delivery` begin, and the queues of the two connections are their ends.

`ciphPairing` is the connection of this program, with the arguments of `Memif_client::conn_alloc`.
-/

namespace CiphApp.Libmemif

open Lib

/-! ## The connection of this program -/

/-- The arguments of a connection of this program. -/
def ciphArgs (isMaster : Bool) : MemifConnArgs where
  secret := []
  numS2mRings := 2
  numM2sRings := 2
  bufferSize := 16384
  log2RingSize := 10
  isMaster
  interfaceId := 0
  mode := 0

/-- A client and the server, each with its first connection. -/
def ciphPairing : Pairing where
  slaveArgs := ciphArgs false
  masterArgs := ciphArgs true
  slave := 0
  master := 0
  slaveFd := 7
  masterFd := 8
  slaveFlag := false
  masterFlag := false
  slave_isMaster := rfl
  master_isMaster := rfl
  interfaceId_eq := rfl
  mode_eq := rfl
  secret_ok := .inl rfl
  s2m_le := by decide
  m2s_le := by decide
  mappable := ⟨by decide, by decide, by decide⟩
  masterFd_ne := by decide

/-- Both processes when the client has connected its socket, over files that are all zero. -/
def ciphBegin : Pair := ciphPairing.begin ⟨3, fun _ _ => ⟨0, ⟨0, 0, 0, fun _ => ⟨0, 0, 0, 0⟩⟩⟩⟩

lemma start_ciphBegin : ciphPairing.Start ciphBegin :=
  ciphPairing.start_begin ⟨by decide, by decide⟩ ⟨by decide, by decide⟩ rfl rfl (by decide)
    (by decide) _

/-! ## Safety -/

variable {P : Pairing} {s₀ s : Pair} {ls : List Label}

lemma length_inboxAt_le (P : Pairing) (f : File) (st : Stage) :
    (P.inboxAt f .slave st).length + (P.inboxAt f .master st).length ≤ 1 := by
  have htake : ∀ k, (((P.msgs f).drop k).take 1).length ≤ 1 := fun k => by
    rw [List.length_take]
    exact min_le_left _ _
  cases st with
  | toMaster k => exact (Nat.zero_add _).trans_le (htake k)
  | greeting | toSlave k => exact Nat.le_refl 1
  | slaveTurn k | masterTurn k => exact Nat.zero_le 1

lemma upAt_prefix (P : Pairing) (st : Stage) : P.upAt st <+: [.master, .slave] := by
  have hone : [Party.master] <+: [.master, .slave] := ⟨[.slave], rfl⟩
  cases st with
  | slaveTurn k =>
      rw [Pairing.upAt]
      split_ifs
      · exact List.nil_prefix
      · exact List.prefix_rfl
  | masterTurn k | toSlave k =>
      rw [Pairing.upAt]
      split_ifs
      · exact List.nil_prefix
      · exact hone
  | _ => exact List.nil_prefix

/-- **Nothing goes wrong in a handshake.**  In whatever order the two processes are called, every
call succeeds, at most one message is on its way, and the master is connected before the slave. -/
theorem handshake_safe (h₀ : P.Start s₀) (h : Trace (PairStep P) s₀ ls s) :
    (s.inbox .slave).length + (s.inbox .master).length ≤ 1 ∧
    s.up <+: [.master, .slave] ∧
    ∀ who ev r, Ready P s who ev r →
      ∃ p, memifControlFdHandler ⟨s.main who, s.files, []⟩ (P.fd who) ev r = .ok (.success, p) := by
  obtain ⟨f, st, hholds⟩ := h₀.run h
  refine ⟨?_, ?_, fun who ev r hready => ?_⟩
  · rw [hholds.inbox, hholds.inbox]
    exact length_inboxAt_le P f st
  · rw [hholds.up]
    exact upAt_prefix P st
  · obtain ⟨p, -, hcall, -⟩ := hholds.call hready
    exact ⟨p, hcall⟩

/-- In the handshake of this program, when its third message is on its way. -/
theorem handshake_safe_ciphBegin : ∃ ls s,
    Trace (PairStep ciphPairing) ciphBegin ls s ∧ s.up = [] ∧ (s.inbox .master).length = 1 ∧
      (s.inbox .slave).length + (s.inbox .master).length ≤ 1 := by
  obtain ⟨f, ls, s, ht, h⟩ := start_ciphBegin.exists_toMaster (k := 2) (by decide)
  refine ⟨ls, s, ht, h.up, ?_, (handshake_safe start_ciphBegin ht).1⟩
  rw [h.inbox]
  rfl

/-! ## Agreement -/

/-- What both ends know of a region: the file, where it is mapped, and its size. -/
def Region.shared (r : Region) : Option File × Option File × UInt32 :=
  (r.fd, r.addr, r.layout.regionSize)

/-- **A slave and a master agree.**  What one receives from is what the other sends to, and the
regions are the same files. -/
structure Agree (x y : Connection) : Prop where
  rx : y.rxQueues = x.txQueues
  tx : y.txQueues = x.rxQueues
  regions : y.regions.map (Option.map Region.shared) = x.regions.map (Option.map Region.shared)
  numS2mRings : y.runArgs.numS2mRings = x.runArgs.numS2mRings
  numM2sRings : y.runArgs.numM2sRings = x.runArgs.numM2sRings

/-- The queues of a slave with rings of one direction. -/
def Connection.slaveQueues (x : Connection) : MemifRingType → List (Option Queue)
  | .s2m => x.txQueues
  | .m2s => x.rxQueues

/-- The last stage is the one in which the slave is connected. -/
lemma eq_last_of_up {st : Stage} (hvalid : st.Valid P.steps) (hup : .slave ∈ P.upAt st) :
    st = .slaveTurn P.steps := by
  cases st with
  | slaveTurn k =>
      have hle : k ≤ P.steps := hvalid
      rw [Pairing.upAt] at hup
      by_cases hk : k < P.steps
      · rw [if_pos hk] at hup
        cases hup
      · rw [Nat.le_antisymm hle (not_lt.mp hk)]
  | masterTurn k | toSlave k =>
      rw [Pairing.upAt] at hup
      split_ifs at hup with hk
      · cases hup
      · exact absurd (List.mem_singleton.mp hup) (by decide)
  | greeting | toMaster k => cases hup

/-- A queue of the master is the one of the slave. -/
lemma connect_masterQueue {a : MemifConnRunArgs} (ha : Mappable a) (f : File)
    (type : MemifRingType) :
    ((List.range (a.num type)).map fun i => some ((masterQueue a f type i).connect f)) =
      initQueues a type f (firstInt a f type) (a.num type) := by
  refine List.map_congr_left fun i hi => ?_
  have hoff := toNat_offset ha (List.mem_range.mp hi)
  rw [Queue.connect]
  show some (Queue.mk _ _ _ _ (some (f, (UInt32.ofNat (memifGetRing a type i)).toNat))) = _
  rw [hoff]
  rfl

lemma agree_masterUp (P : Pairing) (f : File) (q : List Sent) (fl : Bool) :
    Agree (P.slaveWith f q fl) (masterUp P.masterArgs P.runArgs f P.masterFd) where
  rx := connect_masterQueue P.mappable f .s2m
  tx := connect_masterQueue P.mappable f .m2s
  regions := rfl
  numS2mRings := UInt8.ofNat_toNat
  numM2sRings := UInt8.ofNat_toNat

lemma Holds.last {f : File} (h : Holds P f (.slaveTurn P.steps) s) :
    (s.main .slave).conn P.slave = P.slaveWith f [] true ∧
      (s.main .master).conn P.master = masterUp P.masterArgs P.runArgs f P.masterFd := by
  have hnil : (P.msgs f).drop P.steps = [] := by
    rw [List.drop_eq_nil_iff, Pairing.length_msgs]
  obtain ⟨j, hj⟩ := Nat.exists_eq_succ_of_ne_zero P.steps_pos.ne'
  have hmaster : P.Knows f (s.main .master) [] false P.steps := h.master
  rw [hj] at hmaster
  refine ⟨h.slave.conn.trans ?_, (Attached.conn hmaster).trans ?_⟩
  · rw [Pairing.slaveAt, hnil]
  · rw [Pairing.knownConn, hj, if_neg (lt_irrefl _)]
    rfl

/-- **Both ends agree** when the slave is connected.  They have the same rings in the same files,
as many as the slave was created with; the rings are empty and set up, and no message is left. -/
theorem handshake_agrees (h₀ : P.Start s₀) (h : Trace (PairStep P) s₀ ls s)
    (hup : .slave ∈ s.up) :
    Agree ((s.main .slave).conn P.slave) ((s.main .master).conn P.master) ∧
    (∀ type, ∀ i < P.runArgs.num type, ∃ q file flags,
      (((s.main .slave).conn P.slave).slaveQueues type)[i]? = some (some q) ∧
      q.queue = initQueue P.runArgs ∧ q.ring = some (file, memifGetRing P.runArgs type i) ∧
      s.files.mem file (memifGetRing P.runArgs type i) =
        ⟨memifCookie, { initRing P.runArgs type i with flags }⟩) ∧
    ∀ who, s.inbox who = [] ∧ ((s.main who).conn (P.conn who)).msgQueue = [] := by
  obtain ⟨f, st, hholds⟩ := h₀.run h
  obtain rfl := eq_last_of_up hholds.valid (hholds.up ▸ hup)
  obtain ⟨hslave, hmaster⟩ := hholds.last
  refine ⟨?_, fun type i hi => ?_, fun who => ⟨?_, ?_⟩⟩
  · rw [hslave, hmaster]
    exact agree_masterUp P f [] true
  · obtain ⟨flags, hmem⟩ := hholds.files Stage.noConfusion type i hi
    have hget : (initQueues P.runArgs type f (firstInt P.runArgs f type)
        (P.runArgs.num type))[i]? =
          some (some (queueAt P.runArgs type f (firstInt P.runArgs f type) i)) := by
      rw [initQueues, List.getElem?_map, List.getElem?_range hi]
      rfl
    refine ⟨queueAt P.runArgs type f (firstInt P.runArgs f type) i, f, flags, ?_, rfl, rfl, hmem⟩
    rw [hslave]
    cases type with
    | s2m => exact hget
    | m2s => exact hget
  · rw [hholds.inbox]
    cases who <;> rfl
  · cases who with
    | slave => exact congrArg Connection.msgQueue hslave
    | master => exact congrArg Connection.msgQueue hmaster

/-- The handshake of this program ends with two ends that agree. -/
theorem handshake_agrees_ciphBegin : ∃ ls s,
    Trace (PairStep ciphPairing) ciphBegin ls s ∧ s.up = [.master, .slave] ∧
      Agree ((s.main .slave).conn ciphPairing.slave)
        ((s.main .master).conn ciphPairing.master) := by
  obtain ⟨f, ls, s, ht, h⟩ := start_ciphBegin.exists_last
  have hup : s.up = [.master, .slave] := h.up
  exact ⟨ls, s, ht, hup, (handshake_agrees start_ciphBegin ht (by rw [hup]; decide)).1⟩

/-! ## Completion -/

/-- **A handshake completes.**  Take any infinite run in which the kernel reports all that is ready
and an end that has something to do is called at some time.  Then from some time on both
applications have been told that they are connected, the master first. -/
theorem handshake_completes (P : Pairing) (run : ℕ → Pair) (label : ℕ → Label)
    (h₀ : P.Start (run 0)) (hstep : ∀ t, PairStep P (run t) (label t) (run (t + 1)))
    (hlevel : ∀ t, (label t).Level P (run t)) (hfair : Fair Label.party (Pair.Due P) run label) :
    ∃ t, ∀ t' ≥ t, (run t').up = [.master, .slave] := by
  obtain ⟨t, st, hrank, hkept⟩ := (turns P).eventually (fun t => ⟨hstep t, hlevel t⟩) hfair
    (t := 0) ⟨⟨0, h₀.holds⟩, fun k hk => by cases hk⟩
  refine ⟨t, fun t' ht' => ?_⟩
  obtain ⟨⟨f, h⟩, -⟩ := hkept t' ht'
  obtain rfl := Stage.eq_last_of_rank P.steps_pos h.valid hrank
  rw [h.up, Pairing.upAt, if_neg (lt_irrefl _)]

/-- If both ends are asked by turns, then the handshake of this program completes. -/
theorem handshake_completes_ciphBegin : ∃ (run : ℕ → Pair) (label : ℕ → Label),
    run 0 = ciphBegin ∧ (∀ t, PairStep ciphPairing (run t) (label t) (run (t + 1))) ∧
      (∀ t, (label t).Level ciphPairing (run t)) ∧
      Fair Label.party (Pair.Due ciphPairing) run label ∧
      ∃ t, ∀ t' ≥ t, (run t').up = [.master, .slave] := by
  obtain ⟨run, label, hzero, hstep, hlevel, hfair⟩ := start_ciphBegin.exists_fair_run
  exact ⟨run, label, hzero, hstep, hlevel, hfair, handshake_completes ciphPairing run label
    (hzero ▸ start_ciphBegin) hstep hlevel hfair⟩

/-- **A last answer that waits is never sent.**  If the application of the master has been told that
it is connected, and nothing is on its way to the slave, then the slave is never connected, whatever
the kernel reports. -/
theorem handshake_stalls (P : Pairing) (s₀ s s' : Pair) (ls ls' : List Label) (h₀ : P.Start s₀)
    (h : Trace (PairStep P) s₀ ls s) (hup : s.up = [.master]) (hinbox : s.inbox .slave = [])
    (h' : Trace (PairStep P) s ls' s') : s'.up = [.master] ∧ s'.inbox .slave = [] := by
  obtain ⟨f, st, hholds⟩ := h₀.run h
  -- it is the turn of the master, behind the last message
  obtain ⟨k, rfl, hk⟩ : ∃ k, st = .masterTurn k ∧ ¬k + 1 < P.steps := by
    have hup' := hholds.up.symm.trans hup
    have hin := (hholds.inbox .slave).symm.trans hinbox
    cases st with
    | greeting | toMaster k => cases hup'
    | slaveTurn k =>
        rw [Pairing.upAt] at hup'
        split_ifs at hup'
        cases hup'
    | masterTurn k =>
        refine ⟨k, rfl, fun hlt => ?_⟩
        rw [Pairing.upAt, if_pos hlt] at hup'
        cases hup'
    | toSlave k => cases hin
  have hstep : ∀ s l t, PairStep P s l t → (∃ f, Holds P f (.masterTurn k) s) →
      ∃ f, Holds P f (.masterTurn k) t := by
    rintro s l t hs ⟨f, hf⟩
    exact hf.stalled hk hs
  obtain ⟨f', hlast⟩ := h'.induct hstep ⟨f, hholds⟩
  refine ⟨?_, hlast.inbox .slave⟩
  rw [hlast.up, Pairing.upAt, if_neg hk]

/-- The server of this program is called for reading only when `CONNECT` has arrived: the client is
never connected. -/
theorem handshake_stalls_ciphBegin : ∃ ls s,
    Trace (PairStep ciphPairing) ciphBegin ls s ∧ s.up = [.master] ∧ s.inbox .slave = [] ∧
      ∀ ls' s', Trace (PairStep ciphPairing) s ls' s' → s'.up = [.master] := by
  obtain ⟨f, ls, s, k, ht, h, hk⟩ := start_ciphBegin.exists_stalled
  have hup : s.up = [.master] := by
    rw [h.up, Pairing.upAt, hk, if_neg (lt_irrefl _)]
  have hinbox : s.inbox .slave = [] := h.inbox .slave
  exact ⟨ls, s, ht, hup, hinbox, fun ls' s' ht' =>
    (handshake_stalls ciphPairing _ s s' ls ls' start_ciphBegin ht hup hinbox ht').1⟩

/-! ## The rings of a connection -/

/-- What the calls that move packets read of a connection. -/
def Connection.forCalls (x : Connection) : MemifConnection where
  isMaster := x.args.isMaster
  fd := x.fd
  runArgs := x.runArgs
  txQueues i := (x.txQueues[i]?.join.map Queue.queue).getD ⟨0, 0, 0, 0⟩
  rxQueues i := (x.rxQueues[i]?.join.map Queue.queue).getD ⟨0, 0, 0, 0⟩

/-- The connection of an end, for its calls. -/
def Pair.connection (P : Pairing) (s : Pair) (who : Party) : MemifConnection :=
  ((s.main who).conn (P.conn who)).forCalls

/-- The end that sends on a ring. -/
def MemifRingType.sender : MemifRingType → Party
  | .s2m => .slave
  | .m2s => .master

/-- The end that receives on a ring. -/
def MemifRingType.receiver : MemifRingType → Party
  | .s2m => .master
  | .m2s => .slave

/-- The ring of a connection, with its two ends.  The buffers have a power of two as their size, and
can be numbered with 16 bits. -/
def Pairing.ringConfig (P : Pairing) (f : File) {n : ℕ} (hsize : P.runArgs.bufferSize.toNat = 2 ^ n)
    (hdescs : P.runArgs.numRings * P.runArgs.ringSize ≤ 2 ^ 16) (type : MemifRingType) {i : ℕ}
    (hi : i < P.runArgs.num type) : RingConfig where
  args := P.runArgs
  type
  index := i
  index_lt := by cases type <;> exact hi
  log2BufferSize := n
  bufferSize_eq := hsize
  log2RingSize_le := UInt8.le_iff_toNat_le.mp P.mappable.log2
  descs_le := hdescs
  producer := match type with
    | .s2m => (P.slaveWith f [] true).forCalls
    | .m2s => (masterUp P.masterArgs P.runArgs f P.masterFd).forCalls
  consumer := match type with
    | .s2m => (masterUp P.masterArgs P.runArgs f P.masterFd).forCalls
    | .m2s => (P.slaveWith f [] true).forCalls
  producer_isMaster := by
    cases type
    · exact P.slave_isMaster
    · exact P.master_isMaster
  consumer_isMaster := by
    cases type
    · exact P.master_isMaster
    · exact P.slave_isMaster
  producer_args := by
    rintro rfl
    rfl
  consumer_args := by
    rintro rfl
    rfl

section Rings

variable {a : MemifConnRunArgs} {f : File} {type : MemifRingType} {i : ℕ}

lemma queue_initQueues (hi : i < a.num type) (first : File) :
    ((initQueues a type f first (a.num type))[i]?.join.map Queue.queue).getD ⟨0, 0, 0, 0⟩ =
      initQueue a := by
  rw [initQueues, List.getElem?_map, List.getElem?_range hi]
  rfl

lemma queue_masterQueues (hi : i < a.num type) :
    ((((List.range (a.num type)).map fun i =>
      some ((masterQueue a f type i).connect f))[i]?.join).map Queue.queue).getD ⟨0, 0, 0, 0⟩ =
      initQueue a := by
  rw [List.getElem?_map, List.getElem?_range hi]
  rfl

lemma toNat_qid (hi : i < a.num type) : (UInt16.ofNat i).toNat = i :=
  toNat_index (hi.trans (num_lt a type))

/-- A connection is the end of the sender, if its queue with the number of the ring is. -/
lemma RingConfig.TxEnd.of_connection {g : RingConfig} {mq : MemifQueue} {x : Connection}
    (hside : g.producer.SameSide x.forCalls) (hfd : 0 ≤ x.fd) (hi : i < a.num type)
    (hnum : x.forCalls.numTx.toNat = a.num type)
    (hqueue : (x.txQueues[i]?.join.map Queue.queue).getD ⟨0, 0, 0, 0⟩ = mq) :
    g.TxEnd mq x.forCalls (UInt16.ofNat i) := by
  refine ⟨hside, hfd, ?_, ?_⟩
  · rw [toNat_qid hi, hnum]
    exact hi
  · rw [toNat_qid hi]
    exact hqueue

/-- A connection is the end of the receiver, if its queue with the number of the ring is. -/
lemma RingConfig.RxEnd.of_connection {g : RingConfig} {mq : MemifQueue} {x : Connection}
    (hside : g.consumer.SameSide x.forCalls) (hfd : 0 ≤ x.fd) (hi : i < a.num type)
    (hnum : x.forCalls.numRx.toNat = a.num type)
    (hqueue : (x.rxQueues[i]?.join.map Queue.queue).getD ⟨0, 0, 0, 0⟩ = mq) :
    g.RxEnd mq x.forCalls (UInt16.ofNat i) := by
  refine ⟨hside, hfd, ?_, ?_⟩
  · rw [toNat_qid hi, hnum]
    exact hi
  · rw [toNat_qid hi]
    exact hqueue

end Rings

section Ends

variable (P : Pairing) (f : File)

/-- The slave sends on the rings to the master, and receives on the others. -/
lemma nums_slave : (P.slaveWith f [] true).forCalls.numTx.toNat = P.runArgs.num .s2m ∧
    (P.slaveWith f [] true).forCalls.numRx.toNat = P.runArgs.num .m2s := by
  have hslave : (P.slaveWith f [] true).forCalls.isMaster = false := P.slave_isMaster
  rw [MemifConnection.numTx, MemifConnection.numRx, hslave]
  exact ⟨rfl, rfl⟩

/-- With the master it is the other way round. -/
lemma nums_master :
    (masterUp P.masterArgs P.runArgs f P.masterFd).forCalls.numTx.toNat = P.runArgs.num .m2s ∧
      (masterUp P.masterArgs P.runArgs f P.masterFd).forCalls.numRx.toNat =
        P.runArgs.num .s2m := by
  have hmaster : (masterUp P.masterArgs P.runArgs f P.masterFd).forCalls.isMaster = true :=
    P.master_isMaster
  rw [MemifConnection.numTx, MemifConnection.numRx, hmaster]
  exact ⟨congrArg UInt8.toNat UInt8.ofNat_toNat, congrArg UInt8.toNat UInt8.ofNat_toNat⟩

end Ends

/-- **A handshake leaves rings that have just been set up.**  When the slave is connected, each ring
of the connection is in shared memory as it is in a state that `SharedRing.init` reaches by a change
of its flags, and the connections of the two ends are the ends of this ring: they are up, and the
queue with the number of the ring is theirs. -/
theorem handshake_starts_rings (P : Pairing) (s₀ s : Pair) (ls : List Label) (h₀ : P.Start s₀)
    (h : Trace (PairStep P) s₀ ls s) (hup : .slave ∈ s.up) (hslaveFd : 0 ≤ P.slaveFd)
    (hmasterFd : 0 ≤ P.masterFd) (n : ℕ) (hsize : P.runArgs.bufferSize.toNat = 2 ^ n)
    (hdescs : P.runArgs.numRings * P.runArgs.ringSize ≤ 2 ^ 16) (type : MemifRingType) (i : ℕ)
    (hi : i < P.runArgs.num type) (shm : Shm) :
    ∃ (g : RingConfig) (file : File) (r : SharedRing),
      g.args = P.runArgs ∧ g.type = type ∧ g.index = i ∧
      Trace (RingStep g) (.init g shm) [.silent] r ∧
      (s.files.mem file (memifGetRing P.runArgs type i)).ring = r.ring ∧
      g.TxEnd r.txQueue (s.connection P type.sender) (UInt16.ofNat i) ∧
      g.RxEnd r.rxQueue (s.connection P type.receiver) (UInt16.ofNat i) := by
  obtain ⟨f, st, hholds⟩ := h₀.run h
  obtain rfl := eq_last_of_up hholds.valid (hholds.up ▸ hup)
  obtain ⟨hslave, hmaster⟩ := hholds.last
  obtain ⟨flags, hmem⟩ := hholds.files Stage.noConfusion type i hi
  refine ⟨P.ringConfig f hsize hdescs type hi, f, _, rfl, rfl, rfl,
    Trace.nil.snoc _ (.env flags shm fun _ => rfl), ?_, ?_, ?_⟩
  · rw [hmem]
    rfl
  · cases type with
    | s2m =>
        show RingConfig.TxEnd _ _ ((s.main .slave).conn P.slave).forCalls _
        rw [hslave]
        exact .of_connection ⟨rfl, rfl⟩ hslaveFd hi (nums_slave P f).1 (queue_initQueues hi _)
    | m2s =>
        show RingConfig.TxEnd _ _ ((s.main .master).conn P.master).forCalls _
        rw [hmaster]
        exact .of_connection ⟨rfl, rfl⟩ hmasterFd hi (nums_master P f).1 (queue_masterQueues hi)
  · cases type with
    | s2m =>
        show RingConfig.RxEnd _ _ ((s.main .master).conn P.master).forCalls _
        rw [hmaster]
        exact .of_connection ⟨rfl, rfl⟩ hmasterFd hi (nums_master P f).2 (queue_masterQueues hi)
    | m2s =>
        show RingConfig.RxEnd _ _ ((s.main .slave).conn P.slave).forCalls _
        rw [hslave]
        exact .of_connection ⟨rfl, rfl⟩ hslaveFd hi (nums_slave P f).2 (queue_initQueues hi _)

/-- The second ring from the client to the server, when the handshake of this program has ended. -/
theorem handshake_starts_rings_ciphBegin : ∃ ls s,
    Trace (PairStep ciphPairing) ciphBegin ls s ∧ s.up = [.master, .slave] ∧
      ∃ (g : RingConfig) (file : File) (r : SharedRing), g.args = ciphRunArgs ∧ g.index = 1 ∧
        Trace (RingStep g) (.init g ⟨fun _ _ => 0, []⟩) [.silent] r ∧
        (s.files.mem file (memifGetRing ciphRunArgs .s2m 1)).ring = r.ring ∧
        g.TxEnd r.txQueue (s.connection ciphPairing .slave) 1 ∧
        g.RxEnd r.rxQueue (s.connection ciphPairing .master) 1 := by
  obtain ⟨f, ls, s, ht, h⟩ := start_ciphBegin.exists_last
  have hup : s.up = [.master, .slave] := h.up
  obtain ⟨g, file, r, hargs, -, hindex, hrun, hring, htx, hrx⟩ :=
    handshake_starts_rings ciphPairing _ s ls start_ciphBegin ht (by rw [hup]; decide) (by decide)
      (by decide) 14 (by decide) (by decide) .s2m 1 (by decide) ⟨fun _ _ => 0, []⟩
  exact ⟨ls, s, ht, hup, g, file, r, hargs, hindex, hrun, hring, htx, hrx⟩

end CiphApp.Libmemif
