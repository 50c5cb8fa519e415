import CiphApp.Lib.Simulation
import CiphApp.Libmemif.Handler

/-!
# The handshake

How a slave and a master set up their connection, from the greeting on, whatever the order in which
their processes are called.

## The two processes

A `Pairing` is a slave and a master that fit: the same interface and mode, a secret that the master
accepts, and room for the rings of the slave.  A `Pair` is the state of both processes, with the
messages that are on their way on the socket between them.  In a `PairStep` a process handles what
the kernel reports about its end of the socket (`memif_control_fd_handler`), or something else
happens: other connections of either process come and go, and other files are written.  What has to
be left alone is in `Untouched` and `Kept`.  Nobody uses the rings before the connection is up, but
interrupts may be masked at any time.

The sockets block.  A call that reads returns when there is a message, so there is one when it has
been made (`Ready`).  Until the peer has named its interface, the master reads whatever is reported.

## The stages

The slave sends its messages (`script`) one at a time, and waits for the answer to each.  So there
is always one end that everything waits for, or one message on its way, and a `Stage` says which.
`Holds P f st s` ties the state to the stage: what the connections of both ends are, what is in the
inboxes, and that the rings in file `f` are set up once the slave has had the greeting.

* `Holds.read` and `Holds.write` are the two halves of a call, with one case for each stage in which
  there is something to read or to write; `Holds.call` puts them together, and `Holds.step` adds the
  steps that have nothing to do with the handshake.
* `Pairing.start_begin` shows where a handshake begins, by running `memif_create` on both sides and
  `memif_conn_fd_accept_ready` on the master.

`Libmemif.Completion` shows that the stages are gone through, and `Libmemif.Established` has the
results.
-/

namespace CiphApp.Libmemif

open Lib

/-! ## A slave and a master -/

/-- The messages on a socket. -/
def sentOn (fd : ℤ) (es : List Effect) : List Sent :=
  es.filterMap fun
    | .sendmsg fd' m => if fd' = fd then some m else none
    | _ => none

/-- **Two connections that fit.**  The master and the slave were created for one interface and in
one mode; the master asks for no secret or for the one the slave has, and allows as many rings as
the slave wants.  `mappable` is about the numbers of the slave alone: the regions it makes are not
empty. The flags are those of `MEMIF_CONNECTION_FLAG_WRITE`, which may be left over from earlier
use. -/
structure Pairing where
  slaveArgs : MemifConnArgs
  masterArgs : MemifConnArgs
  slave : ConnId
  master : ConnId
  slaveFd : ℤ
  masterFd : ℤ
  slaveFlag : Bool
  masterFlag : Bool
  slave_isMaster : slaveArgs.isMaster = false
  master_isMaster : masterArgs.isMaster = true
  interfaceId_eq : slaveArgs.interfaceId = masterArgs.interfaceId
  mode_eq : slaveArgs.mode = masterArgs.mode
  secret_ok : masterArgs.secret = [] ∨ slaveArgs.secret = masterArgs.secret
  s2m_le : slaveArgs.numS2mRings ≤ masterArgs.numS2mRings
  m2s_le : slaveArgs.numM2sRings ≤ masterArgs.numM2sRings
  mappable : Mappable (runArgsOf slaveArgs)
  masterFd_ne : masterFd ≠ -1

namespace Pairing

variable (P : Pairing)

/-- What the slave runs with. -/
abbrev runArgs : MemifConnRunArgs := runArgsOf P.slaveArgs

/-- The number of messages of the slave. -/
def steps : ℕ := 4 + P.runArgs.numRings

/-- The messages of the slave. -/
def msgs (f : File) : List Sent := script P.slaveArgs P.runArgs f

/-- The answer to message `k`. -/
def answer (k : ℕ) : Sent := if k + 1 < P.steps then (.ack, none) else (.connected, none)

/-- The connection of the slave before the greeting. -/
def slaveFresh : Connection :=
  { Connection.create P.slaveArgs with fd := P.slaveFd, flagWrite := P.slaveFlag }

/-- The connection of the slave with messages that wait. -/
def slaveWith (f : File) (q : List Sent) (fl : Bool) : Connection :=
  slaveConn P.slaveArgs P.runArgs f P.slaveFd q fl

/-- The connection of the master before an `INIT`. -/
def masterFresh : Connection := { Connection.create P.masterArgs with flagWrite := P.masterFlag }

/-- The connection of the master behind `k` messages, if there is nothing to send. -/
def knownConn (f : File) (k : ℕ) : Connection :=
  if k < P.steps then masterAt P.masterArgs P.runArgs f P.masterFd (k - 1)
  else masterUp P.masterArgs P.runArgs f P.masterFd

/-- **The master behind `k` messages**, with its answers that wait. -/
def Knows (f : File) (m : LibmemifMain) (q : List Sent) (fl : Bool) : ℕ → Prop
  | 0 => Greeted m P.masterFd P.master P.masterArgs.interfaceId P.masterFresh
  | k + 1 => Attached m P.masterFd P.master
      { P.knownConn f (k + 1) with msgQueue := q, flagWrite := fl } (decide (k + 1 < P.steps))

variable {P} {f : File} {k : ℕ} {m : Sent} {p : Proc}

lemma steps_pos (P : Pairing) : 0 < P.steps := by
  rw [steps]
  omega

lemma length_msgs : (P.msgs f).length = P.steps := length_script ..

lemma getElem?_msgs (h : (P.msgs f)[k]? = some m) :
    (k = 0 ∧ m = initMsg P.slaveArgs) ∨
    (∃ j, k = j + 1 ∧ j + 2 < P.steps ∧ (body P.runArgs f)[j]? = some m) ∨
      (k + 1 = P.steps ∧ m = (.connect, none)) := by
  have hlen := length_body P.runArgs f
  cases k with
  | zero => exact .inl ⟨rfl, (Option.some.inj h).symm⟩
  | succ j =>
      rw [msgs, script, List.getElem?_cons_succ] at h
      by_cases hj : j < (body P.runArgs f).length
      · rw [List.getElem?_append_left hj] at h
        exact .inr (.inl ⟨j, rfl, by rw [steps]; omega, h⟩)
      · rw [List.getElem?_append_right (not_lt.mp hj)] at h
        obtain ⟨hlt, heq⟩ := List.getElem?_eq_some_iff.mp h
        have hzero : j - (body P.runArgs f).length = 0 := by
          simp only [List.length_cons, List.length_nil] at hlt
          omega
        refine .inr (.inr ⟨by rw [steps]; omega, ?_⟩)
        rw [← heq]
        simp only [hzero, List.getElem_cons_zero]

lemma checkSecret_initMsg (P : Pairing) :
    checkSecret P.masterArgs ⟨memifVersion, P.slaveArgs.interfaceId, P.slaveArgs.mode,
      P.slaveArgs.secret⟩ = none := by
  rcases P.secret_ok with h | h
  · rw [checkSecret, if_pos h]
  · by_cases hnil : P.masterArgs.secret = []
    · rw [checkSecret, if_pos hnil]
    · rw [checkSecret, if_neg hnil]
      simp only [h, if_neg hnil, ne_eq, not_true_eq_false, if_false]

lemma admits (P : Pairing) : Admits P.masterFresh
    ⟨memifVersion, P.slaveArgs.interfaceId, P.slaveArgs.mode, P.slaveArgs.secret⟩ where
  version := rfl
  isMaster := P.master_isMaster
  free := rfl
  mode := P.mode_eq
  secret := P.checkSecret_initMsg

/-- The effects when the master takes message `k`. -/
def masterEffects (P : Pairing) (k : ℕ) : List Effect :=
  if k + 1 < P.steps then [] else [.onConnect P.master]

/-- **The master takes message `k`.** -/
lemma Knows.receive (h : P.Knows f p.main [] false k) (hm : (P.msgs f)[k]? = some m)
    (hfs : RingsReady P.runArgs f p.files) :
    ∃ p', memifMsgReceive p P.masterFd (.msg m) = .ok (.success, p') ∧
      P.Knows f p'.main [P.answer k] true (k + 1) ∧ p'.files = p.files ∧
      p'.out = p.out ++ P.masterEffects k ∧
      (k ≠ 0 → p'.main.controlList = p.main.controlList) := by
  rcases getElem?_msgs hm with ⟨rfl, rfl⟩ | ⟨j, rfl, hj, hbody⟩ | ⟨hlast, rfl⟩
  · -- `INIT`
    have hsteps : 0 + 1 < P.steps := by rw [steps]; omega
    have hdispatch := Greeted.dispatch_init h P.masterFd_ne P.admits P.interfaceId_eq
    have hconn : ({ memifMsgEnqAck { P.masterFresh with fd := P.masterFd } with
        flagWrite := true } : Connection) =
          { P.knownConn f (0 + 1) with msgQueue := [P.answer 0], flagWrite := true } := by
      rw [answer, knownConn, if_pos hsteps, if_pos hsteps, Nat.zero_add, masterAt_zero]
      rfl
    refine ⟨_, memifMsgReceive_of_dispatch hdispatch, ?_, rfl, ?_, fun hne => absurd rfl hne⟩
    · rw [Knows, ← hconn, decide_eq_true hsteps]
      exact (Greeted.attached_initMain h P.masterFd_ne).marked rfl
    · rw [masterEffects, if_pos hsteps, List.append_nil]
      rfl
  · -- a region or a ring
    have hsteps : j + 1 + 1 < P.steps := hj
    have hattached : Attached p.main P.masterFd P.master
        (masterAt P.masterArgs P.runArgs f P.masterFd j) true := by
      have hsteps' : j + 1 < P.steps := Nat.lt_of_succ_lt hj
      rw [Knows, knownConn, if_pos hsteps', decide_eq_true hsteps'] at h
      exact h
    have hreceive := receiveBody_masterAt P.masterFd (UInt8.le_iff_toNat_le.mp P.s2m_le)
      (UInt8.le_iff_toNat_le.mp P.m2s_le) hbody
    have hdispatch := dispatch_body hattached.control (hattached.conn.symm ▸ hreceive)
    refine ⟨_, memifMsgReceive_of_dispatch hdispatch, ?_, rfl, ?_, fun _ => rfl⟩
    · rw [Knows, answer, knownConn, if_pos hsteps, if_pos hsteps, decide_eq_true hsteps]
      exact hattached.marked rfl
    · rw [masterEffects, if_pos hsteps, List.append_nil]
      rfl
  · -- `CONNECT`
    obtain ⟨j, rfl⟩ : ∃ j, k = j + 1 := ⟨k - 1, by rw [steps] at hlast; omega⟩
    have hsteps : ¬j + 1 + 1 < P.steps := by omega
    have hattached : Attached p.main P.masterFd P.master
        (masterConn P.masterArgs P.runArgs f P.masterFd 2 (P.runArgs.num .s2m)
          (P.runArgs.num .m2s)) true := by
      have hsteps' : j + 1 < P.steps := by omega
      have hj : j + 1 - 1 = 2 + P.runArgs.numRings := by rw [steps] at hlast; omega
      rw [Knows, knownConn, if_pos hsteps', decide_eq_true hsteps', hj, masterAt_length] at h
      exact h
    have hconnect : memifConnect1 ⟨masterConn P.masterArgs P.runArgs f P.masterFd 2
        (P.runArgs.num .s2m) (P.runArgs.num .m2s), p.files⟩ = _ :=
      memifConnect1_master P.mappable hfs P.masterFd
    have hdispatch := dispatch_connect hattached.control (hattached.conn.symm ▸ hconnect) rfl
    refine ⟨_, memifMsgReceive_of_dispatch hdispatch, ?_, rfl, ?_, fun _ => rfl⟩
    · rw [Knows, answer, knownConn, if_neg hsteps, if_neg hsteps, decide_eq_false hsteps]
      exact ((hattached.setConn rfl).watch false).marked rfl
    · rw [masterEffects, if_neg hsteps]
      rfl

/-- **The master sends its answer.** -/
lemma Knows.write (h : P.Knows f p.main [m] true (k + 1)) :
    ∃ p', memifConnFdWriteReady p P.master = .ok (.success, p') ∧
      P.Knows f p'.main [] false (k + 1) ∧ p'.files = p.files ∧
      p'.out = p.out ++ [.sendmsg P.masterFd m] := by
  have hfd := h.fd_eq
  refine ⟨_, memifConnFdWriteReady_cons h.conn rfl rfl, h.setConn hfd, rfl, ?_⟩
  rw [hfd]
  rfl

/-- The effects when the slave takes the answer to message `k`. -/
def slaveEffects (P : Pairing) (k : ℕ) : List Effect :=
  if k + 1 < P.steps then [] else [.onConnect P.slave]

lemma sentOn_masterEffects (P : Pairing) (k : ℕ) (fd : ℤ) : sentOn fd (P.masterEffects k) = [] := by
  rw [masterEffects]
  split_ifs <;> rfl

lemma sentOn_slaveEffects (P : Pairing) (k : ℕ) (fd : ℤ) : sentOn fd (P.slaveEffects k) = [] := by
  rw [slaveEffects]
  split_ifs <;> rfl

/-- **The slave takes the greeting.** -/
lemma receive_hello (h : Attached p.main P.slaveFd P.slave P.slaveFresh true) :
    ∃ p', memifMsgReceive p P.slaveFd (.msg (memifHello, none)) = .ok (.success, p') ∧
      Attached p'.main P.slaveFd P.slave (P.slaveWith p.files.next (P.msgs p.files.next) true)
        true ∧
      p'.files = setUp P.runArgs p.files ∧ p'.out = p.out ∧
      p'.main.controlList = p.main.controlList := by
  have hhello : receiveHello helloData ⟨P.slaveFresh, p.files⟩ = _ :=
    receiveHello_eq P.mappable.log2 P.slaveFd P.slaveFlag p.files
  have hdispatch := dispatch_hello h.control (h.conn.symm ▸ hhello)
  exact ⟨_, memifMsgReceive_of_dispatch hdispatch, h.marked rfl, rfl, rfl, rfl⟩

/-- **The slave takes the answer to message `k`.** -/
lemma receive_answer (h : Attached p.main P.slaveFd P.slave
      (P.slaveWith f ((P.msgs f).drop (k + 1)) false) true) (hk : k < P.steps)
    (hfs : RingsReady P.runArgs f p.files) :
    ∃ p', memifMsgReceive p P.slaveFd (.msg (P.answer k)) = .ok (.success, p') ∧
      Attached p'.main P.slaveFd P.slave (P.slaveWith f ((P.msgs f).drop (k + 1)) true)
        (decide (k + 1 < P.steps)) ∧
      p'.files = p.files ∧ p'.out = p.out ++ P.slaveEffects k ∧
      p'.main.controlList = p.main.controlList := by
  by_cases hsteps : k + 1 < P.steps
  · have hdispatch : dispatch p P.slaveFd (.ack, none) = .ok (.success, p, some P.slave) := by
      rw [dispatch]
      simp only [h.control]
    rw [answer, if_pos hsteps, slaveEffects, if_pos hsteps, decide_eq_true hsteps, List.append_nil]
    refine ⟨_, memifMsgReceive_of_dispatch hdispatch, ?_, rfl, rfl, rfl⟩
    show Attached (p.main.setConn P.slave { p.main.conn P.slave with flagWrite := true }) _ _ _ _
    rw [h.conn]
    exact h.setConn rfl
  · have hnil : (P.msgs f).drop (k + 1) = [] := by
      rw [List.drop_eq_nil_iff, length_msgs]
      omega
    rw [hnil] at h ⊢
    have hconnect : memifConnect1 ⟨P.slaveWith f [] false, p.files⟩ = _ :=
      memifConnect1_slave P.mappable hfs P.slaveFd false
    have hdispatch := dispatch_connected h.control (h.conn.symm ▸ hconnect) rfl
    rw [answer, if_neg hsteps, slaveEffects, if_neg hsteps, decide_eq_false hsteps]
    refine ⟨_, memifMsgReceive_of_dispatch hdispatch, ?_, rfl, rfl, rfl⟩
    have hdown := (h.setConn (y := P.slaveWith f [] false) rfl).watch false
    have hmarked := hdown.setConn (y := P.slaveWith f [] true) rfl
    show Attached (((p.main.setConn P.slave _).watch P.slaveFd (some false)).setConn P.slave
      { (p.main.setConn P.slave _).conn P.slave with flagWrite := true }) _ _ _ _
    rw [conn_setConn_self]
    exact hmarked

end Pairing

/-! ## Stages -/

/-- The two ends. -/
inductive Party
  | slave
  | master
  deriving DecidableEq, Repr

/-- **Where the handshake stands.**  There is always one end, or one message on its way, that
everything waits for. -/
inductive Stage
  /-- The greeting is on its way. -/
  | greeting
  /-- The slave may send message `k`; behind the last one it is connected. -/
  | slaveTurn (k : ℕ)
  /-- Message `k` is on its way. -/
  | toMaster (k : ℕ)
  /-- The master has the answer to message `k`. -/
  | masterTurn (k : ℕ)
  /-- The answer to message `k` is on its way. -/
  | toSlave (k : ℕ)
  deriving DecidableEq

namespace Stage

/-- The number of messages that the master has received. -/
def received : Stage → ℕ
  | greeting => 0
  | slaveTurn k | toMaster k => k
  | masterTurn k | toSlave k => k + 1

/-- Whether the master may send its answer. -/
def mayAnswer : Stage → Bool
  | masterTurn _ => true
  | _ => false

/-- An end reads the message that is on its way to it. -/
def read : Party → Stage → Stage
  | .slave, greeting => slaveTurn 0
  | .slave, toSlave k => slaveTurn (k + 1)
  | .master, toMaster k => masterTurn k
  | _, st => st

/-- An end writes if it may; `n` is the number of messages. -/
def write (n : ℕ) : Party → Stage → Stage
  | .slave, slaveTurn k => if k < n then toMaster k else slaveTurn k
  | .master, masterTurn k => toSlave k
  | _, st => st

/-- A call of an end.  The master only reads if the peer has not named its interface. -/
def call (n : ℕ) (who : Party) (ev : FdEvents) (st : Stage) : Stage :=
  if who = .master ∧ st.received = 0 then st.read .master
  else
    let st := if ev.read then st.read who else st
    if ev.write then st.write n who else st

/-- Stages of a handshake with `n` messages. -/
def Valid (n : ℕ) : Stage → Prop
  | greeting => True
  | slaveTurn k => k ≤ n
  | toMaster k | masterTurn k | toSlave k => k < n

end Stage

/-! ## Runs of the two processes -/

/-- **Both processes**, with the messages on their way to each.  `up` has the ends whose
`on_connect` was called, in this order. -/
structure Pair where
  main : Party → LibmemifMain
  inbox : Party → List Sent
  files : Files
  up : List Party

/-- The calls of `on_connect`. -/
def connects (who : Party) (c : ConnId) (es : List Effect) : List Party :=
  (es.filter fun e => decide (e = .onConnect c)).map fun _ => who

namespace Pairing

variable (P : Pairing)

/-- The socket of an end. -/
def fd : Party → ℤ
  | .slave => P.slaveFd
  | .master => P.masterFd

/-- The connection of an end. -/
def conn : Party → ConnId
  | .slave => P.slave
  | .master => P.master

end Pairing

/-- An end has taken `n` messages and has done something. -/
def Pair.apply (P : Pairing) (s : Pair) (who : Party) (n : ℕ) (m : LibmemifMain) (fs : Files)
    (es : List Effect) : Pair where
  main := Function.update s.main who m
  inbox x := if x = who then (s.inbox who).drop n else s.inbox x ++ sentOn (P.fd who) es
  files := fs
  up := s.up ++ connects who (P.conn who) es

/-- Whether a call receives a message.  It does on any event if the peer is pending. -/
def Pair.reads (P : Pairing) (s : Pair) (who : Party) (ev : FdEvents) : Bool :=
  ev.read || (lookup (s.main who).pendingList (P.fd who)).isSome

/-- What the kernel reports to an end.  It is writable only if it is watched for that, and there is
a message if one is received, since the call waits for it; the sockets stay open. -/
structure Ready (P : Pairing) (s : Pair) (who : Party) (ev : FdEvents) (r : Received) : Prop where
  error : ev.error = false
  write : ev.write = true → (s.main who).watched (P.fd who) = some true
  read : s.reads P who ev = true → ∃ m, (s.inbox who).head? = some m ∧ r = .msg m

/-- What all that a process does for other connections leaves alone: the connection itself, its
place in the lists by which it is found, and what its socket is watched for. -/
structure Untouched (fd : ℤ) (c : ConnId) (m m' : LibmemifMain) : Prop where
  keyed : Keyed m.controlList → Keyed m'.controlList
  keyedPending : Keyed m.pendingList → Keyed m'.pendingList
  control : lookup m'.controlList fd = lookup m.controlList fd
  pending : lookup m'.pendingList fd = lookup m.pendingList fd
  interface : m'.interfaceList = m.interfaceList
  conn : m'.conn c = m.conn c
  watched : m'.watched fd = m.watched fd

/-- A file whose rings are the same, up to their flags.  The flags say whether a side wants
interrupts, and an application may change that at any time. -/
def Kept (fs fs' : Files) (file : File) : Prop :=
  ∀ off, ∃ flags, fs'.mem file off =
    ⟨(fs.mem file off).cookie, { (fs.mem file off).ring with flags }⟩

/-- A file of a connection. -/
def Connection.HasFile (x : Connection) (file : File) : Prop :=
  ∃ r, some r ∈ x.regions ∧ r.fd = some file

/-- Who does what. -/
inductive Label
  | call (who : Party) (ev : FdEvents)
  | other

/-- **One step of the two processes.**  A process handles an event of the socket, or something else
happens in one of them. -/
inductive PairStep (P : Pairing) (s : Pair) : Label → Pair → Prop
  | call (who : Party) (ev : FdEvents) (r : Received) (err : MemifErr) (p : Proc)
      (hready : Ready P s who ev r)
      (hcall : memifControlFdHandler ⟨s.main who, s.files, []⟩ (P.fd who) ev r = .ok (err, p)) :
      PairStep P s (.call who ev) (s.apply P who (s.reads P who ev).toNat p.main p.files p.out)
  | other (main : Party → LibmemifMain) (files : Files)
      (hmain : ∀ who, Untouched (P.fd who) (P.conn who) (s.main who) (main who))
      (hfiles : ∀ file, ((s.main .slave).conn P.slave).HasFile file → Kept s.files files file) :
      PairStep P s .other { s with main, files }

/-! ## The invariant -/

namespace Pairing

variable (P : Pairing)

/-- The connection of the slave. -/
def slaveAt (f : File) : Stage → Connection
  | .greeting => P.slaveFresh
  | .slaveTurn k => P.slaveWith f ((P.msgs f).drop k) true
  | .toMaster k | .masterTurn k | .toSlave k => P.slaveWith f ((P.msgs f).drop (k + 1)) false

/-- The slave is watched for writing until it is connected. -/
def slaveWatch : Stage → Bool
  | .slaveTurn k => decide (k < P.steps)
  | _ => true

/-- What the master has to send. -/
def masterQueue : Stage → List Sent
  | .masterTurn k => [P.answer k]
  | _ => []

/-- The master. -/
def MasterAt (f : File) (m : LibmemifMain) (st : Stage) : Prop :=
  P.Knows f m (P.masterQueue st) st.mayAnswer st.received

/-- The messages on their way. -/
def inboxAt (f : File) : Party → Stage → List Sent
  | .slave, .greeting => [(memifHello, none)]
  | .slave, .toSlave k => [P.answer k]
  | .master, .toMaster k => ((P.msgs f).drop k).take 1
  | _, _ => []

/-- The ends that are connected. -/
def upAt : Stage → List Party
  | .greeting => []
  | .slaveTurn k => if k < P.steps then [] else [.master, .slave]
  | .toMaster _ => []
  | .masterTurn k | .toSlave k => if k + 1 < P.steps then [] else [.master]

end Pairing

/-- **The handshake is at a stage**; `f` is the file with the rings.  The stage determines the
connections of both ends, what is on its way and who has been told that the connection is up.  The
rings are set up, flags apart, from the moment the slave has had the greeting.  What else the two
processes have is left open. -/
structure Holds (P : Pairing) (f : File) (st : Stage) (s : Pair) : Prop where
  slave : Attached (s.main .slave) P.slaveFd P.slave (P.slaveAt f st) (P.slaveWatch st)
  master : P.MasterAt f (s.main .master) st
  inbox : ∀ who, s.inbox who = P.inboxAt f who st
  files : st ≠ .greeting → RingsReady P.runArgs f s.files
  up : s.up = P.upAt st
  valid : st.Valid P.steps

section Invariant

variable {P : Pairing} {f : File} {st : Stage} {s : Pair} {who : Party}

lemma sentOn_append (fd : ℤ) (es es' : List Effect) :
    sentOn fd (es ++ es') = sentOn fd es ++ sentOn fd es' := List.filterMap_append

lemma connects_append (who : Party) (c : ConnId) (es es' : List Effect) :
    connects who c (es ++ es') = connects who c es ++ connects who c es' := by
  rw [connects, List.filter_append, List.map_append]
  rfl

lemma Pair.apply_apply (s : Pair) (who : Party) (n : ℕ) (m m' : LibmemifMain) (fs fs' : Files)
    (es es' : List Effect) :
    (s.apply P who n m fs es).apply P who 0 m' fs' es' = s.apply P who n m' fs' (es ++ es') := by
  have hinbox : ∀ x, ((s.apply P who n m fs es).apply P who 0 m' fs' es').inbox x =
      (s.apply P who n m' fs' (es ++ es')).inbox x := by
    intro x
    by_cases hx : x = who
    · subst hx
      simp only [Pair.apply, if_true, List.drop_zero]
    · simp only [Pair.apply, if_neg hx, sentOn_append, List.append_assoc]
  rw [Pair.apply, Pair.mk.injEq]
  exact ⟨Function.update_idem .., funext hinbox, rfl,
    (List.append_assoc ..).trans (congrArg _ (connects_append ..).symm)⟩

lemma apply_main_self (s : Pair) (who : Party) (n : ℕ) (m : LibmemifMain) (fs : Files)
    (es : List Effect) : (s.apply P who n m fs es).main who = m := Function.update_self ..

/-- **Reading.** -/
lemma Holds.read (h : Holds P f st s) {m : Sent} (hm : (s.inbox who).head? = some m)
    (out : List Effect) :
    ∃ p f' es, memifMsgReceive ⟨s.main who, s.files, out⟩ (P.fd who) (.msg m) = .ok (.success, p) ∧
      p.out = out ++ es ∧ Holds P f' (st.read who) (s.apply P who 1 p.main p.files es) ∧
      (¬(who = .master ∧ st.received = 0) → p.main.controlList = (s.main who).controlList) := by
  have hin := h.inbox who
  rw [hin] at hm
  cases who with
  | slave =>
      cases st with
      | greeting =>
          cases hm
          obtain ⟨p, hp, hattached, hfiles, hout, hlist⟩ :=
            Pairing.receive_hello (p := ⟨s.main .slave, s.files, out⟩) h.slave
          refine ⟨p, s.files.next, [], hp, by rw [List.append_nil]; exact hout, ?_, fun _ => hlist⟩
          exact {
            slave := by
              have hsteps : 0 < P.steps := P.steps_pos
              rw [Stage.read, Pairing.slaveWatch, decide_eq_true hsteps]
              exact hattached
            master := h.master
            inbox := fun x => by
              cases x with
              | slave => exact (congrArg (List.drop 1) hin).trans rfl
              | master => exact (List.append_nil _).trans (h.inbox .master)
            files := fun _ => by
              show RingsReady _ _ p.files
              rw [hfiles]
              exact ringsReady_setUp _ _
            up := by
              show s.up ++ [] = if 0 < P.steps then [] else [.master, .slave]
              rw [h.up, if_pos P.steps_pos]
              rfl
            valid := Nat.zero_le _ }
      | toSlave k =>
          cases hm
          obtain ⟨p, hp, hattached, hfiles, hout, hlist⟩ :=
            Pairing.receive_answer (p := ⟨s.main .slave, s.files, out⟩) h.slave h.valid
              (h.files Stage.noConfusion)
          refine ⟨p, f, _, hp, hout, ?_, fun _ => hlist⟩
          exact {
            slave := hattached
            master := h.master
            inbox := fun x => by
              cases x with
              | slave => exact (congrArg (List.drop 1) hin).trans rfl
              | master =>
                  show s.inbox .master ++ sentOn P.slaveFd (P.slaveEffects k) = []
                  rw [h.inbox, P.sentOn_slaveEffects]
                  rfl
            files := fun _ => by
              show RingsReady _ _ p.files
              rw [hfiles]
              exact h.files Stage.noConfusion
            up := by
              show s.up ++ connects .slave P.slave (P.slaveEffects k) =
                if k + 1 < P.steps then [] else [.master, .slave]
              rw [h.up, Pairing.upAt, Pairing.slaveEffects]
              split_ifs
              · rfl
              · simp only [connects, List.filter_cons, decide_true, if_true]
                rfl
            valid := h.valid }
      | _ => cases hm
  | master =>
      cases st with
      | toMaster k =>
          have hk : (P.msgs f)[k]? = some m := by
            have hm' : (((P.msgs f).drop k).take 1).head? = some m := hm
            rwa [List.head?_take, if_neg one_ne_zero, List.head?_drop] at hm'
          obtain ⟨p, hp, hknows, hfiles, hout, hlist⟩ :=
            Pairing.Knows.receive (p := ⟨s.main .master, s.files, out⟩) h.master hk
              (h.files Stage.noConfusion)
          refine ⟨p, f, _, hp, hout, ?_, fun hne => hlist fun hzero => hne ⟨rfl, hzero⟩⟩
          exact {
            slave := h.slave
            master := hknows
            inbox := fun x => by
              cases x with
              | slave =>
                  show s.inbox .slave ++ sentOn P.masterFd (P.masterEffects k) = []
                  rw [h.inbox, P.sentOn_masterEffects]
                  rfl
              | master =>
                  show (s.inbox .master).drop 1 = []
                  rw [h.inbox, Pairing.inboxAt, List.drop_eq_nil_iff, List.length_take]
                  exact min_le_left _ _
            files := fun _ => by
              show RingsReady _ _ p.files
              rw [hfiles]
              exact h.files Stage.noConfusion
            up := by
              show s.up ++ connects .master P.master (P.masterEffects k) =
                if k + 1 < P.steps then [] else [.master]
              rw [h.up, Pairing.upAt, Pairing.masterEffects]
              split_ifs
              · rfl
              · simp only [connects, List.filter_cons, decide_true, if_true]
                rfl
            valid := h.valid }
      | _ => cases hm

lemma Pair.apply_idle (s : Pair) (who : Party) :
    s.apply P who 0 (s.main who) s.files [] = s := by
  have hinbox : ∀ x, (s.apply P who 0 (s.main who) s.files []).inbox x = s.inbox x := by
    intro x
    by_cases hx : x = who
    · subst hx
      simp only [Pair.apply, if_true, List.drop_zero]
    · simp only [Pair.apply, if_neg hx]
      exact List.append_nil _
  rw [Pair.apply, Pair.mk.injEq]
  exact ⟨Function.update_eq_self .., funext hinbox, rfl, List.append_nil _⟩

lemma Holds.idle (h : Holds P f st s) {x : Connection} (hx : (s.main who).conn (P.conn who) = x)
    (hidle : x.flagWrite = false ∨ x.msgQueue = []) (out : List Effect) :
    ∃ p es, memifConnFdWriteReady ⟨s.main who, s.files, out⟩ (P.conn who) = .ok (.success, p) ∧
      p.out = out ++ es ∧ p.files = s.files ∧ Holds P f st (s.apply P who 0 p.main p.files es) := by
  refine ⟨_, [], memifConnFdWriteReady_idle hx hidle, (List.append_nil _).symm, rfl, ?_⟩
  rw [Pair.apply_idle]
  exact h

/-- **Writing.** -/
lemma Holds.write (h : Holds P f st s) (hpeer : ¬(who = .master ∧ st.received = 0))
    (out : List Effect) :
    ∃ p es, memifConnFdWriteReady ⟨s.main who, s.files, out⟩ (P.conn who) = .ok (.success, p) ∧
      p.out = out ++ es ∧ p.files = s.files ∧
      Holds P f (st.write P.steps who) (s.apply P who 0 p.main p.files es) := by
  cases who with
  | slave =>
      cases st with
      | slaveTurn k =>
          by_cases hk : k < P.steps
          · have hlt : k < (P.msgs f).length := by rwa [Pairing.length_msgs]
            have hdrop := List.drop_eq_getElem_cons hlt
            have hwrite := memifConnFdWriteReady_cons (p := ⟨s.main .slave, s.files, out⟩)
              h.slave.conn rfl hdrop
            refine ⟨_, [.sendmsg P.slaveFd (P.msgs f)[k]], hwrite, rfl, rfl, ?_⟩
            rw [Stage.write, if_pos hk]
            exact {
              slave := by
                have hattached := h.slave.setConn
                  (y := P.slaveWith f ((P.msgs f).drop (k + 1)) false) rfl
                rw [Pairing.slaveWatch, decide_eq_true hk] at hattached
                exact hattached
              master := h.master
              inbox := fun x => by
                cases x with
                | slave => exact h.inbox .slave
                | master =>
                    show s.inbox .master ++ sentOn P.slaveFd [.sendmsg P.slaveFd (P.msgs f)[k]] =
                      ((P.msgs f).drop k).take 1
                    rw [h.inbox, hdrop]
                    simp only [sentOn, List.filterMap_cons, if_true]
                    rfl
              files := fun _ => h.files Stage.noConfusion
              up := by
                show s.up ++ [] = []
                rw [h.up, Pairing.upAt, if_pos hk]
                rfl
              valid := hk }
          · rw [Stage.write, if_neg hk]
            refine h.idle h.slave.conn (.inr ?_) out
            show (P.msgs f).drop k = []
            rw [List.drop_eq_nil_iff, Pairing.length_msgs]
            exact not_lt.mp hk
      | greeting => exact h.idle h.slave.conn (.inr rfl) out
      | toMaster k => exact h.idle h.slave.conn (.inl rfl) out
      | masterTurn k => exact h.idle h.slave.conn (.inl rfl) out
      | toSlave k => exact h.idle h.slave.conn (.inl rfl) out
  | master =>
      -- the master has its connection, since the peer has named it
      have hidle : P.Knows f (s.main .master) [] false st.received →
          ∃ p es, memifConnFdWriteReady ⟨s.main .master, s.files, out⟩ P.master =
              .ok (.success, p) ∧ p.out = out ++ es ∧ p.files = s.files ∧
            Holds P f st (s.apply P .master 0 p.main p.files es) := by
        intro hknows
        obtain ⟨j, hj⟩ := Nat.exists_eq_succ_of_ne_zero fun hzero => hpeer ⟨rfl, hzero⟩
        rw [hj] at hknows
        exact h.idle hknows.conn (.inl rfl) out
      cases st with
      | masterTurn k =>
          obtain ⟨p, hp, hknows, hfiles, hout⟩ :=
            Pairing.Knows.write (p := ⟨s.main .master, s.files, out⟩) h.master
          refine ⟨p, _, hp, hout, hfiles, ?_⟩
          exact {
            slave := h.slave
            master := hknows
            inbox := fun x => by
              cases x with
              | slave =>
                  show s.inbox .slave ++ sentOn P.masterFd [.sendmsg P.masterFd (P.answer k)] = _
                  rw [h.inbox]
                  simp only [sentOn, List.filterMap_cons, if_true]
                  rfl
              | master => exact h.inbox .master
            files := fun _ => by
              show RingsReady _ _ p.files
              rw [hfiles]
              exact h.files Stage.noConfusion
            up := (List.append_nil _).trans h.up
            valid := h.valid }
      | greeting => exact hidle h.master
      | slaveTurn k => exact hidle h.master
      | toMaster k => exact hidle h.master
      | toSlave k => exact hidle h.master

lemma Holds.attached (h : Holds P f st s) (hpeer : ¬(who = .master ∧ st.received = 0)) :
    ∃ x w, Attached (s.main who) (P.fd who) (P.conn who) x w := by
  cases who with
  | slave => exact ⟨_, _, h.slave⟩
  | master =>
      have hknows : P.Knows f (s.main .master) _ _ st.received := h.master
      obtain ⟨j, hj⟩ := Nat.exists_eq_succ_of_ne_zero fun hzero => hpeer ⟨rfl, hzero⟩
      rw [hj] at hknows
      exact ⟨_, _, hknows⟩

lemma received_read (hpeer : ¬(who = .master ∧ st.received = 0)) :
    ¬(who = .master ∧ (st.read who).received = 0) := by
  rintro ⟨rfl, hzero⟩
  cases st with
  | toMaster k => exact absurd hzero (Nat.succ_ne_zero k)
  | _ => exact hpeer ⟨rfl, hzero⟩

/-- **A call.**  It succeeds, and the handshake goes on. -/
lemma Holds.call (h : Holds P f st s) {ev : FdEvents} {r : Received} (hr : Ready P s who ev r) :
    ∃ p f', memifControlFdHandler ⟨s.main who, s.files, []⟩ (P.fd who) ev r = .ok (.success, p) ∧
      Holds P f' (st.call P.steps who ev)
        (s.apply P who (s.reads P who ev).toNat p.main p.files p.out) := by
  by_cases hpeer : who = .master ∧ st.received = 0
  · -- the peer has not named its interface
    rw [Stage.call, if_pos hpeer]
    obtain ⟨rfl, hzero⟩ := hpeer
    have hgreeted : Greeted (s.main .master) P.masterFd P.master P.masterArgs.interfaceId
        P.masterFresh := by
      have hmaster := h.master
      cases st with
      | greeting => exact hmaster
      | slaveTurn k =>
          cases hzero
          exact hmaster
      | toMaster k =>
          cases hzero
          exact hmaster
      | masterTurn k => cases hzero
      | toSlave k => cases hzero
    have hreads : s.reads P .master ev = true := by
      rw [Pair.reads, Pairing.fd, hgreeted.pending, Option.isSome_some, Bool.or_true]
    obtain ⟨m, hm, rfl⟩ := hr.read hreads
    obtain ⟨p, f', es, hp, hout, hholds, -⟩ := h.read hm []
    refine ⟨p, f', (memifControlFdHandler_greeted hgreeted).trans hp, ?_⟩
    rw [hreads, hout]
    exact hholds
  · rw [Stage.call, if_neg hpeer]
    obtain ⟨x, w, hattached⟩ := h.attached hpeer
    have hreads : s.reads P who ev = ev.read := by
      rw [Pair.reads, hattached.pending, Option.isSome_none, Bool.or_false]
    -- the state between reading and writing
    obtain ⟨p₁, f', hread, hholds, hlist⟩ : ∃ p₁ f',
        (if ev.read then memifConnFdReadReady ⟨s.main who, s.files, []⟩ (P.conn who) r
          else .ok (.success, ⟨s.main who, s.files, []⟩)) = .ok (.success, p₁) ∧
        Holds P f' (if ev.read then st.read who else st)
          (s.apply P who ev.read.toNat p₁.main p₁.files p₁.out) ∧
        p₁.main.controlList = (s.main who).controlList := by
      cases hev : ev.read with
      | false =>
          refine ⟨_, f, rfl, ?_, rfl⟩
          show Holds P f st (s.apply P who 0 (s.main who) s.files [])
          rw [Pair.apply_idle]
          exact h
      | true =>
          obtain ⟨m, hm, rfl⟩ := hr.read (hreads.trans hev)
          obtain ⟨p, f', es, hp, hout, hholds, hlist⟩ := h.read hm []
          refine ⟨p, f', Attached.readReady (p := ⟨s.main who, s.files, []⟩) hattached hp, ?_,
            hlist hpeer⟩
          rw [hout]
          exact hholds
    obtain ⟨p₂, hwrite, hholds₂⟩ : ∃ p₂,
        (if ev.write then memifConnFdWriteReady p₁ (P.conn who) else .ok (.success, p₁)) =
          .ok (.success, p₂) ∧
        Holds P f' (if ev.write then (if ev.read then st.read who else st).write P.steps who
          else (if ev.read then st.read who else st))
          (s.apply P who ev.read.toNat p₂.main p₂.files p₂.out) := by
      cases ev.write with
      | false => exact ⟨p₁, rfl, hholds⟩
      | true =>
          have hpeer₁ : ¬(who = .master ∧
              (if ev.read then st.read who else st).received = 0) := by
            cases ev.read with
            | false => exact hpeer
            | true => exact received_read hpeer
          obtain ⟨p, es, hp, hout, -, hholds'⟩ := hholds.write hpeer₁ p₁.out
          rw [apply_main_self] at hp
          rw [Pair.apply_apply, ← hout] at hholds'
          exact ⟨p, hp, hholds'⟩
    rw [hreads]
    exact ⟨p₂, f', memifControlFdHandler_eq (p := ⟨s.main who, s.files, []⟩) hattached hread hlist
      hwrite hr.error, hholds₂⟩

/-! ## Everything else -/

section Other

variable {m m' : LibmemifMain} {fd : ℤ} {c : ConnId} {x : Connection} {w : Bool}

lemma Attached.untouched (h : Attached m fd c x w) (hu : Untouched fd c m m') :
    Attached m' fd c x w where
  keyed := hu.keyed h.keyed
  keyedPending := hu.keyedPending h.keyedPending
  control := hu.control.trans h.control
  pending := hu.pending.trans h.pending
  conn := hu.conn.trans h.conn
  fd_eq := h.fd_eq
  watched := hu.watched.trans h.watched

lemma Greeted.untouched {id : UInt32} (h : Greeted m fd c id x) (hu : Untouched fd c m m') :
    Greeted m' fd c id x where
  keyed := hu.keyed h.keyed
  keyedPending := hu.keyedPending h.keyedPending
  control := hu.control.trans h.control
  pending := hu.pending.trans h.pending
  interface := by rw [hu.interface, h.interface]
  conn := hu.conn.trans h.conn
  watched := hu.watched.trans h.watched

lemma RingsReady.kept {a : MemifConnRunArgs} {fs fs' : Files} (h : RingsReady a f fs)
    (hk : Kept fs fs' f) : RingsReady a f fs' := by
  intro type i hi
  obtain ⟨flags, hmem⟩ := h type i hi
  obtain ⟨flags', hmem'⟩ := hk (memifGetRing a type i)
  refine ⟨flags', ?_⟩
  rw [hmem', hmem]

end Other

lemma Pairing.Knows.untouched {m m' : LibmemifMain} {q : List Sent} {fl : Bool} {k : ℕ}
    (h : P.Knows f m q fl k) (hu : Untouched P.masterFd P.master m m') : P.Knows f m' q fl k := by
  cases k with
  | zero => exact Greeted.untouched h hu
  | succ k => exact Attached.untouched h hu

lemma hasFile_slaveAt (P : Pairing) (f : File) (hst : st ≠ .greeting) :
    (P.slaveAt f st).HasFile f := by
  refine ⟨slaveRegion P.runArgs f 0, ?_, rfl⟩
  cases st with
  | greeting => exact absurd rfl hst
  | _ => exact .head _

lemma Holds.other (h : Holds P f st s) {main : Party → LibmemifMain} {files : Files}
    (hmain : ∀ who, Untouched (P.fd who) (P.conn who) (s.main who) (main who))
    (hfiles : ∀ file, ((s.main .slave).conn P.slave).HasFile file → Kept s.files files file) :
    Holds P f st { s with main, files } where
  slave := h.slave.untouched (hmain .slave)
  master := Pairing.Knows.untouched h.master (hmain .master)
  inbox := h.inbox
  files hst := by
    refine (h.files hst).kept (hfiles f ?_)
    rw [h.slave.conn]
    exact hasFile_slaveAt P f hst
  up := h.up
  valid := h.valid

/-! ## Runs -/

/-- The stage after a step. -/
def Stage.next (n : ℕ) (st : Stage) : Label → Stage
  | .call who ev => st.call n who ev
  | .other => st

/-- **What one step does.** -/
lemma Holds.step (h : Holds P f st s) {l : Label} {s' : Pair} (hs : PairStep P s l s') :
    ∃ f', Holds P f' (st.next P.steps l) s' := by
  cases hs with
  | call who ev r err p hready hcall =>
      obtain ⟨p', f', hcall', hholds⟩ := h.call hready
      rw [hcall] at hcall'
      cases hcall'
      exact ⟨f', hholds⟩
  | other main files hmain hfiles => exact ⟨f, h.other hmain hfiles⟩

/-- **The beginning.**  The slave has connected its socket, and the master has accepted it and sent
its greeting. -/
structure Pairing.Start (P : Pairing) (s : Pair) : Prop where
  slave : Attached (s.main .slave) P.slaveFd P.slave P.slaveFresh true
  master : Greeted (s.main .master) P.masterFd P.master P.masterArgs.interfaceId P.masterFresh
  toSlave : s.inbox .slave = [(memifHello, none)]
  toMaster : s.inbox .master = []
  up : s.up = []

lemma Pairing.Start.holds (h : P.Start s) : Holds P 0 .greeting s where
  slave := h.slave
  master := h.master
  inbox
    | .slave => h.toSlave
    | .master => h.toMaster
  files hne := absurd rfl hne
  up := h.up
  valid := trivial

/-- **What every run keeps.** -/
lemma Pairing.Start.run {s₀ : Pair} (h₀ : P.Start s₀) {ls : List Label}
    (h : Trace (PairStep P) s₀ ls s) : ∃ f st, Holds P f st s := by
  refine h.induct (Q := fun s => ∃ f st, Holds P f st s) ?_ ⟨0, _, h₀.holds⟩
  rintro s l s' hstep ⟨f, st, hholds⟩
  obtain ⟨f', hholds'⟩ := hholds.step hstep
  exact ⟨f', _, hholds'⟩

end Invariant

/-! ## Where a handshake begins -/

/-- A process behind `memif_init`. -/
def LibmemifMain.init : LibmemifMain where
  controlList := List.replicate 2 .unused
  pendingList := List.replicate 1 .unused
  interfaceList := List.replicate 1 .unused
  conn _ := Connection.create ⟨[], 0, 0, 0, 0, false, 0, 0⟩
  watched _ := none
  disconnSlaves := 0
  armed := false

namespace Pairing

variable (P : Pairing)

/-- **Both sides have created their connection**, and the master has accepted its peer. -/
def begin (fs : Files) : Pair where
  main
    | .slave => (memifCreate ⟨.init, fs, []⟩ P.slave P.slaveArgs (some P.slaveFd)).2.main
    | .master =>
        (memifConnFdAcceptReady (memifCreate ⟨.init, fs, []⟩ P.master P.masterArgs none).2
          P.masterFd).main
  inbox
    | .slave => sentOn P.masterFd
        (memifConnFdAcceptReady (memifCreate ⟨.init, fs, []⟩ P.master P.masterArgs none).2
          P.masterFd).out
    | .master => []
  files := fs
  up := []

lemma lookup_replicate {α : Type} (n : ℕ) (key : ℤ) :
    lookup (List.replicate n (.unused : MemifListElt α)) key = none := by
  by_cases hkey : key = -1
  · rw [hkey, lookup, getListElt, if_pos rfl, Option.bind_none]
  · rw [lookup_eq_none (.replicate n) hkey]
    intro i e he
    rw [List.eq_of_mem_replicate (List.mem_of_getElem? he)]
    exact Ne.symm hkey

/-- What `memif_create` needs of the arguments: they are in range, and none is left to a default. -/
structure Creatable (args : MemifConnArgs) : Prop where
  log2 : args.log2RingSize ≤ 14
  defaults : args.withDefaults = args

lemma start_begin (hslave : Creatable P.slaveArgs) (hmaster : Creatable P.masterArgs)
    (hslaveFlag : P.slaveFlag = false) (hmasterFlag : P.masterFlag = false)
    (hfd : P.slaveFd ≠ -1) (hid : interfaceKey P.masterArgs.interfaceId ≠ -1) (fs : Files) :
    P.Start (P.begin fs) where
  slave := by
    have hattached := attached_memifCreate (p := ⟨.init, fs, []⟩) (c := P.slave) (.replicate 2)
      (.replicate 1) hslave.log2 P.slave_isMaster hfd (lookup_replicate 2 _) (lookup_replicate 1 _)
    rw [hslave.defaults] at hattached
    rw [slaveFresh, hslaveFlag]
    exact hattached
  master := by
    have hgreeted := greeted_accept (p := ⟨.init, fs, []⟩) (c := P.master) (.replicate 2)
      (.replicate 1) (.replicate 1) hmaster.log2 P.master_isMaster P.masterFd_ne
      (lookup_replicate 2 _) (lookup_replicate 1 _) hid (lookup_replicate 1 _)
    rw [hmaster.defaults] at hgreeted
    rw [masterFresh, hmasterFlag]
    exact hgreeted
  toSlave := by
    have hlog : ¬memifMaxLog2RingSize < P.masterArgs.log2RingSize := UInt8.not_lt.mpr hmaster.log2
    show sentOn P.masterFd (memifConnFdAcceptReady (memifCreate ⟨.init, fs, []⟩ P.master
      P.masterArgs none).2 P.masterFd).out = _
    rw [memifCreate, if_neg hlog]
    simp only [P.master_isMaster, if_true, memifConnFdAcceptReady, Proc.setConn, Proc.watch,
      Proc.emit, List.nil_append, sentOn, List.filterMap_cons, List.filterMap_nil]
  toMaster := rfl
  up := rfl

end Pairing

end CiphApp.Libmemif
