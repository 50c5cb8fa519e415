import CiphApp.Libmemif.Layout
import CiphApp.Libmemif.ListElt

/-!
# The control channel

`libmemif/src/socket.c`, and the functions of `libmemif/src/main.c` that it calls or that call it.
The two processes of a connection set it up over a socket.  The master greets each peer it accepts;
the slave answers with its interface, its regions, its rings and a request to connect, and waits
after each of these messages until the master has taken it.  File descriptors of the regions and of
the interrupts go along with the messages.

A process is one thread here, the one that runs `memif_control_fd_handler` whenever a descriptor is
ready.  What it does to the outside is recorded (`Effect`): messages, closed descriptors, and calls
of `on_connect` and `on_disconnect`.  Shared memory is kept by the kernel for both processes
(`Files`); a file that was sent is the same file on the other side.

Nothing keeps a peer from sending what it likes, so a call may also go wrong: through `NULL`,
behind the end of an array, or to an entry that was never written.  These are the `Fault`s, and
nothing is said about what happens after one.  Memory and descriptors do not run out.  The
application of this program passes no `on_interrupt`, so the interrupt descriptors are not watched
and `interrupt_list` is not read.
-/

namespace CiphApp.Libmemif

open Lib (forUpTo)

/-! ## Messages -/

/-- An open file.  The kernel has one number for it in each process. -/
abbrev File := ℕ

/-- `MEMIF_VERSION`. -/
def memifVersion : UInt16 := 0x200

/-- `MEMIF_COOKIE`. -/
def memifCookie : UInt32 := 0x3E31F20

/-- `MEMIF_MAX_S2M_RING` and `MEMIF_MAX_M2S_RING`. -/
def memifMaxRing : UInt16 := 255

/-- `MEMIF_MAX_REGION`. -/
def memifMaxRegion : UInt16 := 255

/-- `MEMIF_MAX_LOG2_RING_SIZE`. -/
def memifMaxLog2RingSize : UInt8 := 14

/-- `memif_msg_hello_t`, without the name. -/
structure MemifMsgHello where
  minVersion : UInt16
  maxVersion : UInt16
  maxRegion : UInt16
  maxM2sRing : UInt16
  maxS2mRing : UInt16
  maxLog2RingSize : UInt8
  deriving DecidableEq, Repr

/-- `memif_msg_init_t`, without the name.  The secret ends before its first NUL. -/
structure MemifMsgInit where
  version : UInt16
  id : UInt32
  mode : UInt8
  secret : List UInt8
  deriving DecidableEq, Repr

/-- `memif_msg_add_region_t`. -/
structure MemifMsgAddRegion where
  index : UInt16
  size : UInt64
  deriving DecidableEq, Repr

/-- `memif_msg_add_ring_t`. -/
structure MemifMsgAddRing where
  flags : UInt16
  index : UInt16
  region : UInt16
  offset : UInt32
  log2RingSize : UInt8
  privateHdrSize : UInt16
  deriving DecidableEq, Repr

/-- `MEMIF_MSG_ADD_RING_FLAG_S2M`. -/
def memifMsgAddRingFlagS2m : UInt16 := 1

/-- `memif_msg_t`. -/
inductive MemifMsg
  | ack
  | hello (h : MemifMsgHello)
  | init (i : MemifMsgInit)
  | addRegion (ar : MemifMsgAddRegion)
  | addRing (ar : MemifMsgAddRing)
  | connect
  | connected
  | disconnect (code : UInt32) (string : String)
  /-- Any other type. -/
  | unknown (type : UInt16)
  deriving DecidableEq, Repr

/-- A message, and the file that goes along with it. -/
abbrev Sent := MemifMsg × Option File

/-- What `recvmsg` returns. -/
inductive Received
  /-- The peer has closed the socket. -/
  | eof
  /-- Not the size of a message, or an error. -/
  | malformed
  | msg (m : Sent)
  deriving DecidableEq, Repr

/-! ## Connections -/

/-- `memif_conn_args_t`, without the name of the interface.  The secret ends before its first
NUL. -/
structure MemifConnArgs where
  secret : List UInt8
  numS2mRings : UInt8
  numM2sRings : UInt8
  bufferSize : UInt16
  log2RingSize : UInt8
  isMaster : Bool
  interfaceId : UInt32
  mode : UInt8
  deriving DecidableEq, Repr

/-- A region of a connection.  `addr` is the file that is mapped. -/
structure Region where
  layout : MemifRegion
  fd : Option File
  addr : Option File

/-- A queue of a connection.  `ring` is a place in a file that is mapped. -/
structure Queue where
  queue : MemifQueue
  region : UInt8
  offset : UInt32
  intFd : File
  ring : Option (File × ℕ)

/-- What the control channel reads of `memif_connection_t`.  An entry of an array that was never
written is `none`.  The numbers of regions and queues are the lengths. -/
structure Connection where
  args : MemifConnArgs
  runArgs : MemifConnRunArgs
  fd : ℤ
  msgQueue : List Sent
  regions : List (Option Region)
  rxQueues : List (Option Queue)
  txQueues : List (Option Queue)
  /-- `MEMIF_CONNECTION_FLAG_WRITE`. -/
  flagWrite : Bool

/-- `run_args` after `memset`. -/
def MemifConnRunArgs.zero : MemifConnRunArgs := ⟨0, 0, 0, 0⟩

/-- A connection as `memif_create` leaves it, before a slave requests its connection. -/
def Connection.create (args : MemifConnArgs) : Connection where
  args
  runArgs := .zero
  fd := -1
  msgQueue := []
  regions := []
  rxQueues := []
  txQueues := []
  flagWrite := false

/-! ## Processes -/

/-- A ring in shared memory, with its cookie. -/
structure RingMem where
  cookie : UInt32
  ring : MemifRing

/-- What the kernel keeps for all processes: the number of the next file, and the rings in files. -/
structure Files where
  next : File
  mem : File → ℕ → RingMem

/-- Write a ring. -/
def Files.write (fs : Files) (file : File) (off : ℕ) (r : RingMem) : Files :=
  { fs with mem := Function.update fs.mem file (Function.update (fs.mem file) off r) }

/-- A `memif_connection_t *`. -/
abbrev ConnId := ℕ

/-- What a process does to the outside, in the order it does it. -/
inductive Effect
  | sendmsg (fd : ℤ) (m : Sent)
  | close (fd : ℤ)
  | onConnect (c : ConnId)
  | onDisconnect (c : ConnId)
  deriving DecidableEq

/-- `libmemif_main_t`, with the list of interfaces of its only socket.  `watched` is what
`control_fd_update` has registered: a descriptor is watched for reading, and for writing if the
value is `true`. -/
structure LibmemifMain where
  controlList : List (MemifListElt ConnId)
  pendingList : List (MemifListElt Unit)
  interfaceList : List (MemifListElt ConnId)
  conn : ConnId → Connection
  watched : ℤ → Option Bool
  disconnSlaves : UInt16
  /-- Whether the timer runs by which slaves are connected again. -/
  armed : Bool

/-- Change a connection. -/
def LibmemifMain.setConn (m : LibmemifMain) (c : ConnId) (x : Connection) : LibmemifMain :=
  { m with conn := Function.update m.conn c x }

/-- `control_fd_update`. -/
def LibmemifMain.watch (m : LibmemifMain) (fd : ℤ) (w : Option Bool) : LibmemifMain :=
  { m with watched := Function.update m.watched fd w }

/-- A process in the middle of a call. -/
structure Proc where
  main : LibmemifMain
  files : Files
  out : List Effect

namespace Proc

def emit (p : Proc) (e : Effect) : Proc := { p with out := p.out ++ [e] }

def setConn (p : Proc) (c : ConnId) (x : Connection) : Proc := { p with main := p.main.setConn c x }

def watch (p : Proc) (fd : ℤ) (w : Option Bool) : Proc := { p with main := p.main.watch fd w }

end Proc

/-! ## Calls -/

/-- What goes wrong. -/
inductive Fault
  /-- A field of `NULL`. -/
  | null
  /-- Behind the end of an array or of a mapping. -/
  | bounds
  /-- An entry that was never written. -/
  | uninit
  deriving DecidableEq, Repr

/-- The code a call returns and the state it leaves, or what goes wrong. -/
abbrev Result (σ : Type) := Except Fault (MemifErr × σ)

/-- `if ((err = x) != MEMIF_ERR_SUCCESS) return err;` and then `f`. -/
def Result.andThen {σ : Type} (x : Result σ) (f : σ → Result σ) : Result σ :=
  match x with
  | .error e => .error e
  | .ok (err, s) => if err = .success then f s else .ok (err, s)

/-- `realloc` for one more entry, and a store to an entry.  The number of entries has 8 bits. -/
def growStore {β : Type} (arr : List (Option β)) (index : ℕ) (b : β) :
    Except Fault (List (Option β)) :=
  if index < arr.length + 1 ∧ arr.length + 1 < 256 then .ok ((arr ++ [none]).set index (some b))
  else .error .bounds

/-- An entry of an array is read. -/
def entry {β : Type} (arr : List (Option β)) (index : ℕ) : Except Fault β :=
  match arr[index]? with
  | none => .error .bounds
  | some none => .error .uninit
  | some (some b) => .ok b

/-! ## Sending -/

/-- Append to the message queue. -/
def Connection.enq (c : Connection) (m : MemifMsg) (fd : Option File) : Connection :=
  { c with msgQueue := c.msgQueue ++ [(m, fd)] }

/-- `memif_msg_enq_ack`. -/
def memifMsgEnqAck (c : Connection) : Connection := c.enq .ack none

/-- The greeting of `memif_msg_send_hello`. -/
def memifHello : MemifMsg :=
  .hello ⟨memifVersion, memifVersion, memifMaxRegion, memifMaxRing, memifMaxRing,
    memifMaxLog2RingSize⟩

/-- `memif_msg_enq_init`. -/
def memifMsgEnqInit (c : Connection) : Connection :=
  c.enq (.init ⟨memifVersion, c.args.interfaceId, c.args.mode, c.args.secret⟩) none

/-- `memif_msg_enq_add_region`. -/
def memifMsgEnqAddRegion (c : Connection) (regionIndex : ℕ) : Except Fault Connection :=
  match entry c.regions regionIndex with
  | .error e => .error e
  | .ok mr =>
    .ok (c.enq (.addRegion ⟨UInt16.ofNat regionIndex, mr.layout.regionSize.toUInt64⟩) mr.fd)

/-- `memif_msg_enq_add_ring`. -/
def memifMsgEnqAddRing (dir : MemifRingType) (c : Connection) (index : ℕ) :
    Except Fault Connection :=
  match entry (match dir with | .s2m => c.txQueues | .m2s => c.rxQueues) index with
  | .error e => .error e
  | .ok mq =>
    .ok (c.enq (.addRing
      { flags := match dir with
          | .s2m => memifMsgAddRingFlagS2m
          | .m2s => 0
        index := UInt16.ofNat index
        region := mq.region.toUInt16
        offset := mq.offset
        log2RingSize := mq.queue.log2RingSize
        privateHdrSize := 0 }) (some mq.intFd))

/-- `memif_msg_enq_connect`. -/
def memifMsgEnqConnect (c : Connection) : Connection := c.enq .connect none

/-- `memif_msg_enq_connected`. -/
def memifMsgEnqConnected (c : Connection) : Connection := c.enq .connected none

/-! ## Setting up shared memory -/

/-- A connection and the files. -/
structure View where
  conn : Connection
  files : Files

/-- The rings of one direction, as `memif_init_queues` writes them. -/
def writeRings (a : MemifConnRunArgs) (type : MemifRingType) (file : File) (n : ℕ) (fs : Files) :
    Files :=
  forUpTo n (fun i fs => fs.write file (memifGetRing a type i) ⟨memifCookie, initRing a type i⟩) fs

/-- Queue `x` of one direction, as `memif_init_queues` leaves it; `file` has the rings, and the
files of the interrupts are numbered from `first`. -/
def queueAt (a : MemifConnRunArgs) (type : MemifRingType) (file first : File) (x : ℕ) : Queue where
  queue := initQueue a
  region := 0
  offset := UInt32.ofNat (memifGetRing a type x)
  intFd := first + x
  ring := some (file, memifGetRing a type x)

/-- The queues of one direction. -/
def initQueues (a : MemifConnRunArgs) (type : MemifRingType) (file first : File) (n : ℕ) :
    List (Option Queue) :=
  (List.range n).map fun x => some (queueAt a type file first x)

/-- `memif_init_regions_and_queues`: two regions, with the rings and with the buffers, and then
`memif_init_queues`. -/
def memifInitRegionsAndQueues (v : View) : Except Fault View :=
  let c := v.conn
  let a := c.runArgs
  let fs := v.files
  let regions := c.regions ++ [some ⟨memifAddRegion a false, some fs.next, some fs.next⟩,
    some ⟨memifAddRegion a true, some (fs.next + 1), some (fs.next + 1)⟩]
  let ns := a.numS2mRings.toNat
  let nm := a.numM2sRings.toNat
  if ¬regions.length < 256 then .error .bounds
  else
    match entry regions 0 with
    | .error e => .error e
    | .ok r =>
      match r.addr with
      | none => .error .null
      | some file =>
        if ¬a.numRings * a.ringBytes ≤ r.layout.regionSize.toNat then .error .bounds
        else .ok
          { conn :=
              { c with
                regions
                txQueues := initQueues a .s2m file (fs.next + 2) ns
                rxQueues := initQueues a .m2s file (fs.next + 2 + ns) nm }
            files := writeRings a .m2s file nm (writeRings a .s2m file ns
              { fs with next := fs.next + 2 + ns + nm }) }

/-- The loop of `memif_connect1` over the regions: those that are not mapped are. -/
def mapRegions : List (Option Region) → Result (List (Option Region))
  | [] => .ok (.success, [])
  | none :: _ => .error .uninit
  | some r :: rs =>
    let rest (r : Region) : Result (List (Option Region)) :=
      match mapRegions rs with
      | .error e => .error e
      | .ok (err, rs) => .ok (err, some r :: rs)
    match r.addr, r.fd with
    | some _, _ => rest r
    | none, none => .ok (.noShmfd, some r :: rs)
    | none, some file =>
      -- `mmap` refuses an empty region
      if r.layout.regionSize = 0 then .ok (.syscall, some r :: rs)
      else rest { r with addr := some file }

/-- The loops of `memif_connect1` over the queues: the ring is looked up and its cookie checked,
and then the indices are reset. -/
def connectQueues (regions : List (Option Region)) :
    List (Option Queue) → Files → Result (List (Option Queue) × Files)
  | [], fs => .ok (.success, [], fs)
  | none :: _, _ => .error .uninit
  | some mq :: qs, fs =>
    match entry regions mq.region.toNat with
    | .error e => .error e
    | .ok r =>
      match r.addr with
      | none => .error .null
      | some file =>
        let off := mq.offset.toNat
        if ¬off + sizeofMemifRing ≤ r.layout.regionSize.toNat then .error .bounds
        else
          let rm := fs.mem file off
          if rm.cookie ≠ memifCookie then
            .ok (.cookie, some { mq with ring := some (file, off) } :: qs, fs)
          else
            let (queue, ring) := connect1 mq.queue rm.ring
            match connectQueues regions qs (fs.write file off { rm with ring }) with
            | .error e => .error e
            | .ok (err, qs, fs) =>
              .ok (err, some { mq with queue, ring := some (file, off) } :: qs, fs)

/-- `memif_connect1`, but for the call of `control_fd_update` at its end. -/
def memifConnect1 (v : View) : Result View :=
  match mapRegions v.conn.regions with
  | .error e => .error e
  | .ok (err, regions) =>
    let c := { v.conn with regions }
    if err ≠ .success then .ok (err, ⟨c, v.files⟩)
    else
      match connectQueues regions c.rxQueues v.files with
      | .error e => .error e
      | .ok (err, rxQueues, fs) =>
        let c := { c with rxQueues }
        if err ≠ .success then .ok (err, ⟨c, fs⟩)
        else
          match connectQueues regions c.txQueues fs with
          | .error e => .error e
          | .ok (err, txQueues, fs) => .ok (err, ⟨{ c with txQueues }, fs⟩)

/-! ## Receiving -/

/-- `memif_msg_receive_hello` from behind the check of the version. -/
def memifMsgReceiveHello (c : Connection) (h : MemifMsgHello) : Connection :=
  { c with
    runArgs :=
      { numS2mRings := UInt8.ofNat (min (h.maxS2mRing.toNat + 1) c.args.numS2mRings.toNat)
        numM2sRings := UInt8.ofNat (min (h.maxM2sRing.toNat + 1) c.args.numM2sRings.toNat)
        bufferSize := c.args.bufferSize
        log2RingSize := if h.maxLog2RingSize < c.args.log2RingSize then h.maxLog2RingSize
          else c.args.log2RingSize } }

/-- What a slave enqueues when it has received the greeting. -/
def enqHandshake (c : Connection) : Except Fault Connection := do
  let c := memifMsgEnqInit c
  let c ← (List.range c.regions.length).foldlM memifMsgEnqAddRegion c
  let c ← (List.range c.runArgs.numS2mRings.toNat).foldlM (memifMsgEnqAddRing .s2m) c
  let c ← (List.range c.runArgs.numM2sRings.toNat).foldlM (memifMsgEnqAddRing .m2s) c
  return memifMsgEnqConnect c

/-- `memif_msg_receive_add_region`. -/
def memifMsgReceiveAddRegion (c : Connection) (ar : MemifMsgAddRegion) (fd : Option File) :
    Result Connection :=
  match fd with
  | none => .ok (.noShmfd, c)
  | some file =>
    if ar.index > memifMaxRegion then .ok (.maxreg, c)
    else
      match growStore c.regions ar.index.toNat ⟨⟨ar.size.toUInt32, 0⟩, some file, none⟩ with
      | .error e => .error e
      | .ok regions => .ok (.success, { c with regions })

/-- The queue of an `ADD_RING`. -/
def MemifMsgAddRing.mq (ar : MemifMsgAddRing) (file : File) : Queue where
  queue := ⟨ar.log2RingSize, 0, 0, 0⟩
  region := ar.region.toUInt8
  offset := ar.offset
  intFd := file
  ring := none

/-- `memif_msg_receive_add_ring`. -/
def memifMsgReceiveAddRing (c : Connection) (ar : MemifMsgAddRing) (fd : Option File) :
    Result Connection :=
  match fd with
  | none => .ok (.noIntfd, c)
  | some file =>
    if ar.privateHdrSize ≠ 0 then .ok (.privhdr, c)
    else if ar.flags &&& memifMsgAddRingFlagS2m ≠ 0 then
      if ar.index > memifMaxRing then .ok (.maxring, c)
      else if c.args.numS2mRings.toNat ≤ ar.index.toNat then .ok (.maxring, c)
      else
        match growStore c.rxQueues ar.index.toNat (ar.mq file) with
        | .error e => .error e
        | .ok rxQueues =>
          .ok (.success, { c with
            rxQueues
            runArgs := { c.runArgs with numS2mRings := c.runArgs.numS2mRings + 1 } })
    else
      if ar.index > memifMaxRing then .ok (.maxring, c)
      else if c.args.numM2sRings.toNat ≤ ar.index.toNat then .ok (.maxring, c)
      else
        match growStore c.txQueues ar.index.toNat (ar.mq file) with
        | .error e => .error e
        | .ok txQueues =>
          .ok (.success, { c with
            txQueues
            runArgs := { c.runArgs with numM2sRings := c.runArgs.numM2sRings + 1 } })

/-- The key of an interface: the number as an `int`. -/
def interfaceKey (id : UInt32) : ℤ := if id.toNat < 2 ^ 31 then id.toNat else id.toNat - 2 ^ 32

/-- The end of `memif_msg_receive_init` if the peer is refused. -/
def refuse (p : Proc) (fd : ℤ) (errString : String) : Proc :=
  let p := (p.emit (.sendmsg fd (.disconnect 0 errString, none))).watch fd none
  { p with main := { p.main with pendingList := freeListElt p.main.pendingList fd } }.emit
    (.close fd)

/-- The secret is checked if the interface has one. -/
def checkSecret (args : MemifConnArgs) (i : MemifMsgInit) : Option (MemifErr × String) :=
  if args.secret = [] then none
  else if i.secret = [] then some (.nosecret, "secret required")
  else if args.secret.length ≠ i.secret.length then some (.secret, "incorrect secret")
  else if i.secret ≠ args.secret then some (.secret, "incorrect secret")
  else none

/-- `memif_msg_receive_init`.  The connection has the descriptor before its mode and its secret are
checked. -/
def memifMsgReceiveInit (p : Proc) (fd : ℤ) (i : MemifMsgInit) : Result Proc :=
  if i.version ≠ memifVersion then .ok (.proto, refuse p fd "incompatible version")
  else
    match getListElt p.main.interfaceList (interfaceKey i.id) with
    | none => .ok (.id, refuse p fd "unmatched interface id")
    | some k =>
      match p.main.interfaceList[k]?.bind MemifListElt.dataStruct with
      | none => .error .null
      | some c =>
        let conn := p.main.conn c
        if ¬conn.args.isMaster then .ok (.accslave, refuse p fd "cannot connect to salve")
        else if conn.fd ≠ -1 then .ok (.alrconn, refuse p fd "already connected")
        else
          let p := p.setConn c { conn with fd }
          if i.mode ≠ conn.args.mode then .ok (.mode, refuse p fd "mode mismatch")
          else
            match checkSecret conn.args i with
            | some (err, errString) => .ok (err, refuse p fd errString)
            | none =>
              .ok (.success, { p with main := { p.main with
                controlList := (addListElt ⟨fd, some c⟩ p.main.controlList).1
                pendingList := freeListElt p.main.pendingList fd } })

/-- The messages that act on a connection, in `memif_msg_receive`, with the answer that is
enqueued.  `c` is `NULL` if the socket has no connection. -/
def receiveConn (p : Proc) (c : Option ConnId) (f : View → Result View) : Result Proc :=
  match c with
  | none => .error .null
  | some c =>
    match f ⟨p.main.conn c, p.files⟩ with
    | .error e => .error e
    | .ok (err, v) => .ok (err, { p.setConn c v.conn with files := v.files })

/-- A call of `on_connect` behind `memif_connect1`, which also leaves the socket watched for reading
only. -/
def connectedNow (p : Proc) (c : ConnId) : Proc :=
  (p.watch (p.main.conn c).fd (some false)).emit (.onConnect c)

/-- A call that does not touch the files. -/
def onConn (f : Connection → Result Connection) (v : View) : Result View :=
  match f v.conn with
  | .error e => .error e
  | .ok (err, conn) => .ok (err, { v with conn })

/-- `memif_msg_receive_hello`, `memif_init_regions_and_queues` and the messages of the slave. -/
def receiveHello (h : MemifMsgHello) (v : View) : Except Fault (MemifErr × View) := do
  let v ← memifInitRegionsAndQueues { v with conn := memifMsgReceiveHello v.conn h }
  let conn ← enqHandshake v.conn
  return (.success, { v with conn })

/-- The switch of `memif_msg_receive`, with the connection that is marked afterwards. -/
def dispatch (p : Proc) (ifd : ℤ) (m : Sent) : Except Fault (MemifErr × Proc × Option ConnId) :=
  let c := lookup p.main.controlList ifd
  let marked (r : Result Proc) : Except Fault (MemifErr × Proc × Option ConnId) :=
    match r with
    | .error e => .error e
    | .ok (err, p) => .ok (err, p, c)
  match m.1 with
  | .ack => .ok (.success, p, c)
  | .hello h =>
    if h.minVersion > memifVersion ∨ h.maxVersion < memifVersion then .ok (.proto, p, c)
    else marked (receiveConn p c (receiveHello h))
  | .init i =>
    match getListElt p.main.pendingList ifd with
    | none => .ok (.fail, p, c)
    | some _ =>
      match memifMsgReceiveInit p ifd i with
      | .error e => .error e
      | .ok (err, p) =>
        if err ≠ .success then .ok (err, p, c)
        else
          match lookup p.main.controlList ifd with
          | none => .ok (.fail, p, c)
          | some c => .ok (.success, p.setConn c (memifMsgEnqAck (p.main.conn c)), some c)
  | .addRegion ar =>
    marked (receiveConn p c fun v =>
      (onConn (fun conn => memifMsgReceiveAddRegion conn ar m.2) v).andThen fun v =>
        .ok (.success, { v with conn := memifMsgEnqAck v.conn }))
  | .addRing ar =>
    marked (receiveConn p c fun v =>
      (onConn (fun conn => memifMsgReceiveAddRing conn ar m.2) v).andThen fun v =>
        .ok (.success, { v with conn := memifMsgEnqAck v.conn }))
  | .connect =>
    marked ((receiveConn p c memifConnect1).andThen fun p =>
      match c with
      | none => .error .null
      | some c =>
        let p := connectedNow p c
        .ok (.success, p.setConn c (memifMsgEnqConnected (p.main.conn c))))
  | .connected =>
    marked ((receiveConn p c memifConnect1).andThen fun p =>
      match c with
      | none => .error .null
      | some c => .ok (.success, connectedNow p c))
  | .disconnect _ _ =>
    match c with
    | none => .error .null
    | some _ => .ok (.disconnect, p, c)
  | .unknown _ => .ok (.unknownMsg, p, c)

/-- `memif_msg_receive`. -/
def memifMsgReceive (p : Proc) (ifd : ℤ) : Received → Result Proc
  | .eof => .ok (.disconnected, p)
  | .malformed => .ok (.mfmsg, p)
  | .msg m =>
    match dispatch p ifd m with
    | .error e => .error e
    | .ok (.success, p, some c) =>
      .ok (.success, p.setConn c { p.main.conn c with flagWrite := true })
    | .ok (err, p, _) => .ok (err, p)

/-! ## Disconnecting -/

/-- The loop of `memif_disconnect_internal` over the regions.  `munmap` refuses an empty region. -/
def closeRegions : List (Option Region) → Result (List (Option Region))
  | [] => .ok (.success, [])
  | none :: _ => .error .uninit
  | some r :: rs =>
    if r.layout.regionSize = 0 then .ok (.syscall, some r :: rs)
    else
      match closeRegions rs with
      | .error e => .error e
      | .ok (err, rs) => .ok (err, some { r with fd := none } :: rs)

/-- `memif_disconnect_internal`. -/
def memifDisconnectInternal (p : Proc) (c : ConnId) : Result Proc :=
  let p := p.emit (.onDisconnect c)
  let conn := p.main.conn c
  let p :=
    if 0 < conn.fd then
      ((p.emit (.sendmsg conn.fd (.disconnect 0 "interface deleted", none))).watch conn.fd
        none).emit (.close conn.fd)
    else p
  let (list, conn) :=
    match getListElt p.main.controlList conn.fd with
    | none => (p.main.controlList, conn)
    | some i =>
      let list := if conn.args.isMaster then freeListElt p.main.controlList conn.fd
        else p.main.controlList
      (list.modify i fun e => { e with key := -1 }, { conn with fd := -1 })
  let p := { p with main := { p.main with controlList := list } }
  let conn := { conn with txQueues := [], rxQueues := [] }
  match closeRegions conn.regions with
  | .error e => .error e
  | .ok (.success, _) =>
    let p := p.setConn c { conn with regions := [], runArgs := .zero, msgQueue := [] }
    if conn.args.isMaster then .ok (.success, p)
    else .ok (.success, { p with main := { p.main with
      armed := p.main.armed || p.main.disconnSlaves == 0
      disconnSlaves := p.main.disconnSlaves + 1 } })
  | .ok (err, regions) => .ok (err, p.setConn c { conn with regions })

/-! ## Events -/

/-- The events of a descriptor. -/
structure FdEvents where
  read : Bool
  write : Bool
  error : Bool

/-- `memif_conn_fd_accept_ready`; `connFd` is what `accept` returns. -/
def memifConnFdAcceptReady (p : Proc) (connFd : ℤ) : Proc :=
  let p := { p with main := { p.main with
    pendingList := (addListElt ⟨connFd, some ()⟩ p.main.pendingList).1 } }
  (p.watch connFd (some true)).emit (.sendmsg connFd (memifHello, none))

/-- `memif_conn_fd_read_ready`. -/
def memifConnFdReadReady (p : Proc) (c : ConnId) (r : Received) : Result Proc :=
  match memifMsgReceive p (p.main.conn c).fd r with
  | .error e => .error e
  | .ok (err, p) => if err = .success then .ok (err, p) else memifDisconnectInternal p c

/-- `memif_conn_fd_write_ready`. -/
def memifConnFdWriteReady (p : Proc) (c : ConnId) : Result Proc :=
  let conn := p.main.conn c
  match conn.flagWrite, conn.msgQueue with
  | true, m :: msgQueue =>
    .ok (.success, (p.setConn c { conn with msgQueue, flagWrite := false }).emit
      (.sendmsg conn.fd m))
  | _, _ => .ok (.success, p)

/-- `e->data_struct` of entry `i` of the control list. -/
def dataStruct (p : Proc) (i : ℕ) : Except Fault ConnId :=
  match p.main.controlList[i]?.bind MemifListElt.dataStruct with
  | none => .error .null
  | some c => .ok c

/-- One of the three functions of a connection is called if its event is there. -/
def onEvent (event : Bool) (i : ℕ) (f : Proc → ConnId → Result Proc) (p : Proc) : Result Proc :=
  if event then
    match dataStruct p i with
    | .error e => .error e
    | .ok c => f p c
  else .ok (.success, p)

/-- `memif_control_fd_handler` for the descriptor of a peer; `r` is what `recvmsg` returns if it is
called.  A peer that has not introduced itself is read from, whatever the event is. -/
def memifControlFdHandler (p : Proc) (fd : ℤ) (ev : FdEvents) (r : Received) : Result Proc :=
  match getListElt p.main.pendingList fd with
  | some _ => memifMsgReceive p fd r
  | none =>
    match getListElt p.main.controlList fd with
    | none => .ok (.success, p)
    | some i =>
      ((onEvent ev.read i (fun p c => memifConnFdReadReady p c r) p).andThen
        (onEvent ev.write i memifConnFdWriteReady)).andThen
        (onEvent ev.error i memifDisconnectInternal)

/-! ## Creating a connection -/

/-- `MEMIF_DEFAULT_LOG2_RING_SIZE`. -/
def memifDefaultLog2RingSize : UInt8 := 10

/-- `MEMIF_DEFAULT_BUFFER_SIZE`. -/
def memifDefaultBufferSize : UInt16 := 2048

/-- `MEMIF_DEFAULT_TX_QUEUES` and `MEMIF_DEFAULT_RX_QUEUES`. -/
def memifDefaultQueues : UInt8 := 1

/-- What `memif_create` puts for arguments that are zero. -/
def MemifConnArgs.withDefaults (a : MemifConnArgs) : MemifConnArgs :=
  { a with
    log2RingSize := if a.log2RingSize = 0 then memifDefaultLog2RingSize else a.log2RingSize
    bufferSize := if a.bufferSize = 0 then memifDefaultBufferSize else a.bufferSize
    numS2mRings := if a.numS2mRings = 0 then memifDefaultQueues else a.numS2mRings
    numM2sRings := if a.numM2sRings = 0 then memifDefaultQueues else a.numM2sRings }

/-- `memif_request_connection`.  `index` is the place of the connection in the control list, and
`sockfd` is the socket if the master could be reached. -/
def memifRequestConnection (p : Proc) (c : ConnId) (index : ℕ) (sockfd : Option ℤ) :
    MemifErr × Proc :=
  let conn := p.main.conn c
  if conn.args.isMaster then (.invalArg, p)
  else if 0 < conn.fd then (.alrconn, p)
  else
    match sockfd with
    | none => (.syscall, p)
    | some fd =>
      let p := (p.setConn c { conn with fd }).watch fd (some true)
      (.success, { p with main := { p.main with
        controlList := p.main.controlList.modify index fun e => { e with key := fd }
        disconnSlaves := p.main.disconnSlaves - 1
        armed := p.main.armed && p.main.disconnSlaves - 1 != 0 } })

/-- `memif_create` on a socket of the right type; `c` is the new connection.  A slave tries to reach
its master at once, and the timer is armed if it cannot. -/
def memifCreate (p : Proc) (c : ConnId) (args : MemifConnArgs) (sockfd : Option ℤ) :
    MemifErr × Proc :=
  if memifMaxLog2RingSize < args.log2RingSize then (.maxRing, p)
  else
    let p := p.setConn c (Connection.create args.withDefaults)
    let p := { p with main := { p.main with
      interfaceList :=
        (addListElt ⟨interfaceKey args.interfaceId, some c⟩ p.main.interfaceList).1 } }
    if args.isMaster then (.success, p)
    else
      let elt := addListElt ⟨-1, some c⟩ p.main.controlList
      let r := memifRequestConnection { p with main := { p.main with controlList := elt.1 } } c
        elt.2 sockfd
      (.success, { r.2 with main := { r.2.main with
        armed := r.2.main.armed || (r.1 != .success && r.2.main.disconnSlaves == 0)
        disconnSlaves := r.2.main.disconnSlaves + 1 } })

end CiphApp.Libmemif
