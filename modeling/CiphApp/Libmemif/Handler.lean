import CiphApp.Libmemif.Exchange

/-!
# Calls for one connection

What `memif_control_fd_handler` does for a socket whose connection is known (`Attached`), or whose
peer has been greeted and has yet to name its interface (`Greeted`).  Each message that is taken has
a lemma on `dispatch`, and writing has two: a message that waits is sent, or there is nothing to do.
`Libmemif.Handshake` uses these and never unfolds the handler.

The two states are where a connection is when the handshake begins: `attached_memifCreate` is the
slave behind a `memif_create` that reaches the master, and `greeted_accept` the master behind
`memif_create` and `memif_conn_fd_accept_ready`.
-/

namespace CiphApp.Libmemif

/-! ## A connection in its process -/

/-- **A connection that has its socket.**  The control list finds the connection by its descriptor,
the descriptor is no longer pending, and it is watched for writing if `w` is `true`. -/
structure Attached (m : LibmemifMain) (fd : ℤ) (c : ConnId) (x : Connection) (w : Bool) : Prop where
  keyed : Keyed m.controlList
  keyedPending : Keyed m.pendingList
  control : lookup m.controlList fd = some c
  pending : lookup m.pendingList fd = none
  conn : m.conn c = x
  fd_eq : x.fd = fd
  watched : m.watched fd = some w

/-- **A peer that has been greeted** and has not named its interface.  The connection waits for
it. -/
structure Greeted (m : LibmemifMain) (fd : ℤ) (c : ConnId) (id : UInt32) (x : Connection) :
    Prop where
  keyed : Keyed m.controlList
  keyedPending : Keyed m.pendingList
  control : lookup m.controlList fd = none
  pending : lookup m.pendingList fd = some ()
  interface : lookup m.interfaceList (interfaceKey id) = some c
  conn : m.conn c = x
  watched : m.watched fd = some true

/-! ## Where they come from -/

section Create

variable {p : Proc} {fd : ℤ} {c : ConnId} {args : MemifConnArgs}

lemma attached_memifCreate (hkeyed : Keyed p.main.controlList) (hpending : Keyed p.main.pendingList)
    (hlog : args.log2RingSize ≤ 14) (hslave : args.isMaster = false) (hfd : fd ≠ -1)
    (hnew : lookup p.main.controlList fd = none) (hnew' : lookup p.main.pendingList fd = none) :
    Attached (memifCreate p c args (some fd)).2.main fd c
      { Connection.create args.withDefaults with fd } true := by
  have hlog' : ¬memifMaxLog2RingSize < args.log2RingSize := UInt8.not_lt.mpr hlog
  have hslave' : (Connection.create args.withDefaults).args.isMaster = false := hslave
  have hfree : ¬0 < (Connection.create args.withDefaults).fd := show ¬(0 : ℤ) < -1 by decide
  obtain ⟨hkeyed', hlookup⟩ := lookup_addListElt (a := c) hkeyed hfd hnew
  rw [memifCreate, if_neg hlog']
  simp only [hslave, Bool.false_eq_true, if_false, memifRequestConnection, Proc.setConn,
    LibmemifMain.setConn, Function.update_self, hslave', hfree, Proc.watch, LibmemifMain.watch,
    modify_addListElt]
  exact {
    keyed := hkeyed'
    keyedPending := hpending
    control := (hlookup fd).trans (if_pos rfl)
    pending := hnew'
    conn := Function.update_self ..
    fd_eq := rfl
    watched := Function.update_self .. }

lemma greeted_accept (hkeyed : Keyed p.main.controlList) (hpending : Keyed p.main.pendingList)
    (hinterface : Keyed p.main.interfaceList) (hlog : args.log2RingSize ≤ 14)
    (hmaster : args.isMaster = true) (hfd : fd ≠ -1)
    (hnew : lookup p.main.controlList fd = none) (hnew' : lookup p.main.pendingList fd = none)
    (hid : interfaceKey args.interfaceId ≠ -1)
    (hnewId : lookup p.main.interfaceList (interfaceKey args.interfaceId) = none) :
    Greeted (memifConnFdAcceptReady (memifCreate p c args none).2 fd).main fd c args.interfaceId
      (Connection.create args.withDefaults) := by
  have hlog' : ¬memifMaxLog2RingSize < args.log2RingSize := UInt8.not_lt.mpr hlog
  obtain ⟨hkeyed', hlookup⟩ := lookup_addListElt (a := ()) hpending hfd hnew'
  obtain ⟨-, hlookupId⟩ := lookup_addListElt (a := c) hinterface hid hnewId
  rw [memifCreate, if_neg hlog']
  simp only [hmaster, if_true, memifConnFdAcceptReady, Proc.setConn, LibmemifMain.setConn,
    Proc.watch, LibmemifMain.watch, Proc.emit]
  exact {
    keyed := hkeyed
    keyedPending := hkeyed'
    control := hnew
    pending := (hlookup fd).trans (if_pos rfl)
    interface := (hlookupId _).trans (if_pos rfl)
    conn := Function.update_self ..
    watched := Function.update_self .. }

end Create

section Process

variable {m : LibmemifMain} {p p₁ p₂ : Proc} {fd : ℤ} {c : ConnId} {x y : Connection} {w : Bool}

lemma conn_setConn_self (m : LibmemifMain) (c : ConnId) (x : Connection) :
    (m.setConn c x).conn c = x := Function.update_self ..

lemma conn_watch (m : LibmemifMain) (fd : ℤ) (w : Option Bool) : (m.watch fd w).conn = m.conn := rfl

lemma setConn_setConn (m : LibmemifMain) (c : ConnId) (x y : Connection) :
    (m.setConn c x).setConn c y = m.setConn c y := by
  rw [LibmemifMain.setConn, LibmemifMain.setConn, LibmemifMain.setConn, Function.update_idem]

lemma Attached.setConn (h : Attached m fd c x w) (hy : y.fd = fd) :
    Attached (m.setConn c y) fd c y w :=
  { h with conn := conn_setConn_self m c y, fd_eq := hy }

lemma Attached.watch (h : Attached m fd c x w) (w' : Bool) :
    Attached (m.watch fd (some w')) fd c x w' :=
  { h with watched := Function.update_self .. }

lemma Attached.marked (h : Attached m fd c x w) (hy : y.fd = fd) :
    Attached ((m.setConn c y).setConn c { (m.setConn c y).conn c with flagWrite := true }) fd c
      { y with flagWrite := true } w := by
  rw [conn_setConn_self, setConn_setConn]
  exact h.setConn hy

lemma exists_of_lookup {α : Type} {list : List (MemifListElt α)} {key : ℤ} {a : α}
    (h : lookup list key = some a) :
    ∃ i : ℕ, getListElt list key = some i ∧ list[i]?.bind MemifListElt.dataStruct = some a :=
  Option.bind_eq_some_iff.mp h

lemma memifControlFdHandler_eq {ev : FdEvents} {r : Received} (h : Attached p.main fd c x w)
    (hread : (if ev.read then memifConnFdReadReady p c r else .ok (.success, p)) =
      .ok (.success, p₁))
    (hlist : p₁.main.controlList = p.main.controlList)
    (hwrite : (if ev.write then memifConnFdWriteReady p₁ c else .ok (.success, p₁)) =
      .ok (.success, p₂)) (herror : ev.error = false) :
    memifControlFdHandler p fd ev r = .ok (.success, p₂) := by
  obtain ⟨i, hi, hdata⟩ := exists_of_lookup h.control
  have hpending : getListElt p.main.pendingList fd = none :=
    (getListElt_eq_none h.keyedPending).mpr h.pending
  have hdata₁ : dataStruct p i = .ok c := by rw [dataStruct, hdata]
  have hdata₂ : dataStruct p₁ i = .ok c := by rw [dataStruct, hlist, hdata]
  rw [memifControlFdHandler, hpending]
  simp only [hi, onEvent, hdata₁, hread, Result.andThen, if_true, hdata₂, hwrite, herror]
  rfl

/-- A peer that has not named its interface is read from. -/
lemma memifControlFdHandler_greeted {ev : FdEvents} {r : Received} {id : UInt32}
    (h : Greeted p.main fd c id x) : memifControlFdHandler p fd ev r = memifMsgReceive p fd r := by
  obtain ⟨i, hi, -⟩ := exists_of_lookup h.pending
  rw [memifControlFdHandler, hi]

/-! ## Reading -/

lemma memifMsgReceive_of_dispatch {s : Sent}
    (h : dispatch p fd s = .ok (.success, p₁, some c)) :
    memifMsgReceive p fd (.msg s) =
      .ok (.success, p₁.setConn c { p₁.main.conn c with flagWrite := true }) := by
  rw [memifMsgReceive, h]

lemma Attached.readReady {r : Received} (h : Attached p.main fd c x w)
    (hr : memifMsgReceive p fd r = .ok (.success, p₁)) :
    memifConnFdReadReady p c r = .ok (.success, p₁) := by
  rw [memifConnFdReadReady, h.conn, h.fd_eq, hr]
  rfl

lemma dispatch_body {s : Sent} (hl : lookup p.main.controlList fd = some c)
    (hs : receiveBody (p.main.conn c) s = .ok (.success, y)) :
    dispatch p fd s = .ok (.success, p.setConn c (memifMsgEnqAck y), some c) := by
  obtain ⟨msg, file⟩ := s
  cases msg with
  | addRegion ar =>
      have hreceive : memifMsgReceiveAddRegion (p.main.conn c) ar file = .ok (.success, y) := hs
      rw [dispatch]
      simp only [hl, receiveConn, onConn, hreceive, Result.andThen, if_true]
      rfl
  | addRing ar =>
      have hreceive : memifMsgReceiveAddRing (p.main.conn c) ar file = .ok (.success, y) := hs
      rw [dispatch]
      simp only [hl, receiveConn, onConn, hreceive, Result.andThen, if_true]
      rfl
  | _ => cases hs

lemma dispatch_hello {v : View} (hl : lookup p.main.controlList fd = some c)
    (hv : receiveHello helloData ⟨p.main.conn c, p.files⟩ = .ok (.success, v)) :
    dispatch p fd (memifHello, none) =
      .ok (.success, { p.setConn c v.conn with files := v.files }, some c) := by
  have hversion : ¬(helloData.minVersion > memifVersion ∨ helloData.maxVersion < memifVersion) := by
    decide
  have hhello : memifHello = .hello helloData := rfl
  rw [dispatch, hhello]
  simp only [if_neg hversion, hl, receiveConn, hv]

lemma dispatch_connect {v : View} (hl : lookup p.main.controlList fd = some c)
    (hv : memifConnect1 ⟨p.main.conn c, p.files⟩ = .ok (.success, v)) (hfd : v.conn.fd = fd) :
    dispatch p fd (.connect, none) = .ok (.success,
      ⟨((p.main.setConn c v.conn).watch fd (some false)).setConn c (memifMsgEnqConnected v.conn),
        v.files, p.out ++ [.onConnect c]⟩, some c) := by
  rw [dispatch]
  simp only [hl, receiveConn, hv, Result.andThen, if_true, connectedNow, Proc.setConn, Proc.watch,
    Proc.emit, conn_watch, conn_setConn_self, hfd]

lemma dispatch_connected {v : View} (hl : lookup p.main.controlList fd = some c)
    (hv : memifConnect1 ⟨p.main.conn c, p.files⟩ = .ok (.success, v)) (hfd : v.conn.fd = fd) :
    dispatch p fd (.connected, none) = .ok (.success,
      ⟨(p.main.setConn c v.conn).watch fd (some false), v.files, p.out ++ [.onConnect c]⟩,
        some c) := by
  rw [dispatch]
  simp only [hl, receiveConn, hv, Result.andThen, if_true, connectedNow, Proc.setConn, Proc.watch,
    Proc.emit, conn_setConn_self, hfd]

/-- The master behind an `INIT`. -/
def initMain (m : LibmemifMain) (fd : ℤ) (c : ConnId) (x : Connection) : LibmemifMain :=
  { m.setConn c { x with fd } with
    controlList := (addListElt ⟨fd, some c⟩ m.controlList).1
    pendingList := freeListElt m.pendingList fd }

section Init

variable {id : UInt32} {i : MemifMsgInit}

/-- A peer that has to be let in. -/
structure Admits (x : Connection) (i : MemifMsgInit) : Prop where
  version : i.version = memifVersion
  isMaster : x.args.isMaster = true
  free : x.fd = -1
  mode : i.mode = x.args.mode
  secret : checkSecret x.args i = none

lemma Greeted.receiveInit (h : Greeted p.main fd c id x) (hx : Admits x i) (hid : i.id = id) :
    memifMsgReceiveInit p fd i = .ok (.success, { p with main := initMain p.main fd c x }) := by
  obtain ⟨k, hk, hdata⟩ := exists_of_lookup h.interface
  rw [memifMsgReceiveInit, if_neg (not_not_intro hx.version), hid, hk]
  simp only [hdata, h.conn, hx.isMaster, hx.free, hx.mode, hx.secret, not_true_eq_false, ne_eq,
    if_false]
  rfl

lemma Greeted.attached_initMain (h : Greeted m fd c id x) (hfd : fd ≠ -1) :
    Attached (initMain m fd c x) fd c { x with fd } true := by
  obtain ⟨hkeyed, hlookup⟩ := lookup_addListElt (a := c) h.keyed hfd h.control
  obtain ⟨hkeyed', hlookup'⟩ := lookup_freeListElt h.keyedPending hfd
  exact {
    keyed := hkeyed
    keyedPending := hkeyed'
    control := (hlookup fd).trans (if_pos rfl)
    pending := (hlookup' fd).trans (if_pos rfl)
    conn := conn_setConn_self ..
    fd_eq := rfl
    watched := h.watched }

/-- **The peer names its interface** and is acknowledged. -/
lemma Greeted.dispatch_init (h : Greeted p.main fd c id x) (hfd : fd ≠ -1) (hx : Admits x i)
    (hid : i.id = id) :
    dispatch p fd (.init i, none) = .ok (.success,
      { p with main := (initMain p.main fd c x).setConn c (memifMsgEnqAck { x with fd }) },
        some c) := by
  obtain ⟨k, hk, -⟩ := exists_of_lookup h.pending
  have hattached := h.attached_initMain hfd
  rw [dispatch]
  simp only [hk, h.receiveInit hx hid, ne_eq, not_true_eq_false, if_false, hattached.control,
    hattached.conn]
  rfl

end Init

/-! ## Writing -/

lemma memifConnFdWriteReady_cons {s : Sent} {q : List Sent} (hx : p.main.conn c = x)
    (hflag : x.flagWrite = true) (hq : x.msgQueue = s :: q) :
    memifConnFdWriteReady p c = .ok (.success,
      (p.setConn c { x with msgQueue := q, flagWrite := false }).emit (.sendmsg x.fd s)) := by
  rw [memifConnFdWriteReady, hx]
  simp only [hflag, hq]

/-- There is nothing to send, or it is not allowed. -/
lemma memifConnFdWriteReady_idle (hx : p.main.conn c = x)
    (h : x.flagWrite = false ∨ x.msgQueue = []) :
    memifConnFdWriteReady p c = .ok (.success, p) := by
  rw [memifConnFdWriteReady, hx]
  rcases h with h | h
  · simp only [h]
  · cases x.flagWrite <;> simp only [h]

end Process

end CiphApp.Libmemif
