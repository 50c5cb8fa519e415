import CiphApp.Cryptodev.Client

/-!
# `run_jobs`

One burst through the client: `preprocess_jobs` scans the jobs and sorts the ciphering ones by
device, `run_jobs_inner` feeds them to each device and collects the results, `postprocess_jobs`
applies the session closes.

## The environment

What the op pool and the devices do is an input, written as the exact script of one call.  A
`Round` is one pass of the enqueue loop: what `rte_mempool_get_bulk` hands out (`none` if it
fails; the objects carry whatever their last use left in them), how many operations the device
accepts, and what it gives back.  `drain` lists the results of the dequeue calls of the second
loop.  A returned operation is named by its enqueue number, so a device may return any operation
it holds in any order with any status; `out` is what it has written over the operation's buffer
by then.  A script in which a device accepts more than it is offered, returns something it does
not hold or more than it is asked for, or that is longer or shorter than the call, belongs to no
execution, and the functions return `none`.  A call that never returns has no script.
-/

namespace CiphApp

open Lib

/-! ## Scripts -/

/-- One operation that comes back from a device, named by the ticket it was enqueued with.  The
device has left `out` in the buffer of the operation by then. -/
structure Return where
  ticket : ℕ
  status : RteStatus
  out : List UInt8

/-- One pass of the enqueue loop: the objects the op pool hands out, or `none` if it refuses; how
many operations the device accepts; and what it returns in the dequeue call of the same pass. -/
structure Round where
  pool : Option (ℕ → CryptoOp)
  accepted : ℕ
  returned : List Return

/-- What one `run_jobs_inner` call meets: a round for each pass of the enqueue loop, and a list of
operations for each call of the draining loop.  A script that is too short is a call that does not
return, and one that does not fit what the device holds is no run at all; theorems quantify over
scripts and say for which there is a run. -/
structure DevScript where
  rounds : List Round
  drain : List (List Return)

/-- What one `run_jobs` call meets: the session answers for each job, and a script for each
device position. -/
structure Script where
  sess : ℕ → SessAns
  dev : ℕ → DevScript

/-! ## `preprocess_jobs` and `postprocess_jobs` -/

/-- The array of jobs. -/
abbrev Jobs := ℕ → CryptoOperation

/-- `job.op.op_status = status`. -/
def CryptoOperation.setStatus (job : CryptoOperation) (status : UInt32) : CryptoOperation :=
  { job with op := { job.op with opStatus := status } }

/-- `job.op.sess_id = sess_id`. -/
def CryptoOperation.setSessId (job : CryptoOperation) (sessId : UInt32) : CryptoOperation :=
  { job with op := { job.op with sessId } }

/-- `job.cipher_buff_list.buff_list_length = n`. -/
def CryptoOperation.setBuffListLength (job : CryptoOperation) (n : UInt32) : CryptoOperation :=
  { job with cipherBuffList := { job.cipherBuffList with buffListLength := n } }

/-- The client, the jobs, and for each device the jobs sorted to it
(`dev_vecs_idxs_arr`, whose lengths are `dev_ops_size_arr`). -/
structure Burst where
  cl : Client
  jobs : Jobs
  idxs : ℕ → List ℕ

/-- `jobs[i] = job`. -/
def Burst.setJob (b : Burst) (i : ℕ) (job : CryptoOperation) : Burst :=
  { b with jobs := Function.update b.jobs i job }

/-- `STATS_OP_FAILED(k)`. -/
def Burst.fail (b : Burst) (k : OpFailed) : Burst :=
  { b with cl := { b.cl with stats := b.cl.stats.fail k } }

/-- The body of the loop of `preprocess_jobs`. -/
def preprocessJob (cfg : Config) (heap : Heap) (ch : ℕ) (ans : SessAns) (i : ℕ) (b : Burst) :
    Burst :=
  let job := b.jobs i
  if job.op.opStatus = cryptoOpStatusFailed then
    (b.setJob i (job.setBuffListLength 0)).fail .inAgent
  else if job.op.opType = cryptoOpTypeSessCreate then
    match createSession cfg heap ch job ans b.cl with
    | (cl, some sessId) =>
      ({ b with cl }).setJob i ((job.setStatus cryptoOpStatusSucc).setSessId sessId)
    | (cl, none) =>
      (({ b with cl }).setJob i
        ((job.setStatus cryptoOpStatusFailed).setSessId 0xFFFFFFFF)).fail .createSess
  else if job.op.opType = cryptoOpTypeSessClose then
    -- the session is removed at the end of the burst
    b
  else if job.op.opType = cryptoOpTypeSessCiphering then
    match getSession cfg ch job.op.sessId b.cl with
    | none =>
      (b.setJob i ((job.setStatus cryptoOpStatusFailed).setBuffListLength 0)).fail .getSess
    | some _ =>
      let cdevId := sessCdevId job.op.sessId
      if cdevId < cfg.nbCryptodevs then
        ({ b with idxs := Function.update b.idxs cdevId (b.idxs cdevId ++ [i]) }).setJob i
          ((job.setStatus cryptoOpStatusSucc).setBuffListLength 1)
      else
        (b.setJob i ((job.setStatus cryptoOpStatusFailed).setBuffListLength 0)).fail .invalidCdev
  else
    (b.setJob i ((job.setStatus cryptoOpStatusFailed).setBuffListLength 0)).fail .opTypeUnk

/-- `preprocess_jobs`. -/
def preprocessJobs (cfg : Config) (heap : Heap) (ch : ℕ) (ans : ℕ → SessAns) (size : ℕ)
    (b : Burst) : Burst :=
  forUpTo size (fun i b => preprocessJob cfg heap ch (ans i) i b) b

/-- The body of the loop of `postprocess_jobs`. -/
def postprocessJob (cfg : Config) (ch : ℕ) (ans : ReleaseAns) (i : ℕ) (s : Client × Jobs) :
    Client × Jobs :=
  let job := s.2 i
  if job.op.opType = cryptoOpTypeSessClose then
    match removeSession cfg ch job.op.sessId ans s.1 with
    | (cl, true) => (cl, Function.update s.2 i (job.setStatus cryptoOpStatusSucc))
    | (cl, false) =>
      ({ cl with stats := cl.stats.fail .removeSession },
        Function.update s.2 i (job.setStatus cryptoOpStatusFailed))
  else s

/-- `postprocess_jobs`. -/
def postprocessJobs (cfg : Config) (ch : ℕ) (ans : ℕ → ReleaseAns) (size : ℕ)
    (s : Client × Jobs) : Client × Jobs :=
  forUpTo size (fun i s => postprocessJob cfg ch (ans i) i s) s

/-! ## Preparing operations: `set_ops_cipher` -/

/-- `MAX_tBUFF_SIZE`, the length given to every source buffer. -/
def maxTBuffSize : UInt16 := 9000

/-- The device at this index takes its lengths in bits. -/
def Config.inBits (cfg : Config) (devId : UInt8) : Bool :=
  match (cfg.enabledCdevs devId.toNat).algo with
  | .snow3gUea2 => true
  | .kasumiF8 => true
  | .zucEea3 => true
  | _ => false

/-- The body of the loop of `set_ops_cipher` on one operation: job `vec`, at index `j` of the
array, has session `sess`.  Without a session the operation keeps what it carried.  The IV is copied
last and is a part of its own here; in the object of the pool it can run into the mbuf behind its
area if it is longer than that (`OpLayout.keepsMbuf_iff`). -/
def setOpCipher (cfg : Config) (devId : UInt8) (heap : Heap) (vec : CryptoOperation) (j : ℕ)
    (sess : Option SessPtr) (op : CryptoOp) : CryptoOp :=
  let op := { op with status := .notProcessed }
  match sess with
  | none => op
  | some s =>
    let buf := vec.cipherBuffList.buffs 0
    { op with
      session := some s
      bufAddr := buf.data
      bufLen := maxTBuffSize
      dataLen := buf.length.toUInt16
      pktLen := buf.length
      cipherDataLength := if cfg.inBits devId then buf.length <<< 3 else buf.length
      cipherDataOffset := 0
      iv := fun k =>
        if k < vec.cipherIv.length.toNat then
          heap.mem vec.cipherIv.data.region (vec.cipherIv.data.off + k)
        else op.iv k
      vec := j }

/-- The statistics kept for one prepared operation. -/
def Stats.prepared (s : Stats) (vec : CryptoOperation) (sess : Option SessPtr) : Stats :=
  match sess with
  | none => s
  | some _ =>
    { s with
      burstPckTotalSize := s.burstPckTotalSize + (vec.cipherBuffList.buffs 0).length
      burstTotalSize := s.burstTotalSize + 1 }

/-- `set_ops_cipher`: the operations `ops[0 … opsNb - 1]` get the first `opsNb` jobs of the
list. -/
def setOpsCipher (cfg : Config) (ch : ℕ) (devId : UInt8) (cl : Client) (heap : Heap) (vecs : Jobs)
    (devVecsIdxs : List ℕ) (opsNb : ℕ) (s : (ℕ → CryptoOp) × Stats) : (ℕ → CryptoOp) × Stats :=
  forUpTo opsNb
    (fun i s =>
      let j := devVecsIdxs.getD i 0
      let sess := getSession cfg ch (vecs j).op.sessId cl
      (Function.update s.1 i (setOpCipher cfg devId heap (vecs j) j sess (s.1 i)),
        s.2.prepared (vecs j) sess)) s

/-! ## The device calls -/

/-- An operation passing the boundary of a device. -/
structure DevEvent where
  dev : UInt8
  ticket : ℕ
  op : CryptoOp

/-- The state of a `run_jobs` call.  The last four fields record what passed between the client
and the devices and the op pool during the call. -/
structure Run where
  cl : Client
  jobs : Jobs
  heap : Heap
  enqs : List DevEvent
  deqs : List DevEvent
  taken : List ℕ
  put : List ℕ

/-- `rte_cryptodev_enqueue_burst` of which `n` operations are accepted. -/
def Run.enqueueBurst (r : Run) (dev : UInt8) (ops : ℕ → CryptoOp) (n : ℕ) : Run :=
  let q := r.cl.queues dev
  let new := (List.range n).map fun i => (q.next + i, ops i)
  { r with
    cl := { r.cl with
      queues := Function.update r.cl.queues dev ⟨q.next + n, q.queue ++ new⟩ }
    enqs := r.enqs ++ new.map fun x => ⟨dev, x.1, x.2⟩ }

/-- One operation leaves the device: it is taken from the queue and its buffer holds what the
device wrote. -/
def Run.dequeue (r : Run) (dev : UInt8) (a : Return) (op : CryptoOp) : Run :=
  let q := r.cl.queues dev
  { r with
    cl := { r.cl with
      queues := Function.update r.cl.queues dev
        ⟨q.next, q.queue.filter fun x => x.1 ≠ a.ticket⟩ }
    heap := r.heap.store op.bufAddr a.out
    deqs := r.deqs ++ [⟨dev, a.ticket, op⟩] }

/-- `rte_cryptodev_dequeue_burst`: the operations returned, and the state behind them. -/
def dequeueBurst (dev : UInt8) : List Return → Run → Option (List CryptoOp × Run)
  | [], r => some ([], r)
  | a :: as, r =>
    match (r.cl.queues dev).queue.lookup a.ticket with
    | none => none
    | some op =>
      let op := { op with status := a.status }
      (dequeueBurst dev as (r.dequeue dev a op)).map fun x => (op :: x.1, x.2)

/-! ## Collecting results: `set_ops_cipher_result` -/

/-- The body of the loop of `set_ops_cipher_result`: the status of `op` is written to job
`j`. -/
def setOpCipherResult (j : ℕ) (op : CryptoOp) (s : Jobs × Stats) : Jobs × Stats :=
  if op.status ≠ .notProcessed then
    if op.status ≠ .success then
      (Function.update s.1 j ((s.1 j).setStatus cryptoOpStatusFailed), s.2.fail .toCipher)
    else (Function.update s.1 j ((s.1 j).setStatus cryptoOpStatusSucc), s.2)
  else (s.1, s.2.fail .afterCipherNotProc)

/-- `set_ops_cipher_result`: the `i`-th operation is attributed to the job at position
`opsDeqdTotal + i` of the list. -/
def setOpsCipherResult (devVecsIdxs : List ℕ) :
    List CryptoOp → ℕ → Jobs × Stats → Jobs × Stats
  | [], _, s => s
  | op :: ops, opsDeqdTotal, s =>
    setOpsCipherResult devVecsIdxs ops (opsDeqdTotal + 1)
      (setOpCipherResult (devVecsIdxs.getD opsDeqdTotal 0) op s)

/-- Write the results and give the operations back to the pool. -/
def Run.result (r : Run) (devVecsIdxs : List ℕ) (ops : List CryptoOp) (opsDeqdTotal : ℕ) : Run :=
  let s := setOpsCipherResult devVecsIdxs ops opsDeqdTotal (r.jobs, r.cl.stats)
  { r with
    jobs := s.1
    cl := { r.cl with stats := s.2 }
    put := r.put ++ ops.map (·.addr) }

/-! ## `run_jobs_inner` -/

/-- The locals of `run_jobs_inner` that outlive a pass of its loops. -/
structure Inner where
  run : Run
  opsEnqdTotal : ℕ
  opsUnused : ℕ
  opsDeqdTotal : ℕ

/-- `burst_size`, a 16-bit number. -/
def burstSize (cfg : Config) (opsEnqdTotal devVecsSize : ℕ) : ℕ :=
  (if opsEnqdTotal + cfg.maxBurstSize.toNat ≤ devVecsSize then cfg.maxBurstSize.toNat
    else devVecsSize - opsEnqdTotal) % 2 ^ 16

/-- Subtraction of 16-bit numbers. -/
def sub16 (a b : ℕ) : ℕ := (a + 2 ^ 16 - b) % 2 ^ 16

/-- A dequeue call that asks for at most `asked` operations, and what is done with those it
returns.  Nothing happens if it returns none. -/
def collect (dev : UInt8) (devVecsIdxs : List ℕ) (asked : ℕ) (returned : List Return)
    (s : Inner) : Option Inner :=
  if asked < returned.length then none
  else
    (dequeueBurst dev returned s.run).map fun x =>
      { s with
        run := x.2.result devVecsIdxs x.1 s.opsDeqdTotal
        opsDeqdTotal := s.opsDeqdTotal + returned.length }

/-- The pool has handed out `ops`: the first `needed` of them are prepared and offered to the
device, which accepts some. -/
def Run.submit (cfg : Config) (ch : ℕ) (dev : UInt8) (devVecsIdxs : List ℕ) (ops : ℕ → CryptoOp)
    (needed accepted : ℕ) (r : Run) : Run :=
  let prepared := setOpsCipher cfg ch dev r.cl r.heap r.jobs devVecsIdxs needed (ops, r.cl.stats)
  Run.enqueueBurst
    { r with
      cl := { r.cl with stats := prepared.2 }
      taken := r.taken ++ (List.range needed).map fun i => (ops i).addr }
    dev prepared.1 accepted

/-- The body of the enqueue loop after the pool has handed out `ops`. -/
def enqueueRound (cfg : Config) (ch : ℕ) (dev : UInt8) (devVecsIdxs : List ℕ)
    (ops : ℕ → CryptoOp) (r : Round) (s : Inner) : Option Inner :=
  let burst := burstSize cfg s.opsEnqdTotal devVecsIdxs.length
  let needed := sub16 burst s.opsUnused
  if needed < r.accepted then none
  else
    collect dev devVecsIdxs needed r.returned
      { s with
        run := s.run.submit cfg ch dev devVecsIdxs ops needed r.accepted
        opsUnused := sub16 burst r.accepted
        opsEnqdTotal := s.opsEnqdTotal + r.accepted }

/-- The enqueue loop; `false` is the early return when the pool has too few operations. -/
def enqueueLoop (cfg : Config) (ch : ℕ) (dev : UInt8) (devVecsIdxs : List ℕ) :
    List Round → Inner → Option (Inner × Bool)
  | [], s => if s.opsEnqdTotal < devVecsIdxs.length then none else some (s, true)
  | r :: rs, s =>
    if s.opsEnqdTotal < devVecsIdxs.length then
      match r.pool with
      | none => if rs.isEmpty then some (s, false) else none
      | some ops =>
        match enqueueRound cfg ch dev devVecsIdxs ops r s with
        | none => none
        | some s => enqueueLoop cfg ch dev devVecsIdxs rs s
    else none

/-- What the draining loop asks for: `_opts.max_burst_size`, passed as a 16-bit number. -/
def Config.drainAsked (cfg : Config) : ℕ := cfg.maxBurstSize.toNat % 2 ^ 16

/-- The loop that dequeues what is still in the device. -/
def drainLoop (cfg : Config) (dev : UInt8) (devVecsIdxs : List ℕ) :
    List (List Return) → Inner → Option Inner
  | [], s => if s.opsDeqdTotal < devVecsIdxs.length then none else some s
  | d :: ds, s =>
    if s.opsDeqdTotal < devVecsIdxs.length then
      match collect dev devVecsIdxs cfg.drainAsked d s with
      | none => none
      | some s => drainLoop cfg dev devVecsIdxs ds s
    else none

/-- `run_jobs_inner`, and whether it returns 0. -/
def runJobsInner (cfg : Config) (ch : ℕ) (dev : UInt8) (devVecsIdxs : List ℕ)
    (script : DevScript) (run : Run) : Option (Run × Bool) :=
  match enqueueLoop cfg ch dev devVecsIdxs script.rounds ⟨run, 0, 0, 0⟩ with
  | none => none
  | some (s, false) => if script.drain.isEmpty then some (s.run, false) else none
  | some (s, true) => (drainLoop cfg dev devVecsIdxs script.drain s).map fun s => (s.run, true)

/-! ## `run_jobs` -/

/-- The loop over the device positions; the result of `run_jobs_inner` is not looked at. -/
def runDevices (cfg : Config) (ch : ℕ) (script : ℕ → DevScript) (idxs : ℕ → List ℕ) :
    ℕ → Run → Option Run
  | 0, r => some r
  | n + 1, r =>
    (runDevices cfg ch script idxs n r).bind fun r =>
      if idxs n = [] then some r
      else
        (runJobsInner cfg ch (cfg.enabledCdevs n).cdevId (idxs n) (script n) r).map (·.1)

/-- The averages kept at the end of a burst. -/
def Stats.finishBurst (s : Stats) : Stats :=
  let runJobsCnt := s.runJobsCnt + 1
  let opProcessed := s.opProcessed + s.burstTotalSize.toUInt64
  let pckAvgSizeBurst :=
    if s.burstTotalSize ≠ 0 then s.burstPckTotalSize / s.burstTotalSize else 0
  { s with
    runJobsCnt
    opProcessed
    burstAvgSize := (opProcessed / runJobsCnt).toUInt32
    pckAvgSize := (s.pckAvgSize + pckAvgSizeBurst) / 2 }

/-- `preprocess_jobs` as `run_jobs` calls it, on zeroed burst statistics and empty lists. -/
def sortJobs (cfg : Config) (heap : Heap) (ch : ℕ) (script : Script) (jobs : Jobs) (size : ℕ)
    (cl : Client) : Burst :=
  preprocessJobs cfg heap ch script.sess size
    ⟨{ cl with stats := { cl.stats with burstPckTotalSize := 0, burstTotalSize := 0 } }, jobs,
      fun _ => []⟩

/-- The state in which the device loop starts. -/
def Burst.start (b : Burst) (heap : Heap) : Run :=
  { cl := b.cl, jobs := b.jobs, heap, enqs := [], deqs := [], taken := [], put := [] }

/-- The end of `run_jobs`, after the device loop. -/
def finishJobs (cfg : Config) (ch : ℕ) (script : Script) (size : ℕ) (r : Run) : Run :=
  let s := postprocessJobs cfg ch (fun i => (script.sess i).release) size (r.cl, r.jobs)
  { r with cl := { s.1 with stats := s.1.stats.finishBurst }, jobs := s.2 }

/-- `run_jobs`.  The source also bounds the device loop by `RTE_CRYPTO_MAX_DEVS`, which is above
the number of devices that are ever enabled. -/
def runJobs (cfg : Config) (ch : ℕ) (script : Script) (heap : Heap) (jobs : Jobs) (size : ℕ)
    (cl : Client) : Option Run :=
  if size = 0 then some { cl, jobs, heap, enqs := [], deqs := [], taken := [], put := [] }
  else
    let b := sortJobs cfg heap ch script jobs size cl
    (runDevices cfg ch script.dev b.idxs cfg.nbCryptodevs (b.start heap)).map
      (finishJobs cfg ch script size)

end CiphApp
