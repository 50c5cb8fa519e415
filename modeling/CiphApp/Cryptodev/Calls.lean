import CiphApp.Cryptodev.Served

/-!
# The calls of a burst

`run_jobs_inner` hands the jobs of a device to `set_ops_cipher` burst by burst, and what comes back
to `set_ops_cipher_result`.  This file lists these calls with their arguments, in the order in
which they are made (`runJobsInnerCalls`, `BurstCall.deviceCalls`), for statements about what
happens *inside* the two functions: which table entries they touch, and which failures they count.

The list follows a script as far as it is an execution.  So a call of `run_jobs` that never returns
is covered by the finite scripts of its beginnings.

`Inner.Counted` bounds the arguments: no more operations are prepared or returned than fit on the
index list of the device, as long as the device did not hold too many at the start.
-/

namespace CiphApp

open Lib

/-- A call of `set_ops_cipher` or of `set_ops_cipher_result`. -/
inductive InnerCall
  | setOpsCipher (devId : UInt8) (cl : Client) (vecs : Jobs) (devVecsIdxs : List ℕ) (opsNb : ℕ)
  | setOpsCipherResult (devVecsIdxs : List ℕ) (ops : List CryptoOp) (opsDeqdTotal : ℕ)

/-- The call made for what a dequeue call returns. -/
def collectCalls (dev : UInt8) (devVecsIdxs : List ℕ) (asked : ℕ) (returned : List Return)
    (s : Inner) : List InnerCall :=
  if asked < returned.length then []
  else
    match dequeueBurst dev returned s.run with
    | none => []
    | some x => [.setOpsCipherResult devVecsIdxs x.1 s.opsDeqdTotal]

/-- The calls of a pass of the enqueue loop. -/
def enqueueRoundCalls (cfg : Config) (ch : ℕ) (dev : UInt8) (devVecsIdxs : List ℕ)
    (ops : ℕ → CryptoOp) (r : Round) (s : Inner) : List InnerCall :=
  let burst := burstSize cfg s.opsEnqdTotal devVecsIdxs.length
  let needed := sub16 burst s.opsUnused
  .setOpsCipher dev s.run.cl s.run.jobs devVecsIdxs needed ::
    if needed < r.accepted then []
    else
      collectCalls dev devVecsIdxs needed r.returned
        { s with
          run := s.run.submit cfg ch dev devVecsIdxs ops needed r.accepted
          opsUnused := sub16 burst r.accepted
          opsEnqdTotal := s.opsEnqdTotal + r.accepted }

/-- The calls of the enqueue loop. -/
def enqueueLoopCalls (cfg : Config) (ch : ℕ) (dev : UInt8) (devVecsIdxs : List ℕ) :
    List Round → Inner → List InnerCall
  | [], _ => []
  | r :: rs, s =>
    if s.opsEnqdTotal < devVecsIdxs.length then
      match r.pool with
      | none => []
      | some ops =>
        enqueueRoundCalls cfg ch dev devVecsIdxs ops r s ++
          match enqueueRound cfg ch dev devVecsIdxs ops r s with
          | none => []
          | some s => enqueueLoopCalls cfg ch dev devVecsIdxs rs s
    else []

/-- The calls of the draining loop. -/
def drainLoopCalls (cfg : Config) (dev : UInt8) (devVecsIdxs : List ℕ) :
    List (List Return) → Inner → List InnerCall
  | [], _ => []
  | d :: ds, s =>
    if s.opsDeqdTotal < devVecsIdxs.length then
      collectCalls dev devVecsIdxs cfg.drainAsked d s ++
        match collect dev devVecsIdxs cfg.drainAsked d s with
        | none => []
        | some s => drainLoopCalls cfg dev devVecsIdxs ds s
    else []

/-- The calls of `run_jobs_inner`. -/
def runJobsInnerCalls (cfg : Config) (ch : ℕ) (dev : UInt8) (devVecsIdxs : List ℕ)
    (script : DevScript) (run : Run) : List InnerCall :=
  enqueueLoopCalls cfg ch dev devVecsIdxs script.rounds ⟨run, 0, 0, 0⟩ ++
    match enqueueLoop cfg ch dev devVecsIdxs script.rounds ⟨run, 0, 0, 0⟩ with
    | none => []
    | some (_, false) => []
    | some (s, true) => drainLoopCalls cfg dev devVecsIdxs script.drain s

/-- The calls of the device loop up to a device position. -/
def runDevicesCalls (cfg : Config) (ch : ℕ) (script : ℕ → DevScript) (idxs : ℕ → List ℕ) :
    ℕ → Run → List InnerCall
  | 0, _ => []
  | n + 1, r =>
    runDevicesCalls cfg ch script idxs n r ++
      match runDevices cfg ch script idxs n r with
      | none => []
      | some r =>
        if idxs n = [] then []
        else runJobsInnerCalls cfg ch (cfg.enabledCdevs n).cdevId (idxs n) (script n) r

/-- **The calls of a burst.** -/
def BurstCall.deviceCalls (x : BurstCall) (cfg : Config) (cl : Client) : List InnerCall :=
  runDevicesCalls cfg x.ch x.script.dev (x.sorted cfg cl).idxs cfg.nbCryptodevs
    ((x.sorted cfg cl).start x.heap)

/-! ## The arguments of the calls -/

section Counted

variable {cfg : Config} {ch : ℕ} {dev : UInt8} {idxs : List ℕ}

/-- A dequeue call hands on the statuses it was given, takes the operations out of the queue, and
counts nothing. -/
lemma dequeueBurst_statuses {as : List Return} {r r' : Run} {ops : List CryptoOp}
    (h : dequeueBurst dev as r = some (ops, r')) :
    ops.map (·.status) = as.map (·.status) ∧
      (r'.cl.queues dev).queue.length + as.length ≤ (r.cl.queues dev).queue.length ∧
      r'.cl.stats = r.cl.stats := by
  induction as generalizing r ops with
  | nil =>
      simp only [dequeueBurst, Option.some.injEq, Prod.mk.injEq] at h
      obtain ⟨rfl, rfl⟩ := h
      exact ⟨rfl, le_rfl, rfl⟩
  | cons a as ih =>
      rw [dequeueBurst] at h
      split at h
      · simp at h
      · rename_i op hop
        obtain ⟨⟨ops', r''⟩, hx, heq⟩ := Option.map_eq_some_iff.mp h
        obtain rfl : _ :: ops' = ops := congrArg Prod.fst heq
        obtain rfl : r'' = r' := congrArg Prod.snd heq
        obtain ⟨hstatus, hle, hstats⟩ := ih hx
        have hlt : ((r.cl.queues dev).queue.filter fun x => x.1 ≠ a.ticket).length <
            (r.cl.queues dev).queue.length :=
          List.length_filter_lt_length_iff_exists.mpr ⟨_, mem_of_lookup hop, by simp⟩
        have hqueue : ((r.dequeue dev a { op with status := a.status }).cl.queues dev).queue =
            (r.cl.queues dev).queue.filter fun x => x.1 ≠ a.ticket := by
          simp [Run.dequeue]
        rw [hqueue] at hle
        refine ⟨by simp [hstatus], ?_, hstats⟩
        rw [List.length_cons]
        omega

lemma dequeueBurst_length {as : List Return} {r r' : Run} {ops : List CryptoOp}
    (h : dequeueBurst dev as r = some (ops, r')) : ops.length = as.length := by
  simpa using congrArg List.length (dequeueBurst_statuses h).1

/-- **The counts of `run_jobs_inner`** on a list of `n` jobs, for a device that held `held`
operations: no more operations are accepted than there are jobs, and no more come back than the
device held and accepted. -/
structure Inner.Counted (cfg : Config) (dev : UInt8) (n held : ℕ) (s : Inner) : Prop where
  enqd_le : s.opsEnqdTotal ≤ n
  unused : s.UnusedFit cfg n
  deqd : s.opsDeqdTotal + (s.run.cl.queues dev).queue.length ≤ held + s.opsEnqdTotal

variable {n held : ℕ} {s : Inner}

lemma Inner.Counted.start (cfg : Config) (dev : UInt8) (n : ℕ) (r : Run) :
    Inner.Counted cfg dev n (r.cl.queues dev).queue.length ⟨r, 0, 0, 0⟩ where
  enqd_le := Nat.zero_le n
  unused := fun _ => Nat.zero_le _
  deqd := by simp

lemma Inner.Counted.submit (hn : idxs.length < 2 ^ 16)
    (h : s.Counted cfg dev idxs.length held) (ops : ℕ → CryptoOp) {accepted : ℕ}
    (hacc : accepted ≤ sub16 (burstSize cfg s.opsEnqdTotal idxs.length) s.opsUnused) :
    Inner.Counted cfg dev idxs.length held
      { s with
        run := s.run.submit cfg ch dev idxs ops
          (sub16 (burstSize cfg s.opsEnqdTotal idxs.length) s.opsUnused) accepted
        opsUnused := sub16 (burstSize cfg s.opsEnqdTotal idxs.length) accepted
        opsEnqdTotal := s.opsEnqdTotal + accepted } := by
  have hle := h.enqd_le
  have hdeqd := h.deqd
  have hneed := hacc
  rw [h.unused.needed_eq hn] at hneed
  refine ⟨?_, fun _ => ?_, ?_⟩
  · show s.opsEnqdTotal + accepted ≤ idxs.length
    omega
  · show sub16 (burstSize cfg s.opsEnqdTotal idxs.length) accepted ≤
      min cfg.maxBurstSize.toNat (idxs.length - (s.opsEnqdTotal + accepted))
    rw [h.unused.unused_eq hn hacc]
    omega
  · have hqueue := congrArg (fun q => (q dev).queue.length)
      (queues_submit cfg ch dev idxs ops s.run hacc)
    simp only [Function.update_self, List.length_append, List.length_mapIdx] at hqueue
    simp only [hqueue, preparedOps, List.length_map, List.length_range]
    omega

lemma Inner.Counted.collect (h : s.Counted cfg dev n held) {asked : ℕ} {as : List Return}
    {s' : Inner} (hc : collect dev idxs asked as s = some s') : s'.Counted cfg dev n held := by
  unfold CiphApp.collect at hc
  split_ifs at hc
  obtain ⟨⟨ops, r⟩, hx, rfl⟩ := Option.map_eq_some_iff.mp hc
  obtain ⟨-, hle, -⟩ := dequeueBurst_statuses hx
  have hdeqd := h.deqd
  refine ⟨h.enqd_le, h.unused, ?_⟩
  show s.opsDeqdTotal + as.length + (r.cl.queues dev).queue.length ≤ held + s.opsEnqdTotal
  omega

lemma Inner.Counted.enqueueRound (hn : idxs.length < 2 ^ 16)
    (h : s.Counted cfg dev idxs.length held) {ops : ℕ → CryptoOp} {r : Round} {s' : Inner}
    (hr : enqueueRound cfg ch dev idxs ops r s = some s') :
    s'.Counted cfg dev idxs.length held := by
  simp only [CiphApp.enqueueRound] at hr
  split_ifs at hr with hacc
  exact (h.submit hn ops (not_lt.mp hacc)).collect hr

lemma Inner.Counted.enqueueLoop (hn : idxs.length < 2 ^ 16)
    (h : s.Counted cfg dev idxs.length held) {rs : List Round} {s' : Inner} {ok : Bool}
    (hl : enqueueLoop cfg ch dev idxs rs s = some (s', ok)) :
    s'.Counted cfg dev idxs.length held := by
  induction rs generalizing s with
  | nil =>
      obtain ⟨-, rfl, -⟩ := enqueueLoop_nil hl
      exact h
  | cons r rs ih =>
      obtain ⟨-, ⟨-, -, rfl, -⟩ | ⟨ops, s1, -, hs1, hrest⟩⟩ := enqueueLoop_cons hl
      · exact h
      · exact ih (h.enqueueRound hn hs1) hrest

end Counted

/-! ## What the calls have in common -/

/-- `Q` holds of every call `run_jobs_inner` can make on a list of jobs, for a device that held
`held` operations. -/
structure CallRule (cfg : Config) (dev : UInt8) (idxs : List ℕ) (held : ℕ)
    (Q : InnerCall → Prop) : Prop where
  prepare : ∀ cl vecs needed, needed ≤ idxs.length →
    Q (.setOpsCipher dev cl vecs idxs needed)
  result : ∀ ops deqd, deqd + ops.length ≤ held + idxs.length →
    Q (.setOpsCipherResult idxs ops deqd)

section CallRule

variable {cfg : Config} {ch : ℕ} {dev : UInt8} {idxs : List ℕ} {held : ℕ} {Q : InnerCall → Prop}
  {s : Inner}

lemma CallRule.collect (hQ : CallRule cfg dev idxs held Q)
    (h : s.Counted cfg dev idxs.length held) (asked : ℕ) (as : List Return) :
    ∀ c ∈ collectCalls dev idxs asked as s, Q c := by
  unfold collectCalls
  split_ifs
  · simp
  · split
    · simp
    · rename_i x hx
      obtain ⟨ops, r⟩ := x
      have hlen := dequeueBurst_length hx
      obtain ⟨-, hle, -⟩ := dequeueBurst_statuses hx
      have henqd := h.enqd_le
      have hdeqd := h.deqd
      simpa using hQ.result ops s.opsDeqdTotal (by omega)

lemma CallRule.enqueueRound (hQ : CallRule cfg dev idxs held Q) (hn : idxs.length < 2 ^ 16)
    (h : s.Counted cfg dev idxs.length held) (ops : ℕ → CryptoOp) (r : Round) :
    ∀ c ∈ enqueueRoundCalls cfg ch dev idxs ops r s, Q c := by
  have hneed := h.unused.needed_eq hn
  unfold enqueueRoundCalls
  refine List.forall_mem_cons.mpr ⟨hQ.prepare _ _ _ (by omega), ?_⟩
  split_ifs with hacc
  · simp
  · exact hQ.collect (h.submit hn ops (not_lt.mp hacc)) _ _

lemma CallRule.enqueueLoop (hQ : CallRule cfg dev idxs held Q) (hn : idxs.length < 2 ^ 16)
    (h : s.Counted cfg dev idxs.length held) (rs : List Round) :
    ∀ c ∈ enqueueLoopCalls cfg ch dev idxs rs s, Q c := by
  induction rs generalizing s with
  | nil => simp [enqueueLoopCalls]
  | cons r rs ih =>
      rw [enqueueLoopCalls]
      split_ifs
      · cases r.pool with
        | none => simp
        | some ops =>
            refine List.forall_mem_append.mpr ⟨hQ.enqueueRound hn h ops r, ?_⟩
            split
            · simp
            · rename_i s1 hs1
              exact ih (h.enqueueRound hn hs1)
      · simp

lemma CallRule.drainLoop (hQ : CallRule cfg dev idxs held Q)
    (h : s.Counted cfg dev idxs.length held) (ds : List (List Return)) :
    ∀ c ∈ drainLoopCalls cfg dev idxs ds s, Q c := by
  induction ds generalizing s with
  | nil => simp [drainLoopCalls]
  | cons d ds ih =>
      rw [drainLoopCalls]
      split_ifs
      · refine List.forall_mem_append.mpr ⟨hQ.collect h _ d, ?_⟩
        split
        · simp
        · rename_i s1 hs1
          exact ih (h.collect hs1)
      · simp

/-- **The rule for `run_jobs_inner`.** -/
lemma CallRule.runJobsInner {r : Run}
    (hQ : CallRule cfg dev idxs (r.cl.queues dev).queue.length Q) (hn : idxs.length < 2 ^ 16)
    (script : DevScript) : ∀ c ∈ runJobsInnerCalls cfg ch dev idxs script r, Q c := by
  have h0 := Inner.Counted.start cfg dev idxs.length r
  unfold runJobsInnerCalls
  refine List.forall_mem_append.mpr ⟨hQ.enqueueLoop hn h0 _, ?_⟩
  split
  · simp
  · simp
  · rename_i s hs
    exact hQ.drainLoop (h0.enqueueLoop hn hs) _

/-- The device loop does not touch a device that is not among the positions it has done. -/
lemma runDevices_queues_of_ne {script : ℕ → DevScript} {idxs : ℕ → List ℕ} {N : ℕ} {r r' : Run}
    (h : runDevices cfg ch script idxs N r = some r')
    (hne : ∀ d < N, dev ≠ (cfg.enabledCdevs d).cdevId) : r'.cl.queues dev = r.cl.queues dev :=
  runDevices_induct (Q := fun t => t.cl.queues dev = r.cl.queues dev)
    (fun d hd _ _ hs ht => (hs.queues_of_ne (hne d hd)).trans ht) h rfl

/-- **The rule for the device loop**, for devices with different ids. -/
lemma CallRule.runDevices {script : ℕ → DevScript} {idxs : ℕ → List ℕ} {N : ℕ} {r : Run}
    (hne : ∀ d' < N, ∀ d < d', (cfg.enabledCdevs d').cdevId ≠ (cfg.enabledCdevs d).cdevId)
    (hQ : ∀ d < N, CallRule cfg (cfg.enabledCdevs d).cdevId (idxs d)
      (r.cl.queues (cfg.enabledCdevs d).cdevId).queue.length Q)
    (hn : ∀ d < N, (idxs d).length < 2 ^ 16) :
    ∀ c ∈ runDevicesCalls cfg ch script idxs N r, Q c := by
  induction N with
  | zero => simp [runDevicesCalls]
  | succ N ih =>
      rw [runDevicesCalls]
      refine List.forall_mem_append.mpr ⟨ih (fun d' hd' => hne d' (by omega))
        (fun d hd => hQ d (by omega)) fun d hd => hn d (by omega), ?_⟩
      have hQN := hQ N (by omega)
      split
      · simp
      · rename_i r1 hr1
        split_ifs
        · simp
        · rw [← runDevices_queues_of_ne hr1 (hne N (by omega))] at hQN
          exact hQN.runJobsInner (hn N (by omega)) (script N)

end CallRule

end CiphApp
