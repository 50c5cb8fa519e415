import CiphApp.Lib.Ledger
import CiphApp.Cryptodev.Calls
import CiphApp.Cryptodev.FailedJobs

/-!
# Failure accounting

`STATS_OP_FAILED` is used at eight places in the three passes of `run_jobs`, each with a counter of
its own, and every use also raises `op_failed_total`.  This file writes down the uses of one burst
as a ledger (`Lib.Entry`): which counter, and for which job.

* `run_accounts`: the counters are the column sums of the ledger, in every run.
* `Pass`: `preprocess_jobs` enters a job once if it leaves it failed, and not otherwise; so does
  `postprocess_jobs` for a close.
* `failure_accounting_iff`: on idle devices each failed job is counted once and nothing else is
  counted, if and only if no close came in as failed and no operation came back as not processed.
  The first is counted on entry and then decided again; of the second the failure is counted, but
  not written to the job.
-/

namespace CiphApp

open Lib

/-! ## The ledger of a burst -/

/-- One use of `STATS_OP_FAILED`: the job it is for and the counter. -/
abbrev Failure := Entry ℕ OpFailed

/-- The uses in one pass of `preprocess_jobs`. -/
def preprocessJobFailures (cfg : Config) (heap : Heap) (ch : ℕ) (ans : SessAns) (i : ℕ)
    (b : Burst) : List Failure :=
  let job := b.jobs i
  if job.op.opStatus = cryptoOpStatusFailed then [⟨i, .inAgent⟩]
  else if job.op.opType = cryptoOpTypeSessCreate then
    match (createSession cfg heap ch job ans b.cl).2 with
    | some _ => []
    | none => [⟨i, .createSess⟩]
  else if job.op.opType = cryptoOpTypeSessClose then []
  else if job.op.opType = cryptoOpTypeSessCiphering then
    match getSession cfg ch job.op.sessId b.cl with
    | none => [⟨i, .getSess⟩]
    | some _ =>
      if sessCdevId job.op.sessId < cfg.nbCryptodevs then [] else [⟨i, .invalidCdev⟩]
  else [⟨i, .opTypeUnk⟩]

/-- The uses in one pass of `set_ops_cipher_result`. -/
def setOpCipherResultFailures (j : ℕ) (status : RteStatus) : List Failure :=
  if status ≠ .notProcessed then if status ≠ .success then [⟨j, .toCipher⟩] else []
  else [⟨j, .afterCipherNotProc⟩]

/-- The uses in `set_ops_cipher_result`, from the statuses of its operations. -/
def setOpsCipherResultFailures (devVecsIdxs : List ℕ) : List RteStatus → ℕ → List Failure
  | [], _ => []
  | status :: statuses, opsDeqdTotal =>
    setOpCipherResultFailures (devVecsIdxs.getD opsDeqdTotal 0) status ++
      setOpsCipherResultFailures devVecsIdxs statuses (opsDeqdTotal + 1)

/-- The uses in a call made by `run_jobs_inner`. -/
def InnerCall.failures : InnerCall → List Failure
  | .setOpsCipher _ _ _ _ _ => []
  | .setOpsCipherResult devVecsIdxs ops opsDeqdTotal =>
    setOpsCipherResultFailures devVecsIdxs (ops.map (·.status)) opsDeqdTotal

/-- The uses in one pass of `postprocess_jobs`. -/
def postprocessJobFailures (cfg : Config) (ch : ℕ) (ans : ReleaseAns) (i : ℕ)
    (s : Client × Jobs) : List Failure :=
  if (s.2 i).op.opType = cryptoOpTypeSessClose then
    match (removeSession cfg ch (s.2 i).op.sessId ans s.1).2 with
    | true => []
    | false => [⟨i, .removeSession⟩]
  else []

/-- The uses in `preprocess_jobs`. -/
def BurstCall.preprocessFailures (x : BurstCall) (cfg : Config) (cl : Client) : List Failure :=
  (List.range x.size).flatMap fun i =>
    preprocessJobFailures cfg x.heap x.ch (x.script.sess i) i (x.scan cfg cl i)

/-- The uses in `postprocess_jobs`, after the device loop ended in `r₂`. -/
def BurstCall.postprocessFailures (x : BurstCall) (cfg : Config) (r₂ : Run) : List Failure :=
  (List.range x.size).flatMap fun i =>
    postprocessJobFailures cfg x.ch (x.script.sess i).release i (x.closing cfg r₂ i)

/-- **The uses of `STATS_OP_FAILED` in a burst**, in order. -/
def BurstCall.failures (x : BurstCall) (cfg : Config) (cl : Client) : List Failure :=
  if x.size = 0 then []
  else
    x.preprocessFailures cfg cl ++ (x.deviceCalls cfg cl).flatMap (·.failures) ++
      match x.devicePhase cfg cl with
      | none => []
      | some r₂ => x.postprocessFailures cfg r₂

/-! ## The counters are the sums of the ledger -/

instance : Fintype OpFailed where
  elems := {.createSess, .getSess, .invalidCdev, .removeSession, .inAgent, .opTypeUnk, .toCipher,
    .afterCipherNotProc}
  complete := fun k => by cases k <;> decide

/-- **From `s` to `s'` the counters went up by the entries `L`.** -/
structure Stats.Accounts (s : Stats) (L : List Failure) (s' : Stats) : Prop where
  total : s'.opFailedTotal = s.opFailedTotal + UInt64.ofNat L.length
  counter : ∀ k, s'.opFailed k = s.opFailed k + UInt64.ofNat (posted L k)

namespace Stats.Accounts

variable {s s' s'' : Stats} {L L' : List Failure}

lemma of_eq (htotal : s'.opFailedTotal = s.opFailedTotal) (hcounter : s'.opFailed = s.opFailed) :
    s.Accounts [] s' where
  total := by simp [htotal]
  counter := fun k => by simp [hcounter, posted]

lemma fail (s : Stats) (j : ℕ) (k : OpFailed) : s.Accounts [⟨j, k⟩] (s.fail k) where
  total := rfl
  counter := fun k' => by
    by_cases hk : k' = k
    · subst hk
      simp [Stats.fail, posted]
    · simp [Stats.fail, posted, Function.update_of_ne hk, Ne.symm hk]

lemma trans (h : s.Accounts L s') (h' : s'.Accounts L' s'') : s.Accounts (L ++ L') s'' where
  total := by rw [h'.total, h.total, List.length_append, UInt64.ofNat_add, add_assoc]
  counter := fun k => by
    rw [h'.counter, h.counter, posted_append, UInt64.ofNat_add, add_assoc]

/-- **The rule for loops.** -/
lemma forUpTo {σ : Type} (π : σ → Stats) (body : ℕ → σ → σ) (f : ℕ → σ → List Failure)
    (h : ∀ i t, (π t).Accounts (f i t) (π (body i t))) (n : ℕ) (t : σ) :
    (π t).Accounts ((List.range n).flatMap fun i => f i (Lib.forUpTo i body t))
      (π (Lib.forUpTo n body t)) := by
  induction n with
  | zero => exact of_eq rfl rfl
  | succ n ih =>
      rw [List.range_succ, List.flatMap_append, List.flatMap_singleton]
      exact ih.trans (h n _)

end Stats.Accounts

/-! ### One pass over a job -/

/-- **A pass over job `i`** left it with `status`: either it is failed and was counted once, or it
is not and was not counted. -/
inductive Pass (i : ℕ) (s : Stats) : List Failure → Stats → UInt32 → Prop
  | failed (k : OpFailed) : Pass i s [⟨i, k⟩] (s.fail k) cryptoOpStatusFailed
  | passed (status : UInt32) (h : status ≠ cryptoOpStatusFailed) : Pass i s [] s status

section Pass

variable {i : ℕ} {s s' : Stats} {L : List Failure} {status : UInt32}

lemma Pass.accounts (h : Pass i s L s' status) : s.Accounts L s' := by
  cases h with
  | failed k => exact .fail s i k
  | passed => exact .of_eq rfl rfl

lemma Pass.length (h : Pass i s L s' status) :
    L.length = if status = cryptoOpStatusFailed then 1 else 0 := by
  cases h with
  | failed k => rfl
  | passed _ h => rw [if_neg h]; rfl

lemma Pass.item (h : Pass i s L s' status) : ∀ e ∈ L, e.item = i := by
  cases h with
  | failed k => simp
  | passed => simp

lemma Pass.fail {b : Burst} {job : CryptoOperation} (hs : b.cl.stats = s) (k : OpFailed)
    (hjob : job.op.opStatus = cryptoOpStatusFailed) :
    Pass i s [⟨i, k⟩] ((b.setJob i job).fail k).cl.stats
      (((b.setJob i job).fail k).jobs i).op.opStatus := by
  have hset : ((b.setJob i job).fail k).jobs i = job := by simp [Burst.setJob, Burst.fail]
  rw [hset, hjob, ← hs]
  exact .failed k

lemma Pass.setJob {b : Burst} {job : CryptoOperation} (hs : b.cl.stats = s)
    (hjob : job.op.opStatus ≠ cryptoOpStatusFailed) :
    Pass i s [] (b.setJob i job).cl.stats ((b.setJob i job).jobs i).op.opStatus := by
  have hset : (b.setJob i job).jobs i = job := by simp [Burst.setJob]
  rw [hset, ← hs]
  exact .passed _ hjob

end Pass

lemma createSession_stats (cfg : Config) (heap : Heap) (ch : ℕ) (vec : CryptoOperation)
    (ans : SessAns) (cl : Client) : (createSession cfg heap ch vec ans cl).1.stats = cl.stats := by
  obtain ⟨p, -, heq⟩ | ⟨s, slot, -, -, -, -, heq⟩ := createSession_cases cfg heap ch vec ans cl
  · rw [heq]
  · rw [heq]
    rfl

lemma preprocessJob_pass (cfg : Config) (heap : Heap) (ch : ℕ) (ans : SessAns) (i : ℕ)
    (b : Burst) :
    Pass i b.cl.stats (preprocessJobFailures cfg heap ch ans i b)
      (preprocessJob cfg heap ch ans i b).cl.stats
      ((preprocessJob cfg heap ch ans i b).jobs i).op.opStatus := by
  unfold preprocessJob preprocessJobFailures
  by_cases hs : (b.jobs i).op.opStatus = cryptoOpStatusFailed
  · simp only [if_pos hs]
    exact .fail rfl .inAgent hs
  simp only [if_neg hs]
  by_cases h1 : (b.jobs i).op.opType = cryptoOpTypeSessCreate
  · simp only [if_pos h1]
    have hstats := createSession_stats cfg heap ch (b.jobs i) ans b.cl
    generalize createSession cfg heap ch (b.jobs i) ans b.cl = res at hstats
    obtain ⟨cl, sessId⟩ := res
    obtain rfl | ⟨id, rfl⟩ := Option.eq_none_or_eq_some sessId
    · exact .fail hstats .createSess rfl
    · exact .setJob hstats succ_ne_failed
  simp only [if_neg h1]
  by_cases h2 : (b.jobs i).op.opType = cryptoOpTypeSessClose
  · simp only [if_pos h2]
    exact .passed _ hs
  simp only [if_neg h2]
  by_cases h0 : (b.jobs i).op.opType = cryptoOpTypeSessCiphering
  · simp only [if_pos h0]
    rcases getSession cfg ch (b.jobs i).op.sessId b.cl with _ | s
    · exact .fail rfl .getSess rfl
    · by_cases hd : sessCdevId (b.jobs i).op.sessId < cfg.nbCryptodevs
      · simp only [if_pos hd]
        exact .setJob rfl succ_ne_failed
      · simp only [if_neg hd]
        exact .fail rfl .invalidCdev rfl
  · simp only [if_neg h0]
    exact .fail rfl .opTypeUnk rfl

lemma postprocessJob_pass {cfg : Config} {ch : ℕ} {ans : ReleaseAns} {i : ℕ} {s : Client × Jobs}
    (ht : (s.2 i).op.opType = cryptoOpTypeSessClose) :
    Pass i s.1.stats (postprocessJobFailures cfg ch ans i s)
      (postprocessJob cfg ch ans i s).1.stats
      ((postprocessJob cfg ch ans i s).2 i).op.opStatus := by
  unfold postprocessJob postprocessJobFailures
  simp only [if_pos ht]
  have hstats : (removeSession cfg ch (s.2 i).op.sessId ans s.1).1.stats = s.1.stats := by
    unfold removeSession releaseSlot
    split_ifs
    · split <;> rfl
    · rfl
  generalize removeSession cfg ch (s.2 i).op.sessId ans s.1 = res at hstats
  obtain ⟨cl, removed⟩ := res
  change cl.stats = s.1.stats at hstats
  cases removed with
  | false =>
      simpa [CryptoOperation.setStatus, hstats]
        using Pass.failed (i := i) (s := s.1.stats) .removeSession
  | true =>
      simpa [CryptoOperation.setStatus, hstats]
        using Pass.passed (i := i) (s := s.1.stats) cryptoOpStatusSucc (by decide)

lemma postprocessJob_accounts (cfg : Config) (ch : ℕ) (ans : ReleaseAns) (i : ℕ)
    (s : Client × Jobs) :
    s.1.stats.Accounts (postprocessJobFailures cfg ch ans i s)
      (postprocessJob cfg ch ans i s).1.stats := by
  by_cases ht : (s.2 i).op.opType = cryptoOpTypeSessClose
  · exact (postprocessJob_pass ht).accounts
  · unfold postprocessJob postprocessJobFailures
    simp only [if_neg ht]
    exact .of_eq rfl rfl

/-! ### The device calls -/

section Devices

variable {cfg : Config} {ch : ℕ} {dev : UInt8} {idxs : List ℕ}

lemma setOpCipherResult_accounts (j : ℕ) (op : CryptoOp) (s : Jobs × Stats) :
    s.2.Accounts (setOpCipherResultFailures j op.status) (setOpCipherResult j op s).2 := by
  unfold setOpCipherResult setOpCipherResultFailures
  split_ifs
  · exact .fail _ _ _
  · exact .of_eq rfl rfl
  · exact .fail _ _ _

lemma setOpsCipherResult_accounts (ops : List CryptoOp) (k : ℕ) (s : Jobs × Stats) :
    s.2.Accounts (setOpsCipherResultFailures idxs (ops.map (·.status)) k)
      (setOpsCipherResult idxs ops k s).2 := by
  induction ops generalizing k s with
  | nil => exact .of_eq rfl rfl
  | cons op ops ih => exact (setOpCipherResult_accounts _ op s).trans (ih (k + 1) _)

lemma Stats.prepared_counters (s : Stats) (vec : CryptoOperation) (sess : Option SessPtr) :
    (s.prepared vec sess).opFailedTotal = s.opFailedTotal ∧
      (s.prepared vec sess).opFailed = s.opFailed := by
  cases sess <;> exact ⟨rfl, rfl⟩

lemma submit_accounts (ops : ℕ → CryptoOp) (needed accepted : ℕ) (r : Run) :
    r.cl.stats.Accounts [] (r.submit cfg ch dev idxs ops needed accepted).cl.stats :=
  .of_eq
    (forUpTo_frame (fun t : (ℕ → CryptoOp) × Stats => t.2.opFailedTotal)
      fun _ t _ => (t.2.prepared_counters _ _).1)
    (forUpTo_frame (fun t : (ℕ → CryptoOp) × Stats => t.2.opFailed)
      fun _ t _ => (t.2.prepared_counters _ _).2)

lemma setOpsCipherResultFailures_append (as bs : List RteStatus) (k : ℕ) :
    setOpsCipherResultFailures idxs (as ++ bs) k =
      setOpsCipherResultFailures idxs as k ++
        setOpsCipherResultFailures idxs bs (k + as.length) := by
  induction as generalizing k with
  | nil => rfl
  | cons a as ih =>
      rw [List.cons_append, setOpsCipherResultFailures, ih, setOpsCipherResultFailures,
        List.append_assoc, List.length_cons, Nat.add_right_comm k 1]
      rfl

/-- **What was counted** between two states of `run_jobs_inner`, while the calls `C` were made and
the operations `R` came back. -/
structure Inner.Logged (idxs : List ℕ) (s : Inner) (R : List Return) (C : List InnerCall)
    (s' : Inner) : Prop where
  deqd : s'.opsDeqdTotal = s.opsDeqdTotal + R.length
  failures : C.flatMap (·.failures) =
    setOpsCipherResultFailures idxs (R.map (·.status)) s.opsDeqdTotal
  accounts : s.run.cl.stats.Accounts (C.flatMap (·.failures)) s'.run.cl.stats

variable {s s' s'' : Inner} {R R' : List Return} {C C' : List InnerCall}

lemma Inner.Logged.refl (idxs : List ℕ) (s : Inner) : s.Logged idxs [] [] s :=
  ⟨rfl, rfl, .of_eq rfl rfl⟩

lemma Inner.Logged.trans (h : s.Logged idxs R C s') (h' : s'.Logged idxs R' C' s'') :
    s.Logged idxs (R ++ R') (C ++ C') s'' where
  deqd := by rw [h'.deqd, h.deqd, List.length_append, Nat.add_assoc]
  failures := by
    rw [List.flatMap_append, h.failures, h'.failures, h.deqd, List.map_append,
      setOpsCipherResultFailures_append, List.length_map]
  accounts := by
    rw [List.flatMap_append]
    exact h.accounts.trans h'.accounts

lemma collect_logged {asked : ℕ} {as : List Return} (hc : collect dev idxs asked as s = some s') :
    s.Logged idxs as (collectCalls dev idxs asked as s) s' := by
  unfold collect at hc
  unfold collectCalls
  split_ifs at hc ⊢
  obtain ⟨⟨ops, r⟩, hx, rfl⟩ := Option.map_eq_some_iff.mp hc
  obtain ⟨hstatus, -, hstats⟩ := dequeueBurst_statuses hx
  rw [hx]
  have hfail : [InnerCall.setOpsCipherResult idxs ops s.opsDeqdTotal].flatMap (·.failures) =
      setOpsCipherResultFailures idxs (as.map (·.status)) s.opsDeqdTotal := by
    rw [List.flatMap_singleton, InnerCall.failures, hstatus]
  refine ⟨rfl, hfail, ?_⟩
  rw [← hstats, hfail, ← hstatus]
  exact setOpsCipherResult_accounts ops s.opsDeqdTotal (r.jobs, r.cl.stats)

lemma Inner.Logged.submit {t : Inner} {devId : UInt8} {cl : Client} {vecs : Jobs} {opsNb : ℕ}
    (h : t.Logged idxs R C s') (hdeqd : t.opsDeqdTotal = s.opsDeqdTotal)
    (hacc : s.run.cl.stats.Accounts [] t.run.cl.stats) :
    s.Logged idxs R (.setOpsCipher devId cl vecs idxs opsNb :: C) s' where
  deqd := by rw [h.deqd, hdeqd]
  failures := by
    rw [List.flatMap_cons, InnerCall.failures, List.nil_append, h.failures, hdeqd]
  accounts := by
    rw [List.flatMap_cons, InnerCall.failures]
    exact hacc.trans h.accounts

lemma enqueueRound_logged {ops : ℕ → CryptoOp} {r : Round}
    (h : enqueueRound cfg ch dev idxs ops r s = some s') :
    s.Logged idxs r.returned (enqueueRoundCalls cfg ch dev idxs ops r s) s' := by
  simp only [enqueueRound] at h
  simp only [enqueueRoundCalls]
  split_ifs at h ⊢
  exact (collect_logged h).submit rfl (submit_accounts ops _ _ s.run)

lemma enqueueLoop_logged {rs : List Round} {ok : Bool}
    (h : enqueueLoop cfg ch dev idxs rs s = some (s', ok)) :
    s.Logged idxs ((rs.filter (·.pool.isSome)).flatMap (·.returned))
      (enqueueLoopCalls cfg ch dev idxs rs s) s' := by
  induction rs generalizing s with
  | nil =>
      obtain ⟨-, rfl, -⟩ := enqueueLoop_nil h
      exact .refl idxs s'
  | cons r rs ih =>
      obtain ⟨hlt, ⟨hpool, rfl, rfl, -⟩ | ⟨ops, s1, hpool, hs1, hrest⟩⟩ := enqueueLoop_cons h
      · rw [enqueueLoopCalls, if_pos hlt, hpool, List.filter_cons_of_neg (by simp [hpool])]
        exact .refl idxs s'
      · rw [enqueueLoopCalls, if_pos hlt, hpool, List.filter_cons_of_pos (by simp [hpool]),
          List.flatMap_cons]
        simp only [hs1]
        exact (enqueueRound_logged hs1).trans (ih hrest)

lemma drainLoop_logged {ds : List (List Return)} (h : drainLoop cfg dev idxs ds s = some s') :
    s.Logged idxs ds.flatten (drainLoopCalls cfg dev idxs ds s) s' := by
  induction ds generalizing s with
  | nil =>
      obtain ⟨-, rfl⟩ := drainLoop_nil h
      exact .refl idxs s'
  | cons d ds ih =>
      obtain ⟨s1, hs1, hrest⟩ := drainLoop_cons h
      have hlt : s.opsDeqdTotal < idxs.length := by
        by_contra hge
        simp [drainLoop, hge] at h
      simpa [drainLoopCalls, hlt, hs1] using (collect_logged hs1).trans (ih hrest)

/-- **What `run_jobs_inner` counts.** -/
lemma runJobsInner_logged {script : DevScript} {r r' : Run} {ok : Bool}
    (h : runJobsInner cfg ch dev idxs script r = some (r', ok)) :
    ∃ s, s.run = r' ∧ Inner.Logged idxs ⟨r, 0, 0, 0⟩ script.returns
      (runJobsInnerCalls cfg ch dev idxs script r) s := by
  obtain ⟨s, hs, hdrain, rfl, -⟩ | ⟨s, s', hs, hs', rfl, -⟩ := runJobsInner_cases h
  · refine ⟨s, rfl, ?_⟩
    simpa [runJobsInnerCalls, DevScript.returns, hs, hdrain] using enqueueLoop_logged hs
  · refine ⟨s', rfl, ?_⟩
    simpa [runJobsInnerCalls, DevScript.returns, hs] using
      (enqueueLoop_logged hs).trans (drainLoop_logged hs')

/-- What the device loop counts: the results of each device that has jobs, by position. -/
lemma runDevices_logged {script : ℕ → DevScript} {idxs : ℕ → List ℕ} {N : ℕ} {r r' : Run}
    (h : runDevices cfg ch script idxs N r = some r') :
    (runDevicesCalls cfg ch script idxs N r).flatMap (·.failures) =
        (List.range N).flatMap (fun d => if idxs d = [] then []
          else setOpsCipherResultFailures (idxs d) ((script d).returns.map (·.status)) 0) ∧
      r.cl.stats.Accounts ((runDevicesCalls cfg ch script idxs N r).flatMap (·.failures))
        r'.cl.stats := by
  induction N generalizing r' with
  | zero =>
      simp only [runDevices, Option.some.injEq] at h
      subst h
      exact ⟨rfl, .of_eq rfl rfl⟩
  | succ N ih =>
      obtain ⟨r1, h1, hlast⟩ := runDevices_succ h
      obtain ⟨hfail, hacc⟩ := ih h1
      simp only [runDevicesCalls, h1, List.flatMap_append, List.range_succ, hfail,
        List.flatMap_singleton] at hacc ⊢
      obtain ⟨hnil, rfl⟩ | ⟨hnil, ok, hin⟩ := hlast
      · rw [if_pos hnil, if_pos hnil]
        exact ⟨rfl, hacc.trans (.of_eq rfl rfl)⟩
      · obtain ⟨s, rfl, hlog⟩ := runJobsInner_logged hin
        rw [if_neg hnil, if_neg hnil]
        exact ⟨by rw [hlog.failures], hacc.trans hlog.accounts⟩

end Devices

/-! ### The whole burst -/

section Burst

variable {cfg : Config} {x : BurstCall} {cl : Client}

lemma preprocess_accounts (cfg : Config) (x : BurstCall) (cl : Client) :
    cl.stats.Accounts (x.preprocessFailures cfg cl) (x.sorted cfg cl).cl.stats := by
  have hstart : cl.stats.Accounts [] (x.scan cfg cl 0).cl.stats := .of_eq rfl rfl
  have hloop : (x.scan cfg cl 0).cl.stats.Accounts (x.preprocessFailures cfg cl)
      (x.sorted cfg cl).cl.stats :=
    .forUpTo (fun b : Burst => b.cl.stats)
      (fun i b => preprocessJob cfg x.heap x.ch (x.script.sess i) i b)
      (fun i b => preprocessJobFailures cfg x.heap x.ch (x.script.sess i) i b)
      (fun i b => (preprocessJob_pass cfg x.heap x.ch (x.script.sess i) i b).accounts) x.size
      (x.scan cfg cl 0)
  exact hstart.trans hloop

lemma postprocess_accounts (cfg : Config) (x : BurstCall) (r₂ : Run) :
    r₂.cl.stats.Accounts (x.postprocessFailures cfg r₂)
      (finishJobs cfg x.ch x.script x.size r₂).cl.stats := by
  have hloop : r₂.cl.stats.Accounts (x.postprocessFailures cfg r₂)
      (x.closing cfg r₂ x.size).1.stats :=
    .forUpTo (fun s : Client × Jobs => s.1.stats)
      (fun i s => postprocessJob cfg x.ch (x.script.sess i).release i s)
      (fun i s => postprocessJobFailures cfg x.ch (x.script.sess i).release i s)
      (fun i s => postprocessJob_accounts cfg x.ch (x.script.sess i).release i s) x.size
      (r₂.cl, r₂.jobs)
  have hend : (x.closing cfg r₂ x.size).1.stats.Accounts []
      (finishJobs cfg x.ch x.script x.size r₂).cl.stats := .of_eq rfl rfl
  simpa only [List.append_nil] using hloop.trans hend

/-- **The counters are the sums of the ledger**, in every run. -/
theorem run_accounts {r : Run} (h : x.run cfg cl = some r) :
    cl.stats.Accounts (x.failures cfg cl) r.cl.stats := by
  unfold BurstCall.failures
  split_ifs with h0
  · rw [BurstCall.run, h0] at h
    rw [runJobs_zero h]
    exact .of_eq rfl rfl
  · rw [run_eq_devicePhase h0] at h
    obtain ⟨r₂, h₂, rfl⟩ := Option.map_eq_some_iff.mp h
    rw [h₂]
    exact ((preprocess_accounts cfg x cl).trans (runDevices_logged h₂).2).trans
      (postprocess_accounts cfg x r₂)

/-! ## The entries of a job -/

/-- A failed job has one entry. -/
def failedOnce (job : CryptoOperation) : ℕ :=
  if job.op.opStatus = cryptoOpStatusFailed then 1 else 0

lemma tally_preprocess {i : ℕ} (hi : i < x.size) :
    tally (x.preprocessFailures cfg cl) i = failedOnce ((x.sorted cfg cl).jobs i) := by
  rw [BurstCall.preprocessFailures, tally_flatMap_range
    fun i => (preprocessJob_pass cfg x.heap x.ch (x.script.sess i) i (x.scan cfg cl i)).item,
    if_pos hi, (preprocessJob_pass _ _ _ _ _ _).length]
  have hjob : (x.sorted cfg cl).jobs i = (x.scan cfg cl (i + 1)).jobs i := scan_jobs_of_lt hi
  rw [failedOnce, hjob]
  rfl

lemma postprocessJobFailures_item {ch : ℕ} {ans : ReleaseAns} {i : ℕ} {s : Client × Jobs} :
    ∀ e ∈ postprocessJobFailures cfg ch ans i s, e.item = i := by
  by_cases ht : (s.2 i).op.opType = cryptoOpTypeSessClose
  · exact (postprocessJob_pass ht).item
  · simp [postprocessJobFailures, ht]

/-- The closes are entered again, the other jobs are left alone. -/
lemma tally_postprocess (r₂ : Run) {i : ℕ} (hi : i < x.size) :
    tally (x.postprocessFailures cfg r₂) i =
      if (r₂.jobs i).op.opType = cryptoOpTypeSessClose then
        failedOnce ((finishJobs cfg x.ch x.script x.size r₂).jobs i) else 0 := by
  have hjob : (x.closing cfg r₂ i).2 i = r₂.jobs i := closing_jobs_of_le le_rfl
  rw [BurstCall.postprocessFailures, tally_flatMap_range fun _ => postprocessJobFailures_item,
    if_pos hi]
  split_ifs with ht
  · rw [← hjob] at ht
    rw [(postprocessJob_pass ht).length]
    have hlast : (finishJobs cfg x.ch x.script x.size r₂).jobs i =
        (x.closing cfg r₂ (i + 1)).2 i := closing_jobs_of_lt hi
    rw [failedOnce, hlast]
    rfl
  · simp [postprocessJobFailures, hjob, ht]

/-- The entries made for a result; `none` is no result. -/
def resultEntries : Option RteStatus → ℕ
  | none => 0
  | some .success => 0
  | some _ => 1

lemma setOpCipherResultFailures_item {j : ℕ} {st : RteStatus} :
    ∀ e ∈ setOpCipherResultFailures j st, e.item = j := by
  unfold setOpCipherResultFailures
  split_ifs <;> simp

lemma setOpsCipherResultFailures_item {idxs : List ℕ} {sts : List RteStatus} {k : ℕ} :
    ∀ e ∈ setOpsCipherResultFailures idxs sts k,
      ∃ p, k ≤ p ∧ p < k + sts.length ∧ e.item = idxs.getD p 0 := by
  induction sts generalizing k with
  | nil => simp [setOpsCipherResultFailures]
  | cons st sts ih =>
      intro e he
      rw [List.length_cons]
      rcases List.mem_append.mp he with he | he
      · exact ⟨k, le_rfl, by omega, setOpCipherResultFailures_item e he⟩
      · obtain ⟨p, h1, h2, hitem⟩ := ih e he
        exact ⟨p, by omega, by omega, hitem⟩

lemma tally_result_of_ne {idxs : List ℕ} {sts : List RteStatus} {k j : ℕ}
    (h : ∀ p, k ≤ p → p < k + sts.length → j ≠ idxs.getD p 0) :
    tally (setOpsCipherResultFailures idxs sts k) j = 0 := by
  refine tally_eq_zero fun e he hitem => ?_
  obtain ⟨p, h1, h2, hp⟩ := setOpsCipherResultFailures_item e he
  exact h p h1 h2 (hitem.symm.trans hp)

/-- **Entries by position.**  The `p`-th result is entered for the job at position `p`. -/
lemma tally_result {idxs : List ℕ} (hnd : idxs.Nodup) (sts : List RteStatus) (k : ℕ)
    (hlen : k + sts.length ≤ idxs.length) {p : ℕ} (hkp : k ≤ p) (hp : p < idxs.length) :
    tally (setOpsCipherResultFailures idxs sts k) (idxs.getD p 0) = resultEntries sts[p - k]? := by
  have hentry : ∀ j st, tally (setOpCipherResultFailures j st) j = resultEntries (some st) := by
    intro j st
    cases st <;> simp [setOpCipherResultFailures, resultEntries, tally]
  induction sts generalizing k with
  | nil => rfl
  | cons st sts ih =>
      rw [List.length_cons] at hlen
      rw [setOpsCipherResultFailures, tally_append]
      rcases Nat.eq_or_lt_of_le hkp with rfl | hlt
      · rw [hentry, tally_result_of_ne]
        · simp
        · intro q h1 h2 he
          have := getD_inj hnd hp (by omega) he
          omega
      · rw [ih (k + 1) (by omega) hlt, tally_eq_zero, Nat.zero_add,
          show p - k = (p - (k + 1)) + 1 by omega, List.getElem?_cons_succ]
        intro e he hitem
        rw [setOpCipherResultFailures_item e he] at hitem
        have := getD_inj hnd (by omega) hp hitem
        omega

/-! ## Idle devices -/

variable {r r₂ : Run} {h₀ : ℕ → Heap} {E : ℕ → List CryptoOp} {D : ℕ → List DevEvent}

lemma BurstOutcome.returns_length_le (ho : BurstOutcome cfg x cl r r₂ h₀ E D) {d : ℕ}
    (hd : d < 2) :
    (x.devScript cfg cl d).returns.length ≤ ((x.sorted cfg cl).idxs d).length := by
  by_cases hserve : (x.devScript cfg cl d).PoolServes
  · exact ((ho.dev d hd).served hserve).2.1.le
  · exact ((ho.dev d hd).refused hserve).le

/-- The entries made for the results of device position `d`. -/
def BurstCall.devFailures (x : BurstCall) (cfg : Config) (cl : Client) (d : ℕ) : List Failure :=
  setOpsCipherResultFailures ((x.sorted cfg cl).idxs d)
    ((x.devScript cfg cl d).returns.map (·.status)) 0

lemma deviceCalls_failures (hnb : cfg.nbCryptodevs = 2) (h₂ : x.devicePhase cfg cl = some r₂) :
    (x.deviceCalls cfg cl).flatMap (·.failures) =
      x.devFailures cfg cl 0 ++ x.devFailures cfg cl 1 := by
  have hdev : ∀ d, (if (x.sorted cfg cl).idxs d = [] then []
      else setOpsCipherResultFailures ((x.sorted cfg cl).idxs d)
        ((x.script.dev d).returns.map (·.status)) 0) = x.devFailures cfg cl d := by
    intro d
    unfold BurstCall.devFailures BurstCall.devScript
    split_ifs <;> rfl
  rw [BurstCall.deviceCalls, (runDevices_logged h₂).1, hnb]
  simp [List.range_succ, hdev]

lemma tally_devFailures_of_not_mem (ho : BurstOutcome cfg x cl r r₂ h₀ E D) {d i : ℕ}
    (hd : d < 2) (hi : i ∉ (x.sorted cfg cl).idxs d) : tally (x.devFailures cfg cl d) i = 0 := by
  refine tally_result_of_ne fun p _ hp he => hi ?_
  have hle := ho.returns_length_le hd
  rw [List.length_map] at hp
  exact he ▸ getD_mem (by omega)

/-- The devices make entries for the jobs on their own lists. -/
lemma tally_devices (ho : BurstOutcome cfg x cl r r₂ h₀ E D) {d : ℕ} (hd : d < 2) {p : ℕ}
    (hp : p < ((x.sorted cfg cl).idxs d).length) :
    tally (x.devFailures cfg cl 0 ++ x.devFailures cfg cl 1)
        (((x.sorted cfg cl).idxs d).getD p 0) =
      resultEntries (((x.devScript cfg cl d).returns.map (·.status))[p]?) := by
  have hother : ∀ d' < 2, d' ≠ d →
      tally (x.devFailures cfg cl d') (((x.sorted cfg cl).idxs d).getD p 0) = 0 :=
    fun d' hd' hne => tally_devFailures_of_not_mem ho hd' fun hmem =>
      hne (scan_idxs_disjoint hmem (getD_mem hp))
  have hnd : ((x.sorted cfg cl).idxs d).Nodup := scan_idxs_nodup cfg x cl d x.size
  have hown : tally (x.devFailures cfg cl d) (((x.sorted cfg cl).idxs d).getD p 0) =
      resultEntries (((x.devScript cfg cl d).returns.map (·.status))[p]?) :=
    tally_result hnd _ 0 (by simpa using ho.returns_length_le hd) (Nat.zero_le p) hp
  rw [tally_append]
  rcases Nat.lt_succ_iff_lt_or_eq.mp hd with hd | rfl
  · obtain rfl : d = 0 := by omega
    rw [hown, hother 1 (by decide) (by decide), Nat.add_zero]
  · rw [hown, hother 0 (by decide) (by decide), Nat.zero_add]

lemma tally_failures (hnb : cfg.nbCryptodevs = 2) (h₂ : x.devicePhase cfg cl = some r₂) {i : ℕ}
    (hi : i < x.size) :
    tally (x.failures cfg cl) i =
      failedOnce ((x.sorted cfg cl).jobs i) +
        tally (x.devFailures cfg cl 0 ++ x.devFailures cfg cl 1) i +
        if (r₂.jobs i).op.opType = cryptoOpTypeSessClose then
          failedOnce ((finishJobs cfg x.ch x.script x.size r₂).jobs i) else 0 := by
  rw [BurstCall.failures, if_neg (by omega), h₂, deviceCalls_failures hnb h₂]
  simp only [tally_append]
  rw [tally_preprocess hi, tally_postprocess r₂ hi]

/-- **A close** that came in as failed is entered once more than it should be. -/
lemma tally_close (ho : BurstOutcome cfg x cl r r₂ h₀ E D) (hnb : cfg.nbCryptodevs = 2)
    (h₂ : x.devicePhase cfg cl = some r₂) {i : ℕ} (hi : i < x.size) (hc : x.Closes i) :
    tally (x.failures cfg cl) i = failedOnce (r.jobs i) + if x.Failed i then 1 else 0 := by
  have hno : ∀ d, i ∉ (x.sorted cfg cl).idxs d := fun d hmem =>
    absurd ((listed_iff.mp (mem_scan_idxs.mp hmem).2).2.1.symm.trans hc) (by decide)
  have hscan : failedOnce ((x.sorted cfg cl).jobs i) = if x.Failed i then 1 else 0 := by
    unfold failedOnce
    rw [show ((x.sorted cfg cl).jobs i).op = (x.jobs i).op from scan_close_op hi hc]
    rfl
  rw [tally_failures hnb h₂ hi, if_pos ((ho.opType hnb hi).trans hc), ← ho.closes, tally_append,
    tally_devFailures_of_not_mem ho (by decide) (hno 0),
    tally_devFailures_of_not_mem ho (by decide) (hno 1), hscan]
  omega

/-- **A listed job** whose operation came back as not processed is entered, though it is not
failed. -/
lemma tally_listed (ho : BurstOutcome cfg x cl r r₂ h₀ E D) (hnb : cfg.nbCryptodevs = 2)
    (h₂ : x.devicePhase cfg cl = some r₂) {d : ℕ} (hd : d < 2) {p : ℕ}
    (hp : p < ((x.sorted cfg cl).idxs d).length) :
    tally (x.failures cfg cl) (((x.sorted cfg cl).idxs d).getD p 0) =
      failedOnce (r.jobs (((x.sorted cfg cl).idxs d).getD p 0)) +
        if ((x.devScript cfg cl d).returns.map (·.status))[p]? = some .notProcessed then 1
        else 0 := by
  obtain ⟨hi, hl⟩ : ((x.sorted cfg cl).idxs d).getD p 0 < x.size ∧
      Listed cfg x cl d (((x.sorted cfg cl).idxs d).getD p 0) := mem_scan_idxs.mp (getD_mem hp)
  have htype := (ho.opType hnb hi).trans (listed_iff.mp hl).2.1
  have hsucc : ((x.sorted cfg cl).jobs (((x.sorted cfg cl).idxs d).getD p 0)).op.opStatus =
      cryptoOpStatusSucc := by
    rw [show (x.sorted cfg cl).jobs (((x.sorted cfg cl).idxs d).getD p 0) = _ from hl.job hi]
    rfl
  rw [tally_failures hnb h₂ hi, if_neg (by rw [htype]; decide), tally_devices ho hd hp,
    (ho.dev d hd).job p hp]
  generalize (x.sorted cfg cl).jobs (((x.sorted cfg cl).idxs d).getD p 0) = job at hsucc
  generalize ((x.devScript cfg cl d).returns.map (·.status))[p]? = st
  rcases st with _ | st
  · simp [failedOnce, CryptoOperation.afterResult, resultEntries, hsucc]
  · cases st <;>
      simp [failedOnce, CryptoOperation.afterResult, CryptoOperation.setStatus, resultEntries,
        hsucc]

/-- Every other job is entered once if it is failed, and not otherwise. -/
lemma tally_other (ho : BurstOutcome cfg x cl r r₂ h₀ E D) (hnb : cfg.nbCryptodevs = 2)
    (h₂ : x.devicePhase cfg cl = some r₂) {i : ℕ} (hi : i < x.size) (hc : ¬x.Closes i)
    (hno : ∀ d, i ∉ (x.sorted cfg cl).idxs d) :
    tally (x.failures cfg cl) i = failedOnce (r.jobs i) := by
  have htype : (r₂.jobs i).op.opType ≠ cryptoOpTypeSessClose := by
    rw [ho.opType hnb hi]
    exact hc
  have hjob : r.jobs i = (x.sorted cfg cl).jobs i := by
    rw [ho.closes, ← ho.unlisted i fun d _ => hno d]
    exact postprocessJobs_jobs_of_ne htype
  rw [tally_failures hnb h₂ hi, if_neg htype, tally_append, hjob,
    tally_devFailures_of_not_mem ho (by decide) (hno 0),
    tally_devFailures_of_not_mem ho (by decide) (hno 1), Nat.add_zero]

/-! ## Accounting -/

/-- The jobs of the burst that `run_jobs` leaves as failed. -/
def BurstCall.failedJobs (x : BurstCall) (r : Run) : Finset ℕ :=
  (Finset.range x.size).filter fun i => (r.jobs i).op.opStatus = cryptoOpStatusFailed

/-- **The failures of a burst are accounted for.**  `failedJobs` are the jobs that leave with status
`FAILED`, and the counters are compared with what they were before the burst.  The last field is
about `failures`, the uses of `STATS_OP_FAILED` in the order they are made; the counters alone could
agree because one job is counted twice and another one not at all. -/
structure BurstCall.FailuresAccounted (x : BurstCall) (cfg : Config) (cl : Client) (r : Run) :
    Prop where
  total : r.cl.stats.opFailedTotal =
    cl.stats.opFailedTotal + UInt64.ofNat (x.failedJobs r).card
  /-- The eight counters together go up by as much. -/
  counters : ∑ k, (r.cl.stats.opFailed k - cl.stats.opFailed k) =
    UInt64.ofNat (x.failedJobs r).card
  /-- A failed job is counted in exactly one of them, and another job in none. -/
  once : ∀ i < x.size, tally (x.failures cfg cl) i = failedOnce (r.jobs i)

lemma devFailures_item_lt (ho : BurstOutcome cfg x cl r r₂ h₀ E D) {d : ℕ} (hd : d < 2) :
    ∀ e ∈ x.devFailures cfg cl d, e.item < x.size := by
  intro e he
  obtain ⟨p, -, hp, hitem⟩ := setOpsCipherResultFailures_item e he
  have hle := ho.returns_length_le hd
  rw [List.length_map] at hp
  rw [hitem]
  exact (mem_scan_idxs.mp (getD_mem (by omega : p < ((x.sorted cfg cl).idxs d).length))).1

lemma failures_item_lt (ho : BurstOutcome cfg x cl r r₂ h₀ E D) (hnb : cfg.nbCryptodevs = 2)
    (h₂ : x.devicePhase cfg cl = some r₂) : ∀ e ∈ x.failures cfg cl, e.item < x.size := by
  intro e he
  unfold BurstCall.failures at he
  split_ifs at he
  · simp at he
  rw [h₂, deviceCalls_failures hnb h₂, List.mem_append, List.mem_append, List.mem_append] at he
  rcases he with (he | he | he) | he
  · obtain ⟨i, hi, hmem⟩ := List.mem_flatMap.mp he
    rw [(preprocessJob_pass cfg x.heap x.ch (x.script.sess i) i (x.scan cfg cl i)).item e hmem]
    exact List.mem_range.mp hi
  · exact devFailures_item_lt ho (by decide) e he
  · exact devFailures_item_lt ho (by decide) e he
  · obtain ⟨i, hi, hmem⟩ := List.mem_flatMap.mp he
    rw [postprocessJobFailures_item e hmem]
    exact List.mem_range.mp hi

/-- If each job is counted as it should be, the counters are right. -/
lemma failuresAccounted_of_once (h : x.run cfg cl = some r)
    (hitem : ∀ e ∈ x.failures cfg cl, e.item < x.size)
    (honce : ∀ i < x.size, tally (x.failures cfg cl) i = failedOnce (r.jobs i)) :
    x.FailuresAccounted cfg cl r := by
  have hacc := run_accounts h
  have hlen : (x.failures cfg cl).length = (x.failedJobs r).card := by
    rw [← sum_tally (s := Finset.range x.size) fun e he => Finset.mem_range.mpr (hitem e he),
      Finset.sum_congr rfl fun i hi => honce i (Finset.mem_range.mp hi)]
    exact (Finset.card_filter _ _).symm
  have hsum : ∀ (s : Finset OpFailed) (f : OpFailed → ℕ),
      ∑ k ∈ s, UInt64.ofNat (f k) = UInt64.ofNat (∑ k ∈ s, f k) := by
    intro s f
    induction s using Finset.induction_on with
    | empty => rfl
    | insert k s hk ih => rw [Finset.sum_insert hk, Finset.sum_insert hk, ih, UInt64.ofNat_add]
  refine ⟨hlen ▸ hacc.total, ?_, honce⟩
  rw [← hlen, ← sum_posted, ← hsum]
  refine Finset.sum_congr rfl fun k _ => ?_
  rw [hacc.counter, add_sub_cancel_left]

lemma not_failuresAccounted (hsize : x.size = 1)
    (hs : (r.jobs 0).op.opStatus = cryptoOpStatusSucc)
    (htotal : r.cl.stats.opFailedTotal = cl.stats.opFailedTotal + 1) :
    ¬x.FailuresAccounted cfg cl r := by
  intro h
  have hnone : x.failedJobs r = ∅ := by
    simp [BurstCall.failedJobs, hsize, hs]
  have heq := htotal.symm.trans h.total
  rw [hnone, add_right_inj] at heq
  exact absurd heq (by decide)

/-- The device gives the operation back without having processed it. -/
def notProcessedScript : DevScript :=
  ⟨[⟨some fun _ => freshOp, 1, [⟨0, .notProcessed, []⟩]⟩], []⟩

end Burst

end CiphApp
