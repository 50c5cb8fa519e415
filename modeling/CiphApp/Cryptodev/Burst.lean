import CiphApp.Cryptodev.Inner
import CiphApp.Cryptodev.Sorting

/-!
# A burst on idle devices

`run_jobs` puts the pieces together: the scan sorts the jobs, each device gets its list, and the
closes are applied.  `DevOutcome` is what one device has done to the burst, in terms of the call
and not of the states in between; `run_outcome` derives it for both devices.

The devices are idle when the burst starts.  They are idle after every burst in which the op pool
did not refuse a request, so this is an invariant of runs without refusals (`Idle`); after a
refusal operations of the old burst may be left in a device.

`BurstOutcome` is what later files start from, and they do not look at `run_jobs` again.  It has the
facts of each device (`DevFacts`): the operations that were enqueued and those that came back, and
the status that each job ends with; and it says which memory the two devices started from and left.
Operations are named by the number they were enqueued with, from the first ticket of the burst on;
`BurstOutcome.mem_enqs` and `BurstOutcome.mem_deqs` are the events of the whole burst in these
terms.
-/

namespace CiphApp

open Lib

/-! ## What the device calls leave alone -/

/-- No device holds an operation.  `run_jobs` drains a device before it returns, unless the op pool
refuses it a request. -/
def Idle (cl : Client) : Prop := ∀ dev, (cl.queues dev).queue = []

lemma PreStep.queues {cfg : Config} {heap : Heap} {ch : ℕ} {ans : SessAns} {i : ℕ} {b b' : Burst}
    (h : PreStep cfg heap ch ans i b b') : b'.cl.queues = b.cl.queues := by
  cases h <;> rfl

lemma scan_queues (cfg : Config) (x : BurstCall) (cl : Client) (n : ℕ) :
    (x.scan cfg cl n).cl.queues = cl.queues := by
  induction n with
  | zero => rfl
  | succ n ih => exact (scan_step cfg x cl n).queues.trans ih

section Frames

variable {cfg : Config} {ch : ℕ} {dev : UInt8} {idxs : List ℕ} {r r' : Run}

lemma DevStep.queues_of_ne (h : DevStep cfg ch dev idxs r r') {dev' : UInt8} (hne : dev' ≠ dev) :
    r'.cl.queues dev' = r.cl.queues dev' := by
  cases h with
  | submit ops needed accepted h =>
      rw [queues_submit cfg ch dev idxs ops r h, Function.update_of_ne hne]
  | dequeue a op h => simp [Run.dequeue, Function.update_of_ne hne]
  | result => rfl

lemma runJobsInner_queues_of_ne {script : DevScript} {ok : Bool}
    (h : runJobsInner cfg ch dev idxs script r = some (r', ok)) {dev' : UInt8}
    (hne : dev' ≠ dev) : r'.cl.queues dev' = r.cl.queues dev' :=
  run_induct (Q := fun t => t.cl.queues dev' = r.cl.queues dev')
    (fun _ _ hs ht => (hs.queues_of_ne hne).trans ht) (runJobsInner_steps h) rfl

lemma runJobsInner_sessions {script : DevScript} {ok : Bool}
    (h : runJobsInner cfg ch dev idxs script r = some (r', ok)) :
    r'.cl.registry = r.cl.registry ∧ r'.cl.pool = r.cl.pool :=
  run_induct (Q := fun t => t.cl.registry = r.cl.registry ∧ t.cl.pool = r.cl.pool)
    (fun _ _ hs ht => ⟨hs.sessions.1.trans ht.1, hs.sessions.2.trans ht.2⟩)
    (runJobsInner_steps h) ⟨rfl, rfl⟩

end Frames

/-! ## The two device phases -/

/-- The burst after the scan. -/
def BurstCall.sorted (x : BurstCall) (cfg : Config) (cl : Client) : Burst :=
  x.scan cfg cl x.size

/-- The script of a device as far as the call looks at it: a device without jobs is skipped. -/
def BurstCall.devScript (x : BurstCall) (cfg : Config) (cl : Client) (d : ℕ) : DevScript :=
  if (x.sorted cfg cl).idxs d = [] then ⟨[], []⟩ else x.script.dev d

/-- The call of `run_jobs_inner` for device position `d`. -/
def BurstCall.innerRun (x : BurstCall) (cfg : Config) (cl : Client) (d : ℕ) (r : Run) :
    Option (Run × Bool) :=
  runJobsInner cfg x.ch (cfg.enabledCdevs d).cdevId ((x.sorted cfg cl).idxs d)
    (x.devScript cfg cl d) r

/-- Skipping a device is the same as running it on no jobs. -/
lemma innerRun_eq (x : BurstCall) (cfg : Config) (cl : Client) (d : ℕ) (r : Run) :
    (if (x.sorted cfg cl).idxs d = [] then some r
      else (runJobsInner cfg x.ch (cfg.enabledCdevs d).cdevId ((x.sorted cfg cl).idxs d)
        (x.script.dev d) r).map (·.1)) = (x.innerRun cfg cl d r).map (·.1) := by
  unfold BurstCall.innerRun BurstCall.devScript
  split_ifs with h
  · simp [h, runJobsInner, enqueueLoop, drainLoop]
  · rfl

/-- The state in which the device loop of the call ends. -/
def BurstCall.devicePhase (x : BurstCall) (cfg : Config) (cl : Client) : Option Run :=
  runDevices cfg x.ch x.script.dev (x.sorted cfg cl).idxs cfg.nbCryptodevs
    ((x.sorted cfg cl).start x.heap)

/-- After the device loop the closes are all that is left. -/
lemma run_eq_devicePhase {cfg : Config} {x : BurstCall} {cl : Client} (hsize : x.size ≠ 0) :
    x.run cfg cl = (x.devicePhase cfg cl).map (finishJobs cfg x.ch x.script x.size) := by
  rw [BurstCall.run, runJobs, if_neg hsize]
  rfl

/-- With two devices the loop runs the first, then the second. -/
lemma devicePhase_two {cfg : Config} {x : BurstCall} {cl : Client} (hnb : cfg.nbCryptodevs = 2) :
    x.devicePhase cfg cl =
      ((x.innerRun cfg cl 0 ((x.sorted cfg cl).start x.heap)).bind fun r =>
        x.innerRun cfg cl 1 r.1).map (·.1) := by
  rw [BurstCall.devicePhase, hnb]
  simp only [runDevices, Option.bind_some, innerRun_eq]
  cases x.innerRun cfg cl 0 ((x.sorted cfg cl).start x.heap) with
  | none => rfl
  | some r0 => rfl

/-- A call with two devices runs the first, then the second, then applies the closes. -/
lemma run_two_devices {cfg : Config} {x : BurstCall} {cl : Client}
    (hnb : cfg.nbCryptodevs = 2) (hsize : x.size ≠ 0) :
    x.run cfg cl =
      ((x.innerRun cfg cl 0 ((x.sorted cfg cl).start x.heap)).bind fun r =>
        x.innerRun cfg cl 1 r.1).map fun r => finishJobs cfg x.ch x.script x.size r.1 := by
  rw [run_eq_devicePhase hsize, devicePhase_two hnb, Option.map_map]
  rfl

/-! ## What a device does to a burst -/

/-- `op` was prepared for job `j` of the call, with the job's session, from memory `heap`. -/
def BurstCall.Prepared (x : BurstCall) (cfg : Config) (cl : Client) (d : ℕ) (heap : Heap) (j : ℕ)
    (op : CryptoOp) : Prop :=
  ∃ s old, getSession cfg x.ch (x.jobs j).op.sessId (x.sorted cfg cl).cl = some s ∧
    op = setOpCipher cfg (cfg.enabledCdevs d).cdevId heap (x.jobs j) j (some s) old

/-- **The work of device position `d`** in a burst, between the states `r` and `r'`: it accepted
the operations `E` from ticket `base` on and gave back the events `D`. -/
structure DevOutcome (cfg : Config) (x : BurstCall) (cl : Client) (d : ℕ) (r r' : Run) (base : ℕ)
    (E : List CryptoOp) (D : List DevEvent) : Prop where
  enqs : r'.enqs = r.enqs ++ E.mapIdx fun k op => ⟨(cfg.enabledCdevs d).cdevId, base + k, op⟩
  deqs : r'.deqs = r.deqs ++ D
  returned : List.Forall₂ (ReturnedAs (cfg.enabledCdevs d).cdevId base E)
    (x.devScript cfg cl d).returns D
  tickets : ((x.devScript cfg cl d).returns.map (·.ticket)).Nodup
  heap : r'.heap = storeReturns r.heap (x.devScript cfg cl d).returns D
  /-- The `p`-th return decides the job at position `p`. -/
  job : ∀ p < ((x.sorted cfg cl).idxs d).length,
    r'.jobs (((x.sorted cfg cl).idxs d).getD p 0) =
      (r.jobs (((x.sorted cfg cl).idxs d).getD p 0)).afterResult
        (((x.devScript cfg cl d).returns.map (·.status))[p]?)
  other : ∀ j ∉ (x.sorted cfg cl).idxs d, r'.jobs j = r.jobs j
  statusOnly : ∀ j, ∃ st, r'.jobs j = (r.jobs j).setStatus st
  prepared : ∀ k op, E[k]? = some op → ∃ pos < ((x.sorted cfg cl).idxs d).length, ∃ heap,
    x.Prepared cfg cl d heap (((x.sorted cfg cl).idxs d).getD pos 0) op ∧
      ((x.devScript cfg cl d).PoolServes → pos = k % cfg.maxBurstSize.toNat ∧
        (k < cfg.maxBurstSize.toNat → heap = r.heap))
  served : (x.devScript cfg cl d).PoolServes →
    E.length = ((x.sorted cfg cl).idxs d).length ∧
      (x.devScript cfg cl d).returns.length = ((x.sorted cfg cl).idxs d).length ∧
      (r'.cl.queues (cfg.enabledCdevs d).cdevId).queue = []
  refused : ¬(x.devScript cfg cl d).PoolServes →
    (x.devScript cfg cl d).returns.length < ((x.sorted cfg cl).idxs d).length

section Outcome

variable {cfg : Config} {x : BurstCall} {cl : Client}

lemma getD_mem {l : List ℕ} {p : ℕ} (hp : p < l.length) : l.getD p 0 ∈ l := by
  rw [List.getD_eq_getElem l 0 hp]
  exact List.getElem_mem hp

lemma exists_getD_eq {l : List ℕ} {j : ℕ} (hj : j ∈ l) : ∃ p < l.length, l.getD p 0 = j := by
  obtain ⟨p, hp, he⟩ := List.getElem_of_mem hj
  exact ⟨p, hp, by rw [List.getD_eq_getElem l 0 hp, he]⟩

lemma BurstCall.Prepared.vec {d j : ℕ} {heap : Heap} {op : CryptoOp}
    (h : x.Prepared cfg cl d heap j op) : op.vec = j := by
  obtain ⟨s, old, -, rfl⟩ := h
  rfl

lemma BurstCall.Prepared.bufAddr {d j : ℕ} {heap : Heap} {op : CryptoOp}
    (h : x.Prepared cfg cl d heap j op) :
    op.bufAddr = ((x.jobs j).cipherBuffList.buffs 0).data := by
  obtain ⟨s, old, -, rfl⟩ := h
  rfl

lemma innerRun_outcome {d : ℕ} {r r' : Run} {ok : Bool} (hsize : x.size ≤ maxJobsBurstSize)
    (hreg : r.cl.registry = (x.sorted cfg cl).cl.registry)
    (hjobs : ∀ j ∈ (x.sorted cfg cl).idxs d, r.jobs j = (x.sorted cfg cl).jobs j)
    (hq : (r.cl.queues (cfg.enabledCdevs d).cdevId).queue = [])
    (h : x.innerRun cfg cl d r = some (r', ok)) :
    ∃ E D, DevOutcome cfg x cl d r r' (r.cl.queues (cfg.enabledCdevs d).cdevId).next E D := by
  have hlen : ((x.sorted cfg cl).idxs d).length < 2 ^ 16 := by
    have hle : ((x.sorted cfg cl).idxs d).length ≤ x.size := scan_idxs_length_le cfg x cl d x.size
    simp only [maxJobsBurstSize] at hsize
    omega
  have hnd : ((x.sorted cfg cl).idxs d).Nodup := scan_idxs_nodup cfg x cl d x.size
  obtain ⟨E, s, ho, rfl⟩ := runJobsInner_outcome hlen hq h
  have hinv := ho.inv
  obtain ⟨D, hD, hRD, hheap⟩ := hinv.deqs
  have hle : (x.devScript cfg cl d).returns.length ≤ ((x.sorted cfg cl).idxs d).length :=
    hinv.returned_le.trans hinv.enqd_le
  refine ⟨E, D, hinv.enqs, hD, hRD, (List.nodup_append.mp hinv.tickets.nodup).1, hheap, ?_, ?_,
    ?_, ?_, fun hs => ?_, ho.refused⟩
  · intro p hp
    rw [hinv.jobs, resultJobs_at hnd _ 0 _ (by simpa using hle)
      (Nat.zero_le p) hp, Nat.sub_zero]
  · intro j hj
    rw [hinv.jobs]
    apply resultJobs_of_ne
    intro p _ hp he
    have hp' : p < ((x.sorted cfg cl).idxs d).length := by
      rw [List.length_map] at hp
      omega
    exact hj (he ▸ getD_mem hp')
  · intro j
    rw [hinv.jobs]
    exact resultJobs_statusOnly _ _ 0 _ j
  · intro k op hop
    obtain ⟨pos, hpos, heap, ⟨old, hold⟩, hfull⟩ := hinv.prepared k op hop
    have hmem := getD_mem hpos
    obtain ⟨hlt, hlisted⟩ := mem_scan_idxs.mp hmem
    obtain ⟨t, -, ht⟩ := hlisted.getSession (Nat.le_of_lt hlt)
    -- the job is as it came, but for its status and the number of its buffers
    have hjob : (x.sorted cfg cl).jobs (((x.sorted cfg cl).idxs d).getD pos 0) = _ :=
      hlisted.job hlt
    rw [hjobs _ hmem, hjob] at hold
    have hsess : getSession cfg x.ch
        (x.jobs (((x.sorted cfg cl).idxs d).getD pos 0)).op.sessId r.cl = some t := by
      rw [getSession_congr (congrFun hreg x.ch)]
      exact ht
    refine ⟨pos, hpos, heap, ⟨t, old, ht, ?_⟩, fun hserve => hfull (ho.done hserve).2.2.1⟩
    rw [hold, ← hsess]
    rfl
  · obtain ⟨h1, h2, -, h4⟩ := ho.done hs
    exact ⟨h1, h2, h4⟩

/-! ## The closes -/

lemma postprocessJobs_jobs_of_ne {ch : ℕ} {ans : ℕ → ReleaseAns} {size : ℕ} {s : Client × Jobs}
    {j : ℕ} (hj : (s.2 j).op.opType ≠ cryptoOpTypeSessClose) :
    (postprocessJobs cfg ch ans size s).2 j = s.2 j := by
  refine forUpTo_induct (P := fun _ (t : Client × Jobs) => t.2 j = s.2 j) rfl fun i t _ ht => ?_
  have hstep := postStep cfg ch (ans i) i t
  generalize postprocessJob cfg ch (ans i) i t = t' at hstep
  cases hstep with
  | removed p htype _ =>
      have hne : j ≠ i := fun he => hj (by rw [← ht, he]; exact htype)
      simp [Function.update_of_ne hne, ht]
  | notLive htype _ =>
      have hne : j ≠ i := fun he => hj (by rw [← ht, he]; exact htype)
      simp [Function.update_of_ne hne, ht]
  | other => exact ht

lemma postprocessJobs_queues {ch : ℕ} {ans : ℕ → ReleaseAns} {size : ℕ} {s : Client × Jobs} :
    (postprocessJobs cfg ch ans size s).1.queues = s.1.queues := by
  refine forUpTo_frame (fun t : Client × Jobs => t.1.queues) fun i t _ => ?_
  have hstep := postStep cfg ch (ans i) i t
  generalize postprocessJob cfg ch (ans i) i t = t' at hstep
  cases hstep <;> rfl

/-! ## The whole burst -/

/-- What device position `d` did to the burst, seen from its end: it worked from memory `h₀`. -/
structure DevFacts (cfg : Config) (x : BurstCall) (cl : Client) (d : ℕ) (h₀ : Heap) (base : ℕ)
    (E : List CryptoOp) (D : List DevEvent) (r : Run) : Prop where
  returned : List.Forall₂ (ReturnedAs (cfg.enabledCdevs d).cdevId base E)
    (x.devScript cfg cl d).returns D
  tickets : ((x.devScript cfg cl d).returns.map (·.ticket)).Nodup
  job : ∀ p < ((x.sorted cfg cl).idxs d).length,
    r.jobs (((x.sorted cfg cl).idxs d).getD p 0) =
      ((x.sorted cfg cl).jobs (((x.sorted cfg cl).idxs d).getD p 0)).afterResult
        (((x.devScript cfg cl d).returns.map (·.status))[p]?)
  prepared : ∀ k op, E[k]? = some op → ∃ pos < ((x.sorted cfg cl).idxs d).length, ∃ heap,
    x.Prepared cfg cl d heap (((x.sorted cfg cl).idxs d).getD pos 0) op ∧
      ((x.devScript cfg cl d).PoolServes → pos = k % cfg.maxBurstSize.toNat ∧
        (k < cfg.maxBurstSize.toNat → heap = h₀))
  served : (x.devScript cfg cl d).PoolServes →
    E.length = ((x.sorted cfg cl).idxs d).length ∧
      (x.devScript cfg cl d).returns.length = ((x.sorted cfg cl).idxs d).length ∧
      (r.cl.queues (cfg.enabledCdevs d).cdevId).queue = []
  refused : ¬(x.devScript cfg cl d).PoolServes →
    (x.devScript cfg cl d).returns.length < ((x.sorted cfg cl).idxs d).length

/-- The first ticket of a burst on device position `d`. -/
def baseTicket (cfg : Config) (cl : Client) (d : ℕ) : ℕ :=
  (cl.queues (cfg.enabledCdevs d).cdevId).next

/-- **A burst with two devices.**  `E d` are the operations that device position `d` accepted, and
`D d` the events in which they came back.  Device 0 works from the memory of the call, device 1 from
what device 0 has left; the closes come last and change neither memory nor devices. -/
structure BurstOutcome (cfg : Config) (x : BurstCall) (cl : Client) (r r₂ : Run)
    (h₀ : ℕ → Heap) (E : ℕ → List CryptoOp) (D : ℕ → List DevEvent) : Prop where
  dev : ∀ d < 2, DevFacts cfg x cl d (h₀ d) (baseTicket cfg cl d) (E d) (D d) r
  enqs : r.enqs =
    ((E 0).mapIdx fun k op => ⟨(cfg.enabledCdevs 0).cdevId, baseTicket cfg cl 0 + k, op⟩) ++
      (E 1).mapIdx fun k op => ⟨(cfg.enabledCdevs 1).cdevId, baseTicket cfg cl 1 + k, op⟩
  deqs : r.deqs = D 0 ++ D 1
  heap₀ : h₀ 0 = x.heap
  heap₁ : h₀ 1 = storeReturns x.heap (x.devScript cfg cl 0).returns (D 0)
  heap : r.heap = storeReturns (h₀ 1) (x.devScript cfg cl 1).returns (D 1)
  /-- The device phases end in `r₂`; the closes are all that is left. -/
  closes : r = finishJobs cfg x.ch x.script x.size r₂
  registry : r₂.cl.registry = (x.sorted cfg cl).cl.registry
  queues : ∀ dev, dev ≠ (cfg.enabledCdevs 0).cdevId → dev ≠ (cfg.enabledCdevs 1).cdevId →
    r.cl.queues dev = cl.queues dev
  unlisted : ∀ j, (∀ d < 2, j ∉ (x.sorted cfg cl).idxs d) →
    r₂.jobs j = (x.sorted cfg cl).jobs j
  listed : ∀ d < 2, ∀ j ∈ (x.sorted cfg cl).idxs d, r.jobs j = r₂.jobs j

lemma finishJobs_jobs_of_listed {d j : ℕ} {r₂ : Run} (hj : j ∈ (x.sorted cfg cl).idxs d)
    (htype : (r₂.jobs j).op.opType = ((x.sorted cfg cl).jobs j).op.opType) :
    (finishJobs cfg x.ch x.script x.size r₂).jobs j = r₂.jobs j := by
  obtain ⟨hlt, hl⟩ := mem_scan_idxs.mp hj
  have hsorted : (x.sorted cfg cl).jobs j = _ := hl.job hlt
  refine postprocessJobs_jobs_of_ne ?_
  show (r₂.jobs j).op.opType ≠ _
  rw [htype, hsorted]
  show (x.jobs j).op.opType ≠ _
  rw [(listed_iff.mp hl).2.1]
  decide

/-- What a device did is the same seen from a later state in which its jobs and its queue are as it
left them. -/
lemma DevOutcome.facts {d base : ℕ} {r r' t : Run} {E : List CryptoOp} {D : List DevEvent}
    (o : DevOutcome cfg x cl d r r' base E D)
    (hstart : ∀ j ∈ (x.sorted cfg cl).idxs d, r.jobs j = (x.sorted cfg cl).jobs j)
    (hjobs : ∀ j ∈ (x.sorted cfg cl).idxs d, t.jobs j = r'.jobs j)
    (hqueue : t.cl.queues (cfg.enabledCdevs d).cdevId =
      r'.cl.queues (cfg.enabledCdevs d).cdevId) : DevFacts cfg x cl d r.heap base E D t := by
  refine ⟨o.returned, o.tickets, fun p hp => ?_, o.prepared, fun hs => ?_, o.refused⟩
  · have hmem := getD_mem hp
    rw [hjobs _ hmem, o.job p hp, hstart _ hmem]
  · rw [hqueue]
    exact o.served hs

theorem devicePhase_outcome {r2 : Run} (hnb : cfg.nbCryptodevs = 2)
    (hne : (cfg.enabledCdevs 0).cdevId ≠ (cfg.enabledCdevs 1).cdevId) (hidle : Idle cl)
    (hsize : x.size ≤ maxJobsBurstSize) (h : x.devicePhase cfg cl = some r2) :
    ∃ h₀ E D, BurstOutcome cfg x cl (finishJobs cfg x.ch x.script x.size r2) r2 h₀ E D := by
  rw [devicePhase_two hnb] at h
  obtain ⟨⟨r2, ok2⟩, hbind, rfl⟩ := Option.map_eq_some_iff.mp h
  obtain ⟨⟨r1, ok1⟩, h1, h2⟩ := Option.bind_eq_some_iff.mp hbind
  simp only at h2
  -- each device in turn; the second one meets the queue and the jobs as they were
  have hstart : ((x.sorted cfg cl).start x.heap).cl.queues = cl.queues :=
    scan_queues cfg x cl x.size
  obtain ⟨E0, D0, o0⟩ := innerRun_outcome hsize rfl (fun _ _ => rfl)
    (by rw [hstart]; exact hidle _) h1
  rw [hstart] at o0
  have hreg1 : r1.cl.registry = (x.sorted cfg cl).cl.registry := (runJobsInner_sessions h1).1
  have hdisj : ∀ j ∈ (x.sorted cfg cl).idxs 1, j ∉ (x.sorted cfg cl).idxs 0 := fun j hj hj' =>
    absurd (scan_idxs_disjoint hj hj') (by decide)
  have hq1 : r1.cl.queues (cfg.enabledCdevs 1).cdevId =
      cl.queues (cfg.enabledCdevs 1).cdevId := by
    rw [runJobsInner_queues_of_ne h1 hne.symm, hstart]
  obtain ⟨E1, D1, o1⟩ := innerRun_outcome hsize hreg1
    (fun j hj => o0.other j (hdisj j hj)) (by rw [hq1]; exact hidle _) h2
  rw [hq1] at o1
  have hfin : ∀ d < 2, ∀ j ∈ (x.sorted cfg cl).idxs d,
      (finishJobs cfg x.ch x.script x.size r2).jobs j = r2.jobs j := by
    intro d _ j hj
    obtain ⟨st1, hst1⟩ := o0.statusOnly j
    obtain ⟨st2, hst2⟩ := o1.statusOnly j
    refine finishJobs_jobs_of_listed hj ?_
    rw [hst2, hst1]
    rfl
  have hqueues : (finishJobs cfg x.ch x.script x.size r2).cl.queues = r2.cl.queues :=
    postprocessJobs_queues
  have hd0 : DevFacts cfg x cl 0 x.heap (baseTicket cfg cl 0) E0 D0
      (finishJobs cfg x.ch x.script x.size r2) := by
    refine o0.facts (fun _ _ => rfl) (fun j hj => ?_) ?_
    · rw [hfin 0 (by decide) j hj, o1.other j fun hj' => hdisj j hj' hj]
    · rw [hqueues, runJobsInner_queues_of_ne h2 hne]
  have hd1 : DevFacts cfg x cl 1 r1.heap (baseTicket cfg cl 1) E1 D1
      (finishJobs cfg x.ch x.script x.size r2) :=
    o1.facts (fun j hj => o0.other j (hdisj j hj)) (hfin 1 (by decide)) (by rw [hqueues])
  refine ⟨fun d => if d = 0 then x.heap else r1.heap, fun d => if d = 0 then E0 else E1,
    fun d => if d = 0 then D0 else D1, ?_⟩
  constructor
  · intro d hd
    rcases Nat.lt_succ_iff_lt_or_eq.mp hd with hd | rfl
    · obtain rfl : d = 0 := by omega
      exact hd0
    · exact hd1
  · show r2.enqs = _
    rw [o1.enqs, o0.enqs]
    rfl
  · show r2.deqs = _
    rw [o1.deqs, o0.deqs]
    rfl
  · rfl
  · exact o0.heap
  · exact o1.heap
  · rfl
  · exact (runJobsInner_sessions h2).1.trans hreg1
  · intro dev hdev0 hdev1
    rw [hqueues, runJobsInner_queues_of_ne h2 hdev1, runJobsInner_queues_of_ne h1 hdev0]
    exact congrFun (scan_queues cfg x cl x.size) dev
  · intro j hj
    rw [o1.other j (hj 1 (by decide)), o0.other j (hj 0 (by decide))]
    rfl
  · exact hfin

theorem run_outcome {r : Run} (hnb : cfg.nbCryptodevs = 2)
    (hne : (cfg.enabledCdevs 0).cdevId ≠ (cfg.enabledCdevs 1).cdevId) (hidle : Idle cl)
    (hsize0 : x.size ≠ 0) (hsize : x.size ≤ maxJobsBurstSize) (h : x.run cfg cl = some r) :
    ∃ r₂ h₀ E D, BurstOutcome cfg x cl r r₂ h₀ E D := by
  rw [run_eq_devicePhase hsize0] at h
  obtain ⟨r₂, h₂, rfl⟩ := Option.map_eq_some_iff.mp h
  exact ⟨r₂, devicePhase_outcome hnb hne hidle hsize h₂⟩

/-- The devices are idle after a burst in which the op pool served them. -/
lemma BurstOutcome.idle {r r₂ : Run} {h₀ : ℕ → Heap} {E : ℕ → List CryptoOp}
    {D : ℕ → List DevEvent} (h : BurstOutcome cfg x cl r r₂ h₀ E D) (hidle : Idle cl)
    (hserve : ∀ d < 2, (x.devScript cfg cl d).PoolServes) : Idle r.cl := by
  intro dev
  by_cases h0 : dev = (cfg.enabledCdevs 0).cdevId
  · rw [h0]
    exact ((h.dev 0 (by decide)).served (hserve 0 (by decide))).2.2
  · by_cases h1 : dev = (cfg.enabledCdevs 1).cdevId
    · rw [h1]
      exact ((h.dev 1 (by decide)).served (hserve 1 (by decide))).2.2
    · rw [h.queues dev h0 h1]
      exact hidle dev

lemma run_idle {r : Run} (hnb : cfg.nbCryptodevs = 2)
    (hne : (cfg.enabledCdevs 0).cdevId ≠ (cfg.enabledCdevs 1).cdevId) (hidle : Idle cl)
    (hsize : x.size ≤ maxJobsBurstSize) (hserve : ∀ d < 2, (x.devScript cfg cl d).PoolServes)
    (h : x.run cfg cl = some r) : Idle r.cl := by
  by_cases h0 : x.size = 0
  · rw [BurstCall.run, h0] at h
    rw [runJobs_zero h]
    exact hidle
  · obtain ⟨r₂, h₀, E, D, ho⟩ := run_outcome hnb hne hidle h0 hsize h
    exact ho.idle hidle hserve

lemma releaseSlot_queues (ch dev i : ℕ) (ans : ReleaseAns) (cl : Client) :
    (releaseSlot ch dev i ans cl).queues = cl.queues := by
  unfold releaseSlot
  split <;> rfl

-- for any number of slots, so that nothing unfolds the loop over `MAX_SESS_NUM` of them
lemma releaseSlots_queues (n m ch : ℕ) (ans : ℕ → ℕ → ReleaseAns) (cl : Client) :
    (forUpTo n (fun dev cl => forUpTo m (fun i cl => releaseSlot ch dev i (ans dev i) cl) cl)
      cl).queues = cl.queues :=
  forUpTo_frame Client.queues fun _ _ _ =>
    forUpTo_frame Client.queues fun _ _ _ => releaseSlot_queues _ _ _ _ _

lemma cleanupConn_queues (cfg : Config) (ch : ℕ) (ans : ℕ → ℕ → ReleaseAns) (cl : Client) :
    (cleanupConn cfg ch ans cl).queues = cl.queues := by
  rw [cleanupConn, removeAllSessions, releaseSlots_queues]

lemma cleanupConn_idle (cfg : Config) (ch : ℕ) (ans : ℕ → ℕ → ReleaseAns) {cl : Client}
    (hidle : Idle cl) : Idle (cleanupConn cfg ch ans cl) := by
  intro dev
  rw [cleanupConn_queues]
  exact hidle dev

/-! ## Events of a burst -/

section Events

variable {r r₂ : Run} {h₀ : ℕ → Heap} {E : ℕ → List CryptoOp} {D : ℕ → List DevEvent}

lemma mem_mapIdx_event {dev : UInt8} {base : ℕ} {Ed : List CryptoOp} {ev : DevEvent} :
    ev ∈ (Ed.mapIdx fun k op => (⟨dev, base + k, op⟩ : DevEvent)) ↔
      ∃ k op, Ed[k]? = some op ∧ ev = ⟨dev, base + k, op⟩ := by
  rw [List.mem_mapIdx]
  constructor
  · rintro ⟨k, hk, rfl⟩
    exact ⟨k, Ed[k], List.getElem?_eq_getElem hk, rfl⟩
  · rintro ⟨k, op, hop, rfl⟩
    obtain ⟨hk, rfl⟩ := List.getElem?_eq_some_iff.mp hop
    exact ⟨k, hk, rfl⟩

lemma BurstOutcome.mem_enqs (h : BurstOutcome cfg x cl r r₂ h₀ E D) {ev : DevEvent} :
    ev ∈ r.enqs ↔ ∃ d < 2, ∃ k op, (E d)[k]? = some op ∧
      ev = ⟨(cfg.enabledCdevs d).cdevId, baseTicket cfg cl d + k, op⟩ := by
  rw [h.enqs, List.mem_append, mem_mapIdx_event, mem_mapIdx_event]
  constructor
  · rintro (h0 | h1)
    · exact ⟨0, by decide, h0⟩
    · exact ⟨1, by decide, h1⟩
  · rintro ⟨d, hd, hx⟩
    rcases Nat.lt_succ_iff_lt_or_eq.mp hd with hd | rfl
    · obtain rfl : d = 0 := by omega
      exact .inl hx
    · exact .inr hx

lemma BurstOutcome.of_mem_deqs (h : BurstOutcome cfg x cl r r₂ h₀ E D) {ev : DevEvent}
    (hev : ev ∈ r.deqs) : ∃ d < 2, ∃ (q : ℕ) (a : Return),
      (x.devScript cfg cl d).returns[q]? = some a ∧
        ReturnedAs (cfg.enabledCdevs d).cdevId (baseTicket cfg cl d) (E d) a ev := by
  rw [h.deqs, List.mem_append] at hev
  rcases hev with hev | hev
  · exact ⟨0, by decide, forall₂_getElem (h.dev 0 (by decide)).returned hev⟩
  · exact ⟨1, by decide, forall₂_getElem (h.dev 1 (by decide)).returned hev⟩

lemma BurstOutcome.mem_deqs (h : BurstOutcome cfg x cl r r₂ h₀ E D) {d : ℕ} (hd : d < 2)
    {a : Return} (ha : a ∈ (x.devScript cfg cl d).returns) : ∃ ev ∈ r.deqs,
      ReturnedAs (cfg.enabledCdevs d).cdevId (baseTicket cfg cl d) (E d) a ev := by
  obtain ⟨ev, hev, hret⟩ := forall₂_mem (h.dev d hd).returned ha
  refine ⟨ev, ?_, hret⟩
  rw [h.deqs, List.mem_append]
  rcases Nat.lt_succ_iff_lt_or_eq.mp hd with hd | rfl
  · obtain rfl : d = 0 := by omega
    exact .inl hev
  · exact .inr hev

end Events

end Outcome

end CiphApp
