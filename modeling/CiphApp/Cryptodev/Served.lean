import CiphApp.Cryptodev.Burst

/-!
# Bursts that are served

The results about single bursts start from a run that exists.  This file is the other half: on
idle devices `run_jobs` returns whenever the environment serves it.  The op pool hands out what is
asked for, the device accepts the whole burst, and each operation comes back once, with any
status, in any order and in portions of any size; only the last dequeue call must bring something.

## The interface

* `DevScript.Serves` is the condition on the environment of one device, and `BurstCall.Served` asks
  it of every device that has jobs; `run_returns` is the result.
* `DevScript.ServesInOrder` is a special case, where a device processes every operation and returns
  them in the order in which it got them.  Then a job fails on the device exactly if its own result
  is an error (`BurstOutcome.deviceError_iff`); `run_jobs_inner` writes results to jobs by position,
  so in another order this need not be so.
* A burst none of whose jobs goes to a device returns in every environment
  (`run_returns_of_unlisted`).  `refusing` is the other way to get past the devices: the op pool
  refuses the first request, and the device loop does nothing.
* `servedScript` and `cipherCall` are a burst of one job with the environment that serves it, for
  the witnesses of later files.
-/

namespace CiphApp

open Lib

/-- **The script serves a list of `n` jobs** whose operations get the tickets from `base` on.  The
draining loop asks for `asked` operations at a time. -/
structure DevScript.Serves (script : DevScript) (asked base n : ℕ) : Prop where
  round : ∃ ops R, script.rounds = [⟨some ops, n, R⟩] ∧ R.length ≤ n
  drain : ∀ D ∈ script.drain, D.length ≤ asked
  last : ∀ D, script.drain.getLast? = some D → D ≠ []
  tickets : (script.returns.map (·.ticket)).Perm (List.range' base n)

lemma DevScript.Serves.poolServes {script : DevScript} {asked base n : ℕ}
    (h : script.Serves asked base n) : script.PoolServes := by
  obtain ⟨ops, R, hr, -⟩ := h.round
  intro q hq
  rw [hr, List.mem_singleton] at hq
  rw [hq]
  rfl

/-- Both devices are served, as far as they have jobs. -/
def BurstCall.Served (x : BurstCall) (cfg : Config) (cl : Client) : Prop :=
  ∀ d < 2, (x.sorted cfg cl).idxs d ≠ [] →
    (x.script.dev d).Serves cfg.drainAsked (baseTicket cfg cl d)
      ((x.sorted cfg cl).idxs d).length

lemma BurstCall.Served.poolServes {x : BurstCall} {cfg : Config} {cl : Client}
    (h : x.Served cfg cl) {d : ℕ} (hd : d < 2) : (x.devScript cfg cl d).PoolServes := by
  unfold BurstCall.devScript
  split_ifs with hnil
  · intro r hr
    simp at hr
  · exact (h d hd hnil).poolServes

/-! ## One device -/

section Inner

variable {cfg : Config} {ch : ℕ} {dev : UInt8} {idxs : List ℕ} {r₀ : Run} {base : ℕ}
  {E : List CryptoOp} {R : List Return} {s : Inner}

lemma dequeueBurst_returns {as : List Return} {r : Run} {T : List ℕ}
    (ht : Tickets base E T (r.cl.queues dev).queue) (hnd : (T ++ as.map (·.ticket)).Nodup)
    (hr : ∀ a ∈ as, base ≤ a.ticket ∧ a.ticket < base + E.length) :
    ∃ ops r', dequeueBurst dev as r = some (ops, r') := by
  induction as generalizing r T with
  | nil => exact ⟨[], r, rfl⟩
  | cons a as ih =>
      have hnew : a.ticket ∉ T := fun hmem =>
        (List.nodup_append.mp hnd).2.2 _ hmem _ (by simp) rfl
      obtain ⟨h1, h2⟩ := hr a List.mem_cons_self
      obtain ⟨op, hop⟩ := ht.held h1 h2 hnew
      have ht' : Tickets base E (T ++ [a.ticket])
          ((r.dequeue dev a { op with status := a.status }).cl.queues dev).queue := by
        simpa [Run.dequeue] using ht.dequeue hop
      obtain ⟨ops, r', hrun⟩ := ih ht' (by simpa using hnd) fun b hb =>
        hr b (List.mem_cons_of_mem a hb)
      exact ⟨{ op with status := a.status } :: ops, r', by simp [dequeueBurst, hop, hrun]⟩

lemma InnerInv.collect_returns (h : InnerInv cfg ch dev idxs r₀ base E R s) {asked : ℕ}
    {as : List Return} (hlen : as.length ≤ asked) (hnd : ((R ++ as).map (·.ticket)).Nodup)
    (hr : ∀ a ∈ as, base ≤ a.ticket ∧ a.ticket < base + E.length) :
    ∃ s', CiphApp.collect dev idxs asked as s = some s' := by
  rw [List.map_append] at hnd
  obtain ⟨ops, r', hrun⟩ := dequeueBurst_returns h.tickets hnd hr
  exact ⟨_, by rw [CiphApp.collect, if_neg (by omega), hrun, Option.map_some]⟩

/-- The draining loop ends when the last call brings the last operation. -/
lemma InnerInv.drainLoop_returns (h : InnerInv cfg ch dev idxs r₀ base E R s)
    {ds : List (List Return)} (hasked : ∀ D ∈ ds, D.length ≤ cfg.drainAsked)
    (hlast : ∀ D, ds.getLast? = some D → D ≠ [])
    (hlen : (R ++ ds.flatten).length = idxs.length)
    (hnd : ((R ++ ds.flatten).map (·.ticket)).Nodup)
    (hr : ∀ a ∈ ds.flatten, base ≤ a.ticket ∧ a.ticket < base + E.length) :
    ∃ s', CiphApp.drainLoop cfg dev idxs ds s = some s' := by
  have hdeqd := h.deqd
  induction ds generalizing s R with
  | nil =>
      refine ⟨s, ?_⟩
      rw [CiphApp.drainLoop, if_neg]
      simp only [List.flatten_nil, List.append_nil] at hlen
      omega
  | cons d ds ih =>
      -- something is still missing, since the last call brings something
      have hsome : 0 < (d :: ds).flatten.length := by
        have hD := List.getLast?_eq_some_getLast (List.cons_ne_nil d ds)
        set D := (d :: ds).getLast (List.cons_ne_nil d ds)
        obtain ⟨a, ha⟩ := List.exists_mem_of_ne_nil D (hlast D hD)
        exact List.length_pos_of_mem (List.mem_flatten_of_mem (List.mem_of_getLast? hD) ha)
      have hlt : s.opsDeqdTotal < idxs.length := by
        rw [List.length_append] at hlen
        omega
      rw [List.flatten_cons, ← List.append_assoc] at hlen hnd
      have hnd' : ((R ++ d).map (·.ticket)).Nodup := by
        rw [List.map_append] at hnd
        exact (List.nodup_append.mp hnd).1
      obtain ⟨s1, hs1⟩ := h.collect_returns (hasked d List.mem_cons_self) hnd' fun a ha =>
        hr a (List.mem_append_left _ ha)
      have h1 := h.collect hs1
      obtain ⟨s', hs'⟩ := ih h1 (fun D hD => hasked D (List.mem_cons_of_mem d hD))
        (fun D hD => hlast D (by rw [List.getLast?_cons, hD]; rfl)) hlen hnd
        (fun a ha => hr a (List.mem_append_right _ ha)) h1.deqd
      exact ⟨s', by rw [CiphApp.drainLoop, if_pos hlt, hs1]; exact hs'⟩

/-- **A served call of `run_jobs_inner` returns 0.** -/
lemma runJobsInner_returns (hn : idxs.length < 2 ^ 16) (h0 : idxs ≠ [])
    (hmax : idxs.length ≤ cfg.maxBurstSize.toNat) (hq : (r₀.cl.queues dev).queue = [])
    {script : DevScript}
    (hs : script.Serves cfg.drainAsked (r₀.cl.queues dev).next idxs.length) :
    ∃ r', runJobsInner cfg ch dev idxs script r₀ = some (r', true) := by
  obtain ⟨ops, R, hround, hR⟩ := hs.round
  have hpos : 0 < idxs.length := List.length_pos_iff.mpr h0
  have hret : script.returns = R ++ script.drain.flatten := by
    simp [DevScript.returns, hround]
  have htickets := hs.tickets
  rw [hret] at htickets
  have hnd : ((R ++ script.drain.flatten).map (·.ticket)).Nodup :=
    htickets.nodup_iff.mpr List.nodup_range'
  have hrange : ∀ a ∈ R ++ script.drain.flatten, (r₀.cl.queues dev).next ≤ a.ticket ∧
      a.ticket < (r₀.cl.queues dev).next + idxs.length := by
    intro a ha
    simpa using htickets.mem_iff.mp (List.mem_map_of_mem ha)
  have hlen : (R ++ script.drain.flatten).length = idxs.length := by
    have := htickets.length_eq
    rwa [List.length_map, List.length_range'] at this
  obtain ⟨s0, hs0, he, hu⟩ : ∃ s0 : Inner, ⟨r₀, 0, 0, 0⟩ = s0 ∧ s0.opsEnqdTotal = 0 ∧
    s0.opsUnused = 0 := ⟨_, rfl, rfl, rfl⟩
  have hinv : InnerInv cfg ch dev idxs r₀ (r₀.cl.queues dev).next [] [] s0 :=
    hs0 ▸ InnerInv.start hq rfl
  -- the one round offers and accepts everything
  have hneed : sub16 (burstSize cfg s0.opsEnqdTotal idxs.length) s0.opsUnused = idxs.length := by
    rw [he, hu, burstSize_eq hn, Nat.sub_zero, min_eq_right hmax, sub16_eq (Nat.zero_le _) hn,
      Nat.sub_zero]
  have hsub := hinv.submit hn (he ▸ hpos) ops hneed.ge
  have hE : ([] ++ preparedOps cfg ch dev idxs ops idxs.length s0.run).length = idxs.length := by
    simp [preparedOps]
  obtain ⟨s1, hs1⟩ := hsub.collect_returns (hR.trans hneed.ge)
    (by rw [List.map_append] at hnd; exact (List.nodup_append.mp hnd).1)
    fun a ha => hE.symm ▸ hrange a (List.mem_append_left _ ha)
  have hinv1 := hsub.collect hs1
  have hmade : enqueueRound cfg ch dev idxs ops ⟨some ops, idxs.length, R⟩ s0 = some s1 := by
    simp only [enqueueRound, if_neg hneed.ge.not_gt]
    exact hs1
  have hloop : enqueueLoop cfg ch dev idxs script.rounds s0 = some (s1, true) := by
    have henqd : s1.opsEnqdTotal = idxs.length := hinv1.enqd.trans hE
    rw [hround, enqueueLoop_of_round (he ▸ hpos) rfl hmade, enqueueLoop, if_neg (by omega)]
  obtain ⟨s2, hs2⟩ := hinv1.drainLoop_returns hs.drain hs.last hlen hnd
    fun a ha => hE.symm ▸ hrange a (List.mem_append_right _ ha)
  exact ⟨s2.run, by rw [runJobsInner, hs0, hloop]; simp only [hs2, Option.map_some]⟩

end Inner

/-! ## The whole burst -/

section Burst

variable {cfg : Config} {x : BurstCall} {cl : Client}

lemma innerRun_returns (d : ℕ) (hd : d < 2) (hsize : x.size ≤ maxJobsBurstSize)
    (hmax : x.size ≤ cfg.maxBurstSize.toNat) (hs : x.Served cfg cl) {r : Run}
    (hq : r.cl.queues (cfg.enabledCdevs d).cdevId = cl.queues (cfg.enabledCdevs d).cdevId)
    (hidle : Idle cl) : ∃ r', x.innerRun cfg cl d r = some (r', true) := by
  have hlen : ((x.sorted cfg cl).idxs d).length ≤ x.size := scan_idxs_length_le cfg x cl d x.size
  have h64 : maxJobsBurstSize < 2 ^ 16 := by decide
  unfold BurstCall.innerRun BurstCall.devScript
  split_ifs with hnil
  · exact ⟨r, by simp [hnil, runJobsInner, enqueueLoop, drainLoop]⟩
  · refine runJobsInner_returns (by omega) hnil (by omega) ?_ ?_
    · rw [hq]
      exact hidle _
    · rw [hq]
      exact hs d hd hnil

/-- **A served burst returns.** -/
theorem run_returns (hnb : cfg.nbCryptodevs = 2)
    (hne : (cfg.enabledCdevs 0).cdevId ≠ (cfg.enabledCdevs 1).cdevId) (hidle : Idle cl)
    (hsize : x.size ≤ maxJobsBurstSize) (hmax : x.size ≤ cfg.maxBurstSize.toNat)
    (hs : x.Served cfg cl) : ∃ r, x.run cfg cl = some r := by
  by_cases h0 : x.size = 0
  · rw [BurstCall.run, runJobs, if_pos h0]
    exact ⟨_, rfl⟩
  · have hstart : ((x.sorted cfg cl).start x.heap).cl.queues = cl.queues :=
      scan_queues cfg x cl x.size
    obtain ⟨r1, h1⟩ := innerRun_returns 0 Nat.two_pos hsize hmax hs (congrFun hstart _) hidle
    have hq1 : r1.cl.queues (cfg.enabledCdevs 1).cdevId =
        cl.queues (cfg.enabledCdevs 1).cdevId := by
      rw [runJobsInner_queues_of_ne h1 hne.symm, hstart]
    obtain ⟨r2, h2⟩ := innerRun_returns 1 Nat.one_lt_two hsize hmax hs hq1 hidle
    rw [run_two_devices hnb h0, h1, Option.bind_some, h2, Option.map_some]
    exact ⟨_, rfl⟩

lemma runDevices_of_nil {idxs : ℕ → List ℕ} (h : ∀ d, idxs d = []) (ch : ℕ)
    (script : ℕ → DevScript) (n : ℕ) (r : Run) :
    runDevices cfg ch script idxs n r = some r := by
  induction n with
  | zero => rfl
  | succ n ih => rw [runDevices, ih, Option.bind_some, if_pos (h n)]

/-- The op pool refuses the first request. -/
def refusing : DevScript := ⟨[⟨none, 0, []⟩], []⟩

/-- If the pool refuses every device its first request, the device loop does nothing. -/
lemma runDevices_refusing (cfg : Config) (ch : ℕ) (idxs : ℕ → List ℕ) (n : ℕ) (r : Run) :
    runDevices cfg ch (fun _ => refusing) idxs n r = some r := by
  induction n with
  | zero => rfl
  | succ n ih =>
      rw [runDevices, ih, Option.bind_some]
      split_ifs with hnil
      · rfl
      · have hpos : 0 < (idxs n).length := List.length_pos_iff.mpr hnil
        simp [refusing, runJobsInner, enqueueLoop, hpos]

/-- A burst none of whose jobs goes to a device returns, whatever state the devices are in. -/
lemma run_returns_of_unlisted (h : ∀ d, ∀ i < x.size, ¬Listed cfg x cl d i) :
    ∃ r, x.run cfg cl = some r := by
  by_cases h0 : x.size = 0
  · rw [BurstCall.run, runJobs, if_pos h0]
    exact ⟨_, rfl⟩
  · have hnil : ∀ d, (x.scan cfg cl x.size).idxs d = [] := fun d =>
      List.eq_nil_iff_forall_not_mem.mpr fun i hi => h d i (mem_scan_idxs.mp hi).1
        (mem_scan_idxs.mp hi).2
    rw [BurstCall.run, runJobs, if_neg h0]
    exact ⟨_, congrArg (Option.map _) (runDevices_of_nil hnil _ _ _ _)⟩

end Burst

/-! ## Results in order -/

/-- The script serves the list and the operations come back in the order they were enqueued, each
processed. -/
structure DevScript.ServesInOrder (script : DevScript) (asked base n : ℕ) : Prop
    extends script.Serves asked base n where
  fifo : script.returns.map (·.ticket) = List.range' base n
  processed : ∀ a ∈ script.returns, a.status ≠ .notProcessed

/-- Both devices are served in order, as far as they have jobs. -/
def BurstCall.ServedInOrder (x : BurstCall) (cfg : Config) (cl : Client) : Prop :=
  ∀ d < 2, (x.sorted cfg cl).idxs d ≠ [] →
    (x.script.dev d).ServesInOrder cfg.drainAsked (baseTicket cfg cl d)
      ((x.sorted cfg cl).idxs d).length

/-- A device reported an error on the job. -/
def DeviceError (r : Run) (j : ℕ) : Prop :=
  ∃ ev ∈ r.deqs, ev.op.vec = j ∧ ev.op.status ≠ .success

section InOrder

variable {cfg : Config} {x : BurstCall} {cl : Client} {r r₂ : Run} {h₀ : ℕ → Heap}
  {E : ℕ → List CryptoOp} {D : ℕ → List DevEvent}

lemma BurstCall.ServedInOrder.served (h : x.ServedInOrder cfg cl) : x.Served cfg cl :=
  fun d hd hne => (h d hd hne).toServes

/-- **The `p`-th result is that of the `p`-th job**, whose operation was prepared from the memory
the device found. -/
lemma BurstOutcome.inOrder (ho : BurstOutcome cfg x cl r r₂ h₀ E D) (hs : x.ServedInOrder cfg cl)
    (hmax : x.size ≤ cfg.maxBurstSize.toNat) {d : ℕ} (hd : d < 2) {p : ℕ}
    (hp : p < ((x.sorted cfg cl).idxs d).length) :
    ∃ a op, (x.devScript cfg cl d).returns[p]? = some a ∧ a.ticket = baseTicket cfg cl d + p ∧
      a.status ≠ .notProcessed ∧ (E d)[p]? = some op ∧
      x.Prepared cfg cl d (h₀ d) (((x.sorted cfg cl).idxs d).getD p 0) op := by
  have hne : (x.sorted cfg cl).idxs d ≠ [] := List.length_pos_iff.mp (by omega)
  have hscript : x.devScript cfg cl d = x.script.dev d := if_neg hne
  have hsd := hs d hd hne
  have hf := ho.dev d hd
  have hpool := hs.served.poolServes hd
  obtain ⟨hE, hR, -⟩ := hf.served hpool
  have hlen : ((x.sorted cfg cl).idxs d).length ≤ x.size := scan_idxs_length_le cfg x cl d x.size
  obtain ⟨a, ha⟩ : ∃ a, (x.devScript cfg cl d).returns[p]? = some a :=
    ⟨_, List.getElem?_eq_getElem (hR.symm ▸ hp)⟩
  obtain ⟨op, hop⟩ : ∃ op, (E d)[p]? = some op := ⟨_, List.getElem?_eq_getElem (hE.symm ▸ hp)⟩
  refine ⟨a, op, ha, ?_, ?_, hop, ?_⟩
  · have hget := congrArg (·[p]?) hsd.fifo
    simp only [List.getElem?_map, List.getElem?_range' hp, ← hscript, ha, Option.map_some,
      Option.some.injEq] at hget
    omega
  · exact hsd.processed a (hscript ▸ List.mem_of_getElem? ha)
  · obtain ⟨pos, -, heap, hprep, hfull⟩ := hf.prepared p op hop
    obtain ⟨hpos, hheap⟩ := hfull hpool
    rw [Nat.mod_eq_of_lt (by omega)] at hpos
    rw [hpos, hheap (by omega)] at hprep
    exact hprep

/-- A job fails on the device exactly if its own result is an error. -/
lemma BurstOutcome.deviceError_iff (ho : BurstOutcome cfg x cl r r₂ h₀ E D)
    (hs : x.ServedInOrder cfg cl) (hmax : x.size ≤ cfg.maxBurstSize.toNat) {d : ℕ} (hd : d < 2)
    {p : ℕ} (hp : p < ((x.sorted cfg cl).idxs d).length) {a : Return}
    (ha : (x.devScript cfg cl d).returns[p]? = some a) :
    DeviceError r (((x.sorted cfg cl).idxs d).getD p 0) ↔ a.status ≠ .success := by
  obtain ⟨a', op, ha', hticket, -, hop, hprep⟩ := ho.inOrder hs hmax hd hp
  obtain rfl : a = a' := by rwa [ha, Option.some.injEq] at ha'
  constructor
  · rintro ⟨ev, hev, hvec, hst⟩
    obtain ⟨d', hd', _, b, hb, k, opk, hk, hopk, rfl⟩ := ho.of_mem_deqs hev
    have hf' := ho.dev d' hd'
    have hkE := (List.getElem?_eq_some_iff.mp hopk).1
    have hkn : k < ((x.sorted cfg cl).idxs d').length :=
      (hf'.served (hs.served.poolServes hd')).1 ▸ hkE
    -- the operation that failed carries the job, so it is the one at position `p`
    obtain ⟨b', opk', hb', hticket', -, hopk', hprep'⟩ := ho.inOrder hs hmax hd' hkn
    obtain rfl : opk = opk' := by rwa [hopk, Option.some.injEq] at hopk'
    have hsame : ((x.sorted cfg cl).idxs d').getD k 0 = ((x.sorted cfg cl).idxs d).getD p 0 :=
      hprep'.vec.symm.trans hvec
    obtain rfl : d' = d := scan_idxs_disjoint (hsame ▸ getD_mem hkn) (getD_mem hp)
    obtain rfl : k = p := getD_inj (scan_idxs_nodup cfg x cl d' x.size) hkn hp hsame
    have hba : b = a := List.inj_on_of_nodup_map hf'.tickets (List.mem_of_getElem? hb)
      (List.mem_of_getElem? ha) (hk.trans hticket.symm)
    rw [← hba]
    exact hst
  · intro hst
    obtain ⟨ev, hev, k, opk, hk, hopk, rfl⟩ := ho.mem_deqs hd (List.mem_of_getElem? ha)
    obtain rfl : k = p := by omega
    obtain rfl : opk = op := by rwa [hop, Option.some.injEq, eq_comm] at hopk
    exact ⟨_, hev, hprep.vec, hst⟩

end InOrder

/-! ## A burst of one job -/

/-- A fresh operation of the op pool. -/
def freshOp : CryptoOp :=
  ⟨0, .notProcessed, none, ⟨.resp 0, 0⟩, 0, 0, 0, 0, 0, fun _ => 0, 0⟩

/-- A burst of one ciphering job on channel 0, with the given script for its device. -/
def cipherCall (sessId : UInt32) (script : DevScript) : BurstCall where
  ch := 0
  script := ⟨fun _ => ⟨none, false, ⟨true, true⟩⟩, fun _ => script⟩
  heap := ⟨fun _ _ => 0, []⟩
  jobs := fun _ => sampleJob cryptoOpTypeSessCiphering sessId cryptoCipherAesCtr
  size := 1

lemma cipherCall_honest (cfg : Config) (cl : Client) (sessId : UInt32) (script : DevScript) :
    HonestPool cfg (cipherCall sessId script) cl :=
  ⟨fun _ _ _ _ h => by simp [cipherCall] at h, fun _ _ => rfl⟩

/-- The state after an AES session was created on channel 0. -/
def createdOn (cfg : Config) : Client :=
  ((createCall cryptoCipherAesCtr).run cfg Client.init).elim Client.init Run.cl

/-- One operation is taken, accepted and returned as a success. -/
def servedScript : DevScript := ⟨[⟨some fun _ => freshOp, 1, [⟨0, .success, []⟩]⟩], []⟩

lemma servedScript_inOrder (asked : ℕ) : servedScript.ServesInOrder asked 0 1 where
  round := ⟨_, _, rfl, le_rfl⟩
  drain := fun D hD => by simp [servedScript] at hD
  last := fun D hD => by simp [servedScript] at hD
  tickets := .refl _
  fifo := rfl
  processed := by simp [servedScript, DevScript.returns]

end CiphApp
