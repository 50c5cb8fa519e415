import CiphApp.Cryptodev.PoolObject
import CiphApp.Cryptodev.Served

/-!
# When a success is a success

`preprocess_jobs` writes `SUCC` into every ciphering job before anything is submitted, and later
code may or may not correct it.  `NoFalseSuccess` is what a caller expects: a ciphering job that
leaves `run_jobs` as a success was really enqueued, came back, and was reported as processed.

It does not always hold.  If the op pool refuses a request, `run_jobs_inner` returns early and
nobody looks at its result; an operation that comes back as not processed only changes a counter;
and results are attributed by the order of return, to lists that are submitted from the front
again when they are longer than a burst.  `noFalseSuccess_iff_healthy` says that these are the
only ways if the IVs fit the objects of the op pool: on devices that are idle, such a burst has no
false success exactly when it is `Healthy`.  The devices are idle in every state that a run of
healthy bursts reaches.

The direction from left to right counts: the jobs that end as successes are the ones without a
result, with an unprocessed one or with a success, and each needs a successful operation of its
own.
-/

namespace CiphApp

open Lib

/-! ## The property -/

/-- **No false success.**  A ciphering job that ends as `SUCC` has an operation that carried its
own buffer, was enqueued on a device during the call, was dequeued again, and was reported as
successful.  An operation whose buffer address the IV copy can have overwritten does not count. -/
def NoFalseSuccess (x : BurstCall) (r : Run) : Prop :=
  ∀ j < x.size, (x.jobs j).op.opType = cryptoOpTypeSessCiphering →
    (r.jobs j).op.opStatus = cryptoOpStatusSucc →
    ∃ dev ticket op op', (⟨dev, ticket, op⟩ : DevEvent) ∈ r.enqs ∧ op.vec = j ∧
      op.Carries (x.jobs j) ∧
      (⟨dev, ticket, op'⟩ : DevEvent) ∈ r.deqs ∧ op'.status = .success

/-- The IV of every job that can be submitted fits the IV area. -/
def BurstCall.IvsFit (x : BurstCall) : Prop :=
  ∀ j < x.size, (x.jobs j).op.opStatus ≠ cryptoOpStatusFailed →
    (x.jobs j).op.opType = cryptoOpTypeSessCiphering → (x.jobs j).IvFits

/-- The environment of device position `d` during the burst is healthy: the op pool serves every
request, no operation comes back unprocessed, and whenever the `p`-th operation to come back is a
success, so is an operation that carried the job at position `p`.  The operation with number `k` of
the burst carries the job at position `k % max_burst_size`. -/
structure HealthyDev (cfg : Config) (x : BurstCall) (cl : Client) (d : ℕ) : Prop where
  serves : (x.devScript cfg cl d).PoolServes
  processed : ∀ a ∈ (x.devScript cfg cl d).returns, a.status ≠ .notProcessed
  attributed : ∀ p a, (x.devScript cfg cl d).returns[p]? = some a → a.status = .success →
    ∃ b ∈ (x.devScript cfg cl d).returns, b.status = .success ∧
      (b.ticket - baseTicket cfg cl d) % cfg.maxBurstSize.toNat = p

/-- A healthy burst: both devices are. -/
def Healthy (cfg : Config) (x : BurstCall) (cl : Client) : Prop :=
  ∀ d < 2, HealthyDev cfg x cl d

/-- All bursts of a run are healthy, and their IVs fit. -/
def healthyRuns (cfg : Config) : Assumption where
  burst := fun x cl => x.IvsFit ∧ Healthy cfg x cl
  cleanup := fun _ => True

section

variable {cfg : Config} {x : BurstCall} {cl : Client} {r r₂ : Run} {h₀ : ℕ → Heap}
  {E : ℕ → List CryptoOp} {D : ℕ → List DevEvent}

/-! ## The status a job ends with -/

/-- A ciphering job ends as a success only if it is listed. -/
lemma BurstOutcome.listed_of_succ (ho : BurstOutcome cfg x cl r r₂ h₀ E D)
    (hnb : cfg.nbCryptodevs = 2) {j : ℕ} (hj : j < x.size)
    (ht : (x.jobs j).op.opType = cryptoOpTypeSessCiphering)
    (hs : (r.jobs j).op.opStatus = cryptoOpStatusSucc) :
    ∃ d < 2, j ∈ (x.sorted cfg cl).idxs d := by
  by_contra hno
  push Not at hno
  have hnl : ∀ d, ¬Listed cfg x cl d j := fun d hl =>
    hno d (hnb ▸ hl.lt) (mem_scan_idxs.mpr ⟨hj, hl⟩)
  have hop : (r₂.jobs j).op = { (x.jobs j).op with opStatus := cryptoOpStatusFailed } := by
    rw [ho.unlisted j hno]
    exact scan_not_listed hj hnl ht
  -- the closes do not touch it
  have hfin : r.jobs j = r₂.jobs j := by
    rw [ho.closes]
    refine postprocessJobs_jobs_of_ne ?_
    show (r₂.jobs j).op.opType ≠ _
    rw [hop]
    show (x.jobs j).op.opType ≠ _
    rw [ht]
    decide
  rw [hfin, hop] at hs
  exact failed_ne_succ hs

/-- A listed job ends as a success unless its result is an error. -/
lemma DevFacts.succ_iff {d : ℕ} {h : Heap} {base : ℕ} {Ed : List CryptoOp} {Dd : List DevEvent}
    (hf : DevFacts cfg x cl d h base Ed Dd r) {p : ℕ}
    (hp : p < ((x.sorted cfg cl).idxs d).length) :
    (r.jobs (((x.sorted cfg cl).idxs d).getD p 0)).op.opStatus = cryptoOpStatusSucc ↔
      ∀ a, (x.devScript cfg cl d).returns[p]? = some a →
        a.status = .success ∨ a.status = .notProcessed := by
  obtain ⟨hlt, hl⟩ := mem_scan_idxs.mp (getD_mem hp)
  have hsorted : (x.sorted cfg cl).jobs (((x.sorted cfg cl).idxs d).getD p 0) = _ := hl.job hlt
  rw [hf.job p hp, hsorted, List.getElem?_map]
  cases (x.devScript cfg cl d).returns[p]? with
  | none => simp [CryptoOperation.afterResult, CryptoOperation.setStatus,
      CryptoOperation.setBuffListLength]
  | some a =>
      cases hst : a.status <;>
        simp [CryptoOperation.afterResult, CryptoOperation.setStatus,
          CryptoOperation.setBuffListLength, hst]

/-! ## Both directions -/

/-- A healthy device gives each of its successes an operation of its own. -/
lemma BurstOutcome.success_of_healthy (ho : BurstOutcome cfg x cl r r₂ h₀ E D) (hiv : x.IvsFit)
    {d : ℕ} (hd : d < 2) (hh : HealthyDev cfg x cl d) {p : ℕ}
    (hp : p < ((x.sorted cfg cl).idxs d).length)
    (hs : (r.jobs (((x.sorted cfg cl).idxs d).getD p 0)).op.opStatus = cryptoOpStatusSucc) :
    ∃ dev ticket op op', (⟨dev, ticket, op⟩ : DevEvent) ∈ r.enqs ∧
      op.vec = ((x.sorted cfg cl).idxs d).getD p 0 ∧
      op.Carries (x.jobs (((x.sorted cfg cl).idxs d).getD p 0)) ∧
      (⟨dev, ticket, op'⟩ : DevEvent) ∈ r.deqs ∧ op'.status = .success := by
  have hf := ho.dev d hd
  obtain ⟨-, hlen, -⟩ := hf.served hh.serves
  obtain ⟨a, ha⟩ : ∃ a, (x.devScript cfg cl d).returns[p]? = some a :=
    ⟨_, List.getElem?_eq_getElem (hlen.symm ▸ hp)⟩
  -- the result at this position is a success, so some success carried the job
  have hsucc : a.status = .success :=
    ((hf.succ_iff hp).mp hs a ha).resolve_right (hh.processed a (List.mem_of_getElem? ha))
  obtain ⟨b, hb, hbs, hbp⟩ := hh.attributed p a ha hsucc
  obtain ⟨ev, hev, k, op, hk, hop, rfl⟩ := ho.mem_deqs hd hb
  obtain ⟨pos, -, heap, hprep, hpos⟩ := hf.prepared k op hop
  obtain rfl : pos = p := by
    rw [(hpos hh.serves).1, ← hbp, hk, Nat.add_sub_cancel_left]
  obtain ⟨hlt, hl⟩ := mem_scan_idxs.mp (getD_mem hp)
  have hfit := hiv _ hlt (listed_iff.mp hl).1 (listed_iff.mp hl).2.1
  refine ⟨_, b.ticket, op, _, ho.mem_enqs.mpr ⟨d, hd, k, op, hop, ?_⟩, hprep.vec,
    hfit.carries hprep.bufAddr, hev, hbs⟩
  rw [hk]

/-- Without false successes, a success of device position `d` has a successful operation that
carried its job among the returns of this device. -/
lemma BurstOutcome.returned_of_success (ho : BurstOutcome cfg x cl r r₂ h₀ E D)
    (hne : (cfg.enabledCdevs 0).cdevId ≠ (cfg.enabledCdevs 1).cdevId)
    (hP : NoFalseSuccess x r) {d : ℕ} (hd : d < 2) {j : ℕ} (hj : j ∈ (x.sorted cfg cl).idxs d)
    (hs : (r.jobs j).op.opStatus = cryptoOpStatusSucc) :
    ∃ (q : ℕ) (a : Return) (k : ℕ) (op : CryptoOp),
      (x.devScript cfg cl d).returns[q]? = some a ∧ a.status = .success ∧
      a.ticket = baseTicket cfg cl d + k ∧ (E d)[k]? = some op ∧ op.vec = j := by
  obtain ⟨hlt, hl⟩ := mem_scan_idxs.mp hj
  obtain ⟨dev, t, op, op', henq, hvec, -, hdeq, hst⟩ := hP j hlt (listed_iff.mp hl).2.1 hs
  obtain ⟨d1, hd1, k1, op1, hop1, heq1⟩ := ho.mem_enqs.mp henq
  obtain ⟨d2, hd2, q, a, ha, k2, op2, hk2, hop2, heq2⟩ := ho.of_mem_deqs hdeq
  simp only [DevEvent.mk.injEq] at heq1 heq2
  obtain ⟨hdev1, ht1, rfl⟩ := heq1
  obtain ⟨hdev2, ht2, rfl⟩ := heq2
  -- one device and one ticket, hence one operation
  have hdd : d1 = d2 := by
    have hdev := hdev1.symm.trans hdev2
    interval_cases d1 <;> interval_cases d2 <;> simp_all
  subst hdd
  obtain rfl : k1 = k2 := by omega
  obtain rfl : op = op2 := by rwa [hop1, Option.some.injEq] at hop2
  obtain ⟨pos, hpos, heap, hprep, -⟩ := (ho.dev d1 hd1).prepared k1 op hop1
  obtain rfl : d1 = d := by
    have : j ∈ (x.sorted cfg cl).idxs d1 := by
      rw [← hvec, hprep.vec]
      exact getD_mem hpos
    exact scan_idxs_disjoint this hj
  exact ⟨q, a, k1, op, ha, hst, hk2, hop1, hvec⟩

/-- **Counting.**  Without false successes, the jobs that end as successes are exactly those whose
result is one: each of them has a successful operation of its own, and there are no more
successful operations than successful results. -/
lemma BurstOutcome.success_results (ho : BurstOutcome cfg x cl r r₂ h₀ E D)
    (hne : (cfg.enabledCdevs 0).cdevId ≠ (cfg.enabledCdevs 1).cdevId)
    (hP : NoFalseSuccess x r) {d : ℕ} (hd : d < 2) {p : ℕ}
    (hp : p < ((x.sorted cfg cl).idxs d).length)
    (hs : (r.jobs (((x.sorted cfg cl).idxs d).getD p 0)).op.opStatus = cryptoOpStatusSucc) :
    ∃ a, (x.devScript cfg cl d).returns[p]? = some a ∧ a.status = .success := by
  classical
  have hf := ho.dev d hd
  have hnd : ((x.sorted cfg cl).idxs d).Nodup := scan_idxs_nodup cfg x cl d x.size
  set idxs := (x.sorted cfg cl).idxs d with hidxs
  set R := (x.devScript cfg cl d).returns with hR
  have hle : R.length ≤ idxs.length := by
    by_cases hserve : (x.devScript cfg cl d).PoolServes
    · exact (hf.served hserve).2.1.le
    · exact (hf.refused hserve).le
  let U := (Finset.range idxs.length).filter fun p =>
    (r.jobs (idxs.getD p 0)).op.opStatus = cryptoOpStatusSucc
  let S := (Finset.range idxs.length).filter fun p => ∃ a, R[p]? = some a ∧ a.status = .success
  have hSU : S ⊆ U := by
    intro q hq
    obtain ⟨hq1, a, ha, hst⟩ := Finset.mem_filter.mp hq
    refine Finset.mem_filter.mpr ⟨hq1, (hf.succ_iff (Finset.mem_range.mp hq1)).mpr ?_⟩
    intro b hb
    obtain rfl : a = b := by rwa [ha, Option.some.injEq] at hb
    exact .inl hst
  have hUS : U = S := by
    refine eq_of_partners (fun p q => p < idxs.length ∧ ∃ a k op, R[q]? = some a ∧
      a.ticket = baseTicket cfg cl d + k ∧ (E d)[k]? = some op ∧ op.vec = idxs.getD p 0)
      hSU ?_ ?_
    · intro q hq
      obtain ⟨hq1, hq2⟩ := Finset.mem_filter.mp hq
      rw [Finset.mem_range] at hq1
      obtain ⟨q', a, k, op, ha, hst, hk, hop, hvec⟩ :=
        ho.returned_of_success hne hP hd (getD_mem hq1) hq2
      obtain ⟨hlt, -⟩ := List.getElem?_eq_some_iff.mp ha
      exact ⟨q', Finset.mem_filter.mpr ⟨Finset.mem_range.mpr (lt_of_lt_of_le hlt hle), a, ha, hst⟩,
        hq1, a, k, op, ha, hk, hop, hvec⟩
    · rintro q q' t ⟨hq, a, k, op, ha, hk, hop, hvec⟩ ⟨hq', a', k', op', ha', hk', hop', hvec'⟩
      obtain rfl : a = a' := by rwa [ha, Option.some.injEq] at ha'
      obtain rfl : k = k' := by omega
      obtain rfl : op = op' := by rwa [hop, Option.some.injEq] at hop'
      exact getD_inj hnd hq hq' (hvec.symm.trans hvec')
  have hpS : p ∈ S := by
    rw [← hUS]
    exact Finset.mem_filter.mpr ⟨Finset.mem_range.mpr hp, hs⟩
  exact (Finset.mem_filter.mp hpS).2

lemma BurstOutcome.healthy_of_noFalseSuccess (ho : BurstOutcome cfg x cl r r₂ h₀ E D)
    (hne : (cfg.enabledCdevs 0).cdevId ≠ (cfg.enabledCdevs 1).cdevId)
    (hP : NoFalseSuccess x r) {d : ℕ} (hd : d < 2) : HealthyDev cfg x cl d := by
  have hf := ho.dev d hd
  have hserve : (x.devScript cfg cl d).PoolServes := by
    by_contra hno
    -- the first job without a result is a success
    have hlt := hf.refused hno
    obtain ⟨a, ha, -⟩ := ho.success_results hne hP hd hlt ((hf.succ_iff hlt).mpr (by simp))
    simp at ha
  have hlen := (hf.served hserve).2.1
  refine ⟨hserve, fun a ha hst => ?_, fun p a ha hst => ?_⟩
  · obtain ⟨p, hp, rfl⟩ := List.getElem_of_mem ha
    obtain ⟨b, hb, hbs⟩ := ho.success_results hne hP hd (hlen ▸ hp) ((hf.succ_iff (hlen ▸ hp)).mpr
      fun b hb => by
        rw [List.getElem?_eq_getElem hp, Option.some.injEq] at hb
        exact .inr (hb ▸ hst))
    rw [List.getElem?_eq_getElem hp, Option.some.injEq] at hb
    rw [← hb, hst] at hbs
    exact absurd hbs (by decide)
  · obtain ⟨hp, -⟩ := List.getElem?_eq_some_iff.mp ha
    have hp' : p < ((x.sorted cfg cl).idxs d).length := hlen ▸ hp
    have hsucc := (hf.succ_iff hp').mpr fun b hb => by
      rw [ha, Option.some.injEq] at hb
      exact .inl (hb ▸ hst)
    obtain ⟨q, b, k, op, hb, hbs, hk, hop, hvec⟩ :=
      ho.returned_of_success hne hP hd (getD_mem hp') hsucc
    obtain ⟨pos, hpos, heap, hprep, hfull⟩ := hf.prepared k op hop
    have hnd : ((x.sorted cfg cl).idxs d).Nodup := scan_idxs_nodup cfg x cl d x.size
    obtain rfl : pos = p := getD_inj hnd hpos hp' (hprep.vec.symm.trans hvec)
    refine ⟨b, List.mem_of_getElem? hb, hbs, ?_⟩
    rw [hk, Nat.add_sub_cancel_left]
    exact (hfull hserve).1.symm

lemma BurstOutcome.noFalseSuccess_iff (ho : BurstOutcome cfg x cl r r₂ h₀ E D)
    (hnb : cfg.nbCryptodevs = 2)
    (hne : (cfg.enabledCdevs 0).cdevId ≠ (cfg.enabledCdevs 1).cdevId) (hiv : x.IvsFit) :
    NoFalseSuccess x r ↔ Healthy cfg x cl := by
  constructor
  · intro hP d hd
    exact ho.healthy_of_noFalseSuccess hne hP hd
  · intro hh j hj ht hs
    obtain ⟨d, hd, hmem⟩ := ho.listed_of_succ hnb hj ht hs
    obtain ⟨p, hp, rfl⟩ := exists_getD_eq hmem
    exact ho.success_of_healthy hiv hd (hh d hd) hp hs

end

/-! ## Healthy runs -/

/-- A call without jobs is healthy: no device is looked at. -/
lemma healthy_of_size_zero {cfg : Config} {x : BurstCall} {cl : Client} (h : x.size = 0) :
    Healthy cfg x cl := by
  have hscript : ∀ d, x.devScript cfg cl d = ⟨[], []⟩ := by
    intro d
    have hnil : (x.sorted cfg cl).idxs d = [] := by
      rw [BurstCall.sorted, h]
      rfl
    rw [BurstCall.devScript, if_pos hnil]
  intro d _
  refine ⟨?_, ?_, ?_⟩ <;> simp [hscript, DevScript.PoolServes, DevScript.returns]

/-- **The devices are idle between the bursts of a healthy run.** -/
lemma Reachable.idle {cfg : Config} (hnb : cfg.nbCryptodevs = 2)
    (hne : (cfg.enabledCdevs 0).cdevId ≠ (cfg.enabledCdevs 1).cdevId) {cl : Client}
    (h : Reachable cfg (healthyRuns cfg) cl) : Idle cl := by
  refine run_induct (fun cl cl' hs hq => ?_) h fun dev => rfl
  cases hs with
  | burst x r hch hsize hx hrun =>
      exact run_idle hnb hne hq hsize (fun d hd => (hx.2 d hd).serves) hrun
  | cleanup ch ans hch hans => exact cleanupConn_idle cfg ch ans hq

/-- **When a success is a success.**  Whatever two different devices were found, in every state
that a run of healthy bursts reaches, a further burst has no false success exactly when it is
healthy too; the IVs fit in all of them. -/
theorem noFalseSuccess_iff_healthy (a s : UInt8) (aes snow : List UInt8) (hdist : a ≠ s)
    (maxBurstSize : UInt32) (behind : UInt32 → RteCipherOp) (cfg : Config)
    (hcfg : initInner (a :: aes) (s :: snow) maxBurstSize behind = some cfg) (cl : Client)
    (hreach : Reachable cfg (healthyRuns cfg) cl) (x : BurstCall) (hsize : x.size ≤ 64)
    (hiv : x.IvsFit) (r : Run) (hrun : x.run cfg cl = some r) :
    NoFalseSuccess x r ↔ Healthy cfg x cl := by
  obtain rfl : Config.ofDevices a s maxBurstSize behind = cfg := by simpa [initInner] using hcfg
  have hne : ((Config.ofDevices a s maxBurstSize behind).enabledCdevs 0).cdevId ≠
      ((Config.ofDevices a s maxBurstSize behind).enabledCdevs 1).cdevId := hdist
  by_cases h0 : x.size = 0
  · refine ⟨fun _ => healthy_of_size_zero h0, fun _ j hj => ?_⟩
    omega
  · obtain ⟨r₂, h₀, E, D, ho⟩ := run_outcome rfl hne (hreach.idle rfl hne) h0 hsize hrun
    exact ho.noFalseSuccess_iff rfl hne hiv

lemma healthyRuns_createdOn :
    Reachable (sampleConfig 0 1) (healthyRuns (sampleConfig 0 1))
      (createdOn (sampleConfig 0 1)) := by
  have hempty : ∀ d, (createCall cryptoCipherAesCtr).devScript (sampleConfig 0 1) Client.init d =
      ⟨[], []⟩ := fun _ => rfl
  refine .single (.burst (createCall cryptoCipherAesCtr) _ (by decide) (by decide) ⟨?_, ?_⟩ rfl)
  · exact fun _ _ _ ht =>
      absurd (show cryptoOpTypeSessCreate = cryptoOpTypeSessCiphering from ht) (by decide)
  intro d _
  refine ⟨?_, ?_, ?_⟩ <;> simp [hempty, DevScript.PoolServes, DevScript.returns]

lemma cipherCall_served_healthy :
    Healthy (sampleConfig 0 1) (cipherCall 0 servedScript) (createdOn (sampleConfig 0 1)) := by
  have h0 : (cipherCall 0 servedScript).devScript (sampleConfig 0 1)
      (createdOn (sampleConfig 0 1)) 0 = servedScript := rfl
  have h1 : (cipherCall 0 servedScript).devScript (sampleConfig 0 1)
      (createdOn (sampleConfig 0 1)) 1 = ⟨[], []⟩ := rfl
  have hret : servedScript.returns = [⟨0, .success, []⟩] := rfl
  intro d hd
  interval_cases d
  · refine ⟨?_, ?_, ?_⟩
    · rw [h0]
      simp [servedScript, DevScript.PoolServes]
    · rw [h0, hret]
      simp
    · rw [h0, hret]
      intro p a ha _
      obtain ⟨hp, -⟩ := List.getElem?_eq_some_iff.mp ha
      obtain rfl : p = 0 := by simpa using hp
      exact ⟨⟨0, .success, []⟩, List.mem_singleton_self _, rfl, rfl⟩
  · refine ⟨?_, ?_, ?_⟩ <;> simp [h1, DevScript.PoolServes, DevScript.returns]

/-- The job of a burst of one has 16 bytes of IV. -/
lemma cipherCall_ivsFit (sessId : UInt32) (script : DevScript) :
    (cipherCall sessId script).IvsFit := fun _ _ _ _ => Nat.le_refl 16

/-- A served ciphering job is a success, and rightly so. -/
theorem noFalseSuccess_served :
    ∃ r, (cipherCall 0 servedScript).run (sampleConfig 0 1)
        (createdOn (sampleConfig 0 1)) = some r ∧
      (r.jobs 0).op.opStatus = cryptoOpStatusSucc ∧ NoFalseSuccess (cipherCall 0 servedScript) r :=
  ⟨_, rfl, rfl, (noFalseSuccess_iff_healthy 0 1 [] [] (by decide) 64 _ _ rfl
    (createdOn (sampleConfig 0 1)) healthyRuns_createdOn (cipherCall 0 servedScript) (by decide)
      (cipherCall_ivsFit _ _) _ rfl).mpr cipherCall_served_healthy⟩

/-- **A false success.**  The pool refuses the only request of the burst: nothing is enqueued, and
the job is answered as a success. -/
theorem false_success_on_refusal :
    Reachable (sampleConfig 0 1) (healthyRuns (sampleConfig 0 1)) (createdOn (sampleConfig 0 1)) ∧
    (cipherCall 0 refusing).IvsFit ∧
    ∃ r, (cipherCall 0 refusing).run (sampleConfig 0 1)
        (createdOn (sampleConfig 0 1)) = some r ∧
      (r.jobs 0).op.opStatus = cryptoOpStatusSucc ∧ r.enqs = [] ∧
      ¬NoFalseSuccess (cipherCall 0 refusing) r := by
  obtain ⟨r, hrun, hst, henqs⟩ : ∃ r,
      (cipherCall 0 refusing).run (sampleConfig 0 1)
        (createdOn (sampleConfig 0 1)) = some r ∧
        (r.jobs 0).op.opStatus = cryptoOpStatusSucc ∧ r.enqs = [] := ⟨_, rfl, rfl, rfl⟩
  refine ⟨healthyRuns_createdOn, cipherCall_ivsFit _ _, r, hrun, hst, henqs, fun h => ?_⟩
  obtain ⟨dev, ticket, op, op', henq, -⟩ := h 0 (by decide) rfl hst
  rw [henqs] at henq
  exact absurd henq List.not_mem_nil

end CiphApp
