import CiphApp.Cryptodev.Calls

/-!
# Table accesses of a burst

Five fields of a request are chosen by the client, and they reach the algorithm, operation and
device maps, the session registry, the index lists of the devices and the array of jobs.  This
file records every access that one burst makes to these tables, function by function
(`createSessionAccesses`, …, `runJobsAccesses`), and compares the indices with the sizes of the
tables.

* `scan_partitions`: what `preprocess_jobs` leaves in the index lists.
* `accesses_in_bounds_iff`: every index is checked on some path before it is used, except one.
  `create_session` checks `cipher_algo` and reads `crypto2rte_cipher_op_map[cipher_op]` without a
  check.

Operations of an earlier burst that are still in a device come back among those of this one, and
`set_ops_cipher_result` goes on along the index list for each of them.  So the device calls are
looked at under the assumption that a device does not hold more operations than the list has room
for beside the jobs of the burst; an idle device always has room.
-/

namespace CiphApp

open Lib

/-! ## Tables and their sizes -/

/-- An access to a table of the client, by index. -/
inductive TableAccess
  | jobs (i : ℕ)
  | crypto2rteCipherAlgoMap (i : ℕ)
  | crypto2rteCipherOpMap (i : ℕ)
  | algo2cdevIdMap (i : ℕ)
  | activeSessionsRegistry (ch dev slot : ℕ)
  | enabledCdevs (i : ℕ)
  | devOpsSizeArr (i : ℕ)
  | devVecsIdxsArr (i : ℕ)
  /-- The entry at a position of one of the index lists. -/
  | devVecsIdxs (pos : ℕ)
  deriving DecidableEq, Repr

/-- The access is inside its table, in a burst of `size` jobs. -/
def TableAccess.InBounds (size : ℕ) : TableAccess → Prop
  | .jobs i => i < size
  | .crypto2rteCipherAlgoMap i => i < cryptoCipherAlgoLast.toNat
  | .crypto2rteCipherOpMap i => i < cryptoCipherOpLast.toNat
  | .algo2cdevIdMap i => i < cryptoCipherAlgoLast.toNat
  | .activeSessionsRegistry ch dev slot =>
    ch < maxChannelNum ∧ dev < maxDevNum ∧ slot < maxSessNum
  | .enabledCdevs i => i < rteCryptoMaxDevs
  | .devOpsSizeArr i => i < rteCryptoMaxDevs
  | .devVecsIdxsArr i => i < rteCryptoMaxDevs
  | .devVecsIdxs pos => pos < maxJobsBurstSize

instance (size : ℕ) : DecidablePred (TableAccess.InBounds size) := fun a => by
  cases a <;> unfold TableAccess.InBounds <;> infer_instance

/-! ## The session functions -/

/-- The accesses of `create_session`: the maps once a session object was obtained, and the cells
up to the first free one, which is then written. -/
def createSessionAccesses (cfg : Config) (ch : ℕ) (vec : CryptoOperation) (ans : SessAns)
    (cl : Client) : List TableAccess :=
  if cryptoCipherAlgoLast ≤ vec.op.cipherAlgo then []
  else
    match ans.create with
    | none => []
    | some _ =>
      let cdevId := (cfg.algo2cdevIdMap vec.op.cipherAlgo).toNat
      [.crypto2rteCipherAlgoMap vec.op.cipherAlgo.toNat,
        .crypto2rteCipherOpMap vec.op.cipherOp.toNat, .algo2cdevIdMap vec.op.cipherAlgo.toNat] ++
      if ans.init then
        match firstFree (fun i => (cl.registry.load ch cdevId i).isNone) maxSessNum 0 with
        | some i =>
          (List.range (i + 1)).map (.activeSessionsRegistry ch cdevId) ++
            [.activeSessionsRegistry ch cdevId i]
        | none => (List.range maxSessNum).map (.activeSessionsRegistry ch cdevId)
      else []

/-- The accesses of `get_session`. -/
def getSessionAccesses (cfg : Config) (ch : ℕ) (sessId : UInt32) : List TableAccess :=
  if sessCdevId sessId < cfg.nbCryptodevs ∧ sessSlot sessId < maxSessNum then
    [.activeSessionsRegistry ch (sessCdevId sessId) (sessSlot sessId)]
  else []

/-- The accesses of `remove_session`, which reads the cell and clears one that is not `NULL`. -/
def removeSessionAccesses (cfg : Config) (ch : ℕ) (sessId : UInt32) (cl : Client) :
    List TableAccess :=
  if sessCdevId sessId < cfg.nbCryptodevs ∧ sessSlot sessId < maxSessNum then
    .activeSessionsRegistry ch (sessCdevId sessId) (sessSlot sessId) ::
      if (cl.registry ch (sessCdevId sessId) (sessSlot sessId)).isSome then
        [.activeSessionsRegistry ch (sessCdevId sessId) (sessSlot sessId)]
      else []
  else []

/-! ## The three passes -/

/-- The accesses of one pass of `preprocess_jobs`. -/
def preprocessJobAccesses (cfg : Config) (ch : ℕ) (ans : SessAns) (i : ℕ) (b : Burst) :
    List TableAccess :=
  let job := b.jobs i
  .jobs i ::
    if job.op.opStatus = cryptoOpStatusFailed then []
    else if job.op.opType = cryptoOpTypeSessCreate then createSessionAccesses cfg ch job ans b.cl
    else if job.op.opType = cryptoOpTypeSessClose then []
    else if job.op.opType = cryptoOpTypeSessCiphering then
      getSessionAccesses cfg ch job.op.sessId ++
        match getSession cfg ch job.op.sessId b.cl with
        | none => []
        | some _ =>
          let cdevId := sessCdevId job.op.sessId
          if cdevId < cfg.nbCryptodevs then
            [.devVecsIdxsArr cdevId, .devOpsSizeArr cdevId, .devVecsIdxs (b.idxs cdevId).length]
          else []
    else []

/-- The accesses of `preprocess_jobs` in a call. -/
def BurstCall.preprocessAccesses (x : BurstCall) (cfg : Config) (cl : Client) :
    List TableAccess :=
  (List.range x.size).flatMap fun i =>
    preprocessJobAccesses cfg x.ch (x.script.sess i) i (x.scan cfg cl i)

/-- The accesses of `set_ops_cipher`.  Past the listed jobs an index list holds zeros. -/
def setOpsCipherAccesses (cfg : Config) (ch : ℕ) (devId : UInt8) (cl : Client) (vecs : Jobs)
    (devVecsIdxs : List ℕ) (opsNb : ℕ) : List TableAccess :=
  (List.range opsNb).flatMap fun i =>
    let j := devVecsIdxs.getD i 0
    [.devVecsIdxs i, .jobs j] ++ getSessionAccesses cfg ch (vecs j).op.sessId ++
      if (getSession cfg ch (vecs j).op.sessId cl).isSome then [.enabledCdevs devId.toNat] else []

/-- The accesses of `set_ops_cipher_result`. -/
def setOpsCipherResultAccesses (devVecsIdxs : List ℕ) : List CryptoOp → ℕ → List TableAccess
  | [], _ => []
  | op :: ops, opsDeqdTotal =>
    .devVecsIdxs opsDeqdTotal ::
      (if op.status ≠ .notProcessed then [.jobs (devVecsIdxs.getD opsDeqdTotal 0)] else []) ++
        setOpsCipherResultAccesses devVecsIdxs ops (opsDeqdTotal + 1)

/-- The accesses of one pass of `postprocess_jobs`. -/
def postprocessJobAccesses (cfg : Config) (ch i : ℕ) (s : Client × Jobs) : List TableAccess :=
  .jobs i ::
    if (s.2 i).op.opType = cryptoOpTypeSessClose then
      removeSessionAccesses cfg ch (s.2 i).op.sessId s.1
    else []

/-- The accesses of `postprocess_jobs`. -/
def postprocessJobsAccesses (cfg : Config) (ch : ℕ) (ans : ℕ → ReleaseAns) (size : ℕ)
    (s : Client × Jobs) : List TableAccess :=
  (List.range size).flatMap fun i =>
    postprocessJobAccesses cfg ch i (postprocessJobs cfg ch ans i s)

/-! ## The whole burst -/

/-- The accesses of a call made by `run_jobs_inner`. -/
def InnerCall.accesses (cfg : Config) (ch : ℕ) : InnerCall → List TableAccess
  | .setOpsCipher devId cl vecs devVecsIdxs opsNb =>
    setOpsCipherAccesses cfg ch devId cl vecs devVecsIdxs opsNb
  | .setOpsCipherResult devVecsIdxs ops opsDeqdTotal =>
    setOpsCipherResultAccesses devVecsIdxs ops opsDeqdTotal

/-- **The accesses of a burst.** -/
def BurstCall.runJobsAccesses (x : BurstCall) (cfg : Config) (cl : Client) : List TableAccess :=
  if x.size = 0 then []
  else
    x.preprocessAccesses cfg cl ++
      (x.deviceCalls cfg cl).flatMap (·.accesses cfg x.ch) ++
      match x.devicePhase cfg cl with
      | none => []
      | some r =>
        postprocessJobsAccesses cfg x.ch (fun i => (x.script.sess i).release) x.size
          (r.cl, r.jobs)

/-! ## Index lists -/

section Partition

variable {cfg : Config} {x : BurstCall} {cl : Client}

lemma scan_idxs_sorted (cfg : Config) (x : BurstCall) (cl : Client) (d n : ℕ) :
    ((x.scan cfg cl n).idxs d).Pairwise (· < ·) := by
  rw [scan_idxs]
  exact List.pairwise_lt_range.filter _

/-- `preprocess_jobs` writes to an index list behind the jobs that are on it already. -/
lemma mem_preprocessJobAccesses_devVecsIdxs {ch : ℕ} {ans : SessAns} {i pos : ℕ} {b : Burst}
    (h : .devVecsIdxs pos ∈ preprocessJobAccesses cfg ch ans i b) :
    pos = (b.idxs (sessCdevId (b.jobs i).op.sessId)).length := by
  unfold preprocessJobAccesses createSessionAccesses getSessionAccesses at h
  grind

lemma devVecsIdxs_lt_size {pos : ℕ} (h : .devVecsIdxs pos ∈ x.preprocessAccesses cfg cl) :
    pos < x.size := by
  obtain ⟨i, hi, hmem⟩ := List.mem_flatMap.mp h
  rw [mem_preprocessJobAccesses_devVecsIdxs hmem]
  exact (scan_idxs_length_le cfg x cl _ i).trans_lt (List.mem_range.mp hi)

/-- A ciphering job leaves the scan as a success if and only if it is listed. -/
lemma scan_status_succ_iff {i n : ℕ} (hi : i < n)
    (ht : (x.jobs i).op.opType = cryptoOpTypeSessCiphering) :
    ((x.scan cfg cl n).jobs i).op.opStatus = cryptoOpStatusSucc ↔
      ∃ d, i ∈ (x.scan cfg cl n).idxs d := by
  constructor
  · intro hs
    by_contra hno
    have hl : ∀ d, ¬Listed cfg x cl d i := fun d hd => hno ⟨d, mem_scan_idxs.mpr ⟨hi, hd⟩⟩
    rw [scan_not_listed hi hl ht] at hs
    exact absurd (show cryptoOpStatusFailed = cryptoOpStatusSucc from hs) (by decide)
  · rintro ⟨d, hd⟩
    rw [(mem_scan_idxs.mp hd).2.job hi]
    rfl

end Partition

/-- **`preprocess_jobs` partitions the burst.**  The list of a device is increasing and holds
exactly the ciphering jobs that did not come in as failed and whose session is live on that device
when they are scanned; no job is on two lists, no list grows past its array, and the listed
ciphering jobs are those that leave the scan as successes. -/
theorem scan_partitions (maxBurstSize : UInt32) (behind : UInt32 → RteCipherOp) (x : BurstCall)
    (cl : Client) (hsize : x.size ≤ maxJobsBurstSize) :
    let cfg := Config.ofDevices 0 1 maxBurstSize behind
    let b := x.sorted cfg cl
    (∀ d, (b.idxs d).Pairwise (· < ·)) ∧
      (∀ d i, i ∈ b.idxs d ↔ i < x.size ∧
        (x.jobs i).op.opStatus ≠ cryptoOpStatusFailed ∧
        (x.jobs i).op.opType = cryptoOpTypeSessCiphering ∧
        sessCdevId (x.jobs i).op.sessId = d ∧
        (getSession cfg x.ch (x.jobs i).op.sessId (x.scan cfg cl i).cl).isSome = true) ∧
      (∀ d d', d ≠ d' → List.Disjoint (b.idxs d) (b.idxs d')) ∧
      (∀ pos, .devVecsIdxs pos ∈ x.preprocessAccesses cfg cl → pos < maxJobsBurstSize) ∧
      ∀ i < x.size, (x.jobs i).op.opType = cryptoOpTypeSessCiphering →
        ((b.jobs i).op.opStatus = cryptoOpStatusSucc ↔ ∃ d, i ∈ b.idxs d) := by
  intro cfg b
  refine ⟨fun d => scan_idxs_sorted cfg x cl d x.size, fun d i => ?_, fun d d' hne i hi hi' => ?_,
    fun pos hpos => (devVecsIdxs_lt_size hpos).trans_le hsize, fun i hi ht => ?_⟩
  · exact mem_scan_idxs.trans (and_congr_right fun _ => listed_iff)
  · exact hne (scan_idxs_disjoint hi hi')
  · exact scan_status_succ_iff hi ht

/-- A burst of one ciphering job for the first session of the AES device: it is on the list of
that device. -/
theorem scan_partitions_cipher :
    (cipherCall 0 servedScript).size ≤ maxJobsBurstSize ∧
      0 ∈ ((cipherCall 0 servedScript).sorted (sampleConfig 0 1)
        (createdOn (sampleConfig 0 1))).idxs 0 :=
  ⟨by decide, ((scan_partitions 64 (fun _ => .encrypt) (cipherCall 0 servedScript)
    (createdOn (sampleConfig 0 1)) (by decide)).2.1 0 0).mpr
      ⟨by decide, by decide, by decide, by decide, rfl⟩⟩

/-! ## Accesses inside the tables -/

/-- Every access of the list is inside its table. -/
def Within (size : ℕ) (accesses : List TableAccess) : Prop := ∀ a ∈ accesses, a.InBounds size

section Within

variable {size : ℕ}

@[simp] lemma within_nil : Within size [] := fun _ ha => absurd ha List.not_mem_nil

@[simp] lemma within_cons {a : TableAccess} {as : List TableAccess} :
    Within size (a :: as) ↔ a.InBounds size ∧ Within size as :=
  List.forall_mem_cons

@[simp] lemma within_append {as bs : List TableAccess} :
    Within size (as ++ bs) ↔ Within size as ∧ Within size bs :=
  List.forall_mem_append

lemma within_flatMap_range {n : ℕ} {f : ℕ → List TableAccess}
    (h : ∀ i < n, Within size (f i)) : Within size ((List.range n).flatMap f) := by
  intro a ha
  obtain ⟨i, hi, hmem⟩ := List.mem_flatMap.mp ha
  exact h i (List.mem_range.mp hi) a hmem

lemma within_map_range {n : ℕ} {f : ℕ → TableAccess} (h : ∀ i < n, (f i).InBounds size) :
    Within size ((List.range n).map f) := by
  intro a ha
  obtain ⟨i, hi, rfl⟩ := List.mem_map.mp ha
  exact h i (List.mem_range.mp hi)

end Within

/-- The device tables name no device that the registry or the per-device arrays have no row
for, and no device twice. -/
structure Config.TablesFit (cfg : Config) : Prop where
  nb : cfg.nbCryptodevs ≤ maxDevNum
  algo2cdevIdMap : ∀ algo, (cfg.algo2cdevIdMap algo).toNat < maxDevNum
  cdevId : ∀ d, (cfg.enabledCdevs d).cdevId.toNat < rteCryptoMaxDevs
  distinct : ∀ d' < cfg.nbCryptodevs, ∀ d < d',
    (cfg.enabledCdevs d').cdevId ≠ (cfg.enabledCdevs d).cdevId

lemma tablesFit_ofDevices (maxBurstSize : UInt32) (behind : UInt32 → RteCipherOp) :
    (Config.ofDevices 0 1 maxBurstSize behind).TablesFit where
  nb := le_rfl
  algo2cdevIdMap := fun algo => by
    simp only [Config.ofDevices]
    split_ifs <;> decide
  cdevId := fun d => by
    simp only [Config.ofDevices]
    split_ifs <;> decide
  distinct := fun d' hd' d hd => by
    have hd' : d' < 2 := hd'
    obtain ⟨rfl, rfl⟩ : d' = 1 ∧ d = 0 := by omega
    exact (by decide : (1 : UInt8) ≠ 0)

/-! ### The session functions -/

section Sessions

variable {cfg : Config} {ch size : ℕ}

/-- The guard of `get_session` and `remove_session` is the size of the registry. -/
lemma registry_inBounds (hcfg : cfg.TablesFit) (hch : ch < maxChannelNum) {dev slot : ℕ}
    (h : dev < cfg.nbCryptodevs ∧ slot < maxSessNum) :
    (TableAccess.activeSessionsRegistry ch dev slot).InBounds size :=
  ⟨hch, h.1.trans_le hcfg.nb, h.2⟩

lemma getSession_within (hcfg : cfg.TablesFit) (hch : ch < maxChannelNum) (sessId : UInt32) :
    Within size (getSessionAccesses cfg ch sessId) := by
  unfold getSessionAccesses
  split_ifs with h
  · simpa using registry_inBounds hcfg hch h
  · exact within_nil

lemma removeSession_within (hcfg : cfg.TablesFit) (hch : ch < maxChannelNum) (sessId : UInt32)
    (cl : Client) : Within size (removeSessionAccesses cfg ch sessId cl) := by
  unfold removeSessionAccesses
  split_ifs with h
  · simpa using registry_inBounds hcfg hch h
  · simpa using registry_inBounds hcfg hch h
  · exact within_nil

/-- `create_session` stays inside the tables if the operation the job asks for exists. -/
lemma createSession_within (hcfg : cfg.TablesFit) (hch : ch < maxChannelNum)
    {vec : CryptoOperation} (ans : SessAns) (cl : Client)
    (hop : vec.op.cipherAlgo < cryptoCipherAlgoLast → vec.op.cipherOp < cryptoCipherOpLast) :
    Within size (createSessionAccesses cfg ch vec ans cl) := by
  have hcell : ∀ slot < maxSessNum, (TableAccess.activeSessionsRegistry ch
      (cfg.algo2cdevIdMap vec.op.cipherAlgo).toNat slot).InBounds size :=
    fun slot hslot => ⟨hch, hcfg.algo2cdevIdMap _, hslot⟩
  unfold createSessionAccesses
  by_cases halgo : cryptoCipherAlgoLast ≤ vec.op.cipherAlgo
  · rw [if_pos halgo]
    exact within_nil
  rw [if_neg halgo]
  have halgo := UInt32.not_le.mp halgo
  cases ans.create with
  | none => exact within_nil
  | some s =>
      refine within_append.mpr ⟨?_, ?_⟩
      · have hlt : (TableAccess.crypto2rteCipherOpMap vec.op.cipherOp.toNat).InBounds size :=
          UInt32.lt_iff_toNat_lt.mp (hop halgo)
        have halgo' := UInt32.lt_iff_toNat_lt.mp halgo
        simpa [hlt] using ⟨halgo', halgo'⟩
      · split_ifs with hinit
        · split
          · rename_i i hi
            obtain ⟨-, hlt, -⟩ := firstFree_some hi
            have hlt : i < maxSessNum := by simpa using hlt
            exact within_append.mpr ⟨within_map_range fun k hk => hcell k (by omega),
              within_cons.mpr ⟨hcell i hlt, within_nil⟩⟩
          · exact within_map_range hcell
        · exact within_nil

lemma preprocessJob_within (hcfg : cfg.TablesFit) (hch : ch < maxChannelNum) (ans : SessAns)
    {i : ℕ} (hi : i < size) {b : Burst} (hroom : ∀ d, (b.idxs d).length < maxJobsBurstSize)
    (hop : (b.jobs i).op.opStatus ≠ cryptoOpStatusFailed →
      (b.jobs i).op.opType = cryptoOpTypeSessCreate →
      (b.jobs i).op.cipherAlgo < cryptoCipherAlgoLast →
      (b.jobs i).op.cipherOp < cryptoCipherOpLast) :
    Within size (preprocessJobAccesses cfg ch ans i b) := by
  unfold preprocessJobAccesses
  refine within_cons.mpr ⟨hi, ?_⟩
  split_ifs with hs h1 h2 h0
  · exact within_nil
  · exact createSession_within hcfg hch ans b.cl (hop hs h1)
  · exact within_nil
  · refine within_append.mpr ⟨getSession_within hcfg hch _, ?_⟩
    split
    · exact within_nil
    · dsimp only
      split_ifs with hd
      · have hdev : sessCdevId (b.jobs i).op.sessId < rteCryptoMaxDevs :=
          (hd.trans_le hcfg.nb).trans_le (by decide)
        simpa using ⟨hdev, hdev, hroom _⟩
      · exact within_nil
  · exact within_nil

lemma postprocessJob_within (hcfg : cfg.TablesFit) (hch : ch < maxChannelNum) {i : ℕ}
    (hi : i < size) (s : Client × Jobs) : Within size (postprocessJobAccesses cfg ch i s) := by
  unfold postprocessJobAccesses
  refine within_cons.mpr ⟨hi, ?_⟩
  split_ifs
  · exact removeSession_within hcfg hch _ _
  · exact within_nil

end Sessions

/-! ### The device calls -/

section Devices

variable {cfg : Config} {ch size : ℕ} {dev : UInt8} {idxs : List ℕ}

lemma setOpsCipher_within (hcfg : cfg.TablesFit) (hch : ch < maxChannelNum)
    (hdev : dev.toNat < rteCryptoMaxDevs) (cl : Client) (vecs : Jobs)
    (hidxs : ∀ p, idxs.getD p 0 < size) {opsNb : ℕ} (hnb : opsNb ≤ maxJobsBurstSize) :
    Within size (setOpsCipherAccesses cfg ch dev cl vecs idxs opsNb) := by
  refine within_flatMap_range fun i hi => ?_
  refine within_append.mpr ⟨within_append.mpr ⟨?_, getSession_within hcfg hch _⟩, ?_⟩
  · exact within_cons.mpr ⟨hi.trans_le hnb, within_cons.mpr ⟨hidxs i, within_nil⟩⟩
  · split_ifs
    · exact within_cons.mpr ⟨hdev, within_nil⟩
    · exact within_nil

lemma setOpsCipherResult_within (hidxs : ∀ p, idxs.getD p 0 < size) (ops : List CryptoOp) (k : ℕ)
    (hk : k + ops.length ≤ maxJobsBurstSize) :
    Within size (setOpsCipherResultAccesses idxs ops k) := by
  induction ops generalizing k with
  | nil => exact within_nil
  | cons op ops ih =>
      rw [List.length_cons] at hk
      have hpos : (TableAccess.devVecsIdxs k).InBounds size := by
        show k < maxJobsBurstSize
        omega
      refine within_append.mpr ⟨within_cons.mpr ⟨hpos, ?_⟩, ih (k + 1) (by omega)⟩
      split_ifs
      · exact within_cons.mpr ⟨hidxs k, within_nil⟩
      · exact within_nil

/-- The calls of `run_jobs_inner` stay inside the tables if the index list names jobs of the burst
and has room for its jobs and for what the device held. -/
lemma callRule_within (hcfg : cfg.TablesFit) (hch : ch < maxChannelNum)
    (hdev : dev.toNat < rteCryptoMaxDevs) (hidxs : ∀ p, idxs.getD p 0 < size) {held : ℕ}
    (hroom : held + idxs.length ≤ maxJobsBurstSize) :
    CallRule cfg dev idxs held fun c => Within size (c.accesses cfg ch) where
  prepare := fun cl vecs needed hn =>
    setOpsCipher_within hcfg hch hdev cl vecs hidxs (by omega)
  result := fun ops deqd hk => setOpsCipherResult_within hidxs ops deqd (by omega)

end Devices

/-! ## The operation map -/

/-- No job of the burst asks `create_session` for an operation that does not exist. -/
def BurstCall.OpsKnown (x : BurstCall) : Prop :=
  ∀ i < x.size, (x.jobs i).op.opStatus ≠ cryptoOpStatusFailed →
    (x.jobs i).op.opType = cryptoOpTypeSessCreate →
    (x.jobs i).op.cipherAlgo < cryptoCipherAlgoLast →
    (x.jobs i).op.cipherOp < cryptoCipherOpLast

section Burst

variable {cfg : Config} {x : BurstCall} {cl : Client}

lemma preprocess_within (hcfg : cfg.TablesFit) (hch : x.ch < maxChannelNum)
    (hsize : x.size ≤ maxJobsBurstSize) (hops : x.OpsKnown) :
    Within x.size (x.preprocessAccesses cfg cl) := by
  refine within_flatMap_range fun i hi => ?_
  refine preprocessJob_within hcfg hch _ hi (fun d => ?_) ?_
  · exact ((scan_idxs_length_le cfg x cl d i).trans_lt hi).trans_le hsize
  · simpa using hops i hi

/-- Behind the listed jobs an index list names job 0, which exists. -/
lemma sorted_idxs_getD_lt (hsize : x.size ≠ 0) (d p : ℕ) :
    ((x.sorted cfg cl).idxs d).getD p 0 < x.size := by
  rcases Nat.lt_or_ge p ((x.sorted cfg cl).idxs d).length with hp | hp
  · exact (mem_scan_idxs.mp (getD_mem hp)).1
  · rw [List.getD_eq_default _ _ hp]
    exact Nat.pos_of_ne_zero hsize

lemma deviceCalls_within (hcfg : cfg.TablesFit) (hch : x.ch < maxChannelNum) (hsize : x.size ≠ 0)
    (hroom : ∀ dev, (cl.queues dev).queue.length + x.size ≤ maxJobsBurstSize) :
    Within x.size ((x.deviceCalls cfg cl).flatMap (·.accesses cfg x.ch)) := by
  have hlen : ∀ d, ((x.sorted cfg cl).idxs d).length ≤ x.size := fun d =>
    scan_idxs_length_le cfg x cl d x.size
  have hqueues : ((x.sorted cfg cl).start x.heap).cl.queues = cl.queues :=
    scan_queues cfg x cl x.size
  have hcalls : ∀ c ∈ x.deviceCalls cfg cl, Within x.size (c.accesses cfg x.ch) := by
    refine CallRule.runDevices hcfg.distinct (fun d _ => ?_) fun d _ => ?_
    · refine callRule_within hcfg hch (hcfg.cdevId d) (sorted_idxs_getD_lt hsize d) ?_
      rw [hqueues]
      exact (Nat.add_le_add_left (hlen d) _).trans (hroom _)
    · have hle := (Nat.le_add_left _ _).trans (hroom 0)
      exact ((hlen d).trans hle).trans_lt (by decide)
  intro a ha
  obtain ⟨c, hc, hmem⟩ := List.mem_flatMap.mp ha
  exact hcalls c hc a hmem

lemma runJobs_within (hcfg : cfg.TablesFit) (hch : x.ch < maxChannelNum)
    (hroom : ∀ dev, (cl.queues dev).queue.length + x.size ≤ maxJobsBurstSize)
    (hops : x.OpsKnown) : Within x.size (x.runJobsAccesses cfg cl) := by
  unfold BurstCall.runJobsAccesses
  split_ifs with hsize
  · exact within_nil
  · have hle : x.size ≤ maxJobsBurstSize := (Nat.le_add_left _ _).trans (hroom 0)
    refine within_append.mpr ⟨within_append.mpr ⟨?_, ?_⟩, ?_⟩
    · exact preprocess_within hcfg hch hle hops
    · exact deviceCalls_within hcfg hch hsize hroom
    · split
      · exact within_nil
      · exact within_flatMap_range fun i hi => postprocessJob_within hcfg hch hi _

/-- A session object was obtained for a `CREATE` job: its operation is looked up. -/
lemma cipherOp_accessed (cfg : Config) (x : BurstCall) (cl : Client) {i : ℕ} (hi : i < x.size)
    (hs : (x.jobs i).op.opStatus ≠ cryptoOpStatusFailed)
    (ht : (x.jobs i).op.opType = cryptoOpTypeSessCreate)
    (halgo : (x.jobs i).op.cipherAlgo < cryptoCipherAlgoLast) {s : SessPtr}
    (hans : (x.script.sess i).create = some s) :
    .crypto2rteCipherOpMap (x.jobs i).op.cipherOp.toNat ∈ x.runJobsAccesses cfg cl := by
  have hpass : .crypto2rteCipherOpMap (x.jobs i).op.cipherOp.toNat ∈
      preprocessJobAccesses cfg x.ch (x.script.sess i) i (x.scan cfg cl i) := by
    simp [preprocessJobAccesses, createSessionAccesses, hs, ht, hans, UInt32.not_le.mpr halgo]
  have hpre : .crypto2rteCipherOpMap (x.jobs i).op.cipherOp.toNat ∈
      x.preprocessAccesses cfg cl := List.mem_flatMap.mpr ⟨i, List.mem_range.mpr hi, hpass⟩
  unfold BurstCall.runJobsAccesses
  rw [if_neg (by omega)]
  exact List.mem_append_left _ (List.mem_append_left _ hpre)

end Burst

/-- **Request fields and table bounds.**  On a channel that exists, with room in the index lists
for what the devices still hold, every environment meets only accesses inside the tables, if and
only if no job asks `create_session` for an operation that does not exist.  All other fields are
checked. -/
theorem accesses_in_bounds_iff (maxBurstSize : UInt32) (behind : UInt32 → RteCipherOp) (ch : ℕ)
    (jobs : Jobs) (size : ℕ) (cl : Client) (hch : ch < maxChannelNum)
    (hroom : ∀ dev, (cl.queues dev).queue.length + size ≤ maxJobsBurstSize) :
    (∀ script heap, ∀ a ∈ BurstCall.runJobsAccesses ⟨ch, script, heap, jobs, size⟩
        (Config.ofDevices 0 1 maxBurstSize behind) cl, a.InBounds size) ↔
      ∀ i < size, (jobs i).op.opStatus ≠ cryptoOpStatusFailed →
        (jobs i).op.opType = cryptoOpTypeSessCreate →
        (jobs i).op.cipherAlgo < cryptoCipherAlgoLast →
        (jobs i).op.cipherOp < cryptoCipherOpLast := by
  constructor
  · intro h i hi hs ht halgo
    -- the session pool has an object for every job
    let script : Script := ⟨fun _ => ⟨some 0, false, ⟨true, true⟩⟩, fun _ => ⟨[], []⟩⟩
    let x : BurstCall := ⟨ch, script, ⟨fun _ _ => 0, []⟩, jobs, size⟩
    have hmem := cipherOp_accessed (Config.ofDevices 0 1 maxBurstSize behind) x cl hi hs ht halgo
      rfl
    exact UInt32.lt_iff_toNat_lt.mpr (h script _ _ hmem)
  · intro hops script heap
    exact runJobs_within (x := ⟨ch, script, heap, jobs, size⟩) (tablesFit_ofDevices _ _) hch hroom
      hops

/-- A burst that creates an AES session stays inside the tables. -/
theorem accesses_in_bounds_iff_create :
    0 < maxChannelNum ∧ (∀ dev, (Client.init.queues dev).queue.length + 1 ≤ maxJobsBurstSize) ∧
      ∀ script heap, ∀ a ∈ BurstCall.runJobsAccesses
        ⟨0, script, heap, (createCall cryptoCipherAesCtr).jobs, 1⟩ (sampleConfig 0 1) Client.init,
        a.InBounds 1 := by
  have hroom : ∀ dev, (Client.init.queues dev).queue.length + 1 ≤ maxJobsBurstSize :=
    fun _ => (by decide : 0 + 1 ≤ maxJobsBurstSize)
  refine ⟨by decide, hroom, (accesses_in_bounds_iff 64 (fun _ => .encrypt) 0 _ 1 Client.init
    (by decide) hroom).mpr fun _ _ _ _ _ => ?_⟩
  exact (by decide : cryptoCipherOpEncrypt < cryptoCipherOpLast)

/-- A burst of one `CREATE` job with `cipher_op` 2; the pool answers with object 7. -/
def unknownOpCall : BurstCall :=
  { createCall cryptoCipherAesCtr with
    jobs := fun _ =>
      { sampleJob cryptoOpTypeSessCreate 0 cryptoCipherAesCtr with
        op := { (sampleJob cryptoOpTypeSessCreate 0 cryptoCipherAesCtr).op with cipherOp := 2 } } }

/-- **The counterexample.**  `crypto2rte_cipher_op_map` has two entries; the third one is read. -/
theorem cipher_op_past_map :
    (∃ r, unknownOpCall.run (sampleConfig 0 1) Client.init = some r) ∧
      .crypto2rteCipherOpMap 2 ∈ unknownOpCall.runJobsAccesses (sampleConfig 0 1) Client.init ∧
      ¬(TableAccess.crypto2rteCipherOpMap 2).InBounds unknownOpCall.size :=
  ⟨⟨_, rfl⟩, cipherOp_accessed _ unknownOpCall _ (by decide : 0 < 1) (by decide) (by decide)
    (by decide) rfl, by decide⟩

end CiphApp
