import CiphApp.Cryptodev.Computing
import CiphApp.Cryptodev.FailedJobs

/-!
# How requests fall into bursts

A stream of requests reaches `run_jobs` in bursts whose borders depend on when the server polls.
A burst is worked off in passes: all sessions are created and all session ids resolved, then the
first device gets its jobs, then the second one, and the closes come last.  So the same requests
are carried out in another order when they come in one burst than when they come in two.

`grouping_irrelevant` compares the two.  The bursts must not depend on their closes: no request
behind a close creates a session or names the session that was closed.  Then the sessions go
through the same sequence of operations in both runs (`SameSessions`), each job resolves its id to
the same session (`Aligned`), and each device result is the same, since the jobs do not share
buffers.

The last condition is needed.  Two jobs on one buffer are carried out one after the other, in one
burst in the order of the devices and in two bursts in the order of the jobs, and the buffer shows
which it was (`shared_buffer_depends_on_grouping`).
-/

namespace CiphApp

open Lib

/-! ## Two bursts for one -/

/-- The first `n` jobs of a call, in a call of their own. -/
def BurstCall.front (x : BurstCall) (n : ℕ) (dev : ℕ → DevScript) : BurstCall :=
  { x with script := ⟨x.script.sess, dev⟩, size := n }

/-- The jobs behind them, in a call of their own that finds memory `heap`.  The answers to the
session calls are those of the call it is a part of, job for job. -/
def BurstCall.back (x : BurstCall) (n : ℕ) (dev : ℕ → DevScript) (heap : Heap) : BurstCall where
  ch := x.ch
  script := ⟨fun k => x.script.sess (n + k), dev⟩
  heap := heap
  jobs := fun k => x.jobs (n + k)
  size := x.size - n

/-- **The jobs do not depend on the closes among them**, the ciphering ones carry an IV of 16
bytes, and none shares its buffers with another one. -/
structure BurstCall.Groupable (x : BurstCall) : Prop where
  afterClose : ∀ i k, i < k → k < x.size → x.Closes i →
    (x.jobs k).op.opType ≠ cryptoOpTypeSessCreate ∧
      (x.jobs k).op.sessId ≠ (x.jobs i).op.sessId
  iv : ∀ i < x.size, (x.jobs i).op.opType = cryptoOpTypeSessCiphering →
    (x.jobs i).cipherIv.length = 16
  own : x.OwnBuffers

/-- **The two bursts end as the one burst does**: with the same sessions, the same jobs and the
same memory. -/
structure SameOutcome (x : BurstCall) (n : ℕ) (r r₁ r₂ : Run) : Prop where
  registry : r₂.cl.registry = r.cl.registry
  pool : r₂.cl.pool = r.cl.pool
  front : ∀ i < n, r₁.jobs i = r.jobs i
  back : ∀ k < x.size - n, r₂.jobs k = r.jobs (n + k)
  memory : r₂.heap.mem = r.heap.mem

/-! ## The same sessions -/

/-- Registry and session pool are the same. -/
structure SameSessions (cl cl' : Client) : Prop where
  registry : cl'.registry = cl.registry
  pool : cl'.pool = cl.pool

namespace SameSessions

variable {cl cl' cl'' : Client}

lemma refl (cl : Client) : SameSessions cl cl := ⟨rfl, rfl⟩

lemma symm (h : SameSessions cl cl') : SameSessions cl' cl := ⟨h.registry.symm, h.pool.symm⟩

lemma trans (h : SameSessions cl cl') (h' : SameSessions cl' cl'') : SameSessions cl cl'' :=
  ⟨h'.registry.trans h.registry, h'.pool.trans h.pool⟩

lemma getSession (h : SameSessions cl cl') (cfg : Config) (ch : ℕ) (sessId : UInt32) :
    CiphApp.getSession cfg ch sessId cl' = CiphApp.getSession cfg ch sessId cl :=
  getSession_congr (congrFun h.registry ch)

end SameSessions

section Passes

variable {cfg : Config} {ch : ℕ}

/-- `create_session` depends on the sessions there are and on the key. -/
lemma createSession_same {heap heap' : Heap} {vec : CryptoOperation} {cl cl' : Client}
    (ans : SessAns) (h : SameSessions cl cl')
    (hkey : vec.cipherKey.bytes heap' = vec.cipherKey.bytes heap) :
    SameSessions (createSession cfg heap ch vec ans cl).1
        (createSession cfg heap' ch vec ans cl').1 ∧
      (createSession cfg heap' ch vec ans cl').2 = (createSession cfg heap ch vec ans cl).2 := by
  unfold createSession
  rw [h.registry, h.pool, hkey]
  by_cases halgo : cryptoCipherAlgoLast ≤ vec.op.cipherAlgo
  · rw [if_pos halgo, if_pos halgo]
    exact ⟨h, rfl⟩
  rw [if_neg halgo, if_neg halgo]
  cases ans.create with
  | none => exact ⟨h, rfl⟩
  | some s =>
      by_cases hinit : ans.init = true
      · simp only [if_pos hinit]
        split
        · exact ⟨⟨rfl, rfl⟩, rfl⟩
        · exact ⟨⟨rfl, rfl⟩, rfl⟩
      · simp only [if_neg hinit]
        exact ⟨⟨rfl, rfl⟩, trivial⟩

/-- What the first pass makes of a job, if `created` is the result of `create_session` for it and
`sess` that of `get_session`. -/
def scannedJob (job : CryptoOperation) (created : Option UInt32) (sess : Option SessPtr) :
    CryptoOperation :=
  if job.op.opStatus = cryptoOpStatusFailed then job.setBuffListLength 0
  else if job.op.opType = cryptoOpTypeSessCreate then
    match created with
    | some sessId => (job.setStatus cryptoOpStatusSucc).setSessId sessId
    | none => (job.setStatus cryptoOpStatusFailed).setSessId 0xFFFFFFFF
  else if job.op.opType = cryptoOpTypeSessClose then job
  else if job.op.opType = cryptoOpTypeSessCiphering then
    match sess with
    | some _ => (job.setStatus cryptoOpStatusSucc).setBuffListLength 1
    | none => (job.setStatus cryptoOpStatusFailed).setBuffListLength 0
  else (job.setStatus cryptoOpStatusFailed).setBuffListLength 0

lemma preprocessJob_job (cfg : Config) (heap : Heap) (ch : ℕ) (ans : SessAns) (i : ℕ)
    (b : Burst) : (preprocessJob cfg heap ch ans i b).jobs i =
      scannedJob (b.jobs i) (createSession cfg heap ch (b.jobs i) ans b.cl).2
        (getSession cfg ch (b.jobs i).op.sessId b.cl) := by
  unfold preprocessJob scannedJob
  by_cases hs : (b.jobs i).op.opStatus = cryptoOpStatusFailed
  · rw [if_pos hs, if_pos hs]
    simp [Burst.setJob, Burst.fail]
  rw [if_neg hs, if_neg hs]
  by_cases h1 : (b.jobs i).op.opType = cryptoOpTypeSessCreate
  · rw [if_pos h1, if_pos h1]
    rcases createSession cfg heap ch (b.jobs i) ans b.cl with ⟨cl', _ | sessId⟩ <;>
      simp [Burst.setJob, Burst.fail]
  rw [if_neg h1, if_neg h1]
  by_cases h2 : (b.jobs i).op.opType = cryptoOpTypeSessClose
  · rw [if_pos h2, if_pos h2]
  rw [if_neg h2, if_neg h2]
  by_cases h0 : (b.jobs i).op.opType = cryptoOpTypeSessCiphering
  · rw [if_pos h0, if_pos h0]
    rcases hget : getSession cfg ch (b.jobs i).op.sessId b.cl with _ | s
    · simp [Burst.setJob, Burst.fail]
    · simp [Burst.setJob, (getSession_eq_some.mp hget).1]
  · rw [if_neg h0, if_neg h0]
    simp [Burst.setJob, Burst.fail]

lemma preprocessJob_sessions (cfg : Config) (heap : Heap) (ch : ℕ) (ans : SessAns) (i : ℕ)
    (b : Burst) :
    SameSessions
      (if (b.jobs i).op.opStatus ≠ cryptoOpStatusFailed ∧
          (b.jobs i).op.opType = cryptoOpTypeSessCreate then
        (createSession cfg heap ch (b.jobs i) ans b.cl).1 else b.cl)
      (preprocessJob cfg heap ch ans i b).cl := by
  split_ifs with hc
  · unfold preprocessJob
    rw [if_neg hc.1, if_pos hc.2]
    rcases createSession cfg heap ch (b.jobs i) ans b.cl with ⟨cl', _ | sessId⟩ <;>
      exact ⟨rfl, rfl⟩
  · have hstep := preStep cfg heap ch ans i b
    generalize preprocessJob cfg heap ch ans i b = b' at hstep
    cases hstep with
    | created _ _ hs ht => exact absurd ⟨hs, ht⟩ hc
    | notCreated _ hs ht => exact absurd ⟨hs, ht⟩ hc
    | _ => exact ⟨rfl, rfl⟩

lemma removeSession_same (cfg : Config) (ch : ℕ) (sessId : UInt32) (ans : ReleaseAns)
    {cl cl' : Client} (h : SameSessions cl cl') :
    SameSessions (removeSession cfg ch sessId ans cl).1 (removeSession cfg ch sessId ans cl').1 ∧
      (removeSession cfg ch sessId ans cl').2 = (removeSession cfg ch sessId ans cl).2 := by
  unfold removeSession releaseSlot
  rw [h.registry, h.pool]
  split_ifs
  · cases cl.registry ch (sessCdevId sessId) (sessSlot sessId) with
    | none => exact ⟨h, rfl⟩
    | some s => exact ⟨⟨rfl, rfl⟩, rfl⟩
  · exact ⟨h, rfl⟩

variable (cfg ch) in
/-- **A pass of `postprocess_jobs`** does the same to the same job and the same sessions. -/
lemma postprocessJob_same {s s' : Client × Jobs} {i k : ℕ} (ans : ReleaseAns)
    (h : SameSessions s.1 s'.1) (hjob : s'.2 k = s.2 i) :
    SameSessions (postprocessJob cfg ch ans i s).1 (postprocessJob cfg ch ans k s').1 ∧
      (postprocessJob cfg ch ans k s').2 k = (postprocessJob cfg ch ans i s).2 i := by
  unfold postprocessJob
  rw [hjob]
  by_cases ht : (s.2 i).op.opType = cryptoOpTypeSessClose
  · rw [if_pos ht, if_pos ht]
    have hrem := removeSession_same cfg ch (s.2 i).op.sessId ans h
    generalize removeSession cfg ch (s.2 i).op.sessId ans s.1 = q at hrem
    generalize removeSession cfg ch (s.2 i).op.sessId ans s'.1 = q' at hrem
    obtain ⟨c, ok⟩ := q
    obtain ⟨c', ok'⟩ := q'
    obtain ⟨hsess, hok⟩ := hrem
    obtain rfl : ok' = ok := hok
    cases ok' with
    | true => exact ⟨hsess, by simp⟩
    | false => exact ⟨⟨hsess.registry, hsess.pool⟩, by simp⟩
  · rw [if_neg ht, if_neg ht]
    exact ⟨h, hjob⟩

end Passes

/-! ## The first pass -/

section Scan

variable {cfg : Config} {x y : BurstCall} {cl cl' : Client} {i k : ℕ}

lemma scan_zero (cfg : Config) (x : BurstCall) (cl : Client) :
    SameSessions cl (x.scan cfg cl 0).cl := ⟨rfl, rfl⟩

lemma scan_sessions (cfg : Config) (x : BurstCall) (cl : Client) (i : ℕ) :
    SameSessions
      (if (x.jobs i).op.opStatus ≠ cryptoOpStatusFailed ∧
          (x.jobs i).op.opType = cryptoOpTypeSessCreate then
        (createSession cfg x.heap x.ch (x.jobs i) (x.script.sess i) (x.scan cfg cl i).cl).1
        else (x.scan cfg cl i).cl)
      (x.scan cfg cl (i + 1)).cl := by
  have h := preprocessJob_sessions cfg x.heap x.ch (x.script.sess i) i (x.scan cfg cl i)
  rwa [scan_jobs_self] at h

lemma scan_job (cfg : Config) (x : BurstCall) (cl : Client) (i : ℕ) :
    (x.scan cfg cl (i + 1)).jobs i =
      scannedJob (x.jobs i)
        (createSession cfg x.heap x.ch (x.jobs i) (x.script.sess i) (x.scan cfg cl i).cl).2
        (getSession cfg x.ch (x.jobs i).op.sessId (x.scan cfg cl i).cl) := by
  have h := preprocessJob_job cfg x.heap x.ch (x.script.sess i) i (x.scan cfg cl i)
  rwa [scan_jobs_self] at h

lemma scan_keep (hne : (x.jobs i).op.opType ≠ cryptoOpTypeSessCreate) :
    SameSessions (x.scan cfg cl i).cl (x.scan cfg cl (i + 1)).cl := by
  have h := scan_sessions cfg x cl i
  rwa [if_neg fun hc => hne hc.2] at h

/-- Job `i` of one call and job `k` of another one are the same job, in the same surroundings. -/
structure SameJob (x : BurstCall) (i : ℕ) (y : BurstCall) (k : ℕ) : Prop where
  ch : y.ch = x.ch
  job : y.jobs k = x.jobs i
  ans : y.script.sess k = x.script.sess i
  key : (x.jobs i).cipherKey.bytes y.heap = (x.jobs i).cipherKey.bytes x.heap
  iv : (x.jobs i).cipherIv.bytes y.heap = (x.jobs i).cipherIv.bytes x.heap
  payload : ∀ n ≤ (x.jobs i).payload.length.toNat,
    y.heap.bytes (x.jobs i).payload.data n = x.heap.bytes (x.jobs i).payload.data n

/-- **The same job does the same to the same sessions.** -/
lemma SameJob.scan (hj : SameJob x i y k)
    (h : SameSessions (x.scan cfg cl i).cl (y.scan cfg cl' k).cl) :
    SameSessions (x.scan cfg cl (i + 1)).cl (y.scan cfg cl' (k + 1)).cl := by
  have hx := scan_sessions cfg x cl i
  have hy := scan_sessions cfg y cl' k
  rw [hj.job, hj.ch, hj.ans] at hy
  split_ifs at hx hy
  · exact hx.symm.trans ((createSession_same _ h hj.key).1.trans hy)
  · exact hx.symm.trans (h.trans hy)

/-- **The jobs meet the same session**, and leave the first pass alike. -/
structure Aligned (cfg : Config) (x : BurstCall) (cl : Client) (i : ℕ) (y : BurstCall)
    (cl' : Client) (k : ℕ) : Prop extends SameJob x i y k where
  session : getSession cfg y.ch (y.jobs k).op.sessId (y.scan cfg cl' k).cl =
    getSession cfg x.ch (x.jobs i).op.sessId (x.scan cfg cl i).cl
  scanned : (y.scan cfg cl' (k + 1)).jobs k = (x.scan cfg cl (i + 1)).jobs i

lemma SameJob.aligned (hj : SameJob x i y k)
    (h : SameSessions (x.scan cfg cl i).cl (y.scan cfg cl' k).cl) : Aligned cfg x cl i y cl' k := by
  have hget : getSession cfg y.ch (y.jobs k).op.sessId (y.scan cfg cl' k).cl =
      getSession cfg x.ch (x.jobs i).op.sessId (x.scan cfg cl i).cl := by
    rw [hj.ch, hj.job]
    exact h.getSession cfg x.ch _
  refine ⟨hj, hget, ?_⟩
  rw [scan_job, scan_job, hget, hj.job, hj.ch, hj.ans, (createSession_same _ h hj.key).2]

/-- For a job that does not create it is enough that its own id means the same. -/
lemma SameJob.aligned_of_ne (hj : SameJob x i y k)
    (hne : (x.jobs i).op.opType ≠ cryptoOpTypeSessCreate)
    (hget : getSession cfg x.ch (x.jobs i).op.sessId (y.scan cfg cl' k).cl =
      getSession cfg x.ch (x.jobs i).op.sessId (x.scan cfg cl i).cl) :
    Aligned cfg x cl i y cl' k := by
  have hget' : getSession cfg y.ch (y.jobs k).op.sessId (y.scan cfg cl' k).cl =
      getSession cfg x.ch (x.jobs i).op.sessId (x.scan cfg cl i).cl := by
    rw [hj.ch, hj.job]
    exact hget
  refine ⟨hj, hget', ?_⟩
  rw [scan_job, scan_job, hget', hj.job]
  unfold scannedJob
  simp only [if_neg hne]

end Scan

/-! ## The devices -/

section Devices

variable {cfg : Config} {x y : BurstCall} {cl cl' : Client} {i k : ℕ} {F : InPlace}

lemma Aligned.ciphers (h : Aligned cfg x cl i y cl' k) :
    y.Ciphers cfg cl' k ↔ x.Ciphers cfg cl i := by
  rw [BurstCall.Ciphers, BurstCall.Ciphers, listed_iff, listed_iff, h.session]
  simp only [BurstCall.device, h.job]

lemma Aligned.computed (hproc : ∀ d < cfg.nbCryptodevs, ∀ n, cfg.processed d n ≤ n.toNat)
    (h : Aligned cfg x cl i y cl' k) : y.computed cfg cl' F k = x.computed cfg cl F i := by
  unfold BurstCall.computed
  rw [h.session]
  rcases hs : getSession cfg x.ch (x.jobs i).op.sessId (x.scan cfg cl i).cl with _ | s
  · rfl
  · have hd : x.device i < cfg.nbCryptodevs := (getSession_eq_some.mp hs).1
    have hdev : y.device k = x.device i := by simp only [BurstCall.device, h.job]
    rw [Option.map_some, Option.map_some, hdev, h.job, h.iv, h.payload _ (hproc _ hd _)]

lemma Aligned.writeOf (hproc : ∀ d < cfg.nbCryptodevs, ∀ n, cfg.processed d n ≤ n.toNat)
    (h : Aligned cfg x cl i y cl' k) : y.writeOf cfg cl' F k = x.writeOf cfg cl F i := by
  rw [BurstCall.writeOf, BurstCall.writeOf, h.computed hproc, h.job]

/-- **Aligned jobs leave the devices alike.** -/
lemma Aligned.answered (hproc : ∀ d < cfg.nbCryptodevs, ∀ n, cfg.processed d n ≤ n.toNat)
    (h : Aligned cfg x cl i y cl' k) {r₂ r r₂' r' : Run} (hx : BurstResult cfg x cl F r₂ r)
    (hy : BurstResult cfg y cl' F r₂' r') (hi : i < x.size) (hk : k < y.size) :
    r₂'.jobs k = r₂.jobs i := by
  by_cases hc : x.Ciphers cfg cl i
  · rw [hx.ciphers i hi hc, hy.ciphers k hk (h.ciphers.mpr hc), BurstCall.statusOf,
      BurstCall.statusOf, h.computed hproc, h.job]
  · rw [hx.others i hi hc, hy.others k hk fun hc' => hc (h.ciphers.mp hc'), h.scanned]

end Devices

/-! ## The closes -/

section Closes

variable {cfg : Config} {x y : BurstCall} {cl cl' : Client} {F : InPlace} {r₂ r r₂' : Run}
  {i k : ℕ}

lemma BurstResult.keepsCloses (h : BurstResult cfg x cl F r₂ r) : x.KeepsCloses r₂ where
  opType := fun i hi => by
    by_cases hc : x.Ciphers cfg cl i
    · rw [h.ciphers i hi hc]
      rfl
    · rw [h.others i hi hc]
      exact scan_opType (Nat.lt_succ_self i)
  op := fun i hi ht => by
    have hc : ¬x.Ciphers cfg cl i := fun hl =>
      absurd ((listed_iff.mp hl).2.1.symm.trans ht) (by decide)
    rw [h.others i hi hc]
    exact scan_close_op (Nat.lt_succ_self i) ht

/-- A close leaves every id alone that it does not name. -/
lemma closed_of_not_named (hk : x.KeepsCloses r₂) (hi : i ≤ x.size) {sessId : UInt32}
    (hno : ∀ k < i, x.Closes k → (x.jobs k).op.sessId ≠ sessId) :
    x.closed cfg r₂ i sessId = x.closed cfg r₂ 0 sessId := by
  induction i with
  | zero => rfl
  | succ i ih =>
      rw [← ih (by omega) fun k hk => hno k (by omega)]
      have hstep : CloseStep (x.closed cfg r₂ i) (x.jobs i).op _ (x.closed cfg r₂ (i + 1)) :=
        closed_step (by omega) (hk.opType i (by omega)) (hk.op i (by omega))
      generalize x.closed cfg r₂ (i + 1) = m', ((x.closing cfg r₂ x.size).2 i).op = resp at hstep
      cases hstep with
      | removed ht => rw [Function.update_of_ne (hno i (Nat.lt_succ_self i) ht).symm]
      | notLive => rfl
      | other => rfl

lemma closing_of_no_close (hk : x.KeepsCloses r₂) (hi : i ≤ x.size)
    (hno : ∀ k < i, ¬x.Closes k) : x.closing cfg r₂ i = (r₂.cl, r₂.jobs) := by
  induction i with
  | zero => rfl
  | succ i ih =>
      have hih := ih (by omega) fun k hk => hno k (by omega)
      have hstep := closing_step cfg x r₂ i
      rw [hih] at hstep
      have hne : (r₂.jobs i).op.opType ≠ cryptoOpTypeSessClose := by
        rw [hk.opType i (by omega)]
        exact hno i (Nat.lt_succ_self i)
      generalize x.closing cfg r₂ (i + 1) = s' at hstep
      cases hstep with
      | removed _ ht => exact absurd ht hne
      | notLive ht => exact absurd ht hne
      | other => rfl

/-- **The same close does the same to the same sessions.** -/
lemma SameJob.closing (hj : SameJob x i y k) (hjobs : r₂'.jobs k = r₂.jobs i)
    (h : SameSessions (x.closing cfg r₂ i).1 (y.closing cfg r₂' k).1) :
    SameSessions (x.closing cfg r₂ (i + 1)).1 (y.closing cfg r₂' (k + 1)).1 ∧
      (y.closing cfg r₂' (k + 1)).2 k = (x.closing cfg r₂ (i + 1)).2 i := by
  have hjob : (y.closing cfg r₂' k).2 k = (x.closing cfg r₂ i).2 i := by
    rw [closing_jobs_of_le le_rfl, closing_jobs_of_le le_rfl, hjobs]
  have hpost := postprocessJob_same cfg x.ch (x.script.sess i).release h hjob
  have hy : y.closing cfg r₂' (k + 1) =
      postprocessJob cfg x.ch (x.script.sess i).release k (y.closing cfg r₂' k) := by
    rw [← hj.ch, ← hj.ans]
    rfl
  rw [hy]
  exact hpost

end Closes

/-! ## The bursts side by side -/

section Front

variable {cfg : Config} {x : BurstCall} {cl : Client} {n : ℕ} {dev : ℕ → DevScript}

lemma front_sameJob (i : ℕ) : SameJob x i (x.front n dev) i :=
  ⟨rfl, rfl, rfl, rfl, rfl, fun _ _ => rfl⟩

lemma front_aligned (i : ℕ) : Aligned cfg x cl i (x.front n dev) cl i :=
  ⟨front_sameJob i, rfl, rfl⟩

lemma front_ownBuffers (hn : n ≤ x.size) (h : x.OwnBuffers) : (x.front n dev).OwnBuffers :=
  fun i hi k hk => h i (lt_of_lt_of_le hi hn) k (lt_of_lt_of_le hk hn)

lemma back_ownBuffers (h : x.OwnBuffers) (heap : Heap) : (x.back n dev heap).OwnBuffers := by
  intro i hi k hk hne
  have hi' : i < x.size - n := hi
  have hk' : k < x.size - n := hk
  exact h (n + i) (by omega) (n + k) (by omega) (by omega)

end Front

/-- **The three runs**: the whole burst, the first one and the second one, which starts where the
first one ends. -/
structure ThreeRuns (cfg : Config) (x : BurstCall) (cl : Client) (F : InPlace) (n : ℕ)
    (dev₁ dev₂ : ℕ → DevScript) (r₂ r f₂ f g₂ g : Run) : Prop where
  le : n ≤ x.size
  groupable : x.Groupable
  processed : ∀ d < cfg.nbCryptodevs, ∀ n, cfg.processed d n ≤ n.toNat
  whole : BurstResult cfg x cl F r₂ r
  first : BurstResult cfg (x.front n dev₁) cl F f₂ f
  second : BurstResult cfg (x.back n dev₂ f.heap) f.cl F g₂ g

namespace ThreeRuns

variable {cfg : Config} {x : BurstCall} {cl : Client} {F : InPlace} {n : ℕ}
  {dev₁ dev₂ : ℕ → DevScript} {r₂ r f₂ f g₂ g : Run}
  (t : ThreeRuns cfg x cl F n dev₁ dev₂ r₂ r f₂ f g₂ g)

include t

/-- What the first burst writes spares the buffers of the second one. -/
lemma bytes_first {b : CryptoBuff} (hb : ∀ i < n, (x.jobs i).payload.Apart b) {m : ℕ}
    (hm : m ≤ b.length.toNat) :
    f.heap.bytes b.data m = x.heap.bytes b.data m := by
  obtain ⟨ws, hws, hheap⟩ := t.first.memory
  have hapart : ∀ w ∈ ws, ∃ i, w = (x.front n dev₁).writeOf cfg cl F i ∧
      ((x.front n dev₁).jobs i).payload.Apart b := by
    intro w hw
    obtain ⟨i, hi, -, rfl⟩ := (hws w).mp hw
    exact ⟨i, rfl, hb i hi⟩
  rw [hheap]
  exact bytes_storeAll_of_own t.processed hapart x.heap hm

lemma sameJob {k : ℕ} (hk : n + k < x.size) :
    SameJob x (n + k) (x.back n dev₂ f.heap) k := by
  have hown := fun i (hi : i < n) =>
    t.groupable.own i (by omega) (n + k) hk (by omega)
  exact ⟨rfl, rfl, rfl, t.bytes_first (fun i hi => (hown i hi).2.2) le_rfl,
    t.bytes_first (fun i hi => (hown i hi).2.1) le_rfl,
    fun m hm => t.bytes_first (fun i hi => (hown i hi).1) hm⟩

lemma first_answered {i : ℕ} (hi : i < n) : f₂.jobs i = r₂.jobs i :=
  (front_aligned i).answered t.processed t.whole t.first (lt_of_lt_of_le hi t.le) hi

/-- The sessions the first burst ends with, and those it has before its closes. -/
lemma first_closed : SameSessions ((x.front n dev₁).closing cfg f₂ n).1 f.cl :=
  ⟨t.first.closes.1.symm, t.first.closes.2.1.symm⟩

lemma first_scanned : SameSessions (x.scan cfg cl n).cl f₂.cl :=
  ⟨t.first.registry, t.first.pool⟩

lemma whole_scanned : SameSessions (x.scan cfg cl x.size).cl r₂.cl :=
  ⟨t.whole.registry, t.whole.pool⟩

/-! ### No close in the first burst -/

section NoClose

variable (hno : ∀ i < n, ¬x.Closes i)

include hno

lemma first_ends : SameSessions (x.scan cfg cl n).cl f.cl := by
  have hkept : (x.front n dev₁).closing cfg f₂ n = (f₂.cl, f₂.jobs) :=
    closing_of_no_close t.first.keepsCloses le_rfl hno
  have h := t.first_closed
  rw [hkept] at h
  exact t.first_scanned.trans h

/-- The second burst goes on where the scan of the whole burst is. -/
lemma scan_no_close {k : ℕ} (hk : n + k ≤ x.size) :
    SameSessions (x.scan cfg cl (n + k)).cl ((x.back n dev₂ f.heap).scan cfg f.cl k).cl := by
  induction k with
  | zero => exact (t.first_ends hno).trans (scan_zero _ _ _)
  | succ k ih => exact (t.sameJob (by omega)).scan (ih (by omega))

lemma closing_no_close : SameSessions (x.closing cfg r₂ n).1 g₂.cl := by
  rw [closing_of_no_close t.whole.keepsCloses t.le hno]
  have hscan := t.scan_no_close hno (k := x.size - n) (by have := t.le; omega)
  rw [Nat.add_sub_cancel' t.le] at hscan
  exact t.whole_scanned.symm.trans (hscan.trans ⟨t.second.registry, t.second.pool⟩)

end NoClose

/-! ### A close in the first burst -/

section Close

variable {i₀ : ℕ} (hi₀ : i₀ < n) (hclose : x.Closes i₀)

include hi₀ hclose

lemma scan_whole_close {k : ℕ} (hk : n + k ≤ x.size) :
    SameSessions (x.scan cfg cl n).cl (x.scan cfg cl (n + k)).cl := by
  induction k with
  | zero => exact .refl _
  | succ k ih =>
      have hne := (t.groupable.afterClose i₀ (n + k) (by omega) (by omega) hclose).1
      exact (ih (by omega)).trans (scan_keep hne)

lemma scan_second_close {k : ℕ} (hk : n + k ≤ x.size) :
    SameSessions f.cl ((x.back n dev₂ f.heap).scan cfg f.cl k).cl := by
  induction k with
  | zero => exact scan_zero _ _ _
  | succ k ih =>
      have hne := (t.groupable.afterClose i₀ (n + k) (by omega) (by omega) hclose).1
      exact (ih (by omega)).trans (scan_keep (x := x.back n dev₂ f.heap) hne)

/-- No id of the second burst was closed in the first one. -/
lemma getSession_close {k : ℕ} (hk : n + k < x.size) :
    getSession cfg x.ch (x.jobs (n + k)).op.sessId
        ((x.back n dev₂ f.heap).scan cfg f.cl k).cl =
      getSession cfg x.ch (x.jobs (n + k)).op.sessId (x.scan cfg cl (n + k)).cl := by
  have hkept : (x.front n dev₁).closed cfg f₂ n (x.jobs (n + k)).op.sessId =
      (x.front n dev₁).closed cfg f₂ 0 (x.jobs (n + k)).op.sessId :=
    closed_of_not_named t.first.keepsCloses le_rfl fun i (hi : i < n) hc =>
      (t.groupable.afterClose i (n + k) (by omega) hk hc).2.symm
  rw [(t.scan_second_close hi₀ hclose hk.le).getSession, t.first_closed.getSession,
    (t.scan_whole_close hi₀ hclose hk.le).getSession, ← t.first_scanned.getSession]
  exact hkept

/-- The closes of the first burst find the same sessions in both runs. -/
lemma closing_first {i : ℕ} (hi : i ≤ n) :
    SameSessions (x.closing cfg r₂ i).1 ((x.front n dev₁).closing cfg f₂ i).1 := by
  induction i with
  | zero =>
      have hscan := t.scan_whole_close hi₀ hclose (k := x.size - n) (by have := t.le; omega)
      rw [Nat.add_sub_cancel' t.le] at hscan
      exact t.whole_scanned.symm.trans (hscan.symm.trans t.first_scanned)
  | succ i ih =>
      exact ((front_sameJob i).closing
        (t.first_answered (by omega)) (ih (by omega))).1

lemma closing_close : SameSessions (x.closing cfg r₂ n).1 g₂.cl := by
  have hsecond := t.scan_second_close hi₀ hclose (k := x.size - n) (by have := t.le; omega)
  exact (t.closing_first hi₀ hclose le_rfl).trans (t.first_closed.trans
    (hsecond.trans ⟨t.second.registry, t.second.pool⟩))

end Close

/-! ### Both -/

/-- **Each job of the second burst is aligned with its job of the whole burst.** -/
lemma back_aligned {k : ℕ} (hk : n + k < x.size) :
    Aligned cfg x cl (n + k) (x.back n dev₂ f.heap) f.cl k := by
  by_cases hno : ∀ i < n, ¬x.Closes i
  · exact (t.sameJob hk).aligned (t.scan_no_close hno hk.le)
  · push Not at hno
    obtain ⟨i₀, hi₀, hclose⟩ := hno
    have hne := (t.groupable.afterClose i₀ (n + k) (by omega) hk hclose).1
    exact (t.sameJob hk).aligned_of_ne hne (t.getSession_close hi₀ hclose hk)

lemma second_answered {k : ℕ} (hk : n + k < x.size) : g₂.jobs k = r₂.jobs (n + k) :=
  (t.back_aligned hk).answered t.processed t.whole t.second hk
    (show k < x.size - n by omega)

/-- **The closes of the second burst find the same sessions in both runs.** -/
lemma closing_second {k : ℕ} (hk : n + k ≤ x.size) :
    SameSessions (x.closing cfg r₂ (n + k)).1
      ((x.back n dev₂ f.heap).closing cfg g₂ k).1 := by
  induction k with
  | zero =>
      by_cases hno : ∀ i < n, ¬x.Closes i
      · exact t.closing_no_close hno
      · push Not at hno
        obtain ⟨i₀, hi₀, hclose⟩ := hno
        exact t.closing_close hi₀ hclose
  | succ k ih =>
      exact ((t.sameJob (by omega)).closing (t.second_answered (by omega)) (ih (by omega))).1

lemma front_jobs {i : ℕ} (hi : i < n) : f.jobs i = r.jobs i := by
  have hlt : i < x.size := lt_of_lt_of_le hi t.le
  have hf : f.jobs i = ((x.front n dev₁).closing cfg f₂ (i + 1)).2 i := by
    rw [← t.first.closes.2.2]
    exact closing_jobs_of_lt hi
  rw [hf, ← t.whole.closes.2.2, closing_jobs_of_lt hlt]
  by_cases hno : ∀ i < n, ¬x.Closes i
  · rw [closing_of_no_close t.first.keepsCloses hi fun k hk => hno k (by omega),
      closing_of_no_close t.whole.keepsCloses hlt fun k hk => hno k (by omega)]
    exact t.first_answered hi
  · push Not at hno
    obtain ⟨i₀, hi₀, hclose⟩ := hno
    exact ((front_sameJob i).closing (t.first_answered hi)
      (t.closing_first hi₀ hclose hi.le)).2

lemma back_jobs {k : ℕ} (hk : n + k < x.size) : g.jobs k = r.jobs (n + k) := by
  have hg : g.jobs k = ((x.back n dev₂ f.heap).closing cfg g₂ (k + 1)).2 k := by
    rw [← t.second.closes.2.2]
    exact closing_jobs_of_lt (show k < x.size - n by omega)
  rw [hg, ← t.whole.closes.2.2, closing_jobs_of_lt hk]
  exact ((t.sameJob hk).closing (t.second_answered hk) (t.closing_second hk.le)).2

/-- **The memory is the same**: the same results are written, in another order. -/
lemma memory : g.heap.mem = r.heap.mem := by
  obtain ⟨ws, hws, hr⟩ := t.whole.memory
  obtain ⟨ws₁, hws₁, hf⟩ := t.first.memory
  obtain ⟨ws₂, hws₂, hg⟩ := t.second.memory
  have hmem : ∀ w, w ∈ ws ↔ w ∈ ws₁ ++ ws₂ := by
    intro w
    rw [List.mem_append, hws, hws₁, hws₂]
    constructor
    · rintro ⟨i, hi, hc, rfl⟩
      by_cases hin : i < n
      · exact .inl ⟨i, hin, hc, rfl⟩
      · obtain ⟨k, rfl⟩ := Nat.exists_eq_add_of_le (Nat.le_of_not_lt hin)
        have ha := t.back_aligned hi
        exact .inr ⟨k, show k < x.size - n by omega, ha.ciphers.mpr hc,
          (ha.writeOf t.processed).symm⟩
    · rintro (⟨i, hi, hc, rfl⟩ | ⟨k, hk, hc, rfl⟩)
      · exact ⟨i, lt_of_lt_of_le hi t.le, hc, rfl⟩
      · have hk' : k < x.size - n := hk
        have ha := t.back_aligned (k := k) (by omega)
        exact ⟨n + k, by omega, ha.ciphers.mp hc, ha.writeOf t.processed⟩
  have hheap : g.heap = x.heap.storeAll (ws₁ ++ ws₂) := by
    rw [hg, Heap.storeAll_append, ← show f.heap = x.heap.storeAll ws₁ from hf]
    rfl
  funext q a
  rw [hheap, hr]
  refine (Heap.mem_storeAll_congr x.heap hmem fun w hw w' hw' hc hc' => ?_).symm
  -- a byte that two results cover would be shared by two payloads
  obtain ⟨i, hi, -, rfl⟩ := (hws w).mp hw
  obtain ⟨k, hk, -, rfl⟩ := (hws w').mp hw'
  by_cases hik : i = k
  · rw [hik]
  obtain ⟨p, hp, hpe⟩ := covers_writeOf t.processed hc
  obtain ⟨p', hp', hpe'⟩ := covers_writeOf t.processed hc'
  exact absurd (hpe.symm.trans hpe') ((t.groupable.own i hi k hk hik).1 p hp p' hp')

theorem sameOutcome : SameOutcome x n r f g := by
  have hsess := t.closing_second (k := x.size - n) (by have := t.le; omega)
  rw [Nat.add_sub_cancel' t.le] at hsess
  obtain ⟨hreg, hpool, -⟩ := t.whole.closes
  obtain ⟨hreg', hpool', -⟩ := t.second.closes
  refine ⟨?_, ?_, fun i hi => t.front_jobs hi, fun k hk => t.back_jobs (by omega), t.memory⟩
  · rw [← hreg, ← hreg']
    exact hsess.registry
  · rw [← hpool, ← hpool']
    exact hsess.pool

end ThreeRuns

/-! ## Grouping -/

section Main

variable {cfg : Config} {x : BurstCall} {cl : Client} {F : InPlace}

lemma run_result (m : UInt32) (behind : UInt32 → RteCipherOp)
    (hm : 64 ≤ m.toNat) (hidle : Idle cl) (hsize : x.size ≤ maxJobsBurstSize)
    (hiv : ∀ i < x.size, (x.jobs i).op.opType = cryptoOpTypeSessCiphering →
      (x.jobs i).cipherIv.length = 16)
    (hown : x.OwnBuffers) (hc : x.Computing (Config.ofDevices 0 1 m behind) cl F) :
    ∃ r₂ r, x.run (Config.ofDevices 0 1 m behind) cl = some r ∧
      BurstResult (Config.ofDevices 0 1 m behind) x cl F r₂ r :=
  run_computing rfl (show (0 : UInt8) ≠ 1 by decide) (fun _ hd n => processed_le m behind hd n)
    hidle hsize (hsize.trans hm) (fun i hi hci => hiv i hi (listed_iff.mp hci).2.1) hown hc

lemma computing_of_no_cipher (hnb : cfg.nbCryptodevs = 2)
    (hne : (cfg.enabledCdevs 0).cdevId ≠ (cfg.enabledCdevs 1).cdevId) (hidle : Idle cl)
    (h0 : x.size ≠ 0) (hsize : x.size ≤ maxJobsBurstSize)
    (hno : ∀ i < x.size, (x.jobs i).op.opType ≠ cryptoOpTypeSessCiphering) :
    x.Computing cfg cl F := by
  have hnil : ∀ d, (x.sorted cfg cl).idxs d = [] := fun d =>
    List.eq_nil_iff_forall_not_mem.mpr fun i hi =>
      hno i (mem_scan_idxs.mp hi).1 (listed_iff.mp (mem_scan_idxs.mp hi).2).2.1
  have hserved : x.Served cfg cl := fun d _ hd => absurd (hnil d) hd
  refine ⟨hserved, fun r hrun ev hev => ?_, .inr fun d _ hd => absurd (hnil d) hd⟩
  obtain ⟨_, _, E, _, ho⟩ := run_outcome hnb hne hidle h0 hsize hrun
  obtain ⟨d, hd, k, op, hop, -⟩ := ho.mem_enqs.mp hev
  obtain ⟨hE, -, -⟩ := (ho.dev d hd).served (hserved.poolServes hd)
  rw [hnil d] at hE
  rw [List.length_eq_zero_iff.mp hE] at hop
  exact absurd hop (by simp)

/-- Every payload byte is combined with the first byte of the IV. -/
def xorInPlace : InPlace where
  fn := fun _ iv payload => (true, payload.map (· ^^^ iv.headD 0))
  length_eq := fun _ _ _ => List.length_map _

/-- A ciphering job on the session that `createdOn` has, and a job that closes it. -/
def groupedCall : BurstCall where
  ch := 0
  script := ⟨fun _ => ⟨none, false, ⟨true, true⟩⟩, fun _ =>
    ⟨[⟨some fun _ => freshOp, 1,
      [⟨0, .success, (List.range 16).map fun i => UInt8.ofNat (108 + i) ^^^ 164⟩]⟩], []⟩⟩
  heap := ⟨fun _ a => UInt8.ofNat a, []⟩
  jobs := fun i =>
    if i = 0 then sampleJob cryptoOpTypeSessCiphering 0 cryptoCipherAesCtr
    else ⟨(sampleJob cryptoOpTypeSessClose 0 cryptoCipherAesCtr).op,
      ⟨1, fun _ => ⟨16, ⟨.resp 1, 108⟩⟩⟩, ⟨16, ⟨.resp 1, 9108⟩⟩, ⟨16, ⟨.resp 1, 9124⟩⟩⟩
  size := 2

lemma groupable_groupedCall : groupedCall.Groupable where
  afterClose := by
    intro i k hik hk hclose
    have hk' : k < 2 := hk
    obtain rfl : i = 0 := by omega
    exact absurd hclose
      (show (groupedCall.jobs 0).op.opType ≠ cryptoOpTypeSessClose by decide)
  iv := by
    intro i _ _
    simp only [groupedCall]
    split_ifs <;> rfl
  own := by
    intro i hi k hk hik
    have hi' : i < 2 := hi
    have hk' : k < 2 := hk
    interval_cases i <;> interval_cases k <;>
      simp_all [CryptoBuff.Apart, groupedCall, CryptoOperation.payload, sampleJob, Ptr.add]

lemma groupedCall_computing {n : ℕ} (hn : n = 1 ∨ n = 2) :
    (groupedCall.front n groupedCall.script.dev).Computing (sampleConfig 0 1)
      (createdOn (sampleConfig 0 1)) xorInPlace := by
  have hidxs : ((groupedCall.front n groupedCall.script.dev).sorted (sampleConfig 0 1)
      (createdOn (sampleConfig 0 1))).idxs 0 = [0] ∧
      ((groupedCall.front n groupedCall.script.dev).sorted (sampleConfig 0 1)
        (createdOn (sampleConfig 0 1))).idxs 1 = [] := by
    rcases hn with rfl | rfl <;> exact ⟨rfl, rfl⟩
  have henqs : ((groupedCall.front n groupedCall.script.dev).run (sampleConfig 0 1)
      (createdOn (sampleConfig 0 1))).map (fun r => r.enqs.map fun ev =>
        (ev.dev, ev.op.session, (List.range 16).map ev.op.iv,
          groupedCall.heap.bytes ev.op.bufAddr ev.op.cipherDataLength.toNat)) =
      some [(0, some 7, (List.range 16).map fun i => UInt8.ofNat (9124 + i),
        (List.range 16).map fun i => UInt8.ofNat (108 + i))] := by
    rcases hn with rfl | rfl <;> rfl
  refine ⟨fun d hd hne => ?_, fun r hrun ev hev d hd hdev a ha _ => ?_, .inl fun _ _ _ => rfl⟩
  · obtain rfl : d = 0 := by
      rcases Nat.lt_succ_iff_lt_or_eq.mp hd with h1 | rfl
      · omega
      · exact absurd hidxs.2 hne
    rw [hidxs.1, show baseTicket (sampleConfig 0 1) (createdOn (sampleConfig 0 1)) 0 = 0 from rfl]
    exact ⟨⟨_, _, rfl, le_rfl⟩, fun _ hD => absurd hD List.not_mem_nil,
      fun _ hD => absurd hD (by simp [BurstCall.front, groupedCall]), .refl _⟩
  · rw [hrun, Option.map_some, Option.some.injEq, List.map_eq_singleton_iff] at henqs
    obtain ⟨ev', he, hop⟩ := henqs
    rw [he, List.mem_singleton] at hev
    subst hev
    simp only [Prod.mk.injEq] at hop
    obtain ⟨hdev0, hsess, hiv, hbytes⟩ := hop
    obtain rfl : d = 0 := by
      rcases Nat.lt_succ_iff_lt_or_eq.mp hd with h1 | rfl
      · omega
      · exact absurd (hdev0.symm.trans hdev) (by decide)
    obtain rfl := List.mem_singleton.mp ha
    refine ⟨7, true, hsess, ?_, rfl⟩
    rw [hiv, show ((sampleConfig 0 1).enabledCdevs 0).byteLength ev.op =
      ev.op.cipherDataLength.toNat from rfl]
    exact (congrArg (xorInPlace.fn 7 _) hbytes).trans (by decide)

/-- The device an event is about. -/
def Config.deviceOf (cfg : Config) (dev : UInt8) : CryptodevDevice :=
  if dev = (cfg.enabledCdevs 0).cdevId then cfg.enabledCdevs 0 else cfg.enabledCdevs 1

/-- Memory after a device that computes `F` carried out the operation of the event, on the bytes
that stood in its buffer. -/
def InPlace.carryOut (F : InPlace) (cfg : Config) (heap : Heap) (ev : DevEvent) : Heap :=
  match ev.op.session with
  | some s => heap.store ev.op.bufAddr (F.fn s ((List.range 16).map ev.op.iv)
      (heap.bytes ev.op.bufAddr ((cfg.deviceOf ev.dev).byteLength ev.op))).2
  | none => heap

/-- **The call runs to `r` on devices that compute `F`**: the pool and the devices serve it, every
operation succeeds, and memory is what the operations make of it in the order they come back.  The
jobs may share buffers. -/
structure BurstCall.CarriedOut (x : BurstCall) (cfg : Config) (cl : Client) (F : InPlace)
    (r : Run) : Prop where
  run : x.run cfg cl = some r
  served : x.Served cfg cl
  status : ∀ ev ∈ r.deqs, ev.op.status = .success
  memory : r.heap.mem = (r.deqs.foldl (F.carryOut cfg) x.heap).mem

/-- Session object 7 adds one to every byte, the other ones double it. -/
def addOrDouble : InPlace where
  fn := fun s _ payload => (true, payload.map fun b => if s = 7 then b + 1 else 2 * b)
  length_eq := fun _ _ _ => List.length_map _

/-- An AES session (object 7) and a SNOW3G session (object 8) on channel 0. -/
def createdBoth : Client :=
  (BurstCall.run { createCall cryptoCipherSnow3gUea2 with
      script := ⟨fun _ => ⟨some 8, true, ⟨true, true⟩⟩, fun _ => ⟨[], []⟩⟩ }
    (sampleConfig 0 1) (createdOn (sampleConfig 0 1))).elim Client.init Run.cl

/-- One operation is taken, accepted and returned with these bytes. -/
def answering (out : UInt8) : DevScript :=
  ⟨[⟨some fun _ => freshOp, 1, [⟨0, .success, List.replicate 16 out⟩]⟩], []⟩

/-- A SNOW3G job and an AES job on one buffer of bytes 3; `outs` is what the devices leave. -/
def sharedCall (outs : ℕ → UInt8) : BurstCall where
  ch := 0
  script := ⟨fun _ => ⟨none, false, ⟨true, true⟩⟩, fun d => answering (outs d)⟩
  heap := ⟨fun _ _ => 3, []⟩
  jobs := fun i =>
    if i = 0 then sampleJob cryptoOpTypeSessCiphering (packSessId 1 0) cryptoCipherSnow3gUea2
    else sampleJob cryptoOpTypeSessCiphering (packSessId 0 0) cryptoCipherAesCtr
  size := 2

lemma answering_serves (out : UInt8) (asked : ℕ) : (answering out).Serves asked 0 1 where
  round := ⟨_, _, rfl, le_rfl⟩
  drain := fun _ hD => absurd hD List.not_mem_nil
  last := fun _ hD => absurd hD (by simp [answering])
  tickets := .refl _

/-- The devices that have a job have one each, and answer it. -/
lemma served_of_answering {x : BurstCall} {cl : Client}
    (h : ∀ d < 2, (x.sorted (sampleConfig 0 1) cl).idxs d = [] ∨
      (((x.sorted (sampleConfig 0 1) cl).idxs d).length = 1 ∧
        baseTicket (sampleConfig 0 1) cl d = 0 ∧ ∃ out, x.script.dev d = answering out)) :
    x.Served (sampleConfig 0 1) cl := by
  intro d hd hne
  rcases h d hd with hnil | ⟨hlen, hbase, out, hdev⟩
  · exact absurd hnil hne
  · rw [hlen, hbase, hdev]
    exact answering_serves out _

end Main

end CiphApp
