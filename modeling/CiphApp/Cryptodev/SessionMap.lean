import CiphApp.Lib.Simulation
import CiphApp.Cryptodev.Served

/-!
# The registry is a map

What a client sees of the registry is a map from session ids to sessions, one for each channel.
The first part of this file is that view, on its own: what a burst may answer and how it changes
the map of its channel.  The second part shows that `run_jobs` and `cleanup_conn` do nothing else.

A burst takes two passes over its jobs.  The first one creates sessions and resolves the ids of
ciphering jobs, in order; the second one applies the closes, in order.  So a job can use a session
that an earlier job of the burst creates, and one that any job of the burst closes.
-/

namespace CiphApp

open Lib

/-! ## The view of a client -/

/-- The sessions of one channel. -/
abbrev SessionMap := UInt32 → Option SessPtr

/-- **The first pass**, at one job: the map before, the job, its response, the map after.  `error`
says that the device reported an error on the job.  The response to a close is not decided yet. -/
inductive ScanStep (error : Prop) (m : SessionMap) (job : CryptoOperationContext) :
    CryptoOperationContext → SessionMap → Prop
  | created (sessId : UInt32) (s : SessPtr) (ht : job.opType = cryptoOpTypeSessCreate)
      (hnew : m sessId = none) :
      ScanStep error m job { job with opStatus := cryptoOpStatusSucc, sessId }
        (Function.update m sessId (some s))
  | notCreated (ht : job.opType = cryptoOpTypeSessCreate) :
      ScanStep error m job { job with opStatus := cryptoOpStatusFailed, sessId := 0xFFFFFFFF } m
  | close (response : CryptoOperationContext) (ht : job.opType = cryptoOpTypeSessClose) :
      ScanStep error m job response m
  | ciphered (ht : job.opType = cryptoOpTypeSessCiphering) (hlive : m job.sessId ≠ none)
      (hok : ¬error) : ScanStep error m job { job with opStatus := cryptoOpStatusSucc } m
  | notCiphered (ht : job.opType = cryptoOpTypeSessCiphering)
      (hfail : m job.sessId = none ∨ error) :
      ScanStep error m job { job with opStatus := cryptoOpStatusFailed } m
  | unknown (h0 : job.opType ≠ cryptoOpTypeSessCiphering)
      (h1 : job.opType ≠ cryptoOpTypeSessCreate) (h2 : job.opType ≠ cryptoOpTypeSessClose) :
      ScanStep error m job { job with opStatus := cryptoOpStatusFailed } m

/-- **The second pass**, at one job: the map before, the job, its response, the map after.  A close
of a session that is live removes it, and any other close fails.  Nothing is said about the response
to another job, which the first pass has decided. -/
inductive CloseStep (m : SessionMap) (job : CryptoOperationContext) :
    CryptoOperationContext → SessionMap → Prop
  | removed (ht : job.opType = cryptoOpTypeSessClose) (hlive : m job.sessId ≠ none) :
      CloseStep m job { job with opStatus := cryptoOpStatusSucc }
        (Function.update m job.sessId none)
  | notLive (ht : job.opType = cryptoOpTypeSessClose) (hdead : m job.sessId = none) :
      CloseStep m job { job with opStatus := cryptoOpStatusFailed } m
  | other (response : CryptoOperationContext) (ht : job.opType ≠ cryptoOpTypeSessClose) :
      CloseStep m job response m

/-- A burst of `size` jobs changes the map from `m` to `m'`. -/
def BurstSpec (size : ℕ) (jobs : ℕ → CryptoOperationContext) (errors : ℕ → Prop)
    (responses : ℕ → CryptoOperationContext) (m m' : SessionMap) : Prop :=
  ∃ scanned closed : ℕ → SessionMap,
    scanned 0 = m ∧
    (∀ i < size, ScanStep (errors i) (scanned i) (jobs i) (responses i) (scanned (i + 1))) ∧
    closed 0 = scanned size ∧
    (∀ i < size, CloseStep (closed i) (jobs i) (responses i) (closed (i + 1))) ∧
    closed size = m'

/-- What is seen of a call: of a burst the jobs, the device errors and the responses. -/
inductive Call
  | burst (ch size : ℕ) (jobs : ℕ → CryptoOperationContext) (errors : ℕ → Prop)
      (responses : ℕ → CryptoOperationContext)
  | cleanup (ch : ℕ)

/-- **The maps of all channels**, and what the calls do to them. -/
inductive MapStep (M : ℕ → SessionMap) : Call → (ℕ → SessionMap) → Prop
  | burst (ch size : ℕ) (jobs : ℕ → CryptoOperationContext) (errors : ℕ → Prop)
      (responses : ℕ → CryptoOperationContext) (m : SessionMap)
      (h : BurstSpec size jobs errors responses (M ch) m) :
      MapStep M (.burst ch size jobs errors responses) (Function.update M ch m)
  | cleanup (ch : ℕ) : MapStep M (.cleanup ch) (Function.update M ch fun _ => none)

/-! ## The map of a registry -/

/-- What `get_session` makes of the registry. -/
def Client.sessions (cfg : Config) (cl : Client) (ch : ℕ) : SessionMap :=
  fun sessId => getSession cfg ch sessId cl

section Map

variable {cfg : Config} {cl : Client} {ch : ℕ}

lemma Client.sessions_congr {cl' : Client} (h : cl'.registry ch = cl.registry ch) :
    cl'.sessions cfg ch = cl.sessions cfg ch :=
  funext fun _ => getSession_congr h

/-- An assignment to the cell an id names is an assignment to the map. -/
lemma Client.sessions_set {sessId : UInt32} (hd : sessCdevId sessId < cfg.nbCryptodevs)
    (hi : sessSlot sessId < maxSessNum) {cl' : Client} {v : Option SessPtr}
    (h : cl'.registry = cl.registry.set ch (sessCdevId sessId) (sessSlot sessId) v) :
    cl'.sessions cfg ch = Function.update (cl.sessions cfg ch) sessId v := by
  funext id
  by_cases hid : id = sessId
  · subst hid
    simp [Client.sessions, getSession, hd, hi, h]
  · -- another id names another cell
    have hcell : ¬(sessCdevId id = sessCdevId sessId ∧ sessSlot id = sessSlot sessId) :=
      fun hc => hid (sessId_ext hc.1 hc.2)
    rw [Function.update_of_ne hid]
    simp [Client.sessions, getSession, h, Registry.set_apply, hcell]

/-- Sessions sit only in rows of devices that there are. -/
lemma getSession_packSessId {cdevId : UInt8} {slot : ℕ} (hd : cdevId.toNat < cfg.nbCryptodevs)
    (hi : slot < maxSessNum) :
    getSession cfg ch (packSessId cdevId slot) cl = cl.registry ch cdevId.toNat slot := by
  have hi' : slot < 65536 := hi.trans (by decide)
  rw [getSession, sessCdevId_packSessId _ hi', sessSlot_packSessId _ hi', if_pos ⟨hd, hi⟩]

lemma Client.sessions_addSession {slot : ℕ} {s : SessPtr} {v : Session}
    (hv : v.cdevId.toNat < maxDevNum) (hd : v.cdevId.toNat < cfg.nbCryptodevs)
    (hi : slot < maxSessNum) :
    (cl.addSession ch slot s v).sessions cfg ch =
      Function.update (cl.sessions cfg ch) (packSessId v.cdevId slot) (some s) := by
  have hi' : slot < 65536 := hi.trans (by decide)
  have hcd := sessCdevId_packSessId v.cdevId hi'
  have hsl := sessSlot_packSessId v.cdevId hi'
  refine Client.sessions_set (hcd.trans_lt hd) (hsl.trans_lt hi) ?_
  rw [hcd, hsl, ← Registry.store_of_lt _ hv]
  rfl

lemma Client.sessions_remove {sessId : UInt32} (hd : sessCdevId sessId < cfg.nbCryptodevs)
    (hi : sessSlot sessId < maxSessNum) (p : SessPool) :
    Client.sessions cfg
      { cl with
        registry := cl.registry.set ch (sessCdevId sessId) (sessSlot sessId) none
        pool := p } ch = Function.update (cl.sessions cfg ch) sessId none :=
  Client.sessions_set hd hi rfl

end Map

/-! ## The first pass -/

section Scan

variable {cfg : Config} {x : BurstCall} {cl : Client}

/-- The map before job `i`, in the first pass. -/
def BurstCall.scanned (x : BurstCall) (cfg : Config) (cl : Client) (i : ℕ) : SessionMap :=
  (x.scan cfg cl i).cl.sessions cfg x.ch

/-- **A pass of `preprocess_jobs` is a step of the first pass.**  A response is what the pass left
behind, except that a listed job also fails if the device reports an error. -/
lemma scanned_step (hnb : cfg.nbCryptodevs = 2) (hfit : cfg.DevicesFit) {i : ℕ}
    (hentry : (x.jobs i).op.opStatus ≠ cryptoOpStatusFailed) {error : Prop}
    {resp : CryptoOperationContext}
    (hrest : (x.jobs i).op.opType ≠ cryptoOpTypeSessClose → (∀ d, ¬Listed cfg x cl d i) →
      resp = ((x.scan cfg cl (i + 1)).jobs i).op)
    (hlisted : ∀ d, Listed cfg x cl d i →
      (error ∧ resp = { (x.jobs i).op with opStatus := cryptoOpStatusFailed }) ∨
        (¬error ∧ resp = { (x.jobs i).op with opStatus := cryptoOpStatusSucc })) :
    ScanStep error (x.scanned cfg cl i) (x.jobs i).op resp (x.scanned cfg cl (i + 1)) := by
  have hjob : (x.scan cfg cl i).jobs i = x.jobs i := scan_jobs_self i
  have hstep := scan_step cfg x cl i
  have hother : (x.jobs i).op.opType ≠ cryptoOpTypeSessCiphering → ∀ d, ¬Listed cfg x cl d i :=
    fun ht d hl => ht (listed_iff.mp hl).2.1
  unfold BurstCall.scanned
  generalize x.scan cfg cl (i + 1) = b' at hstep hrest ⊢
  cases hstep with
  | inAgent hs => exact absurd (hjob ▸ hs) hentry
  | created s slot _ ht _ _ hslot hfree =>
      rw [hjob] at ht hfree
      have hv : (sessionOf cfg x.heap (x.jobs i)).cdevId.toNat < maxDevNum := hfit _
      have hd : (sessionOf cfg x.heap (x.jobs i)).cdevId.toNat < cfg.nbCryptodevs := by
        rw [hnb]
        exact hv
      rw [Registry.load_of_lt _ hv] at hfree
      rw [hrest (by rw [ht]; decide) (hother (by rw [ht]; decide))]
      simp only [Burst.setJob, Function.update_self, hjob]
      rw [Client.sessions_addSession hv hd hslot]
      exact .created _ s ht ((getSession_packSessId hd hslot).trans hfree)
  | notCreated p _ ht _ =>
      rw [hjob] at ht
      rw [hrest (by rw [ht]; decide) (hother (by rw [ht]; decide))]
      simp only [Burst.setJob, Burst.fail, Function.update_self, hjob]
      exact .notCreated ht
  | close _ ht => exact .close resp (hjob ▸ ht)
  | notLive _ ht hget =>
      rw [hjob] at ht hget
      have hno : ∀ d, ¬Listed cfg x cl d i := fun d hl => by
        have := (listed_iff.mp hl).2.2.2
        rw [hget] at this
        simp at this
      rw [hrest (by rw [ht]; decide) hno]
      simp only [Burst.setJob, Burst.fail, Function.update_self, hjob]
      exact .notCiphered ht (.inl hget)
  | listed s hs ht hget =>
      rw [hjob] at ht hget hs
      have hl : Listed cfg x cl (sessCdevId (x.jobs i).op.sessId) i :=
        listed_iff.mpr ⟨hs, ht, rfl, by rw [hget]; rfl⟩
      have hlive : (x.scan cfg cl i).cl.sessions cfg x.ch (x.jobs i).op.sessId ≠ none := by
        rw [Client.sessions, hget]
        exact Option.some_ne_none s
      rcases hlisted _ hl with ⟨he, rfl⟩ | ⟨he, rfl⟩
      · exact .notCiphered ht (.inr he)
      · exact .ciphered ht hlive he
  | unknown _ h0 h1 h2 =>
      rw [hjob] at h0 h1 h2
      rw [hrest h2 (hother h0)]
      simp only [Burst.setJob, Burst.fail, Function.update_self, hjob]
      exact .unknown h0 h1 h2

end Scan

/-! ## The second pass -/

section Close

variable {cfg : Config} {x : BurstCall} {cl : Client} {r₂ : Run}

/-- The state before job `i` of the second pass, which starts where the devices are done. -/
def BurstCall.closing (x : BurstCall) (cfg : Config) (r₂ : Run) (i : ℕ) : Client × Jobs :=
  postprocessJobs cfg x.ch (fun i => (x.script.sess i).release) i (r₂.cl, r₂.jobs)

lemma closing_step (cfg : Config) (x : BurstCall) (r₂ : Run) (i : ℕ) :
    PostStep cfg x.ch (x.script.sess i).release i (x.closing cfg r₂ i)
      (x.closing cfg r₂ (i + 1)) :=
  postStep cfg x.ch (x.script.sess i).release i (x.closing cfg r₂ i)

lemma PostStep.jobs_of_ne {ch : ℕ} {ans : ReleaseAns} {i k : ℕ} {s s' : Client × Jobs}
    (h : PostStep cfg ch ans i s s') (hk : k ≠ i) : s'.2 k = s.2 k := by
  cases h <;> simp [Function.update_of_ne hk]

lemma closing_jobs_of_le {i k : ℕ} (hk : i ≤ k) : (x.closing cfg r₂ i).2 k = r₂.jobs k := by
  induction i with
  | zero => rfl
  | succ i ih => rw [(closing_step cfg x r₂ i).jobs_of_ne (by omega), ih (by omega)]

lemma closing_jobs_of_lt {i k : ℕ} (hk : k < i) :
    (x.closing cfg r₂ i).2 k = (x.closing cfg r₂ (k + 1)).2 k := by
  induction i with
  | zero => omega
  | succ i ih =>
      rcases Nat.lt_succ_iff_lt_or_eq.mp hk with hlt | rfl
      · rw [(closing_step cfg x r₂ i).jobs_of_ne (by omega), ih hlt]
      · rfl

/-- The map before job `i`, in the second pass. -/
def BurstCall.closed (x : BurstCall) (cfg : Config) (r₂ : Run) (i : ℕ) : SessionMap :=
  (x.closing cfg r₂ i).1.sessions cfg x.ch

/-- **A pass of `postprocess_jobs` is a step of the second pass.** -/
lemma closed_step {i : ℕ} (hi : i < x.size) {job : CryptoOperationContext}
    (htype : (r₂.jobs i).op.opType = job.opType)
    (hclose : job.opType = cryptoOpTypeSessClose → (r₂.jobs i).op = job) :
    CloseStep (x.closed cfg r₂ i) job ((x.closing cfg r₂ x.size).2 i).op
      (x.closed cfg r₂ (i + 1)) := by
  have hjob : (x.closing cfg r₂ i).2 i = r₂.jobs i := closing_jobs_of_le le_rfl
  have hstep := closing_step cfg x r₂ i
  rw [closing_jobs_of_lt hi]
  unfold BurstCall.closed
  generalize x.closing cfg r₂ (i + 1) = s' at hstep
  cases hstep with
  | removed p ht hget =>
      rw [hjob] at ht hget
      have hop := hclose (htype ▸ ht)
      obtain ⟨hd, hs, -⟩ := getSession_eq_some.mp hget
      have hlive : (x.closing cfg r₂ i).1.sessions cfg x.ch (r₂.jobs i).op.sessId ≠ none := by
        rw [Client.sessions, hget]
        exact Option.some_ne_none p
      simp only [Function.update_self, hjob]
      rw [Client.sessions_remove hd hs, ← hop]
      exact .removed ht hlive
  | notLive ht hget =>
      rw [hjob] at ht hget
      have hop := hclose (htype ▸ ht)
      simp only [Function.update_self, hjob]
      rw [← hop]
      exact .notLive ht hget
  | other ht =>
      rw [hjob, htype] at ht
      exact .other _ ht

end Close

/-! ## A burst -/

section Burst

variable {cfg : Config} {x : BurstCall} {cl : Client} {r r₂ : Run} {h₀ : ℕ → Heap}
  {E : ℕ → List CryptoOp} {D : ℕ → List DevEvent}

lemma PreStep.opType {heap : Heap} {ch : ℕ} {ans : SessAns} {i : ℕ} {b b' : Burst}
    (h : PreStep cfg heap ch ans i b b') : (b'.jobs i).op.opType = (b.jobs i).op.opType := by
  cases h <;>
    simp [Burst.setJob, Burst.fail, CryptoOperation.setStatus, CryptoOperation.setSessId,
      CryptoOperation.setBuffListLength]

lemma scan_opType {i n : ℕ} (hi : i < n) :
    ((x.scan cfg cl n).jobs i).op.opType = (x.jobs i).op.opType := by
  rw [show (x.scan cfg cl n).jobs i = (x.scan cfg cl (i + 1)).jobs i from scan_jobs_of_lt hi,
    (scan_step cfg x cl i).opType, scan_jobs_self]

lemma scan_close {i n : ℕ} (hi : i < n) (hs : (x.jobs i).op.opStatus ≠ cryptoOpStatusFailed)
    (ht : (x.jobs i).op.opType = cryptoOpTypeSessClose) :
    (x.scan cfg cl n).jobs i = x.jobs i := by
  rw [show (x.scan cfg cl n).jobs i = (x.scan cfg cl (i + 1)).jobs i from scan_jobs_of_lt hi]
  have hjob : (x.scan cfg cl i).jobs i = x.jobs i := scan_jobs_self i
  have hstep := scan_step cfg x cl i
  generalize x.scan cfg cl (i + 1) = b' at hstep
  cases hstep with
  | inAgent hs' => exact absurd (hjob ▸ hs') hs
  | created _ _ _ ht' => exact absurd ((hjob ▸ ht').symm.trans ht) (by decide)
  | notCreated _ _ ht' => exact absurd ((hjob ▸ ht').symm.trans ht) (by decide)
  | close => exact hjob
  | notLive _ ht' => exact absurd ((hjob ▸ ht').symm.trans ht) (by decide)
  | listed _ _ ht' => exact absurd ((hjob ▸ ht').symm.trans ht) (by decide)
  | unknown _ _ _ h2 => exact absurd ht (hjob ▸ h2)

lemma afterResult_opType (job : CryptoOperation) (st : Option RteStatus) :
    (job.afterResult st).op.opType = job.op.opType := by
  rcases st with _ | st
  · rfl
  · cases st <;> rfl

/-- The devices do not touch a job they do not have. -/
lemma BurstOutcome.not_listed (ho : BurstOutcome cfg x cl r r₂ h₀ E D) {i : ℕ}
    (hno : ∀ d, ¬Listed cfg x cl d i) : r₂.jobs i = (x.sorted cfg cl).jobs i :=
  ho.unlisted i fun d _ hmem => hno d (mem_scan_idxs.mp hmem).2

lemma BurstOutcome.opType (ho : BurstOutcome cfg x cl r r₂ h₀ E D) (hnb : cfg.nbCryptodevs = 2)
    {i : ℕ} (hi : i < x.size) : (r₂.jobs i).op.opType = (x.jobs i).op.opType := by
  have hsorted : ((x.sorted cfg cl).jobs i).op.opType = (x.jobs i).op.opType := scan_opType hi
  by_cases hl : ∃ d, Listed cfg x cl d i
  · obtain ⟨d, hl⟩ := hl
    have hd : d < 2 := hnb ▸ hl.lt
    have hmem : i ∈ (x.sorted cfg cl).idxs d := mem_scan_idxs.mpr ⟨hi, hl⟩
    obtain ⟨p, hp, rfl⟩ := exists_getD_eq hmem
    rw [← ho.listed d hd _ hmem, (ho.dev d hd).job p hp, afterResult_opType, hsorted]
  · push Not at hl
    rw [ho.not_listed hl, hsorted]

/-- The response to a listed job is decided by the device. -/
lemma BurstOutcome.listed_response (ho : BurstOutcome cfg x cl r r₂ h₀ E D)
    (hnb : cfg.nbCryptodevs = 2) (hs : x.ServedInOrder cfg cl)
    (hmax : x.size ≤ cfg.maxBurstSize.toNat) {d i : ℕ} (hi : i < x.size)
    (hl : Listed cfg x cl d i) :
    (DeviceError r i ∧
        (r.jobs i).op = { (x.jobs i).op with opStatus := cryptoOpStatusFailed }) ∨
      (¬DeviceError r i ∧
        (r.jobs i).op = { (x.jobs i).op with opStatus := cryptoOpStatusSucc }) := by
  have hd : d < 2 := hnb ▸ hl.lt
  have hmem : i ∈ (x.sorted cfg cl).idxs d := mem_scan_idxs.mpr ⟨hi, hl⟩
  have hsorted : (x.sorted cfg cl).jobs i = _ := hl.job hi
  obtain ⟨p, hp, rfl⟩ := exists_getD_eq hmem
  obtain ⟨a, op, ha, -, hproc, -⟩ := ho.inOrder hs hmax hd hp
  rw [ho.deviceError_iff hs hmax hd hp ha, (ho.dev d hd).job p hp, hsorted, List.getElem?_map, ha]
  cases hst : a.status with
  | success => exact .inr ⟨by simp, by simp [hst]; rfl⟩
  | notProcessed => exact absurd hst hproc
  | authFailed => exact .inl ⟨by simp, by simp [hst]; rfl⟩
  | invalidSession => exact .inl ⟨by simp, by simp [hst]; rfl⟩
  | invalidArgs => exact .inl ⟨by simp, by simp [hst]; rfl⟩
  | error => exact .inl ⟨by simp, by simp [hst]; rfl⟩

/-- **A burst does to the map what the two passes say.** -/
lemma BurstOutcome.burstSpec (ho : BurstOutcome cfg x cl r r₂ h₀ E D)
    (hnb : cfg.nbCryptodevs = 2) (hfit : cfg.DevicesFit)
    (hs : x.ServedInOrder cfg cl) (hmax : x.size ≤ cfg.maxBurstSize.toNat)
    (hentry : ∀ i < x.size, (x.jobs i).op.opStatus ≠ cryptoOpStatusFailed) :
    BurstSpec x.size (fun i => (x.jobs i).op) (DeviceError r) (fun i => (r.jobs i).op)
      (cl.sessions cfg x.ch) (r.cl.sessions cfg x.ch) := by
  have hjobs : r.jobs = (x.closing cfg r₂ x.size).2 := by
    rw [ho.closes]
    rfl
  refine ⟨x.scanned cfg cl, x.closed cfg r₂, Client.sessions_congr rfl, fun i hi => ?_,
    Client.sessions_congr (congrFun ho.registry x.ch), fun i hi => ?_, ?_⟩
  · refine scanned_step hnb hfit (hentry i hi) (fun ht hno => ?_) fun d hl =>
      ho.listed_response hnb hs hmax hi hl
    -- neither the devices nor the closes touch the job
    have hclose : r.jobs i = r₂.jobs i := by
      rw [hjobs]
      exact postprocessJobs_jobs_of_ne (by rwa [← ho.opType hnb hi] at ht)
    show (r.jobs i).op = _
    rw [hclose, ho.not_listed hno]
    exact congrArg CryptoOperation.op (scan_jobs_of_lt hi)
  · rw [hjobs]
    refine closed_step hi (ho.opType hnb hi) fun ht => ?_
    have hno : ∀ d, ¬Listed cfg x cl d i := fun d hl =>
      absurd (ht.symm.trans (listed_iff.mp hl).2.1) (by decide)
    rw [ho.not_listed hno]
    exact congrArg CryptoOperation.op (scan_close hi (hentry i hi) ht)
  · refine Client.sessions_congr (congrFun ?_ x.ch)
    rw [ho.closes]
    rfl

end Burst

/-! ## A cleanup -/

section Cleanup

/-- **A cleanup empties the map of its channel** and leaves the others alone. -/
lemma cleanupConn_sessions (cfg : Config) (c : ℕ) (ans : ℕ → ℕ → ReleaseAns) (cl : Client) :
    (cleanupConn cfg c ans cl).sessions cfg =
      Function.update (cl.sessions cfg) c fun _ => none := by
  funext ch
  by_cases hch : ch = c
  · subst hch
    rw [Function.update_self]
    funext sessId
    unfold Client.sessions getSession
    split_ifs with hc
    · rw [cleanupConn, removeAllSessions, releaseSlots_registry, if_pos ⟨rfl, hc.1, hc.2⟩]
    · rfl
  · rw [Function.update_of_ne hch]
    exact Client.sessions_congr (cleanupConn_other_channel cfg ans cl hch)

end Cleanup

/-! ## Runs -/

/-- A call of `run_jobs` with one to 64 jobs, none of them failed on entry, that is served in
order. -/
structure BurstCall.Regular (x : BurstCall) (cfg : Config) (cl : Client) : Prop where
  ch : x.ch < maxChannelNum
  pos : 0 < x.size
  size : x.size ≤ maxJobsBurstSize
  entry : ∀ i < x.size, (x.jobs i).op.opStatus ≠ cryptoOpStatusFailed
  served : x.ServedInOrder cfg cl

/-- **The steps of the client** on regular bursts, and what is seen of them. -/
inductive ServedStep (cfg : Config) (cl : Client) : Call → Client → Prop
  | burst (x : BurstCall) (r : Run) (hx : x.Regular cfg cl) (hrun : x.run cfg cl = some r) :
      ServedStep cfg cl
        (.burst x.ch x.size (fun i => (x.jobs i).op) (DeviceError r) fun i => (r.jobs i).op) r.cl
  | cleanup (ch : ℕ) (ans : ℕ → ℕ → ReleaseAns) (hch : ch < maxChannelNum) :
      ServedStep cfg cl (.cleanup ch) (cleanupConn cfg ch ans cl)

section Refinement

variable {cfg : Config}

lemma ServedStep.idle (hnb : cfg.nbCryptodevs = 2)
    (hne : (cfg.enabledCdevs 0).cdevId ≠ (cfg.enabledCdevs 1).cdevId) {cl cl' : Client}
    {l : Call} (h : ServedStep cfg cl l cl') (hidle : Idle cl) : Idle cl' := by
  cases h with
  | burst x r hx hrun =>
      exact run_idle hnb hne hidle hx.size (fun d hd => hx.served.served.poolServes hd) hrun
  | cleanup ch ans hch => exact cleanupConn_idle cfg ch ans hidle

/-- **The client simulates the maps**, while its devices are idle between the calls. -/
lemma servedStep_simulation (hnb : cfg.nbCryptodevs = 2)
    (hne : (cfg.enabledCdevs 0).cdevId ≠ (cfg.enabledCdevs 1).cdevId)
    (hfit : cfg.DevicesFit)
    (hmax : maxJobsBurstSize ≤ cfg.maxBurstSize.toNat) :
    Simulation (ServedStep cfg) MapStep fun cl M => Idle cl ∧ M = cl.sessions cfg := by
  rintro cl l cl' M ⟨hidle, rfl⟩ hstep
  refine ⟨cl'.sessions cfg, ?_, hstep.idle hnb hne hidle, rfl⟩
  cases hstep with
  | burst x r hx hrun =>
      obtain ⟨r₂, h₀, E, D, ho⟩ := run_outcome hnb hne hidle hx.pos.ne' hx.size hrun
      have hspec := ho.burstSpec hnb hfit hx.served (hx.size.trans hmax) hx.entry
      have hM : r.cl.sessions cfg =
          Function.update (cl.sessions cfg) x.ch (r.cl.sessions cfg x.ch) := by
        funext ch
        by_cases hch : ch = x.ch
        · subst hch
          rw [Function.update_self]
        · rw [Function.update_of_ne hch]
          exact Client.sessions_congr (run_other_channel hfit hrun hch)
      rw [hM]
      exact .burst x.ch x.size _ _ _ _ hspec
  | cleanup ch ans hch =>
      rw [cleanupConn_sessions]
      exact .cleanup ch

end Refinement

/-- **Burst processing refines the session maps.**  With devices 0 and 1 and bursts of up to 64,
every run of regular bursts and cleanups is, in what is seen of it, a run of the maps that starts
with empty ones; it ends with the maps the registry stands for; and the next regular burst
returns. -/
theorem bursts_refine_sessionMap (aes snow : List UInt8) (maxBurstSize : UInt32)
    (hmax : 64 ≤ maxBurstSize) (behind : UInt32 → RteCipherOp) (cfg : Config)
    (hcfg : initInner (0 :: aes) (1 :: snow) maxBurstSize behind = some cfg) (calls : List Call)
    (cl : Client) (h : Trace (ServedStep cfg) Client.init calls cl) :
    Trace MapStep (fun _ _ => none) calls (cl.sessions cfg) ∧
      ∀ x : BurstCall, x.Regular cfg cl → ∃ r, x.run cfg cl = some r := by
  obtain rfl : Config.ofDevices 0 1 maxBurstSize behind = cfg := by simpa [initInner] using hcfg
  have hne : ((Config.ofDevices 0 1 maxBurstSize behind).enabledCdevs 0).cdevId ≠
      ((Config.ofDevices 0 1 maxBurstSize behind).enabledCdevs 1).cdevId :=
    (by decide : (0 : UInt8) ≠ 1)
  have hmax' : maxJobsBurstSize ≤ maxBurstSize.toNat := UInt32.le_iff_toNat_le.mp hmax
  have hempty : (Client.init).sessions (Config.ofDevices 0 1 maxBurstSize behind) =
      fun _ _ => none := by
    funext ch sessId
    simp [Client.sessions, getSession, Client.init]
  have hfit := devicesFit_ofDevices (a := 0) (s := 1) (by decide) (by decide) maxBurstSize behind
  obtain ⟨M, hM, hidle, rfl⟩ :=
    (servedStep_simulation rfl hne hfit hmax').trace ⟨fun _ => rfl, hempty.symm⟩ h
  exact ⟨hM, fun x hx => run_returns rfl hne hidle hx.size (hx.size.trans hmax') hx.served.served⟩

lemma createCall_regular :
    (createCall cryptoCipherAesCtr).Regular (sampleConfig 0 1) Client.init where
  ch := by decide
  pos := by decide
  size := by decide
  entry := fun _ _ => (by decide : cryptoOpStatusNotProcessed ≠ cryptoOpStatusFailed)
  served := fun _ _ hne => absurd rfl hne

lemma cipherCall_regular :
    (cipherCall 0 servedScript).Regular (sampleConfig 0 1) (createdOn (sampleConfig 0 1)) where
  ch := by decide
  pos := by decide
  size := by decide
  entry := fun _ _ => (by decide : cryptoOpStatusNotProcessed ≠ cryptoOpStatusFailed)
  served := fun d hd hne => by
    interval_cases d
    · exact servedScript_inOrder _
    · exact absurd rfl hne

/-- After a create the map of channel 0 has one entry, and a ciphering job on it returns. -/
theorem bursts_refine_sessionMap_created :
    ∃ calls, calls.length = 1 ∧
      Trace MapStep (fun _ _ => none) calls
        ((createdOn (sampleConfig 0 1)).sessions (sampleConfig 0 1)) ∧
      (createdOn (sampleConfig 0 1)).sessions (sampleConfig 0 1) 0 0 = some 7 ∧
      ∃ r, (cipherCall 0 servedScript).run (sampleConfig 0 1) (createdOn (sampleConfig 0 1)) =
        some r := by
  have htrace : Trace (ServedStep (sampleConfig 0 1)) Client.init _
      (createdOn (sampleConfig 0 1)) :=
    .snoc _ .nil (.burst (createCall cryptoCipherAesCtr) _ createCall_regular rfl)
  obtain ⟨hmap, hnext⟩ := bursts_refine_sessionMap [] [] 64 (by decide) _ _ rfl _ _ htrace
  exact ⟨_, rfl, hmap, rfl, hnext _ cipherCall_regular⟩

end CiphApp
