import CiphApp.Lib.Tickets
import CiphApp.Cryptodev.Steps

/-!
# The two loops of `run_jobs_inner`

What a completed or aborted call of `run_jobs_inner` has done, when it started on an idle device.

The accounting of the loops: a pass offers `burst_size - ops_unused` operations, always prepared
from the *front* of the job list, and `ops_unused` never goes down.  So as long as every burst is
accepted whole, operation number `k` carries the job at position `k % max_burst_size`, and a loop
that ends normally has had every burst accepted whole.  Results are attributed by the order in
which operations come back: the `p`-th returned operation decides the status of the job at
position `p`, whichever job it carried.

`InnerInv` is the invariant of both loops.
-/

namespace CiphApp

open Lib

/-- Everything the device returns in a call, in order.  A pass whose pool request fails returns
nothing. -/
def DevScript.returns (script : DevScript) : List Return :=
  (script.rounds.filter (·.pool.isSome)).flatMap (·.returned) ++ script.drain.flatten

/-- The pool never refuses. -/
def DevScript.PoolServes (script : DevScript) : Prop := ∀ r ∈ script.rounds, r.pool.isSome = true

/-! ## Preparing a burst -/

lemma setOpsCipher_apply (cfg : Config) (ch : ℕ) (dev : UInt8) (cl : Client) (heap : Heap)
    (vecs : Jobs) (idxs : List ℕ) (n : ℕ) (ops : ℕ → CryptoOp) (st : Stats) {i : ℕ} (hi : i < n) :
    (setOpsCipher cfg ch dev cl heap vecs idxs n (ops, st)).1 i =
      setOpCipher cfg dev heap (vecs (idxs.getD i 0)) (idxs.getD i 0)
        (getSession cfg ch (vecs (idxs.getD i 0)).op.sessId cl) (ops i) := by
  have := forUpTo_pointwise
    (fun i op => setOpCipher cfg dev heap (vecs (idxs.getD i 0)) (idxs.getD i 0)
      (getSession cfg ch (vecs (idxs.getD i 0)).op.sessId cl) op)
    (fun i (st : Stats) => st.prepared (vecs (idxs.getD i 0))
      (getSession cfg ch (vecs (idxs.getD i 0)).op.sessId cl)) n (ops, st) i
  rwa [if_pos hi] at this

/-- The operations of a submitted burst, as a list. -/
def preparedOps (cfg : Config) (ch : ℕ) (dev : UInt8) (idxs : List ℕ) (ops : ℕ → CryptoOp)
    (accepted : ℕ) (r : Run) : List CryptoOp :=
  (List.range accepted).map fun i =>
    setOpCipher cfg dev r.heap (r.jobs (idxs.getD i 0)) (idxs.getD i 0)
      (getSession cfg ch (r.jobs (idxs.getD i 0)).op.sessId r.cl) (ops i)

section Submit

variable (cfg : Config) (ch : ℕ) (dev : UInt8) (idxs : List ℕ) (ops : ℕ → CryptoOp)
  {needed accepted : ℕ} (r : Run)

lemma submit_new (h : accepted ≤ needed) (m : ℕ) :
    ((List.range accepted).map fun i => (m + i,
      (setOpsCipher cfg ch dev r.cl r.heap r.jobs idxs needed (ops, r.cl.stats)).1 i)) =
      (preparedOps cfg ch dev idxs ops accepted r).mapIdx fun i x => (m + i, x) := by
  apply List.ext_getElem
  · simp [preparedOps]
  · intro i h1 _
    have hi : i < accepted := by simpa using h1
    simp [preparedOps, setOpsCipher_apply cfg ch dev r.cl r.heap r.jobs idxs needed ops r.cl.stats
      (lt_of_lt_of_le hi h)]

/-- What a submitted burst adds to the queue of its device. -/
lemma queues_submit (h : accepted ≤ needed) :
    (r.submit cfg ch dev idxs ops needed accepted).cl.queues =
      Function.update r.cl.queues dev
        ⟨(r.cl.queues dev).next + accepted,
          (r.cl.queues dev).queue ++ (preparedOps cfg ch dev idxs ops accepted r).mapIdx
            fun i x => ((r.cl.queues dev).next + i, x)⟩ := by
  rw [← submit_new cfg ch dev idxs ops r h]
  rfl

lemma enqs_submit (h : accepted ≤ needed) :
    (r.submit cfg ch dev idxs ops needed accepted).enqs =
      r.enqs ++ (preparedOps cfg ch dev idxs ops accepted r).mapIdx
        fun i x => ⟨dev, (r.cl.queues dev).next + i, x⟩ := by
  have hmap := congrArg (List.map fun x : ℕ × CryptoOp => (⟨dev, x.1, x.2⟩ : DevEvent))
    (submit_new cfg ch dev idxs ops r h (r.cl.queues dev).next)
  have hidx : ((preparedOps cfg ch dev idxs ops accepted r).mapIdx
      fun i x => ((r.cl.queues dev).next + i, x)).map (fun x => (⟨dev, x.1, x.2⟩ : DevEvent)) =
      (preparedOps cfg ch dev idxs ops accepted r).mapIdx
        fun i x => ⟨dev, (r.cl.queues dev).next + i, x⟩ := by
    apply List.ext_getElem <;> simp
  rw [hidx] at hmap
  exact congrArg (r.enqs ++ ·) hmap

variable (needed accepted)

lemma registry_submit :
    (r.submit cfg ch dev idxs ops needed accepted).cl.registry = r.cl.registry := rfl

lemma jobs_submit : (r.submit cfg ch dev idxs ops needed accepted).jobs = r.jobs := rfl

lemma heap_submit : (r.submit cfg ch dev idxs ops needed accepted).heap = r.heap := rfl

lemma deqs_submit : (r.submit cfg ch dev idxs ops needed accepted).deqs = r.deqs := rfl

end Submit

/-! ## Writing results -/

/-- The status of a job after a result was written to it; `none` is no result. -/
def CryptoOperation.afterResult (job : CryptoOperation) : Option RteStatus → CryptoOperation
  | none => job
  | some .notProcessed => job
  | some .success => job.setStatus cryptoOpStatusSucc
  | some _ => job.setStatus cryptoOpStatusFailed

/-- The effect of `set_ops_cipher_result` on the jobs. -/
def resultJobs (idxs : List ℕ) : List RteStatus → ℕ → Jobs → Jobs
  | [], _, jobs => jobs
  | st :: sts, k, jobs =>
    resultJobs idxs sts (k + 1)
      (Function.update jobs (idxs.getD k 0) ((jobs (idxs.getD k 0)).afterResult (some st)))

lemma setOpCipherResult_jobs (j : ℕ) (op : CryptoOp) (s : Jobs × Stats) :
    (setOpCipherResult j op s).1 =
      Function.update s.1 j ((s.1 j).afterResult (some op.status)) := by
  unfold setOpCipherResult
  cases op.status <;> simp [CryptoOperation.afterResult]

lemma setOpsCipherResult_jobs (idxs : List ℕ) (ops : List CryptoOp) (k : ℕ) (s : Jobs × Stats) :
    (setOpsCipherResult idxs ops k s).1 = resultJobs idxs (ops.map (·.status)) k s.1 := by
  induction ops generalizing k s with
  | nil => rfl
  | cons op ops ih =>
      rw [setOpsCipherResult, ih, setOpCipherResult_jobs]
      rfl

lemma resultJobs_append (idxs : List ℕ) (as bs : List RteStatus) (k : ℕ) (jobs : Jobs) :
    resultJobs idxs (as ++ bs) k jobs =
      resultJobs idxs bs (k + as.length) (resultJobs idxs as k jobs) := by
  induction as generalizing k jobs with
  | nil => rfl
  | cons a as ih =>
      simp only [List.cons_append, resultJobs, ih, List.length_cons]
      congr 1
      omega

lemma resultJobs_statusOnly (idxs : List ℕ) (sts : List RteStatus) (k : ℕ) (jobs : Jobs) (j : ℕ) :
    ∃ st, resultJobs idxs sts k jobs j = (jobs j).setStatus st := by
  induction sts generalizing k jobs with
  | nil => exact ⟨(jobs j).op.opStatus, rfl⟩
  | cons a sts ih =>
      obtain ⟨st, hst⟩ := ih (k + 1) (Function.update jobs (idxs.getD k 0)
        ((jobs (idxs.getD k 0)).afterResult (some a)))
      rw [resultJobs, hst]
      by_cases hj : j = idxs.getD k 0
      · subst hj
        refine ⟨st, ?_⟩
        cases a <;> simp [CryptoOperation.afterResult, CryptoOperation.setStatus]
      · exact ⟨st, by rw [Function.update_of_ne hj]⟩

lemma getD_inj {idxs : List ℕ} (hnd : idxs.Nodup) {p q : ℕ} (hp : p < idxs.length)
    (hq : q < idxs.length) (h : idxs.getD p 0 = idxs.getD q 0) : p = q := by
  rw [List.getD_eq_getElem idxs 0 hp, List.getD_eq_getElem idxs 0 hq] at h
  exact (List.Nodup.getElem_inj_iff hnd).mp h

lemma resultJobs_of_ne (idxs : List ℕ) (sts : List RteStatus) (k : ℕ) (jobs : Jobs) {j : ℕ}
    (h : ∀ p, k ≤ p → p < k + sts.length → j ≠ idxs.getD p 0) :
    resultJobs idxs sts k jobs j = jobs j := by
  induction sts generalizing k jobs with
  | nil => rfl
  | cons a sts ih =>
      rw [resultJobs, ih _ _ fun p h1 h2 => h p (by omega) (by simp; omega),
        Function.update_of_ne (h k le_rfl (by simp))]

/-- **Attribution by position.**  The `p`-th result decides the job at position `p`. -/
lemma resultJobs_at {idxs : List ℕ} (hnd : idxs.Nodup) (sts : List RteStatus) (k : ℕ)
    (jobs : Jobs) (hlen : k + sts.length ≤ idxs.length) {p : ℕ} (hkp : k ≤ p)
    (hp : p < idxs.length) :
    resultJobs idxs sts k jobs (idxs.getD p 0) =
      (jobs (idxs.getD p 0)).afterResult sts[p - k]? := by
  induction sts generalizing k jobs with
  | nil => rfl
  | cons a sts ih =>
      rw [List.length_cons] at hlen
      rw [resultJobs]
      rcases Nat.eq_or_lt_of_le hkp with rfl | hlt
      · rw [resultJobs_of_ne]
        · simp
        · intro q h1 h2 he
          have := getD_inj hnd hp (by omega) he
          omega
      · rw [ih (k + 1) _ (by omega) hlt, Function.update_of_ne]
        · rw [show p - k = (p - (k + 1)) + 1 by omega, List.getElem?_cons_succ]
        · intro he
          have := getD_inj hnd hp (by omega) he
          omega

/-! ## The invariant -/

/-- `op` was prepared for job `j` from memory `heap`, over whatever the pool object carried. -/
def PreparedFor (cfg : Config) (ch : ℕ) (dev : UInt8) (r : Run) (heap : Heap) (j : ℕ)
    (op : CryptoOp) : Prop :=
  ∃ old, op = setOpCipher cfg dev heap (r.jobs j) j
    (getSession cfg ch (r.jobs j).op.sessId r.cl) old

/-- The event of the operation named by `a` coming back from `dev`, which had accepted the
operations `E` from ticket `base` on. -/
def ReturnedAs (dev : UInt8) (base : ℕ) (E : List CryptoOp) (a : Return) (ev : DevEvent) : Prop :=
  ∃ k op, a.ticket = base + k ∧ E[k]? = some op ∧
    ev = ⟨dev, a.ticket, { op with status := a.status }⟩

/-- Memory after the devices wrote the buffers of the returned operations. -/
def storeReturns (h : Heap) (R : List Return) (D : List DevEvent) : Heap :=
  (R.zip D).foldl (fun h x => h.store x.2.op.bufAddr x.1.out) h

/-- **The state of `run_jobs_inner`** that started in `r₀` on an idle device with next ticket
`base`, after the device accepted the operations `E` and returned `R`. -/
structure InnerInv (cfg : Config) (ch : ℕ) (dev : UInt8) (idxs : List ℕ) (r₀ : Run) (base : ℕ)
    (E : List CryptoOp) (R : List Return) (s : Inner) : Prop where
  enqd : s.opsEnqdTotal = E.length
  enqd_le : E.length ≤ idxs.length
  unused_le : s.opsUnused ≤ idxs.length - E.length
  unused_max : s.opsUnused ≤ cfg.maxBurstSize.toNat
  /-- While every burst was accepted whole, all bursts but the last were full. -/
  full : s.opsUnused = 0 → cfg.maxBurstSize.toNat ∣ E.length ∨ E.length = idxs.length
  deqd : s.opsDeqdTotal = R.length
  next : (s.run.cl.queues dev).next = base + E.length
  tickets : Tickets base E (R.map (·.ticket)) (s.run.cl.queues dev).queue
  registry : s.run.cl.registry = r₀.cl.registry
  jobs : s.run.jobs = resultJobs idxs (R.map (·.status)) 0 r₀.jobs
  enqs : s.run.enqs = r₀.enqs ++ E.mapIdx fun k op => ⟨dev, base + k, op⟩
  deqs : ∃ D, s.run.deqs = r₀.deqs ++ D ∧ List.Forall₂ (ReturnedAs dev base E) R D ∧
    s.run.heap = storeReturns r₀.heap R D
  /-- Operation `k` carries the job at some position; while every burst was accepted whole, it is
  position `k % max_burst_size`. -/
  prepared : ∀ k op, E[k]? = some op → ∃ pos < idxs.length, ∃ heap,
    PreparedFor cfg ch dev r₀ heap (idxs.getD pos 0) op ∧
      (s.opsUnused = 0 → pos = k % cfg.maxBurstSize.toNat ∧
        (k < cfg.maxBurstSize.toNat → heap = r₀.heap))

section InnerInv

variable {cfg : Config} {ch : ℕ} {dev : UInt8} {idxs : List ℕ} {r₀ : Run} {base : ℕ}
  {E : List CryptoOp} {R : List Return} {s : Inner}

lemma InnerInv.start (hq : (r₀.cl.queues dev).queue = [])
    (hb : (r₀.cl.queues dev).next = base) :
    InnerInv cfg ch dev idxs r₀ base [] [] ⟨r₀, 0, 0, 0⟩ where
  enqd := rfl
  enqd_le := Nat.zero_le _
  unused_le := Nat.zero_le _
  unused_max := Nat.zero_le _
  full := fun _ => .inl (dvd_zero _)
  deqd := rfl
  next := hb
  tickets := hq ▸ Tickets.empty base
  registry := rfl
  jobs := rfl
  enqs := by simp
  deqs := ⟨[], by simp, .nil, rfl⟩
  prepared := fun k op h => by simp at h

lemma InnerInv.returned_le (h : InnerInv cfg ch dev idxs r₀ base E R s) :
    R.length ≤ E.length := by
  have := h.tickets.length_add
  simp only [List.length_map] at this
  omega

lemma ReturnedAs.mono {E' : List CryptoOp} {a : Return} {ev : DevEvent}
    (h : ReturnedAs dev base E a ev) : ReturnedAs dev base (E ++ E') a ev := by
  obtain ⟨k, op, hk, hop, rfl⟩ := h
  obtain ⟨hlt, -⟩ := List.getElem?_eq_some_iff.mp hop
  exact ⟨k, op, hk, by rw [List.getElem?_append_left hlt, hop], rfl⟩

lemma InnerInv.unusedFit (h : InnerInv cfg ch dev idxs r₀ base E R s) :
    s.UnusedFit cfg idxs.length := by
  intro _
  rw [h.enqd]
  exact le_min h.unused_max h.unused_le

/-- A burst that is accepted whole comes after bursts that were, and these were full. -/
lemma InnerInv.whole (hn : idxs.length < 2 ^ 16)
    (h : InnerInv cfg ch dev idxs r₀ base E R s) (hlt : s.opsEnqdTotal < idxs.length)
    {accepted : ℕ}
    (hacc : accepted ≤ sub16 (burstSize cfg s.opsEnqdTotal idxs.length) s.opsUnused)
    (h0 : sub16 (burstSize cfg s.opsEnqdTotal idxs.length) accepted = 0) :
    s.opsUnused = 0 ∧ accepted = min cfg.maxBurstSize.toNat (idxs.length - E.length) ∧
      cfg.maxBurstSize.toNat ∣ E.length := by
  have hfit := h.unusedFit
  have hmax := h.unused_max
  have hle := h.unused_le
  rw [hfit.unused_eq hn hacc, h.enqd] at h0
  rw [hfit.needed_eq hn, h.enqd] at hacc
  rw [h.enqd] at hlt
  have hu : s.opsUnused = 0 := by omega
  exact ⟨hu, by omega, (h.full hu).resolve_right (by omega)⟩

/-- The operations of a burst carry the jobs at the first positions of the list. -/
lemma InnerInv.prepared_burst (h : InnerInv cfg ch dev idxs r₀ base E R s) (ops : ℕ → CryptoOp)
    {accepted k : ℕ} {op : CryptoOp}
    (hop : (preparedOps cfg ch dev idxs ops accepted s.run)[k]? = some op) :
    k < accepted ∧ PreparedFor cfg ch dev r₀ s.run.heap (idxs.getD k 0) op := by
  obtain ⟨hk, rfl⟩ := List.getElem?_eq_some_iff.mp hop
  refine ⟨by simpa [preparedOps] using hk, ops k, ?_⟩
  obtain ⟨st, hst⟩ := resultJobs_statusOnly idxs (R.map (·.status)) 0 r₀.jobs (idxs.getD k 0)
  rw [← h.jobs] at hst
  simp only [preparedOps, List.getElem_map, List.getElem_range, hst]
  rw [getSession_congr (congrFun h.registry ch)]
  rfl

lemma InnerInv.heap_eq (h : InnerInv cfg ch dev idxs r₀ base E R s) (hE : E.length = 0) :
    s.run.heap = r₀.heap := by
  have hR : R = [] := List.eq_nil_of_length_eq_zero (by have := h.returned_le; omega)
  subst hR
  obtain ⟨D, -, hRD, hheap⟩ := h.deqs
  cases hRD
  exact hheap

/-- **A submitted burst keeps the invariant.** -/
lemma InnerInv.submit (hn : idxs.length < 2 ^ 16)
    (h : InnerInv cfg ch dev idxs r₀ base E R s) (hlt : s.opsEnqdTotal < idxs.length)
    (ops : ℕ → CryptoOp) {accepted : ℕ}
    (hacc : accepted ≤ sub16 (burstSize cfg s.opsEnqdTotal idxs.length) s.opsUnused) :
    InnerInv cfg ch dev idxs r₀ base
      (E ++ preparedOps cfg ch dev idxs ops accepted s.run) R
      { s with
        run := s.run.submit cfg ch dev idxs ops
          (sub16 (burstSize cfg s.opsEnqdTotal idxs.length) s.opsUnused) accepted
        opsUnused := sub16 (burstSize cfg s.opsEnqdTotal idxs.length) accepted
        opsEnqdTotal := s.opsEnqdTotal + accepted } := by
  have hle := h.enqd_le
  -- the arithmetic of one pass: nothing wraps, and the offer does not exceed what is left
  have hneed : accepted ≤ min cfg.maxBurstSize.toNat (idxs.length - E.length) - s.opsUnused := by
    rwa [h.unusedFit.needed_eq hn, h.enqd] at hacc
  have hunused : sub16 (burstSize cfg s.opsEnqdTotal idxs.length) accepted =
      min cfg.maxBurstSize.toNat (idxs.length - E.length) - accepted := by
    rw [h.unusedFit.unused_eq hn hacc, h.enqd]
  have hwhole := h.whole hn hlt hacc
  have hlen : (E ++ preparedOps cfg ch dev idxs ops accepted s.run).length =
      E.length + accepted := by simp [preparedOps]
  have hq := queues_submit cfg ch dev idxs ops s.run hacc
  obtain ⟨D, hD, hRD, hheap⟩ := h.deqs
  constructor
  · rw [hlen, h.enqd]
  · omega
  · simp only [hlen, hunused]
    omega
  · simp only [hunused]
    omega
  · intro h0
    obtain ⟨-, hab, hdvd⟩ := hwhole h0
    rw [hlen]
    by_cases hc : cfg.maxBurstSize.toNat ≤ idxs.length - E.length
    · left
      rw [hab, min_eq_left hc]
      exact dvd_add hdvd dvd_rfl
    · right
      omega
  · exact h.deqd
  · simp only [hq, Function.update_self, hlen, h.next]
    rw [Nat.add_assoc]
  · simp only [hq, Function.update_self, h.next]
    exact h.tickets.enqueue _
  · exact (registry_submit cfg ch dev idxs ops _ _ s.run).trans h.registry
  · exact (jobs_submit cfg ch dev idxs ops _ _ s.run).trans h.jobs
  · have henqs := enqs_submit cfg ch dev idxs ops s.run hacc
    simp only [henqs, h.enqs, h.next, List.append_assoc, List.mapIdx_append, Nat.add_assoc]
    simp only [Nat.add_comm E.length]
  · exact ⟨D, (deqs_submit cfg ch dev idxs ops _ _ s.run).trans hD,
      hRD.imp fun _ _ => ReturnedAs.mono, (heap_submit cfg ch dev idxs ops _ _ s.run).trans hheap⟩
  · intro k op hop
    rcases Nat.lt_or_ge k E.length with hk | hk
    · rw [List.getElem?_append_left hk] at hop
      obtain ⟨pos, hpos, heap, hprep, hfull⟩ := h.prepared k op hop
      exact ⟨pos, hpos, heap, hprep, fun h0 => hfull (hwhole h0).1⟩
    · rw [List.getElem?_append_right hk] at hop
      obtain ⟨hka, hprep⟩ := h.prepared_burst ops hop
      refine ⟨k - E.length, by omega, s.run.heap, hprep, fun h0 => ?_⟩
      -- all bursts before this one were full, so `k` is `q` bursts behind its position
      obtain ⟨-, hab, q, hdvd⟩ := hwhole h0
      have hkm : k = k - E.length + cfg.maxBurstSize.toNat * q := by omega
      refine ⟨?_, fun hkmax => h.heap_eq ?_⟩
      · rw [hkm, Nat.add_mul_mod_self_left, Nat.mod_eq_of_lt (by omega)]
        omega
      · rcases Nat.eq_zero_or_pos q with rfl | hq0
        · simpa using hdvd
        · have := Nat.le_mul_of_pos_right cfg.maxBurstSize.toNat hq0
          omega

/-- What a dequeue call does, and nothing else: operations that the device holds come back under
their tickets, with what the device has written to their buffers. -/
structure Dequeued (dev : UInt8) (base : ℕ) (E : List CryptoOp) (T : List ℕ) (as : List Return)
    (ops : List CryptoOp) (r r' : Run) : Prop where
  tickets : Tickets base E (T ++ as.map (·.ticket)) (r'.cl.queues dev).queue
  next : (r'.cl.queues dev).next = (r.cl.queues dev).next
  registry : r'.cl.registry = r.cl.registry
  jobs : r'.jobs = r.jobs
  enqs : r'.enqs = r.enqs
  statuses : ops.map (·.status) = as.map (·.status)
  deqs : ∃ D, r'.deqs = r.deqs ++ D ∧ List.Forall₂ (ReturnedAs dev base E) as D ∧
    r'.heap = storeReturns r.heap as D

lemma dequeueBurst_spec {as : List Return} {r r' : Run} {ops : List CryptoOp} {T : List ℕ}
    (ht : Tickets base E T (r.cl.queues dev).queue)
    (h : dequeueBurst dev as r = some (ops, r')) : Dequeued dev base E T as ops r r' := by
  induction as generalizing r ops T with
  | nil =>
      simp only [dequeueBurst, Option.some.injEq, Prod.mk.injEq] at h
      obtain ⟨rfl, rfl⟩ := h
      exact ⟨by simpa using ht, rfl, rfl, rfl, rfl, rfl, [], by simp, .nil, rfl⟩
  | cons a as ih =>
      rw [dequeueBurst] at h
      split at h
      · simp at h
      · rename_i op hop
        obtain ⟨⟨ops', r''⟩, hx, heq⟩ := Option.map_eq_some_iff.mp h
        simp only [Prod.mk.injEq] at heq
        obtain ⟨rfl, rfl⟩ := heq
        have ht' : Tickets base E (T ++ [a.ticket])
            ((r.dequeue dev a { op with status := a.status }).cl.queues dev).queue := by
          simpa [Run.dequeue] using ht.dequeue hop
        obtain ⟨h1, h2, h3, h4, h5, h6, D, h7, h8, h9⟩ := ih ht' hx
        obtain ⟨k, hk, hE⟩ := ht.item _ (mem_of_lookup hop)
        refine ⟨by simpa using h1, ?_, h3, h4, h5, by simp [h6],
          ⟨dev, a.ticket, { op with status := a.status }⟩ :: D, ?_, ?_, ?_⟩
        · simpa [Run.dequeue] using h2
        · simp [h7, Run.dequeue]
        · exact .cons ⟨k, op, hk, hE, rfl⟩ h8
        · simpa [storeReturns, Run.dequeue] using h9

lemma storeReturns_append (h : Heap) {R R' : List Return} {D D' : List DevEvent}
    (hlen : R.length = D.length) :
    storeReturns h (R ++ R') (D ++ D') = storeReturns (storeReturns h R D) R' D' := by
  simp [storeReturns, List.zip_append hlen]

/-- **A dequeue call keeps the invariant.** -/
lemma InnerInv.collect (h : InnerInv cfg ch dev idxs r₀ base E R s) {asked : ℕ}
    {as : List Return} {s' : Inner} (hc : collect dev idxs asked as s = some s') :
    InnerInv cfg ch dev idxs r₀ base E (R ++ as) s' := by
  unfold CiphApp.collect at hc
  split_ifs at hc
  obtain ⟨⟨ops, r⟩, hx, rfl⟩ := Option.map_eq_some_iff.mp hc
  have hd := dequeueBurst_spec h.tickets hx
  obtain ⟨D, hD, hRD, hheap⟩ := h.deqs
  obtain ⟨D', hD', hRD', hheap'⟩ := hd.deqs
  constructor
  · exact h.enqd
  · exact h.enqd_le
  · exact h.unused_le
  · exact h.unused_max
  · exact h.full
  · simp [h.deqd]
  · exact hd.next.trans h.next
  · rw [List.map_append]
    exact hd.tickets
  · exact hd.registry.trans h.registry
  · simp only [Run.result, setOpsCipherResult_jobs, hd.statuses, hd.jobs, h.jobs, h.deqd,
      List.map_append, resultJobs_append, List.length_map, Nat.zero_add]
  · exact hd.enqs.trans h.enqs
  · refine ⟨D ++ D', ?_, List.rel_append hRD hRD', ?_⟩
    · show r.deqs = _
      rw [hD', hD, List.append_assoc]
    · show r.heap = _
      rw [hheap', hheap, storeReturns_append _ hRD.length_eq]
  · exact h.prepared

/-! ## The loops -/

lemma InnerInv.enqueueLoop (hn : idxs.length < 2 ^ 16)
    (h : InnerInv cfg ch dev idxs r₀ base E R s) {rs : List Round} {s' : Inner} {ok : Bool}
    (hl : enqueueLoop cfg ch dev idxs rs s = some (s', ok)) :
    ∃ E', InnerInv cfg ch dev idxs r₀ base E'
        (R ++ (rs.filter (·.pool.isSome)).flatMap (·.returned)) s' ∧
      (ok = true → E'.length = idxs.length ∧ ∀ r ∈ rs, r.pool.isSome = true) ∧
      (ok = false → E'.length < idxs.length ∧ ∃ r ∈ rs, r.pool.isSome = false) := by
  induction rs generalizing s E R with
  | nil =>
      obtain ⟨hle, rfl, rfl⟩ := enqueueLoop_nil hl
      refine ⟨E, by simpa using h, fun _ => ⟨?_, by simp⟩, by simp⟩
      have := h.enqd
      have := h.enqd_le
      omega
  | cons r rs ih =>
      obtain ⟨hlt, ⟨hpool, rfl, rfl, rfl⟩ | ⟨ops, s1, hpool, hs1, hrest⟩⟩ := enqueueLoop_cons hl
      · -- the pool refuses: the call ends here
        refine ⟨E, by simpa [hpool] using h, by simp, fun _ => ⟨h.enqd ▸ hlt, r, ?_⟩⟩
        simp [hpool]
      · simp only [enqueueRound] at hs1
        split_ifs at hs1 with hacc
        have h1 := (h.submit hn hlt ops (not_lt.mp hacc)).collect hs1
        obtain ⟨E', hinv, hok, hno⟩ := ih h1 hrest
        refine ⟨E', by simpa [hpool] using hinv, fun hk => ?_, fun hk => ?_⟩
        · obtain ⟨h1, h2⟩ := hok hk
          exact ⟨h1, by simpa [hpool] using h2⟩
        · obtain ⟨h1, q, hq, hq'⟩ := hno hk
          exact ⟨h1, q, List.mem_cons_of_mem r hq, hq'⟩

lemma InnerInv.drainLoop (h : InnerInv cfg ch dev idxs r₀ base E R s)
    {ds : List (List Return)} {s' : Inner} (hl : drainLoop cfg dev idxs ds s = some s') :
    InnerInv cfg ch dev idxs r₀ base E (R ++ ds.flatten) s' ∧
      idxs.length ≤ (R ++ ds.flatten).length := by
  induction ds generalizing s R with
  | nil =>
      obtain ⟨hle, rfl⟩ := drainLoop_nil hl
      refine ⟨by simpa using h, ?_⟩
      have := h.deqd
      simp only [List.flatten_nil, List.append_nil]
      omega
  | cons d ds ih =>
      obtain ⟨s1, hs1, hrest⟩ := drainLoop_cons hl
      simpa using ih (h.collect hs1) hrest

/-- **What a call of `run_jobs_inner` has done.**  It started on an idle device with next ticket
`base`; the device accepted the operations `E` and returned `script.returns`.  If it ended
normally, every job had its turn: as many operations were accepted and returned as there are jobs,
all bursts were accepted whole and the device is idle again. -/
structure Outcome (cfg : Config) (ch : ℕ) (dev : UInt8) (idxs : List ℕ) (script : DevScript)
    (r₀ : Run) (base : ℕ) (E : List CryptoOp) (s : Inner) : Prop where
  inv : InnerInv cfg ch dev idxs r₀ base E script.returns s
  done : script.PoolServes → E.length = idxs.length ∧ script.returns.length = idxs.length ∧
    s.opsUnused = 0 ∧ (s.run.cl.queues dev).queue = []
  refused : ¬script.PoolServes → script.returns.length < idxs.length

theorem runJobsInner_outcome (hn : idxs.length < 2 ^ 16) {script : DevScript} {r' : Run}
    {ok : Bool} (hq : (r₀.cl.queues dev).queue = [])
    (h : runJobsInner cfg ch dev idxs script r₀ = some (r', ok)) :
    ∃ E s, Outcome cfg ch dev idxs script r₀ (r₀.cl.queues dev).next E s ∧ s.run = r' := by
  have h0 : InnerInv cfg ch dev idxs r₀ (r₀.cl.queues dev).next [] [] ⟨r₀, 0, 0, 0⟩ :=
    InnerInv.start hq rfl
  obtain ⟨s, hs, hdrain, rfl, -⟩ | ⟨s, s1, hs, hs1, rfl, -⟩ := runJobsInner_cases h
  · -- the early return
    obtain ⟨E, hinv, -, hno⟩ := h0.enqueueLoop hn hs
    obtain ⟨hlt, r, hr, hr'⟩ := hno rfl
    have hret : script.returns =
        [] ++ (script.rounds.filter (·.pool.isSome)).flatMap (·.returned) := by
      simp [DevScript.returns, hdrain]
    rw [← hret] at hinv
    refine ⟨E, s, ⟨hinv, fun hserve => ?_, fun _ => ?_⟩, rfl⟩
    · rw [hserve r hr] at hr'
      simp at hr'
    · exact lt_of_le_of_lt hinv.returned_le hlt
  · obtain ⟨E, hinv, hok, -⟩ := h0.enqueueLoop hn hs
    obtain ⟨hE, hserve⟩ := hok rfl
    obtain ⟨hinv1, hlen⟩ := hinv.drainLoop hs1
    rw [List.nil_append] at hinv1 hlen
    refine ⟨E, s1, ⟨hinv1, fun _ => ?_, fun hno => absurd hserve hno⟩, rfl⟩
    have hle := hinv1.returned_le
    have hR : script.returns.length = idxs.length := le_antisymm (hE ▸ hle) hlen
    have hu := hinv1.unused_le
    have ht := hinv1.tickets.length_add
    refine ⟨hE, hR, by omega, List.eq_nil_of_length_eq_zero ?_⟩
    simp only [List.length_map] at ht
    change script.returns.length + _ = _ at ht
    omega

end InnerInv

end CiphApp
