import CiphApp.Cryptodev.Served

/-!
# A burst in any environment

The device loop of a burst may meet a pool that refuses, devices that still hold operations of
earlier bursts, and results in any order.  Three things hold all the same.  Every operation that
is enqueued was prepared for a job of the list of its device position (`run_enqs`).  The devices
write only into buffers of jobs, of this burst or of an earlier one whose operations they still
hold (`run_writes`).  And every job leaves with the context it came with, but for its status and
the id of a new session (`run_answers`).

These are invariants of the device loop (`DevPhase`, `WritesIn`, `Answers`), each kept by every
`DevStep`, so no assumption on the environment is needed.  The server relies on the second for the
memory of its clients, and the exchange of messages on the third, where a response is matched with
its request.
-/

namespace CiphApp

open Lib Relation

/-! ## What a burst enqueues -/

section Enqueued

variable {cfg : Config} {ch : ℕ} {dev : UInt8} {idxs : List ℕ} {r r' : Run}

lemma mem_enqs_submit {ops : ℕ → CryptoOp} {needed accepted : ℕ} (h : accepted ≤ needed)
    {ev : DevEvent} : ev ∈ (r.submit cfg ch dev idxs ops needed accepted).enqs ↔
      ev ∈ r.enqs ∨ ∃ i < accepted, ev = ⟨dev, (r.cl.queues dev).next + i,
        setOpCipher cfg dev r.heap (r.jobs (idxs.getD i 0)) (idxs.getD i 0)
          (getSession cfg ch (r.jobs (idxs.getD i 0)).op.sessId r.cl) (ops i)⟩ := by
  rw [enqs_submit cfg ch dev idxs ops r h, List.mem_append, mem_mapIdx_event]
  refine or_congr_right ⟨?_, ?_⟩
  · rintro ⟨i, op, hi, rfl⟩
    obtain ⟨hlt, rfl⟩ := List.getElem?_eq_some_iff.mp hi
    refine ⟨i, by simpa [preparedOps] using hlt, ?_⟩
    simp [preparedOps]
  · rintro ⟨i, hi, rfl⟩
    refine ⟨i, _, ?_, rfl⟩
    simp [preparedOps, hi]

lemma DevStep.mem_enqs (h : DevStep cfg ch dev idxs r r') {ev : DevEvent} (hev : ev ∈ r.enqs) :
    ev ∈ r'.enqs := by
  cases h with
  | submit ops needed accepted h => exact (mem_enqs_submit h).mpr (.inl hev)
  | dequeue => exact hev
  | result => exact hev

lemma mem_enqs_steps (h : ReflTransGen (DevStep cfg ch dev idxs) r r') {ev : DevEvent}
    (hev : ev ∈ r.enqs) : ev ∈ r'.enqs :=
  run_induct (Q := fun t => ev ∈ t.enqs) (fun _ _ hs hq => hs.mem_enqs hq) h hev

lemma DevStep.statusOnly (h : DevStep cfg ch dev idxs r r') (j : ℕ) :
    ∃ st, r'.jobs j = (r.jobs j).setStatus st := by
  cases h with
  | submit => exact ⟨_, rfl⟩
  | dequeue => exact ⟨_, rfl⟩
  | result ops k =>
      simp only [Run.result, setOpsCipherResult_jobs]
      exact resultJobs_statusOnly idxs _ k r.jobs j

end Enqueued

section Phase

variable {cfg : Config} {x : BurstCall} {cl : Client}

/-- **The device loop of a burst.**  Whatever the pool and the devices do, every operation that
was enqueued was prepared for a job of the list of its device position. -/
structure DevPhase (cfg : Config) (x : BurstCall) (cl : Client) (r : Run) : Prop where
  registry : r.cl.registry = (x.sorted cfg cl).cl.registry
  jobs : ∀ j, ∃ st, r.jobs j = ((x.sorted cfg cl).jobs j).setStatus st
  enqs : ∀ ev ∈ r.enqs, ∃ d < cfg.nbCryptodevs, ∃ j ∈ (x.sorted cfg cl).idxs d, ∃ heap,
    ev.dev = (cfg.enabledCdevs d).cdevId ∧ x.Prepared cfg cl d heap j ev.op

lemma DevPhase.start : DevPhase cfg x cl ((x.sorted cfg cl).start x.heap) :=
  ⟨rfl, fun _ => ⟨_, rfl⟩, fun _ h => absurd h List.not_mem_nil⟩

lemma DevPhase.listed {r : Run} (h : DevPhase cfg x cl r) {d j : ℕ}
    (hj : j ∈ (x.sorted cfg cl).idxs d) :
    ∃ s st, getSession cfg x.ch (x.jobs j).op.sessId (x.sorted cfg cl).cl = some s ∧
      getSession cfg x.ch (r.jobs j).op.sessId r.cl = some s ∧
      r.jobs j = ((x.jobs j).setBuffListLength 1).setStatus st := by
  obtain ⟨hlt, hl⟩ := mem_scan_idxs.mp hj
  obtain ⟨s, -, hs⟩ := hl.getSession hlt.le
  obtain ⟨st, hst⟩ := h.jobs j
  have hjob : (x.sorted cfg cl).jobs j =
      ((x.jobs j).setStatus cryptoOpStatusSucc).setBuffListLength 1 := hl.job hlt
  rw [hjob] at hst
  refine ⟨s, st, hs, ?_, hst⟩
  rw [getSession_congr (congrFun h.registry x.ch), hst]
  exact hs

lemma DevPhase.prepared {r : Run} (h : DevPhase cfg x cl r) {d j : ℕ}
    (hj : j ∈ (x.sorted cfg cl).idxs d) (old : CryptoOp) :
    x.Prepared cfg cl d r.heap j (setOpCipher cfg (cfg.enabledCdevs d).cdevId r.heap (r.jobs j) j
      (getSession cfg x.ch (r.jobs j).op.sessId r.cl) old) := by
  obtain ⟨s, st, hs, hget, hjob⟩ := h.listed hj
  refine ⟨s, old, hs, ?_⟩
  rw [hget, hjob]
  rfl

lemma DevPhase.step {d : ℕ} (hd : d < cfg.nbCryptodevs) (hsize : x.size ≤ maxJobsBurstSize)
    {r r' : Run} (h : DevPhase cfg x cl r)
    (hs : DevStep cfg x.ch (cfg.enabledCdevs d).cdevId ((x.sorted cfg cl).idxs d) r r') :
    DevPhase cfg x cl r' := by
  refine ⟨hs.sessions.1.trans h.registry, fun j => ?_, ?_⟩
  · obtain ⟨st, hst⟩ := h.jobs j
    obtain ⟨st', hst'⟩ := hs.statusOnly j
    exact ⟨st', by rw [hst', hst]; rfl⟩
  · intro ev hev
    cases hs with
    | submit ops needed accepted hacc hneed =>
        rcases (mem_enqs_submit hacc).mp hev with hev | ⟨i, hi, rfl⟩
        · exact h.enqs ev hev
        · have hlen : ((x.sorted cfg cl).idxs d).length ≤ x.size :=
            scan_idxs_length_le cfg x cl d x.size
          have h64 : maxJobsBurstSize < 2 ^ 16 := by decide
          have hmem := getD_mem (lt_of_lt_of_le hi (hacc.trans (hneed (by omega))))
          exact ⟨d, hd, _, hmem, r.heap, rfl, h.prepared hmem (ops i)⟩
    | dequeue => exact h.enqs ev hev
    | result => exact h.enqs ev hev

/-- **What a burst enqueues**, in any environment. -/
theorem run_enqs {r : Run} (hsize : x.size ≤ maxJobsBurstSize) (hrun : x.run cfg cl = some r)
    {ev : DevEvent} (hev : ev ∈ r.enqs) :
    ∃ d < cfg.nbCryptodevs, ∃ j ∈ (x.sorted cfg cl).idxs d, ∃ heap,
      ev.dev = (cfg.enabledCdevs d).cdevId ∧ x.Prepared cfg cl d heap j ev.op := by
  by_cases h0 : x.size = 0
  · rw [BurstCall.run, h0] at hrun
    rw [runJobs_zero hrun] at hev
    exact absurd hev List.not_mem_nil
  · obtain ⟨r1, h1, rfl⟩ := runJobs_phases hrun h0
    have hphase : DevPhase cfg x cl r1 := runDevices_induct (Q := DevPhase cfg x cl)
      (fun d hd _ _ hs hq => hq.step hd hsize hs) h1 DevPhase.start
    exact hphase.enqs ev hev

end Phase

/-! ## What a burst writes -/

/-- Every operation a device holds has its buffer where `G` says. -/
def InFlight (G : Ptr → Prop) (cl : Client) : Prop :=
  ∀ dev, ∀ e ∈ (cl.queues dev).queue, G e.2.bufAddr

section Writes

variable {cfg : Config} {x : BurstCall} {cl : Client} {G : Ptr → Prop}

/-- The devices have written only where `G` says, and will do so with what they still hold. -/
structure WritesIn (G : Ptr → Prop) (x : BurstCall) (r : Run) : Prop where
  inFlight : InFlight G r.cl
  log : ∀ a ∈ r.heap.log, a ∈ x.heap.log ∨ (a.kind = .store ∧ G a.ptr)
  kept : ∀ a ∈ x.heap.log, a ∈ r.heap.log

lemma WritesIn.step (hsize : x.size ≤ maxJobsBurstSize)
    (hjobs : ∀ j < x.size, G ((x.jobs j).cipherBuffList.buffs 0).data) {d : ℕ} {r r' : Run}
    (hphase : DevPhase cfg x cl r) (h : WritesIn G x r)
    (hs : DevStep cfg x.ch (cfg.enabledCdevs d).cdevId ((x.sorted cfg cl).idxs d) r r') :
    WritesIn G x r' := by
  cases hs with
  | submit ops needed accepted hacc hneed =>
      refine ⟨fun dev e he => ?_, h.log, h.kept⟩
      rw [queues_submit cfg x.ch _ _ ops r hacc] at he
      by_cases hdev : dev = (cfg.enabledCdevs d).cdevId
      · subst hdev
        rw [Function.update_self] at he
        rcases List.mem_append.mp he with he | he
        · exact h.inFlight _ e he
        · -- a new operation has the buffer of its job
          obtain ⟨i, hi, rfl⟩ := List.mem_mapIdx.mp he
          have hi' : i < accepted := by simpa [preparedOps] using hi
          have hlen : ((x.sorted cfg cl).idxs d).length ≤ x.size :=
            scan_idxs_length_le cfg x cl d x.size
          have h64 : maxJobsBurstSize < 2 ^ 16 := by decide
          have hmem := getD_mem (lt_of_lt_of_le hi' (hacc.trans (hneed (by omega))))
          have hprep := hphase.prepared hmem (ops i)
          simp only [preparedOps, List.getElem_map, List.getElem_range]
          rw [hprep.bufAddr]
          exact hjobs _ (mem_scan_idxs.mp hmem).1
      · rw [Function.update_of_ne hdev] at he
        exact h.inFlight dev e he
  | dequeue a op hop =>
      have hG : G op.bufAddr := h.inFlight _ _ (mem_of_lookup hop)
      refine ⟨fun dev e he => ?_, fun b hb => ?_, fun b hb => ?_⟩
      · by_cases hdev : dev = (cfg.enabledCdevs d).cdevId
        · subst hdev
          simp only [Run.dequeue, Function.update_self] at he
          exact h.inFlight _ e (List.mem_filter.mp he).1
        · simp only [Run.dequeue, Function.update_of_ne hdev] at he
          exact h.inFlight dev e he
      · simp only [Run.dequeue, Heap.log_store, List.mem_append, List.mem_singleton] at hb
        rcases hb with hb | rfl
        · exact h.log b hb
        · exact .inr ⟨rfl, hG⟩
      · exact List.mem_append_left _ (h.kept b hb)
  | result ops k => exact ⟨h.inFlight, h.log, h.kept⟩

/-- **What a burst writes**, in any environment. -/
theorem run_writes {r : Run} (hsize : x.size ≤ maxJobsBurstSize)
    (hjobs : ∀ j < x.size, G ((x.jobs j).cipherBuffList.buffs 0).data) (hcl : InFlight G cl)
    (hrun : x.run cfg cl = some r) : WritesIn G x r := by
  by_cases h0 : x.size = 0
  · rw [BurstCall.run, h0] at hrun
    rw [runJobs_zero hrun]
    exact ⟨hcl, fun a ha => .inl ha, fun a ha => ha⟩
  · obtain ⟨r1, h1, rfl⟩ := runJobs_phases hrun h0
    have hstart : WritesIn G x ((x.sorted cfg cl).start x.heap) := by
      refine ⟨?_, fun a ha => .inl ha, fun a ha => ha⟩
      intro dev e he
      rw [show ((x.sorted cfg cl).start x.heap).cl.queues = cl.queues from
        scan_queues cfg x cl x.size] at he
      exact hcl dev e he
    obtain ⟨-, hw⟩ := runDevices_induct (Q := fun t => DevPhase cfg x cl t ∧ WritesIn G x t)
      (fun d hd _ _ hs hq => ⟨hq.1.step hd hsize hs, hq.2.step hsize hjobs hq.1 hs⟩) h1
      ⟨DevPhase.start, hstart⟩
    refine ⟨?_, hw.log, hw.kept⟩
    intro dev e he
    rw [show (finishJobs cfg x.ch x.script x.size r1).cl.queues = r1.cl.queues from
      postprocessJobs_queues] at he
    exact hw.inFlight dev e he

lemma cleanupConn_inFlight (cfg : Config) (ch : ℕ) (ans : ℕ → ℕ → ReleaseAns)
    (h : InFlight G cl) : InFlight G (cleanupConn cfg ch ans cl) := by
  intro dev e he
  rw [cleanupConn_queues] at he
  exact h dev e he

end Writes

/-! ## What a burst answers -/

/-- `c'` is the context of a response to a request with context `c`. -/
structure Answers (c c' : CryptoOperationContext) : Prop where
  seq : c'.seq = c.seq
  opCtxPtr : c'.opCtxPtr = c.opCtxPtr
  outbuffPtr : c'.outbuffPtr = c.outbuffPtr
  opType : c'.opType = c.opType
  cipherAlgo : c'.cipherAlgo = c.cipherAlgo
  cipherOp : c'.cipherOp = c.cipherOp
  reserved1 : c'.reserved1 = c.reserved1
  sessId : c.opType ≠ cryptoOpTypeSessCreate → c'.sessId = c.sessId

namespace Answers

variable {c c' c'' : CryptoOperationContext}

lemma refl (c : CryptoOperationContext) : Answers c c :=
  ⟨rfl, rfl, rfl, rfl, rfl, rfl, rfl, fun _ => rfl⟩

lemma trans (h : Answers c c') (h' : Answers c' c'') : Answers c c'' where
  seq := h'.seq.trans h.seq
  opCtxPtr := h'.opCtxPtr.trans h.opCtxPtr
  outbuffPtr := h'.outbuffPtr.trans h.outbuffPtr
  opType := h'.opType.trans h.opType
  cipherAlgo := h'.cipherAlgo.trans h.cipherAlgo
  cipherOp := h'.cipherOp.trans h.cipherOp
  reserved1 := h'.reserved1.trans h.reserved1
  sessId := fun hc => (h'.sessId (h.opType ▸ hc)).trans (h.sessId hc)

lemma setStatus (job : CryptoOperation) (st : UInt32) : Answers job.op (job.setStatus st).op :=
  ⟨rfl, rfl, rfl, rfl, rfl, rfl, rfl, fun _ => rfl⟩

end Answers

section Contexts

variable {cfg : Config} {x : BurstCall} {cl : Client}

lemma PreStep.answers {heap : Heap} {ch : ℕ} {ans : SessAns} {i : ℕ} {b b' : Burst}
    (h : PreStep cfg heap ch ans i b b') (k : ℕ) : Answers (b.jobs k).op (b'.jobs k).op := by
  by_cases hk : k = i
  · subst hk
    cases h with
    | close => exact .refl _
    | created _ _ _ ht =>
        simp only [Burst.setJob, Function.update_self]
        exact ⟨rfl, rfl, rfl, rfl, rfl, rfl, rfl, fun hc => absurd ht hc⟩
    | notCreated _ _ ht =>
        simp only [Burst.fail, Burst.setJob, Function.update_self]
        exact ⟨rfl, rfl, rfl, rfl, rfl, rfl, rfl, fun hc => absurd ht hc⟩
    | _ =>
        simp only [Burst.fail, Burst.setJob, Function.update_self]
        exact ⟨rfl, rfl, rfl, rfl, rfl, rfl, rfl, fun _ => rfl⟩
  · rw [h.jobs_of_ne hk]
    exact .refl _

lemma scan_answers (cfg : Config) (x : BurstCall) (cl : Client) (n k : ℕ) :
    Answers (x.jobs k).op ((x.scan cfg cl n).jobs k).op := by
  induction n with
  | zero => exact .refl _
  | succ n ih => exact ih.trans ((scan_step cfg x cl n).answers k)

lemma postprocessJobs_answers (ch : ℕ) (ans : ℕ → ReleaseAns) (size : ℕ) (s : Client × Jobs)
    (k : ℕ) : Answers (s.2 k).op ((postprocessJobs cfg ch ans size s).2 k).op := by
  refine forUpTo_induct (P := fun _ (t : Client × Jobs) => Answers (s.2 k).op (t.2 k).op)
    (.refl _) fun i t _ ht => ht.trans ?_
  have hstep := postStep cfg ch (ans i) i t
  generalize postprocessJob cfg ch (ans i) i t = t' at hstep
  by_cases hk : k = i
  · subst hk
    cases hstep with
    | other => exact .refl _
    | _ =>
        simp only [Function.update_self]
        exact .setStatus _ _
  · cases hstep with
    | other => exact .refl _
    | _ =>
        simp only [Function.update_of_ne hk]
        exact .refl _

/-- **What a burst answers**, in any environment. -/
theorem run_answers {r : Run} (hsize : x.size ≤ maxJobsBurstSize) (hrun : x.run cfg cl = some r)
    (k : ℕ) : Answers (x.jobs k).op (r.jobs k).op := by
  by_cases h0 : x.size = 0
  · rw [BurstCall.run, h0] at hrun
    rw [runJobs_zero hrun]
    exact .refl _
  · obtain ⟨r1, h1, rfl⟩ := runJobs_phases hrun h0
    have hphase : DevPhase cfg x cl r1 := runDevices_induct (Q := DevPhase cfg x cl)
      (fun d hd _ _ hs hq => hq.step hd hsize hs) h1 DevPhase.start
    obtain ⟨st, hst⟩ := hphase.jobs k
    have hdev : Answers ((x.sorted cfg cl).jobs k).op (r1.jobs k).op := by
      rw [hst]
      exact .setStatus _ _
    exact ((scan_answers cfg x cl x.size k).trans hdev).trans
      (postprocessJobs_answers x.ch _ x.size (r1.cl, r1.jobs) k)

end Contexts

end CiphApp
