import CiphApp.Cryptodev.DevPhase

/-!
# Passes of the enqueue loop

The enqueue loop of `run_jobs_inner`, pass by pass, in an environment that is given as a stream of
rounds.  Three counters decide what the next pass offers: `ops_enqd_total`, `ops_unused` and the
`burst_size` computed from the first.  `ops_unused` is meant to hold the operations a device did
not accept, so that they need not be taken from the pool again; but they are not offered again
either.  After a first burst that was accepted in part, exactly the missing operations count as
unused, and no pass offers anything any more.

`enqueuePasses` is the loop without its condition, for a number of passes, and
`enqueueLoop_iff_passes` says when the loop ends with the state behind some pass.  `PassFacts` is
what one pass does to the counters and the log of events, whatever comes back in it.  Progress is
asked of environments in which every pass can happen and the device accepts something of every burst
that is not empty (`Accepting`): the loop ends with each job accepted once, and until then every
pass offers a job that was not accepted before (`Progresses`).  `progresses_iff` says that it is
made exactly if the device accepts the whole list at once.
-/

namespace CiphApp

open Lib Relation

/-! ## Passes -/

/-- The number of operations the next pass takes from the pool and offers. -/
def Inner.offered (cfg : Config) (n : ℕ) (s : Inner) : ℕ :=
  sub16 (burstSize cfg s.opsEnqdTotal n) s.opsUnused

/-- One pass of the enqueue loop. -/
def enqueuePass (cfg : Config) (ch : ℕ) (dev : UInt8) (devVecsIdxs : List ℕ) (s : Inner)
    (q : Round) : Option Inner :=
  if s.opsEnqdTotal < devVecsIdxs.length then
    q.pool.bind fun ops => enqueueRound cfg ch dev devVecsIdxs ops q s
  else none

/-- The passes that meet the rounds `rs`. -/
def enqueuePasses (cfg : Config) (ch : ℕ) (dev : UInt8) (devVecsIdxs : List ℕ) (rs : List Round)
    (s : Inner) : Option Inner :=
  rs.foldlM (enqueuePass cfg ch dev devVecsIdxs) s

section Passes

variable {cfg : Config} {ch : ℕ} {dev : UInt8} {idxs : List ℕ} {s s' : Inner}

lemma enqueuePasses_nil : enqueuePasses cfg ch dev idxs [] s = some s := rfl

lemma enqueuePasses_cons (q : Round) (qs : List Round) :
    enqueuePasses cfg ch dev idxs (q :: qs) s =
      (enqueuePass cfg ch dev idxs s q).bind (enqueuePasses cfg ch dev idxs qs) :=
  List.foldlM_cons

lemma enqueuePasses_concat (qs : List Round) (q : Round) :
    enqueuePasses cfg ch dev idxs (qs ++ [q]) s =
      (enqueuePasses cfg ch dev idxs qs s).bind fun s => enqueuePass cfg ch dev idxs s q := by
  simp [enqueuePasses]

/-- The loop is its passes, as long as the pool serves it. -/
lemma enqueueLoop_iff_passes {rs : List Round} :
    enqueueLoop cfg ch dev idxs rs s = some (s', true) ↔
      enqueuePasses cfg ch dev idxs rs s = some s' ∧ ¬s'.opsEnqdTotal < idxs.length := by
  induction rs generalizing s with
  | nil =>
      rw [enqueueLoop, enqueuePasses, List.foldlM_nil]
      constructor
      · intro h
        split_ifs at h with hlt
        obtain ⟨rfl, -⟩ := Prod.mk.inj (Option.some.inj h)
        exact ⟨rfl, hlt⟩
      · rintro ⟨h, hlt⟩
        obtain rfl := Option.some.inj h
        rw [if_neg hlt]
  | cons q qs ih =>
      rw [enqueueLoop, enqueuePasses_cons, enqueuePass]
      -- what a pass does plays no part here
      obtain ⟨round, heq⟩ : ∃ round, enqueueRound cfg ch dev idxs = round := ⟨_, rfl⟩
      rw [heq]
      by_cases hlt : s.opsEnqdTotal < idxs.length
      · rw [if_pos hlt, if_pos hlt]
        rcases q.pool with _ | ops
        · simp
        · rw [Option.bind_some]
          rcases hq : round ops q s with _ | s1
          · simp [hq]
          · simp only [hq, Option.bind_some]
            exact ih
      · simp [if_neg hlt]

/-- `r'` is `r` after some operations have come back and were given back to the pool. -/
structure Returned (r r' : Run) (D : List DevEvent) : Prop where
  enqs : r'.enqs = r.enqs
  taken : r'.taken = r.taken
  deqs : r'.deqs = r.deqs ++ D
  put : r'.put = r.put ++ D.map (·.op.addr)

lemma Returned.refl (r : Run) : Returned r r [] := ⟨rfl, rfl, by simp, by simp⟩

lemma Returned.trans {r r' r'' : Run} {D D' : List DevEvent} (h : Returned r r' D)
    (h' : Returned r' r'' D') : Returned r r'' (D ++ D') where
  enqs := h'.enqs.trans h.enqs
  taken := h'.taken.trans h.taken
  deqs := by rw [h'.deqs, h.deqs, List.append_assoc]
  put := by rw [h'.put, h.put, List.append_assoc, List.map_append]

lemma dequeueBurst_events {as : List Return} {r r' : Run} {ops : List CryptoOp}
    (h : dequeueBurst dev as r = some (ops, r')) :
    r'.enqs = r.enqs ∧ r'.taken = r.taken ∧ r'.put = r.put ∧
      ∃ D, r'.deqs = r.deqs ++ D ∧ D.map (·.op) = ops := by
  induction as generalizing r ops with
  | nil =>
      obtain ⟨rfl, rfl⟩ := Prod.mk.inj (Option.some.inj h)
      exact ⟨rfl, rfl, rfl, [], by simp, rfl⟩
  | cons a as ih =>
      rw [dequeueBurst] at h
      split at h
      · simp at h
      · rename_i op hop
        obtain ⟨⟨ops', r''⟩, hx, heq⟩ := Option.map_eq_some_iff.mp h
        obtain ⟨rfl, rfl⟩ := Prod.mk.inj heq
        obtain ⟨h1, h2, h3, D, h4, rfl⟩ := ih hx
        refine ⟨h1, h2, h3, ⟨dev, a.ticket, { op with status := a.status }⟩ :: D, ?_, rfl⟩
        rw [h4]
        simp [Run.dequeue]

lemma collect_returned {asked : ℕ} {as : List Return}
    (h : collect dev idxs asked as s = some s') : ∃ D, Returned s.run s'.run D := by
  unfold collect at h
  split_ifs at h
  obtain ⟨⟨ops, r⟩, hx, rfl⟩ := Option.map_eq_some_iff.mp h
  obtain ⟨h1, h2, h3, D, h4, rfl⟩ := dequeueBurst_events hx
  refine ⟨D, h1, h2, h4, ?_⟩
  show r.put ++ (D.map (·.op)).map (·.addr) = _
  rw [h3, List.map_map]
  rfl

lemma drainLoop_returned {ds : List (List Return)} (h : drainLoop cfg dev idxs ds s = some s') :
    ∃ D, Returned s.run s'.run D := by
  induction ds generalizing s with
  | nil =>
      obtain ⟨-, rfl⟩ := drainLoop_nil h
      exact ⟨[], .refl _⟩
  | cons d ds ih =>
      obtain ⟨s1, hs1, hrest⟩ := drainLoop_cons h
      obtain ⟨D, hD⟩ := collect_returned hs1
      obtain ⟨D', hD'⟩ := ih hrest
      exact ⟨D ++ D', hD.trans hD'⟩

/-- What a pass counts and enqueues.  The counters after the pass are functions of those before it
and of the number that was accepted; what came back does not matter to them. -/
structure PassFacts (cfg : Config) (ch : ℕ) (dev : UInt8) (idxs : List ℕ) (q : Round)
    (s s' : Inner) (ops : ℕ → CryptoOp) : Prop where
  pool : q.pool = some ops
  unfinished : s.opsEnqdTotal < idxs.length
  accepted : q.accepted ≤ s.offered cfg idxs.length
  enqd : s'.opsEnqdTotal = s.opsEnqdTotal + q.accepted
  unused : s'.opsUnused = sub16 (burstSize cfg s.opsEnqdTotal idxs.length) q.accepted
  returned : ∃ D, Returned
    (s.run.submit cfg ch dev idxs ops (s.offered cfg idxs.length) q.accepted) s'.run D

/-- **What a pass does.** -/
lemma enqueuePass_facts {q : Round} (h : enqueuePass cfg ch dev idxs s q = some s') :
    ∃ ops, PassFacts cfg ch dev idxs q s s' ops := by
  rw [enqueuePass] at h
  split_ifs at h with hlt
  obtain ⟨ops, hpool, hround⟩ := Option.bind_eq_some_iff.mp h
  simp only [enqueueRound] at hround
  split_ifs at hround with hacc
  obtain ⟨he, hu⟩ := collect_counts hround
  exact ⟨ops, hpool, hlt, not_lt.mp hacc, he, hu, collect_returned hround⟩

lemma PassFacts.enqs {q : Round} {ops : ℕ → CryptoOp} (h : PassFacts cfg ch dev idxs q s s' ops) :
    s'.run.enqs =
      (s.run.submit cfg ch dev idxs ops (s.offered cfg idxs.length) q.accepted).enqs := by
  obtain ⟨D, hD⟩ := h.returned
  exact hD.enqs

lemma enqueuePass_quiet {q : Round} {ops : ℕ → CryptoOp} (hlt : s.opsEnqdTotal < idxs.length)
    (hpool : q.pool = some ops) (hacc : q.accepted ≤ s.offered cfg idxs.length)
    (hret : q.returned = []) : ∃ s', enqueuePass cfg ch dev idxs s q = some s' := by
  rw [Inner.offered] at hacc
  rw [enqueuePass, if_pos hlt, hpool, Option.bind_some]
  simp only [enqueueRound]
  rw [if_neg (not_lt.mpr hacc), hret]
  simp only [collect, List.length_nil, Nat.not_lt_zero, if_false, dequeueBurst, Option.map_some]
  exact ⟨_, rfl⟩

end Passes

/-! ## Progress -/

/-- The first `T` rounds of a stream. -/
def firstRounds (env : ℕ → Round) (T : ℕ) : List Round := (List.range T).map env

/-- The state in which `run_jobs_inner` enters the enqueue loop. -/
def Run.entry (r : Run) : Inner := ⟨r, 0, 0, 0⟩

/-- The jobs whose operations were accepted since the call began in `r`. -/
def Inner.acceptedJobs (r : Run) (s : Inner) : List ℕ :=
  (s.run.enqs.drop r.enqs.length).map (·.op.vec)

section Progress

variable (cfg : Config) (ch : ℕ) (dev : UInt8) (idxs : List ℕ) (r : Run) (env : ℕ → Round)

/-- The environment lets every pass happen, and the device accepts something of every burst that
is not empty. -/
def Accepting : Prop :=
  ∀ T s, enqueuePasses cfg ch dev idxs (firstRounds env T) r.entry = some s →
    s.opsEnqdTotal < idxs.length →
      (∃ s', enqueuePass cfg ch dev idxs s (env T) = some s') ∧
        (s.offered cfg idxs.length ≠ 0 → (env T).accepted ≠ 0)

/-- The loop ends, with the operation of each job accepted once; and while it has not ended, the
next pass offers an operation of a job that was not accepted before. -/
structure Progresses : Prop where
  ends : ∃ T s, enqueueLoop cfg ch dev idxs (firstRounds env T) r.entry = some (s, true) ∧
    s.opsEnqdTotal = idxs.length ∧ (s.acceptedJobs r).Perm idxs
  advances : ∀ T s, enqueuePasses cfg ch dev idxs (firstRounds env T) r.entry = some s →
    s.opsEnqdTotal < idxs.length →
      ∃ i < s.offered cfg idxs.length, idxs.getD i 0 ∉ s.acceptedJobs r

variable {cfg ch dev idxs r env}

lemma enqueuePasses_zero (s : Inner) :
    enqueuePasses cfg ch dev idxs (firstRounds env 0) s = some s := rfl

lemma enqueuePasses_succ (T : ℕ) (s : Inner) :
    enqueuePasses cfg ch dev idxs (firstRounds env (T + 1)) s =
      (enqueuePasses cfg ch dev idxs (firstRounds env T) s).bind fun s =>
        enqueuePass cfg ch dev idxs s (env T) := by
  rw [firstRounds, List.range_succ, List.map_append]
  exact enqueuePasses_concat _ _

lemma accepted_le_enqd (T : ℕ) {s : Inner}
    (h : enqueuePasses cfg ch dev idxs (firstRounds env (T + 1)) r.entry = some s) :
    (env 0).accepted ≤ s.opsEnqdTotal := by
  induction T generalizing s with
  | zero =>
      rw [enqueuePasses_succ] at h
      obtain ⟨ops, hf⟩ := enqueuePass_facts (s := r.entry) h
      rw [hf.enqd]
      exact Nat.le_add_left _ _
  | succ T ih =>
      rw [enqueuePasses_succ] at h
      obtain ⟨s1, h1, h2⟩ := Option.bind_eq_some_iff.mp h
      obtain ⟨ops, hf⟩ := enqueuePass_facts h2
      rw [hf.enqd]
      exact (ih h1).trans (Nat.le_add_right _ _)

lemma offered_entry (h64 : idxs.length ≤ maxJobsBurstSize)
    (hmax : idxs.length ≤ cfg.maxBurstSize.toNat) :
    r.entry.offered cfg idxs.length = idxs.length := by
  have h : maxJobsBurstSize < 2 ^ 16 := by decide
  show sub16 (burstSize cfg 0 idxs.length) 0 = _
  rw [burstSize_eq (by omega), Nat.sub_zero, min_eq_right hmax, sub16_eq (Nat.zero_le _) (by omega),
    Nat.sub_zero]

/-- **After a first burst that was accepted in part**, the missing operations count as unused and
nothing is offered any more. -/
lemma passes_after_partly_accepted (h64 : idxs.length ≤ maxJobsBurstSize)
    (hmax : idxs.length ≤ cfg.maxBurstSize.toNat) (hpart : (env 0).accepted < idxs.length)
    (T : ℕ) {s : Inner}
    (h : enqueuePasses cfg ch dev idxs (firstRounds env (T + 1)) r.entry = some s) :
    s.opsEnqdTotal = (env 0).accepted ∧ s.opsUnused = idxs.length - (env 0).accepted ∧
      s.offered cfg idxs.length = 0 := by
  have hn : idxs.length < 2 ^ 16 := by
    have : maxJobsBurstSize < 2 ^ 16 := by decide
    omega
  -- what is offered is decided by the two counters
  have hoff : ∀ s : Inner, s.opsEnqdTotal = (env 0).accepted →
      s.opsUnused = idxs.length - (env 0).accepted → s.offered cfg idxs.length = 0 := by
    intro s he hu
    rw [Inner.offered, he, hu, burstSize_eq hn, min_eq_right (by omega),
      sub16_eq le_rfl (by omega), Nat.sub_self]
  induction T generalizing s with
  | zero =>
      rw [enqueuePasses_succ] at h
      obtain ⟨ops, hf⟩ := enqueuePass_facts (s := r.entry) h
      have he : s.opsEnqdTotal = (env 0).accepted := hf.enqd.trans (Nat.zero_add _)
      have hu : s.opsUnused = idxs.length - (env 0).accepted := by
        rw [hf.unused]
        show sub16 (burstSize cfg 0 idxs.length) _ = _
        rw [burstSize_eq hn, Nat.sub_zero, min_eq_right hmax, sub16_eq hpart.le hn]
      exact ⟨he, hu, hoff s he hu⟩
  | succ T ih =>
      rw [enqueuePasses_succ] at h
      obtain ⟨s1, h1, h2⟩ := Option.bind_eq_some_iff.mp h
      obtain ⟨he1, hu1, ho1⟩ := ih h1
      obtain ⟨ops, hf⟩ := enqueuePass_facts h2
      have hacc : (env (T + 1)).accepted = 0 := by
        have := hf.accepted
        omega
      have he : s.opsEnqdTotal = (env 0).accepted := by rw [hf.enqd, he1, hacc, Nat.add_zero]
      have hu : s.opsUnused = idxs.length - (env 0).accepted := by
        rw [hf.unused, he1, hacc, burstSize_eq hn, min_eq_right (by omega),
          sub16_eq (Nat.zero_le _) (by omega), Nat.sub_zero]
      exact ⟨he, hu, hoff s he hu⟩

/-- The operations that are prepared for a list whose jobs have sessions carry these jobs. -/
lemma preparedOps_vec (dev : UInt8) (ops : ℕ → CryptoOp)
    (hsess : ∀ j ∈ idxs, (getSession cfg ch (r.jobs j).op.sessId r.cl).isSome) :
    (preparedOps cfg ch dev idxs ops idxs.length r).map (·.vec) = idxs ∧
      ∀ op ∈ preparedOps cfg ch dev idxs ops idxs.length r,
        op.bufAddr = ((r.jobs op.vec).cipherBuffList.buffs 0).data := by
  have hop : ∀ i < idxs.length, ∃ s, setOpCipher cfg dev r.heap (r.jobs (idxs.getD i 0))
      (idxs.getD i 0) (getSession cfg ch (r.jobs (idxs.getD i 0)).op.sessId r.cl) (ops i) =
        setOpCipher cfg dev r.heap (r.jobs (idxs.getD i 0)) (idxs.getD i 0) (some s) (ops i) := by
    intro i hi
    obtain ⟨t, ht⟩ := Option.isSome_iff_exists.mp (hsess _ (getD_mem hi))
    exact ⟨t, by rw [ht]⟩
  constructor
  · apply List.ext_getElem
    · simp [preparedOps]
    · intro i h1 h2
      obtain ⟨t, ht⟩ := hop i h2
      simp only [preparedOps, List.getElem_map, List.getElem_range, ht]
      exact List.getD_eq_getElem idxs 0 h2
  · intro op hmem
    obtain ⟨i, hi, rfl⟩ := List.mem_map.mp hmem
    obtain ⟨t, ht⟩ := hop i (List.mem_range.mp hi)
    rw [ht]
    rfl

lemma mapIdx_event_op (dev : UInt8) (base : ℕ) (E : List CryptoOp) :
    (E.mapIdx fun k op => (⟨dev, base + k, op⟩ : DevEvent)).map (·.op) = E := by
  apply List.ext_getElem <;> simp

lemma mapIdx_event_vec (dev : UInt8) (base : ℕ) (E : List CryptoOp) :
    (E.mapIdx fun k op => (⟨dev, base + k, op⟩ : DevEvent)).map (·.op.vec) = E.map (·.vec) := by
  apply List.ext_getElem <;> simp

lemma acceptedJobs_whole {ops : ℕ → CryptoOp} {s : Inner}
    (hf : PassFacts cfg ch dev idxs (env 0) r.entry s ops)
    (hsess : ∀ j ∈ idxs, (getSession cfg ch (r.jobs j).op.sessId r.cl).isSome)
    (hacc : (env 0).accepted = idxs.length) : s.acceptedJobs r = idxs := by
  rw [Inner.acceptedJobs, hf.enqs, enqs_submit cfg ch dev idxs ops _ hf.accepted, hacc, Run.entry,
    List.drop_left, mapIdx_event_vec]
  exact (preparedOps_vec dev ops hsess).1

/-- **Progress after a partial enqueue.**  The loop advances exactly if there is no partial
enqueue: the device must accept the whole list at once. -/
theorem progresses_iff (h0 : idxs ≠ []) (h64 : idxs.length ≤ maxJobsBurstSize)
    (hmax : idxs.length ≤ cfg.maxBurstSize.toNat)
    (hsess : ∀ j ∈ idxs, (getSession cfg ch (r.jobs j).op.sessId r.cl).isSome)
    (henv : Accepting cfg ch dev idxs r env) :
    Progresses cfg ch dev idxs r env ↔ (env 0).accepted = idxs.length := by
  have hpos : r.entry.opsEnqdTotal < idxs.length := List.length_pos_iff.mpr h0
  obtain ⟨⟨s1, hs1⟩, -⟩ := henv 0 r.entry (enqueuePasses_zero _) hpos
  have h1 : enqueuePasses cfg ch dev idxs (firstRounds env 1) r.entry = some s1 := by
    rw [enqueuePasses_succ, enqueuePasses_zero, Option.bind_some, hs1]
  obtain ⟨ops, hf⟩ := enqueuePass_facts hs1
  have hle : (env 0).accepted ≤ idxs.length := offered_entry h64 hmax ▸ hf.accepted
  have he1 : s1.opsEnqdTotal = (env 0).accepted := hf.enqd.trans (Nat.zero_add _)
  constructor
  · intro h
    by_contra hne
    have hpart : (env 0).accepted < idxs.length := by omega
    obtain ⟨i, hi, -⟩ := h.advances 1 s1 h1 (by omega)
    rw [(passes_after_partly_accepted h64 hmax hpart 0 h1).2.2] at hi
    omega
  · intro hacc
    refine ⟨⟨1, s1, ?_, by omega, ?_⟩, fun T s hT hlt => ?_⟩
    · exact enqueueLoop_iff_passes.mpr ⟨h1, by omega⟩
    · rw [acceptedJobs_whole hf hsess hacc]
    · -- only the state before the first pass is not yet the last one
      cases T with
      | zero =>
          obtain rfl : r.entry = s := Option.some.inj hT
          refine ⟨0, ?_, ?_⟩
          · rw [offered_entry h64 hmax]
            exact hpos
          · simp [Inner.acceptedJobs, Run.entry]
      | succ T =>
          have := accepted_le_enqd T hT
          omega

end Progress

/-! ## One pass -/

section OnePass

variable {cfg : Config} {ch : ℕ} {dev : UInt8} {idxs : List ℕ} {r r' : Run} {script : DevScript}

/-- A call that returns 0 has passed through both loops. -/
lemma runJobsInner_true (h : runJobsInner cfg ch dev idxs script r = some (r', true)) :
    ∃ s, enqueuePasses cfg ch dev idxs script.rounds r.entry = some s ∧
      ¬s.opsEnqdTotal < idxs.length := by
  obtain ⟨-, -, -, -, hok⟩ | ⟨s, -, hs, -⟩ := runJobsInner_cases h
  · exact absurd hok (by decide)
  · exact ⟨s, enqueueLoop_iff_passes.mp hs⟩

lemma firstRounds_getD (rs : List Round) (q : Round) :
    firstRounds (fun t => rs.getD t q) rs.length = rs := by
  apply List.ext_getElem
  · simp [firstRounds]
  · intro i h1 h2
    simp only [firstRounds, List.getElem_map, List.getElem_range]
    exact List.getD_eq_getElem rs q h2

lemma rounds_of_fits (h0 : idxs ≠ []) (h64 : idxs.length ≤ maxJobsBurstSize)
    (hmax : idxs.length ≤ cfg.maxBurstSize.toNat)
    (h : runJobsInner cfg ch dev idxs script r = some (r', true)) :
    ∃ ops R, script.rounds = [⟨some ops, idxs.length, R⟩] := by
  obtain ⟨s, hs, hdone⟩ := runJobsInner_true h
  cases hr : script.rounds with
  | nil =>
      rw [hr, enqueuePasses_nil] at hs
      obtain rfl := Option.some.inj hs
      exact absurd (List.length_pos_iff.mpr h0) hdone
  | cons q qs =>
      have hs' := hs
      rw [hr, enqueuePasses_cons] at hs
      obtain ⟨s1, h1, h2⟩ := Option.bind_eq_some_iff.mp hs
      obtain ⟨ops, hf⟩ := enqueuePass_facts h1
      have hle : q.accepted ≤ idxs.length := offered_entry h64 hmax ▸ hf.accepted
      -- accepted in part, the loop would not have ended
      have hacc : q.accepted = idxs.length := by
        by_contra hne
        rw [hr, ← firstRounds_getD (q :: qs) q] at hs'
        have hpart := lt_of_le_of_ne hle hne
        have hstuck := (passes_after_partly_accepted h64 hmax hpart qs.length hs').1
        exact hdone (hstuck ▸ hpart)
      have he1 : s1.opsEnqdTotal = idxs.length := by
        rw [hf.enqd, hacc]
        exact Nat.zero_add _
      have hqs : qs = [] := by
        cases qs with
        | nil => rfl
        | cons q' qs =>
            rw [enqueuePasses_cons] at h2
            obtain ⟨s2, h3, -⟩ := Option.bind_eq_some_iff.mp h2
            obtain ⟨ops', hf'⟩ := enqueuePass_facts h3
            exact absurd hf'.unfinished (by omega)
      refine ⟨ops, q.returned, ?_⟩
      rw [hqs, ← hacc, ← hf.pool]

lemma put_submit (ops : ℕ → CryptoOp) (needed accepted : ℕ) :
    (r.submit cfg ch dev idxs ops needed accepted).put = r.put := rfl

lemma taken_submit (ops : ℕ → CryptoOp) (needed accepted : ℕ) :
    (r.submit cfg ch dev idxs ops needed accepted).taken =
      r.taken ++ (List.range needed).map fun i => (ops i).addr := rfl

/-- **What passes between the pool and the device** in a call whose one burst is accepted whole:
the operations `E` are prepared from the objects `ops`, and the returned ones are given back. -/
lemma runJobsInner_events {ops : ℕ → CryptoOp} {R : List Return}
    (hround : script.rounds = [⟨some ops, idxs.length, R⟩])
    (hoff : r.entry.offered cfg idxs.length = idxs.length)
    (h : runJobsInner cfg ch dev idxs script r = some (r', true)) :
    r'.taken = r.taken ++ (List.range idxs.length).map (fun i => (ops i).addr) ∧
      r'.enqs = r.enqs ++ (preparedOps cfg ch dev idxs ops idxs.length r).mapIdx
        (fun i op => ⟨dev, (r.cl.queues dev).next + i, op⟩) ∧
      ∃ D, r'.deqs = r.deqs ++ D ∧ r'.put = r.put ++ D.map (·.op.addr) := by
  obtain ⟨-, -, -, -, hok⟩ | ⟨s, s1, hs, hs1, rfl, -⟩ := runJobsInner_cases h
  · exact absurd hok (by decide)
  · have hpass := (enqueueLoop_iff_passes.mp hs).1
    rw [hround, enqueuePasses_cons] at hpass
    obtain ⟨s2, hs2, hnil⟩ := Option.bind_eq_some_iff.mp hpass
    rw [enqueuePasses_nil] at hnil
    obtain rfl : s2 = s := Option.some.inj hnil
    obtain ⟨ops', hf⟩ : ∃ ops', PassFacts cfg ch dev idxs ⟨some ops, idxs.length, R⟩ r.entry s2
      ops' := enqueuePass_facts hs2
    obtain rfl : ops = ops' := Option.some.inj hf.pool
    obtain ⟨D, hD⟩ := hf.returned
    obtain ⟨D', hD'⟩ := drainLoop_returned hs1
    have hall := hD.trans hD'
    refine ⟨?_, ?_, D ++ D', ?_, ?_⟩
    · rw [hall.taken, taken_submit, hoff, Run.entry]
    · rw [hall.enqs, enqs_submit cfg ch dev idxs ops r.entry.run hf.accepted, Run.entry]
    · rw [hall.deqs, deqs_submit, Run.entry]
    · rw [hall.put, put_submit, Run.entry]

end OnePass

/-! ## Devices that accept one burst in part -/

section AcceptOnce

variable {cfg : Config} {ch : ℕ} {dev : UInt8} {idxs : List ℕ} {r : Run}

/-- A device that accepts `k` operations of the first burst and returns nothing. -/
def acceptOnce (k : ℕ) (T : ℕ) : Round := ⟨some fun _ => freshOp, if T = 0 then k else 0, []⟩

/-- It is an environment of the loop, if it accepts some and not more than it is offered. -/
lemma accepting_acceptOnce {k : ℕ} (hk : 0 < k) (hle : k ≤ idxs.length)
    (h64 : idxs.length ≤ maxJobsBurstSize) (hmax : idxs.length ≤ cfg.maxBurstSize.toNat) :
    Accepting cfg ch dev idxs r (acceptOnce k) := by
  intro T s hT hlt
  cases T with
  | zero =>
      obtain rfl : r.entry = s := Option.some.inj hT
      have hacc : (acceptOnce k 0).accepted ≤ r.entry.offered cfg idxs.length := by
        rw [offered_entry h64 hmax]
        exact hle
      exact ⟨enqueuePass_quiet hlt rfl hacc rfl, fun _ => hk.ne'⟩
  | succ T =>
      have hpart : (acceptOnce k 0).accepted < idxs.length :=
        (accepted_le_enqd T hT).trans_lt hlt
      have hoff := (passes_after_partly_accepted h64 hmax hpart T hT).2.2
      exact ⟨enqueuePass_quiet hlt rfl (Nat.zero_le _) rfl, fun h => absurd hoff h⟩

end AcceptOnce

/-- A call for two jobs with a session. -/
def twoJobs : Run where
  cl := createdOn (sampleConfig 0 1)
  jobs := fun _ => sampleJob cryptoOpTypeSessCiphering 0 cryptoCipherAesCtr
  heap := ⟨fun _ _ => 0, []⟩
  enqs := []
  deqs := []
  taken := []
  put := []

lemma twoJobs_session (j : ℕ) :
    (getSession (sampleConfig 0 1) 0 (twoJobs.jobs j).op.sessId twoJobs.cl).isSome :=
  (by decide : (getSession (sampleConfig 0 1) 0 0 (createdOn (sampleConfig 0 1))).isSome = true)

/-- Both are accepted at once. -/
theorem progresses_whole : Progresses (sampleConfig 0 1) 0 0 [0, 1] twoJobs (acceptOnce 2) :=
  (progresses_iff (by decide) (by decide) (by decide) (fun j _ => twoJobs_session j)
    (accepting_acceptOnce (by decide) (by decide) (by decide) (by decide))).mpr rfl

/-- **A partial enqueue blocks the loop.**  The device accepts one operation of two; after that no
pass offers it anything, and the loop goes on for ever. -/
theorem partial_enqueue_blocks :
    Accepting (sampleConfig 0 1) 0 0 [0, 1] twoJobs (acceptOnce 1) ∧
      (∀ T, ∃ s, enqueuePasses (sampleConfig 0 1) 0 0 [0, 1] (firstRounds (acceptOnce 1) (T + 1))
        twoJobs.entry = some s ∧ s.opsEnqdTotal = 1 ∧ s.offered (sampleConfig 0 1) 2 = 0) ∧
      ¬Progresses (sampleConfig 0 1) 0 0 [0, 1] twoJobs (acceptOnce 1) := by
  have henv : Accepting (sampleConfig 0 1) 0 0 [0, 1] twoJobs (acceptOnce 1) :=
    accepting_acceptOnce (by decide) (by decide) (by decide) (by decide)
  have hstate : ∀ {T s}, enqueuePasses (sampleConfig 0 1) 0 0 [0, 1]
      (firstRounds (acceptOnce 1) (T + 1)) twoJobs.entry = some s →
        s.opsEnqdTotal = 1 ∧ s.offered (sampleConfig 0 1) 2 = 0 := fun h =>
    have h' := passes_after_partly_accepted (by decide) (by decide) (by decide) _ h
    ⟨h'.1, h'.2.2⟩
  refine ⟨henv, fun T => ?_, fun h => ?_⟩
  · have hex : ∃ s, enqueuePasses (sampleConfig 0 1) 0 0 [0, 1]
        (firstRounds (acceptOnce 1) (T + 1)) twoJobs.entry = some s := by
      induction T with
      | zero =>
          obtain ⟨⟨s, hs⟩, -⟩ := henv 0 twoJobs.entry (enqueuePasses_zero _) Nat.two_pos
          exact ⟨s, by rw [enqueuePasses_succ, enqueuePasses_zero, Option.bind_some, hs]⟩
      | succ T ih =>
          obtain ⟨s, hs⟩ := ih
          obtain ⟨⟨s', hs'⟩, -⟩ := henv (T + 1) s hs (by rw [(hstate hs).1]; decide)
          exact ⟨s', by rw [enqueuePasses_succ, hs, Option.bind_some, hs']⟩
    obtain ⟨s, hs⟩ := hex
    exact ⟨s, hs, hstate hs⟩
  · obtain ⟨T, s, hloop, htotal, -⟩ := h.ends
    have hpass := (enqueueLoop_iff_passes.mp hloop).1
    cases T with
    | zero =>
        obtain rfl : twoJobs.entry = s := Option.some.inj hpass
        exact absurd htotal (by decide)
    | succ T =>
        rw [(hstate hpass).1] at htotal
        exact absurd htotal (by decide)

end CiphApp
