import CiphApp.Cryptodev.Passes
import CiphApp.Cryptodev.PoolObject

/-!
# The IV of an operation

A session is created with an IV of 16 bytes, and `alloc_common_memory` reserves 16 bytes for it
behind each operation of the pool.  `set_ops_cipher` copies as many bytes as the message says, into
an object that still holds what its last user left there.  With fewer bytes the device reads the
rest from that user; with more, the copy runs over the end of the area.

The calls of `set_ops_cipher` are taken in every state in which some environment lets
`run_jobs_inner` make one (`SetsOps`), and over any pool objects.  `run_setsOp` makes sure that
nothing is missed: every operation that a burst enqueues was set by such a call.

`IvIndependent` is a statement about two pools.  The IV that the device reads for a job is the one
of the job, whatever the objects of the pool were used for before, and the bytes behind the IV area
are those the object had.  `ivIndependent_iff` says that this is so exactly if the jobs that are
submitted have IVs of 16 bytes; these are the jobs at the front of the list of each device, as many
as go into one burst.
-/

namespace CiphApp

open Lib Relation

/-- In some environment the burst comes to a call of `set_ops_cipher` for `needed` operations of
device position `d`, in state `r`. -/
def BurstCall.SetsOps (x : BurstCall) (cfg : Config) (cl : Client) (d needed : ℕ) (r : Run) :
    Prop :=
  ∃ script r₀ rs s,
    runDevices cfg x.ch script (x.sorted cfg cl).idxs d ((x.sorted cfg cl).start x.heap) =
      some r₀ ∧
    enqueuePasses cfg x.ch (cfg.enabledCdevs d).cdevId ((x.sorted cfg cl).idxs d) rs r₀.entry =
      some s ∧
    s.opsEnqdTotal < ((x.sorted cfg cl).idxs d).length ∧
    needed = s.offered cfg ((x.sorted cfg cl).idxs d).length ∧ r = s.run

/-- The operations such a call makes of the pool objects `ops`. -/
def BurstCall.opsSet (x : BurstCall) (cfg : Config) (cl : Client) (d needed : ℕ) (r : Run)
    (ops : ℕ → CryptoOp) : ℕ → CryptoOp :=
  (setOpsCipher cfg x.ch (cfg.enabledCdevs d).cdevId r.cl r.heap r.jobs
    ((x.sorted cfg cl).idxs d) needed (ops, r.cl.stats)).1

/-- Byte `k` of the IV of job `j`, in memory. -/
def Run.ivByte (r : Run) (j k : ℕ) : UInt8 :=
  r.heap.mem (r.jobs j).cipherIv.data.region ((r.jobs j).cipherIv.data.off + k)

/-- **IV independence.**  The device gets the IV of the job, whatever the pool objects held, and
the bytes behind the IV area are not touched. -/
def IvIndependent (cfg : Config) (x : BurstCall) (cl : Client) : Prop :=
  ∀ d < cfg.nbCryptodevs, ∀ needed r, x.SetsOps cfg cl d needed r → ∀ ops ops', ∀ i < needed, ∀ k,
    (k < cipherIvLength →
      (x.opsSet cfg cl d needed r ops i).iv k = (x.opsSet cfg cl d needed r ops' i).iv k ∧
        (x.opsSet cfg cl d needed r ops i).iv k =
          r.ivByte (((x.sorted cfg cl).idxs d).getD i 0) k) ∧
    (cipherIvLength ≤ k → (x.opsSet cfg cl d needed r ops i).iv k = (ops i).iv k)

section Iv

variable {cfg : Config} {x : BurstCall} {cl : Client}

lemma enqueuePass_steps {ch : ℕ} {dev : UInt8} {idxs : List ℕ} {q : Round} {s s' : Inner}
    (hu : s.UnusedFit cfg idxs.length) (h : enqueuePass cfg ch dev idxs s q = some s') :
    ReflTransGen (DevStep cfg ch dev idxs) s.run s'.run ∧ s'.UnusedFit cfg idxs.length := by
  rw [enqueuePass] at h
  split_ifs at h
  obtain ⟨ops, -, hround⟩ := Option.bind_eq_some_iff.mp h
  exact enqueueRound_steps hu hround

lemma enqueuePasses_steps {ch : ℕ} {dev : UInt8} {idxs : List ℕ} {rs : List Round} {s s' : Inner}
    (hu : s.UnusedFit cfg idxs.length) (h : enqueuePasses cfg ch dev idxs rs s = some s') :
    ReflTransGen (DevStep cfg ch dev idxs) s.run s'.run ∧ s'.UnusedFit cfg idxs.length := by
  induction rs generalizing s with
  | nil =>
      obtain rfl := Option.some.inj h
      exact ⟨.refl, hu⟩
  | cons q qs ih =>
      rw [enqueuePasses_cons] at h
      obtain ⟨s1, h1, h2⟩ := Option.bind_eq_some_iff.mp h
      obtain ⟨hsteps, hu1⟩ := enqueuePass_steps hu h1
      obtain ⟨hsteps', hu'⟩ := ih hu1 h2
      exact ⟨hsteps.trans hsteps', hu'⟩

/-- The calls of `set_ops_cipher` are about the front of the list, and meet the device loop of the
burst. -/
lemma BurstCall.SetsOps.facts {d needed : ℕ} {r : Run} (hd : d < cfg.nbCryptodevs)
    (hsize : x.size ≤ maxJobsBurstSize) (h : x.SetsOps cfg cl d needed r) :
    DevPhase cfg x cl r ∧
      needed ≤ min cfg.maxBurstSize.toNat ((x.sorted cfg cl).idxs d).length := by
  obtain ⟨script, r₀, rs, s, hdev, hpass, -, rfl, rfl⟩ := h
  have hlen : ((x.sorted cfg cl).idxs d).length < 2 ^ 16 := by
    have h1 : ((x.sorted cfg cl).idxs d).length ≤ x.size := scan_idxs_length_le cfg x cl d x.size
    have h2 : maxJobsBurstSize < 2 ^ 16 := by decide
    omega
  have h0 : DevPhase cfg x cl r₀ := runDevices_induct (Q := DevPhase cfg x cl)
    (fun n hn _ _ hs hq => hq.step (hn.trans hd) hsize hs) hdev DevPhase.start
  obtain ⟨hsteps, hfit⟩ := enqueuePasses_steps (fun _ => Nat.zero_le _) hpass
  refine ⟨run_induct (Q := DevPhase cfg x cl) (fun _ _ hs hq => hq.step hd hsize hs) hsteps h0, ?_⟩
  have hf := hfit hlen
  rw [Inner.offered, burstSize_eq hlen, sub16_eq hf (by omega)]
  omega

/-- The first call for a device offers the front of its list, in some environment. -/
lemma BurstCall.setsOps_start (x : BurstCall) (cfg : Config) (cl : Client) {d : ℕ}
    (hsize : x.size ≤ maxJobsBurstSize) (hne : (x.sorted cfg cl).idxs d ≠ []) :
    x.SetsOps cfg cl d (min cfg.maxBurstSize.toNat ((x.sorted cfg cl).idxs d).length)
      ((x.sorted cfg cl).start x.heap) := by
  have hlen : ((x.sorted cfg cl).idxs d).length < 2 ^ 16 := by
    have h1 : ((x.sorted cfg cl).idxs d).length ≤ x.size := scan_idxs_length_le cfg x cl d x.size
    have h2 : maxJobsBurstSize < 2 ^ 16 := by decide
    omega
  -- the pool refuses the devices before it
  have hskip := runDevices_refusing cfg x.ch (x.sorted cfg cl).idxs d
    ((x.sorted cfg cl).start x.heap)
  refine ⟨_, _, [], _, hskip, rfl, List.length_pos_iff.mpr hne, ?_, rfl⟩
  show _ = sub16 (burstSize cfg 0 _) 0
  rw [burstSize_eq hlen, sub16_eq (Nat.zero_le _) (by omega), Nat.sub_zero, Nat.sub_zero]

/-- **What a call puts into the IV of an operation.** -/
lemma BurstCall.SetsOps.iv {d needed : ℕ} {r : Run} (hd : d < cfg.nbCryptodevs)
    (hsize : x.size ≤ maxJobsBurstSize) (h : x.SetsOps cfg cl d needed r) (ops : ℕ → CryptoOp)
    {i : ℕ} (hi : i < needed) (k : ℕ) :
    (x.opsSet cfg cl d needed r ops i).iv k =
      if k < (x.jobs (((x.sorted cfg cl).idxs d).getD i 0)).cipherIv.length.toNat then
        r.ivByte (((x.sorted cfg cl).idxs d).getD i 0) k
      else (ops i).iv k := by
  obtain ⟨hphase, hneed⟩ := h.facts hd hsize
  have hmem := getD_mem (show i < ((x.sorted cfg cl).idxs d).length by omega)
  obtain ⟨s, st, -, hget, hjob⟩ := hphase.listed hmem
  rw [BurstCall.opsSet, setOpsCipher_apply cfg x.ch _ r.cl r.heap r.jobs _ needed ops r.cl.stats hi,
    hget]
  have hiv : (r.jobs (((x.sorted cfg cl).idxs d).getD i 0)).cipherIv =
      (x.jobs (((x.sorted cfg cl).idxs d).getD i 0)).cipherIv := by
    rw [hjob]
    rfl
  rw [← hiv]
  rfl

/-! ## What the devices get -/

/-- What the enqueue loop enqueues comes from one of its passes. -/
lemma mem_enqs_enqueueLoop {ch : ℕ} {dev : UInt8} {idxs : List ℕ} {rs : List Round} {s s' : Inner}
    {ok : Bool} (h : enqueueLoop cfg ch dev idxs rs s = some (s', ok)) {ev : DevEvent}
    (hev : ev ∈ s'.run.enqs) :
    ev ∈ s.run.enqs ∨ ∃ (qs : List Round) (t : Inner) (ops : ℕ → CryptoOp),
      enqueuePasses cfg ch dev idxs qs s = some t ∧ t.opsEnqdTotal < idxs.length ∧
        ∃ i < t.offered cfg idxs.length, ev.op = (setOpsCipher cfg ch dev t.run.cl t.run.heap
          t.run.jobs idxs (t.offered cfg idxs.length) (ops, t.run.cl.stats)).1 i := by
  induction rs generalizing s with
  | nil =>
      obtain ⟨-, rfl, -⟩ := enqueueLoop_nil h
      exact .inl hev
  | cons q qs ih =>
      obtain ⟨hlt, ⟨-, -, rfl, -⟩ | ⟨ops, s1, hpool, hs1, hrest⟩⟩ := enqueueLoop_cons h
      · exact .inl hev
      · have hpass : enqueuePass cfg ch dev idxs s q = some s1 := by
          rw [enqueuePass, if_pos hlt, hpool, Option.bind_some, hs1]
        obtain ⟨ops, hf⟩ := enqueuePass_facts hpass
        rcases ih hrest with hin | ⟨qs', t, ops', hqs', ht⟩
        · -- it was there before the first pass, or is one of its operations
          rw [hf.enqs, mem_enqs_submit hf.accepted] at hin
          rcases hin with hin | ⟨i, hi, rfl⟩
          · exact .inl hin
          · refine .inr ⟨[], s, ops, rfl, hlt, i, hi.trans_le hf.accepted, ?_⟩
            rw [setOpsCipher_apply cfg ch dev s.run.cl s.run.heap s.run.jobs idxs _ ops
              s.run.cl.stats (hi.trans_le hf.accepted)]
        · exact .inr ⟨q :: qs', t, ops', by rw [enqueuePasses_cons, hpass]; exact hqs', ht⟩

lemma mem_enqs_runJobsInner {ch : ℕ} {dev : UInt8} {idxs : List ℕ} {script : DevScript}
    {r r' : Run} {ok : Bool} (h : runJobsInner cfg ch dev idxs script r = some (r', ok))
    {ev : DevEvent} (hev : ev ∈ r'.enqs) :
    ev ∈ r.enqs ∨ ∃ (qs : List Round) (t : Inner) (ops : ℕ → CryptoOp),
      enqueuePasses cfg ch dev idxs qs r.entry = some t ∧ t.opsEnqdTotal < idxs.length ∧
        ∃ i < t.offered cfg idxs.length, ev.op = (setOpsCipher cfg ch dev t.run.cl t.run.heap
          t.run.jobs idxs (t.offered cfg idxs.length) (ops, t.run.cl.stats)).1 i := by
  obtain ⟨s, hs, -, rfl, -⟩ | ⟨s, s1, hs, hs1, rfl, -⟩ := runJobsInner_cases h
  · exact mem_enqs_enqueueLoop hs hev
  · obtain ⟨D, hD⟩ := drainLoop_returned hs1
    rw [hD.enqs] at hev
    exact mem_enqs_enqueueLoop hs hev

/-- The operation of the event was set in a call for one of the first `n` device positions. -/
def BurstCall.SetsOp (x : BurstCall) (cfg : Config) (cl : Client) (n : ℕ) (ev : DevEvent) : Prop :=
  ∃ d < n, ∃ needed r ops, x.SetsOps cfg cl d needed r ∧
    ∃ i < needed, ev.op = x.opsSet cfg cl d needed r ops i

lemma runDevices_setsOp (n : ℕ) {r : Run}
    (h : runDevices cfg x.ch x.script.dev (x.sorted cfg cl).idxs n
      ((x.sorted cfg cl).start x.heap) = some r) {ev : DevEvent} (hev : ev ∈ r.enqs) :
    x.SetsOp cfg cl n ev := by
  induction n generalizing r with
  | zero =>
      obtain rfl := Option.some.inj h
      exact absurd hev List.not_mem_nil
  | succ n ih =>
      obtain ⟨r1, h1, hlast⟩ := runDevices_succ h
      have hearlier : ev ∈ r1.enqs → x.SetsOp cfg cl (n + 1) ev := fun hev => by
        obtain ⟨d, hd, hset⟩ := ih h1 hev
        exact ⟨d, hd.trans (Nat.lt_succ_self n), hset⟩
      obtain ⟨-, rfl⟩ | ⟨-, ok, hin⟩ := hlast
      · exact hearlier hev
      · rcases mem_enqs_runJobsInner hin hev with hev | ⟨qs, t, ops, hqs, hlt, i, hi, hop⟩
        · exact hearlier hev
        · exact ⟨n, Nat.lt_succ_self n, _, t.run, ops, ⟨_, r1, qs, t, h1, hqs, hlt, rfl, rfl⟩, i,
            hi, hop⟩

/-- **Every operation a device gets was set by such a call.** -/
theorem run_setsOp {r : Run} (hrun : x.run cfg cl = some r) {ev : DevEvent} (hev : ev ∈ r.enqs) :
    x.SetsOp cfg cl cfg.nbCryptodevs ev := by
  by_cases h0 : x.size = 0
  · rw [BurstCall.run, h0] at hrun
    rw [runJobs_zero hrun] at hev
    exact absurd hev List.not_mem_nil
  · obtain ⟨r1, h1, rfl⟩ := runJobs_phases hrun h0
    exact runDevices_setsOp _ h1 hev

/-! ## Independence -/

/-- Pool objects whose last user left the byte `b` everywhere in the IV. -/
def poolOf (b : UInt8) (_ : ℕ) : CryptoOp := { freshOp with iv := fun _ => b }

lemma self_ne_add_one (b : UInt8) : b ≠ b + 1 := by
  intro h
  have := congrArg UInt8.toNat h
  rw [UInt8.toNat_add] at this
  have := b.toNat_lt
  simp only [UInt8.reduceToNat] at *
  omega

/-- **IV independence** holds exactly for the bursts whose submitted jobs carry 16 bytes of IV;
these are the jobs at the front of the list of each device. -/
theorem ivIndependent_iff (cfg : Config) (x : BurstCall) (cl : Client)
    (hsize : x.size ≤ maxJobsBurstSize) :
    IvIndependent cfg x cl ↔
      ∀ d < cfg.nbCryptodevs,
        ∀ p < min cfg.maxBurstSize.toNat ((x.sorted cfg cl).idxs d).length,
          (x.jobs (((x.sorted cfg cl).idxs d).getD p 0)).cipherIv.length = 16 := by
  constructor
  · intro h d hd p hp
    have hne : (x.sorted cfg cl).idxs d ≠ [] := List.length_pos_iff.mp (by omega)
    have hcall := x.setsOps_start cfg cl hsize hne
    have hcase := h d hd _ _ hcall
    have hiv := fun b => hcall.iv hd hsize (poolOf b) hp
    by_contra hlen
    have hlen' : (x.jobs (((x.sorted cfg cl).idxs d).getD p 0)).cipherIv.length.toNat ≠ 16 :=
      fun h16 => hlen (UInt32.toNat_inj.mp h16)
    rcases lt_or_gt_of_ne hlen' with hlt | hgt
    · -- too short: the next byte is the one the pool object held
      have hsame := ((hcase (poolOf 0) (poolOf 1) p hp _).1 hlt).1
      rw [hiv 0, hiv 1, if_neg (lt_irrefl _), if_neg (lt_irrefl _)] at hsame
      exact absurd hsame (by decide : (0 : UInt8) ≠ 1)
    · -- too long: the byte behind the area is overwritten
      set b := ((x.sorted cfg cl).start x.heap).ivByte (((x.sorted cfg cl).idxs d).getD p 0) 16
      have hkept := (hcase (poolOf (b + 1)) (poolOf 0) p hp 16).2 le_rfl
      rw [hiv (b + 1), if_pos hgt] at hkept
      exact self_ne_add_one b hkept
  · intro h d hd needed r hcall ops ops' i hi k
    have hneed := (hcall.facts hd hsize).2
    have h16 := h d hd i (by omega)
    rw [hcall.iv hd hsize ops hi, hcall.iv hd hsize ops' hi, h16]
    constructor
    · intro hk
      have hk' : k < (16 : UInt32).toNat := hk
      rw [if_pos hk', if_pos hk']
      exact ⟨rfl, rfl⟩
    · intro hk
      have hk' : ¬k < (16 : UInt32).toNat := not_lt.mpr hk
      rw [if_neg hk']

end Iv

/-- A burst of one ciphering job with an IV of the given length. -/
def ivCall (length : UInt32) : BurstCall :=
  { cipherCall 0 servedScript with
    jobs := fun _ =>
      { sampleJob cryptoOpTypeSessCiphering 0 cryptoCipherAesCtr with
        cipherIv := ⟨length, ⟨.resp 0, 9124⟩⟩ } }

/-- Sixteen bytes. -/
theorem ivIndependent_sixteen :
    ((ivCall 16).sorted (sampleConfig 0 1) (createdOn (sampleConfig 0 1))).idxs 0 = [0] ∧
      IvIndependent (sampleConfig 0 1) (ivCall 16) (createdOn (sampleConfig 0 1)) :=
  ⟨by decide, (ivIndependent_iff _ _ _ (by decide)).mpr fun _ _ _ _ => rfl⟩

/-- **An IV that depends on the last user of the pool object.**  Eight bytes are sent, and byte 8
of the IV is what the object held. -/
theorem short_iv_leaks :
    ∃ needed r, (ivCall 8).SetsOps (sampleConfig 0 1) (createdOn (sampleConfig 0 1)) 0 needed r ∧
      (∀ b, ((ivCall 8).opsSet (sampleConfig 0 1) (createdOn (sampleConfig 0 1)) 0 needed r
        (poolOf b) 0).iv 8 = b) ∧
      ¬IvIndependent (sampleConfig 0 1) (ivCall 8) (createdOn (sampleConfig 0 1)) := by
  have hcall := (ivCall 8).setsOps_start (sampleConfig 0 1) (createdOn (sampleConfig 0 1)) (d := 0)
    (by decide) (by decide)
  have hone : 0 < min (sampleConfig 0 1).maxBurstSize.toNat
      (((ivCall 8).sorted (sampleConfig 0 1) (createdOn (sampleConfig 0 1))).idxs 0).length := by
    decide
  have hleak := fun b => hcall.iv (by decide) (by decide) (poolOf b) hone 8
  refine ⟨_, _, hcall, hleak, fun h => ?_⟩
  have hsame := ((h 0 (by decide) _ _ hcall (poolOf 0) (poolOf 1) 0 hone 8).1 (by decide)).1
  rw [hleak 0, hleak 1] at hsame
  exact absurd hsame (by decide : (0 : UInt8) ≠ 1)

end CiphApp
