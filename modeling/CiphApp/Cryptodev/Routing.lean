import CiphApp.Cryptodev.Passes

/-!
# Device routing

A device has two numbers: the id DPDK gave it, and its position in `_enabled_cdevs`.  Session ids
carry the first; `get_session` and the lists of `preprocess_jobs` use them as if they were the
second; `run_jobs` turns positions into ids again, and `set_ops_cipher` looks up the unit of the
length at the position that equals the id.  `routes_iff` says for which ids this comes out right:
only if the AES device is device 0 and the SNOW3G device is device 1.

## How it is shown

`run_enqueues` is what the enqueue loop owes to a list: every job on it reaches the device, if the
op pool does not refuse and the burst fits.  `KnownAlgo` is an invariant of the sessions: each was
initialised on the device that serves its algorithm.  With it `routes_zero_one` follows a job from
its session to the device that gets it.

For other ids something goes wrong.  If a device has number 2 or more, `get_session` refuses the ids
of its sessions, and its algorithm cannot be used at all (`Routes.lt_two`).  That leaves the two
numbers in the other order, and there AES jobs are handed to the SNOW3G device
(`routes_one_zero_fails`).
-/

namespace CiphApp

open Lib Relation

/-! ## Every job has its turn -/

section Turn

variable {cfg : Config} {ch : ℕ} {dev : UInt8} {idxs : List ℕ}

/-- A call that returns 0 has enqueued an operation for each job of its list, provided the list is
not longer than a burst. -/
lemma runJobsInner_enqueues (h64 : idxs.length ≤ maxJobsBurstSize)
    (hmax : idxs.length ≤ cfg.maxBurstSize.toNat) {script : DevScript} {r r' : Run}
    (h : runJobsInner cfg ch dev idxs script r = some (r', true)) {i : ℕ} (hi : i < idxs.length) :
    ∃ old ticket, (⟨dev, ticket, setOpCipher cfg dev r.heap (r.jobs (idxs.getD i 0))
      (idxs.getD i 0) (getSession cfg ch (r.jobs (idxs.getD i 0)).op.sessId r.cl) old⟩ :
        DevEvent) ∈ r'.enqs := by
  have h0 : idxs ≠ [] := List.length_pos_iff.mp (by omega)
  obtain ⟨ops, R, hround⟩ := rounds_of_fits h0 h64 hmax h
  have henqs := (runJobsInner_events hround (offered_entry h64 hmax) h).2.1
  refine ⟨ops i, (r.cl.queues dev).next + i, ?_⟩
  rw [henqs]
  refine List.mem_append_right _ (mem_mapIdx_event.mpr ⟨i, _, ?_, rfl⟩)
  simp [preparedOps, hi]

/-- The loop is left early only if the pool refused. -/
lemma enqueueLoop_ok {rs : List Round} {s s' : Inner} {ok : Bool}
    (hpool : ∀ r ∈ rs, r.pool.isSome = true)
    (h : enqueueLoop cfg ch dev idxs rs s = some (s', ok)) : ok = true := by
  induction rs generalizing s with
  | nil => exact (enqueueLoop_nil h).2.2
  | cons r rs ih =>
      obtain ⟨-, ⟨hnone, -⟩ | ⟨ops, s1, -, -, hrest⟩⟩ := enqueueLoop_cons h
      · have hsome := hpool r List.mem_cons_self
        rw [hnone] at hsome
        exact absurd hsome (by decide)
      · exact ih (fun q hq => hpool q (List.mem_cons_of_mem r hq)) hrest

lemma runJobsInner_ok {script : DevScript} {r r' : Run} {ok : Bool} (hpool : script.PoolServes)
    (h : runJobsInner cfg ch dev idxs script r = some (r', ok)) : ok = true := by
  obtain ⟨s, hs, -⟩ | ⟨-, -, -, -, -, hok⟩ := runJobsInner_cases h
  · exact absurd (enqueueLoop_ok hpool hs) (by decide)
  · exact hok

end Turn

/-- A listed job is enqueued if the op pool serves its device and the burst fits. -/
theorem run_enqueues {cfg : Config} {x : BurstCall} {cl : Client} {r : Run}
    (hnb : cfg.nbCryptodevs = 2) (hsize : x.size ≤ maxJobsBurstSize)
    (hmax : x.size ≤ cfg.maxBurstSize.toNat) (hrun : x.run cfg cl = some r) {d : ℕ} (hd : d < 2)
    (hpool : (x.devScript cfg cl d).PoolServes) {j : ℕ} (hj : j ∈ (x.sorted cfg cl).idxs d) :
    ∃ ev ∈ r.enqs, ev.op.vec = j := by
  have hsize0 : x.size ≠ 0 := by
    have := (mem_scan_idxs.mp hj).1
    omega
  rw [run_two_devices hnb hsize0] at hrun
  obtain ⟨⟨r2, ok2⟩, hbind, rfl⟩ := Option.map_eq_some_iff.mp hrun
  obtain ⟨⟨r1, ok1⟩, h1, h2⟩ := Option.bind_eq_some_iff.mp hbind
  have hlen : ∀ d, ((x.sorted cfg cl).idxs d).length ≤ x.size := fun d =>
    scan_idxs_length_le cfg x cl d x.size
  have hstart : DevPhase cfg x cl ((x.sorted cfg cl).start x.heap) := DevPhase.start
  have hphase : DevPhase cfg x cl r1 := run_induct (Q := DevPhase cfg x cl)
    (fun _ _ hs hq => hq.step (hnb ▸ Nat.two_pos) hsize hs) (runJobsInner_steps h1) hstart
  -- in each phase, the operation prepared for the job is one of those enqueued
  have hmem : ∀ (d : ℕ) (q q' : Run) (ok : Bool), DevPhase cfg x cl q →
      x.innerRun cfg cl d q = some (q', ok) → (x.devScript cfg cl d).PoolServes →
      j ∈ (x.sorted cfg cl).idxs d → ∃ ev ∈ q'.enqs, ev.op.vec = j := by
    intro d q q' ok hq hin hserve hjd
    obtain ⟨i, hi, hij⟩ := List.getElem_of_mem hjd
    have hget : ((x.sorted cfg cl).idxs d).getD i 0 = j := by
      rw [List.getD_eq_getElem _ 0 hi, hij]
    obtain rfl := runJobsInner_ok hserve hin
    obtain ⟨old, ticket, hev⟩ := runJobsInner_enqueues ((hlen d).trans hsize)
      ((hlen d).trans hmax) hin hi
    rw [hget] at hev
    obtain ⟨s, old', -, hop⟩ := hq.prepared hjd old
    exact ⟨_, hev, by rw [hop]; rfl⟩
  rcases Nat.lt_succ_iff_lt_or_eq.mp hd with hd0 | rfl
  · obtain rfl : d = 0 := by omega
    obtain ⟨ev, hev, hvec⟩ := hmem 0 _ _ _ hstart h1 hpool hj
    exact ⟨ev, mem_enqs_steps (runJobsInner_steps h2) hev, hvec⟩
  · obtain ⟨ev, hev, hvec⟩ := hmem 1 r1 r2 ok2 hphase h2 hpool hj
    exact ⟨ev, hev, hvec⟩

/-! ## The sessions a device knows -/

/-- Every session was initialised on the device that serves its algorithm. -/
def KnownAlgo (cfg : Config) (cl : Client) : Prop :=
  ∀ s v, cl.pool.data s = some v → ∃ algo < cryptoCipherAlgoLast,
    v.cdevId = cfg.algo2cdevIdMap algo ∧ v.xform.algo = crypto2rteCipherAlgoMap algo

lemma KnownAlgo.step {cfg : Config} {ch : ℕ} {cl cl' : Client} (hs : SessStep cfg True ch cl cl')
    (h : KnownAlgo cfg cl) : KnownAlgo cfg cl' := by
  intro s v hv
  cases hs with
  | keep _ hr hp => exact h s v (hp ▸ hv)
  | add t slot w algo _ halgo hdev hx _ _ =>
      by_cases hst : s = t
      · subst hst
        obtain rfl : w = v := by simpa [Client.addSession, SessPool.init, SessPool.take] using hv
        exact ⟨algo, halgo, hdev, hx⟩
      · refine h s v ?_
        simpa [Client.addSession, SessPool.init, SessPool.take, Function.update_of_ne hst] using hv
  | bounce ans p hp hfresh =>
      obtain ⟨hrel, -⟩ := hfresh trivial
      cases hp with
      | untouched => exact h s v hv
      | released t q _ _ hdata =>
          by_cases hst : s = t
          · simp [SessPool.release, hrel, hst] at hv
          · refine h s v ?_
            rw [← hdata s hst]
            simpa [SessPool.release, hrel, Function.update_of_ne hst] using hv
  | release ans dev i t _ hans =>
      rw [hans trivial] at hv
      by_cases hst : s = t
      · simp [SessPool.release, hst] at hv
      · refine h s v ?_
        simpa [SessPool.release, Function.update_of_ne hst] using hv

/-- The state after the scan of a burst is one a run with an honest pool can pass through. -/
lemma sorted_induct {cfg : Config} {Q : Client → Prop}
    (hstep : ∀ ch cl cl', SessStep cfg True ch cl cl' → Q cl → Q cl') {cl : Client} (hcl : Q cl)
    {x : BurstCall} (hx : HonestPool cfg x cl) : Q (x.sorted cfg cl).cl :=
  run_induct (hstep x.ch) (scan_sess (fun _ => hx) le_rfl) hcl

/-! ## Routing -/

/-- **Jobs reach the right device.**  In every state that a run with an honest session pool can
reach: a session that was created resolves to the object that was initialised; what a burst
enqueues for a job carries the job's session, goes to the device on which that session was
initialised, and gives the length in bits if the session is a SNOW3G one and in bytes otherwise;
and a ciphering job on a live session is enqueued, if the op pool serves the device and the
burst is not larger than `max_burst_size`. -/
structure Routes (cfg : Config) : Prop where
  accepted : ∀ cl, Reachable cfg (honestPool cfg) cl → ∀ heap ch job ans cl' sessId,
    createSession cfg heap ch job ans cl = (cl', some sessId) →
    ∃ s, ans.create = some s ∧ getSession cfg ch sessId cl' = some s
  routed : ∀ cl, Reachable cfg (honestPool cfg) cl → ∀ (x : BurstCall) (r : Run),
    x.ch < 32 → x.size ≤ 64 → HonestPool cfg x cl → x.run cfg cl = some r → ∀ ev ∈ r.enqs,
    ∃ s v, getSession cfg x.ch (x.jobs ev.op.vec).op.sessId (x.sorted cfg cl).cl = some s ∧
      (x.sorted cfg cl).cl.pool.data s = some v ∧ ev.op.session = some s ∧ ev.dev = v.cdevId ∧
      ev.op.cipherDataLength =
        if v.xform.algo = .snow3gUea2 then
          ((x.jobs ev.op.vec).cipherBuffList.buffs 0).length <<< 3
        else ((x.jobs ev.op.vec).cipherBuffList.buffs 0).length
  enqueued : ∀ cl, Reachable cfg (honestPool cfg) cl → ∀ (x : BurstCall) (r : Run),
    x.ch < 32 → x.size ≤ 64 → HonestPool cfg x cl → x.run cfg cl = some r → ∀ j < x.size,
    (x.jobs j).op.opType = cryptoOpTypeSessCiphering →
    (x.jobs j).op.opStatus ≠ cryptoOpStatusFailed →
    (getSession cfg x.ch (x.jobs j).op.sessId (x.scan cfg cl j).cl).isSome = true →
    x.size ≤ cfg.maxBurstSize.toNat →
    (x.script.dev (sessCdevId (x.jobs j).op.sessId)).PoolServes → ∃ ev ∈ r.enqs, ev.op.vec = j

/-- A new session id resolves exactly if its device number is below the number of devices. -/
lemma getSession_created {cfg : Config} (hnb : cfg.nbCryptodevs = 2) {heap : Heap} {ch : ℕ}
    {job : CryptoOperation} {ans : SessAns} {cl cl' : Client} {sessId : UInt32}
    (h : createSession cfg heap ch job ans cl = (cl', some sessId)) :
    ∃ s, ans.create = some s ∧ getSession cfg ch sessId cl' =
      if (cfg.algo2cdevIdMap job.op.cipherAlgo).toNat < cfg.nbCryptodevs then some s else none := by
  obtain ⟨p, -, heq⟩ | ⟨s, slot, -, hans, hslot, -, heq⟩ :=
    createSession_cases cfg heap ch job ans cl
  · rw [heq] at h
    simp at h
  · rw [heq] at h
    simp only [Prod.mk.injEq, Option.some.injEq] at h
    obtain ⟨rfl, rfl⟩ := h
    have hslot' : slot < 65536 := hslot.trans (by decide)
    refine ⟨s, hans, ?_⟩
    rw [getSession, sessCdevId_packSessId _ hslot', sessSlot_packSessId _ hslot', hnb]
    by_cases hd : (cfg.algo2cdevIdMap job.op.cipherAlgo).toNat < 2
    · rw [if_pos hd, if_pos ⟨hd, hslot⟩]
      exact (Registry.store_own _ _ _ _ _ hd _).trans (if_pos ⟨rfl, rfl⟩)
    · rw [if_neg hd, if_neg fun h => hd h.1]

section ZeroOne

variable {maxBurstSize : UInt32} {behind : UInt32 → RteCipherOp}

/-- With devices 0 and 1, a session of row 0 is an AES one and a session of row 1 a SNOW3G one. -/
lemma KnownAlgo.row {cl : Client} (h : KnownAlgo (Config.ofDevices 0 1 maxBurstSize behind) cl)
    {s : SessPtr} {v : Session} (hv : cl.pool.data s = some v) :
    (v.cdevId = 0 ∧ v.xform.algo = .aesCtr) ∨ (v.cdevId = 1 ∧ v.xform.algo = .snow3gUea2) := by
  obtain ⟨algo, hlt, hdev, hx⟩ := h s v hv
  rw [hdev, hx]
  by_cases h0 : algo = cryptoCipherAesCtr
  · rw [h0]
    exact .inl ⟨rfl, rfl⟩
  · obtain rfl : algo = cryptoCipherSnow3gUea2 := by
      have h1 : algo.toNat < 2 := UInt32.lt_iff_toNat_lt.mp hlt
      have h2 : algo.toNat ≠ 0 := fun hz => h0 (UInt32.toNat_inj.mp hz)
      exact UInt32.toNat_inj.mp (show algo.toNat = 1 by omega)
    exact .inr ⟨rfl, rfl⟩

lemma routes_zero_one : Routes (Config.ofDevices 0 1 maxBurstSize behind) := by
  have hfit := devicesFit_ofDevices (a := 0) (s := 1) (by decide) (by decide) maxBurstSize behind
  set cfg := Config.ofDevices 0 1 maxBurstSize behind with hcfg
  refine ⟨?_, ?_, ?_⟩
  · intro cl _ heap ch job ans cl' sessId hcreate
    obtain ⟨s, hans, hget⟩ := getSession_created rfl hcreate
    exact ⟨s, hans, hget.trans (if_pos (hfit _))⟩
  · intro cl hreach x r _ hsize hx hrun ev hev
    obtain ⟨d, hd, j, hj, heap, hdev, hprep⟩ := run_enqs hsize hrun hev
    obtain ⟨s, old, hget, hop⟩ := hprep
    obtain ⟨-, hl⟩ := mem_scan_idxs.mp hj
    have hvec : ev.op.vec = j := by rw [hop]; rfl
    have hinv : SessInv (x.sorted cfg cl).cl :=
      sorted_induct (fun _ _ _ => SessInv.step hfit) (hreach.sessInv hfit) hx
    have halgo : KnownAlgo cfg (x.sorted cfg cl).cl :=
      sorted_induct (fun _ _ _ => KnownAlgo.step)
        (hreach.induct (fun _ _ h => by simp [Client.init] at h) fun _ _ _ _ => KnownAlgo.step) hx
    obtain ⟨v, hv, hrow⟩ := hinv.data _ _ _ s (getSession_eq_some.mp hget).2.2
    rw [(listed_iff.mp hl).2.2.1] at hrow
    refine ⟨s, v, by rw [hvec, hget], hv, by rw [hop]; rfl, ?_⟩
    rw [hvec, hdev, hop]
    rcases halgo.row hv with ⟨hcdev, hx⟩ | ⟨hcdev, hx⟩
    · obtain rfl : d = 0 := by rw [← hrow, hcdev]; rfl
      rw [hcdev, hx]
      exact ⟨rfl, rfl⟩
    · obtain rfl : d = 1 := by rw [← hrow, hcdev]; rfl
      rw [hcdev, hx]
      exact ⟨rfl, rfl⟩
  · intro cl hreach x r _ hsize hx hrun j hj ht hs hlive hmax hpool
    have hl : Listed cfg x cl (sessCdevId (x.jobs j).op.sessId) j :=
      listed_iff.mpr ⟨hs, ht, rfl, hlive⟩
    have hmem : j ∈ (x.sorted cfg cl).idxs (sessCdevId (x.jobs j).op.sessId) :=
      mem_scan_idxs.mpr ⟨hj, hl⟩
    refine run_enqueues rfl hsize hmax hrun hl.lt ?_ hmem
    rwa [BurstCall.devScript, if_neg (List.ne_nil_of_mem hmem)]

end ZeroOne

/-! ## Other device numbers -/

section Others

variable {maxBurstSize : UInt32} {behind : UInt32 → RteCipherOp}

/-- A device number that is too large makes every session of its algorithm unusable. -/
lemma Routes.lt_two {a s : UInt8} (h : Routes (Config.ofDevices a s maxBurstSize behind)) :
    a.toNat < 2 ∧ s.toNat < 2 := by
  have hlt : ∀ algo, (∃ cl' sessId, createSession (Config.ofDevices a s maxBurstSize behind)
      ⟨fun _ _ => 0, []⟩ 0 (sampleJob cryptoOpTypeSessCreate 0 algo)
      ⟨some 7, true, ⟨true, true⟩⟩ Client.init = (cl', some sessId)) →
      ((Config.ofDevices a s maxBurstSize behind).algo2cdevIdMap algo).toNat < 2 := by
    rintro algo ⟨cl', sessId, hcreate⟩
    obtain ⟨p, -, hp⟩ := h.accepted Client.init .refl _ _ _ _ _ _ hcreate
    obtain ⟨p', -, hp'⟩ := getSession_created rfl hcreate
    rw [hp] at hp'
    by_contra hge
    exact absurd (hp'.trans (if_neg hge)) (by simp)
  exact ⟨hlt cryptoCipherAesCtr ⟨_, _, rfl⟩, hlt cryptoCipherSnow3gUea2 ⟨_, _, rfl⟩⟩

lemma createdOn_reachable (a s : UInt8) :
    Reachable (Config.ofDevices a s maxBurstSize behind)
      (honestPool (Config.ofDevices a s maxBurstSize behind))
      (createdOn (Config.ofDevices a s maxBurstSize behind)) :=
  .single (.burst (createCall cryptoCipherAesCtr) _ (by decide) (by decide)
    (createCall_honest _ _) rfl)

/-- With the numbers the other way round, the operations of an AES session go to the SNOW3G
device. -/
lemma routes_one_zero_fails (hmax : maxBurstSize ≠ 0) :
    ¬Routes (Config.ofDevices 1 0 maxBurstSize behind) := by
  intro h
  have hfit := devicesFit_ofDevices (a := 1) (s := 0) (by decide) (by decide) maxBurstSize behind
  set cfg := Config.ofDevices 1 0 maxBurstSize behind with hcfg
  have hreach : Reachable cfg (honestPool cfg) (createdOn cfg) := createdOn_reachable 1 0
  have hd0 : (cfg.enabledCdevs 0).cdevId = 1 := rfl
  have hd1 : (cfg.enabledCdevs 1).cdevId = 0 := rfl
  set x := cipherCall (packSessId 1 0) servedScript
  have hlive : getSession cfg 0 (packSessId 1 0) (createdOn cfg) = some 7 := by
    have hreg : (createdOn cfg).registry = Registry.store (fun _ _ _ => none) 0 1 0 (some 7) := rfl
    rw [getSession, hreg, Registry.store_of_lt _ (by decide)]
    rfl
  have hscan : getSession cfg 0 (packSessId 1 0) (x.scan cfg (createdOn cfg) 0).cl = some 7 :=
    (getSession_congr rfl).trans hlive
  have hlist : Listed cfg x (createdOn cfg) 1 0 :=
    listed_iff.mpr ⟨by decide, rfl, sessCdevId_packSessId 1 (by decide), by
      rw [Option.isSome_iff_exists]
      exact ⟨7, hscan⟩⟩
  have h1 : (x.sorted cfg (createdOn cfg)).idxs 1 = [0] := by
    rw [BurstCall.sorted, scan_idxs, show x.size = 1 from rfl]
    simp [hlist]
  have hrow : ∀ d, (x.sorted cfg (createdOn cfg)).idxs d ≠ [] → d = 1 := by
    intro d hne
    obtain ⟨j, hj⟩ := List.exists_mem_of_ne_nil _ hne
    rw [← (listed_iff.mp (mem_scan_idxs.mp hj).2).2.2.1]
    exact sessCdevId_packSessId 1 (by decide)
  have hpos : x.size ≤ cfg.maxBurstSize.toNat := Nat.one_le_iff_ne_zero.mpr fun hz =>
    hmax (UInt32.toNat_inj.mp hz)
  have hserved : x.Served cfg (createdOn cfg) := by
    intro d _ hne
    rw [hrow d hne, h1]
    exact (servedScript_inOrder _).toServes
  obtain ⟨r, hr⟩ := run_returns rfl (by rw [hd0, hd1]; decide) (fun _ => rfl) (by decide) hpos
    hserved
  obtain ⟨ev, hev, -⟩ := run_enqueues rfl (by decide) hpos hr Nat.one_lt_two
    (hserved.poolServes Nat.one_lt_two) (h1 ▸ List.mem_singleton_self 0)
  -- the operation goes to the device at position 1, which is device 0
  obtain ⟨d, -, j, hj, -, hdev, -⟩ := run_enqs (by decide) hr hev
  obtain rfl := hrow d (List.ne_nil_of_mem hj)
  -- but the session was initialised on device 1
  obtain ⟨t, v, hget, hv, -, hdev', -⟩ := h.routed _ hreach x r (by decide) (by decide)
    (cipherCall_honest _ _ _ _) hr ev hev
  have hinv : SessInv (x.sorted cfg (createdOn cfg)).cl :=
    sorted_induct (fun _ _ _ => SessInv.step hfit) (hreach.sessInv hfit) (cipherCall_honest _ _ _ _)
  obtain ⟨w, hw, hwdev⟩ := hinv.data _ _ _ t (getSession_eq_some.mp hget).2.2
  obtain rfl : v = w := by rwa [hv, Option.some.injEq] at hw
  rw [← hdev', hdev, hd1, show (x.jobs ev.op.vec).op.sessId = packSessId 1 0 from rfl,
    sessCdevId_packSessId 1 (by decide)] at hwdev
  exact absurd hwdev (by decide)

end Others

/-- **Device routing.**  Whatever different devices `init_inner` finds, jobs reach the right device
exactly if the AES device is device 0 and the SNOW3G device is device 1. -/
theorem routes_iff (a s : UInt8) (aes snow : List UInt8) (hdist : a ≠ s) (maxBurstSize : UInt32)
    (hmax : maxBurstSize ≠ 0) (behind : UInt32 → RteCipherOp) (cfg : Config)
    (hcfg : initInner (a :: aes) (s :: snow) maxBurstSize behind = some cfg) :
    Routes cfg ↔ a = 0 ∧ s = 1 := by
  obtain rfl : Config.ofDevices a s maxBurstSize behind = cfg := by simpa [initInner] using hcfg
  constructor
  · intro h
    obtain ⟨ha, hs⟩ := h.lt_two
    have hne : a.toNat ≠ s.toNat := fun he => hdist (UInt8.toNat_inj.mp he)
    by_cases h0 : a.toNat = 0
    · exact ⟨UInt8.toNat_inj.mp h0, UInt8.toNat_inj.mp (show s.toNat = 1 by omega)⟩
    · obtain rfl : a = 1 := UInt8.toNat_inj.mp (show a.toNat = 1 by omega)
      obtain rfl : s = 0 := UInt8.toNat_inj.mp (show s.toNat = 0 by omega)
      exact absurd h (routes_one_zero_fails hmax)
  · rintro ⟨rfl, rfl⟩
    exact routes_zero_one

/-- The devices of the shipped configuration. -/
theorem routes_shipped : Routes (sampleConfig 0 1) :=
  (routes_iff 0 1 [] [] (by decide) 64 (by decide) _ _ rfl).mpr ⟨rfl, rfl⟩

/-- **A wrong device.**  With the SNOW3G device listed first, the operation of an AES session that
was initialised on device 1 is enqueued on device 0. -/
theorem enqueued_on_wrong_device :
    initInner [1] [0] 64 (fun _ => .encrypt) = some (sampleConfig 1 0) ∧
    Reachable (sampleConfig 1 0) (honestPool (sampleConfig 1 0)) (createdOn (sampleConfig 1 0)) ∧
    (createdOn (sampleConfig 1 0)).pool.data 7 = some ⟨1, .aesCtr, .encrypt, List.replicate 16 0⟩ ∧
    (∃ r, (cipherCall (packSessId 1 0) servedScript).run (sampleConfig 1 0)
        (createdOn (sampleConfig 1 0)) = some r ∧
      r.enqs.map (fun ev => (ev.dev, ev.op.session)) = [(0, some 7)]) ∧
    ¬Routes (sampleConfig 1 0) :=
  ⟨rfl, createdOn_reachable 1 0, rfl, ⟨_, rfl, rfl⟩, routes_one_zero_fails (by decide)⟩

end CiphApp
