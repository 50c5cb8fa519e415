import CiphApp.Cryptodev.Jobs

/-!
# What one step of a burst can do

Session ids are packed from a device and a slot in one function and unpacked in three others;
the first section is the arithmetic of that.  The rest says once, for the loop bodies of
`preprocess_jobs` and `postprocess_jobs` and for the calls `run_jobs_inner` makes, which changes
they can make and under which conditions: `PreStep`, `PostStep` and `DevStep` have one
constructor for each branch of the code.  Everything later is proved by cases on these.

## From steps to phases

* `preStep` and `postStep` say that a pass is one of these steps.  `scan` is the first pass cut off
  behind some job, so that `scan_succ` gives the induction over the jobs of a burst.
* `runJobsInner_steps` says that a call of `run_jobs_inner` is a sequence of `DevStep`s, whatever
  the environment answers and however the call ends.  What every such step keeps is kept by the
  call, and by `runDevices_induct` by the loop over the devices.
* `runJobs_phases` cuts `run_jobs` into the scan, the device loop and the closes.

The equations of the loops (`enqueueLoop_cons`, `drainLoop_cons` and so on) are here too; later
files use them instead of unfolding.
-/

namespace CiphApp

open Lib

/-! ## Session ids -/

lemma sessCdevId_eq (sessId : UInt32) : sessCdevId sessId = sessId.toNat / 65536 := by
  simp [sessCdevId, UInt32.toNat_shiftRight, Nat.shiftRight_eq_div_pow]

lemma sessSlot_eq (sessId : UInt32) : sessSlot sessId = sessId.toNat % 65536 := by
  rw [sessSlot, UInt32.toNat_and]
  exact Nat.and_two_pow_sub_one_eq_mod sessId.toNat 16

/-- The device is in the high half of an id, the slot in the low half. -/
lemma toNat_packSessId (cdevId : UInt8) {i : ℕ} (hi : i < 65536) :
    (packSessId cdevId i).toNat = cdevId.toNat * 65536 + i := by
  have hd := cdevId.toNat_lt
  have hhi : ((0xFFFF0000 : UInt32) &&& (cdevId.toUInt32 <<< 16)).toNat =
      cdevId.toNat <<< 16 := by
    have hmask : (0xFFFF0000 : UInt32).toNat = (2 ^ 16 - 1) <<< 16 := by decide
    have hshift : (cdevId.toUInt32 <<< 16).toNat = cdevId.toNat <<< 16 := by
      simp only [UInt32.toNat_shiftLeft, UInt8.toNat_toUInt32, UInt32.reduceToNat,
        Nat.shiftLeft_eq, Nat.reduceMod, Nat.reducePow]
      omega
    rw [UInt32.toNat_and, hmask, hshift, ← Nat.shiftLeft_and_distrib, Nat.and_comm,
      Nat.and_two_pow_sub_one_eq_mod, Nat.mod_eq_of_lt (by omega)]
  rw [packSessId, UInt32.toNat_or, hhi, UInt32.toNat_ofNat', Nat.mod_eq_of_lt (by omega),
    ← Nat.shiftLeft_add_eq_or_of_lt (by simpa using hi), Nat.shiftLeft_eq]

lemma sessCdevId_packSessId (cdevId : UInt8) {i : ℕ} (hi : i < 65536) :
    sessCdevId (packSessId cdevId i) = cdevId.toNat := by
  rw [sessCdevId_eq, toNat_packSessId cdevId hi]
  omega

lemma sessSlot_packSessId (cdevId : UInt8) {i : ℕ} (hi : i < 65536) :
    sessSlot (packSessId cdevId i) = i := by
  rw [sessSlot_eq, toNat_packSessId cdevId hi]
  omega

lemma sessId_ext {a b : UInt32} (hd : sessCdevId a = sessCdevId b)
    (hs : sessSlot a = sessSlot b) : a = b := by
  rw [sessCdevId_eq, sessCdevId_eq] at hd
  rw [sessSlot_eq, sessSlot_eq] at hs
  exact UInt32.toNat_inj.mp (by omega)

/-! ## Registry cells -/

lemma Registry.set_apply (r : Registry) (ch dev i : ℕ) (v : Option SessPtr) (ch' dev' i' : ℕ) :
    r.set ch dev i v ch' dev' i' =
      if ch' = ch ∧ dev' = dev ∧ i' = i then v else r ch' dev' i' := rfl

@[simp] lemma Registry.set_self (r : Registry) (ch dev i : ℕ) (v : Option SessPtr) :
    r.set ch dev i v ch dev i = v := by
  simp [Registry.set_apply]

lemma Registry.set_of_ne_channel (r : Registry) {ch ch' : ℕ} (dev i : ℕ) (v : Option SessPtr)
    (h : ch' ≠ ch) : r.set ch dev i v ch' = r ch' := by
  funext dev' i'
  simp [Registry.set_apply, h]

/-! ### Device numbers in the array

For a device number below `MAX_DEV_NUM` the address C computes is the cell of that device, and
what `create_session` does stays on its channel.  For a larger one it is a cell of a later channel,
so the rows of the channel itself are not touched: in either case the own rows change in the cell
of that number, if they have one. -/

/-- Every algorithm has a device with rows of its own in the registry. -/
def Config.DevicesFit (cfg : Config) : Prop :=
  ∀ algo, (cfg.algo2cdevIdMap algo).toNat < maxDevNum

lemma Registry.load_of_lt (r : Registry) {dev : ℕ} (h : dev < maxDevNum) (ch i : ℕ) :
    r.load ch dev i = r ch dev i := by
  rw [Registry.load, Nat.div_eq_of_lt h, Nat.mod_eq_of_lt h, Nat.add_zero]

lemma Registry.store_of_lt (r : Registry) {dev : ℕ} (h : dev < maxDevNum) (ch i : ℕ)
    (v : Option SessPtr) : r.store ch dev i v = r.set ch dev i v := by
  rw [Registry.store, Nat.div_eq_of_lt h, Nat.mod_eq_of_lt h, Nat.add_zero]

lemma Registry.store_own (r : Registry) (ch dev i : ℕ) (v : Option SessPtr) {d : ℕ}
    (hd : d < maxDevNum) (j : ℕ) :
    r.store ch dev i v ch d j = if d = dev ∧ j = i then v else r ch d j := by
  have hrow : ch = ch + dev / maxDevNum ∧ d = dev % maxDevNum ∧ j = i ↔ d = dev ∧ j = i := by
    unfold maxDevNum at hd ⊢
    omega
  simp only [Registry.store, Registry.set_apply, hrow]

/-- A store that fills a free cell keeps every cell that is not free. -/
lemma Registry.store_of_ne_none {r : Registry} {ch dev i : ℕ} (hfree : r.load ch dev i = none)
    (v : Option SessPtr) {c d j : ℕ} (h : r c d j ≠ none) : r.store ch dev i v c d j = r c d j := by
  rw [Registry.store, Registry.set_apply, if_neg]
  rintro ⟨rfl, rfl, rfl⟩
  exact h hfree

/-- The registry as a table with one index. -/
def Registry.cells (r : Registry) : ℕ × ℕ × ℕ → Option SessPtr := fun c => r c.1 c.2.1 c.2.2

lemma Registry.cells_set (r : Registry) (ch dev i : ℕ) (v : Option SessPtr) :
    Registry.cells (r.set ch dev i v) = Function.update r.cells (ch, dev, i) v := by
  funext ⟨ch', dev', i'⟩
  simp [Registry.cells, Registry.set_apply, Function.update_apply]

lemma getSession_eq_some {cfg : Config} {ch : ℕ} {sessId : UInt32} {cl : Client} {s : SessPtr} :
    getSession cfg ch sessId cl = some s ↔
      sessCdevId sessId < cfg.nbCryptodevs ∧ sessSlot sessId < maxSessNum ∧
        cl.registry ch (sessCdevId sessId) (sessSlot sessId) = some s := by
  unfold getSession
  split_ifs with h
  · simp [h.1, h.2]
  · simp only [false_iff]
    rintro ⟨h1, h2, -⟩
    exact h ⟨h1, h2⟩

lemma getSession_congr {cfg : Config} {ch : ℕ} {sessId : UInt32} {cl cl' : Client}
    (h : cl'.registry ch = cl.registry ch) :
    getSession cfg ch sessId cl' = getSession cfg ch sessId cl := by
  unfold getSession
  rw [h]

/-! ## `preprocess_jobs` -/

/-- A session creation that fails leaves the pool as it was, or takes an object and gives it
back. -/
inductive SessPool.Bounced (ans : SessAns) (p : SessPool) : SessPool → Prop
  | untouched : Bounced ans p p
  | released (s : SessPtr) (q : SessPool) (hs : ans.create = some s)
      (hout : q.out = insert s p.out) (hdata : ∀ t ≠ s, q.data t = p.data t) :
      Bounced ans p (q.release s ans.release)

/-- The session `create_session` initialises for a job. -/
def sessionOf (cfg : Config) (heap : Heap) (job : CryptoOperation) : Session where
  cdevId := cfg.algo2cdevIdMap job.op.cipherAlgo
  xform :=
    { algo := crypto2rteCipherAlgoMap job.op.cipherAlgo
      op := cfg.crypto2rteCipherOpMap job.op.cipherOp
      key := job.cipherKey.bytes heap }

/-- The client after a session was created in a slot. -/
def Client.addSession (cl : Client) (ch slot : ℕ) (s : SessPtr) (v : Session) : Client :=
  { cl with
    registry := cl.registry.store ch v.cdevId.toNat slot (some s)
    pool := (cl.pool.take s).init s v }

lemma createSession_cases (cfg : Config) (heap : Heap) (ch : ℕ) (vec : CryptoOperation)
    (ans : SessAns) (cl : Client) :
    (∃ p, SessPool.Bounced ans cl.pool p ∧
      createSession cfg heap ch vec ans cl = ({ cl with pool := p }, none)) ∨
    (∃ s slot, vec.op.cipherAlgo < cryptoCipherAlgoLast ∧ ans.create = some s ∧
      slot < maxSessNum ∧
      cl.registry.load ch (sessionOf cfg heap vec).cdevId.toNat slot = none ∧
      createSession cfg heap ch vec ans cl =
        (cl.addSession ch slot s (sessionOf cfg heap vec),
          some (packSessId (sessionOf cfg heap vec).cdevId slot))) := by
  unfold createSession
  by_cases halgo : cryptoCipherAlgoLast ≤ vec.op.cipherAlgo
  · rw [if_pos halgo]
    exact .inl ⟨cl.pool, .untouched, rfl⟩
  · rw [if_neg halgo]
    rcases hc : ans.create with _ | s
    · exact .inl ⟨cl.pool, .untouched, rfl⟩
    · by_cases hinit : ans.init = true
      · simp only [if_pos hinit]
        split
        · rename_i slot hslot
          obtain ⟨-, hlt, hfree, -⟩ := firstFree_some hslot
          refine .inr ⟨s, slot, UInt32.not_le.mp halgo, rfl, by simpa using hlt, ?_, rfl⟩
          simpa [sessionOf] using hfree
        · refine .inl ⟨_, .released s _ hc rfl fun t ht => ?_, rfl⟩
          simp [SessPool.init, SessPool.take, ht]
      · simp only [if_neg hinit]
        refine .inl ⟨_, .released s _ hc rfl fun t ht => ?_, rfl⟩
        simp [SessPool.take, ht]

/-- **One pass of `preprocess_jobs`**, at index `i`.  The branch for a device number that is too
large is missing: `get_session` has refused such an id before. -/
inductive PreStep (cfg : Config) (heap : Heap) (ch : ℕ) (ans : SessAns) (i : ℕ) (b : Burst) :
    Burst → Prop
  | inAgent (hs : (b.jobs i).op.opStatus = cryptoOpStatusFailed) :
      PreStep cfg heap ch ans i b ((b.setJob i ((b.jobs i).setBuffListLength 0)).fail .inAgent)
  | created (s : SessPtr) (slot : ℕ) (hs : (b.jobs i).op.opStatus ≠ cryptoOpStatusFailed)
      (ht : (b.jobs i).op.opType = cryptoOpTypeSessCreate)
      (halgo : (b.jobs i).op.cipherAlgo < cryptoCipherAlgoLast) (hans : ans.create = some s)
      (hslot : slot < maxSessNum)
      (hfree : b.cl.registry.load ch (sessionOf cfg heap (b.jobs i)).cdevId.toNat slot = none) :
      PreStep cfg heap ch ans i b
        (({ b with cl := b.cl.addSession ch slot s (sessionOf cfg heap (b.jobs i)) }).setJob i
          (((b.jobs i).setStatus cryptoOpStatusSucc).setSessId
            (packSessId (sessionOf cfg heap (b.jobs i)).cdevId slot)))
  | notCreated (p : SessPool) (hs : (b.jobs i).op.opStatus ≠ cryptoOpStatusFailed)
      (ht : (b.jobs i).op.opType = cryptoOpTypeSessCreate)
      (hp : SessPool.Bounced ans b.cl.pool p) :
      PreStep cfg heap ch ans i b
        ((({ b with cl := { b.cl with pool := p } }).setJob i
          (((b.jobs i).setStatus cryptoOpStatusFailed).setSessId 0xFFFFFFFF)).fail .createSess)
  | close (hs : (b.jobs i).op.opStatus ≠ cryptoOpStatusFailed)
      (ht : (b.jobs i).op.opType = cryptoOpTypeSessClose) : PreStep cfg heap ch ans i b b
  | notLive (hs : (b.jobs i).op.opStatus ≠ cryptoOpStatusFailed)
      (ht : (b.jobs i).op.opType = cryptoOpTypeSessCiphering)
      (hget : getSession cfg ch (b.jobs i).op.sessId b.cl = none) :
      PreStep cfg heap ch ans i b
        ((b.setJob i (((b.jobs i).setStatus cryptoOpStatusFailed).setBuffListLength 0)).fail
          .getSess)
  | listed (s : SessPtr) (hs : (b.jobs i).op.opStatus ≠ cryptoOpStatusFailed)
      (ht : (b.jobs i).op.opType = cryptoOpTypeSessCiphering)
      (hget : getSession cfg ch (b.jobs i).op.sessId b.cl = some s) :
      PreStep cfg heap ch ans i b
        (({ b with
            idxs := Function.update b.idxs (sessCdevId (b.jobs i).op.sessId)
              (b.idxs (sessCdevId (b.jobs i).op.sessId) ++ [i]) }).setJob i
          (((b.jobs i).setStatus cryptoOpStatusSucc).setBuffListLength 1))
  | unknown (hs : (b.jobs i).op.opStatus ≠ cryptoOpStatusFailed)
      (h0 : (b.jobs i).op.opType ≠ cryptoOpTypeSessCiphering)
      (h1 : (b.jobs i).op.opType ≠ cryptoOpTypeSessCreate)
      (h2 : (b.jobs i).op.opType ≠ cryptoOpTypeSessClose) :
      PreStep cfg heap ch ans i b
        ((b.setJob i (((b.jobs i).setStatus cryptoOpStatusFailed).setBuffListLength 0)).fail
          .opTypeUnk)

lemma preStep (cfg : Config) (heap : Heap) (ch : ℕ) (ans : SessAns) (i : ℕ) (b : Burst) :
    PreStep cfg heap ch ans i b (preprocessJob cfg heap ch ans i b) := by
  unfold preprocessJob
  by_cases hs : (b.jobs i).op.opStatus = cryptoOpStatusFailed
  · rw [if_pos hs]
    exact .inAgent hs
  rw [if_neg hs]
  by_cases h1 : (b.jobs i).op.opType = cryptoOpTypeSessCreate
  · rw [if_pos h1]
    obtain ⟨p, hp, heq⟩ | ⟨s, slot, halgo, hans, hslot, hfree, heq⟩ :=
      createSession_cases cfg heap ch (b.jobs i) ans b.cl
    · rw [heq]
      exact .notCreated p hs h1 hp
    · rw [heq]
      exact .created s slot hs h1 halgo hans hslot hfree
  rw [if_neg h1]
  by_cases h2 : (b.jobs i).op.opType = cryptoOpTypeSessClose
  · rw [if_pos h2]
    exact .close hs h2
  rw [if_neg h2]
  by_cases h0 : (b.jobs i).op.opType = cryptoOpTypeSessCiphering
  · rw [if_pos h0]
    rcases hget : getSession cfg ch (b.jobs i).op.sessId b.cl with _ | s
    · exact .notLive hs h0 hget
    · simp only
      rw [if_pos (getSession_eq_some.mp hget).1]
      exact .listed s hs h0 hget
  · rw [if_neg h0]
    exact .unknown hs h0 h1 h2

lemma PreStep.jobs_of_ne {cfg : Config} {heap : Heap} {ch : ℕ} {ans : SessAns} {i k : ℕ}
    {b b' : Burst} (h : PreStep cfg heap ch ans i b b') (hk : k ≠ i) :
    b'.jobs k = b.jobs k := by
  cases h <;> simp [Burst.setJob, Burst.fail, Function.update_of_ne hk]

/-- The state of the scan before job `i`. -/
def scan (cfg : Config) (heap : Heap) (ch : ℕ) (script : Script) (jobs : Jobs) (cl : Client)
    (i : ℕ) : Burst :=
  sortJobs cfg heap ch script jobs i cl

lemma scan_succ (cfg : Config) (heap : Heap) (ch : ℕ) (script : Script) (jobs : Jobs)
    (cl : Client) (i : ℕ) :
    scan cfg heap ch script jobs cl (i + 1) =
      preprocessJob cfg heap ch (script.sess i) i (scan cfg heap ch script jobs cl i) := rfl

/-- The scan does not look ahead: job `i` is still as it came. -/
lemma scan_jobs_of_le {cfg : Config} {heap : Heap} {ch : ℕ} {script : Script} {jobs : Jobs}
    {cl : Client} {i k : ℕ} (hk : i ≤ k) : (scan cfg heap ch script jobs cl i).jobs k = jobs k := by
  induction i with
  | zero => rfl
  | succ i ih =>
      rw [← ih (by omega), scan_succ]
      exact (preStep cfg heap ch _ i _).jobs_of_ne (by omega)

/-- The scan does not look back: job `k` stays as its own pass left it. -/
lemma scan_jobs_of_lt {cfg : Config} {heap : Heap} {ch : ℕ} {script : Script} {jobs : Jobs}
    {cl : Client} {i k : ℕ} (hk : k < i) :
    (scan cfg heap ch script jobs cl i).jobs k =
      (scan cfg heap ch script jobs cl (k + 1)).jobs k := by
  induction i with
  | zero => omega
  | succ i ih =>
      rcases Nat.lt_succ_iff_lt_or_eq.mp hk with hlt | rfl
      · rw [← ih hlt, scan_succ]
        exact (preStep cfg heap ch _ i _).jobs_of_ne (by omega)
      · rfl

/-! ## `postprocess_jobs` -/

/-- **One pass of `postprocess_jobs`**, at index `i`.  Only closes are looked at, and of a close
only the session id: its status does not matter, so a close that came in as failed is carried
out. -/
inductive PostStep (cfg : Config) (ch : ℕ) (ans : ReleaseAns) (i : ℕ) (s : Client × Jobs) :
    Client × Jobs → Prop
  | removed (p : SessPtr) (ht : (s.2 i).op.opType = cryptoOpTypeSessClose)
      (hget : getSession cfg ch (s.2 i).op.sessId s.1 = some p) :
      PostStep cfg ch ans i s
        ({ s.1 with
            registry := s.1.registry.set ch (sessCdevId (s.2 i).op.sessId)
              (sessSlot (s.2 i).op.sessId) none
            pool := s.1.pool.release p ans },
          Function.update s.2 i ((s.2 i).setStatus cryptoOpStatusSucc))
  | notLive (ht : (s.2 i).op.opType = cryptoOpTypeSessClose)
      (hget : getSession cfg ch (s.2 i).op.sessId s.1 = none) :
      PostStep cfg ch ans i s
        ({ s.1 with stats := s.1.stats.fail .removeSession },
          Function.update s.2 i ((s.2 i).setStatus cryptoOpStatusFailed))
  | other (ht : (s.2 i).op.opType ≠ cryptoOpTypeSessClose) : PostStep cfg ch ans i s s

lemma postStep (cfg : Config) (ch : ℕ) (ans : ReleaseAns) (i : ℕ) (s : Client × Jobs) :
    PostStep cfg ch ans i s (postprocessJob cfg ch ans i s) := by
  unfold postprocessJob
  by_cases ht : (s.2 i).op.opType = cryptoOpTypeSessClose
  · rw [if_pos ht]
    rcases hget : getSession cfg ch (s.2 i).op.sessId s.1 with _ | p
    · have hrem : removeSession cfg ch (s.2 i).op.sessId ans s.1 = (s.1, false) := by
        unfold getSession at hget
        unfold removeSession
        split_ifs at hget ⊢
        · simp [releaseSlot, hget]
        · rfl
      rw [hrem]
      exact .notLive ht hget
    · obtain ⟨hd, hi, hp⟩ := getSession_eq_some.mp hget
      have hrem : removeSession cfg ch (s.2 i).op.sessId ans s.1 =
          ({ s.1 with
              registry := s.1.registry.set ch (sessCdevId (s.2 i).op.sessId)
                (sessSlot (s.2 i).op.sessId) none
              pool := s.1.pool.release p ans }, true) := by
        simp [removeSession, hd, hi, releaseSlot, hp]
      rw [hrem]
      exact .removed p ht hget
  · rw [if_neg ht]
    exact .other ht

/-! ## `run_jobs_inner` -/

lemma burstSize_eq {cfg : Config} {e n : ℕ} (hn : n < 2 ^ 16) :
    burstSize cfg e n = min cfg.maxBurstSize.toNat (n - e) := by
  unfold burstSize
  split_ifs with h
  · rw [Nat.mod_eq_of_lt (by omega)]
    omega
  · rw [Nat.mod_eq_of_lt (by omega)]
    omega

lemma sub16_eq {a b : ℕ} (hab : b ≤ a) (ha : a < 2 ^ 16) : sub16 a b = a - b := by
  unfold sub16
  omega

/-- **One call `run_jobs_inner` makes**: a burst is offered to the device, an operation comes
back, results are written to the jobs.  A burst never offers more than there are jobs, unless
their number does not fit 16 bits. -/
inductive DevStep (cfg : Config) (ch : ℕ) (dev : UInt8) (idxs : List ℕ) (r : Run) : Run → Prop
  | submit (ops : ℕ → CryptoOp) (needed accepted : ℕ) (h : accepted ≤ needed)
      (hn : idxs.length < 2 ^ 16 → needed ≤ idxs.length) :
      DevStep cfg ch dev idxs r (r.submit cfg ch dev idxs ops needed accepted)
  | dequeue (a : Return) (op : CryptoOp)
      (h : (r.cl.queues dev).queue.lookup a.ticket = some op) :
      DevStep cfg ch dev idxs r (r.dequeue dev a { op with status := a.status })
  | result (ops : List CryptoOp) (k : ℕ) : DevStep cfg ch dev idxs r (r.result idxs ops k)

section DevSteps

open Relation

variable {cfg : Config} {ch : ℕ} {dev : UInt8} {idxs : List ℕ}

lemma dequeueBurst_steps {as : List Return} {r r' : Run} {ops : List CryptoOp}
    (h : dequeueBurst dev as r = some (ops, r')) :
    ReflTransGen (DevStep cfg ch dev idxs) r r' := by
  induction as generalizing r ops with
  | nil =>
      simp only [dequeueBurst, Option.some.injEq, Prod.mk.injEq] at h
      rw [h.2]
  | cons a as ih =>
      rw [dequeueBurst] at h
      split at h
      · simp at h
      · rename_i op hop
        obtain ⟨⟨ops', r''⟩, hx, heq⟩ := Option.map_eq_some_iff.mp h
        obtain rfl : r'' = r' := congrArg Prod.snd heq
        exact .head (.dequeue a op hop) (ih hx)

lemma collect_steps {asked : ℕ} {as : List Return} {s s' : Inner}
    (h : collect dev idxs asked as s = some s') :
    ReflTransGen (DevStep cfg ch dev idxs) s.run s'.run := by
  unfold collect at h
  split_ifs at h
  obtain ⟨⟨ops, r⟩, hx, rfl⟩ := Option.map_eq_some_iff.mp h
  exact .tail (dequeueBurst_steps hx) (.result ops _)

lemma collect_counts {asked : ℕ} {as : List Return} {s s' : Inner}
    (h : collect dev idxs asked as s = some s') :
    s'.opsEnqdTotal = s.opsEnqdTotal ∧ s'.opsUnused = s.opsUnused := by
  unfold collect at h
  split_ifs at h
  obtain ⟨⟨ops, r⟩, hx, rfl⟩ := Option.map_eq_some_iff.mp h
  exact ⟨rfl, rfl⟩

/-- The unused operations of a round fit into the next burst, so their subtraction does not
wrap. -/
def Inner.UnusedFit (cfg : Config) (n : ℕ) (s : Inner) : Prop :=
  n < 2 ^ 16 → s.opsUnused ≤ min cfg.maxBurstSize.toNat (n - s.opsEnqdTotal)

section UnusedFit

variable {n accepted : ℕ} {s : Inner}

/-- The offer of a pass does not exceed what is left of the list. -/
lemma Inner.UnusedFit.needed_eq (hn : n < 2 ^ 16) (h : s.UnusedFit cfg n) :
    sub16 (burstSize cfg s.opsEnqdTotal n) s.opsUnused =
      min cfg.maxBurstSize.toNat (n - s.opsEnqdTotal) - s.opsUnused := by
  rw [burstSize_eq hn, sub16_eq (h hn) (by omega)]

/-- What a pass leaves unused is the rest of its burst. -/
lemma Inner.UnusedFit.unused_eq (hn : n < 2 ^ 16) (h : s.UnusedFit cfg n)
    (hacc : accepted ≤ sub16 (burstSize cfg s.opsEnqdTotal n) s.opsUnused) :
    sub16 (burstSize cfg s.opsEnqdTotal n) accepted =
      min cfg.maxBurstSize.toNat (n - s.opsEnqdTotal) - accepted := by
  rw [h.needed_eq hn] at hacc
  rw [burstSize_eq hn, sub16_eq (by omega) (by omega)]

end UnusedFit

lemma enqueueRound_steps {ops : ℕ → CryptoOp} {r : Round} {s s' : Inner}
    (hu : s.UnusedFit cfg idxs.length) (h : enqueueRound cfg ch dev idxs ops r s = some s') :
    ReflTransGen (DevStep cfg ch dev idxs) s.run s'.run ∧ s'.UnusedFit cfg idxs.length := by
  simp only [enqueueRound] at h
  split_ifs at h with hacc
  obtain ⟨henqd, hunused⟩ := collect_counts h
  refine ⟨.head (.submit ops _ _ (not_lt.mp hacc) fun hn => ?_) (collect_steps h), fun hn => ?_⟩
  · rw [hu.needed_eq hn]
    omega
  · have hacc' := not_lt.mp hacc
    rw [hu.needed_eq hn] at hacc'
    rw [henqd, hunused]
    simp only
    rw [hu.unused_eq hn (not_lt.mp hacc)]
    omega

lemma enqueueLoop_nil {s s' : Inner} {ok : Bool}
    (h : enqueueLoop cfg ch dev idxs [] s = some (s', ok)) :
    idxs.length ≤ s.opsEnqdTotal ∧ s' = s ∧ ok = true := by
  rw [enqueueLoop] at h
  split_ifs at h with hlt
  obtain ⟨rfl, rfl⟩ := Prod.mk.inj (Option.some.inj h)
  exact ⟨not_lt.mp hlt, rfl, rfl⟩

/-- **A pass of the enqueue loop**: the pool refuses and the call ends, or the pass is made and the
loop goes on. -/
lemma enqueueLoop_cons {r : Round} {rs : List Round} {s s' : Inner} {ok : Bool}
    (h : enqueueLoop cfg ch dev idxs (r :: rs) s = some (s', ok)) :
    s.opsEnqdTotal < idxs.length ∧
      ((r.pool = none ∧ rs = [] ∧ s' = s ∧ ok = false) ∨
        ∃ ops s1, r.pool = some ops ∧ enqueueRound cfg ch dev idxs ops r s = some s1 ∧
          enqueueLoop cfg ch dev idxs rs s1 = some (s', ok)) := by
  rw [enqueueLoop] at h
  -- what a pass does plays no part here
  obtain ⟨round, heq⟩ : ∃ round, enqueueRound cfg ch dev idxs = round := ⟨_, rfl⟩
  rw [heq] at h ⊢
  by_cases hlt : s.opsEnqdTotal < idxs.length
  · rw [if_pos hlt] at h
    refine ⟨hlt, ?_⟩
    cases hpool : r.pool with
    | none =>
        rw [hpool] at h
        split_ifs at h with hrs
        obtain ⟨rfl, rfl⟩ := Prod.mk.inj (Option.some.inj h)
        exact .inl ⟨rfl, List.isEmpty_iff.mp hrs, rfl, rfl⟩
    | some ops =>
        rw [hpool] at h
        cases hround : round ops r s with
        | none => simp [hround] at h
        | some s1 =>
            simp only [hround] at h
            exact .inr ⟨ops, s1, rfl, hround, h⟩
  · simp [if_neg hlt] at h

lemma enqueueLoop_of_round {r : Round} {rs : List Round} {s s1 : Inner} {ops : ℕ → CryptoOp}
    (hlt : s.opsEnqdTotal < idxs.length) (hpool : r.pool = some ops)
    (hround : enqueueRound cfg ch dev idxs ops r s = some s1) :
    enqueueLoop cfg ch dev idxs (r :: rs) s = enqueueLoop cfg ch dev idxs rs s1 := by
  rw [enqueueLoop, if_pos hlt]
  -- what a pass does plays no part here
  obtain ⟨round, heq⟩ : ∃ round, enqueueRound cfg ch dev idxs = round := ⟨_, rfl⟩
  rw [heq] at hround ⊢
  simp only [hpool, hround]

lemma drainLoop_nil {s s' : Inner} (h : drainLoop cfg dev idxs [] s = some s') :
    idxs.length ≤ s.opsDeqdTotal ∧ s' = s := by
  rw [drainLoop] at h
  split_ifs at h with hlt
  exact ⟨not_lt.mp hlt, (Option.some.inj h).symm⟩

lemma drainLoop_cons {d : List Return} {ds : List (List Return)} {s s' : Inner}
    (h : drainLoop cfg dev idxs (d :: ds) s = some s') :
    ∃ s1, collect dev idxs cfg.drainAsked d s = some s1 ∧
      drainLoop cfg dev idxs ds s1 = some s' := by
  rw [drainLoop] at h
  split_ifs at h
  cases hcollect : collect dev idxs cfg.drainAsked d s with
  | none => simp [hcollect] at h
  | some s1 =>
      simp only [hcollect] at h
      exact ⟨s1, rfl, h⟩

/-- **A call of `run_jobs_inner`** ends where the pool refused, or behind the draining loop. -/
lemma runJobsInner_cases {script : DevScript} {r r' : Run} {ok : Bool}
    (h : runJobsInner cfg ch dev idxs script r = some (r', ok)) :
    (∃ s, enqueueLoop cfg ch dev idxs script.rounds ⟨r, 0, 0, 0⟩ = some (s, false) ∧
        script.drain = [] ∧ s.run = r' ∧ ok = false) ∨
      ∃ s s', enqueueLoop cfg ch dev idxs script.rounds ⟨r, 0, 0, 0⟩ = some (s, true) ∧
        drainLoop cfg dev idxs script.drain s = some s' ∧ s'.run = r' ∧ ok = true := by
  rw [runJobsInner] at h
  split at h
  · simp at h
  · rename_i s hs
    split_ifs at h with hdrain
    obtain ⟨hr, hok⟩ := Prod.mk.inj (Option.some.inj h)
    exact .inl ⟨s, hs, List.isEmpty_iff.mp hdrain, hr, hok.symm⟩
  · rename_i s hs
    obtain ⟨s', hs', heq⟩ := Option.map_eq_some_iff.mp h
    obtain ⟨hr, hok⟩ := Prod.mk.inj heq
    exact .inr ⟨s, s', hs, hs', hr, hok.symm⟩

lemma enqueueLoop_steps {rs : List Round} {s s' : Inner} {ok : Bool}
    (hu : s.UnusedFit cfg idxs.length)
    (h : enqueueLoop cfg ch dev idxs rs s = some (s', ok)) :
    ReflTransGen (DevStep cfg ch dev idxs) s.run s'.run := by
  induction rs generalizing s with
  | nil =>
      obtain ⟨-, rfl, -⟩ := enqueueLoop_nil h
      exact .refl
  | cons r rs ih =>
      obtain ⟨-, ⟨-, -, rfl, -⟩ | ⟨ops, s1, -, hs1, hrest⟩⟩ := enqueueLoop_cons h
      · exact .refl
      · obtain ⟨hsteps, hu1⟩ := enqueueRound_steps hu hs1
        exact hsteps.trans (ih hu1 hrest)

lemma drainLoop_steps {ds : List (List Return)} {s s' : Inner}
    (h : drainLoop cfg dev idxs ds s = some s') :
    ReflTransGen (DevStep cfg ch dev idxs) s.run s'.run := by
  induction ds generalizing s with
  | nil =>
      obtain ⟨-, rfl⟩ := drainLoop_nil h
      exact .refl
  | cons d ds ih =>
      obtain ⟨s1, hs1, hrest⟩ := drainLoop_cons h
      exact (collect_steps hs1).trans (ih hrest)

/-- A call of `run_jobs_inner` is a sequence of device calls. -/
lemma runJobsInner_steps {script : DevScript} {r r' : Run} {ok : Bool}
    (h : runJobsInner cfg ch dev idxs script r = some (r', ok)) :
    ReflTransGen (DevStep cfg ch dev idxs) r r' := by
  have hu : Inner.UnusedFit cfg idxs.length ⟨r, 0, 0, 0⟩ := fun _ => Nat.zero_le _
  obtain ⟨s, hs, -, rfl, -⟩ | ⟨s, s', hs, hs', rfl, -⟩ := runJobsInner_cases h
  · exact enqueueLoop_steps hu hs
  · exact (enqueueLoop_steps hu hs).trans (drainLoop_steps hs')

/-- **The last round of the device loop**: a device without jobs is left alone, and for another one
`run_jobs_inner` is called. -/
lemma runDevices_succ {script : ℕ → DevScript} {idxs : ℕ → List ℕ} {n : ℕ} {r r' : Run}
    (h : runDevices cfg ch script idxs (n + 1) r = some r') :
    ∃ r1, runDevices cfg ch script idxs n r = some r1 ∧
      ((idxs n = [] ∧ r1 = r') ∨ idxs n ≠ [] ∧ ∃ ok,
        runJobsInner cfg ch (cfg.enabledCdevs n).cdevId (idxs n) (script n) r1 =
          some (r', ok)) := by
  rw [runDevices] at h
  obtain ⟨r1, h1, h2⟩ := Option.bind_eq_some_iff.mp h
  refine ⟨r1, h1, ?_⟩
  split_ifs at h2 with hnil
  · exact .inl ⟨hnil, Option.some.inj h2⟩
  · obtain ⟨⟨r2, ok⟩, hin, rfl⟩ := Option.map_eq_some_iff.mp h2
    exact .inr ⟨hnil, ok, hin⟩

/-- **The invariant rule of the device loop.**  What every device call keeps, the loop keeps. -/
lemma runDevices_induct {script : ℕ → DevScript} {idxs : ℕ → List ℕ} {Q : Run → Prop} {N : ℕ}
    (hstep : ∀ n < N, ∀ r r', DevStep cfg ch (cfg.enabledCdevs n).cdevId (idxs n) r r' →
      Q r → Q r') {r r' : Run} (h : runDevices cfg ch script idxs N r = some r') (hr : Q r) :
    Q r' := by
  induction N generalizing r' with
  | zero =>
      simp only [runDevices, Option.some.injEq] at h
      rwa [← h]
  | succ N ih =>
      obtain ⟨r1, h1, ⟨-, rfl⟩ | ⟨-, ok, hin⟩⟩ := runDevices_succ h
      · exact ih (fun n hn => hstep n (by omega)) h1
      · have hr1 := ih (fun n hn => hstep n (by omega)) h1
        exact run_induct (hstep N (by omega)) (runJobsInner_steps hin) hr1

lemma DevStep.sessions {r r' : Run} (h : DevStep cfg ch dev idxs r r') :
    r'.cl.registry = r.cl.registry ∧ r'.cl.pool = r.cl.pool := by
  cases h <;> exact ⟨rfl, rfl⟩

lemma runDevices_sessions {script : ℕ → DevScript} {idxs : ℕ → List ℕ} {N : ℕ} {r r' : Run}
    (h : runDevices cfg ch script idxs N r = some r') :
    r'.cl.registry = r.cl.registry ∧ r'.cl.pool = r.cl.pool :=
  runDevices_induct (Q := fun t => t.cl.registry = r.cl.registry ∧ t.cl.pool = r.cl.pool)
    (fun _ _ _ _ hs ht => ⟨hs.sessions.1.trans ht.1, hs.sessions.2.trans ht.2⟩) h ⟨rfl, rfl⟩

end DevSteps

/-! ## `run_jobs` -/

/-- A call of `run_jobs` with jobs in it has three phases. -/
lemma runJobs_phases {cfg : Config} {ch : ℕ} {script : Script} {heap : Heap} {jobs : Jobs}
    {size : ℕ} {cl : Client} {r : Run} (h : runJobs cfg ch script heap jobs size cl = some r)
    (hsize : size ≠ 0) :
    ∃ r1, runDevices cfg ch script.dev (scan cfg heap ch script jobs cl size).idxs
        cfg.nbCryptodevs ((scan cfg heap ch script jobs cl size).start heap) = some r1 ∧
      r = finishJobs cfg ch script size r1 := by
  rw [runJobs, if_neg hsize] at h
  obtain ⟨r1, h1, rfl⟩ := Option.map_eq_some_iff.mp h
  exact ⟨r1, h1, rfl⟩

lemma runJobs_zero {cfg : Config} {ch : ℕ} {script : Script} {heap : Heap} {jobs : Jobs}
    {cl : Client} {r : Run} (h : runJobs cfg ch script heap jobs 0 cl = some r) :
    r = ⟨cl, jobs, heap, [], [], [], []⟩ := by
  simpa [runJobs] using h.symm

end CiphApp
