import CiphApp.Lib.Ownership
import CiphApp.Cryptodev.Steps

/-!
# Session ownership

Session objects come from a pool that all connections share.  `create_session` has four exits
with different cleanup duties, sessions are removed in two places, and any 32-bit id a client
sends reaches the same arrays.  `SessInv` says that the registry owns exactly the objects that are
out of the pool (`Lib.Owns`) and that each of them was initialised on the device of its row; it is
proved for one pass of each loop and lifted to bursts, connection cleanups and whole runs.

A run is a sequence of calls of `run_jobs` and `cleanup_conn`.  The session pool is honest if it
never hands out an object that is in use and takes back what is given back.
-/

namespace CiphApp

open Lib Relation

/-! ## Runs of the client -/

/-- A call of `run_jobs` and what it meets: the channel and the jobs it is called with, the memory
they are in, and the answers of the session pool, the op pool and the devices.  Together with the
state of the client this determines the run (`BurstCall.run`). -/
structure BurstCall where
  ch : ℕ
  script : Script
  heap : Heap
  jobs : Jobs
  size : ℕ

/-- The result of the call, if the script is one of its executions. -/
def BurstCall.run (x : BurstCall) (cfg : Config) (cl : Client) : Option Run :=
  runJobs cfg x.ch x.script x.heap x.jobs x.size cl

/-- The state of the scan before job `i`. -/
def BurstCall.scan (x : BurstCall) (cfg : Config) (cl : Client) (i : ℕ) : Burst :=
  CiphApp.scan cfg x.heap x.ch x.script x.jobs cl i

/-- `MAX_JOBS_BURST_SIZE`. -/
def maxJobsBurstSize : ℕ := 64

/-- What is assumed of the environment of a run: of each burst in the state it starts from, and
of the answers during a cleanup. -/
structure Assumption where
  burst : BurstCall → Client → Prop
  cleanup : (ℕ → ℕ → ReleaseAns) → Prop

/-- **One step of the client**: a burst on some channel, or the cleanup of a channel. -/
inductive ClientStep (cfg : Config) (A : Assumption) (cl : Client) : Client → Prop
  | burst (x : BurstCall) (r : Run) (hch : x.ch < maxChannelNum)
      (hsize : x.size ≤ maxJobsBurstSize) (hx : A.burst x cl) (hrun : x.run cfg cl = some r) :
      ClientStep cfg A cl r.cl
  | cleanup (ch : ℕ) (ans : ℕ → ℕ → ReleaseAns) (hch : ch < maxChannelNum)
      (hans : A.cleanup ans) : ClientStep cfg A cl (cleanupConn cfg ch ans cl)

/-- The states a run can reach from the state after `init`. -/
def Reachable (cfg : Config) (A : Assumption) (cl : Client) : Prop :=
  ReflTransGen (ClientStep cfg A) Client.init cl

/-- The session pool is honest during a burst: a creation is never answered with an object that
is in use at that moment, and clearing and freeing a session succeeds. -/
structure HonestPool (cfg : Config) (x : BurstCall) (cl : Client) : Prop where
  create : ∀ i < x.size, (x.jobs i).op.opType = cryptoOpTypeSessCreate →
    ∀ s, (x.script.sess i).create = some s → s ∉ (x.scan cfg cl i).cl.pool.out
  release : ∀ i < x.size, (x.script.sess i).release = ⟨true, true⟩

/-- The session pool is honest during a whole run. -/
def honestPool (cfg : Config) : Assumption where
  burst := HonestPool cfg
  cleanup := fun ans => ∀ dev i, ans dev i = ⟨true, true⟩

/-! ## What happens to the sessions -/

/-- **One change to the sessions of channel `ch`.**  If the pool is honest, a new object was not
in use and a released one is taken back. -/
inductive SessStep (cfg : Config) (honest : Prop) (ch : ℕ) (cl : Client) : Client → Prop
  | keep (cl' : Client) (hr : cl'.registry = cl.registry) (hp : cl'.pool = cl.pool) :
      SessStep cfg honest ch cl cl'
  | add (s : SessPtr) (slot : ℕ) (v : Session) (algo : UInt32) (hs : honest → s ∉ cl.pool.out)
      (halgo : algo < cryptoCipherAlgoLast) (hdev : v.cdevId = cfg.algo2cdevIdMap algo)
      (hx : v.xform.algo = crypto2rteCipherAlgoMap algo) (hslot : slot < maxSessNum)
      (hfree : cl.registry.load ch v.cdevId.toNat slot = none) :
      SessStep cfg honest ch cl (cl.addSession ch slot s v)
  | bounce (ans : SessAns) (p : SessPool) (hp : SessPool.Bounced ans cl.pool p)
      (hs : honest → ans.release = ⟨true, true⟩ ∧ ∀ s, ans.create = some s → s ∉ cl.pool.out) :
      SessStep cfg honest ch cl { cl with pool := p }
  | release (ans : ReleaseAns) (dev i : ℕ) (s : SessPtr) (hs : cl.registry ch dev i = some s)
      (hans : honest → ans = ⟨true, true⟩) :
      SessStep cfg honest ch cl
        { cl with registry := cl.registry.set ch dev i none, pool := cl.pool.release s ans }

section Lift

variable {cfg : Config} {honest : Prop} {ch : ℕ}

lemma PreStep.sess {heap : Heap} {ans : SessAns} {i : ℕ} {b b' : Burst}
    (h : PreStep cfg heap ch ans i b b')
    (hans : honest → (b.jobs i).op.opType = cryptoOpTypeSessCreate →
      ∀ s, ans.create = some s → s ∉ b.cl.pool.out)
    (hrel : honest → ans.release = ⟨true, true⟩) :
    ReflTransGen (SessStep cfg honest ch) b.cl b'.cl := by
  cases h with
  | inAgent => exact .single (.keep _ rfl rfl)
  | created s slot _ ht halgo hcreate hslot hfree =>
      exact .single (.add s slot _ _ (fun hh => hans hh ht s hcreate) halgo rfl rfl hslot hfree)
  | notCreated p _ ht hp =>
      exact .tail (.single (.bounce ans p hp fun hh => ⟨hrel hh, hans hh ht⟩)) (.keep _ rfl rfl)
  | close => exact .refl
  | notLive => exact .single (.keep _ rfl rfl)
  | listed => exact .single (.keep _ rfl rfl)
  | unknown => exact .single (.keep _ rfl rfl)

lemma PostStep.sess {ans : ReleaseAns} {i : ℕ} {s s' : Client × Jobs}
    (h : PostStep cfg ch ans i s s') (hans : honest → ans = ⟨true, true⟩) :
    ReflTransGen (SessStep cfg honest ch) s.1 s'.1 := by
  cases h with
  | removed p _ hget =>
      exact .single (.release ans _ _ p (getSession_eq_some.mp hget).2.2 hans)
  | notLive => exact .single (.keep _ rfl rfl)
  | other => exact .refl

/-- The scan of a burst changes the sessions of its channel. -/
lemma scan_sess {x : BurstCall} {cl : Client} (hx : honest → HonestPool cfg x cl) {i : ℕ}
    (hi : i ≤ x.size) : ReflTransGen (SessStep cfg honest x.ch) cl (x.scan cfg cl i).cl := by
  induction i with
  | zero => exact .single (.keep _ rfl rfl)
  | succ i ih =>
      refine (ih (by omega)).trans ((preStep cfg x.heap x.ch _ i _).sess ?_ ?_)
      · intro hh ht s hs
        have hjob : (x.scan cfg cl i).jobs i = x.jobs i := scan_jobs_of_le le_rfl
        exact (hx hh).create i (by omega) (hjob ▸ ht) s hs
      · exact fun hh => (hx hh).release i (by omega)

lemma postprocessJobs_sess {ans : ℕ → ReleaseAns} {size : ℕ}
    (hans : honest → ∀ i < size, ans i = ⟨true, true⟩) (s : Client × Jobs) :
    ReflTransGen (SessStep cfg honest ch) s.1 (postprocessJobs cfg ch ans size s).1 :=
  forUpTo_induct (P := fun _ t => ReflTransGen (SessStep cfg honest ch) s.1 t.1) .refl
    fun i t hi ht => ht.trans ((postStep cfg ch (ans i) i t).sess fun hh => hans hh i hi)

/-- **A burst** is a sequence of changes to the sessions of its own channel. -/
lemma run_sess {x : BurstCall} {cl : Client} {r : Run} (hx : honest → HonestPool cfg x cl)
    (h : x.run cfg cl = some r) : ReflTransGen (SessStep cfg honest x.ch) cl r.cl := by
  by_cases hsize : x.size = 0
  · rw [BurstCall.run, hsize] at h
    rw [runJobs_zero h]
  · obtain ⟨r1, h1, rfl⟩ := runJobs_phases h hsize
    obtain ⟨hr, hp⟩ := runDevices_sessions h1
    refine ((scan_sess hx le_rfl).tail (.keep r1.cl hr hp)).trans ?_
    exact (postprocessJobs_sess (fun hh i hi => (hx hh).release i hi) (r1.cl, r1.jobs)).tail
      (.keep (finishJobs cfg x.ch x.script x.size r1).cl rfl rfl)

lemma releaseSlot_sess {ans : ReleaseAns} (hans : honest → ans = ⟨true, true⟩) (dev i : ℕ)
    (cl : Client) : ReflTransGen (SessStep cfg honest ch) cl (releaseSlot ch dev i ans cl) := by
  unfold releaseSlot
  split
  · exact .refl
  · rename_i s hs
    exact .single (.release ans dev i s hs hans)

/-- **A cleanup** is one as well. -/
lemma cleanupConn_sess {ans : ℕ → ℕ → ReleaseAns}
    (hans : honest → ∀ dev i, ans dev i = ⟨true, true⟩) (cl : Client) :
    ReflTransGen (SessStep cfg honest ch) cl (cleanupConn cfg ch ans cl) :=
  forUpTo_induct (P := fun _ t => ReflTransGen (SessStep cfg honest ch) cl t) .refl
    fun dev _ _ ht => forUpTo_induct (P := fun _ t => ReflTransGen (SessStep cfg honest ch) cl t)
      ht fun i _ _ hu => hu.trans (releaseSlot_sess (fun hh => hans hh dev i) dev i _)

end Lift

/-! ## The invariant -/

/-- The registry owns what is out of the pool, and every session was initialised on the device
of its row. -/
structure SessInv (cl : Client) : Prop where
  owns : Owns cl.registry.cells cl.pool.out
  data : ∀ ch dev i s, cl.registry ch dev i = some s →
    ∃ v, cl.pool.data s = some v ∧ v.cdevId.toNat = dev

lemma SessInv.init : SessInv Client.init :=
  ⟨Owns.empty, fun _ _ _ _ h => by simp [Client.init] at h⟩

lemma SessInv.congr {cl cl' : Client} (h : SessInv cl) (hr : cl'.registry = cl.registry)
    (hp : cl'.pool = cl.pool) : SessInv cl' := by
  obtain ⟨ho, hd⟩ := h
  constructor
  · rwa [hr, hp]
  · rwa [hr, hp]

lemma SessInv.addSession {cl : Client} (h : SessInv cl) {ch slot : ℕ} {s : SessPtr} {v : Session}
    (hv : v.cdevId.toNat < maxDevNum) (hs : s ∉ cl.pool.out)
    (hfree : cl.registry.load ch v.cdevId.toNat slot = none) :
    SessInv (cl.addSession ch slot s v) := by
  rw [Registry.load_of_lt _ hv] at hfree
  constructor
  · simp only [Client.addSession, Registry.store_of_lt _ hv, Registry.cells_set]
    exact h.owns.insert hfree hs
  · intro ch' dev' i' t ht
    simp only [Client.addSession, Registry.store_of_lt _ hv, Registry.set_apply] at ht
    simp only [Client.addSession, SessPool.init, SessPool.take]
    split_ifs at ht with hc
    · obtain rfl : s = t := by simpa using ht
      exact ⟨v, by simp, hc.2.1.symm⟩
    · -- another cell holds another object, whose contents are not touched
      have hts : t ≠ s := by
        rintro rfl
        exact h.owns.not_held hs (ch', dev', i') ht
      obtain ⟨w, hw, hdev⟩ := h.data ch' dev' i' t ht
      exact ⟨w, by simp [Function.update_of_ne hts, hw], hdev⟩

lemma SessInv.release {cl : Client} (h : SessInv cl) {ch dev i : ℕ} {s : SessPtr}
    (hs : cl.registry ch dev i = some s) :
    SessInv { cl with
      registry := cl.registry.set ch dev i none
      pool := cl.pool.release s ⟨true, true⟩ } := by
  constructor
  · simp only [Registry.cells_set, SessPool.release, if_true]
    exact h.owns.erase hs
  · intro ch' dev' i' t ht
    simp only [Registry.set_apply] at ht
    split_ifs at ht with hc
    have hts : t ≠ s := by
      rintro rfl
      have := h.owns.inj (c := (ch', dev', i')) (d := (ch, dev, i)) ht hs
      simp only [Prod.mk.injEq] at this
      exact hc this
    obtain ⟨w, hw, hdev⟩ := h.data ch' dev' i' t ht
    exact ⟨w, by simp [SessPool.release, Function.update_of_ne hts, hw], hdev⟩

lemma SessInv.bounced {cl : Client} (h : SessInv cl) {ans : SessAns} {p : SessPool}
    (hp : SessPool.Bounced ans cl.pool p) (hans : ans.release = ⟨true, true⟩)
    (hs : ∀ s, ans.create = some s → s ∉ cl.pool.out) : SessInv { cl with pool := p } := by
  cases hp with
  | untouched => exact h
  | released s q hcreate hout hdata =>
      have hfresh := hs s hcreate
      constructor
      · have : (q.release s ans.release).out = cl.pool.out := by
          simp [SessPool.release, hans, hout, Finset.erase_insert hfresh]
        rw [this]
        exact h.owns
      · intro ch dev i t ht
        have hts : t ≠ s := by
          rintro rfl
          exact h.owns.not_held hfresh (ch, dev, i) ht
        obtain ⟨w, hw, hdev⟩ := h.data ch dev i t ht
        refine ⟨w, ?_, hdev⟩
        simp [SessPool.release, hans, Function.update_of_ne hts, hdata t hts, hw]

lemma SessInv.step {cfg : Config} (hfit : cfg.DevicesFit) {ch : ℕ} {cl cl' : Client}
    (hs : SessStep cfg True ch cl cl') (h : SessInv cl) : SessInv cl' := by
  cases hs with
  | keep _ hr hp => exact h.congr hr hp
  | add s slot v algo hfresh _ hdev _ _ hfree =>
      exact h.addSession (hdev ▸ hfit algo) (hfresh trivial) hfree
  | bounce ans p hp hfresh => exact h.bounced hp (hfresh trivial).1 (hfresh trivial).2
  | release ans dev i s hs hans =>
      obtain rfl := hans trivial
      exact h.release hs

/-- Every session sits in the array: its channel exists, its device is one of the two and its
slot is below `MAX_SESS_NUM`. -/
def InArray (cl : Client) : Prop :=
  ∀ ch dev i s, cl.registry ch dev i = some s → ch < maxChannelNum ∧ dev < 2 ∧ i < maxSessNum

lemma InArray.step {cfg : Config} (hfit : cfg.DevicesFit) {honest : Prop} {ch : ℕ}
    {cl cl' : Client} (hch : ch < maxChannelNum) (hs : SessStep cfg honest ch cl cl')
    (h : InArray cl) :
    InArray cl' := by
  cases hs with
  | keep _ hr hp =>
      intro ch' dev i s hs
      rw [hr] at hs
      exact h ch' dev i s hs
  | add s slot v algo _ _ hdev _ hslot _ =>
      intro ch' dev i t ht
      have hv : v.cdevId.toNat < maxDevNum := hdev ▸ hfit algo
      simp only [Client.addSession, Registry.store_of_lt _ hv, Registry.set_apply] at ht
      split_ifs at ht with hc
      · obtain ⟨rfl, rfl, rfl⟩ := hc
        exact ⟨hch, hv, hslot⟩
      · exact h ch' dev i t ht
  | bounce => exact h
  | release ans dev i s _ _ =>
      intro ch' dev' i' t ht
      simp only [Registry.set_apply] at ht
      split_ifs at ht with hc
      exact h ch' dev' i' t ht

/-- A change on one channel leaves the slots of the others alone. -/
lemma SessStep.other_channel {cfg : Config} (hfit : cfg.DevicesFit) {honest : Prop} {ch ch' : ℕ}
    {cl cl' : Client} (hs : SessStep cfg honest ch cl cl') (hne : ch' ≠ ch) :
    cl'.registry ch' = cl.registry ch' := by
  cases hs with
  | keep _ hr hp => rw [hr]
  | add s slot v algo _ _ hdev =>
      simp only [Client.addSession]
      rw [Registry.store_of_lt _ (hdev ▸ hfit algo)]
      exact Registry.set_of_ne_channel _ _ _ _ hne
  | bounce => rfl
  | release => exact Registry.set_of_ne_channel _ _ _ _ hne

/-- **The invariant rule of a run with an honest pool.**  What every change to the sessions keeps
holds in every state that is reached. -/
lemma Reachable.induct {cfg : Config} {Q : Client → Prop} (h0 : Q Client.init)
    (hstep : ∀ ch < maxChannelNum, ∀ cl cl', SessStep cfg True ch cl cl' → Q cl → Q cl')
    {cl : Client} (h : Reachable cfg (honestPool cfg) cl) : Q cl := by
  refine run_induct (fun cl cl' hs hq => ?_) h h0
  cases hs with
  | burst x r hch hsize hx hrun =>
      exact run_induct (hstep x.ch hch) (run_sess (fun _ => hx) hrun) hq
  | cleanup ch ans hch hans =>
      exact run_induct (hstep ch hch) (cleanupConn_sess (fun _ => hans) cl) hq

lemma Reachable.sessInv {cfg : Config} (hfit : cfg.DevicesFit) {cl : Client}
    (h : Reachable cfg (honestPool cfg) cl) : SessInv cl :=
  h.induct SessInv.init fun _ _ _ _ hs => SessInv.step hfit hs

/-- A burst stays on its channel, if the devices fit the registry. -/
lemma run_other_channel {cfg : Config} (hfit : cfg.DevicesFit) {x : BurstCall} {cl : Client}
    {r : Run} (h : x.run cfg cl = some r) {ch : ℕ} (hne : ch ≠ x.ch) :
    r.cl.registry ch = cl.registry ch := by
  have hs : ReflTransGen (SessStep cfg False x.ch) cl r.cl := run_sess (fun hh => hh.elim) h
  exact run_induct (Q := fun t => t.registry ch = cl.registry ch)
    (fun _ _ hs ht => (hs.other_channel hfit hne).trans ht) hs rfl

lemma releaseSlot_registry (ch dev i : ℕ) (ans : ReleaseAns) (cl : Client) :
    (releaseSlot ch dev i ans cl).registry = cl.registry.set ch dev i none := by
  unfold releaseSlot
  split
  · rename_i hnone
    funext ch' dev' i'
    rw [Registry.set_apply]
    split_ifs with hc
    · rw [hc.1, hc.2.1, hc.2.2, hnone]
    · rfl
  · rfl

/-- The loops of `remove_all_sessions`, for any numbers of rows and slots. -/
lemma releaseSlots_registry (n m ch : ℕ) (ans : ℕ → ℕ → ReleaseAns) (cl : Client)
    {ch' dev i : ℕ} :
    (forUpTo n (fun dev cl => forUpTo m (fun i cl => releaseSlot ch dev i (ans dev i) cl) cl)
      cl).registry ch' dev i =
      if ch' = ch ∧ dev < n ∧ i < m then none else cl.registry ch' dev i := by
  have hrow : ∀ (d : ℕ) (t : Client),
      (forUpTo m (fun i cl => releaseSlot ch d i (ans d i) cl) t).registry ch' dev i =
        if ch' = ch ∧ dev = d ∧ i < m then none else t.registry ch' dev i := by
    intro d t
    refine forUpTo_induct (P := fun k (u : Client) => u.registry ch' dev i =
      if ch' = ch ∧ dev = d ∧ i < k then none else t.registry ch' dev i) (by simp) ?_
    intro k u _ hu
    rw [releaseSlot_registry, Registry.set_apply, hu]
    by_cases hc : ch' = ch ∧ dev = d
    · by_cases hik : i = k
      · simp [hc, hik]
      · have : i < k + 1 ↔ i < k := by omega
        simp [hc, hik, this]
    · have h1 : ¬(ch' = ch ∧ dev = d ∧ i = k) := fun h => hc ⟨h.1, h.2.1⟩
      have h2 : ∀ l, ¬(ch' = ch ∧ dev = d ∧ i < l) := fun l h => hc ⟨h.1, h.2.1⟩
      simp only [if_neg h1, if_neg (h2 _)]
  refine forUpTo_induct (P := fun k (u : Client) => u.registry ch' dev i =
    if ch' = ch ∧ dev < k ∧ i < m then none else cl.registry ch' dev i) (by simp) ?_
  intro k u _ hu
  rw [hrow, hu]
  by_cases hc : ch' = ch ∧ i < m
  · by_cases hdk : dev = k
    · simp [hc, hdk]
    · have : dev < k + 1 ↔ dev < k := by omega
      simp [hc, hdk, this]
  · have h1 : ¬(ch' = ch ∧ dev = k ∧ i < m) := fun h => hc ⟨h.1, h.2.2⟩
    have h2 : ∀ l, ¬(ch' = ch ∧ dev < l ∧ i < m) := fun l h => hc ⟨h.1, h.2.2⟩
    simp only [if_neg h1, if_neg (h2 _)]

/-- A cleanup stays on its channel, whatever the device numbers are. -/
lemma cleanupConn_other_channel (cfg : Config) {c ch : ℕ} (ans : ℕ → ℕ → ReleaseAns)
    (cl : Client) (hne : ch ≠ c) :
    (cleanupConn cfg c ans cl).registry ch = cl.registry ch := by
  funext dev i
  rw [cleanupConn, removeAllSessions, releaseSlots_registry, if_neg fun h => hne h.1]

/-! ## Ownership -/

/-- The occupied cells of the array. -/
def occupied (cl : Client) : Finset (ℕ × ℕ × ℕ) :=
  (Finset.range maxChannelNum ×ˢ Finset.range 2 ×ˢ Finset.range maxSessNum).filter
    fun c => cl.registry.cells c ≠ none

lemma InArray.coe_occupied {cl : Client} (h : InArray cl) :
    (occupied cl : Set (ℕ × ℕ × ℕ)) = {c | cl.registry.cells c ≠ none} := by
  ext ⟨ch, dev, i⟩
  simp only [occupied, Finset.coe_filter, Finset.mem_product, Finset.mem_range, Set.mem_ofPred_eq,
    and_iff_right_iff_imp]
  intro hc
  obtain ⟨s, hs⟩ := Option.ne_none_iff_exists'.mp hc
  exact h ch dev i s hs

lemma devicesFit_ofDevices {a s : UInt8} (ha : a.toNat < maxDevNum) (hs : s.toNat < maxDevNum)
    (maxBurstSize : UInt32) (behind : UInt32 → RteCipherOp) :
    (Config.ofDevices a s maxBurstSize behind).DevicesFit := by
  intro algo
  simp only [Config.ofDevices]
  split_ifs
  · exact ha
  · exact hs
  · decide

/-- **Session ownership and channel isolation.**  With devices 0 and 1 and an honest session pool,
in every state a run reaches: each object that is out of the pool is in exactly one cell; each
occupied cell is in the array and holds an object that is out and was initialised on the device of
the cell's row; as many objects are out as cells are occupied; and neither a burst nor a cleanup
on one channel changes a cell of another. -/
theorem sessions_owned (aes snow : List UInt8) (maxBurstSize : UInt32)
    (behind : UInt32 → RteCipherOp) (cfg : Config)
    (hcfg : initInner (0 :: aes) (1 :: snow) maxBurstSize behind = some cfg) (cl : Client)
    (h : Reachable cfg (honestPool cfg) cl) :
    (∀ s ∈ cl.pool.out, ∃! c, cl.registry.cells c = some s) ∧
    (∀ ch dev i s, cl.registry ch dev i = some s →
      (ch < 32 ∧ dev < 2 ∧ i < 16000) ∧ s ∈ cl.pool.out ∧
        ∃ v, cl.pool.data s = some v ∧ v.cdevId.toNat = dev) ∧
    cl.pool.out.card = (occupied cl).card ∧
    (∀ (x : BurstCall) (r : Run), x.run cfg cl = some r →
      ∀ ch ≠ x.ch, r.cl.registry ch = cl.registry ch) ∧
    (∀ c ans, ∀ ch ≠ c, (cleanupConn cfg c ans cl).registry ch = cl.registry ch) := by
  obtain rfl : Config.ofDevices 0 1 maxBurstSize behind = cfg := by simpa [initInner] using hcfg
  have hfit := devicesFit_ofDevices (a := 0) (s := 1) (by decide) (by decide) maxBurstSize behind
  have hinv := h.sessInv hfit
  have harr : InArray cl :=
    h.induct (fun _ _ _ _ h => by simp [Client.init] at h) fun ch hch _ _ hs =>
      InArray.step hfit hch hs
  refine ⟨hinv.owns.cell, ?_, ?_, ?_, ?_⟩
  · intro ch dev i s hs
    exact ⟨harr ch dev i s hs, hinv.owns.held (ch, dev, i) s hs, hinv.data ch dev i s hs⟩
  · rw [← hinv.owns.ncard_eq, ← harr.coe_occupied, Set.ncard_coe_finset]
  · intro x r hrun ch hne
    exact run_other_channel hfit hrun hne
  · intro c ans ch hne
    exact cleanupConn_other_channel _ ans cl hne

/-- The tables for AES device `a` and SNOW3G device `s`, with bursts of up to 64. -/
def sampleConfig (a s : UInt8) : Config := Config.ofDevices a s 64 fun _ => .encrypt

/-- A job of the given type, session id and algorithm, with 16 bytes of payload and of IV. -/
def sampleJob (opType sessId cipherAlgo : UInt32) : CryptoOperation where
  op := ⟨cryptoOpStatusNotProcessed, 0, 4096, 16, 0, opType, sessId, cipherAlgo,
    cryptoCipherOpEncrypt, 0⟩
  cipherBuffList := ⟨1, fun _ => ⟨16, ⟨.resp 0, 108⟩⟩⟩
  cipherKey := ⟨16, ⟨.resp 0, 9108⟩⟩
  cipherIv := ⟨16, ⟨.resp 0, 9124⟩⟩

/-- A burst of one job on channel 0 that creates a session; the pool answers with object 7. -/
def createCall (cipherAlgo : UInt32) : BurstCall where
  ch := 0
  script := ⟨fun _ => ⟨some 7, true, ⟨true, true⟩⟩, fun _ => ⟨[], []⟩⟩
  heap := ⟨fun _ _ => 0, []⟩
  jobs := fun _ => sampleJob cryptoOpTypeSessCreate 0 cipherAlgo
  size := 1

lemma createCall_honest (cfg : Config) (cipherAlgo : UInt32) :
    HonestPool cfg (createCall cipherAlgo) Client.init := by
  constructor
  · intro i hi _ s _
    obtain rfl : i = 0 := by simpa [createCall] using hi
    simp [BurstCall.scan, scan, sortJobs, preprocessJobs, Client.init]
  · intro i _
    rfl

/-- After one session was created, one object is out and one cell is occupied. -/
theorem sessions_owned_created :
    ∃ r, (createCall cryptoCipherAesCtr).run (sampleConfig 0 1) Client.init = some r ∧
      r.cl.pool.out = {7} ∧ (occupied r.cl).card = 1 := by
  obtain ⟨r, hr, hout⟩ :
      ∃ r, (createCall cryptoCipherAesCtr).run (sampleConfig 0 1) Client.init = some r ∧
        r.cl.pool.out = {7} := ⟨_, rfl, rfl⟩
  have hreach : Reachable (sampleConfig 0 1) (honestPool (sampleConfig 0 1)) r.cl :=
    .single (.burst _ r (by decide) (by decide) (createCall_honest _ _) hr)
  refine ⟨r, hr, hout, ?_⟩
  rw [← (sessions_owned [] [] 64 _ _ rfl r.cl hreach).2.2.1, hout]
  rfl

end CiphApp
