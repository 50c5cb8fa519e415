import CiphApp.Cryptodev.Passes
import CiphApp.Cryptodev.PoolObject

/-!
# Whose result it is

A call of `run_jobs_inner` on an idle device that keeps the order of the operations.  Results are
matched to jobs by the running number `ops_deqd_total` only; as long as the list fits one burst and
the burst is accepted whole, the operation that comes back at position `p` is the one that was
prepared for the job at position `p`, in whatever portions the device returns them, and all
operations that were taken from the pool are given back (`inner_attributed`).

A list that is longer than a burst is cut into chunks, but every chunk is prepared from the front of
the list: the first jobs are submitted again and again, and the others never.  And the loop that
collects the last results passes the burst size as a 16-bit number, so a multiple of 2¹⁶ asks for
nothing.  `burstSizeIrrelevant_iff` puts the two together, over all devices that accept what they
are offered and go on handing out what they hold (`SteadyDevice`): the burst size does not matter
exactly if the list fits it and it is no such multiple.
-/

namespace CiphApp

open Lib

/-! ## One chunk -/

section OneChunk

variable {cfg : Config} {ch : ℕ} {dev : UInt8} {idxs : List ℕ} {r r' : Run} {script : DevScript}

@[simp] lemma setOpCipher_addr (cfg : Config) (dev : UInt8) (heap : Heap) (vec : CryptoOperation)
    (j : ℕ) (sess : Option SessPtr) (op : CryptoOp) :
    (setOpCipher cfg dev heap vec j sess op).addr = op.addr := by
  cases sess <;> rfl

/-- **A call in which every job got the result of its own operation**, and every operation that was
taken from the pool was given back. -/
structure Attributed (dev : UInt8) (idxs : List ℕ) (r r' : Run) : Prop where
  own : ∃ D, r'.deqs = r.deqs ++ D ∧ D.length = idxs.length ∧
    ∀ p < idxs.length, ∃ ev, D[p]? = some ev ∧ ev.op.vec = idxs.getD p 0 ∧
      ev.op.bufAddr = ((r.jobs (idxs.getD p 0)).cipherBuffList.buffs 0).data ∧
      r'.jobs (idxs.getD p 0) = (r.jobs (idxs.getD p 0)).setStatus
        (if ev.op.status = .success then cryptoOpStatusSucc else cryptoOpStatusFailed)
  others : ∀ j ∉ idxs, r'.jobs j = r.jobs j
  pool : ∃ T P, r'.taken = r.taken ++ T ∧ r'.put = r.put ++ P ∧ T.length = idxs.length ∧
    P.Perm T
  empty : (r'.cl.queues dev).queue = []

lemma afterResult_processed (job : CryptoOperation) {st : RteStatus} (h : st ≠ .notProcessed) :
    job.afterResult (some st) = job.setStatus
      (if st = .success then cryptoOpStatusSucc else cryptoOpStatusFailed) := by
  cases st <;> first | rfl | exact absurd rfl h

/-- A device that keeps the order returns the operation at position `p` as the `p`-th one. -/
lemma Outcome.fifo {E : List CryptoOp} {s : Inner}
    (ho : Outcome cfg ch dev idxs script r (r.cl.queues dev).next E s)
    (hpool : script.PoolServes)
    (hfifo : script.returns.map (·.ticket) = List.range' (r.cl.queues dev).next idxs.length)
    {p : ℕ} {a : Return} (ha : script.returns[p]? = some a) {D : List DevEvent}
    (hD : List.Forall₂ (ReturnedAs dev (r.cl.queues dev).next E) script.returns D) :
    a.ticket = (r.cl.queues dev).next + p ∧ ∃ op, E[p]? = some op ∧
      D[p]? = some ⟨dev, (r.cl.queues dev).next + p, { op with status := a.status }⟩ := by
  have hlen := (List.getElem?_eq_some_iff.mp ha).1
  have hp : p < idxs.length := by
    have := (ho.done hpool).2.1
    omega
  have hticket : a.ticket = (r.cl.queues dev).next + p := by
    have hget := congrArg (·[p]?) hfifo
    simpa only [List.getElem?_map, List.getElem?_range' hp, ha, Option.map_some,
      Option.some.injEq, one_mul] using hget
  obtain ⟨hDlen, hall⟩ := List.forall₂_iff_get.mp hD
  obtain ⟨k, op, hk, hop, hev⟩ := hall p hlen (hDlen ▸ hlen)
  have haget : script.returns.get ⟨p, hlen⟩ = a := (List.getElem?_eq_some_iff.mp ha).2
  rw [haget] at hk hev
  obtain rfl : k = p := by omega
  refine ⟨hticket, op, hop, ?_⟩
  rw [List.getElem?_eq_getElem (hDlen ▸ hlen), ← hticket, ← hev]
  rfl

/-- **Result attribution and op conservation.**  For a list of up to 64 jobs with live sessions and
a burst size of at least 64, on an idle device that takes the whole list and returns every operation
once, processed and in order, in portions of any size: the call returns, each job has the status of
its own operation, as many operations were given back to the pool as were taken, and the device
holds nothing. -/
theorem inner_attributed (cfg : Config) (ch : ℕ) (dev : UInt8) (idxs : List ℕ) (r : Run)
    (script : DevScript) (h0 : idxs ≠ []) (hnd : idxs.Nodup)
    (h64 : idxs.length ≤ maxJobsBurstSize) (hmax : maxJobsBurstSize ≤ cfg.maxBurstSize.toNat)
    (hsess : ∀ j ∈ idxs, (getSession cfg ch (r.jobs j).op.sessId r.cl).isSome)
    (hidle : (r.cl.queues dev).queue = [])
    (hs : script.ServesInOrder cfg.drainAsked (r.cl.queues dev).next idxs.length) :
    ∃ r', runJobsInner cfg ch dev idxs script r = some (r', true) ∧
      Attributed dev idxs r r' := by
  have hn : idxs.length < 2 ^ 16 := by
    have : maxJobsBurstSize < 2 ^ 16 := by decide
    omega
  have hfit : idxs.length ≤ cfg.maxBurstSize.toNat := h64.trans hmax
  obtain ⟨r', hr'⟩ : ∃ r', runJobsInner cfg ch dev idxs script r = some (r', true) :=
    runJobsInner_returns hn h0 hfit hidle hs.toServes
  refine ⟨r', hr', ?_⟩
  obtain ⟨E, s, ho, rfl⟩ := runJobsInner_outcome hn hidle hr'
  obtain ⟨hE, hR, -, hempty⟩ := ho.done hs.poolServes
  obtain ⟨D, hD, hRD, -⟩ := ho.inv.deqs
  have hDlen : D.length = idxs.length := hRD.length_eq.symm.trans hR
  have hat : ∀ p < idxs.length, ∃ a op, script.returns[p]? = some a ∧ E[p]? = some op ∧
      D[p]? = some ⟨dev, (r.cl.queues dev).next + p, { op with status := a.status }⟩ := by
    intro p hp
    obtain ⟨a, ha⟩ : ∃ a, script.returns[p]? = some a :=
      ⟨_, List.getElem?_eq_getElem (hR.symm ▸ hp)⟩
    obtain ⟨-, op, hop, hev⟩ := ho.fifo hs.poolServes hs.fifo ha hRD
    exact ⟨a, op, ha, hop, hev⟩
  refine ⟨⟨D, hD, hDlen, fun p hp => ?_⟩, fun j hj => ?_, ?_, hempty⟩
  · obtain ⟨a, op, ha, hop, hev⟩ := hat p hp
    obtain ⟨pos, -, heap, ⟨old, hprep⟩, hfull⟩ := ho.inv.prepared p op hop
    have hpos : pos = p := by
      rw [(hfull (ho.done hs.poolServes).2.2.1).1, Nat.mod_eq_of_lt (by omega)]
    obtain ⟨t, ht⟩ := Option.isSome_iff_exists.mp (hsess _ (getD_mem hp))
    rw [hpos, ht] at hprep
    refine ⟨_, hev, by rw [hprep]; rfl, by rw [hprep]; rfl, ?_⟩
    rw [ho.inv.jobs, resultJobs_at hnd _ 0 _ (by simp [hR]) (Nat.zero_le p) hp, Nat.sub_zero,
      List.getElem?_map, ha, Option.map_some]
    exact afterResult_processed _ (hs.processed a (List.mem_of_getElem? ha))
  · rw [ho.inv.jobs]
    refine resultJobs_of_ne idxs _ 0 _ fun q _ hq he => ?_
    rw [List.length_map] at hq
    exact hj (he ▸ getD_mem (show q < idxs.length by omega))
  · obtain ⟨ops, R, hround, -⟩ := hs.round
    obtain ⟨htaken, henqs, D', hD', hput⟩ :=
      runJobsInner_events hround (offered_entry h64 hfit) hr'
    obtain rfl : D' = D := List.append_cancel_left (hD'.symm.trans hD)
    refine ⟨_, _, htaken, hput, by simp, ?_⟩
    -- operation `p` came from object `p`, and is the `p`-th one that is put back
    have hprep : ∀ p op, E[p]? = some op → op.addr = (ops p).addr := by
      intro p op hop
      have hev : (⟨dev, (r.cl.queues dev).next + p, op⟩ : DevEvent) ∈
          (preparedOps cfg ch dev idxs ops idxs.length r).mapIdx
            fun i op => ⟨dev, (r.cl.queues dev).next + i, op⟩ := by
        rw [← List.append_cancel_left (ho.inv.enqs.symm.trans henqs)]
        exact mem_mapIdx_event.mpr ⟨p, op, hop, rfl⟩
      obtain ⟨k, op', hk, he⟩ := mem_mapIdx_event.mp hev
      obtain ⟨-, hticket, rfl⟩ := DevEvent.mk.inj he
      obtain rfl : p = k := by omega
      obtain ⟨hlt, rfl⟩ := List.getElem?_eq_some_iff.mp hk
      simp [preparedOps]
    have haddr : D'.map (·.op.addr) = (List.range idxs.length).map fun i => (ops i).addr := by
      apply List.ext_getElem
      · simp [hDlen]
      · intro p h1 h2
        have hp : p < idxs.length := by simpa using h2
        obtain ⟨a, op, ha, hop, hev⟩ := hat p hp
        have hDp := (List.getElem?_eq_some_iff.mp hev).2
        simp only [List.getElem_map, List.getElem_range, hDp]
        exact hprep p op hop
    rw [haddr]

end OneChunk

/-- Two operations: one comes back at once as a success, the other after a while as an error. -/
def twoResults : DevScript :=
  ⟨[⟨some fun i => { freshOp with addr := i }, 2, [⟨0, .success, []⟩]⟩], [[], [⟨1, .error, []⟩]]⟩

lemma twoResults_inOrder : twoResults.ServesInOrder 64 0 2 where
  round := ⟨_, _, rfl, by decide⟩
  drain := by decide
  last := by decide
  tickets := .refl _
  fifo := rfl
  processed := by decide

/-- Each of them decides its own job. -/
theorem inner_attributed_two :
    ∃ r', runJobsInner (sampleConfig 0 1) 0 0 [0, 1] twoResults twoJobs = some (r', true) ∧
      Attributed 0 [0, 1] twoJobs r' :=
  inner_attributed (sampleConfig 0 1) 0 0 [0, 1] twoJobs twoResults (by decide) (by decide)
    (by decide) (by decide) (fun j _ => twoJobs_session j) (by decide) twoResults_inOrder

/-! ## Several chunks -/

/-- Each job of the list was submitted once, with its own buffer. -/
def SubmittedOnce (idxs : List ℕ) (r r' : Run) : Prop :=
  ∃ N, r'.enqs = r.enqs ++ N ∧ (N.map (·.op.vec)).Perm idxs ∧
    ∀ ev ∈ N, ev.op.Carries (r.jobs ev.op.vec)

/-- What a device makes of an operation and its payload: a status and an output. -/
abbrev DeviceFun := CryptoOp → List UInt8 → RteStatus × List UInt8

/-- **The same surroundings**: object number `k` that the pool hands out is `objs k`, in bursts of
`m`; the device keeps the order, and answers the operations that were enqueued as `F` says. -/
structure SameSurroundings (objs : ℕ → CryptoOp) (F : DeviceFun) (m : ℕ) (n : ℕ) (dev : UInt8)
    (script : DevScript) (r r' : Run) : Prop where
  pool : ∀ t q, script.rounds[t]? = some q → q.pool = some fun i => objs (m * t + i)
  fifo : script.returns.map (·.ticket) = List.range' (r.cl.queues dev).next n
  answers : ∀ ev ∈ r'.enqs.drop r.enqs.length, ∀ a ∈ script.returns, a.ticket = ev.ticket →
    (a.status, a.out) = F ev.op (r.heap.bytes ev.op.bufAddr ev.op.pktLen.toNat)

/-- **The burst size does not change what is ciphered**: each job is submitted once, and with a
burst size of 64 the same surroundings leave the same payloads and statuses. -/
structure BurstSizeIrrelevant (cfg : Config) (ch : ℕ) (dev : UInt8) (idxs : List ℕ) (r : Run)
    (script : DevScript) (r' : Run) : Prop where
  once : SubmittedOnce idxs r r'
  same : ∀ objs F script' r'', SameSurroundings objs F cfg.maxBurstSize.toNat idxs.length dev
      script r r' →
    runJobsInner { cfg with maxBurstSize := 64 } ch dev idxs script' r = some (r'', true) →
    SameSurroundings objs F 64 idxs.length dev script' r r'' →
    r'.jobs = r''.jobs ∧ r'.heap = r''.heap

/-! ### Devices that accept everything -/

/-- **A device that accepts every operation it is offered**, with an op pool that serves it.  At
dequeue call number `k` of a call of `run_jobs_inner`, `hand k held` are the operations it is ready
to hand out of those it holds, by ticket and in the order in which they come back, and `answer` is
what it made of them.  As long as it holds any, it goes on handing out. -/
structure SteadyDevice where
  objs : ℕ → CryptoOp
  answer : ℕ → RteStatus × List UInt8
  hand : ℕ → List ℕ → List ℕ
  held : ∀ k l, (hand k l).Subperm l
  goesOn : ∀ k l, l ≠ [] → ∃ k' ≥ k, hand k' l ≠ []

namespace SteadyDevice

/-- What dequeue call number `k` gets if it asks for `asked` operations. -/
def call (D : SteadyDevice) (k asked : ℕ) (l : List ℕ) : List ℕ := (D.hand k l).take asked

/-- An operation as it comes back. -/
def ret (D : SteadyDevice) (ticket : ℕ) : Return :=
  ⟨ticket, (D.answer ticket).1, (D.answer ticket).2⟩

/-- Pass number `t` of the enqueue loop for `n` jobs in bursts of `m`, on a device that holds `l`:
the round the pass meets, and what the device holds after it. -/
def pass (D : SteadyDevice) (m n base t : ℕ) (l : List ℕ) : Round × List ℕ :=
  let accepted := min m (n - m * t)
  let l := l ++ List.range' (base + m * t) accepted
  (⟨some fun i => D.objs (m * t + i), accepted, (D.call t accepted l).map D.ret⟩,
    l.diff (D.call t accepted l))

/-- The next `c` passes, from number `t` on. -/
def passes (D : SteadyDevice) (m n base : ℕ) : ℕ → ℕ → List ℕ → List Round × List ℕ
  | 0, _, l => ([], l)
  | c + 1, t, l =>
    let p := D.pass m n base t l
    let ps := D.passes m n base c (t + 1) p.2
    (p.1 :: ps.1, ps.2)

/-- The calls of the draining loop from number `k` on, until the device holds nothing. -/
inductive Drains (D : SteadyDevice) (asked : ℕ) : ℕ → List ℕ → List (List Return) → Prop
  | done (k : ℕ) : Drains D asked k [] []
  | call (k : ℕ) (l : List ℕ) (ds : List (List Return)) (hl : l ≠ [])
      (h : Drains D asked (k + 1) (l.diff (D.call k asked l)) ds) :
      Drains D asked k l ((D.call k asked l).map D.ret :: ds)

/-- **The script is what the device does** in a call for `n` jobs whose operations get the tickets
from `base` on.  The device leaves no choice in it. -/
structure Meets (D : SteadyDevice) (cfg : Config) (base n : ℕ) (script : DevScript) : Prop where
  rounds : script.rounds = (D.passes cfg.maxBurstSize.toNat n base
    ((n + cfg.maxBurstSize.toNat - 1) / cfg.maxBurstSize.toNat) 0 []).1
  drain : D.Drains cfg.drainAsked ((n + cfg.maxBurstSize.toNat - 1) / cfg.maxBurstSize.toNat)
    (D.passes cfg.maxBurstSize.toNat n base
      ((n + cfg.maxBurstSize.toNat - 1) / cfg.maxBurstSize.toNat) 0 []).2 script.drain

variable {D : SteadyDevice} {asked k : ℕ} {l : List ℕ} {ds : List (List Return)}

/-- What is handed out and what stays is what was held. -/
lemma call_append_diff (D : SteadyDevice) (k asked : ℕ) (l : List ℕ) :
    (D.call k asked l ++ l.diff (D.call k asked l)).Perm l :=
  List.subperm_append_diff_self_of_count_le
    (List.subperm_ext_iff.mp ((List.take_sublist _ _).subperm.trans (D.held k l)))

lemma map_ticket_ret (D : SteadyDevice) (l : List ℕ) : (l.map D.ret).map (·.ticket) = l := by
  rw [List.map_map]
  exact List.map_id l

lemma Drains.tickets (h : D.Drains asked k l ds) : (ds.flatten.map (·.ticket)).Perm l := by
  induction h with
  | done => exact .refl _
  | call k l ds _ _ ih =>
      rw [List.flatten_cons, List.map_append, map_ticket_ret]
      exact (ih.append_left _).trans (D.call_append_diff k asked l)

lemma Drains.length_le (h : D.Drains asked k l ds) : ∀ d ∈ ds, d.length ≤ asked := by
  induction h with
  | done => exact fun _ hd => absurd hd List.not_mem_nil
  | call k l ds _ _ ih =>
      intro d hd
      rcases List.mem_cons.mp hd with rfl | hd
      · rw [List.length_map]
        exact List.length_take_le _ _
      · exact ih d hd

lemma Drains.getLast_ne_nil (h : D.Drains asked k l ds) : ∀ d, ds.getLast? = some d → d ≠ [] := by
  induction h with
  | done => exact fun _ hd => absurd hd (by simp)
  | call k l ds hl h ih =>
      intro d hd
      cases ds with
      | nil =>
          obtain rfl : (D.call k asked l).map D.ret = d := by simpa using hd
          intro hnil
          rw [List.map_eq_nil_iff] at hnil
          -- nothing was handed out, but the device is empty afterwards
          have hrest := h.tickets
          rw [hnil, List.diff_nil, List.flatten_nil] at hrest
          exact hl (List.nil_perm.mp hrest)
      | cons d' ds => exact ih d (by simpa using hd)

/-- **The draining loop comes to an end**, if it asks for anything. -/
lemma exists_drains (D : SteadyDevice) (hasked : asked ≠ 0) (k : ℕ) (l : List ℕ) :
    ∃ ds, D.Drains asked k l ds := by
  induction hlen : l.length using Nat.strong_induction_on generalizing k l with
  | _ len ih =>
      by_cases hl : l = []
      · exact ⟨[], hl ▸ .done k⟩
      obtain ⟨k', hle, hne⟩ := D.goesOn k l hl
      -- until call `k'` the device may hand out nothing
      induction hd : k' - k generalizing k with
      | zero =>
          obtain rfl : k = k' := by omega
          have hpos : 0 < (D.call k asked l).length := by
            rw [call, List.length_take]
            have := List.length_pos_iff.mpr hne
            omega
          have hperm := (D.call_append_diff k asked l).length_eq
          rw [List.length_append] at hperm
          obtain ⟨ds, hds⟩ := ih (l.diff (D.call k asked l)).length (by omega) (k + 1) _ rfl
          exact ⟨_, .call k l ds hl hds⟩
      | succ d ihd =>
          by_cases hnil : D.call k asked l = []
          · obtain ⟨ds, hds⟩ := ihd (k + 1) (by omega) (by omega)
            refine ⟨_, .call k l ds hl ?_⟩
            rwa [hnil, List.diff_nil]
          · have hpos := List.length_pos_iff.mpr hnil
            have hperm := (D.call_append_diff k asked l).length_eq
            rw [List.length_append] at hperm
            obtain ⟨ds, hds⟩ := ih (l.diff (D.call k asked l)).length (by omega) (k + 1) _ rfl
            exact ⟨_, .call k l ds hl hds⟩

/-- A loop that asks for nothing never ends, unless nothing is left. -/
lemma Drains.eq_nil_of_asked_zero (h : D.Drains 0 k l ds) : l = [] := by
  induction h with
  | done => rfl
  | call k l ds _ _ ih => rwa [SteadyDevice.call, List.take_zero, List.diff_nil] at ih

lemma passes_of_fits (D : SteadyDevice) (base : ℕ) {m n : ℕ} (h0 : n ≠ 0) (hmax : n ≤ m) :
    D.passes m n base ((n + m - 1) / m) 0 [] =
      ([⟨some fun i => D.objs i, n, (D.call 0 n (List.range' base n)).map D.ret⟩],
        (List.range' base n).diff (D.call 0 n (List.range' base n))) ∧ (n + m - 1) / m = 1 := by
  have hone : (n + m - 1) / m = 1 := by
    rw [show n + m - 1 = n - 1 + m by omega, Nat.add_div_right _ (by omega),
      Nat.div_eq_of_lt (by omega)]
  rw [hone]
  simp [passes, pass, hmax]

/-- **The device serves such a list.** -/
lemma Meets.serves {cfg : Config} {base n : ℕ} {script : DevScript} (h0 : n ≠ 0)
    (hmax : n ≤ cfg.maxBurstSize.toNat) (h : D.Meets cfg base n script) :
    script.Serves cfg.drainAsked base n := by
  obtain ⟨hpass, hone⟩ := D.passes_of_fits base h0 hmax
  have hdrain := h.drain
  have hrounds := h.rounds
  rw [hpass] at hrounds hdrain
  refine ⟨⟨_, _, hrounds, ?_⟩, hdrain.length_le, hdrain.getLast_ne_nil, ?_⟩
  · rw [List.length_map]
    exact List.length_take_le _ _
  · have hret : script.returns =
        (D.call 0 n (List.range' base n)).map D.ret ++ script.drain.flatten := by
      simp [DevScript.returns, hrounds]
    rw [hret, List.map_append, map_ticket_ret]
    exact (hdrain.tickets.append_left _).trans (D.call_append_diff 0 n _)

lemma exists_meets (D : SteadyDevice) (cfg : Config) (base n : ℕ) (hasked : cfg.drainAsked ≠ 0) :
    ∃ script, D.Meets cfg base n script := by
  obtain ⟨ds, hds⟩ := D.exists_drains hasked
    ((n + cfg.maxBurstSize.toNat - 1) / cfg.maxBurstSize.toNat) (D.passes cfg.maxBurstSize.toNat n
      base ((n + cfg.maxBurstSize.toNat - 1) / cfg.maxBurstSize.toNat) 0 []).2
  exact ⟨⟨_, ds⟩, rfl, hds⟩

/-- A device that hands out everything it holds from dequeue call number `first` on, as
successes. -/
def prompt (first : ℕ) : SteadyDevice where
  objs := fun _ => freshOp
  answer := fun _ => (.success, [])
  hand := fun k l => if k < first then [] else l
  held := fun k l => by
    split_ifs
    · exact List.nil_subperm
    · exact .refl l
  goesOn := fun k l hl => ⟨max k first, le_max_left _ _, by
    rw [if_neg (not_lt.mpr (le_max_right _ _))]
    exact hl⟩

end SteadyDevice

section Chunks

variable {cfg : Config} {ch : ℕ} {dev : UInt8} {idxs : List ℕ} {r r' : Run} {script : DevScript}

lemma poolServes_of_passes {rs : List Round} {s s' : Inner}
    (h : enqueuePasses cfg ch dev idxs rs s = some s') : ∀ q ∈ rs, q.pool.isSome = true := by
  induction rs generalizing s with
  | nil => simp
  | cons q qs ih =>
      rw [enqueuePasses_cons] at h
      obtain ⟨s1, h1, h2⟩ := Option.bind_eq_some_iff.mp h
      obtain ⟨ops, hf⟩ := enqueuePass_facts h1
      intro q' hq'
      rcases List.mem_cons.mp hq' with rfl | hq'
      · rw [hf.pool]
        rfl
      · exact ih h2 q' hq'

lemma not_submittedOnce (hnd : idxs.Nodup) (h64 : idxs.length ≤ maxJobsBurstSize)
    (hpos : 1 ≤ cfg.maxBurstSize.toNat) (hlong : cfg.maxBurstSize.toNat < idxs.length)
    (hsess : ∀ j ∈ idxs, (getSession cfg ch (r.jobs j).op.sessId r.cl).isSome)
    (hidle : (r.cl.queues dev).queue = [])
    (h : runJobsInner cfg ch dev idxs script r = some (r', true)) : ¬SubmittedOnce idxs r r' := by
  have hn : idxs.length < 2 ^ 16 := by
    have : maxJobsBurstSize < 2 ^ 16 := by decide
    omega
  obtain ⟨s0, hpass, -⟩ := runJobsInner_true h
  obtain ⟨E, s, ho, rfl⟩ := runJobsInner_outcome hn hidle h
  obtain ⟨hE, -, hunused, -⟩ := ho.done (poolServes_of_passes hpass)
  rintro ⟨N, hN, hperm, -⟩
  have hNE := List.append_cancel_left (hN.symm.trans ho.inv.enqs)
  -- operation number `max_burst_size` carries the first job again
  have hvec : ∀ k < idxs.length, k % cfg.maxBurstSize.toNat = 0 →
      (N.map (·.op.vec))[k]? = some (idxs.getD 0 0) := by
    intro k hk hk0
    obtain ⟨op, hop⟩ : ∃ op, E[k]? = some op := ⟨_, List.getElem?_eq_getElem (hE.symm ▸ hk)⟩
    obtain ⟨pos, hpos', heap, ⟨old, hprep⟩, hfull⟩ := ho.inv.prepared k op hop
    obtain rfl : pos = 0 := ((hfull hunused).1).trans hk0
    obtain ⟨t, ht⟩ := Option.isSome_iff_exists.mp (hsess _ (getD_mem hpos'))
    rw [ht] at hprep
    rw [hNE, List.getElem?_map, List.getElem?_mapIdx, hop, hprep]
    rfl
  have hNnd : (N.map (·.op.vec)).Nodup := hperm.nodup_iff.mpr hnd
  have h1 := hvec 0 (by omega) (Nat.zero_mod _)
  have h2 := hvec _ hlong (Nat.mod_self _)
  have := (List.getElem?_inj (List.getElem?_eq_some_iff.mp h1).1 hNnd).mp (h1.trans h2.symm)
  omega

lemma Outcome.enqueued {E : List CryptoOp} {s : Inner} {ops : ℕ → CryptoOp} {R : List Return}
    (ho : Outcome cfg ch dev idxs script r (r.cl.queues dev).next E s)
    (h64 : idxs.length ≤ maxJobsBurstSize) (hmax : idxs.length ≤ cfg.maxBurstSize.toNat)
    (hround : script.rounds = [⟨some ops, idxs.length, R⟩])
    (h : runJobsInner cfg ch dev idxs script r = some (s.run, true)) :
    E = preparedOps cfg ch dev idxs ops idxs.length r := by
  have henqs := (runJobsInner_events hround (offered_entry h64 hmax) h).2.1
  have heq := List.append_cancel_left (ho.inv.enqs.symm.trans henqs)
  rw [← mapIdx_event_op dev (r.cl.queues dev).next E, heq, mapIdx_event_op]

/-- The answer of a device to the operation at position `i`. -/
def DeviceFun.answer (F : DeviceFun) (heap : Heap) (base i : ℕ) (op : CryptoOp) : Return :=
  ⟨base + i, (F op (heap.bytes op.bufAddr op.pktLen.toNat)).1,
    (F op (heap.bytes op.bufAddr op.pktLen.toNat)).2⟩

lemma eq_mapIdx {α β : Type*} {l : List β} {E : List α} {f : ℕ → α → β}
    (hlen : l.length = E.length) (h : ∀ p a, E[p]? = some a → l[p]? = some (f p a)) :
    l = E.mapIdx f := by
  apply List.ext_getElem?
  intro p
  rw [List.getElem?_mapIdx]
  rcases hp : E[p]? with _ | a
  · have := List.getElem?_eq_none_iff.mp hp
    rw [List.getElem?_eq_none (by omega)]
    rfl
  · exact h p a hp

/-- **What one chunk leaves behind** is determined by the surroundings. -/
lemma runJobsInner_surroundings (h0 : idxs ≠ []) (h64 : idxs.length ≤ maxJobsBurstSize)
    (hmax : idxs.length ≤ cfg.maxBurstSize.toNat) (hidle : (r.cl.queues dev).queue = [])
    {objs : ℕ → CryptoOp} {F : DeviceFun} {m : ℕ}
    (hF : SameSurroundings objs F m idxs.length dev script r r')
    (h : runJobsInner cfg ch dev idxs script r = some (r', true)) :
    script.returns = (preparedOps cfg ch dev idxs objs idxs.length r).mapIdx
        (F.answer r.heap (r.cl.queues dev).next) ∧
      r'.jobs = resultJobs idxs (script.returns.map (·.status)) 0 r.jobs ∧
      r'.heap = storeReturns r.heap script.returns
        ((preparedOps cfg ch dev idxs objs idxs.length r).mapIdx fun i op =>
          ⟨dev, (r.cl.queues dev).next + i,
            { op with status := (F.answer r.heap (r.cl.queues dev).next i op).status }⟩) := by
  have hn : idxs.length < 2 ^ 16 := by
    have : maxJobsBurstSize < 2 ^ 16 := by decide
    omega
  obtain ⟨ops, R, hround⟩ := rounds_of_fits h0 h64 hmax h
  obtain rfl : objs = ops := by
    have hpool := hF.pool 0 _ (by rw [hround]; rfl)
    simpa using hpool.symm
  obtain ⟨s0, hpass, -⟩ := runJobsInner_true h
  have hserves : script.PoolServes := poolServes_of_passes hpass
  obtain ⟨E, s, ho, rfl⟩ := runJobsInner_outcome hn hidle h
  rw [← ho.enqueued h64 hmax hround h]
  obtain ⟨hE, hR, -, -⟩ := ho.done hserves
  obtain ⟨D, hD, hRD, hheap⟩ := ho.inv.deqs
  have hDlen : D.length = script.returns.length := hRD.length_eq.symm
  -- position by position: the operation, its answer and its event
  have hat : ∀ p op, E[p]? = some op →
      script.returns[p]? = some (F.answer r.heap (r.cl.queues dev).next p op) ∧
        D[p]? = some ⟨dev, (r.cl.queues dev).next + p,
          { op with status := (F.answer r.heap (r.cl.queues dev).next p op).status }⟩ := by
    intro p op hop
    have hp := (List.getElem?_eq_some_iff.mp hop).1
    obtain ⟨a, ha⟩ : ∃ a, script.returns[p]? = some a :=
      ⟨_, List.getElem?_eq_getElem (by omega)⟩
    obtain ⟨hticket, op', hop', hev⟩ := ho.fifo hserves hF.fifo ha hRD
    obtain rfl : op = op' := Option.some.inj (hop.symm.trans hop')
    have hmem : (⟨dev, (r.cl.queues dev).next + p, op⟩ : DevEvent) ∈
        s.run.enqs.drop r.enqs.length := by
      rw [ho.inv.enqs, List.drop_left]
      exact mem_mapIdx_event.mpr ⟨p, op, hop, rfl⟩
    have hans := hF.answers _ hmem a (List.mem_of_getElem? ha) hticket
    have haF : a = F.answer r.heap (r.cl.queues dev).next p op := by
      obtain ⟨t, st, out⟩ := a
      obtain ⟨h1, h2⟩ := Prod.mk.inj hans
      simp only at hticket
      rw [DeviceFun.answer, ← h1, ← h2, hticket]
    rw [← haF]
    exact ⟨ha, hev⟩
  refine ⟨eq_mapIdx (hR.trans hE.symm) fun p op hop => (hat p op hop).1, ho.inv.jobs, ?_⟩
  rw [hheap, eq_mapIdx (hDlen.trans (hR.trans hE.symm)) fun p op hop => (hat p op hop).2]

/-- What the burst size changes if the list fits it: nothing. -/
lemma burstSizeIrrelevant_of_fits (h0 : idxs ≠ []) (h64 : idxs.length ≤ maxJobsBurstSize)
    (hmax : idxs.length ≤ cfg.maxBurstSize.toNat)
    (hsess : ∀ j ∈ idxs, (getSession cfg ch (r.jobs j).op.sessId r.cl).isSome)
    (hiv : ∀ j ∈ idxs, (r.jobs j).IvFits) (hidle : (r.cl.queues dev).queue = [])
    (h : runJobsInner cfg ch dev idxs script r = some (r', true)) :
    BurstSizeIrrelevant cfg ch dev idxs r script r' := by
  refine ⟨?_, fun objs F script' r'' hF h' hF' => ?_⟩
  · obtain ⟨ops, R, hround⟩ := rounds_of_fits h0 h64 hmax h
    obtain ⟨hvec, hbuf⟩ := preparedOps_vec dev ops hsess
    refine ⟨_, (runJobsInner_events hround (offered_entry h64 hmax) h).2.1, ?_, ?_⟩
    · rw [mapIdx_event_vec, hvec]
    · intro ev hev
      obtain ⟨k, op, hk, rfl⟩ := mem_mapIdx_event.mp hev
      have hmem := List.mem_of_getElem? hk
      have hj : op.vec ∈ idxs := hvec ▸ List.mem_map_of_mem hmem
      exact (hiv _ hj).carries (hbuf op hmem)
  · obtain ⟨hret, hjobs, hheap⟩ := runJobsInner_surroundings h0 h64 hmax hidle hF h
    obtain ⟨hret', hjobs', hheap'⟩ := runJobsInner_surroundings h0 h64
      (show idxs.length ≤ ({ cfg with maxBurstSize := 64 } : Config).maxBurstSize.toNat from h64)
      hidle hF' h'
    have hsame : script.returns = script'.returns := hret.trans hret'.symm
    rw [hsame] at hjobs hheap
    exact ⟨hjobs.trans hjobs'.symm, hheap.trans hheap'.symm⟩

/-- **When the burst size does not matter.**  For a list of jobs whose IVs fit: every device that
accepts what it is offered and goes on handing out lets the call return with each job submitted
once, and with what a burst size of 64 leaves, if and only if the list fits the burst size and the
burst size is no multiple of 2¹⁶. -/
theorem burstSizeIrrelevant_iff (cfg : Config) (ch : ℕ) (dev : UInt8) (idxs : List ℕ) (r : Run)
    (h0 : idxs ≠ []) (hnd : idxs.Nodup) (h64 : idxs.length ≤ maxJobsBurstSize)
    (hpos : 1 ≤ cfg.maxBurstSize.toNat)
    (hsess : ∀ j ∈ idxs, (getSession cfg ch (r.jobs j).op.sessId r.cl).isSome)
    (hiv : ∀ j ∈ idxs, (r.jobs j).IvFits) (hidle : (r.cl.queues dev).queue = []) :
    (∀ D : SteadyDevice, ∃ script r', D.Meets cfg (r.cl.queues dev).next idxs.length script ∧
      runJobsInner cfg ch dev idxs script r = some (r', true) ∧
      BurstSizeIrrelevant cfg ch dev idxs r script r') ↔
    idxs.length ≤ cfg.maxBurstSize.toNat ∧ cfg.maxBurstSize.toNat % 2 ^ 16 ≠ 0 := by
  have hlen : idxs.length ≠ 0 := fun hz => h0 (List.eq_nil_of_length_eq_zero hz)
  have hn : idxs.length < 2 ^ 16 := h64.trans_lt (by decide)
  constructor
  · intro h
    have hmax : idxs.length ≤ cfg.maxBurstSize.toNat := by
      by_contra hlong
      obtain ⟨script, r', -, hrun, hi⟩ := h (.prompt 0)
      exact not_submittedOnce hnd h64 hpos (by omega) hsess hidle hrun hi.once
    refine ⟨hmax, fun hzero => ?_⟩
    -- a device that answers later is never asked again
    obtain ⟨script, r', hmeets, -⟩ := h (.prompt 1)
    obtain ⟨hpass, hone⟩ :=
      (SteadyDevice.prompt 1).passes_of_fits (r.cl.queues dev).next hlen hmax
    have hdrain := hmeets.drain
    rw [hpass, show cfg.drainAsked = 0 from hzero] at hdrain
    have hnil := hdrain.eq_nil_of_asked_zero
    rw [show (SteadyDevice.prompt 1).call 0 idxs.length _ = [] from List.take_nil,
      List.diff_nil] at hnil
    exact hlen (List.range'_eq_nil_iff.mp hnil)
  · rintro ⟨hmax, hasked⟩ D
    obtain ⟨script, hmeets⟩ := D.exists_meets cfg (r.cl.queues dev).next idxs.length hasked
    obtain ⟨r', hrun⟩ := runJobsInner_returns hn h0 hmax hidle (hmeets.serves hlen hmax)
    exact ⟨script, r', hmeets, hrun,
      burstSizeIrrelevant_of_fits h0 h64 hmax hsess hiv hidle hrun⟩

end Chunks

/-- Two jobs fit a burst of 64, also on a device that answers late. -/
theorem burstSizeIrrelevant_two :
    ∃ script r', (SteadyDevice.prompt 3).Meets (sampleConfig 0 1) 0 2 script ∧
      runJobsInner (sampleConfig 0 1) 0 0 [0, 1] script twoJobs = some (r', true) ∧
      BurstSizeIrrelevant (sampleConfig 0 1) 0 0 [0, 1] twoJobs script r' :=
  (burstSizeIrrelevant_iff (sampleConfig 0 1) 0 0 [0, 1] twoJobs (by decide) (by decide)
    (by decide) (by decide) (fun j _ => twoJobs_session j) (fun _ _ => Nat.le_refl 16)
    (by decide)).mpr ⟨by decide, by decide⟩ (.prompt 3)

/-- Two jobs with a buffer each. -/
def twoBuffers : Run :=
  { twoJobs with
    jobs := fun j =>
      { sampleJob cryptoOpTypeSessCiphering 0 cryptoCipherAesCtr with
        cipherBuffList := ⟨1, fun _ => ⟨16, ⟨.resp j, 108⟩⟩⟩ } }

/-- A device that takes one operation at a time and processes it. -/
def oneByOne : DevScript :=
  ⟨[⟨some fun _ => freshOp, 1, [⟨0, .success, []⟩]⟩,
    ⟨some fun _ => freshOp, 1, [⟨1, .success, []⟩]⟩], []⟩

/-- **A burst size of one.**  The device accepts what it is offered and hands it out at once.  The
first of two jobs is ciphered twice; the second reaches no device and leaves as a success. -/
theorem small_burst_resubmits :
    (SteadyDevice.prompt 0).Meets (Config.ofDevices 0 1 1 fun _ => .encrypt) 0 2 oneByOne ∧
    (∀ j ∈ [0, 1], (twoBuffers.jobs j).IvFits) ∧ ∃ r',
      runJobsInner (Config.ofDevices 0 1 1 fun _ => .encrypt) 0 0 [0, 1] oneByOne twoBuffers =
        some (r', true) ∧
      r'.enqs.map (fun ev => (ev.op.vec, ev.op.bufAddr)) =
        [(0, ⟨.resp 0, 108⟩), (0, ⟨.resp 0, 108⟩)] ∧
      (r'.jobs 1).op.opStatus = cryptoOpStatusSucc ∧
      ¬BurstSizeIrrelevant (Config.ofDevices 0 1 1 fun _ => .encrypt) 0 0 [0, 1] twoBuffers oneByOne
        r' := by
  obtain ⟨r', h, henqs, hstatus⟩ : ∃ r',
      runJobsInner (Config.ofDevices 0 1 1 fun _ => .encrypt) 0 0 [0, 1] oneByOne twoBuffers =
        some (r', true) ∧
      r'.enqs.map (fun ev => (ev.op.vec, ev.op.bufAddr)) =
        [(0, ⟨.resp 0, 108⟩), (0, ⟨.resp 0, 108⟩)] ∧
      (r'.jobs 1).op.opStatus = cryptoOpStatusSucc := ⟨_, rfl, rfl, rfl⟩
  refine ⟨⟨rfl, .done 2⟩, fun _ _ => Nat.le_refl 16, r', h, henqs, hstatus, fun hi => ?_⟩
  obtain ⟨N, hN, hperm, -⟩ := hi.once
  obtain rfl : r'.enqs = N := hN
  have hvec : r'.enqs.map (·.op.vec) = [0, 0] := by
    have := congrArg (List.map Prod.fst) henqs
    rwa [List.map_map] at this
  rw [hvec] at hperm
  exact absurd hperm (by decide)

end CiphApp
