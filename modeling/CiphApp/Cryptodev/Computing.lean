import CiphApp.Cryptodev.SessionMap
import CiphApp.Cryptodev.Single

/-!
# A burst on devices that compute a function

What a whole burst does, when the op pool suffices, the devices accept everything and overwrite
each payload with a function of the session, the IV and the payload, in any order, and the jobs do
not share buffers.  `BurstResult` says it job by job, in terms of the call alone: which operation a
job leaves with, and which bytes are written for it.

The two devices work one after the other, so the second one prepares its operations from memory the
first one has written to.  That its IVs are still what the client sent is where the buffers of the
jobs have to be apart.
-/

namespace CiphApp

open Lib

/-! ## The devices -/

/-- **What a device computes in place** from a session, an IV and a payload: whether it succeeds,
and the bytes it leaves in the buffer. -/
structure InPlace where
  fn : SessPtr → List UInt8 → List UInt8 → Bool × List UInt8
  length_eq : ∀ s iv payload, (fn s iv payload).2.length = payload.length

/-- The status is that of an operation that succeeded, or did not. -/
def RteStatus.Reports (status : RteStatus) (ok : Bool) : Prop :=
  if ok then status = .success else status ≠ .success ∧ status ≠ .notProcessed

/-- The operation `op`, met with memory `heap`, comes back as `a` from a device that computes
`F`. -/
def InPlace.Returned (F : InPlace) (dv : CryptodevDevice) (heap : Heap) (op : CryptoOp)
    (a : Return) : Prop :=
  ∃ s ok, op.session = some s ∧
    F.fn s ((List.range 16).map op.iv) (heap.bytes op.bufAddr (dv.byteLength op)) = (ok, a.out) ∧
    a.status.Reports ok

/-- **The environment of the burst**: the pool and the devices serve it, the devices compute `F`,
and they return the operations in the order they got them unless `F` always succeeds. -/
structure BurstCall.Computing (x : BurstCall) (cfg : Config) (cl : Client) (F : InPlace) :
    Prop where
  served : x.Served cfg cl
  computes : ∀ r, x.run cfg cl = some r → ∀ ev ∈ r.enqs, ∀ d < 2,
    ev.dev = (cfg.enabledCdevs d).cdevId → ∀ a ∈ (x.script.dev d).returns, a.ticket = ev.ticket →
      F.Returned (cfg.enabledCdevs d) x.heap ev.op a
  order : (∀ s iv payload, (F.fn s iv payload).1 = true) ∨
    ∀ d < 2, (x.sorted cfg cl).idxs d ≠ [] → (x.script.dev d).returns.map (·.ticket) =
      List.range' (baseTicket cfg cl d) ((x.sorted cfg cl).idxs d).length

/-! ## The jobs -/

/-- The buffer the devices work on. -/
def CryptoOperation.payload (job : CryptoOperation) : CryptoBuff := job.cipherBuffList.buffs 0

/-- The buffers have no byte in common. -/
def CryptoBuff.Apart (b c : CryptoBuff) : Prop :=
  ∀ p < b.length.toNat, ∀ q < c.length.toNat, b.data.add p ≠ c.data.add q

/-- **The jobs do not share buffers**: no byte of the payload of a job belongs to another one. -/
def BurstCall.OwnBuffers (x : BurstCall) : Prop :=
  ∀ i < x.size, ∀ k < x.size, i ≠ k → (x.jobs i).payload.Apart (x.jobs k).payload ∧
    (x.jobs i).payload.Apart (x.jobs k).cipherIv ∧ (x.jobs i).payload.Apart (x.jobs k).cipherKey

/-- The number of bytes device position `d` processes of a payload: the length is passed on in
bits or in bytes. -/
def Config.processed (cfg : Config) (d : ℕ) (length : UInt32) : ℕ :=
  let dataLength := if cfg.inBits (cfg.enabledCdevs d).cdevId then length <<< 3 else length
  match (cfg.enabledCdevs d).algo with
  | .snow3gUea2 => dataLength.toNat / 8
  | _ => dataLength.toNat

lemma byteLength_prepared (cfg : Config) (d : ℕ) (heap : Heap) (vec : CryptoOperation) (j : ℕ)
    (s : SessPtr) (old : CryptoOp) :
    (cfg.enabledCdevs d).byteLength
        (setOpCipher cfg (cfg.enabledCdevs d).cdevId heap vec j (some s) old) =
      cfg.processed d vec.payload.length := rfl

lemma processed_le (m : UInt32) (behind : UInt32 → RteCipherOp) {d : ℕ} (hd : d < 2)
    (length : UInt32) : (Config.ofDevices 0 1 m behind).processed d length ≤ length.toNat := by
  rcases Nat.lt_succ_iff_lt_or_eq.mp hd with h1 | rfl
  · obtain rfl : d = 0 := by omega
    exact le_rfl
  · show (length <<< 3).toNat / 8 ≤ _
    simp only [UInt32.toNat_shiftLeft, UInt32.reduceToNat, Nat.shiftLeft_eq, Nat.reduceMod,
      Nat.reducePow]
    have := Nat.mod_le (length.toNat * 8) 4294967296
    omega

section Jobs

variable (x : BurstCall) (cfg : Config) (cl : Client) (F : InPlace) (i : ℕ)

/-- The device position a ciphering job is for. -/
def BurstCall.device : ℕ := sessCdevId (x.jobs i).op.sessId

/-- **What is computed for job `i`**: `F` of the session it has when it is scanned, of its IV and
of its payload. -/
def BurstCall.computed : Option (Bool × List UInt8) :=
  (getSession cfg x.ch (x.jobs i).op.sessId (x.scan cfg cl i).cl).map fun s =>
    F.fn s ((x.jobs i).cipherIv.bytes x.heap) (x.heap.bytes (x.jobs i).payload.data
      (cfg.processed (x.device i) (x.jobs i).payload.length))

/-- Where the result goes. -/
def BurstCall.writeOf : Ptr × List UInt8 :=
  ((x.jobs i).payload.data, ((x.computed cfg cl F i).map (·.2)).getD [])

/-- The status a job leaves a device with. -/
def BurstCall.statusOf : UInt32 :=
  if ((x.computed cfg cl F i).map (·.1)).getD false then cryptoOpStatusSucc
  else cryptoOpStatusFailed

/-- Job `i` goes to a device. -/
def BurstCall.Ciphers : Prop := Listed cfg x cl (x.device i) i

end Jobs

section Results

variable {cfg : Config} {x : BurstCall} {cl : Client} {F : InPlace} {r r₂ : Run}
  {h₀ : ℕ → Heap} {E : ℕ → List CryptoOp} {D : ℕ → List DevEvent}

lemma Listed.eq_device {d i : ℕ} (h : Listed cfg x cl d i) : d = x.device i :=
  (listed_iff.mp h).2.2.1.symm

lemma ciphers_iff {i : ℕ} : x.Ciphers cfg cl i ↔ ∃ d, Listed cfg x cl d i := by
  refine ⟨fun h => ⟨_, h⟩, ?_⟩
  rintro ⟨d, h⟩
  rw [BurstCall.Ciphers, ← h.eq_device]
  exact h

lemma covers_writeOf (hproc : ∀ d < cfg.nbCryptodevs, ∀ n, cfg.processed d n ≤ n.toNat) {i : ℕ}
    {q : Region} {a : ℕ} (h : Heap.Covers (x.writeOf cfg cl F i) q a) :
    ∃ p < (x.jobs i).payload.length.toNat, (⟨q, a⟩ : Ptr) = (x.jobs i).payload.data.add p := by
  obtain ⟨hr, hlo, hhi⟩ := h
  have hlen : (x.writeOf cfg cl F i).2.length ≤ (x.jobs i).payload.length.toNat := by
    rw [BurstCall.writeOf, BurstCall.computed]
    rcases hs : getSession cfg x.ch (x.jobs i).op.sessId (x.scan cfg cl i).cl with _ | s
    · simp
    · have hd : x.device i < cfg.nbCryptodevs := (getSession_eq_some.mp hs).1
      simpa [F.length_eq] using hproc _ hd _
  refine ⟨a - (x.jobs i).payload.data.off, ?_, ?_⟩
  · simp only [BurstCall.writeOf] at hlo hhi hlen
    omega
  · simp only [BurstCall.writeOf] at hr hlo
    rw [hr, Ptr.add, Nat.add_sub_cancel' hlo]

/-- A job of the burst reads what was there before, whatever is written for other jobs. -/
lemma bytes_storeAll_of_own (hproc : ∀ d < cfg.nbCryptodevs, ∀ n, cfg.processed d n ≤ n.toNat)
    {ws : List (Ptr × List UInt8)} {b : CryptoBuff}
    (h : ∀ w ∈ ws, ∃ i, w = x.writeOf cfg cl F i ∧ (x.jobs i).payload.Apart b) (heap : Heap)
    {n : ℕ} (hn : n ≤ b.length.toNat) :
    (heap.storeAll ws).bytes b.data n = heap.bytes b.data n := by
  refine Heap.bytes_storeAll heap fun w hw q hq hc => ?_
  obtain ⟨i, rfl, hapart⟩ := h w hw
  obtain ⟨p, hp, heq⟩ := covers_writeOf hproc hc
  exact hapart p hp q (by omega) heq.symm

/-! ## One device -/

/-- The writes of device position `d`. -/
def BurstCall.writes (x : BurstCall) (cfg : Config) (cl : Client) (D : ℕ → List DevEvent) (d : ℕ) :
    List (Ptr × List UInt8) :=
  ((x.devScript cfg cl d).returns.zip (D d)).map fun w => (w.2.op.bufAddr, w.1.out)

lemma storeReturns_eq (h : Heap) (d : ℕ) :
    storeReturns h (x.devScript cfg cl d).returns (D d) = h.storeAll (x.writes cfg cl D d) := by
  rw [storeReturns, Heap.storeAll, BurstCall.writes, List.foldl_map]

/-- Operation number `k` of a device is that of the job at position `k`. -/
lemma BurstOutcome.prepared_at (ho : BurstOutcome cfg x cl r r₂ h₀ E D) (hs : x.Served cfg cl)
    (hmax : x.size ≤ cfg.maxBurstSize.toNat) {d k : ℕ} (hd : d < 2)
    (hk : k < ((x.sorted cfg cl).idxs d).length) :
    ∃ op, (E d)[k]? = some op ∧
      x.Prepared cfg cl d (h₀ d) (((x.sorted cfg cl).idxs d).getD k 0) op := by
  have hf := ho.dev d hd
  have hpool := hs.poolServes hd
  obtain ⟨hE, -, -⟩ := hf.served hpool
  have hlen : ((x.sorted cfg cl).idxs d).length ≤ x.size := scan_idxs_length_le cfg x cl d x.size
  obtain ⟨op, hop⟩ : ∃ op, (E d)[k]? = some op := ⟨_, List.getElem?_eq_getElem (hE.symm ▸ hk)⟩
  obtain ⟨pos, -, heap, hprep, hfull⟩ := hf.prepared k op hop
  obtain ⟨hpos, hheap⟩ := hfull hpool
  rw [Nat.mod_eq_of_lt (by omega)] at hpos
  rw [hpos, hheap (by omega)] at hprep
  exact ⟨op, hop, hprep⟩

lemma BurstCall.Served.tickets (hs : x.Served cfg cl) {d k : ℕ} (hd : d < 2)
    (hk : k < ((x.sorted cfg cl).idxs d).length) :
    x.devScript cfg cl d = x.script.dev d ∧
      ((x.devScript cfg cl d).returns.map (·.ticket)).Perm
        (List.range' (baseTicket cfg cl d) ((x.sorted cfg cl).idxs d).length) := by
  have hne : (x.sorted cfg cl).idxs d ≠ [] := List.length_pos_iff.mp (by omega)
  have hscript : x.devScript cfg cl d = x.script.dev d := if_neg hne
  exact ⟨hscript, hscript ▸ (hs d hd hne).tickets⟩

section Device

variable (ho : BurstOutcome cfg x cl r r₂ h₀ E D) (hrun : x.run cfg cl = some r)
  (hc : x.Computing cfg cl F) (hmax : x.size ≤ cfg.maxBurstSize.toNat)
  (hiv : ∀ j < x.size, x.Ciphers cfg cl j → (x.jobs j).cipherIv.length = 16)
  {d : ℕ} (hd : d < 2)
  (hheap : ∀ j ∈ (x.sorted cfg cl).idxs d,
    (x.jobs j).cipherIv.bytes (h₀ d) = (x.jobs j).cipherIv.bytes x.heap)

include ho hrun hc hmax hiv hd hheap

/-- **What comes back for the job at position `k`.** -/
lemma BurstOutcome.returned_at {k : ℕ} (hk : k < ((x.sorted cfg cl).idxs d).length) {a : Return}
    (ha : a ∈ (x.devScript cfg cl d).returns) (ht : a.ticket = baseTicket cfg cl d + k) :
    ∃ ok, x.computed cfg cl F (((x.sorted cfg cl).idxs d).getD k 0) = some (ok, a.out) ∧
      a.status.Reports ok := by
  obtain ⟨op, hop, s, old, hget, rfl⟩ := ho.prepared_at hc.served hmax hd hk
  have hmem := getD_mem hk
  generalize ((x.sorted cfg cl).idxs d).getD k 0 = j at hmem hop hget ⊢
  obtain ⟨hj, hl⟩ := mem_scan_idxs.mp hmem
  obtain ⟨hscript, -⟩ := hc.served.tickets hd hk
  obtain ⟨s', ok, hs', hF, hst⟩ := hc.computes r hrun _
    (ho.mem_enqs.mpr ⟨d, hd, k, _, hop, rfl⟩) d hd rfl a (hscript ▸ ha) ht
  obtain rfl : s = s' := Option.some.inj hs'
  -- the session is the one the job had when it was scanned
  obtain ⟨t, ht0, ht1⟩ := hl.getSession hj.le
  obtain rfl : t = s := Option.some.inj (ht1.symm.trans hget)
  rw [iv_setOpCipher _ _ _ _ _ _ _ (hiv j hj (ciphers_iff.mpr ⟨d, hl⟩)), hheap j hmem,
    byteLength_prepared] at hF
  refine ⟨ok, ?_, hst⟩
  rw [BurstCall.computed, ht0, ← hl.eq_device, Option.map_some]
  exact congrArg some hF

/-- **What the device writes**: one result for each of its jobs. -/
lemma BurstOutcome.mem_writes {w : Ptr × List UInt8} :
    w ∈ x.writes cfg cl D d ↔ ∃ j ∈ (x.sorted cfg cl).idxs d, w = x.writeOf cfg cl F j := by
  have hf := ho.dev d hd
  obtain ⟨hE, -, -⟩ := hf.served (hc.served.poolServes hd)
  have hwrite : ∀ a ev, ReturnedAs (cfg.enabledCdevs d).cdevId (baseTicket cfg cl d) (E d) a ev →
      a ∈ (x.devScript cfg cl d).returns → ∃ k < ((x.sorted cfg cl).idxs d).length,
        a.ticket = baseTicket cfg cl d + k ∧
          (ev.op.bufAddr, a.out) = x.writeOf cfg cl F (((x.sorted cfg cl).idxs d).getD k 0) := by
    rintro a ev ⟨k, op, htick, hop, rfl⟩ ha
    have hk : k < ((x.sorted cfg cl).idxs d).length := by
      rw [← hE]
      exact (List.getElem?_eq_some_iff.mp hop).1
    obtain ⟨op', hop', hprep⟩ := ho.prepared_at hc.served hmax hd hk
    obtain rfl : op = op' := Option.some.inj (hop.symm.trans hop')
    obtain ⟨ok, hres, -⟩ := ho.returned_at hrun hc hmax hiv hd hheap hk ha htick
    refine ⟨k, hk, htick, ?_⟩
    rw [BurstCall.writeOf, hres]
    exact congrArg (·, a.out) hprep.bufAddr
  rw [BurstCall.writes, List.mem_map]
  constructor
  · rintro ⟨⟨a, ev⟩, hzip, rfl⟩
    have hret := (List.forall₂_iff_zip.mp hf.returned).2 hzip
    obtain ⟨k, hk, -, hw⟩ := hwrite a ev hret (List.of_mem_zip hzip).1
    exact ⟨_, getD_mem hk, hw⟩
  · rintro ⟨j, hj, rfl⟩
    obtain ⟨k, hk, rfl⟩ := exists_getD_eq hj
    obtain ⟨-, hperm⟩ := hc.served.tickets hd hk
    -- some operation came back with the ticket of the job
    have hmem : baseTicket cfg cl d + k ∈ (x.devScript cfg cl d).returns.map (·.ticket) :=
      hperm.mem_iff.mpr (by simp [hk])
    obtain ⟨a, ha, htick⟩ := List.mem_map.mp hmem
    obtain ⟨ev, hzip, hret⟩ := forall₂_zip_mem hf.returned ha
    obtain ⟨k', -, htick', hw⟩ := hwrite a ev hret ha
    obtain rfl : k' = k := by omega
    exact ⟨(a, ev), hzip, hw⟩

/-- **What the device answers**: each job gets the status of its own result. -/
lemma BurstOutcome.answered {j : ℕ} (hj : j ∈ (x.sorted cfg cl).idxs d) :
    r₂.jobs j = ((x.jobs j).setBuffListLength 1).setStatus (x.statusOf cfg cl F j) := by
  obtain ⟨k, hk, rfl⟩ := exists_getD_eq hj
  have hf := ho.dev d hd
  obtain ⟨-, hR, -⟩ := hf.served (hc.served.poolServes hd)
  obtain ⟨hscript, hperm⟩ := hc.served.tickets hd hk
  obtain ⟨b, hb⟩ : ∃ b, (x.devScript cfg cl d).returns[k]? = some b :=
    ⟨_, List.getElem?_eq_getElem (hR.symm ▸ hk)⟩
  have hbmem := List.mem_of_getElem? hb
  -- the status in place `k` is that of the job, though the operation may be another one
  have hrep : ∃ ok out, x.computed cfg cl F (((x.sorted cfg cl).idxs d).getD k 0) =
      some (ok, out) ∧ b.status.Reports ok := by
    rcases hc.order with htotal | hfifo
    · have hok : ∀ k < ((x.sorted cfg cl).idxs d).length,
          ∀ a ∈ (x.devScript cfg cl d).returns, a.ticket = baseTicket cfg cl d + k →
          ∃ out, x.computed cfg cl F (((x.sorted cfg cl).idxs d).getD k 0) = some (true, out) ∧
            a.status.Reports true := by
        intro k hk a ha htick
        obtain ⟨ok, hres, hst⟩ := ho.returned_at hrun hc hmax hiv hd hheap hk ha htick
        obtain rfl : ok = true := by
          obtain ⟨s, -, hs⟩ := Option.map_eq_some_iff.mp hres
          exact (congrArg Prod.fst hs).symm.trans (htotal _ _ _)
        exact ⟨_, hres, hst⟩
      have hmem : baseTicket cfg cl d + k ∈ (x.devScript cfg cl d).returns.map (·.ticket) :=
        hperm.mem_iff.mpr (by simp [hk])
      obtain ⟨a, ha, htick⟩ := List.mem_map.mp hmem
      obtain ⟨out, hres, -⟩ := hok k hk a ha htick
      have hbrange := hperm.mem_iff.mp (List.mem_map_of_mem (f := (·.ticket)) hbmem)
      rw [List.mem_range'_1] at hbrange
      obtain ⟨-, -, hst⟩ := hok (b.ticket - baseTicket cfg cl d) (by omega) b hbmem (by omega)
      exact ⟨true, out, hres, hst⟩
    · have hne : (x.sorted cfg cl).idxs d ≠ [] := List.length_pos_iff.mp (by omega)
      have hget := congrArg (·[k]?) (hscript ▸ hfifo d hd hne)
      simp only [List.getElem?_map, List.getElem?_range' hk, hb, Option.map_some,
        Option.some.injEq] at hget
      obtain ⟨ok, hres, hst⟩ := ho.returned_at hrun hc hmax hiv hd hheap hk hbmem (by omega)
      exact ⟨ok, _, hres, hst⟩
  obtain ⟨ok, out, hres, hst⟩ := hrep
  obtain ⟨hlt, hl⟩ := mem_scan_idxs.mp (getD_mem hk)
  have hsorted : (x.sorted cfg cl).jobs (((x.sorted cfg cl).idxs d).getD k 0) = _ := hl.job hlt
  rw [← ho.listed d hd _ (getD_mem hk), hf.job k hk, hsorted, List.getElem?_map, hb,
    BurstCall.statusOf, hres]
  unfold RteStatus.Reports at hst
  cases ok with
  | true =>
      simp only [if_true] at hst
      rw [Option.map_some, hst]
      rfl
  | false =>
      simp only [Bool.false_eq_true, if_false] at hst
      cases hb' : b.status with
      | success => exact absurd hb' hst.1
      | notProcessed => exact absurd hb' hst.2
      | _ =>
          rw [Option.map_some, hb']
          rfl

end Device

/-! ## The burst -/

/-- **The result of a burst**: `r₂` is the state after the devices, `r` the state after the
closes. -/
structure BurstResult (cfg : Config) (x : BurstCall) (cl : Client) (F : InPlace) (r₂ r : Run) :
    Prop where
  registry : r₂.cl.registry = (x.sorted cfg cl).cl.registry
  pool : r₂.cl.pool = (x.sorted cfg cl).cl.pool
  ciphers : ∀ i < x.size, x.Ciphers cfg cl i →
    r₂.jobs i = ((x.jobs i).setBuffListLength 1).setStatus (x.statusOf cfg cl F i)
  others : ∀ i < x.size, ¬x.Ciphers cfg cl i → r₂.jobs i = (x.scan cfg cl (i + 1)).jobs i
  closes : (x.closing cfg r₂ x.size).1.registry = r.cl.registry ∧
    (x.closing cfg r₂ x.size).1.pool = r.cl.pool ∧ (x.closing cfg r₂ x.size).2 = r.jobs
  memory : ∃ ws, (∀ w, w ∈ ws ↔ ∃ i < x.size, x.Ciphers cfg cl i ∧ w = x.writeOf cfg cl F i) ∧
    r.heap = x.heap.storeAll ws
  idle : Idle r.cl

lemma mem_sorted_idxs {d i : ℕ} :
    i ∈ (x.sorted cfg cl).idxs d ↔ i < x.size ∧ x.Ciphers cfg cl i ∧ d = x.device i := by
  constructor
  · intro h
    obtain ⟨hi, hl⟩ := mem_scan_idxs.mp h
    exact ⟨hi, ciphers_iff.mpr ⟨d, hl⟩, hl.eq_device⟩
  · rintro ⟨hi, hc, rfl⟩
    exact mem_scan_idxs.mpr ⟨hi, hc⟩

lemma burstResult_zero (h0 : x.size = 0) (hidle : Idle cl) :
    ∃ r₂ r, x.run cfg cl = some r ∧ BurstResult cfg x cl F r₂ r := by
  refine ⟨⟨cl, x.jobs, x.heap, [], [], [], []⟩, ⟨cl, x.jobs, x.heap, [], [], [], []⟩, ?_, ?_⟩
  · rw [BurstCall.run, runJobs, if_pos h0]
  · have hsorted : x.sorted cfg cl = x.scan cfg cl 0 := by rw [BurstCall.sorted, h0]
    refine ⟨by rw [hsorted]; rfl, by rw [hsorted]; rfl, fun i hi => by omega,
      fun i hi => by omega, by rw [h0]; exact ⟨rfl, rfl, rfl⟩, ⟨[], fun w => ?_, rfl⟩, hidle⟩
    simp [h0]

/-- **A burst on devices that compute.** -/
theorem run_computing (hnb : cfg.nbCryptodevs = 2)
    (hne : (cfg.enabledCdevs 0).cdevId ≠ (cfg.enabledCdevs 1).cdevId)
    (hproc : ∀ d < cfg.nbCryptodevs, ∀ n, cfg.processed d n ≤ n.toNat) (hidle : Idle cl)
    (hsize : x.size ≤ maxJobsBurstSize) (hmax : x.size ≤ cfg.maxBurstSize.toNat)
    (hiv : ∀ i < x.size, x.Ciphers cfg cl i → (x.jobs i).cipherIv.length = 16)
    (hown : x.OwnBuffers) (hc : x.Computing cfg cl F) :
    ∃ r₂ r, x.run cfg cl = some r ∧ BurstResult cfg x cl F r₂ r := by
  by_cases h0 : x.size = 0
  · exact burstResult_zero h0 hidle
  obtain ⟨r, hrun⟩ := run_returns hnb hne hidle hsize hmax hc.served
  have hphase := hrun
  rw [run_eq_devicePhase h0] at hphase
  obtain ⟨r₂, h₂, rfl⟩ := Option.map_eq_some_iff.mp hphase
  obtain ⟨h₀, E, D, ho⟩ := devicePhase_outcome hnb hne hidle hsize h₂
  -- the first device works from the memory of the call, and so does the second one
  have hheap0 : ∀ j ∈ (x.sorted cfg cl).idxs 0,
      (x.jobs j).cipherIv.bytes (h₀ 0) = (x.jobs j).cipherIv.bytes x.heap := fun j _ => by
    rw [ho.heap₀]
  have hw0 := fun w => ho.mem_writes hrun hc hmax hiv Nat.two_pos hheap0 (w := w)
  have hheap1 : ∀ j ∈ (x.sorted cfg cl).idxs 1,
      (x.jobs j).cipherIv.bytes (h₀ 1) = (x.jobs j).cipherIv.bytes x.heap := by
    intro j hj
    have hapart : ∀ w ∈ x.writes cfg cl D 0,
        ∃ i, w = x.writeOf cfg cl F i ∧ (x.jobs i).payload.Apart (x.jobs j).cipherIv := by
      intro w hw
      obtain ⟨i, hi, rfl⟩ := (hw0 w).mp hw
      refine ⟨i, rfl, (hown i (mem_scan_idxs.mp hi).1 j (mem_scan_idxs.mp hj).1 ?_).2.1⟩
      rintro rfl
      exact absurd (scan_idxs_disjoint hi hj) (by decide)
    rw [ho.heap₁, storeReturns_eq]
    exact bytes_storeAll_of_own hproc hapart x.heap le_rfl
  have hw1 := fun w => ho.mem_writes hrun hc hmax hiv Nat.one_lt_two hheap1 (w := w)
  obtain ⟨hreg, hpool⟩ := runDevices_sessions h₂
  refine ⟨r₂, _, hrun, hreg, hpool, fun i hi hci => ?_, fun i hi hci => ?_, ⟨rfl, rfl, rfl⟩,
    ⟨x.writes cfg cl D 0 ++ x.writes cfg cl D 1, fun w => ?_, ?_⟩,
    ho.idle hidle fun d hd => hc.served.poolServes hd⟩
  · have hd : x.device i < 2 := hnb ▸ Listed.lt hci
    have hmem : i ∈ (x.sorted cfg cl).idxs (x.device i) := mem_sorted_idxs.mpr ⟨hi, hci, rfl⟩
    rcases Nat.lt_succ_iff_lt_or_eq.mp hd with h1 | h1
    · obtain h1 : x.device i = 0 := by omega
      rw [h1] at hmem
      exact ho.answered hrun hc hmax hiv Nat.two_pos hheap0 hmem
    · rw [h1] at hmem
      exact ho.answered hrun hc hmax hiv Nat.one_lt_two hheap1 hmem
  · rw [ho.not_listed fun d hl => hci (ciphers_iff.mpr ⟨d, hl⟩)]
    exact scan_jobs_of_lt hi
  · rw [List.mem_append, hw0, hw1]
    constructor
    · rintro (⟨j, hj, rfl⟩ | ⟨j, hj, rfl⟩)
      · exact ⟨j, (mem_sorted_idxs.mp hj).1, (mem_sorted_idxs.mp hj).2.1, rfl⟩
      · exact ⟨j, (mem_sorted_idxs.mp hj).1, (mem_sorted_idxs.mp hj).2.1, rfl⟩
    · rintro ⟨j, hj, hcj, rfl⟩
      have hd : x.device j < 2 := hnb ▸ Listed.lt hcj
      rcases Nat.lt_succ_iff_lt_or_eq.mp hd with h1 | h1
      · exact .inl ⟨j, mem_sorted_idxs.mpr ⟨hj, hcj, by omega⟩, rfl⟩
      · exact .inr ⟨j, mem_sorted_idxs.mpr ⟨hj, hcj, h1.symm⟩, rfl⟩
  · rw [ho.heap, storeReturns_eq, ho.heap₁, storeReturns_eq, Heap.storeAll_append]

end Results

end CiphApp
