import CiphApp.Cryptodev.DevPhase

/-!
# A burst of one job on a device that computes a function

What a burst of one job does, when the devices are idle, the op pool has an operation and the
device accepts it and overwrites the payload with a function `F` of the session, the IV and the
payload.  `F` may fail; the device then reports an error.

`Computes` states this about the operations that reach a device and not about the job.  A device
takes the session, the sixteen bytes at the IV offset and the payload from the operation, and one
that counts bits divides the length by eight; that these are the session, the IV and the payload
of the job is what is to be proved.
-/

namespace CiphApp

open Lib

/-! ## The device -/

/-- What a device computes from a session, an IV and a payload. -/
abbrev CipherFun := SessPtr → List UInt8 → List UInt8 → Option (List UInt8)

/-- The number of payload bytes that the device processes for an operation. -/
def CryptodevDevice.byteLength (dv : CryptodevDevice) (op : CryptoOp) : ℕ :=
  match dv.algo with
  | .snow3gUea2 => op.cipherDataLength.toNat / 8
  | _ => op.cipherDataLength.toNat

/-- The operation `op`, met with memory `heap`, comes back as `a` from a device that computes
`F`. -/
def ComputedAs (F : CipherFun) (dv : CryptodevDevice) (heap : Heap) (op : CryptoOp) (a : Return) :
    Prop :=
  ∃ s, op.session = some s ∧
    match F s ((List.range 16).map op.iv) (heap.bytes op.bufAddr (dv.byteLength op)) with
    | some out => a.status = .success ∧ a.out = out
    | none => a.status ≠ .success ∧ a.status ≠ .notProcessed

/-- The devices compute `F` on what is enqueued in a burst of one job. -/
def BurstCall.Computes (x : BurstCall) (cfg : Config) (cl : Client) (F : CipherFun) : Prop :=
  ∀ r, x.run cfg cl = some r → ∀ ev ∈ r.enqs, ∀ d < 2, ev.dev = (cfg.enabledCdevs d).cdevId →
    ∀ a ∈ (x.script.dev d).returns, a.ticket = ev.ticket →
      ComputedAs F (cfg.enabledCdevs d) x.heap ev.op a

/-! ## The burst -/

section Single

variable {cfg : Config} {x : BurstCall} {cl : Client} {F : CipherFun} {r r₂ : Run}
  {h₀ : ℕ → Heap} {E : ℕ → List CryptoOp} {D : ℕ → List DevEvent}

/-- The list of a device in a burst of one job. -/
lemma sorted_idxs_one (hsize : x.size = 1) (d : ℕ) :
    (x.sorted cfg cl).idxs d = if Listed cfg x cl d 0 then [0] else [] := by
  have h : (x.sorted cfg cl).idxs d = (List.range x.size).filter (Listed cfg x cl d) :=
    scan_idxs cfg x cl d x.size
  rw [h, hsize]
  by_cases hl : Listed cfg x cl d 0 <;> simp [hl]

lemma storeReturns_nil (h : Heap) (D : List DevEvent) : storeReturns h [] D = h := rfl

lemma devScript_returns_nil {d : ℕ} (h : (x.sorted cfg cl).idxs d = []) :
    (x.devScript cfg cl d).returns = [] := by
  rw [BurstCall.devScript, if_pos h]
  rfl

/-- **The job reaches no device**: memory is as it was, and a ciphering job fails. -/
lemma BurstOutcome.one_unlisted (ho : BurstOutcome cfg x cl r r₂ h₀ E D) (hsize : x.size = 1)
    (hno : ∀ d, ¬Listed cfg x cl d 0) :
    r.heap = x.heap ∧ ((x.jobs 0).op.opType = cryptoOpTypeSessCiphering →
      (r.jobs 0).op = { (x.jobs 0).op with opStatus := cryptoOpStatusFailed }) := by
  have hnil : ∀ d, (x.sorted cfg cl).idxs d = [] := fun d => by
    rw [sorted_idxs_one hsize, if_neg (hno d)]
  refine ⟨?_, fun htype => ?_⟩
  · rw [ho.heap, ho.heap₁, devScript_returns_nil (hnil 0), devScript_returns_nil (hnil 1)]
    rfl
  · have hs : ((x.sorted cfg cl).jobs 0).op = _ :=
      scan_not_listed (n := x.size) (by omega) hno htype
    have h2 : r₂.jobs 0 = (x.sorted cfg cl).jobs 0 := ho.unlisted 0 fun d _ hmem => by
      rw [hnil d] at hmem
      exact absurd hmem List.not_mem_nil
    have hpost : r.jobs 0 = r₂.jobs 0 := by
      rw [ho.closes]
      refine postprocessJobs_jobs_of_ne ?_
      show (r₂.jobs 0).op.opType ≠ _
      rw [h2, hs, htype]
      decide
    rw [hpost, h2, hs]

/-- **The job reaches device position `d`**: its operation carries its session, and what the
device returns for it is in the buffer and decides the status. -/
lemma BurstOutcome.one_listed (ho : BurstOutcome cfg x cl r r₂ h₀ E D) (hnb : cfg.nbCryptodevs = 2)
    (hrun : x.run cfg cl = some r) (hsize : x.size = 1) (hmax : x.size ≤ cfg.maxBurstSize.toNat)
    (hs : x.Served cfg cl) (hF : x.Computes cfg cl F) {d : ℕ} (hl : Listed cfg x cl d 0) :
    ∃ a op, x.Prepared cfg cl d x.heap 0 op ∧
      ComputedAs F (cfg.enabledCdevs d) x.heap op a ∧
      r.heap = x.heap.store ((x.jobs 0).cipherBuffList.buffs 0).data a.out ∧
      r.jobs 0 = (((x.jobs 0).setStatus cryptoOpStatusSucc).setBuffListLength 1).afterResult
        (some a.status) := by
  have hd : d < 2 := hnb ▸ hl.lt
  have hidx : (x.sorted cfg cl).idxs d = [0] := by rw [sorted_idxs_one hsize, if_pos hl]
  have hscript : x.devScript cfg cl d = x.script.dev d := if_neg (by simp [hidx])
  have hf := ho.dev d hd
  obtain ⟨hE, hR, -⟩ := hf.served (hs.poolServes hd)
  rw [hidx, List.length_singleton] at hE hR
  obtain ⟨op, hop⟩ := List.length_eq_one_iff.mp hE
  obtain ⟨a, ha⟩ := List.length_eq_one_iff.mp hR
  -- the other device has no job
  have hother : ∀ d' < 2, d' ≠ d → (x.devScript cfg cl d').returns = [] := fun d' _ hne => by
    refine devScript_returns_nil ?_
    rw [sorted_idxs_one hsize, if_neg]
    intro hl'
    exact hne ((listed_iff.mp hl').2.2.1.symm.trans (listed_iff.mp hl).2.2.1)
  have hh₀ : h₀ d = x.heap := by
    rcases Nat.lt_succ_iff_lt_or_eq.mp hd with h1 | rfl
    · obtain rfl : d = 0 := by omega
      exact ho.heap₀
    · rw [ho.heap₁, hother 0 (by decide) (by decide), storeReturns_nil]
  obtain ⟨pos, hpos, heap, hprep, hfull⟩ := hf.prepared 0 op (by simp [hop])
  rw [hidx, List.length_singleton] at hpos
  obtain rfl : pos = 0 := by omega
  rw [(hfull (hs.poolServes hd)).2 (by omega), hh₀, hidx] at hprep
  change x.Prepared cfg cl d x.heap 0 op at hprep
  -- the one return is that of the one operation
  have hret := hf.returned
  rw [ha] at hret
  obtain ⟨ev, hev, hD⟩ : ∃ ev, ReturnedAs (cfg.enabledCdevs d).cdevId (baseTicket cfg cl d) (E d)
      a ev ∧ D d = [ev] := by
    cases hDd : D d with
    | nil => simp [hDd] at hret
    | cons ev evs =>
        rw [hDd, List.forall₂_cons, List.forall₂_nil_left_iff] at hret
        exact ⟨ev, hret.1, by rw [hret.2]⟩
  obtain ⟨k, op', htick, hk, rfl⟩ := hev
  obtain ⟨rfl, rfl⟩ : k = 0 ∧ op = op' := by
    rw [hop] at hk
    obtain ⟨hlt, he⟩ := List.getElem?_eq_some_iff.mp hk
    simp only [List.length_singleton] at hlt
    obtain rfl : k = 0 := by omega
    exact ⟨rfl, he⟩
  have hcomp : ComputedAs F (cfg.enabledCdevs d) x.heap op a := by
    refine hF r hrun ⟨(cfg.enabledCdevs d).cdevId, baseTicket cfg cl d + 0, op⟩ ?_ d hd rfl a ?_
      htick
    · exact ho.mem_enqs.mpr ⟨d, hd, 0, op, by simp [hop], rfl⟩
    · rw [← hscript, ha]
      exact List.mem_singleton_self a
  refine ⟨a, op, hprep, hcomp, ?_, ?_⟩
  · rw [← hprep.bufAddr, ho.heap]
    rcases Nat.lt_succ_iff_lt_or_eq.mp hd with h1 | rfl
    · obtain rfl : d = 0 := by omega
      rw [hother 1 (by decide) (by decide), storeReturns_nil, ho.heap₁, ha, hD]
      rfl
    · rw [hh₀, ha, hD]
      rfl
  · have hjob := hf.job 0 (by simp [hidx])
    rw [hidx, ha] at hjob
    have hsorted : (x.sorted cfg cl).jobs 0 = _ := hl.job (n := x.size) (by omega)
    change r.jobs 0 = ((x.sorted cfg cl).jobs 0).afterResult (some a.status) at hjob
    rw [hjob, hsorted]

end Single

/-! ## The two devices of the server -/

section Devices

variable {m : UInt32} {behind : UInt32 → RteCipherOp} {x : BurstCall} {cl : Client}
  {F : CipherFun}

lemma byteLength_setOpCipher {d : ℕ} (hd : d < 2) (heap : Heap) (vec : CryptoOperation) (j : ℕ)
    (s : SessPtr) (old : CryptoOp)
    (hlen : (vec.cipherBuffList.buffs 0).length.toNat ≤ maxTBuffSize.toNat) :
    ((Config.ofDevices 0 1 m behind).enabledCdevs d).byteLength
        (setOpCipher (Config.ofDevices 0 1 m behind)
          ((Config.ofDevices 0 1 m behind).enabledCdevs d).cdevId heap vec j (some s) old) =
      (vec.cipherBuffList.buffs 0).length.toNat := by
  rcases Nat.lt_succ_iff_lt_or_eq.mp hd with h1 | rfl
  · obtain rfl : d = 0 := by omega
    rfl
  · -- the length was multiplied by eight
    show ((vec.cipherBuffList.buffs 0).length <<< 3).toNat / 8 = _
    have hb : maxTBuffSize.toNat = 9000 := by decide
    simp only [UInt32.toNat_shiftLeft, UInt32.reduceToNat, Nat.shiftLeft_eq, Nat.reduceMod,
      Nat.reducePow]
    omega

lemma iv_setOpCipher (cfg : Config) (dev : UInt8) (heap : Heap) (vec : CryptoOperation) (j : ℕ)
    (s : SessPtr) (old : CryptoOp) (hiv : vec.cipherIv.length = 16) :
    (List.range 16).map (setOpCipher cfg dev heap vec j (some s) old).iv =
      vec.cipherIv.bytes heap := by
  rw [CryptoBuff.bytes, Heap.bytes, hiv]
  refine List.map_congr_left fun k hk => ?_
  have hk' : k < (16 : UInt32).toNat := by simpa using hk
  simp only [setOpCipher, hiv, if_pos hk']

/-- What a ciphering job computes: its session is live, and `F` succeeds. -/
def BurstCall.result (x : BurstCall) (cfg : Config) (cl : Client) (F : CipherFun) :
    Option (List UInt8) :=
  (getSession cfg x.ch (x.jobs 0).op.sessId cl).bind fun s =>
    F s ((x.jobs 0).cipherIv.bytes x.heap) (((x.jobs 0).cipherBuffList.buffs 0).bytes x.heap)

/-- **A burst of one ciphering job** leaves `F` of the session, the IV and the payload in the
buffer and succeeds, or fails. -/
structure Ciphered (x : BurstCall) (cfg : Config) (cl : Client) (F : CipherFun) (r : Run) :
    Prop where
  success : ∀ out, x.result cfg cl F = some out →
    (r.jobs 0).op = { (x.jobs 0).op with opStatus := cryptoOpStatusSucc } ∧
      r.heap = x.heap.store ((x.jobs 0).cipherBuffList.buffs 0).data out
  failure : x.result cfg cl F = none →
    (r.jobs 0).op = { (x.jobs 0).op with opStatus := cryptoOpStatusFailed }

/-- `h'` is `h`, except perhaps for what is stored at `p`. -/
def WrittenAt (h : Heap) (p : Ptr) (h' : Heap) : Prop := h' = h ∨ ∃ bs, h' = h.store p bs

/-- **A burst of one job** in the environment of `Computes`. -/
theorem run_one (hm : m ≠ 0) (hsize : x.size = 1) (hidle : Idle cl)
    (hs : x.Served (Config.ofDevices 0 1 m behind) cl)
    (hF : x.Computes (Config.ofDevices 0 1 m behind) cl F)
    (hlen : ((x.jobs 0).cipherBuffList.buffs 0).length.toNat ≤ maxTBuffSize.toNat)
    (hiv : (x.jobs 0).cipherIv.length = 16)
    (hstatus : (x.jobs 0).op.opStatus ≠ cryptoOpStatusFailed) :
    ∃ r, x.run (Config.ofDevices 0 1 m behind) cl = some r ∧
      WrittenAt x.heap ((x.jobs 0).cipherBuffList.buffs 0).data r.heap ∧
      ((x.jobs 0).op.opType = cryptoOpTypeSessCiphering →
        Ciphered x (Config.ofDevices 0 1 m behind) cl F r) := by
  generalize hcfg : Config.ofDevices 0 1 m behind = cfg at *
  have hnb : cfg.nbCryptodevs = 2 := by rw [← hcfg]; rfl
  have hne : (cfg.enabledCdevs 0).cdevId ≠ (cfg.enabledCdevs 1).cdevId := by
    rw [← hcfg]
    simp [Config.ofDevices]
  have hmax : x.size ≤ cfg.maxBurstSize.toNat := by
    have hm' : m.toNat ≠ 0 := fun h => hm (UInt32.toNat_inj.mp h)
    rw [hsize, ← hcfg]
    exact Nat.pos_of_ne_zero hm'
  have h64 : x.size ≤ maxJobsBurstSize := by rw [hsize]; decide
  obtain ⟨r, hrun⟩ := run_returns hnb hne hidle h64 hmax hs
  obtain ⟨r₂, h₀, E, D, ho⟩ := run_outcome hnb hne hidle (by omega) h64 hrun
  refine ⟨r, hrun, ?_⟩
  by_cases hl : ∃ d, Listed cfg x cl d 0
  · obtain ⟨d, hl⟩ := hl
    obtain ⟨a, op, ⟨s, old, hget, rfl⟩, ⟨s', hs', hcomp⟩, hheap, hjob⟩ :=
      ho.one_listed hnb hrun hsize hmax hs hF hl
    obtain ⟨t, ht0, ht⟩ := hl.getSession (Nat.zero_le x.size)
    -- the session of the operation is the one the registry holds
    obtain rfl : t = s := Option.some.inj (ht.symm.trans hget)
    obtain rfl : t = s' := Option.some.inj hs'
    have hlive : getSession cfg x.ch (x.jobs 0).op.sessId cl = some t := ht0
    have hbytes : x.heap.bytes ((x.jobs 0).cipherBuffList.buffs 0).data
        ((cfg.enabledCdevs d).byteLength (setOpCipher cfg (cfg.enabledCdevs d).cdevId x.heap
          (x.jobs 0) 0 (some t) old)) = ((x.jobs 0).cipherBuffList.buffs 0).bytes x.heap := by
      rw [← hcfg, byteLength_setOpCipher (hnb ▸ hl.lt) _ _ _ _ _ hlen]
      rfl
    rw [iv_setOpCipher _ _ _ _ _ _ _ hiv, show (setOpCipher cfg (cfg.enabledCdevs d).cdevId x.heap
      (x.jobs 0) 0 (some t) old).bufAddr = ((x.jobs 0).cipherBuffList.buffs 0).data from rfl,
      hbytes] at hcomp
    refine ⟨.inr ⟨_, hheap⟩, fun _ => ⟨fun out hout => ?_, fun hnone => ?_⟩⟩
    · rw [BurstCall.result, hlive, Option.bind_some] at hout
      rw [hout] at hcomp
      obtain ⟨hst, rfl⟩ := hcomp
      rw [hjob, hst]
      exact ⟨rfl, hheap⟩
    · rw [BurstCall.result, hlive, Option.bind_some] at hnone
      rw [hnone] at hcomp
      obtain ⟨hst, hproc⟩ := hcomp
      rw [hjob]
      cases ha : a.status with
      | success => exact absurd ha hst
      | notProcessed => exact absurd ha hproc
      | _ => rfl
  · push Not at hl
    obtain ⟨hheap, hjob⟩ := ho.one_unlisted hsize hl
    refine ⟨.inl hheap, fun htype => ⟨fun out hout => ?_, fun _ => hjob htype⟩⟩
    -- a ciphering job with a live session is listed
    obtain ⟨s, hget, -⟩ := Option.bind_eq_some_iff.mp hout
    exact absurd (listed_iff.mpr ⟨hstatus, htype, rfl, by
      rw [show getSession cfg x.ch (x.jobs 0).op.sessId (x.scan cfg cl 0).cl = some s from hget]
      rfl⟩) (hl _)

end Devices

end CiphApp
