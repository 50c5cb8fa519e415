import CiphApp.Cryptodev.SessionMap

/-!
# Jobs that come in as failed

The agent hands every message of a batch to `run_jobs`, also those it could not make a job of;
these carry the status `FAILED`.  `preprocess_jobs` skips such a job, so it creates no session and
goes to no device.  `postprocess_jobs` looks at the operation type only: a failed close is carried
out like any other, and answered with a success, if its session is live when its turn comes.

Whether it can be live is decided by the burst and the registry it starts from.  Slots are handed
out from the lowest free one on, so a free slot can be filled by the scan exactly if there are more
jobs that ask for a session on its device than free slots below it (`scan_bound`, `scan_fills`).
The closes before it decide the rest (`closed_eq_none_iff`).

What the session pool, the op pool and the devices answer is not an input: the property is that a
failed job does nothing whatever they answer.
-/

namespace CiphApp

open Lib

/-! ## Failed jobs -/

/-- Job `i` comes in as failed. -/
def BurstCall.Failed (x : BurstCall) (i : ℕ) : Prop :=
  (x.jobs i).op.opStatus = cryptoOpStatusFailed

/-- Job `i` is a close. -/
def BurstCall.Closes (x : BurstCall) (i : ℕ) : Prop :=
  (x.jobs i).op.opType = cryptoOpTypeSessClose

instance (x : BurstCall) (i : ℕ) : Decidable (x.Failed i) :=
  inferInstanceAs (Decidable (_ = _))

/-- **Job `i` did nothing** in a burst whose device loop ended in `r₂`: neither of its passes
touched the registry, no operation was submitted for it, and its response is a failure. -/
structure BurstCall.Inert (x : BurstCall) (cfg : Config) (cl : Client) (r₂ : Run) (i : ℕ) :
    Prop where
  scanned : (x.scan cfg cl (i + 1)).cl.registry = (x.scan cfg cl i).cl.registry
  closed : (x.closing cfg r₂ (i + 1)).1.registry = (x.closing cfg r₂ i).1.registry
  notSubmitted : ∀ ev ∈ r₂.enqs, ev.op.vec ≠ i
  response : ((finishJobs cfg x.ch x.script x.size r₂).jobs i).op.opStatus = cryptoOpStatusFailed

/-- The failed jobs of a burst do nothing, whatever the pools and the devices answer. -/
def BurstCall.FailedInert (x : BurstCall) (cfg : Config) (cl : Client) : Prop :=
  ∀ script r₂, HonestPool cfg { x with script } cl →
    BurstCall.devicePhase { x with script } cfg cl = some r₂ →
    ∀ i < x.size, x.Failed i → BurstCall.Inert { x with script } cfg cl r₂ i

/-- Job `i` asks for a session on device `d`. -/
def BurstCall.Asks (x : BurstCall) (cfg : Config) (d i : ℕ) : Prop :=
  ¬x.Failed i ∧ (x.jobs i).op.opType = cryptoOpTypeSessCreate ∧
    (x.jobs i).op.cipherAlgo < cryptoCipherAlgoLast ∧
    (cfg.algo2cdevIdMap (x.jobs i).op.cipherAlgo).toNat = d

instance (x : BurstCall) (cfg : Config) (d : ℕ) : DecidablePred (x.Asks cfg d) :=
  fun _ => inferInstanceAs (Decidable (_ ∧ _ ∧ _ ∧ _))

/-- The slot holds no session. -/
def Client.FreeSlot (cl : Client) (ch d slot : ℕ) : Prop := cl.registry ch d slot = none

instance (cl : Client) (ch d : ℕ) : DecidablePred (cl.FreeSlot ch d) :=
  fun _ => inferInstanceAs (Decidable (_ = none))

/-- **The id can name a session when the closes start**: it does so on entry, or the burst asks
for more sessions on its device than there are free slots below it. -/
def BurstCall.MayBeLive (x : BurstCall) (cfg : Config) (cl : Client) (sessId : UInt32) : Prop :=
  sessCdevId sessId < cfg.nbCryptodevs ∧ sessSlot sessId < maxSessNum ∧
    (¬cl.FreeSlot x.ch (sessCdevId sessId) (sessSlot sessId) ∨
      Nat.count (cl.FreeSlot x.ch (sessCdevId sessId)) (sessSlot sessId) <
        Nat.count (x.Asks cfg (sessCdevId sessId)) x.size)

/-! ## The slots the scan fills -/

section Slots

/-- The session calls of a pass succeed. -/
def SessAns.Grants (ans : SessAns) : Prop := ans.create ≠ none ∧ ans.init = true

/-- **What a pass of the scan does to the registry.**  It leaves a granted request without a slot
only if there is none, and otherwise fills the lowest free one. -/
inductive BurstCall.Grows (x : BurstCall) (cfg : Config) (i : ℕ) (R : Registry) : Registry → Prop
  | keep (hfull : ∀ d, x.Asks cfg d i → (x.script.sess i).Grants →
      ∀ slot < maxSessNum, R.load x.ch d slot ≠ none) : Grows x cfg i R R
  | fill (d slot : ℕ) (s : SessPtr) (hask : x.Asks cfg d i) (hslot : slot < maxSessNum)
      (hfree : R.load x.ch d slot = none) (hfirst : ∀ l < slot, R.load x.ch d l ≠ none) :
      Grows x cfg i R (R.store x.ch d slot (some s))

variable {cfg : Config} {x : BurstCall} {cl : Client}

lemma isNone_eq_false_iff {v : Option SessPtr} : v.isNone = false ↔ v ≠ none := by
  cases v <;> simp

lemma createSession_registry (cfg : Config) (heap : Heap) (ch : ℕ) (vec : CryptoOperation)
    (ans : SessAns) (cl : Client) :
    ((createSession cfg heap ch vec ans cl).1.registry = cl.registry ∧
      (vec.op.cipherAlgo < cryptoCipherAlgoLast → ans.Grants → ∀ slot < maxSessNum,
        cl.registry.load ch (cfg.algo2cdevIdMap vec.op.cipherAlgo).toNat slot ≠ none)) ∨
    ∃ slot s, vec.op.cipherAlgo < cryptoCipherAlgoLast ∧ slot < maxSessNum ∧
      cl.registry.load ch (cfg.algo2cdevIdMap vec.op.cipherAlgo).toNat slot = none ∧
      (∀ l < slot, cl.registry.load ch (cfg.algo2cdevIdMap vec.op.cipherAlgo).toNat l ≠ none) ∧
      (createSession cfg heap ch vec ans cl).1.registry =
        cl.registry.store ch (cfg.algo2cdevIdMap vec.op.cipherAlgo).toNat slot (some s) := by
  unfold createSession
  by_cases halgo : cryptoCipherAlgoLast ≤ vec.op.cipherAlgo
  · rw [if_pos halgo]
    exact .inl ⟨rfl, fun h => absurd h (UInt32.not_lt.mpr halgo)⟩
  rw [if_neg halgo]
  rcases hc : ans.create with _ | s
  · exact .inl ⟨rfl, fun _ hg => absurd hc hg.1⟩
  by_cases hinit : ans.init = true
  · simp only [if_pos hinit]
    split
    · rename_i slot hslot
      obtain ⟨-, hlt, hfree, hfirst⟩ := firstFree_some hslot
      refine .inr ⟨slot, s, UInt32.not_le.mp halgo, by simpa using hlt, by simpa using hfree,
        fun l hl => ?_, rfl⟩
      exact isNone_eq_false_iff.mp (hfirst l (Nat.zero_le l) hl)
    · rename_i hnone
      refine .inl ⟨rfl, fun _ _ slot hslot => ?_⟩
      exact isNone_eq_false_iff.mp
        (firstFree_none hnone slot (Nat.zero_le slot) (by simpa using hslot))
  · simp only [if_neg hinit]
    exact .inl ⟨trivial, fun _ hg => absurd hg.2 hinit⟩

lemma preprocessJob_create {heap : Heap} {ch : ℕ} {ans : SessAns} {i : ℕ} {b : Burst}
    (hs : (b.jobs i).op.opStatus ≠ cryptoOpStatusFailed)
    (ht : (b.jobs i).op.opType = cryptoOpTypeSessCreate) :
    (preprocessJob cfg heap ch ans i b).cl.registry =
      (createSession cfg heap ch (b.jobs i) ans b.cl).1.registry := by
  unfold preprocessJob
  rw [if_neg hs, if_pos ht]
  rcases createSession cfg heap ch (b.jobs i) ans b.cl with ⟨cl', _ | sessId⟩ <;> rfl

lemma PreStep.registry {heap : Heap} {ch : ℕ} {ans : SessAns} {i : ℕ} {b b' : Burst}
    (h : PreStep cfg heap ch ans i b b')
    (hno : (b.jobs i).op.opStatus ≠ cryptoOpStatusFailed →
      (b.jobs i).op.opType ≠ cryptoOpTypeSessCreate) : b'.cl.registry = b.cl.registry := by
  cases h with
  | created _ _ hs ht => exact absurd ht (hno hs)
  | notCreated _ hs ht => exact absurd ht (hno hs)
  | _ => rfl

lemma scan_grows (cfg : Config) (x : BurstCall) (cl : Client) (i : ℕ) :
    x.Grows cfg i (x.scan cfg cl i).cl.registry (x.scan cfg cl (i + 1)).cl.registry := by
  have hjob : (x.scan cfg cl i).jobs i = x.jobs i := scan_jobs_self i
  by_cases hc : ¬x.Failed i ∧ (x.jobs i).op.opType = cryptoOpTypeSessCreate
  · have hs : ((x.scan cfg cl i).jobs i).op.opStatus ≠ cryptoOpStatusFailed := by
      rw [hjob]
      exact hc.1
    have hreg : (x.scan cfg cl (i + 1)).cl.registry =
        (createSession cfg x.heap x.ch ((x.scan cfg cl i).jobs i) (x.script.sess i)
          (x.scan cfg cl i).cl).1.registry :=
      preprocessJob_create hs (hjob.symm ▸ hc.2)
    rw [hjob] at hreg
    obtain ⟨heq, hfull⟩ | ⟨slot, s, halgo, hslot, hfree, hfirst, heq⟩ :=
      createSession_registry cfg x.heap x.ch (x.jobs i) (x.script.sess i) (x.scan cfg cl i).cl
    · rw [hreg, heq]
      refine .keep fun d hask hg slot hslot => ?_
      obtain ⟨-, -, halgo, rfl⟩ := hask
      exact hfull halgo hg slot hslot
    · rw [hreg, heq]
      exact .fill _ slot s ⟨hc.1, hc.2, halgo, rfl⟩ hslot hfree hfirst
  · rw [(scan_step cfg x cl i).registry fun hs ht => hc ⟨by rwa [hjob] at hs, hjob ▸ ht⟩]
    exact .keep fun d hask _ _ _ => absurd ⟨hask.1, hask.2.1⟩ hc

lemma BurstCall.Grows.mono {i : ℕ} {R R' : Registry} (h : x.Grows cfg i R R') {d slot : ℕ}
    (hs : R x.ch d slot ≠ none) : R' x.ch d slot ≠ none := by
  cases h with
  | keep => exact hs
  | fill d' slot' s _ _ hfree => rwa [Registry.store_of_ne_none hfree _ hs]

lemma scan_registry_mono {d slot : ℕ} (h : ¬cl.FreeSlot x.ch d slot) (i : ℕ) :
    (x.scan cfg cl i).cl.registry x.ch d slot ≠ none := by
  induction i with
  | zero => exact h
  | succ i ih => exact (scan_grows cfg x cl i).mono ih

/-- If every index with `p` has fewer than `c` of them below, there are at most `c`. -/
lemma count_le_of_forall_lt {p : ℕ → Prop} [DecidablePred p] {c n : ℕ}
    (h : ∀ l < n, p l → Nat.count p l < c) : Nat.count p n ≤ c := by
  induction n with
  | zero => simp
  | succ n ih =>
      have hle := ih fun l hl => h l (by omega)
      rw [Nat.count_succ]
      split_ifs with hp
      · exact h n (by omega) hp
      · exact hle

/-- **Which slots the scan can fill.** -/
lemma scan_bound {i d slot : ℕ} (hd : d < maxDevNum)
    (h : (x.scan cfg cl i).cl.registry x.ch d slot ≠ none) :
    ¬cl.FreeSlot x.ch d slot ∨
      Nat.count (cl.FreeSlot x.ch d) slot < Nat.count (x.Asks cfg d) i := by
  induction i generalizing slot with
  | zero => exact .inl h
  | succ i ih =>
      have hmono : Nat.count (x.Asks cfg d) i ≤ Nat.count (x.Asks cfg d) (i + 1) :=
        Nat.count_monotone _ (Nat.le_succ i)
      have hold : (x.scan cfg cl i).cl.registry x.ch d slot ≠ none →
          ¬cl.FreeSlot x.ch d slot ∨
            Nat.count (cl.FreeSlot x.ch d) slot < Nat.count (x.Asks cfg d) (i + 1) :=
        fun hi => (ih hi).imp_right fun hlt => hlt.trans_le hmono
      have hstep := scan_grows cfg x cl i
      generalize (x.scan cfg cl (i + 1)).cl.registry = R' at hstep h
      cases hstep with
      | keep => exact hold h
      | fill d' slot' s hask _ _ hfirst =>
          rw [Registry.store_own _ _ _ _ _ hd] at h
          split_ifs at h with hc
          · -- the slots below are full, so the free ones among them were filled by earlier jobs
            obtain ⟨rfl, rfl⟩ := hc
            refine .inr ?_
            rw [Nat.count_succ, if_pos hask]
            refine Nat.lt_succ_of_le (count_le_of_forall_lt fun l hl hfree => ?_)
            have hfull := hfirst l hl
            rw [Registry.load_of_lt _ hd] at hfull
            exact (ih hfull).resolve_left fun hno => hno hfree
          · exact hold h

/-- **Which slots it does fill**, if the session calls succeed. -/
lemma scan_fills (hgrant : ∀ k, (x.script.sess k).Grants) {i d slot : ℕ} (hd : d < maxDevNum)
    (hslot : slot < maxSessNum)
    (h : Nat.count (cl.FreeSlot x.ch d) slot < Nat.count (x.Asks cfg d) i) :
    (x.scan cfg cl i).cl.registry x.ch d slot ≠ none := by
  induction i generalizing slot with
  | zero => simp at h
  | succ i ih =>
      by_contra hnone
      have hfree : (x.scan cfg cl i).cl.registry x.ch d slot = none := by
        by_contra hold
        exact (scan_grows cfg x cl i).mono hold hnone
      -- so this pass asks, and as many did before as there are free slots below
      have hle : Nat.count (x.Asks cfg d) i ≤ Nat.count (cl.FreeSlot x.ch d) slot := by
        by_contra hlt
        exact ih hslot (by omega) hfree
      rw [Nat.count_succ] at h
      split_ifs at h with hask
      · have hstep := scan_grows cfg x cl i
        generalize (x.scan cfg cl (i + 1)).cl.registry = R' at hstep hnone
        cases hstep with
        | keep hfull =>
            refine hfull d hask (hgrant i) slot hslot ?_
            rwa [Registry.load_of_lt _ hd]
        | fill d' slot' s hask' hslot' hfree' hfirst =>
            obtain rfl : d' = d := hask'.2.2.2.symm.trans hask.2.2.2
            simp only [Registry.load_of_lt _ hd] at hfree' hfirst
            have hge : slot' ≤ slot := by
              by_contra hlt
              exact hfirst slot (by omega) hfree
            rcases hge.lt_or_eq with hlt | rfl
            · have hfree₀ : cl.FreeSlot x.ch d' slot' := by
                by_contra hno
                exact scan_registry_mono hno i hfree'
              have hcount : Nat.count (cl.FreeSlot x.ch d') slot' <
                  Nat.count (cl.FreeSlot x.ch d') slot := Nat.count_strict_mono hfree₀ hlt
              exact ih hslot' (by omega) hfree'
            · rw [Registry.store_own _ _ _ _ _ hd, if_pos ⟨rfl, rfl⟩] at hnone
              exact Option.some_ne_none s hnone
      · omega

end Slots

/-! ## The closes -/

section Closes

variable {cfg : Config} {x : BurstCall} {cl : Client} {r₂ : Run}

lemma scan_failed {i n : ℕ} (hi : i < n) (hs : x.Failed i) :
    (x.scan cfg cl n).jobs i = (x.jobs i).setBuffListLength 0 := by
  rw [show (x.scan cfg cl n).jobs i = (x.scan cfg cl (i + 1)).jobs i from scan_jobs_of_lt hi]
  have hjob : (x.scan cfg cl i).jobs i = x.jobs i := scan_jobs_self i
  have hstep := scan_step cfg x cl i
  generalize x.scan cfg cl (i + 1) = b' at hstep
  cases hstep with
  | inAgent => simp [Burst.setJob, Burst.fail]
  | created _ _ hs' => exact absurd (hjob ▸ hs) hs'
  | notCreated _ hs' => exact absurd (hjob ▸ hs) hs'
  | close hs' => exact absurd (hjob ▸ hs) hs'
  | notLive hs' => exact absurd (hjob ▸ hs) hs'
  | listed _ hs' => exact absurd (hjob ▸ hs) hs'
  | unknown hs' => exact absurd (hjob ▸ hs) hs'

/-- The devices leave the types of the jobs, and the closes as a whole, as they came. -/
structure BurstCall.KeepsCloses (x : BurstCall) (r₂ : Run) : Prop where
  opType : ∀ i < x.size, (r₂.jobs i).op.opType = (x.jobs i).op.opType
  op : ∀ i < x.size, x.Closes i → (r₂.jobs i).op = (x.jobs i).op

/-- **When a session is closed** in the second pass. -/
lemma closed_eq_none_iff (hk : x.KeepsCloses r₂) {i : ℕ} (hi : i ≤ x.size) {sessId : UInt32} :
    x.closed cfg r₂ i sessId = none ↔
      x.closed cfg r₂ 0 sessId = none ∨
        ∃ k < i, x.Closes k ∧ (x.jobs k).op.sessId = sessId := by
  induction i with
  | zero => simp
  | succ i ih =>
      have hstep : CloseStep (x.closed cfg r₂ i) (x.jobs i).op _ (x.closed cfg r₂ (i + 1)) :=
        closed_step (by omega) (hk.opType i (by omega)) (hk.op i (by omega))
      generalize x.closed cfg r₂ (i + 1) = m', ((x.closing cfg r₂ x.size).2 i).op = resp at hstep
      have hsplit : (∃ k < i + 1, x.Closes k ∧ (x.jobs k).op.sessId = sessId) ↔
          (∃ k < i, x.Closes k ∧ (x.jobs k).op.sessId = sessId) ∨
            x.Closes i ∧ (x.jobs i).op.sessId = sessId := Nat.exists_lt_succ_right
      rw [hsplit, ← or_assoc, ← ih (by omega)]
      cases hstep with
      | removed ht hlive =>
          by_cases hid : sessId = (x.jobs i).op.sessId
          · subst hid
            simp [show x.Closes i from ht]
          · simp [Function.update_of_ne hid, Ne.symm hid]
      | notLive ht hdead =>
          refine ⟨.inl, ?_⟩
          rintro (h | ⟨-, rfl⟩)
          · exact h
          · exact hdead
      | other _ ht => simp [show ¬x.Closes i from ht]

/-- The first pass leaves the operation of a close as it came, also of a failed one. -/
lemma scan_close_op {i n : ℕ} (hi : i < n) (ht : x.Closes i) :
    ((x.scan cfg cl n).jobs i).op = (x.jobs i).op := by
  by_cases hs : x.Failed i
  · rw [show (x.scan cfg cl n).jobs i = _ from scan_failed hi hs]
    rfl
  · rw [scan_close hi hs ht]

/-- On idle devices the closes come to the second pass as they are. -/
lemma BurstOutcome.keepsCloses {r : Run} {h₀ : ℕ → Heap} {E : ℕ → List CryptoOp}
    {D : ℕ → List DevEvent} (ho : BurstOutcome cfg x cl r r₂ h₀ E D)
    (hnb : cfg.nbCryptodevs = 2) : x.KeepsCloses r₂ where
  opType := fun _ hi => ho.opType hnb hi
  op := fun i hi ht => by
    have hno : ∀ d, ¬Listed cfg x cl d i := fun d hl =>
      absurd ((listed_iff.mp hl).2.1.symm.trans ht) (by decide)
    rw [ho.not_listed hno]
    exact scan_close_op hi ht

end Closes

/-! ## The effect of a failed job -/

section Effect

variable {cfg : Config} {x : BurstCall} {cl : Client} {r₂ : Run}

lemma closed_zero_eq_none_iff (hreg : r₂.cl.registry = (x.sorted cfg cl).cl.registry)
    {sessId : UInt32} : x.closed cfg r₂ 0 sessId = none ↔
      (sessCdevId sessId < cfg.nbCryptodevs → sessSlot sessId < maxSessNum →
        (x.scan cfg cl x.size).cl.registry x.ch (sessCdevId sessId) (sessSlot sessId) = none) := by
  show getSession cfg x.ch sessId r₂.cl = none ↔ _
  unfold getSession
  rw [hreg]
  split_ifs with hc
  · exact ⟨fun h _ _ => h, fun h => h hc.1 hc.2⟩
  · exact ⟨fun _ h1 h2 => absurd ⟨h1, h2⟩ hc, fun _ => rfl⟩

/-- What is not live when the closes start is not closed. -/
lemma closed_zero_of_not_mayBeLive (hnb : cfg.nbCryptodevs = 2)
    (hreg : r₂.cl.registry = (x.sorted cfg cl).cl.registry) {sessId : UInt32}
    (h : ¬x.MayBeLive cfg cl sessId) : x.closed cfg r₂ 0 sessId = none := by
  rw [closed_zero_eq_none_iff hreg]
  intro hd hs
  by_contra hlive
  exact h ⟨hd, hs, scan_bound (hd.trans_eq hnb) hlive⟩

/-- The second pass over a failed job does nothing, unless it closes a session. -/
lemma closing_failed (hk : x.KeepsCloses r₂) {i : ℕ} (hi : i < x.size)
    (hst : (r₂.jobs i).op.opStatus = cryptoOpStatusFailed)
    (hdead : x.Closes i → x.closed cfg r₂ i (x.jobs i).op.sessId = none) :
    (x.closing cfg r₂ (i + 1)).1.registry = (x.closing cfg r₂ i).1.registry ∧
      ((x.closing cfg r₂ x.size).2 i).op.opStatus = cryptoOpStatusFailed := by
  have hjob : (x.closing cfg r₂ i).2 i = r₂.jobs i := closing_jobs_of_le le_rfl
  have hstep := closing_step cfg x r₂ i
  rw [closing_jobs_of_lt hi]
  generalize x.closing cfg r₂ (i + 1) = s' at hstep
  cases hstep with
  | removed p ht hget =>
      rw [hjob] at ht hget
      have hclose : x.Closes i := (hk.opType i hi).symm.trans ht
      rw [hk.op i hi hclose] at hget
      exact absurd ((hdead hclose).symm.trans hget) (by simp)
  | notLive =>
      refine ⟨rfl, ?_⟩
      simp [CryptoOperation.setStatus]
  | other => exact ⟨rfl, hjob ▸ hst⟩

/-- The second pass over a failed close of a live session changes the registry. -/
lemma closing_live (hk : x.KeepsCloses r₂) {i : ℕ} (hi : i < x.size) (ht : x.Closes i)
    (hlive : x.closed cfg r₂ i (x.jobs i).op.sessId ≠ none) :
    (x.closing cfg r₂ (i + 1)).1.registry ≠ (x.closing cfg r₂ i).1.registry := by
  have hjob : (x.closing cfg r₂ i).2 i = r₂.jobs i := closing_jobs_of_le le_rfl
  have hstep := closing_step cfg x r₂ i
  have hop := hk.op i hi ht
  intro heq
  generalize x.closing cfg r₂ (i + 1) = s' at hstep heq
  cases hstep with
  | removed p _ hget =>
      rw [hjob, hop] at hget
      obtain ⟨-, -, hcell⟩ := getSession_eq_some.mp hget
      have hnone := congrFun (congrFun (congrFun heq x.ch) (sessCdevId (x.jobs i).op.sessId))
        (sessSlot (x.jobs i).op.sessId)
      rw [hcell, hjob, hop] at hnone
      simp at hnone
  | notLive _ hget =>
      rw [hjob, hop] at hget
      exact hlive hget
  | other hne => exact hne (by rw [hjob, hop]; exact ht)

end Effect

/-! ## An environment in which every session is granted -/

section Granting

/-- The session pool hands out objects it never handed out before and the op pool refuses. -/
def granting (cl : Client) : Script where
  sess := fun i => ⟨some (cl.pool.out.sup id + 1 + i), true, ⟨true, true⟩⟩
  dev := fun _ => refusing

variable {cfg : Config} {x : BurstCall} {cl : Client}

lemma granting_pool {i t : ℕ} (hx : x.script = granting cl)
    (ht : t ∈ (x.scan cfg cl i).cl.pool.out) : t < cl.pool.out.sup id + 1 + i := by
  induction i with
  | zero =>
      have hle : t ≤ cl.pool.out.sup id := Finset.le_sup (f := id) ht
      omega
  | succ i ih =>
      have hstep := scan_step cfg x cl i
      rw [hx] at hstep
      generalize x.scan cfg cl (i + 1) = b' at hstep ht
      have hnew : ∀ s, ((granting cl).sess i).create = some s →
          t ∈ insert s (x.scan cfg cl i).cl.pool.out → t < cl.pool.out.sup id + 1 + (i + 1) := by
        intro s hs hmem
        obtain rfl := Option.some.inj hs
        rcases Finset.mem_insert.mp hmem with rfl | hmem
        · omega
        · have := ih hmem
          omega
      cases hstep with
      | created s slot _ _ _ hs => exact hnew s hs ht
      | notCreated p _ _ hp =>
          cases hp with
          | untouched => exact (ih ht).trans (by omega)
          | released s q hs hout =>
              have herase : t ∈ q.out.erase s := ht
              exact hnew s hs (hout ▸ Finset.mem_of_mem_erase herase)
      | _ => exact (ih ht).trans (by omega)

lemma granting_honest (hx : x.script = granting cl) : HonestPool cfg x cl where
  create := fun i _ _ s hs hmem => by
    rw [hx] at hs
    obtain rfl := Option.some.inj hs
    exact absurd (granting_pool hx hmem) (lt_irrefl _)
  release := fun i _ => by rw [hx]; rfl

end Granting

/-! ## When failed jobs do nothing -/

section Main

variable {cfg : Config} {x : BurstCall} {cl : Client}

lemma inert_of_not_live {r₂ : Run} (hnb : cfg.nbCryptodevs = 2)
    (hne : (cfg.enabledCdevs 0).cdevId ≠ (cfg.enabledCdevs 1).cdevId) (hidle : Idle cl)
    (hsize : x.size ≤ maxJobsBurstSize) (hdev : x.devicePhase cfg cl = some r₂) {i : ℕ}
    (hi : i < x.size) (hf : x.Failed i)
    (h : x.Closes i → ¬x.MayBeLive cfg cl (x.jobs i).op.sessId ∨
      ∃ k < i, x.Closes k ∧ (x.jobs k).op.sessId = (x.jobs i).op.sessId) :
    x.Inert cfg cl r₂ i := by
  obtain ⟨h₀, E, D, ho⟩ := devicePhase_outcome hnb hne hidle hsize hdev
  have hk := ho.keepsCloses hnb
  have hno : ∀ d, ¬Listed cfg x cl d i := fun d hl => (listed_iff.mp hl).1 hf
  have hst : (r₂.jobs i).op.opStatus = cryptoOpStatusFailed := by
    rw [ho.not_listed hno, show (x.sorted cfg cl).jobs i = _ from scan_failed hi hf]
    exact hf
  have hdead : x.Closes i → x.closed cfg r₂ i (x.jobs i).op.sessId = none := fun hc =>
    (closed_eq_none_iff hk hi.le).mpr
      ((h hc).imp_left (closed_zero_of_not_mayBeLive hnb ho.registry))
  obtain ⟨hclosed, hresp⟩ := closing_failed hk hi hst hdead
  refine ⟨(scan_step cfg x cl i).registry fun hs _ => hs ?_, hclosed, ?_, hresp⟩
  · rw [scan_jobs_self]
    exact hf
  · intro ev hev hvec
    obtain ⟨d, hd, k, op, hop, rfl⟩ := ho.mem_enqs.mp hev
    obtain ⟨pos, hpos, heap, hprep, -⟩ := (ho.dev d hd).prepared k op hop
    have hmem := getD_mem hpos
    rw [← hprep.vec, hvec] at hmem
    exact hno d (mem_scan_idxs.mp hmem).2

/-- A failed close of a session that can be live is carried out in some environment. -/
lemma not_failedInert (hnb : cfg.nbCryptodevs = 2)
    (hne : (cfg.enabledCdevs 0).cdevId ≠ (cfg.enabledCdevs 1).cdevId) (hidle : Idle cl)
    (hsize : x.size ≤ maxJobsBurstSize) {i : ℕ} (hi : i < x.size) (hf : x.Failed i)
    (hc : x.Closes i) (hlive : x.MayBeLive cfg cl (x.jobs i).op.sessId)
    (hfirst : ∀ k < i, x.Closes k → (x.jobs k).op.sessId ≠ (x.jobs i).op.sessId) :
    ¬x.FailedInert cfg cl := by
  intro h
  obtain ⟨y, hy⟩ : ∃ y : BurstCall, y = { x with script := granting cl } := ⟨_, rfl⟩
  have hscript : y.script = granting cl := by rw [hy]
  have hdev : y.devicePhase cfg cl = some ((y.sorted cfg cl).start y.heap) := by
    rw [BurstCall.devicePhase, hscript]
    exact runDevices_refusing cfg y.ch _ _ _
  have hinert : y.Inert cfg cl ((y.sorted cfg cl).start y.heap) i := by
    have := h (granting cl)
    rw [← hy] at this
    exact this _ (granting_honest hscript) hdev i hi hf
  obtain ⟨hd, hslot, hor⟩ := hlive
  obtain ⟨h₀, E, D, ho⟩ := devicePhase_outcome hnb hne hidle (by rw [hy]; exact hsize) hdev
  have hk := ho.keepsCloses hnb
  have hgrant : ∀ k, (y.script.sess k).Grants := fun k => by
    rw [hscript]
    exact ⟨Option.some_ne_none _, rfl⟩
  subst hy
  refine closing_live hk hi hc (fun hnone => ?_) hinert.closed
  rcases (closed_eq_none_iff hk (Nat.le_of_lt hi)).mp hnone with h0 | ⟨k, hki, hck, hid⟩
  · have hnone' := (closed_zero_eq_none_iff ho.registry).mp h0 hd hslot
    rcases hor with hfilled | hcount
    · exact scan_registry_mono (x := { x with script := granting cl }) hfilled _ hnone'
    · exact scan_fills hgrant (hd.trans_eq hnb) hslot hcount hnone'
  · exact hfirst k hki hck hid

/-- **When the failed jobs of a burst do nothing.**  On idle devices they do nothing in any
environment exactly if every failed close names a session that cannot be live when its turn comes:
one that is not live when the closes start, or one that an earlier close of the burst names. -/
theorem failedInert_iff (hnb : cfg.nbCryptodevs = 2)
    (hne : (cfg.enabledCdevs 0).cdevId ≠ (cfg.enabledCdevs 1).cdevId) (hidle : Idle cl)
    (hsize : x.size ≤ maxJobsBurstSize) :
    x.FailedInert cfg cl ↔ ∀ i < x.size, x.Failed i → x.Closes i →
      ¬x.MayBeLive cfg cl (x.jobs i).op.sessId ∨
        ∃ k < i, x.Closes k ∧ (x.jobs k).op.sessId = (x.jobs i).op.sessId := by
  constructor
  · intro h i hi hf hc
    by_contra hno
    push Not at hno
    exact not_failedInert hnb hne hidle hsize hi hf hc hno.1 hno.2 h
  · intro h script r₂ _ hdev i hi hf
    exact inert_of_not_live (x := { x with script }) hnb hne hidle hsize hdev hi hf (h i hi hf)

/-- A burst of one close that comes in as failed. -/
def failedClose (sessId : UInt32) : BurstCall where
  ch := 0
  script := ⟨fun _ => ⟨none, false, ⟨true, true⟩⟩, fun _ => ⟨[], []⟩⟩
  heap := ⟨fun _ _ => 0, []⟩
  jobs := fun _ =>
    (sampleJob cryptoOpTypeSessClose sessId cryptoCipherAesCtr).setStatus cryptoOpStatusFailed
  size := 1

/-- Slot 5 is free and nothing asks for a session. -/
theorem failedInert_slot_five : (failedClose 5).Failed 0 ∧
    (failedClose 5).FailedInert (sampleConfig 0 1) Client.init := by
  refine ⟨rfl, (failedInert_iff rfl (by decide) (fun _ => rfl) (by decide)).mpr ?_⟩
  intro i hi _ _
  obtain rfl : i = 0 := Nat.lt_one_iff.mp hi
  refine .inl fun hlive => ?_
  rcases hlive.2.2 with hfilled | hcount
  · exact hfilled rfl
  · exact absurd hcount (by decide)

/-- **A failed close closes**: the session of slot 0 is live, the close of it comes in as failed,
and it is removed and answered with a success. -/
theorem failed_close_removes :
    (failedClose 0).Failed 0 ∧ (createdOn (sampleConfig 0 1)).registry 0 0 0 = some 7 ∧
      (∃ r, (failedClose 0).run (sampleConfig 0 1) (createdOn (sampleConfig 0 1)) = some r ∧
        r.cl.registry 0 0 0 = none ∧ (r.jobs 0).op.opStatus = cryptoOpStatusSucc) ∧
      ¬(failedClose 0).FailedInert (sampleConfig 0 1) (createdOn (sampleConfig 0 1)) := by
  refine ⟨rfl, rfl, ⟨_, rfl, rfl, rfl⟩, fun h => ?_⟩
  have hhonest : HonestPool (sampleConfig 0 1) (failedClose 0) (createdOn (sampleConfig 0 1)) :=
    ⟨fun _ _ _ _ hs => absurd hs (by simp [failedClose]), fun _ _ => rfl⟩
  have hresp := (h (failedClose 0).script _ hhonest rfl 0 (by decide) rfl).response
  exact absurd hresp (by decide)

end Main

end CiphApp
