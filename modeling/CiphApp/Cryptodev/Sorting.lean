import CiphApp.Cryptodev.Sessions

/-!
# What the scan of a burst leaves behind

`preprocess_jobs` sorts the ciphering jobs by device.  A job is listed for device `d` if it did
not come in as failed, is a ciphering job, and its session id is live and names `d` *at the
moment it is scanned*: sessions created earlier in the burst count, and no session is closed
before the end of it.  `scan_idxs` says that the list of a device is exactly the list of these
jobs, in order.

During the scan the registry only grows, so a listed job still has its session when the device
loop runs (`getSession_scan_mono`).
-/

namespace CiphApp

open Lib

section Scan

variable {cfg : Config} {x : BurstCall} {cl : Client}

/-- Job `i` of the burst goes to device `d`. -/
def Burst.Lists (cfg : Config) (ch : ℕ) (b : Burst) (d i : ℕ) : Prop :=
  (b.jobs i).op.opStatus ≠ cryptoOpStatusFailed ∧
    (b.jobs i).op.opType = cryptoOpTypeSessCiphering ∧
    sessCdevId (b.jobs i).op.sessId = d ∧
    (getSession cfg ch (b.jobs i).op.sessId b.cl).isSome = true

instance (ch : ℕ) (b : Burst) (d i : ℕ) : Decidable (b.Lists cfg ch d i) :=
  inferInstanceAs (Decidable (_ ∧ _ ∧ _ ∧ _))

lemma PreStep.idxs {heap : Heap} {ch : ℕ} {ans : SessAns} {i : ℕ} {b b' : Burst}
    (h : PreStep cfg heap ch ans i b b') (d : ℕ) :
    b'.idxs d = if b.Lists cfg ch d i then b.idxs d ++ [i] else b.idxs d := by
  cases h with
  | inAgent hs => rw [if_neg fun hc => hc.1 hs]; rfl
  | created s slot hs ht =>
      rw [if_neg fun hc => absurd (ht.symm.trans hc.2.1) (by decide)]
      rfl
  | notCreated p hs ht =>
      rw [if_neg fun hc => absurd (ht.symm.trans hc.2.1) (by decide)]
      rfl
  | close hs ht => rw [if_neg fun hc => absurd (ht.symm.trans hc.2.1) (by decide)]
  | notLive hs ht hget =>
      rw [if_neg fun hc => by simpa [hget] using hc.2.2.2]
      rfl
  | listed s hs ht hget =>
      by_cases hd : sessCdevId (b.jobs i).op.sessId = d
      · rw [if_pos ⟨hs, ht, hd, by simp [hget]⟩]
        simp [Burst.setJob, hd]
      · rw [if_neg fun hc => hd hc.2.2.1]
        simp [Burst.setJob, Function.update_of_ne (Ne.symm hd)]
  | unknown hs h0 => rw [if_neg fun hc => h0 hc.2.1]; rfl

/-- A listed job becomes a success with one buffer. -/
lemma PreStep.listed_job {heap : Heap} {ch : ℕ} {ans : SessAns} {i d : ℕ} {b b' : Burst}
    (h : PreStep cfg heap ch ans i b b') (hl : b.Lists cfg ch d i) :
    b'.jobs i = ((b.jobs i).setStatus cryptoOpStatusSucc).setBuffListLength 1 := by
  obtain ⟨hs, ht, -, hg⟩ := hl
  cases h with
  | inAgent hs' => exact absurd hs' hs
  | created _ _ _ ht' => exact absurd (ht'.symm.trans ht) (by decide)
  | notCreated _ _ ht' => exact absurd (ht'.symm.trans ht) (by decide)
  | close _ ht' => exact absurd (ht'.symm.trans ht) (by decide)
  | notLive _ _ hget => simp [hget] at hg
  | listed => simp [Burst.setJob]
  | unknown _ h0 => exact absurd ht h0

/-- A ciphering job that is not listed is a failure. -/
lemma PreStep.not_listed_job {heap : Heap} {ch : ℕ} {ans : SessAns} {i : ℕ} {b b' : Burst}
    (h : PreStep cfg heap ch ans i b b') (hl : ∀ d, ¬b.Lists cfg ch d i)
    (ht : (b.jobs i).op.opType = cryptoOpTypeSessCiphering) :
    (b'.jobs i).op = { (b.jobs i).op with opStatus := cryptoOpStatusFailed } := by
  cases h with
  | inAgent hs =>
      simp [Burst.fail, Burst.setJob, CryptoOperation.setBuffListLength, ← hs]
  | created _ _ _ ht' => exact absurd (ht'.symm.trans ht) (by decide)
  | notCreated _ _ ht' => exact absurd (ht'.symm.trans ht) (by decide)
  | close _ ht' => exact absurd (ht'.symm.trans ht) (by decide)
  | notLive => simp [Burst.fail, Burst.setJob, CryptoOperation.setBuffListLength,
      CryptoOperation.setStatus]
  | listed s hs _ hget => exact absurd ⟨hs, ht, rfl, by simp [hget]⟩ (hl _)
  | unknown _ h0 => exact absurd ht h0

/-- Job `i` goes to device `d` when its turn comes. -/
def Listed (cfg : Config) (x : BurstCall) (cl : Client) (d i : ℕ) : Prop :=
  (x.scan cfg cl i).Lists cfg x.ch d i

instance (d i : ℕ) : Decidable (Listed cfg x cl d i) :=
  inferInstanceAs (Decidable ((x.scan cfg cl i).Lists cfg x.ch d i))

lemma scan_step (cfg : Config) (x : BurstCall) (cl : Client) (i : ℕ) :
    PreStep cfg x.heap x.ch (x.script.sess i) i (x.scan cfg cl i) (x.scan cfg cl (i + 1)) :=
  preStep cfg x.heap x.ch (x.script.sess i) i (x.scan cfg cl i)

@[simp] lemma scan_jobs_self (i : ℕ) : (x.scan cfg cl i).jobs i = x.jobs i :=
  scan_jobs_of_le le_rfl

lemma listed_iff {d i : ℕ} : Listed cfg x cl d i ↔
    (x.jobs i).op.opStatus ≠ cryptoOpStatusFailed ∧
      (x.jobs i).op.opType = cryptoOpTypeSessCiphering ∧
      sessCdevId (x.jobs i).op.sessId = d ∧
      (getSession cfg x.ch (x.jobs i).op.sessId (x.scan cfg cl i).cl).isSome = true := by
  unfold Listed Burst.Lists
  rw [scan_jobs_self]

/-- **The list of a device** is the list of its jobs, in order. -/
lemma scan_idxs (cfg : Config) (x : BurstCall) (cl : Client) (d n : ℕ) :
    (x.scan cfg cl n).idxs d = (List.range n).filter (Listed cfg x cl d) := by
  induction n with
  | zero => rfl
  | succ n ih =>
      rw [(scan_step cfg x cl n).idxs d, List.range_succ, List.filter_append, ← ih]
      by_cases h : Listed cfg x cl d n
      · rw [if_pos (show (x.scan cfg cl n).Lists cfg x.ch d n from h)]
        simp [h]
      · rw [if_neg (show ¬(x.scan cfg cl n).Lists cfg x.ch d n from h)]
        simp [h]

lemma mem_scan_idxs {d n i : ℕ} :
    i ∈ (x.scan cfg cl n).idxs d ↔ i < n ∧ Listed cfg x cl d i := by
  simp [scan_idxs]

lemma scan_idxs_nodup (cfg : Config) (x : BurstCall) (cl : Client) (d n : ℕ) :
    ((x.scan cfg cl n).idxs d).Nodup := by
  rw [scan_idxs]
  exact List.nodup_range.filter _

lemma scan_idxs_length_le (cfg : Config) (x : BurstCall) (cl : Client) (d n : ℕ) :
    ((x.scan cfg cl n).idxs d).length ≤ n := by
  rw [scan_idxs]
  exact (List.length_filter_le _ _).trans (by simp)

/-- A job is listed for one device only. -/
lemma scan_idxs_disjoint {d d' n i : ℕ} (h : i ∈ (x.scan cfg cl n).idxs d)
    (h' : i ∈ (x.scan cfg cl n).idxs d') : d = d' := by
  rw [mem_scan_idxs, listed_iff] at h h'
  exact h.2.2.2.1.symm.trans h'.2.2.2.1

/-! ## The registry grows -/

lemma PreStep.registry_mono {heap : Heap} {ch : ℕ} {ans : SessAns} {i : ℕ} {b b' : Burst}
    (h : PreStep cfg heap ch ans i b b') {c d k : ℕ} {s : SessPtr}
    (hs : b.cl.registry c d k = some s) : b'.cl.registry c d k = some s := by
  cases h with
  | created t slot _ _ _ _ _ hfree =>
      -- the new session went to a free cell
      have hne : b.cl.registry c d k ≠ none := by
        rw [hs]
        exact Option.some_ne_none s
      exact (Registry.store_of_ne_none hfree _ hne).trans hs
  | inAgent => exact hs
  | notCreated => exact hs
  | close => exact hs
  | notLive => exact hs
  | listed => exact hs
  | unknown => exact hs

lemma getSession_scan_mono {i n : ℕ} (hin : i ≤ n) {ch : ℕ} {sessId : UInt32} {s : SessPtr}
    (h : getSession cfg ch sessId (x.scan cfg cl i).cl = some s) :
    getSession cfg ch sessId (x.scan cfg cl n).cl = some s := by
  induction n, hin using Nat.le_induction with
  | base => exact h
  | succ n _ ih =>
      obtain ⟨h1, h2, h3⟩ := getSession_eq_some.mp ih
      exact getSession_eq_some.mpr ⟨h1, h2, (scan_step cfg x cl n).registry_mono h3⟩

lemma Listed.getSession {d i n : ℕ} (h : Listed cfg x cl d i) (hin : i ≤ n) :
    ∃ s, getSession cfg x.ch (x.jobs i).op.sessId (x.scan cfg cl i).cl = some s ∧
      CiphApp.getSession cfg x.ch (x.jobs i).op.sessId (x.scan cfg cl n).cl = some s := by
  obtain ⟨s, hs⟩ := Option.isSome_iff_exists.mp (listed_iff.mp h).2.2.2
  exact ⟨s, hs, getSession_scan_mono hin hs⟩

/-- A listed device position is one of the devices there are. -/
lemma Listed.lt {d i : ℕ} (hl : Listed cfg x cl d i) : d < cfg.nbCryptodevs := by
  obtain ⟨s, hs, -⟩ := hl.getSession le_rfl
  rw [← (listed_iff.mp hl).2.2.1]
  exact (getSession_eq_some.mp hs).1

/-- A listed job leaves the scan as a success with one buffer. -/
lemma Listed.job {d i n : ℕ} (h : Listed cfg x cl d i) (hin : i < n) :
    (x.scan cfg cl n).jobs i =
      ((x.jobs i).setStatus cryptoOpStatusSucc).setBuffListLength 1 := by
  rw [show (x.scan cfg cl n).jobs i = (x.scan cfg cl (i + 1)).jobs i from scan_jobs_of_lt hin,
    (scan_step cfg x cl i).listed_job h, scan_jobs_self]

/-- A ciphering job that is not listed leaves the scan as a failure. -/
lemma scan_not_listed {i n : ℕ} (hin : i < n) (h : ∀ d, ¬Listed cfg x cl d i)
    (ht : (x.jobs i).op.opType = cryptoOpTypeSessCiphering) :
    ((x.scan cfg cl n).jobs i).op =
      { (x.jobs i).op with opStatus := cryptoOpStatusFailed } := by
  rw [show (x.scan cfg cl n).jobs i = (x.scan cfg cl (i + 1)).jobs i from scan_jobs_of_lt hin,
    (scan_step cfg x cl i).not_listed_job h (by rw [scan_jobs_self, ht]), scan_jobs_self]

end Scan

end CiphApp
