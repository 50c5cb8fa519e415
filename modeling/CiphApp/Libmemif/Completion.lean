import CiphApp.Lib.Progress
import CiphApp.Libmemif.Handshake

/-!
# The handshake comes to its end

`Libmemif.Handshake` says what the stages of a handshake are.  Here they are gone through.

Safety holds for any kernel.  For progress the kernel has to report all that is ready: that there is
a message, and that the socket can be written if it is watched for that (`Pair.events`).  A call
with these events is `Label.Level`.  An end has something to do if a message waits for it, or if it
is watched for writing and its peer is known (`Pair.Due`); an end that has something to do must be
called at some time, which is all that fairness asks for.

* `Stage.level` is what such a call makes of a stage, and `Stage.rank` counts what is left to do,
  four for each message and one for the greeting.  A call of the end whose turn it is lowers the
  rank, and the other calls change nothing (`Stage.progress`).  So the handshake is an instance of
  `Lib.Turns` (`turns`).
* `Pairing.Start.exists_toMaster` and `exists_last` are finite runs to a given message and to the
  end, and `exists_fair_run` is an infinite run in which both ends are asked by turns.
* The last answer is a special case.  When the master takes `CONNECT`, it has its socket watched for
  reading only, and then enqueues its answer.  If the answer is not sent by the same call, then it
  is never sent (`Holds.stalled`).  A kernel that reports all that is ready reports both in one
  call, so that this does not happen; `Stage.Flowing` is the invariant that says so.
-/

namespace CiphApp.Libmemif

open Lib

/-! ## Stages under a kernel that reports all that is ready -/

namespace Stage

/-- Whether a message is on its way to an end. -/
def waiting : Party → Stage → Bool
  | .slave, greeting | .slave, toSlave _ | .master, toMaster _ => true
  | _, _ => false

/-- Whether an end is watched for writing; there are `n` messages. -/
def watched (n : ℕ) : Party → Stage → Bool
  | .slave, slaveTurn k => decide (k < n)
  | .slave, _ => true
  | .master, st => decide (st.received < n)

/-- The end that everything waits for. -/
def turn : Stage → Party
  | greeting | slaveTurn _ | toSlave _ => .slave
  | toMaster _ | masterTurn _ => .master

/-- What is left to do. -/
def rank (n : ℕ) : Stage → ℕ
  | greeting => 4 * n + 1
  | slaveTurn k => 4 * (n - k)
  | toMaster k => 4 * (n - k) - 1
  | masterTurn k => 4 * (n - k) - 2
  | toSlave k => 4 * (n - k) - 3

/-- What a call makes of a stage if the kernel reports all that is ready. -/
def level (n : ℕ) : Party → Stage → Stage
  | .slave, greeting => toMaster 0
  | .slave, slaveTurn k => if k < n then toMaster k else slaveTurn k
  | .slave, toSlave k => if k + 1 < n then toMaster (k + 1) else slaveTurn (k + 1)
  | .master, toMaster k => if k = 0 then masterTurn k else toSlave k
  | .master, masterTurn k => if k + 1 < n then toSlave k else masterTurn k
  | _, st => st

/-- The answer to the last message does not wait. -/
def Flowing (n : ℕ) (st : Stage) : Prop := ∀ k, st = masterTurn k → k + 1 < n

variable {n : ℕ} {st : Stage} {who : Party} {ev : FdEvents}

lemma call_of_attached (hpeer : ¬(who = .master ∧ st.received = 0)) {rd wr : Bool}
    (hread : ev.read = rd) (hwrite : ev.write = wr) :
    st.call n who ev = if wr then (if rd then st.read who else st).write n who
      else if rd then st.read who else st := by
  rw [call, if_neg hpeer, hread, hwrite]

lemma call_eq_level (hn : 0 < n) (hvalid : st.Valid n) (hread : ev.read = st.waiting who)
    (hwrite : ¬(who = .master ∧ st.received = 0) → ev.write = st.watched n who) :
    st.call n who ev = st.level n who := by
  by_cases hpeer : who = .master ∧ st.received = 0
  · rw [call, if_pos hpeer]
    obtain ⟨rfl, hzero⟩ := hpeer
    cases st with
    | toMaster k =>
        have hk : k = 0 := hzero
        rw [level, if_pos hk]
        rfl
    | masterTurn k => cases hzero
    | _ => rfl
  · rw [call_of_attached hpeer hread (hwrite hpeer)]
    cases who with
    | slave =>
        cases st with
        | greeting => exact if_pos hn
        | slaveTurn k =>
            by_cases hk : k < n
            · simp only [watched, level, hk, decide_true, if_true]
              exact if_pos hk
            · simp only [watched, level, hk, decide_false, Bool.false_eq_true, if_false]
              rfl
        | _ => rfl
    | master =>
        cases st with
        | toMaster k =>
            have hk : k < n := hvalid
            have hne : k ≠ 0 := fun hzero => hpeer ⟨rfl, hzero⟩
            simp only [watched, level, received, hk, decide_true, if_true, if_neg hne]
            rfl
        | masterTurn k =>
            by_cases hk : k + 1 < n
            · simp only [watched, level, received, hk, decide_true, if_true]
              rfl
            · simp only [watched, level, received, hk, decide_false, Bool.false_eq_true, if_false]
              rfl
        | greeting | slaveTurn k | toSlave k =>
            cases watched n .master _ <;> rfl

/-- **A call makes progress**, or it is not the turn of this end. -/
lemma progress (hn : 1 < n) (hvalid : st.Valid n) (hflow : st.Flowing n) (who : Party) :
    (st.level n who).Flowing n ∧
      (st.level n who = st ∨ (st.level n who).rank n < st.rank n) ∧
      (st.rank n ≠ 0 → who = st.turn → (st.level n who).rank n < st.rank n) := by
  have hstay : st.level n who = st → (st.rank n ≠ 0 → who ≠ st.turn) →
      (st.level n who).Flowing n ∧ (st.level n who = st ∨ (st.level n who).rank n < st.rank n) ∧
      (st.rank n ≠ 0 → who = st.turn → (st.level n who).rank n < st.rank n) := fun heq hne =>
    ⟨heq.symm ▸ hflow, .inl heq, fun hrank hturn => absurd hturn (hne hrank)⟩
  have hlower : (st.level n who).Flowing n → (st.level n who).rank n < st.rank n →
      (st.level n who).Flowing n ∧ (st.level n who = st ∨ (st.level n who).rank n < st.rank n) ∧
      (st.rank n ≠ 0 → who = st.turn → (st.level n who).rank n < st.rank n) := fun hflow hlt =>
    ⟨hflow, .inr hlt, fun _ _ => hlt⟩
  cases who with
  | slave =>
      cases st with
      | greeting =>
          refine hlower (fun _ h => by cases h) ?_
          simp only [level, rank]
          omega
      | slaveTurn k =>
          by_cases hk : k < n
          · rw [level, if_pos hk] at hlower ⊢
            refine hlower (fun _ h => by cases h) ?_
            simp only [rank]
            omega
          · refine hstay (by rw [level, if_neg hk]) fun hrank => absurd ?_ hrank
            rw [rank, Nat.sub_eq_zero_of_le (not_lt.mp hk)]
      | toSlave k =>
          have hk : k < n := hvalid
          by_cases hk' : k + 1 < n
          · rw [level, if_pos hk'] at hlower ⊢
            refine hlower (fun _ h => by cases h) ?_
            simp only [rank]
            omega
          · rw [level, if_neg hk'] at hlower ⊢
            refine hlower (fun _ h => by cases h) ?_
            simp only [rank]
            omega
      | toMaster k | masterTurn k => exact hstay rfl fun _ h => by cases h
  | master =>
      cases st with
      | toMaster k =>
          have hk : k < n := hvalid
          by_cases hzero : k = 0
          · rw [level, if_pos hzero] at hlower ⊢
            refine hlower (fun j h => ?_) ?_
            · cases h
              omega
            · simp only [rank]
              omega
          · rw [level, if_neg hzero] at hlower ⊢
            refine hlower (fun _ h => by cases h) ?_
            simp only [rank]
            omega
      | masterTurn k =>
          have hk : k + 1 < n := hflow k rfl
          rw [level, if_pos hk] at hlower ⊢
          refine hlower (fun _ h => by cases h) ?_
          simp only [rank]
          omega
      | greeting | slaveTurn k | toSlave k => exact hstay rfl fun _ h => by cases h

lemma eq_last_of_rank (hn : 0 < n) (hvalid : st.Valid n) (hrank : st.rank n = 0) :
    st = slaveTurn n := by
  cases st with
  | slaveTurn k =>
      have hk : k ≤ n := hvalid
      simp only [rank] at hrank
      rw [show k = n by omega]
  | greeting =>
      simp only [rank] at hrank
      omega
  | toMaster k | masterTurn k | toSlave k =>
      have hk : k < n := hvalid
      simp only [rank] at hrank
      omega

end Stage

/-! ## Calls when all that is ready is reported -/

/-- What the kernel reports about an end, if it reports all that is ready. -/
def Pair.events (P : Pairing) (s : Pair) (who : Party) : FdEvents where
  read := !(s.inbox who).isEmpty
  write := decide ((s.main who).watched (P.fd who) = some true)
  error := false

/-- **An end has something to do**: there is a message for it, or it may write to a peer that it
knows.  A peer that has not named its interface is only read from, and that waits for a message. -/
def Pair.Due (P : Pairing) (s : Pair) (who : Party) : Prop :=
  s.inbox who ≠ [] ∨
    (s.events P who).write = true ∧ lookup (s.main who).pendingList (P.fd who) = none

/-- All that is ready is reported. -/
def Label.Level (P : Pairing) (s : Pair) : Label → Prop
  | .call who ev => ev = s.events P who
  | .other => True

/-- The end that is called. -/
def Label.party : Label → Option Party
  | .call who _ => some who
  | .other => none

/-- The stage after a step when all that is ready is reported. -/
def Stage.after (n : ℕ) (st : Stage) : Label → Stage
  | .call who _ => st.level n who
  | .other => st

section Level

variable {P : Pairing} {f : File} {st : Stage} {s s' : Pair} {who : Party} {l : Label}

lemma Holds.events_read (h : Holds P f st s) : (s.events P who).read = st.waiting who := by
  rw [Pair.events, h.inbox]
  cases who with
  | slave => cases st <;> rfl
  | master =>
      cases st with
      | toMaster k =>
          have hk : k < (P.msgs f).length := (Pairing.length_msgs (f := f)).symm ▸ h.valid
          show (!(((P.msgs f).drop k).take 1).isEmpty) = true
          rw [List.drop_eq_getElem_cons hk]
          rfl
      | _ => rfl

lemma Holds.pending (h : Holds P f st s) (hpeer : ¬(who = .master ∧ st.received = 0)) :
    lookup (s.main who).pendingList (P.fd who) = none := by
  obtain ⟨x, w, hattached⟩ := h.attached hpeer
  exact hattached.pending

lemma Holds.events_write (h : Holds P f st s) (hpeer : ¬(who = .master ∧ st.received = 0)) :
    (s.events P who).write = st.watched P.steps who := by
  have hdecide : ∀ w : Bool, decide (some w = some true) = w := by decide
  cases who with
  | slave =>
      show decide ((s.main .slave).watched P.slaveFd = some true) = _
      rw [h.slave.watched, hdecide]
      cases st <;> rfl
  | master =>
      have hknows : P.Knows f (s.main .master) _ _ st.received := h.master
      obtain ⟨j, hj⟩ := Nat.exists_eq_succ_of_ne_zero fun hzero => hpeer ⟨rfl, hzero⟩
      rw [hj] at hknows
      show decide ((s.main .master).watched P.masterFd = some true) =
        decide (st.received < P.steps)
      rw [Attached.watched hknows, hdecide, hj]

/-- **What one step does** when all that is ready is reported. -/
lemma Holds.step_level (h : Holds P f st s) (hl : l.Level P s) (hs : PairStep P s l s') :
    ∃ f', Holds P f' (st.after P.steps l) s' := by
  obtain ⟨f', h'⟩ := h.step hs
  cases l with
  | other => exact ⟨f', h'⟩
  | call who ev =>
      obtain rfl : ev = s.events P who := hl
      have hcall : st.call P.steps who (s.events P who) = st.level P.steps who :=
        Stage.call_eq_level P.steps_pos h.valid h.events_read h.events_write
      refine ⟨f', ?_⟩
      rw [Stage.next, hcall] at h'
      exact h'

lemma Pair.Due.ready (h : s.Due P who) : ∃ r, Ready P s who (s.events P who) r := by
  cases hin : s.inbox who with
  | nil =>
      have hpending := (h.resolve_left (not_not_intro hin)).2
      refine ⟨.eof, rfl, fun hw => of_decide_eq_true hw, fun hr => ?_⟩
      rw [Pair.reads, Pair.events, hin, hpending] at hr
      cases hr
  | cons m ms =>
      refine ⟨.msg m, rfl, fun hw => of_decide_eq_true hw, fun _ => ⟨m, ?_, rfl⟩⟩
      rw [hin, List.head?_cons]

lemma Holds.exists_call (h : Holds P f st s) {ev : FdEvents} {r : Received}
    (hr : Ready P s who ev r) :
    ∃ f' s', PairStep P s (.call who ev) s' ∧ Holds P f' (st.call P.steps who ev) s' := by
  obtain ⟨p, f', hcall, h'⟩ := h.call hr
  exact ⟨f', _, .call who ev r .success p hr hcall, h'⟩

lemma Holds.exists_level (h : Holds P f st s) (hdue : s.Due P who) :
    ∃ f' s', PairStep P s (.call who (s.events P who)) s' ∧
      Holds P f' (st.level P.steps who) s' := by
  obtain ⟨r, hr⟩ := hdue.ready
  obtain ⟨f', s', hs, -⟩ := h.exists_call hr
  have hl : Label.Level P s (.call who (s.events P who)) := rfl
  obtain ⟨f'', h''⟩ := h.step_level hl hs
  exact ⟨f'', s', hs, h''⟩

/-- **The end whose turn it is has something to do.** -/
lemma Holds.due_turn (h : Holds P f st s) (hflow : st.Flowing P.steps)
    (hrank : st.rank P.steps ≠ 0) : s.Due P st.turn := by
  have hmessage : st.waiting st.turn = true → s.Due P st.turn := by
    intro hwaiting
    refine .inl fun hnil => ?_
    have hread : (s.events P st.turn).read = st.waiting st.turn := h.events_read
    rw [hwaiting, Pair.events, hnil] at hread
    cases hread
  have hwrite : ¬(st.turn = .master ∧ st.received = 0) → st.watched P.steps st.turn = true →
      s.Due P st.turn := fun hpeer hw => .inr ⟨(h.events_write hpeer).trans hw, h.pending hpeer⟩
  cases st with
  | greeting | toMaster k | toSlave k => exact hmessage rfl
  | slaveTurn k =>
      refine hwrite (fun hpeer => by cases hpeer.1) (decide_eq_true ?_)
      rw [Stage.rank] at hrank
      omega
  | masterTurn k =>
      exact hwrite (fun hpeer => by cases hpeer.2) (decide_eq_true (hflow k rfl))

lemma one_lt_steps (P : Pairing) : 1 < P.steps := by
  rw [Pairing.steps]
  omega

lemma turns (P : Pairing) :
    Turns (fun s st => (∃ f, Holds P f st s) ∧ st.Flowing P.steps)
      (fun s l s' => PairStep P s l s' ∧ l.Level P s) Label.party (Pair.Due P)
      (Stage.rank P.steps) Stage.turn where
  advance := by
    rintro s l s' st ⟨⟨f, h⟩, hflow⟩ ⟨hs, hl⟩
    have h' := h.step_level hl hs
    cases l with
    | other => exact ⟨st, ⟨h', hflow⟩, .inl rfl, fun _ hparty => by cases hparty⟩
    | call who ev =>
        obtain ⟨hflow', hcases, hturn⟩ := Stage.progress (one_lt_steps P) h.valid hflow who
        exact ⟨_, ⟨h', hflow'⟩, hcases, fun hrank hparty => hturn hrank (Option.some.inj hparty)⟩
  due_turn := by
    rintro s st ⟨⟨f, h⟩, hflow⟩ hrank
    exact h.due_turn hflow hrank

end Level

/-! ## Runs -/

section Runs

variable {P : Pairing} {f : File} {st : Stage} {s s₀ : Pair}

lemma Holds.exists_turn (h : Holds P f st s) (hflow : st.Flowing P.steps)
    (hrank : st.rank P.steps ≠ 0) {ls : List Label} (ht : Trace (PairStep P) s₀ ls s) :
    ∃ f' ls' s', Trace (PairStep P) s₀ ls' s' ∧ Holds P f' (st.level P.steps st.turn) s' := by
  obtain ⟨f', s', hs, h'⟩ := h.exists_level (h.due_turn hflow hrank)
  exact ⟨f', _, s', ht.snoc _ hs, h'⟩

/-- Each message of the slave is on its way at some time. -/
lemma Pairing.Start.exists_toMaster (h₀ : P.Start s₀) {k : ℕ} (hk : k < P.steps) :
    ∃ f ls s, Trace (PairStep P) s₀ ls s ∧ Holds P f (.toMaster k) s := by
  induction k with
  | zero =>
      exact h₀.holds.exists_turn (fun _ h => by cases h) (Nat.succ_ne_zero _) .nil
  | succ k ih =>
      obtain ⟨f, ls, s, ht, h⟩ := ih (Nat.lt_of_succ_lt hk)
      -- the master answers, in two calls if this was `INIT`
      obtain ⟨f₁, ls₁, s₁, t₁, h₁⟩ :
          ∃ f ls s, Trace (PairStep P) s₀ ls s ∧ Holds P f (.toSlave k) s := by
        obtain ⟨f₁, ls₁, s₁, t₁, h₁⟩ := h.exists_turn (fun _ h => by cases h)
          (by rw [Stage.rank]; omega) ht
        by_cases hzero : k = 0
        · rw [Stage.turn, Stage.level, if_pos hzero] at h₁
          obtain ⟨f₂, ls₂, s₂, t₂, h₂⟩ := h₁.exists_turn (fun j hj => by cases hj; exact hk)
            (by rw [Stage.rank]; omega) t₁
          rw [Stage.turn, Stage.level, if_pos hk] at h₂
          exact ⟨f₂, ls₂, s₂, t₂, h₂⟩
        · rw [Stage.turn, Stage.level, if_neg hzero] at h₁
          exact ⟨f₁, ls₁, s₁, t₁, h₁⟩
      obtain ⟨f₂, ls₂, s₂, t₂, h₂⟩ := h₁.exists_turn (fun _ h => by cases h)
        (by rw [Stage.rank]; omega) t₁
      rw [Stage.turn, Stage.level, if_pos hk] at h₂
      exact ⟨f₂, ls₂, s₂, t₂, h₂⟩

lemma Pairing.Start.exists_last (h₀ : P.Start s₀) :
    ∃ f ls s, Trace (PairStep P) s₀ ls s ∧ Holds P f (.slaveTurn P.steps) s := by
  have hsteps := one_lt_steps P
  obtain ⟨f, ls, s, ht, h⟩ := h₀.exists_toMaster (k := P.steps - 1) (by omega)
  obtain ⟨f₁, ls₁, s₁, t₁, h₁⟩ := h.exists_turn (fun _ h => by cases h)
    (by rw [Stage.rank]; omega) ht
  rw [Stage.turn, Stage.level, if_neg (show P.steps - 1 ≠ 0 by omega)] at h₁
  obtain ⟨f₂, ls₂, s₂, t₂, h₂⟩ := h₁.exists_turn (fun _ h => by cases h)
    (by rw [Stage.rank]; omega) t₁
  rw [Stage.turn, Stage.level, if_neg (by omega), Nat.sub_add_cancel P.steps_pos] at h₂
  exact ⟨f₂, ls₂, s₂, t₂, h₂⟩

/-- The end that is asked at time `t`: the slave first, and then by turns. -/
def askedAt (t : ℕ) : Party := if t % 2 = 0 then .slave else .master

/-- **A run that is fair**: each end is asked at every other time, and called if it has something to
do. -/
lemma Pairing.Start.exists_fair_run (h₀ : P.Start s₀) :
    ∃ (run : ℕ → Pair) (label : ℕ → Label), run 0 = s₀ ∧
      (∀ t, PairStep P (run t) (label t) (run (t + 1))) ∧
      (∀ t, (label t).Level P (run t)) ∧ Fair Label.party (Pair.Due P) run label := by
  have hnext : ∀ (t : ℕ) (s : Pair), (∃ f st, Holds P f st s) → ∃ l s',
      (l.Level P s ∧ (s.Due P (askedAt t) → l.party = some (askedAt t))) ∧ PairStep P s l s' ∧
        ∃ f st, Holds P f st s' := by
    rintro t s ⟨f, st, h⟩
    by_cases hdue : s.Due P (askedAt t)
    · obtain ⟨f', s', hs, h'⟩ := h.exists_level hdue
      have hl : Label.Level P s (.call (askedAt t) (s.events P (askedAt t))) := rfl
      exact ⟨_, s', ⟨hl, fun _ => rfl⟩, hs, f', _, h'⟩
    · exact ⟨.other, s, ⟨trivial, fun hd => absurd hd hdue⟩,
        .other s.main s.files (fun who => ⟨id, id, rfl, rfl, rfl, rfl, rfl⟩)
          (fun file _ off => ⟨_, rfl⟩), f, st, h⟩
  obtain ⟨run, label, hzero, hrun⟩ := exists_infinite_run
    (Q := fun _ s => ∃ f st, Holds P f st s) hnext ⟨0, _, h₀.holds⟩
  refine ⟨run, label, hzero, fun t => (hrun t).2.2, fun t => (hrun t).2.1.1, fun who t => ?_⟩
  -- `who` is asked at `t` or at `t + 1`
  obtain ⟨t', ht', hasked⟩ : ∃ t' ≥ t, askedAt t' = who := by
    rcases Nat.mod_two_eq_zero_or_one t with h | h <;> cases who
    · exact ⟨t, le_rfl, if_pos h⟩
    · exact ⟨t + 1, Nat.le_succ t, if_neg (by omega)⟩
    · exact ⟨t + 1, Nat.le_succ t, if_pos (by omega)⟩
    · exact ⟨t, le_rfl, if_neg (by omega)⟩
  refine ⟨t', ht', ?_⟩
  by_cases hdue : (run t').Due P who
  · subst hasked
    exact .inl ((hrun t').2.1.2 hdue)
  · exact .inr hdue

end Runs

/-! ## The answer that is never sent -/

/-- Nothing moves if the answer to the last message was not sent by the call that took it. -/
lemma Holds.stalled {P : Pairing} {f : File} {k : ℕ} {s s' : Pair} {l : Label}
    (h : Holds P f (.masterTurn k) s) (hk : ¬k + 1 < P.steps) (hs : PairStep P s l s') :
    ∃ f', Holds P f' (.masterTurn k) s' := by
  obtain ⟨f', h'⟩ := h.step hs
  refine ⟨f', ?_⟩
  cases hs with
  | other main files hmain hfiles => exact h'
  | call who ev r err p hready hcall =>
      have hsame : Stage.call P.steps who ev (.masterTurn k) = .masterTurn k := by
        cases who with
        | slave =>
            have hpeer : ¬(Party.slave = .master ∧ (Stage.masterTurn k).received = 0) := by
              rintro ⟨heq, -⟩
              cases heq
            rw [Stage.call_of_attached hpeer rfl rfl]
            cases ev.read <;> cases ev.write <;> rfl
        | master =>
            have hread : ev.read = false := by
              by_contra hread
              have hreads : s.reads P .master ev = true := by
                rw [Pair.reads, Bool.eq_true_of_not_eq_false hread, Bool.true_or]
              obtain ⟨m, hm, -⟩ := hready.read hreads
              rw [h.inbox] at hm
              cases hm
            have hwrite : ev.write = false := by
              by_contra hwrite
              have hwatched := hready.write (Bool.eq_true_of_not_eq_false hwrite)
              have hknows : Attached (s.main .master) P.masterFd P.master _
                  (decide (k + 1 < P.steps)) := h.master
              rw [Pairing.fd, hknows.watched, decide_eq_false hk] at hwatched
              cases hwatched
            have hpeer : ¬(Party.master = .master ∧ (Stage.masterTurn k).received = 0) := by
              rintro ⟨-, hzero⟩
              cases hzero
            exact Stage.call_of_attached hpeer hread hwrite
      rw [Stage.next, hsame] at h'
      exact h'

/-- The master is called for reading only when `CONNECT` has arrived. -/
lemma Pairing.Start.exists_stalled {P : Pairing} {s₀ : Pair} (h₀ : P.Start s₀) :
    ∃ f ls s k, Trace (PairStep P) s₀ ls s ∧ Holds P f (.masterTurn k) s ∧ k + 1 = P.steps := by
  have hsteps := one_lt_steps P
  obtain ⟨f, ls, s, ht, h⟩ := h₀.exists_toMaster (k := P.steps - 1) (by omega)
  obtain ⟨m, hm⟩ : ∃ m, (s.inbox .master).head? = some m := by
    have hread : (s.events P .master).read = true := h.events_read
    cases hin : s.inbox .master with
    | nil =>
        rw [Pair.events, hin] at hread
        cases hread
    | cons m ms => exact ⟨m, rfl⟩
  have hready : Ready P s .master ⟨true, false, false⟩ (.msg m) :=
    ⟨rfl, fun hw => absurd hw Bool.false_ne_true, fun _ => ⟨m, hm, rfl⟩⟩
  obtain ⟨f', s', hs, h'⟩ := h.exists_call hready
  have hpeer : ¬(Party.master = .master ∧ (Stage.toMaster (P.steps - 1)).received = 0) := by
    rintro ⟨-, hzero⟩
    have hzero' : P.steps - 1 = 0 := hzero
    omega
  rw [Stage.call_of_attached hpeer rfl rfl] at h'
  exact ⟨f', _, s', P.steps - 1, ht.snoc _ hs, h', Nat.sub_add_cancel P.steps_pos⟩

end CiphApp.Libmemif
