import CiphApp.Agent.Server
import CiphApp.Cryptodev.FailedJobs

/-!
# Sessions end with their connection

The server has two threads.  The *epoll thread* reports connects and disconnects: under the lock of
the connection it sets or clears `_is_conn_active` and calls the application back, and on a
disconnect the application empties the channel of the registry.  The *main thread* goes round
`poll_all`: it tests the flag of a connection without the lock, takes the lock if it is set, tests
again, and polls both queues; a batch that was received is handed to `run_jobs`.

A step below is a piece of one thread, so a step of the other one can come at any point: between
the two tests, between the flag and the callback, and between two polls.  Only the locks keep the
threads apart, and there is one for each connection, so a batch of one connection can be handled
while another one is being closed.  Runs in which the sections under a lock are atomic are among
these.

`ConnInv` is the invariant: the main thread polls an active connection whose lock the epoll thread
does not hold, and a channel is empty from the end of a disconnect to the next connect.
-/

namespace CiphApp

open Lib Relation

/-! ## The two threads -/

/-- `MAX_CONNECTIONS` of the server. -/
def maxConnections : ℕ := 32

/-- Where the main thread is in `poll_all`. -/
inductive MainPc
  /-- About to test the flag of connection `i` for the first time. -/
  | testing (i : ℕ)
  /-- The flag was set; the lock is to be taken. -/
  | entering (i : ℕ)
  /-- In the locked section, the flag was tested again, and `polls` calls of `poll_00` are left. -/
  | polling (i polls : ℕ)

/-- Where the epoll thread is. -/
inductive EpollPc
  | waiting
  /-- In `on_connected`: the flag is set, the callback is to be called. -/
  | connecting (i : ℕ)
  /-- In `on_disconnected`: the flag is cleared, the callback is to be called. -/
  | disconnecting (i : ℕ)

/-- The main thread holds the lock of connection `i`. -/
def MainPc.Holds (i : ℕ) : MainPc → Prop
  | .polling j _ => j = i
  | _ => False

/-- The epoll thread holds the lock of connection `i`. -/
def EpollPc.Holds (i : ℕ) : EpollPc → Prop
  | .waiting => False
  | .connecting j => j = i
  | .disconnecting j => j = i

/-- The state of the server and of its threads.  What the threads share is the flag of each
connection, under the lock of that connection, and the client of the devices inside `server`, which
has no lock of its own: batches run in the main thread and cleanups in the epoll thread.  Where a
thread is says which lock it holds. -/
structure Threads where
  server : Server
  /-- `_is_conn_active`. -/
  isConnActive : ℕ → Bool
  main : MainPc
  epoll : EpollPc

/-- The state after `init`: no connection, no session. -/
def Threads.init : Threads := ⟨Server.init, fun _ => false, .testing 0, .waiting⟩

/-- `poll_count`, the number of bursts in `size`. -/
def pollCount (size : UInt32) : UInt32 := if size % 64 ≠ 0 then size / 64 + 1 else size / 64

/-- The number of `poll_00` calls of one `poll`: a `do … while (--poll_count)` loop on a
`uint32_t`. -/
def pollCalls (size : UInt32) : ℕ :=
  if pollCount size = 0 then 2 ^ 32 else (pollCount size).toNat

/-- What is seen of a step. -/
inductive ConnEvent
  | connect (i : ℕ)
  | disconnect (i : ℕ)
  /-- `run_jobs` is called for a batch of a connection. -/
  | runJobs (b : Batch)
  | silent

/-- **One step of one of the threads**, with `poll_all(size)` in the main thread.

The epoll thread reports connects and disconnects under the lock of the connection.  The main thread
goes through the connections; it tests the flag once without the lock and once with it, and between
the two anything may happen.  A poll hands at most one batch to `run_jobs` and may find nothing, and
both queues of a connection are polled `pollCalls size` times. -/
inductive ThreadStep (cfg : Config) (size : UInt32) (t : Threads) : ConnEvent → Threads → Prop
  -- the epoll thread
  | connect (i : ℕ) (hi : i < maxConnections) (he : t.epoll = .waiting) (hfree : ¬t.main.Holds i) :
      ThreadStep cfg size t (.connect i)
        { t with
          isConnActive := Function.update t.isConnActive i true
          epoll := .connecting i }
  | onConnectCb (i : ℕ) (he : t.epoll = .connecting i) :
      ThreadStep cfg size t .silent { t with epoll := .waiting }
  | disconnect (i : ℕ) (hi : i < maxConnections) (he : t.epoll = .waiting)
      (hfree : ¬t.main.Holds i) :
      ThreadStep cfg size t (.disconnect i)
        { t with
          isConnActive := Function.update t.isConnActive i false
          epoll := .disconnecting i }
  | onDisconnectCb (i : ℕ) (ans : ℕ → ℕ → ReleaseAns) (he : t.epoll = .disconnecting i) :
      ThreadStep cfg size t .silent
        { t with
          server := { t.server with cl := cleanupConn cfg i ans t.server.cl }
          epoll := .waiting }
  -- the main thread
  | skip (i : ℕ) (hm : t.main = .testing i) (hi : i < maxConnections)
      (hflag : t.isConnActive i = false) :
      ThreadStep cfg size t .silent { t with main := .testing (i + 1) }
  | pass (i : ℕ) (hm : t.main = .testing i) (hi : i < maxConnections)
      (hflag : t.isConnActive i = true) :
      ThreadStep cfg size t .silent { t with main := .entering i }
  | giveUp (i : ℕ) (hm : t.main = .entering i) (hfree : ¬t.epoll.Holds i)
      (hflag : t.isConnActive i = false) :
      ThreadStep cfg size t .silent { t with main := .testing (i + 1) }
  | enter (i : ℕ) (hm : t.main = .entering i) (hfree : ¬t.epoll.Holds i)
      (hflag : t.isConnActive i = true) :
      ThreadStep cfg size t .silent { t with main := .polling i (2 * pollCalls size) }
  | nothing (i polls : ℕ) (hm : t.main = .polling i (polls + 1)) :
      ThreadStep cfg size t .silent { t with main := .polling i polls }
  | batch (i polls : ℕ) (b : Batch) (s' : Server) (h' : Heap)
      (hm : t.main = .polling i (polls + 1)) (hconn : b.connId = i) (hpos : 0 < b.len)
      (hb : b.Valid) (hrun : b.handle cfg t.server = some (s', h')) :
      ThreadStep cfg size t (.runJobs b) { t with server := s', main := .polling i polls }
  | leave (i : ℕ) (hm : t.main = .polling i 0) :
      ThreadStep cfg size t .silent { t with main := .testing (i + 1) }
  | again (hm : t.main = .testing maxConnections) :
      ThreadStep cfg size t .silent { t with main := .testing 0 }

/-- Some steps of the threads. -/
def ThreadRun (cfg : Config) (size : UInt32) : Threads → Threads → Prop :=
  ReflTransGen fun t t' => ∃ e, ThreadStep cfg size t e t'

/-- A section under the lock of connection `i` is running. -/
def Threads.InCritical (t : Threads) (i : ℕ) : Prop := t.main.Holds i ∨ t.epoll.Holds i

/-- **Channel `ch` of the registry is empty.** -/
def Client.ChannelEmpty (cfg : Config) (cl : Client) (ch : ℕ) : Prop :=
  ∀ dev < cfg.nbCryptodevs, ∀ slot < maxSessNum, cl.registry ch dev slot = none

/-! ## What a step does to a channel -/

section Channels

variable {cfg : Config}

lemma Client.ChannelEmpty.congr {cl cl' : Client} {ch : ℕ} (h : cl.ChannelEmpty cfg ch)
    (heq : cl'.registry ch = cl.registry ch) : cl'.ChannelEmpty cfg ch := by
  intro dev hdev slot hslot
  rw [heq]
  exact h dev hdev slot hslot

lemma Client.ChannelEmpty.sessions {cl : Client} {ch : ℕ} (h : cl.ChannelEmpty cfg ch)
    (sessId : UInt32) : cl.sessions cfg ch sessId = none := by
  unfold Client.sessions getSession
  split_ifs with hc
  · exact h _ hc.1 _ hc.2
  · rfl

lemma channelEmpty_cleanupConn (cfg : Config) (ch : ℕ) (ans : ℕ → ℕ → ReleaseAns) (cl : Client) :
    (cleanupConn cfg ch ans cl).ChannelEmpty cfg ch := by
  intro dev hdev slot hslot
  rw [cleanupConn, removeAllSessions, releaseSlots_registry, if_pos ⟨rfl, hdev, hslot⟩]

lemma Batch.handle_other_channel (hfit : cfg.DevicesFit) {b : Batch} {s s' : Server} {h' : Heap}
    (h : b.handle cfg s = some (s', h')) {ch : ℕ} (hne : ch ≠ b.connId) :
    s'.cl.registry ch = s.cl.registry ch := by
  obtain ⟨r, hr, rfl, -⟩ := Batch.handle_eq_some h
  exact run_other_channel hfit hr hne

end Channels

/-! ## The invariant -/

/-- **The invariant of the threads.**  The two threads are never in the section of one connection, a
connection that is being polled is active, and a connection that is not active has an empty channel,
but for the time between its disconnect and the cleanup.  The last needs devices whose numbers fit
the registry: otherwise a session of one channel can be written to another. -/
structure ConnInv (cfg : Config) (t : Threads) : Prop where
  exclusive : ∀ i, t.main.Holds i → ¬t.epoll.Holds i
  polled : ∀ i, t.main.Holds i → t.isConnActive i = true
  empty : ∀ i, t.isConnActive i = false → t.epoll ≠ .disconnecting i →
    t.server.cl.ChannelEmpty cfg i

section Invariant

variable {cfg : Config} {size : UInt32} {t t' : Threads} {e : ConnEvent}

lemma ConnInv.init (cfg : Config) : ConnInv cfg Threads.init where
  exclusive := fun _ h => h.elim
  polled := fun _ h => h.elim
  empty := fun _ _ _ _ _ _ _ => rfl

/-- A step of the main thread that takes no lock and runs no batch. -/
lemma ConnInv.move (h : ConnInv cfg t) {pc : MainPc}
    (hpc : ∀ i, pc.Holds i → t.main.Holds i) : ConnInv cfg { t with main := pc } where
  exclusive := fun i hi => h.exclusive i (hpc i hi)
  polled := fun i hi => h.polled i (hpc i hi)
  empty := h.empty

lemma flag_of_ne {i j : ℕ} (hji : j ≠ i) (v : Bool) :
    Function.update t.isConnActive i v j = t.isConnActive j := by
  rw [Function.update_of_ne hji]

/-- The epoll thread does not change the flag of a connection that is polled. -/
lemma flag_of_held {i j : ℕ} (hfree : ¬t.main.Holds i) (v : Bool) (hj : t.main.Holds j) :
    Function.update t.isConnActive i v j = t.isConnActive j := by
  refine flag_of_ne ?_ v
  rintro rfl
  exact hfree hj

lemma ConnInv.step (hfit : cfg.DevicesFit) (h : ConnInv cfg t)
    (hs : ThreadStep cfg size t e t') : ConnInv cfg t' := by
  cases hs with
  | connect i _ he hfree =>
      refine ⟨fun j hj hij => hfree (hij ▸ hj), fun j hj => ?_, fun j hj _ => ?_⟩
      · exact (flag_of_held hfree true hj).trans (h.polled j hj)
      · have hji : j ≠ i := by
          rintro rfl
          simp at hj
        exact h.empty j ((flag_of_ne hji true).symm.trans hj) (by rw [he]; exact nofun)
  | onConnectCb i he =>
      exact ⟨fun _ _ hj => hj, h.polled, fun j hj _ => h.empty j hj (by rw [he]; exact nofun)⟩
  | disconnect i _ he hfree =>
      refine ⟨fun j hj hij => hfree (hij ▸ hj), fun j hj => ?_, fun j hj hne => ?_⟩
      · exact (flag_of_held hfree false hj).trans (h.polled j hj)
      · have hji : j ≠ i := fun hji => hne (by rw [hji])
        exact h.empty j ((flag_of_ne hji false).symm.trans hj) (by rw [he]; exact nofun)
  | onDisconnectCb i ans he =>
      refine ⟨fun _ _ hj => hj, h.polled, fun j hj _ => ?_⟩
      by_cases hji : j = i
      · subst hji
        exact channelEmpty_cleanupConn cfg j ans _
      · -- another channel, which no disconnect is about to empty
        have hne : t.epoll ≠ .disconnecting j := by
          rw [he]
          exact fun heq => hji (EpollPc.disconnecting.inj heq).symm
        exact (h.empty j hj hne).congr (cleanupConn_other_channel cfg ans _ hji)
  | skip | pass | giveUp | again => exact h.move fun _ hj => hj.elim
  | leave => exact h.move fun _ hj => hj.elim
  | enter i hm hfree hflag =>
      refine ⟨fun j hj => ?_, fun j hj => ?_, h.empty⟩
      · obtain rfl : i = j := hj
        exact hfree
      · obtain rfl : i = j := hj
        exact hflag
  | nothing i polls hm => exact h.move fun j hj => by rw [hm]; exact hj
  | batch i polls b s' h' hm hconn _ _ hrun =>
      have hmain : ∀ j, (MainPc.polling i polls).Holds j → t.main.Holds j := fun j hj => by
        rw [hm]
        exact hj
      refine ⟨fun j hj => h.exclusive j (hmain j hj), fun j hj => h.polled j (hmain j hj),
        fun j hj hne => ?_⟩
      -- the channel of the batch is active, so this is another one
      have hji : j ≠ b.connId := by
        rintro rfl
        rw [h.polled b.connId (hmain _ hconn.symm)] at hj
        exact absurd hj (by decide)
      exact (h.empty j hj hne).congr (Batch.handle_other_channel hfit hrun hji)

lemma ConnInv.of_run (hfit : cfg.DevicesFit) (h : ThreadRun cfg size Threads.init t) :
    ConnInv cfg t :=
  run_induct (Q := ConnInv cfg) (fun _ _ hs hq => hq.step hfit hs.choose_spec) h (ConnInv.init cfg)

end Invariant

/-! ## Where a session comes from -/

section Origin

variable {cfg : Config} {x : BurstCall} {cl : Client} {r r₂ : Run}

/-- **Job `k` creates the session** that `sessId` names: it is a `CREATE`, and its pass makes the
id live. -/
structure BurstCall.Creates (x : BurstCall) (cfg : Config) (cl : Client) (k : ℕ)
    (sessId : UInt32) : Prop where
  asks : x.Asks cfg (sessCdevId sessId) k
  before : (x.scan cfg cl k).cl.sessions cfg x.ch sessId = none
  after : (x.scan cfg cl (k + 1)).cl.sessions cfg x.ch sessId ≠ none

/-- During the scan an id becomes live only by a `CREATE`. -/
lemma scan_origin (hnb : cfg.nbCryptodevs = 2) {n : ℕ} {sessId : UInt32}
    (h : (x.scan cfg cl n).cl.sessions cfg x.ch sessId ≠ none) :
    cl.sessions cfg x.ch sessId ≠ none ∨ ∃ k < n, x.Creates cfg cl k sessId := by
  induction n with
  | zero => exact .inl h
  | succ n ih =>
      by_cases hold : (x.scan cfg cl n).cl.sessions cfg x.ch sessId = none
      · refine .inr ⟨n, Nat.lt_succ_self n, ?_, hold, h⟩
        have hgrows := scan_grows cfg x cl n
        obtain ⟨p, hp⟩ := Option.ne_none_iff_exists'.mp h
        obtain ⟨hd, hslot, hcell⟩ := getSession_eq_some.mp hp
        have hnone : (x.scan cfg cl n).cl.registry x.ch (sessCdevId sessId) (sessSlot sessId) =
            none := by
          rwa [Client.sessions, getSession, if_pos ⟨hd, hslot⟩] at hold
        generalize (x.scan cfg cl (n + 1)).cl.registry = R' at hgrows hcell
        cases hgrows with
        | keep => exact absurd (hnone.symm.trans hcell) (by simp)
        | fill d slot s hask =>
            rw [Registry.store_own _ _ _ _ _ (hd.trans_eq hnb)] at hcell
            split_ifs at hcell with hc
            · rw [hc.1]
              exact hask
            · exact absurd (hnone.symm.trans hcell) (by simp)
      · rcases ih hold with hlive | ⟨k, hk, hc⟩
        · exact .inl hlive
        · exact .inr ⟨k, hk.trans (Nat.lt_succ_self n), hc⟩

/-- The closes make no id live. -/
lemma closing_live_of_live {i : ℕ} {sessId : UInt32}
    (h : x.closed cfg r₂ i sessId ≠ none) : r₂.cl.sessions cfg x.ch sessId ≠ none := by
  induction i with
  | zero => exact h
  | succ i ih =>
      refine ih fun hnone => h ?_
      have hstep := closing_step cfg x r₂ i
      unfold BurstCall.closed at hnone ⊢
      generalize x.closing cfg r₂ (i + 1) = s' at hstep
      cases hstep with
      | removed p _ hget =>
          obtain ⟨hd, hs, -⟩ := getSession_eq_some.mp hget
          rw [Client.sessions_remove hd hs]
          by_cases hid : sessId = ((x.closing cfg r₂ i).2 i).op.sessId
          · rw [hid, Function.update_self]
          · rwa [Function.update_of_ne hid]
      | notLive => exact hnone
      | other => exact hnone

/-- **After a burst** an id is live only if it was before, or if a job of the burst created it. -/
lemma run_origin (hnb : cfg.nbCryptodevs = 2) (h : x.run cfg cl = some r) {sessId : UInt32}
    (hlive : r.cl.sessions cfg x.ch sessId ≠ none) :
    cl.sessions cfg x.ch sessId ≠ none ∨ ∃ k < x.size, x.Creates cfg cl k sessId := by
  by_cases h0 : x.size = 0
  · rw [BurstCall.run, h0] at h
    rw [runJobs_zero h] at hlive
    exact .inl hlive
  · rw [run_eq_devicePhase h0] at h
    obtain ⟨r₂, h₂, rfl⟩ := Option.map_eq_some_iff.mp h
    have hreg : r₂.cl.registry = (x.scan cfg cl x.size).cl.registry := (runDevices_sessions h₂).1
    have hmap : r₂.cl.sessions cfg x.ch = (x.scan cfg cl x.size).cl.sessions cfg x.ch :=
      Client.sessions_congr (congrFun hreg x.ch)
    refine scan_origin hnb (n := x.size) ?_
    rw [← hmap]
    exact closing_live_of_live (i := x.size) hlive

end Origin

/-! ## Sessions and connections -/

section Main

variable {cfg : Config} {size : UInt32} {s t t' : Threads} {e : ConnEvent}

/-- Between `s` and `t` the server ran a batch of connection `i` in which a job created the session
that `sessId` names. -/
def CreatedBetween (cfg : Config) (size : UInt32) (s t : Threads) (i : ℕ) (sessId : UInt32) :
    Prop :=
  ∃ u u' b, ThreadRun cfg size s u ∧ ThreadStep cfg size u (.runJobs b) u' ∧
    ThreadRun cfg size u' t ∧ b.connId = i ∧
    ∃ k < b.len, (b.call u.server).Creates cfg u.server.cl k sessId

/-- One step makes an id of a channel live only by a batch of its connection. -/
lemma ThreadStep.origin (hnb : cfg.nbCryptodevs = 2) (hfit : cfg.DevicesFit)
    (hs : ThreadStep cfg size t e t') {i : ℕ} {sessId : UInt32}
    (hlive : t'.server.cl.sessions cfg i sessId ≠ none) :
    t.server.cl.sessions cfg i sessId ≠ none ∨ ∃ b, e = .runJobs b ∧ b.connId = i ∧
      ∃ k < b.len, (b.call t.server).Creates cfg t.server.cl k sessId := by
  cases hs with
  | onDisconnectCb j ans he =>
      refine .inl ?_
      by_cases hij : i = j
      · subst hij
        exact absurd ((channelEmpty_cleanupConn cfg i ans t.server.cl).sessions sessId) hlive
      · rwa [Client.sessions_congr (cleanupConn_other_channel cfg ans _ hij)] at hlive
  | batch j polls b s' h' _ hconn _ _ hrun =>
      by_cases hij : i = b.connId
      · subst hij
        obtain ⟨r, hr, rfl, -⟩ := Batch.handle_eq_some hrun
        exact (run_origin hnb hr hlive).imp_right fun hk => ⟨b, rfl, rfl, hk⟩
      · refine .inl ?_
        rwa [Client.sessions_congr (Batch.handle_other_channel hfit hrun hij)] at hlive
  | _ => exact .inl hlive

/-- A session that is live after an empty channel was created since then. -/
lemma createdBetween_of_empty (hnb : cfg.nbCryptodevs = 2) (hfit : cfg.DevicesFit) {i : ℕ}
    (hempty : s.server.cl.ChannelEmpty cfg i)
    (h : ThreadRun cfg size s t) {sessId : UInt32}
    (hlive : t.server.cl.sessions cfg i sessId ≠ none) :
    CreatedBetween cfg size s t i sessId := by
  induction h with
  | refl => exact absurd (hempty.sessions sessId) hlive
  | tail hrun hs ih =>
      obtain ⟨e, hs⟩ := hs
      rcases hs.origin hnb hfit hlive with hold | ⟨b, rfl, hconn, k, hk, hc⟩
      · obtain ⟨u, u', b, h1, h2, h3, h4⟩ := ih hold
        exact ⟨u, u', b, h1, h2, h3.tail ⟨e, hs⟩, h4⟩
      · exact ⟨_, _, b, hrun, hs, .refl, hconn, k, hk, hc⟩

/-- **Sessions end with their connection**, seen from a state: the channel of a connection that is
not active is empty when no section under its lock is running; `run_jobs` is called only for a
connection that is active; and whatever happens after such a state, an id that is live on the
channel then was created by a batch of the connection since. -/
structure Threads.SessionsEnd (cfg : Config) (size : UInt32) (s : Threads) : Prop where
  empty : ∀ i < maxConnections, s.isConnActive i = false → ¬s.InCritical i →
    s.server.cl.ChannelEmpty cfg i
  active : ∀ b t, ThreadStep cfg size s (.runJobs b) t → s.isConnActive b.connId = true
  created : ∀ i < maxConnections, s.isConnActive i = false → ¬s.InCritical i →
    ∀ t, ThreadRun cfg size s t → ∀ sessId, t.server.cl.sessions cfg i sessId ≠ none →
      CreatedBetween cfg size s t i sessId

/-- While the devices fit the registry, the invariant gives all three. -/
lemma ConnInv.sessionsEnd (hnb : cfg.nbCryptodevs = 2) (hfit : cfg.DevicesFit)
    (h : ConnInv cfg s) : s.SessionsEnd cfg size := by
  have hempty : ∀ i, s.isConnActive i = false → ¬s.InCritical i →
      s.server.cl.ChannelEmpty cfg i := fun i hi hc =>
    h.empty i hi fun he => hc (.inr (by rw [he]; rfl))
  refine ⟨fun i _ => hempty i, fun b t hs => ?_, fun i _ hi hc t ht sessId hlive =>
    createdBetween_of_empty hnb hfit (hempty i hi hc) ht hlive⟩
  cases hs with
  | batch i polls _ _ _ hm hconn => exact h.polled _ (by rw [hm]; exact hconn.symm)

/-- A batch of one request for a session; the pool answers with object 7. -/
def createBatch (cipherAlgo : UInt32) : Batch :=
  { batchOf (sampleJob cryptoOpTypeSessCreate 0 cipherAlgo) with
    script := ⟨fun _ => ⟨some 7, true, ⟨true, true⟩⟩, fun _ => ⟨[], []⟩⟩ }

/-- A client connects as connection 0 and its request for a session is handled. -/
lemma threadRun_create (size : UInt32) {cipherAlgo : UInt32} {server : Server} {h' : Heap}
    (hrun : (createBatch cipherAlgo).handle cfg Server.init = some (server, h')) :
    ∃ polls, ThreadRun cfg size Threads.init
      ⟨server, Function.update (fun _ => false) 0 true, .polling 0 polls, .waiting⟩ := by
  obtain ⟨polls, hpolls⟩ : ∃ polls, 2 * pollCalls size = polls + 1 := by
    refine Nat.exists_eq_add_one.mpr (Nat.mul_pos Nat.two_pos ?_)
    unfold pollCalls
    split_ifs with h0
    · decide
    · exact Nat.pos_of_ne_zero fun hz => h0 (UInt32.toNat_inj.mp hz)
  refine ⟨polls, .head ⟨_, .connect 0 (by decide) rfl id⟩ (.head ⟨_, .onConnectCb 0 rfl⟩ ?_)⟩
  refine .head ⟨_, .pass 0 rfl (by decide) rfl⟩ (.head ⟨_, .enter 0 rfl id rfl⟩ ?_)
  exact .single ⟨_, .batch 0 polls (createBatch cipherAlgo) server h' (by rw [hpolls]) rfl
    Nat.one_pos ⟨Nat.succ_pos 31, Nat.succ_le_succ (Nat.zero_le 63), fun _ _ _ _ h => h⟩ hrun⟩

lemma threadRun_disconnect (cfg : Config) (size : UInt32) (server : Server) (polls : ℕ) :
    ThreadRun cfg size
      ⟨server, Function.update (fun _ => false) 0 true, .polling 0 polls, .waiting⟩
      ⟨{ server with cl := cleanupConn cfg 0 (fun _ _ => ⟨true, true⟩) server.cl },
        Function.update (Function.update (fun _ => false) 0 true) 0 false, .testing 1,
        .waiting⟩ := by
  have hleave : ThreadRun cfg size
      ⟨server, Function.update (fun _ => false) 0 true, .polling 0 polls, .waiting⟩
      ⟨server, Function.update (fun _ => false) 0 true, .testing 1, .waiting⟩ := by
    induction polls with
    | zero => exact .single ⟨_, .leave 0 rfl⟩
    | succ polls ih => exact .head ⟨_, .nothing 0 polls rfl⟩ ih
  exact hleave.trans (.head ⟨_, .disconnect 0 (by decide) rfl id⟩
    (.single ⟨_, .onDisconnectCb 0 (fun _ _ => ⟨true, true⟩) rfl⟩))

/-- **A device number past the rows of a channel**: the session that a client of connection 0
creates on it is a session of a connection that is not active. -/
lemma not_sessionsEnd_of_create (cipherAlgo : UInt32) {server : Server} {h' : Heap} {dev : ℕ}
    (hnb : cfg.nbCryptodevs = 2) (hdev : maxDevNum ≤ dev) (hlt : dev < maxDevNum * maxConnections)
    (hrun : (createBatch cipherAlgo).handle cfg Server.init = some (server, h'))
    (hreg : server.cl.registry = Registry.store (fun _ _ _ => none) 0 dev 0 (some 7)) :
    ∃ t, ThreadRun cfg size Threads.init t ∧ ¬t.SessionsEnd cfg size := by
  obtain ⟨polls, ht⟩ := threadRun_create size hrun
  refine ⟨_, ht, fun hend => ?_⟩
  have hpos : dev / maxDevNum ≠ 0 := by
    unfold maxDevNum at hdev ⊢
    omega
  have hnone := hend.empty (dev / maxDevNum) (Nat.div_lt_of_lt_mul hlt)
    ((Function.update_of_ne hpos true fun _ => false).trans rfl) (by
      rintro (h | h)
      · exact hpos h.symm
      · exact h)
    (dev % maxDevNum) ((Nat.mod_lt _ (by decide)).trans_eq hnb.symm) 0 (by decide)
  rw [hreg, Registry.store, Registry.set_apply, if_pos ⟨(Nat.zero_add _).symm, rfl, rfl⟩] at hnone
  exact absurd hnone (by decide)

/-- **Sessions and connections.**  For all device numbers `init_inner` can find, the sessions end
with their connection in every state the two threads can reach, if and only if both numbers are
below `MAX_DEV_NUM`. -/
theorem sessions_end_iff_devices_fit (a s : UInt8) (aes snow : List UInt8)
    (ha : a.toNat < rteCryptoMaxDevs) (hs : s.toNat < rteCryptoMaxDevs) (maxBurstSize : UInt32)
    (behind : UInt32 → RteCipherOp) (cfg : Config)
    (hcfg : initInner (a :: aes) (s :: snow) maxBurstSize behind = some cfg) (size : UInt32) :
    (∀ t, ThreadRun cfg size Threads.init t → t.SessionsEnd cfg size) ↔
      a.toNat < maxDevNum ∧ s.toNat < maxDevNum := by
  obtain rfl : Config.ofDevices a s maxBurstSize behind = cfg := by simpa [initInner] using hcfg
  constructor
  · intro h
    by_contra hno
    rw [not_and_or, Nat.not_lt, Nat.not_lt] at hno
    obtain ⟨t, ht, hend⟩ : ∃ t, ThreadRun (Config.ofDevices a s maxBurstSize behind) size
        Threads.init t ∧ ¬t.SessionsEnd (Config.ofDevices a s maxBurstSize behind) size := by
      rcases hno with ha2 | hs2
      · exact not_sessionsEnd_of_create cryptoCipherAesCtr rfl ha2 ha rfl rfl
      · exact not_sessionsEnd_of_create cryptoCipherSnow3gUea2 rfl hs2 hs rfl rfl
    exact hend (h t ht)
  · rintro ⟨ha2, hs2⟩ t ht
    have hfit := devicesFit_ofDevices ha2 hs2 maxBurstSize behind
    exact (ConnInv.of_run hfit ht).sessionsEnd rfl hfit

/-- A client connects, creates a session and disconnects; nothing is left of it. -/
theorem sessions_end_created :
    ∃ t s, ThreadRun (sampleConfig 0 1) 64 Threads.init t ∧
      t.server.cl.sessions (sampleConfig 0 1) 0 0 = some 7 ∧
      ThreadRun (sampleConfig 0 1) 64 t s ∧ s.isConnActive 0 = false ∧
      s.server.cl.ChannelEmpty (sampleConfig 0 1) 0 := by
  obtain ⟨s', h', hrun, hlive⟩ : ∃ s' h',
      (createBatch cryptoCipherAesCtr).handle (sampleConfig 0 1) Server.init = some (s', h') ∧
        s'.cl.sessions (sampleConfig 0 1) 0 0 = some 7 := ⟨_, _, rfl, rfl⟩
  obtain ⟨polls, hcreate⟩ := threadRun_create 64 hrun
  have hclose := threadRun_disconnect (sampleConfig 0 1) 64 s' polls
  refine ⟨_, _, hcreate, hlive, hclose, by simp, ?_⟩
  have hend := (sessions_end_iff_devices_fit 0 1 [] [] (by decide) (by decide) 64 _ _ rfl 64).mpr
    ⟨by decide, by decide⟩ _ (hcreate.trans hclose)
  exact hend.empty 0 (by decide) (by simp) (by rintro (h | h) <;> exact h)

/-- **A session outlives its connection.**  The AES device is device 0 and the SNOW3G device is
device 2.  A client connects as connection 0, creates a SNOW3G session and disconnects: no
connection is active and no section under a lock is running, but the session is there, and id 0
names it on channel 1. -/
theorem session_outlives_connection :
    initInner [0] [2] 64 (fun _ => .encrypt) = some (sampleConfig 0 2) ∧
      ∃ s, ThreadRun (sampleConfig 0 2) 64 Threads.init s ∧
        (∀ i, s.isConnActive i = false ∧ ¬s.InCritical i) ∧
        s.server.cl.sessions (sampleConfig 0 2) 1 0 = some 7 ∧
        ¬s.SessionsEnd (sampleConfig 0 2) 64 := by
  obtain ⟨s', h', hrun, hreg⟩ : ∃ s' h',
      (createBatch cryptoCipherSnow3gUea2).handle (sampleConfig 0 2) Server.init =
          some (s', h') ∧
        s'.cl.registry = Registry.set (fun _ _ _ => none) 1 0 0 (some 7) := ⟨_, _, rfl, rfl⟩
  obtain ⟨polls, hcreate⟩ := threadRun_create 64 hrun
  have hclose := threadRun_disconnect (sampleConfig 0 2) 64 s' polls
  obtain ⟨cl', hcl'⟩ : ∃ cl', cleanupConn (sampleConfig 0 2) 0 (fun _ _ => ⟨true, true⟩) s'.cl =
      cl' := ⟨_, rfl⟩
  rw [hcl'] at hclose
  have hidle : ∀ i, Function.update (Function.update (fun _ => false) 0 true) 0 false i = false ∧
      ¬((MainPc.testing 1).Holds i ∨ EpollPc.waiting.Holds i) := by
    refine fun i => ⟨?_, by rintro (h | h) <;> exact h⟩
    rw [Function.update_idem]
    exact congrFun (Function.update_eq_self 0 (fun _ => false)) i
  have hlive : cl'.sessions (sampleConfig 0 2) 1 0 = some 7 := by
    rw [← hcl', Client.sessions_congr (cleanupConn_other_channel _ _ _ (by decide)),
      Client.sessions, getSession, hreg]
    rfl
  refine ⟨rfl, _, hcreate.trans hclose, hidle, hlive, fun hend => ?_⟩
  have hnone := (hend.empty 1 (by decide) (hidle 1).1 (hidle 1).2).sessions 0
  exact absurd (hlive.symm.trans hnone) (by decide)

end Main

end CiphApp
