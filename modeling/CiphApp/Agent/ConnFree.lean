import CiphApp.Agent.Connections

/-!
# Freeing a connection

Sessions are removed on the way of a disconnect: libmemif calls `on_disconnect` of the memif
client, that one calls `on_disconnected` of the agent, and that one the callback the application
registered with `conn_alloc`, which empties the channel of the registry (`cleanup_conn`).
`conn_free` takes this way too, by `memif_delete`, but it sets the callbacks to `NULL` first.

The state below has the three layers: the flag and the callbacks of the agent, the connection of
libmemif, and the registry behind the application.  Sections under the lock of a connection are
atomic here; `CiphApp.Agent.Connections` has looked into them.  The epoll thread may run between
the two halves of `conn_free`.

* `conn_free_frees_iff`: after `conn_free` the flag is cleared in any case, and the channel is
  empty if and only if it was before.
* `channelEmpty_of_careful_run`: as long as `conn_free` is called on empty channels only, the
  channel of a connection that is not active is empty.
-/

namespace CiphApp

open Lib Relation

/-! ## Connections and callbacks -/

/-- The connection a `memif_connection_t` of the memif client has with libmemif. -/
inductive MemifConn
  /-- `NULL`. -/
  | null
  /-- Created, and without a peer: `fd` is -1. -/
  | listening
  /-- A peer was accepted: `fd` is positive. -/
  | live
  deriving DecidableEq, Repr

/-- The state of the server with its callbacks and connections.  Of a callback it only matters
whether it is registered; what this application registers is fixed. -/
structure Conns where
  server : Server
  /-- `_is_conn_active`. -/
  isConnActive : ℕ → Bool
  /-- `_on_ops_complete_cb` is not `NULL`; what the application registers calls `run_jobs`. -/
  onOpsCompleteCb : ℕ → Bool
  /-- `_on_disconnect_cb` is not `NULL`; what the application registers calls `cleanup_conn`. -/
  onDisconnectCb : ℕ → Bool
  conn : ℕ → MemifConn

namespace Conns

/-- The state after `init`. -/
def init : Conns where
  server := Server.init
  isConnActive := fun _ => false
  onOpsCompleteCb := fun _ => false
  onDisconnectCb := fun _ => false
  conn := fun _ => .null

/-- `conn_alloc` with the callbacks of the application; `ok` is whether `memif_create`
succeeds. -/
def connAlloc (i : ℕ) (ok : Bool) (s : Conns) : Conns :=
  { s with
    onOpsCompleteCb := Function.update s.onOpsCompleteCb i true
    onDisconnectCb := Function.update s.onDisconnectCb i true
    conn := Function.update s.conn i (if ok then .listening else .null) }

/-- `on_connected`.  The callback of the application writes a line to its log. -/
def onConnected (i : ℕ) (s : Conns) : Conns :=
  { s with isConnActive := Function.update s.isConnActive i true }

/-- `on_disconnected`. -/
def onDisconnected (cfg : Config) (ans : ℕ → ℕ → ReleaseAns) (i : ℕ) (s : Conns) : Conns :=
  { s with
    isConnActive := Function.update s.isConnActive i false
    server :=
      if s.onDisconnectCb i then
        { s.server with cl := cleanupConn cfg i ans s.server.cl }
      else s.server }

/-- `memif_disconnect_internal`: the callback first, then the descriptor is closed. -/
def disconnectInternal (cfg : Config) (ans : ℕ → ℕ → ReleaseAns) (i : ℕ) (s : Conns) : Conns :=
  { s.onDisconnected cfg ans i with conn := Function.update s.conn i .listening }

/-- `memif_delete`, which disconnects a live connection. -/
def memifDelete (cfg : Config) (ans : ℕ → ℕ → ReleaseAns) (i : ℕ) (s : Conns) : Conns :=
  match s.conn i with
  | .null => s
  | .listening => { s with conn := Function.update s.conn i .null }
  | .live =>
    { s.disconnectInternal cfg ans i with
      conn := Function.update (s.disconnectInternal cfg ans i).conn i .null }

/-- The assignments at the start of `conn_free`. -/
def clearCallbacks (i : ℕ) (s : Conns) : Conns :=
  { s with
    onOpsCompleteCb := Function.update s.onOpsCompleteCb i false
    onDisconnectCb := Function.update s.onDisconnectCb i false }

end Conns

/-- **A step of the epoll thread**: a peer is accepted, its connection is reported, or it is
lost. -/
inductive EpollStep (cfg : Config) (s : Conns) : Conns → Prop
  | accept (i : ℕ) (h : s.conn i = .listening) :
      EpollStep cfg s { s with conn := Function.update s.conn i .live }
  | connected (i : ℕ) (h : s.conn i = .live) : EpollStep cfg s (s.onConnected i)
  | disconnected (i : ℕ) (ans : ℕ → ℕ → ReleaseAns) (h : s.conn i = .live) :
      EpollStep cfg s (s.disconnectInternal cfg ans i)

/-- **A call of `conn_free`** of the server, from `s` to `s'`.  The epoll thread may run between its
assignments and `memif_delete`. -/
def ConnFree (cfg : Config) (i : ℕ) (s s' : Conns) : Prop :=
  ∃ u ans, ReflTransGen (EpollStep cfg) (s.clearCallbacks i) u ∧ s' = u.memifDelete cfg ans i

/-- **A step of the server**; `Calls i s` is what is asked of a state in which `conn_free` is
called for connection `i`. -/
inductive ConnsStep (cfg : Config) (Calls : ℕ → Conns → Prop) (s : Conns) : Conns → Prop
  | epoll (s' : Conns) (h : EpollStep cfg s s') : ConnsStep cfg Calls s s'
  | connAlloc (i : ℕ) (ok : Bool) (hi : i < maxConnections) (h : s.conn i = .null) :
      ConnsStep cfg Calls s (s.connAlloc i ok)
  | batch (b : Batch) (server : Server) (h' : Heap) (hflag : s.isConnActive b.connId = true)
      (hcb : s.onOpsCompleteCb b.connId = true) (hb : b.Valid)
      (hrun : b.handle cfg s.server = some (server, h')) :
      ConnsStep cfg Calls s { s with server }
  | connFree (i : ℕ) (s' : Conns) (hi : i < maxConnections) (hcall : Calls i s)
      (h : ConnFree cfg i s s') : ConnsStep cfg Calls s s'

/-- Some steps of the server. -/
def ConnsRun (cfg : Config) (Calls : ℕ → Conns → Prop) : Conns → Conns → Prop :=
  ReflTransGen (ConnsStep cfg Calls)

/-! ## What a step does to a channel -/

section Channel

variable {cfg : Config} {s s' : Conns} {i : ℕ}

lemma onDisconnected_server (ans : ℕ → ℕ → ReleaseAns) (h : s.onDisconnectCb i = false) :
    (s.onDisconnected cfg ans i).server = s.server := by
  simp [Conns.onDisconnected, h]

/-- A disconnect of one connection leaves the channels of the others alone. -/
lemma onDisconnected_other {j : ℕ} (ans : ℕ → ℕ → ReleaseAns) (hj : j ≠ i) :
    (s.onDisconnected cfg ans i).server.cl.registry j = s.server.cl.registry j := by
  unfold Conns.onDisconnected
  split_ifs
  · exact cleanupConn_other_channel cfg ans _ hj
  · rfl

/-- The epoll thread registers no callback, and without one it leaves a channel alone. -/
lemma EpollStep.without_callback (h : EpollStep cfg s s') (hcb : s.onDisconnectCb i = false) :
    s'.onDisconnectCb i = false ∧ s'.server.cl.registry i = s.server.cl.registry i := by
  cases h with
  | accept => exact ⟨hcb, rfl⟩
  | connected => exact ⟨hcb, rfl⟩
  | disconnected j ans hlive =>
      refine ⟨hcb, ?_⟩
      show (s.onDisconnected cfg ans j).server.cl.registry i = _
      by_cases hij : i = j
      · subst hij
        rw [onDisconnected_server ans hcb]
      · exact onDisconnected_other ans hij

lemma memifDelete_registry (ans : ℕ → ℕ → ReleaseAns) (hcb : s.onDisconnectCb i = false) :
    (s.memifDelete cfg ans i).server.cl.registry i = s.server.cl.registry i := by
  unfold Conns.memifDelete
  split
  · rfl
  · rfl
  · show (s.onDisconnected cfg ans i).server.cl.registry i = _
    rw [onDisconnected_server ans hcb]

/-- **`conn_free` leaves the channel of its connection as it is.** -/
lemma ConnFree.registry (h : ConnFree cfg i s s') :
    s'.server.cl.registry i = s.server.cl.registry i := by
  obtain ⟨u, ans, hrun, rfl⟩ := h
  have hu : u.onDisconnectCb i = false ∧ u.server.cl.registry i = s.server.cl.registry i := by
    refine run_induct (Q := fun u => u.onDisconnectCb i = false ∧
      u.server.cl.registry i = s.server.cl.registry i) (fun t t' hs ht => ?_) hrun
      ⟨by simp [Conns.clearCallbacks], rfl⟩
    obtain ⟨hcb, hreg⟩ := hs.without_callback ht.1
    exact ⟨hcb, hreg.trans ht.2⟩
  rw [memifDelete_registry ans hu.1, hu.2]

end Channel

/-! ## The invariant -/

/-- **The invariant of the connections.**  What it says about callbacks and channels is said for
the connections that are not `spared`. -/
structure ConnsInv (cfg : Config) (spared : ℕ → Prop) (s : Conns) : Prop where
  live : ∀ j, s.isConnActive j = true → s.conn j = .live
  callback : ∀ j, ¬spared j → s.conn j ≠ .null → s.onDisconnectCb j = true
  empty : ∀ j, ¬spared j → s.isConnActive j = false → s.server.cl.ChannelEmpty cfg j

section Invariant

variable {cfg : Config} {spared : ℕ → Prop} {s s' : Conns} {i : ℕ}

lemma ConnsInv.init (cfg : Config) (spared : ℕ → Prop) : ConnsInv cfg spared Conns.init where
  live := fun _ h => absurd (show false = true from h) (by decide)
  callback := fun _ _ h => absurd rfl h
  empty := fun _ _ _ _ _ _ _ => rfl

lemma ConnsInv.epollStep (h : ConnsInv cfg spared s) (hs : EpollStep cfg s s') :
    ConnsInv cfg spared s' := by
  cases hs with
  | accept i hlisten =>
      refine ⟨fun j hj => ?_, fun j hj hne => ?_, h.empty⟩
      · by_cases hji : j = i
        · subst hji
          exact Function.update_self ..
        · exact (Function.update_of_ne hji ..).trans (h.live j hj)
      · refine h.callback j hj fun hnull => hne ?_
        have hji : j ≠ i := by
          rintro rfl
          exact absurd (hnull.symm.trans hlisten) (by decide)
        exact (Function.update_of_ne hji ..).trans hnull
  | connected i hlive =>
      refine ⟨fun j hj => ?_, h.callback, fun j hj hflag => h.empty j hj ?_⟩
      · by_cases hji : j = i
        · rw [hji]
          exact hlive
        · exact h.live j ((Function.update_of_ne hji ..).symm.trans hj)
      · have hji : j ≠ i := by
          rintro rfl
          simp [Conns.onConnected] at hflag
        exact (Function.update_of_ne hji ..).symm.trans hflag
  | disconnected i ans hlive =>
      have hflag : ∀ j, j ≠ i → (s.disconnectInternal cfg ans i).isConnActive j =
          s.isConnActive j := fun j hji => Function.update_of_ne hji ..
      refine ⟨fun j hj => ?_, fun j hj hne => ?_, fun j hj hfalse => ?_⟩
      · have hji : j ≠ i := by
          rintro rfl
          simp [Conns.disconnectInternal, Conns.onDisconnected] at hj
        exact (Function.update_of_ne hji ..).trans (h.live j (hflag j hji ▸ hj))
      · by_cases hji : j = i
        · subst hji
          exact h.callback j hj (by rw [hlive]; decide)
        · exact h.callback j hj fun hnull => hne ((Function.update_of_ne hji ..).trans hnull)
      · by_cases hji : j = i
        · -- the connection was live, so its callback is there and empties the channel
          subst hji
          have hcb := h.callback j hj (by rw [hlive]; decide)
          simp only [Conns.disconnectInternal, Conns.onDisconnected, if_pos hcb]
          exact channelEmpty_cleanupConn cfg j ans _
        · exact (h.empty j hj (hflag j hji ▸ hfalse)).congr (onDisconnected_other ans hji)

lemma ConnsInv.connAlloc (h : ConnsInv cfg spared s) (ok : Bool) (hnull : s.conn i = .null) :
    ConnsInv cfg spared (s.connAlloc i ok) := by
  refine ⟨fun j hj => ?_, fun j hj hne => ?_, h.empty⟩
  · have hlive := h.live j hj
    have hji : j ≠ i := by
      rintro rfl
      exact absurd (hlive.symm.trans hnull) (by decide)
    exact (Function.update_of_ne hji ..).trans hlive
  · by_cases hji : j = i
    · subst hji
      exact Function.update_self ..
    · refine (Function.update_of_ne hji ..).trans (h.callback j hj fun hc => hne ?_)
      exact (Function.update_of_ne hji ..).trans hc

lemma ConnsInv.batch (hfit : ∀ j, ¬spared j → cfg.DevicesFit) (h : ConnsInv cfg spared s)
    {b : Batch} {server : Server} {h' : Heap} (hflag : s.isConnActive b.connId = true)
    (hrun : b.handle cfg s.server = some (server, h')) :
    ConnsInv cfg spared { s with server } := by
  refine ⟨h.live, h.callback, fun j hj hfalse => ?_⟩
  have hji : j ≠ b.connId := by
    rintro rfl
    exact absurd (hflag.symm.trans hfalse) (by decide)
  exact (h.empty j hj hfalse).congr (Batch.handle_other_channel (hfit j hj) hrun hji)

/-! ### `conn_free` -/

lemma ConnsInv.clearCallbacks (h : ConnsInv cfg spared s) (i : ℕ) :
    ConnsInv cfg (fun j => spared j ∨ j = i) (s.clearCallbacks i) := by
  refine ⟨h.live, fun j hj hne => ?_, fun j hj => h.empty j fun hs => hj (.inl hs)⟩
  obtain ⟨hs, hji⟩ := not_or.mp hj
  exact (Function.update_of_ne hji ..).trans (h.callback j hs hne)

/-- What `memif_delete` leaves behind.  The flag of the connection can only stay set if there was no
peer whose disconnect would have been reported. -/
structure Deleted (i : ℕ) (s s' : Conns) : Prop where
  conn : s'.conn i = .null
  flag : s'.isConnActive i = true → s.isConnActive i = true ∧ s.conn i ≠ .live
  callbacks : s'.onDisconnectCb = s.onDisconnectCb
  other : ∀ j ≠ i, s'.conn j = s.conn j ∧ s'.isConnActive j = s.isConnActive j ∧
    s'.server.cl.registry j = s.server.cl.registry j

lemma memifDelete_deleted (cfg : Config) (ans : ℕ → ℕ → ReleaseAns) (i : ℕ) (s : Conns) :
    Deleted i s (s.memifDelete cfg ans i) := by
  unfold Conns.memifDelete
  split
  · rename_i hnull
    exact ⟨hnull, fun hj => ⟨hj, by rw [hnull]; decide⟩, rfl, fun j _ => ⟨rfl, rfl, rfl⟩⟩
  · rename_i hlisten
    exact ⟨Function.update_self .., fun hj => ⟨hj, by rw [hlisten]; decide⟩, rfl,
      fun j hji => ⟨Function.update_of_ne hji .., rfl, rfl⟩⟩
  · refine ⟨Function.update_self .., fun hj => ?_, rfl, fun j hji => ⟨?_, ?_, ?_⟩⟩
    · simp [Conns.disconnectInternal, Conns.onDisconnected] at hj
    · exact (Function.update_of_ne hji ..).trans (Function.update_of_ne hji ..)
    · exact Function.update_of_ne hji ..
    · exact onDisconnected_other ans hji

lemma ConnsInv.deleted (h : ConnsInv cfg (fun j => spared j ∨ j = i) s) (hd : Deleted i s s')
    (hempty : ¬spared i → s'.server.cl.ChannelEmpty cfg i) : ConnsInv cfg spared s' := by
  refine ⟨fun j hj => ?_, fun j hj hne => ?_, fun j hj hfalse => ?_⟩
  · by_cases hji : j = i
    · subst hji
      obtain ⟨hflag, hnot⟩ := hd.flag hj
      exact absurd (h.live j hflag) hnot
    · obtain ⟨hconn, hflag, -⟩ := hd.other j hji
      exact hconn.trans (h.live j (hflag ▸ hj))
  · have hji : j ≠ i := by
      rintro rfl
      exact hne hd.conn
    rw [hd.callbacks]
    exact h.callback j (not_or.mpr ⟨hj, hji⟩) ((hd.other j hji).1 ▸ hne)
  · by_cases hji : j = i
    · rw [hji] at hj ⊢
      exact hempty hj
    · obtain ⟨-, hflag, hreg⟩ := hd.other j hji
      exact (h.empty j (not_or.mpr ⟨hj, hji⟩) (hflag ▸ hfalse)).congr hreg

lemma ConnsInv.connFree (h : ConnsInv cfg spared s) (hf : ConnFree cfg i s s')
    (hempty : ¬spared i → s.server.cl.ChannelEmpty cfg i) : ConnsInv cfg spared s' := by
  have hreg := hf.registry
  obtain ⟨u, ans, hrun, rfl⟩ := hf
  have hu : ConnsInv cfg (fun j => spared j ∨ j = i) u :=
    run_induct (Q := ConnsInv cfg fun j => spared j ∨ j = i) (fun _ _ hs ht => ht.epollStep hs) hrun
      (h.clearCallbacks i)
  exact hu.deleted (memifDelete_deleted cfg ans i u) fun hs => (hempty hs).congr hreg

/-- The invariant holds in every run whose calls of `conn_free` find an empty channel, as far as
the connection is not spared.  If one is not, the devices have to fit the registry. -/
lemma ConnsInv.of_run {Calls : ℕ → Conns → Prop} (hfit : ∀ j, ¬spared j → cfg.DevicesFit)
    (hcalls : ∀ i s, Calls i s → ¬spared i → s.server.cl.ChannelEmpty cfg i)
    (h : ConnsRun cfg Calls Conns.init s) : ConnsInv cfg spared s := by
  refine run_induct (Q := ConnsInv cfg spared) (fun t t' hs ht => ?_) h (ConnsInv.init cfg spared)
  cases hs with
  | epoll s' hs => exact ht.epollStep hs
  | connAlloc i ok _ hnull => exact ht.connAlloc ok hnull
  | batch b server h' hflag _ _ hrun => exact ht.batch hfit hflag hrun
  | connFree i s' _ hcall hf => exact ht.connFree hf (hcalls i t hcall)

end Invariant

/-! ## Sessions of a freed connection -/

section Main

variable {cfg : Config} {s s' : Conns} {i : ℕ}

lemma connFree_flag {Calls : ℕ → Conns → Prop} (h : ConnsRun cfg Calls Conns.init s)
    (hf : ConnFree cfg i s s') : s'.isConnActive i = false := by
  -- nothing is asked of callbacks and channels here
  have hinv : ConnsInv cfg (fun _ => True) s :=
    .of_run (fun _ hs => absurd trivial hs) (fun _ _ _ hs => absurd trivial hs) h
  have hinv' := hinv.connFree hf fun hs => absurd trivial hs
  obtain ⟨u, ans, -, rfl⟩ := hf
  by_contra htrue
  have hlive := hinv'.live i (by simpa using htrue)
  exact absurd ((memifDelete_deleted cfg ans i u).conn.symm.trans hlive) (by decide)

/-- **Freeing a connection.**  In every state of every run, after `conn_free` the connection is not
active and its channel is empty, if and only if the channel was empty before. -/
theorem conn_free_frees_iff (h : ConnsRun cfg (fun _ _ => True) Conns.init s)
    (hf : ConnFree cfg i s s') :
    s'.isConnActive i = false ∧ s'.server.cl.ChannelEmpty cfg i ↔
      s.server.cl.ChannelEmpty cfg i :=
  ⟨fun hs => hs.2.congr hf.registry.symm,
    fun hempty => ⟨connFree_flag h hf, hempty.congr hf.registry⟩⟩

/-- **As long as `conn_free` is called on empty channels**, and the devices fit the registry, the
channel of a connection that is not active is empty: the disconnects see to it. -/
theorem channelEmpty_of_careful_run (hfit : cfg.DevicesFit)
    (h : ConnsRun cfg (fun i s => s.server.cl.ChannelEmpty cfg i) Conns.init s)
    (hflag : s.isConnActive i = false) : s.server.cl.ChannelEmpty cfg i := by
  have hinv : ConnsInv cfg (fun _ => False) s :=
    .of_run (fun _ _ => hfit) (fun _ _ hcall _ => hcall) h
  exact hinv.empty i not_false hflag

/-- Connection 0 was allocated, and a client has connected. -/
def connectedServer : Conns :=
  let s := Conns.init.connAlloc 0 true
  Conns.onConnected 0 { s with conn := Function.update s.conn 0 .live }

lemma connectedServer_run (cfg : Config) (Calls : ℕ → Conns → Prop) :
    ConnsRun cfg Calls Conns.init connectedServer := by
  refine .head (.connAlloc 0 true (by decide) rfl) (.head (.epoll _ (.accept 0 rfl)) ?_)
  exact .single (.epoll _ (.connected 0 rfl))

/-- A client that created no session: its connection can be freed. -/
theorem conn_free_frees_unused :
    ConnsRun (sampleConfig 0 1) (fun _ _ => True) Conns.init connectedServer ∧
      connectedServer.isConnActive 0 = true ∧
      ∃ s', ConnFree (sampleConfig 0 1) 0 connectedServer s' ∧ s'.isConnActive 0 = false ∧
        s'.server.cl.ChannelEmpty (sampleConfig 0 1) 0 := by
  have hrun := connectedServer_run (sampleConfig 0 1) fun _ _ => True
  have hfree : ConnFree (sampleConfig 0 1) 0 connectedServer _ :=
    ⟨_, fun _ _ => ⟨true, true⟩, .refl, rfl⟩
  have hempty : connectedServer.server.cl.ChannelEmpty (sampleConfig 0 1) 0 :=
    fun _ _ _ _ => rfl
  exact ⟨hrun, rfl, _, hfree, (conn_free_frees_iff hrun hfree).mpr hempty⟩

/-- **A session that outlives its connection**: a client connects and creates a session, and the
connection is freed.  The registry still holds the session. -/
theorem conn_free_keeps_session :
    ∃ s s', ConnsRun (sampleConfig 0 1) (fun _ _ => True) Conns.init s ∧
      s.conn 0 = .live ∧ ConnFree (sampleConfig 0 1) 0 s s' ∧ s'.isConnActive 0 = false ∧
      s'.server.cl.registry 0 0 0 = some 7 ∧
      ¬s'.server.cl.ChannelEmpty (sampleConfig 0 1) 0 := by
  obtain ⟨server, h', hbatch, hcell⟩ : ∃ server h',
      (createBatch cryptoCipherAesCtr).handle (sampleConfig 0 1) Server.init = some (server, h') ∧
        server.cl.registry 0 0 0 = some 7 := ⟨_, _, rfl, rfl⟩
  have hrun : ConnsRun (sampleConfig 0 1) (fun _ _ => True) Conns.init
      { connectedServer with server } :=
    (connectedServer_run _ _).tail (.batch (createBatch cryptoCipherAesCtr) server h' rfl rfl
      ⟨by decide, by decide, fun _ _ _ _ h => h⟩ hbatch)
  have hfree : ConnFree (sampleConfig 0 1) 0 { connectedServer with server } _ :=
    ⟨_, fun _ _ => ⟨true, true⟩, .refl, rfl⟩
  refine ⟨_, _, hrun, rfl, hfree, connFree_flag hrun hfree, ?_, fun hempty => ?_⟩
  · rw [hfree.registry]
    exact hcell
  · have hnone := hempty 0 (by decide) 0 (by decide)
    rw [hfree.registry] at hnone
    exact absurd (hcell.symm.trans hnone) (by decide)

end Main

end CiphApp
