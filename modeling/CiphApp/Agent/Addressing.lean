import CiphApp.Cryptodev.Sessions

/-!
# Which connection is which

A client has two connections, a server 32, and the memif layer under both of them 100.  They meet
in the *memif index*: the client agent computes it from its client id and its own connection id,
the application computes it from the list of client ids in its configuration, and everything on
the server, down to the session registry, is subscripted by it.

`init` takes any client id, and an id of `-1` switches the check of the connection id off.  The
server agent checks nothing; the memif layer compares with its own limit, after the server agent
has stored its callbacks.  So the limits only fit together for client ids up to 15
(`addressing_iff`).

`MAX_CONN_PER_CLIENT * _client_id` is a product of two signed `int`s, so its overflow is undefined
behaviour: the functions that compute it return `none` then.
-/

namespace CiphApp

/-! ## The tables -/

/-- The arrays with an entry for each connection. -/
inductive ConnTable
  /-- `Ciph_comm_agent_base<2>`: callbacks, locks, flags and operation pools of a client. -/
  | clientAgent
  /-- `Ciph_comm_agent_base<32>`: the same of the server. -/
  | serverAgent
  /-- `memif_connection` and `ctx`. -/
  | memif
  /-- `_active_sessions_registry`, by channel. -/
  | registry
  deriving DecidableEq, Repr

def ConnTable.size : ConnTable → ℕ
  | .clientAgent => 2
  | .serverAgent => 32
  | .memif => 100
  | .registry => maxChannelNum

/-- An access to the entry of a connection. -/
structure Subscript where
  table : ConnTable
  index : ℕ
  deriving DecidableEq

def Subscript.Inside (u : Subscript) : Prop := u.index < u.table.size

instance (u : Subscript) : Decidable u.Inside := inferInstanceAs (Decidable (_ < _))

/-- `Memif_client::conn_alloc`: the entries it touches, and whether it goes on to create the
connection.  The index is a `uint32_t` widened to `long`. -/
def memifConnAlloc (index : UInt32) : List Subscript × Bool :=
  if ConnTable.memif.size ≤ index.toNat then ([], false) else ([⟨.memif, index.toNat⟩], true)

/-! ## The client -/

/-- `MAX_CONN_PER_CLIENT`. -/
def maxConnPerClient : ℕ := 2

/-- The conversion of an `int` to `uint32_t`. -/
def toU32 (z : ℤ) : UInt32 := UInt32.ofNat (z % 2 ^ 32).toNat

/-- `MAX_CONN_PER_CLIENT * _client_id`, converted to `uint32_t`. -/
def connBase (clientId : Int32) : Option UInt32 :=
  if -2 ^ 31 ≤ maxConnPerClient * clientId.toInt ∧ maxConnPerClient * clientId.toInt < 2 ^ 31 then
    some (toU32 (maxConnPerClient * clientId.toInt))
  else none

/-- `get_memif_conn_id`. -/
def getMemifConnId (clientId : Int32) (connId : UInt32) : Option UInt32 :=
  if clientId = -1 then some connId else (connBase clientId).map (connId + ·)

/-- `get_conn_id`. -/
def getConnId (clientId : Int32) (memifConnId : UInt32) : Option UInt32 :=
  if clientId = -1 then some memifConnId else (connBase clientId).map (memifConnId - ·)

/-- `check_conn_id` returns 0. -/
def checkConnId (clientId : Int32) (connId : UInt32) : Bool :=
  clientId = -1 || connId.toNat < maxConnPerClient

/-- `Ciph_comm_agent_client::conn_alloc`: the entries it touches, and whether it succeeds. -/
def clientConnAlloc (clientId : Int32) (connId : UInt32) : Option (List Subscript × Bool) :=
  if checkConnId clientId connId then
    (getMemifConnId clientId connId).map fun index =>
      (⟨.clientAgent, connId.toNat⟩ :: (memifConnAlloc index).1, (memifConnAlloc index).2)
  else some ([], false)

/-- The callbacks of the client agent, which are called with a memif index. -/
def clientCallback (clientId : Int32) (memifConnId : UInt32) : Option (List Subscript) :=
  (getConnId clientId memifConnId).map fun connId =>
    if checkConnId clientId connId then [⟨.clientAgent, connId.toNat⟩] else []

/-! ## The server -/

/-- The memif indices `main` makes of a client id. -/
def memifIdsOf (clientId : UInt32) : List UInt32 := [clientId * 2, clientId * 2 + 1]

/-- `uint_memif_ids`, for the client ids of the configuration. -/
def uintMemifIds (clientIds : List UInt32) : List UInt32 := clientIds.flatMap memifIdsOf

/-- `Ciph_comm_agent_server::conn_alloc`: the callbacks are stored before the memif layer sees
the index. -/
def serverConnAlloc (connId : UInt32) : List Subscript × Bool :=
  (⟨.serverAgent, connId.toNat⟩ :: (memifConnAlloc connId).1, (memifConnAlloc connId).2)

/-- The callbacks of the server agent: `on_connected`, `on_disconnected`, which cleans a channel of
the registry, and `on_recv_cb`, which runs jobs on it. -/
def serverCallback (connId : UInt32) : List Subscript :=
  [⟨.serverAgent, connId.toNat⟩, ⟨.registry, connId.toNat⟩]

/-- The connections the loop of `poll_all` visits. -/
def pollAllVisits : List ℕ := List.range ConnTable.serverAgent.size

/-! ## Agreement -/

/-- **Client and server agree on a connection**: the client has an index for it, both sides can
allocate it, the server makes it of the client's id, and no access of either side is out of
bounds. -/
structure Addressed (clientId : Int32) (connId index : UInt32) : Prop where
  client : getMemifConnId clientId connId = some index
  server : index ∈ memifIdsOf (toU32 clientId.toInt)
  inverse : getConnId clientId index = some connId
  clientAlloc : ∃ touched, clientConnAlloc clientId connId = some (touched, true) ∧
    ∀ u ∈ touched, u.Inside
  clientCalls : ∃ touched, clientCallback clientId index = some touched ∧ ∀ u ∈ touched, u.Inside
  serverAlloc : (serverConnAlloc index).2 = true ∧ ∀ u ∈ (serverConnAlloc index).1, u.Inside
  serverCalls : ∀ u ∈ serverCallback index, u.Inside
  polled : index.toNat ∈ pollAllVisits

/-- **The addressing of a configuration is right**: every connection that a configured client can
allocate is addressed, and no two of them have the same index. -/
structure AddressingAgrees (clientIds : List UInt32) : Prop where
  addressed : ∀ clientId connId, toU32 clientId.toInt ∈ clientIds →
    checkConnId clientId connId = true →
    ∃ index ∈ uintMemifIds clientIds, Addressed clientId connId index
  distinct : ∀ clientId connId clientId' connId', toU32 clientId.toInt ∈ clientIds →
    toU32 clientId'.toInt ∈ clientIds → checkConnId clientId connId = true →
    checkConnId clientId' connId' = true →
    getMemifConnId clientId connId = getMemifConnId clientId' connId' →
    clientId = clientId' ∧ connId = connId'

section Agreement

variable {clientId : Int32} {connId index : UInt32}

lemma toNat_toU32 (z : ℤ) : ((toU32 z).toNat : ℤ) = z % 2 ^ 32 := by
  have h0 : 0 ≤ z % 2 ^ 32 := Int.emod_nonneg z (by decide)
  have h1 : z % 2 ^ 32 < 2 ^ 32 := Int.emod_lt_of_pos z (by decide)
  rw [toU32, UInt32.toNat_ofNat']
  omega

lemma toInt_bounds (clientId : Int32) : -2 ^ 31 ≤ clientId.toInt ∧ clientId.toInt < 2 ^ 31 :=
  ⟨clientId.le_toInt, clientId.toInt_lt⟩

lemma exists_toU32_eq (i : UInt32) : ∃ clientId : Int32, toU32 clientId.toInt = i := by
  refine ⟨⟨i⟩, UInt32.toNat_inj.mp ?_⟩
  have hmod : (⟨i⟩ : Int32).toInt = (i.toNat : ℤ).bmod (2 ^ 32) :=
    BitVec.toInt_eq_toNat_bmod i.toBitVec
  have hmod' : (⟨i⟩ : Int32).toInt % 2 ^ 32 = i.toNat % 2 ^ 32 := by
    rw [hmod]
    exact Int.bmod_emod
  have h := toNat_toU32 (⟨i⟩ : Int32).toInt
  have hlt := i.toNat_lt
  omega

lemma toInt_of_small (h : toU32 clientId.toInt < 16) :
    0 ≤ clientId.toInt ∧ clientId.toInt < 16 := by
  have hz := toNat_toU32 clientId.toInt
  have hb := toInt_bounds clientId
  have hlt : (toU32 clientId.toInt).toNat < 16 := UInt32.lt_iff_toNat_lt.mp h
  omega

lemma ne_neg_one_of_nonneg (h : 0 ≤ clientId.toInt) : clientId ≠ -1 := by
  rintro rfl
  exact absurd h (by decide)

lemma getMemifConnId_of_small (h0 : 0 ≤ clientId.toInt) (h1 : clientId.toInt < 16)
    (hconn : connId.toNat < 2) : ∃ base, connBase clientId = some base ∧
      getMemifConnId clientId connId = some (connId + base) ∧
      ((connId + base).toNat : ℤ) = connId.toNat + 2 * clientId.toInt := by
  have hbase : connBase clientId = some (toU32 (maxConnPerClient * clientId.toInt)) :=
    if_pos (by simp only [maxConnPerClient]; omega)
  refine ⟨_, hbase, ?_, ?_⟩
  · rw [getMemifConnId, if_neg (ne_neg_one_of_nonneg h0), hbase]
    rfl
  · have hz := toNat_toU32 (maxConnPerClient * clientId.toInt)
    simp only [maxConnPerClient] at hz ⊢
    rw [UInt32.toNat_add]
    omega

/-- **Client ids up to 15 are addressed.** -/
lemma addressed_of_small (h : toU32 clientId.toInt < 16) (hcheck : checkConnId clientId connId) :
    ∃ index, Addressed clientId connId index := by
  obtain ⟨h0, h1⟩ := toInt_of_small h
  have hne := ne_neg_one_of_nonneg h0
  have hconn : connId.toNat < 2 := by simpa [checkConnId, hne, maxConnPerClient] using hcheck
  obtain ⟨base, hbase, hget, hval⟩ := getMemifConnId_of_small h0 h1 hconn
  obtain ⟨index, hindex⟩ : ∃ index, index = connId + base := ⟨_, rfl⟩
  rw [← hindex] at hget hval
  have hlt : index.toNat < 32 := by omega
  have halloc : memifConnAlloc index = ([⟨.memif, index.toNat⟩], true) :=
    if_neg (by simp only [ConnTable.size]; omega)
  have hinv : getConnId clientId index = some connId := by
    rw [getConnId, if_neg hne, hbase, hindex, Option.map_some, UInt32.add_sub_cancel]
  refine ⟨index, hget, ?_, hinv, ?_, ?_, ?_, ?_, ?_⟩
  · have hz := toNat_toU32 clientId.toInt
    have hor : connId.toNat = 0 ∨ connId.toNat = 1 := by omega
    simp only [memifIdsOf, List.mem_cons, List.not_mem_nil, or_false, ← UInt32.toNat_inj,
      UInt32.toNat_add, UInt32.toNat_mul, UInt32.reduceToNat]
    omega
  · refine ⟨[⟨.clientAgent, connId.toNat⟩, ⟨.memif, index.toNat⟩], ?_, ?_⟩
    · rw [clientConnAlloc, if_pos hcheck, hget, Option.map_some, halloc]
    simp only [List.forall_mem_cons, Subscript.Inside, ConnTable.size]
    exact ⟨hconn, by omega, by simp⟩
  · refine ⟨[⟨.clientAgent, connId.toNat⟩], ?_, ?_⟩
    · rw [clientCallback, hinv, Option.map_some, if_pos hcheck]
    simpa [Subscript.Inside, ConnTable.size] using hconn
  · rw [serverConnAlloc, halloc]
    simp only [List.forall_mem_cons, Subscript.Inside, ConnTable.size]
    exact ⟨trivial, hlt, by omega, by simp⟩
  · simpa [serverCallback, Subscript.Inside, ConnTable.size, maxChannelNum] using hlt
  · simpa [pollAllVisits, ConnTable.size] using hlt

/-- **No other client id is.** -/
lemma small_of_addressed (h : Addressed clientId 0 index) : toU32 clientId.toInt < 16 := by
  have hz := toNat_toU32 clientId.toInt
  have hlt : index.toNat < 32 := by
    simpa [Subscript.Inside, ConnTable.size] using h.serverAlloc.2 _ (List.mem_cons_self ..)
  have hclient := h.client
  rw [UInt32.lt_iff_toNat_lt, show (16 : UInt32).toNat = 16 from rfl]
  by_cases hne : clientId = -1
  · -- the client takes index 0, the server makes other ones of the id
    subst hne
    rw [getMemifConnId, if_pos rfl] at hclient
    obtain rfl := Option.some.inj hclient
    exact absurd h.server (by decide)
  · rw [getMemifConnId, if_neg hne, connBase] at hclient
    split_ifs at hclient with hint
    · obtain rfl := Option.some.inj hclient
      have hz' := toNat_toU32 (maxConnPerClient * clientId.toInt)
      simp only [maxConnPerClient] at hz' hint hlt
      rw [UInt32.zero_add] at hlt
      omega
    · cases hclient

/-- **The addressing is right exactly for client ids up to 15.**  Whatever list of ids the server is
configured with: every connection that one of these clients can allocate has the same index on both
sides, no two have the same one, and no table is accessed behind its end, if and only if all ids in
the list are below 16. -/
theorem addressing_iff (clientIds : List UInt32) :
    AddressingAgrees clientIds ↔ ∀ i ∈ clientIds, i < 16 := by
  constructor
  · intro h i hi
    obtain ⟨clientId, rfl⟩ := exists_toU32_eq i
    obtain ⟨index, -, haddr⟩ := h.addressed clientId 0 hi (by simp [checkConnId, maxConnPerClient])
    exact small_of_addressed haddr
  · intro h
    refine ⟨fun clientId connId hi hcheck => ?_, ?_⟩
    · obtain ⟨index, haddr⟩ := addressed_of_small (h _ hi) hcheck
      exact ⟨index, List.mem_flatMap.mpr ⟨_, hi, haddr.server⟩, haddr⟩
    · intro clientId connId clientId' connId' hi hi' hcheck hcheck' heq
      obtain ⟨h0, h1⟩ := toInt_of_small (h _ hi)
      obtain ⟨h0', h1'⟩ := toInt_of_small (h _ hi')
      have hconn : connId.toNat < 2 := by
        simpa [checkConnId, ne_neg_one_of_nonneg h0, maxConnPerClient] using hcheck
      have hconn' : connId'.toNat < 2 := by
        simpa [checkConnId, ne_neg_one_of_nonneg h0', maxConnPerClient] using hcheck'
      obtain ⟨base, -, hget, hval⟩ := getMemifConnId_of_small h0 h1 hconn
      obtain ⟨base', -, hget', hval'⟩ := getMemifConnId_of_small h0' h1' hconn'
      rw [hget, hget', Option.some.injEq] at heq
      rw [heq, hval'] at hval
      exact ⟨Int32.toInt_inj.mp (by omega), UInt32.toNat_inj.mp (by omega)⟩

/-- **Client id 16 passes every check**: both sides allocate index 32, which is past the end of
the arrays of the server agent and of the registry, and which `poll_all` does not visit. -/
theorem client_sixteen_out_of_bounds :
    checkConnId 16 0 = true ∧ getMemifConnId 16 0 = some 32 ∧ 32 ∈ uintMemifIds [16] ∧
      clientConnAlloc 16 0 = some ([⟨.clientAgent, 0⟩, ⟨.memif, 32⟩], true) ∧
      serverConnAlloc 32 = ([⟨.serverAgent, 32⟩, ⟨.memif, 32⟩], true) ∧
      ¬(⟨.serverAgent, 32⟩ : Subscript).Inside ∧ 32 ∉ pollAllVisits ∧
      ¬AddressingAgrees [16] := by
  refine ⟨by decide, by decide, by decide, by decide, by decide, by decide, by decide, fun h => ?_⟩
  obtain ⟨index, -, haddr⟩ := h.addressed 16 0 (by decide) (by decide)
  exact absurd (small_of_addressed haddr) (by decide)

end Agreement

end CiphApp
