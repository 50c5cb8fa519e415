import CiphApp.Lib.Loop
import CiphApp.DataVectors

/-!
# The crypto device client: tables, sessions and statistics

The state of `Dpdk_cryptodev_client` and its session functions
(`libdpdk_cryptodev_client/dpdk_cryptodev_client.cpp`): `init_inner` as far as it fills the
device tables, `create_session`, `remove_session`, `get_session` and `remove_all_sessions`.

What DPDK answers is an input.  A session object is a number, its address; `SessAns` holds the
answers of the session calls made for one job.  Beside the registry, which the source has, the
state records which objects are out of the session pool and what `session_init` left in them:
the source keeps this inside DPDK.

A registry cell is addressed by channel, device and slot.  The source declares two devices per
channel, and `create_session` takes the device number from a table without checking it: C then
computes an address in the rows of a later channel.  `Registry.load` and `Registry.store` are
accesses with that address.  The other functions compare the device number with the number of
devices first and index the registry directly.
-/

namespace CiphApp

open Lib

/-! ## Device tables -/

/-- The values of `rte_crypto_cipher_algorithm` that the client compares with; `unset` is the
zero of an entry that was never filled. -/
inductive RteCipherAlgo
  | unset
  | aesCtr
  | snow3gUea2
  | kasumiF8
  | zucEea3
  deriving DecidableEq, Repr

/-- `rte_crypto_cipher_operation`. -/
inductive RteCipherOp
  | encrypt
  | decrypt
  deriving DecidableEq, Repr

/-- `Dpdk_cryptodev_device`. -/
structure CryptodevDevice where
  algo : RteCipherAlgo
  cdevId : UInt8
  deriving DecidableEq, Repr

/-- `crypto2rte_cipher_algo_map`. -/
def crypto2rteCipherAlgoMap (algo : UInt32) : RteCipherAlgo :=
  if algo = cryptoCipherAesCtr then .aesCtr
  else if algo = cryptoCipherSnow3gUea2 then .snow3gUea2
  else .unset

/-- What `init` leaves behind for the rest of the run. -/
structure Config where
  enabledCdevs : ℕ → CryptodevDevice
  algo2cdevIdMap : UInt32 → UInt8
  nbCryptodevs : ℕ
  /-- `_opts.max_burst_size`. -/
  maxBurstSize : UInt32
  /-- `crypto2rte_cipher_op_map` has two entries and is read without a check; this is what the
  read gives past them. -/
  cipherOpBehind : UInt32 → RteCipherOp

/-- `crypto2rte_cipher_op_map`, as it is read. -/
def Config.crypto2rteCipherOpMap (cfg : Config) (op : UInt32) : RteCipherOp :=
  if op = cryptoCipherOpEncrypt then .encrypt
  else if op = cryptoCipherOpDecrypt then .decrypt
  else cfg.cipherOpBehind op

/-- The tables `init_inner` fills for AES device `a` and SNOW3G device `s`. -/
def Config.ofDevices (a s : UInt8) (maxBurstSize : UInt32)
    (cipherOpBehind : UInt32 → RteCipherOp) : Config where
  enabledCdevs := fun i =>
    if i = 0 then ⟨crypto2rteCipherAlgoMap cryptoCipherAesCtr, a⟩
    else if i = 1 then ⟨crypto2rteCipherAlgoMap cryptoCipherSnow3gUea2, s⟩
    else ⟨.unset, 0⟩
  algo2cdevIdMap := fun algo =>
    if algo = cryptoCipherAesCtr then a
    else if algo = cryptoCipherSnow3gUea2 then s
    else 0
  nbCryptodevs := 2
  maxBurstSize
  cipherOpBehind

/-- The part of `init_inner` that fills the device tables.  The arguments are the device ids that
`rte_cryptodev_devices_get` lists for `crypto_aesni_mb` and for `crypto_snow3g`; of each list the
first one is used, and an empty list is an error. -/
def initInner (aesniMb snow3g : List UInt8) (maxBurstSize : UInt32)
    (cipherOpBehind : UInt32 → RteCipherOp) : Option Config :=
  match aesniMb, snow3g with
  | a :: _, s :: _ => some (Config.ofDevices a s maxBurstSize cipherOpBehind)
  | _, _ => none

/-! ## Statistics -/

/-- The counters `op_failed_*`. -/
inductive OpFailed
  | createSess
  | getSess
  | invalidCdev
  | removeSession
  | inAgent
  | opTypeUnk
  | toCipher
  | afterCipherNotProc
  deriving DecidableEq, Repr

/-- `Dpdk_cryptodev_client_stats`, the fields `run_jobs` uses. -/
structure Stats where
  runJobsCnt : UInt64
  opProcessed : UInt64
  opFailedTotal : UInt64
  opFailed : OpFailed → UInt64
  burstAvgSize : UInt32
  pckAvgSize : UInt32
  burstPckTotalSize : UInt32
  burstTotalSize : UInt32

/-- `memset(&_stats, 0, …)`. -/
def Stats.zero : Stats := ⟨0, 0, 0, fun _ => 0, 0, 0, 0, 0⟩

/-- `STATS_OP_FAILED(type)`. -/
def Stats.fail (s : Stats) (k : OpFailed) : Stats :=
  { s with
    opFailed := Function.update s.opFailed k (s.opFailed k + 1)
    opFailedTotal := s.opFailedTotal + 1 }

/-! ## Sessions -/

/-- The address of a `rte_cryptodev_sym_session`. -/
abbrev SessPtr := ℕ

/-- `rte_crypto_sym_xform` of a cipher session; the key is read when the session is
initialised, and the IV has 16 bytes. -/
structure CipherXform where
  algo : RteCipherAlgo
  op : RteCipherOp
  key : List UInt8
  deriving DecidableEq, Repr

/-- What `rte_cryptodev_sym_session_init` leaves in a session object. -/
structure Session where
  cdevId : UInt8
  xform : CipherXform
  deriving DecidableEq, Repr

/-- What `rte_cryptodev_sym_session_clear` and `rte_cryptodev_sym_session_free` answer. -/
structure ReleaseAns where
  clear : Bool
  free : Bool

/-- What the session calls made for one job answer. -/
structure SessAns where
  /-- `rte_cryptodev_sym_session_create`; `none` is `NULL`. -/
  create : Option SessPtr
  /-- `rte_cryptodev_sym_session_init` returns 0. -/
  init : Bool
  release : ReleaseAns

/-- `MAX_SESS_NUM`. -/
def maxSessNum : ℕ := 16000

/-- `MAX_CHANNEL_NUM`. -/
def maxChannelNum : ℕ := 32

/-- `MAX_DEV_NUM`. -/
def maxDevNum : ℕ := 2

/-- `RTE_CRYPTO_MAX_DEVS`, as DPDK defines it. -/
def rteCryptoMaxDevs : ℕ := 64

/-- `_active_sessions_registry`, by channel, device and slot; `none` is `NULL`. -/
abbrev Registry := ℕ → ℕ → ℕ → Option SessPtr

/-- Assign one cell. -/
def Registry.set (r : Registry) (ch dev i : ℕ) (v : Option SessPtr) : Registry :=
  fun ch' dev' i' => if ch' = ch ∧ dev' = dev ∧ i' = i then v else r ch' dev' i'

/-- Read `_active_sessions_registry[ch][dev][i]` for any `dev`.  The array has `MAX_DEV_NUM` rows
for each channel, one channel behind the other, so `[ch][MAX_DEV_NUM]` is the first row of
channel `ch + 1`. -/
def Registry.load (r : Registry) (ch dev i : ℕ) : Option SessPtr :=
  r (ch + dev / maxDevNum) (dev % maxDevNum) i

/-- Assign `_active_sessions_registry[ch][dev][i]` for any `dev`. -/
def Registry.store (r : Registry) (ch dev i : ℕ) (v : Option SessPtr) : Registry :=
  r.set (ch + dev / maxDevNum) (dev % maxDevNum) i v

/-- The session pool: the objects that are out, and their contents. -/
structure SessPool where
  out : Finset SessPtr
  data : SessPtr → Option Session

/-- `rte_cryptodev_sym_session_create` returning `s`. -/
def SessPool.take (p : SessPool) (s : SessPtr) : SessPool :=
  ⟨insert s p.out, Function.update p.data s none⟩

/-- A successful `rte_cryptodev_sym_session_init`. -/
def SessPool.init (p : SessPool) (s : SessPtr) (v : Session) : SessPool :=
  { p with data := Function.update p.data s (some v) }

/-- `rte_cryptodev_sym_session_clear` and then `rte_cryptodev_sym_session_free`; the source logs
a failure of either and goes on. -/
def SessPool.release (p : SessPool) (s : SessPtr) (ans : ReleaseAns) : SessPool where
  out := if ans.free then p.out.erase s else p.out
  data := if ans.clear then Function.update p.data s none else p.data

/-! ## Crypto operations and device queues -/

/-- `rte_crypto_op_status`. -/
inductive RteStatus
  | success
  | notProcessed
  | authFailed
  | invalidSession
  | invalidArgs
  | error
  deriving DecidableEq, Repr

/-- `rte_crypto_op` with the fields of its symmetric operation and of its source mbuf that the
client sets.  `vec` is not in the source: it is the index of the job the operation was last
prepared for. -/
structure CryptoOp where
  /-- The address of the object. -/
  addr : ℕ
  status : RteStatus
  session : Option SessPtr
  bufAddr : Ptr
  bufLen : UInt16
  dataLen : UInt16
  pktLen : UInt32
  cipherDataLength : UInt32
  cipherDataOffset : UInt32
  /-- The bytes from `iv_offset` on. -/
  iv : ℕ → UInt8
  vec : ℕ

/-- The operations a device holds, oldest first, each with its enqueue number. -/
structure DevQueue where
  next : ℕ
  queue : List (ℕ × CryptoOp)

/-! ## The client and its session functions -/

/-- The members of `Dpdk_cryptodev_client` that change after `init`, with the session pool and
the device queues behind them. -/
structure Client where
  registry : Registry
  stats : Stats
  pool : SessPool
  queues : UInt8 → DevQueue

/-- The state after `init`. -/
def Client.init : Client where
  registry := fun _ _ _ => none
  stats := .zero
  pool := ⟨∅, fun _ => none⟩
  queues := fun _ => ⟨0, []⟩

/-- `(uint16_t) (sess_id >> 16)`. -/
def sessCdevId (sessId : UInt32) : ℕ := (sessId >>> 16).toNat

/-- `(uint16_t) (sess_id & 0x0000FFFF)`. -/
def sessSlot (sessId : UInt32) : ℕ := (sessId &&& 0x0000FFFF).toNat

/-- `( 0xFFFF0000 & ( (uint16_t) cdev_id << 16 ) ) | i`. -/
def packSessId (cdevId : UInt8) (i : ℕ) : UInt32 :=
  ((0xFFFF0000 : UInt32) &&& (cdevId.toUInt32 <<< 16)) ||| UInt32.ofNat i

/-- `create_session`.  `heap` is where the key is read; the result carries the new id, or
`none` for a return value other than 0. -/
def createSession (cfg : Config) (heap : Heap) (ch : ℕ) (vec : CryptoOperation) (ans : SessAns)
    (cl : Client) : Client × Option UInt32 :=
  if cryptoCipherAlgoLast ≤ vec.op.cipherAlgo then (cl, none)
  else
    match ans.create with
    | none => (cl, none)
    | some s =>
      let cdevId := cfg.algo2cdevIdMap vec.op.cipherAlgo
      let xform : CipherXform :=
        { algo := crypto2rteCipherAlgoMap vec.op.cipherAlgo
          op := cfg.crypto2rteCipherOpMap vec.op.cipherOp
          key := vec.cipherKey.bytes heap }
      let pool := cl.pool.take s
      if ans.init then
        let pool := pool.init s ⟨cdevId, xform⟩
        match firstFree (fun i => (cl.registry.load ch cdevId.toNat i).isNone) maxSessNum 0 with
        | some i =>
          ({ cl with
              registry := cl.registry.store ch cdevId.toNat i (some s)
              pool }, some (packSessId cdevId i))
        | none => ({ cl with pool := pool.release s ans.release }, none)
      else ({ cl with pool := pool.release s ans.release }, none)

/-- `get_session`. -/
def getSession (cfg : Config) (ch : ℕ) (sessId : UInt32) (cl : Client) : Option SessPtr :=
  if sessCdevId sessId < cfg.nbCryptodevs ∧ sessSlot sessId < maxSessNum then
    cl.registry ch (sessCdevId sessId) (sessSlot sessId)
  else none

/-- Release the session in a cell and set the cell to `NULL`; nothing happens to an empty cell.
This is the body `remove_session` and `remove_all_sessions` share. -/
def releaseSlot (ch dev i : ℕ) (ans : ReleaseAns) (cl : Client) : Client :=
  match cl.registry ch dev i with
  | none => cl
  | some s =>
    { cl with
      registry := cl.registry.set ch dev i none
      pool := cl.pool.release s ans }

/-- `remove_session`, and whether it returns 0. -/
def removeSession (cfg : Config) (ch : ℕ) (sessId : UInt32) (ans : ReleaseAns) (cl : Client) :
    Client × Bool :=
  if sessCdevId sessId < cfg.nbCryptodevs ∧ sessSlot sessId < maxSessNum then
    (releaseSlot ch (sessCdevId sessId) (sessSlot sessId) ans cl,
      (cl.registry ch (sessCdevId sessId) (sessSlot sessId)).isSome)
  else (cl, false)

/-- `remove_all_sessions`; `ans` answers for each cell. -/
def removeAllSessions (cfg : Config) (ch : ℕ) (ans : ℕ → ℕ → ReleaseAns) (cl : Client) : Client :=
  forUpTo cfg.nbCryptodevs
    (fun dev cl => forUpTo maxSessNum (fun i cl => releaseSlot ch dev i (ans dev i) cl) cl) cl

/-- `cleanup_conn`. -/
def cleanupConn (cfg : Config) (ch : ℕ) (ans : ℕ → ℕ → ReleaseAns) (cl : Client) : Client :=
  removeAllSessions cfg ch ans cl

end CiphApp
