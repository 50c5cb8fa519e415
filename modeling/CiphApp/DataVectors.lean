import CiphApp.Lib.ByteMemory

/-!
# The operation exchanged between a client and the ciphering server

`Crypto_operation` of `libdpdk_cryptodev_client/data_vectors.h`: a fixed context, a list of
payload segments, a key and an IV.  The integer fields keep the width they have in the source;
the enumerations travel as 32-bit words and may carry any value, so they are `UInt32` with named
constants and not inductive types.

The two pointers of the context, `op_ctx_ptr` and `outbuff_ptr`, are addresses of the process
that built the operation and are plain 64-bit words.  The data pointers of the buffers are
dereferenced by the code and are pointers into a `Region`.
-/

namespace CiphApp

/-! ## Memory of one process -/

/-- What a process of this system can address: its own memory, the slots of the
client-to-server ring and the slots of the server-to-client ring. -/
inductive Region
  | user
  | req (i : ℕ)
  | resp (i : ℕ)
  deriving DecidableEq, Repr

/-- A pointer of one process. -/
abbrev Ptr := Lib.Ptr Region

/-- The memory of one process. -/
abbrev Heap := Lib.Heap Region

/-- The `NULL` pointer. -/
def null : Ptr := ⟨.user, 0⟩

/-! ## Enumerations -/

abbrev cryptoOpTypeSessCiphering : UInt32 := 0
abbrev cryptoOpTypeSessCreate : UInt32 := 1
abbrev cryptoOpTypeSessClose : UInt32 := 2

abbrev cryptoOpStatusNotProcessed : UInt32 := 0
abbrev cryptoOpStatusSucc : UInt32 := 1
abbrev cryptoOpStatusFailed : UInt32 := 2

abbrev cryptoCipherAesCtr : UInt32 := 0
abbrev cryptoCipherSnow3gUea2 : UInt32 := 1
abbrev cryptoCipherAlgoLast : UInt32 := 2

abbrev cryptoCipherOpEncrypt : UInt32 := 0
abbrev cryptoCipherOpDecrypt : UInt32 := 1
abbrev cryptoCipherOpLast : UInt32 := 2

@[simp] lemma failed_ne_succ : cryptoOpStatusFailed ≠ cryptoOpStatusSucc := by decide

@[simp] lemma succ_ne_failed : cryptoOpStatusSucc ≠ cryptoOpStatusFailed := by decide

/-- `MAX_CYPTO_BUFF_LIST_SIZE`, the number of segments an operation can hold. -/
abbrev maxCryptoBuffListSize : ℕ := 100

/-! ## Structures -/

/-- `Crypto_operation_context`, the ten fields that every message carries. -/
structure CryptoOperationContext where
  opStatus : UInt32
  opCtxPtr : UInt64
  outbuffPtr : UInt64
  outbuffLen : UInt32
  seq : UInt64
  opType : UInt32
  sessId : UInt32
  cipherAlgo : UInt32
  cipherOp : UInt32
  reserved1 : UInt32
  deriving DecidableEq, Repr

/-- `Crypto_buff`: a length and a data pointer. -/
structure CryptoBuff where
  length : UInt32
  data : Ptr
  deriving DecidableEq, Repr

/-- `Crypto_buff_list`: the array `buffs` and how many of its entries are in use. -/
structure CryptoBuffList where
  buffListLength : UInt32
  buffs : ℕ → CryptoBuff

/-- `Crypto_operation`. -/
structure CryptoOperation where
  op : CryptoOperationContext
  cipherBuffList : CryptoBuffList
  cipherKey : CryptoBuff
  cipherIv : CryptoBuff

/-- The bytes a buffer stands for. -/
def CryptoBuff.bytes (b : CryptoBuff) (h : Heap) : List UInt8 := h.bytes b.data b.length.toNat

/-- The payload of an operation: its segments, in order. -/
def CryptoBuffList.bytes (l : CryptoBuffList) (h : Heap) : List UInt8 :=
  (List.range l.buffListLength.toNat).flatMap fun i => (l.buffs i).bytes h

/-- The length of the payload as an exact integer. -/
def CryptoBuffList.total (l : CryptoBuffList) : ℕ :=
  ((List.range l.buffListLength.toNat).map fun i => (l.buffs i).length.toNat).sum

@[simp] lemma CryptoBuff.bytes_length (b : CryptoBuff) (h : Heap) :
    (b.bytes h).length = b.length.toNat := by
  simp [CryptoBuff.bytes]

lemma CryptoBuffList.bytes_length (l : CryptoBuffList) (h : Heap) :
    (l.bytes h).length = l.total := by
  simp [CryptoBuffList.bytes, CryptoBuffList.total, List.length_flatMap]

end CiphApp
