import CiphApp.Cryptodev.Jobs

/-!
# The objects of the op pool

An object of the op pool is one block of memory: the operation with its symmetric part, an area for
the IV and, from the next cache line on, the mbuf that describes the payload.  `set_ops_cipher`
fills in the mbuf first and copies the IV last, with the length the job says.  The area has
16 bytes and nothing compares the length with it, so a longer IV goes on behind the area and can
reach the mbuf, whose first field is the address of the payload.

`setOpCipher` keeps IV and mbuf apart.  That is what the object holds as long as the IV copy leaves
the mbuf alone, and `keepsMbuf_iff` says when it does.  The sizes of the DPDK structures are
parameters of a layout; an IV of up to 16 bytes is harmless in all of them
(`forall_keepsMbuf_iff`), and what is said below about the buffers that reach a device is said for
such IVs (`CryptoOp.Carries`).
-/

namespace CiphApp

open Lib

/-- `cipher_iv_length` of `alloc_common_memory`, the size of the IV area, and `iv.length` of
`create_session`. -/
def cipherIvLength : ℕ := 16

/-- `RTE_CACHE_LINE_ROUNDUP`, for cache lines of 64 bytes. -/
def cacheLineRoundup (n : ℕ) : ℕ := (n + 63) / 64 * 64

/-- The sizes that fix where the parts of an object are. -/
structure OpLayout where
  /-- `sizeof(rte_crypto_op) + sizeof(rte_crypto_sym_op)`. -/
  cryptoOpSize : ℕ
  /-- `extra_op_priv_size`. -/
  extraOpPrivSize : ℕ

namespace OpLayout

/-- `iv_offset`. -/
def ivOffset (L : OpLayout) : ℕ := L.cryptoOpSize

/-- `_src_buf_offset`, where the mbuf is. -/
def srcBufOffset (L : OpLayout) : ℕ :=
  cacheLineRoundup (L.cryptoOpSize + (L.extraOpPrivSize + cipherIvLength))

/-- The two stores of `set_ops_cipher` into an object: the bytes of the mbuf, and then the IV. -/
def setOpsCipher (L : OpLayout) (obj : Lib.Heap Unit) (mbuf iv : List UInt8) : Lib.Heap Unit :=
  (obj.store ⟨(), L.srcBufOffset⟩ mbuf).store ⟨(), L.ivOffset⟩ iv

/-- **An IV of `n` bytes leaves the mbuf alone**, whatever the two hold. -/
def KeepsMbuf (L : OpLayout) (n : ℕ) : Prop :=
  ∀ obj mbuf iv, iv.length = n →
    (L.setOpsCipher obj mbuf iv).bytes ⟨(), L.srcBufOffset⟩ mbuf.length = mbuf

lemma ivOffset_add_le (L : OpLayout) : L.ivOffset + cipherIvLength ≤ L.srcBufOffset := by
  unfold ivOffset srcBufOffset cacheLineRoundup
  omega

/-- **When the mbuf survives the IV**: exactly if the IV ends where the mbuf starts, or before. -/
theorem keepsMbuf_iff (L : OpLayout) (n : ℕ) : L.KeepsMbuf n ↔ L.ivOffset + n ≤ L.srcBufOffset := by
  constructor
  · intro h
    by_contra hlt
    -- an IV of zeros over an mbuf that starts with a one
    have hle := L.ivOffset_add_le
    have hbyte := h ⟨fun _ _ => 0, []⟩ [1] (List.replicate n 0) List.length_replicate
    have hin : L.ivOffset ≤ L.srcBufOffset ∧
        L.srcBufOffset < L.ivOffset + (List.replicate n (0 : UInt8)).length := by
      rw [List.length_replicate]
      omega
    have hmem : (L.setOpsCipher ⟨fun _ _ => 0, []⟩ [1] (List.replicate n 0)).mem ()
        L.srcBufOffset = 0 := by
      have hlt' : L.srcBufOffset - L.ivOffset < n := by omega
      rw [setOpsCipher, Heap.mem_store, if_pos ⟨rfl, hin⟩]
      exact List.getD_replicate 0 hlt'
    simp [Heap.bytes, hmem] at hbyte
  · intro hle obj mbuf iv hiv
    have hend : L.ivOffset + iv.length ≤ L.srcBufOffset := hiv.symm ▸ hle
    rw [setOpsCipher, Heap.bytes_store_apart _ _ _ (.inl hend), Heap.bytes_store_self]

/-- In DPDK 20.05 the two structures have 24 and 64 bytes, and the mbuf is 40 bytes behind the start
of the IV. -/
example : (⟨24 + 64, 0⟩ : OpLayout).srcBufOffset = (⟨24 + 64, 0⟩ : OpLayout).ivOffset + 40 := rfl

/-- An IV that fits its area leaves the mbuf alone in every layout, and only such an IV does. -/
theorem forall_keepsMbuf_iff (n : ℕ) : (∀ L : OpLayout, L.KeepsMbuf n) ↔ n ≤ cipherIvLength := by
  constructor
  · intro h
    -- here the IV area ends with a cache line
    exact Nat.le_of_add_le_add_left ((keepsMbuf_iff ⟨48, 0⟩ n).mp (h ⟨48, 0⟩))
  · intro hn L
    exact (L.keepsMbuf_iff n).mpr ((Nat.add_le_add_left hn _).trans L.ivOffset_add_le)

end OpLayout

/-! ## The buffer a device is handed -/

/-- **The operation carries the buffer of the job**: `set_ops_cipher` has set its address, and the
IV of the job, which is copied afterwards, leaves it there. -/
structure CryptoOp.Carries (op : CryptoOp) (job : CryptoOperation) : Prop where
  bufAddr : op.bufAddr = (job.cipherBuffList.buffs 0).data
  kept : ∀ L : OpLayout, L.KeepsMbuf job.cipherIv.length.toNat

/-- The IV of the job fits the IV area. -/
def CryptoOperation.IvFits (job : CryptoOperation) : Prop :=
  job.cipherIv.length.toNat ≤ cipherIvLength

lemma CryptoOperation.IvFits.carries {job : CryptoOperation} (h : job.IvFits) {op : CryptoOp}
    (hop : op.bufAddr = (job.cipherBuffList.buffs 0).data) : op.Carries job :=
  ⟨hop, (OpLayout.forall_keepsMbuf_iff _).mpr h⟩

end CiphApp
