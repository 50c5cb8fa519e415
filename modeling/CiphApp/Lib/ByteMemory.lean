import Mathlib

/-!
# Byte memory in regions, with a record of the accesses

A heap maps a region and an offset to a byte.  Regions are the objects a program can hold a
pointer into (a buffer, a ring slot, its own address space); two of them never overlap, and an
offset past the end of an object stays an offset of that object.  So an access that leaves its
object is visible as an offset that is too large, not as damage to a neighbour.

Each operation appends the accesses it makes to `log`.  What a piece of code stores and loads
is therefore part of its result, and containment is a statement about the log.

The word operations are little endian.
-/

namespace Lib

/-! ## Pointers, accesses, heaps -/

/-- A pointer: a region and an offset into it. -/
structure Ptr (ρ : Type) where
  region : ρ
  off : ℕ
  deriving DecidableEq, Repr

/-- Pointer arithmetic stays in the region. -/
def Ptr.add {ρ : Type} (p : Ptr ρ) (n : ℕ) : Ptr ρ := ⟨p.region, p.off + n⟩

/-- Loads and stores. -/
inductive AccessKind
  | load
  | store
  deriving DecidableEq, Repr

/-- One access: `len` bytes from `ptr` on. -/
structure Access (ρ : Type) where
  kind : AccessKind
  ptr : Ptr ρ
  len : ℕ
  deriving DecidableEq, Repr

/-- The access touches only the first `size` bytes of region `r`. -/
def Access.Inside {ρ : Type} (a : Access ρ) (r : ρ) (size : ℕ) : Prop :=
  a.ptr.region = r ∧ a.ptr.off + a.len ≤ size

/-- The access touches the byte `q` points to. -/
def Access.Covers {ρ : Type} (a : Access ρ) (q : Ptr ρ) : Prop :=
  a.ptr.region = q.region ∧ a.ptr.off ≤ q.off ∧ q.off < a.ptr.off + a.len

/-- Memory and the accesses made so far. -/
structure Heap (ρ : Type) where
  mem : ρ → ℕ → UInt8
  log : List (Access ρ)

section Heap

variable {ρ : Type}

namespace Ptr

@[simp] lemma add_region (p : Ptr ρ) (n : ℕ) : (p.add n).region = p.region := rfl

@[simp] lemma add_off (p : Ptr ρ) (n : ℕ) : (p.add n).off = p.off + n := rfl

@[simp] lemma add_add (p : Ptr ρ) (m n : ℕ) : (p.add m).add n = p.add (m + n) := by
  simp [add, Nat.add_assoc]

@[simp] lemma add_zero (p : Ptr ρ) : p.add 0 = p := rfl

end Ptr

namespace Heap

/-- The `n` bytes at `p`. -/
def bytes (h : Heap ρ) (p : Ptr ρ) (n : ℕ) : List UInt8 :=
  (List.range n).map fun i => h.mem p.region (p.off + i)

/-- Record a load of `n` bytes at `p`. -/
def load (h : Heap ρ) (p : Ptr ρ) (n : ℕ) : Heap ρ :=
  { h with log := h.log ++ [⟨.load, p, n⟩] }

/-- Forget the accesses made so far. -/
def fresh (h : Heap ρ) : Heap ρ := { h with log := [] }

/-! ### Loads -/

@[simp] lemma bytes_length (h : Heap ρ) (p : Ptr ρ) (n : ℕ) : (h.bytes p n).length = n := by
  simp [bytes]

lemma bytes_congr {h h' : Heap ρ} {p q : Ptr ρ} {n : ℕ}
    (H : ∀ i < n, h.mem p.region (p.off + i) = h'.mem q.region (q.off + i)) :
    h.bytes p n = h'.bytes q n := by
  apply List.map_congr_left
  intro i hi
  exact H i (List.mem_range.mp hi)

lemma bytes_of_mem_eq {h h' : Heap ρ} {p : Ptr ρ} (H : h'.mem p.region = h.mem p.region)
    (n : ℕ) : h'.bytes p n = h.bytes p n :=
  bytes_congr fun _ _ => congrFun H _

lemma bytes_add (h : Heap ρ) (p : Ptr ρ) (m n : ℕ) :
    h.bytes p (m + n) = h.bytes p m ++ h.bytes (p.add m) n := by
  simp only [bytes, List.range_add, List.map_append, List.map_map, Ptr.add_region, Ptr.add_off]
  congr 1
  apply List.map_congr_left
  intro i _
  simp [Nat.add_assoc]

@[simp] lemma mem_load (h : Heap ρ) (p : Ptr ρ) (n : ℕ) : (h.load p n).mem = h.mem := rfl

@[simp] lemma log_load (h : Heap ρ) (p : Ptr ρ) (n : ℕ) :
    (h.load p n).log = h.log ++ [⟨.load, p, n⟩] := rfl

@[simp] lemma log_fresh (h : Heap ρ) : h.fresh.log = [] := rfl

end Heap

/-! ## Little-endian words -/

/-- The `w` low bytes of `v`, least significant first. -/
def leBytes (w v : ℕ) : List UInt8 := (List.range w).map fun i => UInt8.ofNat (v / 256 ^ i)

/-- The number a little-endian byte string denotes. -/
def leVal : List UInt8 → ℕ
  | [] => 0
  | b :: bs => b.toNat + 256 * leVal bs

@[simp] lemma leBytes_length (w v : ℕ) : (leBytes w v).length = w := by simp [leBytes]

lemma leBytes_succ (w v : ℕ) : leBytes (w + 1) v = UInt8.ofNat v :: leBytes w (v / 256) := by
  simp only [leBytes, List.range_succ_eq_map, List.map_cons, List.map_map, pow_zero, Nat.div_one]
  congr 1
  apply List.map_congr_left
  intro i _
  simp [pow_succ, Nat.div_div_eq_div_mul, Nat.mul_comm]

lemma leVal_leBytes (w v : ℕ) : leVal (leBytes w v) = v % 256 ^ w := by
  induction w generalizing v with
  | zero => simp [leBytes, leVal, Nat.mod_one]
  | succ w ih =>
      rw [leBytes_succ, leVal, ih, Nat.pow_succ', Nat.mod_mul]
      simp [UInt8.toNat_ofNat']

namespace Heap

/-- The 32-bit word at `p`. -/
def get32 (h : Heap ρ) (p : Ptr ρ) : UInt32 := UInt32.ofNat (leVal (h.bytes p 4))

/-- The 64-bit word at `p`. -/
def get64 (h : Heap ρ) (p : Ptr ρ) : UInt64 := UInt64.ofNat (leVal (h.bytes p 8))

lemma get32_congr {h h' : Heap ρ} {p q : Ptr ρ} (H : h.bytes p 4 = h'.bytes q 4) :
    h.get32 p = h'.get32 q := by
  rw [get32, get32, H]

lemma get64_congr {h h' : Heap ρ} {p q : Ptr ρ} (H : h.bytes p 8 = h'.bytes q 8) :
    h.get64 p = h'.get64 q := by
  rw [get64, get64, H]

/-! ### Frames -/

/-- Outside the bytes `[lo, hi)` of region `r`, memory is the same in `h` and `h'`. -/
def Frame (h h' : Heap ρ) (r : ρ) (lo hi : ℕ) : Prop :=
  ∀ q a, ¬(q = r ∧ lo ≤ a ∧ a < hi) → h'.mem q a = h.mem q a

lemma Frame.refl (h : Heap ρ) (r : ρ) (lo hi : ℕ) : h.Frame h r lo hi := fun _ _ _ => rfl

lemma Frame.mono {h h' : Heap ρ} {r : ρ} {lo hi lo' hi' : ℕ} (H : h.Frame h' r lo hi)
    (hlo : lo' ≤ lo) (hhi : hi ≤ hi') : h.Frame h' r lo' hi' := by
  intro q a ha
  exact H q a fun hc => ha ⟨hc.1, by omega, by omega⟩

/-- Frames compose: the two changes together stay inside the two ranges. -/
lemma Frame.trans {h h' h'' : Heap ρ} {r : ρ} {lo hi lo' hi' : ℕ} (H : h.Frame h' r lo hi)
    (H' : h'.Frame h'' r lo' hi') : h.Frame h'' r (min lo lo') (max hi hi') := by
  intro q a ha
  rw [H' q a fun hc => ha ⟨hc.1, by omega, by omega⟩,
    H q a fun hc => ha ⟨hc.1, by omega, by omega⟩]

lemma Frame.bytes {h h' : Heap ρ} {r : ρ} {lo hi : ℕ} (H : h.Frame h' r lo hi) {p : Ptr ρ}
    {n : ℕ} (hp : p.region ≠ r ∨ p.off + n ≤ lo ∨ hi ≤ p.off) : h'.bytes p n = h.bytes p n := by
  apply bytes_congr
  intro i hi'
  apply H
  rintro ⟨h1, h2, h3⟩
  rcases hp with hp | hp | hp
  · exact hp h1
  · omega
  · omega

/-- A region outside the frame is the same byte for byte. -/
lemma Frame.mem_of_ne {h h' : Heap ρ} {r : ρ} {lo hi : ℕ} (H : h.Frame h' r lo hi) {q : ρ}
    (hq : q ≠ r) : h'.mem q = h.mem q := by
  funext a
  exact H q a fun hc => hq hc.1

/-! ### Growth of the log -/

/-- The log has grown from `h` to `h'`, and every new store satisfies `P`. -/
structure Grows (h h' : Heap ρ) (P : Access ρ → Prop) : Prop where
  kept : ∀ a ∈ h.log, a ∈ h'.log
  new : ∀ a ∈ h'.log, a.kind = .store → a ∈ h.log ∨ P a

lemma Grows.refl (h : Heap ρ) (P : Access ρ → Prop) : h.Grows h P :=
  ⟨fun _ ha => ha, fun _ ha _ => .inl ha⟩

lemma Grows.trans {h h' h'' : Heap ρ} {P : Access ρ → Prop} (H : h.Grows h' P)
    (H' : h'.Grows h'' P) : h.Grows h'' P := by
  refine ⟨fun a ha => H'.kept a (H.kept a ha), fun a ha hk => ?_⟩
  rcases H'.new a ha hk with ha | ha
  · exact H.new a ha hk
  · exact .inr ha

lemma Grows.mono {h h' : Heap ρ} {P Q : Access ρ → Prop} (H : h.Grows h' P)
    (hPQ : ∀ a, P a → Q a) : h.Grows h' Q :=
  ⟨H.kept, fun a ha hk => (H.new a ha hk).imp_right (hPQ a)⟩

/-- The log of `h'` is that of `h` with more accesses behind it. -/
lemma Grows.of_append {h h' : Heap ρ} {P : Access ρ → Prop} {new : List (Access ρ)}
    (hlog : h'.log = h.log ++ new) (hnew : ∀ a ∈ new, a.kind = .store → P a) : h.Grows h' P := by
  refine ⟨fun a ha => ?_, fun a ha hk => ?_⟩
  · rw [hlog]
    exact List.mem_append_left _ ha
  · rw [hlog] at ha
    exact (List.mem_append.mp ha).imp_right fun ha => hnew a ha hk

/-! ### Stores -/

variable [DecidableEq ρ]

/-- Store `bs` at `p`. -/
def store (h : Heap ρ) (p : Ptr ρ) (bs : List UInt8) : Heap ρ where
  mem r a :=
    if r = p.region ∧ p.off ≤ a ∧ a < p.off + bs.length then bs.getD (a - p.off) 0
    else h.mem r a
  log := h.log ++ [⟨.store, p, bs.length⟩]

/-- `memcpy(dst, src, n)`: load `n` bytes at `src`, store them at `dst`. -/
def memcpy (h : Heap ρ) (dst src : Ptr ρ) (n : ℕ) : Heap ρ :=
  (h.load src n).store dst (h.bytes src n)

/-- Region `r` as another process sees it: `h` with its bytes replaced by those of `h'`. -/
def share (h h' : Heap ρ) (r : ρ) : Heap ρ :=
  { h with mem := fun q a => if q = r then h'.mem r a else h.mem q a }

/-! ### Reading back what was stored -/

lemma mem_store (h : Heap ρ) (p : Ptr ρ) (bs : List UInt8) (r : ρ) (a : ℕ) :
    (h.store p bs).mem r a =
      if r = p.region ∧ p.off ≤ a ∧ a < p.off + bs.length then bs.getD (a - p.off) 0
      else h.mem r a := rfl

/-- A store leaves every other region alone. -/
lemma mem_store_of_ne (h : Heap ρ) (p : Ptr ρ) (bs : List UInt8) {r : ρ} (hr : r ≠ p.region) :
    (h.store p bs).mem r = h.mem r := by
  funext a
  rw [mem_store, if_neg (fun hc => hr hc.1)]

lemma bytes_store_self (h : Heap ρ) (p : Ptr ρ) (bs : List UInt8) :
    (h.store p bs).bytes p bs.length = bs := by
  apply List.ext_getElem
  · simp
  · intro i hi _
    have hi' : i < bs.length := by simpa using hi
    simp [bytes, mem_store, hi']

/-- A store that ends before the read range, or starts after it, is not seen. -/
lemma bytes_store_apart (h : Heap ρ) {p q : Ptr ρ} (bs : List UInt8) (n : ℕ)
    (hd : p.off + bs.length ≤ q.off ∨ q.off + n ≤ p.off) :
    (h.store p bs).bytes q n = h.bytes q n := by
  apply bytes_congr
  intro i hi
  rw [mem_store, if_neg (fun hc => by omega)]

/-- `bytes_store_apart` for two fields of one object. -/
lemma bytes_store_add (h : Heap ρ) (p : Ptr ρ) {a b : ℕ} (bs : List UInt8) (n : ℕ)
    (hd : a + bs.length ≤ b ∨ b + n ≤ a) :
    (h.store (p.add a) bs).bytes (p.add b) n = h.bytes (p.add b) n := by
  apply bytes_store_apart
  simp only [Ptr.add_off]
  omega

lemma frame_store (h : Heap ρ) (p : Ptr ρ) (bs : List UInt8) :
    h.Frame (h.store p bs) p.region p.off (p.off + bs.length) := by
  intro q a ha
  rw [mem_store, if_neg ha]

lemma frame_memcpy (h : Heap ρ) (dst src : Ptr ρ) (n : ℕ) :
    h.Frame (h.memcpy dst src n) dst.region dst.off (dst.off + n) := by
  have := frame_store (h.load src n) dst (h.bytes src n)
  rwa [bytes_length] at this

lemma mem_memcpy_of_ne (h : Heap ρ) (dst src : Ptr ρ) (n : ℕ) {r : ρ} (hr : r ≠ dst.region) :
    (h.memcpy dst src n).mem r = h.mem r :=
  mem_store_of_ne _ _ _ hr

lemma bytes_memcpy_self (h : Heap ρ) (dst src : Ptr ρ) (n : ℕ) :
    (h.memcpy dst src n).bytes dst n = h.bytes src n := by
  have := bytes_store_self (h.load src n) dst (h.bytes src n)
  rwa [bytes_length] at this

lemma bytes_share_of_ne (h h' : Heap ρ) {r : ρ} {p : Ptr ρ} (n : ℕ) (hr : p.region ≠ r) :
    (h.share h' r).bytes p n = h.bytes p n := by
  apply bytes_congr
  intro i _
  simp [share, hr]

/-! ### Several stores -/

/-- Store some byte strings, one after the other. -/
def storeAll (h : Heap ρ) (ws : List (Ptr ρ × List UInt8)) : Heap ρ :=
  ws.foldl (fun h w => h.store w.1 w.2) h

/-- The byte `a` of region `r` is one of those `w` is about. -/
def Covers (w : Ptr ρ × List UInt8) (r : ρ) (a : ℕ) : Prop :=
  r = w.1.region ∧ w.1.off ≤ a ∧ a < w.1.off + w.2.length

lemma mem_store_of_not_covers (h : Heap ρ) {w : Ptr ρ × List UInt8} {r : ρ} {a : ℕ}
    (hno : ¬Covers w r a) : (h.store w.1 w.2).mem r a = h.mem r a :=
  if_neg hno

lemma storeAll_append (h : Heap ρ) (ws ws' : List (Ptr ρ × List UInt8)) :
    h.storeAll (ws ++ ws') = (h.storeAll ws).storeAll ws' :=
  List.foldl_append

lemma storeAll_concat (h : Heap ρ) (ws : List (Ptr ρ × List UInt8)) (w : Ptr ρ × List UInt8) :
    h.storeAll (ws ++ [w]) = (h.storeAll ws).store w.1 w.2 :=
  storeAll_append h ws [w]

lemma mem_storeAll_of_not_covers (h : Heap ρ) {ws : List (Ptr ρ × List UInt8)} {r : ρ} {a : ℕ}
    (hno : ∀ w ∈ ws, ¬Covers w r a) : (h.storeAll ws).mem r a = h.mem r a := by
  induction ws using List.reverseRecOn with
  | nil => rfl
  | append_singleton ws w ih =>
      rw [storeAll_concat, mem_store_of_not_covers _ (hno w (by simp))]
      exact ih fun w' hw' => hno w' (List.mem_append_left _ hw')

/-- A byte that only one store is about holds what that one has put there. -/
lemma mem_storeAll_of_covers (h : Heap ρ) {ws : List (Ptr ρ × List UInt8)} {r : ρ} {a : ℕ}
    {w : Ptr ρ × List UInt8} (hw : w ∈ ws) (hc : Covers w r a)
    (huniq : ∀ w' ∈ ws, Covers w' r a → w' = w) :
    (h.storeAll ws).mem r a = w.2.getD (a - w.1.off) 0 := by
  induction ws using List.reverseRecOn with
  | nil => exact absurd hw List.not_mem_nil
  | append_singleton ws v ih =>
      rw [storeAll_concat]
      by_cases hv : Covers v r a
      · obtain rfl := huniq v (by simp) hv
        exact if_pos hv
      · have hw' : w ∈ ws := by
          rcases List.mem_append.mp hw with hw | hw
          · exact hw
          · obtain rfl := List.mem_singleton.mp hw
            exact absurd hc hv
        rw [mem_store_of_not_covers _ hv]
        exact ih hw' fun w' h' => huniq w' (List.mem_append_left _ h')

/-- **Stores to different places can be made in any order.** -/
lemma mem_storeAll_congr (h : Heap ρ) {ws ws' : List (Ptr ρ × List UInt8)}
    (hmem : ∀ w, w ∈ ws ↔ w ∈ ws') {r : ρ} {a : ℕ}
    (huniq : ∀ w ∈ ws, ∀ w' ∈ ws, Covers w r a → Covers w' r a → w' = w) :
    (h.storeAll ws).mem r a = (h.storeAll ws').mem r a := by
  by_cases hc : ∃ w ∈ ws, Covers w r a
  · obtain ⟨w, hw, hc⟩ := hc
    rw [mem_storeAll_of_covers h hw hc fun w' hw' => huniq w hw w' hw' hc,
      mem_storeAll_of_covers h ((hmem w).mp hw) hc fun w' hw' =>
        huniq w hw w' ((hmem w').mpr hw') hc]
  · push Not at hc
    rw [mem_storeAll_of_not_covers h hc,
      mem_storeAll_of_not_covers h fun w hw => hc w ((hmem w).mpr hw)]

/-- A buffer that no store reaches is as it was. -/
lemma bytes_storeAll (h : Heap ρ) {ws : List (Ptr ρ × List UInt8)} {p : Ptr ρ} {n : ℕ}
    (hno : ∀ w ∈ ws, ∀ i < n, ¬Covers w p.region (p.off + i)) :
    (h.storeAll ws).bytes p n = h.bytes p n :=
  bytes_congr fun i hi => mem_storeAll_of_not_covers h fun w hw => hno w hw i hi

/-! ### The log -/

@[simp] lemma log_store (h : Heap ρ) (p : Ptr ρ) (bs : List UInt8) :
    (h.store p bs).log = h.log ++ [⟨.store, p, bs.length⟩] := rfl

@[simp] lemma log_memcpy (h : Heap ρ) (dst src : Ptr ρ) (n : ℕ) :
    (h.memcpy dst src n).log = h.log ++ [⟨.load, src, n⟩, ⟨.store, dst, n⟩] := by
  simp [memcpy]

/-! ### Storing words -/

/-- Store a 32-bit word at `p`. -/
def put32 (h : Heap ρ) (p : Ptr ρ) (v : UInt32) : Heap ρ := h.store p (leBytes 4 v.toNat)

/-- Store a 64-bit word at `p`. -/
def put64 (h : Heap ρ) (p : Ptr ρ) (v : UInt64) : Heap ρ := h.store p (leBytes 8 v.toNat)

lemma frame_put32 (h : Heap ρ) (p : Ptr ρ) (v : UInt32) :
    h.Frame (h.put32 p v) p.region p.off (p.off + 4) := by
  simpa [put32] using frame_store h p (leBytes 4 v.toNat)

lemma frame_put64 (h : Heap ρ) (p : Ptr ρ) (v : UInt64) :
    h.Frame (h.put64 p v) p.region p.off (p.off + 8) := by
  simpa [put64] using frame_store h p (leBytes 8 v.toNat)

lemma ofNat_leVal_leBytes_32 (v : UInt32) : UInt32.ofNat (leVal (leBytes 4 v.toNat)) = v := by
  rw [leVal_leBytes, Nat.mod_eq_of_lt (by simpa using v.toNat_lt)]
  exact UInt32.ofNat_toNat

lemma ofNat_leVal_leBytes_64 (v : UInt64) : UInt64.ofNat (leVal (leBytes 8 v.toNat)) = v := by
  rw [leVal_leBytes, Nat.mod_eq_of_lt (by simpa using v.toNat_lt)]
  exact UInt64.ofNat_toNat

lemma bytes_put32_self (h : Heap ρ) (p : Ptr ρ) (v : UInt32) :
    (h.put32 p v).bytes p 4 = leBytes 4 v.toNat := by
  have := bytes_store_self h p (leBytes 4 v.toNat)
  rwa [leBytes_length] at this

lemma bytes_put64_self (h : Heap ρ) (p : Ptr ρ) (v : UInt64) :
    (h.put64 p v).bytes p 8 = leBytes 8 v.toNat := by
  have := bytes_store_self h p (leBytes 8 v.toNat)
  rwa [leBytes_length] at this

@[simp] lemma get32_put32 (h : Heap ρ) (p : Ptr ρ) (v : UInt32) : (h.put32 p v).get32 p = v := by
  rw [get32, bytes_put32_self, ofNat_leVal_leBytes_32]

@[simp] lemma get64_put64 (h : Heap ρ) (p : Ptr ρ) (v : UInt64) : (h.put64 p v).get64 p = v := by
  rw [get64, bytes_put64_self, ofNat_leVal_leBytes_64]

/-- A word store does not reach another field of the object. -/
lemma bytes_put32_add (h : Heap ρ) (p : Ptr ρ) (v : UInt32) (n : ℕ) {a b : ℕ}
    (hd : a + 4 ≤ b ∨ b + n ≤ a) :
    (h.put32 (p.add a) v).bytes (p.add b) n = h.bytes (p.add b) n :=
  bytes_store_add h p _ n (by simpa using hd)

lemma bytes_put64_add (h : Heap ρ) (p : Ptr ρ) (v : UInt64) (n : ℕ) {a b : ℕ}
    (hd : a + 8 ≤ b ∨ b + n ≤ a) :
    (h.put64 (p.add a) v).bytes (p.add b) n = h.bytes (p.add b) n :=
  bytes_store_add h p _ n (by simpa using hd)

lemma get32_put32_add (h : Heap ρ) (p : Ptr ρ) (v : UInt32) {a b : ℕ}
    (hd : a + 4 ≤ b ∨ b + 4 ≤ a) :
    (h.put32 (p.add a) v).get32 (p.add b) = h.get32 (p.add b) :=
  get32_congr (bytes_put32_add h p v 4 hd)

lemma get32_put64_add (h : Heap ρ) (p : Ptr ρ) (v : UInt64) {a b : ℕ}
    (hd : a + 8 ≤ b ∨ b + 4 ≤ a) :
    (h.put64 (p.add a) v).get32 (p.add b) = h.get32 (p.add b) :=
  get32_congr (bytes_put64_add h p v 4 hd)

lemma get64_put32_add (h : Heap ρ) (p : Ptr ρ) (v : UInt32) {a b : ℕ}
    (hd : a + 4 ≤ b ∨ b + 8 ≤ a) :
    (h.put32 (p.add a) v).get64 (p.add b) = h.get64 (p.add b) :=
  get64_congr (bytes_put32_add h p v 8 hd)

lemma get64_put64_add (h : Heap ρ) (p : Ptr ρ) (v : UInt64) {a b : ℕ}
    (hd : a + 8 ≤ b ∨ b + 8 ≤ a) :
    (h.put64 (p.add a) v).get64 (p.add b) = h.get64 (p.add b) :=
  get64_congr (bytes_put64_add h p v 8 hd)

@[simp] lemma log_put32 (h : Heap ρ) (p : Ptr ρ) (v : UInt32) :
    (h.put32 p v).log = h.log ++ [⟨.store, p, 4⟩] := by
  simp [put32]

@[simp] lemma log_put64 (h : Heap ρ) (p : Ptr ρ) (v : UInt64) :
    (h.put64 p v).log = h.log ++ [⟨.store, p, 8⟩] := by
  simp [put64]

end Heap

end Heap

end Lib
