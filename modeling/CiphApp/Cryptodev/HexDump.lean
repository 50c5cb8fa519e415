import CiphApp.Lib.Loop

/-!
# The hex dump

`print_buff1` prints a buffer in lines of 16 bytes, and `print_buff_dbg` its first 16 bytes.  A line
is put together in `buff_str`, an array of 48 characters, by one `snprintf` for each byte: two
digits and a blank, and the terminating NUL, which the next one overwrites.  The limit that
`snprintf` is given is the size of the array and not the room that is left, so the NUL of the
sixteenth byte is stored behind the array.

The functions below keep a list of every index of `buff_str` that is stored to.  The array is a
memory without end, so that a store outside is seen as one.
-/

namespace CiphApp

open Lib

/-! ## Printing -/

/-- `BUFF_STR_MAX_LEN`. -/
def buffStrMaxLen : ℕ := 16 * 3

/-- The state of a dump. -/
structure Dump where
  /-- `buff_str`. -/
  buffStr : ℕ → UInt8
  /-- The indices of `buff_str` that were stored to, in order. -/
  stores : List ℕ
  /-- The text that was logged. -/
  logged : List UInt8

/-- A digit of `%X`. -/
def hexDigit (d : ℕ) : UInt8 := UInt8.ofNat (if d < 10 then 48 + d else 55 + d)

/-- The text of `"%02X%s"`; the string that is appended is a blank in both of its branches. -/
def hexText (b : UInt8) : List UInt8 := [hexDigit (b.toNat / 16), hexDigit (b.toNat % 16), 32]

namespace Dump

/-- `snprintf(buff_str + off, n, …)` with this text: at most `n - 1` characters and a NUL. -/
def snprintf (off n : ℕ) (text : List UInt8) (d : Dump) : Dump :=
  let out := if n = 0 then [] else text.take (n - 1) ++ [0]
  { d with
    buffStr := fun p => if off ≤ p ∧ p < off + out.length then out.getD (p - off) 0 else d.buffStr p
    stores := d.stores ++ List.range' off out.length }

/-- The characters of `buff_str` up to the first NUL.  Each line has one, at 48 or before. -/
def line (d : Dump) : List UInt8 :=
  ((List.range (buffStrMaxLen + 1)).map d.buffStr).takeWhile (· ≠ 0)

/-- `RTE_LOG(…, buff_str)`. -/
def log (d : Dump) : Dump := { d with logged := d.logged ++ d.line }

end Dump

/-- The inner loop: one line. -/
def printLine (data : ℕ → UInt8) (i lim : ℕ) (d : Dump) : Dump :=
  forUpTo lim (fun j d => d.snprintf (j * 3) buffStrMaxLen (hexText (data (i + j)))) d

/-- The outer loop, from byte `i` on. -/
def printLines (data : ℕ → UInt8) (len i : ℕ) (d : Dump) : Dump :=
  if i < len then
    let lim := if len - i > 16 then 16 else len - i
    printLines data len (i + lim) (printLine data i lim d).log
  else d
termination_by len - i
decreasing_by split <;> omega

/-- `print_buff1`. -/
def printBuff1 (data : ℕ → UInt8) (len : ℕ) (d : Dump) : Dump := printLines data len 0 d

/-- `MAX_PRINT_LEN`. -/
def maxPrintLen : ℕ := 16

/-- `print_buff_dbg`, but for the blank it logs at the end. -/
def printBuffDbg (data : ℕ → UInt8) (len : ℕ) (d : Dump) : Dump :=
  let printLen := if maxPrintLen ≠ 0 ∧ len > maxPrintLen then maxPrintLen else len
  printLines data printLen 0 d

/-! ## One line -/

section Line

variable {data : ℕ → UInt8} {i lim : ℕ} {d : Dump}

lemma hexDigit_ne_zero : ∀ x < 16, hexDigit x ≠ 0 := by decide

lemma hexText_ne_zero {b c : UInt8} (h : c ∈ hexText b) : c ≠ 0 := by
  have hb := b.toNat_lt
  simp only [hexText, List.mem_cons, List.not_mem_nil, or_false] at h
  rcases h with rfl | rfl | rfl
  · exact hexDigit_ne_zero _ (by omega)
  · exact hexDigit_ne_zero _ (by omega)
  · decide

lemma stores_snprintf (off : ℕ) (b : UInt8) :
    (d.snprintf off buffStrMaxLen (hexText b)).stores = d.stores ++ List.range' off 4 := rfl

lemma buffStr_snprintf_of_lt {off p : ℕ} (b : UInt8) (h : p < off) :
    (d.snprintf off buffStrMaxLen (hexText b)).buffStr p = d.buffStr p :=
  if_neg fun hp => absurd hp.1 (by omega)

lemma buffStr_snprintf (off : ℕ) (b : UInt8) {k : ℕ} (hk : k < 4) :
    (d.snprintf off buffStrMaxLen (hexText b)).buffStr (off + k) = (hexText b ++ [0]).getD k 0 := by
  refine (if_pos ⟨by omega, show off + k < off + 4 by omega⟩).trans ?_
  rw [Nat.add_sub_cancel_left]
  rfl

lemma text_snprintf (off : ℕ) (b : UInt8) :
    (List.range' off 3).map (d.snprintf off buffStrMaxLen (hexText b)).buffStr = hexText b := by
  apply List.ext_getElem
  · rfl
  · intro k hk hk'
    have hlt : k < 3 := hk'
    rw [List.getElem_map, List.getElem_range', Nat.one_mul, buffStr_snprintf off b (by omega),
      List.getD_append _ _ _ _ hk', List.getD_eq_getElem _ _ hk']

/-- What stands in `buff_str` after the first `j` bytes of a line. -/
structure LineInv (data : ℕ → UInt8) (i : ℕ) (d : Dump) (j : ℕ) (t : Dump) : Prop where
  text : (List.range (j * 3)).map t.buffStr =
    (List.range j).flatMap fun k => hexText (data (i + k))
  ended : j ≠ 0 → t.buffStr (j * 3) = 0
  stores : t.stores = d.stores ++ (List.range j).flatMap fun k => List.range' (k * 3) 4
  logged : t.logged = d.logged

lemma LineInv.of_printLine (data : ℕ → UInt8) (i lim : ℕ) (d : Dump) :
    LineInv data i d lim (printLine data i lim d) := by
  refine forUpTo_induct (P := LineInv data i d) ⟨rfl, fun h => absurd rfl h, ?_, rfl⟩ ?_
  · exact (List.append_nil _).symm
  · intro j t _ ht
    refine ⟨?_, fun _ => ?_, ?_, ht.logged⟩
    · -- the bytes before are not touched, and this one follows them
      have hbefore : (List.range (j * 3)).map
          (t.snprintf (j * 3) buffStrMaxLen (hexText (data (i + j)))).buffStr =
          (List.range (j * 3)).map t.buffStr :=
        List.map_congr_left fun p hp => buffStr_snprintf_of_lt _ (List.mem_range.mp hp)
      rw [Nat.succ_mul, ← range_append_range', List.map_append, hbefore, ht.text, text_snprintf,
        List.range_succ, List.flatMap_append, List.flatMap_singleton]
    · rw [Nat.succ_mul]
      exact buffStr_snprintf (j * 3) _ (by decide)
    · rw [stores_snprintf, ht.stores, List.append_assoc, List.range_succ, List.flatMap_append,
        List.flatMap_singleton]

/-- **A line is the text of its bytes.** -/
lemma line_printLine (hpos : lim ≠ 0) (hlim : lim ≤ 16) :
    (printLine data i lim d).line = (List.range lim).flatMap fun k => hexText (data (i + k)) := by
  have h := LineInv.of_printLine data i lim d
  set t := printLine data i lim d
  have hsplit : List.range (buffStrMaxLen + 1) =
      List.range (lim * 3) ++ lim * 3 :: List.range' (lim * 3 + 1) (48 - lim * 3) := by
    rw [show buffStrMaxLen + 1 = lim * 3 + (48 - lim * 3 + 1) by rw [buffStrMaxLen]; omega,
      ← range_append_range', List.range'_succ]
  rw [Dump.line, hsplit, List.map_append, List.map_cons, h.text, h.ended hpos,
    List.takeWhile_append_of_pos]
  · simp
  · intro c hc
    obtain ⟨k, -, hk⟩ := List.mem_flatMap.mp hc
    exact decide_eq_true (hexText_ne_zero hk)

/-- The stores of a line: the NUL of its last byte is the last one. -/
lemma stores_printLine (data : ℕ → UInt8) (i lim : ℕ) (d : Dump) :
    (∀ k ∈ (printLine data i lim d).stores, k < buffStrMaxLen) ↔
      (∀ k ∈ d.stores, k < buffStrMaxLen) ∧ lim < 16 := by
  rw [(LineInv.of_printLine data i lim d).stores]
  simp only [List.mem_append, List.mem_flatMap, List.mem_range, List.mem_range'_1, buffStrMaxLen]
  constructor
  · intro h
    refine ⟨fun k hk => h k (.inl hk), ?_⟩
    by_contra hge
    exact absurd (h 48 (.inr ⟨15, by omega, by omega⟩)) (by decide)
  · rintro ⟨hd, hlim⟩ k (hk | ⟨j, hj, hk⟩)
    · exact hd k hk
    · omega

end Line

/-! ## The whole dump -/

section Whole

variable {data : ℕ → UInt8} {len i : ℕ} {d : Dump}

/-- **Every byte is printed once, in order.** -/
lemma logged_printLines (data : ℕ → UInt8) (len i : ℕ) (d : Dump) :
    (printLines data len i d).logged =
      d.logged ++ (List.range' i (len - i)).flatMap fun k => hexText (data k) := by
  fun_induction printLines data len i d with
  | case1 i d hlt lim ih =>
      have hlim : lim ≠ 0 ∧ lim ≤ 16 ∧ lim ≤ len - i := by
        simp only [lim]
        split_ifs <;> omega
      have hline : (printLine data i lim d).log.logged =
          d.logged ++ (List.range' i lim).flatMap fun k => hexText (data k) := by
        show (printLine data i lim d).logged ++ (printLine data i lim d).line = _
        rw [(LineInv.of_printLine data i lim d).logged, line_printLine hlim.1 hlim.2.1,
          List.range'_eq_map_range, List.flatMap_map]
      rw [ih, hline, List.append_assoc, ← List.flatMap_append]
      have happend : List.range' i lim ++ List.range' (i + lim) (len - (i + lim)) =
          List.range' i (lim + (len - (i + lim))) := List.range'_append_1
      rw [happend, show lim + (len - (i + lim)) = len - i by omega]
  | case2 i d hge =>
      rw [show len - i = 0 by omega]
      simp

/-- The stores stay in `buff_str` if no line is full. -/
lemma stores_printLines (data : ℕ → UInt8) (len i : ℕ) (d : Dump) :
    (∀ k ∈ (printLines data len i d).stores, k < buffStrMaxLen) ↔
      (∀ k ∈ d.stores, k < buffStrMaxLen) ∧ len - i < 16 := by
  fun_induction printLines data len i d with
  | case1 i d hlt lim ih =>
      have hlim : lim = if len - i > 16 then 16 else len - i := rfl
      have hlog : (printLine data i lim d).log.stores = (printLine data i lim d).stores := rfl
      rw [ih, hlog, stores_printLine, and_assoc]
      refine and_congr_right fun _ => ?_
      split_ifs at hlim <;> omega
  | case2 i d hge =>
      refine (and_iff_left ?_).symm
      omega

/-- `buff_str` is not initialised. -/
def Dump.start (buffStr : ℕ → UInt8) : Dump := ⟨buffStr, [], []⟩

/-- **When a hex dump stays in its buffer.**  For every buffer and every length: all that
`print_buff1` and `print_buff_dbg` store, with the terminating NULs, is inside `buff_str`, and they
print each byte, `print_buff_dbg` each of the first 16, once and in order, if and only if there are
fewer than 16 bytes. -/
theorem hex_dump_iff (buffStr data : ℕ → UInt8) (len : ℕ) :
    (((∀ k ∈ (printBuff1 data len (.start buffStr)).stores, k < buffStrMaxLen) ∧
        (printBuff1 data len (.start buffStr)).logged =
          (List.range len).flatMap fun k => hexText (data k)) ↔ len < 16) ∧
    (((∀ k ∈ (printBuffDbg data len (.start buffStr)).stores, k < buffStrMaxLen) ∧
        (printBuffDbg data len (.start buffStr)).logged =
          (List.range (min len 16)).flatMap fun k => hexText (data k)) ↔ len < 16) := by
  have hlogged : ∀ n, (printLines data n 0 (.start buffStr)).logged =
      (List.range n).flatMap fun k => hexText (data k) := fun n => by
    rw [logged_printLines, List.range_eq_range', Nat.sub_zero]
    rfl
  have hstores : ∀ n, (∀ k ∈ (printLines data n 0 (.start buffStr)).stores, k < buffStrMaxLen) ↔
      n < 16 := fun n => by
    rw [stores_printLines, Nat.sub_zero]
    simp [Dump.start]
  constructor
  · rw [printBuff1, hstores, hlogged]
    simp
  · have hlen : (if maxPrintLen ≠ 0 ∧ len > maxPrintLen then maxPrintLen else len) =
        min len 16 := by
      rw [maxPrintLen]
      split_ifs <;> omega
    rw [printBuffDbg]
    simp only [hlen, hstores, hlogged, and_true]
    omega

/-- The dump of a key of 16 bytes stores a NUL at index 48, behind the end of `buff_str`. -/
theorem hex_dump_of_key :
    48 ∈ (printBuff1 (fun _ => 0) 16 (.start fun _ => 0)).stores ∧ buffStrMaxLen = 48 := by
  refine ⟨?_, rfl⟩
  have hline := (LineInv.of_printLine (fun _ => 0) 0 16 (.start fun _ => 0)).stores
  rw [printBuff1, printLines, if_pos (by decide)]
  show 48 ∈ (printLines (fun _ => 0) 16 16
    (printLine (fun _ => 0) 0 16 (.start fun _ => 0)).log).stores
  rw [printLines, if_neg (by decide)]
  show 48 ∈ (printLine (fun _ => 0) 0 16 (.start fun _ => 0)).stores
  rw [hline]
  decide

end Whole

end CiphApp
