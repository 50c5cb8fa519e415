import CiphApp.Libmemif.Control

/-!
# What the messages of a slave do

The messages by which a slave sets up a connection (`script`), and what each of them makes of the
connection of a master that has room for the rings.  `Libmemif.Handshake` is put together from
these results; here there are no processes yet, only connections and files.

## The slave

`receiveHello_eq` computes the greeting: the slave makes its two regions and writes its rings
(`setUp`), and then it has all its messages in the queue, in the order of `script`.  The rings that
it has written are found again under the place of each ring (`ringsReady_setUp`), since the places
are apart (`memifGetRing_injective`) and end inside the region.

## The master

`masterConn` is a master that knows a number of regions and of rings of each direction, and
`masterAt` the one behind a number of messages.  `receiveBody_masterAt` is the step: the next
message adds the next region or ring.  `memifConnect1_master` maps the regions and finds every ring
with its cookie.  For the slave the same function changes nothing (`memifConnect1_slave`); both are
cases of `memifConnect1_eq`, for connections whose regions can be mapped (`Region.CanMap`) and whose
rings are set up (`Queue.Ready`).

`Mappable` is what has to be assumed of the arguments of the slave, and `masterUp` is the master in
the end.
-/

namespace CiphApp.Libmemif

open Lib (forUpTo forUpTo_succ)

/-! ## Loops over arrays -/

lemma growStore_length {β : Type} {arr : List (Option β)} (b : β) (h : arr.length + 1 < 256) :
    growStore arr arr.length b = .ok (arr ++ [some b]) := by
  rw [growStore, if_pos ⟨Nat.lt_succ_self _, h⟩, List.set_append_right _ _ le_rfl, Nat.sub_self]
  rfl

lemma foldlM_range_map {m : Type → Type} [Monad m] [LawfulMonad m] {σ μ : Type}
    (step : σ → μ → m σ) (msg : ℕ → μ) (st : ℕ → σ) {n : ℕ}
    (h : ∀ i < n, step (st i) (msg i) = pure (st (i + 1))) :
    ((List.range n).map msg).foldlM step (st 0) = pure (st n) := by
  induction n with
  | zero => rfl
  | succ n ih =>
      rw [List.range_succ, List.map_append, List.foldlM_append,
        ih fun i hi => h i (Nat.lt_succ_of_lt hi), pure_bind, List.map_singleton,
        List.foldlM_cons, h n (Nat.lt_succ_self n), pure_bind, List.foldlM_nil]

/-! ## The messages -/

section Script

variable (args : MemifConnArgs) (a : MemifConnRunArgs) (f : File)

/-- The files of the interrupts of one direction are numbered from here. -/
def firstInt : MemifRingType → File
  | .s2m => f + 2
  | .m2s => f + 2 + a.numS2mRings.toNat

/-- The number of rings of one direction. -/
def MemifConnRunArgs.num : MemifRingType → ℕ
  | .s2m => a.numS2mRings.toNat
  | .m2s => a.numM2sRings.toNat

lemma num_lt (type : MemifRingType) : a.num type < 256 := by
  cases type
  · exact a.numS2mRings.toNat_lt
  · exact a.numM2sRings.toNat_lt

/-- Region `i` of the slave. -/
def slaveRegion (i : ℕ) : Region :=
  ⟨memifAddRegion a (decide (i ≠ 0)), some (f + i), some (f + i)⟩

def regionMsg (i : ℕ) : Sent :=
  (.addRegion ⟨UInt16.ofNat i, (slaveRegion a f i).layout.regionSize.toUInt64⟩, some (f + i))

/-- The data of an `ADD_RING`. -/
def ringData (type : MemifRingType) (i : ℕ) : MemifMsgAddRing where
  flags := match type with
    | .s2m => memifMsgAddRingFlagS2m
    | .m2s => 0
  index := UInt16.ofNat i
  region := 0
  offset := UInt32.ofNat (memifGetRing a type i)
  log2RingSize := a.log2RingSize
  privateHdrSize := 0

def ringMsg (type : MemifRingType) (i : ℕ) : Sent :=
  (.addRing (ringData a type i), some (firstInt a f type + i))

def initMsg : Sent := (.init ⟨memifVersion, args.interfaceId, args.mode, args.secret⟩, none)

/-- The messages that describe regions and rings. -/
def body : List Sent :=
  (List.range 2).map (regionMsg a f) ++ ((List.range (a.num .s2m)).map (ringMsg a f .s2m) ++
    (List.range (a.num .m2s)).map (ringMsg a f .m2s))

/-- **What a slave sends**, in this order. -/
def script : List Sent := initMsg args :: (body a f ++ [(.connect, none)])

lemma length_body : (body a f).length = 2 + a.numRings := by
  rw [body, List.length_append, List.length_append, List.length_map, List.length_map,
    List.length_map, List.length_range, List.length_range, List.length_range]
  rfl

lemma length_script : (script args a f).length = 4 + a.numRings := by
  rw [script, List.length_cons, List.length_append, length_body]
  simp only [List.length_cons, List.length_nil]
  omega

end Script

/-! ## The slave -/

section Slave

variable {args : MemifConnArgs} {a : MemifConnRunArgs} {f : File}

/-- The connection of the slave behind the greeting. -/
def slaveConn (args : MemifConnArgs) (a : MemifConnRunArgs) (f : File) (fd : ℤ)
    (msgQueue : List Sent) (flagWrite : Bool) : Connection where
  args
  runArgs := a
  fd
  msgQueue
  regions := (List.range 2).map fun i => some (slaveRegion a f i)
  rxQueues := initQueues a .m2s f (firstInt a f .m2s) (a.num .m2s)
  txQueues := initQueues a .s2m f (firstInt a f .s2m) (a.num .s2m)
  flagWrite

lemma enq_slaveConn (fd : ℤ) (q : List Sent) (fl : Bool) (m : MemifMsg) (x : Option File) :
    (slaveConn args a f fd q fl).enq m x = slaveConn args a f fd (q ++ [(m, x)]) fl := rfl

lemma entry_range {β : Type} {g : ℕ → β} {n i : ℕ} (hi : i < n) :
    entry ((List.range n).map fun i => some (g i)) i = .ok (g i) := by
  rw [entry, List.getElem?_map, List.getElem?_range hi]
  rfl

lemma enqAddRegion_slaveConn (fd : ℤ) (q : List Sent) (fl : Bool) {i : ℕ} (hi : i < 2) :
    memifMsgEnqAddRegion (slaveConn args a f fd q fl) i =
      .ok (slaveConn args a f fd (q ++ [regionMsg a f i]) fl) := by
  have hentry : entry (slaveConn args a f fd q fl).regions i = .ok (slaveRegion a f i) :=
    entry_range hi
  rw [memifMsgEnqAddRegion, hentry]
  rfl

lemma enqAddRing_slaveConn (type : MemifRingType) (fd : ℤ) (q : List Sent) (fl : Bool) {i : ℕ}
    (hi : i < a.num type) :
    memifMsgEnqAddRing type (slaveConn args a f fd q fl) i =
      .ok (slaveConn args a f fd (q ++ [ringMsg a f type i]) fl) := by
  cases type with
  | s2m =>
      have hentry : entry (slaveConn args a f fd q fl).txQueues i =
        .ok (queueAt a .s2m f (firstInt a f .s2m) i) := entry_range hi
      rw [memifMsgEnqAddRing, hentry]
      rfl
  | m2s =>
      have hentry : entry (slaveConn args a f fd q fl).rxQueues i =
        .ok (queueAt a .m2s f (firstInt a f .m2s) i) := entry_range hi
      rw [memifMsgEnqAddRing, hentry]
      rfl

lemma foldlM_enq {c : List Sent → Connection} {step : Connection → ℕ → Except Fault Connection}
    {msg : ℕ → Sent} {n : ℕ} (h : ∀ q, ∀ i < n, step (c q) i = .ok (c (q ++ [msg i])))
    (q : List Sent) :
    (List.range n).foldlM step (c q) = .ok (c (q ++ (List.range n).map msg)) := by
  have hloop := foldlM_range_map step id (fun i => c (q ++ (List.range i).map msg))
    (n := n) fun i hi => by
      rw [id, h _ i hi, List.range_succ, List.map_append, List.append_assoc]
      rfl
  rw [List.map_id, List.range_zero, List.map_nil, List.append_nil] at hloop
  exact hloop

lemma enqHandshake_slaveConn (fd : ℤ) (fl : Bool) :
    enqHandshake (slaveConn args a f fd [] fl) =
      .ok (slaveConn args a f fd (script args a f) fl) := by
  have hregions : (List.range 2).foldlM memifMsgEnqAddRegion
      (slaveConn args a f fd [initMsg args] fl) = .ok (slaveConn args a f fd _ fl) :=
    foldlM_enq (c := fun q => slaveConn args a f fd q fl)
      (fun q i hi => enqAddRegion_slaveConn fd q fl hi) _
  have hrings : ∀ type q, (List.range (a.num type)).foldlM (memifMsgEnqAddRing type)
      (slaveConn args a f fd q fl) = .ok (slaveConn args a f fd _ fl) := fun type q =>
    foldlM_enq (c := fun q => slaveConn args a f fd q fl)
      (fun q i hi => enqAddRing_slaveConn type fd q fl hi) q
  show ((List.range 2).foldlM memifMsgEnqAddRegion (slaveConn args a f fd [initMsg args] fl) >>=
    fun c => _) = _
  rw [hregions]
  show ((List.range (a.num .s2m)).foldlM (memifMsgEnqAddRing .s2m) (slaveConn args a f fd _ fl) >>=
    fun c => _) = _
  rw [hrings]
  show ((List.range (a.num .m2s)).foldlM (memifMsgEnqAddRing .m2s) (slaveConn args a f fd _ fl) >>=
    fun c => _) = _
  rw [hrings]
  show Except.ok (memifMsgEnqConnect (slaveConn args a f fd _ fl)) = _
  rw [memifMsgEnqConnect, enq_slaveConn, script, body]
  simp only [List.append_assoc, List.cons_append, List.nil_append]

/-- The greeting of a master allows all that a slave can be created with. -/
def runArgsOf (args : MemifConnArgs) : MemifConnRunArgs :=
  ⟨args.numS2mRings, args.numM2sRings, args.bufferSize, args.log2RingSize⟩

/-- The greeting. -/
def helloData : MemifMsgHello :=
  ⟨memifVersion, memifVersion, memifMaxRegion, memifMaxRing, memifMaxRing, memifMaxLog2RingSize⟩

lemma runArgs_memifMsgReceiveHello (c : Connection) (hlog : c.args.log2RingSize ≤ 14) :
    memifMsgReceiveHello c helloData = { c with runArgs := runArgsOf c.args } := by
  have hs := c.args.numS2mRings.toNat_lt
  have hm := c.args.numM2sRings.toNat_lt
  have hmax : helloData.maxS2mRing.toNat = 255 := rfl
  have hmax' : helloData.maxM2sRing.toNat = 255 := rfl
  have hns : UInt8.ofNat (min (helloData.maxS2mRing.toNat + 1) c.args.numS2mRings.toNat) =
      c.args.numS2mRings := by rw [min_eq_right (by omega), UInt8.ofNat_toNat]
  have hnm : UInt8.ofNat (min (helloData.maxM2sRing.toNat + 1) c.args.numM2sRings.toNat) =
      c.args.numM2sRings := by rw [min_eq_right (by omega), UInt8.ofNat_toNat]
  have hlog' : ¬helloData.maxLog2RingSize < c.args.log2RingSize := UInt8.not_lt.mpr hlog
  rw [memifMsgReceiveHello, hns, hnm, if_neg hlog']
  rfl

/-! ## Rings in shared memory -/

lemma rings_lt (hlog : a.log2RingSize ≤ 14) : a.numRings * a.ringBytes < 2 ^ 32 := by
  have hs := a.numS2mRings.toNat_lt
  have hm := a.numM2sRings.toNat_lt
  have hsize : a.ringSize ≤ 2 ^ 14 :=
    Nat.pow_le_pow_right (by decide) (UInt8.le_iff_toNat_le.mp hlog)
  have hbytes : a.ringBytes ≤ 2 ^ 19 := by
    rw [MemifConnRunArgs.ringBytes, sizeofMemifRing, sizeofMemifDesc]
    omega
  calc a.numRings * a.ringBytes ≤ 2 ^ 9 * 2 ^ 19 := Nat.mul_le_mul
        (by rw [MemifConnRunArgs.numRings]; omega) hbytes
    _ < 2 ^ 32 := by decide

lemma regionSize_rings (hlog : a.log2RingSize ≤ 14) :
    (memifAddRegion a false).regionSize.toNat = a.numRings * a.ringBytes := by
  show (UInt32.ofNat (a.numRings * a.ringBytes)).toNat = _
  rw [UInt32.toNat_ofNat', Nat.mod_eq_of_lt (rings_lt hlog)]

lemma ringBytes_pos : 0 < a.ringBytes := by
  rw [MemifConnRunArgs.ringBytes, sizeofMemifRing]
  omega

lemma ringNumber_lt_numRings {type : MemifRingType} {i : ℕ} (hi : i < a.num type) :
    a.ringNumber type i < a.numRings := by
  cases type with
  | s2m =>
      have hi' : i < a.numS2mRings.toNat := hi
      show i < a.numS2mRings.toNat + _
      omega
  | m2s =>
      have hi' : i < a.numM2sRings.toNat := hi
      show i + a.numS2mRings.toNat < a.numS2mRings.toNat + a.numM2sRings.toNat
      omega

lemma memifGetRing_add_le {type : MemifRingType} {i : ℕ} (hi : i < a.num type) :
    memifGetRing a type i + a.ringBytes ≤ a.numRings * a.ringBytes := by
  rw [memifGetRing, ← Nat.succ_mul]
  exact Nat.mul_le_mul_right _ (ringNumber_lt_numRings hi)

lemma memifGetRing_injective {t t' : MemifRingType} {i i' : ℕ} (hi : i < a.num t)
    (hi' : i' < a.num t') (h : memifGetRing a t i = memifGetRing a t' i') : t = t' ∧ i = i' := by
  refine DescId.ringNumber_injective (a := a) ?_ ?_ (Nat.eq_of_mul_eq_mul_right ringBytes_pos h)
  · rintro rfl
    exact hi
  · rintro rfl
    exact hi'

lemma mem_write_self (fs : Files) (file : File) (off : ℕ) (r : RingMem) :
    (fs.write file off r).mem file off = r := by
  show Function.update fs.mem file _ file off = r
  rw [Function.update_self, Function.update_self]

lemma mem_write_of_ne {fs : Files} {file : File} {off off' : ℕ} {r : RingMem} (h : off' ≠ off) :
    (fs.write file off r).mem file off' = fs.mem file off' := by
  show Function.update fs.mem file _ file off' = _
  rw [Function.update_self, Function.update_of_ne h]

lemma mem_writeRings {type t : MemifRingType} {n i : ℕ} {fs : Files} (hn : n ≤ a.num type)
    (hi : i < a.num t) :
    (writeRings a type f n fs).mem f (memifGetRing a t i) =
      if t = type ∧ i < n then ⟨memifCookie, initRing a t i⟩
      else fs.mem f (memifGetRing a t i) := by
  induction n with
  | zero => rw [if_neg fun h => Nat.not_lt_zero _ h.2]; rfl
  | succ n ih =>
      have ih' := ih (Nat.le_of_succ_le hn)
      rw [writeRings, forUpTo_succ]
      rw [writeRings] at ih'
      by_cases hsame : t = type ∧ i = n
      · obtain ⟨rfl, rfl⟩ := hsame
        rw [mem_write_self, if_pos ⟨rfl, Nat.lt_succ_self _⟩]
      · have hne : memifGetRing a t i ≠ memifGetRing a type n := fun h =>
          hsame (memifGetRing_injective hi hn h)
        have hiff : (t = type ∧ i < n + 1) ↔ (t = type ∧ i < n) := by
          constructor
          · rintro ⟨h, hlt⟩
            exact ⟨h, Nat.lt_of_le_of_ne (Nat.lt_succ_iff.mp hlt) fun hin => hsame ⟨h, hin⟩⟩
          · rintro ⟨h, hlt⟩
            exact ⟨h, Nat.lt_succ_of_lt hlt⟩
        rw [mem_write_of_ne hne, ih']
        simp only [hiff]

/-- **The rings are set up**, up to their flags. -/
def RingsReady (a : MemifConnRunArgs) (f : File) (fs : Files) : Prop :=
  ∀ type, ∀ i < a.num type, ∃ flags,
    fs.mem f (memifGetRing a type i) = ⟨memifCookie, { initRing a type i with flags }⟩

/-- The files behind `memif_init_regions_and_queues`. -/
def setUp (a : MemifConnRunArgs) (fs : Files) : Files :=
  writeRings a .m2s fs.next (a.num .m2s) (writeRings a .s2m fs.next (a.num .s2m)
    { fs with next := fs.next + 2 + a.num .s2m + a.num .m2s })

lemma ringsReady_setUp (a : MemifConnRunArgs) (fs : Files) : RingsReady a fs.next (setUp a fs) := by
  intro type i hi
  refine ⟨0, ?_⟩
  rw [setUp, mem_writeRings le_rfl hi, mem_writeRings le_rfl hi]
  cases type with
  | s2m =>
      rw [if_neg fun h => absurd h.1 (by decide), if_pos ⟨rfl, hi⟩]
      rfl
  | m2s =>
      rw [if_pos ⟨rfl, hi⟩]
      rfl

lemma memifInitRegionsAndQueues_eq (hlog : a.log2RingSize ≤ 14) (fd : ℤ) (fl : Bool) (fs : Files) :
    memifInitRegionsAndQueues
        ⟨{ Connection.create args with fd, flagWrite := fl, runArgs := a }, fs⟩ =
      .ok ⟨slaveConn args a fs.next fd [] fl, setUp a fs⟩ := by
  have hsize : a.numRings * a.ringBytes ≤ (memifAddRegion a false).regionSize.toNat :=
    (regionSize_rings hlog).ge
  show (if ¬a.numRings * a.ringBytes ≤ (memifAddRegion a false).regionSize.toNat then _ else _) = _
  rw [if_neg (not_not_intro hsize)]
  rfl

/-- **The slave at the greeting.**  It has two regions and the queues that it was created with, and
its messages wait. -/
lemma receiveHello_eq (hlog : args.log2RingSize ≤ 14) (fd : ℤ) (fl : Bool) (fs : Files) :
    receiveHello helloData ⟨{ Connection.create args with fd, flagWrite := fl }, fs⟩ =
      .ok (.success, ⟨slaveConn args (runArgsOf args) fs.next fd
        (script args (runArgsOf args) fs.next) fl, setUp (runArgsOf args) fs⟩) := by
  rw [receiveHello, runArgs_memifMsgReceiveHello _ hlog]
  show (memifInitRegionsAndQueues
    ⟨{ Connection.create args with fd, flagWrite := fl, runArgs := runArgsOf args }, fs⟩ >>=
      fun v => _) = _
  rw [memifInitRegionsAndQueues_eq hlog fd fl fs]
  show (enqHandshake (slaveConn args (runArgsOf args) fs.next fd [] fl) >>= fun conn => _) = _
  rw [enqHandshake_slaveConn]
  rfl

end Slave

/-! ## The master -/

section Master

variable {args : MemifConnArgs} {a : MemifConnRunArgs} {f : File}

/-- Region `i` as the master learns of it. -/
def masterRegion (a : MemifConnRunArgs) (f : File) (i : ℕ) : Region :=
  ⟨⟨(slaveRegion a f i).layout.regionSize, 0⟩, some (f + i), none⟩

/-- A queue as the master learns of it. -/
def masterQueue (a : MemifConnRunArgs) (f : File) (type : MemifRingType) (i : ℕ) : Queue :=
  (ringData a type i).mq (firstInt a f type + i)

/-- The connection of the master when it knows `nr` regions and so many rings. -/
def masterConn (args : MemifConnArgs) (a : MemifConnRunArgs) (f : File) (fd : ℤ) (nr ns nm : ℕ) :
    Connection where
  args
  runArgs := ⟨UInt8.ofNat ns, UInt8.ofNat nm, 0, 0⟩
  fd
  msgQueue := []
  regions := (List.range nr).map fun i => some (masterRegion a f i)
  rxQueues := (List.range ns).map fun i => some (masterQueue a f .s2m i)
  txQueues := (List.range nm).map fun i => some (masterQueue a f .m2s i)
  flagWrite := false

/-- A message about a region or a ring. -/
def receiveBody (c : Connection) (m : Sent) : Result Connection :=
  match m.1 with
  | .addRegion ar => memifMsgReceiveAddRegion c ar m.2
  | .addRing ar => memifMsgReceiveAddRing c ar m.2
  | _ => .ok (.fail, c)

lemma growStore_range {β : Type} {g : ℕ → β} {n : ℕ} (h : n + 1 < 256) :
    growStore ((List.range n).map fun i => some (g i)) n (g n) =
      .ok ((List.range (n + 1)).map fun i => some (g i)) := by
  have hlen : ((List.range n).map fun i => some (g i)).length = n := by
    rw [List.length_map, List.length_range]
  have hgrow := growStore_length (g n) (hlen.symm ▸ h)
  rw [hlen] at hgrow
  rw [hgrow, List.range_succ, List.map_append]
  rfl

lemma toNat_index {i : ℕ} (h : i < 256) : (UInt16.ofNat i).toNat = i := by
  rw [UInt16.toNat_ofNat', Nat.mod_eq_of_lt (by omega)]

lemma index_le {i : ℕ} (h : i < 256) : ¬UInt16.ofNat i > 255 := by
  rw [gt_iff_lt, UInt16.lt_iff_toNat_lt, toNat_index h]
  show ¬255 < i
  omega

lemma receiveBody_regionMsg (fd : ℤ) (ns nm : ℕ) {i : ℕ} (hi : i < 2) :
    receiveBody (masterConn args a f fd i ns nm) (regionMsg a f i) =
      .ok (.success, masterConn args a f fd (i + 1) ns nm) := by
  have hgrow : growStore (masterConn args a f fd i ns nm).regions (UInt16.ofNat i).toNat
      ⟨⟨(slaveRegion a f i).layout.regionSize.toUInt64.toUInt32, 0⟩, some (f + i), none⟩ =
        .ok (masterConn args a f fd (i + 1) ns nm).regions := by
    rw [toNat_index (by omega), UInt32.toUInt32_toUInt64]
    exact growStore_range (g := masterRegion a f) (by omega)
  show memifMsgReceiveAddRegion (masterConn args a f fd i ns nm)
    ⟨UInt16.ofNat i, (slaveRegion a f i).layout.regionSize.toUInt64⟩ (some (f + i)) = _
  rw [memifMsgReceiveAddRegion]
  simp only [memifMaxRegion, if_neg (index_le (show i < 256 by omega)), hgrow]
  rfl

section AddRing

variable {c : Connection} {ar : MemifMsgAddRing} {file : File} {qs : List (Option Queue)}

lemma memifMsgReceiveAddRing_s2m (hpriv : ar.privateHdrSize = 0)
    (hflag : ar.flags &&& memifMsgAddRingFlagS2m ≠ 0) (hidx : ¬ar.index > memifMaxRing)
    (hroom : ¬c.args.numS2mRings.toNat ≤ ar.index.toNat)
    (hgrow : growStore c.rxQueues ar.index.toNat (ar.mq file) = .ok qs) :
    memifMsgReceiveAddRing c ar (some file) = .ok (.success, { c with
      rxQueues := qs
      runArgs := { c.runArgs with numS2mRings := c.runArgs.numS2mRings + 1 } }) := by
  rw [memifMsgReceiveAddRing, if_neg (not_not_intro hpriv), if_pos hflag, if_neg hidx,
    if_neg hroom, hgrow]

lemma memifMsgReceiveAddRing_m2s (hpriv : ar.privateHdrSize = 0)
    (hflag : ¬ar.flags &&& memifMsgAddRingFlagS2m ≠ 0) (hidx : ¬ar.index > memifMaxRing)
    (hroom : ¬c.args.numM2sRings.toNat ≤ ar.index.toNat)
    (hgrow : growStore c.txQueues ar.index.toNat (ar.mq file) = .ok qs) :
    memifMsgReceiveAddRing c ar (some file) = .ok (.success, { c with
      txQueues := qs
      runArgs := { c.runArgs with numM2sRings := c.runArgs.numM2sRings + 1 } }) := by
  rw [memifMsgReceiveAddRing, if_neg (not_not_intro hpriv), if_neg hflag, if_neg hidx,
    if_neg hroom, hgrow]

end AddRing

lemma receiveBody_ringMsg_s2m (fd : ℤ) (nr nm : ℕ) {i : ℕ} (hi : i < args.numS2mRings.toNat) :
    receiveBody (masterConn args a f fd nr i nm) (ringMsg a f .s2m i) =
      .ok (.success, masterConn args a f fd nr (i + 1) nm) := by
  have hlt := args.numS2mRings.toNat_lt
  have hidx := toNat_index (show i < 256 by omega)
  have hreceive := memifMsgReceiveAddRing_s2m (c := masterConn args a f fd nr i nm)
    (show (ringData a .s2m i).privateHdrSize = 0 from rfl)
    (show memifMsgAddRingFlagS2m &&& memifMsgAddRingFlagS2m ≠ 0 by decide)
    (show ¬UInt16.ofNat i > 255 from index_le (by omega))
    (show ¬args.numS2mRings.toNat ≤ (UInt16.ofNat i).toNat by rw [hidx]; omega)
    (show growStore _ (UInt16.ofNat i).toNat (masterQueue a f .s2m i) = _ by
      rw [hidx]
      exact growStore_range (g := masterQueue a f .s2m) (by omega))
  refine hreceive.trans ?_
  rw [masterConn, masterConn, UInt8.ofNat_add]
  rfl

lemma receiveBody_ringMsg_m2s (fd : ℤ) (nr ns : ℕ) {i : ℕ} (hi : i < args.numM2sRings.toNat) :
    receiveBody (masterConn args a f fd nr ns i) (ringMsg a f .m2s i) =
      .ok (.success, masterConn args a f fd nr ns (i + 1)) := by
  have hlt := args.numM2sRings.toNat_lt
  have hidx := toNat_index (show i < 256 by omega)
  have hreceive := memifMsgReceiveAddRing_m2s (c := masterConn args a f fd nr ns i)
    (show (ringData a .m2s i).privateHdrSize = 0 from rfl)
    (show ¬(0 : UInt16) &&& memifMsgAddRingFlagS2m ≠ 0 by decide)
    (show ¬UInt16.ofNat i > 255 from index_le (by omega))
    (show ¬args.numM2sRings.toNat ≤ (UInt16.ofNat i).toNat by rw [hidx]; omega)
    (show growStore _ (UInt16.ofNat i).toNat (masterQueue a f .m2s i) = _ by
      rw [hidx]
      exact growStore_range (g := masterQueue a f .m2s) (by omega))
  refine hreceive.trans ?_
  rw [masterConn, masterConn, UInt8.ofNat_add]
  rfl

/-- The connection of the master behind `j` messages about regions and rings. -/
def masterAt (args : MemifConnArgs) (a : MemifConnRunArgs) (f : File) (fd : ℤ) (j : ℕ) :
    Connection :=
  masterConn args a f fd (min j 2) (min (j - 2) (a.num .s2m))
    (min (j - 2 - a.num .s2m) (a.num .m2s))

lemma getElem?_body {j : ℕ} {m : Sent} (h : (body a f)[j]? = some m) :
    (j < 2 ∧ m = regionMsg a f j) ∨
    (∃ i < a.num .s2m, j = 2 + i ∧ m = ringMsg a f .s2m i) ∨
      ∃ i < a.num .m2s, j = 2 + a.num .s2m + i ∧ m = ringMsg a f .m2s i := by
  have hget : ∀ {g : ℕ → Sent} {n i : ℕ}, ((List.range n).map g)[i]? = some m →
      i < n ∧ m = g i := by
    intro g n i hi
    rw [List.getElem?_map, Option.map_eq_some_iff] at hi
    obtain ⟨x, hx, rfl⟩ := hi
    obtain ⟨hlt, rfl⟩ := List.getElem?_eq_some_iff.mp hx
    rw [List.length_range] at hlt
    exact ⟨hlt, by rw [List.getElem_range]⟩
  have hlen : ∀ (g : ℕ → Sent) n, ((List.range n).map g).length = n := fun g n => by
    rw [List.length_map, List.length_range]
  by_cases hj : j < 2
  · rw [body, List.getElem?_append_left (by rw [hlen]; exact hj)] at h
    exact .inl (hget h)
  · rw [body, List.getElem?_append_right (by rw [hlen]; omega), hlen] at h
    by_cases hj' : j - 2 < a.num .s2m
    · rw [List.getElem?_append_left (by rw [hlen]; exact hj')] at h
      exact .inr (.inl ⟨j - 2, hj', by omega, (hget h).2⟩)
    · rw [List.getElem?_append_right (by rw [hlen]; omega), hlen] at h
      exact .inr (.inr ⟨j - 2 - a.num .s2m, (hget h).1, by omega, (hget h).2⟩)

/-- **Each message is taken.** -/
lemma receiveBody_masterAt (fd : ℤ) (hs : a.num .s2m ≤ args.numS2mRings.toNat)
    (hm : a.num .m2s ≤ args.numM2sRings.toNat) {j : ℕ} {m : Sent} (h : (body a f)[j]? = some m) :
    receiveBody (masterAt args a f fd j) m = .ok (.success, masterAt args a f fd (j + 1)) := by
  rcases getElem?_body h with ⟨hj, rfl⟩ | ⟨i, hi, rfl, rfl⟩ | ⟨i, hi, rfl, rfl⟩
  · have hstep : receiveBody (masterConn args a f fd j 0 0) (regionMsg a f j) = _ :=
      receiveBody_regionMsg fd 0 0 hj
    have hat : ∀ k ≤ 2, masterAt args a f fd k = masterConn args a f fd k 0 0 := fun k hk => by
      rw [masterAt, min_eq_left hk, Nat.sub_eq_zero_of_le hk, Nat.zero_sub, Nat.zero_min,
        Nat.zero_min]
    rw [hat j hj.le, hat (j + 1) hj, hstep]
  · have hstep : receiveBody (masterConn args a f fd 2 i 0) (ringMsg a f .s2m i) = _ :=
      receiveBody_ringMsg_s2m fd 2 0 (hi.trans_le hs)
    have hat : ∀ k ≤ a.num .s2m, masterAt args a f fd (2 + k) = masterConn args a f fd 2 k 0 :=
      fun k hk => by
        rw [masterAt, min_eq_right (by omega), Nat.add_sub_cancel_left, min_eq_left hk,
          Nat.sub_eq_zero_of_le hk, Nat.zero_min]
    rw [hat i hi.le, Nat.add_assoc, hat (i + 1) hi, hstep]
  · have hstep : receiveBody (masterConn args a f fd 2 (a.num .s2m) i) (ringMsg a f .m2s i) = _ :=
      receiveBody_ringMsg_m2s fd 2 (a.num .s2m) (hi.trans_le hm)
    have hat : ∀ k ≤ a.num .m2s, masterAt args a f fd (2 + a.num .s2m + k) =
        masterConn args a f fd 2 (a.num .s2m) k := fun k hk => by
      rw [masterAt, min_eq_right (by omega), Nat.add_assoc, Nat.add_sub_cancel_left,
        min_eq_right (by omega), Nat.add_sub_cancel_left, min_eq_left hk]
    rw [hat i hi.le, Nat.add_assoc, hat (i + 1) hi, hstep]

lemma masterAt_zero (args : MemifConnArgs) (a : MemifConnRunArgs) (f : File) (fd : ℤ) :
    masterAt args a f fd 0 = masterConn args a f fd 0 0 0 := by
  rw [masterAt, Nat.zero_sub, Nat.zero_sub, Nat.zero_min, Nat.zero_min, Nat.zero_min]

/-- Behind the last message the master knows all regions and rings. -/
lemma masterAt_length (args : MemifConnArgs) (a : MemifConnRunArgs) (f : File) (fd : ℤ) :
    masterAt args a f fd (2 + a.numRings) =
      masterConn args a f fd 2 (a.num .s2m) (a.num .m2s) := by
  have hnum : a.numRings = a.num .s2m + a.num .m2s := rfl
  rw [masterAt, hnum, min_eq_right (by omega), Nat.add_sub_cancel_left, min_eq_right (by omega),
    Nat.add_sub_cancel_left, min_self]

/-! ## Connecting -/

/-- A region with its file mapped. -/
def Region.mapped (r : Region) : Region := { r with addr := r.fd }

lemma Region.mapped_self {r : Region} (h : r.addr = r.fd) : r.mapped = r := by
  obtain ⟨layout, fd, addr⟩ := r
  cases h
  rfl

/-- A region that is mapped, or that can be. -/
def Region.CanMap (r : Region) : Prop :=
  ∃ file, r.fd = some file ∧ (r.addr = some file ∨ r.addr = none ∧ r.layout.regionSize ≠ 0)

lemma mapRegions_eq (rs : List Region) (h : ∀ r ∈ rs, r.CanMap) :
    mapRegions (rs.map some) = .ok (.success, (rs.map Region.mapped).map some) := by
  induction rs with
  | nil => rfl
  | cons r rs ih =>
      have ih' := ih fun x hx => h x (List.mem_cons_of_mem _ hx)
      obtain ⟨file, hfd, haddr⟩ := h r List.mem_cons_self
      rcases haddr with haddr | ⟨haddr, hsize⟩
      · have hself : r.mapped = r := Region.mapped_self (haddr.trans hfd.symm)
        rw [List.map_cons, mapRegions, ih']
        simp only [haddr, List.map_cons, hself]
      · rw [List.map_cons, mapRegions, ih']
        simp only [haddr, hfd, if_neg hsize, List.map_cons, Region.mapped]

lemma connect1_self {mq : MemifQueue} {ring : MemifRing}
    (hmq : mq.lastHead = 0 ∧ mq.allocBufs = 0) (hring : ring.head = 0 ∧ ring.tail = 0) :
    connect1 mq ring = (mq, ring) := by
  obtain ⟨log2, lastHead, lastTail, allocBufs⟩ := mq
  obtain ⟨flags, head, tail, desc⟩ := ring
  obtain ⟨rfl, rfl⟩ := hmq
  obtain ⟨rfl, rfl⟩ := hring
  rfl

/-- A queue whose ring is in the mapped region and set up. -/
structure Queue.Ready (mq : Queue) (regions : List (Option Region)) (file : File) (fs : Files) :
    Prop where
  mapped : ∃ r, entry regions mq.region.toNat = .ok r ∧ r.addr = some file ∧
    mq.offset.toNat + sizeofMemifRing ≤ r.layout.regionSize.toNat
  cookie : (fs.mem file mq.offset.toNat).cookie = memifCookie
  fresh : mq.queue.lastHead = 0 ∧ mq.queue.allocBufs = 0
  reset : (fs.mem file mq.offset.toNat).ring.head = 0 ∧ (fs.mem file mq.offset.toNat).ring.tail = 0

/-- A queue with its ring looked up. -/
def Queue.connect (mq : Queue) (file : File) : Queue :=
  { mq with ring := some (file, mq.offset.toNat) }

/-- Queues and rings that are reset are connected, and shared memory stays as it is. -/
lemma connectQueues_eq {regions : List (Option Region)} {file : File} {fs : Files}
    (qs : List Queue) (h : ∀ q ∈ qs, q.Ready regions file fs) :
    connectQueues regions (qs.map some) fs =
      .ok (.success, (qs.map fun q => q.connect file).map some, fs) := by
  induction qs with
  | nil => rfl
  | cons q qs ih =>
      have ih' := ih fun x hx => h x (List.mem_cons_of_mem _ hx)
      have hq := h q List.mem_cons_self
      obtain ⟨r, hentry, haddr, hle⟩ := hq.mapped
      obtain ⟨rm, hrm⟩ : ∃ rm, rm = fs.mem file q.offset.toNat := ⟨_, rfl⟩
      have hconnect : connect1 q.queue rm.ring = (q.queue, rm.ring) := by
        have hreset := hq.reset
        rw [← hrm] at hreset
        exact connect1_self hq.fresh hreset
      have hwrite : fs.write file q.offset.toNat rm = fs := by
        rw [Files.write, hrm, Function.update_eq_self, Function.update_eq_self]
      rw [List.map_cons, connectQueues]
      simp only [hentry, haddr, ← hrm, if_neg (not_not_intro hle), hconnect, hwrite, ih']
      rw [if_neg (not_not_intro (hrm ▸ hq.cookie))]
      rfl

/-- **Connecting** maps the regions and looks the rings up, and changes nothing in shared memory if
the rings are set up. -/
lemma memifConnect1_eq {c : Connection} {fs : Files} (file : File) {rs : List Region}
    {rx tx : List Queue} (hrs : c.regions = rs.map some) (hrx : c.rxQueues = rx.map some)
    (htx : c.txQueues = tx.map some) (hmap : ∀ r ∈ rs, r.CanMap)
    (hready : ∀ q ∈ rx ++ tx, q.Ready ((rs.map Region.mapped).map some) file fs) :
    memifConnect1 ⟨c, fs⟩ = .ok (.success, ⟨{ c with
      regions := (rs.map Region.mapped).map some
      rxQueues := (rx.map fun q => q.connect file).map some
      txQueues := (tx.map fun q => q.connect file).map some }, fs⟩) := by
  have hrx' := connectQueues_eq rx fun q hq => hready q (List.mem_append_left _ hq)
  have htx' := connectQueues_eq tx fun q hq => hready q (List.mem_append_right _ hq)
  rw [memifConnect1, hrs, mapRegions_eq rs hmap]
  simp only [hrx, htx, hrx', htx', ne_eq, not_true_eq_false, if_false]

end Master

/-! ## Both ends -/

section Ends

variable {args : MemifConnArgs} {a : MemifConnRunArgs} {f : File} {fs : Files}

/-- The connection of the master when it is connected. -/
def masterUp (args : MemifConnArgs) (a : MemifConnRunArgs) (f : File) (fd : ℤ) : Connection :=
  { masterConn args a f fd 2 (a.num .s2m) (a.num .m2s) with
    regions := (List.range 2).map fun i => some (masterRegion a f i).mapped
    rxQueues := (List.range (a.num .s2m)).map fun i => some ((masterQueue a f .s2m i).connect f)
    txQueues := (List.range (a.num .m2s)).map fun i => some ((masterQueue a f .m2s i).connect f) }

/-- The sizes of the regions are positive, so they can be mapped. -/
structure Mappable (a : MemifConnRunArgs) : Prop where
  log2 : a.log2RingSize ≤ 14
  rings : (memifAddRegion a false).regionSize ≠ 0
  buffers : (memifAddRegion a true).regionSize ≠ 0

lemma toNat_offset (h : Mappable a) {type : MemifRingType} {i : ℕ} (hi : i < a.num type) :
    (UInt32.ofNat (memifGetRing a type i)).toNat = memifGetRing a type i := by
  have hle := memifGetRing_add_le hi
  have hlt := rings_lt h.log2
  rw [UInt32.toNat_ofNat', Nat.mod_eq_of_lt (by omega)]

lemma Mappable.canMap (h : Mappable a) (i : ℕ) : (masterRegion a f i).CanMap := by
  refine ⟨f + i, rfl, .inr ⟨rfl, ?_⟩⟩
  show (memifAddRegion a (decide (i ≠ 0))).regionSize ≠ 0
  cases decide (i ≠ 0) with
  | false => exact h.rings
  | true => exact h.buffers

/-- The queues of both ends have their rings in region 0. -/
lemma Mappable.ready (h : Mappable a) (hfs : RingsReady a f fs) {regions : List (Option Region)}
    {r : Region} (hentry : entry regions 0 = .ok r) (haddr : r.addr = some f)
    (hsize : r.layout.regionSize = (memifAddRegion a false).regionSize) {type : MemifRingType}
    {i : ℕ} (hi : i < a.num type) {q : Queue} (hregion : q.region = 0)
    (hoffset : q.offset = UInt32.ofNat (memifGetRing a type i))
    (hqueue : q.queue.lastHead = 0 ∧ q.queue.allocBufs = 0) : q.Ready regions f fs := by
  obtain ⟨flags, hmem⟩ := hfs type i hi
  have hoff : q.offset.toNat = memifGetRing a type i := by rw [hoffset, toNat_offset h hi]
  have hle := memifGetRing_add_le hi
  have hbytes : sizeofMemifRing ≤ a.ringBytes := Nat.le_add_right _ _
  exact {
    mapped := ⟨r, by rw [hregion]; exact hentry, haddr, by
      rw [hoff, hsize, regionSize_rings h.log2]
      omega⟩
    cookie := by rw [hoff, hmem]
    fresh := hqueue
    reset := by
      rw [hoff, hmem]
      exact ⟨rfl, rfl⟩ }

lemma map_some_range {β : Type} (g : ℕ → β) (n : ℕ) :
    (List.range n).map (fun i => some (g i)) = ((List.range n).map g).map some := by
  rw [List.map_map]
  rfl

lemma forall_mem_map_range {β : Type} {g : ℕ → β} {n : ℕ} {P : β → Prop}
    (h : ∀ i < n, P (g i)) : ∀ b ∈ (List.range n).map g, P b := by
  intro b hb
  obtain ⟨i, hi, rfl⟩ := List.mem_map.mp hb
  exact h i (List.mem_range.mp hi)

/-- **Connecting**, for regions and queues that are numbered. -/
lemma memifConnect1_range (h : Mappable a) (hfs : RingsReady a f fs) {c : Connection}
    {region : ℕ → Region} {rx tx : ℕ → Queue} {trx ttx : MemifRingType}
    (hregions : c.regions = (List.range 2).map fun i => some (region i))
    (hrx : c.rxQueues = (List.range (a.num trx)).map fun i => some (rx i))
    (htx : c.txQueues = (List.range (a.num ttx)).map fun i => some (tx i))
    (hmap : ∀ i, (region i).CanMap) (hfile : (region 0).fd = some f)
    (hsize : (region 0).layout.regionSize = (memifAddRegion a false).regionSize)
    (hrxq : ∀ i, (rx i).region = 0 ∧ (rx i).offset = UInt32.ofNat (memifGetRing a trx i) ∧
      (rx i).queue.lastHead = 0 ∧ (rx i).queue.allocBufs = 0)
    (htxq : ∀ i, (tx i).region = 0 ∧ (tx i).offset = UInt32.ofNat (memifGetRing a ttx i) ∧
      (tx i).queue.lastHead = 0 ∧ (tx i).queue.allocBufs = 0) :
    memifConnect1 ⟨c, fs⟩ = .ok (.success, ⟨{ c with
      regions := (List.range 2).map fun i => some (region i).mapped
      rxQueues := (List.range (a.num trx)).map fun i => some ((rx i).connect f)
      txQueues := (List.range (a.num ttx)).map fun i => some ((tx i).connect f) }, fs⟩) := by
  have hentry : entry ((((List.range 2).map region).map Region.mapped).map some) 0 =
      .ok (region 0).mapped := rfl
  have hready : ∀ {type : MemifRingType} {q : ℕ → Queue}, (∀ i, (q i).region = 0 ∧
      (q i).offset = UInt32.ofNat (memifGetRing a type i) ∧
      (q i).queue.lastHead = 0 ∧ (q i).queue.allocBufs = 0) →
      ∀ x ∈ (List.range (a.num type)).map q,
        x.Ready ((((List.range 2).map region).map Region.mapped).map some) f fs := fun hq =>
    forall_mem_map_range fun i hi =>
      h.ready hfs hentry hfile hsize hi (hq i).1 (hq i).2.1 (hq i).2.2
  rw [map_some_range] at hregions hrx htx
  rw [memifConnect1_eq f hregions hrx htx (forall_mem_map_range fun i _ => hmap i) fun q hq =>
    (List.mem_append.mp hq).elim (hready hrxq q) (hready htxq q)]
  simp only [List.map_map]
  rfl

lemma memifConnect1_master (h : Mappable a) (hfs : RingsReady a f fs) (fd : ℤ) :
    memifConnect1 ⟨masterConn args a f fd 2 (a.num .s2m) (a.num .m2s), fs⟩ =
      .ok (.success, ⟨masterUp args a f fd, fs⟩) :=
  memifConnect1_range h hfs rfl rfl rfl h.canMap rfl rfl
    (fun _ => ⟨rfl, rfl, rfl, rfl⟩) fun _ => ⟨rfl, rfl, rfl, rfl⟩

/-- The slave has its regions mapped already, and nothing changes. -/
lemma memifConnect1_slave (h : Mappable a) (hfs : RingsReady a f fs) (fd : ℤ) (fl : Bool) :
    memifConnect1 ⟨slaveConn args a f fd [] fl, fs⟩ =
      .ok (.success, ⟨slaveConn args a f fd [] fl, fs⟩) := by
  have hconnect : ∀ type, (List.range (a.num type)).map (fun i =>
      some ((queueAt a type f (firstInt a f type) i).connect f)) =
        initQueues a type f (firstInt a f type) (a.num type) := by
    intro type
    refine List.map_congr_left fun i hi => ?_
    rw [Queue.connect, queueAt, toNat_offset h (List.mem_range.mp hi)]
  rw [memifConnect1_range h hfs (c := slaveConn args a f fd [] fl) rfl rfl rfl
    (fun i => ⟨f + i, rfl, .inl rfl⟩) rfl rfl
    (fun _ => ⟨rfl, rfl, rfl, rfl⟩) fun _ => ⟨rfl, rfl, rfl, rfl⟩, hconnect, hconnect]
  rfl

end Ends

end CiphApp.Libmemif
