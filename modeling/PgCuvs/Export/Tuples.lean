import PgCuvs.Export.Links
import PgCuvs.Util

/-! The element and neighbor tuples of pgvector's HNSW pages: their sizes, their bytes, and
how a reader takes them apart. -/

namespace PgCuvs

inductive ElemWidth where
  | vector
  | halfvec
deriving DecidableEq, Repr

def ElemWidth.bytesPerDim : ElemWidth → ℕ
  | .vector => 4
  | .halfvec => 2

def maxalign8 (n : ℕ) : ℕ := (n + 7) / 8 * 8

section Sizes

variable (dim : ℕ) (width : ElemWidth)

/-- The header has 72 bytes and the vector's 8. -/
def elemTupleSize : ℕ := maxalign8 (72 + 8 + dim * width.bytesPerDim)

def neighTupleSize (level m : ℕ) : ℕ := maxalign8 (4 + (level + 2) * m * 6)

def pgvUsableBytes : ℕ := 8192 - 24 - 8

/-- The bytes counted for a pair: the tuples, and twice its item identifiers. -/
def pairBytes (m level : ℕ) : ℕ := elemTupleSize dim width + 2 * 4 + neighTupleSize level m + 2 * 4

def elemsPerPage (m level : ℕ) : Except String ℕ :=
  if dim = 0 then
    .error s!"pg_cuvs: target index column has no fixed dimension (dim={dim}) — cannot size-check the HNSW page layout"
  else .ok (pgvUsableBytes / pairBytes dim width m level)

def checkHnswPageFit (m maxlevel : ℕ) : Except String Unit := do
  let fit ← elemsPerPage dim width m maxlevel
  let needed := pairBytes dim width m maxlevel
  if fit < 1 then
    .error s!"pg_cuvs: element+neighbor tuple pair too large for one page: needed={needed}, available={pgvUsableBytes} (dim={dim}, bytes_per_dim={width.bytesPerDim}, maxlevel={maxlevel}, M={m})"
  else .ok ()

theorem le_maxalign8 (n : ℕ) : n ≤ maxalign8 n := by
  unfold maxalign8
  omega

theorem maxalign8_maxalign8 (n : ℕ) : maxalign8 (maxalign8 n) = maxalign8 n := by
  unfold maxalign8
  omega

theorem maxalign8_mono {n k : ℕ} (h : n ≤ k) : maxalign8 n ≤ maxalign8 k := by
  unfold maxalign8
  omega

theorem neighTupleSize_mono {level level' m : ℕ} (h : level ≤ level') :
    neighTupleSize level m ≤ neighTupleSize level' m := by
  refine maxalign8_mono (Nat.add_le_add_left (Nat.mul_le_mul_right 6 ?_) 4)
  exact Nat.mul_le_mul_right m (Nat.add_le_add_right h 2)

variable {dim width}

theorem elemsPerPage_pos (hdim : 0 < dim) (m level : ℕ) :
    elemsPerPage dim width m level = .ok (pgvUsableBytes / pairBytes dim width m level) :=
  if_neg (Nat.ne_of_gt hdim)

theorem checkHnswPageFit_ok (hdim : 0 < dim) {m maxlevel : ℕ} :
    checkHnswPageFit dim width m maxlevel = .ok ()
      ↔ pairBytes dim width m maxlevel ≤ pgvUsableBytes := by
  have hpos : 0 < pairBytes dim width m maxlevel := by
    unfold pairBytes
    omega
  have hfit : pgvUsableBytes / pairBytes dim width m maxlevel < 1
      ↔ ¬ pairBytes dim width m maxlevel ≤ pgvUsableBytes := by
    rw [Nat.div_lt_iff_lt_mul hpos, Nat.one_mul, Nat.not_le]
  rw [checkHnswPageFit, elemsPerPage_pos hdim]
  simp only [bind, Except.bind, hfit]
  by_cases hle : pairBytes dim width m maxlevel ≤ pgvUsableBytes
  · simp [hle]
  · simp [hle]

end Sizes

/-- IEEE `float32` to `float16` on bit patterns. -/
def floatToHalf (x : UInt32) : UInt16 :=
  let sign : UInt32 := (x >>> 16) &&& 0x8000
  let biased : UInt32 := (x >>> 23) &&& 0xFF
  let exp : ℤ := (biased.toNat : ℤ) - 127 + 15
  let mant : UInt32 := x &&& 0x7FFFFF
  if biased = 0xFF then
    (sign ||| 0x7C00 ||| (if mant ≠ 0 then 0x0200 else 0)).toUInt16
  else if 0x1F ≤ exp then (sign ||| 0x7C00).toUInt16
  else if exp ≤ 0 then
    if exp < -10 then sign.toUInt16
    else
      let mant := mant ||| 0x800000
      let shift : UInt32 := UInt32.ofNat (14 - exp).toNat
      let halfMant := mant >>> shift
      let halfMant :=
        if (mant >>> (shift - 1)) &&& 1 ≠ 0 ∧
            (mant &&& ((1 <<< (shift - 1)) - 1) ≠ 0 ∨ halfMant &&& 1 ≠ 0) then halfMant + 1
        else halfMant
      (sign ||| halfMant).toUInt16
  else
    let halfMant := mant >>> 13
    let halfMant :=
      if mant &&& 0x1000 ≠ 0 ∧ (mant &&& 0xFFF ≠ 0 ∨ halfMant &&& 1 ≠ 0) then halfMant + 1
      else halfMant
    -- The rounding carries into the exponent.
    if halfMant &&& 0x400 ≠ 0 then
      if 0x1F ≤ exp + 1 then (sign ||| 0x7C00).toUInt16
      else (sign ||| (UInt32.ofNat (exp + 1).toNat <<< 10) ||| 0).toUInt16
    else (sign ||| (UInt32.ofNat exp.toNat <<< 10) ||| halfMant).toUInt16

section Pointers

structure PgvItemPointer where
  biHi : ℕ
  biLo : ℕ
  ipPosid : ℕ
deriving DecidableEq, Repr

def setItemPtr (blkno offno : ℕ) : PgvItemPointer := ⟨blkno / 2 ^ 16, blkno % 2 ^ 16, offno⟩

def setInvalidItemPtr : PgvItemPointer := ⟨0xFFFF, 0xFFFF, 0⟩

def tidToItemPtr (encoded : Tid) : PgvItemPointer :=
  setItemPtr (cuvsTidDecode encoded).1 (cuvsTidDecode encoded).2

def PgvItemPointer.blkno (p : PgvItemPointer) : ℕ := p.biHi * 2 ^ 16 + p.biLo

def PgvItemPointer.tid (p : PgvItemPointer) : Tid := cuvsTidEncode p.blkno p.ipPosid

def PgvItemPointer.bytes (p : PgvItemPointer) : List UInt8 :=
  leBytes 2 p.biHi ++ leBytes 2 p.biLo ++ leBytes 2 p.ipPosid

@[simp] theorem setItemPtr_blkno (blkno offno : ℕ) : (setItemPtr blkno offno).blkno = blkno :=
  Nat.div_add_mod' blkno (2 ^ 16)

@[simp] theorem setItemPtr_ipPosid (blkno offno : ℕ) : (setItemPtr blkno offno).ipPosid = offno :=
  rfl

theorem tidToItemPtr_tid {tid : Tid} (h : tid < 2 ^ 48) : (tidToItemPtr tid).tid = tid := by
  have hparts : ∀ n : ℕ, n < 2 ^ 48 → n / 2 ^ 16 % 2 ^ 32 * 2 ^ 16 + n % 2 ^ 16 = n := by
    intro n hn
    omega
  rw [PgvItemPointer.tid, tidToItemPtr, setItemPtr_blkno]
  exact hparts tid h

def PgvItemPointer.Fits (p : PgvItemPointer) : Prop :=
  p.biHi < 2 ^ 16 ∧ p.biLo < 2 ^ 16 ∧ p.ipPosid < 2 ^ 16

theorem setItemPtr_fits {blkno offno : ℕ} (hb : blkno < 2 ^ 32) (ho : offno < 2 ^ 16) :
    (setItemPtr blkno offno).Fits :=
  ⟨by simp only [setItemPtr]; omega, Nat.mod_lt _ (by decide), ho⟩

theorem setInvalidItemPtr_fits : setInvalidItemPtr.Fits :=
  ⟨by decide, by decide, by decide⟩

theorem tidToItemPtr_fits (tid : Tid) : (tidToItemPtr tid).Fits :=
  setItemPtr_fits (Nat.mod_lt _ (by decide)) (Nat.mod_lt _ (by decide))

end Pointers

section Tuples

/-- What a slot points to: the element, or nothing if the number is not an element's. -/
def slotPtr (elems : List ElemDesc) (nb : ℤ) : PgvItemPointer :=
  if 0 ≤ nb then
    match elems[nb.toNat]? with
    | some t => setItemPtr t.elemBlkno t.elemOffno
    | none => setInvalidItemPtr
  else setInvalidItemPtr

def levelSlots (elems : List ElemDesc) (links : List ℤ) (count : ℕ) : List PgvItemPointer :=
  (List.range count).map fun s =>
    match links[s]? with
    | some nb => slotPtr elems nb
    | none => setInvalidItemPtr

/-- Levels `lv` down to 1, the highest first. -/
def upperSlots (elems : List ElemDesc) (e : ElemDesc) (m : ℕ) : ℕ → List PgvItemPointer
  | 0 => []
  | lv + 1 => levelSlots elems (e.upperLinks.getD lv []) m ++ upperSlots elems e m lv

def neighborSlots (elems : List ElemDesc) (e : ElemDesc) (m : ℕ) : List PgvItemPointer :=
  upperSlots elems e m e.level ++ levelSlots elems e.lv0Links (2 * m)

def vectorBytes (width : ElemWidth) (vec : Vec) : List UInt8 :=
  match width with
  | .vector => vec.flatMap fun v => leBytes 4 v.toNat
  | .halfvec => vec.flatMap fun v => leBytes 2 (floatToHalf v).toNat

def elemTuple (dim : ℕ) (width : ElemWidth) (e : ElemDesc) (vec : Vec) : List UInt8 :=
  leBytes 1 1 ++ leBytes 1 e.level ++ leBytes 1 0 ++ leBytes 1 0 ++
    (tidToItemPtr e.tidEncoded :: List.replicate 9 setInvalidItemPtr).flatMap PgvItemPointer.bytes ++
    (setItemPtr e.neighBlkno e.neighOffno).bytes ++ leBytes 2 0 ++
    leBytes 4 ((8 + dim * width.bytesPerDim) * 4) ++ leBytes 2 dim ++ leBytes 2 0 ++
    vectorBytes width vec ++
    List.replicate (elemTupleSize dim width - (72 + 8 + dim * width.bytesPerDim)) 0

def neighTuple (elems : List ElemDesc) (e : ElemDesc) (m : ℕ) : List UInt8 :=
  leBytes 1 2 ++ leBytes 1 0 ++ leBytes 2 ((e.level + 2) * m) ++
    (neighborSlots elems e m).flatMap PgvItemPointer.bytes ++
    List.replicate (neighTupleSize e.level m - (4 + (e.level + 2) * m * 6)) 0

end Tuples

section Slots

variable (elems : List ElemDesc) (e : ElemDesc) (m : ℕ)

@[simp] theorem levelSlots_length (links : List ℤ) (count : ℕ) :
    (levelSlots elems links count).length = count := by
  rw [levelSlots, List.length_map, List.length_range]

@[simp] theorem upperSlots_length (lv : ℕ) : (upperSlots elems e m lv).length = lv * m := by
  induction lv with
  | zero => rw [Nat.zero_mul]; rfl
  | succ lv ih =>
    rw [upperSlots, List.length_append, levelSlots_length, ih, Nat.succ_mul, Nat.add_comm]

theorem neighborSlots_length : (neighborSlots elems e m).length = (e.level + 2) * m := by
  rw [neighborSlots, List.length_append, upperSlots_length, levelSlots_length, Nat.add_mul]

/-- The slots of level `lc`, where pgvector looks for them. -/
def layerSlots (slots : List PgvItemPointer) (m level lc : ℕ) : List PgvItemPointer :=
  (slots.drop ((level - lc) * m)).take (if lc = 0 then 2 * m else m)

def ElemDesc.links (e : ElemDesc) (lc : ℕ) : List ℤ :=
  if lc = 0 then e.lv0Links else e.upperLinks.getD (lc - 1) []

theorem upperSlots_drop (rest : List PgvItemPointer) {lc lv : ℕ} (hpos : 1 ≤ lc) (hle : lc ≤ lv) :
    ((upperSlots elems e m lv ++ rest).drop ((lv - lc) * m)).take m
      = levelSlots elems (e.upperLinks.getD (lc - 1) []) m := by
  induction lv with
  | zero => omega
  | succ lv ih =>
    rw [upperSlots, List.append_assoc]
    rcases Nat.eq_or_lt_of_le hle with rfl | hlt
    · rw [Nat.sub_self, Nat.zero_mul, List.drop_zero, List.take_left' (levelSlots_length elems _ m)]
      rfl
    · have hskip : (lv + 1 - lc) * m = m + (lv - lc) * m := by
        rw [Nat.succ_sub (by omega), Nat.succ_mul, Nat.add_comm]
      rw [hskip, ← List.drop_drop, List.drop_left' (levelSlots_length elems _ m)]
      exact ih (by omega)

theorem layerSlots_neighborSlots {lc : ℕ} (hle : lc ≤ e.level) :
    layerSlots (neighborSlots elems e m) m e.level lc
      = levelSlots elems (e.links lc) (if lc = 0 then 2 * m else m) := by
  rw [layerSlots, neighborSlots, ElemDesc.links]
  rcases Nat.eq_zero_or_pos lc with rfl | hpos
  · rw [Nat.sub_zero, List.drop_left' (upperSlots_length elems e m e.level), if_pos rfl, if_pos rfl]
    exact List.take_of_length_le (Nat.le_of_eq (levelSlots_length _ _ _))
  · simp only [Nat.ne_of_gt hpos, if_false]
    exact upperSlots_drop elems e m _ hpos hle

variable {elems}

theorem slotPtr_fits (helems : ∀ t ∈ elems, t.elemBlkno < 2 ^ 32 ∧ t.elemOffno < 2 ^ 16) (nb : ℤ) :
    (slotPtr elems nb).Fits := by
  unfold slotPtr
  split_ifs
  · cases ht : elems[nb.toNat]? with
    | none => exact setInvalidItemPtr_fits
    | some t =>
      obtain ⟨hb, ho⟩ := helems t (List.mem_of_getElem? ht)
      exact setItemPtr_fits hb ho
  · exact setInvalidItemPtr_fits

theorem levelSlots_fits (helems : ∀ t ∈ elems, t.elemBlkno < 2 ^ 32 ∧ t.elemOffno < 2 ^ 16)
    (links : List ℤ) (count : ℕ) : ∀ p ∈ levelSlots elems links count, p.Fits := by
  intro p hp
  obtain ⟨s, -, rfl⟩ := List.mem_map.mp hp
  cases links[s]? with
  | none => exact setInvalidItemPtr_fits
  | some nb => exact slotPtr_fits helems nb

theorem neighborSlots_fits (helems : ∀ t ∈ elems, t.elemBlkno < 2 ^ 32 ∧ t.elemOffno < 2 ^ 16) :
    ∀ p ∈ neighborSlots elems e m, p.Fits := by
  have hupper : ∀ lv, ∀ p ∈ upperSlots elems e m lv, p.Fits := by
    intro lv
    induction lv with
    | zero => exact fun p hp => nomatch hp
    | succ lv ih =>
      intro p hp
      rcases List.mem_append.mp hp with hp | hp
      · exact levelSlots_fits helems _ _ p hp
      · exact ih p hp
  intro p hp
  rcases List.mem_append.mp hp with hp | hp
  · exact hupper e.level p hp
  · exact levelSlots_fits helems _ _ p hp

end Slots

section Readers

open Records

theorem reads_leBytes {width n : ℕ} (h : n < 256 ^ width) :
    Reads (nat width) (leBytes width n) n :=
  Reads.nat (leBytes_length width n) (leNat_leBytes h)

theorem reads_expect {width n : ℕ} (h : n < 256 ^ width) :
    Reads (expect width n) (leBytes width n) () :=
  Reads.expect (leBytes_length width n) (leNat_leBytes h)

def readItemPtr : Reader PgvItemPointer := do
  let hi ← nat 2
  let lo ← nat 2
  let posid ← nat 2
  pure ⟨hi, lo, posid⟩

theorem PgvItemPointer.Fits.reads {p : PgvItemPointer} (h : p.Fits) :
    Reads readItemPtr p.bytes p := by
  obtain ⟨hhi, hlo, hpos⟩ := h
  rw [PgvItemPointer.bytes, List.append_assoc]
  refine (reads_leBytes hhi).bind ?_
  refine (reads_leBytes hlo).bind ?_
  exact (reads_leBytes hpos).map

/-- What pgvector reads from an element tuple; the components are bit patterns. -/
structure PgvElement where
  level : ℕ
  deleted : ℕ
  heaptids : List PgvItemPointer
  neighbortid : PgvItemPointer
  vec : List ℕ
deriving DecidableEq, Repr

def readElemTuple (dim : ℕ) (width : ElemWidth) : Reader PgvElement := do
  expect 1 1
  let level ← nat 1
  let deleted ← nat 1
  expect 1 0
  let heaptids ← many readItemPtr 10
  let neighbortid ← readItemPtr
  expect 2 0
  expect 4 ((8 + dim * width.bytesPerDim) * 4)
  expect 2 dim
  expect 2 0
  let vec ← many (nat width.bytesPerDim) dim
  pure ⟨level, deleted, heaptids, neighbortid, vec⟩

def readNeighTuple (count : ℕ) : Reader (List PgvItemPointer) := do
  expect 1 2
  expect 1 0
  expect 2 count
  many readItemPtr count

def ElemWidth.store (width : ElemWidth) (vec : Vec) : List ℕ :=
  match width with
  | .vector => vec.map fun v => v.toNat
  | .halfvec => vec.map fun v => (floatToHalf v).toNat

theorem reads_vectorBytes (width : ElemWidth) (vec : Vec) :
    Reads (many (nat width.bytesPerDim) vec.length) (vectorBytes width vec) (width.store vec) := by
  cases width with
  | vector => exact Reads.many _ _ vec fun v _ => reads_leBytes v.toNat_lt
  | halfvec => exact Reads.many _ _ vec fun v _ => reads_leBytes (floatToHalf v).toNat_lt

theorem reads_itemPtrs {ptrs : List PgvItemPointer} (h : ∀ p ∈ ptrs, p.Fits) :
    Reads (many readItemPtr ptrs.length) (ptrs.flatMap PgvItemPointer.bytes) ptrs := by
  have hreads := Reads.many PgvItemPointer.bytes id ptrs fun p hp => (h p hp).reads
  rwa [List.map_id] at hreads

theorem elemTuple_reads {dim : ℕ} {width : ElemWidth} {e : ElemDesc} {vec : Vec}
    (hlevel : e.level < 2 ^ 8) (hblk : e.neighBlkno < 2 ^ 32) (hoff : e.neighOffno < 2 ^ 16)
    (hdim : dim < 2 ^ 15) (hvec : vec.length = dim) :
    (readElemTuple dim width (elemTuple dim width e vec)).map Prod.fst
      = some
        { level := e.level
          deleted := 0
          heaptids := tidToItemPtr e.tidEncoded :: List.replicate 9 setInvalidItemPtr
          neighbortid := setItemPtr e.neighBlkno e.neighOffno
          vec := width.store vec } := by
  have hheap : ∀ p ∈ tidToItemPtr e.tidEncoded :: List.replicate 9 setInvalidItemPtr, p.Fits := by
    refine List.forall_mem_cons.mpr ⟨tidToItemPtr_fits _, fun p hp => ?_⟩
    rw [List.eq_of_mem_replicate hp]
    exact setInvalidItemPtr_fits
  have hsize : (8 + dim * width.bytesPerDim) * 4 < 256 ^ 4 := by
    cases width with
    | vector => simp only [ElemWidth.bytesPerDim]; omega
    | halfvec => simp only [ElemWidth.bytesPerDim]; omega
  rw [elemTuple]
  refine Reads.run ?_ _
  simp only [List.append_assoc]
  refine (reads_expect (by decide)).bind ?_
  refine (reads_leBytes hlevel).bind ?_
  refine (reads_leBytes (by decide)).bind ?_
  refine (reads_expect (by decide)).bind ?_
  refine (reads_itemPtrs hheap).bind ?_
  refine (setItemPtr_fits hblk hoff).reads.bind ?_
  refine (reads_expect (by decide)).bind ?_
  refine (reads_expect hsize).bind ?_
  refine (reads_expect (by omega)).bind ?_
  refine (reads_expect (by decide)).bind ?_
  rw [← hvec]
  exact (reads_vectorBytes width vec).map

theorem neighTuple_reads {elems : List ElemDesc} {e : ElemDesc} {m : ℕ}
    (helems : ∀ t ∈ elems, t.elemBlkno < 2 ^ 32 ∧ t.elemOffno < 2 ^ 16)
    (hcount : (e.level + 2) * m < 2 ^ 16) :
    (readNeighTuple ((e.level + 2) * m) (neighTuple elems e m)).map Prod.fst
      = some (neighborSlots elems e m) := by
  rw [neighTuple]
  refine Reads.run ?_ _
  simp only [List.append_assoc]
  refine (reads_expect (by decide)).bind ?_
  refine (reads_expect (by decide)).bind ?_
  refine (reads_expect hcount).bind ?_
  rw [← neighborSlots_length elems e m]
  exact reads_itemPtrs (neighborSlots_fits e m helems)

end Readers

end PgCuvs
