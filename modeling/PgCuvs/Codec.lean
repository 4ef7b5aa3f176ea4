import Mathlib.Algebra.Order.Ring.Int
import Mathlib.Data.Int.Cast.Lemmas
import PgCuvs.Checksum
import PgCuvs.Library.CheckedBody
import PgCuvs.Manifest

/-! The bytes of the `.tids` and `.vectors` sidecars: their writers, the
partitioned writer, and their readers. -/

namespace PgCuvs

open Records CheckedBody

structure CuvsTidsHeader where
  magic : UInt32
  version : UInt32
  nVecs : Int64
  dim : UInt32
  metric : UInt32
  bodyCrc32 : UInt32
  reserved : UInt32
deriving DecidableEq, Repr

structure CuvsVectorsHeader where
  magic : UInt32
  version : UInt32
  nVecs : Int64
  dim : UInt32
  metric : UInt32
  bodyCrc32 : UInt32
  baseTidsCrc32 : UInt32
  reserved : UInt32
  /-- What aligns the structure to eight bytes; the writers clear it. -/
  padding : UInt32
deriving DecidableEq, Repr

def CuvsTidsHeader.bytes (h : CuvsTidsHeader) : List UInt8 :=
  u32Bytes h.magic ++ (u32Bytes h.version ++ (i64Bytes h.nVecs ++ (u32Bytes h.dim ++
    (u32Bytes h.metric ++ (u32Bytes h.bodyCrc32 ++ u32Bytes h.reserved)))))

def CuvsVectorsHeader.bytes (h : CuvsVectorsHeader) : List UInt8 :=
  u32Bytes h.magic ++ (u32Bytes h.version ++ (i64Bytes h.nVecs ++ (u32Bytes h.dim ++
    (u32Bytes h.metric ++ (u32Bytes h.bodyCrc32 ++ (u32Bytes h.baseTidsCrc32 ++
      (u32Bytes h.reserved ++ u32Bytes h.padding)))))))

def readTidsHeader : Reader CuvsTidsHeader := do
  let magic ← readU32
  let version ← readU32
  let nVecs ← readI64
  let dim ← readU32
  let metric ← readU32
  let bodyCrc32 ← readU32
  let reserved ← readU32
  pure { magic, version, nVecs, dim, metric, bodyCrc32, reserved }

def readVectorsHeader : Reader CuvsVectorsHeader := do
  let magic ← readU32
  let version ← readU32
  let nVecs ← readI64
  let dim ← readU32
  let metric ← readU32
  let bodyCrc32 ← readU32
  let baseTidsCrc32 ← readU32
  let reserved ← readU32
  let padding ← readU32
  pure { magic, version, nVecs, dim, metric, bodyCrc32, baseTidsCrc32, reserved, padding }

def tidsBody (tids : List UInt64) : List UInt8 := tids.flatMap u64Bytes

def vectorsBody (vecs : List UInt32) : List UInt8 := vecs.flatMap u32Bytes

/-- `(size_t)n_vecs * (size_t)dim`, for a matrix that fits the address space. -/
def bodyN (nVecs : Int64) (dim : UInt32) : ℕ := nVecs.toUInt64.toNat * dim.toNat

/-! The writers. -/

def tidsHeader (nVecs : Int64) (dim metric : UInt32) (tids : List UInt64) : CuvsTidsHeader where
  magic := UInt32.ofNat tidsMagic
  version := UInt32.ofNat tidsVersion
  nVecs := nVecs
  dim := dim
  metric := metric
  bodyCrc32 := cuvsCrc32 (tidsBody (tids.take nVecs.toUInt64.toNat))
  reserved := 0

def cuvsTidsWriteBytes (nVecs : Int64) (dim metric : UInt32) (tids : List UInt64) : List UInt8 :=
  (tidsHeader nVecs dim metric tids).bytes ++ tidsBody (tids.take nVecs.toUInt64.toNat)

def vectorsHeader (nVecs : Int64) (dim metric bodyCrc32 baseTidsCrc32 : UInt32) :
    CuvsVectorsHeader where
  magic := UInt32.ofNat vectorsMagic
  version := UInt32.ofNat vectorsVersion
  nVecs := nVecs
  dim := dim
  metric := metric
  bodyCrc32 := bodyCrc32
  baseTidsCrc32 := baseTidsCrc32
  reserved := 0
  padding := 0

def cuvsVectorsWriteBytes (nVecs : Int64) (dim metric baseTidsCrc32 : UInt32)
    (vecs : List UInt32) : List UInt8 :=
  let body := vectorsBody (vecs.take (bodyN nVecs dim))
  (vectorsHeader nVecs dim metric (cuvsCrc32 body) baseTidsCrc32).bytes ++ body

/-- `n_each[i]` and `part_vecs[i]`. -/
structure Partition where
  nEach : Int64
  partVecs : List UInt32
deriving DecidableEq, Repr

def Partition.taken (p : Partition) (dim : UInt32) : List UInt32 :=
  p.partVecs.take (bodyN p.nEach dim)

/-- The first loop of `cuvs_vectors_write_multi`: the running checksum and the rows. -/
def sumPartitions (dim : UInt32) (state : UInt32 × Int64) (p : Partition) : UInt32 × Int64 :=
  if p.nEach.toInt ≤ 0 then state
  else (cuvsCrc32StreamUpdate state.1 (vectorsBody (p.taken dim)), state.2 + p.nEach)

def cuvsVectorsWriteMultiBytes (parts : List Partition) (dim metric baseTidsCrc32 : UInt32) :
    List UInt8 :=
  let (crc, total) := parts.foldl (sumPartitions dim) (cuvsCrc32StreamBegin, 0)
  (vectorsHeader total dim metric (cuvsCrc32StreamEnd crc) baseTidsCrc32).bytes ++
    parts.flatMap fun p => if p.nEach.toInt ≤ 0 then [] else vectorsBody (p.taken dim)

/-! The readers. -/

def CuvsTidsHeader.accepts (h : CuvsTidsHeader) : Bool :=
  h.magic == UInt32.ofNat tidsMagic && h.version == UInt32.ofNat tidsVersion
    && !(decide (h.nVecs.toInt ≤ 0) || decide ((tidsMaxVecs : ℤ) < h.nVecs.toInt))
    && h.reserved == 0

def CuvsVectorsHeader.accepts (h : CuvsVectorsHeader) : Bool :=
  h.magic == UInt32.ofNat vectorsMagic && h.version == UInt32.ofNat vectorsVersion
    && !(decide (h.nVecs.toInt ≤ 0) || decide ((tidsMaxVecs : ℤ) < h.nVecs.toInt))
    && !(h.dim == 0 || decide (vectorsMaxDim < h.dim.toNat))
    && h.reserved == 0

section Fields

theorem reads_tidsHeader (h : CuvsTidsHeader) : Reads readTidsHeader h.bytes h := by
  refine (reads_u32 h.magic).bind ?_
  refine (reads_u32 h.version).bind ?_
  refine (reads_i64 h.nVecs).bind ?_
  refine (reads_u32 h.dim).bind ?_
  refine (reads_u32 h.metric).bind ?_
  refine (reads_u32 h.bodyCrc32).bind ?_
  exact (reads_u32 h.reserved).map

theorem reads_vectorsHeader (h : CuvsVectorsHeader) : Reads readVectorsHeader h.bytes h := by
  refine (reads_u32 h.magic).bind ?_
  refine (reads_u32 h.version).bind ?_
  refine (reads_i64 h.nVecs).bind ?_
  refine (reads_u32 h.dim).bind ?_
  refine (reads_u32 h.metric).bind ?_
  refine (reads_u32 h.bodyCrc32).bind ?_
  refine (reads_u32 h.baseTidsCrc32).bind ?_
  refine (reads_u32 h.reserved).bind ?_
  exact (reads_u32 h.padding).map

theorem canonical_tidsHeader : Canonical readTidsHeader CuvsTidsHeader.bytes := by
  intro bytes h rest hread
  obtain ⟨magic, b1, h1, hread⟩ := bind_eq_some hread
  obtain ⟨version, b2, h2, hread⟩ := bind_eq_some hread
  obtain ⟨nVecs, b3, h3, hread⟩ := bind_eq_some hread
  obtain ⟨dim, b4, h4, hread⟩ := bind_eq_some hread
  obtain ⟨metric, b5, h5, hread⟩ := bind_eq_some hread
  obtain ⟨bodyCrc32, b6, h6, hread⟩ := bind_eq_some hread
  obtain ⟨reserved, b7, h7, hread⟩ := bind_eq_some hread
  obtain ⟨rfl, rfl⟩ := Prod.mk.inj (Option.some.inj hread)
  rw [canonical_u32 _ _ _ h1, canonical_u32 _ _ _ h2, canonical_i64 _ _ _ h3,
    canonical_u32 _ _ _ h4, canonical_u32 _ _ _ h5, canonical_u32 _ _ _ h6,
    canonical_u32 _ _ _ h7]
  simp only [CuvsTidsHeader.bytes, List.append_assoc]

theorem canonical_vectorsHeader : Canonical readVectorsHeader CuvsVectorsHeader.bytes := by
  intro bytes h rest hread
  obtain ⟨magic, b1, h1, hread⟩ := bind_eq_some hread
  obtain ⟨version, b2, h2, hread⟩ := bind_eq_some hread
  obtain ⟨nVecs, b3, h3, hread⟩ := bind_eq_some hread
  obtain ⟨dim, b4, h4, hread⟩ := bind_eq_some hread
  obtain ⟨metric, b5, h5, hread⟩ := bind_eq_some hread
  obtain ⟨bodyCrc32, b6, h6, hread⟩ := bind_eq_some hread
  obtain ⟨baseTidsCrc32, b7, h7, hread⟩ := bind_eq_some hread
  obtain ⟨reserved, b8, h8, hread⟩ := bind_eq_some hread
  obtain ⟨padding, b9, h9, hread⟩ := bind_eq_some hread
  obtain ⟨rfl, rfl⟩ := Prod.mk.inj (Option.some.inj hread)
  rw [canonical_u32 _ _ _ h1, canonical_u32 _ _ _ h2, canonical_i64 _ _ _ h3,
    canonical_u32 _ _ _ h4, canonical_u32 _ _ _ h5, canonical_u32 _ _ _ h6,
    canonical_u32 _ _ _ h7, canonical_u32 _ _ _ h8, canonical_u32 _ _ _ h9]
  simp only [CuvsVectorsHeader.bytes, List.append_assoc]

end Fields

def tidsFormat : Format CuvsTidsHeader UInt64 UInt32 where
  headerBytes := CuvsTidsHeader.bytes
  readHeader := readTidsHeader
  accepts := CuvsTidsHeader.accepts
  count := fun h => h.nVecs.toUInt64.toNat
  bodySum := CuvsTidsHeader.bodyCrc32
  itemBytes := u64Bytes
  readItem := readU64
  width := 8
  checksum := cuvsCrc32
  header_reads := reads_tidsHeader
  header_canonical := canonical_tidsHeader
  item_reads := reads_u64
  item_canonical := canonical_u64
  item_length := fun x => leBytes_length 8 x.toNat

def vectorsFormat : Format CuvsVectorsHeader UInt32 UInt32 where
  headerBytes := CuvsVectorsHeader.bytes
  readHeader := readVectorsHeader
  accepts := CuvsVectorsHeader.accepts
  count := fun h => bodyN h.nVecs h.dim
  bodySum := CuvsVectorsHeader.bodyCrc32
  itemBytes := u32Bytes
  readItem := readU32
  width := 4
  checksum := cuvsCrc32
  header_reads := reads_vectorsHeader
  header_canonical := canonical_vectorsHeader
  item_reads := reads_u32
  item_canonical := canonical_u32
  item_length := fun x => leBytes_length 4 x.toNat

def cuvsTidsReadBytes : List UInt8 → Option ((CuvsTidsHeader × List UInt64) × List UInt8) :=
  tidsFormat.read

def cuvsVectorsReadBytes : List UInt8 → Option ((CuvsVectorsHeader × List UInt32) × List UInt8) :=
  vectorsFormat.read

/-! A file is read back when its header was good, and cut short it never is. -/

section Written

theorem toUInt64_toNat {x : Int64} {n : ℕ} (h : (n : ℤ) = x.toInt) : x.toUInt64.toNat = n := by
  have hx : 0 ≤ x := Int64.le_iff_toInt_le.mpr (by rw [← h]; exact Int.natCast_nonneg n)
  rw [Int64.toNat_toUInt64_of_le hx]
  exact (congrArg Int.toNat h).symm

theorem CuvsTidsHeader.accepts_iff {h : CuvsTidsHeader} :
    h.accepts = true ↔ h.magic = UInt32.ofNat tidsMagic ∧ h.version = UInt32.ofNat tidsVersion ∧
      (0 < h.nVecs.toInt ∧ h.nVecs.toInt ≤ tidsMaxVecs) ∧ h.reserved = 0 := by
  simp only [accepts, Bool.and_eq_true, beq_iff_eq, Bool.not_eq_true', Bool.or_eq_false_iff,
    decide_eq_false_iff_not, not_le, not_lt, and_assoc]

theorem CuvsVectorsHeader.accepts_iff {h : CuvsVectorsHeader} :
    h.accepts = true ↔ h.magic = UInt32.ofNat vectorsMagic ∧
      h.version = UInt32.ofNat vectorsVersion ∧
      (0 < h.nVecs.toInt ∧ h.nVecs.toInt ≤ tidsMaxVecs) ∧
      (h.dim ≠ 0 ∧ h.dim.toNat ≤ vectorsMaxDim) ∧ h.reserved = 0 := by
  simp only [accepts, Bool.and_eq_true, beq_iff_eq, Bool.not_eq_true', Bool.or_eq_false_iff,
    decide_eq_false_iff_not, beq_eq_false_iff_ne, not_le, not_lt, and_assoc]

variable {nVecs : Int64} {dim metric baseTidsCrc32 : UInt32} {tids : List UInt64}
  {vecs : List UInt32}

theorem cuvsTidsWriteBytes_eq (hlen : (tids.length : ℤ) = nVecs.toInt) :
    cuvsTidsWriteBytes nVecs dim metric tids
      = tidsFormat.bytes (tidsHeader nVecs dim metric tids) tids := by
  rw [cuvsTidsWriteBytes, toUInt64_toNat hlen, List.take_length]
  rfl

theorem cuvsVectorsWriteBytes_eq (hlen : vecs.length = bodyN nVecs dim) :
    cuvsVectorsWriteBytes nVecs dim metric baseTidsCrc32 vecs = vectorsFormat.bytes
      (vectorsHeader nVecs dim metric (cuvsCrc32 (vectorsBody vecs)) baseTidsCrc32) vecs := by
  rw [cuvsVectorsWriteBytes, ← hlen, List.take_length]
  rfl

theorem cuvsTidsReadBytes_write (hlen : (tids.length : ℤ) = nVecs.toInt) (hpos : 0 < nVecs.toInt)
    (hmax : nVecs.toInt ≤ tidsMaxVecs) (rest : List UInt8) :
    cuvsTidsReadBytes (cuvsTidsWriteBytes nVecs dim metric tids ++ rest)
      = some ((tidsHeader nVecs dim metric tids, tids), rest) := by
  rw [cuvsTidsWriteBytes_eq hlen]
  refine Format.read_bytes ⟨?_, ?_, ?_⟩ rest
  · exact CuvsTidsHeader.accepts_iff.mpr ⟨rfl, rfl, ⟨hpos, hmax⟩, rfl⟩
  · exact (toUInt64_toNat hlen).symm
  · change _ = cuvsCrc32 (tidsBody (tids.take nVecs.toUInt64.toNat))
    rw [toUInt64_toNat hlen, List.take_length]
    rfl

theorem cuvsVectorsReadBytes_write (hlen : vecs.length = bodyN nVecs dim)
    (hpos : 0 < nVecs.toInt) (hmax : nVecs.toInt ≤ tidsMaxVecs) (hdim : dim ≠ 0)
    (hdimMax : dim.toNat ≤ vectorsMaxDim) (rest : List UInt8) :
    cuvsVectorsReadBytes (cuvsVectorsWriteBytes nVecs dim metric baseTidsCrc32 vecs ++ rest)
      = some ((vectorsHeader nVecs dim metric (cuvsCrc32 (vectorsBody vecs)) baseTidsCrc32, vecs),
          rest) := by
  rw [cuvsVectorsWriteBytes_eq hlen]
  refine Format.read_bytes ⟨?_, hlen, rfl⟩ rest
  exact CuvsVectorsHeader.accepts_iff.mpr ⟨rfl, rfl, ⟨hpos, hmax⟩, ⟨hdim, hdimMax⟩, rfl⟩

theorem cuvsTidsReadBytes_prefix (hlen : (tids.length : ℤ) = nVecs.toInt) {front : List UInt8}
    (hfront : front <+: cuvsTidsWriteBytes nVecs dim metric tids)
    (hne : front ≠ cuvsTidsWriteBytes nVecs dim metric tids) : cuvsTidsReadBytes front = none := by
  rw [cuvsTidsWriteBytes_eq hlen] at hfront hne
  exact Format.read_prefix (toUInt64_toNat hlen).symm hfront hne

theorem cuvsVectorsReadBytes_prefix (hlen : vecs.length = bodyN nVecs dim) {front : List UInt8}
    (hfront : front <+: cuvsVectorsWriteBytes nVecs dim metric baseTidsCrc32 vecs)
    (hne : front ≠ cuvsVectorsWriteBytes nVecs dim metric baseTidsCrc32 vecs) :
    cuvsVectorsReadBytes front = none := by
  rw [cuvsVectorsWriteBytes_eq hlen] at hfront hne
  exact Format.read_prefix hlen hfront hne

end Written

/-! The partitioned writer. -/

section Multi

def nonEmptyParts (parts : List Partition) : List Partition :=
  parts.filter fun p => decide (0 < p.nEach.toInt)

def partRows (parts : List Partition) : ℤ := (parts.map fun p => p.nEach.toInt).sum

/-- A matrix in partitions: each that counts has its rows, and all of them lie in memory. -/
structure Partitions (dim : UInt32) where
  parts : List Partition
  rows : ∀ p ∈ nonEmptyParts parts, p.partVecs.length = bodyN p.nEach dim
  inMemory : ((nonEmptyParts parts).flatMap Partition.partVecs).length * 4 < 2 ^ 64

variable {dim : UInt32}

def Partitions.vecs (c : Partitions dim) : List UInt32 :=
  (nonEmptyParts c.parts).flatMap Partition.partVecs

def Partitions.nVecs (c : Partitions dim) : Int64 := Int64.ofInt (partRows (nonEmptyParts c.parts))

theorem vectorsBody_append (a b : List UInt32) :
    vectorsBody (a ++ b) = vectorsBody a ++ vectorsBody b := List.flatMap_append

theorem nonEmptyParts_cons_of_nonpos {p : Partition} (hp : p.nEach.toInt ≤ 0)
    (parts : List Partition) : nonEmptyParts (p :: parts) = nonEmptyParts parts :=
  List.filter_cons_of_neg fun h => not_le.mpr (of_decide_eq_true h) hp

theorem nonEmptyParts_cons_of_pos {p : Partition} (hp : ¬p.nEach.toInt ≤ 0)
    (parts : List Partition) : nonEmptyParts (p :: parts) = p :: nonEmptyParts parts :=
  List.filter_cons_of_pos (decide_eq_true (not_le.mp hp))

theorem partRows_cons (p : Partition) (parts : List Partition) :
    partRows (p :: parts) = p.nEach.toInt + partRows parts := by
  rw [partRows, partRows, List.map_cons, List.sum_cons]

theorem foldl_sumPartitions (parts : List Partition) (crc : UInt32) (total : Int64) :
    parts.foldl (sumPartitions dim) (crc, total) =
      (cuvsCrc32StreamUpdate crc
          (vectorsBody ((nonEmptyParts parts).flatMap fun p => p.taken dim)),
        total + Int64.ofInt (partRows (nonEmptyParts parts))) := by
  induction parts generalizing crc total with
  | nil => exact congrArg (Prod.mk crc) (Int64.add_zero total).symm
  | cons p parts ih =>
    rw [List.foldl_cons, sumPartitions]
    by_cases hp : p.nEach.toInt ≤ 0
    · rw [if_pos hp, nonEmptyParts_cons_of_nonpos hp]
      exact ih crc total
    · rw [if_neg hp, nonEmptyParts_cons_of_pos hp, ih, List.flatMap_cons, vectorsBody_append,
        cuvsCrc32StreamUpdate_append, partRows_cons, Int64.ofInt_add, Int64.ofInt_toInt,
        ← Int64.add_assoc]

theorem flatMap_partitions (parts : List Partition) :
    (parts.flatMap fun p => if p.nEach.toInt ≤ 0 then [] else vectorsBody (p.taken dim))
      = vectorsBody ((nonEmptyParts parts).flatMap fun p => p.taken dim) := by
  induction parts with
  | nil => rfl
  | cons p parts ih =>
    rw [List.flatMap_cons, ih]
    by_cases hp : p.nEach.toInt ≤ 0
    · rw [if_pos hp, nonEmptyParts_cons_of_nonpos hp, List.nil_append]
    · rw [if_neg hp, nonEmptyParts_cons_of_pos hp, List.flatMap_cons, vectorsBody_append]

namespace Partitions

variable (c : Partitions dim)

theorem flatMap_taken :
    ((nonEmptyParts c.parts).flatMap fun p => p.taken dim) = c.vecs := by
  apply List.flatMap_congr
  intro p hp
  exact List.take_of_length_le (c.rows p hp).le

theorem length_vecs : (c.vecs.length : ℤ) = partRows (nonEmptyParts c.parts) * dim.toNat := by
  have hrows := c.rows
  have hpos : ∀ p ∈ nonEmptyParts c.parts, 0 < p.nEach.toInt := fun p hp =>
    of_decide_eq_true (List.mem_filter.mp hp).2
  rw [vecs]
  generalize nonEmptyParts c.parts = parts at hrows hpos
  induction parts with
  | nil => exact (Int.zero_mul _).symm
  | cons p parts ih =>
    have hp := hpos p List.mem_cons_self
    have hone : bodyN p.nEach dim = p.nEach.toInt.toNat * dim.toNat := by
      rw [bodyN, toUInt64_toNat (Int.toNat_of_nonneg hp.le)]
    have hrest := ih (fun q hq => hrows q (List.mem_cons_of_mem p hq))
      fun q hq => hpos q (List.mem_cons_of_mem p hq)
    rw [List.flatMap_cons, List.length_append, Nat.cast_add, hrest,
      hrows p List.mem_cons_self, hone, partRows_cons, Nat.cast_mul, Int.toNat_of_nonneg hp.le, Int.add_mul]

theorem bodyN_nVecs : bodyN c.nVecs dim = c.vecs.length := by
  have hlen := c.length_vecs
  have hmem := c.inMemory
  rcases Nat.eq_zero_or_pos dim.toNat with hdim | hdim
  · rw [hdim, Nat.cast_zero, Int.mul_zero] at hlen
    rw [bodyN, hdim, Nat.mul_zero]
    omega
  · have hnonneg : 0 ≤ partRows (nonEmptyParts c.parts) := by
      by_contra hneg
      have := Int.mul_neg_of_neg_of_pos (not_le.mp hneg) (Int.natCast_pos.mpr hdim)
      omega
    have hle : partRows (nonEmptyParts c.parts) ≤ c.vecs.length := by
      rw [hlen]
      exact le_mul_of_one_le_right hnonneg (by exact_mod_cast hdim)
    have hsmall : (c.vecs.length : ℤ) * 4 < 2 ^ 64 := by exact_mod_cast hmem
    have hcount : c.nVecs.toUInt64.toNat = (partRows (nonEmptyParts c.parts)).toNat := by
      apply toUInt64_toNat
      rw [Int.toNat_of_nonneg hnonneg, nVecs, Int64.toInt_ofInt_of_le (by omega) (by omega)]
    apply Int.ofNat_inj.mp
    rw [bodyN, hcount, Nat.cast_mul, Int.toNat_of_nonneg hnonneg, hlen]

theorem cuvsVectorsWriteMultiBytes_eq (metric baseTidsCrc32 : UInt32) :
    cuvsVectorsWriteMultiBytes c.parts dim metric baseTidsCrc32
      = cuvsVectorsWriteBytes c.nVecs dim metric baseTidsCrc32 c.vecs := by
  rw [cuvsVectorsWriteMultiBytes, foldl_sumPartitions, flatMap_partitions, c.flatMap_taken,
    cuvsVectorsWriteBytes, c.bodyN_nVecs, List.take_length, Int64.zero_add]
  rfl

end Partitions

end Multi

/-! The sidecars as the daemon's loads see them. -/

section Decoded

def CuvsTidsHeader.decoded (h : CuvsTidsHeader) : TidsHeader where
  magic := h.magic.toNat
  version := h.version.toNat
  nVecs := h.nVecs.toInt.toNat
  dim := h.dim.toNat
  metric := .ofCode h.metric.toNat
  bodyCrc32 := h.bodyCrc32
  reserved := h.reserved.toNat

def CuvsVectorsHeader.decoded (h : CuvsVectorsHeader) : VectorsHeader where
  magic := h.magic.toNat
  version := h.version.toNat
  nVecs := h.nVecs.toInt.toNat
  dim := h.dim.toNat
  metric := .ofCode h.metric.toNat
  bodyCrc32 := h.bodyCrc32
  baseTidsCrc32 := h.baseTidsCrc32
  reserved := h.reserved.toNat

theorem tidBytes_map_toNat (tids : List UInt64) :
    tidBytes (tids.map UInt64.toNat) = tidsBody tids := by
  rw [tidBytes, List.flatMap_map]
  rfl

theorem cuvsTidsRead_decoded {bytes rest : List UInt8} {hdr : CuvsTidsHeader} {tids : List UInt64}
    (h : cuvsTidsReadBytes bytes = some ((hdr, tids), rest)) :
    cuvsTidsRead ⟨hdr.decoded, tids.map UInt64.toNat⟩
      = some (hdr.decoded, tids.map UInt64.toNat) := by
  obtain ⟨⟨haccepts, hcount, hsum⟩, -⟩ := Format.read_eq_some.mp h
  obtain ⟨hmagic, hversion, ⟨hpos, hmax⟩, hreserved⟩ := CuvsTidsHeader.accepts_iff.mp haccepts
  have hn : hdr.nVecs.toInt.toNat = tids.length :=
    (toUInt64_toNat (Int.toNat_of_nonneg hpos.le)).symm.trans hcount.symm
  have hmagic' : hdr.decoded.magic = tidsMagic := congrArg UInt32.toNat hmagic
  have hversion' : hdr.decoded.version = tidsVersion := congrArg UInt32.toNat hversion
  have hreserved' : hdr.decoded.reserved = 0 := congrArg UInt32.toNat hreserved
  have hn' : hdr.decoded.nVecs = (tids.map UInt64.toNat).length := by
    rw [List.length_map]
    exact hn
  have hsize : ¬(hdr.decoded.nVecs = 0 ∨ tidsMaxVecs < hdr.decoded.nVecs) := by
    change ¬(hdr.nVecs.toInt.toNat = 0 ∨ tidsMaxVecs < hdr.nVecs.toInt.toNat)
    omega
  rw [hn'] at hsize
  have hcrc : cuvsCrc32 (tidBytes (tids.map UInt64.toNat)) = hdr.decoded.bodyCrc32 := by
    rw [tidBytes_map_toNat]
    exact hsum
  simp only [cuvsTidsRead, hmagic', hversion', hreserved', hsize, hn', hcrc, List.take_length,
    lt_irrefl, ne_eq, not_true_eq_false, if_false]

theorem cuvsVectorsRead_decoded {bytes rest : List UInt8} {hdr : CuvsVectorsHeader}
    {rows : List Vec} (hrows : ∀ row ∈ rows, row.length = hdr.dim.toNat)
    (h : cuvsVectorsReadBytes bytes = some ((hdr, rows.flatten), rest)) :
    cuvsVectorsRead ⟨hdr.decoded, rows⟩ = some (hdr.decoded, rows) := by
  obtain ⟨⟨haccepts, hcount, hsum⟩, -⟩ := Format.read_eq_some.mp h
  obtain ⟨hmagic, hversion, ⟨hpos, hmax⟩, ⟨hdim, hdimMax⟩, hreserved⟩ :=
    CuvsVectorsHeader.accepts_iff.mp haccepts
  have hdimPos : 0 < hdr.dim.toNat :=
    Nat.pos_of_ne_zero fun h0 => hdim (UInt32.toNat_inj.mp h0)
  have hn : hdr.nVecs.toInt.toNat = rows.length := by
    have hflat : (rows.flatMap id).length = rows.length * hdr.dim.toNat :=
      length_flatMap_width hrows
    rw [List.flatMap_id, hcount] at hflat
    have hword := toUInt64_toNat (Int.toNat_of_nonneg hpos.le)
    rw [← hword]
    exact Nat.eq_of_mul_eq_mul_right hdimPos hflat
  have hmagic' : hdr.decoded.magic = vectorsMagic := congrArg UInt32.toNat hmagic
  have hversion' : hdr.decoded.version = vectorsVersion := congrArg UInt32.toNat hversion
  have hreserved' : hdr.decoded.reserved = 0 := congrArg UInt32.toNat hreserved
  have hn' : hdr.decoded.nVecs = rows.length := hn
  have hsize : ¬(hdr.decoded.nVecs = 0 ∨ tidsMaxVecs < hdr.decoded.nVecs) := by
    change ¬(hdr.nVecs.toInt.toNat = 0 ∨ tidsMaxVecs < hdr.nVecs.toInt.toNat)
    omega
  rw [hn'] at hsize
  have hwidth : ¬(hdr.decoded.dim = 0 ∨ vectorsMaxDim < hdr.decoded.dim) := by
    change ¬(hdr.dim.toNat = 0 ∨ vectorsMaxDim < hdr.dim.toNat)
    omega
  have hcrc : cuvsCrc32 (vecBytes rows) = hdr.decoded.bodyCrc32 := hsum
  simp only [cuvsVectorsRead, hmagic', hversion', hreserved', hsize, hwidth, hn', hcrc,
    List.take_length, lt_irrefl, ne_eq, not_true_eq_false, if_false]

end Decoded

/-- What is written is read back, what is read is what its header says, a file
cut short is not read, and partitions are written as their concatenation. -/
theorem cuvsSidecarBytes_codec :
    (∀ (nVecs : Int64) (dim metric : UInt32) (tids : List UInt64) (rest : List UInt8),
      (tids.length : ℤ) = nVecs.toInt → 0 < nVecs.toInt → nVecs.toInt ≤ tidsMaxVecs →
        cuvsTidsReadBytes (cuvsTidsWriteBytes nVecs dim metric tids ++ rest)
          = some ((tidsHeader nVecs dim metric tids, tids), rest)) ∧
    (∀ (nVecs : Int64) (dim metric baseTidsCrc32 : UInt32) (vecs : List UInt32)
        (rest : List UInt8),
      vecs.length = bodyN nVecs dim → 0 < nVecs.toInt → nVecs.toInt ≤ tidsMaxVecs →
      1 ≤ dim.toNat → dim.toNat ≤ vectorsMaxDim →
        cuvsVectorsReadBytes (cuvsVectorsWriteBytes nVecs dim metric baseTidsCrc32 vecs ++ rest)
          = some ((vectorsHeader nVecs dim metric (cuvsCrc32 (vectorsBody vecs)) baseTidsCrc32,
              vecs), rest)) ∧
    (∀ (bytes rest : List UInt8) (hdr : CuvsTidsHeader) (tids : List UInt64),
      cuvsTidsReadBytes bytes = some ((hdr, tids), rest) →
        bytes = hdr.bytes ++ (tidsBody tids ++ rest) ∧ (tids.length : ℤ) = hdr.nVecs.toInt ∧
        cuvsCrc32 (tidsBody tids) = hdr.bodyCrc32) ∧
    (∀ (bytes rest : List UInt8) (hdr : CuvsVectorsHeader) (vecs : List UInt32),
      cuvsVectorsReadBytes bytes = some ((hdr, vecs), rest) →
        bytes = hdr.bytes ++ (vectorsBody vecs ++ rest) ∧
        (vecs.length : ℤ) = hdr.nVecs.toInt * hdr.dim.toNat ∧
        cuvsCrc32 (vectorsBody vecs) = hdr.bodyCrc32) ∧
    (∀ (nVecs : Int64) (dim metric : UInt32) (tids : List UInt64) (front : List UInt8),
      (tids.length : ℤ) = nVecs.toInt → front <+: cuvsTidsWriteBytes nVecs dim metric tids →
      front ≠ cuvsTidsWriteBytes nVecs dim metric tids → cuvsTidsReadBytes front = none) ∧
    (∀ (nVecs : Int64) (dim metric baseTidsCrc32 : UInt32) (vecs : List UInt32)
        (front : List UInt8),
      vecs.length = bodyN nVecs dim →
      front <+: cuvsVectorsWriteBytes nVecs dim metric baseTidsCrc32 vecs →
      front ≠ cuvsVectorsWriteBytes nVecs dim metric baseTidsCrc32 vecs →
        cuvsVectorsReadBytes front = none) ∧
    ∀ (dim metric baseTidsCrc32 : UInt32) (c : Partitions dim),
      c.vecs.length = bodyN c.nVecs dim ∧
      cuvsVectorsWriteMultiBytes c.parts dim metric baseTidsCrc32
        = cuvsVectorsWriteBytes c.nVecs dim metric baseTidsCrc32 c.vecs := by
  refine ⟨fun _ _ _ _ rest hlen hpos hmax => cuvsTidsReadBytes_write hlen hpos hmax rest,
    ?_, ?_, ?_, fun _ _ _ _ _ hlen => cuvsTidsReadBytes_prefix hlen,
    fun _ _ _ _ _ _ hlen => cuvsVectorsReadBytes_prefix hlen,
    fun _ metric crc c => ⟨c.bodyN_nVecs.symm, c.cuvsVectorsWriteMultiBytes_eq metric crc⟩⟩
  · intro nVecs dim metric baseTidsCrc32 vecs rest hlen hpos hmax hdim hdimMax
    have hdim0 : dim ≠ 0 := by
      rintro rfl
      exact absurd hdim (by decide)
    exact cuvsVectorsReadBytes_write hlen hpos hmax hdim0 hdimMax rest
  · intro bytes rest hdr tids h
    obtain ⟨⟨haccepts, hcount, hsum⟩, hbytes⟩ := Format.read_eq_some.mp h
    obtain ⟨-, -, ⟨hpos, -⟩, -⟩ := CuvsTidsHeader.accepts_iff.mp haccepts
    have hn : tids.length = hdr.nVecs.toInt.toNat :=
      hcount.trans (toUInt64_toNat (Int.toNat_of_nonneg hpos.le))
    refine ⟨?_, ?_, hsum⟩
    · rw [hbytes, Format.bytes, List.append_assoc]
      rfl
    · rw [hn, Int.toNat_of_nonneg hpos.le]
  · intro bytes rest hdr vecs h
    obtain ⟨⟨haccepts, hcount, hsum⟩, hbytes⟩ := Format.read_eq_some.mp h
    obtain ⟨-, -, ⟨hpos, -⟩, -⟩ := CuvsVectorsHeader.accepts_iff.mp haccepts
    have hn : vecs.length = hdr.nVecs.toInt.toNat * hdr.dim.toNat := by
      rw [← toUInt64_toNat (Int.toNat_of_nonneg hpos.le)]
      exact hcount
    refine ⟨?_, ?_, hsum⟩
    · rw [hbytes, Format.bytes, List.append_assoc]
      rfl
    · rw [hn, Nat.cast_mul, Int.toNat_of_nonneg hpos.le]

def samplePartitions : Partitions 2 where
  parts := [⟨1, [5, 6]⟩, ⟨0, []⟩, ⟨-3, [9]⟩, ⟨2, [1, 2, 3, 4]⟩]
  rows := by decide
  inMemory := by decide

theorem cuvsSidecarBytes_sample :
    cuvsTidsReadBytes (cuvsTidsWriteBytes 2 4 0 [7, 300] ++ [1])
        = some ((tidsHeader 2 4 0 [7, 300], [7, 300]), [1]) ∧
      cuvsVectorsReadBytes (cuvsVectorsWriteBytes 3 2 0 11 [5, 6, 1, 2, 3, 4] ++ [])
        = some ((vectorsHeader 3 2 0 (cuvsCrc32 (vectorsBody [5, 6, 1, 2, 3, 4])) 11,
            [5, 6, 1, 2, 3, 4]), []) ∧
      cuvsCrc32 (tidsBody [7, 300]) = (tidsHeader 2 4 0 [7, 300]).bodyCrc32 ∧
      cuvsTidsReadBytes ((cuvsTidsWriteBytes 2 4 0 [7, 300]).take 47) = none ∧
      cuvsVectorsReadBytes ((cuvsVectorsWriteBytes 1 2 0 11 [5, 6]).take 47) = none ∧
      cuvsVectorsWriteMultiBytes samplePartitions.parts 2 0 11
        = cuvsVectorsWriteBytes 3 2 0 11 [5, 6, 1, 2, 3, 4] := by
  obtain ⟨htids, hvectors, haccepted, -, htidsCut, hvectorsCut, hmulti⟩ := cuvsSidecarBytes_codec
  have hread := htids 2 4 0 [7, 300] [1] (by decide) (by decide) (by decide)
  refine ⟨hread, hvectors 3 2 0 11 [5, 6, 1, 2, 3, 4] [] (by decide) (by decide) (by decide)
    (by decide) (by decide), (haccepted _ _ _ _ hread).2.2, ?_, ?_, (hmulti 2 0 11 _).2⟩
  · exact htidsCut 2 4 0 [7, 300] _ (by decide) (List.take_prefix 47 _) (by decide +kernel)
  · exact hvectorsCut 1 2 0 11 [5, 6] _ (by decide) (List.take_prefix 47 _) (by decide +kernel)

/-- The checksum of the chunks is that of the whole, bit by bit; strings that
differ within 32 bits differ in it, and a `.tids` body so damaged is not read. -/
theorem cuvsCrc32_ieee :
    (∀ chunks : List (List UInt8),
      cuvsCrc32StreamEnd (chunks.foldl cuvsCrc32StreamUpdate cuvsCrc32StreamBegin)
          = cuvsCrc32 chunks.flatten ∧
        (cuvsCrc32 chunks.flatten).toBitVec = ieeeCrc32 chunks.flatten) ∧
    (∀ (a b : List UInt8) (p : ℕ), a.length = b.length → a ≠ b → DifferWithin 32 p a b →
      cuvsCrc32 a ≠ cuvsCrc32 b) ∧
    ∀ (hdr : CuvsTidsHeader) (tids : List UInt64) (damaged rest : List UInt8) (p : ℕ),
      cuvsTidsReadBytes (hdr.bytes ++ (tidsBody tids ++ rest)) = some ((hdr, tids), rest) →
      damaged.length = (tidsBody tids).length → damaged ≠ tidsBody tids →
      DifferWithin 32 p damaged (tidsBody tids) →
        cuvsTidsReadBytes (hdr.bytes ++ (damaged ++ rest)) = none := by
  refine ⟨fun chunks => ⟨cuvsCrc32_chunks chunks, cuvsCrc32_toBitVec chunks.flatten⟩,
    fun a b p hlen hne hdiff heq => hne (cuvsCrc32_burst hlen hdiff heq), ?_⟩
  intro hdr tids damaged rest p hread hlen hne hdiff
  obtain ⟨⟨-, hcount, hsum⟩, -⟩ := Format.read_eq_some.mp hread
  have hwidth : damaged.length = hdr.nVecs.toUInt64.toNat * 8 := by
    rw [hlen]
    exact (tidsFormat.bodyBytes_length tids).trans (congrArg (· * 8) hcount)
  refine Format.read_damaged hwidth ?_ rest
  intro heq
  exact hne (cuvsCrc32_burst hlen hdiff (heq.trans hsum.symm))

theorem cuvsCrc32_ieee_sample :
    cuvsCrc32 [1, 2, 3] ≠ cuvsCrc32 [1, 2, 2] ∧
      cuvsTidsReadBytes ((tidsHeader 1 4 0 [7]).bytes ++ (tidsBody [6] ++ [])) = none := by
  obtain ⟨-, hdiffer, hdamaged⟩ := cuvsCrc32_ieee
  constructor
  · exact hdiffer [1, 2, 3] [1, 2, 2] 16 rfl (by decide)
      (@differWithin_of_bytes 32 [1, 2] [3] [2] [] rfl (by decide))
  · have hread : cuvsTidsReadBytes ((tidsHeader 1 4 0 [7]).bytes ++ (tidsBody [7] ++ []))
        = some ((tidsHeader 1 4 0 [7], [7]), []) := by decide +kernel
    exact hdamaged _ [7] (tidsBody [6]) [] 0 hread rfl (by decide)
      (@differWithin_of_bytes 32 [] [6] [7] (List.replicate 7 0) rfl (by decide))

end PgCuvs
