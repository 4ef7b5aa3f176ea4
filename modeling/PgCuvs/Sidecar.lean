import PgCuvs.Util

/-! The versioned sidecar files of an index and their readers and writers. A
file shorter than its header is a file whose magic does not match. -/

namespace PgCuvs

def tidsMagic : ℕ := 0x53444954
def tidsVersion : ℕ := 1
def tidsMaxVecs : ℕ := 1000000000
def vectorsMagic : ℕ := 0x53434556
def vectorsVersion : ℕ := 1
def vectorsMaxDim : ℕ := 65535
def shardsMagic : ℕ := 0x53524853
def shardsVersion : ℕ := 1
def shardsMax : ℕ := 256
def deltaMagic : ℕ := 0x544c4544
def deltaVersion : ℕ := 1
def tombstoneMagic : ℕ := 0x424D4F54
def tombstoneVersion : ℕ := 1

structure TidsHeader where
  magic : ℕ
  version : ℕ
  nVecs : ℕ
  dim : ℕ
  metric : Metric
  bodyCrc32 : UInt32
  reserved : ℕ
deriving DecidableEq, Repr

structure TidsFile where
  header : TidsHeader
  body : List Tid
deriving DecidableEq, Repr

def cuvsTidsWrite (dim : ℕ) (metric : Metric) (tids : List Tid) : TidsFile where
  header :=
    { magic := tidsMagic, version := tidsVersion, nVecs := tids.length, dim, metric
      bodyCrc32 := cuvsCrc32 (tidBytes tids), reserved := 0 }
  body := tids

def cuvsTidsRead (f : TidsFile) : Option (TidsHeader × List Tid) :=
  let hdr := f.header
  if hdr.magic ≠ tidsMagic then none
  else if hdr.version ≠ tidsVersion then none
  else if hdr.nVecs = 0 ∨ tidsMaxVecs < hdr.nVecs then none
  else if hdr.reserved ≠ 0 then none
  else if f.body.length < hdr.nVecs then none
  else if cuvsCrc32 (tidBytes (f.body.take hdr.nVecs)) ≠ hdr.bodyCrc32 then none
  else some (hdr, f.body.take hdr.nVecs)

theorem cuvsTidsRead_write {dim : ℕ} {metric : Metric} {tids : List Tid}
    (hpos : tids ≠ []) (hmax : tids.length ≤ tidsMaxVecs) :
    cuvsTidsRead (cuvsTidsWrite dim metric tids)
      = some ((cuvsTidsWrite dim metric tids).header, tids) := by
  have hlen : tids.length ≠ 0 := by simpa using hpos
  simp [cuvsTidsRead, cuvsTidsWrite, hlen, Nat.not_lt.mpr hmax]

theorem cuvsTidsRead_eq_some {f : TidsFile} {hdr : TidsHeader} {tids : List Tid}
    (h : cuvsTidsRead f = some (hdr, tids)) :
    hdr = f.header ∧ tids = f.body.take hdr.nVecs ∧ tids.length = hdr.nVecs ∧ 0 < hdr.nVecs ∧
      hdr.magic = tidsMagic ∧ hdr.version = tidsVersion ∧
      hdr.bodyCrc32 = cuvsCrc32 (tidBytes tids) := by
  simp only [cuvsTidsRead, Option.ite_none_left_eq_some, Option.some.injEq, Prod.mk.injEq,
    not_or, not_lt, ne_eq, not_not] at h
  obtain ⟨hmagic, hversion, ⟨hpos, -⟩, -, hbody, hcrc, rfl, rfl⟩ := h
  exact ⟨rfl, rfl, by simpa using hbody, by omega, hmagic, hversion, hcrc.symm⟩

structure VectorsHeader where
  magic : ℕ
  version : ℕ
  nVecs : ℕ
  dim : ℕ
  metric : Metric
  bodyCrc32 : UInt32
  /-- `.tids` checksum of the build the vectors belong to. -/
  baseTidsCrc32 : UInt32
  reserved : ℕ
deriving DecidableEq, Repr

structure VectorsFile where
  header : VectorsHeader
  body : List Vec
deriving DecidableEq, Repr

def cuvsVectorsWrite (dim : ℕ) (metric : Metric) (baseTidsCrc32 : UInt32) (vecs : List Vec) :
    VectorsFile where
  header :=
    { magic := vectorsMagic, version := vectorsVersion, nVecs := vecs.length, dim, metric
      bodyCrc32 := cuvsCrc32 (vecBytes vecs), baseTidsCrc32, reserved := 0 }
  body := vecs

def cuvsVectorsWriteMulti (dim : ℕ) (metric : Metric) (baseTidsCrc32 : UInt32)
    (partVecs : List (List Vec)) : VectorsFile :=
  cuvsVectorsWrite dim metric baseTidsCrc32 partVecs.flatten

def cuvsVectorsRead (f : VectorsFile) : Option (VectorsHeader × List Vec) :=
  let hdr := f.header
  if hdr.magic ≠ vectorsMagic then none
  else if hdr.version ≠ vectorsVersion then none
  else if hdr.nVecs = 0 ∨ tidsMaxVecs < hdr.nVecs then none
  else if hdr.dim = 0 ∨ vectorsMaxDim < hdr.dim then none
  else if hdr.reserved ≠ 0 then none
  else if f.body.length < hdr.nVecs then none
  else if cuvsCrc32 (vecBytes (f.body.take hdr.nVecs)) ≠ hdr.bodyCrc32 then none
  else some (hdr, f.body.take hdr.nVecs)

theorem cuvsVectorsRead_write {dim : ℕ} {metric : Metric} {crc : UInt32} {vecs : List Vec}
    (hpos : vecs ≠ []) (hmax : vecs.length ≤ tidsMaxVecs)
    (hdim : dim ≠ 0) (hdimMax : dim ≤ vectorsMaxDim) :
    cuvsVectorsRead (cuvsVectorsWrite dim metric crc vecs)
      = some ((cuvsVectorsWrite dim metric crc vecs).header, vecs) := by
  have hlen : vecs.length ≠ 0 := by simpa using hpos
  simp [cuvsVectorsRead, cuvsVectorsWrite, hlen, Nat.not_lt.mpr hmax, hdim, Nat.not_lt.mpr hdimMax]

structure ShardRecord where
  shardId : ℕ
  gpuDeviceId : ℕ
  tidOffset : ℕ
  nVecs : ℕ
  dim : ℕ
  metric : Metric
  artifactCrc32 : UInt32
  reserved : ℕ
deriving DecidableEq, Repr

structure ShardsHeader where
  magic : ℕ
  version : ℕ
  shardCount : ℕ
  baseTidsCrc32 : UInt32
  nVecs : ℕ
  dim : ℕ
  metric : Metric
  bodyCrc32 : UInt32
  reserved : ℕ
deriving DecidableEq, Repr

/-- The `.shards` manifest, the commit marker of a sharded build. -/
structure ShardsFile where
  header : ShardsHeader
  body : List ShardRecord
deriving DecidableEq, Repr

def Metric.code : Metric → ℕ
  | .l2 => 0
  | .cosine => 1
  | .ip => 2
  | .other code => code

def ShardRecord.bytes (r : ShardRecord) : List UInt8 :=
  leBytes 4 r.shardId ++ leBytes 4 r.gpuDeviceId ++ leBytes 8 r.tidOffset ++ leBytes 8 r.nVecs
    ++ leBytes 4 r.dim ++ leBytes 4 r.metric.code ++ leBytes 4 r.artifactCrc32.toNat
    ++ leBytes 4 r.reserved

def shardRecordBytes (recs : List ShardRecord) : List UInt8 := recs.flatMap ShardRecord.bytes

def cuvsShardsWrite (nVecs dim : ℕ) (metric : Metric) (baseTidsCrc32 : UInt32)
    (recs : List ShardRecord) : ShardsFile where
  header :=
    { magic := shardsMagic, version := shardsVersion, shardCount := recs.length, baseTidsCrc32
      nVecs, dim, metric, bodyCrc32 := cuvsCrc32 (shardRecordBytes recs), reserved := 0 }
  body := recs

/-- The records cover `[sumN, nVecs)` without a gap, in shard order from `i`. -/
def shardRecordsCover (hdr : ShardsHeader) (i sumN : ℕ) : List ShardRecord → Bool
  | [] => sumN == hdr.nVecs
  | r :: rs =>
    r.reserved == 0 && r.shardId == i && r.tidOffset == sumN
      && (decide (0 < r.nVecs) && decide (r.nVecs ≤ tidsMaxVecs))
      && (r.dim == hdr.dim && r.metric == hdr.metric)
      && shardRecordsCover hdr (i + 1) (sumN + r.nVecs) rs

def cuvsShardsRead (f : ShardsFile) : Option (ShardsHeader × List ShardRecord) :=
  let hdr := f.header
  let recs := f.body.take hdr.shardCount
  if hdr.magic ≠ shardsMagic then none
  else if hdr.version ≠ shardsVersion then none
  else if hdr.reserved ≠ 0 then none
  else if hdr.shardCount = 0 ∨ shardsMax < hdr.shardCount then none
  else if hdr.nVecs = 0 ∨ tidsMaxVecs < hdr.nVecs then none
  else if hdr.dim = 0 then none
  else if f.body.length < hdr.shardCount then none
  else if cuvsCrc32 (shardRecordBytes recs) ≠ hdr.bodyCrc32 then none
  else if !shardRecordsCover hdr 0 0 recs then none
  else some (hdr, recs)

theorem cuvsShardsRead_eq_some {f : ShardsFile} {hdr : ShardsHeader} {recs : List ShardRecord}
    (h : cuvsShardsRead f = some (hdr, recs)) :
    hdr = f.header ∧ recs = f.body.take hdr.shardCount ∧ recs.length = hdr.shardCount ∧
      0 < hdr.shardCount ∧ shardRecordsCover hdr 0 0 recs := by
  simp only [cuvsShardsRead, Option.ite_none_left_eq_some, Option.some.injEq, Prod.mk.injEq,
    not_or, not_lt, ne_eq, not_not, Bool.not_eq_true', Bool.not_eq_false] at h
  obtain ⟨-, -, -, ⟨hpos, -⟩, -, -, hbody, -, hcover, rfl, rfl⟩ := h
  exact ⟨rfl, rfl, by simpa using hbody, by omega, hcover⟩

structure DeltaHeader where
  magic : ℕ
  version : ℕ
  nRows : ℕ
  dim : ℕ
  metric : Metric
  baseTidsCrc32 : UInt32
  reserved : ℕ
deriving DecidableEq, Repr

structure DeltaRecord where
  tid : Tid
  vec : Vec
deriving DecidableEq, Repr

/-- The `.delta` sidecar. `header = none` is the empty file that `O_CREAT`
leaves behind; `tail` counts the bytes of a torn append after the records. -/
structure DeltaFile where
  header : Option DeltaHeader
  body : List DeltaRecord
  tail : ℕ
deriving DecidableEq, Repr

def cuvsDeltaRecordBytes (dim : ℕ) : ℕ := 8 + dim * 4

def DeltaRecord.size (r : DeltaRecord) : ℕ := cuvsDeltaRecordBytes r.vec.length

def DeltaFile.bodyBytes (f : DeltaFile) : ℕ := (f.body.map DeltaRecord.size).sum + f.tail

def cuvsDeltaHeaderInit (dim : ℕ) (metric : Metric) (baseTidsCrc32 : UInt32) : DeltaHeader where
  magic := deltaMagic
  version := deltaVersion
  nRows := 0
  dim := dim
  metric := metric
  baseTidsCrc32 := baseTidsCrc32
  reserved := 0

def cuvsDeltaValidate (h : DeltaHeader) (bodyBytes : ℕ) : Bool :=
  h.magic == deltaMagic && h.version == deltaVersion && h.reserved == 0 && h.dim != 0
    && decide (h.nRows ≤ tidsMaxVecs) && bodyBytes == h.nRows * cuvsDeltaRecordBytes h.dim

def cuvsDeltaReadHeader (f : DeltaFile) : Option DeltaHeader :=
  f.header.filter fun h => h.magic == deltaMagic && h.version == deltaVersion && h.reserved == 0

structure TombstoneHeader where
  magic : ℕ
  version : ℕ
  nEntries : ℕ
  baseTidsCrc32 : UInt32
  reserved : ℕ
deriving DecidableEq, Repr

structure TombstoneRecord where
  tid : Tid
  deleteXid : ℕ
deriving DecidableEq, Repr

structure TombstoneFile where
  header : Option TombstoneHeader
  body : List TombstoneRecord
  tail : ℕ
deriving DecidableEq, Repr

def tombstoneRecordBytes : ℕ := 16

def TombstoneFile.bodyBytes (f : TombstoneFile) : ℕ :=
  f.body.length * tombstoneRecordBytes + f.tail

def cuvsTombstoneHeaderInit (baseTidsCrc32 : UInt32) : TombstoneHeader where
  magic := tombstoneMagic
  version := tombstoneVersion
  nEntries := 0
  baseTidsCrc32 := baseTidsCrc32
  reserved := 0

def cuvsTombstoneValidate (h : TombstoneHeader) (bodyBytes : ℕ) : Bool :=
  h.magic == tombstoneMagic && h.version == tombstoneVersion && h.reserved == 0
    && decide (h.nEntries ≤ tidsMaxVecs) && bodyBytes == h.nEntries * tombstoneRecordBytes

def cuvsTombstoneReadHeader (f : TombstoneFile) : Option TombstoneHeader :=
  f.header.filter fun h => h.magic == tombstoneMagic && h.version == tombstoneVersion
    && h.reserved == 0

end PgCuvs
