import PgCuvs.Backend.Gates
import PgCuvs.Search.Frame

/-! The search step of an index scan: over-fetch, merge of the pending delta
rows and removal of tombstoned TIDs. -/

namespace PgCuvs

variable {D : Type}

inductive ScanError where
  | canceled
  | metricMismatch
  | dimMismatch
  | protoMismatch
  | unavailable
  | vramExhausted
  | notLoaded
  | noVectors
  | searchFailed (status : Status)
  | deltaUnusable
  | tombstoneSlack
  | kOutOfRange
deriving DecidableEq, Repr

structure Snapshot where
  didCommit : ℕ → Bool
  inSnapshot : ℕ → Bool

/-- The delete of record `r` committed and is visible to the snapshot. -/
def Snapshot.deleted (snap : Snapshot) (r : TombstoneRecord) : Bool :=
  let xid := r.deleteXid % 2 ^ 32
  snap.didCommit xid && !snap.inSnapshot xid

def searchFrame (g : Guc) (key : Key) (dim : ℕ) (metric : Metric) (k : ℕ) : SearchFrame where
  key := key
  k := k
  metric := metric
  dim := dim
  nVecs := 0
  shardOverfetch := g.shardOverfetch
  parallelFanout := g.parallelFanout
  useCpuHnsw := g.cpuHnswFallback
  searchMode := g.searchMode
  bfPrecision := g.bfPrecision
  bfBatchWaitUs := g.bfBatchWaitUs
  cagraBatchWaitUs := g.cagraBatchWaitUs
  nFilterTids := 0
  usePrefilter := false
  itopkSize := g.itopkSize
  searchWidth := g.searchWidth

/-- The frame of a whitelisted search: brute force, never batched. -/
def filteredFrame (g : Guc) (key : Key) (dim : ℕ) (metric : Metric) (k nFilter : ℕ)
    (usePrefilter : Bool) : SearchFrame where
  key := key
  k := k
  metric := metric
  dim := dim
  nVecs := max g.streamBfChunkVectors 1
  shardOverfetch := 0
  parallelFanout := false
  useCpuHnsw := false
  searchMode := 1
  bfPrecision := g.bfPrecision
  bfBatchWaitUs := 0
  cagraBatchWaitUs := 0
  nFilterTids := nFilter
  usePrefilter := decide (0 < nFilter) && usePrefilter
  itopkSize := g.itopkSize
  searchWidth := g.searchWidth

section Comparator

variable [LT D] [DecidableLT D]

def cuvsCandCmp (metric : Metric) : CuvsResult D → CuvsResult D → ℤ := candCmp metric

/-- The `.delta` rows a scan merges, or the reason it gives up. -/
def deltaRowsForScan (g : Guc) (a : Artifacts) (dim : ℕ) : Except ScanError (List DeltaRecord) :=
  match a.delta with
  | none => .ok []
  | some f =>
    match f.content.header with
    | none => .error .deltaUnusable
    | some hdr =>
      if hdr.magic ≠ deltaMagic ∨ hdr.version ≠ deltaVersion ∨ hdr.dim ≠ dim
          ∨ cuvsDeltaValidate hdr f.content.bodyBytes = false
          ∨ g.maxDeltaRows < hdr.nRows
          ∨ cuvsReadTidsCrc a ≠ some hdr.baseTidsCrc32 then
        .error .deltaUnusable
      else .ok (f.content.body.take hdr.nRows)

def cuvsMergeDelta (g : Guc) (a : Artifacts) (dist : Vec → D) (dim k : ℕ) (metric : Metric)
    (base : List (CuvsResult D)) : Except ScanError (List (CuvsResult D)) := do
  let rows ← deltaRowsForScan g a dim
  if rows = [] then return base
  let cands := base ++ rows.map fun r => ⟨r.tid, dist r.vec⟩
  return (qsort (cuvsCandCmp metric) cands).take k

def cuvsTidInFilter (encTid : Tid) (filterArr : List Tid) : Bool :=
  (BinarySearch.find midpoint (fun i => filterArr.getD i 0) encTid (filterArr.length + 1) 0
    filterArr.length).isSome

theorem cuvsTidInFilter_iff {l : List Tid} (hl : l.Pairwise (· ≤ ·)) {t : Tid} :
    cuvsTidInFilter t l = true ↔ t ∈ l :=
  BinarySearch.find_isSome_iff_mem within_midpoint hl

omit [LT D] [DecidableLT D] in
/-- `cuvs_merge_delta` with the pending rows restricted to a whitelist. `sort` is `qsort_arg`,
which may order equal distances as it likes. -/
def mergeDeltaFilteredBy (sort : List (CuvsResult D) → List (CuvsResult D)) (g : Guc)
    (a : Artifacts) (dist : Vec → D) (dim k : ℕ) (filterArr : List Tid)
    (base : List (CuvsResult D)) : Except ScanError (List (CuvsResult D)) := do
  let rows ← deltaRowsForScan g a dim
  if rows = [] then return base
  let kept := rows.filter fun r => filterArr.isEmpty || cuvsTidInFilter r.tid filterArr
  let cands := base ++ kept.map fun r => ⟨r.tid, dist r.vec⟩
  return (sort cands).take k

def cuvsMergeDeltaFiltered (g : Guc) (a : Artifacts) (dist : Vec → D) (dim k : ℕ)
    (metric : Metric) (filterArr : List Tid) (base : List (CuvsResult D)) :
    Except ScanError (List (CuvsResult D)) :=
  mergeDeltaFilteredBy (qsort (cuvsCandCmp metric)) g a dist dim k filterArr base

end Comparator

/-- The tombstone records a scan applies; an unusable file applies none. -/
def tombstoneRecordsForScan (a : Artifacts) : List TombstoneRecord :=
  match a.tombstone with
  | none => []
  | some f =>
    match f.header with
    | none => []
    | some hdr =>
      if hdr.magic ≠ tombstoneMagic ∨ hdr.version ≠ tombstoneVersion
          ∨ cuvsTombstoneValidate hdr f.bodyBytes = false
          ∨ cuvsReadTidsCrc a ≠ some hdr.baseTidsCrc32 then []
      else f.body.take hdr.nEntries

def tombstoned (snap : Snapshot) (recs : List TombstoneRecord) (tid : Tid) : Bool :=
  recs.any fun r => r.tid == tid && snap.deleted r

/-- `cuvs_apply_tombstones` and its filtered sibling: drop dead TIDs. -/
def cuvsApplyTombstones (snap : Snapshot) (a : Artifacts) (results : List (CuvsResult D)) :
    List (CuvsResult D) :=
  results.filter fun r => !tombstoned snap (tombstoneRecordsForScan a) r.tid

def scanFetchK (g : Guc) (a : Artifacts) : ℕ :=
  if 0 < g.maxDeltaRows then
    let nTomb := cuvsTombstoneCount a
    if 0 < nTomb then g.cuvsK + min nTomb g.cuvsK else g.cuvsK
  else g.cuvsK

def doCpuMerge (g : Guc) (deltaMerged : Bool) : Bool :=
  g.deltaSearch == .cpu || (g.deltaSearch == .auto && !deltaMerged)

/-- What a non-OK reply turns into: an error, or an empty scan when stale. -/
def scanStatusOutcome : Status → Except ScanError (List (CuvsResult D))
  | .canceled => .error .canceled
  | .stale => .ok []
  | .metricMismatch => .error .metricMismatch
  | .dimMismatch => .error .dimMismatch
  | .protoMismatch => .error .protoMismatch
  | .unavailable => .error .unavailable
  | .oomFallback => .error .vramExhausted
  | .notFound => .error .notLoaded
  | .noVectors => .error .noVectors
  | s => .error (.searchFailed s)

/-- The search step shared by `cuvs_gettuple` and `flat_gettuple`; they differ
in the request behind `search`, which gets the fetch width. -/
def gettupleSearch [LT D] [DecidableLT D] (g : Guc) (circuitOpen : Bool) (a : Artifacts)
    (snap : Snapshot) (dist : Vec → D) (dim : ℕ) (metric : Metric)
    (search : ℕ → SearchReply D) : Except ScanError (List (CuvsResult D)) := do
  if !g.enableCuvs || circuitOpen then return []
  let k := scanFetchK g a
  let reply := search k
  if reply.status ≠ .ok then scanStatusOutcome reply.status
  else if g.maxDeltaRows = 0 then return reply.results
  else
    let merged ←
      if doCpuMerge g reply.deltaMerged then
        cuvsMergeDelta g a dist dim k metric reply.results
      else pure reply.results
    return cuvsApplyTombstones snap a merged

section FilteredKnn

variable (sort : List (CuvsResult D) → List (CuvsResult D))

def filteredKnnMergeBy (g : Guc) (a : Artifacts) (snap : Snapshot) (dist : Vec → D) (dim k : ℕ)
    (filterArr : List Tid) (reply : SearchReply D) : Except ScanError (List (CuvsResult D)) :=
  if g.maxDeltaRows = 0 then return reply.results
  else do
    let merged ←
      if doCpuMerge g reply.deltaMerged then
        mergeDeltaFilteredBy sort g a dist dim k filterArr reply.results
      else pure reply.results
    return cuvsApplyTombstones snap a merged

/-- `cuvs_filtered_knn`: the rows it emits. No whitelist searches everything,
an empty one nothing. -/
def filteredKnnBy (g : Guc) (a : Artifacts) (snap : Snapshot) (dist : Vec → D) (dim k : ℕ)
    (filterTids : Option (List Tid)) (search : ℕ → SearchReply D) :
    Except ScanError (List (CuvsResult D)) := do
  if k < 1 ∨ 2000 < k then throw .kOutOfRange
  if filterTids = some [] then return []
  let kFetch ←
    match filterTids with
    | none => pure k
    | some _ =>
      match cuvsKWithTombstoneSlack g a k with
      | none => throw .tombstoneSlack
      | some kFetch => pure kFetch
  let reply := search kFetch
  match reply.status with
  | .ok =>
    let results ←
      match filterTids with
      | none => pure reply.results
      | some filterArr => filteredKnnMergeBy sort g a snap dist dim kFetch filterArr reply
    return (results.take k).filter fun r => r.tid != 0
  | .canceled => throw .canceled
  | .protoMismatch => throw .protoMismatch
  | s => throw (.searchFailed s)

variable [LT D] [DecidableLT D]

def filteredKnnMerge (g : Guc) (a : Artifacts) (snap : Snapshot) (dist : Vec → D) (dim k : ℕ)
    (metric : Metric) (filterArr : List Tid) (reply : SearchReply D) :
    Except ScanError (List (CuvsResult D)) :=
  filteredKnnMergeBy (qsort (cuvsCandCmp metric)) g a snap dist dim k filterArr reply

def filteredKnn (g : Guc) (a : Artifacts) (snap : Snapshot) (dist : Vec → D) (dim k : ℕ)
    (metric : Metric) (filterTids : Option (List Tid)) (search : ℕ → SearchReply D) :
    Except ScanError (List (CuvsResult D)) :=
  filteredKnnBy (qsort (cuvsCandCmp metric)) g a snap dist dim k filterTids search

theorem filteredKnnMerge_eq (g : Guc) (a : Artifacts) (snap : Snapshot) (dist : Vec → D)
    (dim k : ℕ) (metric : Metric) (filterArr : List Tid) (reply : SearchReply D) :
    filteredKnnMerge g a snap dist dim k metric filterArr reply
      = if g.maxDeltaRows = 0 then pure reply.results
        else if doCpuMerge g reply.deltaMerged then
          cuvsMergeDeltaFiltered g a dist dim k metric filterArr reply.results >>= fun merged =>
            pure (cuvsApplyTombstones snap a merged)
        else pure (cuvsApplyTombstones snap a reply.results) := by
  unfold filteredKnnMerge filteredKnnMergeBy
  split_ifs <;> rfl

end FilteredKnn

end PgCuvs
