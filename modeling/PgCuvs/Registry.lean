import PgCuvs.Disk

/-! The daemon's registry of resident indexes. The array is kept as its live
slots followed by the vacated ones, because a registration inherits whatever it
does not overwrite in the slot it takes. -/

namespace PgCuvs

inductive WarmupState where
  | hot
  | cold
  | queued
  | downloading
  | loading
  | failed
deriving DecidableEq, Repr

inductive SearchMode where
  | gpuCagra
  | cpuHnsw
  | cpuFallback
  | gpuBf
  | cagraPrefilter
  | ivfpq
  | bfExact
deriving DecidableEq, Repr

structure ShardEntry where
  shardId : ℕ
  handle : Option Cagra
  tidOffset : ℕ
  nVecs : ℕ
  gpuDeviceId : ℕ
  vramBytes : ℕ
  searchCount : ℕ
  errorCount : ℕ
  lastStatus : Status
  bfIdx : Option BfIndex
  bfVramBytes : ℕ
deriving DecidableEq, Repr

structure SearchStats where
  searchCount : ℕ
  errorCount : ℕ
  totalLatencyUs : ℕ
  latBuckets : List ℕ
  lastStatus : Status
  lastRequestedK : ℕ
  lastReturnedK : ℕ
  deltaMergedCount : ℕ
  bfBatchCount : ℕ
  cagraBatchCount : ℕ
  prefilterFallbackCount : ℕ
  lastError : String
  lastWarmupAt : ℕ
  warmupDurationMs : ℕ
  downloadCount : ℕ
  cacheMissCount : ℕ
deriving DecidableEq, Repr

def latBucketsLength : ℕ := 32

def SearchStats.zero : SearchStats where
  searchCount := 0
  errorCount := 0
  totalLatencyUs := 0
  latBuckets := List.replicate latBucketsLength 0
  lastStatus := .ok
  lastRequestedK := 0
  lastReturnedK := 0
  deltaMergedCount := 0
  bfBatchCount := 0
  cagraBatchCount := 0
  prefilterFallbackCount := 0
  lastError := ""
  lastWarmupAt := 0
  warmupDurationMs := 0
  downloadCount := 0
  cacheMissCount := 0

structure IndexEntry where
  key : Key
  dim : ℕ
  metric : Metric
  nVecs : ℕ
  /-- 0 stands for the cuVS default of 64 -/
  graphDegree : ℕ
  handle : Option Cagra
  tids : List Tid
  shardCount : ℕ
  shards : List ShardEntry
  /-- lock-free sharded searches that still hold the shard handles -/
  inflight : ℕ
  vramBytes : ℕ
  lastSearch : ℕ
  stale : Bool
  staleSince : ℕ
  isFlat : Bool
  deltaIdx : Option BfIndex
  deltaTids : Option (List Tid)
  nDelta : ℕ
  deltaGeneration : UInt32
  deltaMtime : ℕ
  deltaVramBytes : ℕ
  deltaVecsHost : Option (List Vec)
  deltaNCached : ℕ
  mainBfIdx : Option BfIndex
  mainBfN : ℕ
  mainBfVramBytes : ℕ
  mainBfMtime : ℕ
  mainBfGeneration : UInt32
  bfPrecision : ℕ
  revTids : Option (List Tid)
  revItemIds : Option (List ℤ)
  stats : SearchStats
  warmupState : WarmupState
  gpuDeviceId : ℕ
  hnswIdx : Option Hnsw
  lastSearchMode : SearchMode
  ivfpqHandle : Option IvfPq
  ivfpqNVecs : ℕ
  ivfpqVramBytes : ℕ
  /-- vectors added by EXTEND since the last build or compaction -/
  nExtended : ℕ
  compactCount : ℕ
  lastCompactAt : ℕ
deriving DecidableEq, Repr

/-- A slot of the freshly `calloc`ed array. -/
def IndexEntry.zero : IndexEntry where
  key := ⟨0, 0⟩
  dim := 0
  metric := .l2
  nVecs := 0
  graphDegree := 0
  handle := none
  tids := []
  shardCount := 0
  shards := []
  inflight := 0
  vramBytes := 0
  lastSearch := 0
  stale := false
  staleSince := 0
  isFlat := false
  deltaIdx := none
  deltaTids := none
  nDelta := 0
  deltaGeneration := 0
  deltaMtime := 0
  deltaVramBytes := 0
  deltaVecsHost := none
  deltaNCached := 0
  mainBfIdx := none
  mainBfN := 0
  mainBfVramBytes := 0
  mainBfMtime := 0
  mainBfGeneration := 0
  bfPrecision := 0
  revTids := none
  revItemIds := none
  stats := SearchStats.zero
  warmupState := .hot
  gpuDeviceId := 0
  hnswIdx := none
  lastSearchMode := .gpuCagra
  ivfpqHandle := none
  ivfpqNVecs := 0
  ivfpqVramBytes := 0
  nExtended := 0
  compactCount := 0
  lastCompactAt := 0

def resetEntryStats (e : IndexEntry) : IndexEntry :=
  { e with stats := SearchStats.zero, isFlat := false, graphDegree := 0 }

/-- Bucket 0 is latency 0, bucket `k` covers `[2 ^ (k - 1), 2 ^ k)`. -/
def cuvsLatBucketIndex (us : ℕ) : ℕ :=
  if us = 0 then 0 else min (us.log2 + 1) (latBucketsLength - 1)

def recordSearchStat (now : ℕ) (e : IndexEntry) (status : Status) (latencyUs : ℕ)
    (err : Option String) : IndexEntry :=
  let s := { e.stats with lastStatus := status }
  { e with
    lastSearch := now
    stats :=
      if status = .ok then
        { s with
          searchCount := s.searchCount + 1
          totalLatencyUs := s.totalLatencyUs + latencyUs
          latBuckets := s.latBuckets.modify (cuvsLatBucketIndex latencyUs) (· + 1) }
      else
        { s with
          errorCount := s.errorCount + 1
          lastError := err.getD s.lastError } }

def cmpRevTid (a b : Tid × ℤ) : ℤ := if b.1 < a.1 then 1 else if a.1 < b.1 then -1 else 0

/-- Sort the item ids by the TID they stand for, for binary search by TID. -/
def buildRevTidMap (e : IndexEntry) : IndexEntry :=
  if e.tids = [] ∨ e.nVecs = 0 then e
  else
    let pairs := qsort cmpRevTid ((List.range e.nVecs).map fun i => (e.tids.getD i 0, int32 i))
    { e with revTids := some (pairs.map Prod.fst), revItemIds := some (pairs.map Prod.snd) }

def deltaGpuOf (e : IndexEntry) : ℕ :=
  match e.shards with
  | s :: _ => if 2 ≤ e.shardCount then s.gpuDeviceId else e.gpuDeviceId
  | [] => e.gpuDeviceId

def freeDeltaCache (e : IndexEntry) : IndexEntry :=
  { e with
    deltaIdx := none
    deltaTids := none
    deltaVecsHost := none
    nDelta := 0
    deltaNCached := 0
    deltaGeneration := 0
    deltaMtime := 0
    deltaVramBytes := 0 }

def freeMainBfCache (e : IndexEntry) : IndexEntry :=
  { e with
    mainBfIdx := none
    mainBfN := 0
    mainBfVramBytes := 0
    mainBfMtime := 0
    mainBfGeneration := 0 }

def freeIndexShards (e : IndexEntry) : IndexEntry :=
  { e with shards := [], shardCount := 0 }

end PgCuvs
