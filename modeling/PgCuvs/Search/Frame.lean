import PgCuvs.Daemon

/-! A SEARCH request as the daemon sees it, and the search kernels it calls. -/

namespace PgCuvs

/-- The fields of a command frame that SEARCH reads. -/
structure SearchFrame where
  key : Key
  k : ℕ
  metric : Metric
  dim : ℕ
  /-- chunk capacity of the exact fallback -/
  nVecs : ℕ
  shardOverfetch : ℕ
  parallelFanout : Bool
  useCpuHnsw : Bool
  searchMode : ℕ
  bfPrecision : ℕ
  bfBatchWaitUs : ℕ
  cagraBatchWaitUs : ℕ
  nFilterTids : ℕ
  usePrefilter : Bool
  itopkSize : ℕ
  searchWidth : ℕ
deriving DecidableEq, Repr

def cuvsPadItemId : ℤ := -1

/-- The search kernels. `.error rc` is a non-zero return code. A filtered kernel
gets the exclusion bit of every item. -/
structure Kernels (D : Type) where
  cagraSearch : Cagra → Vec → ℕ → ℕ → ℕ → ℕ → Except ℕ (List (SearchResult D))
  cagraSearchFiltered :
    Cagra → Vec → ℕ → List Bool → ℕ → ℕ → ℕ → Except ℕ (List (SearchResult D))
  bfSearch : BfIndex → Vec → ℕ → ℕ → Except ℕ (List (SearchResult D))
  bfSearchFiltered : BfIndex → Vec → ℕ → List Bool → ℕ → Except ℕ (List (SearchResult D))
  bruteForceSearch : List Vec → Vec → ℕ → Metric → ℕ → Except ℕ (List (SearchResult D))
  hnswSearch : Hnsw → Vec → ℕ → Except ℕ (List (SearchResult D))
  cagraSearchBatch :
    Cagra → List Vec → ℕ → ℕ → ℕ → ℕ → Except ℕ (List (List (SearchResult D)))
  bfSearchBatch : BfIndex → List Vec → ℕ → ℕ → Except ℕ (List (List (SearchResult D)))

inductive ShmFault where
  | openFailed
  | ownerMismatch
  | mmapFailed
deriving DecidableEq, Repr

def ShmFault.message : ShmFault → String
  | .openFailed => "shm_open failed"
  | .ownerMismatch => "shm owner mismatch"
  | .mmapFailed => "mmap failed"

/-- What one SEARCH finds in shared memory and in the batch queue. -/
structure SearchEnv where
  query : Except ShmFault Vec
  /-- the whitelist segment, when it can be mapped -/
  filter : Option (List Tid)
  latencyUs : ℕ
  batchWorkerStarted : Bool
  batchQueueHasRoom : Bool
  hnswDeserializes : Hnsw → Bool

def SearchEnv.plain (query : Vec) : SearchEnv where
  query := .ok query
  filter := none
  latencyUs := 0
  batchWorkerStarted := false
  batchQueueHasRoom := false
  hnswDeserializes := fun _ => true

/-- The kernel key requests are coalesced by. -/
structure BatchKey where
  key : Key
  precision : ℕ
  dim : ℕ
  /-- 0 for CAGRA, 1 for brute force -/
  mode : ℕ
  itopkSize : ℕ
  searchWidth : ℕ
deriving DecidableEq, Repr

structure BatchRequest where
  key : BatchKey
  query : Vec
  k : ℕ
  waitUs : ℕ
deriving DecidableEq, Repr

section Sample

def sampleDeltaKernels : Kernels ℕ where
  cagraSearch := fun _ _ _ _ _ _ => .ok []
  cagraSearchFiltered := fun _ _ _ _ _ _ _ => .ok []
  bfSearch := fun _ _ _ _ => .ok [⟨0, 0⟩]
  bfSearchFiltered := fun _ _ _ _ _ => .ok []
  bruteForceSearch := fun _ _ _ _ _ => .ok []
  hnswSearch := fun _ _ _ => .ok []
  cagraSearchBatch := fun _ _ _ _ _ _ => .ok []
  bfSearchBatch := fun _ _ _ _ => .ok []

def sampleFrame : SearchFrame where
  key := ⟨1, 2⟩
  k := 2
  metric := .l2
  dim := 1
  nVecs := 0
  shardOverfetch := 0
  parallelFanout := false
  useCpuHnsw := false
  searchMode := 0
  bfPrecision := 0
  bfBatchWaitUs := 0
  cagraBatchWaitUs := 0
  nFilterTids := 0
  usePrefilter := false
  itopkSize := 0
  searchWidth := 0

end Sample

end PgCuvs
