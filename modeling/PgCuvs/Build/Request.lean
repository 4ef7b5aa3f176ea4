import PgCuvs.Load
import PgCuvs.Search.Frame

/-! A BUILD request: the frame, the corpus in shared memory and the shard count
it resolves to. -/

namespace PgCuvs

/-- The fields of a command frame that the builds, EXTEND and COMPACT read. -/
structure BuildFrame where
  key : Key
  nVecs : ℤ
  dim : ℕ
  metric : Metric
  nPartials : ℕ
  shardCount : ℕ
  graphDegree : ℕ
  useCpuHnsw : Bool
  pqDim : ℕ
  pqBits : ℕ
deriving DecidableEq, Repr

/-- A mapped corpus: row `i` has a heap TID and a vector. -/
structure Segment where
  tid : ℕ → Tid
  vec : ℕ → Vec

def Segment.tids (s : Segment) (n : ℕ) : List Tid := (List.range n).map s.tid

def Segment.vecs (s : Segment) (n : ℕ) : List Vec := (List.range n).map s.vec

@[simp] theorem Segment.length_tids (s : Segment) (n : ℕ) : (s.tids n).length = n := by
  simp [Segment.tids]

@[simp] theorem Segment.length_vecs (s : Segment) (n : ℕ) : (s.vecs n).length = n := by
  simp [Segment.vecs]

structure Corpus where
  tids : List Tid
  vecs : List Vec
  length_vecs : vecs.length = tids.length
deriving DecidableEq, Repr

def Segment.corpus (s : Segment) (n : ℕ) : Corpus where
  tids := s.tids n
  vecs := s.vecs n
  length_vecs := by simp

def Corpus.rows (c : Corpus) : List (Tid × Vec) := c.tids.zip c.vecs

inductive PartialFault where
  | openFailed
  | ownerMismatch
  | statFailed
  | sizeMismatch
  | mmapFailed
deriving DecidableEq, Repr

structure PartialDesc where
  nVecs : ℤ
  /-- the name starts with `/pg_cuvs_bld_` -/
  named : Bool
  segment : Except PartialFault Segment

/-- What comes with a frame. `none` is a receive that failed. -/
structure BuildInput where
  indexDir : Option Dir
  segment : Except ShmFault Segment
  partials : Option (List PartialDesc)

structure Reply where
  status : Status
  error : String
deriving DecidableEq, Repr

def Reply.ok : Reply := ⟨.ok, ""⟩

def ShmFault.text : ShmFault → String
  | .openFailed => "shm_open failed"
  | .ownerMismatch => "shm owner mismatch"
  | .mmapFailed => "mmap failed"

def PartialFault.text : PartialFault → String
  | .openFailed => "shm_open partial failed"
  | .ownerMismatch => "shm owner mismatch (partial)"
  | .statFailed => "fstat partial failed"
  | .sizeMismatch => "partial size mismatch"
  | .mmapFailed => "mmap partial failed"

/-- An empty `index_dir` stands for the daemon's own directory. -/
def saveDir (cfg : Config) (indexDir : Dir) : Dir := if indexDir = "" then cfg.indexDir else indexDir

def sizeMax : ℕ := 2 ^ 64 - 1

def payloadOverflows (nVecs dim : ℕ) : Bool := decide (sizeMax / (dim * 4 + 8) < nVecs)

def cuvsAutoShardCount (nVecs dim budget nGpus maxShards : ℕ) : ℕ :=
  if nVecs = 0 ∨ dim = 0 ∨ nGpus = 0 then 1
  else if budget = 0 then 1
  else
    let needed := nVecs * (dim * 4 + 16 * 4)
    if needed ≤ budget then 1
    else
      let cap := if 0 < maxShards ∧ maxShards < nGpus then maxShards else nGpus
      let cap := min cap (nVecs / 2)
      if cap < 2 then 0
      else
        let want := max 2 ((needed + budget - 1) / budget)
        if cap < want then 0 else want

def autoShardBudget (cfg : Config) (d : Daemon) : ℕ :=
  (List.range (nUsableGpus cfg)).foldl
    (fun budget i =>
      let b := d.maxVramPerGpu (usableGpu cfg i)
      if 0 < b ∧ (budget = 0 ∨ b < budget) then b else budget) 0

/-- The shard count to build with; 0 when the index does not fit. -/
def resolveShardCount (cfg : Config) (d : Daemon) (frame : BuildFrame) : ℕ :=
  if frame.shardCount = 0 then
    cuvsAutoShardCount frame.nVecs.toNat frame.dim (autoShardBudget cfg d) (nUsableGpus cfg)
      shardsMax
  -- negative as an `int`, and so unsharded
  else if 2 ^ 31 ≤ frame.shardCount then 1
  else frame.shardCount

inductive BuildOutcome where
  | built (image : List UInt8)
  | oom
  | failed
deriving DecidableEq, Repr

inductive VectorsOutcome where
  | written
  | writeFailed
  | renameFailed
deriving DecidableEq, Repr

inductive ShardedFault where
  | persist
  | rename (done : ℕ)
deriving DecidableEq, Repr

/-- What the kernels and the file system do to one build. -/
structure BuildEnv where
  /-- the first call and the retries after it -/
  outcome : ℕ → BuildOutcome
  shardImage : ℕ → Option (List UInt8)
  ivfpqImage : Option (List UInt8)
  vectors : VectorsOutcome
  fault : Option SaveFault
  shardedFault : Option ShardedFault
  /-- the serialized CPU graph; `none` when the call fails -/
  hnswImage : Option (List UInt8)

def cuvsHnswMinElements : ℕ := 16

/-- What `cuvs_hnsw_serialize` leaves of a graph over `rows`: hnswlib aborts on small graphs,
which are skipped. -/
def BuildEnv.hnswFile (benv : BuildEnv) (rows : List Vec) : Option Hnsw :=
  if rows.length < cuvsHnswMinElements then none
  else benv.hnswImage.map fun image => { image, rows }

def BuildEnv.quiet (image : List UInt8) : BuildEnv where
  outcome := fun _ => .built image
  shardImage := fun _ => some image
  ivfpqImage := some image
  vectors := .written
  fault := none
  shardedFault := none
  hnswImage := some image

def stageVectors (env : Env) (benv : BuildEnv) (file : VectorsFile) : VectorsStage :=
  match benv.vectors with
  | .written => .ready ⟨file, env.now⟩
  | .writeFailed => .writeFailed
  | .renameFailed => .renameFailed

/-- The renames a fault lets through. -/
def SaveFault.commitFault : SaveFault → CommitFault
  | .writeTids | .serialize | .renameTids => .renameTids
  | .renameCagra => .renameGraph

end PgCuvs
