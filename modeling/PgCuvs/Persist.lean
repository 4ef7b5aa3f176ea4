import PgCuvs.Library.CrashPrefix
import PgCuvs.Disk

/-! What each writer does to the final names of an index, as a program of
renames and unlinks. Content under a temporary name is invisible to a loader. -/

namespace PgCuvs

inductive FileOp where
  | renameTids (f : TidsFile)
  | renameCagra (g : Cagra)
  | renameVectors (f : Stamped VectorsFile)
  | renameShards (f : ShardsFile)
  | renameShardCagra (shardId : ℕ) (g : Cagra)
  | renameIvfpq (p : IvfPq)
  | writeHnsw (h : Hnsw)
  | unlinkTids
  | unlinkCagra
  | unlinkVectors
  | unlinkShards
  | unlinkShardCagra (shardId : ℕ)
  | unlinkIvfpq
  | unlinkDelta
  | unlinkTombstone
  | unlinkStale
  | unlinkRelfilenode
deriving DecidableEq, Repr

def FileOp.apply : FileOp → Artifacts → Artifacts
  | .renameTids f, a => { a with tids := some f }
  | .renameCagra g, a => { a with cagra := some g }
  | .renameVectors f, a => { a with vectors := some f }
  | .renameShards f, a => { a with shards := some f }
  | .renameShardCagra s g, a => { a with shardCagra := Function.update a.shardCagra s (some g) }
  | .renameIvfpq p, a => { a with ivfpq := some p }
  | .writeHnsw h, a => { a with hnsw := some h }
  | .unlinkTids, a => { a with tids := none }
  | .unlinkCagra, a => { a with cagra := none }
  | .unlinkVectors, a => { a with vectors := none }
  | .unlinkShards, a => { a with shards := none }
  | .unlinkShardCagra s, a => { a with shardCagra := Function.update a.shardCagra s none }
  | .unlinkIvfpq, a => { a with ivfpq := none }
  | .unlinkDelta, a => { a with delta := none }
  | .unlinkTombstone, a => { a with tombstone := none }
  | .unlinkStale, a => { a with stale := none }
  | .unlinkRelfilenode, a => { a with relfilenode := none }

abbrev runFileOps : List FileOp → Artifacts → Artifacts := CrashPrefix.run FileOp.apply

abbrev crashFileOps : ℕ → List FileOp → Artifacts → Artifacts := CrashPrefix.crash FileOp.apply

/-- Shard ids are contiguous: the unlink loop stops at the first missing one. -/
def unlinkShardFiles (start : ℕ) (a : Artifacts) : List FileOp :=
  ((List.range' start (shardsMax - start)).takeWhile fun s => (a.shardCagra s).isSome).map
    FileOp.unlinkShardCagra

/-- The `.vectors` sidecar is staged before the commit and renamed after it. -/
inductive VectorsStage where
  | ready (f : Stamped VectorsFile)
  | writeFailed
  | renameFailed
deriving DecidableEq, Repr

def VectorsStage.before : VectorsStage → List FileOp
  | .writeFailed => [.unlinkVectors]
  | _ => []

def VectorsStage.commit : VectorsStage → List FileOp
  | .ready f => [.renameVectors f]
  | .renameFailed => [.unlinkVectors]
  | .writeFailed => []

/-- Which of the two renames of an unsharded commit fails. -/
inductive CommitFault where
  | renameTids
  | renameGraph
deriving DecidableEq, Repr

def saveIndexOps (tids : TidsFile) (graph : Cagra) : Option CommitFault → List FileOp
  | some .renameTids => []
  | some .renameGraph => [.renameTids tids, .unlinkTids]
  | none => [.renameTids tids, .renameCagra graph]

/-- `finish_build_commit`, with the staging of `.vectors` in front of it. -/
def finishBuildCommitOps (a : Artifacts) (tids : TidsFile) (graph : Cagra)
    (vectors : VectorsStage) (hnsw : Option Hnsw) (fault : Option CommitFault) : List FileOp :=
  vectors.before ++ saveIndexOps tids graph fault ++
    if fault.isSome then []
    else
      vectors.commit ++ [.unlinkStale, .unlinkShards] ++ unlinkShardFiles 0 a
        ++ hnsw.toList.map .writeHnsw

/-- One shard as `build_sharded` has it before the commit. -/
structure ShardBuild where
  graph : Cagra
  gpuDeviceId : ℕ
  nVecs : ℕ
deriving DecidableEq, Repr

def shardRecords (dim : ℕ) (metric : Metric) : ℕ → ℕ → List ShardBuild → List ShardRecord
  | _, _, [] => []
  | i, off, s :: ss =>
    { shardId := i, gpuDeviceId := s.gpuDeviceId, tidOffset := off, nVecs := s.nVecs, dim, metric
      artifactCrc32 := cuvsCrc32 s.graph.image, reserved := 0 }
      :: shardRecords dim metric (i + 1) (off + s.nVecs) ss

def shardManifest (dim : ℕ) (metric : Metric) (tids : List Tid) (shards : List ShardBuild) :
    ShardsFile :=
  cuvsShardsWrite tids.length dim metric (cuvsCrc32 (tidBytes tids))
    (shardRecords dim metric 0 0 shards)

def renameShardFiles : ℕ → List ShardBuild → List FileOp
  | _, [] => []
  | i, s :: ss => .renameShardCagra i s.graph :: renameShardFiles (i + 1) ss

/-- The commit of `build_sharded`; `fault` counts the renames that succeed
before one fails. -/
def buildShardedOps (a : Artifacts) (dim : ℕ) (metric : Metric) (tids : List Tid)
    (shards : List ShardBuild) (vectors : VectorsStage) (fault : Option ℕ) : List FileOp :=
  let renames := renameShardFiles 0 shards ++
    [.renameTids (cuvsTidsWrite dim metric tids), .renameShards (shardManifest dim metric tids shards)]
  vectors.before ++
    match fault with
    -- the rollback removes what it renamed, and both manifests even if it did not
    | some m =>
      renames.take m ++ (List.range (min m shards.length)).map .unlinkShardCagra
        ++ [.unlinkTids, .unlinkShards]
    | none =>
      renames ++ vectors.commit ++ [.unlinkStale, .unlinkCagra] ++ unlinkShardFiles shards.length a

inductive FlatFault where
  | renameVectors
  | renameTids
deriving DecidableEq, Repr

def buildFlatOps (tids : TidsFile) (vectors : Stamped VectorsFile) :
    Option FlatFault → List FileOp
  | some .renameVectors => []
  | some .renameTids => [.renameVectors vectors, .unlinkVectors]
  | none =>
    [.renameVectors vectors, .renameTids tids, .unlinkCagra, .unlinkIvfpq, .unlinkStale,
      .unlinkShards]

def buildIvfpqOps (tids : TidsFile) (ivfpq : IvfPq) : Option CommitFault → List FileOp
  | some .renameTids => []
  | some .renameGraph => [.renameTids tids, .unlinkTids]
  | none => [.renameTids tids, .renameIvfpq ivfpq, .unlinkCagra, .unlinkStale]

def dropOps (a : Artifacts) : List FileOp :=
  [.unlinkCagra, .unlinkTids, .unlinkShards, .unlinkDelta, .unlinkVectors, .unlinkStale,
    .unlinkRelfilenode, .unlinkTombstone] ++ unlinkShardFiles 0 a

end PgCuvs
