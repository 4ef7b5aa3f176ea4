import PgCuvs.LoadSpec

/-! The persist operations of one index, what each writes together, and the
files a sequence of completed operations leaves. -/

namespace PgCuvs

/-- An operation on the files of an index, with the outcome it had. -/
inductive PersistOp where
  | build (dim : ℕ) (metric : Metric) (tids : List Tid) (graph : Cagra) (vectors : VectorsStage)
      (hnsw : Option Hnsw) (fault : Option CommitFault)
  | save (dim : ℕ) (metric : Metric) (tids : List Tid) (graph : Cagra)
      (fault : Option CommitFault)
  | buildSharded (dim : ℕ) (metric : Metric) (tids : List Tid) (shards : List ShardBuild)
      (vectors : VectorsStage) (fault : Option ℕ)
  | buildFlat (dim : ℕ) (metric : Metric) (tids : List Tid) (vectors : Stamped VectorsFile)
      (fault : Option FlatFault)
  | buildIvfpq (dim : ℕ) (metric : Metric) (tids : List Tid) (ivfpq : IvfPq)
      (fault : Option CommitFault)
  | drop
deriving DecidableEq, Repr

def PersistOp.steps (a : Artifacts) : PersistOp → List FileOp
  | .build dim metric tids graph vectors hnsw fault =>
    finishBuildCommitOps a (cuvsTidsWrite dim metric tids) graph vectors hnsw fault
  | .save dim metric tids graph fault => saveIndexOps (cuvsTidsWrite dim metric tids) graph fault
  | .buildSharded dim metric tids shards vectors fault =>
    buildShardedOps a dim metric tids shards vectors fault
  | .buildFlat dim metric tids vectors fault =>
    buildFlatOps (cuvsTidsWrite dim metric tids) vectors fault
  | .buildIvfpq dim metric tids ivfpq fault =>
    buildIvfpqOps (cuvsTidsWrite dim metric tids) ivfpq fault
  | .drop => dropOps a

inductive GraphFile where
  | cagra (g : Cagra)
  | ivfpq (p : IvfPq)
  | sharded (graphs : List (Option Cagra))
  | flat
deriving DecidableEq, Repr

def IndexEntry.graphFile (e : IndexEntry) : GraphFile :=
  if e.shards ≠ [] then .sharded (e.shards.map ShardEntry.handle)
  else
    match e.handle, e.ivfpqHandle with
    | some g, _ => .cagra g
    | none, some p => .ivfpq p
    | none, none => .flat

def PersistOp.tidsFile : PersistOp → Option TidsFile
  | .build dim metric tids .. | .save dim metric tids .. | .buildSharded dim metric tids ..
  | .buildFlat dim metric tids .. | .buildIvfpq dim metric tids .. =>
    some (cuvsTidsWrite dim metric tids)
  | .drop => none

def PersistOp.graph : PersistOp → GraphFile
  | .build _ _ _ graph .. | .save _ _ _ graph _ => .cagra graph
  | .buildSharded _ _ _ shards .. => .sharded (shards.map fun s => some s.graph)
  | .buildIvfpq _ _ _ ivfpq _ => .ivfpq ivfpq
  | .buildFlat .. | .drop => .flat

/-- One operation wrote both the TID array and the graph. An entry without a
graph only needs the array to be some operation's. -/
def WrittenTogether (ops : List PersistOp) (tids : List Tid) (graph : GraphFile) : Prop :=
  ∃ op ∈ ops, op.tidsFile.map TidsFile.body = some tids ∧ (graph = .flat ∨ graph = op.graph)

theorem WrittenTogether.mono {ops ops' : List PersistOp} {tids : List Tid} {graph : GraphFile}
    (hsub : ops ⊆ ops') (h : WrittenTogether ops tids graph) :
    WrittenTogether ops' tids graph := by
  obtain ⟨op, hop, hwrote⟩ := h
  exact ⟨op, hsub hop, hwrote⟩

def replay (hist : List PersistOp) : Artifacts :=
  hist.foldl (fun a op => runFileOps (op.steps a) a) Artifacts.empty

theorem replay_append (hist : List PersistOp) (op : PersistOp) :
    replay (hist ++ [op]) = runFileOps (op.steps (replay hist)) (replay hist) := by
  unfold replay
  rw [List.foldl_append]
  rfl

/-- The files when the daemon dies in `op` after `n` steps. -/
def crashed (hist : List PersistOp) (op : PersistOp) (n : ℕ) : Artifacts :=
  crashFileOps n (op.steps (replay hist)) (replay hist)

end PgCuvs
