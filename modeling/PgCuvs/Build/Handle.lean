import PgCuvs.Build.Register

/-! The BUILD handlers. An unsharded CAGRA build gives up the lock while the graph
is built: it is admitted, evicts as long as the kernel runs out of memory, and is
committed. -/

namespace PgCuvs

section Commit

variable (cfg : Config) (env : Env) (benv : BuildEnv)

def BuildTicket.commitOps (t : BuildTicket) (graph : Cagra) (a : Artifacts) : List FileOp :=
  let hnsw := if t.frame.useCpuHnsw then benv.hnswFile graph.rows else none
  finishBuildCommitOps a (cuvsTidsWrite t.frame.dim t.frame.metric t.corpus.tids) graph
    (stageVectors env benv t.vectors) hnsw (benv.fault.map SaveFault.commitFault)

def finishBuildCommit (d : Daemon) (t : BuildTicket) (graph : Cagra) : Effect :=
  let ops := t.commitOps env benv graph (d.disk t.saveDir t.frame.key)
  let d := { d with disk := d.disk.modify t.saveDir t.frame.key (runFileOps ops) }
  match benv.fault with
  | some _ => Effect.failure d .persistFailed "disk persistence failed"
  | none =>
    installEntry cfg env d t.frame.key t.targetGpu (.build env.now t graph)
      (.build env.now t graph)

def addPending (pending : ℕ → ℕ) (gpu needed : ℕ) : ℕ → ℕ :=
  fun g => if g = gpu then pending g + needed else pending g

def subPending (pending : ℕ → ℕ) (gpu needed : ℕ) : ℕ → ℕ :=
  fun g => if g = gpu then pending g - needed else pending g

/-- Which handler admits a build; their texts differ. -/
inductive CorpusKind where
  | single
  | multi
deriving DecidableEq, Repr

def CorpusKind.exhausted : CorpusKind → ℕ → String
  | .single, gpu => s!"VRAM exhausted on GPU {gpu} after eviction"
  | .multi, _ => "VRAM exhausted after eviction"

def CorpusKind.buildFailed : CorpusKind → String
  | .single => "cuvs_cagra_build failed"
  | .multi => "cuvs_cagra_build_multi failed"

def admitBuild (d : Daemon) (kind : CorpusKind) (frame : BuildFrame) (dir : Dir)
    (corpus : Corpus) (vectors : VectorsFile) : Daemon × Except Reply BuildTicket :=
  let needed := estimateVramBytes corpus.tids.length frame.dim frame.graphDegree
  match pickGpuForIndex cfg env d needed with
  | none => (d, .error ⟨.oomFallback, "index too large for any GPU VRAM budget"⟩)
  | some gpu =>
    match ensureVram cfg env d needed gpu with
    | (d, false) => (d, .error ⟨.oomFallback, kind.exhausted gpu⟩)
    | (d, true) =>
      ({ d with pendingBuildVram := addPending d.pendingBuildVram gpu needed },
        .ok { frame, saveDir := dir, corpus, vectors, targetGpu := gpu, needed })

/-- The kernel ran out of memory: evict once more. Nothing freed is the end. -/
def retryBuild (d : Daemon) (t : BuildTicket) : Daemon × Bool :=
  let (d, freed) := evictLru cfg env d t.targetGpu
  (d, freed != 0)

/-- With the lock back: give up the reservation and commit what the kernel built. -/
def endBuild (d : Daemon) (kind : CorpusKind) (t : BuildTicket) (outcome : BuildOutcome) : Effect :=
  let d := { d with pendingBuildVram := subPending d.pendingBuildVram t.targetGpu t.needed }
  match outcome with
  | .built image => finishBuildCommit cfg env benv d t { image, rows := t.corpus.vecs }
  | .oom | .failed => Effect.failure d .buildFailed kind.buildFailed

/-- Retry until the kernel has another answer than `oom` or nothing is left to evict. -/
def runBuild (t : BuildTicket) : ℕ → ℕ → Daemon → Daemon × BuildOutcome
  | 0, round, d => (d, benv.outcome round)
  | fuel + 1, round, d =>
    match benv.outcome round with
    | .oom =>
      let (d, freed) := retryBuild cfg env d t
      if freed then runBuild t fuel (round + 1) d else (d, .oom)
    | .built image => (d, .built image)
    | .failed => (d, .failed)

end Commit

section Sharded

/-- The corpus range of shard `i`: the first `rem` shards hold one row more. -/
def shardRange (nVecs sc i : ℕ) : ℕ × ℕ :=
  (nVecs / sc * i + min i (nVecs % sc), nVecs / sc + if i < nVecs % sc then 1 else 0)

def clampShards (shardCount nVecs : ℕ) : ℕ := min (min shardCount shardsMax) (nVecs / 2)

def buildShards (cfg : Config) (env : Env) (benv : BuildEnv) (frame : BuildFrame) (vecs : List Vec)
    (sc : ℕ) : ℕ → ℕ → Daemon → Daemon × Option (List ShardBuild)
  | 0, _, d => (d, some [])
  | todo + 1, i, d =>
    let (off, n) := shardRange vecs.length sc i
    let needed := estimateVramBytes n frame.dim frame.graphDegree
    -- round robin, then the device with the most headroom
    match placeShard cfg env d needed (usableGpu cfg (i % nUsableGpus cfg)) with
    | (d, none) => (d, none)
    | (d, some dev) =>
      match benv.shardImage i with
      | none => (d, none)
      | some image =>
        match buildShards cfg env benv frame vecs sc todo (i + 1) d with
        | (d, none) => (d, none)
        | (d, some rest) =>
          (d, some (⟨⟨image, (vecs.drop off).take n⟩, dev, n⟩ :: rest))

def shardEntries (frame : BuildFrame) : ℕ → ℕ → List ShardBuild → List ShardEntry
  | _, _, [] => []
  | i, off, s :: ss =>
    { shardId := i, handle := some s.graph, tidOffset := off, nVecs := s.nVecs
      gpuDeviceId := s.gpuDeviceId
      vramBytes := estimateVramBytes s.nVecs frame.dim frame.graphDegree
      searchCount := 0, errorCount := 0, lastStatus := .ok, bfIdx := none, bfVramBytes := 0 }
      :: shardEntries frame (i + 1) (off + s.nVecs) ss

/-- `build_sharded` keeps the lock to its end. -/
def buildSharded (cfg : Config) (env : Env) (benv : BuildEnv) (d : Daemon) (frame : BuildFrame)
    (dir : Dir) (corpus : Corpus) (shardCount : ℕ) : Effect :=
  let tids := corpus.tids
  let sc := clampShards shardCount tids.length
  if sc < 2 then
    Effect.failure d .buildFailed "shard_count too high for corpus (need >= 2 vectors per shard)"
  else
    match buildShards cfg env benv frame corpus.vecs sc sc 0 d with
    | (d, none) => Effect.failure d .buildFailed "sharded build failed"
    | (d, some shards) =>
      let file := cuvsVectorsWrite frame.dim frame.metric (cuvsCrc32 (tidBytes tids)) corpus.vecs
      let stage := stageVectors env benv file
      let commit (d : Daemon) (ops : List FileOp) : Daemon :=
        { d with disk := d.disk.modify dir frame.key (runFileOps ops) }
      let a := d.disk dir frame.key
      match benv.shardedFault with
      | some .persist =>
        Effect.failure (commit d stage.before) .persistFailed "sharded persist failed"
      | some (.rename done) =>
        Effect.failure
          (commit d (buildShardedOps a frame.dim frame.metric tids shards stage (some done)))
          .persistFailed "sharded commit rename failed"
      | none =>
        let d := commit d (buildShardedOps a frame.dim frame.metric tids shards stage none)
        let entries := shardEntries frame 0 0 shards
        installEntry cfg env d frame.key (usableGpu cfg 0) (.sharded env.now frame tids entries)
          (.sharded env.now frame tids entries)

end Sharded

section Dispatch

inductive BuildStart where
  | done (x : Effect)
  | unlocked (d : Daemon) (kind : CorpusKind) (t : BuildTicket)

variable (cfg : Config) (env : Env) (benv : BuildEnv)

/-- Sharded at once, or admitted as one graph. -/
def startBuild (d : Daemon) (kind : CorpusKind) (frame : BuildFrame) (dir : Dir)
    (corpus : Corpus) (vectors : VectorsFile) : BuildStart :=
  let sc := resolveShardCount cfg d frame
  if sc = 0 then
    .done (Effect.failure d .oomFallback "index too large for GPU VRAM even when fully sharded")
  else if 2 ≤ sc then .done (buildSharded cfg env benv d frame dir corpus sc)
  else
    match admitBuild cfg env d kind frame dir corpus vectors with
    | (d, .error r) => .done (Effect.failure d r.status r.error)
    | (d, .ok t) => .unlocked d kind t

def checkPartials (descs : List PartialDesc) (nVecs : ℤ) : Option String :=
  let complaint (p : PartialDesc) : Option String :=
    if p.nVecs < 0 then some "negative partial n_vecs"
    -- an empty partial is never opened, whatever it is called
    else if p.nVecs = 0 then none
    else if p.named then none
    else some "partial shm name not /pg_cuvs_bld_*"
  match descs.findSome? complaint with
  | some err => some err
  | none =>
    if (descs.map PartialDesc.nVecs).sum ≠ nVecs then some "partial n_vecs sum != corpus size"
    else none

def mapPartials : List PartialDesc → Except PartialFault (List (Segment × ℕ))
  | [] => .ok []
  | p :: ps =>
    if p.nVecs = 0 then mapPartials ps
    else
      match p.segment with
      | .error fault => .error fault
      | .ok s =>
        match mapPartials ps with
        | .error fault => .error fault
        | .ok maps => .ok ((s, p.nVecs.toNat) :: maps)

/-- The global TID array is copied together partial by partial. -/
def assembleTids (maps : List (Segment × ℕ)) : List Tid :=
  maps.foldl (fun tids p => tids ++ p.1.tids p.2) []

/-- `part_vecs`: the kernel and the sidecar writer take the parts as they are. -/
def partVecs (maps : List (Segment × ℕ)) : List (List Vec) := maps.map fun p => p.1.vecs p.2

theorem assembleTids_eq (maps : List (Segment × ℕ)) :
    assembleTids maps = (maps.map fun p => p.1.tids p.2).flatten := by
  have hfold : ∀ tids : List Tid, maps.foldl (fun tids p => tids ++ p.1.tids p.2) tids
      = tids ++ (maps.map fun p => p.1.tids p.2).flatten := by
    induction maps with
    | nil => simp
    | cons p ps ih =>
      intro tids
      rw [List.foldl_cons, ih, List.map_cons, List.flatten_cons, List.append_assoc]
  exact hfold []

/-- Both loops go through the same partials, so row `i` of one is row `i` of the other. -/
def assembleCorpus (maps : List (Segment × ℕ)) : Corpus where
  tids := assembleTids maps
  vecs := (partVecs maps).flatten
  length_vecs := by
    rw [assembleTids_eq, partVecs]
    induction maps with
    | nil => rfl
    | cons p ps ih => simp_all

def buildMaxPartials : ℕ := 256

def handleBuildMulti (d : Daemon) (frame : BuildFrame) (dir : Dir)
    (partials : Option (List PartialDesc)) : BuildStart :=
  let fail (err : String) : BuildStart := .done (Effect.failure d .error err)
  if frame.nPartials = 0 ∨ buildMaxPartials < frame.nPartials then fail "invalid n_partials"
  else
    match partials with
    | none => fail "recv partial descriptors failed"
    | some descs =>
      match checkPartials descs frame.nVecs with
      | some err => fail err
      | none =>
        match mapPartials descs with
        | .error fault => fail fault.text
        | .ok [] => fail "no non-empty partials"
        | .ok maps =>
          let corpus := assembleCorpus maps
          startBuild cfg env benv d .multi frame (saveDir cfg dir) corpus
            (cuvsVectorsWriteMulti frame.dim frame.metric (cuvsCrc32 (tidBytes corpus.tids))
              (partVecs maps))

/-- `handle_build` up to the point where the lock is released. -/
def beginBuild (d : Daemon) (frame : BuildFrame) (input : BuildInput) : BuildStart :=
  let fail (err : String) : BuildStart := .done (Effect.failure d .error err)
  match input.indexDir with
  | none => fail "recv index_dir failed"
  | some dir =>
    if frame.nVecs < 2 ∨ frame.dim = 0 then fail "CAGRA build needs at least 2 vectors"
    else if payloadOverflows frame.nVecs.toNat frame.dim then fail "build payload size overflow"
    else if 0 < frame.nPartials then handleBuildMulti cfg env benv d frame dir input.partials
    else
      match input.segment with
      | .error fault => fail fault.text
      | .ok s =>
        let corpus := s.corpus frame.nVecs.toNat
        startBuild cfg env benv d .single frame (saveDir cfg dir) corpus
          (cuvsVectorsWrite frame.dim frame.metric (cuvsCrc32 (tidBytes corpus.tids)) corpus.vecs)

/-- A BUILD with nothing else going on in between. -/
def handleBuild (d : Daemon) (frame : BuildFrame) (input : BuildInput) : Effect :=
  match beginBuild cfg env benv d frame input with
  | .done x => x
  | .unlocked d kind t =>
    let (d, outcome) := runBuild cfg env benv t (d.live.length + 1) 0 d
    endBuild cfg env benv d kind t outcome

end Dispatch

end PgCuvs
