import PgCuvs.Evict

/-! Registering an index from its artifacts. -/

namespace PgCuvs

inductive LoadResult where
  | loaded
  /-- -1: missing, corrupt or mismatched artifacts, or no slot -/
  | failed
  /-- -2: no device has room -/
  | vram
deriving DecidableEq, Repr

/-- Staleness as the marker in the daemon's directory has it. -/
def restoreStale (a : Artifacts) (e : IndexEntry) : IndexEntry :=
  match a.stale with
  | some mtime => { e with stale := true, staleSince := mtime }
  | none => { e with stale := false, staleSince := 0 }

/-- A delta cache that starts empty; the slot may carry an old one. -/
def clearDeltaFields (e : IndexEntry) : IndexEntry :=
  { e with
    deltaIdx := none, deltaTids := none, nDelta := 0, deltaGeneration := 0, deltaMtime := 0
    deltaVramBytes := 0, deltaVecsHost := none, deltaNCached := 0 }

def clearMainBfFields (e : IndexEntry) : IndexEntry :=
  { e with
    mainBfIdx := none, mainBfN := 0, mainBfVramBytes := 0, mainBfMtime := 0
    mainBfGeneration := 0, bfPrecision := 0 }

/-- Room for a shard on `dev`, else on the device with the most headroom. -/
def placeShard (cfg : Config) (env : Env) (d : Daemon) (needed dev : ℕ) : Daemon × Option ℕ :=
  match ensureVram cfg env d needed dev with
  | (d, true) => (d, some dev)
  | (d, false) =>
    match pickGpuForIndex cfg env d needed with
    | none => (d, none)
    | some alt =>
      match ensureVram cfg env d needed alt with
      | (d, true) => (d, some alt)
      | (d, false) => (d, none)

/-- Place and load the shards a manifest lists, from shard `i` on. -/
def loadShards (cfg : Config) (env : Env) (key : Key) :
    ℕ → Daemon → List ShardRecord → Daemon × Except LoadResult (List ShardEntry)
  | _, d, [] => (d, .ok [])
  | i, d, r :: rs =>
    let needed := estimateVramBytes r.nVecs r.dim 64
    match placeShard cfg env d needed (usableGpu cfg (i % nUsableGpus cfg)) with
    | (d, none) => (d, .error .vram)
    | (d, some dev) =>
      match (d.disk cfg.indexDir key).shardCagra r.shardId with
      | none => (d, .error .failed)
      | some c =>
        if cuvsCrc32 c.image ≠ r.artifactCrc32 then (d, .error .failed)
        else if !env.cagraDeserializes c dev then (d, .error .failed)
        else
          let shard : ShardEntry :=
            { shardId := r.shardId, handle := some c, tidOffset := r.tidOffset, nVecs := r.nVecs
              gpuDeviceId := dev, vramBytes := needed, searchCount := 0, errorCount := 0
              lastStatus := .ok, bfIdx := none, bfVramBytes := 0 }
          match loadShards cfg env key (i + 1) d rs with
          | (d, .ok shards) => (d, .ok (shard :: shards))
          | (d, .error rc) => (d, .error rc)

/-- The device id of a sharded entry, which no eviction matches. -/
def shardedGpuId : ℕ := 0xFFFFFFFF

def initSharded (env : Env) (key : Key) (thdr : TidsHeader) (tids : List Tid)
    (shards : List ShardEntry) (a : Artifacts) : IndexEntry :=
  let e :=
    { IndexEntry.zero with
      key, dim := thdr.dim, metric := thdr.metric, nVecs := thdr.nVecs, handle := none, tids }
  let e := buildRevTidMap e
  let e :=
    { e with
      vramBytes := 0, lastSearch := env.now, warmupState := .hot, gpuDeviceId := shardedGpuId
      shardCount := shards.length, shards }
  restoreStale a (resetEntryStats e)

/-- A free slot after at most one eviction on `device`. -/
def makeSlot (cfg : Config) (env : Env) (d : Daemon) (device : ℕ) : Daemon :=
  if cfg.maxIndexes ≤ d.live.length then (evictLru cfg env d device).1 else d

/-- `none` means that there is no manifest and the index is not sharded. -/
def loadIndexSharded (cfg : Config) (env : Env) (d : Daemon) (key : Key) (thdr : TidsHeader)
    (tids : List Tid) : Daemon × Option LoadResult :=
  match (d.disk cfg.indexDir key).shards with
  | none => (d, none)
  | some m =>
    match cuvsShardsRead m with
    | none => (d, some .failed)
    | some (shdr, recs) =>
      if shdr.baseTidsCrc32 ≠ thdr.bodyCrc32 ∨ shdr.nVecs ≠ thdr.nVecs ∨ shdr.dim ≠ thdr.dim
          ∨ shdr.metric ≠ thdr.metric then (d, some .failed)
      else
        let d := makeSlot cfg env d (usableGpu cfg 0)
        if cfg.maxIndexes ≤ d.live.length then (d, some .failed)
        else
          match loadShards cfg env key 0 d recs with
          | (d, .error rc) => (d, some rc)
          | (d, .ok shards) =>
            let a := d.disk cfg.indexDir key
            ({ d with
               registry := d.registry.append fun _ => initSharded env key thdr tids shards a },
              some .loaded)

def initFlat (env : Env) (key : Key) (thdr : TidsHeader) (tids : List Tid) (gpu : ℕ)
    (a : Artifacts) (slot : IndexEntry) : IndexEntry :=
  let e :=
    { slot with
      key, dim := thdr.dim, metric := thdr.metric, nVecs := thdr.nVecs, handle := none
      ivfpqHandle := none, ivfpqNVecs := 0, ivfpqVramBytes := 0, tids
      revTids := none, revItemIds := none }
  let e := buildRevTidMap e
  let e :=
    { e with
      vramBytes := 0, lastSearch := env.now, gpuDeviceId := gpu, shardCount := 0, shards := []
      inflight := 0 }
  let e := clearMainBfFields (clearDeltaFields e)
  let e := { e with hnswIdx := none, nExtended := 0, compactCount := 0, lastCompactAt := 0
                    warmupState := .hot }
  restoreStale a { resetEntryStats e with isFlat := true, lastSearchMode := .gpuBf }

/-- The graph object an unsharded load finds: CAGRA first, then IVF-PQ. -/
def deserializeIndex (env : Env) (a : Artifacts) (gpu : ℕ) : Option (Cagra ⊕ IvfPq) :=
  match a.cagra.filter fun c => env.cagraDeserializes c gpu with
  | some c => some (.inl c)
  | none => (a.ivfpq.filter fun p => env.ivfpqDeserializes p gpu).map .inr

def initUnsharded (env : Env) (key : Key) (thdr : TidsHeader) (tids : List Tid)
    (graph : Cagra ⊕ IvfPq) (needed gpu : ℕ) (a : Artifacts) (slot : IndexEntry) : IndexEntry :=
  let ivfpq := graph.getRight?
  let e :=
    { slot with
      key, dim := thdr.dim, metric := thdr.metric, nVecs := thdr.nVecs
      handle := graph.getLeft?, ivfpqHandle := ivfpq
      ivfpqNVecs := if ivfpq.isSome then thdr.nVecs else 0, tids }
  let e := buildRevTidMap e
  let e :=
    { e with
      vramBytes := needed, lastSearch := env.now, gpuDeviceId := gpu, shardCount := 0
      shards := [] }
  let e := clearMainBfFields (clearDeltaFields e)
  let e := { e with ivfpqVramBytes := if ivfpq.isSome then e.ivfpqVramBytes else 0
                    warmupState := .hot }
  restoreStale a (resetEntryStats e)

def loadIndexFlat (cfg : Config) (env : Env) (d : Daemon) (key : Key) (thdr : TidsHeader)
    (tids : List Tid) : Daemon × LoadResult :=
  let gpu := (pickGpuForIndex cfg env d 0).getD (usableGpu cfg 0)
  let d := makeSlot cfg env d gpu
  if cfg.maxIndexes ≤ d.live.length then (d, .failed)
  else
    let a := d.disk cfg.indexDir key
    ({ d with registry := d.registry.append (initFlat env key thdr tids gpu a) }, .loaded)

def loadIndexUnsharded (cfg : Config) (env : Env) (d : Daemon) (key : Key) (thdr : TidsHeader)
    (tids : List Tid) : Daemon × LoadResult :=
  let needed := estimateVramBytes thdr.nVecs thdr.dim 64
  match pickGpuForIndex cfg env d needed with
  | none => (d, .vram)
  | some gpu =>
    match ensureVram cfg env d needed gpu with
    | (d, false) => (d, .vram)
    | (d, true) =>
      match deserializeIndex env (d.disk cfg.indexDir key) gpu with
      | none => (d, .failed)
      | some graph =>
        let d := makeSlot cfg env d gpu
        if cfg.maxIndexes ≤ d.live.length then (d, .failed)
        else
          let a := d.disk cfg.indexDir key
          ({ d with
             registry := d.registry.append (initUnsharded env key thdr tids graph needed gpu a) },
            .loaded)

def loadIndex (cfg : Config) (env : Env) (d : Daemon) (key : Key) : Daemon × LoadResult :=
  match (d.disk cfg.indexDir key).tids.bind cuvsTidsRead with
  | none => (d, .failed)
  | some (thdr, tids) =>
    if thdr.dim = 0 then (d, .failed)
    else
      match loadIndexSharded cfg env d key thdr tids with
      | (d, some rc) => (d, rc)
      | (d, none) =>
        let a := d.disk cfg.indexDir key
        -- `.vectors` alone make a flat index; beside a graph file they are its rows
        if a.cagra.isNone ∧ a.ivfpq.isNone ∧ a.vectors.isSome then
          loadIndexFlat cfg env d key thdr tids
        else loadIndexUnsharded cfg env d key thdr tids

def sampleIndexFiles : Artifacts :=
  { Artifacts.empty with
    tids := some (cuvsTidsWrite 1 .l2 [101, 102]), cagra := some ⟨[], [[10], [20]]⟩ }

end PgCuvs
