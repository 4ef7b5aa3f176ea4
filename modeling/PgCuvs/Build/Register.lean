import PgCuvs.Build.Request

/-! What the builds and the write side put into a found or a fresh slot, as the last
step of a request. -/

namespace PgCuvs

/-- A CAGRA build that has released the lock. -/
structure BuildTicket where
  frame : BuildFrame
  saveDir : Dir
  corpus : Corpus
  vectors : VectorsFile
  targetGpu : ℕ
  needed : ℕ

def installBuild (now : ℕ) (t : BuildTicket) (graph : Cagra) (e : IndexEntry) : IndexEntry :=
  let e :=
    { e with
      revTids := none, revItemIds := none, shardCount := 0, shards := []
      gpuDeviceId := t.targetGpu, dim := t.frame.dim, metric := t.frame.metric
      nVecs := t.corpus.tids.length, handle := some graph, tids := t.corpus.tids
      vramBytes := t.needed, lastSearch := now, stale := false, staleSince := 0 }
  let e := { freeDeltaCache e with hnswIdx := none, ivfpqHandle := none, lastSearchMode := .gpuCagra }
  buildRevTidMap
    { resetEntryStats e with
      graphDegree := t.frame.graphDegree, nExtended := 0, compactCount := e.compactCount + 1
      lastCompactAt := now }

def initBuild (now : ℕ) (t : BuildTicket) (graph : Cagra) (slot : IndexEntry) : IndexEntry :=
  let e :=
    { slot with
      key := t.frame.key, dim := t.frame.dim, metric := t.frame.metric
      nVecs := t.corpus.tids.length, handle := some graph, tids := t.corpus.tids
      vramBytes := t.needed, lastSearch := now, stale := false, staleSince := 0 }
  let e := clearMainBfFields (clearDeltaFields e)
  let e :=
    { e with
      warmupState := .hot, gpuDeviceId := t.targetGpu, shardCount := 0, shards := []
      hnswIdx := none, ivfpqHandle := none, ivfpqNVecs := 0, ivfpqVramBytes := 0
      lastSearchMode := .gpuCagra, nExtended := 0, compactCount := 0, lastCompactAt := 0
      revTids := none, revItemIds := none }
  { resetEntryStats (buildRevTidMap e) with graphDegree := t.frame.graphDegree }

/-- `build_sharded`, on the resident entry or on a zeroed slot. The reverse map,
the CPU graph and an IVF-PQ handle stay. -/
def installSharded (now : ℕ) (frame : BuildFrame) (tids : List Tid) (shards : List ShardEntry)
    (e : IndexEntry) : IndexEntry :=
  let e :=
    { e with
      key := frame.key, dim := frame.dim, metric := frame.metric, nVecs := tids.length
      handle := none, tids, vramBytes := 0, lastSearch := now, stale := false, staleSince := 0 }
  let e := clearMainBfFields (clearDeltaFields e)
  resetEntryStats
    { e with
      warmupState := .hot, gpuDeviceId := shardedGpuId, shardCount := shards.length, shards
      inflight := 0 }

def installFlat (now : ℕ) (frame : BuildFrame) (tids : List Tid) (gpu : ℕ) (e : IndexEntry) :
    IndexEntry :=
  let e := { freeMainBfCache (freeDeltaCache e) with hnswIdx := none }
  let e :=
    { e with
      handle := none, ivfpqHandle := none, ivfpqNVecs := 0, ivfpqVramBytes := 0, tids
      dim := frame.dim, metric := frame.metric, nVecs := tids.length, vramBytes := 0
      shardCount := 0, shards := [], inflight := 0, gpuDeviceId := gpu, lastSearch := now
      stale := false, staleSince := 0, nExtended := 0, compactCount := 0, lastCompactAt := 0
      warmupState := .hot, lastSearchMode := .gpuBf, revTids := none, revItemIds := none }
  { resetEntryStats (buildRevTidMap e) with isFlat := true }

def initFlatBuild (now : ℕ) (frame : BuildFrame) (tids : List Tid) (gpu : ℕ) (slot : IndexEntry) :
    IndexEntry :=
  let e :=
    { slot with
      key := frame.key, dim := frame.dim, metric := frame.metric, nVecs := tids.length
      handle := none, ivfpqHandle := none, ivfpqNVecs := 0, ivfpqVramBytes := 0, tids
      revTids := none, revItemIds := none }
  let e :=
    { buildRevTidMap e with
      vramBytes := 0, lastSearch := now, stale := false, staleSince := 0, shardCount := 0
      shards := [], inflight := 0, gpuDeviceId := gpu }
  let e := clearMainBfFields (clearDeltaFields e)
  let e :=
    { e with
      hnswIdx := none, nExtended := 0, compactCount := 0, lastCompactAt := 0, warmupState := .hot
      lastSearchMode := .gpuBf }
  { resetEntryStats e with isFlat := true }

/-- `handle_build_ivfpq` on the resident entry. The shard fields stay. -/
def installIvfpq (now : ℕ) (frame : BuildFrame) (tids : List Tid) (ivfpq : IvfPq) (needed gpu : ℕ)
    (e : IndexEntry) : IndexEntry :=
  let e := { freeMainBfCache (freeDeltaCache e) with hnswIdx := none }
  let e :=
    { e with
      handle := none, ivfpqHandle := some ivfpq, ivfpqNVecs := tids.length
      ivfpqVramBytes := needed, tids, dim := frame.dim, metric := frame.metric
      nVecs := tids.length, vramBytes := needed, gpuDeviceId := gpu, lastSearch := now
      stale := false, staleSince := 0, lastSearchMode := .ivfpq }
  buildRevTidMap { resetEntryStats e with nExtended := 0, revTids := none, revItemIds := none }

def initIvfpq (now : ℕ) (frame : BuildFrame) (tids : List Tid) (ivfpq : IvfPq) (needed gpu : ℕ)
    (slot : IndexEntry) : IndexEntry :=
  let e :=
    { slot with
      key := frame.key, dim := frame.dim, metric := frame.metric, nVecs := tids.length
      handle := none, ivfpqHandle := some ivfpq, ivfpqNVecs := tids.length
      ivfpqVramBytes := needed, tids, vramBytes := needed, lastSearch := now, stale := false
      staleSince := 0, shardCount := 0, shards := [], gpuDeviceId := gpu }
  let e := clearMainBfFields (clearDeltaFields e)
  buildRevTidMap
    (resetEntryStats { e with hnswIdx := none, warmupState := .hot, lastSearchMode := .ivfpq })

/-- What the device holds after the rows of an EXTEND are in the graph. -/
def extendedGraph (g : Cagra) (image : List UInt8) (vecs : List Vec) : Cagra :=
  { image, rows := g.rows ++ vecs }

def extendEntry (g : Cagra) (image : List UInt8) (new : Corpus) (e : IndexEntry) : IndexEntry :=
  let n := e.nVecs + new.tids.length
  buildRevTidMap
    { e with
      handle := some (extendedGraph g image new.vecs)
      tids := e.tids.take e.nVecs ++ new.tids
      nVecs := n
      nExtended := e.nExtended + new.tids.length
      vramBytes := estimateVramBytes n e.dim e.graphDegree
      revTids := none, revItemIds := none }

/-- The kernel failed after `cagra::extend` had changed the graph: only the TIDs are rolled back. -/
def extendFailedEntry (g : Cagra) (image : List UInt8) (new : Corpus) (e : IndexEntry) : IndexEntry :=
  { e with handle := some (extendedGraph g image new.vecs) }

/-- Both the kernel and the TID loop of COMPACT keep the marked items, in order. -/
def keepMarked {α : Type*} (keep : List Bool) (items : List α) : List α :=
  ((items.zip keep).filter Prod.snd).map Prod.fst

theorem keepMarked_cons {α : Type*} (b : Bool) (keep : List Bool) (x : α) (items : List α) :
    keepMarked (b :: keep) (x :: items)
      = if b then x :: keepMarked keep items else keepMarked keep items := by
  cases b <;> simp [keepMarked]

theorem keepMarked_sublist {α : Type*} (keep : List Bool) (items : List α) :
    (keepMarked keep items).Sublist items := by
  induction items generalizing keep with
  | nil => simp [keepMarked]
  | cons x items ih =>
    cases keep with
    | nil => simp [keepMarked]
    | cons b keep =>
      rw [keepMarked_cons]
      split_ifs
      · exact (ih keep).cons_cons x
      · exact (ih keep).cons x

theorem keepMarked_map {α β : Type*} (f : α → β) (keep : List Bool) (items : List α) :
    keepMarked keep (items.map f) = (keepMarked keep items).map f := by
  induction items generalizing keep with
  | nil => simp [keepMarked]
  | cons x items ih =>
    cases keep with
    | nil => simp [keepMarked]
    | cons b keep =>
      rw [List.map_cons, keepMarked_cons, keepMarked_cons, ih]
      split_ifs <;> rfl

def compactEntry (now : ℕ) (g : Cagra) (image : List UInt8) (keep : List Bool) (e : IndexEntry) :
    IndexEntry :=
  let tids := keepMarked keep (e.tids.take e.nVecs)
  buildRevTidMap
    { e with
      handle := some { image, rows := keepMarked keep g.rows }
      tids, nVecs := tids.length, nExtended := 0
      compactCount := e.compactCount + 1, lastCompactAt := now
      vramBytes := estimateVramBytes tids.length e.dim e.graphDegree
      revTids := none, revItemIds := none }

def flagStale (now : ℕ) (e : IndexEntry) : IndexEntry :=
  if e.stale then e else { e with stale := true, staleSince := now }

/-- What DROP leaves in the slot: the CPU graph and an IVF-PQ handle stay. -/
def freeDropped (e : IndexEntry) : IndexEntry :=
  let e := freeMainBfCache (freeDeltaCache e)
  let e := if 2 ≤ e.shardCount then freeIndexShards e else e
  { e with revTids := none, revItemIds := none }

inductive EntryWrite where
  | build (now : ℕ) (t : BuildTicket) (graph : Cagra)
  | sharded (now : ℕ) (frame : BuildFrame) (tids : List Tid) (shards : List ShardEntry)
  | flat (now : ℕ) (frame : BuildFrame) (tids : List Tid) (gpu : ℕ)
  | ivfpq (now : ℕ) (frame : BuildFrame) (tids : List Tid) (ivfpq : IvfPq) (needed gpu : ℕ)
  | extend (g : Cagra) (image : List UInt8) (new : Corpus)
  | extendFailed (g : Cagra) (image : List UInt8) (new : Corpus)
  | compact (now : ℕ) (g : Cagra) (image : List UInt8) (keep : List Bool)
  | stale (now : ℕ)

def EntryWrite.apply : EntryWrite → IndexEntry → IndexEntry
  | .build now t graph => installBuild now t graph
  | .sharded now frame tids shards => installSharded now frame tids shards
  | .flat now frame tids gpu => installFlat now frame tids gpu
  | .ivfpq now frame tids codes needed gpu => installIvfpq now frame tids codes needed gpu
  | .extend g image new => extendEntry g image new
  | .extendFailed g image new => extendFailedEntry g image new
  | .compact now g image keep => compactEntry now g image keep
  | .stale now => flagStale now

inductive SlotInit where
  | loadSharded (env : Env) (key : Key) (thdr : TidsHeader) (tids : List Tid)
      (shards : List ShardEntry) (a : Artifacts)
  | loadFlat (env : Env) (key : Key) (thdr : TidsHeader) (tids : List Tid) (gpu : ℕ) (a : Artifacts)
  | loadUnsharded (env : Env) (key : Key) (thdr : TidsHeader) (tids : List Tid)
      (graph : Cagra ⊕ IvfPq) (needed gpu : ℕ) (a : Artifacts)
  | build (now : ℕ) (t : BuildTicket) (graph : Cagra)
  | sharded (now : ℕ) (frame : BuildFrame) (tids : List Tid) (shards : List ShardEntry)
  | flat (now : ℕ) (frame : BuildFrame) (tids : List Tid) (gpu : ℕ)
  | ivfpq (now : ℕ) (frame : BuildFrame) (tids : List Tid) (ivfpq : IvfPq) (needed gpu : ℕ)

def SlotInit.apply : SlotInit → IndexEntry → IndexEntry
  | .loadSharded env key thdr tids shards a => fun _ => initSharded env key thdr tids shards a
  | .loadFlat env key thdr tids gpu a => initFlat env key thdr tids gpu a
  | .loadUnsharded env key thdr tids graph needed gpu a =>
    initUnsharded env key thdr tids graph needed gpu a
  | .build now t graph => initBuild now t graph
  | .sharded now frame tids shards => fun _ => installSharded now frame tids shards IndexEntry.zero
  | .flat now frame tids gpu => initFlatBuild now frame tids gpu
  | .ivfpq now frame tids codes needed gpu => initIvfpq now frame tids codes needed gpu

inductive RegistryAction where
  | keep
  | replace (i : ℕ) (w : EntryWrite)
  | register (c : SlotInit)
  | remove (i : ℕ)

def Registry.act (r : Registry) : RegistryAction → Registry
  | .keep => r
  | .replace i w =>
    match r.live[i]? with
    | some e => r.set i (w.apply e)
    | none => r
  | .register c => r.append c.apply
  | .remove i =>
    match r.live[i]? with
    | some e => r.removeIdx i (freeDropped e)
    | none => r

def Daemon.act (d : Daemon) (action : RegistryAction) : Daemon :=
  { d with registry := d.registry.act action }

/-- A request up to its last step on the registry. -/
structure Effect where
  daemon : Daemon
  action : RegistryAction
  reply : Reply

def Effect.final (x : Effect) : Daemon := x.daemon.act x.action

def Effect.failure (d : Daemon) (status : Status) (error : String) : Effect :=
  ⟨d, .keep, ⟨status, error⟩⟩

/-- Replace the entry of an index, or take a slot for it. A full registry is no
failure: the files are there for a later load. -/
def installEntry (cfg : Config) (env : Env) (d : Daemon) (key : Key) (gpu : ℕ) (w : EntryWrite)
    (c : SlotInit) : Effect :=
  match findIndex d.live key with
  | some i => ⟨d, .replace i w, .ok⟩
  | none =>
    let d := makeSlot cfg env d gpu
    if cfg.maxIndexes ≤ d.live.length then ⟨d, .keep, .ok⟩ else ⟨d, .register c, .ok⟩

end PgCuvs
