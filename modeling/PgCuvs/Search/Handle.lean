import PgCuvs.Load
import PgCuvs.Search.BruteForce

/-! `handle_search`: lookup with reload, the checks every path shares, and the
dispatch to brute force, sharded fanout, CPU HNSW or CAGRA. -/

namespace PgCuvs

variable {D : Type}

def warmupQueueMax : ℕ := 64

/-- A job is queued at most once and only while the ring has room. -/
def warmupEnqueue (queue : List WarmupJob) (job : WarmupJob) : List WarmupJob :=
  if queue.any (fun j => j.key == job.key) then queue
  else if warmupQueueMax ≤ queue.length then queue
  else queue ++ [job]

/-- A search for an index known only from a snapshot asks for its download. -/
def noteColdMiss (cfg : Config) (d : Daemon) (key : Key) : Daemon :=
  if cfg.snapshotUri = "" then d
  else
    match d.cold.findIdx? (fun c => c.key == key) with
    | none => d
    | some ci =>
      match d.cold[ci]? with
      | none => d
      | some c =>
        let c := { c with cacheMissCount := c.cacheMissCount + 1 }
        if c.warmupState = .cold ∨ c.warmupState = .failed then
          { d with
            cold := d.cold.set ci { c with warmupState := .queued }
            warmupQueue := warmupEnqueue d.warmupQueue
              { key, relfilenode := c.relfilenode, tableOid := c.tableOid, fromCacheMiss := true } }
        else { d with cold := d.cold.set ci c }

def searchResolve (cfg : Config) (env : Env) (d : Daemon) (key : Key) :
    Daemon × Except Status (ℕ × IndexEntry) :=
  match findIndex d.live key with
  | some i =>
    match d.live[i]? with
    | some e => ({ d with counters := { d.counters with hits := cacheCounterBump d.counters.hits e } },
        .ok (i, e))
    | none => (d, .error .notFound)
  | none =>
    match loadIndex cfg env d key with
    | (d, .loaded) =>
      match findIndex d.live key with
      | some i =>
        match d.live[i]? with
        | some e =>
          ({ d with counters :=
              { d.counters with
                reloads := cacheCounterBump d.counters.reloads e
                misses := cacheCounterBump d.counters.misses e } }, .ok (i, e))
        | none => (noteColdMiss cfg d key, .error .notFound)
      | none => (noteColdMiss cfg d key, .error .notFound)
    | (d, rc) =>
      let d := { d with counters :=
        { d.counters with misses := bump d.counters.misses (usableGpu cfg 0) } }
      -- a lack of memory is no reason to download the index
      if rc = .vram then (d, .error .oomFallback)
      else (noteColdMiss cfg d key, .error .notFound)

def shardArgs (frame : SearchFrame) (useBf : Bool) (e : IndexEntry) : List ShardSearchArg :=
  e.shards.map fun s =>
    { handle := s.handle, bfIdx := s.bfIdx, useBf
      sk := min s.nVecs (effK frame.k frame.shardOverfetch)
      gpuDeviceId := s.gpuDeviceId, tidOffset := s.tidOffset, shardNVecs := s.nVecs }

/-- The locked part of a sharded search: it never consumes a whitelist. -/
def searchSharded (cfg : Config) (env : Env) (d : Daemon) (i : ℕ) (e : IndexEntry)
    (frame : SearchFrame) (query : Vec) : SearchOutcome D :=
  let useBf := frame.searchMode == 1
  if 0 < frame.nFilterTids then
    failEntry env d i e .error "filtered search is not implemented for sharded indexes"
  else
    let (e, ready) :=
      if useBf then
        refreshShardBfCaches (d.disk cfg.indexDir e.key) (hasRoom env d i) env.bfBuilds
          frame.bfPrecision e
      else (e, true)
    if !ready then failEntry env d i e .noVectors noVectorsError
    else
      let args := shardArgs frame useBf e
      let e := { e with inflight := e.inflight + 1 }
      .fanout (d.setEntry i e) { key := e.key, frame, query, useBf, args }

def loadHnsw (a : Artifacts) (senv : SearchEnv) (e : IndexEntry) : IndexEntry :=
  if e.hnswIdx.isSome then e
  else { e with hnswIdx := a.hnsw.filter senv.hnswDeserializes }

/-- Answer from the CPU graph when it is there and its search succeeds. -/
def tryCpuHnsw (a : Artifacts) (senv : SearchEnv) (kern : Kernels D) (frame : SearchFrame)
    (query : Vec) (e : IndexEntry) : IndexEntry × Option (List (CuvsResult D)) :=
  if frame.useCpuHnsw then
    let e := loadHnsw a senv e
    match e.hnswIdx with
    | none => (e, none)
    | some h =>
      match kern.hnswSearch h query frame.k with
      | .ok raw => (e, some ((raw.take frame.k).filterMap (baseResult e)))
      | .error _ => (e, none)
  else (e, none)

variable [LT D] [DecidableLT D]

def searchDelta (kern : Kernels D) (query : Vec) (k device : ℕ) (e : IndexEntry) :
    Option (List (SearchResult D)) × ℕ :=
  match e.deltaIdx with
  | none => (none, 0)
  | some bf =>
    if e.nDelta = 0 then (none, 0)
    else
      let nDc := min k e.nDelta
      match kern.bfSearch bf query nDc device with
      | .ok draw => (some draw, nDc)
      | .error _ => (none, 0)

def searchCagra (cfg : Config) (env : Env) (senv : SearchEnv) (kern : Kernels D) (d : Daemon)
    (i : ℕ) (e : IndexEntry) (frame : SearchFrame) (query : Vec) : SearchOutcome D :=
  match e.handle with
  | none => failEntry env d i e .noVectors "index has no CAGRA graph (flat/brute-force only)"
  | some h =>
    match kern.cagraSearch h query frame.k e.gpuDeviceId frame.itopkSize frame.searchWidth with
    | .error rc =>
      if rc = 2 then failEntry env d i e .dimMismatch "query dim != index dim"
      else failEntry env d i e .oomFallback "CAGRA search failed"
    | .ok raw =>
      let e := refreshDeltaCache (d.disk cfg.indexDir e.key) (hasRoom env d i) env.bfBuilds e
      let (draw, nDc) := searchDelta kern query frame.k e.gpuDeviceId e
      let (e, results, deltaMerged) := cagraFinishOne e raw frame.k draw nDc
      answerEntry env senv d i e frame.k .gpuCagra results deltaMerged

/-- The CPU HNSW section and the CAGRA section behind it. -/
def searchGraph (cfg : Config) (env : Env) (senv : SearchEnv) (kern : Kernels D) (d : Daemon)
    (i : ℕ) (e : IndexEntry) (frame : SearchFrame) (query : Vec) : SearchOutcome D :=
  match tryCpuHnsw (d.disk cfg.indexDir e.key) senv kern frame query e with
  | (e, some results) => answerEntry env senv d i e frame.k .cpuHnsw results false
  | (e, none) =>
    let d := d.setEntry i e
    if 0 < frame.cagraBatchWaitUs ∧ senv.batchWorkerStarted = true ∧ frame.nFilterTids = 0
        ∧ e.handle.isSome then
      if senv.batchQueueHasRoom then
        .batched d
          { key := ⟨frame.key, 0, frame.dim, 0, frame.itopkSize, frame.searchWidth⟩, query
            k := frame.k, waitUs := frame.cagraBatchWaitUs }
      -- a full queue sends the request back to the immediate path
      else .resume d 0 query
    else searchCagra cfg env senv kern d i e frame query

def bfBatchGate (senv : SearchEnv) (frame : SearchFrame) (e : IndexEntry) : Bool :=
  decide (0 < frame.bfBatchWaitUs) && senv.batchWorkerStarted && !prefilterReady frame e

def searchEntry (cfg : Config) (env : Env) (senv : SearchEnv) (kern : Kernels D) (d : Daemon)
    (i : ℕ) (e : IndexEntry) (frame : SearchFrame) (query : Vec) : SearchOutcome D :=
  if (frame.searchMode = 1 ∨ e.isFlat) ∧ e.shardCount < 2 then
    if bfBatchGate senv frame e then
      if senv.batchQueueHasRoom then
        .batched d
          { key := ⟨frame.key, frame.bfPrecision, frame.dim, 1, 0, 0⟩, query, k := frame.k
            waitUs := frame.bfBatchWaitUs }
      else .resume d 1 query
    else searchBruteForce cfg env senv kern d i e frame query
  else if 2 ≤ e.shardCount then searchSharded cfg env d i e frame query
  else searchGraph cfg env senv kern d i e frame query

def handleSearch (cfg : Config) (env : Env) (senv : SearchEnv) (kern : Kernels D) (d : Daemon)
    (frame : SearchFrame) : SearchOutcome D :=
  match searchResolve cfg env d frame.key with
  | (d, .error status) => .reply d (SearchReply.failure status "")
  | (d, .ok (i, e)) =>
    let e := { e with lastSearch := env.now }
    let d := d.setEntry i e
    if e.stale then failEntry env d i e .stale "index stale (writes since build)"
    else if frame.metric ≠ e.metric then
      failEntry env d i e .metricMismatch
        s!"index built with metric {e.metric.code} but queried with metric {frame.metric.code}; REINDEX required"
    else
      match senv.query with
      | .error fault => .reply d (SearchReply.failure .error fault.message)
      | .ok query =>
        if frame.dim ≠ e.dim then
          failEntry env d i e .dimMismatch
            s!"query dim {frame.dim} does not match index dim {e.dim}"
        else searchEntry cfg env senv kern d i e frame query

/-- What a SEARCH has when it gets to its sections; without it the reply is an error. -/
def searchEntered (cfg : Config) (env : Env) (senv : SearchEnv) (d : Daemon) (frame : SearchFrame) :
    Option (Daemon × ℕ × IndexEntry × Vec) :=
  match searchResolve cfg env d frame.key, senv.query with
  | (d, .ok (i, e)), .ok query =>
    if e.stale = true ∨ frame.metric ≠ e.metric ∨ frame.dim ≠ e.dim then none
    else
      some (d.setEntry i { e with lastSearch := env.now }, i, { e with lastSearch := env.now }, query)
  | _, _ => none

/-- A request that did not fit in the queue looks its entry up again. -/
def resumeSearch (cfg : Config) (env : Env) (senv : SearchEnv) (kern : Kernels D) (d : Daemon)
    (frame : SearchFrame) (mode : ℕ) (query : Vec) : SearchOutcome D :=
  match findIndex d.live frame.key with
  | none => .reply d (SearchReply.failure .notFound "")
  | some i =>
    match d.live[i]? with
    | none => .reply d (SearchReply.failure .notFound "")
    | some e =>
      if mode = 1 then searchBruteForce cfg env senv kern d i e frame query
      else searchCagra cfg env senv kern d i e frame query

section Immediate

variable {cfg : Config} {env : Env} {senv : SearchEnv} {kern : Kernels D} {d d' : Daemon} {i : ℕ}
  {e : IndexEntry} {frame : SearchFrame} {query : Vec}

theorem searchDWedge_replies (bf : BfIndex) :
    ∃ d' r, searchDWedge cfg env senv kern d i e bf frame query = .reply d' r := by
  unfold searchDWedge
  simp only
  split
  · split <;> exact ⟨_, _, rfl⟩
  · generalize (if 0 < frame.nFilterTids then (mapFilter senv frame).map cuvsU64Sort else none)
      = filterTids
    split
    · exact ⟨_, _, rfl⟩
    · split
      · split
        · split <;> exact ⟨_, _, rfl⟩
        · exact ⟨_, _, rfl⟩
      · exact ⟨_, _, rfl⟩

theorem searchBruteForce_replies :
    ∃ d' r, searchBruteForce cfg env senv kern d i e frame query = .reply d' r := by
  unfold searchBruteForce
  simp only
  split
  · exact ⟨_, _, rfl⟩
  · split
    · exact ⟨_, _, rfl⟩
    · split
      · exact ⟨_, _, rfl⟩
      · exact searchDWedge_replies _

theorem searchCagra_replies :
    ∃ d' r, searchCagra cfg env senv kern d i e frame query = .reply d' r := by
  unfold searchCagra
  split
  · exact ⟨_, _, rfl⟩
  · split
    · split <;> exact ⟨_, _, rfl⟩
    · exact ⟨_, _, rfl⟩

theorem searchEntry_fanout {f : Fanout}
    (h : searchEntry cfg env senv kern d i e frame query = .fanout d' f) :
    (searchSharded cfg env d i e frame query : SearchOutcome D) = .fanout d' f := by
  unfold searchEntry at h
  split_ifs at h
  · obtain ⟨d1, r, hreply⟩ := @searchBruteForce_replies D _ _ cfg env senv kern d i e frame query
    exact nomatch hreply.symm.trans h
  · exact h
  · unfold searchGraph at h
    split at h
    · exact nomatch h
    · rename_i e1 _
      dsimp only at h
      split_ifs at h
      obtain ⟨d1, r, hreply⟩ :=
        @searchCagra_replies D _ _ cfg env senv kern (d.setEntry i e1) i e1 frame query
      exact nomatch hreply.symm.trans h

end Immediate

end PgCuvs
