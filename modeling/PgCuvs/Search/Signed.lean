import PgCuvs.Search.Deferred

/-! The wire carries `k` as 32 bits without a sign and the handlers keep it in an `int`: from
`2 ^ 31` on they search with a negative one. Buffers of `k` results cannot be had then, the
kernels return at once and the loops up to `k` do not run. -/

namespace PgCuvs

variable {D : Type}

def bkTargetNeg (k : ℤ) (nFilterTids mainBfN : ℕ) : ℤ :=
  if nFilterTids = 0 then k
  else
    let sel : ℚ := if 0 < mainBfN then (nFilterTids : ℚ) / mainBfN else 0
    -- the conversion truncates, which is upwards here
    if 0 < sel then max (k * 4) (min ((k : ℚ) / sel * 2) mainBfN).ceil else k * 4

/-- It may wrap to a positive number. -/
def bkDepthNeg (frame : SearchFrame) (mainBfN : ℕ) : ℤ :=
  let k := int32 frame.k
  (min (min (bkTargetNeg k frame.nFilterTids mainBfN) mainBfN)
    (max (exactChunkCap frame.nVecs) k)).bmod (2 ^ 32)

/-- No row is kept, and the chunked search is not asked for any. -/
def dWedgeNegAt (env : Env) (senv : SearchEnv) (kern : Kernels D) (d : Daemon) (i : ℕ)
    (e : IndexEntry) (bf : BfIndex) (frame : SearchFrame) (query : Vec) (bk : ℤ) :
    SearchOutcome D :=
  let raw : Except ℕ (List (SearchResult D)) :=
    if 0 < bk then kern.bfSearch bf query bk.toNat (deltaGpuOf e) else .ok []
  match raw with
  | .error rc =>
    if rc = 2 then failEntry env d i e .dimMismatch "query dim != index dim"
    else failEntry env d i e .oomFallback "brute_force search failed"
  | .ok _ =>
    let filterTids := if 0 < frame.nFilterTids then mapFilter senv frame else none
    if cuvsFilterFrameRefuses frame.nFilterTids filterTids.isSome then
      failEntry env d i e .error "filter TID set unavailable; refusing to return unfiltered rows"
    else answerEntry env senv d i e frame.k .gpuBf [] false

def searchDWedgeNeg (env : Env) (senv : SearchEnv) (kern : Kernels D) (d : Daemon) (i : ℕ)
    (e : IndexEntry) (bf : BfIndex) (frame : SearchFrame) (query : Vec) : SearchOutcome D :=
  dWedgeNegAt env senv kern d i e bf frame query (bkDepthNeg frame e.mainBfN)

/-- The filtered kernels are asked for no row, as with `k = 0`. -/
def searchBruteForceNeg (cfg : Config) (env : Env) (senv : SearchEnv) (kern : Kernels D)
    (d : Daemon) (i : ℕ) (e : IndexEntry) (frame : SearchFrame) (query : Vec) :
    SearchOutcome D :=
  let e := refreshMainBfCache (d.disk cfg.indexDir e.key) (hasRoom env d i) env.bfBuilds
    frame.bfPrecision e
  if e.mainBfIdx.isNone ∧ prefilterReady frame e = false then
    failEntry env d i e .noVectors noVectorsError
  else
    match tryPrefilter kern senv { frame with k := 0 } query e with
    | (e, some (results, mode)) => answerEntry env senv d i e frame.k mode results false
    | (e, none) =>
      match e.mainBfIdx with
      | none =>
        failEntry env d i e .noVectors "prefilter failed and no brute-force vectors are available"
      | some bf => searchDWedgeNeg env senv kern d i e bf frame query

def mallocFailed : SearchReply D := .failure .error "malloc failed"

/-- `k + overfetch` as the shards get it. -/
def effKNeg (k overfetch : ℕ) : ℤ :=
  let sum := (int32 k + int32 overfetch).bmod (2 ^ 32)
  if sum < int32 k then int32 k else sum

def shardArgsNeg (frame : SearchFrame) (useBf : Bool) (e : IndexEntry) : List ShardSearchArg :=
  e.shards.map fun s =>
    { handle := s.handle, bfIdx := s.bfIdx, useBf
      sk := (min (s.nVecs : ℤ) (effKNeg frame.k frame.shardOverfetch)).toNat
      gpuDeviceId := s.gpuDeviceId, tidOffset := s.tidOffset, shardNVecs := s.nVecs }

def searchShardedNeg (cfg : Config) (env : Env) (d : Daemon) (i : ℕ) (e : IndexEntry)
    (frame : SearchFrame) (query : Vec) : SearchOutcome D :=
  let useBf := frame.searchMode == 1
  if 0 < frame.nFilterTids then
    failEntry env d i e .error "filtered search is not implemented for sharded indexes"
  else
    let (e, ready) :=
      if useBf then
        refreshShardBfCaches (d.disk cfg.indexDir e.key) (hasRoom env d i) env.bfBuilds
          frame.bfPrecision e
      else (e, true)
    if !ready then failEntry env d i e .noVectors noVectorsError
    else
      let args := shardArgsNeg frame useBf e
      let e := { e with inflight := e.inflight + 1 }
      .fanout (d.setEntry i e) { key := e.key, frame, query, useBf, args }

/-- A CPU graph that is there, and the immediate CAGRA path, end at the first buffer. The queue is
passed by, as when it is full. -/
def searchGraphNeg (cfg : Config) (senv : SearchEnv) (d : Daemon) (i : ℕ) (e : IndexEntry)
    (frame : SearchFrame) (query : Vec) : SearchOutcome D :=
  let e := if frame.useCpuHnsw then loadHnsw (d.disk cfg.indexDir e.key) senv e else e
  let d := d.setEntry i e
  if frame.useCpuHnsw ∧ e.hnswIdx.isSome then .reply d mallocFailed
  else if 0 < frame.cagraBatchWaitUs ∧ senv.batchWorkerStarted = true ∧ frame.nFilterTids = 0
      ∧ e.handle.isSome then .resume d 0 query
  else .reply d mallocFailed

section Replies

variable {cfg : Config} {env : Env} {senv : SearchEnv} {kern : Kernels D} {d : Daemon} {i : ℕ}
  {e : IndexEntry} {frame : SearchFrame} {query : Vec}

theorem dWedgeNegAt_replies (bf : BfIndex) (bk : ℤ) :
    ∃ d' r, dWedgeNegAt env senv kern d i e bf frame query bk = .reply d' r := by
  unfold dWedgeNegAt
  dsimp only
  split
  · split_ifs <;> exact ⟨_, _, rfl⟩
  · split_ifs <;> exact ⟨_, _, rfl⟩

theorem searchBruteForceNeg_replies :
    ∃ d' r, searchBruteForceNeg cfg env senv kern d i e frame query = .reply d' r := by
  unfold searchBruteForceNeg
  dsimp only
  split
  · exact ⟨_, _, rfl⟩
  split
  · exact ⟨_, _, rfl⟩
  split
  · exact ⟨_, _, rfl⟩
  · exact dWedgeNegAt_replies _ _

theorem searchGraphNeg_filtered (hfilter : 0 < frame.nFilterTids) :
    ∃ d', (searchGraphNeg cfg senv d i e frame query : SearchOutcome D) = .reply d' mallocFailed := by
  unfold searchGraphNeg
  generalize (if frame.useCpuHnsw then loadHnsw (d.disk cfg.indexDir e.key) senv e else e) = e'
  dsimp only
  split
  · exact ⟨_, rfl⟩
  · exact ⟨_, if_neg fun hwait => hfilter.ne' hwait.2.2.1⟩

end Replies

section Dispatch

variable [LT D] [DecidableLT D]

/-- `searchEntry` with the `k` of the wire. -/
def searchEntryInt (cfg : Config) (env : Env) (senv : SearchEnv) (kern : Kernels D) (d : Daemon)
    (i : ℕ) (e : IndexEntry) (frame : SearchFrame) (query : Vec) : SearchOutcome D :=
  if frame.k ≤ int32Max then searchEntry cfg env senv kern d i e frame query
  else if (frame.searchMode = 1 ∨ e.isFlat) ∧ e.shardCount < 2 then
    if bfBatchGate senv frame e then .resume d 1 query
    else searchBruteForceNeg cfg env senv kern d i e frame query
  else if 2 ≤ e.shardCount then searchShardedNeg cfg env d i e frame query
  else searchGraphNeg cfg senv d i e frame query

theorem searchEntryInt_fanout {cfg : Config} {env : Env} {senv : SearchEnv} {kern : Kernels D}
    {d d' : Daemon} {i : ℕ} {e : IndexEntry} {frame : SearchFrame} {query : Vec} {f : Fanout}
    (hk : int32Max < frame.k)
    (h : searchEntryInt cfg env senv kern d i e frame query = .fanout d' f) : f.frame = frame := by
  unfold searchEntryInt at h
  rw [if_neg (not_le.mpr hk)] at h
  split_ifs at h
  · obtain ⟨d1, r, hreply⟩ := @searchBruteForceNeg_replies D cfg env senv kern d i e frame query
    exact nomatch hreply.symm.trans h
  · unfold searchShardedNeg at h
    dsimp only at h
    split_ifs at h <;> cases h <;> rfl
  · unfold searchGraphNeg at h
    dsimp only at h
    split_ifs at h

/-- What comes before the sections does not look at `k`. -/
def handleSearchInt (cfg : Config) (env : Env) (senv : SearchEnv) (kern : Kernels D) (d : Daemon)
    (frame : SearchFrame) : SearchOutcome D :=
  match searchEntered cfg env senv d frame with
  | some (d, i, e, query) => searchEntryInt cfg env senv kern d i e frame query
  | none => handleSearch cfg env senv kern d frame

theorem handleSearchInt_entered {cfg : Config} {env : Env} {senv : SearchEnv} (kern : Kernels D)
    {d d1 : Daemon} {i : ℕ} {e : IndexEntry} {frame : SearchFrame} {query : Vec}
    (h : searchEntered cfg env senv d frame = some (d1, i, e, query)) :
    handleSearchInt cfg env senv kern d frame
      = searchEntryInt cfg env senv kern d1 i e frame query := by
  rw [handleSearchInt, h]

def resumeSearchInt (cfg : Config) (env : Env) (senv : SearchEnv) (kern : Kernels D) (d : Daemon)
    (frame : SearchFrame) (mode : ℕ) (query : Vec) : SearchOutcome D :=
  if frame.k ≤ int32Max then resumeSearch cfg env senv kern d frame mode query
  else
    match (findIndex d.live frame.key).bind fun i => d.live[i]?.map fun e => (i, e) with
    | none => .reply d (SearchReply.failure .notFound "")
    | some (i, e) =>
      if mode = 1 then searchBruteForceNeg cfg env senv kern d i e frame query
      else .reply d mallocFailed

/-- The shards have run when there is no buffer for the candidates. -/
def finishFanoutInt (cfg : Config) (env : Env) (senv : SearchEnv) (kern : Kernels D) (d : Daemon)
    (f : Fanout) : Daemon × SearchReply D :=
  if f.frame.k ≤ int32Max then finishFanout cfg env senv kern d f
  else
    match (findIndex d.live f.key).bind fun i => d.live[i]?.map fun e => (i, e) with
    | none =>
      (d, SearchReply.failure .oomFallback "sharded index vanished mid-search; CPU fallback")
    | some (i, e) =>
      let outs := f.args.map fun a => (a, shardSearchWorker kern f.frame f.query a)
      let e := recordFanout outs e
      if outs.any fun o => exceptFailed o.2 then
        let error := "sharded search failed on a shard; CPU fallback"
        (d.setEntry i (recordSearchStat env.now e .oomFallback 0 (some error)),
          SearchReply.failure .oomFallback error)
      else (d.setEntry i e, mallocFailed)

end Dispatch

end PgCuvs
