import PgCuvs.Search.Handle

/-! What becomes of a search after it let go of the index lock: the batch
worker's group runs and the merge of a shard fanout. Both find the entry again
in whatever state the daemon has reached by then. -/

namespace PgCuvs

variable {D : Type}

def batchResolve (cfg : Config) (env : Env) (d : Daemon) (key : Key) :
    Daemon × Option (ℕ × IndexEntry) :=
  let lookup (d : Daemon) : Option (ℕ × IndexEntry) :=
    (findIndex d.live key).bind fun i => d.live[i]?.map fun e => (i, e)
  match lookup d with
  | some found => (d, some found)
  | none =>
    match loadIndex cfg env d key with
    | (d, .loaded) => (d, lookup d)
    | (d, _) => (d, none)

def failGroup (reqs : List BatchRequest) (status : Status) : List (SearchReply D) :=
  reqs.map fun _ => SearchReply.failure status ""

def batchAnswer (latencyUs : ℕ) (deltaMerged : Bool) (results : List (CuvsResult D)) :
    SearchReply D :=
  { status := .ok, results, latencyUs, deltaMerged, error := "" }

/-- One OK search recorded per request of the group. -/
def recordGroup (env : Env) (latencyUs n : ℕ) (e : IndexEntry) : IndexEntry :=
  (List.range n).foldl (fun e _ => recordSearchStat env.now e .ok latencyUs none) e

def failFound (env : Env) (d : Daemon) (i : ℕ) (e : IndexEntry) (reqs : List BatchRequest)
    (status : Status) : Daemon × List (SearchReply D) :=
  (d.setEntry i (recordSearchStat env.now e status 0 none), failGroup reqs status)

/-- Run one coalesced brute-force group; the requests carry no whitelist. -/
def bfBatchRunGroup (cfg : Config) (env : Env) (kern : Kernels D) (latencyUs : ℕ) (d : Daemon)
    (r0 : BatchRequest) (reqs : List BatchRequest) : Daemon × List (SearchReply D) :=
  match batchResolve cfg env d r0.key.key with
  | (d, none) => (d, failGroup reqs .notFound)
  | (d, some (i, e)) =>
    if e.stale then failFound env d i e reqs .stale
    else
      let e := refreshMainBfCache (d.disk cfg.indexDir e.key) (hasRoom env d i) env.bfBuilds
        r0.key.precision e
      match e.mainBfIdx with
      | none => failFound env d i e reqs .noVectors
      | some bf =>
        let kMax := min ((reqs.map BatchRequest.k).foldr max 0) e.nVecs
        match kern.bfSearchBatch bf (reqs.map BatchRequest.query) kMax (deltaGpuOf e) with
        | .error _ => failFound env d i e reqs .oomFallback
        | .ok raw =>
          -- the pending rows are left to the backend
          let replies := reqs.zipIdx.map fun (r, q) =>
            batchAnswer latencyUs false
              (((raw.getD q []).take (min r.k kMax)).filterMap (baseResult e))
          let e := recordGroup env latencyUs reqs.length e
          let e :=
            { e with
              stats :=
                { e.stats with
                  bfBatchCount := e.stats.bfBatchCount + 1
                  lastRequestedK := r0.k
                  lastReturnedK := (replies.headD (SearchReply.failure .ok "")).results.length }
              lastSearchMode := .gpuBf }
          (d.setEntry i e, replies)

variable [LT D] [DecidableLT D]

/-- Fold the group's delta candidates and base candidates together, request by
request from query row `q` on. -/
def finishGroup (latencyUs kMax nDc : ℕ) (raw : List (List (SearchResult D)))
    (draw : Option (List (List (SearchResult D)))) :
    ℕ → IndexEntry → List BatchRequest → IndexEntry × List (SearchReply D)
  | _, e, [] => (e, [])
  | q, e, r :: rs =>
    let (e, results, merged) :=
      cagraFinishOne e ((raw.getD q []).take kMax) r.k (draw.map fun rows => rows.getD q [])
        (min nDc r.k)
    let (e, replies) := finishGroup latencyUs kMax nDc raw draw (q + 1) e rs
    (e, batchAnswer latencyUs merged results :: replies)

def searchDeltaBatch (kern : Kernels D) (queries : List Vec) (kMax : ℕ) (e : IndexEntry) :
    Option (List (List (SearchResult D))) × ℕ :=
  match e.deltaIdx with
  | none => (none, 0)
  | some bf =>
    if e.nDelta = 0 then (none, 0)
    else
      let nDc := min kMax e.nDelta
      match kern.bfSearchBatch bf queries nDc e.gpuDeviceId with
      | .ok rows => (some rows, nDc)
      -- the base rows are served without the pending ones
      | .error _ => (none, 0)

def cagraBatchRunGroup (cfg : Config) (env : Env) (kern : Kernels D) (latencyUs : ℕ) (d : Daemon)
    (r0 : BatchRequest) (reqs : List BatchRequest) : Daemon × List (SearchReply D) :=
  match batchResolve cfg env d r0.key.key with
  | (d, none) => (d, failGroup reqs .notFound)
  | (d, some (i, e)) =>
    if e.stale then failFound env d i e reqs .stale
    else
      match e.handle with
      | none => failFound env d i e reqs .noVectors
      | some h =>
        -- one call for the group, as deep as the deepest request
        let kMax := (reqs.map BatchRequest.k).foldr max 0
        let queries := reqs.map BatchRequest.query
        match kern.cagraSearchBatch h queries kMax e.gpuDeviceId r0.key.itopkSize
            r0.key.searchWidth with
        | .error _ => failFound env d i e reqs .oomFallback
        | .ok raw =>
          let e := refreshDeltaCache (d.disk cfg.indexDir e.key) (hasRoom env d i) env.bfBuilds e
          let (draw, nDc) := searchDeltaBatch kern queries kMax e
          let (e, replies) := finishGroup latencyUs kMax nDc raw draw 0 e reqs
          let e := recordGroup env latencyUs reqs.length e
          let e :=
            { e with
              stats :=
                { e.stats with
                  cagraBatchCount := e.stats.cagraBatchCount + 1
                  lastRequestedK := r0.k
                  lastReturnedK := (replies.headD (SearchReply.failure .ok "")).results.length }
              lastSearchMode := .gpuCagra }
          (d.setEntry i e, replies)

def batchRunGroup (cfg : Config) (env : Env) (kern : Kernels D) (latencyUs : ℕ) (d : Daemon)
    (r0 : BatchRequest) (reqs : List BatchRequest) : Daemon × List (SearchReply D) :=
  if r0.key.mode = 0 then cagraBatchRunGroup cfg env kern latencyUs d r0 reqs
  else bfBatchRunGroup cfg env kern latencyUs d r0 reqs

def shardSearchWorker (kern : Kernels D) (frame : SearchFrame) (query : Vec)
    (a : ShardSearchArg) : Except ℕ (List (SearchResult D)) :=
  if a.sk = 0 then .ok []
  else if a.useBf then
    match a.bfIdx with
    | some bf => kern.bfSearch bf query a.sk a.gpuDeviceId
    | none => .error 1
  else
    match a.handle with
    | some h => kern.cagraSearch h query a.sk a.gpuDeviceId frame.itopkSize frame.searchWidth
    | none => .error 1

def shardCandidates (e : IndexEntry) (a : ShardSearchArg) (out : List (SearchResult D)) :
    List (CuvsResult D) :=
  (out.take a.sk).filterMap fun r =>
    if r.itemId < 0 ∨ (a.shardNVecs : ℤ) ≤ r.itemId then none
    else
      let gid := a.tidOffset + r.itemId.toNat
      if e.nVecs ≤ gid then none else some ⟨e.tids.getD gid 0, r.distance⟩

def recordShard (s : ShardEntry) (failed : Bool) (sk : ℕ) : ShardEntry :=
  if failed then { s with errorCount := s.errorCount + 1, lastStatus := .oomFallback }
  else if 0 < sk then { s with searchCount := s.searchCount + 1, lastStatus := .ok }
  else s

def exceptFailed {α ε : Type*} : Except ε α → Bool
  | .error _ => true
  | .ok _ => false

/-- Drop the fanout's hold on the handles and count what each shard did. -/
def recordFanout (outs : List (ShardSearchArg × Except ℕ (List (SearchResult D))))
    (e : IndexEntry) : IndexEntry :=
  { e with
    inflight := e.inflight - 1
    shards := e.shards.zipIdx.map fun (s, j) =>
      match outs[j]? with
      | some (a, out) => recordShard s (exceptFailed out) a.sk
      | none => s }

def mergeFanout (env : Env) (senv : SearchEnv) (d : Daemon) (i : ℕ) (e : IndexEntry)
    (f : Fanout) (base : List (CuvsResult D)) (draw : Option (List (SearchResult D))) (nDc : ℕ) :
    Daemon × SearchReply D :=
  let k := f.frame.k
  let deltaMerged := draw.isSome
  let cand := base ++ ((draw.getD []).take nDc).filterMap (deltaResult e)
  let results := (qsort (deltaCandCmp e.metric) cand).take k
  let e :=
    if deltaMerged then
      { e with stats := { e.stats with deltaMergedCount := e.stats.deltaMergedCount + 1 } }
    else e
  recordAnswer env senv d i e k (if f.useBf then .gpuBf else .gpuCagra) results deltaMerged

/-- Merge the shards' candidates once the lock is held again. -/
def finishFanout (cfg : Config) (env : Env) (senv : SearchEnv) (kern : Kernels D) (d : Daemon)
    (f : Fanout) : Daemon × SearchReply D :=
  -- the entry is looked up again: the lock was released meanwhile
  match (findIndex d.live f.key).bind fun i => d.live[i]?.map fun e => (i, e) with
  | none =>
    (d, SearchReply.failure .oomFallback "sharded index vanished mid-search; CPU fallback")
  | some (i, e) =>
    let outs := f.args.map fun a => (a, shardSearchWorker kern f.frame f.query a)
    -- each shard counts its own outcome, also when the whole search fails
    let e := recordFanout outs e
    if outs.any fun o => exceptFailed o.2 then
      let error := "sharded search failed on a shard; CPU fallback"
      (d.setEntry i (recordSearchStat env.now e .oomFallback 0 (some error)),
        SearchReply.failure .oomFallback error)
    else
      let k := f.frame.k
      let base := outs.flatMap fun o => shardCandidates e o.1 (o.2.toOption.getD [])
      let e :=
        if f.useBf then e
        else refreshDeltaCache (d.disk cfg.indexDir e.key) (hasRoom env d i) env.bfBuilds e
      let (draw, nDc) := if f.useBf then (none, 0) else searchDelta kern f.query k (deltaGpuOf e) e
      mergeFanout env senv d i e f base draw nDc

end PgCuvs
