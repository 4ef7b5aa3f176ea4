import PgCuvs.Search.Results

/-! The brute-force section of `handle_search`: bitset prefilter, then a deep
unfiltered search that is cut down to the whitelist. -/

namespace PgCuvs

variable {D : Type}

structure ShardSearchArg where
  handle : Option Cagra
  bfIdx : Option BfIndex
  useBf : Bool
  sk : ℕ
  gpuDeviceId : ℕ
  tidOffset : ℕ
  shardNVecs : ℕ
deriving DecidableEq, Repr

/-- A sharded search whose kernels still have to run without the lock. -/
structure Fanout where
  key : Key
  frame : SearchFrame
  query : Vec
  useBf : Bool
  args : List ShardSearchArg
deriving DecidableEq, Repr

inductive SearchOutcome (D : Type) where
  | reply (d : Daemon) (r : SearchReply D)
  /-- queued for the batch worker -/
  | batched (d : Daemon) (req : BatchRequest)
  /-- the queue was full: the request resumes on its immediate path -/
  | resume (d : Daemon) (mode : ℕ) (query : Vec)
  | fanout (d : Daemon) (f : Fanout)

def SearchOutcome.reply? : SearchOutcome D → Option (SearchReply D)
  | .reply _ r => some r
  | _ => none

theorem SearchOutcome.reply?_eq_some {o : SearchOutcome D} {r : SearchReply D}
    (h : o.reply? = some r) : ∃ d, o = .reply d r := by
  cases o with
  | reply d r' => exact ⟨d, by rw [Option.some.inj h]⟩
  | batched | resume | fanout => cases h

def failEntry (env : Env) (d : Daemon) (i : ℕ) (e : IndexEntry) (status : Status)
    (error : String) : SearchOutcome D :=
  .reply (d.setEntry i (recordSearchStat env.now e status 0 (some error)))
    (SearchReply.failure status error)

def recordAnswer (env : Env) (senv : SearchEnv) (d : Daemon) (i : ℕ) (e : IndexEntry) (k : ℕ)
    (mode : SearchMode) (results : List (CuvsResult D)) (deltaMerged : Bool) :
    Daemon × SearchReply D :=
  let e := recordSearchStat env.now e .ok senv.latencyUs none
  let e :=
    { e with
      stats := { e.stats with lastRequestedK := k, lastReturnedK := results.length }
      lastSearchMode := mode }
  (d.setEntry i e,
    { status := .ok, results, latencyUs := senv.latencyUs, deltaMerged, error := "" })

def answerEntry (env : Env) (senv : SearchEnv) (d : Daemon) (i : ℕ) (e : IndexEntry) (k : ℕ)
    (mode : SearchMode) (results : List (CuvsResult D)) (deltaMerged : Bool) :
    SearchOutcome D :=
  let p := recordAnswer env senv d i e k mode results deltaMerged
  .reply p.1 p.2

/-- The whitelist segment, when it holds as many TIDs as the frame names. -/
def mapFilter (senv : SearchEnv) (frame : SearchFrame) : Option (List Tid) :=
  (senv.filter.filter fun l => decide (frame.nFilterTids ≤ l.length)).map
    (List.take frame.nFilterTids)

/-- The prefilter may answer without a brute-force cache when it has a graph. -/
def prefilterReady (frame : SearchFrame) (e : IndexEntry) : Bool :=
  frame.usePrefilter && decide (0 < frame.nFilterTids) && e.handle.isSome && e.revTids.isSome
    && e.revItemIds.isSome

/-- Item ids of the whitelisted TIDs the index knows, one per whitelist slot. -/
def includedItems (e : IndexEntry) (revTids : List Tid) (revItemIds : List ℤ)
    (filterTids : List Tid) : List ℕ :=
  filterTids.filterMap (revMapItem e.nVecs revTids revItemIds)

def excludedBits (nVecs : ℕ) (included : List ℕ) : List Bool :=
  (List.range nVecs).map fun i => !included.contains i

def prefilterResults (e : IndexEntry) (raw : List (SearchResult D)) : List (CuvsResult D) :=
  (raw.takeWhile fun r => (baseResult e r).isSome).filterMap (baseResult e)

/-- The bitset search; `none` falls through to the whitelist post-filter. -/
def prefilterSearch (kern : Kernels D) (frame : SearchFrame) (query : Vec) (e : IndexEntry)
    (revTids : List Tid) (revItemIds : List ℤ) (filterTids : List Tid) :
    IndexEntry × Option (List (CuvsResult D) × SearchMode) :=
  let k := frame.k
  let included := includedItems e revTids revItemIds filterTids
  let bits := excludedBits e.nVecs included
  let bruteForce (shortFill : Bool) : IndexEntry × Option (List (CuvsResult D) × SearchMode) :=
    match e.mainBfIdx with
    | none => (e, none)
    | some bf =>
      let e :=
        if shortFill then
          { e with stats :=
              { e.stats with prefilterFallbackCount := e.stats.prefilterFallbackCount + 1 } }
        else e
      match kern.bfSearchFiltered bf query k bits (deltaGpuOf e) with
      | .ok raw => (e, some (prefilterResults e (raw.take k), .gpuBf))
      | .error _ => (e, none)
  match e.handle with
  | none => bruteForce false
  | some h =>
    match kern.cagraSearchFiltered h query k bits e.gpuDeviceId frame.itopkSize
        frame.searchWidth with
    | .error _ => bruteForce false
    | .ok raw =>
      let raw := raw.take k
      let filled := raw.countP fun r => r.itemId != cuvsPadItemId
      -- a traversal that starved is retried only when there is something to retry on
      if filled < min k included.length ∧ e.mainBfIdx.isSome then bruteForce true
      else (e, some (prefilterResults e raw, .cagraPrefilter))

def tryPrefilter (kern : Kernels D) (senv : SearchEnv) (frame : SearchFrame) (query : Vec)
    (e : IndexEntry) : IndexEntry × Option (List (CuvsResult D) × SearchMode) :=
  if frame.usePrefilter ∧ 0 < frame.nFilterTids then
    match e.revTids, e.revItemIds, mapFilter senv frame with
    | some revTids, some revItemIds, some filterTids =>
      prefilterSearch kern frame query e revTids revItemIds filterTids
    | _, _, _ => (e, none)
  else (e, none)

variable [LT D] [DecidableLT D]

def whitelistResults (e : IndexEntry) (k : ℕ) (filterTids : Option (List Tid))
    (raw : List (SearchResult D)) : List (CuvsResult D) :=
  ((raw.filterMap (baseResult e)).filter fun c =>
    match filterTids with
    | none => true
    | some l => cuvsU64Contains l c.tid).take k

/-- Search deep enough for `k` whitelisted rows and post-filter. -/
def searchDWedge (cfg : Config) (env : Env) (senv : SearchEnv) (kern : Kernels D) (d : Daemon)
    (i : ℕ) (e : IndexEntry) (bf : BfIndex) (frame : SearchFrame) (query : Vec) :
    SearchOutcome D :=
  let k := frame.k
  let bk := bkDepth k frame.nFilterTids e.mainBfN frame.nVecs
  let raw : Except ℕ (List (SearchResult D)) :=
    if 0 < bk then kern.bfSearch bf query bk (deltaGpuOf e) else .ok []
  match raw with
  | .error rc =>
    if rc = 2 then failEntry env d i e .dimMismatch "query dim != index dim"
    else failEntry env d i e .oomFallback "brute_force search failed"
  | .ok raw =>
    let filterTids :=
      if 0 < frame.nFilterTids then (mapFilter senv frame).map cuvsU64Sort else none
    if cuvsFilterFrameRefuses frame.nFilterTids filterTids.isSome then
      failEntry env d i e .error "filter TID set unavailable; refusing to return unfiltered rows"
    else
      let results := whitelistResults e k filterTids (raw.take bk)
      match filterTids with
      | some l =>
        -- too few of the rows drawn are listed: search the listed rows themselves
        if results.length < k ∧ bk < e.mainBfN then
          match searchFilterExact kern (d.disk cfg.indexDir e.key) e query l k
              (exactChunkCap frame.nVecs) with
          | .ok results => answerEntry env senv d i e k .bfExact results false
          | .error status =>
            failEntry env d i e status "filtered search could not complete exact fallback"
        else answerEntry env senv d i e k .gpuBf results false
      | none => answerEntry env senv d i e k .gpuBf results false

def noVectorsError : String :=
  "brute_force requested but the .vectors sidecar is missing or stale; REINDEX to enable it"

def searchBruteForce (cfg : Config) (env : Env) (senv : SearchEnv) (kern : Kernels D)
    (d : Daemon) (i : ℕ) (e : IndexEntry) (frame : SearchFrame) (query : Vec) :
    SearchOutcome D :=
  let e := refreshMainBfCache (d.disk cfg.indexDir e.key) (hasRoom env d i) env.bfBuilds
    frame.bfPrecision e
  -- the prefilter searches the graph and needs no cache
  if e.mainBfIdx.isNone ∧ prefilterReady frame e = false then
    failEntry env d i e .noVectors noVectorsError
  else
    match tryPrefilter kern senv frame query e with
    | (e, some (results, mode)) => answerEntry env senv d i e frame.k mode results false
    | (e, none) =>
      match e.mainBfIdx with
      | none =>
        failEntry env d i e .noVectors "prefilter failed and no brute-force vectors are available"
      | some bf => searchDWedge cfg env senv kern d i e bf frame query

end PgCuvs
