import PgCuvs.Search.BatchAnswers
import PgCuvs.Search.SearchBatch
import PgCuvs.Write

/-! The resident objects that a handler may hand to the kernels, whatever the kernels
answer. The pointers stand as they are in the entry, so a NULL that the handler did not
look for shows. -/

namespace PgCuvs

/-- A kernel call by the object it gets; `dim` is the dimension of the entry. -/
inductive KernelCall where
  | cagra (graph : Option Cagra)
  | bruteForce (cache : Option BfIndex) (dim : ℕ)
deriving DecidableEq, Repr

/-- The object is there, and a cache has the dimension of its entry. -/
def KernelCall.Sound : KernelCall → Prop
  | .cagra graph => graph.isSome
  | .bruteForce cache dim => ∃ b, cache = some b ∧ b.dim = dim

abbrev AllSound (calls : List KernelCall) : Prop := ∀ c ∈ calls, c.Sound

section Calls

variable (cfg : Config) (env : Env)

def deltaCalls (e : IndexEntry) : List KernelCall :=
  if e.deltaIdx.isSome ∧ 0 < e.nDelta then [.bruteForce e.deltaIdx e.dim] else []

/-- The CAGRA sections look at the handle first and refresh the delta cache behind it. -/
def cagraCalls (d : Daemon) (i : ℕ) (e : IndexEntry) : List KernelCall :=
  if e.handle.isSome then
    .cagra e.handle :: deltaCalls
      (refreshDeltaCache (d.disk cfg.indexDir e.key) (hasRoom env d i) env.bfBuilds e)
  else []

def prefilterRuns (senv : SearchEnv) (frame : SearchFrame) (e : IndexEntry) : Bool :=
  frame.usePrefilter && decide (0 < frame.nFilterTids) && e.revTids.isSome
    && e.revItemIds.isSome && (mapFilter senv frame).isSome

def prefilterCalls (senv : SearchEnv) (frame : SearchFrame) (e : IndexEntry) : List KernelCall :=
  if prefilterRuns senv frame e then
    (if e.handle.isSome then [.cagra e.handle] else [])
      ++ (if e.mainBfIdx.isSome then [.bruteForce e.mainBfIdx e.dim] else [])
  else []

def dWedgeCalls (frame : SearchFrame) (e : IndexEntry) : List KernelCall :=
  if e.mainBfIdx.isSome ∧ 0 < bkDepth frame.k frame.nFilterTids e.mainBfN frame.nVecs then
    [.bruteForce e.mainBfIdx e.dim]
  else []

def refreshedMain (d : Daemon) (i : ℕ) (prec : ℕ) (e : IndexEntry) : IndexEntry :=
  refreshMainBfCache (d.disk cfg.indexDir e.key) (hasRoom env d i) env.bfBuilds prec e

def bruteForceCalls (senv : SearchEnv) (d : Daemon) (i : ℕ) (e : IndexEntry)
    (frame : SearchFrame) : List KernelCall :=
  let e := refreshedMain cfg env d i frame.bfPrecision e
  if e.mainBfIdx.isNone ∧ prefilterReady frame e = false then []
  else prefilterCalls senv frame e ++ dWedgeCalls frame e

def refreshedShards (d : Daemon) (i : ℕ) (useBf : Bool) (prec : ℕ) (e : IndexEntry) :
    IndexEntry × Bool :=
  if useBf then
    refreshShardBfCaches (d.disk cfg.indexDir e.key) (hasRoom env d i) env.bfBuilds prec e
  else (e, true)

/-- No shard is looked at before its kernel call; one without rows to return has none. -/
def shardCalls (dim : ℕ) (args : List ShardSearchArg) : List KernelCall :=
  (args.filter fun a => a.sk != 0).map fun a =>
    if a.useBf then .bruteForce a.bfIdx dim else .cagra a.handle

def shardedCalls (d : Daemon) (i : ℕ) (e : IndexEntry) (frame : SearchFrame) : List KernelCall :=
  if 0 < frame.nFilterTids then []
  else
    let useBf := frame.searchMode == 1
    match refreshedShards cfg env d i useBf frame.bfPrecision e with
    | (e, true) => shardCalls e.dim (shardArgs frame useBf e)
    | (_, false) => []

/-- The request goes to the batch worker, or back to its section when the queue is full. -/
def cagraBatchGate (senv : SearchEnv) (frame : SearchFrame) (e : IndexEntry) : Bool :=
  decide (0 < frame.cagraBatchWaitUs) && senv.batchWorkerStarted
    && decide (frame.nFilterTids = 0) && e.handle.isSome

def searchGraphCalls (senv : SearchEnv) (d : Daemon) (i : ℕ) (e : IndexEntry)
    (frame : SearchFrame) : List KernelCall :=
  let e := if frame.useCpuHnsw then loadHnsw (d.disk cfg.indexDir e.key) senv e else e
  if cagraBatchGate senv frame e then [] else cagraCalls cfg env (d.setEntry i e) i e

def searchEntryCalls (senv : SearchEnv) (d : Daemon) (i : ℕ) (e : IndexEntry)
    (frame : SearchFrame) : List KernelCall :=
  if (frame.searchMode = 1 ∨ e.isFlat) ∧ e.shardCount < 2 then
    if bfBatchGate senv frame e then [] else bruteForceCalls cfg env senv d i e frame
  else if 2 ≤ e.shardCount then shardedCalls cfg env d i e frame
  else searchGraphCalls cfg env senv d i e frame

def searchCalls (senv : SearchEnv) (d : Daemon) (frame : SearchFrame) : List KernelCall :=
  match searchEntered cfg env senv d frame with
  | some (d, i, e, _) => searchEntryCalls cfg env senv d i e frame
  | none => []

def findEntry (d : Daemon) (key : Key) : Option (ℕ × IndexEntry) :=
  (findIndex d.live key).bind fun i => d.live[i]?.map fun e => (i, e)

def resumeCalls (senv : SearchEnv) (d : Daemon) (frame : SearchFrame) (mode : ℕ) :
    List KernelCall :=
  match findEntry d frame.key with
  | some (i, e) =>
    if mode = 1 then bruteForceCalls cfg env senv d i e frame else cagraCalls cfg env d i e
  | none => []

def batchAdmits (d : Daemon) (key : Key) : Option (Daemon × ℕ × IndexEntry) :=
  match batchResolve cfg env d key with
  | (d, some (i, e)) => if e.stale then none else some (d, i, e)
  | (_, none) => none

def bfGroupCalls (prec : ℕ) (d : Daemon) (i : ℕ) (e : IndexEntry) : List KernelCall :=
  let e := refreshedMain cfg env d i prec e
  if e.mainBfIdx.isSome then [.bruteForce e.mainBfIdx e.dim] else []

def batchGroupCalls (d : Daemon) (r0 : BatchRequest) : List KernelCall :=
  match batchAdmits cfg env d r0.key.key with
  | some (d, i, e) =>
    if r0.key.mode = 0 then cagraCalls cfg env d i e
    else bfGroupCalls cfg env r0.key.precision d i e
  | none => []

/-- The shards' kernels are done with; what is left of a fanout is the delta cache. -/
def finishFanoutCalls {D : Type} (kern : Kernels D) (d : Daemon) (f : Fanout) : List KernelCall :=
  match findEntry d f.key with
  | some (i, e) =>
    let outs := f.args.map fun a => (a, shardSearchWorker kern f.frame f.query a)
    if f.useBf ∨ outs.any fun o => exceptFailed o.2 then []
    else
      let e := recordFanout outs e
      deltaCalls (refreshDeltaCache (d.disk cfg.indexDir e.key) (hasRoom env d i) env.bfBuilds e)
  | none => []

end Calls

section Batch

variable (cfg : Config) (env : Env)

def searchBatchEntered (d : Daemon) (frame : SearchFrame) (queries : Except ShmFault (List Vec)) :
    Option (Daemon × ℕ × IndexEntry × List Vec) :=
  match batchFind cfg env d frame.key, queries with
  | (d, .ok (i, e)), .ok queries =>
    if e.stale = true ∨ frame.metric ≠ e.metric ∨ frame.dim ≠ e.dim ∨ frame.nVecs = 0
        ∨ min frame.k e.nVecs = 0 then none
    else
      some (d.setEntry i { e with lastSearch := env.now }, i, { e with lastSearch := env.now },
        queries.take frame.nVecs)
  | _, _ => none

def refreshedBatch (d : Daemon) (i : ℕ) (useBf : Bool) (prec : ℕ) (e : IndexEntry) :
    IndexEntry × Bool :=
  if 2 ≤ e.shardCount then refreshedShards cfg env d i useBf prec e
  else if useBf then
    let e := refreshedMain cfg env d i prec e
    (e, e.mainBfIdx.isSome)
  else (e, true)

/-- `handle_search_batch` does not look at the handle of the entry. -/
def searchBatchEntryCalls (d : Daemon) (i : ℕ) (e : IndexEntry) (frame : SearchFrame) :
    List KernelCall :=
  let useBf := frame.searchMode == 1 || e.isFlat
  match refreshedBatch cfg env d i useBf frame.bfPrecision e with
  | (_, false) => []
  | (e, true) =>
    if e.shardCount < 2 then
      if useBf then [.bruteForce e.mainBfIdx e.dim] else [.cagra e.handle]
    else shardCalls e.dim (shardArgs frame useBf e)

def searchBatchCalls (d : Daemon) (frame : SearchFrame) (queries : Except ShmFault (List Vec)) :
    List KernelCall :=
  match searchBatchEntered cfg env d frame queries with
  | some (d, i, e, _) => searchBatchEntryCalls cfg env d i e frame
  | none => []

end Batch

section Write

/-- EXTEND looks for a graph, then at the budget. -/
def extendCalls (d : Daemon) (frame : BuildFrame) (input : BuildInput) : List KernelCall :=
  if input.indexDir.isNone ∨ frame.nVecs < 1 ∨ frame.dim = 0 ∨ input.segment.toOption.isNone then []
  else
    match findEntry d frame.key with
    | some (_, e) =>
      if e.handle.isSome ∧ extendOverBudget d e frame.nVecs.toNat = false then [.cagra e.handle]
      else []
    | none => []

/-- COMPACT looks for a graph, then for a dead row. -/
def compactCalls (d : Daemon) (t : CompactTicket) : List KernelCall :=
  match findEntry d t.key with
  | some (_, e) =>
    if e.handle.isSome ∧ (keepBits t.deadTids e).all id = false then [.cagra e.handle] else []
  | none => []

/-- What EXPORT_ADJACENCY and EXPORT_HNSW_SHM do under the lock; they take unsharded graphs
and their texts differ. -/
def exportGraph (error : String) (d : Daemon) (key : Key) : Except Reply Cagra :=
  match findEntry d key with
  | some (_, e) =>
    match e.handle with
    | some g => if 2 ≤ e.shardCount then .error ⟨.notFound, error⟩ else .ok g
    | none => .error ⟨.notFound, error⟩
  | none => .error ⟨.notFound, error⟩

def exportAdjacencyGraph : Daemon → Key → Except Reply Cagra :=
  exportGraph "index not loaded or sharded (call after CREATE INDEX USING cagra)"

def exportHnswShmGraph : Daemon → Key → Except Reply Cagra :=
  exportGraph "index not loaded or sharded"

def exportCalls (d : Daemon) (key : Key) : List KernelCall :=
  match findEntry d key with
  | some (_, e) => if e.handle.isSome ∧ e.shardCount < 2 then [.cagra e.handle] else []
  | none => []

end Write

section Agree

variable {D : Type} {cfg : Config} {env : Env} {senv : SearchEnv} {kern kern' : Kernels D}
  {d : Daemon} {i : ℕ} {e : IndexEntry} {frame : SearchFrame} {query : Vec}
  {calls calls' : List KernelCall}

/-- Two sets of kernels that answer alike on the objects of `calls`, on the CPU graph and on
rows from a file. -/
structure Kernels.AgreeOn (kern kern' : Kernels D) (calls : List KernelCall) : Prop where
  graph : ∀ g, .cagra (some g) ∈ calls → kern.cagraSearch g = kern'.cagraSearch g ∧
    kern.cagraSearchFiltered g = kern'.cagraSearchFiltered g ∧
    kern.cagraSearchBatch g = kern'.cagraSearchBatch g
  cache : ∀ b dim, .bruteForce (some b) dim ∈ calls → kern.bfSearch b = kern'.bfSearch b ∧
    kern.bfSearchFiltered b = kern'.bfSearchFiltered b ∧ kern.bfSearchBatch b = kern'.bfSearchBatch b
  hnsw : kern.hnswSearch = kern'.hnswSearch
  rows : kern.bruteForceSearch = kern'.bruteForceSearch

theorem Kernels.AgreeOn.mono (h : kern.AgreeOn kern' calls) (hsub : calls' ⊆ calls) :
    kern.AgreeOn kern' calls' where
  graph g hg := h.graph g (hsub hg)
  cache b dim hb := h.cache b dim (hsub hb)
  hnsw := h.hnsw
  rows := h.rows

theorem searchDelta_congr (h : kern.AgreeOn kern' (deltaCalls e)) (query : Vec) (k device : ℕ) :
    searchDelta kern query k device e = searchDelta kern' query k device e := by
  unfold searchDelta
  rcases hdelta : e.deltaIdx with _ | b
  · rfl
  · by_cases hn : e.nDelta = 0
    · simp only [if_pos hn]
    · have hb := h.cache b e.dim (by simp [deltaCalls, hdelta, Nat.pos_of_ne_zero hn])
      simp only [hb.1]

theorem searchDeltaBatch_congr (h : kern.AgreeOn kern' (deltaCalls e)) (queries : List Vec)
    (kMax : ℕ) : searchDeltaBatch kern queries kMax e = searchDeltaBatch kern' queries kMax e := by
  unfold searchDeltaBatch
  rcases hdelta : e.deltaIdx with _ | b
  · rfl
  · by_cases hn : e.nDelta = 0
    · simp only [if_pos hn]
    · have hb := h.cache b e.dim (by simp [deltaCalls, hdelta, Nat.pos_of_ne_zero hn])
      simp only [hb.2.2]

theorem prefilterSearch_congr (hrun : prefilterRuns senv frame e = true)
    (h : kern.AgreeOn kern' (prefilterCalls senv frame e)) (revTids : List Tid)
    (revItemIds : List ℤ) (filterTids : List Tid) :
    prefilterSearch kern frame query e revTids revItemIds filterTids
      = prefilterSearch kern' frame query e revTids revItemIds filterTids := by
  have hgraph : ∀ g, e.handle = some g →
      kern.cagraSearchFiltered g = kern'.cagraSearchFiltered g := by
    intro g hg
    exact (h.graph g (by simp [prefilterCalls, hrun, hg])).2.1
  have hcache : ∀ b, e.mainBfIdx = some b → kern.bfSearchFiltered b = kern'.bfSearchFiltered b := by
    intro b hb
    exact (h.cache b e.dim (by simp [prefilterCalls, hrun, hb])).2.1
  unfold prefilterSearch
  rcases hg : e.handle with _ | g <;> rcases hb : e.mainBfIdx with _ | b
  · rfl
  · simp only [hcache b hb]
  · simp only [hgraph g hg]
  · simp only [hgraph g hg, hcache b hb]

theorem tryPrefilter_congr (h : kern.AgreeOn kern' (prefilterCalls senv frame e)) :
    tryPrefilter kern senv frame query e = tryPrefilter kern' senv frame query e := by
  unfold tryPrefilter
  split_ifs with hask
  · rcases hrev : e.revTids with _ | revTids <;> rcases hids : e.revItemIds with _ | revItemIds <;>
      rcases hfilter : mapFilter senv frame with _ | filterTids <;> try rfl
    refine prefilterSearch_congr ?_ h ..
    simp [prefilterRuns, hask.1, hask.2, hrev, hids, hfilter]
  · rfl

variable [LT D] [DecidableLT D]

theorem searchFilterExact_congr (h : kern.bruteForceSearch = kern'.bruteForceSearch)
    (a : Artifacts) (e : IndexEntry) (filterTids : List Tid) (k chunkCap : ℕ) :
    searchFilterExact kern a e query filterTids k chunkCap
      = searchFilterExact kern' a e query filterTids k chunkCap := by
  have hchunk : searchChunk kern e query k = searchChunk kern' e query k := by
    funext rows items top
    simp only [searchChunk, h]
  simp only [searchFilterExact, hchunk]

theorem searchDWedge_congr {b : BfIndex} (hb : e.mainBfIdx = some b)
    (h : kern.AgreeOn kern' (dWedgeCalls frame e)) :
    searchDWedge cfg env senv kern d i e b frame query
      = searchDWedge cfg env senv kern' d i e b frame query := by
  have hraw : (if 0 < bkDepth frame.k frame.nFilterTids e.mainBfN frame.nVecs then
        kern.bfSearch b query (bkDepth frame.k frame.nFilterTids e.mainBfN frame.nVecs) (deltaGpuOf e)
      else .ok [])
      = (if 0 < bkDepth frame.k frame.nFilterTids e.mainBfN frame.nVecs then
        kern'.bfSearch b query (bkDepth frame.k frame.nFilterTids e.mainBfN frame.nVecs) (deltaGpuOf e)
      else .ok []) := by
    split_ifs with hbk
    · rw [(h.cache b e.dim (by simp [dWedgeCalls, hb, hbk])).1]
    · rfl
  simp only [searchDWedge, hraw, searchFilterExact_congr h.rows]

theorem searchBruteForce_congr (h : kern.AgreeOn kern' (bruteForceCalls cfg env senv d i e frame)) :
    searchBruteForce cfg env senv kern d i e frame query
      = searchBruteForce cfg env senv kern' d i e frame query := by
  unfold searchBruteForce bruteForceCalls at *
  unfold refreshedMain at h
  simp only at h ⊢
  generalize refreshMainBfCache (d.disk cfg.indexDir e.key) (hasRoom env d i) env.bfBuilds
    frame.bfPrecision e = e1 at h ⊢
  split_ifs at h ⊢ with hnone
  · rfl
  · have hpre : tryPrefilter kern senv frame query e1 = tryPrefilter kern' senv frame query e1 :=
      tryPrefilter_congr (h.mono (List.subset_append_left ..))
    have hstats : ∃ s, (tryPrefilter kern' senv frame query e1).1 = { e1 with stats := s } :=
      tryPrefilter_stats
    obtain ⟨stats, hstats⟩ := hstats
    rw [hpre]
    rcases htry : tryPrefilter kern' senv frame query e1 with ⟨e2, _ | ⟨results, mode⟩⟩
    · rw [htry] at hstats
      obtain rfl : e2 = { e1 with stats := stats } := hstats
      simp only
      split
      · rfl
      · rename_i b hb
        exact searchDWedge_congr hb (h.mono (List.subset_append_right ..))
    · rfl

theorem searchCagra_congr (h : kern.AgreeOn kern' (cagraCalls cfg env d i e)) :
    searchCagra cfg env senv kern d i e frame query
      = searchCagra cfg env senv kern' d i e frame query := by
  unfold searchCagra
  rcases hg : e.handle with _ | g
  · rfl
  · simp only [cagraCalls, hg, Option.isSome_some, if_true] at h
    have hdelta := fun k device => searchDelta_congr (h.mono (List.subset_cons_self ..)) query k device
    simp only [(h.graph g List.mem_cons_self).1, hdelta]

omit [LT D] [DecidableLT D] in
theorem tryCpuHnsw_congr (h : kern.hnswSearch = kern'.hnswSearch) (a : Artifacts) :
    tryCpuHnsw a senv kern frame query e = tryCpuHnsw a senv kern' frame query e := by
  simp only [tryCpuHnsw, h]

omit [LT D] [DecidableLT D] in
theorem tryCpuHnsw_fst (a : Artifacts) :
    (tryCpuHnsw a senv kern frame query e).1
      = if frame.useCpuHnsw then loadHnsw a senv e else e := by
  simp only [tryCpuHnsw]
  split_ifs
  · split
    · rfl
    · split <;> rfl
  · rfl

theorem searchGraph_congr (h : kern.AgreeOn kern' (searchGraphCalls cfg env senv d i e frame)) :
    searchGraph cfg env senv kern d i e frame query
      = searchGraph cfg env senv kern' d i e frame query := by
  have hfst : (tryCpuHnsw (d.disk cfg.indexDir e.key) senv kern' frame query e).1
      = if frame.useCpuHnsw then loadHnsw (d.disk cfg.indexDir e.key) senv e else e :=
    tryCpuHnsw_fst _
  unfold searchGraph
  rw [tryCpuHnsw_congr h.hnsw]
  rcases htry : tryCpuHnsw (d.disk cfg.indexDir e.key) senv kern' frame query e with ⟨e1, _ | results⟩
  · rw [htry] at hfst
    simp only [searchGraphCalls, ← hfst] at h
    simp only
    split_ifs with hgate
    · rfl
    · rfl
    · refine searchCagra_congr ?_
      have hopen : cagraBatchGate senv frame e1 = false := by
        simpa [cagraBatchGate, and_assoc] using hgate
      rwa [if_neg (by simp [hopen])] at h
  · rfl

theorem searchEntry_congr (h : kern.AgreeOn kern' (searchEntryCalls cfg env senv d i e frame)) :
    searchEntry cfg env senv kern d i e frame query
      = searchEntry cfg env senv kern' d i e frame query := by
  unfold searchEntry searchEntryCalls at *
  split_ifs at h ⊢
  · rfl
  · rfl
  · exact searchBruteForce_congr h
  · rfl
  · exact searchGraph_congr h

theorem handleSearch_congr (h : kern.AgreeOn kern' (searchCalls cfg env senv d frame)) :
    handleSearch cfg env senv kern d frame = handleSearch cfg env senv kern' d frame := by
  unfold searchCalls at h
  rcases hentered : searchEntered cfg env senv d frame with _ | ⟨d1, i, e, query⟩
  · obtain ⟨d1, r, -, hreply⟩ := handleSearch_refused (D := D) hentered
    rw [hreply kern, hreply kern']
  · rw [hentered] at h
    rw [handleSearch_entered kern hentered, handleSearch_entered kern' hentered]
    exact searchEntry_congr h

theorem resumeSearch_congr {mode : ℕ}
    (h : kern.AgreeOn kern' (resumeCalls cfg env senv d frame mode)) :
    resumeSearch cfg env senv kern d frame mode query
      = resumeSearch cfg env senv kern' d frame mode query := by
  unfold resumeSearch
  rcases hfind : findIndex d.live frame.key with _ | i
  · rfl
  rcases hslot : d.live[i]? with _ | e
  · simp only [hslot]
  have hfound : findEntry d frame.key = some (i, e) := by simp [findEntry, hfind, hslot]
  simp only [resumeCalls, hfound] at h
  simp only [hslot]
  split_ifs at h ⊢
  · exact searchBruteForce_congr h
  · exact searchCagra_congr h

omit [LT D] [DecidableLT D] in
theorem bfBatchRunGroup_congr {r0 : BatchRequest} (hmode : r0.key.mode ≠ 0)
    (h : kern.AgreeOn kern' (batchGroupCalls cfg env d r0)) (latencyUs : ℕ)
    (reqs : List BatchRequest) :
    bfBatchRunGroup cfg env kern latencyUs d r0 reqs
      = bfBatchRunGroup cfg env kern' latencyUs d r0 reqs := by
  unfold bfBatchRunGroup
  unfold batchGroupCalls batchAdmits at h
  rcases hfound : batchResolve cfg env d r0.key.key with ⟨d1, _ | ⟨i, e⟩⟩
  · rfl
  rw [hfound] at h
  simp only at h ⊢
  split_ifs at h ⊢ with hstale
  · rfl
  · simp only [bfGroupCalls, refreshedMain] at h
    rcases hb : (refreshMainBfCache (d1.disk cfg.indexDir e.key) (hasRoom env d1 i) env.bfBuilds
      r0.key.precision e).mainBfIdx with _ | b
    · rfl
    · simp only [hb, Option.isSome_some, if_true] at h
      simp only [(h.cache b _ List.mem_cons_self).2.2]

theorem cagraBatchRunGroup_congr {r0 : BatchRequest} (hmode : r0.key.mode = 0)
    (h : kern.AgreeOn kern' (batchGroupCalls cfg env d r0)) (latencyUs : ℕ)
    (reqs : List BatchRequest) :
    cagraBatchRunGroup cfg env kern latencyUs d r0 reqs
      = cagraBatchRunGroup cfg env kern' latencyUs d r0 reqs := by
  unfold cagraBatchRunGroup
  unfold batchGroupCalls batchAdmits at h
  rcases hfound : batchResolve cfg env d r0.key.key with ⟨d1, _ | ⟨i, e⟩⟩
  · rfl
  rw [hfound] at h
  simp only at h ⊢
  split_ifs at h ⊢ with hstale
  · rfl
  · rcases hg : e.handle with _ | g
    · rfl
    · simp only [cagraCalls, hg, Option.isSome_some, if_true] at h
      have hdelta := fun queries kMax =>
        searchDeltaBatch_congr (h.mono (List.subset_cons_self ..)) queries kMax
      simp only [(h.graph g List.mem_cons_self).2.2, hdelta]

theorem batchRunGroup_congr {r0 : BatchRequest}
    (h : kern.AgreeOn kern' (batchGroupCalls cfg env d r0)) (latencyUs : ℕ)
    (reqs : List BatchRequest) :
    batchRunGroup cfg env kern latencyUs d r0 reqs
      = batchRunGroup cfg env kern' latencyUs d r0 reqs := by
  unfold batchRunGroup
  split_ifs with hmode
  · exact cagraBatchRunGroup_congr hmode h latencyUs reqs
  · exact bfBatchRunGroup_congr hmode h latencyUs reqs

omit [LT D] [DecidableLT D] in
theorem shardSearchWorker_congr {dim : ℕ} {args : List ShardSearchArg}
    (h : kern.AgreeOn kern' (shardCalls dim args)) {a : ShardSearchArg} (ha : a ∈ args)
    (query : Vec) :
    shardSearchWorker kern frame query a = shardSearchWorker kern' frame query a := by
  unfold shardSearchWorker
  split_ifs with hsk hbf
  · rfl
  · rcases hb : a.bfIdx with _ | b
    · rfl
    · have hmem : KernelCall.bruteForce (some b) dim ∈ shardCalls dim args :=
        List.mem_map.mpr ⟨a, List.mem_filter.mpr ⟨ha, by simpa using hsk⟩, by simp [hbf, hb]⟩
      simp only [(h.cache b dim hmem).1]
  · rcases hg : a.handle with _ | g
    · rfl
    · have hmem : KernelCall.cagra (some g) ∈ shardCalls dim args :=
        List.mem_map.mpr ⟨a, List.mem_filter.mpr ⟨ha, by simpa using hsk⟩, by simp [hbf, hg]⟩
      simp only [(h.graph g hmem).1]

theorem finishFanout_congr {f : Fanout} {dim : ℕ}
    (hshards : kern.AgreeOn kern' (shardCalls dim f.args))
    (h : kern.AgreeOn kern' (finishFanoutCalls cfg env kern' d f)) :
    finishFanout cfg env senv kern d f = finishFanout cfg env senv kern' d f := by
  have houts : (f.args.map fun a => (a, shardSearchWorker kern f.frame f.query a))
      = f.args.map fun a => (a, shardSearchWorker kern' f.frame f.query a) :=
    List.map_congr_left fun a ha => by rw [shardSearchWorker_congr hshards ha]
  unfold finishFanout
  unfold finishFanoutCalls findEntry at h
  rcases hfind : (findIndex d.live f.key).bind fun i => d.live[i]?.map fun e => (i, e) with
    _ | ⟨i, e⟩
  · rfl
  rw [hfind] at h
  simp only [houts] at h ⊢
  rcases hfailed : f.args.map (fun a => (a, shardSearchWorker kern' f.frame f.query a))
    |>.any fun o => exceptFailed o.2 with _ | _
  · cases hbf : f.useBf
    · rw [if_neg (by simp [hbf, hfailed])] at h
      simp only [Bool.false_eq_true, if_false, searchDelta_congr h]
    · rfl
  · rfl

omit [LT D] [DecidableLT D] in
theorem batchCandidates_congr {dim : ℕ} {args : List ShardSearchArg}
    (h : kern.AgreeOn kern' (shardCalls dim args)) (query : Vec) (cand : List (CuvsResult D)) :
    batchCandidates kern frame e query args cand
      = batchCandidates kern' frame e query args cand := by
  induction args generalizing cand with
  | nil => rfl
  | cons a args ih =>
    have hrest : kern.AgreeOn kern' (shardCalls dim args) :=
      h.mono (List.map_subset _ (List.filter_subset _ (List.subset_cons_self ..)))
    simp only [batchCandidates, shardSearchWorker_congr h List.mem_cons_self query, ih hrest]

theorem batchSharded_congr {useBf : Bool} {dim : ℕ}
    (h : kern.AgreeOn kern' (shardCalls dim (shardArgs frame useBf e))) (fltMax : D) (stride : ℕ)
    (queries : List Vec) :
    batchSharded kern fltMax frame useBf e stride queries
      = batchSharded kern' fltMax frame useBf e stride queries := by
  induction queries with
  | nil => rfl
  | cons query queries ih => simp only [batchSharded, batchCandidates_congr h, ih]

omit [LT D] [DecidableLT D] in
theorem batchUnsharded_congr {useBf : Bool}
    (h : kern.AgreeOn kern'
      (if useBf then [.bruteForce e.mainBfIdx e.dim] else [.cagra e.handle]))
    (queries : List Vec) (stride : ℕ) :
    batchUnsharded kern frame useBf e queries stride
      = batchUnsharded kern' frame useBf e queries stride := by
  unfold batchUnsharded
  cases useBf
  · rcases hg : e.handle with _ | g
    · rfl
    · simp only [hg, Bool.false_eq_true, if_false] at h ⊢
      rw [(h.graph g List.mem_cons_self).2.2]
  · rcases hb : e.mainBfIdx with _ | b
    · rfl
    · simp only [hb, if_true] at h ⊢
      rw [(h.cache b e.dim List.mem_cons_self).2.2]

theorem searchBatchEntry_refreshed (fltMax : D) (latencyUs : ℕ) (queries : List Vec) {e1 : IndexEntry}
    {ready useBf : Bool} (huse : (frame.searchMode == 1 || e.isFlat) = useBf)
    (hrefreshed : refreshedBatch cfg env d i useBf frame.bfPrecision e = (e1, ready)) :
    searchBatchEntry cfg env kern fltMax latencyUs d i e frame queries =
      if !ready then failBatch env d i e1 .noVectors noVectorsError
      else
        match (if e1.shardCount < 2 then
            batchUnsharded kern frame useBf e1 queries (min frame.k e.nVecs)
          else batchSharded kern fltMax frame useBf e1 (min frame.k e.nVecs) queries) with
        | .error _ => failBatch env d i e1 .oomFallback "batch search failed on the GPU; retry on CPU"
        | .ok rows =>
          (d.setEntry i
            { recordSearchStat env.now e1 .ok latencyUs none with
              stats :=
                { (recordSearchStat env.now e1 .ok latencyUs none).stats with
                  lastRequestedK := frame.k, lastReturnedK := min frame.k e.nVecs }
              lastSearchMode := if useBf then .gpuBf else .gpuCagra },
            { status := .ok, stride := min frame.k e.nVecs, rows, latencyUs, error := "" }) := by
  have hcaches : (if useBf = true then
        if 2 ≤ e.shardCount then
          refreshShardBfCaches (d.disk cfg.indexDir e.key) (hasRoom env d i) env.bfBuilds
            frame.bfPrecision e
        else
          (refreshMainBfCache (d.disk cfg.indexDir e.key) (hasRoom env d i) env.bfBuilds
            frame.bfPrecision e, (refreshMainBfCache (d.disk cfg.indexDir e.key) (hasRoom env d i)
              env.bfBuilds frame.bfPrecision e).mainBfIdx.isSome)
      else (e, true)) = (e1, ready) := by
    rw [← hrefreshed]
    simp only [refreshedBatch, refreshedShards, refreshedMain]
    split_ifs <;> rfl
  unfold searchBatchEntry
  dsimp only
  rewrite [huse, hcaches]
  rfl

theorem searchBatchEntry_congr (h : kern.AgreeOn kern' (searchBatchEntryCalls cfg env d i e frame))
    (fltMax : D) (latencyUs : ℕ) (queries : List Vec) :
    searchBatchEntry cfg env kern fltMax latencyUs d i e frame queries
      = searchBatchEntry cfg env kern' fltMax latencyUs d i e frame queries := by
  obtain ⟨useBf, huse⟩ : ∃ useBf, (frame.searchMode == 1 || e.isFlat) = useBf := ⟨_, rfl⟩
  rcases hrefreshed : refreshedBatch cfg env d i useBf frame.bfPrecision e with ⟨e1, ready⟩
  simp only [searchBatchEntryCalls, huse, hrefreshed] at h
  rw [searchBatchEntry_refreshed fltMax latencyUs queries huse hrefreshed,
    searchBatchEntry_refreshed fltMax latencyUs queries huse hrefreshed]
  cases ready
  · rfl
  · by_cases hcount : e1.shardCount < 2
    · simp only [if_pos hcount] at h ⊢
      rw [batchUnsharded_congr h]
    · simp only [if_neg hcount] at h ⊢
      rw [batchSharded_congr h]

section Batch

variable {fltMax : D} {latencyUs : ℕ} {queries : Except ShmFault (List Vec)}

theorem handleSearchBatch_entered (kern : Kernels D) {d1 : Daemon} {qs : List Vec}
    (h : searchBatchEntered cfg env d frame queries = some (d1, i, e, qs)) :
    handleSearchBatch cfg env kern fltMax latencyUs d frame queries
      = searchBatchEntry cfg env kern fltMax latencyUs d1 i e frame qs := by
  unfold searchBatchEntered at h
  unfold handleSearchBatch
  split at h
  · rename_i d' i' e' qs' hfind
    split_ifs at h with hrefused
    simp only [not_or, not_not] at hrefused
    obtain ⟨hstale, hmetric, hdim, hcount, hstride⟩ := hrefused
    obtain ⟨rfl, rfl, rfl, rfl⟩ : d'.setEntry i' { e' with lastSearch := env.now } = d1 ∧ i' = i ∧
        { e' with lastSearch := env.now } = e ∧ qs'.take frame.nVecs = qs := by
      simpa using h
    rw [hfind]
    dsimp only
    rw [if_neg hstale, if_neg (not_not.mpr hmetric), if_neg (not_not.mpr hdim),
      if_neg (not_or.mpr ⟨hcount, hstride⟩)]
  · exact nomatch h

omit [LT D] [DecidableLT D] in
theorem batchFind_error {key : Key} {d' : Daemon} {status : Status}
    (h : batchFind cfg env d key = (d', .error status)) : status ≠ .ok := by
  simp only [batchFind] at h
  split at h
  · exact nomatch congrArg Prod.snd h
  · split at h
    · split at h
      · exact nomatch congrArg Prod.snd h
      · obtain rfl := Except.error.inj (congrArg Prod.snd h)
        decide
    · obtain rfl := Except.error.inj (congrArg Prod.snd h)
      decide
    · obtain rfl := Except.error.inj (congrArg Prod.snd h)
      decide

theorem handleSearchBatch_refused (h : searchBatchEntered cfg env d frame queries = none) :
    ∃ d' r, r.status ≠ .ok ∧ ∀ kern : Kernels D,
      handleSearchBatch cfg env kern fltMax latencyUs d frame queries = (d', r) := by
  unfold searchBatchEntered at h
  unfold handleSearchBatch
  rcases hfind : batchFind cfg env d frame.key with ⟨d', status | ⟨i, e⟩⟩
  · exact ⟨_, .failure status "", batchFind_error hfind, fun _ => rfl⟩
  rw [hfind] at h
  dsimp only
  have hfail : ∀ {d' e'} {status : Status} {error : String}, status ≠ .ok →
      ∃ d2 r, r.status ≠ .ok ∧
        ∀ _ : Kernels D, (failBatch env d' i e' status error : Daemon × BatchReply D) = (d2, r) :=
    fun hstatus => ⟨_, .failure _ _, hstatus, fun _ => rfl⟩
  split_ifs with hstale hmetric hdim hempty
  · exact hfail (by decide)
  · exact hfail (by decide)
  · exact hfail (by decide)
  · exact ⟨_, .failure .error _, (fun h => nomatch h), fun _ => rfl⟩
  · rcases queries with fault | queries
    · exact ⟨_, .failure .error _, (fun h => nomatch h), fun _ => rfl⟩
    dsimp only at h
    rw [if_neg (by simp only [not_or, not_not] at *; exact ⟨hstale, hmetric, hdim, hempty⟩)] at h
    exact nomatch h

theorem handleSearchBatch_congr
    (h : kern.AgreeOn kern' (searchBatchCalls cfg env d frame queries)) :
    handleSearchBatch cfg env kern fltMax latencyUs d frame queries
      = handleSearchBatch cfg env kern' fltMax latencyUs d frame queries := by
  unfold searchBatchCalls at h
  rcases hentered : searchBatchEntered cfg env d frame queries with _ | ⟨d1, i, e, qs⟩
  · obtain ⟨d1, r, -, hreply⟩ : ∃ d' r, r.status ≠ .ok ∧ ∀ kern : Kernels D,
        handleSearchBatch cfg env kern fltMax latencyUs d frame queries = (d', r) :=
      handleSearchBatch_refused hentered
    rw [hreply kern, hreply kern']
  · rw [hentered] at h
    rw [handleSearchBatch_entered kern hentered, handleSearchBatch_entered kern' hentered]
    exact searchBatchEntry_congr h fltMax latencyUs qs

end Batch

end Agree

section Served

variable {D : Type} {cfg : Config} {env : Env} {senv : SearchEnv} {kern : Kernels D}
  {d d' : Daemon} {i : ℕ} {e : IndexEntry} {frame : SearchFrame} {query : Vec} {r : SearchReply D}

def KernelCall.Present : KernelCall → Prop
  | .cagra graph => graph.isSome
  | .bruteForce cache _ => cache.isSome

theorem KernelCall.Sound.present {c : KernelCall} (h : c.Sound) : c.Present := by
  cases c with
  | cagra graph => exact h
  | bruteForce cache dim =>
    obtain ⟨b, rfl, -⟩ := h
    rfl

def bruteForceObject (cfg : Config) (env : Env) (d : Daemon) (i : ℕ) (e : IndexEntry)
    (frame : SearchFrame) : Bool :=
  let e := refreshedMain cfg env d i frame.bfPrecision e
  e.mainBfIdx.isSome || prefilterReady frame e

def graphObject (cfg : Config) (senv : SearchEnv) (d : Daemon) (e : IndexEntry)
    (frame : SearchFrame) : Bool :=
  e.handle.isSome
    || (frame.useCpuHnsw && (loadHnsw (d.disk cfg.indexDir e.key) senv e).hnswIdx.isSome)

def searchEntryObject (cfg : Config) (env : Env) (senv : SearchEnv) (d : Daemon) (i : ℕ)
    (e : IndexEntry) (frame : SearchFrame) : Bool :=
  if (frame.searchMode = 1 ∨ e.isFlat) ∧ e.shardCount < 2 then bruteForceObject cfg env d i e frame
  else if 2 ≤ e.shardCount then
    (refreshedShards cfg env d i (frame.searchMode == 1) frame.bfPrecision e).2
  else graphObject cfg senv d e frame

def searchObject (cfg : Config) (env : Env) (senv : SearchEnv) (d : Daemon) (frame : SearchFrame) :
    Bool :=
  match searchEntered cfg env senv d frame with
  | some (d, i, e, _) => searchEntryObject cfg env senv d i e frame
  | none => false

def resumeObject (cfg : Config) (env : Env) (d : Daemon) (frame : SearchFrame) (mode : ℕ) : Bool :=
  match findEntry d frame.key with
  | some (i, e) => if mode = 1 then bruteForceObject cfg env d i e frame else e.handle.isSome
  | none => false

def batchGroupObject (cfg : Config) (env : Env) (d : Daemon) (r0 : BatchRequest) : Bool :=
  match batchAdmits cfg env d r0.key.key with
  | some (d, i, e) =>
    if r0.key.mode = 0 then e.handle.isSome
    else (refreshedMain cfg env d i r0.key.precision e).mainBfIdx.isSome
  | none => false

def searchBatchObject (cfg : Config) (env : Env) (d : Daemon) (frame : SearchFrame)
    (queries : Except ShmFault (List Vec)) : Bool :=
  match searchBatchEntered cfg env d frame queries with
  | some (d, i, e, _) =>
    let useBf := frame.searchMode == 1 || e.isFlat
    let (e, ready) := refreshedBatch cfg env d i useBf frame.bfPrecision e
    ready && (useBf || decide (2 ≤ e.shardCount) || e.handle.isSome)
  | none => false

def entryHasGraph (d : Daemon) (key : Key) : Bool :=
  match findEntry d key with
  | some (_, e) => e.handle.isSome
  | none => false

theorem failEntry_served {status : Status} {error : String} {P : Prop}
    (h : (failEntry env d i e status error : SearchOutcome D) = .reply d' r)
    (hstatus : status ≠ .ok) (hok : r.status = .ok) : P :=
  absurd (failEntry_reply h ▸ hok) hstatus

variable [LT D] [DecidableLT D]

theorem searchBruteForce_served
    (h : searchBruteForce cfg env senv kern d i e frame query = .reply d' r)
    (hok : r.status = .ok) : bruteForceObject cfg env d i e frame = true := by
  unfold searchBruteForce at h
  simp only [bruteForceObject, refreshedMain]
  dsimp only at h
  split_ifs at h with hnone
  · exact failEntry_served h (by decide) hok
  · by_contra hmissing
    exact hnone (by simpa using hmissing)

theorem searchCagra_served (h : searchCagra cfg env senv kern d i e frame query = .reply d' r)
    (hok : r.status = .ok) : e.handle.isSome = true := by
  unfold searchCagra at h
  rcases hg : e.handle with _ | g
  · rw [hg] at h
    exact failEntry_served h (by decide) hok
  · rfl

omit [LT D] [DecidableLT D] in
theorem searchSharded_served (h : searchSharded cfg env d i e frame query = .reply d' r) :
    r.status ≠ .ok := by
  simp only [searchSharded] at h
  split_ifs at h
  all_goals exact fun hok => failEntry_served h (by decide) hok

omit [LT D] [DecidableLT D] in
theorem loadHnsw_handle (a : Artifacts) (senv : SearchEnv) (e : IndexEntry) :
    (loadHnsw a senv e).handle = e.handle := by
  unfold loadHnsw
  split_ifs <;> rfl

theorem searchGraph_served (h : searchGraph cfg env senv kern d i e frame query = .reply d' r)
    (hok : r.status = .ok) : graphObject cfg senv d e frame = true := by
  rw [graphObject, Bool.or_eq_true, Bool.and_eq_true]
  unfold searchGraph tryCpuHnsw at h
  by_cases hcpu : frame.useCpuHnsw = true
  · rw [if_pos hcpu] at h
    rcases hhnsw : (loadHnsw (d.disk cfg.indexDir e.key) senv e).hnswIdx with _ | hnsw
    · refine .inl ?_
      simp only [hhnsw] at h
      split_ifs at h
      rw [← loadHnsw_handle (d.disk cfg.indexDir e.key) senv e]
      exact searchCagra_served h hok
    · exact .inr ⟨hcpu, rfl⟩
  · refine .inl ?_
    rw [if_neg hcpu] at h
    simp only at h
    split_ifs at h
    exact searchCagra_served h hok

theorem searchEntry_served (h : searchEntry cfg env senv kern d i e frame query = .reply d' r)
    (hok : r.status = .ok) : searchEntryObject cfg env senv d i e frame = true := by
  unfold searchEntry at h
  unfold searchEntryObject
  split_ifs at h ⊢
  · exact searchBruteForce_served h hok
  · exact absurd hok (searchSharded_served h)
  · exact searchGraph_served h hok

theorem handleSearch_served (h : handleSearch cfg env senv kern d frame = .reply d' r)
    (hok : r.status = .ok) : searchObject cfg env senv d frame = true := by
  unfold searchObject
  rcases hentered : searchEntered cfg env senv d frame with _ | ⟨d1, i, e, query⟩
  · obtain ⟨d1, r', hne, hreply⟩ := handleSearch_refused (D := D) hentered
    cases h.symm.trans (hreply kern)
    exact absurd hok hne
  · rw [handleSearch_entered kern hentered] at h
    exact searchEntry_served h hok

theorem resumeSearch_served {mode : ℕ}
    (h : resumeSearch cfg env senv kern d frame mode query = .reply d' r) (hok : r.status = .ok) :
    resumeObject cfg env d frame mode = true := by
  unfold resumeSearch at h
  rcases hfind : findIndex d.live frame.key with _ | i
  · rw [hfind] at h
    cases h
    exact nomatch hok
  rcases hslot : d.live[i]? with _ | e
  · simp only [hfind, hslot] at h
    cases h
    exact nomatch hok
  have hfound : findEntry d frame.key = some (i, e) := by simp [findEntry, hfind, hslot]
  simp only [hfind, hslot] at h
  simp only [resumeObject, hfound]
  split_ifs at h ⊢
  · exact searchBruteForce_served h hok
  · exact searchCagra_served h hok

omit [LT D] [DecidableLT D] in
theorem failGroup_served {reqs : List BatchRequest} {status : Status} {P : Prop}
    (hr : r ∈ failGroup reqs status) (hstatus : status ≠ .ok) (hok : r.status = .ok) : P := by
  obtain ⟨req, -, rfl⟩ := List.mem_map.mp hr
  exact absurd hok hstatus

theorem batchRunGroup_served {latencyUs : ℕ} {r0 : BatchRequest} {reqs : List BatchRequest}
    (hr : r ∈ (batchRunGroup cfg env kern latencyUs d r0 reqs).2) (hok : r.status = .ok) :
    batchGroupObject cfg env d r0 = true := by
  unfold batchRunGroup at hr
  unfold batchGroupObject batchAdmits
  rcases hfound : batchResolve cfg env d r0.key.key with ⟨d1, _ | ⟨i, e⟩⟩
  · simp only [cagraBatchRunGroup, bfBatchRunGroup, hfound, ite_self] at hr
    exact failGroup_served hr (by decide) hok
  by_cases hstale : e.stale = true
  · simp only [cagraBatchRunGroup, bfBatchRunGroup, hfound, if_pos hstale, ite_self] at hr
    exact failGroup_served hr (by decide) hok
  simp only [if_neg hstale]
  by_cases hmode : r0.key.mode = 0
  · simp only [if_pos hmode, cagraBatchRunGroup, hfound, if_neg hstale] at hr ⊢
    rcases hg : e.handle with _ | g
    · rw [hg] at hr
      exact failGroup_served hr (by decide) hok
    · rfl
  · simp only [if_neg hmode, bfBatchRunGroup, hfound, if_neg hstale] at hr ⊢
    unfold refreshedMain
    rcases hb : (refreshMainBfCache (d1.disk cfg.indexDir e.key) (hasRoom env d1 i) env.bfBuilds
      r0.key.precision e).mainBfIdx with _ | b
    · rw [hb] at hr
      exact failGroup_served hr (by decide) hok
    · rfl

theorem finishFanout_served {f : Fanout} {dim : ℕ}
    (hok : (finishFanout cfg env senv kern d f).2.status = .ok) :
    ∀ c ∈ shardCalls dim f.args, c.Present := by
  unfold finishFanout at hok
  rcases hfind : (findIndex d.live f.key).bind fun i => d.live[i]?.map fun e => (i, e) with
    _ | ⟨i, e⟩
  · rw [hfind] at hok
    exact nomatch hok
  rw [hfind] at hok
  intro c hc
  obtain ⟨a, ha, rfl⟩ := List.mem_map.mp hc
  obtain ⟨ha, hsk⟩ := List.mem_filter.mp ha
  have hsk' : a.sk ≠ 0 := by simpa using hsk
  have hran : exceptFailed (shardSearchWorker kern f.frame f.query a) = false := by
    by_contra hfailed
    have hany : (f.args.map fun a => (a, shardSearchWorker kern f.frame f.query a)).any
        (fun o => exceptFailed o.2) = true :=
      List.any_eq_true.mpr ⟨_, List.mem_map_of_mem ha, by simpa using hfailed⟩
    simp only [if_pos hany] at hok
    exact nomatch hok
  unfold shardSearchWorker at hran
  rw [if_neg hsk'] at hran
  split_ifs at hran ⊢
  · rcases hb : a.bfIdx with _ | b
    · rw [hb] at hran
      exact nomatch hran
    · rfl
  · rcases hg : a.handle with _ | g
    · rw [hg] at hran
      exact nomatch hran
    · rfl

omit [LT D] [DecidableLT D] in
theorem refreshedBatch_kind {e1 : IndexEntry} {ready useBf : Bool} {prec : ℕ}
    (h : refreshedBatch cfg env d i useBf prec e = (e1, ready)) :
    e1.handle = e.handle ∧ e1.shardCount = e.shardCount ∧ e1.dim = e.dim := by
  have hshards := refreshShardBfCaches_eq (d.disk cfg.indexDir e.key) (hasRoom env d i)
    env.bfBuilds prec e
  unfold refreshedBatch refreshedShards refreshedMain at h
  split_ifs at h
  · obtain ⟨mtime, prec', shards, heq, -⟩ := hshards
    rw [h] at heq
    obtain rfl : e1 = _ := heq
    exact ⟨rfl, rfl, rfl⟩
  · obtain rfl := (Prod.mk.inj h).1
    exact ⟨rfl, rfl, rfl⟩
  · obtain rfl := (Prod.mk.inj h).1
    exact ⟨refreshMainBfCache_field IndexEntry.handle (fun _ _ _ _ _ _ _ => rfl) e,
      refreshMainBfCache_field IndexEntry.shardCount (fun _ _ _ _ _ _ _ => rfl) e,
      refreshMainBfCache_field IndexEntry.dim (fun _ _ _ _ _ _ _ => rfl) e⟩
  · obtain rfl := (Prod.mk.inj h).1
    exact ⟨rfl, rfl, rfl⟩

/-- SEARCH_BATCH answers OK from an object that is there: the kernels refuse a missing graph. -/
theorem handleSearchBatch_served {fltMax : D} {latencyUs : ℕ}
    {queries : Except ShmFault (List Vec)}
    (hok : (handleSearchBatch cfg env kern fltMax latencyUs d frame queries).2.status = .ok) :
    searchBatchObject cfg env d frame queries = true := by
  unfold searchBatchObject
  rcases hentered : searchBatchEntered cfg env d frame queries with _ | ⟨d1, i, e, qs⟩
  · obtain ⟨d1, r, hne, hreply⟩ : ∃ d' r, r.status ≠ .ok ∧ ∀ kern : Kernels D,
        handleSearchBatch cfg env kern fltMax latencyUs d frame queries = (d', r) :=
      handleSearchBatch_refused hentered
    rw [hreply kern] at hok
    exact absurd hok hne
  rw [handleSearchBatch_entered kern hentered] at hok
  obtain ⟨useBf, huse⟩ : ∃ useBf, (frame.searchMode == 1 || e.isFlat) = useBf := ⟨_, rfl⟩
  rcases hrefreshed : refreshedBatch cfg env d1 i useBf frame.bfPrecision e with ⟨e1, ready⟩
  rw [searchBatchEntry_refreshed fltMax latencyUs qs huse hrefreshed] at hok
  simp only [huse, hrefreshed]
  cases ready
  · exact nomatch hok
  cases useBf
  · rcases Nat.lt_or_ge e1.shardCount 2 with hcount | hcount
    · rcases hg : e1.handle with _ | g
      · simp only [if_pos hcount, batchUnsharded, hg] at hok
        exact nomatch hok
      · simp
    · simp [hcount]
  · rfl

end Served

section WriteServed

variable {cfg : Config} {env : Env} {d : Daemon} {frame : BuildFrame} {input : BuildInput}
  {key : Key} {t : CompactTicket} {image : Option (List UInt8)}

theorem findEntry_eq_none (h : findIndex d.live key = none) : findEntry d key = none := by
  rw [findEntry, h]
  rfl

theorem findEntry_of_slot {i : ℕ} {e : IndexEntry} (h : findIndex d.live key = some i)
    (hi : d.live[i]? = some e) : findEntry d key = some (i, e) := by
  rw [findEntry, h, Option.bind_some, hi]
  rfl

theorem findEntry_of_hole {i : ℕ} (h : findIndex d.live key = some i) (hi : d.live[i]? = none) :
    findEntry d key = none := by
  rw [findEntry, h, Option.bind_some, hi]
  rfl

theorem handleExtend_cases :
    (∃ g, extendCalls d frame input = [.cagra (some g)]) ∨
      extendCalls d frame input = [] ∧ ∃ x : Effect, x.reply.status ≠ .ok ∧
        ∀ outcome, handleExtend d frame input outcome = x := by
  have hfail : ∀ {status : Status} {error : String}, status ≠ .ok →
      ∃ x : Effect, x.reply.status ≠ .ok ∧
        ∀ _ : ExtendOutcome, Effect.failure d status error = x :=
    fun hstatus => ⟨_, hstatus, fun _ => rfl⟩
  unfold extendCalls handleExtend
  by_cases hdir : input.indexDir.isNone = true
  · rw [if_pos (.inl hdir)]
    simp only [if_pos hdir]
    exact .inr ⟨trivial, hfail (by decide)⟩
  by_cases hrows : frame.nVecs < 1 ∨ frame.dim = 0
  · rw [if_pos (by tauto)]
    simp only [if_neg hdir, if_pos hrows]
    exact .inr ⟨trivial, hfail (by decide)⟩
  obtain ⟨hvecs, hdim⟩ := not_or.mp hrows
  rcases hseg : input.segment with fault | seg
  · rw [if_pos (.inr (.inr (.inr rfl)))]
    simp only [if_neg hdir, if_neg hrows]
    exact .inr ⟨trivial, hfail (by decide)⟩
  rw [if_neg (by simp [hdir, hvecs, hdim, Except.toOption])]
  simp only [if_neg hdir, if_neg hrows]
  rcases hfind : findIndex d.live frame.key with _ | i
  · simp only [findEntry_eq_none hfind]
    exact .inr ⟨trivial, hfail (by decide)⟩
  rcases hslot : d.live[i]? with _ | e
  · simp only [findEntry_of_hole hfind hslot, hslot]
    exact .inr ⟨trivial, hfail (by decide)⟩
  simp only [findEntry_of_slot hfind hslot, hslot]
  rcases hg : e.handle with _ | g
  · exact .inr ⟨rfl, hfail (by decide)⟩
  by_cases hover : extendOverBudget d e frame.nVecs.toNat = true
  · simp only [hover, if_true]
    exact .inr ⟨by simp, hfail (by decide)⟩
  · exact .inl ⟨g, by simp [hover]⟩

/-- The same of COMPACT once it has its tombstones: it reports success without a kernel when no
row is dead. -/
theorem endCompact_cases :
    (∃ g, compactCalls d t = [.cagra (some g)]) ∨
      compactCalls d t = [] ∧ ∃ x : Effect, (x.reply.status = .ok → entryHasGraph d t.key = true) ∧
        ∀ image, endCompact cfg env d t image = x := by
  have hmissing : ∃ x : Effect, (x.reply.status = .ok → entryHasGraph d t.key = true) ∧
      ∀ _ : Option (List UInt8),
        Effect.failure d .notFound "CAGRA index not loaded for compact" = x :=
    ⟨.failure d .notFound _, (fun hok => nomatch hok), fun _ => rfl⟩
  unfold compactCalls endCompact
  rcases hfind : findIndex d.live t.key with _ | i
  · simp only [findEntry_eq_none hfind]
    exact .inr ⟨trivial, hmissing⟩
  rcases hslot : d.live[i]? with _ | e
  · simp only [findEntry_of_hole hfind hslot, hslot]
    exact .inr ⟨trivial, hmissing⟩
  simp only [findEntry_of_slot hfind hslot, hslot]
  rcases hg : e.handle with _ | g
  · exact .inr ⟨rfl, hmissing⟩
  by_cases hkeep : (keepBits t.deadTids e).all id = true
  · simp only [if_pos hkeep]
    refine .inr ⟨by simp [hkeep], _, fun _ => ?_, fun _ => rfl⟩
    simp [entryHasGraph, findEntry_of_slot hfind hslot, hg]
  · exact .inl ⟨g, by simp [hkeep]⟩

theorem entryHasGraph_of_extendCalls (h : extendCalls d frame input ≠ []) :
    entryHasGraph d frame.key = true := by
  unfold extendCalls at h
  unfold entryHasGraph
  split_ifs at h
  · exact absurd rfl h
  rcases hfound : findEntry d frame.key with _ | ⟨i, e⟩
  · rw [hfound] at h
    exact absurd rfl h
  · rw [hfound] at h
    dsimp only at h ⊢
    split_ifs at h with hcall
    · exact hcall.1
    · exact absurd rfl h

theorem handleExtend_served {outcome : ExtendOutcome}
    (hok : (handleExtend d frame input outcome).reply.status = .ok) :
    entryHasGraph d frame.key = true := by
  rcases @handleExtend_cases d frame input with ⟨g, hcalls⟩ | ⟨-, x, hne, hsame⟩
  · have hne : extendCalls d frame input ≠ [] := by simp [hcalls]
    exact entryHasGraph_of_extendCalls hne
  · exact absurd (hsame outcome ▸ hok) hne

theorem entryHasGraph_of_compactCalls (h : compactCalls d t ≠ []) :
    entryHasGraph d t.key = true := by
  unfold compactCalls at h
  unfold entryHasGraph
  rcases hfound : findEntry d t.key with _ | ⟨i, e⟩
  · rw [hfound] at h
    exact absurd rfl h
  · rw [hfound] at h
    dsimp only at h ⊢
    split_ifs at h with hcall
    · exact hcall.1
    · exact absurd rfl h

theorem endCompact_served (hok : (endCompact cfg env d t image).reply.status = .ok) :
    entryHasGraph d t.key = true := by
  rcases @endCompact_cases cfg env d t with ⟨g, hcalls⟩ | ⟨-, x, hserved, hsame⟩
  · exact entryHasGraph_of_compactCalls (by simp [hcalls])
  · exact hserved (hsame image ▸ hok)

theorem exportGraph_cases {error : String} :
    (∃ g, exportGraph error d key = .ok g ∧ exportCalls d key = [.cagra (some g)]) ∨
      exportCalls d key = [] ∧ exportGraph error d key = .error ⟨.notFound, error⟩ := by
  unfold exportGraph exportCalls
  rcases findEntry d key with _ | ⟨i, e⟩
  · exact .inr ⟨rfl, rfl⟩
  dsimp only
  rcases hg : e.handle with _ | g
  · exact .inr ⟨rfl, rfl⟩
  by_cases hcount : 2 ≤ e.shardCount
  · have hsharded : ¬ e.shardCount < 2 := by omega
    exact .inr ⟨if_neg fun h => hsharded h.2, if_pos hcount⟩
  · exact .inl ⟨g, if_neg hcount, if_pos ⟨rfl, by omega⟩⟩

end WriteServed

end PgCuvs
