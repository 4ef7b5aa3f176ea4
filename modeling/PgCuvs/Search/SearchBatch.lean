import PgCuvs.Search.Answers
import PgCuvs.Search.Moves
import PgCuvs.Search.Signed

/-! `handle_search_batch`: many queries in one request, under the index lock from
start to end. A sharded index is fanned out and merged query by query, by a
second copy of the merge that ends a single search. -/

namespace PgCuvs

open Selection

variable {D : Type}

/-- The reply header and the segment behind it: `stride` slots for every query. -/
structure BatchReply (D : Type) where
  status : Status
  stride : ℕ
  rows : List (List (CuvsResult D))
  latencyUs : ℕ
  error : String
deriving DecidableEq, Repr

def BatchReply.failure (status : Status) (error : String) : BatchReply D where
  status := status
  stride := 0
  rows := []
  latencyUs := 0
  error := error

/-- Find the index, loading it on a miss; a batch asks for no download. -/
def batchFind (cfg : Config) (env : Env) (d : Daemon) (key : Key) :
    Daemon × Except Status (ℕ × IndexEntry) :=
  let lookup (d : Daemon) : Option (ℕ × IndexEntry) :=
    (findIndex d.live key).bind fun i => d.live[i]?.map fun e => (i, e)
  match lookup d with
  | some (i, e) =>
    ({ d with counters := { d.counters with hits := cacheCounterBump d.counters.hits e } },
      .ok (i, e))
  | none =>
    match loadIndex cfg env d key with
    | (d, .loaded) =>
      match lookup d with
      | some (i, e) =>
        ({ d with counters :=
            { d.counters with
              reloads := cacheCounterBump d.counters.reloads e
              misses := cacheCounterBump d.counters.misses e } }, .ok (i, e))
      | none => (d, .error .notFound)
    | (d, .vram) => (d, .error .oomFallback)
    | (d, _) => (d, .error .notFound)

def failBatch (env : Env) (d : Daemon) (i : ℕ) (e : IndexEntry) (status : Status)
    (error : String) : Daemon × BatchReply D :=
  (d.setEntry i (recordSearchStat env.now e status 0 (some error)),
    BatchReply.failure status error)

/-- One slot of an unsharded batch; padding keeps its distance under TID 0. -/
def batchSlot (e : IndexEntry) (r : SearchResult D) : CuvsResult D :=
  (baseResult e r).getD ⟨0, r.distance⟩

def batchUnsharded (kern : Kernels D) (frame : SearchFrame) (useBf : Bool) (e : IndexEntry)
    (queries : List Vec) (stride : ℕ) : Except ℕ (List (List (CuvsResult D))) :=
  let raw :=
    if useBf then
      match e.mainBfIdx with
      | some bf => kern.bfSearchBatch bf queries stride (deltaGpuOf e)
      | none => .error 1
    else
      match e.handle with
      | some h =>
        kern.cagraSearchBatch h queries stride e.gpuDeviceId frame.itopkSize frame.searchWidth
      | none => .error 1
  raw.map fun raw => (List.range queries.length).map fun q =>
    ((raw.getD q []).take stride).map (batchSlot e)

def batchCandidates (kern : Kernels D) (frame : SearchFrame) (e : IndexEntry) (query : Vec) :
    List ShardSearchArg → List (CuvsResult D) → Except ℕ (List (CuvsResult D))
  | [], cand => .ok cand
  | a :: as, cand =>
    match shardSearchWorker kern frame query a with
    | .error rc => .error rc
    | .ok out => batchCandidates kern frame e query as (cand ++ shardCandidates e a out)

section Merge

variable [LT D] [DecidableLT D]

/-- The nearest `stride` candidates, padded to `stride` slots. -/
def batchRow (fltMax : D) (e : IndexEntry) (stride : ℕ) (cand : List (CuvsResult D)) :
    List (CuvsResult D) :=
  let best := (qsort (deltaCandCmp e.metric) cand).take stride
  best ++ List.replicate (stride - best.length) ⟨0, fltMax⟩

/-- Shard fanout and merge, one query after the other. -/
def batchSharded (kern : Kernels D) (fltMax : D) (frame : SearchFrame) (useBf : Bool)
    (e : IndexEntry) (stride : ℕ) : List Vec → Except ℕ (List (List (CuvsResult D)))
  | [] => .ok []
  | query :: queries =>
    match batchCandidates kern frame e query (shardArgs frame useBf e) [] with
    | .error rc => .error rc
    | .ok cand =>
      (batchSharded kern fltMax frame useBf e stride queries).map fun rows =>
        batchRow fltMax e stride cand :: rows

def searchBatchEntry (cfg : Config) (env : Env) (kern : Kernels D) (fltMax : D) (latencyUs : ℕ)
    (d : Daemon) (i : ℕ) (e : IndexEntry) (frame : SearchFrame) (queries : List Vec) :
    Daemon × BatchReply D :=
  let useBf := frame.searchMode == 1 || e.isFlat
  let stride := min frame.k e.nVecs
  let a := d.disk cfg.indexDir e.key
  let (e, ready) :=
    if useBf then
      if 2 ≤ e.shardCount then
        refreshShardBfCaches a (hasRoom env d i) env.bfBuilds frame.bfPrecision e
      else
        let e := refreshMainBfCache a (hasRoom env d i) env.bfBuilds frame.bfPrecision e
        (e, e.mainBfIdx.isSome)
    else (e, true)
  if !ready then failBatch env d i e .noVectors noVectorsError
  else
    let out :=
      if e.shardCount < 2 then batchUnsharded kern frame useBf e queries stride
      else batchSharded kern fltMax frame useBf e stride queries
    match out with
    | .error _ => failBatch env d i e .oomFallback "batch search failed on the GPU; retry on CPU"
    | .ok rows =>
      let e := recordSearchStat env.now e .ok latencyUs none
      let e :=
        { e with
          stats := { e.stats with lastRequestedK := frame.k, lastReturnedK := stride }
          lastSearchMode := if useBf then .gpuBf else .gpuCagra }
      (d.setEntry i e, { status := .ok, stride, rows, latencyUs, error := "" })

/-- `handle_search_batch`; the frame's `nVecs` counts the queries. -/
def handleSearchBatch (cfg : Config) (env : Env) (kern : Kernels D) (fltMax : D) (latencyUs : ℕ)
    (d : Daemon) (frame : SearchFrame) (queries : Except ShmFault (List Vec)) :
    Daemon × BatchReply D :=
  match batchFind cfg env d frame.key with
  | (d, .error status) => (d, BatchReply.failure status "")
  | (d, .ok (i, e)) =>
    let e := { e with lastSearch := env.now }
    let d := d.setEntry i e
    if e.stale then failBatch env d i e .stale "index stale (writes since build)"
    else if frame.metric ≠ e.metric then
      failBatch env d i e .metricMismatch
        s!"index built with metric {e.metric.code} but queried with metric {frame.metric.code}; REINDEX required"
    else if frame.dim ≠ e.dim then
      failBatch env d i e .dimMismatch
        s!"query dim {frame.dim} does not match index dim {e.dim}"
    else if frame.nVecs = 0 ∨ min frame.k e.nVecs = 0 then
      (d, BatchReply.failure .error "empty batch or empty index")
    else
      match queries with
      | .error fault => (d, BatchReply.failure .error (fault.message ++ " for batch queries"))
      | .ok queries =>
        searchBatchEntry cfg env kern fltMax latencyUs d i e frame (queries.take frame.nVecs)

/-- `handleSearchBatch` with the `k` of the wire: a negative one is refused where 0 is. -/
def handleSearchBatchInt (cfg : Config) (env : Env) (kern : Kernels D) (fltMax : D)
    (latencyUs : ℕ) (d : Daemon) (frame : SearchFrame) (queries : Except ShmFault (List Vec)) :
    Daemon × BatchReply D :=
  handleSearchBatch cfg env kern fltMax latencyUs d
    (if frame.k ≤ int32Max then frame else { frame with k := 0 }) queries

end Merge

section Partition

def ShardsCut (n : ℕ) : ℕ → List ShardEntry → Prop
  | off, [] => off = n
  | off, s :: ss => s.tidOffset = off ∧ ShardsCut n (off + s.nVecs) ss

theorem ShardsCut.bound {n off : ℕ} {ss : List ShardEntry} (h : ShardsCut n off ss) :
    off ≤ n ∧ ∀ s ∈ ss, s.tidOffset + s.nVecs ≤ n := by
  induction ss generalizing off with
  | nil => exact ⟨h.le, by simp⟩
  | cons s ss ih =>
    obtain ⟨rfl, hrest⟩ := h
    obtain ⟨hle, hss⟩ := ih hrest
    exact ⟨(Nat.le_add_right _ _).trans hle, List.forall_mem_cons.mpr ⟨hle, hss⟩⟩

theorem ShardsCut.cover {n off : ℕ} {e : IndexEntry} (h : ShardsCut n off e.shards)
    (frame : SearchFrame) (useBf : Bool) : SlicesCover n off (shardArgs frame useBf e) := by
  unfold shardArgs
  generalize e.shards = ss at h
  induction ss generalizing off with
  | nil => exact Eq.ge h
  | cons s ss ih => exact ⟨h.1, ih h.2⟩

theorem ShardsCut.congr {n off : ℕ} {ss ss' : List ShardEntry} (h : ShardsCut n off ss)
    (hmap : ss'.map ShardEntry.graphOnly = ss.map ShardEntry.graphOnly) : ShardsCut n off ss' := by
  induction ss generalizing off ss' with
  | nil =>
    rw [List.map_nil, List.map_eq_nil_iff] at hmap
    exact hmap ▸ h
  | cons s ss ih =>
    obtain ⟨s', ss', rfl, hs, hss⟩ := List.map_eq_cons_iff.mp hmap
    have hoff : s'.graphOnly.tidOffset = s.graphOnly.tidOffset := by rw [hs]
    have hn : s'.graphOnly.nVecs = s.graphOnly.nVecs := by rw [hs]
    refine ⟨hoff.trans h.1, ih ?_ hss⟩
    rw [show s'.nVecs = s.nVecs from hn]
    exact h.2

end Partition

section Answers

variable [LinearOrder D] {kern : Kernels D} {frame : SearchFrame} {query : Vec} {metric : Metric}
  {dist : Vec → D} {rows : List Vec} {e : IndexEntry} {args : List ShardSearchArg}

def ShardsExact (kern : Kernels D) (frame : SearchFrame) (query : Vec) (metric : Metric)
    (dist : Vec → D) (rows : List Vec) (args : List ShardSearchArg) : Prop :=
  ∀ a ∈ args, ∃ out, shardSearchWorker kern frame query a = .ok out ∧
    ExactTopK metric dist ((rows.drop a.tidOffset).take a.shardNVecs) a.sk out

theorem ShardsExact.slices {useBf : Bool} (hcut : ShardsCut rows.length 0 e.shards)
    (h : ShardsExact kern frame query metric dist rows (shardArgs frame useBf e)) :
    ∀ a ∈ shardArgs frame useBf e, ∃ out, shardSearchWorker kern frame query a = .ok out ∧
      SliceExact metric dist rows frame.k a out := by
  intro a ha
  obtain ⟨out, hout, hexact⟩ := h a ha
  obtain ⟨s, hs, rfl⟩ := List.mem_map.mp ha
  have hk := le_effK frame.k frame.shardOverfetch
  exact ⟨out, hout, hcut.bound.2 s hs, ⟨by simp only; omega, min_le_left _ _⟩, hexact⟩

omit [LinearOrder D] in
theorem batchCandidates_eq (h : ∀ a ∈ args, ∃ out, shardSearchWorker kern frame query a = .ok out)
    (cand : List (CuvsResult D)) :
    batchCandidates kern frame e query args cand = .ok (cand ++ args.flatMap fun a =>
      shardCandidates e a ((shardSearchWorker kern frame query a).toOption.getD [])) := by
  induction args generalizing cand with
  | nil => rw [List.flatMap_nil, List.append_nil]; rfl
  | cons a as ih =>
    obtain ⟨⟨out, hout⟩, has⟩ := List.forall_mem_cons.mp h
    rw [batchCandidates, hout]
    simp only
    rw [ih has, List.flatMap_cons, hout, List.append_assoc]
    rfl

/-- One row of a sharded batch: the nearest rows of the corpus, no padding. -/
theorem batchRow_isNearest {useBf : Bool} (fltMax : D) (hn : e.nVecs = rows.length)
    (htids : e.tids.length = rows.length) (hmetric : e.metric = metric)
    (hcut : ShardsCut rows.length 0 e.shards)
    (h : ShardsExact kern frame query metric dist rows (shardArgs frame useBf e)) :
    ∃ cand, batchCandidates kern frame e query (shardArgs frame useBf e) [] = .ok cand ∧
      (batchRow fltMax e (min frame.k e.nVecs) cand).length = min frame.k e.nVecs ∧
      IsNearest metric.Nearer CuvsResult.distance frame.k (candidates dist e.tids rows)
        (batchRow fltMax e (min frame.k e.nVecs) cand) := by
  have hslices := h.slices hcut
  refine ⟨_, batchCandidates_eq (fun a ha => (hslices a ha).imp fun _ hout => hout.1) [], ?_⟩
  rw [List.nil_append]
  set cand := (shardArgs frame useBf e).flatMap fun a =>
    shardCandidates e a ((shardSearchWorker kern frame query a).toOption.getD [])
  have hexact : ∀ a ∈ shardArgs frame useBf e, SliceExact metric dist rows frame.k a
      ((shardSearchWorker kern frame query a).toOption.getD []) := by
    intro a ha
    obtain ⟨out, hout, H⟩ := hslices a ha
    rw [hout]
    exact H
  have hlen : (candidates dist e.tids rows).length = e.nVecs := by simp [candidates, htids, hn]
  have hsort := isNearest_qsort metric frame.k (cand ++ [])
  have hnear := shardCandidates_isNearest hn htids hexact (hcut.cover frame useBf) hsort
  rw [List.append_nil, List.append_nil] at hnear
  have hbest : ((qsort (deltaCandCmp e.metric) cand).take (min frame.k e.nVecs))
      = (qsort (candCmp metric) cand).take frame.k := by
    have hall := hnear.length_eq
    rw [hlen] at hall
    rw [deltaCandCmp, hmetric, ← hall, List.length_take, ← List.take_take, List.take_length]
  have hrow : batchRow fltMax e (min frame.k e.nVecs) cand
      = (qsort (candCmp metric) cand).take frame.k := by
    rw [batchRow, hbest, hnear.length_eq, hlen, Nat.sub_self, List.replicate_zero, List.append_nil]
  rw [hrow]
  exact ⟨by rw [hnear.length_eq, hlen], hnear⟩

def NearestRow (metric : Metric) (dist : Vec → Vec → D) (k stride : ℕ) (tids : List Tid)
    (rows : List Vec) (query : Vec) (row : List (CuvsResult D)) : Prop :=
  row.length = stride ∧
    IsNearest metric.Nearer CuvsResult.distance k (candidates (dist query) tids rows) row

theorem batchSharded_rows {useBf : Bool} {dist : Vec → Vec → D} (fltMax : D)
    (hn : e.nVecs = rows.length) (htids : e.tids.length = rows.length) (hmetric : e.metric = metric)
    (hcut : ShardsCut rows.length 0 e.shards) (queries : List Vec)
    (h : ∀ query ∈ queries,
      ShardsExact kern frame query metric (dist query) rows (shardArgs frame useBf e)) :
    ∃ out, batchSharded kern fltMax frame useBf e (min frame.k e.nVecs) queries = .ok out ∧
      List.Forall₂ (NearestRow metric dist frame.k (min frame.k e.nVecs) e.tids rows)
        queries out := by
  induction queries with
  | nil => exact ⟨[], rfl, .nil⟩
  | cons query queries ih =>
    obtain ⟨hquery, hrest⟩ := List.forall_mem_cons.mp h
    obtain ⟨out, hout, hrows⟩ := ih hrest
    obtain ⟨cand, hcand, hlen, hnear⟩ := batchRow_isNearest fltMax hn htids hmetric hcut hquery
    refine ⟨batchRow fltMax e (min frame.k e.nVecs) cand :: out, ?_, .cons ⟨hlen, hnear⟩ hrows⟩
    rw [batchSharded, hcand]
    simp only
    rw [hout]
    rfl

omit [LinearOrder D] in
theorem searchSharded_fanout {cfg : Config} {env : Env} {d d' : Daemon} {i : ℕ} {f : Fanout}
    (h : searchSharded cfg env d i e frame query = (.fanout d' f : SearchOutcome D)) :
    f.frame = frame ∧ f.query = query ∧ ∃ e' : IndexEntry, f.args = shardArgs frame f.useBf e' ∧
      e'.shards.map ShardEntry.graphOnly = e.shards.map ShardEntry.graphOnly := by
  obtain ⟨_, _, shards, hrefreshed, hshards⟩ := refreshShardBfCaches_eq
    (d.disk cfg.indexDir e.key) (hasRoom env d i) env.bfBuilds frame.bfPrecision e
  simp only [searchSharded] at h
  generalize hp : (if (frame.searchMode == 1) = true then
    refreshShardBfCaches (d.disk cfg.indexDir e.key) (hasRoom env d i) env.bfBuilds
      frame.bfPrecision e else (e, true)) = p at h
  have hgraph : p.1.shards.map ShardEntry.graphOnly = e.shards.map ShardEntry.graphOnly := by
    rw [← hp]
    split_ifs
    · rw [hrefreshed]
      exact hshards
    · rfl
  split_ifs at h
  · cases h
  · cases h
  · cases h
    exact ⟨rfl, rfl, p.1, rfl, hgraph⟩

def DeltaServes (kern : Kernels D) (query : Vec) (k : ℕ) (e : IndexEntry) : Prop :=
  ∃ b out, e.deltaIdx = some b ∧ e.nDelta ≠ 0 ∧
    kern.bfSearch b query (min k e.nDelta) (deltaGpuOf e) = .ok out

/-- An OK reply of the nearest rows, with those of the delta when it can be searched. -/
structure FanoutAnswered (metric : Metric) (dist : Vec → D) (k : ℕ) (tids : List Tid)
    (rows : List Vec) (recs : List DeltaRecord) (served : Prop) (r : SearchReply D) : Prop where
  ok : r.status = .ok
  merged : r.deltaMerged = true ↔ served
  nearest : IsNearest metric.Nearer CuvsResult.distance k
    (if r.deltaMerged then candidates dist tids rows ++ deltaCandidates dist recs
      else candidates dist tids rows) r.results

/-- An OK reply with a row of the nearest rows for every query. -/
structure BatchAnswered (metric : Metric) (dist : Vec → Vec → D) (k : ℕ) (tids : List Tid)
    (rows : List Vec) (queries : List Vec) (r : BatchReply D) : Prop where
  ok : r.status = .ok
  rows : List.Forall₂ (NearestRow metric dist k (min k rows.length) tids rows) queries r.rows

def refreshedFanout (cfg : Config) (env : Env) (kern : Kernels D) (d : Daemon) (i : ℕ)
    (e : IndexEntry) (f : Fanout) : IndexEntry :=
  refreshDeltaCache (d.disk cfg.indexDir e.key) (hasRoom env d i) env.bfBuilds
    (recordFanout (f.args.map fun a => (a, shardSearchWorker kern f.frame f.query a)) e)

omit [LinearOrder D] in
theorem searchDelta_isSome_iff {k : ℕ} :
    (searchDelta kern query k (deltaGpuOf e) e).1.isSome ↔ DeltaServes kern query k e := by
  unfold searchDelta DeltaServes
  cases hidx : e.deltaIdx with
  | none => simp
  | some b =>
    dsimp only
    split_ifs with hzero
    · simp [hzero]
    · cases hraw : kern.bfSearch b query (min k e.nDelta) (deltaGpuOf e) with
      | error rc => simp [hraw]
      | ok out => simp [hraw, hzero]

theorem finishFanout_merged {cfg : Config} {env : Env} {senv : SearchEnv} {d : Daemon} {i : ℕ}
    {f : Fanout}
    (hfound : (findIndex d.live f.key).bind (fun i => d.live[i]?.map fun e => (i, e)) = some (i, e))
    (hok : (finishFanout cfg env senv kern d f).2.status = .ok) :
    (finishFanout cfg env senv kern d f).2.deltaMerged = true ↔
      f.useBf = false ∧
        DeltaServes kern f.query f.frame.k (refreshedFanout cfg env kern d i e f) := by
  simp only [finishFanout, hfound] at hok ⊢
  by_cases hfailed : ((f.args.map fun a => (a, shardSearchWorker kern f.frame f.query a)).any
      fun o => exceptFailed o.2) = true
  · rw [if_pos hfailed] at hok
    cases hok
  rw [if_neg hfailed, ← searchDelta_isSome_iff]
  cases huse : f.useBf with
  | true => simp [mergeFanout, recordAnswer]
  | false =>
    simp only [Bool.false_eq_true, if_false, true_and]
    rfl

omit [LinearOrder D] in
theorem finishFanoutInt_ne_ok [LT D] [DecidableLT D] {cfg : Config} {env : Env} {senv : SearchEnv}
    {d : Daemon} {f : Fanout} (hk : int32Max < f.frame.k) :
    (finishFanoutInt cfg env senv kern d f).2.status ≠ .ok := by
  unfold finishFanoutInt
  rw [if_neg (not_le.mpr hk)]
  split
  · exact fun h => nomatch h
  · dsimp only
    split_ifs
    · exact fun h => nomatch h
    · exact fun h => nomatch h

theorem searchBatchEntry_exact {cfg : Config} {env : Env} {fltMax : D} {latencyUs : ℕ} {d : Daemon}
    {i : ℕ} {e' : IndexEntry} {queries : List Vec} {dist : Vec → Vec → D} {useBf : Bool}
    (hcut : ShardsCut rows.length 0 e.shards) (hn : e.nVecs = rows.length)
    (htids : e.tids.length = rows.length) (hmetric : e.metric = metric)
    (hsharded : 2 ≤ e.shardCount) (huse : useBf = (frame.searchMode == 1 || e.isFlat))
    (hready : (if useBf then refreshShardBfCaches (d.disk cfg.indexDir e.key) (hasRoom env d i)
      env.bfBuilds frame.bfPrecision e else (e, true)) = (e', true))
    (hqueries : ∀ query ∈ queries,
      ShardsExact kern frame query metric (dist query) rows (shardArgs frame useBf e')) :
    BatchAnswered metric dist frame.k e.tids rows queries
      (searchBatchEntry cfg env kern fltMax latencyUs d i e frame queries).2 := by
  have hsame : e'.nVecs = e.nVecs ∧ e'.tids = e.tids ∧ e'.metric = e.metric ∧
      e'.shardCount = e.shardCount ∧
      e'.shards.map ShardEntry.graphOnly = e.shards.map ShardEntry.graphOnly := by
    split_ifs at hready
    · obtain ⟨_, _, shards, heq, hshards⟩ := refreshShardBfCaches_eq (d.disk cfg.indexDir e.key)
        (hasRoom env d i) env.bfBuilds frame.bfPrecision e
      rw [hready] at heq
      obtain rfl : e' = _ := heq
      exact ⟨rfl, rfl, rfl, rfl, hshards⟩
    · obtain rfl := (Prod.mk.inj hready).1
      exact ⟨rfl, rfl, rfl, rfl, rfl⟩
  obtain ⟨hn', htids', hmetric', hcount, hgraph⟩ := hsame
  obtain ⟨out, hout, hrows⟩ := batchSharded_rows fltMax (hn'.trans hn) (htids' ▸ htids)
    (hmetric'.trans hmetric) (hcut.congr hgraph) queries hqueries
  rw [hn'] at hout
  have hentry : searchBatchEntry cfg env kern fltMax latencyUs d i e frame queries =
      (d.setEntry i
        { recordSearchStat env.now e' .ok latencyUs none with
          stats :=
            { (recordSearchStat env.now e' .ok latencyUs none).stats with
              lastRequestedK := frame.k, lastReturnedK := min frame.k e.nVecs }
          lastSearchMode := if useBf then .gpuBf else .gpuCagra },
        { status := .ok, stride := min frame.k e.nVecs, rows := out, latencyUs, error := "" }) := by
    simp only [searchBatchEntry, ← huse, if_pos hsharded, hready, Bool.not_true,
      Bool.false_eq_true, if_false, hcount, Nat.not_lt.mpr hsharded, hout]
  rw [hentry, ← htids']
  rw [hn', hn] at hrows
  exact ⟨rfl, hrows⟩

omit [LinearOrder D] in
theorem handleSearchBatch_found [LT D] [DecidableLT D] {cfg : Config} {env : Env} {fltMax : D}
    {latencyUs : ℕ} {d d' : Daemon} {i : ℕ} {e : IndexEntry} {queries : List Vec}
    (frame : SearchFrame)
    (hfind : batchFind cfg env d frame.key = (d', .ok (i, e))) (hstale : e.stale = false)
    (hmetric : frame.metric = e.metric) (hdim : frame.dim = e.dim) :
    handleSearchBatch cfg env kern fltMax latencyUs d frame (.ok queries) =
      if frame.nVecs = 0 ∨ min frame.k e.nVecs = 0 then
        (d'.setEntry i { e with lastSearch := env.now },
          .failure .error "empty batch or empty index")
      else searchBatchEntry cfg env kern fltMax latencyUs
        (d'.setEntry i { e with lastSearch := env.now }) i { e with lastSearch := env.now }
        frame (queries.take frame.nVecs) := by
  unfold handleSearchBatch
  rw [hfind]
  dsimp only
  rw [if_neg (by simpa using hstale), if_neg (by rw [hmetric, not_not]),
    if_neg (by rw [hdim, not_not])]

/-- When the shards cut the corpus and their kernels are exact, a single search
returns the nearest rows of the corpus and of the delta that can be searched, and a batch the
nearest rows of the corpus for every query, exactly when `k` fits an `int`; a batch must also have
a query and a row to return. -/
theorem sharded_search_exact_iff (cfg : Config) (kern : Kernels D) (frame : SearchFrame)
    (e : IndexEntry) (rows : List Vec) (hcut : ShardsCut rows.length 0 e.shards)
    (hn : e.nVecs = rows.length) (htids : e.tids.length = rows.length)
    (hmetric : e.metric = metric) :
    (∀ (env env' : Env) (senv senv' : SearchEnv) (d d' d'' : Daemon) (i j : ℕ) (e' : IndexEntry)
      (f : Fanout) (query : Vec) (dist : Vec → D) (recs : List DeltaRecord),
      searchEntryInt cfg env senv kern d i e frame query = .fanout d' f →
      ShardsExact kern frame query metric dist rows f.args →
      (∀ b k dev out, kern.bfSearch b query k dev = .ok out →
        ExactTopK metric dist b.rows k out) →
      (findIndex d''.live f.key).bind (fun i => d''.live[i]?.map fun e => (i, e)) = some (j, e') →
      e'.nVecs = e.nVecs ∧ e'.tids = e.tids ∧ e'.metric = e.metric →
      DeltaCacheHolds (refreshedFanout cfg env' kern d'' j e' f) recs →
      (FanoutAnswered metric dist frame.k e.tids rows recs
          (f.useBf = false ∧ DeltaServes kern query frame.k (refreshedFanout cfg env' kern d'' j e' f))
          (finishFanoutInt cfg env' senv' kern d'' f).2 ↔
        frame.k ≤ int32Max)) ∧
    (∀ (env : Env) (fltMax : D) (latencyUs : ℕ) (d d' : Daemon) (i : ℕ) (e0 e' : IndexEntry)
      (queries : List Vec) (dist : Vec → Vec → D) (useBf : Bool),
      batchFind cfg env d frame.key = (d', .ok (i, e0)) → e = { e0 with lastSearch := env.now } →
      e.stale = false → frame.metric = e.metric → frame.dim = e.dim → 2 ≤ e.shardCount →
      useBf = (frame.searchMode == 1 || e.isFlat) →
      (if useBf then refreshShardBfCaches (d'.disk cfg.indexDir e.key)
        (hasRoom env (d'.setEntry i e) i) env.bfBuilds frame.bfPrecision e else (e, true))
          = (e', true) →
      (frame.k ≤ int32Max → ∀ query ∈ queries.take frame.nVecs,
        ShardsExact kern frame query metric (dist query) rows (shardArgs frame useBf e')) →
      (BatchAnswered metric dist frame.k e.tids rows (queries.take frame.nVecs)
          (handleSearchBatchInt cfg env kern fltMax latencyUs d frame (.ok queries)).2 ↔
        frame.k ≤ int32Max ∧ frame.nVecs ≠ 0 ∧ 0 < frame.k ∧ rows ≠ [])) := by
  -- the fan-out of a single search first, then the batch
  refine ⟨?_, ?_⟩
  · intro env env' senv senv' d d' d'' i j e' f query dist recs hfanout hshards K hfound hsame hdelta
    obtain ⟨hn', htids', hmetric'⟩ := hsame
    rcases lt_or_ge int32Max frame.k with hwide | hint
    · refine iff_of_false (fun h => ?_) (not_le.mpr hwide)
      have hframe : f.frame = frame := searchEntryInt_fanout hwide hfanout
      exact finishFanoutInt_ne_ok (hframe ▸ hwide) h.ok
    · refine iff_of_true ?_ hint
      unfold searchEntryInt at hfanout
      rw [if_pos hint] at hfanout
      obtain ⟨rfl, rfl, e1, hargs, hgraph⟩ := searchSharded_fanout (searchEntry_fanout hfanout)
      have hcut1 := hcut.congr hgraph
      have hslices : ∀ a ∈ f.args, ∃ out, shardSearchWorker kern f.frame f.query a = .ok out ∧
          SliceExact metric dist rows f.frame.k a out := by
        rw [hargs] at hshards ⊢
        exact hshards.slices hcut1
      obtain ⟨hok, hnear⟩ := @finishFanout_merges D _ metric dist rows _ _ _ senv' kern _ _ _ f K
        hfound (hn'.trans hn) (htids' ▸ htids) (hmetric'.trans hmetric) hslices
        (hargs ▸ hcut1.cover f.frame f.useBf) hdelta
      rw [finishFanoutInt, if_pos hint, ← htids']
      exact ⟨hok, finishFanout_merged hfound hok, hnear⟩
  · rintro env fltMax latencyUs d d' i e0 e' queries dist useBf hfind rfl hstale hmetric' hdim
      hsharded huse hready hqueries
    have hrefused : ∀ {r : BatchReply D}, r = .failure .error "empty batch or empty index" →
        ¬ BatchAnswered metric dist frame.k e0.tids rows (queries.take frame.nVecs) r := by
      rintro r rfl h
      exact nomatch h.ok
    rcases lt_or_ge int32Max frame.k with hwide | hint
    -- a negative `int k` makes the batch look empty
    · refine iff_of_false (hrefused ?_) fun h => absurd h.1 (not_le.mpr hwide)
      rw [handleSearchBatchInt, if_neg (not_le.mpr hwide),
        handleSearchBatch_found { frame with k := 0 } hfind hstale hmetric' hdim,
        if_pos (.inr (Nat.zero_min _))]
    · rw [handleSearchBatchInt, if_pos hint, handleSearchBatch_found frame hfind hstale hmetric' hdim]
      have hn0 : e0.nVecs = rows.length := hn
      by_cases hempty : frame.nVecs = 0 ∨ min frame.k e0.nVecs = 0
      · rw [if_pos hempty]
        refine iff_of_false (hrefused rfl) ?_
        rintro ⟨-, hq, hk, hrows⟩
        have hpos := List.length_pos_iff.mpr hrows
        omega
      · rw [if_neg hempty]
        refine iff_of_true (searchBatchEntry_exact hcut hn htids hmetric hsharded huse
          (by simpa using hready) (hqueries hint)) ?_
        have hpos : 0 < rows.length := by omega
        exact ⟨hint, by omega, by omega, List.length_pos_iff.mp hpos⟩

end Answers

section Sample

def cutRows : List Vec := [[10], [20], [15]]

def cutDist (_ v : Vec) : ℕ := (v.headD 0).toNat

def cutShard (shardId tidOffset : ℕ) (rows : List Vec) : ShardEntry where
  shardId := shardId
  handle := some ⟨[], rows⟩
  tidOffset := tidOffset
  nVecs := rows.length
  gpuDeviceId := 0
  vramBytes := 0
  searchCount := 0
  errorCount := 0
  lastStatus := .ok
  bfIdx := none
  bfVramBytes := 0

def cutDelta : List DeltaRecord := [⟨104, [17]⟩]

def cutEntry : IndexEntry :=
  { IndexEntry.zero with
    key := ⟨1, 2⟩, dim := 1, metric := .ip, nVecs := 3, tids := [101, 102, 103], shardCount := 2
    shards := [cutShard 0 0 [[10], [20]], cutShard 1 2 [[15]]], lastSearch := 9
    deltaIdx := some ⟨1, [[17]], .ip, 0⟩, deltaTids := some [104], nDelta := 1, deltaMtime := 7 }

def cutArtifacts : Artifacts :=
  { Artifacts.empty with
    delta := some ⟨⟨some { cuvsDeltaHeaderInit 1 .ip 0 with nRows := 1 }, cutDelta, 0⟩, 7⟩ }

def cutFrame : SearchFrame :=
  { sampleFrame with metric := .ip, nVecs := 1, shardOverfetch := 1 }

def cutDaemon : Daemon :=
  { Daemon.initial (fun _ => 0) fun _ _ => cutArtifacts with registry := ⟨[cutEntry], []⟩ }

def cutFanout : Fanout where
  key := ⟨1, 2⟩
  frame := cutFrame
  query := [1]
  useBf := false
  args := shardArgs cutFrame false cutEntry

theorem cutEntry_exact (query : Vec) :
    ShardsExact (sortKernels .ip cutDist) cutFrame query .ip (cutDist query) cutRows
      (shardArgs cutFrame false cutEntry) := by
  have hshard : ∀ (s : ShardEntry) (rows : List Vec), s.handle = some ⟨[], rows⟩ →
      (cutRows.drop s.tidOffset).take s.nVecs = rows → 0 < s.nVecs → ∃ out,
        shardSearchWorker (sortKernels .ip cutDist) cutFrame query
          { handle := s.handle, bfIdx := s.bfIdx, useBf := false, sk := min s.nVecs 3
            gpuDeviceId := s.gpuDeviceId, tidOffset := s.tidOffset, shardNVecs := s.nVecs }
          = .ok out ∧
        ExactTopK Metric.ip (cutDist query) ((cutRows.drop s.tidOffset).take s.nVecs)
          (min s.nVecs 3) out := by
    intro s rows hhandle hrows hpos
    refine ⟨sortedRows .ip (cutDist query) rows (min s.nVecs 3), ?_, ?_⟩
    · rw [shardSearchWorker, if_neg (by simp only; omega), if_neg Bool.false_ne_true, hhandle]
      rfl
    · rw [hrows]
      exact sortedRows_exact .ip (cutDist query) rows le_rfl
  intro a ha
  obtain ⟨s, hs, rfl⟩ := List.mem_map.mp ha
  have hs' : s = cutShard 0 0 [[10], [20]] ∨ s = cutShard 1 2 [[15]] := by
    simpa [cutEntry] using hs
  rcases hs' with rfl | rfl
  · exact hshard _ [[10], [20]] rfl rfl (by decide)
  · exact hshard _ [[15]] rfl rfl (by decide)

theorem cutEntry_delta {e : IndexEntry} (hidx : e.deltaIdx = cutEntry.deltaIdx)
    (htids : e.deltaTids = cutEntry.deltaTids) (hn : e.nDelta = 1) : DeltaCacheHolds e cutDelta := by
  intro b hb
  obtain rfl := Option.some.inj (hidx.symm.trans hb)
  exact ⟨rfl, htids, hn⟩

theorem sharded_search_exact_cut :
    FanoutAnswered .ip (cutDist [1]) 2 [101, 102, 103] cutRows cutDelta
        (cutFanout.useBf = false ∧ DeltaServes (sortKernels .ip cutDist) [1] 2
          (refreshedFanout sampleConfig (Env.quiet 9 0) (sortKernels .ip cutDist) cutDaemon 0 cutEntry
            cutFanout))
        (finishFanoutInt sampleConfig (Env.quiet 9 0) (SearchEnv.plain [1]) (sortKernels .ip cutDist)
          cutDaemon cutFanout).2 ∧
      BatchAnswered .ip cutDist 2 [101, 102, 103] cutRows [[1], [2]]
        (handleSearchBatchInt sampleConfig (Env.quiet 9 0) (sortKernels .ip cutDist) 0 3 cutDaemon
          { cutFrame with nVecs := 2 } (.ok [[1], [2]])).2 := by
  refine ⟨?_, ?_⟩
  · exact ((sharded_search_exact_iff sampleConfig (sortKernels .ip cutDist) cutFrame cutEntry cutRows
      ⟨rfl, rfl, rfl⟩ rfl rfl rfl).1 (Env.quiet 9 0) (Env.quiet 9 0) (SearchEnv.plain [1])
      (SearchEnv.plain [1]) cutDaemon (cutDaemon.setEntry 0 { cutEntry with inflight := 1 }) cutDaemon
      0 0 cutEntry cutFanout [1] (cutDist [1]) cutDelta rfl (cutEntry_exact [1])
      (fun b k dev out hout =>
        Except.ok.inj hout ▸ sortedRows_exact .ip (cutDist [1]) b.rows le_rfl)
      rfl ⟨rfl, rfl, rfl⟩ (cutEntry_delta rfl rfl rfl)).mpr (by decide)
  · exact ((sharded_search_exact_iff sampleConfig (sortKernels .ip cutDist)
      { cutFrame with nVecs := 2 } cutEntry cutRows ⟨rfl, rfl, rfl⟩ rfl rfl rfl).2 (Env.quiet 9 0) 0 3
      cutDaemon _ 0 cutEntry cutEntry [[1], [2]] cutDist false rfl rfl rfl rfl rfl (by decide) rfl rfl
      fun _ query _ => cutEntry_exact query).mpr (by decide)

/-- With `k = 2 ^ 31` there is no buffer for the candidates. -/
theorem sharded_search_wide :
    ¬ ∀ (cfg : Config) (kern : Kernels ℕ) (frame : SearchFrame) (e : IndexEntry) (rows : List Vec)
      (metric : Metric) (env env' : Env) (senv senv' : SearchEnv) (d d' d'' : Daemon) (i j : ℕ)
      (e' : IndexEntry) (f : Fanout) (query : Vec) (dist : Vec → ℕ) (recs : List DeltaRecord),
      ShardsCut rows.length 0 e.shards → e.nVecs = rows.length → e.tids.length = rows.length →
      e.metric = metric → searchEntryInt cfg env senv kern d i e frame query = .fanout d' f →
      ShardsExact kern frame query metric dist rows f.args →
      (∀ b k dev out, kern.bfSearch b query k dev = .ok out →
        ExactTopK metric dist b.rows k out) →
      (findIndex d''.live f.key).bind (fun i => d''.live[i]?.map fun e => (i, e)) = some (j, e') →
      e'.nVecs = e.nVecs ∧ e'.tids = e.tids ∧ e'.metric = e.metric →
      DeltaCacheHolds (refreshedFanout cfg env' kern d'' j e' f) recs →
      FanoutAnswered metric dist frame.k e.tids rows recs
        (f.useBf = false ∧ DeltaServes kern query frame.k (refreshedFanout cfg env' kern d'' j e' f))
        (finishFanoutInt cfg env' senv' kern d'' f).2 := by
  intro hall
  set frame : SearchFrame := { cutFrame with k := 2 ^ 31 }
  have hargs : ∀ a ∈ shardArgsNeg frame false cutEntry, a.sk = 0 := by decide +kernel
  have hexact : ShardsExact (sortKernels .ip cutDist) frame [1] .ip (cutDist [1]) cutRows
      (shardArgsNeg frame false cutEntry) := by
    intro a ha
    refine ⟨[], ?_, ?_⟩
    · rw [shardSearchWorker, if_pos (hargs a ha)]
    · rw [hargs a ha]
      exact sortedRows_exact (k := 0) .ip (cutDist [1]) _ le_rfl
  have hanswered := hall sampleConfig (sortKernels .ip cutDist) frame cutEntry cutRows .ip
    (Env.quiet 9 0) (Env.quiet 9 0) (SearchEnv.plain [1]) (SearchEnv.plain [1]) cutDaemon
    (cutDaemon.setEntry 0 { cutEntry with inflight := 1 }) cutDaemon 0 0 cutEntry
    { cutFanout with frame, args := shardArgsNeg frame false cutEntry } [1] (cutDist [1]) cutDelta
    ⟨rfl, rfl, rfl⟩ rfl rfl rfl rfl hexact
    (fun b k dev out hout =>
      Except.ok.inj hout ▸ sortedRows_exact .ip (cutDist [1]) b.rows le_rfl)
    rfl ⟨rfl, rfl, rfl⟩ (cutEntry_delta rfl rfl rfl)
  exact finishFanoutInt_ne_ok (by decide) hanswered.ok

end Sample

end PgCuvs
