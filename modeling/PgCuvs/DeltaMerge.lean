import PgCuvs.Backend.Merge

/-! Pending rows reach a result either through the daemon or through the
backend. Both ways give the same rows, unless both are taken at once. -/

namespace PgCuvs

open Selection

variable {D : Type} [LinearOrder D]

/-- `r` answers an unfiltered search for `k` rows over the candidates `B`: at
once, from a coalesced group, or after a shard fanout. -/
inductive ScanReplied (kern : Kernels D) (metric : Metric) (query : Vec) (dist : Vec → D)
    (recs : List DeltaRecord) (k : ℕ) : List (CuvsResult D) → SearchReply D → Prop
  | immediate {cfg : Config} {env : Env} {senv : SearchEnv} {d d' : Daemon} {i : ℕ}
      {e : IndexEntry} {frame : SearchFrame} {rows : List Vec} {r : SearchReply D}
      (hframe : frame.nFilterTids = 0 ∧ frame.k = k) (hshards : e.shardCount < 2)
      (hbf : HoldsRows metric rows (refreshMainBfCache (d.disk cfg.indexDir e.key)
        (hasRoom env d i) env.bfBuilds frame.bfPrecision e))
      (hgraph : HoldsRows metric rows (graphEntry (d.disk cfg.indexDir e.key) senv frame e))
      (hdelta : DeltaCacheHolds (refreshDeltaCache (d.disk cfg.indexDir e.key)
        (hasRoom env (d.setEntry i (graphEntry (d.disk cfg.indexDir e.key) senv frame e)) i)
        env.bfBuilds (graphEntry (d.disk cfg.indexDir e.key) senv frame e)) recs)
      (h : searchEntry cfg env senv kern d i e frame query = .reply d' r) :
      ScanReplied kern metric query dist recs k (candidates dist e.tids rows) r
  | cagraGroup {cfg : Config} {env : Env} {d d' : Daemon} {i q latencyUs : ℕ} {e : IndexEntry}
      {r0 req : BatchRequest} {reqs : List BatchRequest} {rows : List Vec} {r : SearchReply D}
      (hfound : batchResolve cfg env d r0.key.key = (d', some (i, e)))
      (hrows : HoldsRows metric rows e)
      (hdelta : DeltaCacheHolds (refreshDeltaCache (d'.disk cfg.indexDir e.key)
        (hasRoom env d' i) env.bfBuilds e) recs)
      (hreq : reqs[q]? = some req) (hquery : req.query = query) (hk : req.k = k)
      (h : (cagraBatchRunGroup cfg env kern latencyUs d r0 reqs).2[q]? = some r) :
      ScanReplied kern metric query dist recs k (candidates dist e.tids rows) r
  | bfGroup {cfg : Config} {env : Env} {d d' : Daemon} {i q latencyUs : ℕ} {e : IndexEntry}
      {r0 req : BatchRequest} {reqs : List BatchRequest} {rows : List Vec} {r : SearchReply D}
      (hfound : batchResolve cfg env d r0.key.key = (d', some (i, e)))
      (hrows : HoldsRows metric rows (refreshMainBfCache (d'.disk cfg.indexDir e.key)
        (hasRoom env d' i) env.bfBuilds r0.key.precision e))
      (hreq : reqs[q]? = some req) (hquery : req.query = query) (hk : req.k = k)
      (h : (bfBatchRunGroup cfg env kern latencyUs d r0 reqs).2[q]? = some r) :
      ScanReplied kern metric query dist recs k (candidates dist e.tids rows) r
  | fanout {cfg : Config} {env : Env} {senv : SearchEnv} {d : Daemon} {i : ℕ} {e : IndexEntry}
      {f : Fanout} {rows : List Vec}
      (hframe : f.query = query ∧ f.frame.k = k)
      (hfound : (findIndex d.live f.key).bind (fun i => d.live[i]?.map fun e => (i, e))
        = some (i, e))
      (hentry : e.nVecs = rows.length ∧ e.tids.length = rows.length ∧ e.metric = metric)
      (hslices : ∀ a ∈ f.args, HoldsSlice rows f.frame.k f.frame.shardOverfetch a)
      (hcover : SlicesCover rows.length 0 f.args)
      (hdelta : DeltaCacheHolds (refreshDeltaCache (d.disk cfg.indexDir e.key)
        (hasRoom env d i) env.bfBuilds
        (recordFanout (f.args.map fun a => (a, shardSearchWorker kern f.frame f.query a)) e)) recs) :
      ScanReplied kern metric query dist recs k (candidates dist e.tids rows)
        (finishFanout cfg env senv kern d f).2

variable {kern : Kernels D} {metric : Metric} {query : Vec} {dist : Vec → D}
  {recs : List DeltaRecord}

theorem ScanReplied.nearestOf {k : ℕ} {B : List (CuvsResult D)} {r : SearchReply D}
    (K : ExactKernels kern metric query dist)
    (h : ScanReplied kern metric query dist recs k B r) (hok : r.status = .ok) :
    NearestOf metric k B (deltaCandidates dist recs) r.results r.deltaMerged := by
  cases h with
  | immediate hframe hshards hbf hgraph hdelta h =>
    obtain ⟨hfilter, rfl⟩ := hframe
    exact searchEntry_answers K hfilter hshards hbf hgraph hdelta h hok
  | cagraGroup hfound hrows hdelta hreq hquery hk h =>
    exact hk ▸ cagraBatchRunGroup_answers K hfound hrows hdelta hreq hquery h hok
  | bfGroup hfound hrows hreq hquery hk h =>
    obtain ⟨hmerged, hnear⟩ := bfBatchRunGroup_answers K hfound hrows hreq hquery h hok
    rw [hmerged, ← hk]
    exact NearestOf.plain hnear
  | fanout hframe hfound hentry hslices hcover hdelta =>
    obtain ⟨rfl, rfl⟩ := hframe
    exact finishFanout_answers K hfound hentry.1 hentry.2.1 hentry.2.2 hslices hcover hdelta hok

variable {g : Guc} {a : Artifacts} {snap : Snapshot} {dim : ℕ} {B : List (CuvsResult D)}

/-- Scans and whitelisted searches return the nearest live rows of base and
delta, except where a session that always merges gets a merged reply with a
pending row nearer than one of them, or a whitelisted search that applies no
tombstones meets a dead row nearer than one of them. -/
theorem deltaMerge_exact_iff (K : ExactKernels kern metric query dist)
    (P : PendingRows g a snap dist dim B recs) :
    (∀ (search : ℕ → SearchReply D) (live : List (CuvsResult D)),
      g.enableCuvs = true → cuvsIndexTombstoneUnusable g a = false →
      cuvsTombstoneCount a ≤ g.cuvsK →
      ScanReplied kern metric query dist recs (scanFetchK g a) B (search (scanFetchK g a)) →
      (search (scanFetchK g a)).status = .ok →
      live = liveCandidates snap a (B ++ deltaCandidates dist recs) →
      ∃ out, gettupleSearch g false a snap dist dim metric search = .ok out ∧
        ((out.take (min g.cuvsK live.length)).map CuvsResult.distance
            = nearestKeys metric.Nearer CuvsResult.distance g.cuvsK live ↔
          (g.deltaSearch = .cpu → (search (scanFetchK g a)).deltaMerged = true →
            ∀ x ∈ nearestKeys metric.Nearer CuvsResult.distance g.cuvsK live,
              ∀ r ∈ recs, metric.Nearer x (dist r.vec)))) ∧
    (∀ (search : ℕ → SearchReply D) (live : List (CuvsResult D)) (filterArr : List Tid)
      (k kFetch : ℕ),
      filterArr.Pairwise (· ≤ ·) → filterArr ≠ [] → 1 ≤ k ∧ k ≤ 2000 →
      cuvsKWithTombstoneSlack g a k = some kFetch →
      (∀ c ∈ B ++ deltaCandidates dist recs, c.tid ≠ 0) →
      (search kFetch).status = .ok →
      NearestOf metric kFetch (whitelisted filterArr B)
        (whitelisted filterArr (deltaCandidates dist recs)) (search kFetch).results
        (search kFetch).deltaMerged →
      live = liveCandidates snap a (whitelisted filterArr (B ++ deltaCandidates dist recs)) →
      ∃ out, filteredKnn g a snap dist dim k metric (some filterArr) search = .ok out ∧
        ((out.take (min k live.length)).map CuvsResult.distance
            = nearestKeys metric.Nearer CuvsResult.distance k live ↔
          (g.maxDeltaRows = 0 → ∀ x ∈ nearestKeys metric.Nearer CuvsResult.distance k live,
            ∀ c ∈ whitelisted filterArr B,
              tombstoned snap (tombstoneRecordsForScan a) c.tid = true →
                metric.Nearer x c.distance) ∧
          (g.deltaSearch = .cpu → (search kFetch).deltaMerged = true →
            ∀ x ∈ nearestKeys metric.Nearer CuvsResult.distance k live,
              ∀ r ∈ recs, r.tid ∈ filterArr → metric.Nearer x (dist r.vec)))) := by
  refine ⟨?_, ?_⟩
  · intro search live hon hgate hcount hreply hok hlive
    exact gettupleSearch_exact P hon hgate hcount hok (hreply.nearestOf K hok) hlive
  · intro search live filterArr k kFetch hsorted hne hk hfetch htid hok hreply hlive
    exact filteredKnn_exact P hsorted hne hk hfetch htid hok hreply hlive

section Sample

def sampleDelta : List DeltaRecord := [⟨103, [5]⟩]

def sampleTids : TidsFile := cuvsTidsWrite 1 .l2 [101, 102]

def sampleArtifacts : Artifacts :=
  { Artifacts.empty with
    tids := some sampleTids
    delta := some
      { content :=
          { header := some
              { cuvsDeltaHeaderInit 1 .l2 sampleTids.header.bodyCrc32 with nRows := 1 }
            body := sampleDelta, tail := 0 }
        mtime := 7 } }

def sampleGuc (mode : DeltaSearch) : Guc :=
  { Guc.default with deltaSearch := mode, cuvsK := 2 }

def sampleRows : List Vec := [[10], [20]]

def sampleEntry : IndexEntry :=
  { IndexEntry.zero with
    key := ⟨1, 2⟩, dim := 1, nVecs := 2, tids := [101, 102]
    handle := some ⟨[], sampleRows⟩
    deltaIdx := some ⟨1, [[5]], .l2, 0⟩, deltaTids := some [103], nDelta := 1, deltaMtime := 7 }

def sampleDaemon : Daemon :=
  { Daemon.initial (fun _ => 0) fun _ _ => sampleArtifacts with
    registry := ⟨[sampleEntry], []⟩ }

def sampleDist (_ v : Vec) : ℕ := (v.headD 0).toNat

def sampleSnapshot : Snapshot := ⟨fun _ => true, fun _ => false⟩

def sampleSearch (mode : DeltaSearch) (k : ℕ) : SearchReply ℕ :=
  ((searchEntry sampleConfig (Env.quiet 9 0) (SearchEnv.plain [0]) (sortKernels .l2 sampleDist)
    sampleDaemon 0 sampleEntry (searchFrame (sampleGuc mode) ⟨1, 2⟩ 1 .l2 k) [0]).reply?).getD
      (SearchReply.failure .error "")

def sampleBase : List (CuvsResult ℕ) := candidates (sampleDist [0]) [101, 102] sampleRows

theorem samplePending (mode : DeltaSearch) (hmode : mode ≠ .gpu) :
    PendingRows (sampleGuc mode) sampleArtifacts sampleSnapshot (sampleDist [0]) 1 sampleBase
      sampleDelta where
  mode := hmode
  file := by cases mode <;> decide +kernel
  nodup := by decide
  alive := by simp [sampleArtifacts, tombstoneRecordsForScan, Artifacts.empty, tombstoned]

theorem sampleEntry_holdsRows : HoldsRows .l2 sampleRows sampleEntry where
  nVecs := rfl
  tids := rfl
  metric := rfl
  handle := by rintro g ⟨⟩; rfl
  mainBf := by rintro b ⟨⟩
  hnsw := by rintro h ⟨⟩

theorem sampleSearch_replied (mode : DeltaSearch) :
    ScanReplied (sortKernels .l2 sampleDist) .l2 [0] (sampleDist [0]) sampleDelta 2 sampleBase
      (sampleSearch mode 2) := by
  have hreply : (searchEntry sampleConfig (Env.quiet 9 0) (SearchEnv.plain [0])
      (sortKernels .l2 sampleDist) sampleDaemon 0 sampleEntry
      (searchFrame (sampleGuc mode) ⟨1, 2⟩ 1 .l2 2) [0]).reply? = some (sampleSearch mode 2) := by
    cases mode <;> decide +kernel
  obtain ⟨d', h⟩ := SearchOutcome.reply?_eq_some hreply
  refine ScanReplied.immediate ⟨rfl, rfl⟩ (by decide) ?_ ?_ ?_ h
  · exact ⟨rfl, rfl, rfl, by rintro g ⟨⟩; rfl, by rintro b ⟨⟩, by rintro h ⟨⟩⟩
  · exact sampleEntry_holdsRows
  · rintro b ⟨⟩
    exact ⟨rfl, rfl, rfl⟩

def sampleLive : List (CuvsResult ℕ) :=
  liveCandidates sampleSnapshot sampleArtifacts
    (sampleBase ++ deltaCandidates (sampleDist [0]) sampleDelta)

theorem deltaMerge_exact_sample :
    ∃ out, gettupleSearch (sampleGuc .auto) false sampleArtifacts sampleSnapshot (sampleDist [0]) 1
        .l2 (sampleSearch .auto) = .ok out ∧
      (out.take (min 2 sampleLive.length)).map CuvsResult.distance
        = nearestKeys Metric.l2.Nearer CuvsResult.distance 2 sampleLive := by
  have hiff := (deltaMerge_exact_iff (sortKernels_exact .l2 sampleDist [0])
    (samplePending .auto (by decide))).1 (sampleSearch .auto) sampleLive rfl rfl
    (by decide +kernel) (sampleSearch_replied .auto) (by decide +kernel) rfl
  obtain ⟨out, hout, hexact⟩ := hiff
  exact ⟨out, hout, hexact.mpr (by rintro ⟨⟩)⟩

/-- A session that always merges gets the pending row twice, in place of the
nearest base row. -/
theorem deltaMerge_cpu_twice :
    ExactKernels (sortKernels .l2 sampleDist) .l2 [0] (sampleDist [0]) ∧
      PendingRows (sampleGuc .cpu) sampleArtifacts sampleSnapshot (sampleDist [0]) 1 sampleBase
        sampleDelta ∧
      cuvsIndexTombstoneUnusable (sampleGuc .cpu) sampleArtifacts = false ∧
      cuvsTombstoneCount sampleArtifacts ≤ (sampleGuc .cpu).cuvsK ∧
      ScanReplied (sortKernels .l2 sampleDist) .l2 [0] (sampleDist [0]) sampleDelta
        (scanFetchK (sampleGuc .cpu) sampleArtifacts) sampleBase
        (sampleSearch .cpu (scanFetchK (sampleGuc .cpu) sampleArtifacts)) ∧
      ∃ out, gettupleSearch (sampleGuc .cpu) false sampleArtifacts sampleSnapshot (sampleDist [0])
          1 .l2 (sampleSearch .cpu) = .ok out ∧
        (out.take (min 2 sampleLive.length)).map CuvsResult.distance = [5, 5] ∧
        nearestKeys Metric.l2.Nearer CuvsResult.distance 2 sampleLive = [5, 10] := by
  refine ⟨sortKernels_exact .l2 sampleDist [0], samplePending .cpu (by decide), rfl, by decide +kernel,
    sampleSearch_replied .cpu, [⟨103, 5⟩, ⟨103, 5⟩], ?_⟩
  decide +kernel

end Sample

end PgCuvs
