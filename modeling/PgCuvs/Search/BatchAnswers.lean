import PgCuvs.DeltaMerge
import PgCuvs.Search.BatchQueue

/-! What a request gets out of a coalesced group, beside what the immediate path of its
section answers in the state the group finds. -/

namespace PgCuvs

variable {D : Type}

/-- A search that waits in the queue, with the section that put it there. -/
structure QueuedSearch where
  frame : SearchFrame
  query : Vec
  bruteForce : Bool
deriving DecidableEq, Repr

def QueuedSearch.request (s : QueuedSearch) : BatchRequest :=
  if s.bruteForce then
    { key := ⟨s.frame.key, s.frame.bfPrecision, s.frame.dim, 1, 0, 0⟩, query := s.query
      k := s.frame.k, waitUs := s.frame.bfBatchWaitUs }
  else
    { key := ⟨s.frame.key, 0, s.frame.dim, 0, s.frame.itopkSize, s.frame.searchWidth⟩
      query := s.query, k := s.frame.k, waitUs := s.frame.cagraBatchWaitUs }

@[simp] theorem QueuedSearch.request_query (s : QueuedSearch) : s.request.query = s.query := by
  unfold QueuedSearch.request
  split_ifs <;> rfl

@[simp] theorem QueuedSearch.request_k (s : QueuedSearch) : s.request.k = s.frame.k := by
  unfold QueuedSearch.request
  split_ifs <;> rfl

@[simp] theorem QueuedSearch.request_key (s : QueuedSearch) : s.request.key.key = s.frame.key := by
  unfold QueuedSearch.request
  split_ifs <;> rfl

section Immediate

variable [LT D] [DecidableLT D] {cfg : Config} {env : Env} {senv : SearchEnv} {kern : Kernels D}
  {d d' : Daemon} {i : ℕ} {e : IndexEntry} {frame : SearchFrame} {query : Vec}

theorem searchEntry_batched {req : BatchRequest}
    (h : searchEntry cfg env senv kern d i e frame query = .batched d' req) :
    ∃ b, req = (QueuedSearch.mk frame query b).request := by
  unfold searchEntry at h
  split at h
  · split at h
    · split at h
      · cases h
        exact ⟨true, rfl⟩
      · cases h
    · obtain ⟨d1, r, hreply⟩ := @searchBruteForce_replies D _ _ cfg env senv kern d i e frame query
      cases hreply.symm.trans h
  · split at h
    · unfold searchSharded at h
      simp only at h
      split_ifs at h <;> cases h
    · unfold searchGraph at h
      split at h
      · cases h
      · simp only at h
        split at h
        · split at h
          · cases h
            exact ⟨false, rfl⟩
          · cases h
        · obtain ⟨d1, r, hreply⟩ := @searchCagra_replies D _ _ cfg env senv kern _ i _ frame query
          cases hreply.symm.trans h

/-- `handle_search` with the dispatch to the section that queued the request, and that
section's immediate path. -/
def immediateSearch (cfg : Config) (env : Env) (senv : SearchEnv) (kern : Kernels D) (d : Daemon)
    (s : QueuedSearch) : SearchOutcome D :=
  match searchResolve cfg env d s.frame.key with
  | (d, .error status) => .reply d (SearchReply.failure status "")
  | (d, .ok (i, e)) =>
    let e := { e with lastSearch := env.now }
    let d := d.setEntry i e
    if e.stale then failEntry env d i e .stale "index stale (writes since build)"
    else if s.frame.metric ≠ e.metric then
      failEntry env d i e .metricMismatch
        s!"index built with metric {e.metric.code} but queried with metric {s.frame.metric.code}; REINDEX required"
    else if s.frame.dim ≠ e.dim then
      failEntry env d i e .dimMismatch
        s!"query dim {s.frame.dim} does not match index dim {e.dim}"
    else if s.bruteForce then searchBruteForce cfg env senv kern d i e s.frame s.query
    else searchCagra cfg env senv kern d i e s.frame s.query

def TakesSection (cfg : Config) (senv : SearchEnv) (kern : Kernels D) (d : Daemon) (e : IndexEntry)
    (s : QueuedSearch) : Prop :=
  e.shardCount < 2 ∧
    if s.bruteForce then s.frame.searchMode = 1 ∨ e.isFlat = true
    else ¬ (s.frame.searchMode = 1 ∨ e.isFlat = true) ∧
      tryCpuHnsw (d.disk cfg.indexDir e.key) senv kern s.frame s.query e = (e, none)

/-- With the batch worker off, `handle_search` takes the immediate path of the section that
the entry it finds leads to. -/
theorem handleSearch_immediate {s : QueuedSearch} {d' : Daemon} {i : ℕ} {e : IndexEntry}
    (hoff : senv.batchWorkerStarted = false) (hquery : senv.query = .ok s.query)
    (hfound : searchResolve cfg env d s.frame.key = (d', .ok (i, e)))
    (htakes : TakesSection cfg senv kern d' { e with lastSearch := env.now } s) :
    handleSearch cfg env senv kern d s.frame = immediateSearch cfg env senv kern d s := by
  obtain ⟨hshards, hsection⟩ := htakes
  have hentry : searchEntry cfg env senv kern (d'.setEntry i { e with lastSearch := env.now }) i
      { e with lastSearch := env.now } s.frame s.query
      = if s.bruteForce then
          searchBruteForce cfg env senv kern (d'.setEntry i { e with lastSearch := env.now }) i
            { e with lastSearch := env.now } s.frame s.query
        else
          searchCagra cfg env senv kern (d'.setEntry i { e with lastSearch := env.now }) i
            { e with lastSearch := env.now } s.frame s.query := by
    unfold searchEntry
    cases hbf : s.bruteForce with
    | true =>
      rw [hbf, if_pos rfl] at hsection
      have hgate : bfBatchGate senv s.frame { e with lastSearch := env.now } = false := by
        rw [bfBatchGate, hoff, Bool.and_false, Bool.false_and]
      rw [if_pos ⟨hsection, hshards⟩, hgate]
      rfl
    | false =>
      simp only [hbf, Bool.false_eq_true, if_false] at hsection
      obtain ⟨hgraph, hnone⟩ := hsection
      rw [if_neg fun h => hgraph h.1, if_neg (by omega), searchGraph, Daemon.setEntry_disk, hnone]
      simp only [hoff, Bool.false_eq_true, false_and, and_false, if_false]
      congr 1
      simp only [Daemon.setEntry, Registry.set, List.set_set]
  simp only [handleSearch, immediateSearch, hfound, hquery]
  rw [hentry]

end Immediate

section SearchedAt

/-- Free device memory does not depend on when an index was last searched. -/
def Env.FreeByContent (env : Env) : Prop :=
  ∀ (live : List IndexEntry) (i : ℕ) (e : IndexEntry) (t device : ℕ), live[i]? = some e →
    env.freeVram (live.set i { e with lastSearch := t }) device = env.freeVram live device

variable {room room' : Room} {t : ℕ}

def SameRoom (t : ℕ) (room room' : Room) : Prop :=
  ∀ e device needed, room' { e with lastSearch := t } device needed = room e device needed

theorem loadDeltaRows_searchedAt (h : SameRoom t room room') (builds : List Vec → ℕ → Bool)
    (gen : UInt32) (n : ℕ) (hdr : DeltaHeader) (body : List DeltaRecord) (e : IndexEntry) :
    loadDeltaRows room' builds gen n hdr body { e with lastSearch := t }
      = { loadDeltaRows room builds gen n hdr body e with lastSearch := t } := by
  have hgpu : deltaGpuOf { e with lastSearch := t } = deltaGpuOf e := rfl
  have hrebuild : ∀ needed, rebuildDeltaCache builds hdr body needed { e with lastSearch := t }
      = { rebuildDeltaCache builds hdr body needed e with lastSearch := t } := by
    intro needed
    simp only [rebuildDeltaCache, hgpu]
    split_ifs <;> rfl
  simp only [loadDeltaRows]
  have hroom := h e (deltaGpuOf e) (hdr.nRows * (hdr.dim * 4 + 8))
  rw [hgpu, hroom]
  split
  · rfl
  · cases htids : e.deltaTids with
    | none => simpa only [htids] using hrebuild _
    | some tids =>
      cases hvecs : e.deltaVecsHost with
      | none => simpa only [htids, hvecs] using hrebuild _
      | some vecs =>
        have hold : ∀ tids vecs, deltaGpuOf { e with deltaTids := tids, deltaVecsHost := vecs }
            = deltaGpuOf e := fun _ _ => rfl
        have hnew : ∀ tids vecs, deltaGpuOf { e with
            lastSearch := t, deltaTids := tids, deltaVecsHost := vecs } = deltaGpuOf e :=
          fun _ _ => rfl
        simp only at hold hnew ⊢
        split
        · simp only [extendDeltaCache, hold, hnew]
          split_ifs <;> rfl
        · simpa only [htids, hvecs] using hrebuild _

theorem refreshDeltaCache_searchedAt (h : SameRoom t room room') (a : Artifacts)
    (builds : List Vec → ℕ → Bool) (e : IndexEntry) :
    refreshDeltaCache a room' builds { e with lastSearch := t }
      = { refreshDeltaCache a room builds e with lastSearch := t } := by
  simp only [refreshDeltaCache]
  cases a.delta with
  | none => rfl
  | some f =>
    simp only
    split_ifs with hmtime
    · rfl
    · cases hread : cuvsDeltaReadHeader f.content with
      | none => rfl
      | some hdr =>
        simp only
        split_ifs with hvalid hgen hrows
        · rfl
        · rfl
        · rfl
        · exact loadDeltaRows_searchedAt h builds _ _ hdr _
            { beginDeltaRefresh f.mtime e with deltaGeneration := hdr.baseTidsCrc32 }

theorem refreshMainBfCache_searchedAt (h : SameRoom t room room') (a : Artifacts)
    (builds : List Vec → ℕ → Bool) (prec : ℕ) (e : IndexEntry) :
    refreshMainBfCache a room' builds prec { e with lastSearch := t }
      = { refreshMainBfCache a room builds prec e with lastSearch := t } := by
  simp only [refreshMainBfCache]
  cases a.vectors with
  | none => rfl
  | some f =>
    simp only
    split_ifs with hcached
    · rfl
    · generalize hbase : { freeMainBfCache e with mainBfMtime := f.mtime, bfPrecision := prec } = e'
      have hbase' : { freeMainBfCache { e with lastSearch := t } with
          mainBfMtime := f.mtime, bfPrecision := prec } = { e' with lastSearch := t } := by
        rw [← hbase]
        rfl
      rw [hbase']
      have hvecs : vectorsForEntry a f.content { e' with lastSearch := t }
          = vectorsForEntry a f.content e' := rfl
      rw [hvecs]
      cases vectorsForEntry a f.content e' with
      | none => rfl
      | some p =>
        have hgpu : deltaGpuOf { e' with lastSearch := t } = deltaGpuOf e' := rfl
        simp only [hgpu, h e' (deltaGpuOf e')]
        split_ifs <;> rfl

theorem hasRoom_searchedAt {env : Env} {d d' : Daemon} {i : ℕ} {e : IndexEntry}
    (hfree : env.FreeByContent) (hi : d.live[i]? = some e)
    (hlive : d'.live = d.live) (hmax : d'.maxVramPerGpu = d.maxVramPerGpu)
    (hpending : d'.pendingBuildVram = d.pendingBuildVram) :
    SameRoom t (hasRoom env d i) (hasRoom env (d'.setEntry i { e with lastSearch := t }) i) := by
  intro x device needed
  have hlt : i < d.live.length := (List.getElem?_eq_some_iff.mp hi).1
  have hset : ((d'.setEntry i { e with lastSearch := t }).setEntry i
      { x with lastSearch := t }).live = (d.live.set i x).set i { x with lastSearch := t } := by
    simp only [Daemon.setEntry_live, List.set_set, hlive]
  have hslot : (d.live.set i x)[i]? = some x := List.getElem?_set_self hlt
  have hused : totalVramUsed ((d'.setEntry i { e with lastSearch := t }).setEntry i
      { x with lastSearch := t }) device = totalVramUsed (d.setEntry i x) device := by
    have hmap : ((d.live.set i x).set i { x with lastSearch := t }).map
        (fun e => entryVramOn e device) = (d.live.set i x).map fun e => entryVramOn e device := by
      rw [List.set_set, List.map_set, List.map_set]
      rfl
    simp only [totalVramUsed, hset, hmap]
    simp only [Daemon.setEntry, hpending, Daemon.live, Registry.set]
  have hbudget : ((d'.setEntry i { e with lastSearch := t }).setEntry i
      { x with lastSearch := t }).maxVramPerGpu = d.maxVramPerGpu := hmax
  simp only [hasRoom, hused, hset, hbudget, hfree _ i x t device hslot]
  rfl

end SearchedAt

section Group

variable [LT D] [DecidableLT D] {cfg : Config} {env : Env} (senv : SearchEnv) {kern : Kernels D}
  {d d' : Daemon} {i q t : ℕ} (latencyUs : ℕ) {e : IndexEntry} {r0 req : BatchRequest}
  {reqs : List BatchRequest}

/-- No call fails, a row of a batched call is the list of the single call, and the list for a
depth is the front of the list for a greater one. -/
structure BatchKernels (kern : Kernels D) : Prop where
  cagra : ∀ h queries k dev itopk width, ∃ rows,
    kern.cagraSearchBatch h queries k dev itopk width = .ok rows ∧
      ∀ q query, queries[q]? = some query → ∀ j ≤ k,
        kern.cagraSearch h query j dev itopk width = .ok ((rows.getD q []).take j)
  bf : ∀ b queries k dev, ∃ rows, kern.bfSearchBatch b queries k dev = .ok rows ∧
    ∀ q query, queries[q]? = some query → ∀ j ≤ k,
      kern.bfSearch b query j dev = .ok ((rows.getD q []).take j)

omit [LT D] [DecidableLT D] in
theorem BatchKernels.bfList (K : BatchKernels kern) (b : BfIndex) (query : Vec) (dev k : ℕ) :
    ∃ row : List (SearchResult D), ∀ j ≤ k, kern.bfSearch b query j dev = .ok (row.take j) := by
  obtain ⟨rows, -, hrows⟩ := K.bf b [query] k dev
  exact ⟨rows.getD 0 [], hrows 0 query rfl⟩

theorem cagraFinishOne_searchedAt (base : List (SearchResult D)) (k : ℕ)
    (draw : Option (List (SearchResult D))) (nDc : ℕ) :
    (cagraFinishOne { e with lastSearch := t } base k draw nDc).2
      = (cagraFinishOne e base k draw nDc).2 := by
  unfold cagraFinishOne
  cases draw with
  | none => rfl
  | some draw =>
    simp only
    split_ifs <;> rfl

theorem cagraFinishOne_congr {base base' : List (SearchResult D)} {k nDc : ℕ}
    {draw draw' : Option (List (SearchResult D))} (hbase : base.take k = base'.take k)
    (hdraw : draw.map (List.take nDc) = draw'.map (List.take nDc)) :
    cagraFinishOne e base k draw nDc = cagraFinishOne e base' k draw' nDc := by
  cases draw with
  | none =>
    cases draw' with
    | none => simp only [cagraFinishOne, hbase]
    | some _ => cases hdraw
  | some l =>
    cases draw' with
    | none => cases hdraw
    | some l' =>
      have hlist : l.take nDc = l'.take nDc := Option.some.inj hdraw
      simp only [cagraFinishOne, hbase, hlist]

omit [LT D] [DecidableLT D] in
theorem searchDeltaBatch_row (K : BatchKernels kern) {queries : List Vec} {query : Vec} {k kMax : ℕ}
    (hq : queries[q]? = some query) (hk : k ≤ kMax) :
    min (searchDeltaBatch kern queries kMax e).2 k = (searchDelta kern query k e.gpuDeviceId e).2 ∧
      ((searchDeltaBatch kern queries kMax e).1.map fun rows => rows.getD q []).map
          (List.take (searchDelta kern query k e.gpuDeviceId e).2)
        = (searchDelta kern query k e.gpuDeviceId e).1.map
            (List.take (searchDelta kern query k e.gpuDeviceId e).2) := by
  unfold searchDeltaBatch searchDelta
  cases hidx : e.deltaIdx with
  | none => exact ⟨Nat.zero_min k, rfl⟩
  | some b =>
    by_cases hzero : e.nDelta = 0
    · simp only [if_pos hzero]
      exact ⟨Nat.zero_min k, rfl⟩
    · obtain ⟨rows, hbatch, hrows⟩ := K.bf b queries (min kMax e.nDelta) e.gpuDeviceId
      have hsingle := hrows q query hq (min k e.nDelta) (by omega)
      simp only [if_neg hzero, hbatch, hsingle, Option.map_some, List.take_take, Nat.min_self]
      exact ⟨by omega, trivial⟩

omit [LT D] [DecidableLT D] in
theorem getElem?_failGroup {status : Status} (hreq : reqs[q]? = some req) :
    (failGroup (D := D) reqs status)[q]? = some (SearchReply.failure status "") := by
  rw [failGroup, List.getElem?_map, hreq, Option.map_some]

def cagraAnswer (kern : Kernels D) (e : IndexEntry) (query : Vec) (k : ℕ)
    (raw : List (SearchResult D)) : List (CuvsResult D) × Bool :=
  (cagraFinishOne e raw k (searchDelta kern query k e.gpuDeviceId e).1
    (searchDelta kern query k e.gpuDeviceId e).2).2

theorem cagraBatchRunGroup_reply (K : BatchKernels kern)
    (hfound : batchResolve cfg env d r0.key.key = (d', some (i, e))) (hstale : e.stale = false)
    (hreq : reqs[q]? = some req) :
    (∀ h, e.handle = some h → ∃ raw,
      kern.cagraSearch h req.query req.k e.gpuDeviceId r0.key.itopkSize r0.key.searchWidth = .ok raw ∧
      (cagraBatchRunGroup cfg env kern latencyUs d r0 reqs).2[q]? = some
        (batchAnswer latencyUs
          (cagraAnswer kern (refreshDeltaCache (d'.disk cfg.indexDir e.key) (hasRoom env d' i)
            env.bfBuilds e) req.query req.k raw).2
          (cagraAnswer kern (refreshDeltaCache (d'.disk cfg.indexDir e.key) (hasRoom env d' i)
            env.bfBuilds e) req.query req.k raw).1)) ∧
    (e.handle = none → (cagraBatchRunGroup cfg env kern latencyUs d r0 reqs).2[q]?
      = some (SearchReply.failure .noVectors "")) := by
  have hq : (reqs.map BatchRequest.query)[q]? = some req.query := by
    rw [List.getElem?_map, hreq, Option.map_some]
  have hk := groupK_le hreq
  refine ⟨?_, ?_⟩
  · intro h hh
    obtain ⟨rows, hbatch, hrows⟩ := K.cagra h (reqs.map BatchRequest.query)
      ((reqs.map BatchRequest.k).foldr max 0) e.gpuDeviceId r0.key.itopkSize r0.key.searchWidth
    refine ⟨_, hrows q _ hq _ hk, ?_⟩
    set e' := refreshDeltaCache (d'.disk cfg.indexDir e.key) (hasRoom env d' i) env.bfBuilds e
      with he'
    obtain ⟨hdepth, hdraw⟩ := searchDeltaBatch_row (e := e') K hq hk
    have hbase : (((rows.getD q []).take ((reqs.map BatchRequest.k).foldr max 0)).take req.k)
        = ((rows.getD q []).take req.k).take req.k := by
      rw [List.take_take, List.take_take, Nat.min_eq_left hk, Nat.min_self]
    simp only [cagraBatchRunGroup, hfound, hstale, Bool.false_eq_true, if_false, hh, hbatch, ← he']
    rw [finishGroup_getElem?, hreq, Option.map_some, Nat.zero_add, hdepth,
      cagraFinishOne_congr hbase hdraw]
    rfl
  · intro hnone
    simp only [cagraBatchRunGroup, hfound, hstale, Bool.false_eq_true, if_false, hnone, failFound]
    exact getElem?_failGroup hreq

theorem searchCagra_reply {frame : SearchFrame} {query : Vec} :
    (∀ h raw, e.handle = some h →
      kern.cagraSearch h query frame.k e.gpuDeviceId frame.itopkSize frame.searchWidth = .ok raw →
      (searchCagra cfg env senv kern d i e frame query).reply? = some
        (batchAnswer senv.latencyUs
          (cagraAnswer kern (refreshDeltaCache (d.disk cfg.indexDir e.key) (hasRoom env d i)
            env.bfBuilds e) query frame.k raw).2
          (cagraAnswer kern (refreshDeltaCache (d.disk cfg.indexDir e.key) (hasRoom env d i)
            env.bfBuilds e) query frame.k raw).1)) ∧
    (e.handle = none → ∃ error, (searchCagra cfg env senv kern d i e frame query).reply?
      = some (SearchReply.failure .noVectors error)) := by
  refine ⟨?_, ?_⟩
  · intro h raw hh hraw
    have hgpu : (refreshDeltaCache (d.disk cfg.indexDir e.key) (hasRoom env d i) env.bfBuilds
        e).gpuDeviceId = e.gpuDeviceId :=
      refreshDeltaCache_field IndexEntry.gpuDeviceId (fun _ => rfl) e
    simp only [searchCagra, hh, hraw, cagraAnswer, hgpu]
    rfl
  · intro hnone
    simp only [searchCagra, hnone]
    exact ⟨_, rfl⟩

def bfAnswer (e : IndexEntry) (raw : List (SearchResult D)) : List (CuvsResult D) :=
  raw.filterMap (baseResult e)

omit [LT D] [DecidableLT D] in
theorem bfBatchRunGroup_reply (K : BatchKernels kern) {e' : IndexEntry}
    (hfound : batchResolve cfg env d r0.key.key = (d', some (i, e))) (hstale : e.stale = false)
    (hreq : reqs[q]? = some req)
    (he' : e' = refreshMainBfCache (d'.disk cfg.indexDir e.key) (hasRoom env d' i) env.bfBuilds
      r0.key.precision e) :
    (∀ bf, e'.mainBfIdx = some bf → ∃ raw,
      kern.bfSearch bf req.query (min req.k e'.nVecs) (deltaGpuOf e') = .ok raw ∧
      (bfBatchRunGroup cfg env kern latencyUs d r0 reqs).2[q]?
        = some (batchAnswer latencyUs false (bfAnswer e' raw))) ∧
    (e'.mainBfIdx = none → (bfBatchRunGroup cfg env kern latencyUs d r0 reqs).2[q]?
      = some (SearchReply.failure .noVectors "")) := by
  have hq : (reqs.map BatchRequest.query)[q]? = some req.query := by
    rw [List.getElem?_map, hreq, Option.map_some]
  have hk := groupK_le hreq
  refine ⟨?_, ?_⟩
  · intro bf hbf
    obtain ⟨rows, hbatch, hrows⟩ := K.bf bf (reqs.map BatchRequest.query)
      (min ((reqs.map BatchRequest.k).foldr max 0) e'.nVecs) (deltaGpuOf e')
    refine ⟨_, hrows q _ hq _ (min_le_min_right _ hk), ?_⟩
    have hdepth : min req.k (min ((reqs.map BatchRequest.k).foldr max 0) e'.nVecs)
        = min req.k e'.nVecs := by
      rw [← min_assoc, min_eq_left hk]
    simp only [bfBatchRunGroup, hfound, hstale, Bool.false_eq_true, if_false, ← he', hbf, hbatch,
      List.getElem?_map, List.getElem?_zipIdx, hreq, Option.map_some, Nat.zero_add, hdepth, bfAnswer]
  · intro hnone
    simp only [bfBatchRunGroup, hfound, hstale, Bool.false_eq_true, if_false, ← he', hnone,
      failFound]
    exact getElem?_failGroup hreq

theorem searchBruteForce_reply (K : BatchKernels kern) {frame : SearchFrame} {query : Vec}
    {e' : IndexEntry} (hplain : frame.nFilterTids = 0)
    (he' : e' = refreshMainBfCache (d.disk cfg.indexDir e.key) (hasRoom env d i) env.bfBuilds
      frame.bfPrecision e) :
    (∀ bf, e'.mainBfIdx = some bf → ∃ raw,
      kern.bfSearch bf query (min frame.k e'.mainBfN) (deltaGpuOf e') = .ok raw ∧
      (searchBruteForce cfg env senv kern d i e frame query).reply?
        = some (batchAnswer senv.latencyUs false (bfAnswer e' raw))) ∧
    (e'.mainBfIdx = none → ∃ error, (searchBruteForce cfg env senv kern d i e frame query).reply?
      = some (SearchReply.failure .noVectors error)) := by
  have hready : ∀ x, prefilterReady frame x = false := by
    intro x
    simp [prefilterReady, hplain]
  have hskip : ∀ x, tryPrefilter kern senv frame query x = (x, none) := by
    intro x
    simp [tryPrefilter, hplain]
  refine ⟨?_, ?_⟩
  · intro bf hbf
    obtain ⟨row, hrow⟩ := K.bfList bf query (deltaGpuOf e') (min frame.k e'.mainBfN)
    refine ⟨row.take (min frame.k e'.mainBfN), hrow _ le_rfl, ?_⟩
    have hlen : ((row.take (min frame.k e'.mainBfN)).filterMap (baseResult e')).length ≤ frame.k := by
      refine (List.length_filterMap_le _ _).trans ?_
      rw [List.length_take]
      omega
    have hraw : (if 0 < min frame.k e'.mainBfN then
          kern.bfSearch bf query (min frame.k e'.mainBfN) (deltaGpuOf e') else .ok [])
        = .ok (row.take (min frame.k e'.mainBfN)) := by
      split_ifs with hpos
      · exact hrow _ le_rfl
      · rw [Nat.eq_zero_of_not_pos hpos, List.take_zero]
    simp only [searchBruteForce, ← he', hbf, hskip, Option.isNone_some, Bool.false_eq_true,
      false_and, if_false, searchDWedge, hplain, bkDepth_unfiltered, hraw, lt_self_iff_false,
      cuvsFilterFrameRefuses, decide_false, Bool.false_and, whitelistResults, List.filter_true,
      List.take_take, Nat.min_self, List.take_of_length_le hlen]
    rfl
  · intro hnone
    simp only [searchBruteForce, ← he', hnone, hready, Option.isNone_none, true_and, if_true]
    exact ⟨_, rfl⟩

omit [LT D] [DecidableLT D] in
theorem filterMap_take_eq {α β : Type*} (f : α → Option β) (l : List α) {a b : ℕ} (hab : a ≤ b) :
    (l.take a).filterMap f = (l.take b).filterMap f ↔ ∀ x ∈ (l.take b).drop a, f x = none := by
  have hsplit : l.take b = l.take a ++ (l.take b).drop a := by
    have happend := List.take_append_drop a (l.take b)
    rw [List.take_take, Nat.min_eq_left hab] at happend
    exact happend.symm
  have hmap : (l.take b).filterMap f = (l.take a).filterMap f ++ ((l.take b).drop a).filterMap f := by
    conv_lhs => rw [hsplit]
    exact List.filterMap_append
  rw [hmap, List.self_eq_append_right, List.filterMap_eq_nil_iff]

/-- No row of the index is ranked between the depth of the group, which is cut to the rows of
the index, and that of the immediate path, which is cut to those of the cache. -/
def DepthsAgree (kern : Kernels D) (s : QueuedSearch) (e : IndexEntry) : Prop :=
  ∀ bf, e.mainBfIdx = some bf →
    ∀ raw, kern.bfSearch bf s.query (min s.frame.k (max e.mainBfN e.nVecs)) (deltaGpuOf e) = .ok raw →
      ∀ r ∈ raw.drop (min s.frame.k (min e.mainBfN e.nVecs)), baseResult e r = none

omit [LT D] [DecidableLT D] in
/-- A cache of the whole corpus is searched to the same depth on both paths. -/
theorem DepthsAgree.of_whole (K : BatchKernels kern) {s : QueuedSearch} (h : e.mainBfN = e.nVecs) :
    DepthsAgree kern s e := by
  intro bf _ raw hraw r hr
  obtain ⟨row, hrow⟩ := K.bfList bf s.query (deltaGpuOf e) (min s.frame.k (max e.mainBfN e.nVecs))
  obtain rfl : row.take _ = raw := Except.ok.inj ((hrow _ le_rfl).symm.trans hraw)
  rw [h, max_self, min_self, List.drop_eq_nil_of_le (List.length_take_le _ _)] at hr
  cases hr

omit [LT D] [DecidableLT D] in
theorem bfAnswer_eq_iff (K : BatchKernels kern) {s : QueuedSearch} {bf : BfIndex}
    {raw raw' : List (SearchResult D)} (hbf : e.mainBfIdx = some bf)
    (hraw : kern.bfSearch bf s.query (min s.frame.k e.nVecs) (deltaGpuOf e) = .ok raw)
    (hraw' : kern.bfSearch bf s.query (min s.frame.k e.mainBfN) (deltaGpuOf e) = .ok raw') :
    bfAnswer e raw = bfAnswer e raw' ↔ DepthsAgree kern s e := by
  obtain ⟨row, hrow⟩ := K.bfList bf s.query (deltaGpuOf e) (min s.frame.k (max e.mainBfN e.nVecs))
  obtain rfl : row.take _ = raw := Except.ok.inj ((hrow _ (by omega)).symm.trans hraw)
  obtain rfl : row.take _ = raw' := Except.ok.inj ((hrow _ (by omega)).symm.trans hraw')
  have hdeep : DepthsAgree kern s e ↔
      ∀ r ∈ (row.take (min s.frame.k (max e.mainBfN e.nVecs))).drop
        (min s.frame.k (min e.mainBfN e.nVecs)), baseResult e r = none := by
    refine ⟨fun h => h bf hbf _ (hrow _ le_rfl), ?_⟩
    intro h bf' hbf' long hlong
    obtain rfl : bf = bf' := Option.some.inj (hbf.symm.trans hbf')
    obtain rfl : row.take _ = long := Except.ok.inj ((hrow _ le_rfl).symm.trans hlong)
    exact h
  rw [hdeep, bfAnswer, bfAnswer]
  rcases le_total e.mainBfN e.nVecs with hle | hle
  · rw [max_eq_right hle, min_eq_left hle, eq_comm]
    exact filterMap_take_eq _ row (by omega)
  · rw [max_eq_left hle, min_eq_right hle]
    exact filterMap_take_eq _ row (by omega)

def SearchReply.Same (r r' : SearchReply D) : Prop :=
  r.status = r'.status ∧ r.results = r'.results ∧ r.deltaMerged = r'.deltaMerged

/-- When a group answers a request as its immediate path would: the index is not one whose
load is refused for want of device memory, the entry is of the request's metric and dimension,
and a brute-force search goes equally deep. -/
structure AnswersAlike (cfg : Config) (env : Env) (kern : Kernels D) (d : Daemon)
    (s : QueuedSearch) : Prop where
  loads : findIndex d.live s.frame.key = none → (loadIndex cfg env d s.frame.key).2 ≠ .vram
  checks : ∀ d' i e, batchResolve cfg env d s.frame.key = (d', some (i, e)) → e.stale = false →
    s.frame.metric = e.metric ∧ s.frame.dim = e.dim
  depths : ∀ d' i e, batchResolve cfg env d s.frame.key = (d', some (i, e)) → e.stale = false →
    s.bruteForce = true → DepthsAgree kern s (refreshMainBfCache (d'.disk cfg.indexDir e.key)
      (hasRoom env d' i) env.bfBuilds s.frame.bfPrecision e)

omit [LT D] [DecidableLT D] in
/-- The worker's lookup and that of `handle_search` find the same entry; they differ in what
they make of a load without room. -/
theorem resolve_cases (cfg : Config) (env : Env) (d : Daemon) (key : Key) :
    (∃ d1 d2 i e, batchResolve cfg env d key = (d1, some (i, e)) ∧
      searchResolve cfg env d key = (d2, .ok (i, e)) ∧ d1.live[i]? = some e ∧ d2.live = d1.live ∧
      d2.disk = d1.disk ∧ d2.maxVramPerGpu = d1.maxVramPerGpu ∧
      d2.pendingBuildVram = d1.pendingBuildVram ∧
      (findIndex d.live key = none → (loadIndex cfg env d key).2 ≠ .vram)) ∨
    (∃ d1 d2, batchResolve cfg env d key = (d1, none) ∧
      searchResolve cfg env d key = (d2, .error
        (if findIndex d.live key = none ∧ (loadIndex cfg env d key).2 = .vram then .oomFallback
          else .notFound))) := by
  cases hfind : findIndex d.live key with
  | some i =>
    obtain ⟨e, hslot, -⟩ := findIndex_eq_some hfind
    simp only [batchResolve, searchResolve, hfind, hslot, Option.bind_some, Option.map_some]
    exact .inl ⟨d, _, i, e, rfl, rfl, hslot, rfl, rfl, rfl, rfl, fun h => (nomatch h)⟩
  | none =>
    rcases hload : loadIndex cfg env d key with ⟨d1, rc⟩
    cases rc with
    | loaded =>
      cases hfind1 : findIndex d1.live key with
      | none =>
        simp only [batchResolve, searchResolve, hfind, hload, hfind1, Option.bind_none]
        exact .inr ⟨d1, _, rfl, rfl⟩
      | some i =>
        obtain ⟨e, hslot, -⟩ := findIndex_eq_some hfind1
        simp only [batchResolve, searchResolve, hfind, hload, hfind1, hslot, Option.bind_none,
          Option.bind_some, Option.map_some]
        exact .inl ⟨d1, _, i, e, rfl, rfl, hslot, rfl, rfl, rfl, rfl, fun _ h => (nomatch h)⟩
    | failed =>
      simp only [batchResolve, searchResolve, hfind, hload, Option.bind_none]
      exact .inr ⟨d1, _, rfl, rfl⟩
    | vram =>
      simp only [batchResolve, searchResolve, hfind, hload, Option.bind_none]
      exact .inr ⟨d1, _, rfl, rfl⟩

omit [LT D] [DecidableLT D] in
theorem searchResolve_error {key : Key} {d' : Daemon} {status : Status}
    (h : searchResolve cfg env d key = (d', .error status)) : status ≠ .ok := by
  rcases resolve_cases cfg env d key with ⟨_, _, _, _, -, hok, -⟩ | ⟨_, _, -, herr⟩
  · exact nomatch congrArg Prod.snd (h.symm.trans hok)
  · obtain rfl := Except.error.inj (congrArg Prod.snd (h.symm.trans herr))
    split_ifs <;> decide

variable {senv} in
theorem handleSearch_entered (kern : Kernels D) {frame : SearchFrame} {d1 : Daemon} {query : Vec}
    (h : searchEntered cfg env senv d frame = some (d1, i, e, query)) :
    handleSearch cfg env senv kern d frame = searchEntry cfg env senv kern d1 i e frame query := by
  unfold searchEntered at h
  unfold handleSearch
  split at h
  · rename_i d' i' e' query' hresolve hquery
    split_ifs at h with hrefused
    rw [not_or, not_or, not_not, not_not] at hrefused
    obtain ⟨hstale, hmetric, hdim⟩ := hrefused
    obtain ⟨rfl, rfl, rfl, rfl⟩ : d'.setEntry i' { e' with lastSearch := env.now } = d1 ∧ i' = i ∧
        { e' with lastSearch := env.now } = e ∧ query' = query := by
      simpa using h
    rw [hresolve]
    dsimp only
    rw [if_neg hstale, if_neg (not_not.mpr hmetric), hquery]
    dsimp only
    rw [if_neg (not_not.mpr hdim)]
  · exact nomatch h

variable {senv} in
theorem handleSearch_refused {frame : SearchFrame} (h : searchEntered cfg env senv d frame = none) :
    ∃ d' r, r.status ≠ .ok ∧
      ∀ kern : Kernels D, handleSearch cfg env senv kern d frame = .reply d' r := by
  unfold searchEntered at h
  unfold handleSearch
  rcases hresolve : searchResolve cfg env d frame.key with ⟨d', status | ⟨i, e⟩⟩
  · exact ⟨_, .failure status "", searchResolve_error hresolve, fun _ => rfl⟩
  rw [hresolve] at h
  dsimp only
  have hfail : ∀ {d' e'} {status : Status} {error : String}, status ≠ .ok →
      ∃ d2 r, r.status ≠ .ok ∧
        ∀ _ : Kernels D, (failEntry env d' i e' status error : SearchOutcome D) = .reply d2 r :=
    fun hstatus => ⟨_, .failure _ _, hstatus, fun _ => rfl⟩
  split_ifs with hstale hmetric hdim
  · exact hfail (by decide)
  · exact hfail (by decide)
  · rcases senv.query with fault | query
    · exact ⟨_, .failure .error _, (fun h => nomatch h), fun _ => rfl⟩
    · exact hfail (by decide)
  · rcases hquery : senv.query with fault | query
    · exact ⟨_, .failure .error _, (fun h => nomatch h), fun _ => rfl⟩
    rw [hquery] at h
    dsimp only at h
    rw [if_neg (not_or.mpr ⟨hstale, not_or.mpr ⟨hmetric, hdim⟩⟩)] at h
    exact nomatch h

omit [LT D] [DecidableLT D] in
theorem SearchReply.same_failure {status : Status} (error error' : String) :
    (SearchReply.failure (D := D) status error).Same (SearchReply.failure status error') :=
  ⟨rfl, rfl, rfl⟩

theorem batchRunGroup_unresolved (hfound : batchResolve cfg env d r0.key.key = (d', none))
    (hreq : reqs[q]? = some req) :
    (batchRunGroup cfg env kern latencyUs d r0 reqs).2[q]?
      = some (SearchReply.failure .notFound "") := by
  unfold batchRunGroup
  split
  · simp only [cagraBatchRunGroup, hfound]
    exact getElem?_failGroup hreq
  · simp only [bfBatchRunGroup, hfound]
    exact getElem?_failGroup hreq

theorem batchRunGroup_stale (hfound : batchResolve cfg env d r0.key.key = (d', some (i, e)))
    (hstale : e.stale = true) (hreq : reqs[q]? = some req) :
    (batchRunGroup cfg env kern latencyUs d r0 reqs).2[q]?
      = some (SearchReply.failure .stale "") := by
  unfold batchRunGroup
  split
  · simp only [cagraBatchRunGroup, hfound, hstale, if_true, failFound]
    exact getElem?_failGroup hreq
  · simp only [bfBatchRunGroup, hfound, hstale, if_true, failFound]
    exact getElem?_failGroup hreq

section Found

variable {s : QueuedSearch} {d1 d2 : Daemon}

theorem batchRunGroup_status (K : BatchKernels kern)
    (hfound : batchResolve cfg env d r0.key.key = (d', some (i, e))) (hstale : e.stale = false)
    (hreq : reqs[q]? = some req) :
    ∃ r, (batchRunGroup cfg env kern latencyUs d r0 reqs).2[q]? = some r ∧
      (r.status = .ok ∨ r.status = .noVectors) := by
  unfold batchRunGroup
  split
  · obtain ⟨hsome, hnone⟩ := cagraBatchRunGroup_reply latencyUs K hfound hstale hreq
    cases hh : e.handle with
    | none => exact ⟨_, hnone hh, .inr rfl⟩
    | some h =>
      obtain ⟨raw, -, hr⟩ := hsome h hh
      exact ⟨_, hr, .inl rfl⟩
  · obtain ⟨hsome, hnone⟩ := bfBatchRunGroup_reply latencyUs K hfound hstale hreq rfl
    cases hbf : (refreshMainBfCache (d'.disk cfg.indexDir e.key) (hasRoom env d' i) env.bfBuilds
        r0.key.precision e).mainBfIdx with
    | none => exact ⟨_, hnone hbf, .inr rfl⟩
    | some bf =>
      obtain ⟨raw, -, hr⟩ := hsome bf hbf
      exact ⟨_, hr, .inl rfl⟩

theorem cagra_same (K : BatchKernels kern) (hfree : env.FreeByContent)
    (hmode : s.bruteForce = false) (hsame : r0.key.SameKernel s.request.key)
    (hreq : reqs[q]? = some s.request)
    (hfound : batchResolve cfg env d r0.key.key = (d1, some (i, e))) (hstale : e.stale = false)
    (hi : d1.live[i]? = some e) (hlive : d2.live = d1.live) (hdisk : d2.disk = d1.disk)
    (hmax : d2.maxVramPerGpu = d1.maxVramPerGpu)
    (hpending : d2.pendingBuildVram = d1.pendingBuildVram) :
    ∃ r r', (batchRunGroup cfg env kern latencyUs d r0 reqs).2[q]? = some r ∧
      (searchCagra cfg env senv kern (d2.setEntry i { e with lastSearch := t }) i
        { e with lastSearch := t } s.frame s.query).reply? = some r' ∧ r.Same r' := by
  obtain ⟨-, -, -, hm, htuning⟩ := hsame
  have hzero : s.request.key.mode = 0 := by simp [QueuedSearch.request, hmode]
  obtain ⟨hitopk, hwidth⟩ := htuning.resolve_left fun h => h hzero
  have hitopk' : r0.key.itopkSize = s.frame.itopkSize := by
    rw [hitopk]
    simp [QueuedSearch.request, hmode]
  have hwidth' : r0.key.searchWidth = s.frame.searchWidth := by
    rw [hwidth]
    simp [QueuedSearch.request, hmode]
  rw [batchRunGroup, if_pos (hm.trans hzero)]
  have hroom := hasRoom_searchedAt (t := t) hfree hi hlive hmax hpending
  obtain ⟨hgroup, hgroup'⟩ := cagraBatchRunGroup_reply latencyUs K hfound hstale hreq
  have hrefresh := refreshDeltaCache_searchedAt hroom (d1.disk cfg.indexDir e.key) env.bfBuilds e
  obtain ⟨hown, hown'⟩ := @searchCagra_reply D _ _ cfg env senv kern
    (d2.setEntry i { e with lastSearch := t }) i { e with lastSearch := t } s.frame s.query
  rcases Option.eq_none_or_eq_some e.handle with hh | ⟨h, hh⟩
  · obtain ⟨error, hr'⟩ := hown' hh
    exact ⟨_, _, hgroup' hh, hr', SearchReply.same_failure _ _⟩
  · obtain ⟨raw, hraw, hr⟩ := hgroup h hh
    rw [QueuedSearch.request_query, QueuedSearch.request_k, hitopk', hwidth'] at hraw
    have hr' := hown h raw hh hraw
    refine ⟨_, _, hr, hr', rfl, ?_, ?_⟩
    · simp only [batchAnswer, Daemon.setEntry_disk, hdisk, hrefresh, QueuedSearch.request_query,
        QueuedSearch.request_k]
      exact congrArg Prod.fst (cagraFinishOne_searchedAt _ _ _ _).symm
    · simp only [batchAnswer, Daemon.setEntry_disk, hdisk, hrefresh, QueuedSearch.request_query,
        QueuedSearch.request_k]
      exact congrArg Prod.snd (cagraFinishOne_searchedAt _ _ _ _).symm

/-- A brute-force request is answered alike iff both paths search equally deep. -/
theorem bf_same_iff (K : BatchKernels kern) (hfree : env.FreeByContent)
    (hplain : s.frame.nFilterTids = 0) (hmode : s.bruteForce = true)
    (hsame : r0.key.SameKernel s.request.key) (hreq : reqs[q]? = some s.request)
    (hfound : batchResolve cfg env d r0.key.key = (d1, some (i, e))) (hstale : e.stale = false)
    (hi : d1.live[i]? = some e) (hlive : d2.live = d1.live) (hdisk : d2.disk = d1.disk)
    (hmax : d2.maxVramPerGpu = d1.maxVramPerGpu)
    (hpending : d2.pendingBuildVram = d1.pendingBuildVram) :
    ∃ r r', (batchRunGroup cfg env kern latencyUs d r0 reqs).2[q]? = some r ∧
      (searchBruteForce cfg env senv kern (d2.setEntry i { e with lastSearch := t }) i
        { e with lastSearch := t } s.frame s.query).reply? = some r' ∧
      (r.Same r' ↔ DepthsAgree kern s (refreshMainBfCache (d1.disk cfg.indexDir e.key)
        (hasRoom env d1 i) env.bfBuilds s.frame.bfPrecision e)) := by
  obtain ⟨-, hprec, -, hm, -⟩ := hsame
  have hone : s.request.key.mode = 1 := by simp [QueuedSearch.request, hmode]
  have hprec' : r0.key.precision = s.frame.bfPrecision := by
    rw [hprec]
    simp [QueuedSearch.request, hmode]
  rw [batchRunGroup, if_neg (by omega)]
  have hroom := hasRoom_searchedAt (t := t) hfree hi hlive hmax hpending
  set e' := refreshMainBfCache (d1.disk cfg.indexDir e.key) (hasRoom env d1 i) env.bfBuilds
    s.frame.bfPrecision e with he'
  obtain ⟨hgroup, hgroup'⟩ := bfBatchRunGroup_reply latencyUs K hfound hstale hreq
    (he'.trans (by rw [hprec']))
  have hrefresh := refreshMainBfCache_searchedAt hroom (d1.disk cfg.indexDir e.key) env.bfBuilds
    s.frame.bfPrecision e
  rw [← he'] at hrefresh
  obtain ⟨hown, hown'⟩ := @searchBruteForce_reply D _ _ cfg env senv kern
    (d2.setEntry i { e with lastSearch := t }) i { e with lastSearch := t } K s.frame s.query _ hplain
    (show { e' with lastSearch := t } = _ by rw [Daemon.setEntry_disk, hdisk, hrefresh])
  -- both paths have refreshed the same cache
  cases hbf : e'.mainBfIdx with
  | none =>
    obtain ⟨error, hr'⟩ := hown' hbf
    refine ⟨_, _, hgroup' hbf, hr', fun _ bf hbf' => ?_, fun _ => SearchReply.same_failure _ _⟩
    cases hbf.symm.trans hbf'
  | some bf =>
    obtain ⟨raw, hraw, hr⟩ := hgroup bf hbf
    obtain ⟨raw', hraw', hr'⟩ := hown bf hbf
    rw [QueuedSearch.request_query, QueuedSearch.request_k] at hraw
    refine ⟨_, _, hr, hr', ?_⟩
    rw [← bfAnswer_eq_iff K hbf hraw hraw']
    exact ⟨fun h => h.2.1, fun h => ⟨rfl, h, rfl⟩⟩

end Found

section Immediate

variable {s : QueuedSearch}

theorem immediateSearch_unresolved {status : Status}
    (hown : searchResolve cfg env d s.frame.key = (d', .error status)) :
    (immediateSearch cfg env senv kern d s).reply? = some (SearchReply.failure status "") := by
  simp only [immediateSearch, hown]
  rfl

theorem immediateSearch_stale (hown : searchResolve cfg env d s.frame.key = (d', .ok (i, e)))
    (hstale : e.stale = true) :
    ∃ error, (immediateSearch cfg env senv kern d s).reply?
      = some (SearchReply.failure .stale error) := by
  simp only [immediateSearch, hown, hstale, if_true]
  exact ⟨_, rfl⟩

theorem immediateSearch_refused (hown : searchResolve cfg env d s.frame.key = (d', .ok (i, e)))
    (hfresh : e.stale = false) (hdiffers : ¬ (s.frame.metric = e.metric ∧ s.frame.dim = e.dim)) :
    ∃ status error, status ≠ .ok ∧ status ≠ .noVectors ∧
      (immediateSearch cfg env senv kern d s).reply? = some (SearchReply.failure status error) := by
  by_cases hmetric : s.frame.metric = e.metric
  · have hdim : s.frame.dim ≠ e.dim := fun h => hdiffers ⟨hmetric, h⟩
    simp only [immediateSearch, hown, hfresh, Bool.false_eq_true, if_false, hmetric, hdim, ne_eq,
      not_true_eq_false, not_false_eq_true, if_true]
    exact ⟨.dimMismatch, _, nofun, nofun, rfl⟩
  · simp only [immediateSearch, hown, hfresh, Bool.false_eq_true, if_false, hmetric, ne_eq,
      not_false_eq_true, if_true]
    exact ⟨.metricMismatch, _, nofun, nofun, rfl⟩

theorem immediateSearch_section (hown : searchResolve cfg env d s.frame.key = (d', .ok (i, e)))
    (hfresh : e.stale = false) (hmetric : s.frame.metric = e.metric)
    (hdim : s.frame.dim = e.dim) :
    immediateSearch cfg env senv kern d s = if s.bruteForce then
        searchBruteForce cfg env senv kern (d'.setEntry i { e with lastSearch := env.now }) i
          { e with lastSearch := env.now } s.frame s.query
      else
        searchCagra cfg env senv kern (d'.setEntry i { e with lastSearch := env.now }) i
          { e with lastSearch := env.now } s.frame s.query := by
  simp only [immediateSearch, hown, hfresh, Bool.false_eq_true, if_false, hmetric, hdim, ne_eq,
    not_true_eq_false]

end Immediate

/-- What a group writes back for a request, beside what its immediate path replies. -/
theorem batchRunGroup_same_iff (K : BatchKernels kern) (hfree : env.FreeByContent)
    {s : QueuedSearch} (hplain : s.frame.nFilterTids = 0) (hsame : r0.key.SameKernel s.request.key)
    (hreq : reqs[q]? = some s.request) :
    ∃ r r', (batchRunGroup cfg env kern latencyUs d r0 reqs).2[q]? = some r ∧
      (immediateSearch cfg env senv kern d s).reply? = some r' ∧
      (r.Same r' ↔ AnswersAlike cfg env kern d s) := by
  have hkey : r0.key.key = s.frame.key := hsame.1.trans s.request_key
  obtain ⟨d1, d2, i, e, hfound, hown, hi, hlive, hdisk, hmax, hpending, hloads⟩ |
    ⟨d1, d2, hfound, hown⟩ := resolve_cases cfg env d s.frame.key
  · have hgroup : batchResolve cfg env d r0.key.key = (d1, some (i, e)) := by rw [hkey, hfound]
    by_cases hstale : e.stale = true
    · obtain ⟨error, hr'⟩ := @immediateSearch_stale D _ _ cfg env senv kern _ _ _ _ _ hown hstale
      refine ⟨_, _, batchRunGroup_stale latencyUs hgroup hstale hreq, hr', iff_of_true ?_ ⟨hloads, ?_, ?_⟩⟩
      · exact SearchReply.same_failure _ _
      · intro d' j f hf hfresh
        cases hfound.symm.trans hf
        cases hfresh.symm.trans hstale
      · intro d' j f hf hfresh
        cases hfound.symm.trans hf
        cases hfresh.symm.trans hstale
    · have hfresh : e.stale = false := by simpa using hstale
      -- the worker checks neither metric nor dimension, the immediate path refuses both
      by_cases hchecks : s.frame.metric = e.metric ∧ s.frame.dim = e.dim
      · have halike : AnswersAlike cfg env kern d s ↔ (s.bruteForce = true → DepthsAgree kern s
            (refreshMainBfCache (d1.disk cfg.indexDir e.key) (hasRoom env d1 i) env.bfBuilds
              s.frame.bfPrecision e)) := by
          refine ⟨fun h => h.depths d1 i e hfound hfresh, fun h => ⟨hloads, ?_, ?_⟩⟩
          · intro d' j f hf _
            cases hfound.symm.trans hf
            exact hchecks
          · intro d' j f hf _
            cases hfound.symm.trans hf
            exact h
        rw [halike, immediateSearch_section senv hown hfresh hchecks.1 hchecks.2]
        cases hmode : s.bruteForce with
        | false =>
          obtain ⟨r, r', hr, hr', hboth⟩ := cagra_same senv latencyUs (t := env.now) K hfree
            hmode hsame hreq hgroup hfresh hi hlive hdisk hmax hpending
          exact ⟨r, r', hr, hr', iff_of_true hboth nofun⟩
        | true =>
          obtain ⟨r, r', hr, hr', hiff⟩ := bf_same_iff senv latencyUs (t := env.now) K hfree
            hplain hmode hsame hreq hgroup hfresh hi hlive hdisk hmax hpending
          exact ⟨r, r', hr, hr', hiff.trans ⟨fun h _ => h, fun h => h rfl⟩⟩
      · obtain ⟨r, hr, hstatus⟩ := batchRunGroup_status latencyUs K hgroup hfresh hreq
        obtain ⟨status, error, hok, hno, hr'⟩ :=
          @immediateSearch_refused D _ _ cfg env senv kern _ _ _ _ _ hown hfresh hchecks
        refine ⟨r, _, hr, hr', iff_of_false ?_ fun h => hchecks (h.checks d1 i e hfound hfresh)⟩
        intro hboth
        rcases hstatus with h | h
        · exact hok (hboth.1.symm.trans h)
        · exact hno (hboth.1.symm.trans h)
  · have hgroup : batchResolve cfg env d r0.key.key = (d1, none) := by rw [hkey, hfound]
    refine ⟨_, _, batchRunGroup_unresolved latencyUs hgroup hreq, immediateSearch_unresolved senv hown, ?_⟩
    -- the worker answers NOT_FOUND whatever made the load fail
    by_cases hvram : findIndex d.live s.frame.key = none ∧
        (loadIndex cfg env d s.frame.key).2 = .vram
    · rw [if_pos hvram]
      exact iff_of_false (fun h => nomatch h.1) fun h => h.loads hvram.1 hvram.2
    · rw [if_neg hvram]
      refine iff_of_true (SearchReply.same_failure _ _) ⟨fun hnone hload => hvram ⟨hnone, hload⟩, ?_, ?_⟩
      · intro d' i e hsome
        cases hfound.symm.trans hsome
      · intro d' i e hsome
        cases hfound.symm.trans hsome

end Group

section Dispatch

def queuedGroup (batch : List QueuedSearch) (g : ℕ) : List QueuedSearch :=
  ((batch.zip (cuvsBatchGroup (batch.map fun s => s.request.key)).1).filter fun p => p.2 = g).map
    Prod.fst

theorem flatMap_classes_perm {α : Type*} (l : List (α × ℕ)) (n : ℕ) (h : ∀ p ∈ l, p.2 < n) :
    ((List.range n).flatMap fun g => l.filter fun p => p.2 = g).Perm l := by
  induction n generalizing l with
  | zero =>
    cases l with
    | nil => exact .refl _
    | cons p l => exact absurd (h p List.mem_cons_self) (Nat.not_lt_zero _)
  | succ n ih =>
    have hrest := ih (l.filter fun p => !decide (p.2 = n)) fun p hp => by
      obtain ⟨hmem, hne⟩ := List.mem_filter.mp hp
      have hlt := h p hmem
      simp only [Bool.not_eq_true', decide_eq_false_iff_not] at hne
      omega
    have hsame : ((List.range n).flatMap fun g => (l.filter fun p => !decide (p.2 = n)).filter
        fun p => p.2 = g) = (List.range n).flatMap fun g => l.filter fun p => p.2 = g := by
      rw [List.flatMap_def, List.flatMap_def]
      congr 1
      refine List.map_congr_left fun g hg => ?_
      have hlt := List.mem_range.mp hg
      rw [List.filter_filter]
      refine List.filter_congr fun p _ => ?_
      by_cases hp : p.2 = g
      · have hne : p.2 ≠ n := by omega
        simp [hp, hp ▸ hne]
      · simp [hp]
    rw [hsame] at hrest
    rw [List.range_succ, List.flatMap_append, List.flatMap_singleton]
    exact (hrest.append_right _).trans
      (List.perm_append_comm.trans (List.filter_append_perm (fun p => decide (p.2 = n)) l))

theorem queuedGroup_perm (batch : List QueuedSearch) :
    ((List.range (cuvsBatchGroup (batch.map fun s => s.request.key)).2).flatMap
      (queuedGroup batch)).Perm batch := by
  set keys := batch.map fun s => s.request.key with hkeys
  have hlen : (cuvsBatchGroup keys).1.length = batch.length := by
    rw [cuvsBatchGroup_length, hkeys, List.length_map]
  have hperm := flatMap_classes_perm (batch.zip (cuvsBatchGroup keys).1) (cuvsBatchGroup keys).2
    fun p hp => cuvsBatchGroup_lt keys p.2 (List.of_mem_zip hp).2
  have hmap := hperm.map Prod.fst
  rw [List.map_flatMap, List.map_fst_zip hlen.ge] at hmap
  exact hmap

theorem queuedGroup_sameKernel {batch : List QueuedSearch} {g : ℕ} {s t : QueuedSearch}
    (hs : s ∈ queuedGroup batch g) (ht : t ∈ queuedGroup batch g) :
    s.request.key.SameKernel t.request.key := by
  obtain ⟨pairs, hgrouped, hkeys, hgids⟩ := cuvsBatchGroup_spec (batch.map fun s => s.request.key)
  have hpairs := List.zip_of_prod hkeys hgids
  have hmem : ∀ {u : QueuedSearch}, u ∈ queuedGroup batch g → (u.request.key, g) ∈ pairs := by
    intro u hu
    obtain ⟨⟨v, j⟩, hv, rfl⟩ := List.mem_map.mp hu
    obtain ⟨hzip, hj⟩ := List.mem_filter.mp hv
    obtain rfl : j = g := of_decide_eq_true hj
    rw [hpairs, List.zip_map_left]
    exact List.mem_map_of_mem (f := Prod.map (fun s => s.request.key) id) hzip
  exact (hgrouped.classes _ (hmem hs) _ (hmem ht)).mp rfl

variable [LT D] [DecidableLT D]

def dispatchGroup (cfg : Config) (env : Env) (kern : Kernels D) (latencyUs : ℕ) (d : Daemon)
    (group : List QueuedSearch) : Daemon × List (SearchReply D) :=
  match group.map QueuedSearch.request with
  | [] => (d, [])
  | r0 :: reqs => batchRunGroup cfg env kern latencyUs d r0 (r0 :: reqs)

/-- Every request of a batch is dispatched once, and in whatever state its group is run, it
gets what its immediate path would reply in that state, or the two differ in a load that was
refused, an entry of another metric or dimension, or the depth of a brute-force search. -/
theorem batch_answers_iff (cfg : Config) {env : Env} (senv : SearchEnv) {kern : Kernels D}
    (K : BatchKernels kern) (hfree : env.FreeByContent) (batch : List QueuedSearch)
    (hplain : ∀ s ∈ batch, s.frame.nFilterTids = 0) :
    ((List.range (cuvsBatchGroup (batch.map fun s => s.request.key)).2).flatMap
      (queuedGroup batch)).Perm batch ∧
    ∀ (g : ℕ) (d : Daemon) (latencyUs q : ℕ) (s : QueuedSearch),
      (queuedGroup batch g)[q]? = some s →
      ∃ r r', (dispatchGroup cfg env kern latencyUs d (queuedGroup batch g)).2[q]? = some r ∧
        (immediateSearch cfg env senv kern d s).reply? = some r' ∧
        (r.Same r' ↔ AnswersAlike cfg env kern d s) := by
  refine ⟨queuedGroup_perm batch, ?_⟩
  intro g d latencyUs q s hs
  have hmem : s ∈ queuedGroup batch g := List.mem_of_getElem? hs
  have hreq : ((queuedGroup batch g).map QueuedSearch.request)[q]? = some s.request := by
    rw [List.getElem?_map, hs, Option.map_some]
  have hbatch : s ∈ batch := by
    obtain ⟨p, hp, rfl⟩ := List.mem_map.mp hmem
    exact (List.of_mem_zip (List.mem_filter.mp hp).1).1
  cases hgroup : queuedGroup batch g with
  | nil => rw [hgroup] at hmem; cases hmem
  | cons head rest =>
    have hsame := queuedGroup_sameKernel (hgroup ▸ List.mem_cons_self : head ∈ queuedGroup batch g) hmem
    rw [hgroup] at hreq
    exact batchRunGroup_same_iff senv latencyUs K hfree (hplain s hbatch) hsame hreq

end Dispatch

section Sample

theorem sortKernels_batch [LinearOrder D] (metric : Metric) (dist : Vec → Vec → D) :
    BatchKernels (sortKernels metric dist) where
  cagra h queries k dev itopk width := by
    refine ⟨_, rfl, fun q query hq j hj => ?_⟩
    rw [List.getD_eq_getElem?_getD, List.getElem?_map, hq]
    simp only [sortKernels, sortedRows, Option.map_some, Option.getD_some, List.take_take,
      Nat.min_eq_left hj]
  bf b queries k dev := by
    refine ⟨_, rfl, fun q query hq j hj => ?_⟩
    rw [List.getD_eq_getElem?_getD, List.getElem?_map, hq]
    simp only [sortKernels, sortedRows, Option.map_some, Option.getD_some, List.take_take,
      Nat.min_eq_left hj]

theorem Env.quiet_freeByContent (now free : ℕ) : (Env.quiet now free).FreeByContent :=
  fun _ _ _ _ _ _ => rfl

def sampleBatch : List QueuedSearch :=
  [⟨{ sampleFrame with k := 1 }, [0], false⟩, ⟨sampleFrame, [12], false⟩]

/-- The second search of a group of two gets its own answer. -/
theorem batch_answers_sample :
    ∃ r r', (dispatchGroup sampleConfig (Env.quiet 9 0) (sortKernels .l2 sampleDist) 0 sampleDaemon
        (queuedGroup sampleBatch 0)).2[1]? = some r ∧
      (immediateSearch sampleConfig (Env.quiet 9 0) (SearchEnv.plain [12])
        (sortKernels .l2 sampleDist) sampleDaemon ⟨sampleFrame, [12], false⟩).reply? = some r' ∧
      r.Same r' := by
  obtain ⟨r, r', hr, hr', hiff⟩ := (batch_answers_iff sampleConfig
    (SearchEnv.plain [12]) (sortKernels_batch (D := ℕ) .l2 sampleDist) (Env.quiet_freeByContent 9 0)
    sampleBatch (by decide)).2 0 sampleDaemon 0 1 ⟨sampleFrame, [12], false⟩ rfl
  have hfound : batchResolve sampleConfig (Env.quiet 9 0) sampleDaemon sampleFrame.key
      = (sampleDaemon, some (0, sampleEntry)) := rfl
  refine ⟨r, r', hr, hr', hiff.mpr ⟨?_, ?_, ?_⟩⟩
  · intro h
    cases h
  · intro d' i e h _
    cases hfound.symm.trans h
    exact ⟨rfl, rfl⟩
  · intro _ _ _ _ _ h
    cases h

def compactedEntry : IndexEntry :=
  { IndexEntry.zero with
    key := ⟨1, 2⟩, dim := 1, nVecs := 2, tids := [101, 102], handle := some ⟨[], [[20], [30]]⟩
    mainBfIdx := some ⟨1, [[20], [30], [10]], .l2, 0⟩, mainBfN := 3, mainBfMtime := 7 }

def compactedDaemon : Daemon :=
  { Daemon.initial (fun _ => 0) fun _ _ =>
      { Artifacts.empty with
        vectors := some ⟨cuvsVectorsWrite 1 .l2 5 [[20], [30], [10]], 7⟩ } with
    registry := ⟨[compactedEntry], []⟩ }

def compactedSearch : QueuedSearch :=
  ⟨{ sampleFrame with k := 3, searchMode := 1 }, [0], true⟩

def crowdedDaemon : Daemon := Daemon.initial (fun _ => 1) fun _ _ => sampleIndexFiles

def crowdedSearch : QueuedSearch := ⟨sampleFrame, [0], false⟩

/-- After a COMPACT the group returns one row of the index where the immediate path returns
both; for an index that does not fit on a device it says that there is none. -/
theorem batch_answers_differ :
    BatchKernels (sortKernels .l2 sampleDist) ∧ (Env.quiet 9 0).FreeByContent ∧
    (∃ r r', (dispatchGroup sampleConfig (Env.quiet 9 0) (sortKernels .l2 sampleDist) 0
        compactedDaemon (queuedGroup [compactedSearch] 0)).2[0]? = some r ∧
      (handleSearch sampleConfig (Env.quiet 9 0) (SearchEnv.plain [0]) (sortKernels .l2 sampleDist)
        compactedDaemon compactedSearch.frame).reply? = some r' ∧
      r.status = r'.status ∧ r.results = [⟨101, 20⟩] ∧ r'.results = [⟨101, 20⟩, ⟨102, 30⟩]) ∧
    ∃ r r', (dispatchGroup sampleConfig (Env.quiet 9 0) (sortKernels .l2 sampleDist) 0
        crowdedDaemon (queuedGroup [crowdedSearch] 0)).2[0]? = some r ∧
      (handleSearch sampleConfig (Env.quiet 9 0) (SearchEnv.plain [0]) (sortKernels .l2 sampleDist)
        crowdedDaemon crowdedSearch.frame).reply? = some r' ∧
      r.status = .notFound ∧ r'.status = .oomFallback := by
  refine ⟨sortKernels_batch .l2 sampleDist, Env.quiet_freeByContent 9 0, ?_, ?_⟩
  · refine ⟨batchAnswer 0 false [⟨101, 20⟩], batchAnswer 0 false [⟨101, 20⟩, ⟨102, 30⟩], ?_⟩
    decide +kernel
  · exact ⟨SearchReply.failure .notFound "", SearchReply.failure .oomFallback "", by decide +kernel⟩

end Sample

end PgCuvs
