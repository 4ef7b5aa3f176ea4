import PgCuvs.DeltaMerge
import PgCuvs.Library.Stable

/-! `cuvs_filtered_knn` with its requests: the daemon sees a sorted copy of the
whitelist, the backend bisects the array of the caller. -/

namespace PgCuvs

variable {D : Type}

/-- The selectivity thresholds; a threshold of zero is off. -/
structure RoutingGuc where
  filterAutoThreshold : ℚ
  streamBfSelectivityThreshold : ℚ

inductive KnnRoute where
  | streamBf
  | prefilter
  | dWedge
deriving DecidableEq, Repr

/-- Streaming takes precedence over the prefilter. `reltuples` is that of the
heap, when it can be opened. -/
def knnRoute (rg : RoutingGuc) (reltuples : Option ℚ) (nFilter : ℕ) : KnnRoute :=
  match reltuples with
  | none => .dWedge
  | some n =>
    if 0 < n then
      let sel := (nFilter : ℚ) / n
      if 0 < rg.streamBfSelectivityThreshold ∧ sel < rg.streamBfSelectivityThreshold then .streamBf
      else if 0 < rg.filterAutoThreshold ∧ sel < rg.filterAutoThreshold then .prefilter
      else .dWedge
    else .dWedge

structure KnnDaemon (D : Type) where
  search : SearchFrame → SearchReply D
  searchFiltered : SearchFrame → List Tid → SearchReply D
  searchStreamBf : SearchFrame → List Tid → SearchReply D

def knnFrame (g : Guc) (key : Key) (dim : ℕ) (metric : Metric) (k : ℕ) : SearchFrame where
  key := key
  k := k
  metric := metric
  dim := dim
  nVecs := 0
  shardOverfetch := 1
  parallelFanout := false
  useCpuHnsw := false
  searchMode := 1
  bfPrecision := g.bfPrecision
  bfBatchWaitUs := 0
  cagraBatchWaitUs := 0
  nFilterTids := 0
  usePrefilter := false
  itopkSize := g.itopkSize
  searchWidth := g.searchWidth

/-- Streaming is exact in float32 and takes no search parameters. -/
def streamFrame (g : Guc) (key : Key) (dim : ℕ) (metric : Metric) (k nFilter : ℕ) :
    SearchFrame :=
  { filteredFrame g key dim metric k nFilter false with
    bfPrecision := 0, itopkSize := 0, searchWidth := 0 }

/-- A client takes at most `k` rows, and none from a reply that is not OK. -/
def receive (k : ℕ) (r : SearchReply D) : SearchReply D :=
  { r with results := if r.status = .ok then r.results.take k else [] }

section Requests

variable (g : Guc) (rg : RoutingGuc) (key : Key) (dim : ℕ) (metric : Metric)
  (reltuples : Option ℚ) (daemon : KnnDaemon D)

def cuvsIpcSearchFiltered (filterArr : List Tid) (usePrefilter : Bool) (k : ℕ) : SearchReply D :=
  receive k (daemon.searchFiltered
    (filteredFrame g key dim metric k filterArr.length usePrefilter) (cuvsU64Sort filterArr))

def cuvsIpcSearchStreamBf (filterArr : List Tid) (k : ℕ) : SearchReply D :=
  { receive k (daemon.searchStreamBf (streamFrame g key dim metric k filterArr.length)
      (cuvsU64Sort filterArr)) with deltaMerged := false }

/-- The request of `cuvs_filtered_knn`; a stream without vectors becomes a
prefilter. -/
def knnRequest (filterTids : Option (List Tid)) (k : ℕ) : SearchReply D :=
  match filterTids with
  | none => receive k (daemon.search (knnFrame g key dim metric k))
  | some filterArr =>
    match knnRoute rg reltuples filterArr.length with
    | .streamBf =>
      let r := cuvsIpcSearchStreamBf g key dim metric daemon filterArr k
      if r.status = .noVectors then cuvsIpcSearchFiltered g key dim metric daemon filterArr true k
      else r
    | .prefilter => cuvsIpcSearchFiltered g key dim metric daemon filterArr true k
    | .dWedge => cuvsIpcSearchFiltered g key dim metric daemon filterArr false k

/-- `cuvs_filtered_knn` over any sort of the merged rows. -/
def cuvsFilteredKnnBy (sort : List (CuvsResult D) → List (CuvsResult D)) (a : Artifacts)
    (snap : Snapshot) (dist : Vec → D) (filterTids : Option (List Tid)) (k : ℕ) :
    Except ScanError (List (CuvsResult D)) :=
  filteredKnnBy sort g a snap dist dim k filterTids
    (knnRequest g rg key dim metric reltuples daemon filterTids)

def cuvsFilteredKnn [LT D] [DecidableLT D] (a : Artifacts) (snap : Snapshot) (dist : Vec → D)
    (filterTids : Option (List Tid)) (k : ℕ) : Except ScanError (List (CuvsResult D)) :=
  filteredKnn g a snap dist dim k metric filterTids
    (knnRequest g rg key dim metric reltuples daemon filterTids)

end Requests

section Order

variable {g : Guc} {rg : RoutingGuc} {key : Key} {dim : ℕ} {metric : Metric}
  {reltuples : Option ℚ} {daemon : KnnDaemon D} {l₁ l₂ : List Tid}

theorem cuvsU64Sort_congr {l₁ l₂ : List ℕ} (h : l₁.Perm l₂) : cuvsU64Sort l₁ = cuvsU64Sort l₂ := by
  refine List.Perm.eq_of_pairwise (fun _ _ _ _ => le_antisymm) (cuvsU64Sort_sorted l₁)
    (cuvsU64Sort_sorted l₂) ?_
  exact (qsort_perm compareU64 l₁).trans (h.trans (qsort_perm compareU64 l₂).symm)

theorem knnRequest_congr (h : l₁.Perm l₂) :
    knnRequest g rg key dim metric reltuples daemon (some l₁)
      = knnRequest g rg key dim metric reltuples daemon (some l₂) := by
  have hfiltered : ∀ pre k, cuvsIpcSearchFiltered g key dim metric daemon l₁ pre k
      = cuvsIpcSearchFiltered g key dim metric daemon l₂ pre k := by
    intro pre k
    rw [cuvsIpcSearchFiltered, cuvsIpcSearchFiltered, h.length_eq, cuvsU64Sort_congr h]
  have hstream : ∀ k, cuvsIpcSearchStreamBf g key dim metric daemon l₁ k
      = cuvsIpcSearchStreamBf g key dim metric daemon l₂ k := by
    intro k
    rw [cuvsIpcSearchStreamBf, cuvsIpcSearchStreamBf, h.length_eq, cuvsU64Sort_congr h]
  funext k
  simp only [knnRequest, h.length_eq, hfiltered, hstream]

end Order

section Merge

variable [LinearOrder D] {g : Guc} {a : Artifacts} {snap : Snapshot} {dist : Vec → D}
  {dim k kFetch : ℕ} {metric : Metric} {recs : List DeltaRecord} {l l₁ l₂ : List Tid}
  {search : ℕ → SearchReply D} {sort : List (CuvsResult D) → List (CuvsResult D)}

structure CpuMerges (g : Guc) (a : Artifacts) (k : ℕ) (filterArr : List Tid)
    (search : ℕ → SearchReply D) (kFetch : ℕ) : Prop where
  range : 1 ≤ k ∧ k ≤ 2000
  nonempty : filterArr ≠ []
  fetch : cuvsKWithTombstoneSlack g a k = some kFetch
  ok : (search kFetch).status = .ok
  on : g.maxDeltaRows ≠ 0
  merge : doCpuMerge g (search kFetch).deltaMerged = true

omit [LinearOrder D] in
theorem filteredKnnBy_congr (hnil : l₁ = [] ↔ l₂ = [])
    (h : ∀ kFetch, CpuMerges g a k l₁ search kFetch →
      mergeDeltaFilteredBy sort g a dist dim kFetch l₁ (search kFetch).results
        = mergeDeltaFilteredBy sort g a dist dim kFetch l₂ (search kFetch).results) :
    filteredKnnBy sort g a snap dist dim k (some l₁) search
      = filteredKnnBy sort g a snap dist dim k (some l₂) search := by
  by_cases hrange : k < 1 ∨ 2000 < k
  · simp only [filteredKnnBy, if_pos hrange]
    rfl
  by_cases hempty : l₁ = []
  · rw [hempty, hnil.mp hempty]
  have hempty₂ : l₂ ≠ [] := fun h => hempty (hnil.mpr h)
  simp only [filteredKnnBy, if_neg hrange, Option.some.injEq, if_neg hempty, if_neg hempty₂]
  cases hfetch : cuvsKWithTombstoneSlack g a k with
  | none => rfl
  | some kFetch =>
    simp only [pure, Except.pure, bind, Except.bind]
    cases hok : (search kFetch).status with
    | ok =>
      have hmerge : filteredKnnMergeBy sort g a snap dist dim kFetch l₁ (search kFetch)
          = filteredKnnMergeBy sort g a snap dist dim kFetch l₂ (search kFetch) := by
        unfold filteredKnnMergeBy
        split_ifs with hoff hcpu
        · rfl
        · rw [h kFetch ⟨by omega, hempty, hfetch, hok, hoff, hcpu⟩]
        · rfl
      simp only [hmerge]
    | _ => rfl

omit [LinearOrder D] in
theorem mergeDeltaFilteredBy_congr (hne₁ : l₁ ≠ []) (hne₂ : l₂ ≠ [])
    (hrecs : deltaRowsForScan g a dim = .ok recs)
    (h : ∀ r ∈ recs, cuvsTidInFilter r.tid l₁ = cuvsTidInFilter r.tid l₂)
    (base : List (CuvsResult D)) :
    mergeDeltaFilteredBy sort g a dist dim k l₁ base
      = mergeDeltaFilteredBy sort g a dist dim k l₂ base := by
  have hkept : (recs.filter fun r => l₁.isEmpty || cuvsTidInFilter r.tid l₁)
      = recs.filter fun r => l₂.isEmpty || cuvsTidInFilter r.tid l₂ := by
    refine List.filter_congr fun r hr => ?_
    rw [List.isEmpty_eq_false_iff.mpr hne₁, List.isEmpty_eq_false_iff.mpr hne₂, h r hr]
  simp only [mergeDeltaFilteredBy, hrecs, bind, Except.bind, hkept]

def letThrough (recs : List DeltaRecord) (filterArr : List Tid) (c : CuvsResult D) : Bool :=
  !(recs.map DeltaRecord.tid).contains c.tid || cuvsTidInFilter c.tid filterArr

def liveCandidate (snap : Snapshot) (a : Artifacts) (c : CuvsResult D) : Bool :=
  !tombstoned snap (tombstoneRecordsForScan a) c.tid

def mergeOrder (metric : Metric) (dist : Vec → D) (base : List (CuvsResult D))
    (recs : List DeltaRecord) : List (CuvsResult D) :=
  qsort (cuvsCandCmp metric) (base ++ deltaCandidates dist recs)

omit [LinearOrder D] in
theorem filter_letThrough {base : List (CuvsResult D)}
    (hnodup : ((base ++ deltaCandidates dist recs).map CuvsResult.tid).Nodup)
    (hne : l ≠ []) :
    (base ++ deltaCandidates dist recs).filter (letThrough recs l)
      = base ++ (recs.filter fun r => l.isEmpty || cuvsTidInFilter r.tid l).map
          fun r => ⟨r.tid, dist r.vec⟩ := by
  rw [List.filter_append]
  congr 1
  · refine List.filter_eq_self.mpr fun c hc => ?_
    have hdisjoint := (List.nodup_append'.mp (List.map_append ▸ hnodup)).2.2
    have hout : c.tid ∉ recs.map DeltaRecord.tid := by
      intro hmem
      refine hdisjoint (List.mem_map_of_mem hc) ?_
      simpa [deltaCandidates, Function.comp_def] using hmem
    simp [letThrough, List.contains_eq_mem, hout]
  · rw [deltaCandidates, List.filter_map]
    congr 1
    refine List.filter_congr fun r hr => ?_
    have hin : r.tid ∈ recs.map DeltaRecord.tid := List.mem_map_of_mem hr
    simp [letThrough, List.contains_eq_mem, hin, List.isEmpty_eq_false_iff.mpr hne]

/-- A sort in the order of the merge. Equal distances may come out in any order. -/
structure SortsBy (metric : Metric) (sort : List (CuvsResult D) → List (CuvsResult D)) : Prop where
  perm : ∀ L, (sort L).Perm L
  ordered : ∀ L, (sort L).Pairwise fun x y => cuvsCandCmp metric x y ≤ 0

theorem sortsBy_qsort (metric : Metric) : SortsBy (D := D) metric (qsort (cuvsCandCmp metric)) where
  perm := qsort_perm _
  ordered L := by
    have hsorted : (qsort (candCmp metric) L).Pairwise
        fun x y => metric.Nearer x.distance y.distance := by
      rw [qsort_candCmp]
      exact List.pairwise_insertionSort _ L
    exact hsorted.imp fun h => candCmp_nonpos.mpr h

/-- Where all distances differ there is one way to sort. -/
theorem SortsBy.eq_qsort (S : SortsBy metric sort) {L : List (CuvsResult D)}
    (hdistinct : (L.map CuvsResult.distance).Nodup) : sort L = qsort (cuvsCandCmp metric) L := by
  have Q : SortsBy (D := D) metric (qsort (cuvsCandCmp metric)) := sortsBy_qsort metric
  refine List.Perm.eq_of_pairwise ?_ (S.ordered L) (Q.ordered L) ((S.perm L).trans (Q.perm L).symm)
  intro x y hx hy hxy hyx
  have hdistance : x.distance = y.distance :=
    Std.Antisymm.antisymm (r := metric.Nearer) _ _ (candCmp_nonpos.mp hxy) (candCmp_nonpos.mp hyx)
  exact List.inj_on_of_nodup_map hdistinct ((S.perm L).subset hx) ((Q.perm L).subset hy) hdistance

/-- What a search that merges emits: the first `k` live rows it let through. -/
theorem filteredKnnBy_eq_take (S : SortsBy metric sort) (M : CpuMerges g a k l search kFetch)
    (hrecs : deltaRowsForScan g a dim = .ok recs) (hne : recs ≠ [])
    (hnodup : (((search kFetch).results ++ deltaCandidates dist recs).map CuvsResult.tid).Nodup)
    (hdistinct : (((search kFetch).results ++ deltaCandidates dist recs).map
      CuvsResult.distance).Nodup)
    (htid : ∀ c ∈ (search kFetch).results ++ deltaCandidates dist recs, c.tid ≠ 0) :
    filteredKnnBy sort g a snap dist dim k (some l) search
      = .ok (((mergeOrder metric dist (search kFetch).results recs).filter
          fun c => liveCandidate snap a c && letThrough recs l c).take k) := by
  set base := (search kFetch).results
  set order := mergeOrder metric dist base recs
  have hperm : order.Perm (base ++ deltaCandidates dist recs) := qsort_perm _ _
  have hsort : sort (base ++
      (recs.filter fun r => l.isEmpty || cuvsTidInFilter r.tid l).map fun r => ⟨r.tid, dist r.vec⟩)
        = order.filter (letThrough recs l) := by
    rw [← filter_letThrough hnodup M.nonempty,
      S.eq_qsort (hdistinct.sublist (List.filter_sublist.map _))]
    change qsort (candCmp metric) _ = (qsort (candCmp metric) _).filter _
    rw [qsort_candCmp, qsort_candCmp, Stable.filter_insertionSort]
  have hmerged : mergeDeltaFilteredBy sort g a dist dim kFetch l base
      = .ok ((order.filter (letThrough recs l)).take kFetch) := by
    simp only [mergeDeltaFilteredBy, hrecs, bind, Except.bind, if_neg hne, hsort]
    rfl
  have hdead : (order.filter (letThrough recs l)).countP (fun c => !liveCandidate snap a c)
      ≤ cuvsTombstoneCount a := by
    refine countP_tombstoned_le snap a _ ?_
    have hnodup' := (hperm.map CuvsResult.tid).nodup_iff.mpr hnodup
    exact hnodup'.sublist (List.filter_sublist.map _)
  have hout : filteredKnnMergeBy sort g a snap dist dim kFetch l (search kFetch)
      = .ok (((order.filter (letThrough recs l)).take kFetch).filter (liveCandidate snap a)) := by
    rw [filteredKnnMergeBy, if_neg M.on, if_pos M.merge]
    change (mergeDeltaFilteredBy sort g a dist dim kFetch l base >>= _) = _
    rw [hmerged]
    rfl
  rw [filteredKnnBy_eq M.nonempty M.range M.fetch M.ok hout fun c hc =>
    htid c (hperm.subset (List.mem_of_mem_filter (List.mem_of_mem_take
      (List.mem_of_mem_filter hc))))]
  rw [cuvsKWithTombstoneSlack_eq_some M.on M.fetch, Stable.take_filter_take _ _ _ _ hdead,
    List.filter_filter]

/-- How many live rows that both whitelists let through rank ahead of `c`. -/
def keptAhead (snap : Snapshot) (a : Artifacts) (recs : List DeltaRecord) (l₁ l₂ : List Tid)
    (order : List (CuvsResult D)) (c : CuvsResult D) : ℕ :=
  ((order.takeWhile fun y => decide (y ≠ c)).filter fun y =>
    liveCandidate snap a y && (letThrough recs l₁ y && letThrough recs l₂ y)).length

theorem filteredKnnBy_eq_iff (S : SortsBy metric sort) (M₁ : CpuMerges g a k l₁ search kFetch)
    (M₂ : CpuMerges g a k l₂ search kFetch) (hrecs : deltaRowsForScan g a dim = .ok recs)
    (hnodup : (((search kFetch).results ++ deltaCandidates dist recs).map CuvsResult.tid).Nodup)
    (hdistinct : (((search kFetch).results ++ deltaCandidates dist recs).map
      CuvsResult.distance).Nodup)
    (htid : ∀ c ∈ (search kFetch).results ++ deltaCandidates dist recs, c.tid ≠ 0) :
    filteredKnnBy sort g a snap dist dim k (some l₁) search
        = filteredKnnBy sort g a snap dist dim k (some l₂) search ↔
      ∀ c ∈ mergeOrder metric dist (search kFetch).results recs, liveCandidate snap a c = true →
        letThrough recs l₁ c ≠ letThrough recs l₂ c →
          k ≤ keptAhead snap a recs l₁ l₂
            (mergeOrder metric dist (search kFetch).results recs) c := by
  set order := mergeOrder metric dist (search kFetch).results recs
  by_cases hne : recs = []
  · subst hne
    refine iff_of_true ?_ fun c _ _ hdiffer => absurd rfl hdiffer
    refine filteredKnnBy_congr (iff_of_false M₁.nonempty M₂.nonempty) fun kFetch _ => ?_
    exact mergeDeltaFilteredBy_congr M₁.nonempty M₂.nonempty hrecs (by simp) _
  · have horder : order.Nodup := by
      have hperm : order.Perm ((search kFetch).results ++ deltaCandidates dist recs) :=
        qsort_perm _ _
      exact hperm.nodup_iff.mpr hnodup.of_map
    rw [filteredKnnBy_eq_take S M₁ hrecs hne hnodup hdistinct htid,
      filteredKnnBy_eq_take S M₂ hrecs hne hnodup hdistinct htid, Except.ok.injEq,
      Stable.take_filter_eq_iff horder]
    refine forall₂_congr fun c _ => ?_
    have hboth : ∀ y : CuvsResult D, ((liveCandidate snap a y && letThrough recs l₁ y) &&
        (liveCandidate snap a y && letThrough recs l₂ y))
          = (liveCandidate snap a y && (letThrough recs l₁ y && letThrough recs l₂ y)) := by
      intro y
      cases liveCandidate snap a y <;> simp
    cases hlive : liveCandidate snap a c <;> simp [keptAhead, hboth]

end Merge

section Permutation

variable [LinearOrder D] {g : Guc} {rg : RoutingGuc} {key : Key} {dim k : ℕ} {metric : Metric}
  {reltuples : Option ℚ} {daemon : KnnDaemon D} {a : Artifacts} {snap : Snapshot}
  {dist : Vec → D} {recs : List DeltaRecord} {l₁ l₂ : List Tid}
  {sort : List (CuvsResult D) → List (CuvsResult D)}

/-- The order of the whitelist is lost on the way to the daemon but not in the
backend: it makes no difference, however the merge sorts, unless the backend merges
pending rows that the bisection finds in one order only. Then, where all distances
differ, the rows are the same exactly when each of those is dead or comes behind `k`
live rows found in both orders. -/
theorem filteredKnn_order_iff (hperm : l₁.Perm l₂) (hrecs : deltaRowsForScan g a dim = .ok recs)
    (S : SortsBy metric sort) :
    ((∀ kFetch, CpuMerges g a k l₁ (knnRequest g rg key dim metric reltuples daemon (some l₁))
        kFetch → ∀ r ∈ recs, cuvsTidInFilter r.tid l₁ = cuvsTidInFilter r.tid l₂) →
      cuvsFilteredKnnBy g rg key dim metric reltuples daemon sort a snap dist (some l₁) k
        = cuvsFilteredKnnBy g rg key dim metric reltuples daemon sort a snap dist (some l₂) k) ∧
    ∀ kFetch base,
      CpuMerges g a k l₁ (knnRequest g rg key dim metric reltuples daemon (some l₁)) kFetch →
      base = (knnRequest g rg key dim metric reltuples daemon (some l₁) kFetch).results →
      ((base ++ deltaCandidates dist recs).map CuvsResult.tid).Nodup →
      ((base ++ deltaCandidates dist recs).map CuvsResult.distance).Nodup →
      (∀ c ∈ base ++ deltaCandidates dist recs, c.tid ≠ 0) →
      (cuvsFilteredKnnBy g rg key dim metric reltuples daemon sort a snap dist (some l₁) k
          = cuvsFilteredKnnBy g rg key dim metric reltuples daemon sort a snap dist (some l₂) k ↔
        ∀ c ∈ mergeOrder metric dist base recs, liveCandidate snap a c = true →
          letThrough recs l₁ c ≠ letThrough recs l₂ c →
            k ≤ keptAhead snap a recs l₁ l₂ (mergeOrder metric dist base recs) c) := by
  have hnil : l₁ = [] ↔ l₂ = [] := by
    rw [← List.length_eq_zero_iff, ← List.length_eq_zero_iff, hperm.length_eq]
  have hrequest : knnRequest g rg key dim metric reltuples daemon (some l₁)
      = knnRequest g rg key dim metric reltuples daemon (some l₂) := knnRequest_congr hperm
  refine ⟨fun hagree => ?_, ?_⟩
  · unfold cuvsFilteredKnnBy
    rw [← hrequest]
    refine filteredKnnBy_congr hnil fun kFetch M => ?_
    exact mergeDeltaFilteredBy_congr M.nonempty (mt hnil.mpr M.nonempty) hrecs (hagree kFetch M) _
  · rintro kFetch base M rfl hnodup hdistinct htid
    unfold cuvsFilteredKnnBy
    rw [← hrequest]
    have M₂ : CpuMerges g a k l₂ (knnRequest g rg key dim metric reltuples daemon (some l₁))
        kFetch := { M with nonempty := mt hnil.mpr M.nonempty }
    exact filteredKnnBy_eq_iff S M M₂ hrecs hnodup hdistinct htid

end Permutation

section Sample

def sampleKnnDaemon : KnnDaemon ℕ :=
  let answer (frame : SearchFrame) (rows : List (CuvsResult ℕ)) : SearchReply ℕ :=
    { status := .ok, results := (qsort (candCmp frame.metric) rows).take frame.k, latencyUs := 0
      deltaMerged := false, error := "" }
  { search := fun frame => answer frame sampleBase
    searchFiltered := fun frame l => answer frame (whitelisted l sampleBase)
    searchStreamBf := fun frame l => answer frame (whitelisted l sampleBase) }

def sampleRouting : RoutingGuc := ⟨0, 0⟩

def sampleKnn (filterTids : Option (List Tid)) (k : ℕ) :
    Except ScanError (List (CuvsResult ℕ)) :=
  cuvsFilteredKnnBy (sampleGuc .auto) sampleRouting ⟨1, 2⟩ 1 .l2 none sampleKnnDaemon
    (qsort (cuvsCandCmp .l2)) sampleArtifacts sampleSnapshot (sampleDist [0]) filterTids k

theorem sampleKnn_merges (l : List Tid) (hne : l ≠ []) {k : ℕ} (hk : 1 ≤ k ∧ k ≤ 2000) :
    CpuMerges (sampleGuc .auto) sampleArtifacts k l
      (knnRequest (sampleGuc .auto) sampleRouting ⟨1, 2⟩ 1 .l2 none sampleKnnDaemon (some l)) k where
  range := hk
  nonempty := hne
  fetch := rfl
  ok := rfl
  on := by decide
  merge := rfl

/-- The pending row is found in two of these orders and missed in the third. -/
theorem filteredKnn_order_sample :
    sampleKnn (some [101, 102, 103]) 1 = sampleKnn (some [102, 101, 103]) 1 ∧
    (sampleKnn (some [101, 103]) 1 = sampleKnn (some [103, 101]) 1 ↔
      ∀ c ∈ mergeOrder .l2 (sampleDist [0]) [⟨101, 10⟩] sampleDelta,
        liveCandidate sampleSnapshot sampleArtifacts c = true →
          letThrough sampleDelta [101, 103] c ≠ letThrough sampleDelta [103, 101] c →
            1 ≤ keptAhead sampleSnapshot sampleArtifacts sampleDelta [101, 103] [103, 101]
              (mergeOrder .l2 (sampleDist [0]) [⟨101, 10⟩] sampleDelta) c) :=
  have hfile : deltaRowsForScan (sampleGuc .auto) sampleArtifacts 1 = .ok sampleDelta := by
    decide +kernel
  ⟨(filteredKnn_order_iff (by decide) hfile (sortsBy_qsort .l2)).1 (fun _ _ => by decide +kernel),
    (filteredKnn_order_iff (by decide) hfile (sortsBy_qsort .l2)).2 1 _
      (sampleKnn_merges [101, 103] (by decide) (by decide)) (by decide +kernel) (by decide)
      (by decide) (by decide)⟩

/-- The same two TIDs find the pending row in one order and miss it in the other. -/
theorem filteredKnn_order_matters :
    ¬ ∀ (g : Guc) (rg : RoutingGuc) (key : Key) (dim : ℕ) (metric : Metric)
      (reltuples : Option ℚ) (daemon : KnnDaemon ℕ) (a : Artifacts) (snap : Snapshot)
      (dist : Vec → ℕ) (k : ℕ) (recs : List DeltaRecord) (l₁ l₂ : List Tid),
      deltaRowsForScan g a dim = .ok recs → l₁.Perm l₂ →
      cuvsFilteredKnn g rg key dim metric reltuples daemon a snap dist (some l₁) k
        = cuvsFilteredKnn g rg key dim metric reltuples daemon a snap dist (some l₂) k := by
  intro hall
  have hsorted : sampleKnn (some [101, 103]) 1 = .ok [⟨103, 5⟩] := by decide +kernel
  have hunsorted : sampleKnn (some [103, 101]) 1 = .ok [⟨101, 10⟩] := by decide +kernel
  have hsame : sampleKnn (some [101, 103]) 1 = sampleKnn (some [103, 101]) 1 :=
    hall _ _ _ _ _ _ _ _ _ _ _ sampleDelta _ _ (by decide +kernel) (by decide)
  rw [hsorted, hunsorted] at hsame
  exact absurd hsame (by decide)

end Sample

end PgCuvs
