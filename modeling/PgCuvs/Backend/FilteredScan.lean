import PgCuvs.Transient.Runs

/-! The scan node for a filter over an indexed table: the filter is evaluated first, the daemon
searches the rows that pass it, and the rows it names are fetched. -/

namespace PgCuvs

open Selection

variable {D : Type}

structure CsScan where
  g : Guc
  rg : RoutingGuc
  key : Key
  metric : Metric
  reltuples : ℚ
  view : TableView
  query : PgVector

structure CsIpc (D : Type) where
  a : Artifacts
  snap : Snapshot
  daemon : KnnDaemon D

def CsScan.tids (scan : CsScan) : List Tid :=
  qsort compareU64 ((scan.view.rows.filter TableRow.qual).map TableRow.tid)

/-- The request behind the filter. It is routed as that of `cuvs_filtered_knn`. -/
def CsScan.request (scan : CsScan) (io : CsIpc D) (searchK : ℕ) : SearchReply D :=
  knnRequest scan.g scan.rg scan.key scan.query.x.length scan.metric (some scan.reltuples) io.daemon
    (some scan.tids) searchK

section Build

variable [LT D] [DecidableLT D] (dist : Metric → Vec → Vec → D)

/-- A filter that nothing passes is not sent: the daemon would take it for no filter. -/
def cuvsCsBuild (scan : CsScan) (io : CsIpc D) : Except ScanError (List (CuvsResult D)) :=
  if scan.tids = [] then .ok []
  else
    match cuvsKWithTombstoneSlack scan.g io.a scan.g.cuvsK with
    | none => .error .tombstoneSlack
    | some searchK =>
      let reply := scan.request io searchK
      match reply.status with
      | .ok =>
        (filteredKnnMerge scan.g io.a io.snap (dist scan.metric scan.query.x) scan.query.x.length
          searchK scan.metric scan.tids reply).map (List.take scan.g.cuvsK)
      | .canceled => .error .canceled
      | .protoMismatch => .error .protoMismatch
      | s => .error (.searchFailed s)

abbrev CsNode (D : Type) := Cursor.Node CsScan (CuvsResult D) TableRow ScanError

abbrev CsEvent (D : Type) := Cursor.Event (CsIpc D) CsScan

def CsNode.step : CsNode D → CsEvent D → CsNode D :=
  Cursor.Node.step (cuvsCsBuild dist) fun scan => scan.view.item

end Build

section Whitelist

variable {scan : CsScan} {r : TableRow} {io : CsIpc D}

theorem CsScan.tids_sorted (scan : CsScan) : scan.tids.Pairwise (· ≤ ·) := cuvsU64Sort_sorted _

theorem CsScan.mem_tids (hr : r ∈ scan.view.rows) : r.tid ∈ scan.tids ↔ r.qual = true := by
  rw [CsScan.tids, (qsort_perm _ _).mem_iff, List.mem_map]
  constructor
  · rintro ⟨s, hs, htid⟩
    obtain ⟨hmem, hqual⟩ := List.mem_filter.mp hs
    rwa [List.inj_on_of_nodup_map scan.view.tids_nodup hmem hr htid] at hqual
  · exact fun hqual => ⟨r, List.mem_filter.mpr ⟨hr, hqual⟩, rfl⟩

theorem CsScan.item_of_mem {c : CuvsResult D} (hc : c.tid ∈ scan.tids) :
    ∃ r ∈ scan.view.rows, r.qual = true ∧ r.tid = c.tid ∧ scan.view.item c = some r := by
  rw [CsScan.tids, (qsort_perm _ _).mem_iff, List.mem_map] at hc
  obtain ⟨r, hr, htid⟩ := hc
  obtain ⟨hmem, hqual⟩ := List.mem_filter.mp hr
  have hzero : c.tid ≠ 0 := htid ▸ scan.view.tid_ne_zero hmem
  refine ⟨r, hmem, hqual, htid, ?_⟩
  rw [TableView.item, if_neg hzero, ← htid]
  exact scan.view.fetch_tid hmem

end Whitelist

section Within

variable [LinearOrder D] {dist : Metric → Vec → Vec → D} {scan : CsScan} {io : CsIpc D}
  {results : List (CuvsResult D)}

theorem cuvsMergeDeltaFiltered_within {g : Guc} {a : Artifacts} {dist : Vec → D} {dim k : ℕ}
    {metric : Metric} {tids : List Tid} {base : List (CuvsResult D)} (hne : tids ≠ [])
    (hsorted : tids.Pairwise (· ≤ ·)) (hbase : ∀ c ∈ base, c.tid ∈ tids)
    (h : cuvsMergeDeltaFiltered g a dist dim k metric tids base = .ok results) :
    ∀ c ∈ results, c.tid ∈ tids := by
  rw [cuvsMergeDeltaFiltered, mergeDeltaFilteredBy] at h
  cases hrows : deltaRowsForScan g a dim with
  | error e =>
    rw [hrows] at h
    cases h
  | ok rows =>
    rw [hrows] at h
    simp only [bind, Except.bind, pure, Except.pure] at h
    split_ifs at h with hnil
    · cases h
      exact hbase
    · cases h
      intro c hc
      have hmem := (qsort_perm _ _).mem_iff.mp (List.mem_of_mem_take hc)
      rcases List.mem_append.mp hmem with hc | hc
      · exact hbase c hc
      · obtain ⟨r, hr, rfl⟩ := List.mem_map.mp hc
        have hkept := (List.mem_filter.mp hr).2
        rw [List.isEmpty_eq_false_iff.mpr hne, Bool.false_or] at hkept
        exact (cuvsTidInFilter_iff hsorted).mp hkept

theorem filteredKnnMerge_within {g : Guc} {a : Artifacts} {snap : Snapshot} {dist : Vec → D}
    {dim k : ℕ} {metric : Metric} {tids : List Tid} {reply : SearchReply D} (hne : tids ≠ [])
    (hsorted : tids.Pairwise (· ≤ ·)) (hbase : ∀ c ∈ reply.results, c.tid ∈ tids)
    (h : filteredKnnMerge g a snap dist dim k metric tids reply = .ok results) :
    ∀ c ∈ results, c.tid ∈ tids := by
  have hlive : ∀ merged : List (CuvsResult D), (∀ c ∈ merged, c.tid ∈ tids) →
      ∀ c ∈ cuvsApplyTombstones snap a merged, c.tid ∈ tids :=
    fun merged hmerged c hc => hmerged c (List.mem_of_mem_filter hc)
  rw [filteredKnnMerge_eq] at h
  split_ifs at h with hoff hcpu
  · cases h
    exact hbase
  · cases hmerge : cuvsMergeDeltaFiltered g a dist dim k metric tids reply.results with
    | error e =>
      rw [hmerge] at h
      cases h
    | ok merged =>
      rw [hmerge] at h
      cases h
      exact hlive merged (cuvsMergeDeltaFiltered_within hne hsorted hbase hmerge)
  · cases h
    exact hlive _ hbase

theorem cuvsCsBuild_eq_ok (h : cuvsCsBuild dist scan io = .ok results) :
    scan.tids = [] ∧ results = [] ∨
      ∃ searchK merged, scan.tids ≠ [] ∧
        cuvsKWithTombstoneSlack scan.g io.a scan.g.cuvsK = some searchK ∧
        (scan.request io searchK).status = .ok ∧
        filteredKnnMerge scan.g io.a io.snap (dist scan.metric scan.query.x) scan.query.x.length
          searchK scan.metric scan.tids (scan.request io searchK) = .ok merged ∧
        results = merged.take scan.g.cuvsK := by
  rw [cuvsCsBuild] at h
  split_ifs at h with hnil
  · cases h
    exact Or.inl ⟨hnil, rfl⟩
  · cases hslack : cuvsKWithTombstoneSlack scan.g io.a scan.g.cuvsK with
    | none =>
      rw [hslack] at h
      cases h
    | some searchK =>
      rw [hslack] at h
      dsimp only at h
      split at h
      · rename_i hok
        cases hmerge : filteredKnnMerge scan.g io.a io.snap (dist scan.metric scan.query.x)
            scan.query.x.length searchK scan.metric scan.tids (scan.request io searchK) with
        | error e =>
          rw [hmerge] at h
          cases h
        | ok merged =>
          rw [hmerge] at h
          cases h
          exact Or.inr ⟨searchK, merged, hnil, rfl, hok, hmerge, rfl⟩
      · cases h
      · cases h
      · cases h

/-- The daemon keeps to the whitelist it is sent. -/
def CsIpc.Contained (scan : CsScan) (io : CsIpc D) : Prop :=
  ∀ searchK, ∀ c ∈ (scan.request io searchK).results, c.tid ∈ scan.tids

def CsScan.Passing (scan : CsScan) (rows : List TableRow) : Prop :=
  ∀ r ∈ rows, r ∈ scan.view.rows ∧ r.qual = true

theorem cuvsCsBuild_passing (hdaemon : io.Contained scan)
    (h : cuvsCsBuild dist scan io = .ok results) :
    scan.Passing (results.filterMap scan.view.item) := by
  have hwithin : ∀ c ∈ results, c.tid ∈ scan.tids := by
    rcases cuvsCsBuild_eq_ok h with ⟨-, rfl⟩ | ⟨searchK, merged, hne, -, -, hmerge, rfl⟩
    · intro c hc
      cases hc
    · intro c hc
      exact filteredKnnMerge_within hne scan.tids_sorted (hdaemon searchK) hmerge c
        (List.mem_of_mem_take hc)
  intro r hr
  obtain ⟨c, hc, hitem⟩ := List.mem_filterMap.mp hr
  obtain ⟨s, hs, hqual, -, hfound⟩ := scan.item_of_mem (hwithin c hc)
  cases hfound.symm.trans hitem
  exact ⟨hs, hqual⟩

/-- A node whose daemon keeps to the whitelist never returns a row that the filter excludes,
whatever the index, its sidecars and its settings are. -/
theorem CsNode.run_passing (dist : Metric → Vec → Vec → D) (scan : CsScan)
    (events : List (CsEvent D))
    (hevents : ∀ ev ∈ events, Cursor.Event.Within (· = scan) (CsIpc.Contained scan) ev) :
    scan.Passing (Run.run (CsNode.step dist) (.start scan) events).returned := by
  have hanswers : (Run.run (CsNode.step dist) (.start scan) events).Answers
      fun params rows => params = scan ∧ scan.Passing rows := by
    refine Cursor.Node.run_answers (P := (· = scan)) (Q := CsIpc.Contained scan) rfl hevents ?_
    intro params io items hparams hio h
    subst hparams
    exact ⟨rfl, cuvsCsBuild_passing hio h⟩
  rcases hanswers with ⟨hnone, -⟩ | ⟨rows, ⟨-, hpassing⟩, hfront, -⟩
  · rw [hnone]
    intro r hr
    cases hr
  · exact fun r hr => hpassing r (hfront.subset hr)

end Within

section Nearest

variable [LinearOrder D] {dist : Metric → Vec → Vec → D} {scan : CsScan} {io : CsIpc D}
  {results : List (CuvsResult D)}

def CsScan.Nearest (dist : Metric → Vec → Vec → D) (scan : CsScan) (rows : List TableRow) : Prop :=
  scan.view.Nearest (dist scan.metric) scan.metric scan.g.cuvsK scan.query.x rows

/-- The index and its pending rows have the rows of the table that pass the filter, none of them
dead; the daemon finds the nearest of them, and the pending rows are merged once. -/
structure CsIpc.Covers (dist : Metric → Vec → Vec → D) (scan : CsScan) (io : CsIpc D) : Prop where
  index : ∃ base recs,
    deltaRowsForScan scan.g io.a scan.query.x.length = .ok recs ∧
    (whitelisted scan.tids (base ++ deltaCandidates (dist scan.metric scan.query.x) recs)).Perm
      (scan.view.qualifying.map (TableRow.result (dist scan.metric) scan.query.x)) ∧
    ∀ searchK, cuvsKWithTombstoneSlack scan.g io.a scan.g.cuvsK = some searchK →
      (scan.request io searchK).status = .ok →
      NearestOf scan.metric searchK (whitelisted scan.tids base)
        (whitelisted scan.tids (deltaCandidates (dist scan.metric scan.query.x) recs))
        (scan.request io searchK).results (scan.request io searchK).deltaMerged
  alive : ∀ r ∈ scan.view.qualifying,
    tombstoned io.snap (tombstoneRecordsForScan io.a) r.tid = false
  once : ∀ searchK, cuvsKWithTombstoneSlack scan.g io.a scan.g.cuvsK = some searchK →
    (scan.request io searchK).status = .ok →
    doCpuMerge scan.g (scan.request io searchK).deltaMerged =
      !(scan.request io searchK).deltaMerged

theorem cuvsKWithTombstoneSlack_ge {g : Guc} {a : Artifacts} {k searchK : ℕ}
    (h : cuvsKWithTombstoneSlack g a k = some searchK) : k ≤ searchK := by
  by_cases hoff : g.maxDeltaRows = 0
  · rw [cuvsKWithTombstoneSlack, if_pos hoff] at h
    exact (Option.some.inj h).le
  · rw [cuvsKWithTombstoneSlack_eq_some hoff h]
    exact Nat.le_add_right k _

omit [LinearOrder D] in
theorem cuvsApplyTombstones_eq_self {snap : Snapshot} {a : Artifacts} {R : List (CuvsResult D)}
    (h : ∀ c ∈ R, tombstoned snap (tombstoneRecordsForScan a) c.tid = false) :
    cuvsApplyTombstones snap a R = R := by
  refine List.filter_eq_self.mpr fun c hc => ?_
  rw [h c hc]
  rfl

/-- Merged once, by the daemon or behind it, base and pending rows are one selection. -/
theorem filteredKnnMerge_nearest {g : Guc} {a : Artifacts} {snap : Snapshot} {dist : Vec → D}
    {dim k : ℕ} {metric : Metric} {tids : List Tid} {reply : SearchReply D}
    {base : List (CuvsResult D)} {recs : List DeltaRecord} (hne : tids ≠ [])
    (hsorted : tids.Pairwise (· ≤ ·)) (hrecs : deltaRowsForScan g a dim = .ok recs)
    (hreply : NearestOf metric k (whitelisted tids base)
      (whitelisted tids (deltaCandidates dist recs)) reply.results reply.deltaMerged)
    (hlive : ∀ c ∈ whitelisted tids (base ++ deltaCandidates dist recs),
      tombstoned snap (tombstoneRecordsForScan a) c.tid = false)
    (honce : doCpuMerge g reply.deltaMerged = !reply.deltaMerged)
    (h : filteredKnnMerge g a snap dist dim k metric tids reply = .ok results) :
    IsNearest metric.Nearer CuvsResult.distance k
      (whitelisted tids (base ++ deltaCandidates dist recs)) results := by
  rw [NearestOf] at hreply
  rw [whitelisted_append] at hlive ⊢
  rw [filteredKnnMerge_eq] at h
  by_cases hoff : g.maxDeltaRows = 0
  · rw [if_pos hoff] at h
    cases h
    have hpending : whitelisted tids (deltaCandidates dist recs) = [] := by
      rw [deltaRowsForScan_off hoff hrecs]
      rfl
    rw [hpending, List.append_nil, ite_self] at hreply
    rw [hpending, List.append_nil]
    exact hreply
  · rw [if_neg hoff] at h
    -- the pending rows are merged once, by the daemon or here
    cases hmerged : reply.deltaMerged with
    | true =>
      rw [hmerged, if_pos rfl] at hreply
      rw [hmerged, Bool.not_true] at honce
      rw [hmerged, honce] at h
      cases h
      rw [cuvsApplyTombstones_eq_self fun c hc => hlive c (hreply.mem hc)]
      exact hreply
    | false =>
      rw [hmerged, if_neg Bool.false_ne_true] at hreply
      rw [hmerged, Bool.not_false] at honce
      obtain ⟨R, hR, hnear⟩ := cuvsMergeDeltaFiltered_isNearest hsorted hne hrecs hreply
      rw [hmerged, honce, if_pos rfl, hR] at h
      cases h
      rw [cuvsApplyTombstones_eq_self fun c hc => hlive c (hnear.mem hc)]
      exact hnear

theorem CsScan.nearest_nil (scan : CsScan) (hnil : scan.tids = []) : scan.Nearest dist [] := by
  have hnone : scan.view.qualifying = [] := by
    rw [List.eq_nil_iff_forall_not_mem]
    intro r hr
    rw [scan.view.qualifying_eq] at hr
    obtain ⟨hmem, hqual⟩ := List.mem_filter.mp (List.mem_of_mem_filter hr)
    have htid := (scan.mem_tids hmem).mpr hqual
    rw [hnil] at htid
    cases htid
  rw [CsScan.Nearest, TableView.Nearest, hnone]
  exact isNearest_nil _

theorem cuvsCsBuild_nearest (hcovers : io.Covers dist scan)
    (h : cuvsCsBuild dist scan io = .ok results) :
    scan.Nearest dist (results.filterMap scan.view.item) := by
  rcases cuvsCsBuild_eq_ok h with ⟨hnil, rfl⟩ | ⟨searchK, merged, hne, hslack, hok, hmerge, rfl⟩
  · exact scan.nearest_nil hnil
  · obtain ⟨base, recs, hrecs, hindex, hreply⟩ := hcovers.index
    have hlive : ∀ c ∈ whitelisted scan.tids
        (base ++ deltaCandidates (dist scan.metric scan.query.x) recs),
        tombstoned io.snap (tombstoneRecordsForScan io.a) c.tid = false := by
      intro c hc
      obtain ⟨r, hr, rfl⟩ := List.mem_map.mp (hindex.mem_iff.mp hc)
      exact hcovers.alive r hr
    have hnear := filteredKnnMerge_nearest hne scan.tids_sorted hrecs (hreply searchK hslack hok) hlive
      (hcovers.once searchK hslack hok) hmerge
    have htake := (hnear.take (cuvsKWithTombstoneSlack_ge hslack)).perm hindex
    obtain ⟨rows, hrows, hselected⟩ := htake.of_map
    have hmem : ∀ r ∈ rows, r ∈ scan.view.rows :=
      fun r hr => List.mem_of_mem_filter (hselected.mem hr)
    rw [hrows, TableView.filterMap_item hmem]
    exact hselected

end Nearest

section Sample

def sampleCsScan : CsScan where
  g := Guc.default
  rg := sampleRouting
  key := ⟨1, 2⟩
  metric := .l2
  reltuples := 4
  view := sampleTable
  query := sampleVector 0

def sampleCsBase : List (CuvsResult ℕ) :=
  [⟨1, ipDist [0] [3]⟩, ⟨458753, ipDist [0] [1]⟩, ⟨458754, ipDist [0] [0]⟩]

def selectReply (results : List (CuvsResult ℕ)) : SearchReply ℕ where
  status := .ok
  results := results
  latencyUs := 7
  deltaMerged := false
  error := ""

def sampleCsIpc : CsIpc ℕ where
  a := Artifacts.empty
  snap := sampleSnapshot
  daemon :=
    { search := fun _ => selectReply []
      searchFiltered := fun frame tids =>
        selectReply ((qsort (cuvsCandCmp .l2) (whitelisted tids sampleCsBase)).take frame.k)
      searchStreamBf := fun _ _ => selectReply [] }

theorem sampleCs_request (searchK : ℕ) :
    sampleCsScan.request sampleCsIpc searchK =
      selectReply ((qsort (cuvsCandCmp .l2) (whitelisted sampleCsScan.tids sampleCsBase)).take
        searchK) := by
  have hroute : knnRoute sampleCsScan.rg (some sampleCsScan.reltuples) sampleCsScan.tids.length =
      .dWedge := by
    simp [knnRoute, sampleCsScan, sampleRouting]
  rw [CsScan.request, knnRequest]
  simp only [hroute, cuvsIpcSearchFiltered, receive, sampleCsIpc, selectReply, filteredFrame,
    whitelisted_sort, if_true, List.take_take, Nat.min_self]

theorem sampleCs_contained : sampleCsIpc.Contained sampleCsScan := by
  intro searchK c hc
  rw [sampleCs_request] at hc
  have hmem := (qsort_perm _ _).mem_iff.mp (List.mem_of_mem_take hc)
  exact of_decide_eq_true (List.mem_filter.mp hmem).2

theorem sampleCs_covers : sampleCsIpc.Covers (fun _ => ipDist) sampleCsScan where
  index := by
    refine ⟨sampleCsBase, [], rfl, ?_, fun searchK _ _ => ?_⟩
    · have hindex : (whitelisted sampleCsScan.tids (sampleCsBase ++
          deltaCandidates (ipDist sampleCsScan.query.x) [])).map (fun c => (c.tid, c.distance)) =
          (sampleCsScan.view.qualifying.map
            (TableRow.result ipDist sampleCsScan.query.x)).map fun c => (c.tid, c.distance) := by
        decide +kernel
      have hinj : Function.Injective fun c : CuvsResult ℕ => (c.tid, c.distance) := by
        rintro ⟨t, x⟩ ⟨t', x'⟩ h
        cases h
        rfl
      rw [List.map_injective_iff.mpr hinj hindex]
    · rw [sampleCs_request]
      exact .plain (isNearest_qsort .l2 searchK _)
  alive _ _ := rfl
  once searchK _ _ := by
    rw [sampleCs_request]
    rfl

def sampleCsEvents : List (CsEvent ℕ) :=
  [.exec sampleCsIpc, .exec sampleCsIpc, .rescan sampleCsScan, .exec sampleCsIpc, .exec sampleCsIpc,
    .exec sampleCsIpc]

theorem sampleCsEvents_within {Q : CsIpc ℕ → Prop} (hQ : Q sampleCsIpc) :
    ∀ ev ∈ sampleCsEvents, Cursor.Event.Within (· = sampleCsScan) Q ev := by
  intro ev hev
  simp only [sampleCsEvents, List.mem_cons, List.not_mem_nil, or_false] at hev
  rcases hev with rfl | rfl | rfl | rfl | rfl | rfl
  · exact hQ
  · exact hQ
  · rfl
  · exact hQ
  · exact hQ
  · exact hQ

/-- The row that the filter excludes is the nearest one of the index. -/
theorem sampleCs_passing :
    sampleCsScan.Passing (Run.run (CsNode.step fun _ => ipDist) (.start sampleCsScan)
      sampleCsEvents).returned :=
  CsNode.run_passing (fun _ => ipDist) sampleCsScan sampleCsEvents
    (sampleCsEvents_within sampleCs_contained)

end Sample

end PgCuvs
