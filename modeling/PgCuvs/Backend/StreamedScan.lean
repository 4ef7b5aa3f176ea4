import PgCuvs.Backend.FilteredScan
import PgCuvs.Search.StreamBf

/-! The filtered scan over the streaming search of the daemon, from the rows in the files to the
rows the node returns. -/

namespace PgCuvs

open Selection

variable {D : Type}

structure StreamServer (D : Type) where
  cfg : Config
  env : Env
  senv : SearchEnv
  kern : Kernels D
  daemon : Daemon

def StreamServer.resolved (server : StreamServer D) (key : Key) :
    Daemon × Option (ℕ × IndexEntry) :=
  streamResolve server.cfg server.env server.daemon key

section Served

variable [LinearOrder D] {dist : Metric → Vec → Vec → D} {scan : CsScan} {io : CsIpc D}
  {server : StreamServer D}

def StreamServer.answer (server : StreamServer D) (frame : SearchFrame) (tids : List Tid) :
    SearchReply D :=
  (handleSearchStreamBf server.cfg server.env { server.senv with filter := some tids } server.kern
    server.daemon frame).2

/-- The daemon has an index for the query of a scan, its rows in the file the backend sees. -/
structure StreamServer.Holds (dist : Metric → Vec → Vec → D) (scan : CsScan) (a : Artifacts)
    (server : StreamServer D) (e : IndexEntry) (rows : List Vec) : Prop where
  found : ∃ i, (server.resolved scan.key).2 = some (i, e)
  disk : (server.resolved scan.key).1.disk server.cfg.indexDir e.key = a
  mapped : MappedRows e rows
  vectors : VectorsMatch a e rows
  kernel : ExactBruteForce server.kern e.metric scan.query.x (dist scan.metric scan.query.x)
    (deltaGpuOf e)
  fresh : e.stale = false
  metric : scan.metric = e.metric
  dim : scan.query.x.length = e.dim
  query : server.senv.query = .ok scan.query.x

/-- What is asked of a streamed build: an index and pending rows that together have the rows of the
table that pass the filter, none of them dead, and pending rows that the backend may merge. -/
structure CsIpc.Streams (dist : Metric → Vec → Vec → D) (scan : CsScan) (io : CsIpc D) : Prop where
  route : knnRoute scan.rg (some scan.reltuples) scan.tids.length = .streamBf
  slack : cuvsTombstoneCount io.a + scan.g.cuvsK ≤ int32Max
  index : ∃ (server : StreamServer D) (e : IndexEntry) (rows : List Vec) (recs : List DeltaRecord),
    io.daemon.searchStreamBf = server.answer ∧ server.Holds dist scan io.a e rows ∧
    deltaRowsForScan scan.g io.a scan.query.x.length = .ok recs ∧
    (whitelisted scan.tids (candidates (dist scan.metric scan.query.x) e.tids rows ++
        deltaCandidates (dist scan.metric scan.query.x) recs)).Perm
      (scan.view.qualifying.map (TableRow.result (dist scan.metric) scan.query.x))
  alive : ∀ r ∈ scan.view.qualifying,
    tombstoned io.snap (tombstoneRecordsForScan io.a) r.tid = false

theorem StreamServer.Holds.answer {a : Artifacts} {e : IndexEntry} {rows : List Vec} {k : ℕ}
    (H : server.Holds dist scan a e rows) (hip : scan.metric ≠ .ip) (hne : scan.tids ≠ [])
    (hpos : 1 ≤ k) (hk : k ≤ int32Max) :
    let r := server.answer
      (streamFrame scan.g scan.key scan.query.x.length scan.metric k scan.tids.length)
      (cuvsU64Sort scan.tids)
    r.status = .ok ∧ r.deltaMerged = false ∧
      IsNearest scan.metric.Nearer CuvsResult.distance k
        (whitelisted scan.tids (candidates (dist scan.metric scan.query.x) e.tids rows))
        r.results := by
  set frame := streamFrame scan.g scan.key scan.query.x.length scan.metric k scan.tids.length
  set senv : SearchEnv := { server.senv with filter := some (cuvsU64Sort scan.tids) }
  obtain ⟨i, hfound⟩ := H.found
  have hreply : server.answer frame (cuvsU64Sort scan.tids) =
      (streamEntry server.cfg server.env senv server.kern (server.resolved scan.key).1 i e frame).2 := by
    have hresolved : server.resolved scan.key = ((server.resolved scan.key).1, some (i, e)) :=
      Prod.ext rfl hfound
    rw [StreamServer.answer, handleSearchStreamBf]
    have hkey : frame.key = scan.key := rfl
    rw [hkey, show streamResolve server.cfg server.env server.daemon scan.key = _ from hresolved]
  have hlength : (cuvsU64Sort scan.tids).length = scan.tids.length := (qsort_perm _ _).length_eq
  have htids : mapFilter senv frame = some (cuvsU64Sort scan.tids) := by
    rw [mapFilter]
    have hlen : frame.nFilterTids = scan.tids.length := rfl
    simp only [senv, hlen, Option.filter_some, hlength, le_refl, decide_true, if_true,
      Option.map_some, Option.some.injEq]
    rw [← hlength, List.take_length]
  have hquery : senv.query = .ok scan.query.x := H.query
  have hvectors : VectorsMatch ((server.resolved scan.key).1.disk server.cfg.indexDir e.key) e rows := by
    rw [H.disk]
    exact H.vectors
  have hentry : e.metric ≠ .ip := fun hmetric => hip (H.metric.trans hmetric)
  have hexact : (streamEntry server.cfg server.env senv server.kern (server.resolved scan.key).1 i e
      frame).2.status = .ok ∧ _ :=
    streamEntry_exact H.mapped hvectors H.kernel hentry H.fresh
      (show frame.metric = e.metric from H.metric) H.dim hquery (List.length_pos_iff.mpr hne) htids hk
  have hmax : max 1 frame.k = k := Nat.max_eq_right hpos
  rw [whitelisted_sort, ← H.metric, hmax, ← hreply] at hexact
  exact hexact

theorem CsIpc.Streams.request {server : StreamServer D} {e : IndexEntry} {rows : List Vec} {k : ℕ}
    (hroute : knnRoute scan.rg (some scan.reltuples) scan.tids.length = .streamBf)
    (hserver : io.daemon.searchStreamBf = server.answer)
    (H : server.Holds dist scan io.a e rows) (hip : scan.metric ≠ .ip) (hne : scan.tids ≠ [])
    (hpos : 1 ≤ k) (hk : k ≤ int32Max) :
    (scan.request io k).status = .ok ∧ (scan.request io k).deltaMerged = false ∧
      IsNearest scan.metric.Nearer CuvsResult.distance k
        (whitelisted scan.tids (candidates (dist scan.metric scan.query.x) e.tids rows))
        (scan.request io k).results := by
  obtain ⟨hok, -, hnear⟩ := H.answer hip hne hpos hk
  set r := server.answer
    (streamFrame scan.g scan.key scan.query.x.length scan.metric k scan.tids.length)
    (cuvsU64Sort scan.tids)
  have hstream : cuvsIpcSearchStreamBf scan.g scan.key scan.query.x.length scan.metric io.daemon
      scan.tids k = { r with results := r.results.take k, deltaMerged := false } := by
    rw [cuvsIpcSearchStreamBf, hserver]
    show { receive k r with deltaMerged := false } = _
    rw [receive, if_pos hok]
  have hrequest : scan.request io k =
      { r with results := r.results.take k, deltaMerged := false } := by
    rw [CsScan.request, knnRequest]
    simp only [hroute, hstream, hok]
    rw [if_neg (by rintro ⟨⟩)]
  rw [hrequest]
  refine ⟨hok, rfl, ?_⟩
  rw [List.take_of_length_le hnear.length_le]
  exact hnear

theorem doCpuMerge_false {g : Guc} (h : g.deltaSearch ≠ .gpu) : doCpuMerge g false = true := by
  rw [doCpuMerge]
  cases hmode : g.deltaSearch with
  | auto => rfl
  | cpu => rfl
  | gpu => exact absurd hmode h

theorem exists_tombstoneSlack {g : Guc} {a : Artifacts} {k : ℕ} (hpos : 1 ≤ k)
    (h : cuvsTombstoneCount a + k ≤ int32Max) :
    ∃ searchK, cuvsKWithTombstoneSlack g a k = some searchK ∧ 1 ≤ searchK ∧ searchK ≤ int32Max := by
  have hk : k ≤ int32Max := (Nat.le_add_left _ _).trans h
  have hmax : ¬intMax < cuvsTombstoneCount a + k := not_lt.mpr h
  rw [cuvsKWithTombstoneSlack]
  dsimp only
  rw [if_neg hmax]
  split_ifs
  · exact ⟨k, rfl, hpos, hk⟩
  · exact ⟨k, rfl, hpos, hk⟩
  · exact ⟨_, rfl, Nat.le_add_right_of_le hpos, (Nat.add_comm _ _).trans_le h⟩

/-- Streaming finds the nearest rows of the index; the backend merges the pending ones. -/
theorem CsIpc.Streams.covers (S : io.Streams dist scan) (hip : scan.metric ≠ .ip)
    (hpos : 1 ≤ scan.g.cuvsK) (hmode : scan.g.deltaSearch ≠ .gpu) (hne : scan.tids ≠ []) :
    io.Covers dist scan := by
  obtain ⟨server, e, rows, recs, hserver, H, hrecs, hindex⟩ := S.index
  have hreply : ∀ searchK, cuvsKWithTombstoneSlack scan.g io.a scan.g.cuvsK = some searchK →
      (scan.request io searchK).deltaMerged = false ∧
        IsNearest scan.metric.Nearer CuvsResult.distance searchK
          (whitelisted scan.tids (candidates (dist scan.metric scan.query.x) e.tids rows))
          (scan.request io searchK).results := by
    intro searchK hslack
    obtain ⟨k, hk, hkpos, hkmax⟩ := exists_tombstoneSlack (g := scan.g) hpos S.slack
    obtain rfl : searchK = k := Option.some.inj (hslack.symm.trans hk)
    exact (CsIpc.Streams.request S.route hserver H hip hne hkpos hkmax).2
  refine ⟨⟨_, recs, hrecs, hindex, fun searchK hslack _ => ?_⟩, S.alive, fun searchK hslack _ => ?_⟩
  · obtain ⟨hmerged, hnear⟩ := hreply searchK hslack
    rw [hmerged]
    exact .plain hnear
  · obtain ⟨hmerged, -⟩ := hreply searchK hslack
    rw [hmerged, doCpuMerge_false hmode]
    rfl

theorem CsIpc.Streams.build_ok (S : io.Streams dist scan) (hip : scan.metric ≠ .ip)
    (hpos : 1 ≤ scan.g.cuvsK) : ∃ results, cuvsCsBuild dist scan io = .ok results := by
  by_cases hne : scan.tids = []
  · exact ⟨[], by rw [cuvsCsBuild, if_pos hne]⟩
  · obtain ⟨server, e, rows, recs, hserver, H, hrecs, -⟩ := S.index
    obtain ⟨searchK, hslack, hkpos, hkmax⟩ := exists_tombstoneSlack (g := scan.g) hpos S.slack
    obtain ⟨hok, hmerged, hnear⟩ := CsIpc.Streams.request S.route hserver H hip hne hkpos hkmax
    have hmerge : ∃ merged, filteredKnnMerge scan.g io.a io.snap (dist scan.metric scan.query.x)
        scan.query.x.length searchK scan.metric scan.tids (scan.request io searchK) = .ok merged := by
      obtain ⟨R, hR, -⟩ := cuvsMergeDeltaFiltered_isNearest scan.tids_sorted hne hrecs hnear
      rw [filteredKnnMerge_eq]
      split_ifs
      · exact ⟨_, rfl⟩
      · rw [hR]
        exact ⟨_, rfl⟩
      · exact ⟨_, rfl⟩
    obtain ⟨merged, hmerged⟩ := hmerge
    refine ⟨merged.take scan.g.cuvsK, ?_⟩
    rw [cuvsCsBuild, if_neg hne, hslack]
    dsimp only
    rw [hok]
    dsimp only
    rw [hmerged]
    rfl

theorem CsIpc.Streams.nearest {results : List (CuvsResult D)} (S : io.Streams dist scan)
    (hip : scan.metric ≠ .ip) (hpos : 1 ≤ scan.g.cuvsK) (hmode : scan.g.deltaSearch ≠ .gpu)
    (h : cuvsCsBuild dist scan io = .ok results) :
    scan.Nearest dist (results.filterMap scan.view.item) := by
  by_cases hne : scan.tids = []
  · rw [cuvsCsBuild, if_pos hne] at h
    cases h
    exact scan.nearest_nil hne
  · exact cuvsCsBuild_nearest (S.covers hip hpos hmode hne) h

end Served

section Sample

def sampleStreamScan : CsScan := { sampleCsScan with rg := ⟨0, 1⟩ }

def sampleStreamRows : List Vec := [[3], [0]]

def sampleStreamArtifacts : Artifacts :=
  { Artifacts.empty with
    vectors := some ⟨cuvsVectorsWrite 1 .l2 0 sampleStreamRows, 7⟩
    tids := some (cuvsTidsWrite 1 .l2 [1, 458754])
    delta := some
      { content :=
          { header := some
              { cuvsDeltaHeaderInit 1 .l2 (cuvsTidsWrite 1 .l2 [1, 458754]).header.bodyCrc32 with
                nRows := 1 }
            body := [⟨458753, [1]⟩], tail := 0 }
        mtime := 7 } }

def sampleStreamEntry : IndexEntry :=
  { IndexEntry.zero with
    key := ⟨1, 2⟩, dim := 1, metric := .l2, nVecs := 2, tids := [1, 458754]
    revTids := some [1, 458754], revItemIds := some [0, 1] }

def sampleStreamServer : StreamServer ℕ where
  cfg := sampleConfig
  env := Env.quiet 9 0
  senv := SearchEnv.plain [0]
  kern := sortKernels .l2 ipDist
  daemon :=
    { Daemon.initial (fun _ => 0) fun _ _ => sampleStreamArtifacts with
      registry := ⟨[sampleStreamEntry], []⟩ }

def sampleStreamIpc : CsIpc ℕ where
  a := sampleStreamArtifacts
  snap := sampleSnapshot
  daemon :=
    { search := fun _ => selectReply []
      searchFiltered := fun _ _ => selectReply []
      searchStreamBf := sampleStreamServer.answer }

theorem sampleStream_holds :
    sampleStreamServer.Holds (fun _ => ipDist) sampleStreamScan sampleStreamArtifacts
      sampleStreamEntry sampleStreamRows where
  found := ⟨0, rfl⟩
  disk := rfl
  mapped :=
    { map := ⟨[1, 458754], [0, 1], rfl, rfl,
        { length_revTids := rfl
          sorted := by decide
          perm := .refl _
          paired := by
            rintro (_ | _ | j)
            · rfl
            · rfl
            · rfl }⟩
      distinct := by decide
      length_tids := rfl
      length_rows := rfl
      pos := Nat.two_pos }
  vectors := ⟨_, rfl, rfl, rfl, rfl, rfl, rfl⟩
  kernel := sortKernels_bruteForce .l2 .l2 ipDist [0] _
  fresh := rfl
  metric := rfl
  dim := rfl
  query := rfl

theorem sampleStream_streams : sampleStreamIpc.Streams (fun _ => ipDist) sampleStreamScan where
  route := by
    have hlen : sampleStreamScan.tids.length = 3 := by decide +kernel
    rw [hlen]
    simp [knnRoute, sampleStreamScan, sampleCsScan]
    norm_num
  slack := by decide +kernel
  index := by
    refine ⟨sampleStreamServer, sampleStreamEntry, sampleStreamRows, [⟨458753, [1]⟩], rfl,
      sampleStream_holds, by decide +kernel, ?_⟩
    have hrows : (whitelisted sampleStreamScan.tids
        (candidates (ipDist [0]) sampleStreamEntry.tids sampleStreamRows ++
          deltaCandidates (ipDist [0]) [⟨458753, [1]⟩])) =
        sampleStreamScan.view.qualifying.map (TableRow.result ipDist [0]) := by
      decide +kernel
    exact .of_eq hrows
  alive _ _ := rfl

end Sample

end PgCuvs
