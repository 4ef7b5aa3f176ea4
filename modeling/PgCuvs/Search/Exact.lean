import PgCuvs.Search.Deferred

/-! What the daemon replies when its kernels are exact. -/

namespace PgCuvs

open Selection

variable {D : Type}

def inCorpus (n : ℕ) (r : SearchResult D) : Bool := decide (0 ≤ r.itemId ∧ r.itemId < n)

def rankedRows (dist : Vec → D) (rows : List Vec) : List (SearchResult D) :=
  rows.zipIdx.map fun p => ⟨p.2, dist p.1⟩

def candidates (dist : Vec → D) (tids : List Tid) (rows : List Vec) : List (CuvsResult D) :=
  (tids.zip rows).map fun p => ⟨p.1, dist p.2⟩

theorem filterMap_itemResult {n : ℕ} {tids : List Tid} (l : List (SearchResult D)) :
    l.filterMap (itemResult n tids)
      = (l.filter (inCorpus n)).map fun r => ⟨tids.getD r.itemId.toNat 0, r.distance⟩ := by
  rw [← List.filterMap_eq_map, List.filterMap_filter]
  congr 1
  funext r
  by_cases h : 0 ≤ r.itemId ∧ r.itemId < n
  · rw [itemResult, if_neg (by omega)]
    simp [inCorpus, h]
  · rw [itemResult, if_pos (by omega)]
    simp [inCorpus, h]

theorem rankedRows_map (dist : Vec → D) {tids : List Tid} {rows : List Vec}
    (h : tids.length = rows.length) :
    ((rankedRows dist rows).map fun r => (⟨tids.getD r.itemId.toNat 0, r.distance⟩ : CuvsResult D))
      = candidates dist tids rows := by
  refine List.ext_getElem ?_ fun i h1 h2 => ?_
  · simp [rankedRows, candidates, h]
  · simp only [rankedRows, List.map_map, List.length_map, List.length_zipIdx] at h1
    simp [rankedRows, candidates, List.getElem?_eq_getElem (h ▸ h1)]

section Exact

variable [LinearOrder D] {metric : Metric} {dist : Vec → D}

/-- The slots of an exact kernel that name a row are the `k` nearest rows,
nearest first; the others are padding. -/
def ExactTopK (metric : Metric) (dist : Vec → D) (rows : List Vec) (k : ℕ)
    (out : List (SearchResult D)) : Prop :=
  IsNearest metric.Nearer SearchResult.distance k (rankedRows dist rows)
    ((out.take k).filter (inCorpus rows.length))

/-- The unfiltered kernels are exact for a query; the rows of a batched call
are exact at every depth up to the one asked for. -/
structure ExactKernels (kern : Kernels D) (metric : Metric) (query : Vec) (dist : Vec → D) :
    Prop where
  cagra : ∀ h k dev itopk width out, kern.cagraSearch h query k dev itopk width = .ok out →
    ExactTopK metric dist h.rows k out
  bf : ∀ b k dev out, kern.bfSearch b query k dev = .ok out → ExactTopK metric dist b.rows k out
  hnsw : ∀ h k out, kern.hnswSearch h query k = .ok out → ExactTopK metric dist h.rows k out
  cagraBatch : ∀ h queries k dev itopk width out q, queries[q]? = some query →
    kern.cagraSearchBatch h queries k dev itopk width = .ok out →
    ∀ j ≤ k, ExactTopK metric dist h.rows j (out.getD q [])
  bfBatch : ∀ b queries k dev out q, queries[q]? = some query →
    kern.bfSearchBatch b queries k dev = .ok out →
    ∀ j ≤ k, ExactTopK metric dist b.rows j (out.getD q [])

def sortedRows (metric : Metric) (dist : Vec → D) (rows : List Vec) (k : ℕ) :
    List (SearchResult D) :=
  ((rankedRows dist rows).insertionSort fun a b => metric.Nearer a.distance b.distance).take k

theorem sortedRows_exact (metric : Metric) (dist : Vec → D) (rows : List Vec) {j k : ℕ}
    (hjk : j ≤ k) : ExactTopK metric dist rows j (sortedRows metric dist rows k) := by
  have hnear : IsNearest metric.Nearer SearchResult.distance k (rankedRows dist rows)
      (sortedRows metric dist rows k) := isNearest_insertionSort k _
  have hcorpus : ((sortedRows metric dist rows k).take j).filter (inCorpus rows.length)
      = (sortedRows metric dist rows k).take j := by
    refine List.filter_eq_self.mpr fun r hr => ?_
    obtain ⟨p, hp, rfl⟩ := List.mem_map.mp (hnear.mem (List.mem_of_mem_take hr))
    have hlt := List.snd_lt_of_mem_zipIdx hp
    simp only [inCorpus, decide_eq_true_eq, Nat.cast_nonneg, true_and]
    omega
  rw [ExactTopK, hcorpus]
  exact hnear.take hjk

def sortKernels (metric : Metric) (dist : Vec → Vec → D) : Kernels D where
  cagraSearch h q k _ _ _ := .ok (sortedRows metric (dist q) h.rows k)
  cagraSearchFiltered h q k bits _ _ _ :=
    .ok ((sortedRows metric (dist q) h.rows h.rows.length).filter
      (fun r => !bits.getD r.itemId.toNat true) |>.take k)
  bfSearch b q k _ := .ok (sortedRows metric (dist q) b.rows k)
  bfSearchFiltered b q k bits _ :=
    .ok ((sortedRows metric (dist q) b.rows b.rows.length).filter
      (fun r => !bits.getD r.itemId.toNat true) |>.take k)
  bruteForceSearch rows q k m _ := .ok (sortedRows m (dist q) rows k)
  hnswSearch h q k := .ok (sortedRows metric (dist q) h.rows k)
  cagraSearchBatch h qs k _ _ _ := .ok (qs.map fun q => sortedRows metric (dist q) h.rows k)
  bfSearchBatch b qs k _ := .ok (qs.map fun q => sortedRows metric (dist q) b.rows k)

theorem sortKernels_exact (metric : Metric) (dist : Vec → Vec → D) (query : Vec) :
    ExactKernels (sortKernels metric dist) metric query (dist query) where
  cagra h k _ _ _ out hout := Except.ok.inj hout ▸ sortedRows_exact metric _ h.rows le_rfl
  bf b k _ out hout := Except.ok.inj hout ▸ sortedRows_exact metric _ b.rows le_rfl
  hnsw h k out hout := Except.ok.inj hout ▸ sortedRows_exact metric _ h.rows le_rfl
  cagraBatch h queries k _ _ _ out q hq hout j hj := by
    rw [← Except.ok.inj hout, List.getD_eq_getElem?_getD, List.getElem?_map, hq]
    exact sortedRows_exact metric _ h.rows hj
  bfBatch b queries k _ out q hq hout j hj := by
    rw [← Except.ok.inj hout, List.getD_eq_getElem?_getD, List.getElem?_map, hq]
    exact sortedRows_exact metric _ b.rows hj

theorem ExactTopK.results {rows : List Vec} {k : ℕ} {out : List (SearchResult D)}
    (h : ExactTopK metric dist rows k out) {tids : List Tid} (hlen : tids.length = rows.length) :
    IsNearest metric.Nearer CuvsResult.distance k (candidates dist tids rows)
      ((out.take k).filterMap (itemResult rows.length tids)) := by
  rw [filterMap_itemResult, ← rankedRows_map dist hlen]
  exact IsNearest.map h

theorem cagraFinishOne_isNearest {e : IndexEntry} {rows drows : List Vec} {dtids : List Tid}
    {k nDc : ℕ} {base draw : List (SearchResult D)}
    (hbase : ExactTopK metric dist rows k base) (htids : e.tids.length = rows.length)
    (hn : e.nVecs = rows.length) (hmetric : e.metric = metric)
    (hdraw : ExactTopK metric dist drows nDc draw) (hdtids : e.deltaTids = some dtids)
    (hdlen : dtids.length = drows.length) (hnd : e.nDelta = drows.length)
    (hnDc : nDc = min k drows.length) (hpos : 0 < nDc) :
    IsNearest metric.Nearer CuvsResult.distance k
      (candidates dist e.tids rows ++ candidates dist dtids drows)
      (cagraFinishOne e base k (some draw) nDc).2.1 := by
  have hb := hbase.results htids
  have hd := hdraw.results hdlen
  have hclen : (candidates dist dtids drows).length = drows.length := by
    simp [candidates, hdlen]
  have hmerge := isNearest_qsort metric k
    ((base.take k).filterMap (baseResult e) ++ (draw.take nDc).filterMap (deltaResult e))
  have hres : (cagraFinishOne e base k (some draw) nDc).2.1 = (qsort (candCmp metric)
      ((base.take k).filterMap (baseResult e) ++ (draw.take nDc).filterMap (deltaResult e))).take
        k := by
    simp only [cagraFinishOne, if_pos hpos, deltaCandCmp, hmetric]
  rw [hres]
  refine hb.append_append (hd.of_eq_min (hclen.symm ▸ hnDc)) le_rfl ?_
  simpa only [baseResult, deltaResult, hn, hnd, hdtids, Option.getD_some] using hmerge

def deltaCandidates (dist : Vec → D) (recs : List DeltaRecord) : List (CuvsResult D) :=
  recs.map fun r => ⟨r.tid, dist r.vec⟩

omit [LinearOrder D] in
theorem candidates_delta (dist : Vec → D) (recs : List DeltaRecord) :
    candidates dist (recs.map DeltaRecord.tid) (recs.map DeltaRecord.vec)
      = deltaCandidates dist recs := by
  simp [candidates, deltaCandidates, List.zip_map', Function.comp_def]

/-- Selected from the base rows, or from base and pending rows when the delta
was merged. -/
def NearestOf (metric : Metric) (k : ℕ) (base pending : List (CuvsResult D))
    (results : List (CuvsResult D)) (merged : Bool) : Prop :=
  IsNearest metric.Nearer CuvsResult.distance k (if merged then base ++ pending else base) results

theorem NearestOf.plain {k : ℕ} {base pending results : List (CuvsResult D)}
    (h : IsNearest metric.Nearer CuvsResult.distance k base results) :
    NearestOf metric k base pending results false := h

def DrawFrom (metric : Metric) (dist : Vec → D) (k : ℕ) (e : IndexEntry)
    (draw : Option (List (SearchResult D))) (nDc : ℕ) : Prop :=
  ∀ out, draw = some out →
    ∃ b, e.deltaIdx = some b ∧ nDc = min k e.nDelta ∧ ExactTopK metric dist b.rows nDc out

theorem cagraFinishOne_nearestOf {e : IndexEntry} {rows : List Vec} {recs : List DeltaRecord}
    {k nDc : ℕ} {base : List (SearchResult D)} {draw : Option (List (SearchResult D))}
    (hbase : ExactTopK metric dist rows k base) (htids : e.tids.length = rows.length)
    (hn : e.nVecs = rows.length) (hmetric : e.metric = metric) (hdelta : DeltaCacheHolds e recs)
    (hdraw : DrawFrom metric dist k e draw nDc) :
    NearestOf metric k (candidates dist e.tids rows) (deltaCandidates dist recs)
      (cagraFinishOne e base k draw nDc).2.1 (cagraFinishOne e base k draw nDc).2.2 := by
  have hplain := hbase.results htids
  cases draw with
  | none => simpa only [cagraFinishOne, baseResult, hn] using NearestOf.plain hplain
  | some out =>
    rcases Nat.eq_zero_or_pos nDc with rfl | hpos
    · simpa only [cagraFinishOne, lt_self_iff_false, if_false, baseResult, hn]
        using NearestOf.plain hplain
    · obtain ⟨b, hb, hnDc, hexact⟩ := hdraw out rfl
      obtain ⟨hrows, hdtids, hnd⟩ := hdelta b hb
      have hlen : e.nDelta = b.rows.length := by simp [hnd, hrows]
      have hfinish := cagraFinishOne_isNearest hbase htids hn hmetric hexact hdtids
        (by simp [hrows]) hlen (by rw [hnDc, hlen]) hpos
      rw [hrows, candidates_delta] at hfinish
      simpa only [NearestOf, cagraFinishOne, if_pos hpos, if_true] using hfinish

theorem bkDepth_unfiltered (k mainBfN nVecs : ℕ) : bkDepth k 0 mainBfN nVecs = min k mainBfN := by
  simp only [bkDepth, bkTarget, if_true]
  omega

section Replies

variable {cfg : Config} {env : Env} {senv : SearchEnv} {kern : Kernels D} {d d' : Daemon}
  {i : ℕ} {e : IndexEntry} {frame : SearchFrame} {query : Vec} {r : SearchReply D}

omit [LinearOrder D] in
theorem answerEntry_reply {k : ℕ} {mode : SearchMode} {results : List (CuvsResult D)}
    {merged : Bool} (h : answerEntry env senv d i e k mode results merged = .reply d' r) :
    r.results = results ∧ r.deltaMerged = merged ∧ r.status = .ok := by
  cases h
  exact ⟨rfl, rfl, rfl⟩

omit [LinearOrder D] in
theorem failEntry_reply {status : Status} {error : String}
    (h : failEntry env d i e status error = .reply d' r) : r.status = status := by
  cases h
  rfl

/-- An unfiltered brute-force search answers the nearest rows of its corpus. -/
theorem searchDWedge_isNearest {b : BfIndex} (K : ExactKernels kern metric query dist)
    (hfilter : frame.nFilterTids = 0) (hn : e.nVecs = b.rows.length)
    (hmain : e.mainBfN = b.rows.length) (htids : e.tids.length = b.rows.length)
    (h : searchDWedge cfg env senv kern d i e b frame query = .reply d' r)
    (hok : r.status = .ok) :
    r.deltaMerged = false ∧
      IsNearest metric.Nearer CuvsResult.distance frame.k (candidates dist e.tids b.rows)
        r.results := by
  have hclen : (candidates dist e.tids b.rows).length = b.rows.length := by
    simp [candidates, htids]
  simp only [searchDWedge, hfilter, bkDepth_unfiltered, hmain, lt_self_iff_false, if_false,
    cuvsFilterFrameRefuses, decide_false, Bool.false_and, Bool.false_eq_true] at h
  split at h
  · split_ifs at h <;> simp [failEntry_reply h] at hok
  · rename_i raw hraw
    obtain ⟨hres, hmerged, -⟩ := answerEntry_reply h
    refine ⟨hmerged, ?_⟩
    have hexact : ExactTopK metric dist b.rows (min frame.k b.rows.length) raw := by
      split_ifs at hraw with hpos
      · exact K.bf _ _ _ _ hraw
      · obtain rfl : [] = raw := Except.ok.inj hraw
        refine ⟨by simp, by simp; omega, rankedRows dist b.rows, by simp, by simp⟩
    have hnear := (hexact.results htids).of_eq_min (by rw [hclen])
    rw [hres, whitelistResults, List.filter_true, List.take_of_length_le, baseResult, hn]
    · exact hnear
    · rw [baseResult, hn]
      exact hnear.length_le

theorem searchDelta_drawFrom
    (K : ∀ b k dev out, kern.bfSearch b query k dev = .ok out →
      ExactTopK metric dist b.rows k out)
    (k device : ℕ) (e : IndexEntry) :
    DrawFrom metric dist k e (searchDelta kern query k device e).1
      (searchDelta kern query k device e).2 := by
  intro out hout
  simp only [searchDelta] at hout ⊢
  split at hout
  · cases hout
  · rename_i b hb
    split_ifs at hout ⊢ with hzero
    cases hkern : kern.bfSearch b query (min k e.nDelta) device with
    | error rc => simp [hkern] at hout
    | ok draw =>
      simp only [hkern, Option.some.injEq] at hout ⊢
      exact ⟨b, hb, trivial, hout ▸ K _ _ _ _ hkern⟩

/-- The immediate CAGRA path answers the nearest rows of the base, or of base
and delta together when it says that it merged the delta. -/
theorem searchCagra_nearestOf {g : Cagra} {recs : List DeltaRecord}
    (K : ExactKernels kern metric query dist) (hg : e.handle = some g)
    (hn : e.nVecs = g.rows.length) (htids : e.tids.length = g.rows.length)
    (hmetric : e.metric = metric)
    (hdelta : DeltaCacheHolds
      (refreshDeltaCache (d.disk cfg.indexDir e.key) (hasRoom env d i) env.bfBuilds e) recs)
    (h : searchCagra cfg env senv kern d i e frame query = .reply d' r)
    (hok : r.status = .ok) :
    NearestOf metric frame.k (candidates dist e.tids g.rows) (deltaCandidates dist recs)
      r.results r.deltaMerged := by
  simp only [searchCagra, hg] at h
  split at h
  · split_ifs at h <;> simp [failEntry_reply h] at hok
  · rename_i raw hraw
    obtain ⟨hres, hmerged, -⟩ := answerEntry_reply h
    rw [hres, hmerged, ← refreshDeltaCache_tids e]
    exact cagraFinishOne_nearestOf (K.cagra _ _ _ _ _ _ hraw) (by simpa using htids)
      (by simpa using hn) (by simpa using hmetric) hdelta (searchDelta_drawFrom K.bf _ _ _)

end Replies

end Exact

end PgCuvs
