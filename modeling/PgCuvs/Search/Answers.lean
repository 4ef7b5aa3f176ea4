import Mathlib.Data.List.MinMax
import PgCuvs.Search.Exact

/-! Every way an unfiltered search is answered, with the rows its answer is
selected from. -/

namespace PgCuvs

open Selection

variable {D : Type} [LinearOrder D] {metric : Metric} {dist : Vec → D} {query : Vec}
  {rows : List Vec} {recs : List DeltaRecord} {cfg : Config} {env : Env} {senv : SearchEnv}
  {kern : Kernels D} {d d' : Daemon} {i : ℕ} {e : IndexEntry} {frame : SearchFrame}
  {r : SearchReply D}

/-- Everything an entry can answer from holds the same base rows. -/
structure HoldsRows (metric : Metric) (rows : List Vec) (e : IndexEntry) : Prop where
  nVecs : e.nVecs = rows.length
  tids : e.tids.length = rows.length
  metric : e.metric = metric
  handle : ∀ g, e.handle = some g → g.rows = rows
  mainBf : ∀ b, e.mainBfIdx = some b → b.rows = rows ∧ e.mainBfN = rows.length
  hnsw : ∀ h, e.hnswIdx = some h → h.rows = rows

theorem searchBruteForce_answers (K : ExactKernels kern metric query dist)
    (hfilter : frame.nFilterTids = 0)
    (H : HoldsRows metric rows (refreshMainBfCache (d.disk cfg.indexDir e.key) (hasRoom env d i)
      env.bfBuilds frame.bfPrecision e))
    (h : searchBruteForce cfg env senv kern d i e frame query = .reply d' r)
    (hok : r.status = .ok) :
    r.deltaMerged = false ∧
      IsNearest metric.Nearer CuvsResult.distance frame.k (candidates dist e.tids rows)
        r.results := by
  have hpre : ∀ e, tryPrefilter kern senv frame query e = (e, none) := by
    intro e
    simp only [tryPrefilter, hfilter, lt_self_iff_false, and_false, if_false]
  simp only [searchBruteForce, hpre] at h
  set e' := refreshMainBfCache (d.disk cfg.indexDir e.key) (hasRoom env d i) env.bfBuilds
    frame.bfPrecision e with he'
  have htids : e'.tids = e.tids := refreshMainBfCache_tids e
  split at h
  · simp [failEntry_reply h] at hok
  · split at h
    · simp [failEntry_reply h] at hok
    · rename_i b hb
      obtain ⟨hrows, hmain⟩ := H.mainBf b hb
      rw [← htids, ← hrows]
      exact searchDWedge_isNearest K hfilter (by rw [H.nVecs, hrows]) (by rw [hmain, hrows])
        (by rw [H.tids, hrows]) h hok

def graphEntry (a : Artifacts) (senv : SearchEnv) (frame : SearchFrame) (e : IndexEntry) :
    IndexEntry :=
  if frame.useCpuHnsw then loadHnsw a senv e else e

theorem graphEntry_field {β : Type*} (f : IndexEntry → β)
    (hf : ∀ e h, f { e with hnswIdx := h } = f e) (a : Artifacts) (e : IndexEntry) :
    f (graphEntry a senv frame e) = f e := by
  unfold graphEntry loadHnsw
  split_ifs
  · rfl
  · exact hf e _
  · rfl

omit [LinearOrder D] in
theorem tryCpuHnsw_cases (a : Artifacts) (kern : Kernels D) (query : Vec) (e : IndexEntry) :
    tryCpuHnsw a senv kern frame query e = (graphEntry a senv frame e, none) ∨
      ∃ g raw, (graphEntry a senv frame e).hnswIdx = some g ∧
        kern.hnswSearch g query frame.k = .ok raw ∧
        tryCpuHnsw a senv kern frame query e = (graphEntry a senv frame e,
          some ((raw.take frame.k).filterMap (baseResult (graphEntry a senv frame e)))) := by
  unfold tryCpuHnsw graphEntry
  split_ifs
  · simp only
    split
    · exact .inl rfl
    · rename_i g hg
      split
      · rename_i raw hraw
        exact .inr ⟨g, raw, hg, hraw, rfl⟩
      · exact .inl rfl
  · exact .inl rfl

theorem searchGraph_answers (K : ExactKernels kern metric query dist)
    (H : HoldsRows metric rows (graphEntry (d.disk cfg.indexDir e.key) senv frame e))
    (hdelta : DeltaCacheHolds
      (refreshDeltaCache (d.disk cfg.indexDir e.key)
        (hasRoom env (d.setEntry i (graphEntry (d.disk cfg.indexDir e.key) senv frame e)) i)
        env.bfBuilds (graphEntry (d.disk cfg.indexDir e.key) senv frame e)) recs)
    (h : searchGraph cfg env senv kern d i e frame query = .reply d' r)
    (hok : r.status = .ok) :
    NearestOf metric frame.k (candidates dist e.tids rows) (deltaCandidates dist recs)
      r.results r.deltaMerged := by
  set A := d.disk cfg.indexDir e.key
  have htids : (graphEntry A senv frame e).tids = e.tids :=
    graphEntry_field IndexEntry.tids (fun _ _ => rfl) A e
  have hkey : (graphEntry A senv frame e).key = e.key :=
    graphEntry_field IndexEntry.key (fun _ _ => rfl) A e
  simp only [searchGraph] at h
  rcases tryCpuHnsw_cases A kern query e with hnone | ⟨g, raw, hg, hraw, hsome⟩
  · rw [hnone] at h
    simp only at h
    split_ifs at h
    cases hhandle : (graphEntry A senv frame e).handle with
    | none =>
      simp only [searchCagra, hhandle] at h
      simp [failEntry_reply h] at hok
    | some g =>
      rw [← htids, ← H.handle g hhandle]
      exact searchCagra_nearestOf K hhandle (by rw [H.nVecs, H.handle g hhandle])
        (by rw [H.tids, H.handle g hhandle]) H.metric (by rwa [Daemon.setEntry_disk, hkey]) h hok
  · rw [hsome] at h
    obtain ⟨hres, hmerged, -⟩ := answerEntry_reply h
    have hexact := K.hnsw _ _ _ hraw
    rw [H.hnsw g hg] at hexact
    have hn := hexact.results H.tids
    rw [htids] at hn
    rw [hmerged, hres]
    simpa only [baseResult, H.nVecs, htids] using NearestOf.plain hn

theorem searchEntry_answers (K : ExactKernels kern metric query dist)
    (hfilter : frame.nFilterTids = 0) (hshards : e.shardCount < 2)
    (Hbf : HoldsRows metric rows (refreshMainBfCache (d.disk cfg.indexDir e.key) (hasRoom env d i)
      env.bfBuilds frame.bfPrecision e))
    (Hgraph : HoldsRows metric rows (graphEntry (d.disk cfg.indexDir e.key) senv frame e))
    (hdelta : DeltaCacheHolds
      (refreshDeltaCache (d.disk cfg.indexDir e.key)
        (hasRoom env (d.setEntry i (graphEntry (d.disk cfg.indexDir e.key) senv frame e)) i)
        env.bfBuilds (graphEntry (d.disk cfg.indexDir e.key) senv frame e)) recs)
    (h : searchEntry cfg env senv kern d i e frame query = .reply d' r)
    (hok : r.status = .ok) :
    NearestOf metric frame.k (candidates dist e.tids rows) (deltaCandidates dist recs)
      r.results r.deltaMerged := by
  simp only [searchEntry] at h
  split_ifs at h with hbf hgate hroom hsharded
  · obtain ⟨hm, hn⟩ := searchBruteForce_answers K hfilter Hbf h hok
    rw [hm]
    exact NearestOf.plain hn
  · omega
  · exact searchGraph_answers K Hgraph hdelta h hok

section Batch

variable {latencyUs : ℕ} {r0 req : BatchRequest} {reqs : List BatchRequest} {q : ℕ}

omit [LinearOrder D] in
theorem cagraFinishOne_stats [LT D] [DecidableLT D] (e : IndexEntry) (s : SearchStats)
    (base : List (SearchResult D)) (k : ℕ) (draw : Option (List (SearchResult D))) (nDc : ℕ) :
    (cagraFinishOne { e with stats := s } base k draw nDc).2
      = (cagraFinishOne e base k draw nDc).2 := by
  unfold cagraFinishOne
  cases draw with
  | none => rfl
  | some draw =>
    simp only
    split_ifs <;> rfl

omit [LinearOrder D] in
theorem finishGroup_getElem? [LT D] [DecidableLT D] (kMax nDc : ℕ)
    (raw : List (List (SearchResult D))) (draw : Option (List (List (SearchResult D))))
    (e : IndexEntry) (reqs : List BatchRequest) (q0 q : ℕ) :
    (finishGroup latencyUs kMax nDc raw draw q0 e reqs).2[q]? = reqs[q]?.map fun r =>
      let p := (cagraFinishOne e ((raw.getD (q0 + q) []).take kMax) r.k
        (draw.map fun rows => rows.getD (q0 + q) []) (min nDc r.k)).2
      batchAnswer latencyUs p.2 p.1 := by
  induction reqs generalizing q0 e q with
  | nil => rfl
  | cons r rs ih =>
    cases q with
    | zero => rfl
    | succ q =>
      obtain ⟨s, hs⟩ := cagraFinishOne_fst e ((raw.getD q0 []).take kMax) r.k
        (draw.map fun rows => rows.getD q0 []) (min nDc r.k)
      simp only [finishGroup, List.getElem?_cons_succ, ih, hs, cagraFinishOne_stats,
        Nat.add_right_comm q0 1 q, Nat.add_assoc]

theorem searchDeltaBatch_drawFrom (K : ExactKernels kern metric query dist)
    {queries : List Vec} {k kMax : ℕ} (hq : queries[q]? = some query) (hk : k ≤ kMax)
    (e : IndexEntry) :
    DrawFrom metric dist k e
      ((searchDeltaBatch kern queries kMax e).1.map fun rows => rows.getD q [])
      (min (searchDeltaBatch kern queries kMax e).2 k) := by
  intro out hout
  simp only [searchDeltaBatch] at hout ⊢
  split at hout
  · cases hout
  · rename_i b hb
    by_cases hzero : e.nDelta = 0
    · simp [hzero] at hout
    · simp only [if_neg hzero] at hout ⊢
      cases hkern : kern.bfSearchBatch b queries (min kMax e.nDelta) e.gpuDeviceId with
      | error rc => simp [hkern] at hout
      | ok draw =>
        simp only [hkern, Option.map_some, Option.some.injEq] at hout ⊢
        refine ⟨b, hb, by omega, ?_⟩
        rw [← hout]
        exact K.bfBatch _ _ _ _ _ _ hq hkern _ (Nat.min_le_left ..)

omit [LinearOrder D] in
theorem failFound_reply {status : Status}
    (h : (failFound (D := D) env d i e reqs status).2[q]? = some r) : r.status = status := by
  simp only [failFound, failGroup, List.getElem?_map, Option.map_eq_some_iff] at h
  obtain ⟨_, _, rfl⟩ := h
  rfl

theorem groupK_le (hreq : reqs[q]? = some req) :
    req.k ≤ (reqs.map BatchRequest.k).foldr max 0 :=
  List.le_max_of_le' 0 (List.mem_map_of_mem (List.mem_of_getElem? hreq)) le_rfl

/-- An answer of a coalesced CAGRA group, mapped through the entry it found. -/
theorem cagraBatchRunGroup_answers (K : ExactKernels kern metric query dist)
    (hfound : batchResolve cfg env d r0.key.key = (d', some (i, e)))
    (H : HoldsRows metric rows e)
    (hdelta : DeltaCacheHolds
      (refreshDeltaCache (d'.disk cfg.indexDir e.key) (hasRoom env d' i) env.bfBuilds e) recs)
    (hreq : reqs[q]? = some req) (hquery : req.query = query)
    (h : (cagraBatchRunGroup cfg env kern latencyUs d r0 reqs).2[q]? = some r)
    (hok : r.status = .ok) :
    NearestOf metric req.k (candidates dist e.tids rows) (deltaCandidates dist recs)
      r.results r.deltaMerged := by
  have hq : (reqs.map BatchRequest.query)[q]? = some query := by
    rw [List.getElem?_map, hreq, Option.map_some, hquery]
  have hk := groupK_le hreq
  simp only [cagraBatchRunGroup, hfound] at h
  split_ifs at h with hstale
  · simp [failFound_reply h] at hok
  · split at h
    · simp [failFound_reply h] at hok
    · rename_i g hg
      split at h
      · simp [failFound_reply h] at hok
      · rename_i raw hraw
        rw [finishGroup_getElem?, hreq, Option.map_some, Option.some.injEq] at h
        subst h
        set e' := refreshDeltaCache (d'.disk cfg.indexDir e.key) (hasRoom env d' i)
          env.bfBuilds e
        simp only [Nat.zero_add, batchAnswer]
        have hbase := K.cagraBatch _ _ _ _ _ _ _ _ hq hraw _ hk
        rw [H.handle g hg] at hbase
        rw [← refreshDeltaCache_tids e]
        refine cagraFinishOne_nearestOf ?_ (by simpa using H.tids) (by simpa using H.nVecs)
          (by simpa using H.metric) hdelta (searchDeltaBatch_drawFrom K hq hk _)
        simpa only [ExactTopK, List.take_take, Nat.min_eq_left hk] using hbase

theorem bfBatchRunGroup_answers (K : ExactKernels kern metric query dist)
    (hfound : batchResolve cfg env d r0.key.key = (d', some (i, e)))
    (H : HoldsRows metric rows (refreshMainBfCache (d'.disk cfg.indexDir e.key)
      (hasRoom env d' i) env.bfBuilds r0.key.precision e))
    (hreq : reqs[q]? = some req) (hquery : req.query = query)
    (h : (bfBatchRunGroup cfg env kern latencyUs d r0 reqs).2[q]? = some r)
    (hok : r.status = .ok) :
    r.deltaMerged = false ∧
      IsNearest metric.Nearer CuvsResult.distance req.k (candidates dist e.tids rows)
        r.results := by
  have hq : (reqs.map BatchRequest.query)[q]? = some query := by
    rw [List.getElem?_map, hreq, Option.map_some, hquery]
  have hk := groupK_le hreq
  have htids : (refreshMainBfCache (d'.disk cfg.indexDir e.key) (hasRoom env d' i) env.bfBuilds
      r0.key.precision e).tids = e.tids := refreshMainBfCache_tids e
  simp only [bfBatchRunGroup, hfound] at h
  split_ifs at h with hstale
  · simp [failFound_reply h] at hok
  · set e' := refreshMainBfCache (d'.disk cfg.indexDir e.key) (hasRoom env d' i) env.bfBuilds
      r0.key.precision e
    split at h
    · simp [failFound_reply h] at hok
    · rename_i b hb
      split at h
      · simp [failFound_reply h] at hok
      · rename_i raw hraw
        simp only [List.getElem?_map, List.getElem?_zipIdx, hreq, Option.map_some, Nat.zero_add,
          Option.some.injEq] at h
        subst h
        refine ⟨rfl, ?_⟩
        have hexact := K.bfBatch _ _ _ _ _ _ hq hraw _ (Nat.min_le_right req.k _)
        rw [(H.mainBf b hb).1] at hexact
        have hnear := hexact.results H.tids
        rw [htids] at hnear
        simp only [batchAnswer, baseResult, H.nVecs, htids] at hnear ⊢
        refine hnear.of_eq_min ?_
        have hlen : (candidates dist e.tids rows).length = rows.length := by
          simp [candidates, ← htids, H.tids]
        rw [hlen]
        omega

end Batch

section Sharded

variable {f : Fanout} {a : ShardSearchArg}

/-- The rows a shard is searched on are its slice of the corpus. -/
structure HoldsSlice (rows : List Vec) (k overfetch : ℕ) (a : ShardSearchArg) : Prop where
  bound : a.tidOffset + a.shardNVecs ≤ rows.length
  sk : a.sk = min a.shardNVecs (effK k overfetch)
  bf : ∀ b, a.useBf = true → a.bfIdx = some b →
    b.rows = (rows.drop a.tidOffset).take a.shardNVecs
  handle : ∀ g, a.useBf = false → a.handle = some g →
    g.rows = (rows.drop a.tidOffset).take a.shardNVecs

/-- Consecutive slices that end with the corpus. -/
def SlicesCover (n : ℕ) : ℕ → List ShardSearchArg → Prop
  | off, [] => n ≤ off
  | off, a :: as => a.tidOffset = off ∧ SlicesCover n (off + a.shardNVecs) as

omit [LinearOrder D] in
theorem flatMap_slices {α : Type*} (l : List α) (off : ℕ) (args : List ShardSearchArg)
    (h : SlicesCover l.length off args) :
    args.flatMap (fun a => (l.drop a.tidOffset).take a.shardNVecs) = l.drop off := by
  induction args generalizing off with
  | nil => exact (List.drop_eq_nil_of_le h).symm
  | cons a as ih =>
    obtain ⟨rfl, hrest⟩ := h
    rw [List.flatMap_cons, ih _ hrest, ← List.drop_drop, List.take_append_drop]

omit [LinearOrder D] in
theorem candidates_slice (tids : List Tid) (off n : ℕ) :
    candidates dist ((tids.drop off).take n) ((rows.drop off).take n)
      = ((candidates dist tids rows).drop off).take n := by
  simp only [candidates, ← List.map_drop, ← List.map_take, List.zip, List.drop_zipWith,
    List.take_zipWith]

omit [LinearOrder D] in
theorem shardCandidates_eq (hn : e.nVecs = rows.length) (htids : e.tids.length = rows.length)
    (hbound : a.tidOffset + a.shardNVecs ≤ rows.length) (out : List (SearchResult D)) :
    shardCandidates e a out = (out.take a.sk).filterMap
      (itemResult a.shardNVecs ((e.tids.drop a.tidOffset).take a.shardNVecs)) := by
  unfold shardCandidates
  congr 1
  funext r
  unfold itemResult
  split_ifs with hpad
  · rfl
  · have hlt : r.itemId.toNat < a.shardNVecs := by omega
    have hin : ¬ e.nVecs ≤ a.tidOffset + r.itemId.toNat := by omega
    simp [List.getD_eq_getElem?_getD, List.getElem?_drop, hlt, hin]

theorem shardSearchWorker_exact (K : ExactKernels kern metric query dist)
    (H : HoldsSlice rows frame.k frame.shardOverfetch a) {out : List (SearchResult D)}
    (h : shardSearchWorker kern frame query a = .ok out) :
    ExactTopK metric dist ((rows.drop a.tidOffset).take a.shardNVecs) a.sk out := by
  unfold shardSearchWorker at h
  split_ifs at h with hzero hbf
  · obtain rfl := Except.ok.inj h
    rw [hzero]
    exact ⟨by simp, by simp, rankedRows dist ((rows.drop a.tidOffset).take a.shardNVecs),
      by simp, by simp⟩
  · split at h
    · rename_i b hb
      rw [← H.bf b hbf hb]
      exact K.bf _ _ _ _ h
    · cases h
  · split at h
    · rename_i g hg
      rw [← H.handle g (by simpa using hbf) hg]
      exact K.cagra _ _ _ _ _ _ h
    · cases h

structure SliceExact (metric : Metric) (dist : Vec → D) (rows : List Vec) (k : ℕ)
    (a : ShardSearchArg) (out : List (SearchResult D)) : Prop where
  bound : a.tidOffset + a.shardNVecs ≤ rows.length
  depth : min k a.shardNVecs ≤ a.sk ∧ a.sk ≤ a.shardNVecs
  exact : ExactTopK metric dist ((rows.drop a.tidOffset).take a.shardNVecs) a.sk out

theorem shardCandidates_isNearest {k : ℕ} {args : List ShardSearchArg}
    {out : ShardSearchArg → List (SearchResult D)} {Y R : List (CuvsResult D)}
    (hn : e.nVecs = rows.length) (htids : e.tids.length = rows.length)
    (hslices : ∀ a ∈ args, SliceExact metric dist rows k a (out a))
    (hcover : SlicesCover rows.length 0 args)
    (h : IsNearest metric.Nearer CuvsResult.distance k
      (args.flatMap (fun a => shardCandidates e a (out a)) ++ Y) R) :
    IsNearest metric.Nearer CuvsResult.distance k (candidates dist e.tids rows ++ Y) R := by
  have hlen : (candidates dist e.tids rows).length = rows.length := by simp [candidates, htids]
  have hwhole := flatMap_slices (candidates dist e.tids rows) 0 args (hlen.symm ▸ hcover)
  rw [List.drop_zero] at hwhole
  rw [← hwhole]
  refine IsNearest.flatMap (fun a ha => ?_) h
  have H := hslices a ha
  have hbound := H.bound
  have hslice : ((rows.drop a.tidOffset).take a.shardNVecs).length = a.shardNVecs := by
    simp only [List.length_take, List.length_drop]
    omega
  have htidSlice : ((e.tids.drop a.tidOffset).take a.shardNVecs).length
      = ((rows.drop a.tidOffset).take a.shardNVecs).length := by simp [htids]
  have hres := H.exact.results htidSlice
  rw [hslice, ← shardCandidates_eq hn htids hbound, candidates_slice] at hres
  have hpiece : (((candidates dist e.tids rows).drop a.tidOffset).take a.shardNVecs).length
      = a.shardNVecs := by
    rw [List.length_take, List.length_drop, hlen]
    omega
  refine ⟨max k a.sk, le_max_left _ _, hres.of_eq_min ?_⟩
  rw [hpiece]
  have hdepth := H.depth
  omega

omit [LinearOrder D] in
theorem exceptFailed_eq_false {ε α : Type*} {x : Except ε α} (h : exceptFailed x = false) :
    ∃ a, x = .ok a := by
  cases x with
  | error => cases h
  | ok a => exact ⟨a, rfl⟩

/-- A fanout whose slices make up the corpus answers like one search over it. -/
theorem finishFanout_merges
    (K : ∀ b k dev out, kern.bfSearch b f.query k dev = .ok out →
      ExactTopK metric dist b.rows k out)
    (hfound : (findIndex d.live f.key).bind (fun i => d.live[i]?.map fun e => (i, e))
      = some (i, e))
    (hn : e.nVecs = rows.length) (htids : e.tids.length = rows.length) (hmetric : e.metric = metric)
    (hslices : ∀ a ∈ f.args, ∃ out, shardSearchWorker kern f.frame f.query a = .ok out ∧
      SliceExact metric dist rows f.frame.k a out)
    (hcover : SlicesCover rows.length 0 f.args)
    (hdelta : DeltaCacheHolds (refreshDeltaCache (d.disk cfg.indexDir e.key)
      (hasRoom env d i) env.bfBuilds
      (recordFanout (f.args.map fun a => (a, shardSearchWorker kern f.frame f.query a)) e)) recs) :
    (finishFanout cfg env senv kern d f).2.status = .ok ∧
    NearestOf metric f.frame.k (candidates dist e.tids rows) (deltaCandidates dist recs)
      (finishFanout cfg env senv kern d f).2.results
      (finishFanout cfg env senv kern d f).2.deltaMerged := by
  simp only [finishFanout, hfound]
  set outs := f.args.map fun a => (a, shardSearchWorker kern f.frame f.query a)
  set e1 := recordFanout outs e
  have hran : ¬ (outs.any fun o => exceptFailed o.2) = true := by
    simp only [outs, List.any_map, List.any_eq_true, not_exists, not_and, Function.comp_apply]
    intro a ha
    obtain ⟨out, hout, -⟩ := hslices a ha
    simp [hout, exceptFailed]
  rw [if_neg hran]
  have hexact : ∀ a ∈ f.args, SliceExact metric dist rows f.frame.k a
      ((shardSearchWorker kern f.frame f.query a).toOption.getD []) := by
    intro a ha
    obtain ⟨out, hout, H⟩ := hslices a ha
    rw [hout]
    exact H
  -- the nearest of the shard replies are the nearest of the base, whatever is merged on top
  have hbase : ∀ {Y R}, IsNearest metric.Nearer CuvsResult.distance f.frame.k
      (outs.flatMap (fun o => shardCandidates e1 o.1 (o.2.toOption.getD [])) ++ Y) R →
      IsNearest metric.Nearer CuvsResult.distance f.frame.k
        (candidates dist e.tids rows ++ Y) R := by
    intro Y R h
    rw [List.flatMap_map] at h
    exact shardCandidates_isNearest (e := e1) hn htids hexact hcover h
  have hsort := fun Y => isNearest_qsort metric f.frame.k
    (outs.flatMap (fun o => shardCandidates e1 o.1 (o.2.toOption.getD [])) ++ Y)
  refine ⟨by cases f.useBf <;> simp [mergeFanout, recordAnswer], ?_⟩
  -- the brute-force route leaves the pending rows to the backend
  cases huse : f.useBf with
  | true =>
    have hsel := hbase (hsort [])
    rw [List.append_nil] at hsel
    rw [← show e1.metric = metric from hmetric] at hsel ⊢
    simpa [mergeFanout, recordAnswer, deltaCandCmp] using NearestOf.plain hsel
  | false =>
    simp only [Bool.false_eq_true, if_false]
    set e2 := refreshDeltaCache (d.disk cfg.indexDir e1.key) (hasRoom env d i) env.bfBuilds e1
    have hdraw := searchDelta_drawFrom K f.frame.k (deltaGpuOf e2) e2
    have hmetric2 : e2.metric = metric := (refreshDeltaCache_metric e1).trans hmetric
    rcases hsearch : searchDelta kern f.query f.frame.k (deltaGpuOf e2) e2 with ⟨draw, nDc⟩
    rw [hsearch] at hdraw
    cases draw with
    | none =>
      have hsel := hbase (hsort [])
      rw [List.append_nil] at hsel
      simpa [mergeFanout, recordAnswer, deltaCandCmp, hmetric2] using NearestOf.plain hsel
    | some out =>
      obtain ⟨b, hb, hnDc, hexact⟩ := hdraw out rfl
      have hdelta2 : DeltaCacheHolds e2 recs := hdelta
      obtain ⟨hrows, hdtids, hnd⟩ := hdelta2 b hb
      have hlen : (recs.map DeltaRecord.tid).length = b.rows.length := by simp [hrows]
      have hpending := hexact.results hlen
      rw [hrows, candidates_delta] at hpending
      have hnear : IsNearest metric.Nearer CuvsResult.distance f.frame.k
          (deltaCandidates dist recs) ((out.take nDc).filterMap (deltaResult e2)) := by
        simp only [deltaResult, hdtids, hnd, Option.getD_some]
        refine IsNearest.of_eq_min (j := nDc) (by simpa using hpending) ?_
        rw [deltaCandidates, List.length_map, ← hnd]
        exact hnDc
      have hsel := hbase (hsort ((out.take nDc).filterMap (deltaResult e2)))
      have hboth := (hnear.append le_rfl (hsel.perm List.perm_append_comm)).perm
        List.perm_append_comm
      simpa [NearestOf, mergeFanout, recordAnswer, deltaCandCmp, hmetric2] using hboth

theorem HoldsSlice.exact {out : List (SearchResult D)} (K : ExactKernels kern metric query dist)
    (H : HoldsSlice rows frame.k frame.shardOverfetch a)
    (h : shardSearchWorker kern frame query a = .ok out) :
    SliceExact metric dist rows frame.k a out where
  bound := H.bound
  depth := by
    have hk := le_effK frame.k frame.shardOverfetch
    rw [H.sk]
    omega
  exact := shardSearchWorker_exact K H h

theorem finishFanout_answers (K : ExactKernels kern metric f.query dist)
    (hfound : (findIndex d.live f.key).bind (fun i => d.live[i]?.map fun e => (i, e))
      = some (i, e))
    (hn : e.nVecs = rows.length) (htids : e.tids.length = rows.length) (hmetric : e.metric = metric)
    (hslices : ∀ a ∈ f.args, HoldsSlice rows f.frame.k f.frame.shardOverfetch a)
    (hcover : SlicesCover rows.length 0 f.args)
    (hdelta : DeltaCacheHolds (refreshDeltaCache (d.disk cfg.indexDir e.key)
      (hasRoom env d i) env.bfBuilds
      (recordFanout (f.args.map fun a => (a, shardSearchWorker kern f.frame f.query a)) e)) recs)
    (hok : (finishFanout cfg env senv kern d f).2.status = .ok) :
    NearestOf metric f.frame.k (candidates dist e.tids rows) (deltaCandidates dist recs)
      (finishFanout cfg env senv kern d f).2.results
      (finishFanout cfg env senv kern d f).2.deltaMerged := by
  refine (finishFanout_merges K.bf hfound hn htids hmetric (fun a ha => ?_) hcover hdelta).2
  have hran : exceptFailed (shardSearchWorker kern f.frame f.query a) = false := by
    by_contra hfailed
    have hany : ((f.args.map fun a => (a, shardSearchWorker kern f.frame f.query a)).any
        fun o => exceptFailed o.2) = true :=
      List.any_eq_true.mpr ⟨_, List.mem_map_of_mem ha, by simpa using hfailed⟩
    simp only [finishFanout, hfound, if_pos hany, SearchReply.failure] at hok
    exact nomatch hok
  obtain ⟨out, hout⟩ := exceptFailed_eq_false hran
  exact ⟨out, hout, (hslices a ha).exact K hout⟩

end Sharded

end PgCuvs
