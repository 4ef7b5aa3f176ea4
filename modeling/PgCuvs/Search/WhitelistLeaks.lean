import PgCuvs.Search.BatchAnswers
import PgCuvs.Search.Signed
import PgCuvs.Search.Whitelist

/-! When a request that names a whitelist is answered with whitelisted rows only: the sections
that never look at the whitelist are fine where they cannot find another row. -/

namespace PgCuvs

variable {D : Type}

section Probes

/-- Kernels that return given items: `base` from the corpus, `delta` from a delta cache. -/
def probeKernels (hnsw : Bool) (base delta : List (SearchResult D)) : Kernels D where
  cagraSearch := fun _ _ _ _ _ _ => .ok base
  cagraSearchFiltered := fun _ _ _ bits _ _ _ =>
    .ok (base.filter fun r => decide (0 ≤ r.itemId ∧ bits[r.itemId.toNat]? = some false))
  bfSearch := fun _ _ _ _ => .ok delta
  bfSearchFiltered := fun _ _ _ bits _ =>
    .ok (base.filter fun r => decide (0 ≤ r.itemId ∧ bits[r.itemId.toNat]? = some false))
  bruteForceSearch := fun _ _ _ _ _ => .ok []
  hnswSearch := fun _ _ _ => if hnsw then .ok base else .error 1
  cagraSearchBatch := fun _ queries _ _ _ _ => .ok (queries.map fun _ => base)
  bfSearchBatch := fun _ queries _ _ => .ok (queries.map fun _ => base)

theorem probeKernels_filtered (hnsw : Bool) (base delta : List (SearchResult D)) :
    FilteredKernels (probeKernels hnsw base delta) := by
  have hmem : ∀ (bits : List Bool) (out : List (SearchResult D)),
      base.filter (fun r => decide (0 ≤ r.itemId ∧ bits[r.itemId.toNat]? = some false)) = out →
      ∀ r ∈ out, r.itemId = cuvsPadItemId ∨ ∃ i : ℕ, r.itemId = i ∧ bits[i]? = some false := by
    rintro bits out rfl r hr
    obtain ⟨hpos, hbit⟩ := of_decide_eq_true (List.mem_filter.mp hr).2
    exact .inr ⟨r.itemId.toNat, (Int.toNat_of_nonneg hpos).symm, hbit⟩
  exact ⟨fun _ _ _ bits _ _ _ out h => hmem bits out (Except.ok.inj h),
    fun _ _ _ bits _ out h => hmem bits out (Except.ok.inj h)⟩

/-- Where an unfiltered search is not harmless, some reply of it breaks the whitelist. -/
theorem exists_exposed {allowed : Option (List Tid)} {k : ℕ} {served : Tid → Prop}
    (h : ¬ Harmless allowed k served) :
    ∃ want : Option Tid, (∀ t ∈ want, 0 < k ∧ served t) ∧ ∀ r : SearchReply D, r.status = .ok →
      (∀ t ∈ want, ∃ c ∈ r.results, c.tid = t) → ¬ r.Within allowed := by
  rcases allowed with _ | l
  · refine ⟨none, fun t ht => absurd ht (Option.not_mem_none t), fun r hok _ hwithin => ?_⟩
    obtain ⟨l, hl, -⟩ := hwithin hok
    exact nomatch hl
  · have hbad : ¬ (0 < k → ∀ t, served t → t ∈ l) := fun hall => h ⟨l, rfl, hall⟩
    push Not at hbad
    obtain ⟨hk, t, ht, hout⟩ := hbad
    refine ⟨some t, fun t' ht' => Option.some.inj ht' ▸ ⟨hk, ht⟩, fun r hok hwant hwithin => ?_⟩
    obtain ⟨l', hl', hall⟩ := hwithin hok
    obtain ⟨c, hc, rfl⟩ := hwant t rfl
    exact hout (Option.some.inj hl' ▸ hall c hc)

variable [Inhabited D]

def wanted (want : Option Tid) : List (CuvsResult D) := want.toList.map fun t => ⟨t, default⟩

theorem mem_wanted {want : Option Tid} {t : Tid} (ht : t ∈ want) :
    ∃ c ∈ (wanted want : List (CuvsResult D)), c.tid = t :=
  ⟨⟨t, default⟩, List.mem_map_of_mem (Option.mem_toList.mpr ht), rfl⟩

variable {e : IndexEntry} {k : ℕ} {want : Option Tid}

theorem exists_slots {n : ℕ} {tids : List Tid} (h : ∀ t ∈ want, ∃ i < n, tids.getD i 0 = t) :
    ∃ raw : List (SearchResult D), ∀ j, (∀ t ∈ want, 0 < j) →
      (raw.take j).filterMap (itemResult n tids) = wanted want := by
  rcases want with _ | t
  · exact ⟨[], fun j _ => by rw [List.take_nil]; rfl⟩
  obtain ⟨i, hi, rfl⟩ := h t rfl
  refine ⟨[⟨i, default⟩], fun j hj => ?_⟩
  rw [List.take_of_length_le (hj _ rfl)]
  have hitem : itemResult n tids (⟨i, default⟩ : SearchResult D) = some ⟨tids.getD i 0, default⟩ :=
    if_neg (show ¬ ((i : ℤ) < 0 ∨ (n : ℤ) ≤ i) by omega)
  rw [List.filterMap_cons_some hitem, List.filterMap_nil]
  rfl

theorem qsort_wanted (cmp : CuvsResult D → CuvsResult D → ℤ) :
    qsort cmp (wanted want) = wanted want := by
  cases want with
  | none => rfl
  | some t => rfl

theorem take_wanted (hk : ∀ t ∈ want, 0 < k) :
    (wanted want : List (CuvsResult D)).take k = wanted want := by
  rcases want with _ | t
  · exact List.take_nil
  · exact List.take_of_length_le (hk t rfl)

end Probes

section Exposed

variable [LinearOrder D] [Inhabited D] {cfg : Config} {env : Env} (senv : SearchEnv)
  {d : Daemon} {i : ℕ} {e : IndexEntry} {frame : SearchFrame} (query : Vec) {want : Option Tid}

theorem cagraFinishOne_wanted {base : List (SearchResult D)} {k nDc : ℕ}
    {draw : Option (List (SearchResult D))} (hk : ∀ t ∈ want, 0 < k)
    (h : (base.take k).filterMap (baseResult e)
      ++ ((draw.getD []).take nDc).filterMap (deltaResult e) = wanted want) :
    (cagraFinishOne e base k draw nDc).2.1 = wanted want := by
  unfold cagraFinishOne
  rcases draw with _ | out
  · rwa [Option.getD_none, List.take_nil, List.filterMap_nil, List.append_nil] at h
  dsimp only
  rw [Option.getD_some] at h
  split_ifs with hpos
  · rw [h, qsort_wanted, take_wanted hk]
  · rwa [Nat.eq_zero_of_not_pos hpos, List.take_zero, List.filterMap_nil, List.append_nil] at h

/-- Whatever a graph search with its delta can return, some kernels make it return. -/
theorem exists_merged (device : ℕ) (hk : ∀ t ∈ want, 0 < frame.k)
    (h : ∀ t ∈ want, e.ServesMerged t) :
    ∃ base delta : List (SearchResult D), ∀ hnsw,
      (cagraFinishOne e base frame.k
        (searchDelta (probeKernels hnsw base delta) query frame.k device e).1
        (searchDelta (probeKernels hnsw base delta) query frame.k device e).2).2.1 = wanted want := by
  by_cases hbase : ∀ t ∈ want, e.Serves t
  · obtain ⟨base, hslots⟩ := exists_slots (D := D) hbase
    refine ⟨base, [], fun hnsw => cagraFinishOne_wanted hk ?_⟩
    have hnone : (searchDelta (probeKernels hnsw base []) query frame.k device e).1.getD []
        = ([] : List (SearchResult D)) := by
      unfold searchDelta
      split
      · rfl
      · split_ifs <;> rfl
    rw [hnone, List.take_nil, List.filterMap_nil, List.append_nil]
    exact hslots frame.k hk
  · push Not at hbase
    obtain ⟨t, rfl, hnot⟩ := hbase
    obtain ⟨hidx, j, hj, hjt⟩ := (h t rfl).resolve_left hnot
    have hserved : ∀ t' ∈ some t, ∃ j < e.nDelta, (e.deltaTids.getD []).getD j 0 = t' :=
      fun t' ht' => Option.some.inj ht' ▸ ⟨j, hj, hjt⟩
    obtain ⟨delta, hslots⟩ := exists_slots (D := D) hserved
    refine ⟨[], delta, fun hnsw => cagraFinishOne_wanted hk ?_⟩
    obtain ⟨bf, hbf⟩ := Option.isSome_iff_exists.mp hidx
    have hdelta : searchDelta (probeKernels hnsw [] delta) query frame.k device e
        = (some delta, min frame.k e.nDelta) := by
      unfold searchDelta
      rw [hbf]
      exact if_neg (Nat.ne_of_gt (Nat.zero_lt_of_lt hj))
    rw [hdelta, List.take_nil, List.filterMap_nil, List.nil_append]
    exact hslots _ fun _ _ => Nat.lt_min.mpr ⟨hk t rfl, Nat.zero_lt_of_lt hj⟩

/-- A section breaks the whitelist under some kernels. -/
def Exposes (allowed : Option (List Tid)) (search : Kernels D → SearchOutcome D) : Prop :=
  ∃ kern d' r, FilteredKernels kern ∧ search kern = .reply d' r ∧ ¬ r.Within allowed

theorem searchCagra_exposes {allowed : Option (List Tid)} {g : Cagra} (hg : e.handle = some g)
    (h : ¬ Harmless allowed frame.k
      (refreshDeltaCache (d.disk cfg.indexDir e.key) (hasRoom env d i) env.bfBuilds e).ServesMerged) :
    ∃ base delta : List (SearchResult D), ∃ d' r,
      searchCagra cfg env senv (probeKernels false base delta) d i e frame query = .reply d' r ∧
        ¬ r.Within allowed := by
  obtain ⟨want, hwant, hexposed⟩ := exists_exposed (D := D) h
  obtain ⟨base, delta, hmerged⟩ := exists_merged (D := D) query e.gpuDeviceId
    (fun t ht => (hwant t ht).1) fun t ht => (hwant t ht).2
  have hreply : ∃ d' r,
      searchCagra cfg env senv (probeKernels false base delta) d i e frame query = .reply d' r ∧
        r.status = .ok ∧ r.results = wanted want := by
    unfold searchCagra
    rw [hg]
    dsimp only [probeKernels]
    exact ⟨_, _, rfl, rfl, hmerged false⟩
  obtain ⟨d', r, hsearch, hok, hresults⟩ := hreply
  exact ⟨base, delta, d', r, hsearch, hexposed r hok fun t ht => hresults ▸ mem_wanted ht⟩

theorem searchGraph_exposes (hfilter : 0 < frame.nFilterTids)
    (h : ¬ GraphSafe cfg env senv
      (d.setEntry i (graphEntry (d.disk cfg.indexDir e.key) senv frame e)) i
      (graphEntry (d.disk cfg.indexDir e.key) senv frame e) frame) :
    Exposes (D := D) (mapFilter senv frame)
      fun kern => searchGraph cfg env senv kern d i e frame query := by
  set e' := graphEntry (d.disk cfg.indexDir e.key) senv frame e with he'
  -- whichever of the two searches is unguarded, a kernel is built that returns a row off the list
  by_cases hhnsw : frame.useCpuHnsw = true → e'.hnswIdx.isSome →
      Harmless (mapFilter senv frame) frame.k e'.Serves
  · have hcagra : ¬ (e'.handle.isSome → Harmless (mapFilter senv frame) frame.k
        (refreshDeltaCache ((d.setEntry i e').disk cfg.indexDir e'.key)
          (hasRoom env (d.setEntry i e') i) env.bfBuilds e').ServesMerged) := fun hall => h ⟨hhnsw, hall⟩
    obtain ⟨hsome, hbad⟩ := Classical.not_imp.mp hcagra
    obtain ⟨g, hg⟩ := Option.isSome_iff_exists.mp hsome
    obtain ⟨base, delta, d', r, hsearch, hout⟩ := searchCagra_exposes (D := D) senv query hg hbad
    have htry : tryCpuHnsw (d.disk cfg.indexDir e.key) senv (probeKernels false base delta) frame
        query e = (e', none) := by
      rcases tryCpuHnsw_cases (d.disk cfg.indexDir e.key) (probeKernels false base delta) query e
        with hcase | ⟨g', raw, -, hraw, -⟩
      · exact hcase
      · exact nomatch hraw
    have hgraph : searchGraph cfg env senv (probeKernels false base delta) d i e frame query
        = .reply d' r := by
      rw [searchGraph_eq hfilter, htry]
      exact hsearch
    exact ⟨_, d', r, probeKernels_filtered _ _ _, hgraph, hout⟩
  · push Not at hhnsw
    obtain ⟨huse, hsome, hbad⟩ := hhnsw
    obtain ⟨want, hwant, hexposed⟩ := exists_exposed (D := D) hbad
    obtain ⟨raw, hslots⟩ := exists_slots (D := D) fun t ht => (hwant t ht).2
    obtain ⟨g, hg⟩ := Option.isSome_iff_exists.mp hsome
    have htry : tryCpuHnsw (d.disk cfg.indexDir e.key) senv (probeKernels true raw []) frame
        query e = (e', some (wanted want)) := by
      have hload : e' = loadHnsw (d.disk cfg.indexDir e.key) senv e := if_pos huse
      unfold tryCpuHnsw
      rw [if_pos huse]
      dsimp only
      rw [← hload, hg]
      exact congrArg (fun results => (e', some results))
        (hslots frame.k fun t ht => (hwant t ht).1)
    have hgraph : ∃ d' r, searchGraph cfg env senv (probeKernels true raw []) d i e frame query
        = .reply d' r ∧ r.status = .ok ∧ r.results = wanted want := by
      rw [searchGraph_eq hfilter, htry]
      exact ⟨_, _, rfl, rfl, rfl⟩
    obtain ⟨d', r, hgraph, hok, hresults⟩ := hgraph
    exact ⟨_, d', r, probeKernels_filtered _ _ _, hgraph,
      hexposed r hok fun t ht => hresults ▸ mem_wanted ht⟩

omit [LinearOrder D] in
theorem prefilterOutput_stray {included : List ℕ} {j : ℕ} (hj : j ∈ included) (hlt : j < e.nVecs)
    (hk : 0 < frame.k) (hsome : e.handle.isSome ∨ e.mainBfIdx.isSome) :
    ∃ mode, prefilterOutput (probeKernels false [⟨j, default⟩] []) frame query e included
      = some ([(⟨j, default⟩ : SearchResult D)], mode) := by
  have hbits : [(⟨j, default⟩ : SearchResult D)].filter (fun r =>
      decide (0 ≤ r.itemId ∧ (excludedBits e.nVecs included)[r.itemId.toNat]? = some false))
      = [⟨j, default⟩] :=
    List.filter_eq_self.mpr fun r hr => by
      rw [List.mem_singleton.mp hr]
      exact decide_eq_true ⟨Int.natCast_nonneg j, (excludedBits_eq_false hlt).mpr hj⟩
  have htake : [(⟨j, default⟩ : SearchResult D)].take frame.k = [⟨j, default⟩] :=
    List.take_of_length_le hk
  have hbrute : ∀ bf, e.mainBfIdx = some bf →
      bruteForceOutput (probeKernels false [⟨j, default⟩] []) frame query e
        (excludedBits e.nVecs included) = some ([(⟨j, default⟩ : SearchResult D)], .gpuBf) := by
    intro bf hbf
    unfold bruteForceOutput
    rw [hbf]
    dsimp only [probeKernels]
    rw [hbits, htake]
  unfold prefilterOutput
  rcases hh : e.handle with _ | g
  · rw [hh] at hsome
    obtain ⟨bf, hbf⟩ := Option.isSome_iff_exists.mp (hsome.resolve_left nofun)
    exact ⟨_, hbrute bf hbf⟩
  dsimp only [probeKernels]
  rw [hbits, htake]
  by_cases hshort : [(⟨j, default⟩ : SearchResult D)].countP (fun r => r.itemId != cuvsPadItemId)
      < min frame.k included.length ∧ e.mainBfIdx.isSome = true
  · rw [if_pos hshort]
    obtain ⟨bf, hbf⟩ := Option.isSome_iff_exists.mp hshort.2
    exact ⟨_, hbrute bf hbf⟩
  · rw [if_neg hshort]
    exact ⟨_, rfl⟩

theorem searchBruteForce_exposes {l : List Tid} (hfilter : 0 < frame.nFilterTids)
    (hl : mapFilter senv frame = some l) (huse : frame.usePrefilter = true) (hk : 0 < frame.k)
    {e' : IndexEntry} (he' : refreshMainBfCache (d.disk cfg.indexDir e.key) (hasRoom env d i)
      env.bfBuilds frame.bfPrecision e = e')
    (hsome : e'.handle.isSome ∨ e'.mainBfIdx.isSome) (hstray : e'.Strays l) :
    Exposes (D := D) (mapFilter senv frame)
      fun kern => searchBruteForce cfg env senv kern d i e frame query := by
  obtain ⟨revTids, revItemIds, hrev, hids, j, hj, hout⟩ := hstray
  have hlt := lt_of_mem_includedItems hj
  obtain ⟨mode, houtput⟩ := prefilterOutput_stray (D := D) query hj hlt hk hsome
  have hready : ¬ (e'.mainBfIdx.isNone = true ∧ prefilterReady frame e' = false) := by
    rintro ⟨hnone, hready⟩
    have hgraph := hsome.resolve_right (by rw [Option.isNone_iff_eq_none.mp hnone]; nofun)
    rw [prefilterReady, huse, hgraph, hrev, hids, decide_eq_true hfilter] at hready
    cases hready
  have hresult : baseResult e' (⟨j, default⟩ : SearchResult D) = some ⟨e'.tids.getD j 0, default⟩ :=
    if_neg (show ¬ ((j : ℤ) < 0 ∨ (e'.nVecs : ℤ) ≤ j) by omega)
  have hresults : prefilterResults e' [(⟨j, default⟩ : SearchResult D)]
      = [⟨e'.tids.getD j 0, default⟩] := by
    rw [prefilterResults, List.takeWhile_cons_of_pos (by rw [hresult]; rfl), List.takeWhile_nil,
      List.filterMap_cons_some hresult, List.filterMap_nil]
  have htry : (tryPrefilter (probeKernels false [⟨j, default⟩] []) senv frame query e').2
      = some ([(⟨e'.tids.getD j 0, default⟩ : CuvsResult D)], mode) := by
    unfold tryPrefilter
    rw [if_pos ⟨huse, hfilter⟩, hrev, hids, hl]
    dsimp only
    rw [prefilterSearch_snd, houtput, Option.map_some, hresults]
  have hreply : ∃ d' r, searchBruteForce cfg env senv (probeKernels false [⟨j, default⟩] []) d i e
      frame query = .reply d' r ∧ r.status = .ok ∧
        r.results = [(⟨e'.tids.getD j 0, default⟩ : CuvsResult D)] := by
    unfold searchBruteForce
    dsimp only
    rw [he', if_neg hready]
    split
    · rename_i e1 results mode' hcase
      rw [hcase] at htry
      obtain ⟨rfl, -⟩ := Prod.mk.inj (Option.some.inj htry)
      exact ⟨_, _, rfl, rfl, rfl⟩
    · rename_i e1 hcase
      rw [hcase] at htry
      cases htry
  obtain ⟨d', r, hsearch, hok, hresults'⟩ := hreply
  refine ⟨_, d', r, probeKernels_filtered _ _ _, hsearch, fun hwithin => ?_⟩
  obtain ⟨l', hl', hall⟩ := hwithin hok
  obtain rfl : l = l' := Option.some.inj (hl.symm.trans hl')
  exact hout (hall _ (hresults' ▸ List.mem_singleton_self _))

end Exposed

section Batch

variable [LinearOrder D] {cfg : Config} {env : Env} {senv : SearchEnv} {kern : Kernels D}
  {later : Daemon} {frame : SearchFrame} (query : Vec)

def bfBatchRequest (frame : SearchFrame) (query : Vec) : BatchRequest where
  key := ⟨frame.key, frame.bfPrecision, frame.dim, 1, 0, 0⟩
  query := query
  k := frame.k
  waitUs := frame.bfBatchWaitUs

def BatchSafe (cfg : Config) (env : Env) (senv : SearchEnv) (later : Daemon) (frame : SearchFrame) :
    Prop :=
  ∀ d' i e, batchResolve cfg env later frame.key = (d', some (i, e)) → e.stale = false →
    (withMainBf cfg env d' i frame e).mainBfIdx.isSome →
    Harmless (mapFilter senv frame) frame.k (withMainBf cfg env d' i frame e).Serves

theorem batchRunGroup_within {latencyUs q : ℕ} {r0 : BatchRequest} {reqs : List BatchRequest}
    {r : SearchReply D} (hkey : r0.key.SameKernel (bfBatchRequest frame query).key)
    (hreq : reqs[q]? = some (bfBatchRequest frame query)) (hsafe : BatchSafe cfg env senv later frame)
    (h : (batchRunGroup cfg env kern latencyUs later r0 reqs).2[q]? = some r) :
    r.Within (mapFilter senv frame) := by
  obtain ⟨hindex, hprec, -, hmode, -⟩ := hkey
  have hmode' : r0.key.mode ≠ 0 := hmode.trans_ne Nat.one_ne_zero
  rw [batchRunGroup, if_neg hmode'] at h
  unfold bfBatchRunGroup at h
  rw [hindex, hprec] at h
  dsimp only [bfBatchRequest] at h
  rcases hfound : batchResolve cfg env later frame.key with ⟨d', _ | ⟨i, e⟩⟩
  · rw [hfound] at h
    simp only [failGroup, List.getElem?_map, Option.map_eq_some_iff] at h
    obtain ⟨_, _, rfl⟩ := h
    exact SearchReply.within_of_ne fun h => by cases h
  rw [hfound] at h
  dsimp only at h
  split_ifs at h with hstale
  · exact SearchReply.within_of_ne (by rw [failFound_reply h]; decide)
  rcases hbf : (withMainBf cfg env d' i frame e).mainBfIdx with _ | bf
  · unfold withMainBf at hbf
    rw [hbf] at h
    exact SearchReply.within_of_ne (by rw [failFound_reply h]; decide)
  have hharmless := hsafe d' i e hfound (Bool.eq_false_of_not_eq_true hstale) (by rw [hbf]; rfl)
  unfold withMainBf at hbf hharmless
  rw [hbf] at h
  dsimp only at h
  split at h
  · exact SearchReply.within_of_ne (by rw [failFound_reply h]; decide)
  rename_i raw hraw
  simp only [List.getElem?_map, List.getElem?_zipIdx, hreq, Option.map_some, Nat.zero_add,
    Option.some.injEq] at h
  subst h
  refine hharmless.within fun c hc => ?_
  obtain ⟨x, hx, hresult⟩ := List.mem_filterMap.mp hc
  refine ⟨?_, baseResult_serves hresult⟩
  by_contra hzero
  have hk : (bfBatchRequest frame query).k = 0 := Nat.eq_zero_of_not_pos hzero
  rw [hk, Nat.zero_min, List.take_zero] at hx
  cases hx

theorem batchRunGroup_exposes [Inhabited D] (h : ¬ BatchSafe cfg env senv later frame) :
    ∃ (kern : Kernels D) (r : SearchReply D), FilteredKernels kern ∧
      (batchRunGroup cfg env kern 0 later (bfBatchRequest frame query)
        [bfBatchRequest frame query]).2[0]? = some r ∧
      ¬ r.Within (mapFilter senv frame) := by
  unfold BatchSafe at h
  push Not at h
  obtain ⟨d', i, e, hfound, hstale, hsome, hbad⟩ := h
  obtain ⟨want, hwant, hexposed⟩ := exists_exposed (D := D) hbad
  obtain ⟨raw, hslots⟩ := exists_slots (D := D) fun t ht => (hwant t ht).2
  obtain ⟨bf, hbf⟩ := Option.isSome_iff_exists.mp hsome
  have hreply : ∃ r, (batchRunGroup cfg env (probeKernels false raw []) 0 later
      (bfBatchRequest frame query) [bfBatchRequest frame query]).2[0]? = some r ∧ r.status = .ok ∧
        r.results = wanted want := by
    have hmode : (bfBatchRequest frame query).key.mode ≠ 0 := Nat.one_ne_zero
    rw [batchRunGroup, if_neg hmode]
    unfold bfBatchRunGroup
    dsimp only [bfBatchRequest]
    rw [hfound]
    dsimp only
    rw [hstale, if_neg Bool.false_ne_true]
    unfold withMainBf at hbf
    rw [hbf]
    refine ⟨_, rfl, rfl, hslots _ fun t ht => ?_⟩
    obtain ⟨hk, j, hj, -⟩ := hwant t ht
    have hpos := Nat.zero_lt_of_lt hj
    unfold withMainBf at hpos
    exact Nat.lt_min.mpr ⟨hk, Nat.lt_min.mpr ⟨lt_max_of_lt_left hk, hpos⟩⟩
  obtain ⟨r, hr, hok, hresults⟩ := hreply
  exact ⟨_, r, probeKernels_filtered _ _ _, hr, hexposed r hok fun t ht => hresults ▸ mem_wanted ht⟩

end Batch

section Negative

variable [LinearOrder D] {cfg : Config} {env : Env} {senv : SearchEnv} {kern : Kernels D}
  {d d' : Daemon} {i : ℕ} {e : IndexEntry} {frame : SearchFrame} {query : Vec} {r : SearchReply D}

omit [LinearOrder D] in
theorem mallocFailed_within (allowed : Option (List Tid)) :
    (mallocFailed : SearchReply D).Within allowed :=
  SearchReply.within_of_ne fun h => nomatch h

omit [LinearOrder D] in
theorem bruteForceOutput_length_le {bits : List Bool} {p : List (SearchResult D) × SearchMode}
    (h : bruteForceOutput kern frame query e bits = some p) : p.1.length ≤ frame.k := by
  unfold bruteForceOutput at h
  split at h
  · exact nomatch h
  split at h
  · obtain rfl := Option.some.inj h
    exact List.length_take_le _ _
  · exact nomatch h

omit [LinearOrder D] in
theorem prefilterOutput_length_le {included : List ℕ} {p : List (SearchResult D) × SearchMode}
    (h : prefilterOutput kern frame query e included = some p) : p.1.length ≤ frame.k := by
  unfold prefilterOutput at h
  dsimp only at h
  split at h
  · exact bruteForceOutput_length_le h
  split at h
  · exact bruteForceOutput_length_le h
  split_ifs at h
  · exact bruteForceOutput_length_le h
  · obtain rfl := Option.some.inj h
    exact List.length_take_le _ _

omit [LinearOrder D] in
theorem tryPrefilter_zero {e' : IndexEntry} {p : List (CuvsResult D) × SearchMode}
    (h : tryPrefilter kern senv { frame with k := 0 } query e = (e', some p)) : p.1 = [] := by
  unfold tryPrefilter at h
  split_ifs at h
  · split at h
    · have hsnd := congrArg Prod.snd h
      rw [prefilterSearch_snd] at hsnd
      obtain ⟨q, hq, rfl⟩ := Option.map_eq_some_iff.mp hsnd
      have hempty : q.1 = [] := List.length_eq_zero_iff.mp (Nat.le_zero.mp (prefilterOutput_length_le hq))
      dsimp only
      rw [hempty]
      rfl
    · exact nomatch congrArg Prod.snd h
  · exact nomatch congrArg Prod.snd h

omit [LinearOrder D] in
theorem dWedgeNegAt_within (bf : BfIndex) (bk : ℤ) (hfilter : 0 < frame.nFilterTids)
    (h : dWedgeNegAt env senv kern d i e bf frame query bk = .reply d' r) :
    r.Within (mapFilter senv frame) := by
  unfold dWedgeNegAt at h
  dsimp only at h
  split at h
  · split_ifs at h
    · exact failEntry_within (by decide) h
    · exact failEntry_within (by decide) h
  rw [if_pos hfilter] at h
  rcases hl : mapFilter senv frame with _ | l
  · rw [hl] at h
    simp only [cuvsFilterFrameRefuses, hfilter, decide_true, Option.isSome_none, Bool.not_false,
      Bool.and_self, if_true] at h
    exact failEntry_within (by decide) h
  · rw [← hl]
    split_ifs at h
    · exact failEntry_within (by decide) h
    · exact answerEntry_within hl (fun c hc => absurd hc List.not_mem_nil) h

omit [LinearOrder D] in
theorem searchBruteForceNeg_within (hfilter : 0 < frame.nFilterTids)
    (h : searchBruteForceNeg cfg env senv kern d i e frame query = .reply d' r) :
    r.Within (mapFilter senv frame) := by
  unfold searchBruteForceNeg at h
  dsimp only at h
  split_ifs at h
  · exact failEntry_within (by decide) h
  split at h
  · rename_i e1 results mode htry
    obtain ⟨l, hl⟩ := tryPrefilter_mapped htry
    have hl' : mapFilter senv frame = some l := hl
    have hempty : results = [] := tryPrefilter_zero htry
    rw [hempty] at h
    exact answerEntry_within hl' (fun c hc => absurd hc List.not_mem_nil) h
  · split at h
    · exact failEntry_within (by decide) h
    · exact dWedgeNegAt_within _ _ hfilter h

theorem searchEntryInt_negative (hk : int32Max < frame.k) (hfilter : 0 < frame.nFilterTids) :
    (∃ d' r, searchEntryInt cfg env senv kern d i e frame query = .reply d' r ∧
        r.Within (mapFilter senv frame)) ∨
      searchEntryInt cfg env senv kern d i e frame query = .resume d 1 query := by
  unfold searchEntryInt
  rw [if_neg (not_le.mpr hk)]
  split_ifs with hbf hgate hshards
  · exact .inr rfl
  · obtain ⟨d', r, hreply⟩ : ∃ d' r, searchBruteForceNeg cfg env senv kern d i e frame query
        = .reply d' r := searchBruteForceNeg_replies
    exact .inl ⟨d', r, hreply, searchBruteForceNeg_within hfilter hreply⟩
  · refine .inl ⟨_, _, if_pos hfilter, ?_⟩
    exact SearchReply.within_of_ne fun h => nomatch h
  · obtain ⟨d', hreply⟩ : ∃ d', (searchGraphNeg cfg senv d i e frame query : SearchOutcome D)
        = .reply d' mallocFailed := searchGraphNeg_filtered hfilter
    exact .inl ⟨d', mallocFailed, hreply, mallocFailed_within _⟩

end Negative

section Request

variable {cfg : Config} {env env' : Env} {senv : SearchEnv} {d later : Daemon}
  {frame : SearchFrame}

variable [LinearOrder D] {kern : Kernels D}

/-- How a SEARCH gets its reply: at once, or in the state `later` after it had to wait. -/
inductive Answered (cfg : Config) (env env' : Env) (senv : SearchEnv) (d later : Daemon)
    (frame : SearchFrame) (kern : Kernels D) : SearchReply D → Prop
  | now {d' : Daemon} {r : SearchReply D}
      (h : handleSearchInt cfg env senv kern d frame = .reply d' r) :
      Answered cfg env env' senv d later frame kern r
  | resumed {d' d'' : Daemon} {mode : ℕ} {query : Vec} {r : SearchReply D}
      (hwait : handleSearchInt cfg env senv kern d frame = .resume d' mode query)
      (h : resumeSearchInt cfg env' senv kern later frame mode query = .reply d'' r) :
      Answered cfg env env' senv d later frame kern r
  | batched {d' : Daemon} {req r0 : BatchRequest} {reqs : List BatchRequest} {latencyUs q : ℕ}
      {r : SearchReply D} (hwait : handleSearchInt cfg env senv kern d frame = .batched d' req)
      (hkey : r0.key.SameKernel req.key) (hreq : reqs[q]? = some req)
      (h : (batchRunGroup cfg env' kern latencyUs later r0 reqs).2[q]? = some r) :
      Answered cfg env env' senv d later frame kern r
  | fannedOut {d' : Daemon} {f : Fanout}
      (hwait : handleSearchInt cfg env senv kern d frame = .fanout d' f) :
      Answered cfg env env' senv d later frame kern (finishFanoutInt cfg env' senv kern later f).2

/-- The section that answers is fine: one that looks at the whitelist as far as `mapped` says, one
that does not as far as it cannot find another row. -/
def Guarded (cfg : Config) (env env' : Env) (senv : SearchEnv) (d later : Daemon)
    (frame : SearchFrame) (mapped : IndexEntry → Prop) : Prop :=
  ∀ d1 i e query, searchEntered cfg env senv d frame = some (d1, i, e, query) →
    if (frame.searchMode = 1 ∨ e.isFlat = true) ∧ e.shardCount < 2 then
      if bfBatchGate senv frame e then
        if senv.batchQueueHasRoom then BatchSafe cfg env' senv later frame
        else ∀ i' e', findIndex later.live frame.key = some i' → later.live[i']? = some e' →
          mapped (withMainBf cfg env' later i' frame e')
      else mapped (withMainBf cfg env d1 i frame e)
    else 2 ≤ e.shardCount ∨
      GraphSafe cfg env senv (d1.setEntry i (graphEntry (d1.disk cfg.indexDir e.key) senv frame e)) i
        (graphEntry (d1.disk cfg.indexDir e.key) senv frame e) frame

def MapInStep (senv : SearchEnv) (frame : SearchFrame) (e : IndexEntry) : Prop :=
  ∀ l, mapFilter senv frame = some l → ¬ e.Strays l

/-- Where the bitset prefilter runs, the reverse map leads to no row of another. -/
def PrefilterInStep (senv : SearchEnv) (frame : SearchFrame) (e : IndexEntry) : Prop :=
  ∀ l, mapFilter senv frame = some l → frame.usePrefilter = true → 0 < frame.k →
    e.handle.isSome ∨ e.mainBfIdx.isSome → ¬ e.Strays l

theorem resumeSearch_within (hkern : FilteredKernels kern) (hfilter : 0 < frame.nFilterTids)
    (hmapped : ∀ i e, findIndex later.live frame.key = some i → later.live[i]? = some e →
      MapInStep senv frame (withMainBf cfg env' later i frame e))
    {d' : Daemon} {query : Vec} {r : SearchReply D}
    (h : resumeSearch cfg env' senv kern later frame 1 query = .reply d' r) :
    r.Within (mapFilter senv frame) := by
  unfold resumeSearch at h
  split at h
  · cases h
    exact SearchReply.within_of_ne fun h => nomatch h
  rename_i i hfind
  split at h
  · cases h
    exact SearchReply.within_of_ne fun h => nomatch h
  rename_i e hslot
  exact searchBruteForce_within hkern hfilter (hmapped i e hfind hslot) h

/-- A search that has replied gets no other reply. -/
theorem Answered.of_reply {d' : Daemon} {r r' : SearchReply D}
    (h : Answered cfg env env' senv d later frame kern r)
    (hreply : handleSearchInt cfg env senv kern d frame = .reply d' r') : r = r' := by
  cases h with
  | now h =>
    rw [hreply] at h
    cases h
    rfl
  | resumed hwait | batched hwait | fannedOut hwait => exact nomatch hreply.symm.trans hwait

theorem searchGraph_replies {d1 : Daemon} {i : ℕ} {e : IndexEntry} {query : Vec}
    (hfilter : 0 < frame.nFilterTids) :
    ∃ d' r, searchGraph cfg env senv kern d1 i e frame query = .reply d' r := by
  rw [searchGraph_eq hfilter]
  split
  · exact ⟨_, _, rfl⟩
  · exact searchCagra_replies ..

omit [LinearOrder D] in
theorem searchEntryInt_of_le [LT D] [DecidableLT D] (hk : frame.k ≤ int32Max) {d1 : Daemon} {i : ℕ}
    {e : IndexEntry} {query : Vec} :
    searchEntryInt cfg env senv kern d1 i e frame query
      = searchEntry cfg env senv kern d1 i e frame query := if_pos hk

theorem handleSearchInt_refused (hentered : searchEntered cfg env senv d frame = none) :
    ∃ d' r, r.status ≠ .ok ∧
      ∀ kern : Kernels D, handleSearchInt cfg env senv kern d frame = .reply d' r := by
  obtain ⟨d', r, hne, hreply⟩ := handleSearch_refused (D := D) hentered
  refine ⟨d', r, hne, fun kern => ?_⟩
  rw [handleSearchInt, hentered]
  exact hreply kern

theorem answered_within_negative (hk : int32Max < frame.k) (hfilter : 0 < frame.nFilterTids)
    {r : SearchReply D} (h : Answered cfg env env' senv d later frame kern r) :
    r.Within (mapFilter senv frame) := by
  rcases hentered : searchEntered cfg env senv d frame with _ | ⟨d1, i, e, query⟩
  · obtain ⟨d', r', hne, hreply⟩ := handleSearchInt_refused (D := D) hentered
    exact h.of_reply (hreply kern) ▸ SearchReply.within_of_ne hne
  have hsearch := handleSearchInt_entered kern hentered
  have hends : (∃ d' r', searchEntryInt cfg env senv kern d1 i e frame query = .reply d' r' ∧
      r'.Within (mapFilter senv frame)) ∨
        searchEntryInt cfg env senv kern d1 i e frame query = .resume d1 1 query :=
    searchEntryInt_negative hk hfilter
  rcases hends with ⟨d', r', hreply, hwithin⟩ | hresume
  · exact h.of_reply (hsearch.trans hreply) ▸ hwithin
  rw [hresume] at hsearch
  cases h with
  | resumed hwait h =>
    rw [hsearch] at hwait
    cases hwait
    unfold resumeSearchInt at h
    rw [if_neg (not_le.mpr hk)] at h
    split at h
    · cases h
      exact SearchReply.within_of_ne fun h => nomatch h
    · rw [if_pos rfl] at h
      exact searchBruteForceNeg_within hfilter h
  | now hwait | batched hwait | fannedOut hwait => exact nomatch hsearch.symm.trans hwait

theorem answered_within (hkern : FilteredKernels kern) (hk : frame.k ≤ int32Max)
    (hfilter : 0 < frame.nFilterTids)
    (hguard : Guarded cfg env env' senv d later frame (MapInStep senv frame)) {r : SearchReply D}
    (h : Answered cfg env env' senv d later frame kern r) : r.Within (mapFilter senv frame) := by
  rcases hentered : searchEntered cfg env senv d frame with _ | ⟨d1, i, e, query⟩
  · obtain ⟨d', r', hne, hreply⟩ := handleSearchInt_refused (D := D) hentered
    exact h.of_reply (hreply kern) ▸ SearchReply.within_of_ne hne
  have hsearch := handleSearchInt_entered kern hentered
  have hsection := hguard d1 i e query hentered
  rw [searchEntryInt_of_le hk] at hsearch
  unfold searchEntry at hsearch
  split_ifs at hsearch hsection with hbf hgate hroom hshards
  · -- Only the batch worker answers.
    cases h with
    | batched hwait hkey hreq h =>
      rw [hsearch] at hwait
      cases hwait
      exact batchRunGroup_within query hkey hreq hsection h
    | now hwait | resumed hwait | fannedOut hwait => exact nomatch hsearch.symm.trans hwait
  · cases h with
    | resumed hwait h =>
      rw [hsearch] at hwait
      cases hwait
      rw [resumeSearchInt, if_pos hk] at h
      exact resumeSearch_within hkern hfilter hsection h
    | now hwait | batched hwait | fannedOut hwait => exact nomatch hsearch.symm.trans hwait
  · obtain ⟨d', r', hreply⟩ : ∃ d' r, searchBruteForce cfg env senv kern d1 i e frame query
        = .reply d' r := searchBruteForce_replies
    exact h.of_reply (hsearch.trans hreply) ▸ searchBruteForce_within hkern hfilter hsection hreply
  · have hreply : searchSharded (D := D) cfg env d1 i e frame query
        = failEntry env d1 i e .error "filtered search is not implemented for sharded indexes" :=
      if_pos hfilter
    exact h.of_reply (hsearch.trans hreply) ▸ SearchReply.within_of_ne fun h => nomatch h
  · obtain ⟨d', r', hreply⟩ : ∃ d' r, searchGraph cfg env senv kern d1 i e frame query
        = .reply d' r := searchGraph_replies hfilter
    exact h.of_reply (hsearch.trans hreply) ▸
      searchGraph_within hfilter (hsection.resolve_left hshards) hreply

variable [Inhabited D]

theorem guarded_of_within (hk : frame.k ≤ int32Max) (hfilter : 0 < frame.nFilterTids)
    (h : ∀ kern : Kernels D, FilteredKernels kern → ∀ r,
      Answered cfg env env' senv d later frame kern r → r.Within (mapFilter senv frame)) :
    Guarded cfg env env' senv d later frame (PrefilterInStep senv frame) := by
  have hint := hk
  intro d1 i e query hentered
  have hsearch : ∀ kern : Kernels D, handleSearchInt cfg env senv kern d frame
      = searchEntry cfg env senv kern d1 i e frame query := by
    intro kern
    rw [handleSearchInt_entered kern hentered, searchEntryInt_of_le hk]
  unfold searchEntry at hsearch
  split_ifs at hsearch ⊢ with hbf hgate hroom hshards
  · by_contra hunsafe
    obtain ⟨kern, r, hkern, hr, hout⟩ := batchRunGroup_exposes (D := D) query hunsafe
    exact hout (h kern hkern r (.batched (hsearch kern) (.refl _) rfl hr))
  · intro i' e' hfind hslot l hl huse hk hsome hstray
    obtain ⟨kern, d', r, hkern, hr, hout⟩ := searchBruteForce_exposes (D := D) senv query
      hfilter hl huse hk rfl hsome hstray
    have hresume : resumeSearchInt cfg env' senv kern later frame 1 query = .reply d' r := by
      rw [resumeSearchInt, if_pos hint, resumeSearch, hfind]
      dsimp only
      rw [hslot]
      exact hr
    exact hout (h kern hkern r (.resumed (hsearch kern) hresume))
  · intro l hl huse hk hsome hstray
    obtain ⟨kern, d', r, hkern, hr, hout⟩ := searchBruteForce_exposes (D := D) senv query
      hfilter hl huse hk rfl hsome hstray
    exact hout (h kern hkern r (.now ((hsearch kern).trans hr)))
  · exact .inl hshards
  · refine .inr ?_
    by_contra hunsafe
    obtain ⟨kern, d', r, hkern, hr, hout⟩ := searchGraph_exposes (D := D) senv query hfilter
      hunsafe
    exact hout (h kern hkern r (.now ((hsearch kern).trans hr)))

/-- A filtered request is answered within its whitelist, whatever the kernels find, if its `k` is
negative as an `int`, or if it is guarded and the reverse map is in step; and only if one of these
holds, the map being in step wherever the bitset prefilter answers. -/
theorem answered_within_iff (cfg : Config) (env env' : Env) (senv : SearchEnv) (d later : Daemon)
    (frame : SearchFrame) (hfilter : 0 < frame.nFilterTids) :
    (int32Max < frame.k ∨ Guarded cfg env env' senv d later frame (MapInStep senv frame) →
      ∀ kern : Kernels D, FilteredKernels kern → ∀ r,
        Answered cfg env env' senv d later frame kern r → r.Within (mapFilter senv frame)) ∧
    ((∀ kern : Kernels D, FilteredKernels kern → ∀ r,
        Answered cfg env env' senv d later frame kern r → r.Within (mapFilter senv frame)) →
      int32Max < frame.k ∨
        Guarded cfg env env' senv d later frame (PrefilterInStep senv frame)) := by
  rcases lt_or_ge int32Max frame.k with hk | hk
  · exact ⟨fun _ _ _ _ hr => answered_within_negative hk hfilter hr, fun _ => .inl hk⟩
  · refine ⟨fun hcond _ hkern _ hr => ?_, fun h => .inr (guarded_of_within hk hfilter h)⟩
    exact answered_within hkern hk hfilter (hcond.resolve_left (not_lt.mpr hk)) hr

end Request

section Sample

theorem wedge_guarded :
    Guarded sampleConfig (Env.quiet 8 100000) (Env.quiet 9 0) wedgeSearch wedgeDaemon wedgeDaemon
      wedgeFrame (MapInStep wedgeSearch wedgeFrame) := by
  intro d1 i e query hentered
  have hfound : (searchEntered sampleConfig (Env.quiet 8 100000) wedgeSearch wedgeDaemon
      wedgeFrame).map (fun p => p.2.2.1) = some { wedgeEntry with lastSearch := 8 } := rfl
  rw [hentered] at hfound
  obtain rfl := Option.some.inj hfound
  rw [if_pos (by decide), if_neg (by decide)]
  intro l _
  refine IndexEntry.MapAligned.not_strays ?_ l
  rw [withMainBf, refreshMainBfCache_field IndexEntry.MapAligned (fun _ _ _ _ _ _ _ => rfl)]
  exact wedgeEntry_aligned.map

theorem answered_within_wedge :
    Guarded sampleConfig (Env.quiet 8 100000) (Env.quiet 9 0) wedgeSearch wedgeDaemon wedgeDaemon
      wedgeFrame (MapInStep wedgeSearch wedgeFrame) ∧
    ∀ kern : Kernels ℕ, FilteredKernels kern → ∀ r,
      Answered sampleConfig (Env.quiet 8 100000) (Env.quiet 9 0) wedgeSearch wedgeDaemon
        wedgeDaemon wedgeFrame kern r → r.Within (mapFilter wedgeSearch wedgeFrame) :=
  ⟨wedge_guarded,
    (answered_within_iff sampleConfig (Env.quiet 8 100000) (Env.quiet 9 0) wedgeSearch wedgeDaemon
      wedgeDaemon wedgeFrame (by decide)).1 (.inr wedge_guarded)⟩

def waitingSearch : SearchEnv :=
  { SearchEnv.plain [0] with
    filter := some [103], batchWorkerStarted := true, batchQueueHasRoom := true }

def waitingFrame : SearchFrame :=
  { sampleFrame with searchMode := 1, nFilterTids := 1, bfBatchWaitUs := 100 }

/-- The batch worker answers a request for TID 103 with TID 101. -/
theorem batched_breaks_whitelist :
    ¬ ∀ kern : Kernels ℕ, FilteredKernels kern → ∀ r,
      Answered sampleConfig (Env.quiet 8 100000) (Env.quiet 9 0) waitingSearch wedgeDaemon wedgeDaemon
        waitingFrame kern r → r.Within (mapFilter waitingSearch waitingFrame) := by
  intro hall
  have hkern := probeKernels_filtered false [(⟨0, 10⟩ : SearchResult ℕ)] []
  have hreply : (batchRunGroup sampleConfig (Env.quiet 9 0)
      (probeKernels false [(⟨0, 10⟩ : SearchResult ℕ)] []) 0 wedgeDaemon
      (bfBatchRequest waitingFrame [0]) [bfBatchRequest waitingFrame [0]]).2[0]?
        = some ⟨.ok, [⟨101, 10⟩], 0, false, ""⟩ := rfl
  obtain ⟨l, hl, hmem⟩ := hall _ hkern _ (.batched rfl (.refl _) rfl hreply) rfl
  have hfilter : mapFilter waitingSearch waitingFrame = some [103] := rfl
  obtain rfl : [103] = l := Option.some.inj (hfilter.symm.trans hl)
  exact absurd (hmem ⟨101, 10⟩ (List.mem_singleton_self _)) (by decide)

end Sample

end PgCuvs
