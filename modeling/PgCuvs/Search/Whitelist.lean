import PgCuvs.Search.BatchGroup
import PgCuvs.Search.Answers
import PgCuvs.Search.DWedge
import PgCuvs.Search.Prefilter

/-! Whether a request that names a whitelist is answered with other rows. The kernels may return
any items; what a section does with them decides. -/

namespace PgCuvs

variable {D : Type}

section Kernels

/-- A filtered kernel returns items that its bitset lets through, or padding. -/
structure FilteredKernels (kern : Kernels D) : Prop where
  cagra : ∀ h query k bits device itopk width out,
    kern.cagraSearchFiltered h query k bits device itopk width = .ok out →
    ∀ r ∈ out, r.itemId = cuvsPadItemId ∨ ∃ i : ℕ, r.itemId = i ∧ bits[i]? = some false
  bruteForce : ∀ bf query k bits device out,
    kern.bfSearchFiltered bf query k bits device = .ok out →
    ∀ r ∈ out, r.itemId = cuvsPadItemId ∨ ∃ i : ℕ, r.itemId = i ∧ bits[i]? = some false

/-- An OK reply has whitelisted rows only, and there is none when the whitelist is not there. -/
def SearchReply.Within (allowed : Option (List Tid)) (r : SearchReply D) : Prop :=
  r.status = .ok → ∃ l, allowed = some l ∧ ∀ c ∈ r.results, c.tid ∈ l

theorem SearchReply.within_of_ne {allowed : Option (List Tid)} {r : SearchReply D}
    (h : r.status ≠ .ok) : r.Within allowed := fun hok => absurd hok h

def IndexEntry.Serves (e : IndexEntry) (t : Tid) : Prop := ∃ i < e.nVecs, e.tids.getD i 0 = t

def IndexEntry.ServesDelta (e : IndexEntry) (t : Tid) : Prop :=
  e.deltaIdx.isSome ∧ ∃ j < e.nDelta, (e.deltaTids.getD []).getD j 0 = t

/-- An unfiltered search can return whitelisted rows only. -/
def Harmless (allowed : Option (List Tid)) (k : ℕ) (served : Tid → Prop) : Prop :=
  ∃ l, allowed = some l ∧ (0 < k → ∀ t, served t → t ∈ l)

/-- The reverse map leads from a whitelisted TID to the row of another. -/
def IndexEntry.Strays (e : IndexEntry) (l : List Tid) : Prop :=
  ∃ revTids revItemIds, e.revTids = some revTids ∧ e.revItemIds = some revItemIds ∧
    ∃ i ∈ includedItems e revTids revItemIds l, e.tids.getD i 0 ∉ l

theorem IndexEntry.MapAligned.not_strays {e : IndexEntry} (h : e.MapAligned) (l : List Tid) :
    ¬ e.Strays l := by
  rintro ⟨revTids, revItemIds, hrev, hids, i, hi, hout⟩
  rcases h with ⟨hnone, -⟩ | ⟨rt, ri, hrt, hri, hmap⟩
  · exact nomatch hnone.symm.trans hrev
  obtain rfl := Option.some.inj (hrt.symm.trans hrev)
  obtain rfl := Option.some.inj (hri.symm.trans hids)
  obtain ⟨t, ht, hfind⟩ := List.mem_filterMap.mp hi
  obtain ⟨-, htid⟩ := hmap.revMapItem_some hfind
  refine hout ?_
  rwa [List.getD_eq_getElem?_getD, htid, Option.getD_some]

variable {e : IndexEntry} {allowed : Option (List Tid)} {k : ℕ}

theorem baseResult_serves {r : SearchResult D} {c : CuvsResult D} (h : baseResult e r = some c) :
    e.Serves c.tid := by
  obtain ⟨i, -, hi, rfl⟩ := itemResult_eq_some h
  exact ⟨i, hi, rfl⟩

theorem deltaResult_serves {r : SearchResult D} {c : CuvsResult D} (hidx : e.deltaIdx.isSome)
    (h : deltaResult e r = some c) : e.ServesDelta c.tid := by
  obtain ⟨j, -, hj, rfl⟩ := itemResult_eq_some h
  exact ⟨hidx, j, hj, rfl⟩

theorem lt_of_mem_includedItems {revTids : List Tid} {revItemIds : List ℤ} {l : List Tid} {i : ℕ}
    (h : i ∈ includedItems e revTids revItemIds l) : i < e.nVecs := by
  obtain ⟨t, -, ht⟩ := List.mem_filterMap.mp h
  unfold revMapItem at ht
  split at ht
  · exact nomatch ht
  · simp only [Option.ite_none_right_eq_some, Option.some.injEq] at ht
    omega

end Kernels

section Prefilter

variable {kern : Kernels D} {senv : SearchEnv} {frame : SearchFrame} {query : Vec}
  {e : IndexEntry} {revTids : List Tid} {revItemIds : List ℤ} {l : List Tid}

theorem prefilterResults_within (hrev : e.revTids = some revTids)
    (hids : e.revItemIds = some revItemIds) (hstray : ¬ e.Strays l)
    {raw : List (SearchResult D)} (hraw : ∀ r ∈ raw, r.itemId = cuvsPadItemId ∨ ∃ i : ℕ,
      r.itemId = i ∧ (excludedBits e.nVecs (includedItems e revTids revItemIds l))[i]? = some false)
    {c : CuvsResult D} (hc : c ∈ prefilterResults e raw) : c.tid ∈ l := by
  obtain ⟨r, hr, hresult⟩ := List.mem_filterMap.mp hc
  have hmem : r ∈ raw := (List.takeWhile_sublist _).subset hr
  obtain ⟨i, hi, hlt, rfl⟩ := itemResult_eq_some hresult
  rcases hraw r hmem with hpad | ⟨j, hj, hbit⟩
  · rw [hpad, cuvsPadItemId] at hi
    omega
  · obtain rfl : i = j := by omega
    by_contra hout
    exact hstray ⟨revTids, revItemIds, hrev, hids, i, (excludedBits_eq_false hlt).mp hbit, hout⟩

theorem prefilterOutput_included (hkern : FilteredKernels kern) {included : List ℕ}
    {p : List (SearchResult D) × SearchMode}
    (h : prefilterOutput kern frame query e included = some p) :
    ∀ r ∈ p.1, r.itemId = cuvsPadItemId ∨ ∃ i : ℕ,
      r.itemId = i ∧ (excludedBits e.nVecs included)[i]? = some false := by
  have hbrute : bruteForceOutput kern frame query e (excludedBits e.nVecs included) = some p →
      ∀ r ∈ p.1, r.itemId = cuvsPadItemId ∨ ∃ i : ℕ,
        r.itemId = i ∧ (excludedBits e.nVecs included)[i]? = some false := by
    intro hout r hr
    unfold bruteForceOutput at hout
    split at hout
    · exact nomatch hout
    split at hout
    · rename_i raw hraw
      obtain rfl := Option.some.inj hout
      exact hkern.bruteForce _ _ _ _ _ _ hraw r (List.take_subset _ _ hr)
    · exact nomatch hout
  unfold prefilterOutput at h
  dsimp only at h
  split at h
  · exact hbrute h
  split at h
  · exact hbrute h
  · rename_i raw hraw
    split_ifs at h
    · exact hbrute h
    · obtain rfl := Option.some.inj h
      exact fun r hr => hkern.cagra _ _ _ _ _ _ _ _ hraw r (List.take_subset _ _ hr)

theorem tryPrefilter_mapped {e' : IndexEntry} {p : List (CuvsResult D) × SearchMode}
    (h : tryPrefilter kern senv frame query e = (e', some p)) : ∃ l, mapFilter senv frame = some l := by
  unfold tryPrefilter at h
  split_ifs at h
  · split at h
    · rename_i l _ _ hl
      exact ⟨l, hl⟩
    · exact nomatch congrArg Prod.snd h
  · exact nomatch congrArg Prod.snd h

/-- What the prefilter returns is whitelisted when the reverse map does not stray. -/
theorem tryPrefilter_within (hkern : FilteredKernels kern) (hl : mapFilter senv frame = some l)
    (hstray : ¬ e.Strays l) {e' : IndexEntry} {p : List (CuvsResult D) × SearchMode}
    (h : tryPrefilter kern senv frame query e = (e', some p)) : ∀ c ∈ p.1, c.tid ∈ l := by
  unfold tryPrefilter at h
  split_ifs at h
  · split at h
    · rename_i revTids revItemIds filterTids hrev hids hfilter
      obtain rfl : l = filterTids := Option.some.inj (hl.symm.trans hfilter)
      have hsnd := congrArg Prod.snd h
      rw [prefilterSearch_snd] at hsnd
      obtain ⟨q, hq, rfl⟩ := Option.map_eq_some_iff.mp hsnd
      exact fun c hc => prefilterResults_within hrev hids hstray
        (prefilterOutput_included hkern hq) hc
    · exact nomatch congrArg Prod.snd h
  · exact nomatch congrArg Prod.snd h

end Prefilter

section Fallback

variable {kern : Kernels D} {e : IndexEntry} {query : Vec} {k : ℕ}

def FromItems (e : IndexEntry) (items : List ℕ) (top : List (CuvsResult D)) : Prop :=
  ∀ c ∈ top, ∃ i ∈ items, c.tid = e.tids.getD i 0

variable [LT D] [DecidableLT D]

theorem mem_topkInsert {top : List (CuvsResult D)} {tid : Tid} {dist : D} {c : CuvsResult D}
    (h : c ∈ topkInsert top k tid dist) : c ∈ top ∨ c = ⟨tid, dist⟩ := by
  have hkept : ∀ (full : Bool) (beyond : CuvsResult D → Bool),
      c ∈ (if full then top.dropLast else top).rdropWhile beyond ++
        ⟨tid, dist⟩ :: (if full then top.dropLast else top).rtakeWhile beyond →
      c ∈ top ∨ c = ⟨tid, dist⟩ := by
    intro full beyond hc
    have hsub : ∀ x ∈ (if full then top.dropLast else top), x ∈ top := by
      cases full with
      | true => exact fun x hx => List.mem_of_mem_dropLast hx
      | false => exact fun x hx => hx
    rcases List.mem_append.mp hc with hmem | hmem
    · exact .inl (hsub c ((List.rdropWhile_prefix _ _).subset hmem))
    · rcases List.mem_cons.mp hmem with rfl | hmem
      · exact .inr rfl
      · exact .inl (hsub c ((List.rtakeWhile_suffix _ _).subset hmem))
  unfold topkInsert at h
  dsimp only at h
  split_ifs at h
  · exact .inl h
  · exact hkept true _ h
  · exact hkept false _ h

theorem FromItems.insert {items : List ℕ} {top : List (CuvsResult D)} (h : FromItems e items top)
    {i : ℕ} (hi : i ∈ items) (dist : D) :
    FromItems e items (topkInsert top k (e.tids.getD i 0) dist) := by
  intro c hc
  rcases mem_topkInsert hc with hmem | rfl
  · exact h c hmem
  · exact ⟨i, hi, rfl⟩

theorem searchChunk_fromItems {rows : List Vec} {items chunk : List ℕ}
    {top out : List (CuvsResult D)} (hchunk : ∀ i ∈ chunk, i ∈ items) (h : FromItems e items top)
    (hout : searchChunk kern e query k rows chunk top = .ok out) : FromItems e items out := by
  unfold searchChunk at hout
  dsimp only at hout
  split_ifs at hout
  split at hout
  · exact nomatch hout
  rename_i res hres
  obtain rfl := Except.ok.inj hout
  clear hout hres
  generalize res.take (min k chunk.length) = raw
  induction raw generalizing top with
  | nil => exact h
  | cons r raw ih =>
    rw [List.foldl_cons]
    refine ih ?_
    split_ifs with hpad hitem
    · exact h
    · refine h.insert (hchunk _ ?_) _
      rw [not_or, not_lt, not_le] at hpad
      have hlt : r.itemId.toNat < chunk.length := by omega
      rw [List.getD_eq_getElem _ _ hlt]
      exact List.getElem_mem hlt
    · exact h

theorem searchChunks_fromItems {rows : List Vec} {items : List ℕ} {chunks : List (List ℕ)}
    {top out : List (CuvsResult D)} (hchunks : ∀ c ∈ chunks, ∀ i ∈ c, i ∈ items)
    (h : FromItems e items top)
    (hout : chunks.foldlM (fun top c => searchChunk kern e query k rows c top) top = .ok out) :
    FromItems e items out := by
  induction chunks generalizing top with
  | nil => exact Except.ok.inj hout ▸ h
  | cons c chunks ih =>
    rw [List.foldlM_cons] at hout
    cases hstep : searchChunk kern e query k rows c top with
    | error status =>
      rw [hstep] at hout
      exact nomatch hout
    | ok next =>
      rw [hstep] at hout
      exact ih (fun c' hc' => hchunks c' (List.mem_cons_of_mem _ hc'))
        (searchChunk_fromItems (hchunks c List.mem_cons_self) h hstep) hout

theorem mem_of_mem_chunksOf {α : Type*} {n fuel : ℕ} {l c : List α} (hc : c ∈ chunksOf n fuel l) :
    ∀ x ∈ c, x ∈ l := by
  induction fuel generalizing l with
  | zero => cases hc
  | succ fuel ih =>
    rw [chunksOf] at hc
    split_ifs at hc
    · cases hc
    rcases List.mem_cons.mp hc with rfl | hc
    · exact fun x hx => List.take_subset _ _ hx
    · exact fun x hx => List.drop_subset _ _ (ih hc x hx)

/-- The chunked search returns rows that the reverse map gives for the whitelist. -/
theorem searchFilterExact_within {a : Artifacts} {l : List Tid} {chunkCap : ℕ}
    {out : List (CuvsResult D)} (hstray : ¬ e.Strays l)
    (h : searchFilterExact kern a e query (cuvsU64Sort l) k chunkCap = .ok out) :
    ∀ c ∈ out, c.tid ∈ l := by
  unfold searchFilterExact at h
  split at h
  · rename_i revTids revItemIds hrev hids
    have hitems : FromItems e
        ((dedupAdjacent (cuvsU64Sort l)).filterMap (revMapItem e.nVecs revTids revItemIds)) out := by
      dsimp only at h
      split_ifs at h
      · exact Except.ok.inj h ▸ fun c hc => absurd hc List.not_mem_nil
      split at h
      · exact nomatch h
      split_ifs at h
      exact searchChunks_fromItems (fun c hc => mem_of_mem_chunksOf hc)
        (fun c hc => absurd hc List.not_mem_nil) h
    intro c hc
    obtain ⟨i, hi, heq⟩ := hitems c hc
    obtain ⟨t, ht, hti⟩ := List.mem_filterMap.mp hi
    have hmem : t ∈ l := (qsort_perm _ l).subset (mem_dedupAdjacent.mp ht)
    by_contra hout
    exact hstray ⟨revTids, revItemIds, hrev, hids, i, List.mem_filterMap.mpr ⟨t, hmem, hti⟩,
      heq ▸ hout⟩
  · exact nomatch h

end Fallback

section BruteForce

variable [LinearOrder D] {cfg : Config} {env : Env} {senv : SearchEnv} {kern : Kernels D}
  {d d' : Daemon} {i : ℕ} {e : IndexEntry} {frame : SearchFrame} {query : Vec} {r : SearchReply D}

omit [LinearOrder D] in
theorem failEntry_within {status : Status} {error : String} (hne : status ≠ .ok)
    {allowed : Option (List Tid)} (h : failEntry env d i e status error = .reply d' r) :
    r.Within allowed :=
  SearchReply.within_of_ne (failEntry_reply h ▸ hne)

omit [LinearOrder D] in
theorem answerEntry_within {k : ℕ} {mode : SearchMode} {results : List (CuvsResult D)}
    {merged : Bool} {l : List Tid} (hl : mapFilter senv frame = some l)
    (hresults : ∀ c ∈ results, c.tid ∈ l)
    (h : answerEntry env senv d i e k mode results merged = .reply d' r) :
    r.Within (mapFilter senv frame) :=
  fun _ => ⟨l, hl, (answerEntry_reply h).1 ▸ hresults⟩

omit [LinearOrder D] in
theorem mem_whitelistResults {k : ℕ} {l : List Tid} {raw : List (SearchResult D)} {c : CuvsResult D}
    (h : c ∈ whitelistResults e k (some (cuvsU64Sort l)) raw) : c.tid ∈ l := by
  have hcontains := (List.mem_filter.mp (List.take_subset _ _ h)).2
  exact (qsort_perm _ l).subset ((cuvsU64Contains_iff (cuvsU64Sort_sorted l)).mp hcontains)

theorem searchDWedge_within (bf : BfIndex) (hfilter : 0 < frame.nFilterTids)
    (hstray : ∀ l, mapFilter senv frame = some l → ¬ e.Strays l)
    (h : searchDWedge cfg env senv kern d i e bf frame query = .reply d' r) :
    r.Within (mapFilter senv frame) := by
  rw [searchDWedge_eq, dWedgeAt] at h
  dsimp only at h
  split at h
  · split_ifs at h
    · exact failEntry_within (by decide) h
    · exact failEntry_within (by decide) h
  rw [if_pos hfilter] at h
  rcases hl : mapFilter senv frame with _ | l
  · rw [hl, Option.map_none] at h
    simp only [cuvsFilterFrameRefuses, hfilter, decide_true, Option.isSome_none, Bool.not_false,
      Bool.and_self, if_true] at h
    exact failEntry_within (by decide) h
  rw [hl, Option.map_some] at h
  simp only [cuvsFilterFrameRefuses, Option.isSome_some, Bool.not_true, Bool.and_false,
    Bool.false_eq_true, if_false] at h
  rw [← hl]
  split_ifs at h
  · split at h
    · rename_i results hexact
      exact answerEntry_within hl (searchFilterExact_within (hstray l hl) hexact) h
    · rename_i status hexact
      exact failEntry_within (searchFilterExact_error_ne_ok hexact) h
  · exact answerEntry_within hl (fun c hc => mem_whitelistResults hc) h

theorem searchBruteForce_within (hkern : FilteredKernels kern) (hfilter : 0 < frame.nFilterTids)
    (hstray : ∀ l, mapFilter senv frame = some l →
      ¬ (refreshMainBfCache (d.disk cfg.indexDir e.key) (hasRoom env d i) env.bfBuilds
        frame.bfPrecision e).Strays l)
    (h : searchBruteForce cfg env senv kern d i e frame query = .reply d' r) :
    r.Within (mapFilter senv frame) := by
  unfold searchBruteForce at h
  dsimp only at h
  set e' := refreshMainBfCache (d.disk cfg.indexDir e.key) (hasRoom env d i) env.bfBuilds
    frame.bfPrecision e
  split_ifs at h
  · exact failEntry_within (by decide) h
  split at h
  · rename_i e1 results mode htry
    obtain ⟨l, hl⟩ := tryPrefilter_mapped htry
    exact answerEntry_within hl (tryPrefilter_within hkern hl (hstray l hl) htry) h
  · rename_i e1 htry
    obtain ⟨s, hs⟩ : ∃ s, (tryPrefilter kern senv frame query e').1 = { e' with stats := s } :=
      tryPrefilter_stats
    rw [htry] at hs
    subst hs
    dsimp only at h
    split at h
    · exact failEntry_within (by decide) h
    · exact searchDWedge_within (e := { e' with stats := s }) _ hfilter (fun l hl => hstray l hl) h

end BruteForce

section Graph

variable [LinearOrder D] {cfg : Config} {env : Env} {senv : SearchEnv} {kern : Kernels D}
  {d d' : Daemon} {i : ℕ} {e : IndexEntry} {frame : SearchFrame} {query : Vec} {r : SearchReply D}

def IndexEntry.ServesMerged (e : IndexEntry) (t : Tid) : Prop := e.Serves t ∨ e.ServesDelta t

theorem mem_cagraFinishOne {base : List (SearchResult D)} {k nDc : ℕ}
    {draw : Option (List (SearchResult D))} (hdraw : draw.isSome → e.deltaIdx.isSome)
    {c : CuvsResult D} (hc : c ∈ (cagraFinishOne e base k draw nDc).2.1) :
    0 < k ∧ e.ServesMerged c.tid := by
  have hbase : c ∈ (base.take k).filterMap (baseResult e) → 0 < k ∧ e.ServesMerged c.tid := by
    intro hmem
    obtain ⟨x, hx, hresult⟩ := List.mem_filterMap.mp hmem
    refine ⟨?_, .inl (baseResult_serves hresult)⟩
    by_contra hzero
    rw [Nat.eq_zero_of_not_pos hzero, List.take_zero] at hx
    cases hx
  unfold cagraFinishOne at hc
  split at hc
  · rename_i out
    split_ifs at hc
    · have hmem := List.take_subset _ _ hc
      have hpos : 0 < k := by
        by_contra hzero
        rw [Nat.eq_zero_of_not_pos hzero, List.take_zero] at hc
        cases hc
      rcases List.mem_append.mp ((qsort_perm _ _).subset hmem) with hmem | hmem
      · exact hbase hmem
      · obtain ⟨x, -, hresult⟩ := List.mem_filterMap.mp hmem
        exact ⟨hpos, .inr (deltaResult_serves (hdraw rfl) hresult)⟩
    · exact hbase hc
  · exact hbase hc

omit [LinearOrder D] in
theorem searchDelta_idx [LT D] [DecidableLT D] {k device : ℕ} (h : (searchDelta kern query k device e).1.isSome) :
    e.deltaIdx.isSome := by
  unfold searchDelta at h
  split at h
  · exact nomatch h
  · rename_i hidx
    rw [hidx]
    rfl

omit [LinearOrder D] in
theorem Harmless.within {allowed : Option (List Tid)} {k : ℕ} {served : Tid → Prop}
    (h : Harmless allowed k served) (hr : ∀ c ∈ r.results, 0 < k ∧ served c.tid) :
    r.Within allowed := by
  obtain ⟨l, hl, hserved⟩ := h
  exact fun _ => ⟨l, hl, fun c hc => hserved (hr c hc).1 _ (hr c hc).2⟩

theorem searchCagra_within {allowed : Option (List Tid)}
    (hsafe : e.handle.isSome → Harmless allowed frame.k
      (refreshDeltaCache (d.disk cfg.indexDir e.key) (hasRoom env d i) env.bfBuilds e).ServesMerged)
    (h : searchCagra cfg env senv kern d i e frame query = .reply d' r) : r.Within allowed := by
  unfold searchCagra at h
  split at h
  · exact failEntry_within (by decide) h
  rename_i g hg
  split at h
  · split_ifs at h
    · exact failEntry_within (by decide) h
    · exact failEntry_within (by decide) h
  · refine (hsafe (by rw [hg]; rfl)).within fun c hc => ?_
    rw [(answerEntry_reply h).1] at hc
    exact mem_cagraFinishOne searchDelta_idx hc

omit [LinearOrder D] in
theorem tryCpuHnsw_some {a : Artifacts} {e' : IndexEntry} {results : List (CuvsResult D)}
    (h : tryCpuHnsw a senv kern frame query e = (e', some results)) :
    e' = graphEntry a senv frame e ∧ frame.useCpuHnsw = true ∧ e'.hnswIdx.isSome ∧
      ∀ c ∈ results, 0 < frame.k ∧ e'.Serves c.tid := by
  unfold tryCpuHnsw at h
  unfold graphEntry
  split_ifs at h with huse
  · rw [if_pos huse]
    dsimp only at h
    split at h
    · exact nomatch congrArg Prod.snd h
    rename_i g hg
    split at h
    · obtain ⟨rfl, hresults⟩ := Prod.mk.inj h
      obtain rfl := Option.some.inj hresults
      refine ⟨rfl, huse, by rw [hg]; rfl, fun c hc => ?_⟩
      obtain ⟨x, hx, hresult⟩ := List.mem_filterMap.mp hc
      refine ⟨?_, baseResult_serves hresult⟩
      by_contra hzero
      rw [Nat.eq_zero_of_not_pos hzero, List.take_zero] at hx
      exact nomatch hx
    · exact nomatch congrArg Prod.snd h
  · exact nomatch congrArg Prod.snd h

structure GraphSafe (cfg : Config) (env : Env) (senv : SearchEnv) (d : Daemon) (i : ℕ)
    (e : IndexEntry) (frame : SearchFrame) : Prop where
  hnsw : frame.useCpuHnsw = true → e.hnswIdx.isSome →
    Harmless (mapFilter senv frame) frame.k e.Serves
  cagra : e.handle.isSome → Harmless (mapFilter senv frame) frame.k
    (refreshDeltaCache (d.disk cfg.indexDir e.key) (hasRoom env d i) env.bfBuilds e).ServesMerged

theorem searchGraph_eq (hfilter : 0 < frame.nFilterTids) :
    searchGraph cfg env senv kern d i e frame query
      = match tryCpuHnsw (d.disk cfg.indexDir e.key) senv kern frame query e with
        | (e', some results) => answerEntry env senv d i e' frame.k .cpuHnsw results false
        | (e', none) => searchCagra cfg env senv kern (d.setEntry i e') i e' frame query := by
  unfold searchGraph
  rcases tryCpuHnsw (d.disk cfg.indexDir e.key) senv kern frame query e with ⟨e', _ | results⟩
  · exact if_neg fun hgate => hfilter.ne' hgate.2.2.1
  · rfl

theorem searchGraph_within (hfilter : 0 < frame.nFilterTids)
    (hsafe : GraphSafe cfg env senv
      (d.setEntry i (graphEntry (d.disk cfg.indexDir e.key) senv frame e)) i
      (graphEntry (d.disk cfg.indexDir e.key) senv frame e) frame)
    (h : searchGraph cfg env senv kern d i e frame query = .reply d' r) :
    r.Within (mapFilter senv frame) := by
  rw [searchGraph_eq hfilter] at h
  split at h
  · rename_i e' results htry
    obtain ⟨rfl, huse, hidx, hserved⟩ := tryCpuHnsw_some htry
    refine (hsafe.hnsw huse hidx).within fun c hc => ?_
    exact hserved c ((answerEntry_reply h).1 ▸ hc)
  · rename_i e' htry
    have he' : e' = graphEntry (d.disk cfg.indexDir e.key) senv frame e := by
      rcases tryCpuHnsw_cases (d.disk cfg.indexDir e.key) kern query e with
        hcase | ⟨g, raw, -, -, hcase⟩
      · exact congrArg Prod.fst (htry.symm.trans hcase)
      · exact nomatch congrArg Prod.snd (htry.symm.trans hcase)
    subst he'
    exact searchCagra_within hsafe.cagra h

end Graph

end PgCuvs
