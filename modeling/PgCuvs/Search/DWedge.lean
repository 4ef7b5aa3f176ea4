import PgCuvs.Search.FilterExact
import PgCuvs.Search.Signed

/-! Filtered brute force on one device. Whatever depth the deep search gets, it
is cut down to the nearest whitelisted rows or replaced by the chunked search. -/

namespace PgCuvs

open Selection

variable {D : Type}

section Fill

variable [LinearOrder D] {kern : Kernels D} {query : Vec} {dist : Vec → D} {e : IndexEntry}
  {k : ℕ}

def BruteForceWhenOk (kern : Kernels D) (metric : Metric) (query : Vec) (dist : Vec → D)
    (device : ℕ) : Prop :=
  ∀ rows k out, 0 < k → k ≤ rows.length →
    kern.bruteForceSearch rows query k metric device = .ok out → ExactTopK metric dist rows k out

def Kernels.fill (kern : Kernels D) (dist : Vec → D) : Kernels D :=
  { kern with
    bruteForceSearch := fun rows q k metric device =>
      match kern.bruteForceSearch rows q k metric device with
      | .ok out => .ok out
      | .error _ => .ok (sortedRows metric dist rows k) }

theorem BruteForceWhenOk.fill {metric : Metric} {device : ℕ}
    (K : BruteForceWhenOk kern metric query dist device) :
    ExactBruteForce (kern.fill dist) metric query dist device := by
  intro rows k hpos hle
  cases h : kern.bruteForceSearch rows query k metric device with
  | ok out => exact ⟨out, by simp [Kernels.fill, h], K rows k out hpos hle h⟩
  | error rc =>
    exact ⟨_, by simp [Kernels.fill, h], sortedRows_exact metric dist rows le_rfl⟩

theorem searchChunk_fill {rows : List Vec} {items : List ℕ} {top out : List (CuvsResult D)}
    (h : searchChunk kern e query k rows items top = .ok out) :
    searchChunk (kern.fill dist) e query k rows items top = .ok out := by
  simp only [searchChunk, Kernels.fill] at h ⊢
  split_ifs at h ⊢ with hread
  cases hkern : kern.bruteForceSearch (items.map fun i => rows.getD i []) query
      (min k items.length) e.metric (deltaGpuOf e) with
  | error rc => simp only [hkern, reduceCtorEq] at h
  | ok res => simpa only [hkern] using h

theorem searchChunks_fill {rows : List Vec} (cs : List (List ℕ)) {top out : List (CuvsResult D)}
    (h : cs.foldlM (fun top c => searchChunk kern e query k rows c top) top = .ok out) :
    cs.foldlM (fun top c => searchChunk (kern.fill dist) e query k rows c top) top = .ok out := by
  induction cs generalizing top with
  | nil => exact h
  | cons c cs ih =>
    rw [List.foldlM_cons] at h ⊢
    cases hstep : searchChunk kern e query k rows c top with
    | error status => simp [hstep, bind, Except.bind] at h
    | ok next =>
      rw [hstep] at h
      rw [searchChunk_fill hstep]
      exact ih h

theorem searchFilterExact_fill {a : Artifacts} {filterTids : List Tid} {chunkCap : ℕ}
    {out : List (CuvsResult D)}
    (h : searchFilterExact kern a e query filterTids k chunkCap = .ok out) :
    searchFilterExact (kern.fill dist) a e query filterTids k chunkCap = .ok out := by
  unfold searchFilterExact at h ⊢
  split at h
  · simp only at h ⊢
    split_ifs at h ⊢ with hzero hitems
    · exact h
    · cases hfile : a.vectors with
      | none => simp only [hfile, reduceCtorEq] at h
      | some f =>
        simp only [hfile] at h ⊢
        split_ifs at h ⊢ with hfits
        exact searchChunks_fill _ h
  · cases h

theorem searchChunk_error {rows : List Vec} {items : List ℕ} {top : List (CuvsResult D)}
    {status : Status} (h : searchChunk kern e query k rows items top = .error status) :
    status = .error := by
  simp only [searchChunk] at h
  split_ifs at h with hread
  · exact (Except.error.inj h).symm
  · split at h
    · exact (Except.error.inj h).symm
    · cases h

theorem searchChunks_error {rows : List Vec} (cs : List (List ℕ)) {top : List (CuvsResult D)}
    {status : Status}
    (h : cs.foldlM (fun top c => searchChunk kern e query k rows c top) top = .error status) :
    status = .error := by
  induction cs generalizing top with
  | nil => cases h
  | cons c cs ih =>
    rw [List.foldlM_cons] at h
    cases hstep : searchChunk kern e query k rows c top with
    | error status' =>
      rw [hstep] at h
      exact (Except.error.inj h) ▸ searchChunk_error hstep
    | ok next =>
      rw [hstep] at h
      exact ih h

theorem searchFilterExact_error_ne_ok {a : Artifacts} {filterTids : List Tid} {chunkCap : ℕ}
    {status : Status}
    (h : searchFilterExact kern a e query filterTids k chunkCap = .error status) :
    status ≠ .ok := by
  unfold searchFilterExact at h
  split at h
  · simp only at h
    split_ifs at h with hzero hitems
    · cases h
      decide
    · cases hfile : a.vectors with
      | none =>
        simp only [hfile, Except.error.injEq] at h
        exact h ▸ (by decide)
      | some f =>
        simp only [hfile] at h
        split_ifs at h with hfits
        · cases h
          decide
        · rw [searchChunks_error _ h]
          decide
  · cases h
    decide

end Fill

/-- The rows of an entry's TIDs. They are in the cache while the file has its
mtime, and in every file that a refresh would take. -/
structure AlignedCache (a : Artifacts) (e : IndexEntry) (rows : List Vec) : Prop where
  distinct : e.tids.Nodup
  length_tids : e.tids.length = e.nVecs
  length_rows : rows.length = e.nVecs
  map : e.MapAligned
  cached : ∀ b, e.mainBfIdx = some b →
    b.rows = rows ∧ b.metric = e.metric ∧ b.precision = e.bfPrecision ∧ e.mainBfN = rows.length
  current : ∀ b f, e.mainBfIdx = some b → a.vectors = some f → f.mtime = e.mainBfMtime →
    f.content.body.take e.nVecs = rows
  loads : ∀ f hdr vecs, a.vectors = some f → vectorsForEntry a f.content e = some (hdr, vecs) →
    vecs = rows

theorem AlignedCache.mapped {a : Artifacts} {e : IndexEntry} {rows : List Vec}
    {revTids : List Tid} (A : AlignedCache a e rows) (h : e.revTids = some revTids)
    (hpos : e.nVecs ≠ 0) : MappedRows e rows where
  map := A.map.resolve_left fun hnone => by simp [hnone.1] at h
  distinct := A.distinct
  length_tids := A.length_tids
  length_rows := A.length_rows
  pos := Nat.pos_of_ne_zero hpos

section Refresh

variable {a : Artifacts} {room : Room} {builds : List Vec → ℕ → Bool} {prec : ℕ}
  {e : IndexEntry} {rows : List Vec}

theorem vectorsForEntry_body {f : VectorsFile} {hdr : VectorsHeader} {vecs : List Vec}
    (h : vectorsForEntry a f e = some (hdr, vecs)) :
    f.body.take e.nVecs = vecs ∧ hdr.metric = e.metric ∧ hdr.nVecs = e.nVecs := by
  unfold vectorsForEntry at h
  split at h
  · cases h
  · rename_i vh body hread
    split_ifs at h with hfits hgen
    cases h
    obtain ⟨-, hmetric, hn⟩ := not_or.mp (mt (Or.imp_right id) hfits) |>.imp id not_or.mp
    simp only [cuvsVectorsRead] at hread
    split_ifs at hread
    cases hread
    exact ⟨by rw [not_not.mp hn], not_not.mp hmetric, not_not.mp hn⟩

theorem vectorsForEntry_congr {e' : IndexEntry} (hdim : e'.dim = e.dim)
    (hmetric : e'.metric = e.metric) (hn : e'.nVecs = e.nVecs) (f : VectorsFile) :
    vectorsForEntry a f e' = vectorsForEntry a f e := by
  simp only [vectorsForEntry, hdim, hmetric, hn]

theorem refreshMainBfCache_current {b : BfIndex}
    (hb : (refreshMainBfCache a room builds prec e).mainBfIdx = some b) :
    (refreshMainBfCache a room builds prec e).bfPrecision = prec ∧
      ∃ f, a.vectors = some f ∧
        f.mtime = (refreshMainBfCache a room builds prec e).mainBfMtime := by
  unfold refreshMainBfCache at hb ⊢
  cases hfile : a.vectors with
  | none => simp [hfile, freeMainBfCache] at hb
  | some f =>
    simp only [hfile] at hb ⊢
    split_ifs at hb ⊢ with hkeep
    · exact ⟨hkeep.2.2, f, rfl, hkeep.2.1⟩
    · split
      · exact ⟨rfl, f, rfl, rfl⟩
      · split_ifs <;> exact ⟨rfl, f, rfl, rfl⟩

theorem refreshMainBfCache_cases {b : BfIndex}
    (hb : (refreshMainBfCache a room builds prec e).mainBfIdx = some b) :
    refreshMainBfCache a room builds prec e = e ∨
      ∃ f hdr, a.vectors = some f ∧ vectorsForEntry a f.content e = some (hdr, b.rows) ∧
        b.metric = hdr.metric ∧ b.precision = prec ∧
        (refreshMainBfCache a room builds prec e).mainBfN = hdr.nVecs := by
  unfold refreshMainBfCache at hb ⊢
  cases hfile : a.vectors with
  | none => simp [hfile, freeMainBfCache] at hb
  | some f =>
    simp only [hfile] at hb ⊢
    split_ifs at hb ⊢ with hkeep
    · exact .inl rfl
    · right
      split at hb
      · cases hb
      · rename_i hdr vecs hload
        split_ifs at hb ⊢ with hroom hbuild
        · cases hb
        · cases hb
        · cases hb
          exact ⟨f, hdr, rfl, hload, rfl, rfl, rfl⟩

theorem AlignedCache.refreshed (A : AlignedCache a e rows) :
    AlignedCache a (refreshMainBfCache a room builds prec e) rows := by
  have hdim : (refreshMainBfCache a room builds prec e).dim = e.dim :=
    refreshMainBfCache_field IndexEntry.dim (fun _ _ _ _ _ _ _ => rfl) e
  have hmetric : (refreshMainBfCache a room builds prec e).metric = e.metric :=
    refreshMainBfCache_field IndexEntry.metric (fun _ _ _ _ _ _ _ => rfl) e
  have hn : (refreshMainBfCache a room builds prec e).nVecs = e.nVecs := refreshMainBfCache_nVecs e
  refine ⟨?_, ?_, ?_, ?_, fun b hb => ?_, fun b f hb hf hmtime => ?_, fun f hdr vecs hf hload => ?_⟩
  · rw [refreshMainBfCache_tids]
    exact A.distinct
  · rw [refreshMainBfCache_tids, refreshMainBfCache_nVecs]
    exact A.length_tids
  · rw [refreshMainBfCache_nVecs]
    exact A.length_rows
  · exact refreshMainBfCache_field IndexEntry.MapAligned (fun _ _ _ _ _ _ _ => rfl) e ▸ A.map
  · have hprec := (refreshMainBfCache_current hb).1
    rcases refreshMainBfCache_cases hb with hkeep | ⟨f, hdr, hf, hload, hbmetric, hbprec, hmain⟩
    · rw [hkeep] at hb ⊢
      exact A.cached b hb
    · obtain ⟨-, hhdr, hlen⟩ := vectorsForEntry_body hload
      refine ⟨A.loads f hdr b.rows hf hload, ?_, hbprec.trans hprec.symm, ?_⟩
      · rw [hbmetric, hhdr, hmetric]
      · rw [hmain, hlen, A.length_rows]
  · rw [hn]
    rcases refreshMainBfCache_cases hb with hkeep | ⟨f', hdr, hf', hload, -, -, -⟩
    · rw [hkeep] at hb hmtime
      exact A.current b f hb hf hmtime
    · obtain rfl : f' = f := Option.some.inj (hf'.symm.trans hf)
      rw [(vectorsForEntry_body hload).1]
      exact A.loads f' hdr b.rows hf hload
  · rw [vectorsForEntry_congr hdim hmetric hn] at hload
    exact A.loads f hdr vecs hf hload

end Refresh

section Answer

variable [LinearOrder D] {cfg : Config} {env : Env} {senv : SearchEnv} {kern : Kernels D}
  {d d' : Daemon} {i : ℕ} {a : Artifacts} {e : IndexEntry} {rows : List Vec} {frame : SearchFrame}
  {query : Vec} {dist : Vec → D} {r : SearchReply D} {k : ℕ} {filterTids : List Tid}

/-- The chunked search, when it completes. -/
theorem searchFilterExact_ok_isNearest (A : AlignedCache a e rows)
    (hfile : ∀ f, a.vectors = some f → f.content.body.take e.nVecs = rows)
    (K : BruteForceWhenOk kern e.metric query dist (deltaGpuOf e)) (hk : 0 < k)
    (hsorted : filterTids.Pairwise (· ≤ ·)) (hmetric : e.metric ≠ .ip) {chunkCap : ℕ}
    {out : List (CuvsResult D)}
    (h : searchFilterExact kern a e query filterTids k chunkCap = .ok out) :
    IsNearest e.metric.Nearer CuvsResult.distance k
      (whitelisted filterTids (candidates dist e.tids rows)) out := by
  have hread := h
  unfold searchFilterExact at hread
  split at hread
  · rename_i revTids revItemIds hrevTids hrevItems
    simp only at hread
    split_ifs at hread with hzero hitems
    · have M := A.mapped hrevTids hzero
      have hitems' : filterItems e filterTids = [] := by
        rw [filterItems, hrevTids, hrevItems]
        exact hitems
      have hnone := M.filterItems_perm dist hsorted
      rw [hitems', List.map_nil] at hnone
      rw [hnone.nil_eq.symm, ← Except.ok.inj hread]
      exact isNearest_nil k
    · have M := A.mapped hrevTids hzero
      cases hvectors : a.vectors with
      | none => simp only [hvectors, reduceCtorEq] at hread
      | some f =>
        simp only [hvectors] at hread
        split_ifs at hread with hfits
        have V : VectorsMatch a e rows := by
          refine ⟨f, hvectors, hfile f hvectors, ?_⟩
          simpa only [not_or, not_not] using hfits
        obtain ⟨out', hout', hnear⟩ :=
          searchFilterExact_isNearest M V K.fill hk hsorted hmetric chunkCap
        obtain rfl : out' = out := Except.ok.inj (hout'.symm.trans (searchFilterExact_fill h))
        exact hnear
  · cases hread

/-- `searchDWedge` with the depth that it chose. -/
def dWedgeAt (cfg : Config) (env : Env) (senv : SearchEnv) (kern : Kernels D) (d : Daemon)
    (i : ℕ) (e : IndexEntry) (bf : BfIndex) (frame : SearchFrame) (query : Vec) (bk : ℕ) :
    SearchOutcome D :=
  let k := frame.k
  let raw : Except ℕ (List (SearchResult D)) :=
    if 0 < bk then kern.bfSearch bf query bk (deltaGpuOf e) else .ok []
  match raw with
  | .error rc =>
    if rc = 2 then failEntry env d i e .dimMismatch "query dim != index dim"
    else failEntry env d i e .oomFallback "brute_force search failed"
  | .ok raw =>
    let filterTids :=
      if 0 < frame.nFilterTids then (mapFilter senv frame).map cuvsU64Sort else none
    if cuvsFilterFrameRefuses frame.nFilterTids filterTids.isSome then
      failEntry env d i e .error "filter TID set unavailable; refusing to return unfiltered rows"
    else
      let results := whitelistResults e k filterTids (raw.take bk)
      match filterTids with
      | some l =>
        if results.length < k ∧ bk < e.mainBfN then
          match searchFilterExact kern (d.disk cfg.indexDir e.key) e query l k
              (exactChunkCap frame.nVecs) with
          | .ok results => answerEntry env senv d i e k .bfExact results false
          | .error status =>
            failEntry env d i e status "filtered search could not complete exact fallback"
        else answerEntry env senv d i e k .gpuBf results false
      | none => answerEntry env senv d i e k .gpuBf results false

theorem searchDWedge_eq (bf : BfIndex) :
    searchDWedge cfg env senv kern d i e bf frame query
      = dWedgeAt cfg env senv kern d i e bf frame query
          (bkDepth frame.k frame.nFilterTids e.mainBfN frame.nVecs) := rfl

omit [LinearOrder D] in
theorem whitelistResults_eq (hn : e.nVecs = rows.length) (hsorted : filterTids.Pairwise (· ≤ ·))
    (raw : List (SearchResult D)) :
    whitelistResults e k (some filterTids) raw
      = (whitelisted filterTids (raw.filterMap (itemResult rows.length e.tids))).take k := by
  have hcontains : (fun c : CuvsResult D => cuvsU64Contains filterTids c.tid)
      = fun c => decide (c.tid ∈ filterTids) := by
    funext c
    rw [Bool.eq_iff_iff, cuvsU64Contains_iff hsorted, decide_eq_true_iff]
  simp only [whitelistResults, whitelisted, baseResult, hn, hcontains]

def WhitelistAnswered (senv : SearchEnv) (frame : SearchFrame) (dist : Vec → D)
    (e : IndexEntry) (rows : List Vec) (results : List (CuvsResult D)) : Prop :=
  ∃ l, mapFilter senv frame = some l ∧
    IsNearest e.metric.Nearer CuvsResult.distance frame.k
      (whitelisted l (candidates dist e.tids rows)) results

/-- At any depth the prefix is either long enough or replaced. -/
theorem dWedgeAt_answers {b : BfIndex} {bk : ℕ} {file : Stamped VectorsFile}
    (A : AlignedCache (d.disk cfg.indexDir e.key) e rows) (hb : e.mainBfIdx = some b)
    (hfile : (d.disk cfg.indexDir e.key).vectors = some file) (hmtime : file.mtime = e.mainBfMtime)
    (KB : ∀ k dev out, kern.bfSearch b query k dev = .ok out →
      ExactTopK e.metric dist b.rows k out)
    (KF : BruteForceWhenOk kern e.metric query dist (deltaGpuOf e)) (hk : 1 ≤ frame.k)
    (hmetric : e.metric ≠ .ip) (hfilter : 0 < frame.nFilterTids)
    (h : dWedgeAt cfg env senv kern d i e b frame query bk = .reply d' r) (hok : r.status = .ok) :
    WhitelistAnswered senv frame dist e rows r.results := by
  have htids := A.length_tids.trans A.length_rows.symm
  obtain ⟨rfl, -, -, hmain⟩ := A.cached b hb
  have hbody : ∀ f, (d.disk cfg.indexDir e.key).vectors = some f →
      f.content.body.take e.nVecs = b.rows := by
    intro f hf
    obtain rfl : file = f := Option.some.inj (hfile.symm.trans hf)
    exact A.current b file hb hfile hmtime
  simp only [dWedgeAt, hfilter, if_true] at h
  split at h
  · split_ifs at h <;> simp [failEntry_reply h] at hok
  · rename_i raw hraw
    have hexact : ExactTopK e.metric dist b.rows bk raw := by
      split_ifs at hraw with hpos
      · exact KB _ _ _ hraw
      · obtain rfl : [] = raw := Except.ok.inj hraw
        refine ⟨by simp, by simp; omega, rankedRows dist b.rows, by simp, by simp⟩
    have hprefix := hexact.results htids
    cases hmap : mapFilter senv frame with
    | none =>
      simp only [hmap, Option.map_none, Option.isSome_none, cuvsFilterFrameRefuses, hfilter,
        decide_true, Bool.not_false, Bool.and_self, if_true] at h
      simp [failEntry_reply h] at hok
    | some l =>
      refine ⟨l, hmap, ?_⟩
      have hsorted := cuvsU64Sort_sorted l
      simp only [hmap, Option.map_some, Option.isSome_some, cuvsFilterFrameRefuses, Bool.not_true,
        Bool.and_false, Bool.false_eq_true, if_false] at h
      rw [← whitelisted_sort]
      -- a short reply falls back to the exact scan of the listed rows
      split_ifs at h with hshort
      · split at h
        · rename_i out hout
          rw [(answerEntry_reply h).1]
          exact searchFilterExact_ok_isNearest A hbody KF hk hsorted hmetric hout
        · rename_i status hout
          rw [failEntry_reply h] at hok
          exact absurd hok (searchFilterExact_error_ne_ok hout)
      · rw [(answerEntry_reply h).1, whitelistResults_eq A.length_rows.symm hsorted]
        -- long enough, or the whole corpus
        refine hprefix.filter_of_wide ?_
        rcases not_and_or.mp hshort with hfull | hall
        · left
          rw [not_lt, whitelistResults_eq A.length_rows.symm hsorted] at hfull
          exact (hfull.trans (by rw [List.length_take]; exact min_le_right _ _))
        · right
          rw [hmain, not_lt] at hall
          simpa [candidates, htids] using hall

def withMainBf (cfg : Config) (env : Env) (d : Daemon) (i : ℕ) (frame : SearchFrame)
    (e : IndexEntry) : IndexEntry :=
  refreshMainBfCache (d.disk cfg.indexDir e.key) (hasRoom env d i) env.bfBuilds frame.bfPrecision e

omit [LinearOrder D] in
@[simp] theorem withMainBf_key : (withMainBf cfg env d i frame e).key = e.key :=
  refreshMainBfCache_key e

theorem searchBruteForce_dwedge (hprefilter : frame.usePrefilter = false)
    (h : searchBruteForce cfg env senv kern d i e frame query = .reply d' r)
    (hok : r.status = .ok) :
    ∃ b, (withMainBf cfg env d i frame e).mainBfIdx = some b ∧
      searchDWedge cfg env senv kern d i (withMainBf cfg env d i frame e) b frame query
        = .reply d' r := by
  unfold searchBruteForce at h
  change (if (withMainBf cfg env d i frame e).mainBfIdx.isNone ∧
    prefilterReady frame (withMainBf cfg env d i frame e) = false then _ else _) = _ at h
  split_ifs at h with hnone
  · simp [failEntry_reply h] at hok
  · have hskip : tryPrefilter kern senv frame query (withMainBf cfg env d i frame e)
        = (withMainBf cfg env d i frame e, none) := by
      simp [tryPrefilter, hprefilter]
    unfold withMainBf at hskip
    rw [hskip] at h
    simp only at h
    split at h
    · simp [failEntry_reply h] at hok
    · rename_i b hb
      exact ⟨b, hb, h⟩

structure WedgeKernels (kern : Kernels D) (metric : Metric) (query : Vec) (dist : Vec → D)
    (device : ℕ) : Prop where
  cache : ∀ b k dev out, b.metric = metric → b.precision = 0 →
    kern.bfSearch b query k dev = .ok out → ExactTopK metric dist b.rows k out
  chunk : BruteForceWhenOk kern metric query dist device

theorem wedgeKernels_sort (metric : Metric) (query : Vec) (dist : Vec → D) (device : ℕ) :
    WedgeKernels (sortKernels metric fun _ => dist) metric query dist device where
  cache b _ _ _ _ _ hout := Except.ok.inj hout ▸ sortedRows_exact metric dist b.rows le_rfl
  chunk rows _ _ _ _ hout := Except.ok.inj hout ▸ sortedRows_exact metric dist rows le_rfl

theorem withMainBf_answers (A : AlignedCache (d.disk cfg.indexDir e.key) e rows)
    (hprecision : frame.bfPrecision = 0) (hmetric : e.metric = .l2 ∨ e.metric = .cosine)
    (hk : 1 ≤ frame.k) (hfilter : 0 < frame.nFilterTids)
    (K : WedgeKernels kern e.metric query dist (deltaGpuOf e)) {b : BfIndex} {bk : ℕ}
    (hb : (withMainBf cfg env d i frame e).mainBfIdx = some b)
    (h : dWedgeAt cfg env senv kern d i (withMainBf cfg env d i frame e) b frame query bk
      = .reply d' r) (hok : r.status = .ok) :
    WhitelistAnswered senv frame dist e rows r.results := by
  have A' : AlignedCache (d.disk cfg.indexDir e.key) (withMainBf cfg env d i frame e) rows :=
    A.refreshed
  obtain ⟨hprec, file, hfile, hmtime⟩ := refreshMainBfCache_current hb
  obtain ⟨-, hbmetric, hbprec, -⟩ := A'.cached b hb
  have hmetric' : (withMainBf cfg env d i frame e).metric = e.metric :=
    refreshMainBfCache_field IndexEntry.metric (fun _ _ _ _ _ _ _ => rfl) e
  have hgpu : deltaGpuOf (withMainBf cfg env d i frame e) = deltaGpuOf e :=
    refreshMainBfCache_field deltaGpuOf (fun _ _ _ _ _ _ _ => rfl) e
  have htids : (withMainBf cfg env d i frame e).tids = e.tids := refreshMainBfCache_tids e
  have hexact : ∀ k dev out, kern.bfSearch b query k dev = .ok out →
      ExactTopK (withMainBf cfg env d i frame e).metric dist b.rows k out :=
    fun k dev out hout => hmetric' ▸ K.cache b k dev out (hbmetric.trans hmetric')
      (hbprec.trans (hprec.trans hprecision)) hout
  have hne : (withMainBf cfg env d i frame e).metric ≠ .ip := by
    rw [hmetric']
    rcases hmetric with hm | hm <;> simp [hm]
  have hanswer : WhitelistAnswered senv frame dist (withMainBf cfg env d i frame e) rows
      r.results :=
    dWedgeAt_answers (by simpa using A') hb (by simpa using hfile) hmtime hexact
      (by rw [hmetric', hgpu]; exact K.chunk) hk hne hfilter h hok
  rwa [WhitelistAnswered, hmetric', htids] at hanswer

theorem searchEntryInt_dwedge (hwide : int32Max < frame.k) (hmode : frame.searchMode = 1)
    (hshards : e.shardCount < 2) (hprefilter : frame.usePrefilter = false)
    (himmediate : bfBatchGate senv frame e = false) :
    searchEntryInt cfg env senv kern d i e frame query =
      match (withMainBf cfg env d i frame e).mainBfIdx with
      | none => failEntry env d i (withMainBf cfg env d i frame e) .noVectors noVectorsError
      | some b => searchDWedgeNeg env senv kern d i (withMainBf cfg env d i frame e) b frame query := by
  have hskip : tryPrefilter kern senv { frame with k := 0 } query (withMainBf cfg env d i frame e)
      = (withMainBf cfg env d i frame e, none) := by
    simp [tryPrefilter, hprefilter]
  have hready : prefilterReady frame (withMainBf cfg env d i frame e) = false := by
    simp [prefilterReady, hprefilter]
  unfold searchEntryInt
  rw [if_neg (not_le.mpr hwide), if_pos ⟨.inl hmode, hshards⟩, himmediate,
    if_neg Bool.false_ne_true]
  unfold searchBruteForceNeg
  cases hb : (withMainBf cfg env d i frame e).mainBfIdx with
  | none =>
    have hnone : (withMainBf cfg env d i frame e).mainBfIdx.isNone ∧
        prefilterReady frame (withMainBf cfg env d i frame e) = false := by
      rw [hb]
      exact ⟨rfl, hready⟩
    unfold withMainBf at hskip hnone ⊢
    dsimp only
    rw [if_pos hnone]
  | some b =>
    have hsome : ¬ ((withMainBf cfg env d i frame e).mainBfIdx.isNone ∧
        prefilterReady frame (withMainBf cfg env d i frame e) = false) := by
      rw [hb]
      exact fun h => Bool.false_ne_true h.1
    unfold withMainBf at hb hskip hsome ⊢
    dsimp only
    rw [if_neg hsome, hskip]
    dsimp only
    rw [hb]

omit [LinearOrder D] in
/-- The deep search is answered without rows, when there is a whitelist and the kernel does not
fail. -/
theorem dWedgeNegAt_reply {b : BfIndex} {bk : ℤ} {l : List Tid} (hl : mapFilter senv frame = some l)
    (hfound : ∀ k dev, ∃ out, kern.bfSearch b query k dev = .ok out) :
    ∃ d' r, dWedgeNegAt env senv kern d i e b frame query bk = .reply d' r ∧ r.status = .ok ∧
      r.results = [] := by
  have hraw : ∃ raw, (if 0 < bk then kern.bfSearch b query bk.toNat (deltaGpuOf e) else .ok [])
      = .ok raw := by
    split_ifs
    · exact hfound _ _
    · exact ⟨[], rfl⟩
  obtain ⟨raw, hraw⟩ := hraw
  have hallowed : cuvsFilterFrameRefuses frame.nFilterTids
      (if 0 < frame.nFilterTids then mapFilter senv frame else none).isSome = false := by
    rw [hl]
    unfold cuvsFilterFrameRefuses
    split_ifs with hfilter
    · simp
    · simp [hfilter]
  unfold dWedgeNegAt
  dsimp only
  rw [hraw]
  dsimp only
  rw [hallowed]
  exact ⟨_, _, rfl, rfl, rfl⟩

omit [LinearOrder D] in
theorem dWedgeNegAt_ok {b : BfIndex} {bk : ℤ} (hfilter : 0 < frame.nFilterTids)
    (h : dWedgeNegAt env senv kern d i e b frame query bk = .reply d' r) (hok : r.status = .ok) :
    r.results = [] ∧ ∃ l, mapFilter senv frame = some l := by
  unfold dWedgeNegAt at h
  dsimp only at h
  split at h
  · split_ifs at h <;> simp [failEntry_reply h] at hok
  rw [if_pos hfilter] at h
  cases hl : mapFilter senv frame with
  | none =>
    simp only [hl, cuvsFilterFrameRefuses, hfilter, decide_true, Option.isSome_none,
      Bool.not_false, Bool.and_self, if_true] at h
    simp [failEntry_reply h] at hok
  | some l =>
    simp only [hl, cuvsFilterFrameRefuses, Option.isSome_some, Bool.not_true, Bool.and_false,
      Bool.false_eq_true, if_false] at h
    exact ⟨(answerEntry_reply h).1, l, rfl⟩

/-- A filtered brute-force search answers the nearest whitelisted rows, and would at any other
depth of the prefix, exactly when its `k` fits an `int`; a larger one finds nothing, which is right
where there is nothing to find. -/
theorem filtered_bruteForce_exact_iff (A : AlignedCache (d.disk cfg.indexDir e.key) e rows)
    (hmode : frame.searchMode = 1) (hshards : e.shardCount < 2)
    (hprefilter : frame.usePrefilter = false) (himmediate : bfBatchGate senv frame e = false)
    (hprecision : frame.bfPrecision = 0) (hmetric : e.metric = .l2 ∨ e.metric = .cosine)
    (hk : 1 ≤ frame.k) (hfilter : 0 < frame.nFilterTids) :
    ((∀ kern, WedgeKernels kern e.metric query dist (deltaGpuOf e) → ∀ d' r,
        searchEntryInt cfg env senv kern d i e frame query = .reply d' r → r.status = .ok →
        WhitelistAnswered senv frame dist e rows r.results) ↔
      frame.k ≤ int32Max ∨ (withMainBf cfg env d i frame e).mainBfIdx = none ∨
        ∀ l, mapFilter senv frame = some l → whitelisted l (candidates dist e.tids rows) = []) ∧
    (frame.k ≤ int32Max → ∀ kern, WedgeKernels kern e.metric query dist (deltaGpuOf e) →
      ∀ b bk d' r, (withMainBf cfg env d i frame e).mainBfIdx = some b →
      dWedgeAt cfg env senv kern d i (withMainBf cfg env d i frame e) b frame query bk
        = .reply d' r → r.status = .ok →
      WhitelistAnswered senv frame dist e rows r.results) := by
  refine ⟨?_, fun _ kern K b bk d' r hb h hok =>
    withMainBf_answers A hprecision hmetric hk hfilter K hb h hok⟩
  -- past the range of `int` the loop over the candidates never runs and the reply is empty
  rcases lt_or_ge int32Max frame.k with hwide | hint
  · have hsection := fun kern : Kernels D => @searchEntryInt_dwedge D _ cfg env senv kern d i e frame
      query hwide hmode hshards hprefilter himmediate
    rw [or_iff_right (not_le.mpr hwide)]
    cases hb : (withMainBf cfg env d i frame e).mainBfIdx with
    | none =>
      refine iff_of_true ?_ (.inl rfl)
      intro kern _ d' r h hok
      rw [hsection kern, hb] at h
      simp [failEntry_reply h] at hok
    | some b =>
      rw [or_iff_right (nofun : ¬ some b = none)]
      constructor
      · intro hall l hl
        obtain ⟨d', r, hreply, hok, hempty⟩ : ∃ d' r,
            dWedgeNegAt env senv (sortKernels e.metric fun _ => dist) d i
              (withMainBf cfg env d i frame e) b frame query
              (bkDepthNeg frame (withMainBf cfg env d i frame e).mainBfN) = .reply d' r ∧
            r.status = .ok ∧ r.results = [] :=
          dWedgeNegAt_reply hl fun k dev => ⟨_, rfl⟩
        obtain ⟨l', hl', hnear⟩ := hall _ (wedgeKernels_sort e.metric query dist _) d' r
          (by rw [hsection, hb]; exact hreply) hok
        obtain rfl := Option.some.inj (hl.symm.trans hl')
        -- an empty reply leaves the nearest of the rows out
        have hlen := hnear.length_eq
        rw [hempty, List.length_nil] at hlen
        exact List.length_eq_zero_iff.mp (by omega)
      · intro hnothing kern _ d' r h hok
        rw [hsection kern, hb] at h
        obtain ⟨hempty, l, hl⟩ := dWedgeNegAt_ok hfilter h hok
        refine ⟨l, hl, ?_⟩
        rw [hempty, hnothing l hl]
        exact isNearest_nil _
  · refine iff_of_true ?_ (.inl hint)
    intro kern K d' r h hok
    unfold searchEntryInt at h
    rw [if_pos hint] at h
    unfold searchEntry at h
    rw [if_pos ⟨.inl hmode, hshards⟩, himmediate, if_neg Bool.false_ne_true] at h
    obtain ⟨b, hb, hsearch⟩ := searchBruteForce_dwedge hprefilter h hok
    rw [searchDWedge_eq] at hsearch
    exact withMainBf_answers A hprecision hmetric hk hfilter K hb hsearch hok

end Answer

section Sample

def wedgeRows : List Vec := [[10], [20], [15]]

def wedgeEntry : IndexEntry :=
  { IndexEntry.zero with
    key := ⟨1, 2⟩, dim := 1, metric := .l2, nVecs := 3, tids := [101, 102, 103]
    revTids := some [101, 102, 103], revItemIds := some [0, 1, 2]
    mainBfIdx := some ⟨1, wedgeRows, .l2, 0⟩, mainBfN := 3, mainBfMtime := 7 }

def wedgeArtifacts : Artifacts :=
  { Artifacts.empty with vectors := some ⟨cuvsVectorsWrite 1 .l2 0 wedgeRows, 7⟩ }

def wedgeDaemon : Daemon :=
  { Daemon.initial (fun _ => 0) fun _ _ => wedgeArtifacts with registry := ⟨[wedgeEntry], []⟩ }

def wedgeSearch : SearchEnv := { SearchEnv.plain [0] with filter := some [103, 102, 103] }

def wedgeFrame : SearchFrame := { sampleFrame with searchMode := 1, nFilterTids := 3 }

theorem wedgeEntry_aligned : AlignedCache wedgeArtifacts wedgeEntry wedgeRows where
  distinct := by decide
  length_tids := rfl
  length_rows := rfl
  map := .inr ⟨[101, 102, 103], [0, 1, 2], rfl, rfl,
    { length_revTids := rfl
      sorted := by decide
      perm := .refl _
      paired := by
        rintro (_ | _ | _ | j)
        · rfl
        · rfl
        · rfl
        · rfl }⟩
  cached := by
    rintro b ⟨⟩
    exact ⟨rfl, rfl, rfl, rfl⟩
  current := by
    rintro b f - ⟨⟩ -
    rfl
  loads := by
    rintro f hdr vecs ⟨⟩ hload
    exact (vectorsForEntry_body hload).1.symm

def wedgeReply : SearchReply ℕ where
  status := .ok
  results := [⟨103, 15⟩, ⟨102, 20⟩]
  latencyUs := 0
  deltaMerged := false
  error := ""

theorem filtered_bruteForce_exact_sample :
    (searchEntryInt sampleConfig (Env.quiet 8 100000) wedgeSearch (sortKernels .l2 ipDist)
      wedgeDaemon 0 wedgeEntry wedgeFrame [0]).reply? = some wedgeReply ∧
    WhitelistAnswered wedgeSearch wedgeFrame (ipDist [0]) wedgeEntry wedgeRows
      wedgeReply.results := by
  have hreply : (searchEntryInt sampleConfig (Env.quiet 8 100000) wedgeSearch
      (sortKernels .l2 ipDist) wedgeDaemon 0 wedgeEntry wedgeFrame [0]).reply?
        = some wedgeReply := by decide +kernel
  refine ⟨hreply, ?_⟩
  obtain ⟨d', h⟩ := SearchOutcome.reply?_eq_some hreply
  have K : WedgeKernels (sortKernels .l2 ipDist) .l2 [0] (ipDist [0]) (deltaGpuOf wedgeEntry) :=
    wedgeKernels_sort .l2 [0] (ipDist [0]) _
  exact (filtered_bruteForce_exact_iff wedgeEntry_aligned rfl (by decide) rfl rfl rfl (.inl rfl)
    (by decide) (by decide)).1.mpr (.inl (by decide)) _ K d' wedgeReply h rfl

/-- Asked for `2 ^ 31` rows the daemon finds none of the two whitelisted ones. -/
theorem filtered_bruteForce_wide :
    ¬ ∀ (senv : SearchEnv) (frame : SearchFrame) (kern : Kernels ℕ) (dist : Vec → ℕ)
      (rows : List Vec) (cfg : Config) (env : Env) (d d' : Daemon) (i : ℕ) (e : IndexEntry)
      (query : Vec) (r : SearchReply ℕ), AlignedCache (d.disk cfg.indexDir e.key) e rows →
      frame.searchMode = 1 → e.shardCount < 2 → frame.usePrefilter = false →
      bfBatchGate senv frame e = false → frame.bfPrecision = 0 →
      e.metric = .l2 ∨ e.metric = .cosine → 1 ≤ frame.k → 0 < frame.nFilterTids →
      WedgeKernels kern e.metric query dist (deltaGpuOf e) →
      searchEntryInt cfg env senv kern d i e frame query = .reply d' r → r.status = .ok →
      WhitelistAnswered senv frame dist e rows r.results := by
  intro hall
  set frame : SearchFrame := { wedgeFrame with k := 2 ^ 31 } with hframe
  have hreply : (searchEntryInt sampleConfig (Env.quiet 8 100000) wedgeSearch
      (sortKernels .l2 ipDist) wedgeDaemon 0 wedgeEntry frame [0]).reply?
        = some { wedgeReply with results := [] } := by decide +kernel
  obtain ⟨d', h⟩ := SearchOutcome.reply?_eq_some hreply
  have K : WedgeKernels (sortKernels .l2 ipDist) .l2 [0] (ipDist [0]) (deltaGpuOf wedgeEntry) :=
    wedgeKernels_sort .l2 [0] (ipDist [0]) _
  obtain ⟨l, hl, hnear⟩ := hall wedgeSearch frame _ (ipDist [0]) wedgeRows sampleConfig
    (Env.quiet 8 100000) wedgeDaemon d' 0 wedgeEntry [0] _ wedgeEntry_aligned rfl (by decide) rfl rfl
    rfl (.inl rfl) (by decide) (by decide) K h rfl
  have hfilter : mapFilter wedgeSearch frame = some [103, 102, 103] := rfl
  obtain rfl := Option.some.inj (hfilter.symm.trans hl)
  have hlen := hnear.length_eq
  exact absurd hlen (by decide)

end Sample

end PgCuvs
