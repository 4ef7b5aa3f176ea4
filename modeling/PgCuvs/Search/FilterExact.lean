import PgCuvs.Library.Insertion
import PgCuvs.Backend.Merge
import PgCuvs.RevMap

/-! The chunked search over whitelisted rows. A running list that keeps small
distances collects the nearest rows of every chunk. -/

namespace PgCuvs

open Selection

variable {D : Type}

section Chunks

variable {α : Type*}

theorem chunksOf_flatten {n : ℕ} (hn : 0 < n) :
    ∀ (fuel : ℕ) (l : List α), l.length ≤ fuel → (chunksOf n fuel l).flatten = l := by
  intro fuel
  induction fuel with
  | zero =>
    intro l hl
    rw [List.length_eq_zero_iff.mp (Nat.le_zero.mp hl)]
    rfl
  | succ fuel ih =>
    intro l hl
    unfold chunksOf
    split_ifs with hempty
    · rw [List.isEmpty_iff.mp hempty]
      rfl
    · have hpos : 0 < l.length := List.length_pos_iff.mpr (by simpa using hempty)
      rw [List.flatten_cons, ih (l.drop n) (by rw [List.length_drop]; omega),
        List.take_append_drop]

theorem chunksOf_length_le {n : ℕ} :
    ∀ (fuel : ℕ) (l : List α), ∀ c ∈ chunksOf n fuel l, c.length ≤ n := by
  intro fuel
  induction fuel with
  | zero => simp [chunksOf]
  | succ fuel ih =>
    intro l c hc
    unfold chunksOf at hc
    split_ifs at hc
    · simp at hc
    · rcases List.mem_cons.mp hc with rfl | hc
      · exact List.length_take_le n l
      · exact ih _ c hc

theorem chunksOf_ne_nil {n : ℕ} (hn : 0 < n) :
    ∀ (fuel : ℕ) (l : List α), ∀ c ∈ chunksOf n fuel l, c ≠ [] := by
  intro fuel
  induction fuel with
  | zero => simp [chunksOf]
  | succ fuel ih =>
    intro l c hc
    unfold chunksOf at hc
    split_ifs at hc with hempty
    · simp at hc
    · rcases List.mem_cons.mp hc with rfl | hc
      · simpa [hn.ne'] using hempty
      · exact ih _ c hc

theorem chunksOf_whole {l : List α} (hne : l ≠ []) : chunksOf l.length l.length l = [l] := by
  have hpos := List.length_pos_iff.mpr hne
  obtain ⟨fuel, hfuel⟩ := Nat.exists_eq_add_of_lt hpos
  rw [Nat.zero_add] at hfuel
  have hrest : chunksOf l.length fuel ([] : List α) = [] := by cases fuel <;> rfl
  conv_lhs => rw [hfuel]
  rw [chunksOf, if_neg (by simpa using hne), ← hfuel, List.take_length, List.drop_length, hrest]

theorem chunks_flatMap {β : Type*} {n : ℕ} (hn : 0 < n) (l : List α) (f : α → β) :
    (chunksOf n l.length l).flatMap (fun c => c.map f) = l.map f := by
  rw [List.flatMap_def, ← List.map_flatten, chunksOf_flatten hn _ _ le_rfl]

end Chunks

section Items

def itemRow (dist : Vec → D) (e : IndexEntry) (rows : List Vec) (i : ℕ) : CuvsResult D :=
  ⟨e.tids.getD i 0, dist (rows.getD i [])⟩

def filterItems (e : IndexEntry) (filterTids : List Tid) : List ℕ :=
  (dedupAdjacent filterTids).filterMap
    (revMapItem e.nVecs (e.revTids.getD []) (e.revItemIds.getD []))

structure MappedRows (e : IndexEntry) (rows : List Vec) : Prop where
  map : ∃ revTids revItemIds, e.revTids = some revTids ∧ e.revItemIds = some revItemIds ∧
    RevMap e.nVecs e.tids revTids revItemIds
  distinct : e.tids.Nodup
  length_tids : e.tids.length = e.nVecs
  length_rows : rows.length = e.nVecs
  pos : 0 < e.nVecs

def VectorsMatch (a : Artifacts) (e : IndexEntry) (rows : List Vec) : Prop :=
  ∃ f, a.vectors = some f ∧ f.content.body.take e.nVecs = rows ∧ f.content.header.magic = vectorsMagic ∧
    f.content.header.dim = e.dim ∧ f.content.header.metric = e.metric ∧
    f.content.header.nVecs = e.nVecs

theorem dedupAdjacent_sorted {l : List Tid} (hl : l.Pairwise (· ≤ ·)) :
    (dedupAdjacent l).Pairwise (· < ·) := by
  induction l using dedupAdjacent.induct with
  | case1 => exact .nil
  | case2 t => exact List.pairwise_singleton _ _
  | case3 u ts ih =>
    rw [dedupAdjacent, if_pos rfl]
    exact ih hl.of_cons
  | case4 t u ts hne ih =>
    rw [dedupAdjacent, if_neg hne, List.pairwise_cons]
    refine ⟨fun v hv => ?_, ih hl.of_cons⟩
    have htu : t < u := lt_of_le_of_ne (List.rel_of_pairwise_cons hl List.mem_cons_self) hne
    rcases List.mem_cons.mp (mem_dedupAdjacent.mp hv) with rfl | hv
    · exact htu
    · exact htu.trans_le (List.rel_of_pairwise_cons hl.of_cons hv)

variable {e : IndexEntry} {filterTids : List Tid} {rows : List Vec}

theorem MappedRows.filterItems_nodup (M : MappedRows e rows)
    (hsorted : filterTids.Pairwise (· ≤ ·)) : (filterItems e filterTids).Nodup := by
  obtain ⟨revTids, revItemIds, hrevTids, hrevItems, hmap⟩ := M.map
  rw [filterItems, hrevTids, hrevItems]
  refine List.Nodup.filterMap ?_ ((dedupAdjacent_sorted hsorted).imp fun h => h.ne)
  intro t u i ht hu
  have hti := (hmap.revMapItem_some ht).2
  have hui := (hmap.revMapItem_some hu).2
  exact Option.some.inj (hti.symm.trans hui)

theorem MappedRows.mem_filterItems (M : MappedRows e rows) {i : ℕ} :
    i ∈ filterItems e filterTids ↔ i < e.nVecs ∧ e.tids.getD i 0 ∈ filterTids := by
  obtain ⟨revTids, revItemIds, hrevTids, hrevItems, hmap⟩ := M.map
  rw [filterItems, hrevTids, hrevItems, Option.getD_some, Option.getD_some,
    (hmap.lookupsExact M.distinct).exact]
  refine and_congr_right fun hi => ?_
  have hget : e.tids[i]? = some (e.tids.getD i 0) := by
    rw [List.getD_eq_getElem?_getD, List.getElem?_eq_getElem (M.length_tids ▸ hi),
      Option.getD_some]
  rw [hget]
  simp

theorem MappedRows.candidates_eq (M : MappedRows e rows) (dist : Vec → D) :
    candidates dist e.tids rows = (List.range e.nVecs).map (itemRow dist e rows) := by
  refine List.ext_getElem (by simp [candidates, M.length_tids, M.length_rows]) fun i hi _ => ?_
  simp only [candidates, List.length_map, List.length_zip, M.length_tids, M.length_rows,
    min_self] at hi
  simp [candidates, itemRow, List.getElem?_eq_getElem (M.length_tids ▸ hi : i < e.tids.length),
    List.getElem?_eq_getElem (M.length_rows ▸ hi : i < rows.length)]

theorem MappedRows.filterItems_perm (M : MappedRows e rows) (dist : Vec → D)
    (hsorted : filterTids.Pairwise (· ≤ ·)) :
    ((filterItems e filterTids).map (itemRow dist e rows)).Perm
      (whitelisted filterTids (candidates dist e.tids rows)) := by
  have hfilter : whitelisted filterTids (candidates dist e.tids rows)
      = ((List.range e.nVecs).filter fun i => e.tids.getD i 0 ∈ filterTids).map
          (itemRow dist e rows) := by
    rw [whitelisted, M.candidates_eq, List.filter_map]
    rfl
  rw [hfilter]
  refine List.Perm.map _ ?_
  refine (List.perm_ext_iff_of_nodup (M.filterItems_nodup hsorted)
    (List.nodup_range.filter _)).mpr fun i => ?_
  rw [M.mem_filterItems, List.mem_filter, List.mem_range, decide_eq_true_iff]

end Items

section Insert

variable [LinearOrder D] {k : ℕ} {L top : List (CuvsResult D)}

/-- One insertion keeps the `k` smallest distances seen. -/
theorem topkInsert_isNearest (hk : 0 < k)
    (h : IsNearest (· ≤ ·) CuvsResult.distance k L top) (x : CuvsResult D) :
    IsNearest (· ≤ ·) CuvsResult.distance k (L ++ [x]) (topkInsert top k x.tid x.distance) := by
  have hle := h.length_le
  by_cases hfull : k ≤ top.length
  · obtain ⟨kept, last, rfl⟩ := (List.eq_nil_or_concat' top).resolve_left
      (List.ne_nil_of_length_pos (hk.trans_le hfull))
    have hlen : kept.length = k - 1 := by
      rw [List.length_append, List.length_singleton] at hle hfull
      omega
    have hlast : (kept ++ [last])[k - 1]? = some last := by rw [← hlen, List.getElem?_concat_length]
    unfold topkInsert
    simp only [hfull, decide_true, hlast, Bool.true_and, if_true, List.dropLast_concat]
    by_cases hx : x.distance < last.distance
    · rw [if_neg (by simp [hx])]
      have hkept : kept.Pairwise fun a b => a.distance ≤ b.distance :=
        h.sorted.sublist (List.sublist_append_left kept [last])
      exact h.evict (by omega) hx.le (insertBehind_perm CuvsResult.distance x kept)
        (insertBehind_sorted hkept)
    · rw [if_pos (by simp [hx])]
      refine h.reject hfull fun a ha => ?_
      have hbound : a.distance ≤ last.distance := by
        rcases List.mem_append.mp ha with ha | ha
        · exact (List.pairwise_append.mp h.sorted).2.2 a ha last (List.mem_singleton_self last)
        · exact (List.mem_singleton.mp ha ▸ le_rfl)
      exact hbound.trans (not_lt.mp hx)
  · unfold topkInsert
    simp only [hfull, decide_false, Bool.false_and, Bool.false_eq_true, if_false]
    exact h.grow (not_le.mp hfull) (insertBehind_perm CuvsResult.distance x top)
      (insertBehind_sorted h.sorted)

def topkInsertAll (k : ℕ) (top R : List (CuvsResult D)) : List (CuvsResult D) :=
  R.foldl (fun top c => topkInsert top k c.tid c.distance) top

theorem topkInsertAll_isNearest (hk : 0 < k) (R : List (CuvsResult D))
    (h : IsNearest (· ≤ ·) CuvsResult.distance k L top) :
    IsNearest (· ≤ ·) CuvsResult.distance k (L ++ R) (topkInsertAll k top R) := by
  induction R generalizing L top with
  | nil => rwa [List.append_nil]
  | cons x R ih =>
    have hstep := ih (topkInsert_isNearest hk h x)
    rwa [List.append_assoc, List.singleton_append] at hstep

end Insert

section Search

variable [LinearOrder D] {kern : Kernels D} {query : Vec} {dist : Vec → D} {e : IndexEntry}
  {rows : List Vec} {k : ℕ}

/-- Brute force over a chunk is exact and does not fail. -/
def ExactBruteForce (kern : Kernels D) (metric : Metric) (query : Vec) (dist : Vec → D)
    (device : ℕ) : Prop :=
  ∀ rows k, 0 < k → k ≤ rows.length →
    ∃ out, kern.bruteForceSearch rows query k metric device = .ok out ∧
      ExactTopK metric dist rows k out

def chunkTop (kern : Kernels D) (e : IndexEntry) (query : Vec) (k : ℕ) (rows : List Vec)
    (items : List ℕ) : List (CuvsResult D) :=
  match kern.bruteForceSearch (items.map fun i => rows.getD i []) query (min k items.length)
      e.metric (deltaGpuOf e) with
  | .error _ => []
  | .ok res => (res.take (min k items.length)).filterMap
      (itemResult items.length (items.map fun i => e.tids.getD i 0))

theorem searchChunk_eq (K : ExactBruteForce kern e.metric query dist (deltaGpuOf e)) (hk : 0 < k)
    (hrows : rows.length = e.nVecs) {items : List ℕ} (hne : items ≠ [])
    (hitems : ∀ i ∈ items, i < e.nVecs) :
    (∀ top, searchChunk kern e query k rows items top
      = .ok (topkInsertAll k top (chunkTop kern e query k rows items))) ∧
      IsNearest e.metric.Nearer CuvsResult.distance k (items.map (itemRow dist e rows))
        (chunkTop kern e query k rows items) := by
  have hpos := List.length_pos_iff.mpr hne
  obtain ⟨out, hout, hexact⟩ := K (items.map fun i => rows.getD i []) (min k items.length)
    (lt_min hk hpos) (by rw [List.length_map]; exact min_le_right _ _)
  have hread : (items.any fun i => (rows[i]?).isNone) = false := by
    rw [List.any_eq_false]
    intro i hi
    simp [hrows, hitems i hi]
  refine ⟨fun top => ?_, ?_⟩
  · unfold searchChunk chunkTop topkInsertAll
    simp only [hread, Bool.false_eq_true, if_false, hout, List.foldl_filterMap]
    congr 1
    refine List.foldl_ext _ _ _ fun top r _ => ?_
    -- a row of the chunk is a row of the index, so the second guard drops nothing
    by_cases hout : r.itemId < 0 ∨ (items.length : ℤ) ≤ r.itemId
    · rw [if_pos hout, itemResult, if_pos hout]
    · have hlt : r.itemId.toNat < items.length := by omega
      have hmem : items.getD r.itemId.toNat 0 < e.nVecs := by
        rw [List.getD_eq_getElem _ _ hlt]
        exact hitems _ (List.getElem_mem hlt)
      rw [if_neg hout, if_pos hmem, itemResult, if_neg hout]
      simp [List.getElem?_eq_getElem hlt]
  · have hlen : (items.map fun i => e.tids.getD i 0).length
        = (items.map fun i => rows.getD i []).length := by rw [List.length_map, List.length_map]
    have hnear := hexact.results hlen
    have hcand : candidates dist (items.map fun i => e.tids.getD i 0)
        (items.map fun i => rows.getD i []) = items.map (itemRow dist e rows) := by
      simp [candidates, itemRow, List.zip_map', Function.comp_def]
    rw [hcand] at hnear
    unfold chunkTop
    rw [hout]
    simpa using hnear.of_eq_min (by simp)

def filterChunks (e : IndexEntry) (filterTids : List Tid) (chunkCap : ℕ) : List (List ℕ) :=
  let items := filterItems e filterTids
  chunksOf (min (max chunkCap 1) items.length) items.length items

variable {a : Artifacts} {filterTids : List Tid}

theorem filterChunks_ne_nil {chunkCap : ℕ} {c : List ℕ}
    (hc : c ∈ filterChunks e filterTids chunkCap) : c ≠ [] := by
  rcases Nat.eq_zero_or_pos (filterItems e filterTids).length with hzero | hpos
  · rw [filterChunks, hzero, chunksOf] at hc
    exact absurd hc List.not_mem_nil
  · exact chunksOf_ne_nil (by omega) _ _ c hc

theorem filterChunks_flatMap {β : Type*} (e : IndexEntry) (filterTids : List Tid) (chunkCap : ℕ)
    (f : ℕ → β) :
    (filterChunks e filterTids chunkCap).flatMap (fun c => c.map f)
      = (filterItems e filterTids).map f := by
  rcases Nat.eq_zero_or_pos (filterItems e filterTids).length with hzero | hpos
  · rw [filterChunks, List.length_eq_zero_iff.mp hzero]
    rfl
  · exact chunks_flatMap (by omega) _ _

theorem MappedRows.lt_of_mem_chunk (M : MappedRows e rows) {chunkCap : ℕ} {c : List ℕ}
    (hc : c ∈ filterChunks e filterTids chunkCap) : ∀ i ∈ c, i < e.nVecs := by
  intro i hi
  have hflat := filterChunks_flatMap e filterTids chunkCap id
  rw [List.map_id] at hflat
  have hmem : i ∈ filterItems e filterTids :=
    hflat ▸ List.mem_flatMap.mpr ⟨c, hc, by rwa [List.map_id]⟩
  exact (M.mem_filterItems.mp hmem).1

theorem searchChunk_take {body : List Vec} {items : List ℕ} {n : ℕ} (h : ∀ i ∈ items, i < n)
    (top : List (CuvsResult D)) :
    searchChunk kern e query k body items top = searchChunk kern e query k (body.take n) items top := by
  have hget : ∀ i ∈ items, body[i]? = (body.take n)[i]? :=
    fun i hi => (List.getElem?_take_of_lt (h i hi)).symm
  have hrow : items.map (fun i => body.getD i []) = items.map fun i => (body.take n).getD i [] :=
    List.map_congr_left fun i hi => by
      rw [List.getD_eq_getElem?_getD, List.getD_eq_getElem?_getD, hget i hi]
  have hread : (items.any fun i => (body[i]?).isNone)
      = items.any fun i => ((body.take n)[i]?).isNone := by
    rw [Bool.eq_iff_iff, List.any_eq_true, List.any_eq_true]
    exact exists_congr fun i => and_congr_right fun hi => by rw [hget i hi]
  simp only [searchChunk, hrow, hread]

theorem searchChunks_eq (M : MappedRows e rows) {body : List Vec} (hbody : body.take e.nVecs = rows)
    (K : ExactBruteForce kern e.metric query dist (deltaGpuOf e)) (hk : 0 < k)
    (cs : List (List ℕ)) (hcs : ∀ c ∈ cs, c ≠ [] ∧ ∀ i ∈ c, i < e.nVecs)
    (top : List (CuvsResult D)) :
    cs.foldlM (fun top c => searchChunk kern e query k body c top) top
      = .ok (topkInsertAll k top (cs.flatMap (chunkTop kern e query k rows))) := by
  induction cs generalizing top with
  | nil => rfl
  | cons c cs ih =>
    obtain ⟨hc, hrest⟩ := List.forall_mem_cons.mp hcs
    rw [List.foldlM_cons, searchChunk_take hc.2, hbody,
      (searchChunk_eq K hk M.length_rows hc.1 hc.2).1]
    have hnext := ih hrest (topkInsertAll k top (chunkTop kern e query k rows c))
    rwa [topkInsertAll, topkInsertAll, ← List.foldl_append, ← List.flatMap_cons] at hnext

theorem searchFilterExact_collects (filterTids : List Tid) (M : MappedRows e rows) (V : VectorsMatch a e rows)
    (K : ExactBruteForce kern e.metric query dist (deltaGpuOf e)) (hk : 0 < k) (chunkCap : ℕ) :
    ∃ out, searchFilterExact kern a e query filterTids k chunkCap = .ok out ∧
      IsNearest (· ≤ ·) CuvsResult.distance k
        ((filterChunks e filterTids chunkCap).flatMap (chunkTop kern e query k rows)) out ∧
      ∀ c ∈ filterChunks e filterTids chunkCap,
        IsNearest e.metric.Nearer CuvsResult.distance k (c.map (itemRow dist e rows))
          (chunkTop kern e query k rows c) := by
  have hchunks : ∀ c ∈ filterChunks e filterTids chunkCap, c ≠ [] ∧ ∀ i ∈ c, i < e.nVecs :=
    fun c hc => ⟨filterChunks_ne_nil hc, M.lt_of_mem_chunk hc⟩
  refine ⟨_, ?_, topkInsertAll_isNearest hk _ (isNearest_nil k), fun c hc =>
    (searchChunk_eq K hk M.length_rows (hchunks c hc).1 (hchunks c hc).2).2⟩
  obtain ⟨revTids, revItemIds, hrevTids, hrevItems, -⟩ := M.map
  obtain ⟨f, hf, hbody, hmagic, hdim, hmetric, hn⟩ := V
  have hitems : (dedupAdjacent filterTids).filterMap (revMapItem e.nVecs revTids revItemIds)
      = filterItems e filterTids := by rw [filterItems, hrevTids, hrevItems]; rfl
  unfold searchFilterExact
  rw [hrevTids, hrevItems]
  simp only [M.pos.ne', if_false, hitems, hf, hmagic, hdim, hmetric, hn, ne_eq,
    not_true_eq_false, or_self]
  split_ifs with hnil
  · rw [filterChunks, hnil]
    rfl
  · exact searchChunks_eq M hbody K hk _ hchunks []

end Search

section Order

variable [LinearOrder D] {kern : Kernels D} {query : Vec} {dist : Vec → D} {e : IndexEntry}
  {rows : List Vec} {k : ℕ} {a : Artifacts} {filterTids : List Tid}

theorem Metric.nearer_of_ne_ip {metric : Metric} (h : metric ≠ .ip) :
    metric.Nearer = fun a b : D => a ≤ b := by
  cases metric with
  | ip => exact absurd rfl h
  | l2 | cosine | other => rfl

omit [LinearOrder D] in
theorem MappedRows.chunks_perm (M : MappedRows e rows) (dist : Vec → D)
    (hsorted : filterTids.Pairwise (· ≤ ·)) (chunkCap : ℕ) :
    ((filterChunks e filterTids chunkCap).flatMap fun c => c.map (itemRow dist e rows)).Perm
      (whitelisted filterTids (candidates dist e.tids rows)) := by
  rw [filterChunks_flatMap]
  exact M.filterItems_perm dist hsorted

/-- Where smaller is nearer the running list keeps the nearest whitelisted rows. -/
theorem searchFilterExact_isNearest (M : MappedRows e rows) (V : VectorsMatch a e rows)
    (K : ExactBruteForce kern e.metric query dist (deltaGpuOf e)) (hk : 0 < k)
    (hsorted : filterTids.Pairwise (· ≤ ·)) (hmetric : e.metric ≠ .ip) (chunkCap : ℕ) :
    ∃ out, searchFilterExact kern a e query filterTids k chunkCap = .ok out ∧
      IsNearest e.metric.Nearer CuvsResult.distance k
        (whitelisted filterTids (candidates dist e.tids rows)) out := by
  obtain ⟨out, hout, hnear, htops⟩ := searchFilterExact_collects filterTids M V K hk chunkCap
  refine ⟨out, hout, ?_⟩
  rw [← Metric.nearer_of_ne_ip hmetric] at hnear
  have hparts := IsNearest.flatMap (Y := []) (fun c hc => ⟨k, le_rfl, htops c hc⟩)
    (by rwa [List.append_nil])
  rw [List.append_nil] at hparts
  exact hparts.perm (M.chunks_perm dist hsorted chunkCap)

/-- The nearest distances of every chunk of whitelisted rows. -/
def chunkNearest (dist : Vec → D) (e : IndexEntry) (rows : List Vec) (filterTids : List Tid)
    (k chunkCap : ℕ) : List D :=
  (filterChunks e filterTids chunkCap).flatMap fun c =>
    nearestKeys e.metric.Nearer CuvsResult.distance k (c.map (itemRow dist e rows))

theorem chunkNearest_eq {chunkCap : ℕ}
    (htops : ∀ c ∈ filterChunks e filterTids chunkCap,
      IsNearest e.metric.Nearer CuvsResult.distance k (c.map (itemRow dist e rows))
        (chunkTop kern e query k rows c)) :
    chunkNearest dist e rows filterTids k chunkCap
      = ((filterChunks e filterTids chunkCap).flatMap (chunkTop kern e query k rows)).map
          CuvsResult.distance := by
  rw [chunkNearest, List.map_flatMap]
  exact List.flatMap_congr fun c hc => (htops c hc).map_key.symm

theorem searchFilterExact_ip_iff (M : MappedRows e rows) (V : VectorsMatch a e rows)
    (K : ExactBruteForce kern e.metric query dist (deltaGpuOf e)) (hk : 0 < k)
    (hsorted : filterTids.Pairwise (· ≤ ·)) (hmetric : e.metric = .ip) {chunkCap : ℕ}
    {out : List (CuvsResult D)}
    (hout : searchFilterExact kern a e query filterTids k chunkCap = .ok out) :
    IsNearest e.metric.Nearer CuvsResult.distance k
        (whitelisted filterTids (candidates dist e.tids rows)) out ↔
      ∀ x ∈ chunkNearest dist e rows filterTids k chunkCap,
        ∀ y ∈ chunkNearest dist e rows filterTids k chunkCap, x = y := by
  obtain ⟨out', hout', hnear, htops⟩ := searchFilterExact_collects filterTids M V K hk chunkCap
  obtain rfl : out' = out := Except.ok.inj (hout'.symm.trans hout)
  have hip : e.metric.Nearer = fun a b : D => b ≤ a := by rw [hmetric]; rfl
  have hperm := M.chunks_perm dist hsorted chunkCap
  have hswap := isNearest_swap_iff hk (fun c hc => hip ▸ htops c hc) hnear
  rw [chunkNearest_eq htops, hip]
  have hchunks : IsNearest (fun a b : D => b ≤ a) CuvsResult.distance k
      (whitelisted filterTids (candidates dist e.tids rows)) out' ↔
        IsNearest (fun a b : D => b ≤ a) CuvsResult.distance k
          ((filterChunks e filterTids chunkCap).flatMap fun c => c.map (itemRow dist e rows)) out' :=
    ⟨fun h => h.perm hperm.symm, fun h => h.perm hperm⟩
  rw [hchunks, hswap]
  simp only [List.forall_mem_map]

theorem filterChunks_length_le {chunkCap : ℕ} {c : List ℕ}
    (hc : c ∈ filterChunks e filterTids chunkCap) :
    c.length ≤ max chunkCap 1 ∧ c.length ≤ (filterItems e filterTids).length :=
  le_min_iff.mp (chunksOf_length_le _ _ c hc)

/-- Chunks of at most `k` rows lose nothing, so the smallest distances of all
come out. -/
theorem searchFilterExact_small_chunks (M : MappedRows e rows) (V : VectorsMatch a e rows)
    (K : ExactBruteForce kern e.metric query dist (deltaGpuOf e)) (hk : 0 < k)
    (hsorted : filterTids.Pairwise (· ≤ ·)) {chunkCap : ℕ} {out : List (CuvsResult D)}
    (hfit : ∀ c ∈ filterChunks e filterTids chunkCap, c.length ≤ k)
    (hout : searchFilterExact kern a e query filterTids k chunkCap = .ok out) :
    IsNearest (· ≤ ·) CuvsResult.distance k
      (whitelisted filterTids (candidates dist e.tids rows)) out := by
  obtain ⟨out', hout', hnear, htops⟩ := searchFilterExact_collects filterTids M V K hk chunkCap
  obtain rfl : out' = out := Except.ok.inj (hout'.symm.trans hout)
  have hall : ((filterChunks e filterTids chunkCap).flatMap fun c =>
      c.map (itemRow dist e rows)).Perm
        ((filterChunks e filterTids chunkCap).flatMap (chunkTop kern e query k rows)) := by
    refine List.Perm.flatMap_left _ fun c hc => ?_
    refine (htops c hc).perm_of_length_le ?_
    rw [List.length_map]
    exact hfit c hc
  exact (hnear.perm hall.symm).perm (M.chunks_perm dist hsorted chunkCap)

/-- One chunk: the kernel's own selection, in ascending order. -/
theorem searchFilterExact_one_chunk (M : MappedRows e rows) (V : VectorsMatch a e rows)
    (K : ExactBruteForce kern e.metric query dist (deltaGpuOf e)) (hk : 0 < k)
    (hsorted : filterTids.Pairwise (· ≤ ·)) {out : List (CuvsResult D)}
    (hne : filterItems e filterTids ≠ [])
    (hout : searchFilterExact kern a e query filterTids k (filterItems e filterTids).length
      = .ok out) :
    ∃ top, IsNearest e.metric.Nearer CuvsResult.distance k
      (whitelisted filterTids (candidates dist e.tids rows)) top ∧ top.Perm out := by
  have hpos := List.length_pos_iff.mpr hne
  have hchunks : filterChunks e filterTids (filterItems e filterTids).length
      = [filterItems e filterTids] := by
    rw [filterChunks, max_eq_left hpos, min_self]
    exact chunksOf_whole hne
  obtain ⟨out', hout', hnear, htops⟩ := searchFilterExact_collects filterTids M V K hk
    (filterItems e filterTids).length
  obtain rfl : out' = out := Except.ok.inj (hout'.symm.trans hout)
  rw [hchunks] at hnear htops
  have htop := htops _ (List.mem_singleton_self _)
  rw [List.flatMap_singleton] at hnear
  exact ⟨_, htop.perm (M.filterItems_perm dist hsorted), hnear.perm_of_length_le htop.length_le⟩

/-- With L2 and cosine distances the search returns the nearest whitelisted rows
whatever the chunk cap. With inner products the running list keeps the wrong end:
the rows come out nearest first only when the nearest products of all chunks are
one value, and the cap makes no difference only when no row is left out or all
products are one value. -/
theorem searchFilterExact_exact_iff (M : MappedRows e rows) (V : VectorsMatch a e rows)
    (K : ExactBruteForce kern e.metric query dist (deltaGpuOf e)) (hk : 1 ≤ k)
    (hsorted : filterTids.Pairwise (· ≤ ·)) :
    (∀ chunkCap, ∃ out, searchFilterExact kern a e query filterTids k chunkCap = .ok out ∧
      (IsNearest e.metric.Nearer CuvsResult.distance k
          (whitelisted filterTids (candidates dist e.tids rows)) out ↔
        (e.metric = .ip → ∀ x ∈ chunkNearest dist e rows filterTids k chunkCap,
          ∀ y ∈ chunkNearest dist e rows filterTids k chunkCap, x = y))) ∧
    ((∀ cap cap' out out', searchFilterExact kern a e query filterTids k cap = .ok out →
        searchFilterExact kern a e query filterTids k cap' = .ok out' →
        (out.map CuvsResult.distance).Perm (out'.map CuvsResult.distance)) ↔
      (e.metric = .ip →
        (whitelisted filterTids (candidates dist e.tids rows)).length ≤ k ∨
          ∀ x ∈ whitelisted filterTids (candidates dist e.tids rows),
            ∀ y ∈ whitelisted filterTids (candidates dist e.tids rows),
              x.distance = y.distance)) := by
  have hperm := M.filterItems_perm dist hsorted
  have hlen := hperm.length_eq
  rw [List.length_map] at hlen
  set W := whitelisted filterTids (candidates dist e.tids rows) with hW
  refine ⟨fun chunkCap => ?_, ?_⟩
  · by_cases hmetric : e.metric = .ip
    · obtain ⟨out, hout, -⟩ := searchFilterExact_collects filterTids M V K hk chunkCap
      refine ⟨out, hout, ?_⟩
      rw [searchFilterExact_ip_iff M V K hk hsorted hmetric hout]
      exact ⟨fun h _ => h, fun h => h hmetric⟩
    · obtain ⟨out, hout, hnear⟩ := searchFilterExact_isNearest M V K hk hsorted hmetric chunkCap
      exact ⟨out, hout, fun _ h => absurd h hmetric, fun _ => hnear⟩
  · constructor
    · intro hsame hmetric
      by_contra hneither
      obtain ⟨hmany, hdiffer⟩ := not_or.mp hneither
      have hne : filterItems e filterTids ≠ [] := by
        rw [← List.length_pos_iff, hlen]
        omega
      -- chunks of one row keep the `k` smallest values, a single chunk the `k` largest: when the
      -- two replies agree, all the values do
      obtain ⟨one, hone, -⟩ := searchFilterExact_collects filterTids M V K hk 1
      obtain ⟨all, hall, -⟩ := searchFilterExact_collects filterTids M V K hk
        (filterItems e filterTids).length
      have hsmall := searchFilterExact_small_chunks M V K hk hsorted
        (fun c hc => (filterChunks_length_le hc).1.trans (by omega)) hone
      obtain ⟨top, hlarge, htop⟩ := searchFilterExact_one_chunk M V K hk hsorted hne hall
      rw [hmetric] at hlarge
      have hends : (one.map CuvsResult.distance).Perm (top.map CuvsResult.distance) :=
        (hsame _ _ _ _ hone hall).trans (htop.map _).symm
      rw [hsmall.map_key, hlarge.map_key] at hends
      exact hdiffer (eq_of_nearestKeys_perm hk (not_le.mp hmany) hends)
    · intro hcond cap cap' out out' hout hout'
      by_cases hmetric : e.metric = .ip
      · rcases hcond hmetric with hfew | hsame
        -- every listed row fits in the reply
        · have hselect : ∀ {cap out}, searchFilterExact kern a e query filterTids k cap = .ok out →
              W.Perm out := by
            intro cap out hout
            exact (searchFilterExact_small_chunks M V K hk hsorted
              (fun c hc => (filterChunks_length_le hc).2.trans (hlen.le.trans hfew))
              hout).perm_of_length_le hfew
          exact ((hselect hout).symm.trans (hselect hout')).map _
        -- all the keys are one value, so that keeping the smallest does no harm
        · have hselect : ∀ {cap out}, searchFilterExact kern a e query filterTids k cap = .ok out →
              IsNearest e.metric.Nearer CuvsResult.distance k W out := by
            intro cap out hout
            refine (searchFilterExact_ip_iff M V K hk hsorted hmetric hout).mpr ?_
            have hkey : ∀ x ∈ chunkNearest dist e rows filterTids k cap,
                ∃ w ∈ W, w.distance = x := by
              intro x hx
              obtain ⟨c, hc, hxc⟩ := List.mem_flatMap.mp hx
              rw [nearestKeys] at hxc
              have hmem := (List.mem_insertionSort _).mp (List.mem_of_mem_take hxc)
              obtain ⟨row, hrow, rfl⟩ := List.mem_map.mp hmem
              exact ⟨row, (M.chunks_perm dist hsorted cap).subset
                (List.mem_flatMap.mpr ⟨c, hc, hrow⟩), rfl⟩
            intro x hx y hy
            obtain ⟨v, hv, rfl⟩ := hkey x hx
            obtain ⟨w, hw, rfl⟩ := hkey y hy
            exact hsame v hv w hw
          rw [(hselect hout).map_key, (hselect hout').map_key]
      · obtain ⟨o, ho, hnear⟩ := searchFilterExact_isNearest M V K hk hsorted hmetric cap
        obtain ⟨o', ho', hnear'⟩ := searchFilterExact_isNearest M V K hk hsorted hmetric cap'
        obtain rfl : o = out := Except.ok.inj (ho.symm.trans hout)
        obtain rfl : o' = out' := Except.ok.inj (ho'.symm.trans hout')
        rw [hnear.map_key, hnear'.map_key]

end Order

section Sample

theorem sortKernels_bruteForce [LinearOrder D] (metric metric' : Metric) (dist : Vec → Vec → D)
    (query : Vec) (device : ℕ) :
    ExactBruteForce (sortKernels metric' dist) metric query (dist query) device :=
  fun rows _ _ _ => ⟨_, rfl, sortedRows_exact metric (dist query) rows le_rfl⟩

def ipRows : List Vec := [[10], [20]]

def ipDist (_ v : Vec) : ℕ := (v.headD 0).toNat

def ipEntry : IndexEntry :=
  { IndexEntry.zero with
    key := ⟨1, 2⟩, dim := 1, metric := .ip, nVecs := 2, tids := [101, 102]
    revTids := some [101, 102], revItemIds := some [0, 1] }

def ipArtifacts : Artifacts :=
  { Artifacts.empty with vectors := some ⟨cuvsVectorsWrite 1 .ip 0 ipRows, 7⟩ }

theorem ipEntry_mapped : MappedRows ipEntry ipRows where
  map := ⟨[101, 102], [0, 1], rfl, rfl,
    { length_revTids := rfl
      sorted := by decide
      perm := .refl _
      paired := by
        rintro (_ | _ | j)
        · rfl
        · rfl
        · rfl }⟩
  distinct := by decide
  length_tids := rfl
  length_rows := rfl
  pos := by decide

theorem ipArtifacts_match : VectorsMatch ipArtifacts ipEntry ipRows :=
  ⟨_, rfl, rfl, rfl, rfl, rfl, rfl⟩

theorem searchFilterExact_exact_ip :
    ∃ out, searchFilterExact (sortKernels .ip ipDist) ipArtifacts ipEntry [1] [101, 102] 1 2
        = .ok out ∧
      (IsNearest Metric.ip.Nearer CuvsResult.distance 1
          (whitelisted [101, 102] (candidates (ipDist [1]) [101, 102] ipRows)) out ↔
        (Metric.ip = .ip → ∀ x ∈ chunkNearest (ipDist [1]) ipEntry ipRows [101, 102] 1 2,
          ∀ y ∈ chunkNearest (ipDist [1]) ipEntry ipRows [101, 102] 1 2, x = y)) :=
  (searchFilterExact_exact_iff ipEntry_mapped ipArtifacts_match
    (sortKernels_bruteForce .ip .ip ipDist [1] _) le_rfl (by decide)).1 2

/-- Fed one row at a time the running list keeps the smaller product, fed both
at once the larger. -/
theorem searchFilterExact_ip_wrong :
    ¬ ∀ (kern : Kernels ℕ) (a : Artifacts) (e : IndexEntry) (query : Vec) (dist : Vec → ℕ)
      (rows : List Vec) (filterTids : List Tid) (k : ℕ), MappedRows e rows →
      VectorsMatch a e rows → ExactBruteForce kern e.metric query dist (deltaGpuOf e) →
      filterTids.Pairwise (· ≤ ·) → 1 ≤ k →
      (∀ chunkCap, ∃ out, searchFilterExact kern a e query filterTids k chunkCap = .ok out ∧
        IsNearest e.metric.Nearer CuvsResult.distance k
          (whitelisted filterTids (candidates dist e.tids rows)) out) ∧
      ∀ cap cap' out out', searchFilterExact kern a e query filterTids k cap = .ok out →
        searchFilterExact kern a e query filterTids k cap' = .ok out' →
        (out.map CuvsResult.distance).Perm (out'.map CuvsResult.distance) := by
  intro hall
  have hcaps := (hall (sortKernels .ip ipDist) ipArtifacts ipEntry [1] (ipDist [1]) ipRows
    [101, 102] 1 ipEntry_mapped ipArtifacts_match (sortKernels_bruteForce .ip .ip ipDist [1] _)
    (by decide) le_rfl).2
  have hone : searchFilterExact (sortKernels .ip ipDist) ipArtifacts ipEntry [1] [101, 102] 1 1
      = .ok [⟨101, 10⟩] := by decide +kernel
  have htwo : searchFilterExact (sortKernels .ip ipDist) ipArtifacts ipEntry [1] [101, 102] 1 2
      = .ok [⟨102, 20⟩] := by decide +kernel
  have hperm := hcaps 1 2 _ _ hone htwo
  exact absurd (List.perm_singleton.mp hperm) (by decide)

end Sample

end PgCuvs
