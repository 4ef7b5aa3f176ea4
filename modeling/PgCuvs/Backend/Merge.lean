import PgCuvs.Backend.Scan
import PgCuvs.Search.Answers

/-! The two ways pending rows reach a scan: merged on the device or merged by
the backend. Over-fetching by the dead TIDs makes the filtered result exact,
unless a session that always merges also gets a merged reply. -/

namespace PgCuvs

open Selection

variable {D : Type}

section Tombstones

variable {g : Guc} {a : Artifacts} {snap : Snapshot}

theorem tombstoneRecordsForScan_length_le (a : Artifacts) :
    (tombstoneRecordsForScan a).length ≤ cuvsTombstoneCount a := by
  simp only [tombstoneRecordsForScan, cuvsTombstoneCount, cuvsTombstoneReadHeader]
  cases a.tombstone with
  | none => simp
  | some f =>
    cases hhdr : f.header with
    | none => simp [hhdr]
    | some hdr =>
      simp only [hhdr]
      split_ifs with hbad
      · simp
      · simp only [not_or, ne_eq, not_not, Bool.not_eq_false] at hbad
        obtain ⟨hmagic, hversion, hvalid, hcrc⟩ := hbad
        have hreserved : hdr.reserved = 0 := by
          simp only [cuvsTombstoneValidate, Bool.and_eq_true, beq_iff_eq] at hvalid
          exact hvalid.1.1.2
        simp [Option.filter, hmagic, hversion, hreserved, hvalid, hcrc]

theorem cuvsTombstoneCount_eq_zero (hgate : cuvsIndexTombstoneUnusable g a = false)
    (hoff : g.maxDeltaRows = 0) : cuvsTombstoneCount a = 0 := by
  simp only [cuvsIndexTombstoneUnusable, cuvsTombstoneCount] at *
  cases htomb : a.tombstone with
  | none => rfl
  | some f =>
    simp only [htomb] at *
    cases hhdr : cuvsTombstoneReadHeader f with
    | none => rfl
    | some hdr =>
      simp only [hhdr, hoff] at *
      split_ifs at hgate ⊢ <;> first | rfl | omega

theorem countP_tombstoned_le (snap : Snapshot) (a : Artifacts) (L : List (CuvsResult D)) (hL : (L.map CuvsResult.tid).Nodup) :
    L.countP (fun c => !!tombstoned snap (tombstoneRecordsForScan a) c.tid)
      ≤ cuvsTombstoneCount a := by
  refine le_trans ?_ (tombstoneRecordsForScan_length_le a)
  simp only [Bool.not_not, List.countP_eq_length_filter]
  set dead := L.filter fun c => tombstoned snap (tombstoneRecordsForScan a) c.tid
  have hnodup : (dead.map CuvsResult.tid).Nodup := hL.sublist (List.filter_sublist.map _)
  have hsub : dead.map CuvsResult.tid ⊆ (tombstoneRecordsForScan a).map TombstoneRecord.tid := by
    intro t ht
    obtain ⟨c, hc, rfl⟩ := List.mem_map.mp ht
    have hdead := (List.mem_filter.mp hc).2
    simp only [tombstoned, List.any_eq_true, Bool.and_eq_true, beq_iff_eq] at hdead
    obtain ⟨r, hr, hrt, -⟩ := hdead
    exact List.mem_map.mpr ⟨r, hr, hrt⟩
  simpa using (List.subperm_of_subset hnodup hsub).length_le

def liveCandidates (snap : Snapshot) (a : Artifacts) (L : List (CuvsResult D)) :
    List (CuvsResult D) :=
  L.filter fun c => !tombstoned snap (tombstoneRecordsForScan a) c.tid

theorem scanFetchK_eq (hgate : cuvsIndexTombstoneUnusable g a = false)
    (hn : cuvsTombstoneCount a ≤ g.cuvsK) : scanFetchK g a = g.cuvsK + cuvsTombstoneCount a := by
  simp only [scanFetchK]
  split_ifs with hon
  · omega
  · omega
  · rw [cuvsTombstoneCount_eq_zero hgate (by omega), Nat.add_zero]

variable [LinearOrder D] {metric : Metric}

theorem applyTombstones_isNearest {k : ℕ} {L R : List (CuvsResult D)}
    (h : IsNearest metric.Nearer CuvsResult.distance (k + cuvsTombstoneCount a) L R)
    (hdead : L.countP (fun c => !!tombstoned snap (tombstoneRecordsForScan a) c.tid)
      ≤ cuvsTombstoneCount a) :
    IsNearest metric.Nearer CuvsResult.distance k (liveCandidates snap a L)
      ((cuvsApplyTombstones snap a R).take k) :=
  h.filter hdead

end Tombstones

section Merge

variable [LinearOrder D] {g : Guc} {a : Artifacts} {dist : Vec → D} {dim k : ℕ}
  {metric : Metric} {recs : List DeltaRecord}

theorem cuvsMergeDelta_isNearest {L base : List (CuvsResult D)}
    (hrecs : deltaRowsForScan g a dim = .ok recs)
    (h : IsNearest metric.Nearer CuvsResult.distance k L base) :
    ∃ R, cuvsMergeDelta g a dist dim k metric base = .ok R ∧
      IsNearest metric.Nearer CuvsResult.distance k (L ++ deltaCandidates dist recs) R := by
  by_cases hnil : recs = []
  · subst hnil
    exact ⟨base, by simp [cuvsMergeDelta, hrecs, bind, Except.bind, pure, Except.pure],
      by simpa [deltaCandidates] using h⟩
  · refine ⟨_, by
      simp only [cuvsMergeDelta, hrecs, bind, Except.bind, pure, Except.pure, if_neg hnil]
      rfl, ?_⟩
    exact h.append le_rfl (isNearest_qsort metric k (base ++ deltaCandidates dist recs))

omit [LinearOrder D] in
theorem deltaRowsForScan_off (hoff : g.maxDeltaRows = 0)
    (hrecs : deltaRowsForScan g a dim = .ok recs) : recs = [] := by
  simp only [deltaRowsForScan] at hrecs
  split at hrecs
  · exact (Except.ok.inj hrecs).symm
  · split at hrecs
    · cases hrecs
    · rename_i hdr _
      split at hrecs
      · cases hrecs
      · rename_i hbad
        have hzero : hdr.nRows = 0 := by
          by_contra hne
          exact hbad (by simp [hoff, Nat.pos_of_ne_zero hne])
        rw [hzero, List.take_zero] at hrecs
        exact (Except.ok.inj hrecs).symm

/-- A scan turns an OK reply into its live rows, after merging the pending rows
when its mode and the reply ask for that. -/
theorem gettupleSearch_eq {snap : Snapshot} {search : ℕ → SearchReply D}
    {L : List (CuvsResult D)} (hon : g.enableCuvs = true)
    (hgate : cuvsIndexTombstoneUnusable g a = false) (hrecs : deltaRowsForScan g a dim = .ok recs)
    (hok : (search (scanFetchK g a)).status = .ok)
    (h : IsNearest metric.Nearer CuvsResult.distance (scanFetchK g a) L
      (search (scanFetchK g a)).results) :
    ∃ R, gettupleSearch g false a snap dist dim metric search
        = .ok (cuvsApplyTombstones snap a R) ∧
      IsNearest metric.Nearer CuvsResult.distance (scanFetchK g a)
        (if doCpuMerge g (search (scanFetchK g a)).deltaMerged then
          L ++ deltaCandidates dist recs else L) R := by
  simp only [gettupleSearch, hon, Bool.not_true, Bool.or_self, Bool.false_eq_true, if_false, hok,
    ne_eq, not_true_eq_false]
  by_cases hoff : g.maxDeltaRows = 0
  · have hnone : tombstoneRecordsForScan a = [] := by
      have hle := tombstoneRecordsForScan_length_le a
      rw [cuvsTombstoneCount_eq_zero hgate hoff] at hle
      exact List.length_eq_zero_iff.mp (by omega)
    refine ⟨(search (scanFetchK g a)).results, ?_, ?_⟩
    · simp [hoff, cuvsApplyTombstones, hnone, tombstoned, pure, Except.pure]
    · simpa [deltaRowsForScan_off hoff hrecs, deltaCandidates] using h
  · rw [if_neg hoff]
    split_ifs with hmerge
    · obtain ⟨R, hR, hnear⟩ := cuvsMergeDelta_isNearest hrecs h
      exact ⟨R, by simp [hR, bind, Except.bind, pure, Except.pure], hnear⟩
    · exact ⟨_, rfl, h⟩

end Merge

section Selected

variable [LinearOrder D] {g : Guc} {a : Artifacts} {snap : Snapshot} {metric : Metric} {k : ℕ}
  {B pending live R : List (CuvsResult D)} {merged : Bool}

/-- The rows a scan selects from once the backend had its turn. -/
def scanPool (g : Guc) (merged : Bool) (B pending : List (CuvsResult D)) :
    List (CuvsResult D) :=
  let served := if merged then B ++ pending else B
  if doCpuMerge g merged then served ++ pending else served

omit [LinearOrder D] in
theorem mem_scanPool {c : CuvsResult D} (h : c ∈ scanPool g merged B pending) :
    c ∈ B ++ pending := by
  simp only [scanPool] at h
  split_ifs at h <;> simp only [List.mem_append] at h ⊢ <;> tauto

omit [LinearOrder D] in
theorem scanPool_once (hmode : g.deltaSearch ≠ .gpu)
    (h : ¬ (g.deltaSearch = .cpu ∧ merged = true)) : scanPool g merged B pending = B ++ pending := by
  have hcpu : doCpuMerge g merged = !merged := by
    unfold doCpuMerge
    cases merged <;> cases hs : g.deltaSearch <;> simp_all
  cases merged <;> simp [scanPool, hcpu]

omit [LinearOrder D] in
theorem scanPool_twice (hcpu : g.deltaSearch = .cpu) :
    scanPool g true B pending = (B ++ pending) ++ pending := by
  simp [scanPool, doCpuMerge, hcpu]

/-- Selecting `k` rows past the dead TIDs and dropping the dead ones is exact,
unless pending rows that count twice push out a live row. -/
theorem applyTombstones_exact_iff (hmode : g.deltaSearch ≠ .gpu)
    (hnodup : ((B ++ pending).map CuvsResult.tid).Nodup)
    (halive : ∀ c ∈ pending, tombstoned snap (tombstoneRecordsForScan a) c.tid = false)
    (hlive : live = liveCandidates snap a (B ++ pending))
    (hnear : IsNearest metric.Nearer CuvsResult.distance (k + cuvsTombstoneCount a)
      (scanPool g merged B pending) R) :
    ((cuvsApplyTombstones snap a R).take (min k live.length)).map CuvsResult.distance
        = nearestKeys metric.Nearer CuvsResult.distance k live ↔
      (g.deltaSearch = .cpu → merged = true →
        ∀ x ∈ nearestKeys metric.Nearer CuvsResult.distance k live,
          ∀ c ∈ pending, metric.Nearer x c.distance) := by
  have hdead := countP_tombstoned_le snap a _ hnodup
  -- merged twice, the second copies take the places of other rows
  by_cases hdouble : g.deltaSearch = .cpu ∧ merged = true
  · obtain ⟨hcpu, rfl⟩ := hdouble
    have hkeep : liveCandidates snap a pending = pending :=
      List.filter_eq_self.mpr fun c hc => by simp [halive c hc]
    have hzero : pending.countP
        (fun c => !!tombstoned snap (tombstoneRecordsForScan a) c.tid) = 0 :=
      List.countP_eq_zero.mpr fun c hc => by simp [halive c hc]
    have hlive' : liveCandidates snap a ((B ++ pending) ++ pending) = live ++ pending := by
      rw [hlive, liveCandidates, List.filter_append]
      exact congrArg _ hkeep
    rw [scanPool_twice hcpu] at hnear
    have hsel := applyTombstones_isNearest hnear (by
      rw [List.countP_append, hzero, Nat.add_zero]
      exact hdead)
    rw [hlive'] at hsel
    have hkeys := (hsel.take (Nat.min_le_left _ live.length)).map_key
    rw [List.take_take, Nat.min_eq_left (Nat.min_le_left _ _)] at hkeys
    rw [hkeys, ← nearestKeys_min k live, nearestKeys_append_eq_iff (Nat.min_le_right _ _)]
    simp [hcpu]
  · rw [scanPool_once hmode hdouble] at hnear
    have hsel := applyTombstones_isNearest hnear hdead
    rw [← hlive] at hsel
    have hkeys := (hsel.take (Nat.min_le_left _ live.length)).map_key
    rw [List.take_take, Nat.min_eq_left (Nat.min_le_left _ _), nearestKeys_min] at hkeys
    exact iff_of_true hkeys fun hcpu hmerged => absurd ⟨hcpu, hmerged⟩ hdouble

end Selected

section Gettuple

variable [LinearOrder D] {g : Guc} {a : Artifacts} {snap : Snapshot} {dist : Vec → D} {dim : ℕ}
  {metric : Metric} {recs : List DeltaRecord}

/-- Base rows and pending rows a merge puts together: every TID once, and no
pending row dead. -/
structure PendingRows (g : Guc) (a : Artifacts) (snap : Snapshot) (dist : Vec → D) (dim : ℕ)
    (B : List (CuvsResult D)) (recs : List DeltaRecord) : Prop where
  mode : g.deltaSearch ≠ .gpu
  file : deltaRowsForScan g a dim = .ok recs
  nodup : ((B ++ deltaCandidates dist recs).map CuvsResult.tid).Nodup
  alive : ∀ r ∈ recs, tombstoned snap (tombstoneRecordsForScan a) r.tid = false

omit [LinearOrder D] in
theorem PendingRows.alive_candidates {B : List (CuvsResult D)}
    (P : PendingRows g a snap dist dim B recs) {c : CuvsResult D}
    (hc : c ∈ deltaCandidates dist recs) :
    tombstoned snap (tombstoneRecordsForScan a) c.tid = false := by
  obtain ⟨r, hr, rfl⟩ := List.mem_map.mp hc
  exact P.alive r hr

/-- An index scan over a selection of the base rows, or of base and pending
rows when the daemon merged them. -/
theorem gettupleSearch_exact {search : ℕ → SearchReply D} {B live : List (CuvsResult D)}
    (P : PendingRows g a snap dist dim B recs) (hon : g.enableCuvs = true)
    (hgate : cuvsIndexTombstoneUnusable g a = false) (hcount : cuvsTombstoneCount a ≤ g.cuvsK)
    (hok : (search (scanFetchK g a)).status = .ok)
    (h : NearestOf metric (scanFetchK g a) B (deltaCandidates dist recs)
      (search (scanFetchK g a)).results (search (scanFetchK g a)).deltaMerged)
    (hlive : live = liveCandidates snap a (B ++ deltaCandidates dist recs)) :
    ∃ out, gettupleSearch g false a snap dist dim metric search = .ok out ∧
      ((out.take (min g.cuvsK live.length)).map CuvsResult.distance
          = nearestKeys metric.Nearer CuvsResult.distance g.cuvsK live ↔
        (g.deltaSearch = .cpu → (search (scanFetchK g a)).deltaMerged = true →
          ∀ x ∈ nearestKeys metric.Nearer CuvsResult.distance g.cuvsK live,
            ∀ r ∈ recs, metric.Nearer x (dist r.vec))) := by
  obtain ⟨R, hR, hnear⟩ := gettupleSearch_eq hon hgate P.file hok h
  refine ⟨_, hR, ?_⟩
  generalize (search (scanFetchK g a)).deltaMerged = merged at h hnear ⊢
  rw [scanFetchK_eq hgate hcount] at hnear
  rw [applyTombstones_exact_iff P.mode P.nodup (fun _ => P.alive_candidates) hlive hnear]
  simp [deltaCandidates]

end Gettuple

section Filtered

variable [LinearOrder D] {g : Guc} {a : Artifacts} {snap : Snapshot} {dist : Vec → D}
  {dim k kFetch : ℕ} {metric : Metric} {recs : List DeltaRecord} {filterArr : List Tid}

def whitelisted (filterArr : List Tid) (L : List (CuvsResult D)) : List (CuvsResult D) :=
  L.filter fun c => c.tid ∈ filterArr

omit [LinearOrder D] in
theorem whitelisted_append (filterArr : List Tid) (L M : List (CuvsResult D)) :
    whitelisted filterArr (L ++ M) = whitelisted filterArr L ++ whitelisted filterArr M :=
  List.filter_append ..

omit [LinearOrder D] in
theorem whitelisted_sort (l : List Tid) (L : List (CuvsResult D)) :
    whitelisted (cuvsU64Sort l) L = whitelisted l L := by
  unfold whitelisted
  congr 1
  funext c
  rw [Bool.eq_iff_iff, decide_eq_true_iff, decide_eq_true_iff]
  exact (qsort_perm compareU64 l).mem_iff

theorem cuvsMergeDeltaFiltered_isNearest {L base : List (CuvsResult D)}
    (hsorted : filterArr.Pairwise (· ≤ ·)) (hne : filterArr ≠ [])
    (hrecs : deltaRowsForScan g a dim = .ok recs)
    (h : IsNearest metric.Nearer CuvsResult.distance k L base) :
    ∃ R, cuvsMergeDeltaFiltered g a dist dim k metric filterArr base = .ok R ∧
      IsNearest metric.Nearer CuvsResult.distance k
        (L ++ whitelisted filterArr (deltaCandidates dist recs)) R := by
  by_cases hnil : recs = []
  · subst hnil
    exact ⟨base, by simp [cuvsMergeDeltaFiltered, mergeDeltaFilteredBy, hrecs, bind, Except.bind, pure, Except.pure],
      by simpa [deltaCandidates, whitelisted] using h⟩
  · have hkept : (recs.filter fun r => filterArr.isEmpty || cuvsTidInFilter r.tid filterArr).map
        (fun r => (⟨r.tid, dist r.vec⟩ : CuvsResult D))
          = whitelisted filterArr (deltaCandidates dist recs) := by
      rw [whitelisted, deltaCandidates, List.filter_map]
      congr 1
      refine List.filter_congr fun r _ => ?_
      simp only [List.isEmpty_eq_false_iff.mpr hne, Bool.false_or, Function.comp_apply]
      rw [Bool.eq_iff_iff, cuvsTidInFilter_iff hsorted, decide_eq_true_iff]
    refine ⟨_, by
      simp only [cuvsMergeDeltaFiltered, mergeDeltaFilteredBy, hrecs, bind, Except.bind, pure, Except.pure, if_neg hnil,
        hkept]
      rfl, ?_⟩
    exact h.append le_rfl (isNearest_qsort metric k _)

omit [LinearOrder D] in
theorem cuvsKWithTombstoneSlack_eq_some (hon : g.maxDeltaRows ≠ 0)
    (h : cuvsKWithTombstoneSlack g a k = some kFetch) : kFetch = k + cuvsTombstoneCount a := by
  simp only [cuvsKWithTombstoneSlack, if_neg hon] at h
  split_ifs at h with hzero
  · obtain rfl := Option.some.inj h
    omega
  · exact (Option.some.inj h).symm

omit [LinearOrder D] in
theorem filteredKnnBy_eq {sort : List (CuvsResult D) → List (CuvsResult D)}
    {search : ℕ → SearchReply D} {R : List (CuvsResult D)}
    (hne : filterArr ≠ []) (hk : 1 ≤ k ∧ k ≤ 2000)
    (hfetch : cuvsKWithTombstoneSlack g a k = some kFetch) (hok : (search kFetch).status = .ok)
    (hR : filteredKnnMergeBy sort g a snap dist dim kFetch filterArr (search kFetch) = .ok R)
    (htid : ∀ c ∈ R, c.tid ≠ 0) :
    filteredKnnBy sort g a snap dist dim k (some filterArr) search = .ok (R.take k) := by
  have hkeep : (R.take k).filter (fun r => r.tid != 0) = R.take k :=
    List.filter_eq_self.mpr fun c hc => by simpa using htid c (List.mem_of_mem_take hc)
  have hrange : ¬ (k < 1 ∨ 2000 < k) := by omega
  simp only [filteredKnnBy, if_neg hrange, Option.some.injEq, if_neg hne, hfetch, bind,
    Except.bind, pure, Except.pure, hok, hR, hkeep]

theorem filteredKnn_eq {search : ℕ → SearchReply D} {R : List (CuvsResult D)}
    (hne : filterArr ≠ []) (hk : 1 ≤ k ∧ k ≤ 2000)
    (hfetch : cuvsKWithTombstoneSlack g a k = some kFetch) (hok : (search kFetch).status = .ok)
    (hR : filteredKnnMerge g a snap dist dim kFetch metric filterArr (search kFetch) = .ok R)
    (htid : ∀ c ∈ R, c.tid ≠ 0) :
    filteredKnn g a snap dist dim k metric (some filterArr) search = .ok (R.take k) :=
  filteredKnnBy_eq hne hk hfetch hok hR htid

theorem take_exact_iff {B live R : List (CuvsResult D)}
    (hlive : live = liveCandidates snap a B)
    (h : IsNearest metric.Nearer CuvsResult.distance k B R) :
    ((R.take k).take (min k live.length)).map CuvsResult.distance
        = nearestKeys metric.Nearer CuvsResult.distance k live ↔
      ∀ x ∈ nearestKeys metric.Nearer CuvsResult.distance k live,
        ∀ c ∈ B, tombstoned snap (tombstoneRecordsForScan a) c.tid = true →
          metric.Nearer x c.distance := by
  set dead := B.filter fun c => tombstoned snap (tombstoneRecordsForScan a) c.tid
  have hperm : B.Perm (live ++ dead) := by
    have hsplit := (List.filter_append_perm
      (fun c => tombstoned snap (tombstoneRecordsForScan a) c.tid) B).symm
    rw [hlive]
    exact hsplit.trans List.perm_append_comm
  rw [List.take_take, Nat.min_eq_left (Nat.min_le_left ..)]
  rw [((h.take (Nat.min_le_left k live.length)).perm hperm).map_key, ← nearestKeys_min k live,
    nearestKeys_append_eq_iff (Nat.min_le_right ..)]
  simp [dead]

/-- A whitelisted search, whose reply selects from the whitelisted rows. -/
theorem filteredKnn_exact {search : ℕ → SearchReply D} {B live : List (CuvsResult D)}
    (P : PendingRows g a snap dist dim B recs) (hsorted : filterArr.Pairwise (· ≤ ·))
    (hne : filterArr ≠ []) (hk : 1 ≤ k ∧ k ≤ 2000)
    (hfetch : cuvsKWithTombstoneSlack g a k = some kFetch)
    (htid : ∀ c ∈ B ++ deltaCandidates dist recs, c.tid ≠ 0)
    (hok : (search kFetch).status = .ok)
    (h : NearestOf metric kFetch (whitelisted filterArr B)
      (whitelisted filterArr (deltaCandidates dist recs)) (search kFetch).results
      (search kFetch).deltaMerged)
    (hlive : live
      = liveCandidates snap a (whitelisted filterArr (B ++ deltaCandidates dist recs))) :
    ∃ out, filteredKnn g a snap dist dim k metric (some filterArr) search = .ok out ∧
      ((out.take (min k live.length)).map CuvsResult.distance
          = nearestKeys metric.Nearer CuvsResult.distance k live ↔
        (g.maxDeltaRows = 0 → ∀ x ∈ nearestKeys metric.Nearer CuvsResult.distance k live,
          ∀ c ∈ whitelisted filterArr B,
            tombstoned snap (tombstoneRecordsForScan a) c.tid = true →
              metric.Nearer x c.distance) ∧
        (g.deltaSearch = .cpu → (search kFetch).deltaMerged = true →
          ∀ x ∈ nearestKeys metric.Nearer CuvsResult.distance k live,
            ∀ r ∈ recs, r.tid ∈ filterArr → metric.Nearer x (dist r.vec))) := by
  have hnodup : ((whitelisted filterArr B
      ++ whitelisted filterArr (deltaCandidates dist recs)).map CuvsResult.tid).Nodup := by
    rw [← whitelisted_append]
    exact P.nodup.sublist (List.filter_sublist.map _)
  rw [whitelisted_append] at hlive
  by_cases hoff : g.maxDeltaRows = 0
  · obtain rfl := deltaRowsForScan_off hoff P.file
    have hR : filteredKnnMerge g a snap dist dim kFetch metric filterArr (search kFetch)
        = .ok (search kFetch).results := by
      simp only [filteredKnnMerge_eq, if_pos hoff, pure, Except.pure]
    obtain rfl : k = kFetch := by simpa [cuvsKWithTombstoneSlack, hoff] using hfetch
    have hnear : IsNearest metric.Nearer CuvsResult.distance k (whitelisted filterArr B)
        (search k).results := by
      simpa [NearestOf, deltaCandidates, whitelisted] using h
    refine ⟨_, filteredKnn_eq hne hk hfetch hok hR fun c hc => ?_, ?_⟩
    · exact htid c (List.mem_append_left _ (List.mem_of_mem_filter (hnear.mem hc)))
    · rw [take_exact_iff (by simpa [deltaCandidates, whitelisted] using hlive) hnear]
      simp [hoff]
  · have halive : ∀ c ∈ whitelisted filterArr (deltaCandidates dist recs),
        tombstoned snap (tombstoneRecordsForScan a) c.tid = false := fun c hc =>
      P.alive_candidates (List.mem_of_mem_filter hc)
    obtain ⟨R, hR, hnear⟩ : ∃ R,
        filteredKnnMerge g a snap dist dim kFetch metric filterArr (search kFetch)
          = .ok (cuvsApplyTombstones snap a R) ∧
        IsNearest metric.Nearer CuvsResult.distance kFetch
          (scanPool g (search kFetch).deltaMerged (whitelisted filterArr B)
            (whitelisted filterArr (deltaCandidates dist recs))) R := by
      by_cases hmerge : doCpuMerge g (search kFetch).deltaMerged = true
      · obtain ⟨R, hR, hnear⟩ := cuvsMergeDeltaFiltered_isNearest hsorted hne P.file h
        refine ⟨R, ?_, by rwa [scanPool, if_pos hmerge]⟩
        simp only [filteredKnnMerge_eq, if_neg hoff, if_pos hmerge, hR, bind, Except.bind, pure,
          Except.pure]
      · refine ⟨(search kFetch).results, ?_, by rwa [scanPool, if_neg hmerge]⟩
        simp only [filteredKnnMerge_eq, if_neg hoff, if_neg hmerge, bind, Except.bind, pure,
          Except.pure]
    refine ⟨_, filteredKnn_eq hne hk hfetch hok hR fun c hc => ?_, ?_⟩
    · have hpool := mem_scanPool (hnear.mem (List.mem_of_mem_filter hc))
      rw [← whitelisted_append] at hpool
      exact htid c (List.mem_of_mem_filter hpool)
    · generalize (search kFetch).deltaMerged = merged at hnear ⊢
      rw [cuvsKWithTombstoneSlack_eq_some hoff hfetch] at hnear
      rw [List.take_take, Nat.min_eq_left (Nat.min_le_left ..),
        applyTombstones_exact_iff P.mode hnodup halive hlive hnear]
      simp [hoff, whitelisted, deltaCandidates]

end Filtered

end PgCuvs
