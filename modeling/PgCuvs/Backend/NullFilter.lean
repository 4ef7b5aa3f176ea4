import PgCuvs.Backend.FilteredKnn

/-! `cuvs_filtered_knn` without a whitelist against one that names every row. -/

namespace PgCuvs

open Selection

variable {D : Type} [LinearOrder D]

/-- An OK reply with the `k` nearest of `L`, and no pending row merged. -/
def Answers (metric : Metric) (k : ℕ) (L : List (CuvsResult D)) (r : SearchReply D) : Prop :=
  r.status = .ok ∧ r.deltaMerged = false ∧
    IsNearest metric.Nearer CuvsResult.distance k L r.results

/-- Exact brute force over the base rows; a stream may have no vectors. -/
structure BruteForceDaemon (metric : Metric) (B : List (CuvsResult D)) (daemon : KnnDaemon D) :
    Prop where
  search : ∀ frame, frame.metric = metric → Answers metric frame.k B (daemon.search frame)
  filtered : ∀ frame l, frame.metric = metric →
    Answers metric frame.k (whitelisted l B) (daemon.searchFiltered frame l)
  streamBf : ∀ frame l, frame.metric = metric →
    (daemon.searchStreamBf frame l).status = .noVectors ∨
      Answers metric frame.k (whitelisted l B) (daemon.searchStreamBf frame l)

section Requests

variable {g : Guc} {rg : RoutingGuc} {key : Key} {dim k : ℕ} {metric : Metric}
  {reltuples : Option ℚ} {daemon : KnnDaemon D} {B L : List (CuvsResult D)} {l : List Tid}

theorem Answers.receive {r : SearchReply D} (h : Answers metric k L r) :
    Answers metric k L (receive k r) := by
  obtain ⟨hok, hmerged, hnear⟩ := h
  refine ⟨hok, hmerged, ?_⟩
  rw [PgCuvs.receive, if_pos hok, List.take_of_length_le hnear.length_le]
  exact hnear

theorem cuvsIpcSearchFiltered_answers (H : BruteForceDaemon metric B daemon) (pre : Bool) :
    Answers metric k (whitelisted l B)
      (cuvsIpcSearchFiltered g key dim metric daemon l pre k) := by
  rw [← whitelisted_sort]
  exact (H.filtered (filteredFrame g key dim metric k l.length pre) (cuvsU64Sort l) rfl).receive

/-- Whatever the route, the reply selects from the whitelisted base rows. -/
theorem knnRequest_answers (H : BruteForceDaemon metric B daemon) :
    Answers metric k (whitelisted l B)
      (knnRequest g rg key dim metric reltuples daemon (some l) k) := by
  simp only [knnRequest]
  split
  · cases H.streamBf (streamFrame g key dim metric k l.length) (cuvsU64Sort l) rfl with
    | inl hnone =>
      have hstatus : (cuvsIpcSearchStreamBf g key dim metric daemon l k).status = .noVectors :=
        hnone
      rw [if_pos hstatus]
      exact cuvsIpcSearchFiltered_answers H true
    | inr hanswer =>
      obtain ⟨hok, -, hnear⟩ := hanswer.receive
      have hstatus : (cuvsIpcSearchStreamBf g key dim metric daemon l k).status ≠ .noVectors := by
        rw [show (cuvsIpcSearchStreamBf g key dim metric daemon l k).status = .ok from hok]
        decide
      rw [if_neg hstatus, ← whitelisted_sort]
      exact ⟨hok, rfl, hnear⟩
  · exact cuvsIpcSearchFiltered_answers H true
  · exact cuvsIpcSearchFiltered_answers H false

end Requests

section Null

variable {g : Guc} {rg : RoutingGuc} {key : Key} {dim k : ℕ} {metric : Metric}
  {reltuples : Option ℚ} {daemon : KnnDaemon D} {a : Artifacts} {snap : Snapshot}
  {dist : Vec → D} {B : List (CuvsResult D)} {recs : List DeltaRecord} {l : List Tid}

theorem filteredKnn_null (H : BruteForceDaemon metric B daemon) (hk : 1 ≤ k ∧ k ≤ 2000)
    (htid : ∀ c ∈ B, c.tid ≠ 0) :
    ∃ out, cuvsFilteredKnn g rg key dim metric reltuples daemon a snap dist none k = .ok out ∧
      IsNearest metric.Nearer CuvsResult.distance k B out := by
  set r := receive k (daemon.search (knnFrame g key dim metric k))
  obtain ⟨hok, -, hnear⟩ : Answers metric k B r :=
    (H.search (knnFrame g key dim metric k) rfl).receive
  have hkeep : (r.results.take k).filter (fun c => c.tid != 0) = r.results := by
    rw [List.take_of_length_le hnear.length_le]
    exact List.filter_eq_self.mpr fun c hc => by simpa using htid c (hnear.mem hc)
  refine ⟨r.results, ?_, hnear⟩
  have hrange : ¬ (k < 1 ∨ 2000 < k) := by omega
  have hreply : knnRequest g rg key dim metric reltuples daemon none k = r := rfl
  simp only [cuvsFilteredKnn, filteredKnn, filteredKnnBy, if_neg hrange, reduceCtorEq, if_false, hreply, hok,
    bind, Except.bind, pure, Except.pure, hkeep]

def AllTids (l : List Tid) (L : List (CuvsResult D)) : Prop :=
  l.Pairwise (· ≤ ·) ∧ ∀ t, t ∈ l ↔ t ∈ L.map CuvsResult.tid

omit [LinearOrder D] in
theorem AllTids.whitelisted {L M : List (CuvsResult D)} (h : AllTids l L) (hsub : M ⊆ L) :
    whitelisted l M = M := by
  refine List.filter_eq_self.mpr fun c hc => ?_
  exact decide_eq_true ((h.2 c.tid).mpr (List.mem_map_of_mem (hsub hc)))

theorem filteredKnn_all (H : BruteForceDaemon metric B daemon) (hmode : g.deltaSearch ≠ .gpu)
    (hrecs : deltaRowsForScan g a dim = .ok recs) (hk : 1 ≤ k ∧ k ≤ 2000)
    (hnodup : ((B ++ deltaCandidates dist recs).map CuvsResult.tid).Nodup)
    (htid : ∀ c ∈ B ++ deltaCandidates dist recs, c.tid ≠ 0)
    (hall : AllTids l (B ++ deltaCandidates dist recs)) (hne : l ≠ []) {kFetch : ℕ}
    (hfetch : cuvsKWithTombstoneSlack g a k = some kFetch) :
    ∃ out, cuvsFilteredKnn g rg key dim metric reltuples daemon a snap dist (some l) k = .ok out ∧
      IsNearest metric.Nearer CuvsResult.distance k
        (if g.maxDeltaRows = 0 then B
          else liveCandidates snap a (B ++ deltaCandidates dist recs)) out := by
  obtain ⟨hok, hmerged, hnear⟩ : Answers metric kFetch (whitelisted l B)
    (knnRequest g rg key dim metric reltuples daemon (some l) kFetch) := knnRequest_answers H
  rw [hall.whitelisted (List.subset_append_left _ _)] at hnear
  set search := knnRequest g rg key dim metric reltuples daemon (some l)
  by_cases hoff : g.maxDeltaRows = 0
  · obtain rfl : k = kFetch := by simpa [cuvsKWithTombstoneSlack, hoff] using hfetch
    have hR : filteredKnnMerge g a snap dist dim k metric l (search k)
        = .ok (search k).results := by
      simp only [filteredKnnMerge_eq, if_pos hoff, pure, Except.pure]
    refine ⟨_, filteredKnn_eq hne hk hfetch hok hR fun c hc => ?_, ?_⟩
    · exact htid c (List.mem_append_left _ (hnear.mem hc))
    · rw [if_pos hoff, List.take_of_length_le hnear.length_le]
      exact hnear
  · have hcpu : doCpuMerge g (search kFetch).deltaMerged = true := by
      rw [hmerged, doCpuMerge]
      cases hs : g.deltaSearch <;> simp_all
    obtain ⟨R, hR, hmerge⟩ := cuvsMergeDeltaFiltered_isNearest hall.1 hne hrecs hnear
    rw [hall.whitelisted (List.subset_append_right _ _)] at hmerge
    have hout : filteredKnnMerge g a snap dist dim kFetch metric l (search kFetch)
        = .ok (cuvsApplyTombstones snap a R) := by
      simp only [filteredKnnMerge_eq, if_neg hoff, if_pos hcpu, hR, bind, Except.bind, pure,
        Except.pure]
    refine ⟨_, filteredKnn_eq hne hk hfetch hok hout fun c hc => ?_, ?_⟩
    · exact htid c (hmerge.mem (List.mem_of_mem_filter hc))
    · rw [cuvsKWithTombstoneSlack_eq_some hoff hfetch] at hmerge
      rw [if_neg hoff]
      exact applyTombstones_isNearest hmerge (countP_tombstoned_le snap a _ hnodup)

def within (metric : Metric) (t : D) (c : CuvsResult D) : Bool :=
  decide (metric.Nearer c.distance t)

/-- At every distance the dead base rows and the live pending rows within it are
equally many, or both searches find `k` rows there. -/
def DeadMatchPending (metric : Metric) (snap : Snapshot) (a : Artifacts) (k : ℕ)
    (B pending : List (CuvsResult D)) : Prop :=
  ∀ t, B.countP (fun c => !liveCandidate snap a c && within metric t c)
      = (liveCandidates snap a pending).countP (within metric t) ∨
    k ≤ B.countP (within metric t) ∧
      k ≤ (liveCandidates snap a (B ++ pending)).countP (within metric t)

theorem nearestKeys_live_iff (pending : List (CuvsResult D)) :
    nearestKeys metric.Nearer CuvsResult.distance k B
        = nearestKeys metric.Nearer CuvsResult.distance k (liveCandidates snap a (B ++ pending)) ↔
      DeadMatchPending metric snap a k B pending := by
  rw [nearestKeys_eq_iff]
  refine forall_congr' fun t => ?_
  have hsplit : B.countP (within metric t) = (liveCandidates snap a B).countP (within metric t)
      + B.countP (fun c => !liveCandidate snap a c && within metric t c) := by
    rw [liveCandidates, List.countP_filter, List.countP_eq_countP_filter_add B (within metric t)
      (liveCandidate snap a), List.countP_filter, List.countP_filter]
    congr 1
    exact List.countP_congr fun c _ => by simp [Bool.and_comm]
  have happend : (liveCandidates snap a (B ++ pending)).countP (within metric t)
      = (liveCandidates snap a B).countP (within metric t)
        + (liveCandidates snap a pending).countP (within metric t) := by
    rw [liveCandidates, List.filter_append, List.countP_append]
    rfl
  change min k (B.countP (within metric t))
    = min k ((liveCandidates snap a (B ++ pending)).countP (within metric t)) ↔ _
  omega

/-- Without a whitelist dead rows are returned and pending rows are not, so the
distances are those of a whitelist of all rows exactly when the one makes up for
the other. -/
theorem filteredKnn_null_iff (H : BruteForceDaemon metric B daemon) (hmode : g.deltaSearch ≠ .gpu)
    (hrecs : deltaRowsForScan g a dim = .ok recs) (hk : 1 ≤ k ∧ k ≤ 2000)
    (hnodup : ((B ++ deltaCandidates dist recs).map CuvsResult.tid).Nodup)
    (htid : ∀ c ∈ B ++ deltaCandidates dist recs, c.tid ≠ 0)
    (hall : AllTids l (B ++ deltaCandidates dist recs)) :
    (∃ out₁ out₂,
      cuvsFilteredKnn g rg key dim metric reltuples daemon a snap dist none k = .ok out₁ ∧
      cuvsFilteredKnn g rg key dim metric reltuples daemon a snap dist (some l) k = .ok out₂ ∧
      out₁.map CuvsResult.distance = out₂.map CuvsResult.distance) ↔
    (l = [] ∨ (cuvsKWithTombstoneSlack g a k).isSome = true) ∧
      (g.maxDeltaRows ≠ 0 → DeadMatchPending metric snap a k B (deltaCandidates dist recs)) := by
  obtain ⟨out₁, hout₁, hnear₁⟩ : ∃ out,
      cuvsFilteredKnn g rg key dim metric reltuples daemon a snap dist none k = .ok out ∧
        IsNearest metric.Nearer CuvsResult.distance k B out :=
    filteredKnn_null H hk fun c hc => htid c (List.mem_append_left _ hc)
  have hrange : ¬ (k < 1 ∨ 2000 < k) := by omega
  -- an empty list returns before the slack is computed
  by_cases hnil : l = []
  · have hnone : B ++ deltaCandidates dist recs = [] := by
      rw [← List.map_eq_nil_iff (f := CuvsResult.tid), List.eq_nil_iff_forall_not_mem]
      exact fun t ht => by simpa [hnil] using (hall.2 t).mpr ht
    obtain ⟨hB, hdelta⟩ := List.append_eq_nil_iff.mp hnone
    have hempty : out₁ = [] := by
      have hlen := hnear₁.length_eq
      rw [hB, List.length_nil, Nat.min_zero] at hlen
      exact List.length_eq_zero_iff.mp hlen
    refine iff_of_true ⟨out₁, [], hout₁, ?_, by rw [hempty]⟩ ⟨.inl hnil, fun _ t => .inl ?_⟩
    · simp only [cuvsFilteredKnn, filteredKnn, filteredKnnBy, if_neg hrange, hnil, if_true]
      rfl
    · rw [hB, hdelta]
      rfl
  · rw [or_iff_right hnil]
    cases hfetch : cuvsKWithTombstoneSlack g a k with
    | none =>
      refine iff_of_false ?_ (by simp)
      rintro ⟨_, out₂, -, hout₂, -⟩
      simp only [cuvsFilteredKnn, filteredKnn, filteredKnnBy, if_neg hrange, Option.some.injEq, hnil, if_false,
        hfetch] at hout₂
      cases hout₂
    | some kFetch =>
      obtain ⟨out₂, hout₂, hnear₂⟩ : ∃ out,
          cuvsFilteredKnn g rg key dim metric reltuples daemon a snap dist (some l) k = .ok out ∧
            IsNearest metric.Nearer CuvsResult.distance k
              (if g.maxDeltaRows = 0 then B
                else liveCandidates snap a (B ++ deltaCandidates dist recs)) out :=
        filteredKnn_all H hmode hrecs hk hnodup htid hall hnil hfetch
      have hsame : (∃ o₁ o₂,
          cuvsFilteredKnn g rg key dim metric reltuples daemon a snap dist none k = .ok o₁ ∧
          cuvsFilteredKnn g rg key dim metric reltuples daemon a snap dist (some l) k = .ok o₂ ∧
          o₁.map CuvsResult.distance = o₂.map CuvsResult.distance) ↔
            out₁.map CuvsResult.distance = out₂.map CuvsResult.distance := by
        constructor
        · rintro ⟨o₁, o₂, ho₁, ho₂, heq⟩
          obtain rfl : out₁ = o₁ := Except.ok.inj (hout₁.symm.trans ho₁)
          obtain rfl : out₂ = o₂ := Except.ok.inj (hout₂.symm.trans ho₂)
          exact heq
        · exact fun heq => ⟨out₁, out₂, hout₁, hout₂, heq⟩
      rw [hsame, hnear₁.map_key, hnear₂.map_key]
      by_cases hoff : g.maxDeltaRows = 0
      · simp [hoff]
      · rw [if_neg hoff, nearestKeys_live_iff]
        simp [hoff]

end Null

section Sample

theorem sampleKnnDaemon_bruteForce : BruteForceDaemon .l2 sampleBase sampleKnnDaemon where
  search frame hmetric := ⟨rfl, rfl, by rw [← hmetric]; exact isNearest_qsort _ _ _⟩
  filtered frame l hmetric := ⟨rfl, rfl, by rw [← hmetric]; exact isNearest_qsort _ _ _⟩
  streamBf frame l hmetric := .inr ⟨rfl, rfl, by rw [← hmetric]; exact isNearest_qsort _ _ _⟩

theorem sampleTids_all :
    AllTids [101, 102, 103] (sampleBase ++ deltaCandidates (sampleDist [0]) sampleDelta) :=
  ⟨by decide, fun _ => Iff.rfl⟩

theorem filteredKnn_null_sample :
    (∃ out₁ out₂, sampleKnn none 1 = .ok out₁ ∧ sampleKnn (some [101, 102, 103]) 1 = .ok out₂ ∧
      out₁.map CuvsResult.distance = out₂.map CuvsResult.distance) ↔
    (([101, 102, 103] : List Tid) = [] ∨
        (cuvsKWithTombstoneSlack (sampleGuc .auto) sampleArtifacts 1).isSome = true) ∧
      ((sampleGuc .auto).maxDeltaRows ≠ 0 →
        DeadMatchPending .l2 sampleSnapshot sampleArtifacts 1 sampleBase
          (deltaCandidates (sampleDist [0]) sampleDelta)) :=
  filteredKnn_null_iff sampleKnnDaemon_bruteForce (by decide) (by decide +kernel) (by decide)
    (by decide) (by decide) sampleTids_all

/-- The nearest row is pending: a whitelist of all rows finds it, no whitelist
does not. -/
theorem filteredKnn_null_misses :
    ¬ ∀ (g : Guc) (rg : RoutingGuc) (key : Key) (dim : ℕ) (metric : Metric)
      (reltuples : Option ℚ) (daemon : KnnDaemon ℕ) (a : Artifacts) (snap : Snapshot)
      (dist : Vec → ℕ) (k : ℕ) (B : List (CuvsResult ℕ)) (recs : List DeltaRecord)
      (l : List Tid), BruteForceDaemon metric B daemon → g.deltaSearch ≠ .gpu →
      deltaRowsForScan g a dim = .ok recs → 1 ≤ k ∧ k ≤ 2000 →
      ((B ++ deltaCandidates dist recs).map CuvsResult.tid).Nodup →
      (∀ c ∈ B ++ deltaCandidates dist recs, c.tid ≠ 0) →
      AllTids l (B ++ deltaCandidates dist recs) →
      ∃ out₁ out₂,
        cuvsFilteredKnn g rg key dim metric reltuples daemon a snap dist none k = .ok out₁ ∧
        cuvsFilteredKnn g rg key dim metric reltuples daemon a snap dist (some l) k = .ok out₂ ∧
        out₁.map CuvsResult.distance = out₂.map CuvsResult.distance := by
  intro hall
  obtain ⟨out₁, out₂, hout₁, hout₂, hsame⟩ := hall (sampleGuc .auto) sampleRouting ⟨1, 2⟩ 1 .l2 none
    sampleKnnDaemon sampleArtifacts sampleSnapshot (sampleDist [0]) 1 sampleBase sampleDelta
    [101, 102, 103] sampleKnnDaemon_bruteForce (by decide) (by decide +kernel) (by decide)
    (by decide) (by decide) sampleTids_all
  have hnull : sampleKnn none 1 = .ok [⟨101, 10⟩] := by decide +kernel
  have hall' : sampleKnn (some [101, 102, 103]) 1 = .ok [⟨103, 5⟩] := by decide +kernel
  obtain rfl := Except.ok.inj (hnull.symm.trans hout₁)
  obtain rfl := Except.ok.inj (hall'.symm.trans hout₂)
  exact absurd hsame (by decide)

end Sample

end PgCuvs
