import Mathlib.Data.List.Sort
import Mathlib.Data.Nat.Log
import PgCuvs.Library.BinaryFloat
import PgCuvs.Library.Histogram
import PgCuvs.Library.Run
import PgCuvs.Registry

/-! The latency percentiles the daemon reports for an index. They are read from
power-of-two buckets, at a rank computed in double precision. -/

namespace PgCuvs

/-- `(uint64_t)(q * (double)total)` for `q = m / 2 ^ 53`. The total itself is exact. -/
def doubleRank (m total : ℕ) : ℕ := BinaryFloat.roundBits 52 (m * total) / 2 ^ 53

def latBucketUpperUs (idx : ℕ) : ℕ :=
  if idx = 0 then 0 else if 31 ≤ idx then 0x80000000 else 2 ^ idx

/-- The quantile `q` is given in units of `2 ^ -53`. -/
def cuvsLatPercentile (buckets : List UInt32) (q : ℕ) : ℕ :=
  let total := (buckets.map UInt32.toNat).sum
  if total = 0 then 0
  else
    let q := min q (2 ^ 53)
    let target := max (doubleRank q total) 1
    match Histogram.firstReaching target 0 0 (buckets.map UInt32.toNat) with
    | some i => latBucketUpperUs i
    | none => latBucketUpperUs (buckets.length - 1)

structure LatencyRow where
  lastStatus : Status
  searchCount : ℕ
  errorCount : ℕ
  totalLatencyUs : ℕ
  p50Us : ℕ
  p95Us : ℕ
  p99Us : ℕ
  lastSearchAt : ℕ
  lastError : String

/-- The quantiles are the doubles nearest to 0.50, 0.95 and 0.99. -/
def latencyRow (e : IndexEntry) : LatencyRow :=
  let buckets := e.stats.latBuckets.map UInt32.ofNat
  { lastStatus := e.stats.lastStatus
    searchCount := e.stats.searchCount
    errorCount := e.stats.errorCount
    totalLatencyUs := e.stats.totalLatencyUs
    p50Us := cuvsLatPercentile buckets 4503599627370496
    p95Us := cuvsLatPercentile buckets 8556839292003942
    p99Us := cuvsLatPercentile buckets 8917127262193582
    lastSearchAt := e.lastSearch
    lastError := e.stats.lastError }

/-! The rank. -/

theorem lt_of_log2_lt {v k : ℕ} (h : v.log2 < k) : v < 2 ^ k :=
  Nat.lt_log2_self.trans_le (Nat.pow_le_pow_right Nat.two_pos h)

/-- A hundredth that is off by `c` parts in `100 * 2 ^ 53` still gives the exact rank. -/
theorem doubleRank_eq {m pct c n : ℕ} (hm : 100 * m + c = pct * 2 ^ 53) (hc : 2 * c < pct)
    (hpct : pct ≤ 100) (hn : n < 2 ^ 37) : doubleRank m n = pct * n / 100 := by
  rw [doubleRank]
  have hv : 100 * (m * n) + c * n = 2 ^ 53 * (pct * n) := by
    rw [← Nat.mul_assoc, ← Nat.add_mul, hm]
    ring
  have hoff : 2 * (c * n) + n ≤ pct * n := by
    rw [← Nat.mul_assoc, ← Nat.succ_mul]
    exact Nat.mul_le_mul_right n hc
  have hprod : pct * n ≤ 100 * n := Nat.mul_le_mul_right n hpct
  generalize m * n = v at *
  generalize pct * n = P at *
  generalize c * n = C at *
  by_cases hlog : v.log2 ≤ 52
  · have hsmall : v < 2 ^ 53 := lt_of_log2_lt (Nat.lt_succ_of_le hlog)
    rw [BinaryFloat.roundBits_of_le hlog]
    omega
  · obtain ⟨s, hs⟩ : ∃ s, v.log2 = 52 + (s + 1) := ⟨v.log2 - 53, by omega⟩
    have hlow : v < 2 ^ (s + 54) := lt_of_log2_lt (by omega)
    have htop : 2 ^ (s + 54) = 2 ^ 54 * 2 ^ s := by ring
    have hfit : s < 37 := by
      have hne : v ≠ 0 := by
        rintro rfl
        exact hlog (Nat.zero_le 52)
      have hbound : v < 2 ^ 90 := by omega
      have hlt : v.log2 < 90 := (Nat.log2_lt hne).mpr hbound
      omega
    have hhalf : 2 ^ s < 2 ^ 37 := Nat.pow_lt_pow_right (by norm_num) hfit
    rcases Nat.eq_zero_or_pos (P % 100) with hr | hr
    · -- The exact rank is a double, and the product is nearer to it than half a step.
      have hstep : 2 ^ (s + 1) * (2 ^ (52 - s) * (P / 100)) = 2 ^ 53 * (P / 100) := by
        have hexp : s + 1 + (52 - s) = 53 := by omega
        rw [← Nat.mul_assoc, ← Nat.pow_add, hexp]
      have hround : BinaryFloat.roundBits 52 v = 2 ^ (s + 1) * (2 ^ (52 - s) * (P / 100)) := by
        apply BinaryFloat.roundBits_eq hs
        · rw [hstep]
          omega
        · rw [hstep]
          omega
      rw [hround, hstep]
      omega
    · -- The exact rank is a hundredth or more away from every integer.
      obtain ⟨hup, hdown⟩ := BinaryFloat.roundBits_near hs
      omega

/-! The buckets. -/

theorem cuvsLatBucketIndex_lt (us : ℕ) : cuvsLatBucketIndex us < latBucketsLength := by
  rw [cuvsLatBucketIndex, latBucketsLength]
  split_ifs <;> omega

theorem cuvsLatBucketIndex_mono : Monotone cuvsLatBucketIndex := by
  intro a b hab
  rw [cuvsLatBucketIndex, cuvsLatBucketIndex]
  split_ifs with ha hb
  · exact le_rfl
  · exact Nat.zero_le _
  · omega
  · have hlog : a.log2 ≤ b.log2 := by
      rw [Nat.log2_eq_log_two, Nat.log2_eq_log_two]
      exact Nat.log_mono_right hab
    omega

/-- What a reported latency says of the one it stands for. -/
structure UpperEdge (x us : ℕ) : Prop where
  zero : x = 0 → us = 0
  above : 0 < x → x < 2 ^ 31 → x < us ∧ us ≤ 2 * x
  top : 2 ^ 31 ≤ x → us = 2 ^ 31

theorem upperEdge_bucket (x : ℕ) : UpperEdge x (latBucketUpperUs (cuvsLatBucketIndex x)) := by
  have hlog : x ≠ 0 → 2 ^ x.log2 ≤ x ∧ x < 2 ^ (x.log2 + 1) := fun hx =>
    ⟨Nat.log2_self_le hx, Nat.lt_log2_self⟩
  have hnext : 2 ^ (x.log2 + 1) = 2 * 2 ^ x.log2 := Nat.pow_succ'
  constructor
  · rintro rfl
    rfl
  · intro hx hlt
    obtain ⟨hlo, hhi⟩ := hlog hx.ne'
    rw [cuvsLatBucketIndex, if_neg hx.ne', latBucketsLength, latBucketUpperUs, if_neg (by omega)]
    split_ifs with htop
    · have hbig : 2 ^ 30 ≤ 2 ^ x.log2 := Nat.pow_le_pow_right (by norm_num) (by omega)
      omega
    · rw [min_eq_left (by omega)]
      omega
  · intro hx
    have hbig : 31 ≤ x.log2 := (Nat.le_log2 (by omega)).mpr hx
    rw [cuvsLatBucketIndex, if_neg (by omega), latBucketsLength, latBucketUpperUs,
      if_neg (by omega), if_pos (by omega)]
    norm_num

/-! What the counters hold after a run of searches. -/

inductive StatEvent where
  | search (now : ℕ) (status : Status) (latencyUs : UInt32) (err : Option String)
  | reset

def StatEvent.step (e : IndexEntry) : StatEvent → IndexEntry
  | .search now status latencyUs err => recordSearchStat now e status latencyUs.toNat err
  | .reset => resetEntryStats e

def StatEvent.latencies (es : List StatEvent) : List ℕ :=
  es.foldl (fun L ev =>
    match ev with
    | .search _ status latencyUs _ => if status = .ok then L ++ [latencyUs.toNat] else L
    | .reset => []) []

def StatEvent.failures (es : List StatEvent) : ℕ :=
  es.foldl (fun n ev =>
    match ev with
    | .search _ status _ _ => if status = .ok then n else n + 1
    | .reset => 0) 0

structure Recorded (L : List ℕ) (failed : ℕ) (e : IndexEntry) : Prop where
  buckets : e.stats.latBuckets = Histogram.counts cuvsLatBucketIndex latBucketsLength L
  searchCount : e.stats.searchCount = L.length
  totalLatencyUs : e.stats.totalLatencyUs = L.sum
  errorCount : e.stats.errorCount = failed

theorem recorded_reset (e : IndexEntry) : Recorded [] 0 (resetEntryStats e) where
  buckets := Histogram.counts_nil.symm
  searchCount := rfl
  totalLatencyUs := rfl
  errorCount := rfl

theorem Recorded.ok {L : List ℕ} {failed : ℕ} {e : IndexEntry} (h : Recorded L failed e)
    (now latencyUs : ℕ) (err : Option String) :
    Recorded (L ++ [latencyUs]) failed (recordSearchStat now e .ok latencyUs err) where
  buckets := by
    rw [Histogram.counts_append_singleton, ← h.buckets]
    rfl
  searchCount := by
    rw [List.length_append, ← h.searchCount]
    rfl
  totalLatencyUs := by
    rw [List.sum_append, ← h.totalLatencyUs, List.sum_singleton]
    rfl
  errorCount := h.errorCount

theorem Recorded.failed {L : List ℕ} {failed : ℕ} {e : IndexEntry} (h : Recorded L failed e)
    {status : Status} (hstatus : status ≠ .ok) (now latencyUs : ℕ) (err : Option String) :
    Recorded L (failed + 1) (recordSearchStat now e status latencyUs err) := by
  rw [recordSearchStat]
  simp only [if_neg hstatus]
  exact ⟨h.buckets, h.searchCount, h.totalLatencyUs, congrArg (· + 1) h.errorCount⟩

theorem StatEvent.run_recorded (e : IndexEntry) (es : List StatEvent) :
    Recorded (latencies es) (failures es) (Run.run StatEvent.step (resetEntryStats e) es) := by
  have hstep : ∀ es e ev, Recorded (latencies es) (failures es) e → True →
      Recorded (latencies (es ++ [ev])) (failures (es ++ [ev])) (StatEvent.step e ev) := by
    intro es e ev h _
    rw [latencies, failures, List.foldl_append, List.foldl_append]
    cases ev with
    | search now status latencyUs err =>
      by_cases hok : status = .ok
      · subst hok
        exact h.ok now latencyUs.toNat err
      · simp only [List.foldl_cons, List.foldl_nil, if_neg hok]
        exact h.failed hok now latencyUs.toNat err
    | reset => exact recorded_reset e
  have halong : Run.Along StatEvent.step (fun _ _ => True) (resetEntryStats e) es :=
    Run.along_of_forall (fun _ _ => trivial) _
  have hrun := @Run.run_history _ _ StatEvent.step (fun _ _ => True)
    (fun es e => Recorded (latencies es) (failures es) e) hstep [] es _ (recorded_reset e) halong
  exact hrun

/-! Reading a percentile back. -/

/-- `us` is the edge of the bucket of the `pct`th percentile of `L`. -/
structure ReportsRank (L : List ℕ) (pct us : ℕ) : Prop where
  empty : L = [] → us = 0
  rank : L ≠ [] → ∃ x, (L.insertionSort (· ≤ ·))[max (pct * L.length / 100) 1 - 1]? = some x ∧
    UpperEdge x us

theorem reportsRank {L : List ℕ} (hL : L.length < 2 ^ 32) {m pct c : ℕ}
    (hm : 100 * m + c = pct * 2 ^ 53) (hc : 2 * c < pct) (hpct : pct ≤ 100) :
    ReportsRank L pct (cuvsLatPercentile
      ((Histogram.counts cuvsLatBucketIndex latBucketsLength L).map UInt32.ofNat) m) := by
  have hsum := Histogram.sum_counts fun x (_ : x ∈ L) => cuvsLatBucketIndex_lt x
  -- No counter wrapped.
  have hback : ((Histogram.counts cuvsLatBucketIndex latBucketsLength L).map UInt32.ofNat).map
      UInt32.toNat = Histogram.counts cuvsLatBucketIndex latBucketsLength L := by
    rw [List.map_map]
    conv_rhs => rw [← List.map_id (Histogram.counts cuvsLatBucketIndex latBucketsLength L)]
    apply List.map_congr_left
    intro b hb
    have hle : b ≤ L.length := hsum ▸ List.le_sum_of_mem hb
    exact UInt32.toNat_ofNat_of_lt' (hle.trans_lt hL)
  have hmin : min m (2 ^ 53) = m := by
    apply min_eq_left
    have hmul : pct * 2 ^ 53 ≤ 100 * 2 ^ 53 := Nat.mul_le_mul_right _ hpct
    omega
  have hrank : doubleRank m L.length = pct * L.length / 100 :=
    doubleRank_eq hm hc hpct (hL.trans (by norm_num))
  rw [cuvsLatPercentile, hback, hsum, hmin]
  simp only [hrank]
  constructor
  · intro hnil
    rw [hnil]
    rfl
  · intro hne
    have hpos : 0 < L.length := List.length_pos_of_ne_nil hne
    have hlen : (L.insertionSort (· ≤ ·)).length = L.length := List.length_insertionSort ..
    have hle : pct * L.length ≤ 100 * L.length := Nat.mul_le_mul_right _ hpct
    have hr : max (pct * L.length / 100) 1 - 1 < (L.insertionSort (· ≤ ·)).length := by
      rw [hlen]
      omega
    refine ⟨_, List.getElem?_eq_getElem hr, ?_⟩
    have hfound := Histogram.firstReaching_counts (List.perm_insertionSort (· ≤ ·) L).symm
      (List.pairwise_insertionSort (· ≤ ·) L) cuvsLatBucketIndex_mono hr (cuvsLatBucketIndex_lt _)
    rw [Nat.sub_add_cancel (Nat.le_max_right ..)] at hfound
    rw [if_neg hpos.ne']
    simp only [hfound]
    exact upperEdge_bucket _

/-- After any run of searches and resets the row counts the searches since the last
reset, and each percentile bounds the latency of its exact rank within a factor of two. -/
theorem StatEvent.run_percentiles (e : IndexEntry) (es : List StatEvent)
    (hcount : (latencies es).length < 2 ^ 32) :
    let row := latencyRow (Run.run StatEvent.step (resetEntryStats e) es)
    row.searchCount = (latencies es).length ∧ row.errorCount = failures es ∧
      row.totalLatencyUs = (latencies es).sum ∧ ReportsRank (latencies es) 50 row.p50Us ∧
      ReportsRank (latencies es) 95 row.p95Us ∧ ReportsRank (latencies es) 99 row.p99Us := by
  intro row
  have hrec := run_recorded e es
  have hrow : ∀ {m pct c : ℕ}, 100 * m + c = pct * 2 ^ 53 → 2 * c < pct → pct ≤ 100 →
      ReportsRank (latencies es) pct (cuvsLatPercentile
        ((Run.run StatEvent.step (resetEntryStats e) es).stats.latBuckets.map UInt32.ofNat) m) := by
    intro m pct c hm hc hpct
    rw [hrec.buckets]
    exact reportsRank hcount hm hc hpct
  refine ⟨hrec.searchCount, hrec.errorCount, hrec.totalLatencyUs, ?_, ?_, ?_⟩
  · have hm : 100 * 4503599627370496 + 0 = 50 * 2 ^ 53 := by norm_num
    exact hrow hm (by norm_num) (by norm_num)
  · have hm : 100 * 8556839292003942 + 40 = 95 * 2 ^ 53 := by norm_num
    exact hrow hm (by norm_num) (by norm_num)
  · have hm : 100 * 8917127262193582 + 8 = 99 * 2 ^ 53 := by norm_num
    exact hrow hm (by norm_num) (by norm_num)

def sampleSearches : List StatEvent :=
  [.search 1 .ok 9 none, .reset, .search 2 .ok 300 none, .search 3 .ok 70 none,
    .search 4 .error 0 (some "cuVS search failed"), .search 5 .ok 5000 none]

theorem sampleSearches_percentiles :
    let row := latencyRow (Run.run StatEvent.step (resetEntryStats IndexEntry.zero) sampleSearches)
    row.searchCount = 3 ∧ row.errorCount = 1 ∧ row.totalLatencyUs = 5370 ∧
      ReportsRank [300, 70, 5000] 50 row.p50Us ∧ ReportsRank [300, 70, 5000] 95 row.p95Us ∧
      ReportsRank [300, 70, 5000] 99 row.p99Us :=
  StatEvent.run_percentiles IndexEntry.zero sampleSearches (by decide)

end PgCuvs
