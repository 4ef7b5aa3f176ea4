import PgCuvs.Search.Prefilter
import PgCuvs.Shim.Exact
import PgCuvs.Transient.Exact

/-! The reference kernels in the place of the daemon's kernels, with the bitset the daemon makes
of a whitelist. -/

namespace PgCuvs

open Selection

section Bitset

def clearBit (words : List UInt32) (iid : ℕ) : List UInt32 :=
  words.modify (iid / 32) fun w => w &&& ~~~((1 : UInt32) <<< UInt32.ofNat (iid % 32))

def prefilterBitset (nVecs : ℕ) (included : List ℕ) : List UInt32 :=
  included.foldl clearBit (List.replicate ((nVecs + 31) / 32) 0xFFFFFFFF)

theorem testBit_cleared (w : UInt32) {b j : ℕ} (hb : b < 32) (hj : j < 32) :
    (w &&& ~~~((1 : UInt32) <<< UInt32.ofNat j)).toNat.testBit b =
      (w.toNat.testBit b && decide (b ≠ j)) := by
  have hshift : ((1 : UInt32) <<< UInt32.ofNat j).toNat = 2 ^ j := by
    have hmod : (UInt32.ofNat j).toNat % 32 = j := by
      rw [UInt32.toNat_ofNat', Nat.mod_eq_of_lt (show j < 2 ^ 32 by omega), Nat.mod_eq_of_lt hj]
    have hlt : 2 ^ j < 2 ^ 32 := Nat.pow_lt_pow_right (by omega) hj
    rw [UInt32.toNat_shiftLeft, hmod, Nat.shiftLeft_eq]
    have hone : (1 : UInt32).toNat = 1 := rfl
    rw [hone, Nat.one_mul, Nat.mod_eq_of_lt hlt]
  have hnot : (~~~((1 : UInt32) <<< UInt32.ofNat j)).toNat = 2 ^ 32 - (2 ^ j + 1) := by
    rw [UInt32.toNat_not, hshift]
    have hsize : UInt32.size = 2 ^ 32 := rfl
    rw [hsize]
    omega
  have hlt : 2 ^ j < 2 ^ 32 := Nat.pow_lt_pow_right (by omega) hj
  rw [UInt32.toNat_and, Nat.testBit_and, hnot, Nat.testBit_two_pow_sub_succ hlt,
    Nat.testBit_two_pow, decide_eq_true hb, Bool.true_and]
  by_cases hsame : j = b
  · simp [hsame]
  · have hne : b ≠ j := fun h => hsame h.symm
    simp [hsame, hne]

theorem wordBit_clearBit {words : List UInt32} (iid : ℕ) {i : ℕ} (hi : i / 32 < words.length) :
    wordBit (clearBit words iid) i = (wordBit words i && decide (i ≠ iid)) := by
  rw [wordBit, wordBit, clearBit, List.getD_eq_getElem?_getD, List.getElem?_modify,
    List.getD_eq_getElem?_getD, List.getElem?_eq_getElem hi]
  by_cases hword : iid / 32 = i / 32
  · have hcleared := testBit_cleared words[i / 32] (Nat.mod_lt i (by omega))
      (Nat.mod_lt iid (show 32 > 0 by omega))
    have hbit : i % 32 ≠ iid % 32 ↔ i ≠ iid := by omega
    simp only [hword, if_true, Option.map_eq_map, Option.map_some, Option.getD_some, hcleared, hbit]
  · have hne : i ≠ iid := fun h => hword (by rw [h])
    simp [hword, hne]

theorem clearBit_length (words : List UInt32) (iid : ℕ) :
    (clearBit words iid).length = words.length := List.length_modify _ _ _

theorem wordBit_foldl_clearBit (included : List ℕ) {words : List UInt32} {i : ℕ}
    (hi : i / 32 < words.length) :
    wordBit (included.foldl clearBit words) i = (wordBit words i && !included.contains i) := by
  induction included generalizing words with
  | nil => simp
  | cons iid included ih =>
    rw [List.foldl_cons, ih (by rwa [clearBit_length]), wordBit_clearBit iid hi, Bool.and_assoc]
    congr 1
    by_cases h : i = iid <;> simp [h]

theorem wordBit_prefilterBitset {nVecs : ℕ} (included : List ℕ) {i : ℕ} (hi : i < nVecs) :
    wordBit (prefilterBitset nVecs included) i = !included.contains i := by
  have hword : i / 32 < (List.replicate ((nVecs + 31) / 32) (0xFFFFFFFF : UInt32)).length := by
    rw [List.length_replicate]
    omega
  have hset : wordBit (List.replicate ((nVecs + 31) / 32) 0xFFFFFFFF) i = true := by
    rw [wordBit, List.getD_eq_getElem _ _ hword, List.getElem_replicate]
    have hall : ∀ b < 32, (0xFFFFFFFF : UInt32).toNat.testBit b = true := by decide
    exact hall _ (Nat.mod_lt i (by omega))
  rw [prefilterBitset, wordBit_foldl_clearBit included hword, hset, Bool.true_and]

end Bitset

variable {D : Type} [LinearOrder D] [BoundedOrder D]

section Exact

variable {metric : Metric} {cands : List (SearchResult D)} {dist : Vec → D} {rows : List Vec}
  {k : ℕ} {out : List (SearchResult D)}

theorem not_inCorpus_pad (n : ℕ) : inCorpus n (shimPad metric : SearchResult D) = false := by
  have hpad : ¬(0 : ℤ) ≤ cuvsPadItemId := by decide
  exact decide_eq_false fun h => hpad h.1

omit [LinearOrder D] [BoundedOrder D] in
theorem inCorpus_of_ranked {r : SearchResult D} (hr : r ∈ rankedRows dist rows) :
    inCorpus rows.length r = true := by
  obtain ⟨p, hp, rfl⟩ := List.mem_map.mp hr
  have hlt := List.snd_lt_of_mem_zipIdx hp
  rw [inCorpus]
  refine decide_eq_true ⟨Int.natCast_nonneg _, ?_⟩
  show (p.2 : ℤ) < rows.length
  omega

/-- What keeps the contract is exact at every depth up to the one asked for. -/
theorem TailContract.exactTopK (h : TailContract metric (rankedRows dist rows) k out) {j : ℕ}
    (hj : j ≤ k) : ExactTopK metric dist rows j out := by
  obtain ⟨hits, hout, hnear, -⟩ := h.hits
  have hhits : ∀ r ∈ hits, inCorpus rows.length r = true :=
    fun r hr => inCorpus_of_ranked (hnear.mem hr)
  have hfilter : (out.take j).filter (inCorpus rows.length) = hits.take j := by
    rw [hout, List.take_append, List.filter_append]
    have hfront : (hits.take j).filter (inCorpus rows.length) = hits.take j :=
      List.filter_eq_self.mpr fun r hr => hhits r (List.mem_of_mem_take hr)
    have hback : ((List.replicate (k - hits.length) (shimPad metric : SearchResult D)).take
        (j - hits.length)).filter (inCorpus rows.length) = [] := by
      rw [List.filter_eq_nil_iff]
      intro r hr
      rw [List.eq_of_mem_replicate (List.mem_of_mem_take hr), not_inCorpus_pad]
      exact Bool.false_ne_true
    rw [hfront, hback, List.append_nil]
  rw [ExactTopK, hfilter]
  exact hnear.take hj

omit [LinearOrder D] [BoundedOrder D] in
theorem candidates_none (shimDist : Metric → Vec → Vec → D) (ix : ShimIndex) (query : Vec) :
    ix.candidates shimDist query none =
      rankedRows (fun v => shimDist ix.metric v query) ix.rows := by
  have hall : (List.range ix.n).filter (fun i => !shimExcluded none i) = List.range ix.n :=
    List.filter_eq_self.mpr fun _ _ => rfl
  rw [ShimIndex.candidates, hall, rankedRows, ShimIndex.rows]
  apply List.ext_getElem
  · simp
  · intro i h1 h2
    simp

end Exact

def shimHandle (rows : List Vec) (dim : ℕ) (metric : Metric) : Option ShimIndex :=
  if h : ∀ r ∈ rows, r.length = dim then some (.ofRows ⟨rows, h⟩ metric) else none

def includedOf (bits : List Bool) : List ℕ :=
  (List.range bits.length).filter fun i => bits[i]? == some false

/-- The reference kernels over indexes of one metric. Queries of a batch share one buffer, rows
of a brute-force call another. -/
def shimKernels (shimDist : Metric → Vec → Vec → D) (metric : Metric) : Kernels D where
  cagraSearch h q k _ _ _ :=
    Shim.cuvsBfSearch shimDist (shimHandle h.rows (h.rows.headD []).length metric) q k
  cagraSearchFiltered h q k bits _ _ _ :=
    Shim.cuvsBfSearchFiltered shimDist (shimHandle h.rows (h.rows.headD []).length metric) q k
      (some (prefilterBitset bits.length (includedOf bits), bits.length))
  bfSearch b q k _ := Shim.cuvsBfSearch shimDist (shimHandle b.rows b.dim metric) q k
  bfSearchFiltered b q k bits _ :=
    Shim.cuvsBfSearchFiltered shimDist (shimHandle b.rows b.dim metric) q k
      (some (prefilterBitset bits.length (includedOf bits), bits.length))
  bruteForceSearch rows q k m _ := Shim.cuvsBfSearch shimDist (shimHandle rows q.length m) q k
  hnswSearch h q k :=
    Shim.cuvsBfSearch shimDist (shimHandle h.rows (h.rows.headD []).length metric) q k
  cagraSearchBatch h qs k _ _ _ :=
    if ∀ q ∈ qs, q.length = (qs.headD []).length then
      Shim.shimSearchBatch shimDist (shimHandle h.rows (h.rows.headD []).length metric) qs
        (qs.headD []).length k
    else .error 2
  bfSearchBatch b qs k _ :=
    if ∀ q ∈ qs, q.length = (qs.headD []).length then
      Shim.shimSearchBatch shimDist (shimHandle b.rows b.dim metric) qs (qs.headD []).length k
    else .error 2

section Contract

variable {shimDist : Metric → Vec → Vec → D} {metric : Metric} {rows : List Vec} {dim k : ℕ}
  {query : Vec} {out : List (SearchResult D)}

omit [LinearOrder D] [BoundedOrder D] in
theorem shimHandle_eq_some {ix : ShimIndex} (h : shimHandle rows dim metric = some ix) :
    ix.rows = rows ∧ ix.metric = metric ∧ ix.dim = dim := by
  rw [shimHandle] at h
  split_ifs at h
  cases h
  exact ⟨ShimIndex.rows_ofRows _ _, rfl, rfl⟩

theorem shimTopk_exactTopK {ix : ShimIndex} (hdim : query.length = ix.dim) {j : ℕ} (hj : j ≤ k) :
    ExactTopK ix.metric (fun v => shimDist ix.metric v query) ix.rows j
      (shimTopk shimDist ix query k none) := by
  have hcontract := shimTopk_contract shimDist ix query hdim k none
  rw [candidates_none] at hcontract
  exact hcontract.exactTopK hj

theorem cuvsBfSearch_exact
    (h : Shim.cuvsBfSearch shimDist (shimHandle rows dim metric) query k = .ok out) :
    ExactTopK metric (fun v => shimDist metric v query) rows k out := by
  cases hhandle : shimHandle rows dim metric with
  | none =>
    rw [hhandle] at h
    cases h
  | some ix =>
    obtain ⟨hrows, hmetric, -⟩ := shimHandle_eq_some hhandle
    rw [hhandle, Shim.cuvsBfSearch] at h
    split_ifs at h with hdim
    cases h
    have hexact := @shimTopk_exactTopK D _ _ shimDist k query ix (not_not.mp hdim) k (Nat.le_refl k)
    rwa [hrows, hmetric] at hexact

theorem shimSearchBatch_exact {queries : List Vec} {results : List (List (SearchResult D))}
    (hwidth : ∀ q ∈ queries, q.length = (queries.headD []).length)
    (h : Shim.shimSearchBatch shimDist (shimHandle rows dim metric) queries
      (queries.headD []).length k = .ok results) {i : ℕ} (hi : queries[i]? = some query) {j : ℕ}
    (hj : j ≤ k) :
    ExactTopK metric (fun v => shimDist metric v query) rows j (results.getD i []) := by
  cases hhandle : shimHandle rows dim metric with
  | none =>
    rw [hhandle] at h
    cases h
  | some ix =>
    obtain ⟨hrows, hmetric, -⟩ := shimHandle_eq_some hhandle
    rw [hhandle, Shim.shimSearchBatch] at h
    split_ifs at h with hdim
    cases h
    have hquery : query.length = ix.dim :=
      (hwidth query (List.mem_of_getElem? hi)).trans (not_not.mp hdim)
    have hexact := @shimTopk_exactTopK D _ _ shimDist k query ix hquery j hj
    rw [hrows, hmetric] at hexact
    rw [List.getD_eq_getElem?_getD, List.getElem?_map, hi]
    exact hexact

/-- The reference kernels are kernels as the results of a search assume them. -/
theorem shimKernels_exact (shimDist : Metric → Vec → Vec → D) (metric : Metric) :
    (∀ query, ExactKernels (shimKernels shimDist metric) metric query
      fun v => shimDist metric v query) ∧
    ∀ metric', ExactTransient (shimKernels shimDist metric) metric'
      fun query v => shimDist metric' v query := by
  refine ⟨fun query => ⟨?_, ?_, ?_, ?_, ?_⟩, ?_⟩
  · intro h k dev itopk width out hout
    exact cuvsBfSearch_exact hout
  · intro b k dev out hout
    exact cuvsBfSearch_exact hout
  · intro h k out hout
    exact cuvsBfSearch_exact hout
  · intro h queries k dev itopk width out q hq hout j hj
    dsimp only [shimKernels] at hout
    split_ifs at hout with hwidth
    exact shimSearchBatch_exact hwidth hout hq hj
  · intro b queries k dev out q hq hout j hj
    dsimp only [shimKernels] at hout
    split_ifs at hout with hwidth
    exact shimSearchBatch_exact hwidth hout hq hj
  · intro metric' rows query k device out _ _ hout
    exact cuvsBfSearch_exact hout

/-! With the bitset of a whitelist. -/

def ShimIndex.whitelisted (ix : ShimIndex) (shimDist : Metric → Vec → Vec → D) (query : Vec)
    (included : List ℕ) : List (SearchResult D) :=
  ((List.range ix.n).filter included.contains).map fun i : ℕ =>
    ⟨(i : ℤ), shimDist ix.metric (ix.row i) query⟩

omit [LinearOrder D] [BoundedOrder D] in
theorem candidates_prefilter (ix : ShimIndex) (included : List ℕ) :
    ix.candidates shimDist query (some (prefilterBitset ix.n included, ix.n)) =
      ix.whitelisted shimDist query included := by
  rw [ShimIndex.candidates, ShimIndex.whitelisted]
  congr 1
  refine List.filter_congr fun i hi => ?_
  have hlt := List.mem_range.mp hi
  rw [shimExcluded, wordBit_prefilterBitset included hlt, decide_eq_true hlt, Bool.true_and,
    Bool.not_not]

omit [LinearOrder D] [BoundedOrder D] in
theorem mem_whitelisted {ix : ShimIndex} {included : List ℕ} {r : SearchResult D}
    (hr : r ∈ ix.whitelisted shimDist query included) :
    ∃ i ∈ included, r.itemId = (i : ℤ) := by
  obtain ⟨i, hi, rfl⟩ := List.mem_map.mp hr
  exact ⟨i, List.contains_iff_mem.mp (List.mem_filter.mp hi).2, rfl⟩

omit [LinearOrder D] [BoundedOrder D] in
theorem whitelisted_nodup (ix : ShimIndex) (included : List ℕ) :
    ((ix.whitelisted shimDist query included).map SearchResult.itemId).Nodup := by
  have hmap : (ix.whitelisted shimDist query included).map SearchResult.itemId =
      ((List.range ix.n).filter included.contains).map fun i : ℕ => (i : ℤ) := by
    rw [ShimIndex.whitelisted, List.map_map]
    rfl
  rw [hmap]
  exact (List.nodup_range.filter _).map Nat.cast_injective

theorem TailContract.slotsOf {ix : ShimIndex} {included : List ℕ}
    (h : TailContract metric (ix.whitelisted shimDist query included) k out) :
    SlotsOf k included out := by
  obtain ⟨hits, hout, hnear, -⟩ := h.hits
  have hitem : ∀ r ∈ hits, ∃ i ∈ included, r.itemId = (i : ℤ) :=
    fun r hr => mem_whitelisted (hnear.mem hr)
  have hpad : ∀ r ∈ List.replicate (k - hits.length) (shimPad metric : SearchResult D),
      r.itemId = cuvsPadItemId := by
    intro r hr
    rw [List.eq_of_mem_replicate hr]
    rfl
  have hdistinct : hits.Pairwise fun a b => a.itemId ≠ b.itemId := by
    obtain ⟨S, hS, -⟩ := hnear.split
    have hnodup := (hS.map SearchResult.itemId).nodup_iff.mp (whitelisted_nodup ix included)
    rw [List.map_append] at hnodup
    exact List.pairwise_map.mp (List.nodup_append.mp hnodup).1
  refine ⟨h.length, fun r hr => ?_, ?_⟩
  · rw [hout] at hr
    rcases List.mem_append.mp hr with hr | hr
    · exact Or.inr (hitem r hr)
    · exact Or.inl (hpad r hr)
  · rw [hout, List.pairwise_append]
    refine ⟨?_, ?_, fun a ha b hb _ => ?_⟩
    · refine hdistinct.imp ?_
      intro a b hne _
      exact hne
    · exact List.pairwise_replicate.mpr (Or.inr fun hne => absurd rfl hne)
    · obtain ⟨i, -, hi⟩ := hitem a ha
      rw [hi, hpad b hb, cuvsPadItemId]
      omega

/-- A search under the daemon's bitset finds the nearest of the whitelisted items. -/
theorem shimTopk_prefilter (shimDist : Metric → Vec → Vec → D) (ix : ShimIndex) (query : Vec)
    (hdim : query.length = ix.dim) (k : ℕ) (included : List ℕ) :
    TailContract ix.metric (ix.whitelisted shimDist query included) k
        (shimTopk shimDist ix query k (some (prefilterBitset ix.n included, ix.n))) ∧
      SlotsOf k included
        (shimTopk shimDist ix query k (some (prefilterBitset ix.n included, ix.n))) := by
  have hcontract := shimTopk_contract shimDist ix query hdim k
    (some (prefilterBitset ix.n included, ix.n))
  rw [candidates_prefilter] at hcontract
  exact ⟨hcontract, hcontract.slotsOf⟩

def sampleShimIndex : ShimIndex := @ShimIndex.ofRows 1 ⟨[[5], [7], [9]], by simp⟩ .l2

def sampleShimDist : Metric → Vec → Vec → Fin 256 := fun _ a b =>
  Fin.ofNat 256 ((a.headD 0).toNat - (b.headD 0).toNat + ((b.headD 0).toNat - (a.headD 0).toNat))

theorem sampleShim_prefilter :
    TailContract .l2 (sampleShimIndex.whitelisted sampleShimDist [8] [0, 2]) 4
        (shimTopk sampleShimDist sampleShimIndex [8] 4
          (some (prefilterBitset sampleShimIndex.n [0, 2], sampleShimIndex.n))) ∧
      SlotsOf 4 [0, 2]
        (shimTopk sampleShimDist sampleShimIndex [8] 4
          (some (prefilterBitset sampleShimIndex.n [0, 2], sampleShimIndex.n))) :=
  shimTopk_prefilter sampleShimDist sampleShimIndex [8] rfl 4 [0, 2]

end Contract

end PgCuvs
