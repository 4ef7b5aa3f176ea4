import PgCuvs.Transient.Search

/-! What the first call of the scan gets from the daemon: the nearest rows that pass the filter,
if it gets anything. -/

namespace PgCuvs

open Selection

variable {D : Type}

section Corpus

def TableRow.kept (r : TableRow) : Option (Tid × Vec) :=
  if r.qual then r.value.map fun v => (r.tid, v.x) else none

def TableRow.vec (r : TableRow) : Vec := (r.value.map PgVector.x).getD []

/-- The table rows that pass the filter and have a vector. -/
def TableView.qualifying (view : TableView) : List TableRow :=
  view.rows.filter fun r => r.kept.isSome

variable {maxMb qdim : ℕ} {c c' : TbfCorpus} {r : TableRow} {rows : List TableRow}

structure TbfCorpus.Collected (qdim : ℕ) (kept : List (Tid × Vec)) (c : TbfCorpus) : Prop where
  dim : c.dim = some qdim ∨ c.dim = none ∧ kept = []
  n : c.n = kept.length
  corpus : c.corpus = kept.flatMap Prod.snd
  ctids : c.ctids = kept.map Prod.fst
  width : ∀ p ∈ kept, p.2.length = qdim

theorem TbfCorpus.Collected.empty : TbfCorpus.empty.Collected qdim [] where
  dim := Or.inr ⟨rfl, rfl⟩
  n := rfl
  corpus := rfl
  ctids := rfl
  width := by simp

theorem TbfCorpus.addVector_ok {dim : ℕ} {tid : Tid} {v : PgVector}
    (h : c.addVector maxMb dim tid v = .ok c') :
    c'.dim = some dim ∧ c'.n = c.n + 1 ∧ c'.corpus = c.corpus ++ v.x ∧
      c'.ctids = c.ctids ++ [tid] := by
  by_cases hbig : maxMb * 1024 * 1024 < (c.n + 1) * dim * 4
  · rw [addVector, if_pos hbig] at h
    cases h
  · rw [addVector, if_neg hbig] at h
    cases h
    exact ⟨rfl, rfl, rfl, rfl⟩

theorem TbfCorpus.Collected.addVector {kept : List (Tid × Vec)} {dim : ℕ} {tid : Tid}
    {v : PgVector} (h : c.Collected qdim kept) (hdim : dim = qdim) (hv : v.x.length = qdim)
    (hadd : c.addVector maxMb dim tid v = .ok c') :
    c'.Collected qdim (kept ++ [(tid, v.x)]) := by
  obtain ⟨hdim', hn, hcorpus, hctids⟩ := TbfCorpus.addVector_ok hadd
  refine ⟨Or.inl (hdim'.trans (congrArg some hdim)), ?_, ?_, ?_, ?_⟩
  · rw [hn, h.n, List.length_append]
    rfl
  · rw [hcorpus, h.corpus, List.flatMap_append, List.flatMap_singleton]
  · rw [hctids, h.ctids, List.map_append]
    rfl
  · intro p hp
    rcases List.mem_append.mp hp with hp | hp
    · exact h.width p hp
    · rw [List.mem_singleton.mp hp]
      exact hv

theorem TbfCorpus.Collected.addRow {kept : List (Tid × Vec)} (h : c.Collected qdim kept)
    (hadd : c.addRow maxMb qdim r = .ok c') : c'.Collected qdim (kept ++ r.kept.toList) := by
  have hnone : r.kept = none → c = c' → c'.Collected qdim (kept ++ r.kept.toList) := by
    rintro hkept rfl
    rw [hkept, Option.toList_none, List.append_nil]
    exact h
  rw [TbfCorpus.addRow] at hadd
  split_ifs at hadd with hqual
  · cases hvalue : r.value with
    | none =>
      rw [hvalue] at hadd
      refine hnone ?_ (Except.ok.inj hadd)
      rw [TableRow.kept, if_pos hqual, hvalue]
      rfl
    | some v =>
      have hkept : r.kept = some (r.tid, v.x) := by
        rw [TableRow.kept, if_pos hqual, hvalue]
        rfl
      rw [hvalue] at hadd
      rw [hkept, Option.toList_some]
      rcases h.dim with hdim | ⟨hdim, -⟩
      · simp only [hdim] at hadd
        split_ifs at hadd with hsame
        exact h.addVector rfl (not_not.mp hsame) hadd
      · simp only [hdim] at hadd
        split_ifs at hadd with hsame
        exact h.addVector (not_not.mp hsame) (not_not.mp hsame) hadd
  · refine hnone ?_ (Except.ok.inj hadd)
    rw [TableRow.kept, if_neg hqual]

theorem tbfCollect_ok (h : tbfCollect maxMb qdim rows = .ok c) :
    c.Collected qdim (rows.filterMap TableRow.kept) := by
  have hfold : ∀ (rows : List TableRow) (kept : List (Tid × Vec)) (c₀ : TbfCorpus),
      c₀.Collected qdim kept → rows.foldlM (TbfCorpus.addRow maxMb qdim) c₀ = .ok c →
      c.Collected qdim (kept ++ rows.filterMap TableRow.kept) := by
    intro rows
    induction rows with
    | nil =>
      intro kept c₀ h₀ hc
      rw [List.foldlM_nil] at hc
      rw [List.filterMap_nil, List.append_nil, ← Except.ok.inj hc]
      exact h₀
    | cons r rows ih =>
      intro kept c₀ h₀ hc
      rw [List.foldlM_cons] at hc
      cases hrow : c₀.addRow maxMb qdim r with
      | error e =>
        rw [hrow] at hc
        cases hc
      | ok c₁ =>
        rw [hrow] at hc
        have hrest := ih _ c₁ (h₀.addRow hrow) hc
        cases hkept : r.kept with
        | none =>
          rw [hkept, Option.toList_none, List.append_nil] at hrest
          rwa [List.filterMap_cons_none hkept]
        | some p =>
          rw [hkept, Option.toList_some, List.append_assoc] at hrest
          rwa [List.filterMap_cons_some hkept]
  have hall := hfold rows [] .empty .empty h
  rwa [List.nil_append] at hall

def Admissible (maxMb qdim : ℕ) (kept : List (Tid × Vec)) : Prop :=
  (∀ p ∈ kept, p.2.length = qdim) ∧ kept.length * qdim * 4 ≤ maxMb * 1024 * 1024

theorem TbfCorpus.Collected.addRow_ok_iff {kept : List (Tid × Vec)}
    (h : c.Collected qdim kept) (hfits : kept.length * qdim * 4 ≤ maxMb * 1024 * 1024) :
    (∃ c', c.addRow maxMb qdim r = .ok c') ↔
      Admissible maxMb qdim (kept ++ r.kept.toList) := by
  have hnone : r.kept = none → Admissible maxMb qdim (kept ++ r.kept.toList) := by
    intro hkept
    rw [hkept, Option.toList_none, List.append_nil]
    exact ⟨h.width, hfits⟩
  rw [TbfCorpus.addRow]
  by_cases hqual : r.qual = true
  swap
  · rw [if_neg hqual]
    refine iff_of_true ⟨c, rfl⟩ (hnone ?_)
    rw [TableRow.kept, if_neg hqual]
  rw [if_pos hqual]
  cases hvalue : r.value with
  | none =>
    refine iff_of_true ⟨c, rfl⟩ (hnone ?_)
    rw [TableRow.kept, if_pos hqual, hvalue]
    rfl
  | some v =>
    have hkept : r.kept = some (r.tid, v.x) := by
      rw [TableRow.kept, if_pos hqual, hvalue]
      rfl
    have hadmits : Admissible maxMb qdim (kept ++ r.kept.toList) ↔
        v.x.length = qdim ∧ (c.n + 1) * qdim * 4 ≤ maxMb * 1024 * 1024 := by
      rw [hkept, Option.toList_some, Admissible, List.length_append, h.n]
      refine and_congr_left fun _ => ⟨fun hall => ?_, fun hv p hp => ?_⟩
      · exact hall (r.tid, v.x) (List.mem_append_right _ (List.mem_singleton_self _))
      · rcases List.mem_append.mp hp with hp | hp
        · exact h.width p hp
        · rw [List.mem_singleton.mp hp]
          exact hv
    have hadd : v.x.length = qdim →
        ((∃ c', c.addVector maxMb qdim r.tid v = .ok c') ↔
          (c.n + 1) * qdim * 4 ≤ maxMb * 1024 * 1024) := by
      intro _
      rw [TbfCorpus.addVector]
      by_cases hbig : maxMb * 1024 * 1024 < (c.n + 1) * qdim * 4
      · rw [if_pos hbig]
        refine iff_of_false ?_ (Nat.not_le.mpr hbig)
        rintro ⟨c', ⟨⟩⟩
      · rw [if_neg hbig]
        exact iff_of_true ⟨_, rfl⟩ (Nat.not_lt.mp hbig)
    rw [hadmits]
    by_cases hv : v.x.length = qdim
    · rw [and_iff_right hv, ← hadd hv]
      -- the first row fixes the dimension of the corpus, and a later one is checked against it
      rcases h.dim with hdim | ⟨hdim, -⟩
      · simp only [hdim, ne_eq, hv, not_true_eq_false, if_false]
      · simp only [hdim, ne_eq, hv, not_true_eq_false, if_false]
    · refine iff_of_false ?_ fun hboth => hv hboth.1
      rintro ⟨c', hc'⟩
      rcases h.dim with hdim | ⟨hdim, -⟩
      · simp only [hdim, ne_eq, hv, not_false_eq_true, if_true] at hc'
        cases hc'
      · simp only [hdim, ne_eq, hv, not_false_eq_true, if_true] at hc'
        cases hc'

theorem Admissible.of_append {kept more : List (Tid × Vec)}
    (h : Admissible maxMb qdim (kept ++ more)) : Admissible maxMb qdim kept := by
  refine ⟨fun p hp => h.1 p (List.mem_append_left _ hp), le_trans ?_ h.2⟩
  rw [List.length_append]
  exact Nat.mul_le_mul_right 4 (Nat.mul_le_mul_right qdim (Nat.le_add_right _ _))

/-- The corpus is refused exactly when a row is of another dimension than the query or all rows
together exceed the limit. -/
theorem tbfCollect_ok_iff (maxMb qdim : ℕ) (rows : List TableRow) :
    (∃ c, tbfCollect maxMb qdim rows = .ok c) ↔
      Admissible maxMb qdim (rows.filterMap TableRow.kept) := by
  have hfold : ∀ (rows : List TableRow) (kept : List (Tid × Vec)) (c₀ : TbfCorpus),
      c₀.Collected qdim kept → Admissible maxMb qdim kept →
      ((∃ c, rows.foldlM (TbfCorpus.addRow maxMb qdim) c₀ = .ok c) ↔
        Admissible maxMb qdim (kept ++ rows.filterMap TableRow.kept)) := by
    intro rows
    induction rows with
    | nil =>
      intro kept c₀ _ hkept
      rw [List.filterMap_nil, List.append_nil]
      exact iff_of_true ⟨c₀, rfl⟩ hkept
    | cons r rows ih =>
      intro kept c₀ h₀ hkept
      have hrow := h₀.addRow_ok_iff (r := r) hkept.2
      have hlist : kept ++ (r :: rows).filterMap TableRow.kept =
          kept ++ r.kept.toList ++ rows.filterMap TableRow.kept := by
        cases hr : r.kept with
        | none => rw [List.filterMap_cons_none hr, Option.toList_none, List.append_nil]
        | some p =>
          rw [List.filterMap_cons_some hr, Option.toList_some, List.append_assoc,
            List.singleton_append]
      rw [List.foldlM_cons, hlist]
      cases hstep : c₀.addRow maxMb qdim r with
      | error e =>
        refine iff_of_false ?_ fun hall => ?_
        · rintro ⟨c, ⟨⟩⟩
        · obtain ⟨c₁, hc₁⟩ := hrow.mpr hall.of_append
          rw [hstep] at hc₁
          cases hc₁
      | ok c₁ => exact ih _ c₁ (h₀.addRow hstep) (hrow.mp ⟨c₁, hstep⟩)
  have hempty : Admissible maxMb qdim [] := by
    refine ⟨by simp, ?_⟩
    rw [List.length_nil, Nat.zero_mul, Nat.zero_mul]
    exact Nat.zero_le _
  have hall := hfold rows [] .empty .empty hempty
  rwa [List.nil_append] at hall

theorem TableRow.kept_eq (hkept : r.kept.isSome) : r.kept = some (r.tid, r.vec) := by
  rw [TableRow.kept] at hkept ⊢
  split_ifs at hkept ⊢
  · cases hvalue : r.value with
    | none =>
      rw [hvalue] at hkept
      cases hkept
    | some v =>
      rw [TableRow.vec, hvalue]
      rfl
  · cases hkept

theorem TableView.kept_eq (view : TableView) :
    view.rows.filterMap TableRow.kept = view.qualifying.map fun r => (r.tid, r.vec) := by
  rw [TableView.qualifying]
  induction view.rows with
  | nil => rfl
  | cons r rows ih =>
    cases hkept : r.kept with
    | none =>
      have hout : ¬(r.kept.isSome = true) := by
        rw [hkept]
        exact Bool.false_ne_true
      rw [List.filterMap_cons_none hkept, List.filter_cons, if_neg hout, ih]
    | some p =>
      have hin : r.kept.isSome = true := by
        rw [hkept]
        rfl
      have hp : p = (r.tid, r.vec) := Option.some.inj (hkept.symm.trans (r.kept_eq hin))
      rw [List.filterMap_cons_some hkept, List.filter_cons, if_pos hin, List.map_cons, ih, hp]

theorem TableRow.tid_lt (r : TableRow) : r.tid < 2 ^ 64 := by
  have hblock := r.block.toNat_lt
  have hoffset := r.offset.toNat_lt
  show r.block.toNat * 65536 + r.offset.toNat < 18446744073709551616
  omega

theorem tid_lt_of_mem_kept {p : Tid × Vec} (h : p ∈ rows.filterMap TableRow.kept) :
    p.1 < 2 ^ 64 := by
  obtain ⟨r, -, hr⟩ := List.mem_filterMap.mp h
  rw [TableRow.kept] at hr
  split_ifs at hr
  obtain ⟨v, -, rfl⟩ := Option.map_eq_some_iff.mp hr
  exact r.tid_lt

theorem TbfCorpus.Collected.holds {kept : List (Tid × Vec)} (h : c.Collected qdim kept)
    (hencoded : ∀ p ∈ kept, p.1 < 2 ^ 64) : (c.buffers qdim).Holds qdim kept where
  declared := Or.inl rfl
  nVecs := h.n
  vectors := h.corpus
  tids := h.ctids
  width := h.width
  encoded := hencoded

theorem segment_tids {bs : CuvsBuildState} {dim : ℕ} {kept : List (Tid × Vec)}
    (h : bs.Holds dim kept) :
    (mapCorpus bs.bytes kept.length dim).tids kept.length = kept.map Prod.fst := by
  apply List.ext_getElem
  · rw [Segment.length_tids, List.length_map]
  · intro i h1 h2
    rw [List.length_map] at h2
    have hrow := List.getElem?_eq_getElem h2
    simp only [Segment.tids, List.getElem_map, List.getElem_range]
    exact h.tid hrow

theorem segment_vecs {bs : CuvsBuildState} {dim : ℕ} {kept : List (Tid × Vec)}
    (h : bs.Holds dim kept) :
    (mapCorpus bs.bytes kept.length dim).vecs kept.length = kept.map Prod.snd := by
  apply List.ext_getElem
  · rw [Segment.length_vecs, List.length_map]
  · intro i h1 h2
    rw [List.length_map] at h2
    have hrow := List.getElem?_eq_getElem h2
    simp only [Segment.vecs, List.getElem_map, List.getElem_range]
    exact h.vec hrow

end Corpus

section Search

variable [LinearOrder D] {kern : Kernels D} {metric : Metric} {dist : Vec → Vec → D}

/-- Brute force over a corpus is exact when it succeeds. -/
def ExactTransient (kern : Kernels D) (metric : Metric) (dist : Vec → Vec → D) : Prop :=
  ∀ rows query k device out, 0 < k → k ≤ rows.length →
    kern.bruteForceSearch rows query k metric device = .ok out →
      ExactTopK metric (dist query) rows k out

theorem int32_count {n : ℕ} (hn : n < 2 ^ 32) :
    (Int32.ofNat n).toInt = n ∨ (Int32.ofNat n).toInt < 0 := by
  rcases Nat.lt_or_ge n (2 ^ 31) with hsmall | hlarge
  · exact Or.inl (Int32.toInt_ofNat_of_lt hsmall)
  · right
    rw [Int32.toInt_ofNat', Int.bmod]
    have hsize : Int32.size = 2 ^ 32 := rfl
    rw [hsize]
    omega

theorem transientDepth_eq {n k : ℕ} (hn : n < 2 ^ 32) (hk : 0 < k) (hbound : k ≤ 100000)
    (hsigned : ¬transientDepth (UInt32.ofNat k) n < 0) :
    (transientDepth (UInt32.ofNat k) n).toInt.toNat = min k n := by
  have hdepth : (UInt32.ofNat k).toInt32.toInt = k := by
    show (Int32.ofNat k).toInt = k
    exact Int32.toInt_ofNat_of_lt (by omega)
  have hone : (1 : Int32).toInt = 1 := rfl
  have hzero : (0 : Int32).toInt = 0 := rfl
  have hpos : ¬(UInt32.ofNat k).toInt32 < 1 := by
    rw [Int32.lt_iff_toInt_lt, hdepth, hone]
    omega
  have hdef : transientDepth (UInt32.ofNat k) n =
      if (UInt32.ofNat k).toInt32 < Int32.ofNat n then (UInt32.ofNat k).toInt32
      else Int32.ofNat n := by
    rw [transientDepth, if_neg hpos]
  rw [hdef] at hsigned ⊢
  rcases int32_count hn with hfits | hnegative
  · split_ifs with hless
    · rw [Int32.lt_iff_toInt_lt, hdepth, hfits] at hless
      rw [hdepth]
      omega
    · rw [Int32.lt_iff_toInt_lt, hdepth, hfits] at hless
      rw [hfits]
      omega
  · have hless : ¬(UInt32.ofNat k).toInt32 < Int32.ofNat n := by
      rw [Int32.lt_iff_toInt_lt, hdepth]
      omega
    rw [if_neg hless, Int32.lt_iff_toInt_lt, hzero] at hsigned
    exact absurd hnegative hsigned

/-- What the daemon answers with is the nearest of the rows it was handed. -/
theorem searchTransient_ok (hexact : ExactTransient kern metric dist) {h : TbfDaemon}
    {seg : Segment} {n dim k : ℕ} {query : Vec} (hn : 0 < n) (hn' : n < 2 ^ 32) (hk : 0 < k)
    (hbound : k ≤ 100000)
    (hok : (searchTransient kern h seg n dim (UInt32.ofNat k) metric query).status = .ok) :
    IsNearest metric.Nearer CuvsResult.distance k
      (candidates (dist query) (seg.tids n) (seg.vecs n))
      (searchTransient kern h seg n dim (UInt32.ofNat k) metric query).results := by
  rw [searchTransient] at hok ⊢
  cases hdevice : transientDevice h (n * dim * 4) with
  | none =>
    rw [hdevice] at hok
    cases hok
  | some dev =>
    rw [hdevice] at hok
    dsimp only at hok ⊢
    by_cases hfails : transientDepth (UInt32.ofNat k) n < 0 ∨ h.mallocs = false
    · rw [if_pos hfails] at hok
      cases hok
    rw [if_neg hfails] at hok ⊢
    rw [not_or] at hfails
    have hdepth := transientDepth_eq hn' hk hbound hfails.1
    rw [hdepth] at hok ⊢
    cases hkernel : kern.bruteForceSearch (seg.vecs n) query (min k n) metric dev with
    | error rc =>
      rw [hkernel] at hok
      cases hok
    | ok out =>
      have hlen : (seg.vecs n).length = n := seg.length_vecs n
      have htids : (seg.tids n).length = (seg.vecs n).length := by rw [seg.length_tids, hlen]
      have hnear := hexact (seg.vecs n) query (min k n) dev out (by omega)
        (by rw [hlen]; exact Nat.min_le_right k n) hkernel
      dsimp only
      rw [filterMap_itemResult, ← rankedRows_map (dist query) htids]
      rw [ExactTopK, hlen] at hnear
      refine IsNearest.of_eq_min (hnear.map (f := fun r : SearchResult D =>
        (⟨(seg.tids n).getD r.itemId.toNat 0, r.distance⟩ : CuvsResult D))) ?_
      rw [rankedRows_map (dist query) htids, candidates, List.length_map, List.length_zip, htids,
        hlen, Nat.min_self]

def TableRow.result (dist : Vec → Vec → D) (query : Vec) (r : TableRow) : CuvsResult D :=
  ⟨r.tid, dist query r.vec⟩

omit [LinearOrder D] in
theorem candidates_qualifying (view : TableView) (query : Vec) :
    candidates (dist query) ((view.rows.filterMap TableRow.kept).map Prod.fst)
      ((view.rows.filterMap TableRow.kept).map Prod.snd) =
        view.qualifying.map (TableRow.result dist query) := by
  rw [view.kept_eq, List.map_map, List.map_map, candidates, List.zip_map', List.map_map]
  rfl

omit [LinearOrder D] in
theorem receive_ok {k : ℕ} {reply : SearchReply D} (h : (receive k reply).status = .ok) :
    reply.status = .ok ∧ (receive k reply).results = reply.results.take k := by
  have hstatus : reply.status = .ok := h
  exact ⟨hstatus, if_pos hstatus⟩

omit [LinearOrder D] in
theorem cuvsIpcSearchBfTransient_reply {io : TbfIpc} {c : TbfCorpus} {query : Vec} {k : ℕ}
    (hok : (cuvsIpcSearchBfTransient kern io c query k metric).status = .ok) :
    0 < c.n ∧ cuvsIpcSearchBfTransient kern io c query k metric =
      receive k (handleTransient kern io.server
        (mapCorpus (c.buffers query.length).bytes c.n query.length)
        ⟨Int64.ofNat c.n, UInt32.ofNat query.length⟩ (UInt32.ofNat k) metric query) := by
  rw [cuvsIpcSearchBfTransient] at hok ⊢
  dsimp only at hok ⊢
  cases hwait : io.wait with
  | canceled =>
    rw [hwait] at hok
    dsimp only at hok
    split_ifs at hok <;> cases hok
  | fails =>
    rw [hwait] at hok
    dsimp only at hok
    split_ifs at hok <;> cases hok
  | arrives =>
    rw [hwait] at hok
    dsimp only at hok ⊢
    split_ifs at hok ⊢ with hbad <;> try cases hok
    rw [not_or, not_lt] at hbad
    exact ⟨hbad.1, rfl⟩

omit [LinearOrder D] in
theorem handleTransient_ok {h : TbfDaemon} {seg : Segment} {cmd : TransientFrame} {k : UInt32}
    {query : Vec} (hok : (handleTransient kern h seg cmd k metric query).status = .ok) :
    handleTransient kern h seg cmd k metric query =
      searchTransient kern h seg cmd.nVecs.toInt.toNat cmd.dim.toNat k metric query := by
  rw [handleTransient] at hok ⊢
  cases hmapped : (handleSearchBfTransient cmd h.sock h.corpusShm h.queryShm).1 with
  | error text =>
    rw [hmapped] at hok
    cases hok
  | ok u => rfl

theorem cuvsIpcSearchBfTransient_ok (hexact : ExactTransient kern metric dist) {io : TbfIpc}
    {view : TableView} {c : TbfCorpus} {query : PgVector} {k : ℕ}
    (hc : c.Collected query.x.length (view.rows.filterMap TableRow.kept))
    (hcount : c.n < 2 ^ 32) (hk : 0 < k) (hbound : k ≤ 100000)
    (hok : (cuvsIpcSearchBfTransient kern io c query.x k metric).status = .ok) :
    IsNearest metric.Nearer CuvsResult.distance k
      (view.qualifying.map (TableRow.result dist query.x))
      (cuvsIpcSearchBfTransient kern io c query.x k metric).results := by
  obtain ⟨hpos, hreply⟩ := cuvsIpcSearchBfTransient_reply hok
  rw [hreply] at hok ⊢
  obtain ⟨hanswered, htake⟩ := receive_ok hok
  have hn : (Int64.ofNat c.n).toInt.toNat = c.n := by
    rw [Int64.toInt_ofNat_of_lt (by omega), Int.toNat_natCast]
  have hhandled := handleTransient_ok hanswered
  simp only [hn] at hhandled
  rw [hhandled] at hanswered
  have hnear := searchTransient_ok hexact hpos hcount hk hbound hanswered
  have hholds := hc.holds fun p hp => tid_lt_of_mem_kept hp
  have hrows : candidates (dist query.x)
      ((mapCorpus (c.buffers query.x.length).bytes c.n query.x.length).tids c.n)
      ((mapCorpus (c.buffers query.x.length).bytes c.n query.x.length).vecs c.n) =
        view.qualifying.map (TableRow.result dist query.x) := by
    rw [← candidates_qualifying, hc.n, segment_tids hholds, segment_vecs hholds]
  rw [hrows] at hnear
  rw [htake, hhandled, List.take_of_length_le hnear.length_le]
  exact hnear

/-- The results of the first call are the nearest qualifying rows. -/
theorem cuvsTbfBuild_ok {scan : TbfScan} (hexact : ExactTransient kern scan.metric dist)
    (hcount : scan.view.qualifying.length < 2 ^ 32) {io : TbfIpc} {results : List (CuvsResult D)}
    (h : cuvsTbfBuild kern io scan = .ok results) :
    ∃ q, scan.query = some q ∧ ∃ rows, results = rows.map (TableRow.result dist q.x) ∧
      IsNearest scan.metric.Nearer (fun r => dist q.x r.vec) scan.k scan.view.qualifying rows := by
  rw [cuvsTbfBuild] at h
  cases hquery : scan.query with
  | none =>
    rw [hquery] at h
    cases h
  | some q =>
    rw [hquery] at h
    dsimp only at h
    refine ⟨q, rfl, ?_⟩
    cases hcollect : tbfCollect scan.maxMb q.x.length scan.view.rows with
    | error e =>
      rw [hcollect] at h
      cases h
    | ok c =>
      rw [hcollect] at h
      dsimp only at h
      have hc := tbfCollect_ok hcollect
      have hn : c.n = scan.view.qualifying.length := by
        rw [hc.n, scan.view.kept_eq, List.length_map]
      by_cases hnone : c.n = 0
      · rw [if_pos hnone] at h
        cases h
        rw [hn, List.length_eq_zero_iff] at hnone
        rw [hnone]
        exact ⟨[], rfl, isNearest_nil _⟩
      · rw [if_neg hnone] at h
        split_ifs at h with hok
        cases h
        have hnear := cuvsIpcSearchBfTransient_ok hexact hc (hn ▸ hcount) scan.k_pos scan.k_le hok
        exact hnear.of_map

end Search

end PgCuvs
