import PgCuvs.Library.Run
import PgCuvs.Shim.File

/-! An index over its life. What was appended and never compacted away is what it holds, row for
row, whatever failed on the way; and that is what a search looks at. -/

namespace PgCuvs

/-- What an index is for: rows under their numbers. -/
structure VectorTable where
  rows : List Vec
  dim : ℕ
  metric : Metric
  /-- The next extension is made to fail. -/
  injected : Bool

structure ShimHolder where
  index : ShimIndex
  injectExtendOom : Bool

inductive ShimOp where
  /-- `cuvs_set_inject_extend_oom` -/
  | setInject (enable : Bool)
  | extend {dim : ℕ} (newVecs : RowBlock dim)
  | compact (keepBits : List UInt32) (nTotal : ℕ) (metric : Metric)
  /-- The index is saved, and the first bytes of its file are loaded. -/
  | reload (bytes : ℕ)

namespace ShimHolder

def step (s : ShimHolder) : ShimOp → ShimHolder
  | .setInject enable => { s with injectExtendOom := enable }
  | .extend newVecs =>
    let (ret, injected) := Shim.cuvsCagraExtend s.injectExtendOom (some s.index) (some newVecs)
    { index := ret.toOption.getD s.index, injectExtendOom := injected }
  | .compact keepBits nTotal metric =>
    { s with index := (Shim.cuvsCagraCompact (some s.index) keepBits nTotal metric).getD s.index }
  | .reload bytes =>
    { s with
      index := ((Shim.readIndex ((Shim.shimWrite s.index).take bytes)).map Prod.fst).getD s.index }

def table (s : ShimHolder) : VectorTable :=
  ⟨s.index.rows, s.index.dim, s.index.metric, s.injectExtendOom⟩

end ShimHolder

namespace VectorTable

def keep (keepBits : List UInt32) (nTotal : ℕ) (rows : List Vec) : List Vec :=
  (rows.zipIdx.filter fun p => decide (p.2 < nTotal) && wordBit keepBits p.2).map Prod.fst

def step (t : VectorTable) : ShimOp → VectorTable
  | .setInject enable => { t with injected := enable }
  | @ShimOp.extend dim newVecs =>
    if newVecs.rows = [] ∨ dim ≠ t.dim then t
    else if t.injected then { t with injected := false }
    else { t with rows := t.rows ++ newVecs.rows }
  | .compact keepBits nTotal metric => { t with rows := keep keepBits nTotal t.rows, metric }
  | .reload _ => t

end VectorTable

section Steps

variable {ix : ShimIndex}

theorem rows_extend (b : RowBlock ix.dim)
    (size : (ix.vecs ++ b.rows.flatten).length = (ix.n + b.rows.length) * ix.dim) :
    (ShimIndex.mk (ix.vecs ++ b.rows.flatten) (ix.n + b.rows.length) ix.dim ix.metric size).rows =
      ix.rows ++ b.rows := by
  have hwidth : ∀ r ∈ ix.rows ++ b.rows, r.length = ix.dim := by
    intro r hr
    rcases List.mem_append.mp hr with hr | hr
    · exact ix.width_rows r hr
    · exact b.width r hr
  have hsame : ShimIndex.mk (ix.vecs ++ b.rows.flatten) (ix.n + b.rows.length) ix.dim ix.metric size =
      .ofRows ⟨ix.rows ++ b.rows, hwidth⟩ ix.metric := by
    rw [ShimIndex.ofRows, ShimIndex.mk.injEq, List.flatten_append, ix.flatten_rows,
      List.length_append, ix.length_rows]
    exact ⟨rfl, rfl, rfl, rfl⟩
  rw [hsame, ShimIndex.rows_ofRows]

theorem rows_zipIdx (ix : ShimIndex) :
    ix.rows.zipIdx = (List.range ix.n).map fun i => (ix.row i, i) := by
  apply List.ext_getElem
  · simp
  · intro i h1 h2
    simp [ShimIndex.rows]

theorem keptRows_rows (keepBits : List UInt32) (nTotal : ℕ) :
    (Shim.keptRows ix keepBits nTotal).rows = VectorTable.keep keepBits nTotal ix.rows := by
  have hrange : ∀ m, (List.range (min nTotal m)).filter (wordBit keepBits) =
      (List.range m).filter fun i => decide (i < nTotal) && wordBit keepBits i := by
    intro m
    induction m with
    | zero => rw [Nat.min_zero, List.range_zero, List.filter_nil, List.filter_nil]
    | succ m ih =>
      rw [List.range_succ, List.filter_append, ← ih]
      by_cases hm : m < nTotal
      · rw [Nat.min_eq_right hm, Nat.min_eq_right (Nat.le_of_lt hm), List.range_succ,
          List.filter_append]
        congr 1
        exact List.filter_congr fun i hi => by rw [List.mem_singleton.mp hi]; simp [hm]
      · rw [Nat.min_eq_left (Nat.le_succ_of_le (not_lt.mp hm)), Nat.min_eq_left (not_lt.mp hm)]
        simp [hm]
  have hkept : (Shim.keptRows ix keepBits nTotal).rows =
      ((List.range (min nTotal ix.n)).filter (wordBit keepBits)).map ix.row := rfl
  rw [VectorTable.keep, rows_zipIdx, List.filter_map, List.map_map, hkept, hrange]
  rfl

end Steps

def ShimHolder.SavesFit (s : ShimHolder) : ShimOp → Prop
  | .reload _ => Shim.Fits s.index
  | _ => True

/-- Every call does to the rows what it is for. -/
theorem ShimHolder.table_step {s : ShimHolder} {op : ShimOp} (hfits : s.SavesFit op) :
    (s.step op).table = s.table.step op := by
  cases op with
  | setInject enable => rfl
  | @extend dim newVecs =>
    rw [ShimHolder.step, VectorTable.step, Shim.cuvsCagraExtend]
    by_cases hempty : newVecs.rows = []
    · rw [if_pos (Or.inl hempty), if_pos (by rw [hempty]; rfl)]
      rfl
    · rw [if_neg fun hlen => hempty (List.eq_nil_of_length_eq_zero hlen)]
      by_cases hdim : dim = s.index.dim
      · subst hdim
        have hgrows : ¬(newVecs.rows = [] ∨ s.index.dim ≠ s.table.dim) := by
          rw [not_or]
          exact ⟨hempty, not_not.mpr rfl⟩
        rw [dif_neg (not_not.mpr rfl), if_neg hgrows]
        by_cases hinject : s.injectExtendOom = true
        · rw [if_pos hinject, if_pos (show s.table.injected = true from hinject)]
          rfl
        · rw [if_neg hinject, if_neg (show ¬s.table.injected = true from hinject)]
          rw [table, table, VectorTable.mk.injEq]
          exact ⟨rows_extend newVecs _, rfl, rfl, rfl⟩
      · have hother : newVecs.rows = [] ∨ dim ≠ s.table.dim := Or.inr hdim
        rw [dif_pos hdim, if_pos hother]
        rfl
  | compact keepBits nTotal metric =>
    rw [ShimHolder.step, VectorTable.step, table, table, VectorTable.mk.injEq]
    refine ⟨?_, rfl, rfl, rfl⟩
    exact (ShimIndex.rows_ofRows _ metric).trans (keptRows_rows keepBits nTotal)
  | reload bytes =>
    have hread := Shim.readIndex_prefix hfits (List.take_prefix bytes (Shim.shimWrite s.index))
    rw [ShimHolder.step, VectorTable.step, hread]
    split_ifs <;> rfl

theorem ShimHolder.run_table {s : ShimHolder} {ops : List ShimOp}
    (hfits : Run.Along ShimHolder.step SavesFit s ops) :
    (Run.run ShimHolder.step s ops).table = Run.run VectorTable.step s.table ops := by
  induction ops generalizing s with
  | nil => rfl
  | cons op ops ih =>
    rw [Run.run, Run.run, ih hfits.2, table_step hfits.1]

section Contract

variable {D : Type} [LinearOrder D] [BoundedOrder D]

/-- After any run a search looks at the rows that were appended and not compacted away, each
under its place among them. -/
theorem ShimHolder.run_searches (shimDist : Metric → Vec → Vec → D) (s : ShimHolder)
    (ops : List ShimOp) (hfits : Run.Along ShimHolder.step SavesFit s ops) (query : Vec) (k : ℕ) :
    let t := Run.run VectorTable.step s.table ops
    let search := Shim.cuvsBfSearch shimDist (some (Run.run ShimHolder.step s ops).index) query k
    if query.length = t.dim then
      ∃ out, search = .ok out ∧
        TailContract t.metric (rankedRows (fun v => shimDist t.metric v query) t.rows) k out
    else search = .error 2 := by
  intro t search
  have htable : (Run.run ShimHolder.step s ops).table = t := run_table hfits
  set ix := (Run.run ShimHolder.step s ops).index with hix
  have hdim : t.dim = ix.dim := by rw [← htable]; rfl
  have hmetric : t.metric = ix.metric := by rw [← htable]; rfl
  have hrows : t.rows = ix.rows := by rw [← htable]; rfl
  have hsearch : search =
      if query.length ≠ ix.dim then .error 2 else .ok (shimTopk shimDist ix query k none) := rfl
  rw [hsearch, hdim, hmetric, hrows, ← candidates_none]
  split_ifs with hquery hne
  · exact absurd hquery hne
  · exact ⟨_, rfl, shimTopk_contract shimDist ix query hquery k none⟩
  · rfl

def sampleShim : ShimHolder := ⟨sampleShimIndex, true⟩

def sampleShimOps : List ShimOp :=
  [@ShimOp.extend 1 ⟨[[4]], by simp⟩, @ShimOp.extend 1 ⟨[[6], [3]], by simp⟩,
    .compact [0b10101] 5 .l2, .reload 10]

theorem sampleShim_searches :
    (Run.run VectorTable.step sampleShim.table sampleShimOps).rows = [[5], [9], [3]] ∧
    ∃ out, Shim.cuvsBfSearch sampleShimDist
        (some (Run.run ShimHolder.step sampleShim sampleShimOps).index) [8] 3 = .ok out ∧
      TailContract .l2 (rankedRows (fun v => sampleShimDist .l2 v [8]) [[5], [9], [3]]) 3 out := by
  have hrun : (Run.run VectorTable.step sampleShim.table sampleShimOps).rows = [[5], [9], [3]] := by
    decide
  have hfits : Run.Along ShimHolder.step ShimHolder.SavesFit sampleShim sampleShimOps :=
    ⟨trivial, trivial, trivial, ⟨by decide, by decide, by decide, by decide⟩, trivial⟩
  have hsearch := ShimHolder.run_searches sampleShimDist sampleShim sampleShimOps hfits [8] 3
  exact ⟨hrun, hsearch⟩

end Contract

end PgCuvs
