import PgCuvs.Shim.Index
import PgCuvs.Search.FilterExact

/-! The reference kernels keep what the daemon's results rest on: every slot is written, the hits
are the nearest items, and the padding is behind them. -/

namespace PgCuvs

open Selection

section Rows

variable (ix : ShimIndex)

@[simp] theorem ShimIndex.length_rows : ix.rows.length = ix.n := by
  rw [ShimIndex.rows, List.length_map, List.length_range]

theorem ShimIndex.width_rows : ∀ r ∈ ix.rows, r.length = ix.dim := by
  intro r hr
  obtain ⟨i, hi, rfl⟩ := List.mem_map.mp hr
  exact Shim.row_length ix (List.mem_range.mp hi)

theorem ShimIndex.rows_ofRows {dim : ℕ} (b : RowBlock dim) (metric : Metric) :
    (ShimIndex.ofRows b metric).rows = b.rows := by
  apply List.ext_getElem
  · rw [ShimIndex.length_rows]
    rfl
  · intro i h1 h2
    have hwidth : ∀ r ∈ b.rows, (id r).length = dim := b.width
    have hrow := Records.slice_flatMap hwidth [] (List.getElem?_eq_getElem h2)
    rw [List.append_nil, List.flatMap_id] at hrow
    simp only [ShimIndex.rows, List.getElem_map, List.getElem_range]
    exact hrow

theorem ShimIndex.flatten_rows : ix.rows.flatten = ix.vecs := by
  have htake : ∀ m ≤ ix.n, ((List.range m).map ix.row).flatten = ix.vecs.take (m * ix.dim) := by
    intro m
    induction m with
    | zero =>
      intro _
      rw [Nat.zero_mul, List.take_zero]
      rfl
    | succ m ih =>
      intro hm
      rw [List.range_succ, List.map_append, List.flatten_append, ih (Nat.le_of_succ_le hm),
        Nat.succ_mul, List.take_add, List.map_singleton, List.flatten_singleton]
      rfl
  rw [ShimIndex.rows, htake ix.n (Nat.le_refl _), ← ix.size, List.take_length]

end Rows

variable {D : Type} [LinearOrder D]

section Comparator

/-- Nearer, and in front of it among those as near. -/
def ShimPair.Before (metric : Metric) (a b : ShimPair D) : Prop :=
  metric.Nearer a.dist b.dist ∧ (metric.Nearer b.dist a.dist → a.id ≤ b.id)

theorem shimPairCmp_nonpos {metric : Metric} (hmetric : metric ≠ .ip) {a b : ShimPair D} :
    shimPairCmp a b ≤ 0 ↔ a.Before metric b := by
  have hnear : ∀ x y : D, metric.Nearer x y ↔ x ≤ y := by
    intro x y
    cases metric with
    | ip => exact absurd rfl hmetric
    | l2 => exact Iff.rfl
    | cosine => exact Iff.rfl
    | other code => exact Iff.rfl
  rw [ShimPair.Before, hnear, hnear, shimPairCmp]
  rcases lt_trichotomy a.dist b.dist with hlt | heq | hgt
  · rw [if_pos hlt]
    exact iff_of_true (by decide) ⟨le_of_lt hlt, fun hle => absurd hlt (not_lt.mpr hle)⟩
  · rw [heq, if_neg (lt_irrefl _), if_neg (lt_irrefl _)]
    split_ifs <;> simp <;> omega
  · rw [if_neg (lt_asymm hgt), if_pos hgt]
    exact iff_of_false (by decide) fun hboth => absurd hgt (not_lt.mpr hboth.1)

theorem shimPairCmpIp_nonpos {a b : ShimPair D} :
    shimPairCmpIp a b ≤ 0 ↔ a.Before .ip b := by
  have hflip : shimPairCmpIp a b = shimPairCmp (D := Dᵒᵈ) ⟨OrderDual.toDual a.dist, a.id⟩
      ⟨OrderDual.toDual b.dist, b.id⟩ := rfl
  rw [hflip, shimPairCmp_nonpos (show Metric.l2 ≠ .ip by rintro ⟨⟩)]
  rfl

def shimCmp (metric : Metric) : ShimPair D → ShimPair D → ℤ :=
  if metric = .ip then shimPairCmpIp else shimPairCmp

theorem shimCmp_nonpos {metric : Metric} {a b : ShimPair D} :
    shimCmp metric a b ≤ 0 ↔ a.Before metric b := by
  rw [shimCmp]
  split_ifs with hmetric
  · rw [hmetric]
    exact shimPairCmpIp_nonpos
  · exact shimPairCmp_nonpos hmetric

theorem ShimPair.before_total (metric : Metric) (a b : ShimPair D) :
    a.Before metric b ∨ b.Before metric a := by
  rcases Std.Total.total (r := metric.Nearer) a.dist b.dist with hab | hba
  · by_cases hback : metric.Nearer b.dist a.dist
    · rcases Nat.le_total a.id b.id with hid | hid
      · exact Or.inl ⟨hab, fun _ => hid⟩
      · exact Or.inr ⟨hback, fun _ => hid⟩
    · exact Or.inl ⟨hab, fun h => absurd h hback⟩
  · by_cases hback : metric.Nearer a.dist b.dist
    · rcases Nat.le_total a.id b.id with hid | hid
      · exact Or.inl ⟨hback, fun _ => hid⟩
      · exact Or.inr ⟨hba, fun _ => hid⟩
    · exact Or.inr ⟨hba, fun h => absurd h hback⟩

theorem ShimPair.before_trans (metric : Metric) (a b c : ShimPair D) (hab : a.Before metric b)
    (hbc : b.Before metric c) : a.Before metric c := by
  have htrans : ∀ {x y z : D}, metric.Nearer x y → metric.Nearer y z → metric.Nearer x z :=
    fun hxy hyz => IsTrans.trans _ _ _ hxy hyz
  refine ⟨htrans hab.1 hbc.1, fun hca => ?_⟩
  exact (hab.2 (htrans hbc.1 hca)).trans (hbc.2 (htrans hca hab.1))

theorem qsort_shimCmp_sorted (metric : Metric) (pairs : List (ShimPair D)) :
    (qsort (shimCmp metric) pairs).Pairwise (ShimPair.Before metric) := by
  have htotal : Std.Total fun a b : ShimPair D => shimCmp metric a b ≤ 0 :=
    ⟨fun a b => by
      rw [shimCmp_nonpos, shimCmp_nonpos]
      exact a.before_total metric b⟩
  have htrans : IsTrans (ShimPair D) fun a b => shimCmp metric a b ≤ 0 :=
    ⟨fun a b c hab hbc => by
      rw [shimCmp_nonpos] at hab hbc ⊢
      exact a.before_trans metric b c hab hbc⟩
  have hsorted := List.pairwise_insertionSort (fun a b : ShimPair D => shimCmp metric a b ≤ 0) pairs
  exact hsorted.imp fun h => shimCmp_nonpos.mp h

end Comparator

section Contract

variable [BoundedOrder D] {shimDist : Metric → Vec → Vec → D} {ix : ShimIndex} {query : Vec}
  {k : ℕ} {bitset : Option (List UInt32 × ℕ)}

def ShimPair.result (p : ShimPair D) : SearchResult D := ⟨p.id, p.dist⟩

def ShimIndex.candidates (ix : ShimIndex) (shimDist : Metric → Vec → Vec → D) (query : Vec)
    (bitset : Option (List UInt32 × ℕ)) : List (SearchResult D) :=
  ((List.range ix.n).filter fun i => !shimExcluded bitset i).map fun i : ℕ =>
    ⟨(i : ℤ), shimDist ix.metric (ix.row i) query⟩

/-- The contract of the search entry points: every slot is written; the hits are the nearest
candidates, a tie in the order of the items; the padding is behind them. -/
structure TailContract (metric : Metric) (cands : List (SearchResult D)) (k : ℕ)
    (out : List (SearchResult D)) : Prop where
  length : out.length = k
  hits : ∃ hits, out = hits ++ List.replicate (k - hits.length) (shimPad metric) ∧
    IsNearest metric.Nearer SearchResult.distance k cands hits ∧
    hits.Pairwise fun a b => metric.Nearer b.distance a.distance → a.itemId ≤ b.itemId

theorem shimPad_of_ge {pairs : List (ShimPair D)} (metric : Metric) :
    ((List.range k).map fun j =>
      match pairs[j]? with
      | some p => p.result
      | none => shimPad metric) =
    (pairs.take k).map ShimPair.result ++
      List.replicate (k - (pairs.take k).length) (shimPad metric) := by
  induction k generalizing pairs with
  | zero => rfl
  | succ k ih =>
    rw [List.range_succ_eq_map, List.map_cons, List.map_map]
    cases pairs with
    | nil =>
      have hrest := @ih []
      simp only [List.take_nil, List.map_nil, List.nil_append, List.length_nil, Nat.sub_zero] at hrest ⊢
      rw [List.replicate_succ, ← hrest]
      rfl
    | cons p pairs =>
      rw [List.take_succ_cons, List.map_cons, List.length_cons, Nat.add_sub_add_right,
        List.cons_append, ← ih]
      rfl

theorem shimTopk_contract (shimDist : Metric → Vec → Vec → D) (ix : ShimIndex) (query : Vec)
    (hdim : query.length = ix.dim) (k : ℕ) (bitset : Option (List UInt32 × ℕ)) :
    TailContract ix.metric (ix.candidates shimDist query bitset) k
      (shimTopk shimDist ix query k bitset) := by
  have hout : shimTopk shimDist ix query k bitset =
      (List.range k).map fun j =>
        match (qsort (shimCmp ix.metric) (shimPairs shimDist ix query ix.n bitset))[j]? with
        | some p => p.result
        | none => shimPad ix.metric := by
    rw [shimTopk, if_pos hdim]
    rfl
  set sorted := qsort (shimCmp ix.metric) (shimPairs shimDist ix query ix.n bitset)
  have hsorted : sorted.Pairwise (ShimPair.Before ix.metric) := qsort_shimCmp_sorted _ _
  have hperm : sorted.Perm (shimPairs shimDist ix query ix.n bitset) := qsort_perm _ _
  have hcands : (shimPairs shimDist ix query ix.n bitset).map ShimPair.result =
      ix.candidates shimDist query bitset := by
    rw [shimPairs, List.map_map]
    rfl
  rw [hout, shimPad_of_ge]
  constructor
  · rw [List.length_append, List.length_map, List.length_replicate, List.length_take]
    omega
  · refine ⟨(sorted.take k).map ShimPair.result, ?_, ?_, ?_⟩
    · rw [List.length_map]
    · rw [List.map_take]
      refine isNearest_take_of_perm ?_ ?_ k
      · rw [← hcands]
        exact (hperm.map _).symm
      · exact List.pairwise_map.mpr (hsorted.imp fun h => h.1)
    · have hties : (sorted.map ShimPair.result).Pairwise fun a b =>
          ix.metric.Nearer b.distance a.distance → a.itemId ≤ b.itemId := by
        rw [List.pairwise_map]
        exact hsorted.imp fun h hback => Int.ofNat_le.mpr (h.2 hback)
      rw [List.map_take]
      exact hties.sublist (List.take_sublist k _)

end Contract

end PgCuvs
