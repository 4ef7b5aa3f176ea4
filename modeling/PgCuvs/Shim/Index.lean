import Mathlib.Order.BoundedOrder.Basic
import PgCuvs.Codec
import PgCuvs.Search.Exact

/-! The CPU reference of the search kernels: an index is a copy of its vectors, and every search
looks at all of them. -/

namespace PgCuvs

structure RowBlock (dim : ℕ) where
  rows : List Vec
  width : ∀ r ∈ rows, r.length = dim

theorem RowBlock.size {dim : ℕ} (b : RowBlock dim) :
    b.rows.flatten.length = b.rows.length * dim := by
  have hwidth : ∀ r ∈ b.rows, (id r).length = dim := b.width
  have hflat := Records.length_flatMap_width hwidth
  rwa [List.flatMap_id] at hflat

structure ShimIndex where
  /-- row after row -/
  vecs : List UInt32
  n : ℕ
  dim : ℕ
  metric : Metric
  size : vecs.length = n * dim

namespace ShimIndex

def zero (n dim : ℕ) (metric : Metric) : ShimIndex :=
  ⟨List.replicate (n * dim) 0, n, dim, metric, List.length_replicate⟩

def ofRows {dim : ℕ} (b : RowBlock dim) (metric : Metric) : ShimIndex :=
  ⟨b.rows.flatten, b.rows.length, dim, metric, b.size⟩

variable (ix : ShimIndex)

def row (i : ℕ) : Vec := (ix.vecs.drop (i * ix.dim)).take ix.dim

def rows : List Vec := (List.range ix.n).map ix.row

end ShimIndex

def wordBit (words : List UInt32) (i : ℕ) : Bool := (words.getD (i / 32) 0).toNat.testBit (i % 32)

/-- Bit `i` of the bitset excludes item `i`; items behind the bitset are not excluded. -/
def shimExcluded (bitset : Option (List UInt32 × ℕ)) (i : ℕ) : Bool :=
  match bitset with
  | none => false
  | some (words, bits) => decide (i < bits) && wordBit words i

structure ShimPair (D : Type) where
  dist : D
  id : ℕ

variable {D : Type} [LinearOrder D] [BoundedOrder D]

omit [BoundedOrder D] in
def shimPairCmp (a b : ShimPair D) : ℤ :=
  if a.dist < b.dist then -1
  else if b.dist < a.dist then 1
  else if a.id < b.id then -1
  else if b.id < a.id then 1
  else 0

omit [BoundedOrder D] in
def shimPairCmpIp (a b : ShimPair D) : ℤ :=
  if b.dist < a.dist then -1
  else if a.dist < b.dist then 1
  else if a.id < b.id then -1
  else if b.id < a.id then 1
  else 0

def cuvsPadDistance (metric : Metric) : D := if metric = .ip then ⊥ else ⊤

def shimPad (metric : Metric) : SearchResult D := ⟨cuvsPadItemId, cuvsPadDistance metric⟩

section Search

variable (shimDist : Metric → Vec → Vec → D)

omit [LinearOrder D] [BoundedOrder D] in
def shimPairs (ix : ShimIndex) (query : Vec) (n : ℕ) (bitset : Option (List UInt32 × ℕ)) :
    List (ShimPair D) :=
  ((List.range n).filter fun i => !shimExcluded bitset i).map fun i =>
    ⟨shimDist ix.metric (ix.row i) query, i⟩

def shimTopk (ix : ShimIndex) (query : Vec) (topK : ℕ) (bitset : Option (List UInt32 × ℕ)) :
    List (SearchResult D) :=
  let n := if query.length = ix.dim then ix.n else 0
  let pairs := qsort (if ix.metric = .ip then shimPairCmpIp else shimPairCmp)
    (shimPairs shimDist ix query n bitset)
  (List.range topK).map fun j =>
    match pairs[j]? with
    | some p => ⟨p.id, p.dist⟩
    | none => shimPad ix.metric

/-! The entry points. A query carries its dimension. -/

namespace Shim

/-- The return codes are 1 without an index and 2 for another dimension. -/
def cuvsBfSearch (index : Option ShimIndex) (query : Vec) (topK : ℕ) :
    Except ℕ (List (SearchResult D)) :=
  match index with
  | none => .error 1
  | some ix =>
    if query.length ≠ ix.dim then .error 2 else .ok (shimTopk shimDist ix query topK none)

def cuvsBfSearchFiltered (index : Option ShimIndex) (query : Vec) (topK : ℕ)
    (bitset : Option (List UInt32 × ℕ)) : Except ℕ (List (SearchResult D)) :=
  match index with
  | none => .error 1
  | some ix =>
    if query.length ≠ ix.dim then .error 2
    else if bitset.isNone then .error 1
    else .ok (shimTopk shimDist ix query topK bitset)

def shimSearchBatch (index : Option ShimIndex) (queries : List Vec) (dim topK : ℕ) :
    Except ℕ (List (List (SearchResult D))) :=
  match index with
  | none => .error 1
  | some ix =>
    if dim ≠ ix.dim then .error 2
    else .ok (queries.map fun q => shimTopk shimDist ix q topK none)

end Shim

end Search

/-! Growing and shrinking an index. -/

namespace Shim

/-- `cuvs_cagra_extend`; an injected failure is used up by one call. -/
def cuvsCagraExtend {dim : ℕ} (injectOom : Bool) (index : Option ShimIndex)
    (newVecs : Option (RowBlock dim)) : Except ℕ ShimIndex × Bool :=
  match index, newVecs with
  | some ix, some b =>
    if b.rows.length = 0 then (.error 1, injectOom)
    else if hdim : dim ≠ ix.dim then (.error 2, injectOom)
    else if injectOom then (.error 1, false)
    else
      (.ok
        { vecs := ix.vecs ++ b.rows.flatten
          n := ix.n + b.rows.length
          dim := ix.dim
          metric := ix.metric
          size := by rw [List.length_append, ix.size, b.size, ← not_not.mp hdim, Nat.add_mul] },
        injectOom)
  | _, _ => (.error 1, injectOom)

theorem row_length (ix : ShimIndex) {i : ℕ} (hi : i < ix.n) : (ix.row i).length = ix.dim := by
  have hend : (i + 1) * ix.dim ≤ ix.n * ix.dim := Nat.mul_le_mul_right _ hi
  rw [Nat.succ_mul] at hend
  rw [ShimIndex.row, List.length_take, List.length_drop, ix.size]
  omega

def keptRows (ix : ShimIndex) (keepBits : List UInt32) (nTotal : ℕ) : RowBlock ix.dim where
  rows := ((List.range (min nTotal ix.n)).filter (wordBit keepBits)).map ix.row
  width := by
    intro r hr
    obtain ⟨i, hi, rfl⟩ := List.mem_map.mp hr
    have hlt := List.mem_range.mp (List.mem_of_mem_filter hi)
    exact row_length ix (Nat.lt_of_lt_of_le hlt (Nat.min_le_right _ _))

def cuvsCagraCompact (index : Option ShimIndex) (keepBits : List UInt32) (nTotal : ℕ)
    (metric : Metric) : Option ShimIndex :=
  index.map fun ix => .ofRows (keptRows ix keepBits nTotal) metric

/-! The file of an index. -/

def shimMagic : UInt32 := 0x53484d31

def shimWrite (ix : ShimIndex) : List UInt8 :=
  u32Bytes shimMagic ++ (leBytes 4 ix.metric.code ++ (leBytes 4 ix.dim ++ (leBytes 8 ix.n ++
    ix.vecs.flatMap u32Bytes)))

/-- What `shim_read` makes of a file with the sizes of an index. -/
def readIndex : Records.Reader ShimIndex := do
  Records.expect 4 shimMagic.toNat
  let metric ← Records.nat 4
  let dim ← Records.nat 4
  let n ← Records.nat 8
  if dim < 2 ^ 31 ∧ n < 2 ^ 63 then
    let vecs ← Records.many readU32 (n * dim)
    if h : vecs.length = n * dim then
      pure { vecs, n, dim, metric := .ofCode metric, size := h }
    else failure
  else failure

end Shim

end PgCuvs
