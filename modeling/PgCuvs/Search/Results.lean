import Mathlib.Data.List.DropRight
import Mathlib.Algebra.Order.Floor.Ring
import Mathlib.Data.Rat.Floor
import PgCuvs.Caches
import PgCuvs.Search.Frame

/-! Turning what the kernels return into TIDs. -/

namespace PgCuvs

variable {D : Type}

/-- The TID of an item; item ids outside `[0, n)` are padding and are skipped. -/
def itemResult (n : ℕ) (tids : List Tid) (r : SearchResult D) : Option (CuvsResult D) :=
  if r.itemId < 0 ∨ (n : ℤ) ≤ r.itemId then none
  else some ⟨tids.getD r.itemId.toNat 0, r.distance⟩

def baseResult (e : IndexEntry) : SearchResult D → Option (CuvsResult D) :=
  itemResult e.nVecs e.tids

def deltaResult (e : IndexEntry) : SearchResult D → Option (CuvsResult D) :=
  itemResult e.nDelta (e.deltaTids.getD [])

theorem itemResult_eq_some {n : ℕ} {tids : List Tid} {r : SearchResult D} {c : CuvsResult D}
    (h : itemResult n tids r = some c) :
    ∃ i : ℕ, r.itemId = i ∧ i < n ∧ c = ⟨tids.getD i 0, r.distance⟩ := by
  simp only [itemResult, Option.ite_none_left_eq_some, Option.some.injEq, not_or, not_lt,
    not_le] at h
  obtain ⟨⟨hpos, hlt⟩, rfl⟩ := h
  exact ⟨r.itemId.toNat, by omega, by omega, rfl⟩

variable [LT D] [DecidableLT D]

/-- `delta_cand_cmp`, with the metric of the entry being merged. -/
def deltaCandCmp (metric : Metric) : CuvsResult D → CuvsResult D → ℤ := candCmp metric

/-- Map one request's base candidates to results, merging the delta candidates
when there are any. The flag is the reply's `delta_merged`. -/
def cagraFinishOne (e : IndexEntry) (base : List (SearchResult D)) (k : ℕ)
    (draw : Option (List (SearchResult D))) (nDc : ℕ) :
    IndexEntry × List (CuvsResult D) × Bool :=
  match draw with
  | some draw =>
    if 0 < nDc then
      let cand := (base.take k).filterMap (baseResult e) ++ (draw.take nDc).filterMap (deltaResult e)
      ({ e with stats := { e.stats with deltaMergedCount := e.stats.deltaMergedCount + 1 } },
        (qsort (deltaCandCmp e.metric) cand).take k, true)
    else (e, (base.take k).filterMap (baseResult e), false)
  | none => (e, (base.take k).filterMap (baseResult e), false)

theorem cagraFinishOne_fst (e : IndexEntry)
    (base : List (SearchResult D)) (k : ℕ) (draw : Option (List (SearchResult D))) (nDc : ℕ) :
    ∃ s, (cagraFinishOne e base k draw nDc).1 = { e with stats := s } := by
  unfold cagraFinishOne
  cases draw with
  | none => exact ⟨e.stats, rfl⟩
  | some draw =>
    simp only
    split_ifs
    · exact ⟨_, rfl⟩
    · exact ⟨e.stats, rfl⟩

/-- Only candidates of the delta cache make a merged reply. -/
theorem cagraFinishOne_merged {e : IndexEntry} {base : List (SearchResult D)} {k : ℕ}
    {draw : Option (List (SearchResult D))} {nDc : ℕ}
    (h : (cagraFinishOne e base k draw nDc).2.2 = true) : draw.isSome := by
  unfold cagraFinishOne at h
  split at h
  · rfl
  · cases h

/-- Keep a running list of at most `k` results, smaller distances first. -/
def topkInsert (top : List (CuvsResult D)) (k : ℕ) (tid : Tid) (dist : D) :
    List (CuvsResult D) :=
  let full := decide (k ≤ top.length)
  let worse := match top[k - 1]? with
    | some w => !decide (dist < w.distance)
    | none => false
  if full && worse then top
  else
    let kept := if full then top.dropLast else top
    -- among equals the earlier result stays in front
    let beyond (r : CuvsResult D) : Bool := decide (dist < r.distance)
    kept.rdropWhile beyond ++ ⟨tid, dist⟩ :: kept.rtakeWhile beyond

/-- The middle of the closed range that ends at `hi - 1`. -/
def closedMidpoint (lo hi : ℕ) : ℕ := lo + (hi - 1 - lo) / 2

theorem within_closedMidpoint : BinarySearch.Within closedMidpoint := by
  intro lo hi h
  unfold closedMidpoint
  omega

def revMapItem (nVecs : ℕ) (revTids : List Tid) (revItemIds : List ℤ) (want : Tid) :
    Option ℕ :=
  match BinarySearch.find closedMidpoint (fun i => revTids.getD i 0) want (nVecs + 1) 0 nVecs with
  | none => none
  | some mid =>
    let iid := revItemIds.getD mid 0
    if 0 ≤ iid ∧ iid < nVecs then some iid.toNat else none

def dedupAdjacent : List Tid → List Tid
  | [] => []
  | [t] => [t]
  | t :: u :: ts => if t = u then dedupAdjacent (u :: ts) else t :: dedupAdjacent (u :: ts)

def chunksOf {α : Type*} (n : ℕ) : ℕ → List α → List (List α)
  | 0, _ => []
  | fuel + 1, l => if l.isEmpty then [] else l.take n :: chunksOf n fuel (l.drop n)

def searchChunk (kern : Kernels D) (e : IndexEntry) (query : Vec) (k : ℕ)
    (rows : List Vec) (items : List ℕ) (top : List (CuvsResult D)) :
    Except Status (List (CuvsResult D)) :=
  let searchK := min k items.length
  if items.any fun i => (rows[i]?).isNone then .error .error
  else
    let chunk := items.map fun i => rows.getD i []
    match kern.bruteForceSearch chunk query searchK e.metric (deltaGpuOf e) with
    | .error _ => .error .error
    | .ok res =>
      .ok ((res.take searchK).foldl
        (fun top r =>
          if r.itemId < 0 ∨ (items.length : ℤ) ≤ r.itemId then top
          else
            let item := items.getD r.itemId.toNat 0
            if item < e.nVecs then topkInsert top k (e.tids.getD item 0) r.distance else top)
        top)

/-- Exact search over the whitelisted rows alone, read from `.vectors`. -/
def searchFilterExact (kern : Kernels D) (a : Artifacts) (e : IndexEntry) (query : Vec)
    (filterTids : List Tid) (k chunkCap : ℕ) : Except Status (List (CuvsResult D)) :=
  match e.revTids, e.revItemIds with
  | some revTids, some revItemIds =>
    if e.nVecs = 0 then .error .noVectors
    else
      let items := (dedupAdjacent filterTids).filterMap (revMapItem e.nVecs revTids revItemIds)
      if items = [] then .ok []
      else
        match a.vectors with
        | none => .error .noVectors
        | some f =>
          let vh := f.content.header
          if vh.magic ≠ vectorsMagic ∨ vh.dim ≠ e.dim ∨ vh.metric ≠ e.metric
              ∨ vh.nVecs ≠ e.nVecs then .error .noVectors
          else
            let cap := min (max chunkCap 1) items.length
            (chunksOf cap items.length items).foldlM
              (fun top chunk => searchChunk kern e query k f.content.body chunk top) []
  | _, _ => .error .noVectors

/-- How deep the unfiltered search has to go for `k` whitelisted rows. -/
def bkTarget (k nFilterTids mainBfN : ℕ) : ℕ :=
  if nFilterTids = 0 then k
  else
    let sel : ℚ := if 0 < mainBfN then (nFilterTids : ℚ) / mainBfN else 0
    if 0 < sel then max (k * 4) (min ((k : ℚ) / sel * 2) mainBfN).floor.toNat else k * 4

def int32Max : ℕ := 2 ^ 31 - 1

/-- The depth a shard is asked for: `k + overfetch`, or `k` when the sum wraps. -/
def effK (k overfetch : ℕ) : ℕ := if k + overfetch ≤ int32Max then k + overfetch else k

theorem le_effK (k overfetch : ℕ) : k ≤ effK k overfetch := by
  unfold effK
  split_ifs
  · exact Nat.le_add_right k overfetch
  · exact le_rfl

def exactChunkCap (nVecs : ℕ) : ℕ := if 0 < nVecs ∧ nVecs ≤ int32Max then nVecs else 1

/-- Depth of the unfiltered search, bounded by the corpus and the chunk cap. -/
def bkDepth (k nFilterTids mainBfN nVecs : ℕ) : ℕ :=
  min (min (bkTarget k nFilterTids mainBfN) mainBfN) (max (exactChunkCap nVecs) k)

end PgCuvs
