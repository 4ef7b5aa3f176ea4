import PgCuvs.Library.Compaction
import PgCuvs.Types
import Mathlib.Data.List.Forall2
import Mathlib.Data.UInt

/-! Building an HNSW graph from the adjacency of a CAGRA index: the elements' levels and
their links. -/

namespace PgCuvs

/-- The CPU's `float32` operations, on bit patterns. -/
structure FloatOps where
  zero : UInt32
  add : UInt32 → UInt32 → UInt32
  sub : UInt32 → UInt32 → UInt32
  mul : UInt32 → UInt32 → UInt32
  lt : UInt32 → UInt32 → Bool

/-- What `cuvs_ipc_export_adjacency` returns: row-major `adj` and `vecs`, and the heap TIDs. -/
structure AdjacencyExport where
  n : ℕ
  graphDegree : ℕ
  dim : ℕ
  adj : List UInt32
  vecs : Vec
  tids : List Tid
  n_pos : 0 < n
  n_lt : n < 2 ^ 32
  graphDegree_pos : 0 < graphDegree
  dim_pos : 0 < dim
  adj_length : adj.length = n * graphDegree
  vecs_length : vecs.length = n * dim
  tids_length : tids.length = n
  tids_lt : ∀ tid ∈ tids, tid < 2 ^ 48

def AdjacencyExport.row (x : AdjacencyExport) (i : ℕ) : List UInt32 :=
  (x.adj.drop (i * x.graphDegree)).take x.graphDegree

def cInt (c : UInt32) : ℤ := c.toBitVec.toInt

structure ElemDesc where
  level : ℕ
  tidEncoded : Tid
  lv0Links : List ℤ
  upperLinks : List (List ℤ)
  elemBlkno : ℕ
  elemOffno : ℕ
  neighBlkno : ℕ
  neighOffno : ℕ
deriving DecidableEq, Repr

section Selection

variable (ops : FloatOps)

def vecDistSq (a b : Vec) : UInt32 :=
  (a.zip b).foldl (fun d p => ops.add d (ops.mul (ops.sub p.1 p.2) (ops.sub p.1 p.2))) ops.zero

def vecAt (allVecs : Vec) (dim : ℕ) (c : ℤ) : Option Vec :=
  if 0 ≤ c ∧ (c.toNat + 1) * dim ≤ allVecs.length then
    some ((allVecs.drop (c.toNat * dim)).take dim)
  else none

/-- Some selected neighbor is closer to the candidate than the query is. -/
def dominated (allVecs : Vec) (dim : ℕ) (cVec : Vec) (dqc : UInt32) : List ℤ → Option Bool
  | [] => some false
  | s :: rest =>
    match vecAt allVecs dim s with
    | none => none
    | some sVec =>
      if ops.lt (vecDistSq ops cVec sVec) dqc then some true
      else dominated allVecs dim cVec dqc rest

def selectLoop (queryVec allVecs : Vec) (dim m : ℕ) : List ℤ → List ℤ → Option (List ℤ)
  | [], selected => some selected
  | c :: rest, selected =>
    if selected.length < m then
      match vecAt allVecs dim c with
      | none => none
      | some cVec =>
        match dominated ops allVecs dim cVec (vecDistSq ops queryVec cVec) selected with
        | none => none
        -- dropped for good: the list is not filled up from the dominated ones
        | some true => selectLoop queryVec allVecs dim m rest selected
        | some false => selectLoop queryVec allVecs dim m rest (selected ++ [c])
    else some selected

def heuristicSelectNeighbors (queryVec allVecs : Vec) (dim : ℕ) (candidates : List ℤ) (m : ℕ) :
    Option (List ℤ) :=
  selectLoop ops queryVec allVecs dim m candidates []

end Selection

section Levels

/-- `drawn` is `floor(-log(r) / log(M))` of a random `r`. -/
def cagraAssignLevel (drawn : ℕ) : ℕ := if 16 < drawn then 16 else drawn

def assignLevels (doHierarchy : Bool) (draw : ℕ → ℕ) (n : ℕ) : List ℕ :=
  (List.range n).map fun i => if doHierarchy then cagraAssignLevel (draw i) else 0

/-- The loop's `(max_level, entry_elem)` after the levels from element `i` on. -/
def entryLoop : List ℕ → ℕ → ℕ × ℕ → ℕ × ℕ
  | [], _, found => found
  | level :: rest, i, found => entryLoop rest (i + 1) (if found.1 < level then (level, i) else found)

def entryElem (levels : List ℕ) : ℕ × ℕ := entryLoop levels 0 (0, 0)

def levelAt (levels : List ℕ) (c : ℤ) : Option ℕ := if 0 ≤ c then levels[c.toNat]? else none

end Levels

section Links

variable (ops : FloatOps) (x : AdjacencyExport) (levels : List ℕ)

/-- Level-0 slots: `graph_degree` clamped to 64, even and at least 2. -/
def clampM0 (graphDegree : ℕ) : ℕ :=
  if min graphDegree 64 - min graphDegree 64 % 2 < 2 then 2
  else min graphDegree 64 - min graphDegree 64 % 2

def AdjacencyExport.m0 : ℕ := clampM0 x.graphDegree

def AdjacencyExport.m : ℕ := x.m0 / 2

/-- The in-range entries of the row, as `cand_buf` first holds them. -/
def AdjacencyExport.candBuf (i : ℕ) : List ℤ :=
  ((x.row i).filter fun c => c.toNat < x.n).map cInt

/-- The loop over `l`: `cand_buf` and `n_cand` pass from each level to the next. -/
def upperLoop (queryVec : Vec) : ℕ → ℕ → List ℤ → ℕ → Option (List (List ℤ))
  | 0, _, _, _ => some []
  | todo + 1, l, buf, nCand =>
    match Compaction.compact (fun c => (levelAt levels c).map fun level => decide (l ≤ level))
      nCand 0 0 buf with
    | none => none
    | some (buf, keep) =>
      match heuristicSelectNeighbors ops queryVec x.vecs x.dim (buf.take keep) x.m,
        upperLoop queryVec todo (l + 1) buf keep with
      | some links, some rest => some (links :: rest)
      | _, _ => none

/-- One element of step 3b; the layout pass sets the positions. -/
def linkElem (i : ℕ) : Option ElemDesc := do
  let tid ← x.tids[i]?
  let level ← levels[i]?
  let queryVec ← vecAt x.vecs x.dim i
  let upperLinks ← upperLoop ops x levels queryVec level 1 (x.candBuf i) (x.candBuf i).length
  some
    { level := level
      tidEncoded := tid
      lv0Links := ((x.row i).take (min x.graphDegree x.m0)).map cInt
      upperLinks := upperLinks
      elemBlkno := 0
      elemOffno := 0
      neighBlkno := 0
      neighOffno := 0 }

structure LinkedGraph where
  elems : List ElemDesc
  maxLevel : ℕ
  entry : ℕ
deriving DecidableEq, Repr

/-- Steps 3a and 3b of `fill_hnsw_from_cagra_ipc_impl`. -/
def fillLinks (doHierarchy : Bool) (draw : ℕ → ℕ) : Option LinkedGraph :=
  ((List.range x.n).mapM (linkElem ops x (assignLevels doHierarchy draw x.n))).map fun elems =>
    { elems := elems
      maxLevel := (entryElem (assignLevels doHierarchy draw x.n)).1
      entry := (entryElem (assignLevels doHierarchy draw x.n)).2 }

end Links

section Loops

theorem mapM_some_iff {α β : Type} (f : α → Option β) (l : List α) (r : List β) :
    l.mapM f = some r ↔ List.Forall₂ (fun a b => f a = some b) l r := by
  induction l generalizing r with
  | nil => simp [eq_comm]
  | cons a l ih =>
    rw [List.mapM_cons, List.forall₂_cons_left_iff]
    simp only [Option.bind_eq_bind, Option.bind_eq_some_iff, Option.pure_def, Option.some.injEq]
    constructor
    · rintro ⟨b, hb, r', hr', rfl⟩
      exact ⟨b, r', hb, (ih r').mp hr', rfl⟩
    · rintro ⟨b, r', hb, hr', rfl⟩
      exact ⟨b, hb, r', (ih r').mpr hr', rfl⟩

theorem mapM_range_some {β : Type} {f : ℕ → Option β} {n : ℕ} {r : List β}
    (h : (List.range n).mapM f = some r) : r.length = n ∧ ∀ i < n, f i = r[i]? := by
  rw [mapM_some_iff, List.forall₂_iff_get] at h
  obtain ⟨hlen, hget⟩ := h
  rw [List.length_range] at hlen
  refine ⟨hlen.symm, fun i hi => ?_⟩
  have hi' : i < r.length := hlen ▸ hi
  have hval := hget i (by rwa [List.length_range]) hi'
  simp only [List.get_eq_getElem, List.getElem_range] at hval
  rw [hval, List.getElem?_eq_getElem hi']

theorem mapM_range_isSome {β : Type} {f : ℕ → Option β} {n : ℕ} (h : ∀ i < n, ∃ b, f i = some b) :
    ∃ r, (List.range n).mapM f = some r := by
  suffices hall : ∀ l : List ℕ, (∀ i ∈ l, ∃ b, f i = some b) → ∃ r, l.mapM f = some r from
    hall _ fun i hi => h i (List.mem_range.mp hi)
  intro l hl
  induction l with
  | nil => exact ⟨[], rfl⟩
  | cons a l ih =>
    obtain ⟨b, hb⟩ := hl a List.mem_cons_self
    obtain ⟨r, hr⟩ := ih fun i hi => hl i (List.mem_cons_of_mem a hi)
    exact ⟨b :: r, by simp [List.mapM_cons, hb, hr]⟩

theorem entryLoop_spec (levels : List ℕ) (i : ℕ) (found : ℕ × ℕ) :
    let r := entryLoop levels i found
    found.1 ≤ r.1 ∧ (∀ level ∈ levels, level ≤ r.1) ∧
      (r = found ∨ ∃ j, r.2 = i + j ∧ levels[j]? = some r.1) := by
  induction levels generalizing i found with
  | nil => exact ⟨Nat.le_refl _, by simp, .inl rfl⟩
  | cons level rest ih =>
    simp only [entryLoop]
    obtain ⟨hle, hall, hfound⟩ := ih (i + 1) (if found.1 < level then (level, i) else found)
    generalize entryLoop rest (i + 1) (if found.1 < level then (level, i) else found) = r
      at hle hall hfound
    have hlater : (∃ j, r.2 = i + 1 + j ∧ rest[j]? = some r.1) →
        ∃ j, r.2 = i + j ∧ (level :: rest)[j]? = some r.1 := by
      rintro ⟨j, hj, hr⟩
      exact ⟨j + 1, by omega, hr⟩
    by_cases hnew : found.1 < level
    · rw [if_pos hnew] at hle hfound
      refine ⟨by omega, List.forall_mem_cons.mpr ⟨hle, hall⟩, .inr ?_⟩
      rcases hfound with rfl | hfound
      · exact ⟨0, rfl, rfl⟩
      · exact hlater hfound
    · rw [if_neg hnew] at hle hfound
      refine ⟨hle, List.forall_mem_cons.mpr ⟨by omega, hall⟩, ?_⟩
      rcases hfound with hfound | hfound
      · exact .inl hfound
      · exact .inr (hlater hfound)

theorem entryElem_spec (levels : List ℕ) (hpos : 0 < levels.length) :
    levels[(entryElem levels).2]? = some (entryElem levels).1 ∧
      ∀ level ∈ levels, level ≤ (entryElem levels).1 := by
  obtain ⟨-, hall, hfound⟩ := entryLoop_spec levels 0 (0, 0)
  refine ⟨?_, hall⟩
  rcases hfound with hfound | ⟨j, hj, hlevel⟩
  · have hzero : levels[0] ≤ 0 := by
      have := hall levels[0] (List.getElem_mem hpos)
      rwa [hfound] at this
    rw [entryElem, hfound, List.getElem?_eq_getElem hpos, Nat.le_zero.mp hzero]
  · rw [Nat.zero_add] at hj
    rw [entryElem, hj]
    exact hlevel

end Loops

section Bounds

theorem clampM0_bounds (graphDegree : ℕ) :
    2 ≤ clampM0 graphDegree ∧ clampM0 graphDegree ≤ 64 ∧ clampM0 graphDegree % 2 = 0 := by
  unfold clampM0
  split_ifs <;> omega

theorem cInt_of_lt {c : UInt32} (h : c.toNat < 2 ^ 31) : cInt c = c.toNat := by
  rw [cInt, BitVec.toInt_eq_toNat_cond, UInt32.toNat_toBitVec, if_pos (by omega)]

theorem cInt_neg {c : UInt32} (h : 2 ^ 31 ≤ c.toNat) : cInt c < 0 := by
  have hc : c.toNat < 2 ^ 32 := c.toNat_lt
  rw [cInt, BitVec.toInt_eq_toNat_cond, UInt32.toNat_toBitVec, if_neg (by omega)]
  omega

end Bounds

section Heuristic

variable (ops : FloatOps) (x : AdjacencyExport)

def AdjacencyExport.vec (i : ℕ) : Vec := (x.vecs.drop (i * x.dim)).take x.dim

def AdjacencyExport.InRange (c : ℤ) : Prop := 0 ≤ c ∧ c.toNat < x.n

theorem AdjacencyExport.vecAt_of_inRange {c : ℤ} (h : x.InRange c) :
    vecAt x.vecs x.dim c = some (x.vec c.toNat) := by
  have hend : (c.toNat + 1) * x.dim ≤ x.vecs.length := by
    rw [x.vecs_length]
    exact Nat.mul_le_mul_right x.dim h.2
  rw [vecAt, if_pos ⟨h.1, hend⟩]
  rfl

theorem dominated_some (cVec : Vec) (dqc : UInt32) (selected : List ℤ)
    (h : ∀ s ∈ selected, x.InRange s) :
    ∃ b, dominated ops x.vecs x.dim cVec dqc selected = some b := by
  induction selected with
  | nil => exact ⟨false, rfl⟩
  | cons s rest ih =>
    simp only [dominated, x.vecAt_of_inRange (h s List.mem_cons_self)]
    split_ifs
    · exact ⟨true, rfl⟩
    · exact ih fun t ht => h t (List.mem_cons_of_mem s ht)

/-- At most `m` candidates are selected, and nothing else. -/
theorem selectLoop_spec (queryVec : Vec) (m : ℕ) (candidates selected : List ℤ)
    (hc : ∀ c ∈ candidates, x.InRange c) (hs : ∀ s ∈ selected, x.InRange s)
    (hlen : selected.length ≤ m) :
    ∃ out, selectLoop ops queryVec x.vecs x.dim m candidates selected = some out ∧
      out.length ≤ m ∧ ∀ c ∈ out, c ∈ selected ∨ c ∈ candidates := by
  induction candidates generalizing selected with
  | nil => exact ⟨selected, rfl, hlen, fun c hmem => .inl hmem⟩
  | cons c rest ih =>
    have hrest : ∀ d ∈ rest, x.InRange d := fun d hd => hc d (List.mem_cons_of_mem c hd)
    simp only [selectLoop]
    by_cases hroom : selected.length < m
    · obtain ⟨b, hb⟩ := dominated_some ops x (x.vec c.toNat)
        (vecDistSq ops queryVec (x.vec c.toNat)) selected hs
      simp only [if_pos hroom, x.vecAt_of_inRange (hc c List.mem_cons_self), hb]
      cases b with
      | true =>
        obtain ⟨out, hout, hle, hmem⟩ := ih selected hrest hs hlen
        refine ⟨out, hout, hle, fun d hd => ?_⟩
        rcases hmem d hd with hd | hd
        · exact .inl hd
        · exact .inr (List.mem_cons_of_mem c hd)
      | false =>
        have hnext : ∀ s ∈ selected ++ [c], x.InRange s := by
          intro s hmem
          rcases List.mem_append.mp hmem with hmem | hmem
          · exact hs s hmem
          · rw [List.mem_singleton.mp hmem]
            exact hc c List.mem_cons_self
        obtain ⟨out, hout, hle, hmem⟩ := ih (selected ++ [c]) hrest hnext
          (by rw [List.length_append, List.length_singleton]; omega)
        refine ⟨out, hout, hle, fun d hd => ?_⟩
        rcases hmem d hd with hd | hd
        · rcases List.mem_append.mp hd with hd | hd
          · exact .inl hd
          · rw [List.mem_singleton.mp hd]
            exact .inr List.mem_cons_self
        · exact .inr (List.mem_cons_of_mem c hd)
    · rw [if_neg hroom]
      exact ⟨selected, rfl, hlen, fun d hd => .inl hd⟩

theorem heuristicSelectNeighbors_spec (queryVec : Vec) (m : ℕ) (candidates : List ℤ)
    (hc : ∀ c ∈ candidates, x.InRange c) :
    ∃ out, heuristicSelectNeighbors ops queryVec x.vecs x.dim candidates m = some out ∧
      out.length ≤ m ∧ ∀ c ∈ out, c ∈ candidates := by
  obtain ⟨out, hout, hlen, hmem⟩ := selectLoop_spec ops x queryVec m candidates [] hc
    (fun s hs => nomatch hs) (Nat.zero_le m)
  exact ⟨out, hout, hlen, fun c hc => (hmem c hc).resolve_left (fun h => nomatch h)⟩

end Heuristic

section Upper

variable (ops : FloatOps) (x : AdjacencyExport) (levels : List ℕ)

theorem levelAt_of_inRange (hlen : levels.length = x.n) {c : ℤ} (h : x.InRange c) :
    levelAt levels c = some (levels.getD c.toNat 0) := by
  have hc : c.toNat < levels.length := hlen ▸ h.2
  rw [levelAt, if_pos h.1, List.getD_eq_getElem?_getD, List.getElem?_eq_getElem hc]
  rfl

/-- The candidates left at level `l` are those of level `l` or more, in the buffer's order. -/
theorem upperLoop_spec (hlen : levels.length = x.n) (queryVec : Vec) (todo l : ℕ) (buf : List ℤ)
    (nCand : ℕ) (hn : nCand ≤ buf.length) (hc : ∀ c ∈ buf.take nCand, x.InRange c) :
    ∃ links, upperLoop ops x levels queryVec todo l buf nCand = some links ∧
      links.length = todo ∧ ∀ k < todo,
        heuristicSelectNeighbors ops queryVec x.vecs x.dim
          ((buf.take nCand).filter fun c => l + k ≤ levels.getD c.toNat 0) x.m = links[k]? := by
  induction todo generalizing l buf nCand with
  | zero => exact ⟨[], rfl, rfl, fun k hk => absurd hk (Nat.not_lt_zero k)⟩
  | succ todo ih =>
    have htest : ∀ c ∈ buf.take nCand,
        ((levelAt levels c).map fun level => decide (l ≤ level))
          = some (decide (l ≤ levels.getD c.toNat 0)) := by
      intro c hmem
      rw [levelAt_of_inRange x levels hlen (hc c hmem)]
      rfl
    obtain ⟨after, hcompact⟩ := Compaction.compact_take _ _ buf nCand hn htest
    generalize hkept : (buf.take nCand).filter (fun c => decide (l ≤ levels.getD c.toNat 0)) = kept
      at hcompact
    have hkeptRange : ∀ c ∈ kept, x.InRange c := by
      intro c hmem
      rw [← hkept] at hmem
      exact hc c (List.mem_of_mem_filter hmem)
    have htake : (kept ++ after).take kept.length = kept := List.take_left' rfl
    obtain ⟨first, hfirst, -, -⟩ := heuristicSelectNeighbors_spec ops x queryVec x.m kept hkeptRange
    -- the next level starts from what this one kept, so the tests of the levels add up
    obtain ⟨rest, hrest, hrestLen, hrestLinks⟩ := ih (l + 1) (kept ++ after) kept.length (by simp)
      (by rwa [htake])
    simp only [upperLoop, hcompact, htake, hfirst, hrest]
    refine ⟨first :: rest, rfl, by simp [hrestLen], fun k hk => ?_⟩
    cases k with
    | zero => rw [Nat.add_zero, hkept, hfirst]; rfl
    | succ k =>
      rw [List.getElem?_cons_succ, ← hrestLinks k (by omega), htake, ← hkept, List.filter_filter]
      congr 2
      funext c
      rw [← Bool.decide_and]
      exact decide_eq_decide.mpr (by omega)

theorem upperLoop_none (queryVec : Vec) (todo l : ℕ) (buf : List ℤ) (nCand : ℕ)
    (hn : nCand ≤ buf.length) (hc : ∃ c ∈ buf.take nCand, c < 0) :
    upperLoop ops x levels queryVec (todo + 1) l buf nCand = none := by
  obtain ⟨c, hmem, hneg⟩ := hc
  have hlevel : levelAt levels c = none := if_neg (by omega)
  rw [upperLoop, Compaction.compact_take_none _ buf nCand hn ⟨c, hmem, by rw [hlevel]; rfl⟩]

end Upper

section Valid

variable (ops : FloatOps) (x : AdjacencyExport) (draw : ℕ → ℕ)

def AdjacencyExport.candidates (i l : ℕ) : List ℤ :=
  ((x.row i).filter fun c => c.toNat < x.n ∧ l ≤ cagraAssignLevel (draw c.toNat)).map
    fun c => (c.toNat : ℤ)

/-- An HNSW graph over the exported elements. -/
structure LinkedGraph.Valid (g : LinkedGraph) : Prop where
  length : g.elems.length = x.n
  level : ∀ (i : ℕ) (e : ElemDesc), g.elems[i]? = some e →
    e.level = cagraAssignLevel (draw i) ∧ e.upperLinks.length = e.level
  selected : ∀ (i : ℕ) (e : ElemDesc), g.elems[i]? = some e → ∀ l, 1 ≤ l → l ≤ e.level →
    heuristicSelectNeighbors ops (x.vec i) x.vecs x.dim (x.candidates draw i l) x.m
      = e.upperLinks[l - 1]?
  bounded : ∀ (i : ℕ) (e : ElemDesc), g.elems[i]? = some e → ∀ links ∈ e.upperLinks,
    links.length ≤ x.m
  targets : ∀ (i : ℕ) (e : ElemDesc), g.elems[i]? = some e →
    ∀ l links, 1 ≤ l → e.upperLinks[l - 1]? = some links → ∀ c ∈ links,
      ∃ t, 0 ≤ c ∧ g.elems[c.toNat]? = some t ∧ l ≤ t.level
  entry : ∃ e, g.elems[g.entry]? = some e ∧ e.level = g.maxLevel ∧
    ∀ t ∈ g.elems, t.level ≤ g.maxLevel

/-- No element above level 0 is linked to an element whose number is not an `int`. -/
def AdjacencyExport.UpperInt : Prop :=
  ∀ i < x.n, 1 ≤ cagraAssignLevel (draw i) → ∀ c ∈ x.row i, c.toNat < x.n → c.toNat < 2 ^ 31

theorem assignLevels_length (doHierarchy : Bool) (n : ℕ) :
    (assignLevels doHierarchy draw n).length = n := by
  rw [assignLevels, List.length_map, List.length_range]

theorem assignLevels_getElem? (doHierarchy : Bool) {n i : ℕ} (hi : i < n) :
    (assignLevels doHierarchy draw n)[i]?
      = some (if doHierarchy then cagraAssignLevel (draw i) else 0) := by
  rw [assignLevels, List.getElem?_map, List.getElem?_range hi]
  rfl

theorem AdjacencyExport.candBuf_eq {i : ℕ}
    (hint : ∀ c ∈ x.row i, c.toNat < x.n → c.toNat < 2 ^ 31) :
    x.candBuf i = ((x.row i).filter fun c => c.toNat < x.n).map fun c => (c.toNat : ℤ) := by
  refine List.map_congr_left fun c hc => ?_
  obtain ⟨hrow, hlt⟩ := List.mem_filter.mp hc
  exact cInt_of_lt (hint c hrow (of_decide_eq_true hlt))

theorem AdjacencyExport.candBuf_inRange {i : ℕ}
    (hint : ∀ c ∈ x.row i, c.toNat < x.n → c.toNat < 2 ^ 31) : ∀ c ∈ x.candBuf i, x.InRange c := by
  rw [x.candBuf_eq hint]
  intro c hc
  obtain ⟨d, hd, rfl⟩ := List.mem_map.mp hc
  exact ⟨Int.natCast_nonneg _, by simpa using (List.mem_filter.mp hd).2⟩

theorem AdjacencyExport.candBuf_filter {i : ℕ} (l : ℕ)
    (hint : ∀ c ∈ x.row i, c.toNat < x.n → c.toNat < 2 ^ 31) :
    (x.candBuf i).filter (fun c => l ≤ (assignLevels true draw x.n).getD c.toNat 0)
      = x.candidates draw i l := by
  rw [x.candBuf_eq hint, AdjacencyExport.candidates, List.filter_map, List.filter_filter]
  congr 1
  refine List.filter_congr fun c _ => ?_
  simp only [Function.comp_apply, Int.toNat_natCast]
  by_cases hlt : c.toNat < x.n
  · have hlevel : (assignLevels true draw x.n).getD c.toNat 0 = cagraAssignLevel (draw c.toNat) := by
      rw [List.getD_eq_getElem?_getD, assignLevels_getElem? draw true hlt]
      rfl
    simp only [hlevel, hlt, decide_true, Bool.and_true, true_and]
  · simp only [hlt, decide_false, Bool.and_false, false_and]

theorem AdjacencyExport.tids_getElem? {i : ℕ} (hi : i < x.n) : ∃ tid, x.tids[i]? = some tid :=
  ⟨_, List.getElem?_eq_getElem (x.tids_length ▸ hi)⟩

theorem AdjacencyExport.vecAt_natCast {i : ℕ} (hi : i < x.n) :
    vecAt x.vecs x.dim (i : ℤ) = some (x.vec i) := by
  rw [x.vecAt_of_inRange ⟨Int.natCast_nonneg i, by simpa using hi⟩, Int.toNat_natCast]

/-- An element whose candidates are all `int`s. -/
theorem linkElem_spec {i : ℕ} (hi : i < x.n)
    (hint : 1 ≤ cagraAssignLevel (draw i) →
      ∀ c ∈ x.row i, c.toNat < x.n → c.toNat < 2 ^ 31) :
    ∃ e, linkElem ops x (assignLevels true draw x.n) i = some e ∧
      e.level = cagraAssignLevel (draw i) ∧ e.upperLinks.length = e.level ∧
      ∀ l, 1 ≤ l → l ≤ e.level →
        heuristicSelectNeighbors ops (x.vec i) x.vecs x.dim (x.candidates draw i l) x.m
          = e.upperLinks[l - 1]? := by
  obtain ⟨tid, htid⟩ := x.tids_getElem? hi
  have hlevel : (assignLevels true draw x.n)[i]? = some (cagraAssignLevel (draw i)) :=
    assignLevels_getElem? draw true hi
  simp only [linkElem, htid, hlevel, x.vecAt_natCast hi, Option.bind_eq_bind, Option.bind_some]
  rcases Nat.eq_zero_or_pos (cagraAssignLevel (draw i)) with hzero | hpos
  · rw [hzero]
    exact ⟨_, rfl, rfl, rfl, fun l hl hle => absurd (hl.trans hle) (Nat.not_succ_le_zero 0)⟩
  · have hint := hint hpos
    obtain ⟨links, hloop, hlen, hlinks⟩ := upperLoop_spec ops x (assignLevels true draw x.n)
      (assignLevels_length draw true x.n) (x.vec i) (cagraAssignLevel (draw i)) 1 (x.candBuf i) _
      (Nat.le_refl _) (by rw [List.take_length]; exact x.candBuf_inRange hint)
    rw [hloop]
    refine ⟨_, rfl, rfl, hlen, fun l hl hle => ?_⟩
    change l ≤ cagraAssignLevel (draw i) at hle
    have hlink := hlinks (l - 1) (by omega)
    rw [List.take_length, show 1 + (l - 1) = l by omega, x.candBuf_filter draw l hint] at hlink
    exact hlink

theorem linkElem_none {i : ℕ} (hi : i < x.n) (hpos : 1 ≤ cagraAssignLevel (draw i))
    (hbad : ∃ c ∈ x.row i, c.toNat < x.n ∧ 2 ^ 31 ≤ c.toNat) :
    linkElem ops x (assignLevels true draw x.n) i = none := by
  obtain ⟨tid, htid⟩ := x.tids_getElem? hi
  have hlevel : (assignLevels true draw x.n)[i]? = some (cagraAssignLevel (draw i)) :=
    assignLevels_getElem? draw true hi
  obtain ⟨c, hrow, hlt, hbig⟩ := hbad
  have hneg : ∃ c ∈ (x.candBuf i).take (x.candBuf i).length, c < 0 := by
    rw [List.take_length]
    exact ⟨cInt c, List.mem_map.mpr ⟨c, List.mem_filter.mpr ⟨hrow, decide_eq_true hlt⟩, rfl⟩,
      cInt_neg hbig⟩
  obtain ⟨level, hsucc⟩ := Nat.exists_eq_add_of_le' hpos
  simp only [linkElem, htid, hlevel, x.vecAt_natCast hi, Option.bind_eq_bind, Option.bind_some]
  rw [hsucc, upperLoop_none ops x _ (x.vec i) level 1 _ _ (Nat.le_refl _) hneg]
  rfl

theorem AdjacencyExport.mem_candidates {i l : ℕ} {c : ℤ} (h : c ∈ x.candidates draw i l) :
    0 ≤ c ∧ c.toNat < x.n ∧ l ≤ cagraAssignLevel (draw c.toNat) := by
  obtain ⟨d, hd, rfl⟩ := List.mem_map.mp h
  have := of_decide_eq_true (List.mem_filter.mp hd).2
  exact ⟨Int.natCast_nonneg _, by simpa using this⟩

theorem fillLinks_none (h : ¬ x.UpperInt draw) : fillLinks ops x true draw = none := by
  simp only [AdjacencyExport.UpperInt, not_forall] at h
  obtain ⟨i, hi, hlevel, c, hc, hlt, hbig⟩ := h
  have hnone := linkElem_none ops x draw hi hlevel ⟨c, hc, hlt, Nat.not_lt.mp hbig⟩
  refine Option.eq_none_iff_forall_ne_some.mpr fun g hfill => ?_
  obtain ⟨elems, hloop, -⟩ := Option.map_eq_some_iff.mp hfill
  obtain ⟨hlen, hget⟩ := mapM_range_some hloop
  have hi' : i < elems.length := hlen ▸ hi
  rw [hget i hi, List.getElem?_eq_getElem hi'] at hnone
  exact nomatch hnone

theorem fillLinks_valid (hint : x.UpperInt draw) :
    ∃ g, fillLinks ops x true draw = some g ∧ g.Valid ops x draw := by
  have hspec : ∀ i < x.n, _ := fun i hi => linkElem_spec ops x draw hi (hint i hi)
  obtain ⟨elems, hloop⟩ := mapM_range_isSome fun i hi => (hspec i hi).imp fun _ he => he.1
  obtain ⟨hlen, hget⟩ := mapM_range_some hloop
  have helem : ∀ i e, elems[i]? = some e → i < x.n ∧
      e.level = cagraAssignLevel (draw i) ∧ e.upperLinks.length = e.level ∧
      ∀ l, 1 ≤ l → l ≤ e.level →
        heuristicSelectNeighbors ops (x.vec i) x.vecs x.dim (x.candidates draw i l) x.m
          = e.upperLinks[l - 1]? := by
    intro i e he
    have hi : i < x.n := hlen ▸ (List.getElem?_eq_some_iff.mp he).1
    obtain ⟨e', he', hrest⟩ := hspec i hi
    rw [hget i hi, he] at he'
    obtain rfl := Option.some.inj he'
    exact ⟨hi, hrest⟩
  have hlink : ∀ i e, elems[i]? = some e → ∀ l links, 1 ≤ l →
      e.upperLinks[l - 1]? = some links →
        links.length ≤ x.m ∧ ∀ c ∈ links, c ∈ x.candidates draw i l := by
    intro i e he l links hl hlinks
    obtain ⟨-, -, hupper, hsel⟩ := helem i e he
    have hle : l ≤ e.level := by
      have := (List.getElem?_eq_some_iff.mp hlinks).1
      omega
    obtain ⟨out, hout, hbound, hmem⟩ := heuristicSelectNeighbors_spec ops x (x.vec i) x.m
      (x.candidates draw i l) fun c hc =>
        have h := x.mem_candidates draw hc
        ⟨h.1, h.2.1⟩
    rw [hsel l hl hle, hlinks] at hout
    obtain rfl := Option.some.inj hout
    exact ⟨hbound, hmem⟩
  refine ⟨_, by rw [fillLinks, hloop]; rfl, ?_⟩
  constructor
  case length => exact hlen
  case level => exact fun i e he => ⟨(helem i e he).2.1, (helem i e he).2.2.1⟩
  case selected => exact fun i e he => (helem i e he).2.2.2
  case bounded =>
    intro i e he links hmem
    obtain ⟨k, hk⟩ := List.mem_iff_getElem?.mp hmem
    exact (hlink i e he (k + 1) links (by omega) hk).1
  -- a target is a candidate, and the candidates of a level reach that level
  case targets =>
    intro i e he l links hl hlinks c hc
    obtain ⟨hnonneg, hlt, hlevel⟩ :=
      x.mem_candidates draw ((hlink i e he l links hl hlinks).2 c hc)
    obtain ⟨t, ht⟩ : ∃ t, elems[c.toNat]? = some t :=
      ⟨_, List.getElem?_eq_getElem (hlen ▸ hlt)⟩
    exact ⟨t, hnonneg, ht, (helem _ t ht).2.1 ▸ hlevel⟩
  case entry =>
    have hlevels := assignLevels_length draw true x.n
    obtain ⟨hentry, hmax⟩ := entryElem_spec (assignLevels true draw x.n) (by rw [hlevels]; exact x.n_pos)
    have hlt : (entryElem (assignLevels true draw x.n)).2 < x.n :=
      (List.getElem?_eq_some_iff.mp hentry).1.trans_eq hlevels
    obtain ⟨e, he⟩ : ∃ e, elems[(entryElem (assignLevels true draw x.n)).2]? = some e :=
      ⟨_, List.getElem?_eq_getElem (hlen ▸ hlt)⟩
    refine ⟨e, he, ?_, fun t ht => ?_⟩
    · rw [assignLevels_getElem? draw true hlt] at hentry
      rw [(helem _ e he).2.1]
      exact Option.some.inj hentry
    · obtain ⟨k, hk⟩ := List.mem_iff_getElem?.mp ht
      obtain ⟨hklt, hlevel, -⟩ := helem k t hk
      rw [hlevel]
      exact hmax _ (List.mem_of_getElem? (assignLevels_getElem? draw true hklt))

/-- The export builds an HNSW graph exactly when the element numbers it follows are `int`s. -/
theorem fillLinks_valid_iff :
    (∃ g, fillLinks ops x true draw = some g ∧ g.Valid ops x draw) ↔ x.UpperInt draw := by
  constructor
  · rintro ⟨g, hfill, -⟩
    by_contra hbad
    rw [fillLinks_none ops x draw hbad] at hfill
    exact nomatch hfill
  · exact fillLinks_valid ops x draw

def sampleOps : FloatOps where
  zero := 0
  add := (· + ·)
  sub := (· - ·)
  mul := (· * ·)
  lt := fun a b => decide (a < b)

def hugeExport : AdjacencyExport where
  n := 2 ^ 31 + 1
  graphDegree := 2
  dim := 1
  adj := List.replicate ((2 ^ 31 + 1) * 2) (2 ^ 31)
  vecs := List.replicate ((2 ^ 31 + 1) * 1) 0
  tids := List.replicate (2 ^ 31 + 1) 0
  n_pos := by decide
  n_lt := by decide
  graphDegree_pos := by decide
  dim_pos := by decide
  adj_length := List.length_replicate
  vecs_length := List.length_replicate
  tids_length := List.length_replicate
  tids_lt := fun tid h => by
    rw [(List.mem_replicate.mp h).2]
    decide

theorem fillLinks_huge : ¬ ∃ g, fillLinks sampleOps hugeExport true (fun _ => 1) = some g ∧
    g.Valid sampleOps hugeExport fun _ => 1 := by
  rintro ⟨g, hfill, -⟩
  rw [fillLinks_none] at hfill
  · exact nomatch hfill
  · intro hint
    have hrow : (2 ^ 31 : UInt32) ∈ hugeExport.row 0 := by
      rw [AdjacencyExport.row, Nat.zero_mul, List.drop_zero]
      change _ ∈ (List.replicate _ _).take 2
      rw [List.take_replicate]
      exact List.mem_replicate.mpr ⟨by decide, rfl⟩
    exact absurd (hint 0 hugeExport.n_pos (by decide) _ hrow (by decide)) (by decide)

end Valid

end PgCuvs
