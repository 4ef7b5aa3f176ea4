import PgCuvs.Export.Pages

/-! What pgvector reads from the written pages is the exported graph. -/

namespace PgCuvs

section Decoder

open Records

structure DecodedElem where
  tid : Tid
  vec : List ℕ
  level : ℕ
  neighbors : List (List PgvItemPointer)
deriving DecidableEq, Repr

def itemAt (rel : List Page) (p : PgvItemPointer) : Option (List UInt8) :=
  match rel[p.blkno]? with
  | some page => if p.ipPosid = 0 then none else page.items[p.ipPosid - 1]?
  | none => none

/-- Slots of a level: twice as many at level 0. -/
def layerM (m lc : ℕ) : ℕ := if lc = 0 then 2 * m else m

def decodeElem (dim : ℕ) (width : ElemWidth) (m : ℕ) (rel : List Page) (p : PgvItemPointer) :
    Option DecodedElem := do
  let item ← itemAt rel p
  let e ← (readElemTuple dim width item).map Prod.fst
  let nitem ← itemAt rel e.neighbortid
  let slots ← (readNeighTuple ((e.level + 2) * m) nitem).map Prod.fst
  let heaptid ← e.heaptids.head?
  some
    { tid := heaptid.tid
      vec := e.vec
      level := e.level
      neighbors := (List.range (e.level + 1)).map fun lc => layerSlots slots m e.level lc }

def readMeta : Reader PgvHnswMeta := do
  let magicNumber ← nat 4
  let version ← nat 4
  let dimensions ← nat 4
  let m ← nat 2
  let efConstruction ← nat 2
  let entryBlkno ← nat 4
  let entryOffno ← nat 2
  let entryLevel ← nat 2
  let insertPage ← nat 4
  pure ⟨magicNumber, version, dimensions, m, efConstruction, entryBlkno, entryOffno, entryLevel,
    insertPage⟩

def decodeMeta (rel : List Page) : Option PgvHnswMeta := do
  let page ← rel[0]?
  (readMeta page.contents).map Prod.fst

end Decoder

section Graph

variable (ops : FloatOps) (x : AdjacencyExport) (width : ElemWidth) (doHierarchy : Bool)
  (draw : ℕ → ℕ)

def elemLevel (i : ℕ) : ℕ := if doHierarchy then cagraAssignLevel (draw i) else 0

def AdjacencyExport.maxLevel : ℕ := (entryElem (assignLevels doHierarchy draw x.n)).1

def AdjacencyExport.packK : ℕ :=
  if doHierarchy then 1 else pgvUsableBytes / pairBytes x.dim width x.m 0

def AdjacencyExport.position (i : ℕ) : PgvItemPointer :=
  setItemPtr (i / x.packK width doHierarchy + 1) (2 * (i % x.packK width doHierarchy) + 1)

/-- The elements that element `i` is linked to at a level: the first of its row at level 0, a
selection of the candidates above. -/
def AdjacencyExport.linked (i lc : ℕ) : List ℕ :=
  if lc = 0 then ((x.row i).take (min x.graphDegree x.m0)).map UInt32.toNat
  else ((heuristicSelectNeighbors ops (x.vec i) x.vecs x.dim (x.candidates draw i lc) x.m).getD
    []).map Int.toNat

/-- The linked elements' positions, one a slot; a number that is no element's is no link. -/
def AdjacencyExport.slots (i lc : ℕ) : List PgvItemPointer :=
  (List.range (layerM x.m lc)).map fun s =>
    match (x.linked ops draw i lc)[s]? with
    | some c => if c < x.n then x.position width doHierarchy c else setInvalidItemPtr
    | none => setInvalidItemPtr

/-- The pages are those of the exported graph. -/
structure FaithfulPages (pages : List Page) : Prop where
  elems : ∀ i tid, x.tids[i]? = some tid →
    decodeElem x.dim width x.m pages (x.position width doHierarchy i)
      = some
        { tid := tid
          vec := width.store (x.vec i)
          level := elemLevel doHierarchy draw i
          neighbors := (List.range (elemLevel doHierarchy draw i + 1)).map fun lc =>
            x.slots ops width doHierarchy draw i lc }
  metap : ∃ metap, decodeMeta pages = some metap ∧ metap.dimensions = x.dim ∧ metap.m = x.m ∧
    metap.insertPage + 1 = pages.length ∧
    ∃ i < x.n, setItemPtr metap.entryBlkno metap.entryOffno = x.position width doHierarchy i ∧
      metap.entryLevel = elemLevel doHierarchy draw i ∧
      ∀ j < x.n, elemLevel doHierarchy draw j ≤ elemLevel doHierarchy draw i

/-- Every element number that the export follows is an `int`. -/
def AdjacencyExport.LinkInt : Prop :=
  (∀ i < x.n, ∀ c ∈ (x.row i).take (min x.graphDegree x.m0), c.toNat < x.n → c.toNat < 2 ^ 31) ∧
    (doHierarchy = true → x.UpperInt draw)

end Graph

section Links

variable {ops : FloatOps} {x : AdjacencyExport} {width : ElemWidth} {doHierarchy : Bool}
  {draw : ℕ → ℕ}

theorem linkElem_fields {levels : List ℕ} {i : ℕ} {e : ElemDesc}
    (h : linkElem ops x levels i = some e) :
    x.tids[i]? = some e.tidEncoded ∧ levels[i]? = some e.level ∧
      e.lv0Links = ((x.row i).take (min x.graphDegree x.m0)).map cInt := by
  simp only [linkElem, Option.bind_eq_bind, Option.bind_eq_some_iff, Option.some.injEq] at h
  obtain ⟨tid, htid, level, hlevel, queryVec, -, links, -, rfl⟩ := h
  exact ⟨htid, hlevel, rfl⟩

theorem fillLinks_some {g : LinkedGraph} (h : fillLinks ops x doHierarchy draw = some g) :
    g.elems.length = x.n ∧ g.maxLevel = x.maxLevel doHierarchy draw ∧
      g.entry = (entryElem (assignLevels doHierarchy draw x.n)).2 ∧
      ∀ i e, g.elems[i]? = some e → x.tids[i]? = some e.tidEncoded ∧
        e.level = elemLevel doHierarchy draw i ∧
        e.lv0Links = ((x.row i).take (min x.graphDegree x.m0)).map cInt := by
  obtain ⟨elems, hloop, rfl⟩ := Option.map_eq_some_iff.mp h
  obtain ⟨hlen, hget⟩ := mapM_range_some hloop
  refine ⟨hlen, rfl, rfl, fun i e he => ?_⟩
  have hi : i < x.n := hlen ▸ (List.getElem?_eq_some_iff.mp he).1
  obtain ⟨htid, hlevel, hlinks⟩ := linkElem_fields ((hget i hi).trans he)
  rw [assignLevels_getElem? draw doHierarchy hi] at hlevel
  exact ⟨htid, (Option.some.inj hlevel).symm, hlinks⟩

theorem fillLinks_flat : ∃ g, fillLinks ops x false draw = some g := by
  obtain ⟨elems, hloop⟩ := mapM_range_isSome
    (f := linkElem ops x (assignLevels false draw x.n)) (n := x.n) fun i hi => by
      obtain ⟨tid, htid⟩ := x.tids_getElem? hi
      have hlevel : (assignLevels false draw x.n)[i]? = some 0 :=
        assignLevels_getElem? draw false hi
      simp only [linkElem, htid, hlevel, x.vecAt_natCast hi, Option.bind_eq_bind,
        Option.bind_some]
      exact ⟨_, rfl⟩
  exact ⟨_, by rw [fillLinks, hloop]; rfl⟩

theorem elemLevel_le_maxLevel {i : ℕ} (hi : i < x.n) :
    elemLevel doHierarchy draw i ≤ x.maxLevel doHierarchy draw := by
  have hlen := assignLevels_length draw doHierarchy x.n
  obtain ⟨-, hmax⟩ := entryElem_spec (assignLevels doHierarchy draw x.n) (by rw [hlen]; exact x.n_pos)
  exact hmax _ (List.mem_of_getElem? (assignLevels_getElem? draw doHierarchy hi))

theorem elemLevel_le (i : ℕ) : elemLevel doHierarchy draw i ≤ 16 := by
  unfold elemLevel cagraAssignLevel
  split_ifs <;> omega

end Links

section Layout

variable {x : AdjacencyExport} {width : ElemWidth} {doHierarchy : Bool} {draw : ℕ → ℕ}

def AdjacencyExport.sizeLevel (x : AdjacencyExport) (doHierarchy : Bool) (draw : ℕ → ℕ) : ℕ :=
  if doHierarchy then x.maxLevel doHierarchy draw else 0

theorem elemTupleSize_le (dim : ℕ) (width : ElemWidth) :
    80 + 2 * dim ≤ elemTupleSize dim width := by
  have hle := le_maxalign8 (72 + 8 + dim * width.bytesPerDim)
  unfold elemTupleSize
  cases width with
  | vector => simp only [ElemWidth.bytesPerDim] at hle ⊢; omega
  | halfvec => simp only [ElemWidth.bytesPerDim] at hle ⊢; omega

theorem AdjacencyExport.pairBytes_le
    (hfit : pairBytes x.dim width x.m (x.maxLevel doHierarchy draw) ≤ pgvUsableBytes) :
    pairBytes x.dim width x.m (x.sizeLevel doHierarchy draw) ≤ pgvUsableBytes := by
  have hlevel : x.sizeLevel doHierarchy draw ≤ x.maxLevel doHierarchy draw := by
    unfold AdjacencyExport.sizeLevel
    split_ifs
    · exact Nat.le_refl _
    · exact Nat.zero_le _
  have hmono := neighTupleSize_mono (m := x.m) hlevel
  unfold pairBytes at hfit ⊢
  omega

theorem AdjacencyExport.packK_fits
    (hfit : pairBytes x.dim width x.m (x.maxLevel doHierarchy draw) ≤ pgvUsableBytes) :
    0 < x.packK width doHierarchy ∧
      x.packK width doHierarchy * pairBytes x.dim width x.m (x.sizeLevel doHierarchy draw)
        ≤ pgvUsableBytes := by
  have hsize := x.pairBytes_le hfit
  unfold AdjacencyExport.packK
  cases doHierarchy with
  | true => exact ⟨Nat.one_pos, (Nat.one_mul _).trans_le hsize⟩
  | false =>
    change pairBytes x.dim width x.m 0 ≤ pgvUsableBytes at hsize
    have hpos : 0 < pairBytes x.dim width x.m 0 := by
      unfold pairBytes
      omega
    exact ⟨Nat.div_pos hsize hpos, Nat.div_mul_le_self _ _⟩

theorem AdjacencyExport.packK_le
    (hfit : pairBytes x.dim width x.m (x.maxLevel doHierarchy draw) ≤ pgvUsableBytes) :
    x.packK width doHierarchy ≤ 85 := by
  obtain ⟨-, hmul⟩ := x.packK_fits hfit
  have hpair : 96 ≤ pairBytes x.dim width x.m (x.sizeLevel doHierarchy draw) := by
    have := elemTupleSize_le x.dim width
    unfold pairBytes
    omega
  have hle := (Nat.mul_le_mul_left (x.packK width doHierarchy) hpair).trans hmul
  unfold pgvUsableBytes at hle
  omega

theorem AdjacencyExport.dim_lt
    (hfit : pairBytes x.dim width x.m (x.maxLevel doHierarchy draw) ≤ pgvUsableBytes) :
    x.dim < 2 ^ 15 := by
  have := elemTupleSize_le x.dim width
  unfold pairBytes pgvUsableBytes at hfit
  omega

def laid (packK i : ℕ) (e : ElemDesc) : ElemDesc :=
  { e with
    elemBlkno := i / packK + 1
    elemOffno := 2 * (i % packK) + 1
    neighBlkno := i / packK + 1
    neighOffno := 2 * (i % packK) + 2 }

theorem layoutPass_getElem? {packK i : ℕ} {elems : List ElemDesc} {e : ElemDesc}
    (hpos : 0 < packK) (hle : packK ≤ 85) (hlen : elems.length < 2 ^ 32)
    (he : elems[i]? = some e) : (layoutPass packK elems)[i]? = some (laid packK i e) := by
  have hi : i < elems.length := (List.getElem?_eq_some_iff.mp he).1
  have hblk : (i / packK + 1) % 2 ^ 32 = i / packK + 1 :=
    Nat.mod_eq_of_lt (by have := Nat.div_le_self i packK; omega)
  have hslot : i % packK < packK := Nat.mod_lt i hpos
  have heoff : (2 * (i % packK) + 1) % 2 ^ 16 = 2 * (i % packK) + 1 :=
    Nat.mod_eq_of_lt (by omega)
  have hnoff : (2 * (i % packK) + 2) % 2 ^ 16 = 2 * (i % packK) + 2 :=
    Nat.mod_eq_of_lt (by omega)
  rw [layoutPass, List.getElem?_mapIdx, he, Option.map_some, hblk, heoff, hnoff]
  rfl

theorem layoutPass_length (packK : ℕ) (elems : List ElemDesc) :
    (layoutPass packK elems).length = elems.length := by
  rw [layoutPass, List.length_mapIdx]

theorem AdjacencyExport.vec_length {i : ℕ} (hi : i < x.n) : (x.vec i).length = x.dim := by
  have hend : (i + 1) * x.dim ≤ x.n * x.dim := Nat.mul_le_mul_right x.dim hi
  rw [AdjacencyExport.vec, List.length_take, List.length_drop, x.vecs_length]
  rw [Nat.succ_mul] at hend
  omega

end Layout

section Written

variable {ops : FloatOps} {x : AdjacencyExport} {width : ElemWidth} {doHierarchy : Bool}
  {draw : ℕ → ℕ} {g : LinkedGraph}

theorem pairs_getElem? {k : ℕ} (hpos : 0 < k) (hle : k ≤ 85) (hlen : g.elems.length = x.n) {i : ℕ} :
    ((layoutPass k g.elems).mapIdx fun i e => (e, x.vec i))[i]?
      = g.elems[i]?.map fun e => (laid k i e, x.vec i) := by
  rw [List.getElem?_mapIdx]
  cases he : g.elems[i]? with
  | none =>
    have hnone : (layoutPass k g.elems)[i]? = none := by
      rw [List.getElem?_eq_none_iff, layoutPass_length]
      exact List.getElem?_eq_none_iff.mp he
    rw [hnone]
    rfl
  | some e =>
    rw [layoutPass_getElem? hpos hle (hlen ▸ x.n_lt) he]
    rfl

/-- The pages are written without an error, each pair where the layout pass has put it. -/
theorem fillPages_ok (hg : fillLinks ops x doHierarchy draw = some g)
    (hfit : pairBytes x.dim width x.m (x.maxLevel doHierarchy draw) ≤ pgvUsableBytes) :
    ∃ pages, fillPages x width doHierarchy g
        = .ok (metaPage (hnswMeta x (layoutPass (x.packK width doHierarchy) g.elems) g) :: pages) ∧
      pages.length = (x.n + (x.packK width doHierarchy - 1)) / x.packK width doHierarchy ∧
      ∀ i e, g.elems[i]? = some e →
        PairAt (x.packK width doHierarchy) (layoutPass (x.packK width doHierarchy) g.elems) x.dim
          width x.m pages i (laid (x.packK width doHierarchy) i e, x.vec i) := by
  obtain ⟨hlen, hmax, -, hfields⟩ := fillLinks_some hg
  obtain ⟨hpos, hmul⟩ := x.packK_fits hfit
  have hle := x.packK_le hfit
  have hk : choosePackK x width doHierarchy = .ok (x.packK width doHierarchy) := by
    cases doHierarchy with
    | true => rfl
    | false => exact elemsPerPage_pos x.dim_pos x.m 0
  generalize x.packK width doHierarchy = k at *
  generalize hpairs : ((layoutPass k g.elems).mapIdx fun i e => (e, x.vec i)) = pairs
  -- the second pass runs over the elements the layout pass has placed, each with its vector
  have hget : ∀ i, pairs[i]? = g.elems[i]?.map fun e => (laid k i e, x.vec i) := fun i =>
    hpairs ▸ pairs_getElem? hpos hle hlen
  have hcount : pairs.length = x.n := by
    rw [← hpairs, List.length_mapIdx, layoutPass_length, hlen]
  have hmem : ∀ p ∈ pairs, ∃ i e, g.elems[i]? = some e ∧ (laid k i e, x.vec i) = p := by
    intro p hp
    obtain ⟨i, hi⟩ := List.mem_iff_getElem?.mp hp
    rw [hget, Option.map_eq_some_iff] at hi
    exact ⟨i, hi⟩
  have hvec : ∀ p ∈ pairs, p.2.length = x.dim := by
    intro p hp
    obtain ⟨i, e, he, rfl⟩ := hmem p hp
    exact x.vec_length (hlen ▸ (List.getElem?_eq_some_iff.mp he).1)
  have hsize : ∀ p ∈ pairs, elemTupleSize x.dim width + neighTupleSize p.1.level x.m
      ≤ elemTupleSize x.dim width + neighTupleSize (x.sizeLevel doHierarchy draw) x.m := by
    intro p hp
    obtain ⟨i, e, he, rfl⟩ := hmem p hp
    have hi : i < x.n := hlen ▸ (List.getElem?_eq_some_iff.mp he).1
    have hlevel : (laid k i e).level = elemLevel doHierarchy draw i := (hfields i e he).2.1
    have hbound : elemLevel doHierarchy draw i ≤ x.maxLevel doHierarchy draw :=
      elemLevel_le_maxLevel hi
    refine Nat.add_le_add_left (neighTupleSize_mono ?_) _
    rw [hlevel, AdjacencyExport.sizeLevel]
    cases doHierarchy with
    | true => exact hbound
    | false => exact Nat.le_refl 0
  have hroom : k * (elemTupleSize x.dim width + neighTupleSize (x.sizeLevel doHierarchy draw) x.m
      + 16) ≤ pgvUsableBytes := by
    refine Eq.trans_le ?_ hmul
    unfold pairBytes
    congr 1
    omega
  have hoff : ∀ i p, pairs[i]? = some p →
      p.1.elemOffno = 2 * (i % k) + 1 ∧ p.1.neighOffno = 2 * (i % k) + 2 := by
    intro i p hp
    rw [hget, Option.map_eq_some_iff] at hp
    obtain ⟨e, -, rfl⟩ := hp
    exact ⟨rfl, rfl⟩
  obtain ⟨pages, hwrite, hnpages, hat⟩ := @writeElemPagesPacked_ok x.dim width x.m
    (layoutPass k g.elems) _ k x.n pairs hpos (Nat.le_of_eq hcount) hvec hsize hroom hoff
  refine ⟨pages, ?_, hcount ▸ hnpages, fun i e he => hat i _ ?_⟩
  · have hcheck : checkHnswPageFit x.dim width x.m g.maxLevel = .ok () := by
      rw [hmax]
      exact (checkHnswPageFit_ok x.dim_pos).mpr hfit
    have hpages : writePages x width k (layoutPass k g.elems) = .ok pages := by
      simp only [writePages, hpairs, hcount]
      split_ifs with hk1
      · exact hwrite
      · obtain rfl : k = 1 := by omega
        rw [writeElemPages_eq_packed pairs x.n (Nat.le_of_eq hcount)]
        exact hwrite
    simp only [fillPages, hcheck, hk, bind, Except.bind, hpages]
    rw [if_neg (Nat.not_lt.mpr hpos)]
  · rw [hget, he]
    rfl

theorem layoutPass_fits (k : ℕ) (elems : List ElemDesc) :
    ∀ t ∈ layoutPass k elems, t.elemBlkno < 2 ^ 32 ∧ t.elemOffno < 2 ^ 16 := by
  intro t ht
  obtain ⟨i, hi⟩ := List.mem_iff_getElem?.mp ht
  rw [layoutPass, List.getElem?_mapIdx, Option.map_eq_some_iff] at hi
  obtain ⟨e, -, rfl⟩ := hi
  exact ⟨Nat.mod_lt _ (by decide), Nat.mod_lt _ (by decide)⟩

theorem AdjacencyExport.m0_eq (x : AdjacencyExport) : x.m0 = 2 * x.m := by
  obtain ⟨-, -, heven⟩ := clampM0_bounds x.graphDegree
  unfold AdjacencyExport.m AdjacencyExport.m0
  omega

theorem AdjacencyExport.m_le (x : AdjacencyExport) : x.m ≤ 32 := by
  obtain ⟨-, hle, -⟩ := clampM0_bounds x.graphDegree
  unfold AdjacencyExport.m AdjacencyExport.m0
  omega

theorem itemAt_element {pages : List Page} {page metapage : Page} {block : ℕ}
    (hpage : pages[block]? = some page) (posid : ℕ) :
    itemAt (metapage :: pages) (setItemPtr (block + 1) (posid + 1)) = page.items[posid]? := by
  rw [itemAt, setItemPtr_blkno, List.getElem?_cons_succ, hpage]
  exact if_neg (Nat.succ_ne_zero posid)

theorem decodeElem_eq {dim m : ℕ} {rel : List Page} {p heaptid : PgvItemPointer}
    {item nitem : List UInt8} {e : PgvElement} {slots : List PgvItemPointer}
    (hitem : itemAt rel p = some item)
    (hread : (readElemTuple dim width item).map Prod.fst = some e)
    (hnitem : itemAt rel e.neighbortid = some nitem)
    (hslots : (readNeighTuple ((e.level + 2) * m) nitem).map Prod.fst = some slots)
    (hheap : e.heaptids.head? = some heaptid) :
    decodeElem dim width m rel p
      = some
        { tid := heaptid.tid
          vec := e.vec
          level := e.level
          neighbors := (List.range (e.level + 1)).map fun lc => layerSlots slots m e.level lc } := by
  simp only [decodeElem, hitem, hread, hnitem, hslots, hheap, Option.bind_eq_bind,
    Option.bind_some]

theorem decodeElem_written {k i : ℕ} {e : ElemDesc} {pages : List Page} {metap : PgvHnswMeta}
    (hpos : 0 < k) (hle : k ≤ 85) (hi : i < x.n) (hdim : x.dim < 2 ^ 15) (hlevel : e.level ≤ 16)
    (htid : e.tidEncoded < 2 ^ 48)
    (hat : PairAt k (layoutPass k g.elems) x.dim width x.m pages i (laid k i e, x.vec i)) :
    decodeElem x.dim width x.m (metaPage metap :: pages)
        (setItemPtr (i / k + 1) (2 * (i % k) + 1))
      = some
        { tid := e.tidEncoded
          vec := width.store (x.vec i)
          level := e.level
          neighbors := (List.range (e.level + 1)).map fun lc =>
            levelSlots (layoutPass k g.elems) (e.links lc) (layerM x.m lc) } := by
  obtain ⟨page, hpage, helem, hneigh⟩ := hat
  have hslot : i % k < k := Nat.mod_lt i hpos
  have hblk : i / k + 1 < 2 ^ 32 := by
    have := Nat.div_le_self i k
    have := x.n_lt
    omega
  have hread := @elemTuple_reads x.dim width (laid k i e) (x.vec i)
    (Nat.lt_of_le_of_lt hlevel (by decide)) hblk (by simp only [laid]; omega) hdim
    (x.vec_length hi)
  have hcount : ((laid k i e).level + 2) * x.m < 2 ^ 16 := by
    have := Nat.mul_le_mul (Nat.add_le_add_right hlevel 2) x.m_le
    change (e.level + 2) * x.m < 2 ^ 16
    omega
  have hslots := neighTuple_reads (layoutPass_fits k g.elems) hcount
  rw [decodeElem_eq ((itemAt_element hpage _).trans helem) hread
    ((itemAt_element hpage _).trans hneigh) hslots rfl]
  rw [Option.some.injEq, DecodedElem.mk.injEq]
  refine ⟨tidToItemPtr_tid htid, rfl, rfl, ?_⟩
  refine List.map_congr_left fun lc hlc => ?_
  have hlc : lc ≤ (laid k i e).level := Nat.lt_succ_iff.mp (List.mem_range.mp hlc)
  exact layerSlots_neighborSlots _ (laid k i e) x.m hlc

theorem readMeta_reads {metap : PgvHnswMeta} (hmagic : metap.magicNumber < 2 ^ 32)
    (hversion : metap.version < 2 ^ 32) (hdims : metap.dimensions < 2 ^ 32)
    (hm : metap.m < 2 ^ 16) (hef : metap.efConstruction < 2 ^ 16)
    (hblk : metap.entryBlkno < 2 ^ 32) (hoff : metap.entryOffno < 2 ^ 16)
    (hlevel : metap.entryLevel < 2 ^ 16) (hinsert : metap.insertPage < 2 ^ 32) :
    Records.Reads readMeta metap.bytes metap := by
  rw [PgvHnswMeta.bytes]
  simp only [List.append_assoc]
  refine (reads_leBytes hmagic).bind ?_
  refine (reads_leBytes hversion).bind ?_
  refine (reads_leBytes hdims).bind ?_
  refine (reads_leBytes hm).bind ?_
  refine (reads_leBytes hef).bind ?_
  refine (reads_leBytes hblk).bind ?_
  refine (reads_leBytes hoff).bind ?_
  refine (reads_leBytes hlevel).bind ?_
  exact (reads_leBytes hinsert).map

theorem decodeMeta_written {pages : List Page}
    (hg : fillLinks ops x doHierarchy draw = some g)
    (hfit : pairBytes x.dim width x.m (x.maxLevel doHierarchy draw) ≤ pgvUsableBytes)
    (hcount : pages.length = (x.n + (x.packK width doHierarchy - 1)) / x.packK width doHierarchy) :
    ∃ metap, decodeMeta
          (metaPage (hnswMeta x (layoutPass (x.packK width doHierarchy) g.elems) g) :: pages)
        = some metap ∧ metap.dimensions = x.dim ∧ metap.m = x.m ∧
      metap.insertPage + 1 = pages.length + 1 ∧
      ∃ i < x.n, setItemPtr metap.entryBlkno metap.entryOffno = x.position width doHierarchy i ∧
        metap.entryLevel = elemLevel doHierarchy draw i ∧
        ∀ j < x.n, elemLevel doHierarchy draw j ≤ elemLevel doHierarchy draw i := by
  obtain ⟨hlen, hmax, hentry, hfields⟩ := fillLinks_some hg
  obtain ⟨hpos, -⟩ := x.packK_fits hfit
  have hle := x.packK_le hfit
  have hdim := x.dim_lt hfit
  have hposition : ∀ i, x.position width doHierarchy i
      = setItemPtr (i / x.packK width doHierarchy + 1) (2 * (i % x.packK width doHierarchy) + 1) :=
    fun i => rfl
  generalize x.packK width doHierarchy = k at *
  have hlevels := assignLevels_length draw doHierarchy x.n
  obtain ⟨hfound, -⟩ := entryElem_spec (assignLevels doHierarchy draw x.n)
    (by rw [hlevels]; exact x.n_pos)
  rw [← hentry] at hfound
  have hi : g.entry < x.n := (List.getElem?_eq_some_iff.mp hfound).1.trans_eq hlevels
  rw [assignLevels_getElem? draw doHierarchy hi] at hfound
  have hlevel : elemLevel doHierarchy draw g.entry = g.maxLevel :=
    (Option.some.inj hfound).trans hmax.symm
  obtain ⟨e, he⟩ : ∃ e, g.elems[g.entry]? = some e := ⟨_, List.getElem?_eq_getElem (hlen ▸ hi)⟩
  have hlast : x.n - 1 < g.elems.length := by
    have := x.n_pos
    omega
  obtain ⟨last, hlaste⟩ : ∃ last, g.elems[x.n - 1]? = some last :=
    ⟨_, List.getElem?_eq_getElem hlast⟩
  have hlaidEntry := layoutPass_getElem? hpos hle (hlen ▸ x.n_lt) he
  have hlaidLast : (layoutPass k g.elems).getLast? = some (laid k (x.n - 1) last) := by
    rw [List.getLast?_eq_getElem?, layoutPass_length, hlen]
    exact layoutPass_getElem? hpos hle (hlen ▸ x.n_lt) hlaste
  generalize hmeta : hnswMeta x (layoutPass k g.elems) g = metap
  simp only [hnswMeta, hlaidEntry, hlaidLast] at hmeta
  have hdims : metap.dimensions = x.dim := by
    rw [← hmeta]
    exact Nat.mod_eq_of_lt (hdim.trans (by decide))
  have hinsert : metap.insertPage = (x.n - 1) / k + 1 := by rw [← hmeta]; rfl
  have hblk : metap.entryBlkno = g.entry / k + 1 := by rw [← hmeta]; rfl
  have hoff : metap.entryOffno = 2 * (g.entry % k) + 1 := by rw [← hmeta]; rfl
  have hentryLevel : metap.entryLevel = g.maxLevel := by rw [← hmeta]
  have hm : metap.m = x.m := by rw [← hmeta]
  have hef : metap.efConstruction = x.m0 * 2 := by rw [← hmeta]
  have hmagic : metap.magicNumber = 0xA953A953 := by rw [← hmeta]
  have hversion : metap.version = 1 := by rw [← hmeta]
  have hn := x.n_lt
  have hdivEntry := Nat.div_le_self g.entry k
  have hdivLast := Nat.div_le_self (x.n - 1) k
  have hslot : g.entry % k < k := Nat.mod_lt _ hpos
  have hlevelLe : g.maxLevel ≤ 16 := hlevel ▸ elemLevel_le g.entry
  have hmLe := x.m_le
  have hm0 := x.m0_eq
  have hreads : Records.Reads readMeta metap.bytes metap :=
    readMeta_reads (by rw [hmagic]; decide) (by rw [hversion]; decide) (by omega) (by omega)
      (by omega) (by omega) (by omega) (by omega) (by omega)
  refine ⟨metap, ?_, hdims, hm, ?_, g.entry, hi, ?_, ?_, fun j hj => ?_⟩
  · have hrun := hreads.run []
    rw [List.append_nil] at hrun
    simp only [decodeMeta, List.getElem?_cons_zero, Option.bind_eq_bind, Option.bind_some, metaPage]
    exact hrun
  · rw [hinsert, hcount]
    have hsplit : x.n + (k - 1) = x.n - 1 + k := by omega
    rw [hsplit, Nat.add_div_right _ hpos]
  · rw [hblk, hoff, hposition]
  · rw [hentryLevel, hlevel]
  · rw [hlevel, hmax]
    exact elemLevel_le_maxLevel hj

end Written

section Faithful

variable {ops : FloatOps} {x : AdjacencyExport} {width : ElemWidth} {doHierarchy : Bool}
  {draw : ℕ → ℕ} {g : LinkedGraph}

theorem slotPtr_element {k c : ℕ} (hpos : 0 < k) (hle : k ≤ 85) (hlen : g.elems.length = x.n)
    (hc : c < x.n) :
    slotPtr (layoutPass k g.elems) (c : ℤ) = setItemPtr (c / k + 1) (2 * (c % k) + 1) := by
  obtain ⟨e, he⟩ : ∃ e, g.elems[c]? = some e := ⟨_, List.getElem?_eq_getElem (hlen ▸ hc)⟩
  rw [slotPtr, if_pos (Int.natCast_nonneg c), Int.toNat_natCast,
    layoutPass_getElem? hpos hle (hlen ▸ x.n_lt) he]
  rfl

theorem slotPtr_negative {elems : List ElemDesc} {nb : ℤ} (h : nb < 0) :
    slotPtr elems nb = setInvalidItemPtr :=
  if_neg (by omega)

theorem slotPtr_cInt {k : ℕ} {c : UInt32} (hpos : 0 < k) (hle : k ≤ 85)
    (hlen : g.elems.length = x.n) (hint : c.toNat < x.n → c.toNat < 2 ^ 31) :
    slotPtr (layoutPass k g.elems) (cInt c)
      = if c.toNat < x.n then setItemPtr (c.toNat / k + 1) (2 * (c.toNat % k) + 1)
        else setInvalidItemPtr := by
  rcases Nat.lt_or_ge c.toNat (2 ^ 31) with hsmall | hbig
  · rw [cInt_of_lt hsmall]
    split_ifs with hc
    · exact slotPtr_element hpos hle hlen hc
    · have hnone : (layoutPass k g.elems)[c.toNat]? = none := by
        rw [List.getElem?_eq_none_iff, layoutPass_length, hlen]
        omega
      rw [slotPtr, if_pos (Int.natCast_nonneg _), Int.toNat_natCast, hnone]
  · rw [slotPtr_negative (cInt_neg hbig), if_neg fun hc => absurd (hint hc) (by omega)]

theorem levelSlots_row {k i : ℕ} {e : ElemDesc} (hpos : 0 < k) (hle : k ≤ 85)
    (hk : x.packK width doHierarchy = k) (hlen : g.elems.length = x.n)
    (hlv0 : e.lv0Links = ((x.row i).take (min x.graphDegree x.m0)).map cInt)
    (hint : ∀ c ∈ (x.row i).take (min x.graphDegree x.m0), c.toNat < x.n → c.toNat < 2 ^ 31) :
    levelSlots (layoutPass k g.elems) (e.links 0) (layerM x.m 0)
      = x.slots ops width doHierarchy draw i 0 := by
  refine List.map_congr_left fun s _ => ?_
  simp only [ElemDesc.links, AdjacencyExport.linked, AdjacencyExport.position, if_true, hlv0, hk,
    List.getElem?_map]
  cases hc : ((x.row i).take (min x.graphDegree x.m0))[s]? with
  | none => rfl
  | some c => exact slotPtr_cInt hpos hle hlen (hint c (List.mem_of_getElem? hc))

theorem levelSlots_upper {k i lc : ℕ} {e : ElemDesc} (hpos : 0 < k) (hle : k ≤ 85)
    (hk : x.packK width doHierarchy = k) (hlen : g.elems.length = x.n)
    (hlc : 1 ≤ lc) (hlevel : lc ≤ e.level)
    (hvalid : g.Valid ops x draw) (he : g.elems[i]? = some e) :
    levelSlots (layoutPass k g.elems) (e.links lc) (layerM x.m lc)
      = x.slots ops width doHierarchy draw i lc := by
  have hselected := hvalid.selected i e he lc hlc hlevel
  obtain ⟨links, hlinks, -, hmem⟩ := heuristicSelectNeighbors_spec ops x (x.vec i) x.m
    (x.candidates draw i lc) fun c hc =>
      have h := x.mem_candidates draw hc
      ⟨h.1, h.2.1⟩
  have hupper : e.upperLinks.getD (lc - 1) [] = links := by
    rw [List.getD_eq_getElem?_getD, ← hselected, hlinks]
    rfl
  refine List.map_congr_left fun s _ => ?_
  simp only [ElemDesc.links, AdjacencyExport.linked, AdjacencyExport.position, Nat.ne_of_gt hlc,
    if_false, hupper, hlinks, hk, Option.getD_some, List.getElem?_map]
  cases hc : links[s]? with
  | none => rfl
  | some c =>
    obtain ⟨hnonneg, hlt, -⟩ := x.mem_candidates draw (hmem c (List.mem_of_getElem? hc))
    have hcast : c = (c.toNat : ℤ) := (Int.toNat_of_nonneg hnonneg).symm
    simp only [Option.map_some, if_pos hlt]
    rw [hcast, Int.toNat_natCast]
    exact slotPtr_element hpos hle hlen hlt

/-- The pages of a filled graph, decoded. -/
theorem fillHnswFromCagraIpc_decode (hg : fillLinks ops x doHierarchy draw = some g)
    (hfit : pairBytes x.dim width x.m (x.maxLevel doHierarchy draw) ≤ pgvUsableBytes) :
    ∃ metap pages,
      fillHnswFromCagraIpc ops x width doHierarchy draw = some (.ok (metaPage metap :: pages)) ∧
      pages.length = (x.n + (x.packK width doHierarchy - 1)) / x.packK width doHierarchy ∧
      metap = hnswMeta x (layoutPass (x.packK width doHierarchy) g.elems) g ∧
      ∀ i e, g.elems[i]? = some e →
        decodeElem x.dim width x.m (metaPage metap :: pages) (x.position width doHierarchy i)
          = some
            { tid := e.tidEncoded
              vec := width.store (x.vec i)
              level := e.level
              neighbors := (List.range (e.level + 1)).map fun lc =>
                levelSlots (layoutPass (x.packK width doHierarchy) g.elems) (e.links lc)
                  (layerM x.m lc) } := by
  obtain ⟨hlen, -, -, hfields⟩ := fillLinks_some hg
  obtain ⟨hpos, -⟩ := x.packK_fits hfit
  obtain ⟨pages, hfill, hcount, hat⟩ := fillPages_ok hg hfit
  refine ⟨_, pages, by rw [fillHnswFromCagraIpc, hg, Option.map_some, hfill], hcount, rfl,
    fun i e he => ?_⟩
  have hi : i < x.n := hlen ▸ (List.getElem?_eq_some_iff.mp he).1
  obtain ⟨htid, hlevel, -⟩ := hfields i e he
  exact decodeElem_written hpos (x.packK_le hfit) hi (x.dim_lt hfit) (hlevel ▸ elemLevel_le i)
    (x.tids_lt _ (List.mem_of_getElem? htid)) (hat i e he)

/-- A level-0 link that is no `int` is written as no link. -/
theorem FaithfulPages.row_int {pages : List Page} (hg : fillLinks ops x doHierarchy draw = some g)
    (hfit : pairBytes x.dim width x.m (x.maxLevel doHierarchy draw) ≤ pgvUsableBytes)
    (hfill : fillHnswFromCagraIpc ops x width doHierarchy draw = some (.ok pages))
    (hfaith : FaithfulPages ops x width doHierarchy draw pages) {i : ℕ} (hi : i < x.n) {c : UInt32}
    (hc : c ∈ (x.row i).take (min x.graphDegree x.m0)) (hlt : c.toNat < x.n) :
    c.toNat < 2 ^ 31 := by
  by_contra hbig
  obtain ⟨hlen, -, -, hfields⟩ := fillLinks_some hg
  obtain ⟨e, he⟩ : ∃ e, g.elems[i]? = some e := ⟨_, List.getElem?_eq_getElem (hlen ▸ hi)⟩
  obtain ⟨htid, hlevel, hlv0⟩ := hfields i e he
  obtain ⟨metap, blocks, hfill', -, -, hdecode⟩ := fillHnswFromCagraIpc_decode hg hfit
  obtain rfl : pages = metaPage metap :: blocks := by
    rw [hfill] at hfill'
    exact Except.ok.inj (Option.some.inj hfill')
  have hsame := (hdecode i e he).symm.trans (hfaith.elems i _ htid)
  obtain ⟨s, hs⟩ := List.mem_iff_getElem?.mp hc
  have hslot : s < layerM x.m 0 := by
    have hs' := (List.getElem?_eq_some_iff.mp hs).1
    rw [List.length_take] at hs'
    have hm0 := x.m0_eq
    simp only [layerM, if_true]
    omega
  rw [Option.some.injEq, DecodedElem.mk.injEq] at hsame
  -- Both sides have level 0 in front, and there slot `s` differs.
  have hzero := congrArg (fun rows => rows[0]?.map fun row => row[s]?) hsame.2.2.2
  simp only [List.getElem?_map, List.getElem?_range (Nat.succ_pos _), Option.map_some, levelSlots,
    AdjacencyExport.slots, List.getElem?_range hslot, Option.some.injEq, ElemDesc.links,
    AdjacencyExport.linked, if_true, hlv0, hs, if_pos hlt] at hzero
  rw [slotPtr_negative (cInt_neg (Nat.not_lt.mp hbig))] at hzero
  have hposid := congrArg PgvItemPointer.ipPosid hzero
  exact absurd hposid (by simp [setInvalidItemPtr, AdjacencyExport.position, setItemPtr])

/-- The pages are the exported graph's exactly when every element number followed is an
`int`. -/
theorem fillHnswFromCagraIpc_faithful_iff
    (hfit : checkHnswPageFit x.dim width x.m (x.maxLevel doHierarchy draw) = .ok ()) :
    (∃ pages, fillHnswFromCagraIpc ops x width doHierarchy draw = some (.ok pages) ∧
      FaithfulPages ops x width doHierarchy draw pages) ↔ x.LinkInt doHierarchy draw := by
  rw [checkHnswPageFit_ok x.dim_pos] at hfit
  constructor
  · rintro ⟨pages, hfill, hfaith⟩
    obtain ⟨g, hg, -⟩ := Option.map_eq_some_iff.mp hfill
    refine ⟨fun i hi c hc hlt => hfaith.row_int hg hfit hfill hi hc hlt, ?_⟩
    rintro rfl
    by_contra hbad
    rw [fillLinks_none ops x draw hbad] at hg
    exact nomatch hg
  · rintro ⟨hrow, hupper⟩
    obtain ⟨g, hg, hvalid⟩ : ∃ g, fillLinks ops x doHierarchy draw = some g ∧
        (doHierarchy = true → g.Valid ops x draw) := by
      cases doHierarchy with
      | true => exact (fillLinks_valid ops x draw (hupper rfl)).imp fun g h => ⟨h.1, fun _ => h.2⟩
      | false => exact fillLinks_flat.imp fun g h => ⟨h, fun h => nomatch h⟩
    obtain ⟨hlen, -, -, hfields⟩ := fillLinks_some hg
    obtain ⟨hpos, -⟩ := x.packK_fits hfit
    have hle := x.packK_le hfit
    obtain ⟨metap, pages, hfill, hcount, rfl, hdecode⟩ := fillHnswFromCagraIpc_decode hg hfit
    refine ⟨_, hfill, ⟨fun i tid htid => ?_, decodeMeta_written hg hfit hcount⟩⟩
    have hi : i < x.n := x.tids_length ▸ (List.getElem?_eq_some_iff.mp htid).1
    obtain ⟨e, he⟩ : ∃ e, g.elems[i]? = some e := ⟨_, List.getElem?_eq_getElem (hlen ▸ hi)⟩
    obtain ⟨htid', hlevel, hlv0⟩ := hfields i e he
    rw [htid] at htid'
    rw [hdecode i e he, Option.some.inj htid', ← hlevel]
    congr 2
    refine List.map_congr_left fun lc hlc => ?_
    have hlc : lc ≤ e.level := Nat.lt_succ_iff.mp (List.mem_range.mp hlc)
    rcases Nat.eq_zero_or_pos lc with rfl | hlcpos
    · exact levelSlots_row hpos hle rfl hlen hlv0 (hrow i hi)
    · have hmode : doHierarchy = true := by
        by_contra hflat
        rw [hlevel, elemLevel, if_neg hflat] at hlc
        omega
      exact levelSlots_upper hpos hle rfl hlen hlcpos hlc (hvalid hmode) he

def sampleExport : AdjacencyExport where
  n := 3
  graphDegree := 2
  dim := 1
  adj := [1, 2, 2, 7, 0, 1]
  vecs := [0, 1, 2]
  tids := [65537, 65538, 65539]
  n_pos := Nat.succ_pos 2
  n_lt := by decide
  graphDegree_pos := Nat.succ_pos 1
  dim_pos := Nat.one_pos
  adj_length := rfl
  vecs_length := rfl
  tids_length := rfl
  tids_lt := by decide

theorem fillHnswFromCagraIpc_sample :
    ∃ pages, fillHnswFromCagraIpc sampleOps sampleExport .halfvec true (fun i => i)
        = some (.ok pages) ∧
      FaithfulPages sampleOps sampleExport .halfvec true (fun i => i) pages := by
  refine (fillHnswFromCagraIpc_faithful_iff ((checkHnswPageFit_ok (by decide)).mpr (by decide))).mpr
    ⟨?_, ?_⟩
  · exact fun i _ c _ hlt => hlt.trans (by decide)
  · exact fun _ i _ _ c _ hlt => hlt.trans (by decide)

theorem AdjacencyExport.maxLevel_flat (x : AdjacencyExport) (draw : ℕ → ℕ) :
    x.maxLevel false draw = 0 := by
  have hlen := assignLevels_length draw false x.n
  obtain ⟨hfound, -⟩ := entryElem_spec (assignLevels false draw x.n) (by rw [hlen]; exact x.n_pos)
  obtain ⟨i, -, hi⟩ := List.mem_map.mp (List.mem_of_getElem? hfound)
  exact hi.symm

/-- The last element's links are lost, though the page layout passes its check. -/
theorem fillHnswFromCagraIpc_huge :
    checkHnswPageFit hugeExport.dim .vector hugeExport.m (hugeExport.maxLevel false fun _ => 0)
        = .ok () ∧
      ¬ ∃ pages, fillHnswFromCagraIpc sampleOps hugeExport .vector false (fun _ => 0)
          = some (.ok pages) ∧
        FaithfulPages sampleOps hugeExport .vector false (fun _ => 0) pages := by
  have hfit : pairBytes hugeExport.dim .vector hugeExport.m (hugeExport.maxLevel false fun _ => 0)
      ≤ pgvUsableBytes := by
    rw [AdjacencyExport.maxLevel_flat]
    decide
  refine ⟨(checkHnswPageFit_ok hugeExport.dim_pos).mpr hfit, ?_⟩
  rintro ⟨pages, hfill, hfaith⟩
  obtain ⟨g, hg, -⟩ := Option.map_eq_some_iff.mp hfill
  have hrow : (2 ^ 31 : UInt32) ∈ (hugeExport.row 0).take
      (min hugeExport.graphDegree hugeExport.m0) := by
    rw [AdjacencyExport.row, Nat.zero_mul, List.drop_zero]
    change _ ∈ ((List.replicate _ _).take 2).take _
    rw [List.take_replicate, List.take_replicate]
    exact List.mem_replicate.mpr ⟨by decide, rfl⟩
  exact absurd (hfaith.row_int hg hfit hfill hugeExport.n_pos hrow (by decide)) (by decide)

end Faithful

end PgCuvs
