import PgCuvs.Export.Tuples

/-! Laying out and writing the pages of the target index, and reading them as pgvector
does. -/

namespace PgCuvs

/-- A page under construction: `contents` is the metapage's, `items` are the tuples by offset. -/
structure Page where
  nextblkno : ℕ
  unused : ℕ
  pageId : ℕ
  contents : List UInt8
  lower : ℕ
  upper : ℕ
  items : List (List UInt8)
deriving DecidableEq, Repr

def newPage : Page where
  nextblkno := 0xFFFFFFFF
  unused := 0
  pageId := 0xFF90
  contents := []
  lower := 24
  upper := 8192 - 8
  items := []

/-- PostgreSQL's `PageAddItem` at the next offset, which it returns. -/
def pageAddItem (page : Page) (item : List UInt8) : Option (Page × ℕ) :=
  if page.lower + 4 + maxalign8 item.length ≤ page.upper then
    some
      ({ page with
          lower := page.lower + 4
          upper := page.upper - maxalign8 item.length
          items := page.items ++ [item] }, page.items.length + 1)
  else none

def pageGetFreeSpace (page : Page) : ℕ := page.upper - page.lower - 4

section Write

variable (dim : ℕ) (width : ElemWidth) (m : ℕ) (allElems : List ElemDesc)

def writeElemPair (page : Page) (p : ElemDesc × Vec) : Except String Page :=
  match pageAddItem page (elemTuple dim width p.1 p.2) with
  | none =>
    .error s!"pg_cuvs: hnsw_export: element tuple does not fit on page (esize={elemTupleSize dim width}, free={pageGetFreeSpace page})"
  | some (page, eoff) =>
    if eoff ≠ p.1.elemOffno then
      .error s!"pg_cuvs: hnsw_export: internal error — element landed at offno {eoff}, layout pass assigned {p.1.elemOffno}"
    else
      match pageAddItem page (neighTuple allElems p.1 m) with
      | none =>
        .error s!"pg_cuvs: hnsw_export: neighbor tuple does not fit on page (nsize={neighTupleSize p.1.level m}, free={pageGetFreeSpace page})"
      | some (page, noff) =>
        if noff ≠ p.1.neighOffno then
          .error s!"pg_cuvs: hnsw_export: internal error — neighbor tuple landed at offno {noff}, layout pass assigned {p.1.neighOffno}"
        else .ok page

def writeElemPage (p : ElemDesc × Vec) : Except String Page :=
  writeElemPair dim width m allElems newPage p

def writeElemPairs : Page → List (ElemDesc × Vec) → Except String Page
  | page, [] => .ok page
  | page, p :: rest =>
    match writeElemPair dim width m allElems page p with
    | .ok page => writeElemPairs page rest
    | .error e => .error e

def writeElemPages : List (ElemDesc × Vec) → Except String (List Page)
  | [] => .ok []
  | p :: rest =>
    match writeElemPage dim width m allElems p, writeElemPages rest with
    | .ok page, .ok pages => .ok (page :: pages)
    | .error e, _ => .error e
    | .ok _, .error e => .error e

/-- `k` pairs a page; `fuel` bounds the pages. -/
def writeElemPagesPacked (k : ℕ) : ℕ → List (ElemDesc × Vec) → Except String (List Page)
  | 0, _ => .ok []
  | _ + 1, [] => .ok []
  | fuel + 1, p :: rest =>
    match writeElemPairs dim width m allElems newPage ((p :: rest).take k),
      writeElemPagesPacked k fuel ((p :: rest).drop k) with
    | .ok page, .ok pages => .ok (page :: pages)
    | .error e, _ => .error e
    | .ok _, .error e => .error e

end Write

section Fill

/-- Step 4: pair `i` is the `i % packK`-th on its page. -/
def layoutPass (packK : ℕ) (elems : List ElemDesc) : List ElemDesc :=
  elems.mapIdx fun i e =>
    { e with
      elemBlkno := (i / packK + 1) % 2 ^ 32
      elemOffno := (2 * (i % packK) + 1) % 2 ^ 16
      neighBlkno := (i / packK + 1) % 2 ^ 32
      neighOffno := (2 * (i % packK) + 2) % 2 ^ 16 }

structure PgvHnswMeta where
  magicNumber : ℕ
  version : ℕ
  dimensions : ℕ
  m : ℕ
  efConstruction : ℕ
  entryBlkno : ℕ
  entryOffno : ℕ
  entryLevel : ℕ
  insertPage : ℕ
deriving DecidableEq, Repr

def PgvHnswMeta.bytes (metap : PgvHnswMeta) : List UInt8 :=
  leBytes 4 metap.magicNumber ++ leBytes 4 metap.version ++ leBytes 4 metap.dimensions ++
    leBytes 2 metap.m ++ leBytes 2 metap.efConstruction ++ leBytes 4 metap.entryBlkno ++
    leBytes 2 metap.entryOffno ++ leBytes 2 metap.entryLevel ++ leBytes 4 metap.insertPage

def hnswMeta (x : AdjacencyExport) (elems : List ElemDesc) (g : LinkedGraph) : PgvHnswMeta :=
  let base : PgvHnswMeta :=
    { magicNumber := 0xA953A953
      version := 1
      dimensions := x.dim % 2 ^ 16
      m := x.m
      efConstruction := x.m0 * 2
      entryBlkno := 0xFFFFFFFF
      entryOffno := 0
      entryLevel := 0xFFFF
      insertPage := 0 }
  match elems[g.entry]?, elems.getLast? with
  | some e, some last =>
    { base with
      entryBlkno := e.elemBlkno
      entryOffno := e.elemOffno
      entryLevel := g.maxLevel
      insertPage := last.elemBlkno }
  | _, _ => base

def metaPage (metap : PgvHnswMeta) : Page :=
  { newPage with
    contents := metap.bytes
    lower := 24 + 28 }

variable (ops : FloatOps) (x : AdjacencyExport) (width : ElemWidth) (doHierarchy : Bool)

/-- A flat export packs pairs, a hierarchical one has a page for each. -/
def choosePackK : Except String ℕ :=
  if doHierarchy then .ok 1 else elemsPerPage x.dim width x.m 0

def writePages (packK : ℕ) (elems : List ElemDesc) : Except String (List Page) :=
  let pairs := elems.mapIdx fun i e => (e, x.vec i)
  if 1 < packK then writeElemPagesPacked x.dim width x.m elems packK pairs.length pairs
  else writeElemPages x.dim width x.m elems pairs

/-- Steps 4 to 7 of `fill_hnsw_from_cagra_ipc_impl`: the blocks of the rewritten index. -/
def fillPages (g : LinkedGraph) : Except String (List Page) := do
  checkHnswPageFit x.dim width x.m g.maxLevel
  let packK ← choosePackK x width doHierarchy
  if packK < 1 then
    .error s!"pg_cuvs: internal error — pack_k={packK} after check_hnsw_page_fit() passed (dim={x.dim}, bytes_per_dim={width.bytesPerDim}, M={x.m})"
  else
    let elems := layoutPass packK g.elems
    let pages ← writePages x width packK elems
    .ok (metaPage (hnswMeta x elems g) :: pages)

/-- The export after its arguments are checked; `none` is an out of bounds read. -/
def fillHnswFromCagraIpc (draw : ℕ → ℕ) : Option (Except String (List Page)) :=
  (fillLinks ops x doHierarchy draw).map (fillPages x width doHierarchy)

end Fill

section Sizes

variable {dim : ℕ} {width : ElemWidth} {e : ElemDesc} {vec : Vec}

theorem itemPtrs_length (ptrs : List PgvItemPointer) :
    (ptrs.flatMap PgvItemPointer.bytes).length = ptrs.length * 6 := by
  induction ptrs with
  | nil => rfl
  | cons p ptrs ih =>
    rw [List.flatMap_cons, List.length_append, ih, List.length_cons, Nat.succ_mul, Nat.add_comm]
    rfl

theorem vectorBytes_length (hvec : vec.length = dim) :
    (vectorBytes width vec).length = dim * width.bytesPerDim := by
  subst hvec
  cases width with
  | vector =>
    simp only [vectorBytes, ElemWidth.bytesPerDim]
    induction vec with
    | nil => rfl
    | cons v vec ih =>
      rw [List.flatMap_cons, List.length_append, ih, List.length_cons, leBytes_length]
      omega
  | halfvec =>
    simp only [vectorBytes, ElemWidth.bytesPerDim]
    induction vec with
    | nil => rfl
    | cons v vec ih =>
      rw [List.flatMap_cons, List.length_append, ih, List.length_cons, leBytes_length]
      omega

theorem elemTuple_length (hvec : vec.length = dim) :
    (elemTuple dim width e vec).length = elemTupleSize dim width := by
  have hle := le_maxalign8 (72 + 8 + dim * width.bytesPerDim)
  simp only [elemTuple, List.length_append, leBytes_length, itemPtrs_length, List.length_cons,
    List.length_replicate, vectorBytes_length hvec, PgvItemPointer.bytes]
  unfold elemTupleSize
  omega

theorem neighTuple_length (elems : List ElemDesc) (m : ℕ) :
    (neighTuple elems e m).length = neighTupleSize e.level m := by
  have hle := le_maxalign8 (4 + (e.level + 2) * m * 6)
  simp only [neighTuple, List.length_append, leBytes_length, itemPtrs_length,
    neighborSlots_length, List.length_replicate]
  unfold neighTupleSize
  omega

end Sizes

section Written

variable {dim : ℕ} {width : ElemWidth} {m : ℕ} {allElems : List ElemDesc}

structure Page.Holds (page : Page) (size slot : ℕ) : Prop where
  count : page.items.length = 2 * slot
  lower : page.lower = 24 + 8 * slot
  upper : 8184 ≤ page.upper + slot * size

theorem newPage_holds (size : ℕ) : newPage.Holds size 0 where
  count := rfl
  lower := rfl
  upper := by simp [newPage]

def pairItems (dim : ℕ) (width : ElemWidth) (m : ℕ) (allElems : List ElemDesc)
    (p : ElemDesc × Vec) : List (List UInt8) :=
  [elemTuple dim width p.1 p.2, neighTuple allElems p.1 m]

theorem writeElemPair_ok {page : Page} {size slot k : ℕ} {p : ElemDesc × Vec}
    (hpage : page.Holds size slot) (hvec : p.2.length = dim)
    (hsize : elemTupleSize dim width + neighTupleSize p.1.level m ≤ size)
    (hfit : k * (size + 16) ≤ pgvUsableBytes) (hslot : slot < k)
    (heoff : p.1.elemOffno = 2 * slot + 1) (hnoff : p.1.neighOffno = 2 * slot + 2) :
    ∃ page', writeElemPair dim width m allElems page p = .ok page' ∧
      page'.Holds size (slot + 1) ∧
      page'.items = page.items ++ pairItems dim width m allElems p := by
  have hroom : (slot + 1) * (size + 16) ≤ pgvUsableBytes :=
    (Nat.mul_le_mul_right _ hslot).trans hfit
  have hbytes : (slot + 1) * (size + 16) = slot * size + size + 16 * slot + 16 := by
    rw [Nat.succ_mul, Nat.mul_add]
    omega
  rw [hbytes] at hroom
  have husable : pgvUsableBytes = 8160 := rfl
  have hupper := hpage.upper
  have hlower := hpage.lower
  have hcount := hpage.count
  have halign : maxalign8 (elemTuple dim width p.1 p.2).length = elemTupleSize dim width := by
    rw [elemTuple_length hvec]
    exact maxalign8_maxalign8 _
  have hnalign : maxalign8 (neighTuple allElems p.1 m).length = neighTupleSize p.1.level m := by
    rw [neighTuple_length]
    exact maxalign8_maxalign8 _
  -- both tuples fit between the bounds of the page, the second behind the first
  have helem : page.lower + 4 + elemTupleSize dim width ≤ page.upper := by omega
  have hneigh : page.lower + 4 + 4 + neighTupleSize p.1.level m
      ≤ page.upper - elemTupleSize dim width := by omega
  have hoff : page.items.length + 1 = p.1.elemOffno := by omega
  have hoff' : (page.items ++ [elemTuple dim width p.1 p.2]).length + 1 = p.1.neighOffno := by
    rw [List.length_append, List.length_singleton]
    omega
  simp only [writeElemPair, pageAddItem, halign, if_pos helem, hoff, ne_eq, not_true_eq_false,
    if_false, hnalign, if_pos hneigh, hoff']
  refine ⟨_, rfl, ⟨?_, ?_, ?_⟩, ?_⟩
  · simp only [List.length_append, List.length_singleton]
    omega
  · simp only
    omega
  · have hsucc : (slot + 1) * size = slot * size + size := Nat.succ_mul slot size
    simp only [hsucc]
    omega
  · rw [pairItems, List.append_assoc]
    rfl

theorem writeElemPairs_ok {page : Page} {size slot k : ℕ} (pairs : List (ElemDesc × Vec))
    (hpage : page.Holds size slot) (hvec : ∀ p ∈ pairs, p.2.length = dim)
    (hsize : ∀ p ∈ pairs, elemTupleSize dim width + neighTupleSize p.1.level m ≤ size)
    (hfit : k * (size + 16) ≤ pgvUsableBytes) (hslot : slot + pairs.length ≤ k)
    (hoff : ∀ j p, pairs[j]? = some p →
      p.1.elemOffno = 2 * (slot + j) + 1 ∧ p.1.neighOffno = 2 * (slot + j) + 2) :
    ∃ page', writeElemPairs dim width m allElems page pairs = .ok page' ∧
      page'.items = page.items ++ pairs.flatMap (pairItems dim width m allElems) := by
  induction pairs generalizing page slot with
  | nil => exact ⟨page, rfl, (List.append_nil _).symm⟩
  | cons p rest ih =>
    rw [List.length_cons] at hslot
    obtain ⟨heoff, hnoff⟩ := hoff 0 p rfl
    obtain ⟨page', hwrite, hpage', hitems⟩ := writeElemPair_ok hpage
      (hvec p List.mem_cons_self) (hsize p List.mem_cons_self) hfit (by omega) heoff hnoff
    obtain ⟨page'', hwrite', hitems'⟩ := ih hpage'
      (fun q hq => hvec q (List.mem_cons_of_mem p hq))
      (fun q hq => hsize q (List.mem_cons_of_mem p hq)) (by omega) fun j q hq => by
        have := hoff (j + 1) q hq
        omega
    rw [writeElemPairs, hwrite]
    refine ⟨page'', hwrite', ?_⟩
    rw [hitems', hitems, List.flatMap_cons, List.append_assoc]

theorem flatMap_pair_getElem? {α β : Type} (f g : α → β) (xs : List α) {j : ℕ} {a : α}
    (h : xs[j]? = some a) :
    (xs.flatMap fun b => [f b, g b])[2 * j]? = some (f a) ∧
      (xs.flatMap fun b => [f b, g b])[2 * j + 1]? = some (g a) := by
  induction xs generalizing j with
  | nil => exact nomatch h
  | cons b xs ih =>
    cases j with
    | zero =>
      obtain rfl : b = a := Option.some.inj h
      exact ⟨rfl, rfl⟩
    | succ j => exact ih h

def PairAt (k : ℕ) (allElems : List ElemDesc) (dim : ℕ) (width : ElemWidth) (m : ℕ)
    (pages : List Page) (j : ℕ) (p : ElemDesc × Vec) : Prop :=
  ∃ page, pages[j / k]? = some page ∧
    page.items[2 * (j % k)]? = some (elemTuple dim width p.1 p.2) ∧
    page.items[2 * (j % k) + 1]? = some (neighTuple allElems p.1 m)

/-- As many pages as it takes, and every pair where the layout pass has put it. -/
theorem writeElemPagesPacked_ok {size k fuel : ℕ} (pairs : List (ElemDesc × Vec)) (hk : 0 < k)
    (hfuel : pairs.length ≤ fuel) (hvec : ∀ p ∈ pairs, p.2.length = dim)
    (hsize : ∀ p ∈ pairs, elemTupleSize dim width + neighTupleSize p.1.level m ≤ size)
    (hfit : k * (size + 16) ≤ pgvUsableBytes)
    (hoff : ∀ j p, pairs[j]? = some p →
      p.1.elemOffno = 2 * (j % k) + 1 ∧ p.1.neighOffno = 2 * (j % k) + 2) :
    ∃ pages, writeElemPagesPacked dim width m allElems k fuel pairs = .ok pages ∧
      pages.length = (pairs.length + (k - 1)) / k ∧
      ∀ j p, pairs[j]? = some p → PairAt k allElems dim width m pages j p := by
  induction fuel generalizing pairs with
  | zero =>
    obtain rfl : pairs = [] := List.length_eq_zero_iff.mp (Nat.le_zero.mp hfuel)
    refine ⟨[], rfl, ?_, fun j p hp => nomatch hp⟩
    rw [List.length_nil, List.length_nil, Nat.zero_add, Nat.div_eq_of_lt (by omega)]
  | succ fuel ih =>
    cases pairs with
    | nil =>
      refine ⟨[], rfl, ?_, fun j p hp => nomatch hp⟩
      rw [List.length_nil, List.length_nil, Nat.zero_add, Nat.div_eq_of_lt (by omega)]
    | cons q rest =>
      generalize hpairs : q :: rest = pairs at *
      have hpos : 0 < pairs.length := by
        rw [← hpairs]
        exact Nat.succ_pos _
      -- the first `k` pairs fill one page and the rest follow by induction
      have hfirst : ∀ j p, (pairs.take k)[j]? = some p →
          p.1.elemOffno = 2 * (0 + j) + 1 ∧ p.1.neighOffno = 2 * (0 + j) + 2 := by
        intro j p hp
        rw [List.getElem?_take] at hp
        split_ifs at hp with hj
        rw [Nat.zero_add]
        have := hoff j p hp
        rwa [Nat.mod_eq_of_lt hj] at this
      obtain ⟨page, hpage, hitems⟩ := writeElemPairs_ok (pairs.take k) (newPage_holds size)
        (fun p hp => hvec p (List.mem_of_mem_take hp))
        (fun p hp => hsize p (List.mem_of_mem_take hp)) hfit
        (by rw [List.length_take]; omega) hfirst
      obtain ⟨pages, hpages, hlen, hat⟩ := ih (pairs.drop k) (by rw [List.length_drop]; omega)
        (fun p hp => hvec p (List.mem_of_mem_drop hp))
        (fun p hp => hsize p (List.mem_of_mem_drop hp)) fun j p hp => by
          rw [List.getElem?_drop] at hp
          have := hoff (k + j) p hp
          rwa [Nat.add_mod_left] at this
      have hstep : writeElemPagesPacked dim width m allElems k (fuel + 1) pairs
          = .ok (page :: pages) := by
        rw [← hpairs, writeElemPagesPacked, hpairs, hpage, hpages]
      refine ⟨page :: pages, hstep, ?_, fun j p hp => ?_⟩
      · rw [List.length_cons, hlen, List.length_drop]
        rcases Nat.lt_or_ge pairs.length k with hlt | hge
        · have hzero : pairs.length - k = 0 := by omega
          rw [hzero, Nat.zero_add, Nat.div_eq_of_lt (by omega : k - 1 < k)]
          refine (Nat.div_eq_of_lt_le ?_ ?_).symm
          · omega
          · omega
        · have hsplit : pairs.length + (k - 1) = pairs.length - k + (k - 1) + k := by omega
          rw [hsplit, Nat.add_div_right _ hk]
      · rcases Nat.lt_or_ge j k with hj | hj
        · have hp' : (pairs.take k)[j]? = some p := by rwa [List.getElem?_take_of_lt hj]
          obtain ⟨helem, hneigh⟩ := flatMap_pair_getElem?
            (fun p : ElemDesc × Vec => elemTuple dim width p.1 p.2)
            (fun p => neighTuple allElems p.1 m) _ hp'
          refine ⟨page, by rw [Nat.div_eq_of_lt hj]; rfl, ?_, ?_⟩
          · rw [hitems, Nat.mod_eq_of_lt hj]
            exact helem
          · rw [hitems, Nat.mod_eq_of_lt hj]
            exact hneigh
        · have hp' : (pairs.drop k)[j - k]? = some p := by
            rw [List.getElem?_drop, Nat.add_sub_cancel' hj]
            exact hp
          obtain ⟨page', hblock, helem, hneigh⟩ := hat (j - k) p hp'
          have hdiv : j / k = (j - k) / k + 1 := by
            rw [← Nat.add_div_right _ hk, Nat.sub_add_cancel hj]
          have hmod : j % k = (j - k) % k := by
            rw [← Nat.add_mod_right (j - k) k, Nat.sub_add_cancel hj]
          rw [PairAt, hdiv, hmod]
          exact ⟨page', hblock, helem, hneigh⟩

/-- One pair a page is the packed layout with `k = 1`. -/
theorem writeElemPages_eq_packed (pairs : List (ElemDesc × Vec)) (fuel : ℕ)
    (hfuel : pairs.length ≤ fuel) :
    writeElemPages dim width m allElems pairs
      = writeElemPagesPacked dim width m allElems 1 fuel pairs := by
  induction pairs generalizing fuel with
  | nil => cases fuel <;> rfl
  | cons p rest ih =>
    cases fuel with
    | zero => simp at hfuel
    | succ fuel =>
      rw [writeElemPages, writeElemPagesPacked, ih fuel (Nat.le_of_succ_le_succ hfuel)]
      simp only [List.take_succ_cons, List.take_zero, List.drop_succ_cons, List.drop_zero,
        writeElemPairs, writeElemPage]
      cases writeElemPair dim width m allElems newPage p <;> rfl

end Written

end PgCuvs
