import PgCuvs.Export.Source
import PgCuvs.Library.Traced
import PgCuvs.Sidecar

/-! Filling a target index from the hnswlib sidecar. The parser's reads of its buffers, its
size computations on machine integers and the pages it writes are recorded. -/

namespace PgCuvs

namespace Hnswlib

open Records Traced

section Machine

def cSize (z : ℤ) : ℕ := (z % 2 ^ 64).toNat

def cInt (z : ℤ) : ℤ := z.bmod (2 ^ 32)

def cLong (z : ℤ) : ℤ := z.bmod (2 ^ 64)

end Machine

section Input

structure HnswlibHeader where
  offsetLevel0 : ℕ
  maxElements : ℕ
  curElementCount : ℕ
  sizeDataPerElement : ℕ
  labelOffset : ℕ
  offsetData : ℕ
  maxlevel : ℤ
  enterpointNode : ℤ
  maxM : ℕ
  maxM0 : ℕ
  M : ℕ
  /-- the bits of a `double` -/
  mult : ℕ
  efConstruction : ℕ
deriving DecidableEq, Inhabited

def readHnswlibHeader : Reader HnswlibHeader := do
  let offsetLevel0 ← nat 8
  let maxElements ← nat 8
  let curElementCount ← nat 8
  let sizeDataPerElement ← nat 8
  let labelOffset ← nat 8
  let offsetData ← nat 8
  let maxlevel ← nat 4
  let enterpointNode ← nat 4
  let maxM ← nat 8
  let maxM0 ← nat 8
  let M ← nat 8
  let mult ← nat 8
  let efConstruction ← nat 8
  pure
    { offsetLevel0, maxElements, curElementCount, sizeDataPerElement, labelOffset, offsetData,
      maxlevel := cInt maxlevel, enterpointNode := cInt enterpointNode, maxM, maxM0, M, mult,
      efConstruction }

structure HnswRelation where
  relname : String
  isIndex : Bool
  isHnsw : Bool
  column : Option (Int32 × String)
  metric : Metric

/-- What a fill reads: the catalog, the stream and the `.tids` file. -/
structure Sidecar where
  pgvector : Bool
  cagraOid : Oid
  /-- of the source's first column -/
  atttypmod : Int32
  hnswOid : Oid
  target : Option HnswRelation
  stream : List UInt8
  /-- A file's offsets are `off_t`. -/
  stream_lt : stream.length < 2 ^ 63
  tids : TidsFile

end Input

section Trace

inductive Field where
  | linkCount
  | links
  | label
  | vector
deriving DecidableEq

inductive Event where
  /-- The bytes `pos ..< pos + len` of the stream are taken for a field of element `elem`. -/
  | access (elem : ℕ) (field : Field) (pos len : ℕ)
  /-- The bytes `off ..< off + len` of an upper link buffer of `size` bytes are read. -/
  | upper (off len size : ℕ)
  /-- A size that should be `intended` is `computed`. -/
  | size (intended computed : ℤ)
  | metaPage
  /-- A page is written with an element of this level. -/
  | elemPage (level : ℕ)
deriving DecidableEq

def Event.IsPage : Event → Prop
  | .metaPage => True
  | .elemPage _ => True
  | _ => False

/-- The function raises an error, or it leaves what C defines. -/
inductive Stop where
  | error (msg : String)
  | fault

abbrev Fill := Traced Event Stop

def sized (intended computed : ℤ) : Fill Unit := emit (.size intended computed)

def raise {α : Type} (msg : String) : Fill α := stop (.error msg)

def raiseUnless (c : Prop) [Decidable c] (msg : String) : Fill Unit := require c (.error msg)

def ofChecked {α : Type} : Except String α → Fill α
  | .ok a => pure a
  | .error msg => raise msg

end Trace

section Geometry

variable (dim : ℕ) (width : ElemWidth)

def aligned (n : ℕ) : ℕ := n / 8 * 8

def elemTupleSize : Fill ℕ := do
  let bytes := cSize (72 + 8 + dim * width.bytesPerDim + 7)
  sized (72 + 8 + dim * width.bytesPerDim + 7) bytes
  pure (aligned bytes)

/-- `neigh_tuple_size`: the count is an `int`, and the tuple's size a `size_t`. -/
def neighTupleSize (level m : ℤ) : Fill ℕ := do
  let count := cSize (cInt (cInt (level + 2) * m))
  sized ((level + 2) * m) count
  let bytes := cSize (4 + count * 6 + 7)
  sized (4 + count * 6 + 7) bytes
  pure (aligned bytes)

def elemsPerPage (m level : ℤ) : Fill (ℕ × ℕ) := do
  raiseUnless (0 < dim) s!"pg_cuvs: target index column has no fixed dimension (dim={dim}) — cannot size-check the HNSW page layout"
  let esize ← elemTupleSize dim width
  let nsize ← neighTupleSize level m
  let needed := cSize (esize + 2 * 4 + nsize + 2 * 4)
  sized (esize + 2 * 4 + nsize + 2 * 4) needed
  -- Nothing guards the division.
  require (needed ≠ 0) .fault
  pure (pgvUsableBytes / needed, needed)

def checkHnswPageFit (m maxlevel : ℤ) : Fill Unit := do
  let (fit, needed) ← elemsPerPage dim width m maxlevel
  raiseUnless (1 ≤ fit) s!"pg_cuvs: element+neighbor tuple pair too large for one page: needed={needed}, available={pgvUsableBytes} (dim={dim}, bytes_per_dim={width.bytesPerDim}, maxlevel={maxlevel}, M={m})"

end Geometry

section Parse

def bytesPerDimForTypid (typname : String) : Except String ElemWidth :=
  if typname = "halfvec" then .ok .halfvec
  else if typname = "vector" then .ok .vector
  else .error s!"pg_cuvs: target index column type (typname=\"{typname}\") is neither vector nor halfvec"

variable (x : Sidecar)

def Sidecar.dim : ℕ := x.atttypmod.toInt.toNat

/-- Steps 0 to 1b, on the catalog. -/
def Sidecar.targetChecks : Except String (ElemWidth × Metric) :=
  if !x.pgvector then
    .error "pg_cuvs: pgvector extension is not installed; pg_cuvs_build_hnsw requires pgvector 0.5.0+"
  else if x.atttypmod.toInt ≤ 0 then
    .error s!"pg_cuvs: cannot determine vector dimension from cagra index {x.cagraOid}; atttypmod={x.atttypmod.toInt}"
  else
    match x.target with
    | none => .error s!"pg_cuvs: target relation with OID {x.hnswOid} not found"
    | some rel =>
      if !rel.isIndex then .error s!"pg_cuvs: \"{rel.relname}\" is not an index"
      else if !rel.isHnsw then
        .error s!"pg_cuvs: index \"{rel.relname}\" is not a pgvector HNSW index; pg_cuvs_build_hnsw requires USING hnsw"
      else
        match rel.column with
        | none => .ok (.vector, rel.metric)
        | some (typmod, typname) => do
          let width ← bytesPerDimForTypid typname
          if 0 < typmod.toInt ∧ typmod.toInt ≠ x.dim then
            .error s!"pg_cuvs: dimension mismatch: source CAGRA index has dim={x.dim} but target HNSW index \"{rel.relname}\" has dim={typmod.toInt}"
          else .ok (width, rel.metric)

/-- Step 3. -/
def Sidecar.parseHeader : Fill HnswlibHeader :=
  match readHnswlibHeader x.stream with
  | none => raise "pg_cuvs: short read on .hnsw header"
  | some (hdr, _) => do
    sized hdr.M (cInt hdr.M)
    sized hdr.maxM0 (cInt hdr.maxM0)
    raiseUnless (hdr.curElementCount ≠ 0) "pg_cuvs: .hnsw sidecar is empty (N=0)"
    raiseUnless (0 < cInt hdr.M ∧ 0 < cInt hdr.maxM0)
      s!"pg_cuvs: invalid M={cInt hdr.M} M0={cInt hdr.maxM0} in .hnsw header"
    pure hdr

def HnswlibHeader.m (hdr : HnswlibHeader) : ℕ := (cInt hdr.M).toNat

def HnswlibHeader.m0 (hdr : HnswlibHeader) : ℕ := (cInt hdr.maxM0).toNat

/-- Step 4. -/
def Sidecar.parseTids (hdr : HnswlibHeader) (metric : Metric) : Fill (TidsHeader × List Tid) :=
  match cuvsTidsRead x.tids with
  | none => raise "pg_cuvs: failed to read/validate .tids sidecar"
  | some (tidsHdr, tids) => do
    raiseUnless (hdr.curElementCount ≤ tidsHdr.nVecs)
      s!"pg_cuvs: .tids has {tidsHdr.nVecs} entries but .hnsw has {hdr.curElementCount} elements"
    raiseUnless (metric = tidsHdr.metric)
      s!"pg_cuvs: metric mismatch: source CAGRA uses {tidsHdr.metric.sqlName} but target HNSW opclass uses {metric.sqlName}"
    pure (tidsHdr, tids)

def intsOf (bytes : List UInt8) (count : ℕ) : List ℤ :=
  (List.range count).map fun s => cInt (wordAt 4 (4 * s) bytes)

/-- A count outside `0..max` is taken as no links. -/
def linkCount (bytes : List UInt8) (max : ℕ) : ℕ :=
  let count := cInt (leNat bytes)
  if count < 0 ∨ max < count then 0 else count.toNat

/-- The level-0 block follows the header in the stream. -/
def readSlot (block : List UInt8) (i : ℕ) (field : Field) (off len : ℕ) : Fill (List UInt8) := do
  emit (.access i field (96 + off) len)
  require (off + len ≤ block.length) .fault
  pure ((block.drop off).take len)

/-- Step 6, one element. -/
def parseElem (hdr : HnswlibHeader) (tidsHdr : TidsHeader) (tids : List Tid) (block : List UInt8)
    (i : ℕ) : Fill ElemDesc := do
  let base := cSize (i * hdr.sizeDataPerElement)
  sized (i * hdr.sizeDataPerElement) base
  let lv0ptr := base + hdr.offsetLevel0
  let count ← readSlot block i .linkCount lv0ptr 4
  let bytes := cSize (hdr.m0 * 4)
  sized (hdr.m0 * 4) bytes
  let links ← readSlot block i .links (lv0ptr + 4) bytes
  let label ← readSlot block i .label (base + hdr.labelOffset) 8
  raiseUnless (leNat label < tidsHdr.nVecs)
    s!"pg_cuvs: .hnsw element {i} has label {leNat label} but .tids has only {tidsHdr.nVecs} entries"
  pure
    { level := 0
      tidEncoded := tids.getD (leNat label) 0
      lv0Links := (intsOf links hdr.m0).take (linkCount count hdr.m0)
      upperLinks := []
      elemBlkno := 0
      elemOffno := 0
      neighBlkno := 0
      neighOffno := 0 }

/-- Steps 5 and 6. -/
def Sidecar.parseLevel0 (hdr : HnswlibHeader) (tidsHdr : TidsHeader) (tids : List Tid) :
    Fill (List ElemDesc) := do
  let lv0BlockBytes := cSize (hdr.curElementCount * hdr.sizeDataPerElement)
  sized (hdr.curElementCount * hdr.sizeDataPerElement) lv0BlockBytes
  raiseUnless (96 + lv0BlockBytes ≤ x.stream.length) "pg_cuvs: short read on level-0 block"
  let block := (x.stream.drop 96).take lv0BlockBytes
  visitAll (parseElem hdr tidsHdr tids block) (List.range hdr.curElementCount)

def readUpper (llbuf : List UInt8) (off len : ℕ) : Fill (List UInt8) := do
  emit (.upper off len llbuf.length)
  require (off + len ≤ llbuf.length) .fault
  pure ((llbuf.drop off).take len)

/-- A level's links; the levels before it are read through. -/
def parseUpperLevel (m : ℕ) (llbuf : List UInt8) (lvIdx : ℕ) : Fill (List ℤ) := do
  let p := lvIdx * (4 + m * 4)
  let lcount ← readUpper llbuf p 4
  let bytes := cSize (m * 4)
  sized (m * 4) bytes
  let links ← readUpper llbuf (p + 4) bytes
  pure ((intsOf links m).take (linkCount lcount m))

def linkListSize (stream : List UInt8) (pos : ℕ) : ℕ := wordAt 4 pos stream

def Sidecar.parseUpperElem (m i pos : ℕ) (e : ElemDesc) : Fill ElemDesc := do
  let sizeLinksPerElement := cSize ((m + 1) * 4)
  sized ((m + 1) * 4) sizeLinksPerElement
  raiseUnless (pos + 4 ≤ x.stream.length)
    s!"pg_cuvs: short read on upper-level size for element {i}"
  let llsize := linkListSize x.stream pos
  let elemLevel := cInt (llsize / sizeLinksPerElement : ℕ)
  sized (llsize / sizeLinksPerElement : ℕ) elemLevel
  if elemLevel ≤ 0 then
    -- Nothing follows the size, or what follows is skipped with `fseek`.
    pure e
  else do
    raiseUnless (pos + 4 + llsize ≤ x.stream.length)
      s!"pg_cuvs: short read on upper links for element {i}"
    let llbuf := (x.stream.drop (pos + 4)).take llsize
    let upperLinks ← visitAll (parseUpperLevel m llbuf) (List.range elemLevel.toNat)
    pure { e with level := elemLevel.toNat, upperLinks }

/-- Where the part of an element starts: one before it is its size field and as many bytes. -/
def upperPos (stream : List UInt8) (start : ℕ) : ℕ → ℕ
  | 0 => start
  | i + 1 => upperPos stream start i + 4 + linkListSize stream (upperPos stream start i)

/-- Step 7. -/
def Sidecar.parseUpper (m start : ℕ) (elems : List ElemDesc) : Fill (List ElemDesc) :=
  visitAll (fun (e, i) => x.parseUpperElem m i (upperPos x.stream start i) e) elems.zipIdx

structure Parsed where
  width : ElemWidth
  hdr : HnswlibHeader
  elems : List ElemDesc

/-- Steps 0 to 9: what comes before the target is truncated. -/
def Sidecar.parse : Fill Parsed := do
  let (width, metric) ← ofChecked x.targetChecks
  let hdr ← x.parseHeader
  let (tidsHdr, tids) ← x.parseTids hdr metric
  let elems ← x.parseLevel0 hdr tidsHdr tids
  let start := 96 + cSize (hdr.curElementCount * hdr.sizeDataPerElement)
  let elems ← x.parseUpper hdr.m start elems
  checkHnswPageFit x.dim width hdr.m hdr.maxlevel
  -- The stream is opened again, and this offset is taken for the block's.
  raiseUnless (0 ≤ cLong hdr.offsetLevel0) "pg_cuvs: fseek failed on re-opened .hnsw"
  pure { width, hdr, elems := layoutPass 1 elems }

end Parse

section Write

variable (x : Sidecar)

def Sidecar.hnswMeta (p : Parsed) : PgvHnswMeta :=
  let base : PgvHnswMeta :=
    { magicNumber := 0xA953A953
      version := 1
      dimensions := x.dim
      m := p.hdr.m % 2 ^ 16
      efConstruction := p.hdr.efConstruction % 2 ^ 16
      entryBlkno := 0xFFFFFFFF
      entryOffno := 0
      entryLevel := 0xFFFF
      insertPage := p.hdr.curElementCount % 2 ^ 32 }
  if 0 ≤ p.hdr.enterpointNode then
    match p.elems[p.hdr.enterpointNode.toNat]? with
    | some e =>
      { base with
        entryBlkno := e.elemBlkno
        entryOffno := e.elemOffno
        entryLevel := e.level % 2 ^ 16 }
    | none => base
  else base

def maxAllocSize : ℕ := 0x3fffffff

/-- Step 12, one element. -/
def Sidecar.writeElem (p : Parsed) (i : ℕ) (e : ElemDesc) : Fill Page := do
  let elem := cSize (i * p.hdr.sizeDataPerElement)
  sized (i * p.hdr.sizeDataPerElement) elem
  sized p.hdr.offsetLevel0 (cLong p.hdr.offsetLevel0)
  sized elem (cLong elem)
  sized p.hdr.offsetData (cLong p.hdr.offsetData)
  let elemOffset :=
    cLong (96 + cLong p.hdr.offsetLevel0 + cLong elem + cLong p.hdr.offsetData)
  sized (96 + cLong p.hdr.offsetLevel0 + cLong elem + cLong p.hdr.offsetData) elemOffset
  raiseUnless (0 ≤ elemOffset) s!"pg_cuvs: fseek to vector for element {i} failed"
  let pos := elemOffset.toNat
  emit (.access i .vector pos (x.dim * 4))
  raiseUnless (pos + x.dim * 4 ≤ x.stream.length)
    s!"pg_cuvs: short read on vector for element {i}"
  let vec := (List.range x.dim).map fun k => UInt32.ofNat (wordAt 4 (pos + 4 * k) x.stream)
  let _ ← elemTupleSize x.dim p.width
  let nsize ← neighTupleSize e.level p.hdr.m
  raiseUnless (nsize ≤ maxAllocSize) s!"invalid memory alloc request size {nsize}"
  -- The slots of a count that wrapped would not lie in the tuple.
  require (nsize = PgCuvs.neighTupleSize e.level p.hdr.m) .fault
  let page ← ofChecked (writeElemPage x.dim p.width p.hdr.m p.elems (e, vec))
  emit (.elemPage e.level)
  pure page

/-- Steps 10 to 12, in the truncated target. -/
def Sidecar.write (p : Parsed) : Fill (List Page) := do
  emit .metaPage
  let pages ← visitAll (fun (e, i) => x.writeElem p i e) p.elems.zipIdx
  pure (metaPage (x.hnswMeta p) :: pages)

/-- `fill_hnsw_from_hnswlib_impl`; memory is there when it is asked for. -/
def Sidecar.fillHnswFromHnswlib : Fill (List Page) := do
  let parsed ← x.parse
  x.write parsed

end Write

end Hnswlib

end PgCuvs
