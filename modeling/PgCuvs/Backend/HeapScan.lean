import PgCuvs.Build.Handle

/-! CREATE INDEX scans the heap into vectors followed by TIDs, in one process or by the leader
and its workers into a segment each. The daemon maps the segments and takes the two regions
apart again. -/

namespace PgCuvs

/-- What `table_index_build_scan` hands to the callback; a NULL has no value. -/
structure HeapTuple where
  block : UInt32
  offset : UInt16
  value : Option Vec
  alive : Bool
deriving DecidableEq, Repr

structure CuvsBuildState where
  dim : ℕ
  nVecs : ℕ
  nAllocated : ℕ
  vectors : List UInt32
  tids : List Tid
deriving DecidableEq, Repr

def CuvsBuildState.start (dim nAllocated : ℕ) : CuvsBuildState := ⟨dim, 0, nAllocated, [], []⟩

def corpusBytes (n dim : ℕ) : ℕ := n * dim * 4 + n * 8

/-- `none` is the ERROR of the build memory limit; a limit of 0 is none. -/
def growBuildBuffers (capBytes : ℕ) (bs : CuvsBuildState) : Option CuvsBuildState :=
  let newSize := max (bs.nAllocated * 2) 64
  if 0 < capBytes ∧ capBytes < corpusBytes newSize bs.dim then none
  else some { bs with nAllocated := newSize }

def cuvsBuildCallback (capBytes : ℕ) (bs : CuvsBuildState) (t : HeapTuple) :
    Option CuvsBuildState :=
  if !t.alive then some bs
  else
    match t.value with
    | none => some bs
    | some vec =>
      if bs.dim ≠ 0 ∧ vec.length ≠ bs.dim then some bs
      else
        -- a column without a dimension takes that of its first vector
        let bs := if bs.dim = 0 then { bs with dim := vec.length } else bs
        let grown := if bs.nAllocated ≤ bs.nVecs then growBuildBuffers capBytes bs else some bs
        grown.map fun bs =>
          { bs with
            vectors := bs.vectors ++ vec
            tids := bs.tids ++ [cuvsTidEncode t.block.toNat t.offset.toNat]
            nVecs := bs.nVecs + 1 }

def tableIndexBuildScan (capBytes : ℕ) (bs : CuvsBuildState) (tuples : List HeapTuple) :
    Option CuvsBuildState :=
  tuples.foldlM (cuvsBuildCallback capBytes) bs

def CuvsBuildState.bytes (bs : CuvsBuildState) : List UInt8 :=
  (bs.vectors.flatMap fun x => leBytes 4 x.toNat) ++ tidBytes bs.tids

def mapCorpus (bytes : List UInt8) (nVecs dim : ℕ) : Segment where
  tid i := Records.wordAt 8 (nVecs * dim * 4 + i * 8) bytes
  vec i := (List.range dim).map fun j =>
    UInt32.ofNat (Records.wordAt 4 ((i * dim + j) * 4) bytes)

/-- A partial is mapped when it has exactly the size of its rows. -/
def mapPartial (bytes : List UInt8) (nVecs dim : ℕ) : Except PartialFault Segment :=
  if bytes.length = corpusBytes nVecs dim then .ok (mapCorpus bytes nVecs dim)
  else .error .sizeMismatch

structure CuvsPartialSlot where
  nVecs : ℕ
  shm : Option (List UInt8)
deriving DecidableEq, Repr

def cuvsScanShmPartial (capBytes dim : ℕ) (share : List HeapTuple) : Option CuvsPartialSlot :=
  (tableIndexBuildScan capBytes (.start dim 64) share).map fun bs =>
    if 0 < bs.nVecs then ⟨bs.nVecs, some bs.bytes⟩ else ⟨0, none⟩

/-- An empty share is not handed on. -/
def CuvsPartialSlot.desc (dim : ℕ) (slot : CuvsPartialSlot) : Option PartialDesc :=
  if slot.nVecs = 0 then none
  else slot.shm.map fun bytes => ⟨slot.nVecs, true, mapPartial bytes slot.nVecs dim⟩

structure HeapBuildInfo where
  key : Key
  metric : Metric
  shardCount : ℕ
  useCpuHnsw : Bool
  graphDegree : ℕ
  indexDir : Dir
  /-- the declared dimension; not positive when there is none -/
  typmod : ℤ
  reltuples : ℤ
  concurrent : Bool
  /-- 0 when there is no limit -/
  capBytes : ℕ
  /-- the corpus could be opened in memory that the daemon can map -/
  opened : Bool

def HeapBuildInfo.dim (info : HeapBuildInfo) : ℕ := info.typmod.toNat

def HeapBuildInfo.frame (info : HeapBuildInfo) (nVecs dim nPartials : ℕ) : BuildFrame where
  key := info.key
  nVecs := nVecs
  dim := dim
  metric := info.metric
  nPartials := nPartials
  shardCount := info.shardCount
  graphDegree := info.graphDegree
  useCpuHnsw := info.useCpuHnsw
  pqDim := 0
  pqBits := 0

inductive HeapBuild where
  /-- ERROR: the corpus exceeds the build memory limit -/
  | overLimit
  | empty
  | sent (nVecs : ℕ) (x : Effect)

section Build

variable (cfg : Config) (env : Env) (benv : BuildEnv) (d : Daemon) (info : HeapBuildInfo)

/-- `shares` are the tuples of the workers and, last, of the leader. -/
def cuvsBuildParallel (shares : List (List HeapTuple)) : HeapBuild :=
  match shares.mapM (cuvsScanShmPartial info.capBytes info.dim) with
  | none => .overLimit
  | some slots =>
    let total := (slots.map CuvsPartialSlot.nVecs).sum
    if total = 0 then .empty
    else
      let descs := slots.filterMap (CuvsPartialSlot.desc info.dim)
      .sent total
        (handleBuild cfg env benv d (info.frame total info.dim descs.length)
          ⟨some info.indexDir, .error .openFailed, some descs⟩)

def cuvsBuildSingle (tuples : List HeapTuple) : HeapBuild :=
  let start : CuvsBuildState :=
    if 0 < info.typmod ∧ info.opened then .start info.dim (max info.reltuples.toNat 64)
    else .start 0 0
  match tableIndexBuildScan info.capBytes start tuples with
  | none => .overLimit
  | some bs =>
    if bs.nVecs = 0 then .empty
    else
      .sent bs.nVecs
        (handleBuild cfg env benv d (info.frame bs.nVecs bs.dim 0)
          ⟨some info.indexDir, .ok (mapCorpus bs.bytes bs.nVecs bs.dim), none⟩)

/-- `shares` is how the workers divide the heap, if there are any. -/
def cuvsBuildCagraFromHeap (tuples : List HeapTuple) (shares : Option (List (List HeapTuple))) :
    HeapBuild :=
  if 0 < info.capBytes ∧ 0 < info.typmod ∧ 0 < info.reltuples ∧
      info.capBytes < corpusBytes info.reltuples.toNat info.dim then
    .overLimit
  else if 0 < info.typmod ∧ !info.concurrent then
    match shares with
    | some shares => cuvsBuildParallel cfg env benv d info shares
    | none => cuvsBuildSingle cfg env benv d info tuples
  else cuvsBuildSingle cfg env benv d info tuples

end Build

section Rows

def HeapTuple.row (dim : ℕ) (t : HeapTuple) : Option (Tid × Vec) :=
  if t.alive then
    (t.value.filter fun vec => vec.length = dim).map fun vec =>
      (cuvsTidEncode t.block.toNat t.offset.toNat, vec)
  else none

def indexedRows (dim : ℕ) (tuples : List HeapTuple) : List (Tid × Vec) :=
  tuples.filterMap (HeapTuple.row dim)

structure CuvsBuildState.Holds (dim : ℕ) (rows : List (Tid × Vec)) (bs : CuvsBuildState) :
    Prop where
  declared : bs.dim = dim ∨ bs.dim = 0 ∧ rows = []
  nVecs : bs.nVecs = rows.length
  vectors : bs.vectors = rows.flatMap Prod.snd
  tids : bs.tids = rows.map Prod.fst
  width : ∀ r ∈ rows, r.2.length = dim
  encoded : ∀ r ∈ rows, r.1 < 2 ^ 64

variable {dim capBytes : ℕ} {rows : List (Tid × Vec)} {bs bs' : CuvsBuildState} {t : HeapTuple}

theorem CuvsBuildState.Holds.start {first n : ℕ} (h : first = dim ∨ first = 0) :
    (CuvsBuildState.start first n).Holds dim [] where
  declared := h.imp id fun hzero => ⟨hzero, rfl⟩
  nVecs := rfl
  vectors := rfl
  tids := rfl
  width := fun _ hr => (nomatch hr)
  encoded := fun _ hr => (nomatch hr)

theorem growBuildBuffers_eq_some (h : growBuildBuffers capBytes bs = some bs') :
    ∃ n, bs' = { bs with nAllocated := n } := by
  simp only [growBuildBuffers, Option.ite_none_left_eq_some, Option.some.injEq] at h
  exact ⟨_, h.2.symm⟩

theorem cuvsBuildCallback_cases (h : cuvsBuildCallback capBytes bs t = some bs') :
    (bs' = bs ∧ ∀ vec, t.alive = true → t.value = some vec → bs.dim ≠ 0 ∧ vec.length ≠ bs.dim) ∨
    ∃ vec n, t.alive = true ∧ t.value = some vec ∧ (bs.dim = 0 ∨ vec.length = bs.dim) ∧
      bs' = ⟨vec.length, bs.nVecs + 1, n, bs.vectors ++ vec,
        bs.tids ++ [cuvsTidEncode t.block.toNat t.offset.toNat]⟩ := by
  unfold cuvsBuildCallback at h
  by_cases hdead : (!t.alive) = true
  · rw [if_pos hdead] at h
    refine .inl ⟨(Option.some.inj h).symm, fun vec halive => ?_⟩
    simp [halive] at hdead
  · rw [if_neg hdead] at h
    have halive : t.alive = true := by simpa using hdead
    rcases hvalue : t.value with _ | vec
    · rw [hvalue] at h
      exact .inl ⟨(Option.some.inj h).symm, fun vec _ hvec => nomatch hvec⟩
    · rw [hvalue] at h
      simp only at h
      by_cases hskip : bs.dim ≠ 0 ∧ vec.length ≠ bs.dim
      · rw [if_pos hskip] at h
        refine .inl ⟨(Option.some.inj h).symm, fun vec' _ hvec => ?_⟩
        cases hvec
        exact hskip
      · rw [if_neg hskip] at h
        have hdim : bs.dim = 0 ∨ vec.length = bs.dim := by
          by_contra hne
          exact hskip (not_or.mp hne)
        have hset : (if bs.dim = 0 then { bs with dim := vec.length } else bs)
            = { bs with dim := vec.length } := by
          split_ifs with hzero
          · rfl
          · rw [hdim.resolve_left hzero]
        rw [hset] at h
        obtain ⟨grown, hgrown, rfl⟩ := Option.map_eq_some_iff.mp h
        refine .inr ⟨vec, grown.nAllocated, halive, rfl, hdim, ?_⟩
        split_ifs at hgrown
        · obtain ⟨n, rfl⟩ := growBuildBuffers_eq_some hgrown
          rfl
        · cases hgrown
          rfl

theorem HeapTuple.row_eq_some {vec : Vec} (halive : t.alive = true) (hvalue : t.value = some vec)
    (hlen : vec.length = dim) :
    t.row dim = some (cuvsTidEncode t.block.toNat t.offset.toNat, vec) := by
  rw [HeapTuple.row, if_pos halive, hvalue]
  simp [Option.filter, hlen]

theorem HeapTuple.row_eq_none
    (h : ∀ vec, t.alive = true → t.value = some vec → vec.length ≠ dim) : t.row dim = none := by
  unfold HeapTuple.row
  split_ifs with halive
  · rcases hvalue : t.value with _ | vec
    · rfl
    · simp [Option.filter, h vec halive hvalue]
  · rfl

theorem CuvsBuildState.Holds.step (h : bs.Holds dim rows)
    (hdim : bs.dim = 0 → ∀ vec ∈ t.value, vec.length = dim)
    (hstep : cuvsBuildCallback capBytes bs t = some bs') :
    bs'.Holds dim (rows ++ (t.row dim).toList) ∧ (bs.dim ≠ 0 → bs'.dim ≠ 0) := by
  have hdeclared : bs.dim ≠ 0 → bs.dim = dim :=
    fun hne => h.declared.resolve_right fun hz => hne hz.1
  rcases cuvsBuildCallback_cases hstep with ⟨rfl, hskip⟩ | ⟨vec, n, halive, hvalue, hwidth, rfl⟩
  · have hnone : t.row dim = none := by
      refine HeapTuple.row_eq_none fun vec halive hvalue => ?_
      obtain ⟨hne, hother⟩ := hskip vec halive hvalue
      rwa [hdeclared hne] at hother
    rw [hnone, Option.toList_none, List.append_nil]
    exact ⟨h, id⟩
  · have hlen : vec.length = dim := by
      by_cases hzero : bs.dim = 0
      · exact hdim hzero vec hvalue
      · rw [hwidth.resolve_left hzero, hdeclared hzero]
    have htid : cuvsTidEncode t.block.toNat t.offset.toNat < 2 ^ 64 := by
      have hblock := t.block.toNat_lt
      have hoffset := t.offset.toNat_lt
      have hbound : t.block.toNat * 2 ^ 16 + t.offset.toNat < 2 ^ 64 := by omega
      exact hbound
    rw [HeapTuple.row_eq_some halive hvalue hlen]
    refine ⟨⟨.inl hlen, ?_, ?_, ?_, ?_, ?_⟩, fun hne => by rwa [hlen, ← hdeclared hne]⟩
    · simp [h.nVecs]
    · simp [h.vectors]
    · simp [h.tids]
    · exact List.forall_mem_append.mpr ⟨h.width, by simpa using hlen⟩
    · exact List.forall_mem_append.mpr ⟨h.encoded, by simpa using htid⟩

/-- The whole scan. -/
theorem CuvsBuildState.Holds.scan {tuples : List HeapTuple} (h : bs.Holds dim rows)
    (hdim : bs.dim ≠ 0 ∨ ∀ t ∈ tuples, ∀ vec ∈ t.value, vec.length = dim)
    (hscan : tableIndexBuildScan capBytes bs tuples = some bs') :
    bs'.Holds dim (rows ++ indexedRows dim tuples) := by
  induction tuples generalizing bs rows with
  | nil =>
    cases hscan
    simpa [indexedRows] using h
  | cons t ts ih =>
    obtain ⟨next, hfirst, hrest⟩ := Option.bind_eq_some_iff.mp hscan
    have ht : bs.dim = 0 → ∀ vec ∈ t.value, vec.length = dim := by
      intro hzero
      rcases hdim with hne | hall
      · exact absurd hzero hne
      · exact hall t List.mem_cons_self
    obtain ⟨hnext, hkeep⟩ := h.step ht hfirst
    have hdim' : next.dim ≠ 0 ∨ ∀ t ∈ ts, ∀ vec ∈ t.value, vec.length = dim :=
      hdim.imp hkeep fun hall t ht => hall t (List.mem_cons_of_mem _ ht)
    have hrows : rows ++ indexedRows dim (t :: ts)
        = rows ++ (t.row dim).toList ++ indexedRows dim ts := by
      rw [indexedRows, List.filterMap_cons, List.append_assoc]
      cases t.row dim <;> rfl
    rw [hrows]
    exact ih hnext hdim' hrest

theorem CuvsBuildState.Holds.length_vectors (h : bs.Holds dim rows) :
    (bs.vectors.flatMap fun x => leBytes 4 x.toNat).length = rows.length * dim * 4 := by
  rw [Records.length_flatMap_width fun _ _ => leBytes_length 4 _, h.vectors,
    Records.length_flatMap_width h.width]

theorem CuvsBuildState.Holds.length_bytes (h : bs.Holds dim rows) :
    bs.bytes.length = corpusBytes rows.length dim := by
  rw [CuvsBuildState.bytes, List.length_append, h.length_vectors, tidBytes,
    Records.length_flatMap_width fun _ _ => leBytes_length 8 _, h.tids, List.length_map, corpusBytes]

theorem CuvsBuildState.Holds.tid (h : bs.Holds dim rows) {i : ℕ} {r : Tid × Vec}
    (hr : rows[i]? = some r) : (mapCorpus bs.bytes rows.length dim).tid i = r.1 := by
  have htid : bs.tids[i]? = some r.1 := by rw [h.tids, List.getElem?_map, hr, Option.map_some]
  have hwidth : ∀ t ∈ bs.tids, (leBytes 8 t).length = 8 := fun _ _ => leBytes_length 8 _
  have hword := Records.wordAt_flatMap hwidth (bs.vectors.flatMap fun x => leBytes 4 x.toNat) [] htid
  rw [List.append_nil, h.length_vectors] at hword
  refine hword.trans (leNat_leBytes ?_)
  exact h.encoded r (List.mem_of_getElem? hr)

theorem CuvsBuildState.Holds.vec (h : bs.Holds dim rows) {i : ℕ} {r : Tid × Vec}
    (hr : rows[i]? = some r) : (mapCorpus bs.bytes rows.length dim).vec i = r.2 := by
  have hlen := h.width r (List.mem_of_getElem? hr)
  have hslice : (bs.vectors.drop (i * dim)).take dim = r.2 := by
    have hvec := Records.slice_flatMap h.width [] hr
    rwa [List.append_nil, ← h.vectors] at hvec
  refine List.ext_getElem? fun j => ?_
  simp only [mapCorpus, List.getElem?_map]
  by_cases hj : j < dim
  · obtain ⟨x, hx⟩ : ∃ x, r.2[j]? = some x := ⟨_, List.getElem?_eq_getElem (hlen ▸ hj)⟩
    have hword : bs.vectors[i * dim + j]? = some x := by
      rw [← hx, ← hslice, List.getElem?_take_of_lt hj, List.getElem?_drop]
    have hwidth : ∀ x ∈ bs.vectors, (leBytes 4 x.toNat).length = 4 := fun _ _ => leBytes_length 4 _
    have hread := Records.wordAt_flatMap hwidth [] (tidBytes bs.tids) hword
    rw [List.length_nil, Nat.zero_add, List.nil_append, leNat_leBytes x.toNat_lt] at hread
    rw [List.getElem?_range hj, hx, Option.map_some, CuvsBuildState.bytes, hread, UInt32.ofNat_toNat]
  · rw [List.getElem?_eq_none (by simpa using hj), List.getElem?_eq_none (by omega), Option.map_none]

end Rows

end PgCuvs
