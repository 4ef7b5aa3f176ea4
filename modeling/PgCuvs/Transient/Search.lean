import PgCuvs.Backend.FilteredKnn
import PgCuvs.Backend.HeapScan
import PgCuvs.Corpus.FdRecv
import PgCuvs.Evict
import PgCuvs.Library.Cursor

/-! The scan of a table without an index: the backend collects the vectors that pass the filter,
the daemon searches them once and keeps nothing, and the backend fetches the rows it names. -/

namespace PgCuvs

variable {D : Type}

/-- A vector value; its dimension is an `int16`. -/
structure PgVector where
  x : Vec
  dim_lt : x.length < 2 ^ 15
deriving DecidableEq

structure TableRow where
  block : UInt32
  offset : UInt16
  /-- the vector column -/
  value : Option PgVector
  /-- whether the WHERE clause is true of it -/
  qual : Bool
deriving DecidableEq

def TableRow.tid (r : TableRow) : Tid := cuvsTidEncode r.block.toNat r.offset.toNat

/-- What a snapshot sees of a table, in the order of a sequential scan. -/
structure TableView where
  rows : List TableRow
  tids_nodup : (rows.map TableRow.tid).Nodup
  offset_pos : ∀ r ∈ rows, 0 < r.offset.toNat

/-- `table_tuple_fetch_row_version`, where nothing is committed between the scan and the fetch: the
filtered scan takes `GetTransactionSnapshot()` anew for each. -/
def TableView.fetch (view : TableView) (tid : Tid) : Option TableRow :=
  view.rows.find? fun r => decide ((r.block.toNat, r.offset.toNat) = cuvsTidDecode tid)

inductive TbfError
  | nullQuery
  | queryDim (query column : ℕ)
  | nonUniform (found dim : ℕ)
  | corpusTooBig (maxMb : ℕ)
  | searchFailed (status : Status) (error : String)
deriving DecidableEq

structure TbfCorpus where
  /-- of the first vector -/
  dim : Option ℕ
  n : ℕ
  cap : ℕ
  corpus : List UInt32
  ctids : List Tid

def TbfCorpus.empty : TbfCorpus := ⟨none, 0, 1024, [], []⟩

structure TbfScan where
  metric : Metric
  k : ℕ
  k_pos : 0 < k
  k_le : k ≤ 100000
  /-- `cuvs.gpu_bruteforce_max_mb` -/
  maxMb : ℕ
  view : TableView
  query : Option PgVector

section Collect

variable (maxMb qdim : ℕ)

def TbfCorpus.addVector (c : TbfCorpus) (dim : ℕ) (tid : Tid) (v : PgVector) :
    Except TbfError TbfCorpus :=
  if maxMb * 1024 * 1024 < (c.n + 1) * dim * 4 then .error (.corpusTooBig maxMb)
  else .ok
    { dim := some dim
      n := c.n + 1
      cap := if c.cap ≤ c.n then c.cap * 2 else c.cap
      corpus := c.corpus ++ v.x
      ctids := c.ctids ++ [tid] }

def TbfCorpus.addRow (c : TbfCorpus) (r : TableRow) : Except TbfError TbfCorpus :=
  if r.qual then
    match r.value with
    | none => .ok c
    | some v =>
      match c.dim with
      | none =>
        if v.x.length ≠ qdim then .error (.queryDim qdim v.x.length)
        else c.addVector maxMb v.x.length r.tid v
      | some dim =>
        if v.x.length ≠ dim then .error (.nonUniform v.x.length dim)
        else c.addVector maxMb dim r.tid v
  else .ok c

def tbfCollect (rows : List TableRow) : Except TbfError TbfCorpus :=
  rows.foldlM (TbfCorpus.addRow maxMb qdim) .empty

end Collect

/-- The vectors followed by the TIDs, as the backend stages them. -/
def TbfCorpus.buffers (c : TbfCorpus) (dim : ℕ) : CuvsBuildState :=
  ⟨dim, c.n, c.cap, c.corpus, c.ctids⟩

structure TbfDaemon where
  cfg : Config
  env : Env
  daemon : Daemon
  sock : Incoming
  corpusShm : ShmCalls
  queryShm : ShmCalls
  mallocs : Bool
  latencyUs : ℕ

/-- `sk`, with the row count as an `int`. -/
def transientDepth (k : UInt32) (n : ℕ) : Int32 :=
  let k : Int32 := if k.toInt32 < 1 then 1 else k.toInt32
  if k < Int32.ofNat n then k else Int32.ofNat n

def transientOom (needed : ℕ) : SearchReply D :=
  .failure .oomFallback <|
    "transient BF corpus " ++ toString (needed / (1024 * 1024)) ++
      " MB exceeds free GPU VRAM; reduce the WHERE selectivity, build a flat index, or use a" ++
      " cagra/ivfpq index"

/-- Where the corpus may go; nothing is evicted for it. -/
def transientDevice (h : TbfDaemon) (needed : ℕ) : Option ℕ :=
  (pickGpuForIndex h.cfg h.env h.daemon needed).filter fun dev =>
    let budget := h.daemon.maxVramPerGpu dev
    !(decide (0 < budget ∧ budget < totalVramUsed h.daemon dev + needed) ||
      decide (h.env.freeVram h.daemon.live dev < needed))

/-- `handle_search_bf_transient` behind both mappings. -/
def searchTransient (kern : Kernels D) (h : TbfDaemon) (seg : Segment) (n dim : ℕ) (k : UInt32)
    (metric : Metric) (query : Vec) : SearchReply D :=
  let sk := transientDepth k n
  match transientDevice h (n * dim * 4) with
  | none => transientOom (n * dim * 4)
  | some dev =>
    -- a negative count asks `malloc` for more than there is
    if sk < 0 ∨ h.mallocs = false then .failure .error "transient BF search failed"
    else
      match kern.bruteForceSearch (seg.vecs n) query sk.toInt.toNat metric dev with
      | .error _ => .failure .error "transient BF search failed"
      | .ok res =>
        { status := .ok
          results := (res.take sk.toInt.toNat).filterMap (itemResult n (seg.tids n))
          latencyUs := h.latencyUs
          deltaMerged := false
          error := "" }

def handleTransient (kern : Kernels D) (h : TbfDaemon) (seg : Segment) (cmd : TransientFrame)
    (k : UInt32) (metric : Metric) (query : Vec) : SearchReply D :=
  match (handleSearchBfTransient cmd h.sock h.corpusShm h.queryShm).1 with
  | .error text => .failure .error text
  | .ok () => searchTransient kern h seg cmd.nVecs.toInt.toNat cmd.dim.toNat k metric query

inductive TbfWait
  | arrives
  | canceled
  | fails
deriving DecidableEq

structure TbfIpc where
  corpusOpens : Bool
  queryShm : Bool
  connects : Bool
  sends : Bool
  wait : TbfWait
  rowsArrive : Bool
  server : TbfDaemon

def cuvsIpcSearchBfTransient (kern : Kernels D) (io : TbfIpc) (c : TbfCorpus) (query : Vec)
    (k : ℕ) (metric : Metric) : SearchReply D :=
  let dim := query.length
  if c.n < 1 ∨ dim = 0 ∨ k < 1 then .failure .error ""
  else if (2 ^ 64 - 1) / (dim * 4 + 8) < c.n then .failure .error ""
  else if !io.corpusOpens then .failure .error "no shared-memory tier for transient BF corpus"
  else if !io.queryShm then .failure .error ""
  else if !io.connects then .failure .unavailable ""
  else if !io.sends then .failure .error ""
  else
    match io.wait with
    | .canceled => .failure .canceled ""
    | .fails => .failure .error ""
    | .arrives =>
      let seg := mapCorpus (c.buffers dim).bytes c.n dim
      let reply := handleTransient kern io.server seg ⟨Int64.ofNat c.n, UInt32.ofNat dim⟩
        (UInt32.ofNat k) metric query
      if reply.status = .ok ∧ reply.results ≠ [] ∧ io.rowsArrive = false then
        { (.failure .error "" : SearchReply D) with latencyUs := reply.latencyUs }
      else receive k reply

/-- The first call: collect the corpus and search it. -/
def cuvsTbfBuild (kern : Kernels D) (io : TbfIpc) (scan : TbfScan) :
    Except TbfError (List (CuvsResult D)) :=
  match scan.query with
  | none => .error .nullQuery
  | some q =>
    match tbfCollect scan.maxMb q.x.length scan.view.rows with
    | .error e => .error e
    | .ok c =>
      if c.n = 0 then .ok []
      else
        let reply := cuvsIpcSearchBfTransient kern io c q.x scan.k scan.metric
        if reply.status = .ok then .ok reply.results
        else .error (.searchFailed reply.status reply.error)

/-- The row of a result, if its TID is one and can be fetched. -/
def TableView.item (view : TableView) (c : CuvsResult D) : Option TableRow :=
  if c.tid = 0 then none else view.fetch c.tid

abbrev TbfNode (D : Type) := Cursor.Node TbfScan (CuvsResult D) TableRow TbfError

abbrev TbfEvent := Cursor.Event TbfIpc TbfScan

def TbfNode.step (kern : Kernels D) : TbfNode D → TbfEvent → TbfNode D :=
  Cursor.Node.step (fun scan io => cuvsTbfBuild kern io scan) fun scan => scan.view.item

end PgCuvs
