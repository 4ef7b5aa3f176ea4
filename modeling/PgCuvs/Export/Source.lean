import PgCuvs.Export.Decode

/-! A table with a CAGRA index, and the build of an HNSW index from that source: which row is
in which store of the source, and what `ambuild` looks at. -/

namespace PgCuvs

section Table

structure IndexDef (ρ κ : Type*) where
  pred : ρ → Bool
  key : ρ → Option κ

def IndexDef.value {ρ κ : Type*} (D : IndexDef ρ κ) (row : ρ) : Option κ :=
  if D.pred row then D.key row else none

inductive RowStatus where
  | inserting
  | committed
  | dead
deriving DecidableEq, Repr

structure RowVersion (ρ : Type*) where
  tid : Tid
  row : ρ
  status : RowStatus

/-- The versions of the rows, each under the number it was written with, and the stores of
the source. -/
structure SourceTable (ρ : Type*) where
  versions : List (RowVersion ρ)
  /-- the graph in the daemon, with its TIDs -/
  resident : Option (List ℕ)
  /-- `shard_count` of the last build is 2 or more -/
  sharded : Bool
  /-- the graph files -/
  stored : List ℕ
  delta : List ℕ
  stale : Bool
  /-- in no store: what `aminsert` did not get rid of and what a graph lost -/
  missed : List ℕ

inductive SourceEvent (ρ : Type*) where
  /-- `deltaOff` is `cuvs.max_delta_rows <= 0`; the others say how EXTEND, the append and MARK_STALE
  end -/
  | insert (tid : Tid) (row : ρ) (deltaOff extended appended marked : Bool)
  | commit (v : ℕ)
  /-- an aborted insert or a committed delete -/
  | remove (v : ℕ)
  /-- VACUUM; `recorded` says that every dead TID has its tombstone, `marked` that a MARK_STALE
  arrives -/
  | bulkdelete (recorded marked : Bool)
  | compact (deadTids : List Tid) (saved : Bool)
  /-- CREATE INDEX or REINDEX of the source; a full registry takes no entry -/
  | build (sharded registered : Bool)
  /-- an eviction or a shutdown; a daemon that crashes does not save -/
  | unload (saved : Bool)
  | load

variable {ρ : Type*} (src : IndexDef ρ Vec)

namespace SourceTable

def start : SourceTable ρ := ⟨[], none, false, [], [], false, []⟩

/-- The graph that a search would be answered from, loaded or not. -/
def base (s : SourceTable ρ) : List ℕ := s.resident.getD s.stored

def setStatus (s : SourceTable ρ) (v : ℕ) (f : RowStatus → RowStatus) : SourceTable ρ :=
  { s with versions := s.versions.modify v fun x => { x with status := f x.status } }

/-- What `table_index_build_scan` finds for the source. -/
def scan (s : SourceTable ρ) : List ℕ :=
  (List.range s.versions.length).filter fun v =>
    s.versions[v]?.any fun x => x.status ≠ .dead ∧ (src.value x.row).isSome

def aminsert (s : SourceTable ρ) (v : ℕ) (deltaOff extended appended marked : Bool) : SourceTable ρ :=
  if deltaOff then { s with stale := s.stale || marked, missed := s.missed ++ [v] }
  else if s.stale then { s with missed := s.missed ++ [v] }
  else
    match s.resident with
    | some rows =>
      if extended ∧ s.sharded = false then { s with resident := some (rows ++ [v]) }
      else if appended then { s with delta := s.delta ++ [v] }
      else { s with stale := s.stale || marked, missed := s.missed ++ [v] }
    | none =>
      if appended then { s with delta := s.delta ++ [v] }
      else { s with stale := s.stale || marked, missed := s.missed ++ [v] }

/-- COMPACT keeps the items whose TID has no tombstone. -/
def kept (s : SourceTable ρ) (deadTids : List Tid) (rows : List ℕ) : List ℕ :=
  rows.filter fun v => s.versions[v]?.all fun x => x.tid ∉ deadTids

def step (s : SourceTable ρ) : SourceEvent ρ → SourceTable ρ
  | .insert tid row deltaOff extended appended marked =>
    let s' := { s with versions := s.versions ++ [⟨tid, row, .inserting⟩] }
    if (src.value row).isSome then s'.aminsert s.versions.length deltaOff extended appended marked else s'
  | .commit v => s.setStatus v fun x => if x = .inserting then .committed else x
  | .remove v => s.setStatus v fun _ => .dead
  | .bulkdelete recorded marked => { s with stale := s.stale || !recorded && marked }
  | .compact deadTids saved =>
    match s.resident with
    | some rows =>
      if s.sharded then s
      else
        let rows' := s.kept deadTids rows
        { s with
          resident := some rows'
          stored := if saved then rows' else s.stored
          missed := s.missed ++ rows.filter fun v => v ∉ rows' }
    | none => s
  | .build sharded registered =>
    -- an empty table builds nothing and leaves what there is
    if s.scan src = [] then s
    else
      { s with
        resident := if registered then some (s.scan src) else none
        sharded
        stored := s.scan src
        delta := []
        stale := false
        missed := [] }
  | .unload saved =>
    match s.resident with
    | some rows =>
      if saved then { s with resident := none, stored := rows }
      else
        { s with
          resident := none
          missed := (s.missed ++ rows).filter fun v => v ∉ s.stored }
    | none => s
  | .load =>
    match s.resident with
    | some _ => s
    | none => if s.stored = [] then s else { s with resident := some s.stored }

end SourceTable

end Table

section Build

structure CagraSource where
  name : String
  oid : Oid
  /-- the table of the index; `none` when the relation is no index -/
  indrelid : Option Oid
  isCagra : Bool
  typmod : ℤ
  graphDegree : ℕ
  metric : Metric

/-- The index under construction; `doHierarchy` is the mode `hnsw`, else `nsw`. -/
structure HnswTarget where
  name : String
  indrelid : Oid
  typmod : ℤ
  width : ElemWidth
  metric : Metric
  doHierarchy : Bool

def Metric.sqlName : Metric → String
  | .l2 => "l2"
  | .cosine => "cosine"
  | .ip => "ip"
  | .other _ => "unknown"

/-- What `cuvs_hnsw_ambuild` and the fill look at before they ask the daemon. -/
def hnswChecks (src : CagraSource) (tgt : HnswTarget) : Except String Unit :=
  match src.indrelid with
  | none => .error s!"pg_cuvs_hnsw: source \"{src.name}\" is not an index"
  | some heap =>
    if heap ≠ tgt.indrelid then
      .error s!"pg_cuvs_hnsw: source index \"{src.name}\" is on a different table than the one being indexed"
    else if !src.isCagra then
      .error s!"pg_cuvs_hnsw: source \"{src.name}\" must be a cagra index"
    else do
      if tgt.typmod ≤ 0 then
        .error s!"pg_cuvs: target index column has no fixed dimension (dim={tgt.typmod}) — cannot size-check the HNSW page layout"
      checkHnswPageFit tgt.typmod.toNat tgt.width (min src.graphDegree 64 / 2)
        (if tgt.doHierarchy then 5 else 0)
      if src.metric ≠ tgt.metric then
        .error s!"pg_cuvs_hnsw: metric mismatch: source cagra \"{src.name}\" uses {src.metric.sqlName} but this index uses {tgt.metric.sqlName}"
      else if src.typmod ≤ 0 then
        .error s!"pg_cuvs: cannot determine vector dimension from cagra index {src.oid}"
      else if 0 < tgt.typmod ∧ tgt.typmod ≠ src.typmod then
        .error s!"pg_cuvs: dimension mismatch: source CAGRA dim={src.typmod} but target HNSW \"{tgt.name}\" dim={tgt.typmod}"
      else .ok ()

variable (ops : FloatOps)

/-- The build from a source, on the daemon's reply to EXPORT_ADJACENCY. -/
def hnswAmbuild (src : CagraSource) (tgt : HnswTarget)
    (reply : Except Status (AdjacencyExport × Metric)) (draw : ℕ → ℕ) :
    Option (Except String (List Page)) :=
  match hnswChecks src tgt, reply with
  | .error err, _ => some (.error err)
  | .ok (), .error status =>
    some (.error s!"pg_cuvs: IPC export_adjacency failed (status={status.ctorIdx}); ensure index {src.oid} is loaded in daemon")
  | .ok (), .ok (x, metric) =>
    if metric ≠ tgt.metric then
      some (.error s!"pg_cuvs: metric mismatch: source CAGRA uses {metric.sqlName} but target HNSW uses {tgt.metric.sqlName}")
    else fillHnswFromCagraIpc ops x tgt.width tgt.doHierarchy draw

variable {ρ : Type*}

/-- `extracted` is what the kernel reads out, with the entry's TIDs. -/
def handleExportAdjacency (s : SourceTable ρ) (metric : Metric) (extracted : Option AdjacencyExport) :
    Except Status (AdjacencyExport × Metric) :=
  match s.resident with
  | none => .error .notFound
  | some _ =>
    if s.sharded then .error .notFound
    else
      match extracted with
      | none => .error .error
      | some x => .ok (x, metric)

structure SourceTable.Exports (s : SourceTable ρ) (D : IndexDef ρ Vec) (rows : List ℕ)
    (x : AdjacencyExport) : Prop where
  count : x.n = rows.length
  item : ∀ (i v : ℕ) (r : RowVersion ρ), rows[i]? = some v → s.versions[v]? = some r →
    x.tids[i]? = some r.tid ∧ D.value r.row = some (x.vec i)

end Build

end PgCuvs
