import Mathlib.Data.Rat.Defs
import Mathlib.Algebra.Order.Field.Rat
import PgCuvs.Disk

/-! The extension's plan-time gates: file and session state that keeps the
planner off the GPU path. -/

namespace PgCuvs

inductive DeltaSearch where
  | auto
  | cpu
  | gpu
deriving DecidableEq, Repr

structure Guc where
  enableCuvs : Bool
  maxDeltaRows : ℕ
  maxStaleFraction : ℚ
  deltaSearch : DeltaSearch
  cuvsK : ℕ
  searchMode : ℕ
  bfPrecision : ℕ
  shardOverfetch : ℕ
  parallelFanout : Bool
  cpuHnswFallback : Bool
  bfBatchWaitUs : ℕ
  cagraBatchWaitUs : ℕ
  itopkSize : ℕ
  searchWidth : ℕ
  extendChunkSize : ℕ
  compactDeleteRatio : ℚ
  streamBfChunkVectors : ℕ

def Guc.default : Guc where
  enableCuvs := true
  maxDeltaRows := 10000
  maxStaleFraction := 1 / 10
  deltaSearch := .auto
  cuvsK := 100
  searchMode := 0
  bfPrecision := 0
  shardOverfetch := 0
  parallelFanout := true
  cpuHnswFallback := false
  bfBatchWaitUs := 0
  cagraBatchWaitUs := 0
  itopkSize := 0
  searchWidth := 0
  extendChunkSize := 0
  compactDeleteRatio := 1 / 10
  streamBfChunkVectors := 262144

structure PlanEnv where
  circuitOpen : Bool
  socketReady : Bool
  /-- `reltuples`, negative when unknown -/
  liveRows : ℚ

inductive FallbackReason where
  | disabled
  | breaker
  | stale
  | drift
  | daemonDown
  | noArtifact
  | delta
  | tombstone
deriving DecidableEq, Repr

def cuvsIndexIsStale (a : Artifacts) : Bool := a.stale.isSome

def cuvsIndexDeleteDriftStale (g : Guc) (a : Artifacts) (liveRows : ℚ) : Bool :=
  if 1 ≤ g.maxStaleFraction ∨ liveRows < 0 then false
  else
    match a.tids with
    | none => false
    | some f =>
      let hdr := f.header
      if hdr.magic ≠ tidsMagic ∨ hdr.version ≠ tidsVersion ∨ hdr.nVecs = 0 then false
      else if (hdr.nVecs : ℚ) ≤ liveRows then false
      else decide (g.maxStaleFraction < (hdr.nVecs - liveRows) / hdr.nVecs)

def cuvsIndexHasArtifact (a : Artifacts) : Bool := a.tids.isSome

def cuvsIndexDeltaUnusable (g : Guc) (a : Artifacts) : Bool :=
  match a.delta with
  | none => false
  | some f =>
    match cuvsDeltaReadHeader f.content with
    | none => true
    | some hdr =>
      if !cuvsDeltaValidate hdr f.content.bodyBytes then true
      else if g.maxDeltaRows < hdr.nRows then true
      else cuvsReadTidsCrc a != some hdr.baseTidsCrc32

def cuvsIndexTombstoneUnusable (g : Guc) (a : Artifacts) : Bool :=
  match a.tombstone with
  | none => false
  | some f =>
    match cuvsTombstoneReadHeader f with
    | none => true
    | some hdr =>
      if !cuvsTombstoneValidate hdr f.bodyBytes then true
      else if g.maxDeltaRows < hdr.nEntries then true
      else cuvsReadTidsCrc a != some hdr.baseTidsCrc32

def cuvsTombstoneCount (a : Artifacts) : ℕ :=
  match a.tombstone with
  | none => 0
  | some f =>
    match cuvsTombstoneReadHeader f with
    | none => 0
    | some hdr =>
      if !cuvsTombstoneValidate hdr f.bodyBytes then 0
      else if cuvsReadTidsCrc a ≠ some hdr.baseTidsCrc32 then 0
      else hdr.nEntries

def intMax : ℕ := 2 ^ 31 - 1

/-- Widen `k` by the pending dead TIDs; `none` past the result limit. -/
def cuvsKWithTombstoneSlack (g : Guc) (a : Artifacts) (k : ℕ) : Option ℕ :=
  if g.maxDeltaRows = 0 then some k
  else
    let n := cuvsTombstoneCount a
    if n = 0 then some k
    else if intMax < n + k then none
    else some (k + n)

/-- The eight gates of `cuvsamcostestimate`, in the order they are tried. -/
def cuvsPlanGate (g : Guc) (p : PlanEnv) (a : Artifacts) : Option FallbackReason :=
  if !g.enableCuvs then some .disabled
  else if p.circuitOpen then some .breaker
  else if cuvsIndexIsStale a then some .stale
  else if cuvsIndexDeleteDriftStale g a p.liveRows then some .drift
  else if !p.socketReady then some .daemonDown
  else if !cuvsIndexHasArtifact a then some .noArtifact
  else if cuvsIndexDeltaUnusable g a then some .delta
  else if cuvsIndexTombstoneUnusable g a then some .tombstone
  else none

theorem cuvsPlanGate_eq_none {g : Guc} {p : PlanEnv} {a : Artifacts} :
    cuvsPlanGate g p a = none ↔
      g.enableCuvs = true ∧ p.circuitOpen = false ∧ cuvsIndexIsStale a = false ∧
      cuvsIndexDeleteDriftStale g a p.liveRows = false ∧ p.socketReady = true ∧
      cuvsIndexHasArtifact a = true ∧ cuvsIndexDeltaUnusable g a = false ∧
      cuvsIndexTombstoneUnusable g a = false := by
  unfold cuvsPlanGate
  split_ifs <;> simp_all

end PgCuvs
