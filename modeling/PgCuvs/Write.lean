import PgCuvs.Build.Other

/-! The write side of a resident index: EXTEND, COMPACT, MARK_STALE and DROP. -/

namespace PgCuvs

section Extend

/-- The pre-flight check of EXTEND. It evicts nothing. -/
def extendOverBudget (d : Daemon) (e : IndexEntry) (nNew : ℕ) : Bool :=
  let newVram := estimateVramBytes (e.nVecs + nNew) e.dim e.graphDegree
  let deltaVram := newVram - e.vramBytes
  decide (0 < deltaVram) && decide (0 < d.maxVramPerGpu e.gpuDeviceId)
    && decide (d.maxVramPerGpu e.gpuDeviceId < totalVramUsed d e.gpuDeviceId + deltaVram)

/-- How `cuvs_cagra_extend` ends. `cagra::extend` works in place and two synchronizations and
an allocation follow it, so a call that throws may leave the graph extended. -/
inductive ExtendOutcome where
  | extended (image : List UInt8)
  | failed
  | failedExtended (image : List UInt8)
deriving DecidableEq, Repr

/-- EXTEND comes to its kernel: the rows are there, the graph is, and the budget holds both. -/
def extendsGraph (d : Daemon) (frame : BuildFrame) (input : BuildInput) : Bool :=
  input.indexDir.isSome && decide (1 ≤ frame.nVecs) && decide (frame.dim ≠ 0)
    && input.segment.toOption.isSome
    && ((findIndex d.live frame.key).bind (d.live[·]?)).any fun e =>
      e.handle.isSome && !extendOverBudget d e frame.nVecs.toNat

def handleExtend (d : Daemon) (frame : BuildFrame) (input : BuildInput)
    (outcome : ExtendOutcome) : Effect :=
  let fail (err : String) : Effect := Effect.failure d .error err
  if input.indexDir.isNone then fail "recv index_dir failed"
  else if frame.nVecs < 1 ∨ frame.dim = 0 then fail "EXTEND needs at least 1 vector"
  else
    match input.segment with
    | .error fault => fail fault.text
    | .ok s =>
      let n := frame.nVecs.toNat
      let missing : Effect := Effect.failure d .notFound
        s!"index {frame.key.dbOid}/{frame.key.indexOid} not loaded or not extendable (extend is cagra-only)"
      match findIndex d.live frame.key with
      | none => missing
      | some i =>
        match d.live[i]? with
        | none => missing
        | some e =>
          match e.handle with
          | none => missing
          | some g =>
            if extendOverBudget d e n then
              Effect.failure d .buildFailed "not enough VRAM for extend"
            else
              match outcome with
              | .failed => Effect.failure d .buildFailed "cuvs_cagra_extend failed"
              -- the kernel threw behind the extension: a longer graph under the old ids
              | .failedExtended image =>
                ⟨d, .replace i (.extendFailed g image (s.corpus n)),
                  ⟨.buildFailed, "cuvs_cagra_extend failed"⟩⟩
              | .extended image => ⟨d, .replace i (.extend g image (s.corpus n)), .ok⟩

end Extend

section Compact

/-- COMPACT reads the tombstones before it takes the lock: the magic and the
count are all it looks at. -/
def readDeadTids (a : Artifacts) : Except Reply (List Tid) :=
  match a.tombstone with
  | none => .error .ok
  | some f =>
    match f.header with
    | none => .error ⟨.error, "invalid tombstone file"⟩
    | some h =>
      if h.magic ≠ tombstoneMagic ∨ h.nEntries = 0 then .error ⟨.error, "invalid tombstone file"⟩
      else if f.body.length < h.nEntries then .error ⟨.error, "tombstone read failed"⟩
      else .ok (cuvsU64Sort ((f.body.take h.nEntries).map TombstoneRecord.tid))

structure CompactTicket where
  key : Key
  dir : Dir
  deadTids : List Tid
deriving DecidableEq, Repr

def beginCompact (cfg : Config) (d : Daemon) (key : Key) (indexDir : Option Dir) :
    Except Reply CompactTicket :=
  match indexDir with
  | none => .error ⟨.error, "recv index_dir failed"⟩
  | some dir =>
    match readDeadTids (d.disk (saveDir cfg dir) key) with
    | .error r => .error r
    | .ok deadTids => .ok { key, dir := saveDir cfg dir, deadTids }

/-- `keep_bits`: an item stays unless its TID is among the dead ones. -/
def keepBits (deadTids : List Tid) (e : IndexEntry) : List Bool :=
  (e.tids.take e.nVecs).map fun t => !cuvsU64Contains deadTids t

def unlinkTombstone (d : Daemon) (t : CompactTicket) : Daemon :=
  { d with disk := d.disk.modify t.dir t.key (runFileOps [.unlinkTombstone]) }

/-- COMPACT from the lock on. `image` is the merged graph; `none` when the kernel
fails. -/
def endCompact (cfg : Config) (env : Env) (d : Daemon) (t : CompactTicket)
    (image : Option (List UInt8)) : Effect :=
  let missing : Effect := Effect.failure d .notFound "CAGRA index not loaded for compact"
  match findIndex d.live t.key with
  | none => missing
  | some i =>
    match d.live[i]? with
    | none => missing
    | some e =>
      match e.handle with
      | none => missing
      | some g =>
        let keep := keepBits t.deadTids e
        if keep.all id then ⟨unlinkTombstone d t, .keep, .ok⟩
        else
          match image with
          | none => Effect.failure d .buildFailed "cuvs_cagra_compact failed"
          | some image =>
            let action := RegistryAction.replace i (.compact env.now g image keep)
            match saveIndex cfg env d.disk (compactEntry env.now g image keep e) with
            -- memory is compacted all the same, and `.tombstone` stays for the next attempt
            | (disk, false) =>
              ⟨{ d with disk }, action, ⟨.persistFailed, "save_index failed after compact"⟩⟩
            | (disk, true) => ⟨unlinkTombstone { d with disk } t, action, .ok⟩

end Compact

section Mark

/-- `opens` tells whether the marker can be created; the reply is OK either way. -/
def handleMarkStale (cfg : Config) (env : Env) (d : Daemon) (key : Key) (opens : Bool) : Effect :=
  let action :=
    match findIndex d.live key with
    | some i => RegistryAction.replace i (.stale env.now)
    | none => .keep
  let mark (a : Artifacts) : Artifacts := { a with stale := some (a.stale.getD env.now) }
  let d := if opens then { d with disk := d.disk.modify cfg.indexDir key mark } else d
  ⟨d, action, .ok⟩

def handleDrop (cfg : Config) (d : Daemon) (key : Key) : Effect :=
  -- an index that is not resident loses its files all the same
  let action :=
    match findIndex d.live key with
    | some i => RegistryAction.remove i
    | none => .keep
  ⟨{ d with
     cold := d.cold.eraseP fun c => c.key == key
     disk := d.disk.modify cfg.indexDir key fun a => runFileOps (dropOps a) a },
    action, .ok⟩

end Mark

end PgCuvs
