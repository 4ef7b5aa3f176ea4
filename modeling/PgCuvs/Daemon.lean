import PgCuvs.Registry

/-! Daemon state, its configuration and what it observes of the outside. -/

namespace PgCuvs

structure Registry where
  /-- slots `0 .. g_n_indexes - 1` -/
  live : List IndexEntry
  /-- the remaining slots, with whatever an earlier occupant left in them -/
  tail : List IndexEntry

/-- `g_indexes[g_n_indexes++]`, written by `init` on top of the old content. -/
def Registry.append (r : Registry) (init : IndexEntry → IndexEntry) : Registry where
  live := r.live ++ [init (r.tail.headD IndexEntry.zero)]
  tail := r.tail.tail

def Registry.removeIdx (r : Registry) (i : ℕ) (e : IndexEntry) : Registry where
  live := r.live.eraseIdx i
  tail := (r.live.set i e).getLast?.toList ++ r.tail

def Registry.set (r : Registry) (i : ℕ) (e : IndexEntry) : Registry :=
  { r with live := r.live.set i e }

@[simp] theorem Registry.append_live (r : Registry) (init : IndexEntry → IndexEntry) :
    (r.append init).live = r.live ++ [init (r.tail.headD IndexEntry.zero)] := rfl

@[simp] theorem Registry.removeIdx_live (r : Registry) (i : ℕ) (e : IndexEntry) :
    (r.removeIdx i e).live = r.live.eraseIdx i := rfl

@[simp] theorem Registry.set_live (r : Registry) (i : ℕ) (e : IndexEntry) :
    (r.set i e).live = r.live.set i e := rfl

structure Config where
  indexDir : Dir
  maxIndexes : ℕ
  nGpus : ℕ
  /-- `--gpus`; empty when every detected device may be used -/
  allowedGpus : List ℕ
  snapshotUri : String

def sampleConfig : Config where
  indexDir := "index"
  maxIndexes := 8
  nGpus := 1
  allowedGpus := []
  snapshotUri := ""

structure CacheCounters where
  hits : ℕ → ℕ
  misses : ℕ → ℕ
  evictions : ℕ → ℕ
  reloads : ℕ → ℕ
  persistFail : ℕ → ℕ

def CacheCounters.zero : CacheCounters where
  hits := fun _ => 0
  misses := fun _ => 0
  evictions := fun _ => 0
  reloads := fun _ => 0
  persistFail := fun _ => 0

def bump (counters : ℕ → ℕ) (device : ℕ) : ℕ → ℕ :=
  fun g => if g = device then counters g + 1 else counters g

/-- An index known from its `.relfilenode` file but not yet resident. -/
structure ColdIndexEntry where
  key : Key
  relfilenode : ℕ
  tableOid : Oid
  warmupState : WarmupState
  lastWarmupAt : ℕ
  warmupDurationMs : ℕ
  downloadCount : ℕ
  cacheMissCount : ℕ
deriving DecidableEq, Repr

structure WarmupJob where
  key : Key
  relfilenode : ℕ
  tableOid : Oid
  fromCacheMiss : Bool
deriving DecidableEq, Repr

structure Daemon where
  registry : Registry
  cold : List ColdIndexEntry
  warmupQueue : List WarmupJob
  counters : CacheCounters
  maxVramPerGpu : ℕ → ℕ
  pendingBuildVram : ℕ → ℕ
  disk : Disk

/-- A daemon that has just started over the files it finds. -/
def Daemon.initial (maxVramPerGpu : ℕ → ℕ) (disk : Disk) : Daemon where
  registry := ⟨[], []⟩
  cold := []
  warmupQueue := []
  counters := CacheCounters.zero
  maxVramPerGpu := maxVramPerGpu
  pendingBuildVram := fun _ => 0
  disk := disk

inductive SaveFault where
  | writeTids
  | serialize
  | renameTids
  | renameCagra
deriving DecidableEq, Repr

/-- What one request finds outside the daemon: the clock, free device memory
as a function of what is resident, and which calls fail. -/
structure Env where
  now : ℕ
  freeVram : List IndexEntry → ℕ → ℕ
  saveFault : Key → Option SaveFault
  cagraDeserializes : Cagra → ℕ → Bool
  ivfpqDeserializes : IvfPq → ℕ → Bool
  bfBuilds : List Vec → ℕ → Bool

def Env.quiet (now free : ℕ) : Env where
  now := now
  freeVram := fun _ _ => free
  saveFault := fun _ => none
  cagraDeserializes := fun _ _ => true
  ivfpqDeserializes := fun _ _ => true
  bfBuilds := fun _ _ => true

def Daemon.live (d : Daemon) : List IndexEntry := d.registry.live

def Daemon.setEntry (d : Daemon) (i : ℕ) (e : IndexEntry) : Daemon :=
  { d with registry := d.registry.set i e }

@[simp] theorem Daemon.setEntry_live (d : Daemon) (i : ℕ) (e : IndexEntry) :
    (d.setEntry i e).live = d.live.set i e := rfl

@[simp] theorem Daemon.setEntry_disk (d : Daemon) (i : ℕ) (e : IndexEntry) :
    (d.setEntry i e).disk = d.disk := rfl

def findIndex (live : List IndexEntry) (key : Key) : Option ℕ :=
  live.findIdx? fun e => e.key == key

theorem findIndex_eq_some {live : List IndexEntry} {key : Key} {i : ℕ}
    (h : findIndex live key = some i) : ∃ e, live[i]? = some e ∧ e.key = key := by
  obtain ⟨hi, hkey, -⟩ := List.findIdx?_eq_some_iff_getElem.mp h
  exact ⟨live[i], List.getElem?_eq_getElem hi, by simpa using hkey⟩

theorem findIndex_eq_none {live : List IndexEntry} {key : Key} :
    findIndex live key = none ↔ ∀ e ∈ live, e.key ≠ key := by
  simp [findIndex, List.findIdx?_eq_none_iff]

def cuvsMaxGpus : ℕ := 16

def cacheCounterBump (counters : ℕ → ℕ) (e : IndexEntry) : ℕ → ℕ :=
  if 2 ≤ e.shardCount then
    e.shards.foldl
      (fun c s => if s.gpuDeviceId < cuvsMaxGpus then bump c s.gpuDeviceId else c) counters
  else if e.gpuDeviceId < cuvsMaxGpus then bump counters e.gpuDeviceId
  else counters

end PgCuvs
