import PgCuvs.Sidecar

/-! The artifacts of an index on disk. Item `i` of a graph or of a brute-force
index is row `i` of the corpus it was built from: the kernels number their
input in order. -/

namespace PgCuvs

/-- A CAGRA graph, resident or serialized. `image` is its file as the manifest
checksums it. -/
structure Cagra where
  image : List UInt8
  rows : List Vec
deriving DecidableEq, Repr

structure IvfPq where
  image : List UInt8
  rows : List Vec
deriving DecidableEq, Repr

structure Hnsw where
  image : List UInt8
  rows : List Vec
deriving DecidableEq, Repr

structure BfIndex where
  dim : ℕ
  rows : List Vec
  metric : Metric
  precision : ℕ
deriving DecidableEq, Repr

structure Stamped (α : Type*) where
  content : α
  mtime : ℕ
deriving DecidableEq, Repr

/-- The files `<db>_<idx>.*` of one index in one directory. -/
structure Artifacts where
  cagra : Option Cagra
  tids : Option TidsFile
  vectors : Option (Stamped VectorsFile)
  shards : Option ShardsFile
  shardCagra : ℕ → Option Cagra
  ivfpq : Option IvfPq
  hnsw : Option Hnsw
  delta : Option (Stamped DeltaFile)
  tombstone : Option TombstoneFile
  /-- modification second of the `.stale` marker -/
  stale : Option ℕ
  /-- relfilenode and table OID recorded for snapshot uploads -/
  relfilenode : Option (ℕ × Oid)

def Artifacts.empty : Artifacts where
  cagra := none
  tids := none
  vectors := none
  shards := none
  shardCagra := fun _ => none
  ivfpq := none
  hnsw := none
  delta := none
  tombstone := none
  stale := none
  relfilenode := none

abbrev Disk := Dir → Key → Artifacts

def Disk.modify (disk : Disk) (dir : Dir) (key : Key) (f : Artifacts → Artifacts) : Disk :=
  fun dir' key' => if dir' = dir ∧ key' = key then f (disk dir' key') else disk dir' key'

@[simp] theorem Disk.modify_same (disk : Disk) (dir : Dir) (key : Key)
    (f : Artifacts → Artifacts) : disk.modify dir key f dir key = f (disk dir key) :=
  if_pos ⟨rfl, rfl⟩

theorem Disk.modify_of_key_ne (disk : Disk) {dir dir' : Dir} {key key' : Key}
    (f : Artifacts → Artifacts) (h : key' ≠ key) :
    disk.modify dir key f dir' key' = disk dir' key' :=
  if_neg fun hk => h hk.2

theorem Disk.modify_of_dir_ne (disk : Disk) {dir dir' : Dir} {key key' : Key}
    (f : Artifacts → Artifacts) (h : dir' ≠ dir) :
    disk.modify dir key f dir' key' = disk dir' key' :=
  if_neg fun hk => h hk.1

theorem Disk.modify_congr {disk : Disk} {dir : Dir} {key : Key} {f g : Artifacts → Artifacts}
    (h : f (disk dir key) = g (disk dir key)) : disk.modify dir key f = disk.modify dir key g := by
  funext dir' key'
  unfold Disk.modify
  split_ifs with hk
  · rw [hk.1, hk.2, h]
  · rfl

def Disk.modifyKey (disk : Disk) (key : Key) (f : Dir → Artifacts → Artifacts) : Disk :=
  fun dir key' => if key' = key then f dir (disk dir key') else disk dir key'

def onDir (dir : Dir) (f : Artifacts → Artifacts) : Dir → Artifacts → Artifacts :=
  fun dir' a => if dir' = dir then f a else a

@[simp] theorem onDir_same (dir : Dir) (f : Artifacts → Artifacts) (a : Artifacts) :
    onDir dir f dir a = f a :=
  if_pos rfl

theorem onDir_of_ne {dir dir' : Dir} (f : Artifacts → Artifacts) (a : Artifacts)
    (h : dir' ≠ dir) : onDir dir f dir' a = a :=
  if_neg h

@[simp] theorem Disk.modifyKey_same (disk : Disk) (key : Key) (f : Dir → Artifacts → Artifacts)
    (dir : Dir) : disk.modifyKey key f dir key = f dir (disk dir key) :=
  if_pos rfl

theorem Disk.modifyKey_of_ne (disk : Disk) {key key' : Key} (f : Dir → Artifacts → Artifacts)
    (dir : Dir) (h : key' ≠ key) : disk.modifyKey key f dir key' = disk dir key' :=
  if_neg h

theorem Disk.modify_eq (disk : Disk) (dir : Dir) (key : Key) (f : Artifacts → Artifacts) :
    disk.modify dir key f = disk.modifyKey key (onDir dir f) := by
  funext dir' key'
  by_cases hkey : key' = key
  · subst hkey
    by_cases hdir : dir' = dir
    · subst hdir
      rw [Disk.modify_same, Disk.modifyKey_same, onDir_same]
    · rw [Disk.modify_of_dir_ne _ _ hdir, Disk.modifyKey_same, onDir_of_ne _ _ hdir]
  · rw [Disk.modify_of_key_ne _ _ hkey, Disk.modifyKey_of_ne _ _ _ hkey]

theorem Disk.modifyKey_id (disk : Disk) (key : Key) : disk.modifyKey key (fun _ a => a) = disk := by
  funext dir' key'
  unfold Disk.modifyKey
  split_ifs <;> rfl

theorem Disk.modifyKey_modifyKey (disk : Disk) (key : Key) (f g : Dir → Artifacts → Artifacts) :
    (disk.modifyKey key f).modifyKey key g = disk.modifyKey key fun dir a => g dir (f dir a) := by
  funext dir key'
  unfold Disk.modifyKey
  split_ifs <;> rfl

/-- The body checksum in the `.tids` header, which both sides use as the
generation token of a base build. Only magic and version are looked at. -/
def cuvsReadTidsCrc (a : Artifacts) : Option UInt32 :=
  match a.tids with
  | none => none
  | some f =>
    if f.header.magic ≠ tidsMagic ∨ f.header.version ≠ tidsVersion then none
    else some f.header.bodyCrc32

end PgCuvs
