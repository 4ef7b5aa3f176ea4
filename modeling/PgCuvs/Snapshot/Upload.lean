import PgCuvs.Library.Run
import PgCuvs.Snapshot.Names

/-! Uploading snapshots: what an upload thread sends after a build, in which order, and the
object store under every interleaving of such threads. -/

namespace PgCuvs

open Numerals

/-- What a file or an object holds, a character for each byte. -/
abbrev Contents := List Char

structure Sha256 where
  digest : Contents → List UInt8
  digest_length : ∀ c, (digest c).length = 32

def hexByte (b : UInt8) : List Char :=
  [Nat.digitChar (b.toNat / 16), Nat.digitChar (b.toNat % 16)]

theorem hexByte_chars (b : UInt8) : ∀ c ∈ hexByte b, c ≠ '"' ∧ c ≠ '\x00' := by
  have hdigit : ∀ n < 16, Nat.digitChar n ≠ '"' ∧ Nat.digitChar n ≠ '\x00' := by decide
  rw [hexByte, List.forall_mem_cons, List.forall_mem_singleton]
  exact ⟨hdigit _ (Nat.div_lt_of_lt_mul b.toNat_lt), hdigit _ (Nat.mod_lt _ (by decide))⟩

theorem length_flatMap_hexByte (bytes : List UInt8) :
    (bytes.flatMap hexByte).length = 2 * bytes.length := by
  induction bytes with
  | nil => rfl
  | cons b bytes ih =>
    rw [List.flatMap_cons, List.length_append, ih, List.length_cons]
    show 2 + 2 * bytes.length = _
    omega

namespace Sha256

variable (sha : Sha256)

theorem hex_chars (c : Contents) :
    ∀ d ∈ (sha.digest c).flatMap hexByte, d ≠ '"' ∧ d ≠ '\x00' := by
  intro d hd
  obtain ⟨b, -, hb⟩ := List.mem_flatMap.mp hd
  exact hexByte_chars b d hb

def hex (c : Contents) : CString 65 where
  chars := (sha.digest c).flatMap hexByte
  fits := by
    rw [length_flatMap_hexByte, sha.digest_length]
    decide
  unterminated := fun h => (sha.hex_chars c _ h).2 rfl

end Sha256

/-- `cuvs_sha256_file` on what the file holds, if it can be read. -/
def cuvsSha256File (sha : Sha256) (file : Option Contents) : Option (CString 65) :=
  file.map sha.hex

/-- `PG_CUVS_VERSION` and `CUVS_BUILD_VERSION` of a daemon. -/
structure BuildStamps where
  pgCuvsVersion : CString 32
  cuvsVersion : CString 32
  pgCuvs_unquoted : '"' ∉ pgCuvsVersion.chars
  cuvs_unquoted : '"' ∉ cuvsVersion.chars

inductive UploadKind
  | unsharded
  | sharded (shardCount : UInt32) (h : 2 ≤ shardCount)

/-- What `handle_build` gives the thread; it starts none for a build without relfilenode. -/
structure UploadArgs where
  kind : UploadKind
  dbOid : UInt32
  tableOid : UInt32
  indexOid : UInt32
  relfilenode : UInt32
  metric : UInt32
  dim : UInt32
  vectorCount : Int64
  baseGeneration : UInt32
  relfilenode_ne : relfilenode ≠ 0

/-- What the thread finds when it starts: a bearer token, the files it hashes, their sizes
and the second. -/
structure UploadEnv where
  token : Bool
  file : SnapshotFile → Option Contents
  statSize : SnapshotFile → Option Int64
  now : Int64

def metricText (metric : UInt32) : CString 8 :=
  if metric = 1 then ⟨"cosine".toList, by decide, by decide⟩
  else if metric = 2 then ⟨"ip".toList, by decide, by decide⟩
  else ⟨"l2".toList, by decide, by decide⟩

theorem metricText_unquoted (metric : UInt32) : '"' ∉ (metricText metric).chars := by
  rw [metricText]
  split_ifs
  · show '"' ∉ "cosine".toList
    decide
  · show '"' ∉ "ip".toList
    decide
  · show '"' ∉ "l2".toList
    decide

def manifestOf (stamps : BuildStamps) (args : UploadArgs) (env : UploadEnv) : CuvsManifest where
  pgCuvsVersion := stamps.pgCuvsVersion
  cuvsVersion := stamps.cuvsVersion
  metricName := metricText args.metric
  databaseOid := args.dbOid
  tableOid := args.tableOid
  indexOid := args.indexOid
  relfilenode := args.relfilenode
  baseGeneration := args.baseGeneration
  dim := args.dim
  vectorCount := args.vectorCount
  buildTimestamp := env.now
  cagraSha256 := .empty (Nat.succ_pos 64)
  cagraSizeBytes := 0
  tidsSha256 := .empty (Nat.succ_pos 64)
  tidsSizeBytes := 0
  shardCount := 0
  shardsSha256 := .empty (Nat.succ_pos 64)
  shardsSizeBytes := 0

inductive Put
  | artifact (file : SnapshotFile)
  | manifest (slot : SnapshotSlot)
deriving DecidableEq

structure Upload where
  target : SnapshotTarget
  args : UploadArgs
  env : UploadEnv
  manifest : CuvsManifest
  puts : List Put

/-- The manifest goes last, and first to the slot of this second. -/
def manifestPuts (now : Int64) : List Put := [.manifest (.version now), .manifest .latest]

def shardNames (shardCount : UInt32) : List SnapshotFile :=
  (List.range shardCount.toNat).map fun s => .shard s.toUInt32

def cuvsObjstoreUpload (sha : Sha256) (target : SnapshotTarget) (stamps : BuildStamps)
    (args : UploadArgs) (env : UploadEnv) : Option Upload := do
  -- the files are hashed before they are sent and read again for that
  let cagraSha ← cuvsSha256File sha (env.file .cagra)
  let tidsSha ← cuvsSha256File sha (env.file .tids)
  some
    { target, args, env
      manifest :=
        { manifestOf stamps args env with
          cagraSha256 := cagraSha
          cagraSizeBytes := (env.statSize .cagra).getD (-1)
          tidsSha256 := tidsSha
          tidsSizeBytes := (env.statSize .tids).getD (-1) }
      puts := [.artifact .cagra, .artifact .tids] ++ manifestPuts env.now }

def cuvsObjstoreUploadSharded (sha : Sha256) (target : SnapshotTarget) (stamps : BuildStamps)
    (args : UploadArgs) (shardCount : UInt32) (env : UploadEnv) : Option Upload := do
  let tidsSha ← cuvsSha256File sha (env.file .tids)
  let shardsSha ← cuvsSha256File sha (env.file .shards)
  some
    { target, args, env
      manifest :=
        { manifestOf stamps args env with
          shardCount
          tidsSha256 := tidsSha
          tidsSizeBytes := (env.statSize .tids).getD (-1)
          shardsSha256 := shardsSha
          shardsSizeBytes := (env.statSize .shards).getD (-1) }
      puts := (shardNames shardCount).map .artifact ++ [.artifact .tids, .artifact .shards] ++
        manifestPuts env.now }

/-- What a thread comes to before its first request: nothing without snapshots, without a
token, or where a file cannot be hashed. -/
def startUpload (sha : Sha256) (cfg : SnapshotConfig) (stamps : BuildStamps) (args : UploadArgs)
    (env : UploadEnv) : Option Upload := do
  if cfg.uri.chars = [] then none
  else
    let target ← cfg.target
    if env.token = true then
      match args.kind with
      | .unsharded => cuvsObjstoreUpload sha target stamps args env
      | .sharded shardCount _ => cuvsObjstoreUploadSharded sha target stamps args shardCount env
    else none

def CuvsManifest.files (m : CuvsManifest) : List SnapshotFile :=
  if 2 ≤ m.shardCount then .tids :: .shards :: shardNames m.shardCount else [.cagra, .tids]

namespace Upload

variable (u : Upload)

def object (slot : SnapshotSlot) (file : SnapshotFile) : ObjectName :=
  u.target.object u.args.dbOid u.args.indexOid slot file

def putObject : Put → ObjectName
  | .artifact file => u.object (.version u.env.now) file
  | .manifest slot => u.object slot .manifest

def json : Contents := manifestToJson u.manifest 4096

end Upload

/-- How a request ends: the store has the object or not, and the thread hears of it or not. -/
inductive PutResult
  | stored
  | lost
  | failed
deriving DecidableEq

/-- The object store, and the upload threads of all daemons that write to it: what each has
still to send, and what it has returned. -/
structure ObjectStore where
  objects : ObjectName → Option Contents
  uploads : List Upload
  todo : ℕ → List Put
  rc : ℕ → Option ℤ

def ObjectStore.empty : ObjectStore := ⟨fun _ => none, [], fun _ => [], fun _ => none⟩

inductive UploadEvent
  | start (cfg : SnapshotConfig) (stamps : BuildStamps) (args : UploadArgs) (env : UploadEnv)
  /-- `read` is what the file of the request holds by now -/
  | put (thread : ℕ) (read : Option Contents) (result : PutResult)

namespace ObjectStore

def payload (u : Upload) (read : Option Contents) : Put → Option Contents
  | .artifact _ => read
  | .manifest _ => some u.json

def store (s : ObjectStore) (name : ObjectName) (c : Contents) : ObjectStore :=
  { s with objects := Function.update s.objects name (some c) }

def advance (s : ObjectStore) (thread : ℕ) (rest : List Put) : ObjectStore :=
  { s with
    todo := Function.update s.todo thread rest
    rc := if rest = [] then Function.update s.rc thread (some 0) else s.rc }

def abort (s : ObjectStore) (thread : ℕ) : ObjectStore :=
  { s with
    todo := Function.update s.todo thread []
    rc := Function.update s.rc thread (some (-1)) }

/-- A failed request ends the upload, but for the one to the alias. -/
def put (s : ObjectStore) (u : Upload) (thread : ℕ) (p : Put) (rest : List Put)
    (read : Option Contents) (result : PutResult) : ObjectStore :=
  match payload u read p with
  | none => s.abort thread
  | some c =>
    let s := if result = .failed then s else s.store (u.putObject p) c
    if result = .stored ∨ p = .manifest .latest then s.advance thread rest else s.abort thread

def step (sha : Sha256) (s : ObjectStore) : UploadEvent → ObjectStore
  | .start cfg stamps args env =>
    match startUpload sha cfg stamps args env with
    | none => s
    | some u =>
      { s with
        uploads := s.uploads ++ [u]
        todo := Function.update s.todo s.uploads.length u.puts }
  | .put thread read result =>
    match s.uploads[thread]?, s.todo thread with
    | some u, p :: rest => s.put u thread p rest read result
    | _, _ => s

end ObjectStore

end PgCuvs
