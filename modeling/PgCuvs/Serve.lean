import PgCuvs.Search.DeferredMoves
import PgCuvs.Write

/-! The daemon as a machine: one step for each stretch a request holds the lock. -/

namespace PgCuvs

/-- The daemon and the requests that have given up the lock for a while. -/
structure Server where
  daemon : Daemon
  builds : List (CorpusKind × BuildTicket)
  flats : List FlatTicket
  compacts : List CompactTicket

def Server.initial (maxVramPerGpu : ℕ → ℕ) (disk : Disk) : Server where
  daemon := Daemon.initial maxVramPerGpu disk
  builds := []
  flats := []
  compacts := []

def Disk.fresh : Disk := fun _ _ => Artifacts.empty

inductive Request (D : Type) where
  | search (env : Env) (senv : SearchEnv) (kern : Kernels D) (frame : SearchFrame)
  | resume (env : Env) (senv : SearchEnv) (kern : Kernels D) (frame : SearchFrame) (mode : ℕ)
      (query : Vec)
  | batch (env : Env) (kern : Kernels D) (latencyUs : ℕ) (r0 : BatchRequest)
      (reqs : List BatchRequest)
  | fanout (env : Env) (senv : SearchEnv) (kern : Kernels D) (f : Fanout)
  | build (env : Env) (benv : BuildEnv) (frame : BuildFrame) (input : BuildInput)
  | buildRetry (env : Env) (j : ℕ)
  | buildEnd (env : Env) (benv : BuildEnv) (j : ℕ) (outcome : BuildOutcome)
  | flat (env : Env) (benv : BuildEnv) (frame : BuildFrame) (input : BuildInput)
  | flatEnd (env : Env) (j : ℕ)
  | ivfpq (env : Env) (benv : BuildEnv) (frame : BuildFrame) (input : BuildInput)
  | extend (frame : BuildFrame) (input : BuildInput) (outcome : ExtendOutcome)
  | compact (key : Key) (indexDir : Option Dir)
  | compactEnd (env : Env) (j : ℕ) (image : Option (List UInt8))
  | markStale (env : Env) (key : Key) (opens : Bool)
  | drop (key : Key)
  /-- a backend rewrites `.delta` and `.tombstone` -/
  | sidecars (dir : Dir) (key : Key) (delta : Option (Stamped DeltaFile))
      (tombstone : Option TombstoneFile)
  /-- the daemon goes down between two requests and comes up again -/
  | restart

variable {D : Type} [LT D] [DecidableLT D]

def Effect.quiet (d : Daemon) : Effect := ⟨d, .keep, .ok⟩

/-- What a request does to the daemon, up to its last step on the registry. -/
def Request.effect (cfg : Config) (s : Server) : Request D → Effect
  | .search env senv kern frame => .quiet (handleSearch cfg env senv kern s.daemon frame).daemon
  | .resume env senv kern frame mode query =>
    .quiet (resumeSearch cfg env senv kern s.daemon frame mode query).daemon
  | .batch env kern latencyUs r0 reqs =>
    .quiet (batchRunGroup cfg env kern latencyUs s.daemon r0 reqs).1
  | .fanout env senv kern f => .quiet (finishFanout cfg env senv kern s.daemon f).1
  | .build env benv frame input =>
    match beginBuild cfg env benv s.daemon frame input with
    | .done x => x
    | .unlocked d _ _ => .quiet d
  | .buildRetry env j =>
    match s.builds[j]? with
    | some (_, t) => .quiet (retryBuild cfg env s.daemon t).1
    | none => .quiet s.daemon
  | .buildEnd env benv j outcome =>
    match s.builds[j]? with
    | some (kind, t) => endBuild cfg env benv s.daemon kind t outcome
    | none => .quiet s.daemon
  | .flat env benv frame input =>
    match beginBuildFlat cfg env benv s.daemon frame input with
    | .error x => x
    | .ok (d, _) => .quiet d
  | .flatEnd env j =>
    match s.flats[j]? with
    | some t => endBuildFlat cfg env s.daemon t
    | none => .quiet s.daemon
  | .ivfpq env benv frame input => handleBuildIvfpq cfg env benv s.daemon frame input
  | .extend frame input outcome => handleExtend s.daemon frame input outcome
  | .compact _ _ => .quiet s.daemon
  | .compactEnd env j image =>
    match s.compacts[j]? with
    | some t => endCompact cfg env s.daemon t image
    | none => .quiet s.daemon
  | .markStale env key opens => handleMarkStale cfg env s.daemon key opens
  | .drop key => handleDrop cfg s.daemon key
  | .sidecars dir key delta tombstone =>
    .quiet { s.daemon with
      disk := s.daemon.disk.modify dir key fun a => { a with delta, tombstone } }
  | .restart => .quiet (Daemon.initial s.daemon.maxVramPerGpu s.daemon.disk)

def Request.tickets (cfg : Config) (s : Server) : Request D → Server
  | .build env benv frame input =>
    match beginBuild cfg env benv s.daemon frame input with
    | .unlocked _ kind t => { s with builds := s.builds ++ [(kind, t)] }
    | .done _ => s
  | .buildEnd _ _ j _ => { s with builds := s.builds.eraseIdx j }
  | .flat env benv frame input =>
    match beginBuildFlat cfg env benv s.daemon frame input with
    | .ok (_, t) => { s with flats := s.flats ++ [t] }
    | .error _ => s
  | .flatEnd _ j => { s with flats := s.flats.eraseIdx j }
  | .compact key indexDir =>
    match beginCompact cfg s.daemon key indexDir with
    | .ok t => { s with compacts := s.compacts ++ [t] }
    | .error _ => s
  | .compactEnd _ j _ => { s with compacts := s.compacts.eraseIdx j }
  | .restart => { s with builds := [], flats := [], compacts := [] }
  | _ => s

def Server.step (cfg : Config) (s : Server) (r : Request D) : Server :=
  { r.tickets cfg s with daemon := (r.effect cfg s).final }

section Sample

/-- Rows with the heap TIDs `first`, `first + 1`, .. and the vectors `[x]`, `[x + 1]`, .. -/
def sampleInput (first : Tid) (x : UInt32) : BuildInput :=
  ⟨some "", .ok ⟨fun i => first + i, fun i => [x + UInt32.ofNat i]⟩, none⟩

def sampleVecs (x : UInt32) (n : ℕ) : List Vec := (List.range n).map fun i => [x + UInt32.ofNat i]

def sampleIndexBuild (key : Key) (nVecs : ℤ) : BuildFrame where
  key := key
  nVecs := nVecs
  dim := 1
  metric := .l2
  nPartials := 0
  shardCount := 1
  graphDegree := 0
  useCpuHnsw := false
  pqDim := 0
  pqBits := 0

end Sample

end PgCuvs
