import PgCuvs.Build.Handle

/-! The flat and the IVF-PQ build. -/

namespace PgCuvs

section Flat

variable (cfg : Config) (env : Env) (benv : BuildEnv)

/-- A flat build whose files are committed and which has no lock yet. -/
structure FlatTicket where
  frame : BuildFrame
  tids : List Tid
deriving DecidableEq, Repr

/-- The largest budget of a usable device; `none` when one is unlimited. -/
def maxBudget (d : Daemon) : Option ℕ :=
  let budgets := (List.range (nUsableGpus cfg)).map fun i => d.maxVramPerGpu (usableGpu cfg i)
  if budgets.any (· == 0) then none else some (budgets.foldl max 0)

def flatTooLarge (d : Daemon) (nVecs dim : ℕ) : Bool :=
  match maxBudget cfg d with
  | none => false
  | some budget => decide (0 < budget) && decide (budget < nVecs * dim * 4 / 2)

def flatCorpusTexts (needF32 needF16 budget : ℕ) : String :=
  s!"flat corpus {needF32 / 1048576} MB (float16 {needF16 / 1048576} MB) exceeds the GPU VRAM budget ({budget / 1048576} MB); shard the table or use a cagra/ivfpq index"

def checkFlat (d : Daemon) (frame : BuildFrame) (input : BuildInput) : Except Reply (Dir × Corpus) :=
  match input.indexDir with
  | none => .error ⟨.error, "recv index_dir failed"⟩
  | some dir =>
    let n := frame.nVecs.toNat
    if frame.nVecs < 1 ∨ frame.dim = 0 then .error ⟨.error, "flat build needs at least 1 vector"⟩
    else if payloadOverflows n frame.dim then .error ⟨.error, "build payload size overflow"⟩
    else
      match input.segment with
      | .error fault => .error ⟨.error, fault.text⟩
      | .ok s =>
        if flatTooLarge cfg d n frame.dim then
          .error ⟨.oomFallback, flatCorpusTexts (n * frame.dim * 4) (n * frame.dim * 4 / 2)
            ((maxBudget cfg d).getD 0)⟩
        else .ok (saveDir cfg dir, s.corpus n)

/-- Where a flat commit stops. Both files are staged before the first rename. -/
def flatFault : Option (FlatFault × String) :=
  if benv.vectors = .writeFailed then some (.renameVectors, "flat .vectors persist failed")
  else if benv.fault = some .writeTids then some (.renameVectors, "flat .tids persist failed")
  else if benv.vectors = .renameFailed then some (.renameVectors, "flat .vectors rename failed")
  else if benv.fault = some .renameTids then some (.renameTids, "flat .tids rename failed")
  else none

/-- The renames of a flat build are done before it takes the lock. -/
def beginBuildFlat (d : Daemon) (frame : BuildFrame) (input : BuildInput) :
    Except Effect (Daemon × FlatTicket) :=
  match checkFlat cfg d frame input with
  | .error r => .error (Effect.failure d r.status r.error)
  | .ok (dir, corpus) =>
    let vectors : Stamped VectorsFile :=
      ⟨cuvsVectorsWrite frame.dim frame.metric (cuvsCrc32 (tidBytes corpus.tids)) corpus.vecs,
        env.now⟩
    let ops := buildFlatOps (cuvsTidsWrite frame.dim frame.metric corpus.tids) vectors
      ((flatFault benv).map Prod.fst)
    let d := { d with disk := d.disk.modify dir frame.key (runFileOps ops) }
    match flatFault benv with
    | some (_, err) => .error (Effect.failure d .persistFailed err)
    | none => .ok (d, ⟨frame, corpus.tids⟩)

def endBuildFlat (d : Daemon) (t : FlatTicket) : Effect :=
  let gpu := (pickGpuForIndex cfg env d 0).getD (usableGpu cfg 0)
  installEntry cfg env d t.frame.key gpu (.flat env.now t.frame t.tids gpu)
    (.flat env.now t.frame t.tids gpu)

end Flat

section Ivfpq

variable (cfg : Config) (env : Env) (benv : BuildEnv)

def ivfpqVramBytes (frame : BuildFrame) (nVecs : ℕ) : ℕ :=
  let pqDim := if frame.pqDim = 0 then (frame.dim + 1) / 2 else frame.pqDim
  let pqBits := if frame.pqBits = 0 then 8 else frame.pqBits
  nVecs * pqDim * (pqBits / 8 + 1)

/-- `handle_build_ivfpq` keeps the lock to its end. -/
def handleBuildIvfpq (d : Daemon) (frame : BuildFrame) (input : BuildInput) : Effect :=
  let fail (err : String) : Effect := Effect.failure d .error err
  match input.indexDir with
  | none => fail "recv index_dir failed"
  | some dir =>
    if frame.nVecs < 1 ∨ frame.dim = 0 then fail "IVF-PQ build needs at least 1 vector"
    else
      match input.segment with
      | .error fault => fail fault.text
      | .ok s =>
        let n := frame.nVecs.toNat
        let needed := ivfpqVramBytes frame n
        match pickGpuForIndex cfg env d needed with
        | none =>
          Effect.failure d .oomFallback "IVF-PQ index too large for any GPU VRAM budget"
        | some gpu =>
          match ensureVram cfg env d needed gpu with
          | (d, false) => Effect.failure d .oomFallback (CorpusKind.single.exhausted gpu)
          | (d, true) =>
            match benv.ivfpqImage with
            | none => Effect.failure d .buildFailed "cuvs_ivfpq_build failed"
            | some image =>
              let tids := s.tids n
              let ivfpq : IvfPq := ⟨image, s.vecs n⟩
              let ops := buildIvfpqOps (cuvsTidsWrite frame.dim frame.metric tids) ivfpq
                (benv.fault.map SaveFault.commitFault)
              let d :=
                { d with disk := d.disk.modify (saveDir cfg dir) frame.key (runFileOps ops) }
              match benv.fault with
              | some _ => Effect.failure d .persistFailed "IVF-PQ disk persist failed"
              | none =>
                installEntry cfg env d frame.key gpu
                  (.ivfpq env.now frame tids ivfpq needed gpu)
                  (.ivfpq env.now frame tids ivfpq needed gpu)

end Ivfpq

end PgCuvs
