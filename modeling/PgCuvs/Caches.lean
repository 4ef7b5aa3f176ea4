import PgCuvs.Evict

/-! The resident brute-force caches of an entry: pending delta rows, the whole
corpus, and one per shard. Each refresh reads only the entry's own files; what
it needs from the registry is whether a device has spare room. -/

namespace PgCuvs

/-- `room e' device needed`: with the entry as `e'`, the device takes `needed`
more bytes without evicting anything. -/
abbrev Room := IndexEntry → ℕ → ℕ → Bool

def hasRoom (env : Env) (d : Daemon) (i : ℕ) : Room := fun e device needed =>
  let d := d.setEntry i e
  !(decide (0 < d.maxVramPerGpu device)
      && decide (d.maxVramPerGpu device < totalVramUsed d device + needed))
    && decide (needed ≤ env.freeVram d.live device)

/-- The generation check of the daemon looks at the magic alone. -/
def tidsGeneration (a : Artifacts) : Option UInt32 :=
  match a.tids with
  | none => none
  | some f => if f.header.magic ≠ tidsMagic then none else some f.header.bodyCrc32

/-- `fail_cleanup` of `refresh_delta_cache`. -/
def dropDeltaHost (e : IndexEntry) : IndexEntry :=
  { e with deltaTids := none, deltaVecsHost := none, deltaNCached := 0, deltaGeneration := 0 }

/-- A changed file drops the GPU index but keeps the host rows for now. -/
def beginDeltaRefresh (mtime : ℕ) (e : IndexEntry) : IndexEntry :=
  { e with deltaIdx := none, nDelta := 0, deltaVramBytes := 0, deltaMtime := mtime }

def installDelta (hdr : DeltaHeader) (needed : ℕ) (rows : List Vec) (e : IndexEntry) :
    IndexEntry :=
  { e with
    deltaIdx := some { dim := hdr.dim, rows, metric := hdr.metric, precision := 0 }
    nDelta := hdr.nRows, deltaNCached := hdr.nRows, deltaVramBytes := needed }

/-- Append the rows past the cached ones to the host buffers and rebuild. -/
def extendDeltaCache (builds : List Vec → ℕ → Bool) (hdr : DeltaHeader) (body : List DeltaRecord)
    (needed prevCached : ℕ) (hostTids : List Tid) (hostVecs : List Vec) (e : IndexEntry) :
    IndexEntry :=
  let new := (body.take hdr.nRows).drop prevCached
  let tids := hostTids.take prevCached ++ new.map DeltaRecord.tid
  let vecs := hostVecs.take prevCached ++ new.map DeltaRecord.vec
  let e := { e with deltaTids := some tids, deltaVecsHost := some vecs }
  if body.length < hdr.nRows then e
  else if builds vecs (deltaGpuOf e) then installDelta hdr needed vecs e
  else e

/-- Read every row into fresh buffers; the old ones stay if the build fails. -/
def rebuildDeltaCache (builds : List Vec → ℕ → Bool) (hdr : DeltaHeader) (body : List DeltaRecord)
    (needed : ℕ) (e : IndexEntry) : IndexEntry :=
  let rows := body.take hdr.nRows
  let vecs := rows.map DeltaRecord.vec
  if body.length < hdr.nRows then e
  else if builds vecs (deltaGpuOf e) then
    installDelta hdr needed vecs
      { e with deltaTids := some (rows.map DeltaRecord.tid), deltaVecsHost := some vecs }
  else e

/-- The part of `refresh_delta_cache` past the header and generation checks. -/
def loadDeltaRows (room : Room) (builds : List Vec → ℕ → Bool) (prevGen : UInt32)
    (prevCached : ℕ) (hdr : DeltaHeader) (body : List DeltaRecord) (e : IndexEntry) :
    IndexEntry :=
  let needed := hdr.nRows * (hdr.dim * 4 + 8)
  if !room e (deltaGpuOf e) needed then dropDeltaHost e
  else
    match e.deltaTids, e.deltaVecsHost with
    | some hostTids, some hostVecs =>
      -- the same base and more rows: only the new ones are read
      if hdr.baseTidsCrc32 = prevGen ∧ prevCached < hdr.nRows then
        extendDeltaCache builds hdr body needed prevCached hostTids hostVecs e
      else rebuildDeltaCache builds hdr body needed e
    | _, _ => rebuildDeltaCache builds hdr body needed e

/-- Bring the delta cache in line with the current `.delta` file. -/
def refreshDeltaCache (a : Artifacts) (room : Room) (builds : List Vec → ℕ → Bool)
    (e : IndexEntry) : IndexEntry :=
  match a.delta with
  | none => freeDeltaCache e
  | some f =>
    if f.mtime = e.deltaMtime then e
    else
      -- the stamp is taken over first: a file that is refused is not looked at again
      let e' := beginDeltaRefresh f.mtime e
      match cuvsDeltaReadHeader f.content with
      | none => dropDeltaHost e'
      | some hdr =>
        if cuvsDeltaValidate hdr f.content.bodyBytes = false ∨ hdr.dim ≠ e.dim
            ∨ hdr.metric ≠ e.metric then dropDeltaHost e'
        else if tidsGeneration a ≠ some hdr.baseTidsCrc32 then dropDeltaHost e'
        else if hdr.nRows = 0 then dropDeltaHost e'
        else
          loadDeltaRows room builds e.deltaGeneration e.deltaNCached hdr f.content.body
            { e' with deltaGeneration := hdr.baseTidsCrc32 }

section DeltaFrame

variable {a : Artifacts} {room : Room} {builds : List Vec → ℕ → Bool}

theorem loadDeltaRows_frame (gen : UInt32) (n : ℕ) (hdr : DeltaHeader) (body : List DeltaRecord)
    (e : IndexEntry) :
    freeDeltaCache (loadDeltaRows room builds gen n hdr body e) = freeDeltaCache e := by
  have hrebuild : ∀ needed, freeDeltaCache (rebuildDeltaCache builds hdr body needed e)
      = freeDeltaCache e := by
    intro needed
    simp only [rebuildDeltaCache]
    split_ifs <;> rfl
  simp only [loadDeltaRows]
  split
  · rfl
  · split
    · split
      · simp only [extendDeltaCache]
        split_ifs <;> rfl
      · exact hrebuild _
    · exact hrebuild _

theorem loadDeltaRows_mtime (gen : UInt32) (n : ℕ) (hdr : DeltaHeader) (body : List DeltaRecord)
    (e : IndexEntry) : (loadDeltaRows room builds gen n hdr body e).deltaMtime = e.deltaMtime := by
  have hrebuild : ∀ needed, (rebuildDeltaCache builds hdr body needed e).deltaMtime
      = e.deltaMtime := by
    intro needed
    simp only [rebuildDeltaCache]
    split_ifs <;> rfl
  simp only [loadDeltaRows]
  split
  · rfl
  · split
    · split
      · simp only [extendDeltaCache]
        split_ifs <;> rfl
      · exact hrebuild _
    · exact hrebuild _

theorem refreshDeltaCache_frame (e : IndexEntry) :
    freeDeltaCache (refreshDeltaCache a room builds e) = freeDeltaCache e := by
  simp only [refreshDeltaCache]
  split
  · rfl
  · split
    · rfl
    · split
      · rfl
      · split_ifs <;> first | rfl | exact loadDeltaRows_frame ..

theorem refreshDeltaCache_field {β : Type*} (f : IndexEntry → β)
    (hf : ∀ e, f (freeDeltaCache e) = f e) (e : IndexEntry) :
    f (refreshDeltaCache a room builds e) = f e := by
  rw [← hf, refreshDeltaCache_frame, hf]

@[simp] theorem refreshDeltaCache_key (e : IndexEntry) :
    (refreshDeltaCache a room builds e).key = e.key :=
  refreshDeltaCache_field IndexEntry.key (fun _ => rfl) e

@[simp] theorem refreshDeltaCache_tids (e : IndexEntry) :
    (refreshDeltaCache a room builds e).tids = e.tids :=
  refreshDeltaCache_field IndexEntry.tids (fun _ => rfl) e

@[simp] theorem refreshDeltaCache_nVecs (e : IndexEntry) :
    (refreshDeltaCache a room builds e).nVecs = e.nVecs :=
  refreshDeltaCache_field IndexEntry.nVecs (fun _ => rfl) e

@[simp] theorem refreshDeltaCache_metric (e : IndexEntry) :
    (refreshDeltaCache a room builds e).metric = e.metric :=
  refreshDeltaCache_field IndexEntry.metric (fun _ => rfl) e

end DeltaFrame

/-- The resident delta index, if there is one, holds exactly `recs`. -/
def DeltaCacheHolds (e : IndexEntry) (recs : List DeltaRecord) : Prop :=
  ∀ b, e.deltaIdx = some b →
    b.rows = recs.map DeltaRecord.vec ∧ e.deltaTids = some (recs.map DeltaRecord.tid) ∧
      e.nDelta = recs.length

/-- The resident delta index was built when the `.delta` file was last seen
changed. -/
def DeltaCurrent (a : Artifacts) (e : IndexEntry) : Prop :=
  e.deltaIdx.isSome ∧ ∃ f, a.delta = some f ∧ f.mtime = e.deltaMtime

theorem refreshDeltaCache_current {a : Artifacts} {room : Room} {builds : List Vec → ℕ → Bool}
    {e : IndexEntry} (h : (refreshDeltaCache a room builds e).deltaIdx.isSome) :
    DeltaCurrent a (refreshDeltaCache a room builds e) := by
  refine ⟨h, ?_⟩
  unfold refreshDeltaCache at h ⊢
  rcases hfile : a.delta with _ | f
  · simp [hfile, freeDeltaCache] at h
  · refine ⟨f, rfl, ?_⟩
    simp only
    split_ifs with hmtime
    · exact hmtime
    · split
      · rfl
      · split_ifs
        · rfl
        · rfl
        · rfl
        · rw [loadDeltaRows_mtime]
          rfl

def bfElementBytes (precision : ℕ) : ℕ := if precision = 1 then 2 else 4

def vectorsForEntry (a : Artifacts) (f : VectorsFile) (e : IndexEntry) :
    Option (VectorsHeader × List Vec) :=
  match cuvsVectorsRead f with
  | none => none
  | some (vh, vecs) =>
    if vh.dim ≠ e.dim ∨ vh.metric ≠ e.metric ∨ vh.nVecs ≠ e.nVecs then none
    else if tidsGeneration a ≠ some vh.baseTidsCrc32 then none
    else some (vh, vecs)

/-- Bring the whole-corpus cache in line with `.vectors` and the precision. -/
def refreshMainBfCache (a : Artifacts) (room : Room) (builds : List Vec → ℕ → Bool)
    (wantPrecision : ℕ) (e : IndexEntry) : IndexEntry :=
  match a.vectors with
  | none => freeMainBfCache e
  | some f =>
    if e.mainBfIdx.isSome ∧ f.mtime = e.mainBfMtime ∧ e.bfPrecision = wantPrecision then e
    else
      let e' := { freeMainBfCache e with mainBfMtime := f.mtime, bfPrecision := wantPrecision }
      match vectorsForEntry a f.content e' with
      | none => e'
      | some (vh, vecs) =>
        let needed := vh.nVecs * vh.dim * bfElementBytes wantPrecision
        if !room e' (deltaGpuOf e') needed then e'
        else if !builds vecs (deltaGpuOf e') then e'
        else
          { e' with
            mainBfIdx := some
              { dim := vh.dim, rows := vecs, metric := vh.metric, precision := wantPrecision }
            mainBfN := vh.nVecs
            mainBfGeneration := vh.baseTidsCrc32
            mainBfVramBytes := needed }

section MainBfFrame

variable {a : Artifacts} {room : Room} {builds : List Vec → ℕ → Bool} {prec : ℕ}

theorem refreshMainBfCache_field {β : Type*} (f : IndexEntry → β)
    (hf : ∀ e idx n bytes mtime gen p, f { e with
      mainBfIdx := idx, mainBfN := n, mainBfVramBytes := bytes, mainBfMtime := mtime
      mainBfGeneration := gen, bfPrecision := p } = f e) (e : IndexEntry) :
    f (refreshMainBfCache a room builds prec e) = f e := by
  simp only [refreshMainBfCache]
  split
  · exact hf e none 0 0 0 0 e.bfPrecision
  · split
    · rfl
    · split
      · exact hf e ..
      · split_ifs <;> exact hf e ..

@[simp] theorem refreshMainBfCache_key (e : IndexEntry) :
    (refreshMainBfCache a room builds prec e).key = e.key :=
  refreshMainBfCache_field IndexEntry.key (fun _ _ _ _ _ _ _ => rfl) e

@[simp] theorem refreshMainBfCache_tids (e : IndexEntry) :
    (refreshMainBfCache a room builds prec e).tids = e.tids :=
  refreshMainBfCache_field IndexEntry.tids (fun _ _ _ _ _ _ _ => rfl) e

@[simp] theorem refreshMainBfCache_nVecs (e : IndexEntry) :
    (refreshMainBfCache a room builds prec e).nVecs = e.nVecs :=
  refreshMainBfCache_field IndexEntry.nVecs (fun _ _ _ _ _ _ _ => rfl) e

end MainBfFrame

def freeShardBfCaches (e : IndexEntry) : IndexEntry :=
  { e with shards := e.shards.map fun s =>
      if s.bfIdx.isSome then { s with bfIdx := none, bfVramBytes := 0 } else s }

/-- Build the caches of the shards from index `s` on; `false` on the first
shard that does not fit or does not build. -/
def buildShardBfCaches (room : Room) (builds : List Vec → ℕ → Bool) (vh : VectorsHeader)
    (vecs : List Vec) (wantPrecision : ℕ) : ℕ → ℕ → IndexEntry → IndexEntry × Bool
  | 0, _, e => (e, true)
  | fuel + 1, s, e =>
    match e.shards[s]? with
    | none => (e, true)
    | some sh =>
      let needed := sh.nVecs * vh.dim * bfElementBytes wantPrecision
      let rows := (vecs.drop sh.tidOffset).take sh.nVecs
      if !room e sh.gpuDeviceId needed then (e, false)
      else if !builds rows sh.gpuDeviceId then (e, false)
      else
        let sh' :=
          { sh with
            bfIdx := some { dim := vh.dim, rows, metric := vh.metric, precision := wantPrecision }
            bfVramBytes := needed }
        buildShardBfCaches room builds vh vecs wantPrecision fuel (s + 1)
          { e with shards := e.shards.set s sh' }

def refreshShardBfCaches (a : Artifacts) (room : Room) (builds : List Vec → ℕ → Bool)
    (wantPrecision : ℕ) (e : IndexEntry) : IndexEntry × Bool :=
  if e.shardCount < 2 ∨ e.shards = [] then (e, false)
  else
    match a.vectors with
    | none => ({ freeShardBfCaches e with mainBfMtime := 0 }, false)
    | some f =>
      if f.mtime = e.mainBfMtime ∧ e.bfPrecision = wantPrecision
          ∧ e.shards.all (fun s => s.bfIdx.isSome) then (e, true)
      else
        let e' := { freeShardBfCaches e with mainBfMtime := f.mtime, bfPrecision := wantPrecision }
        match vectorsForEntry a f.content e' with
        | none => (e', false)
        | some (vh, vecs) =>
          match buildShardBfCaches room builds vh vecs wantPrecision e'.shards.length 0 e' with
          | (e'', true) => (e'', true)
          -- all the shards or none
          | (e'', false) => (freeShardBfCaches e'', false)

end PgCuvs
