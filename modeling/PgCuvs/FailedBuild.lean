import PgCuvs.Build.Other
import PgCuvs.Crash.Core
import PgCuvs.EvictionPicks
import PgCuvs.RequestSteps

/-! A BUILD first makes room and builds, and only then touches the files of its index. What
a failing one leaves behind is what its evictions and its clean-up took away. -/

namespace PgCuvs

section Prepare

structure BuildPlan where
  kind : CorpusKind
  dir : Dir
  corpus : Corpus
  vectors : VectorsFile

def planBuildMulti (cfg : Config) (frame : BuildFrame) (dir : Dir)
    (partials : Option (List PartialDesc)) : Except String BuildPlan :=
  if frame.nPartials = 0 ∨ buildMaxPartials < frame.nPartials then .error "invalid n_partials"
  else
    match partials with
    | none => .error "recv partial descriptors failed"
    | some descs =>
      match checkPartials descs frame.nVecs with
      | some err => .error err
      | none =>
        match mapPartials descs with
        | .error fault => .error fault.text
        | .ok [] => .error "no non-empty partials"
        | .ok maps =>
          let corpus := assembleCorpus maps
          .ok ⟨.multi, saveDir cfg dir, corpus,
            cuvsVectorsWriteMulti frame.dim frame.metric (cuvsCrc32 (tidBytes corpus.tids))
              (partVecs maps)⟩

def planBuild (cfg : Config) (frame : BuildFrame) (input : BuildInput) : Except String BuildPlan :=
  match input.indexDir with
  | none => .error "recv index_dir failed"
  | some dir =>
    if frame.nVecs < 2 ∨ frame.dim = 0 then .error "CAGRA build needs at least 2 vectors"
    else if payloadOverflows frame.nVecs.toNat frame.dim then .error "build payload size overflow"
    else if 0 < frame.nPartials then planBuildMulti cfg frame dir input.partials
    else
      match input.segment with
      | .error fault => .error fault.text
      | .ok s =>
        let corpus := s.corpus frame.nVecs.toNat
        .ok ⟨.single, saveDir cfg dir, corpus,
          cuvsVectorsWrite frame.dim frame.metric (cuvsCrc32 (tidBytes corpus.tids)) corpus.vecs⟩

inductive Prepared where
  | failed (d : Daemon) (r : Reply)
  | graph (d : Daemon) (t : BuildTicket) (image : List UInt8)
  | sharded (d : Daemon) (dir : Dir) (corpus : Corpus) (shards : List ShardBuild)
  | ivfpq (d : Daemon) (dir : Dir) (corpus : Corpus) (gpu : ℕ) (image : List UInt8)

variable (cfg : Config) (env : Env) (benv : BuildEnv)

def prepareSharded (d : Daemon) (frame : BuildFrame) (dir : Dir) (corpus : Corpus)
    (shardCount : ℕ) : Prepared :=
  let sc := clampShards shardCount corpus.tids.length
  if sc < 2 then
    .failed d ⟨.buildFailed, "shard_count too high for corpus (need >= 2 vectors per shard)"⟩
  else
    match buildShards cfg env benv frame corpus.vecs sc sc 0 d with
    | (d, none) => .failed d ⟨.buildFailed, "sharded build failed"⟩
    | (d, some shards) => .sharded d dir corpus shards

def prepareGraph (d : Daemon) (kind : CorpusKind) (t : BuildTicket) : Prepared :=
  let (d, outcome) := runBuild cfg env benv t (d.live.length + 1) 0 d
  let d := { d with pendingBuildVram := subPending d.pendingBuildVram t.targetGpu t.needed }
  match outcome with
  | .built image => .graph d t image
  | .oom | .failed => .failed d ⟨.buildFailed, kind.buildFailed⟩

def prepareBuild (d : Daemon) (frame : BuildFrame) (input : BuildInput) : Prepared :=
  match planBuild cfg frame input with
  | .error err => .failed d ⟨.error, err⟩
  | .ok p =>
    let sc := resolveShardCount cfg d frame
    if sc = 0 then .failed d ⟨.oomFallback, "index too large for GPU VRAM even when fully sharded"⟩
    else if 2 ≤ sc then prepareSharded cfg env benv d frame p.dir p.corpus sc
    else
      match admitBuild cfg env d p.kind frame p.dir p.corpus p.vectors with
      | (d, .error r) => .failed d r
      | (d, .ok t) => prepareGraph cfg env benv d p.kind t

def prepareIvfpq (d : Daemon) (frame : BuildFrame) (input : BuildInput) : Prepared :=
  match input.indexDir with
  | none => .failed d ⟨.error, "recv index_dir failed"⟩
  | some dir =>
    if frame.nVecs < 1 ∨ frame.dim = 0 then
      .failed d ⟨.error, "IVF-PQ build needs at least 1 vector"⟩
    else
      match input.segment with
      | .error fault => .failed d ⟨.error, fault.text⟩
      | .ok s =>
        let needed := ivfpqVramBytes frame frame.nVecs.toNat
        match pickGpuForIndex cfg env d needed with
        | none => .failed d ⟨.oomFallback, "IVF-PQ index too large for any GPU VRAM budget"⟩
        | some gpu =>
          match ensureVram cfg env d needed gpu with
          | (d, false) => .failed d ⟨.oomFallback, CorpusKind.single.exhausted gpu⟩
          | (d, true) =>
            match benv.ivfpqImage with
            | none => .failed d ⟨.buildFailed, "cuvs_ivfpq_build failed"⟩
            | some image => .ivfpq d (saveDir cfg dir) (s.corpus frame.nVecs.toNat) gpu image

end Prepare

section Commit

variable (cfg : Config) (env : Env) (benv : BuildEnv)

def commitFiles (d : Daemon) (dir : Dir) (key : Key) (ops : List FileOp) : Daemon :=
  { d with disk := d.disk.modify dir key (runFileOps ops) }

/-- The second half of `build_sharded`. -/
def commitSharded (d : Daemon) (frame : BuildFrame) (dir : Dir) (corpus : Corpus)
    (shards : List ShardBuild) : Effect :=
  let tids := corpus.tids
  let stage := stageVectors env benv
    (cuvsVectorsWrite frame.dim frame.metric (cuvsCrc32 (tidBytes tids)) corpus.vecs)
  let a := d.disk dir frame.key
  match benv.shardedFault with
  | some .persist =>
    Effect.failure (commitFiles d dir frame.key stage.before) .persistFailed "sharded persist failed"
  | some (.rename done) =>
    Effect.failure
      (commitFiles d dir frame.key
        (buildShardedOps a frame.dim frame.metric tids shards stage (some done)))
      .persistFailed "sharded commit rename failed"
  | none =>
    let d := commitFiles d dir frame.key
      (buildShardedOps a frame.dim frame.metric tids shards stage none)
    let entries := shardEntries frame 0 0 shards
    installEntry cfg env d frame.key (usableGpu cfg 0) (.sharded env.now frame tids entries)
      (.sharded env.now frame tids entries)

/-- The second half of `handle_build_ivfpq`. -/
def commitIvfpq (d : Daemon) (frame : BuildFrame) (dir : Dir) (corpus : Corpus) (gpu : ℕ)
    (image : List UInt8) : Effect :=
  let needed := ivfpqVramBytes frame frame.nVecs.toNat
  let ivfpq : IvfPq := ⟨image, corpus.vecs⟩
  let d := commitFiles d dir frame.key
    (buildIvfpqOps (cuvsTidsWrite frame.dim frame.metric corpus.tids) ivfpq
      (benv.fault.map SaveFault.commitFault))
  match benv.fault with
  | some _ => Effect.failure d .persistFailed "IVF-PQ disk persist failed"
  | none =>
    installEntry cfg env d frame.key gpu (.ivfpq env.now frame corpus.tids ivfpq needed gpu)
      (.ivfpq env.now frame corpus.tids ivfpq needed gpu)

def Prepared.commit (frame : BuildFrame) : Prepared → Effect
  | .failed d r => Effect.failure d r.status r.error
  | .graph d t image => finishBuildCommit cfg env benv d t ⟨image, t.corpus.vecs⟩
  | .sharded d dir corpus shards => commitSharded cfg env benv d frame dir corpus shards
  | .ivfpq d dir corpus gpu image => commitIvfpq cfg env benv d frame dir corpus gpu image

theorem handleBuildMulti_eq (d : Daemon) (frame : BuildFrame) (dir : Dir)
    (partials : Option (List PartialDesc)) :
    handleBuildMulti cfg env benv d frame dir partials =
      match planBuildMulti cfg frame dir partials with
      | .error err => .done (Effect.failure d .error err)
      | .ok p => startBuild cfg env benv d p.kind frame p.dir p.corpus p.vectors := by
  unfold handleBuildMulti planBuildMulti
  simp only
  split_ifs
  · rfl
  · cases partials with
    | none => rfl
    | some descs =>
      simp only
      cases checkPartials descs frame.nVecs with
      | some err => rfl
      | none =>
        simp only
        rcases mapPartials descs with fault | (_ | ⟨m, ms⟩) <;> rfl

theorem beginBuild_eq (d : Daemon) (frame : BuildFrame) (input : BuildInput) :
    beginBuild cfg env benv d frame input =
      match planBuild cfg frame input with
      | .error err => .done (Effect.failure d .error err)
      | .ok p => startBuild cfg env benv d p.kind frame p.dir p.corpus p.vectors := by
  unfold beginBuild planBuild
  cases input.indexDir with
  | none => rfl
  | some dir =>
    simp only
    split_ifs
    · rfl
    · rfl
    · exact handleBuildMulti_eq cfg env benv d frame dir input.partials
    · cases input.segment <;> rfl

theorem buildSharded_eq (d : Daemon) (frame : BuildFrame) (dir : Dir) (corpus : Corpus)
    (shardCount : ℕ) : buildSharded cfg env benv d frame dir corpus shardCount =
      (prepareSharded cfg env benv d frame dir corpus shardCount).commit cfg env benv frame := by
  simp only [buildSharded, prepareSharded]
  split_ifs
  · rfl
  · rcases buildShards cfg env benv frame corpus.vecs (clampShards shardCount corpus.tids.length)
      (clampShards shardCount corpus.tids.length) 0 d with ⟨d1, _ | shards⟩ <;> rfl

theorem handleBuild_eq (d : Daemon) (frame : BuildFrame) (input : BuildInput) :
    handleBuild cfg env benv d frame input =
      (prepareBuild cfg env benv d frame input).commit cfg env benv frame := by
  unfold handleBuild prepareBuild
  rw [beginBuild_eq]
  cases planBuild cfg frame input with
  | error err => rfl
  | ok p =>
    simp only [startBuild]
    split_ifs
    · rfl
    · exact buildSharded_eq cfg env benv d frame p.dir p.corpus _
    · rcases admitBuild cfg env d p.kind frame p.dir p.corpus p.vectors with ⟨d1, r | t⟩
      · rfl
      · simp only [prepareGraph]
        rcases runBuild cfg env benv t (d1.live.length + 1) 0 d1 with ⟨d2, image | _ | _⟩ <;> rfl

theorem handleBuildIvfpq_eq (d : Daemon) (frame : BuildFrame) (input : BuildInput) :
    handleBuildIvfpq cfg env benv d frame input =
      (prepareIvfpq cfg env benv d frame input).commit cfg env benv frame := by
  unfold handleBuildIvfpq prepareIvfpq
  cases input.indexDir with
  | none => rfl
  | some dir =>
    simp only
    split_ifs
    · rfl
    · cases input.segment with
      | error fault => rfl
      | ok seg =>
        simp only
        cases pickGpuForIndex cfg env d (ivfpqVramBytes frame frame.nVecs.toNat) with
        | none => rfl
        | some gpu =>
          simp only
          rcases ensureVram cfg env d (ivfpqVramBytes frame frame.nVecs.toNat) gpu with ⟨d1, _ | _⟩
          · rfl
          · cases benv.ivfpqImage <;> rfl

end Commit

section Own

/-- The files of an index, its registry entry and the reservations are as they were. -/
structure Unchanged (key : Key) (d d' : Daemon) : Prop where
  files : ∀ dir, d'.disk dir key = d.disk dir key
  entry : own key d'.live = own key d.live
  pending : d'.pendingBuildVram = d.pendingBuildVram

variable {cfg : Config} {key : Key} {r r' : Resident} {d d' : Daemon}

theorem MakesRoom.unchanged_iff (h : MakesRoom cfg d d') :
    Unchanged key d d' ↔ Spared cfg key d d' := by
  refine ⟨fun hsame => ⟨congrArg List.length hsame.entry, ?_⟩, fun hspared => ?_⟩
  · rw [hsame.files]
  · obtain ⟨hlen, htids⟩ := hspared
    obtain ⟨hsub, hother, hfiles⟩ := h.evictions.own key
    refine ⟨fun dir => ?_, hsub.eq_of_length hlen, h.pending⟩
    by_cases hdir : dir = cfg.indexDir
    · subst hdir
      rcases hfiles hlen with hsame | hgone
      · exact hsame
      · change d'.disk cfg.indexDir key = { d.disk cfg.indexDir key with tids := none } at hgone
        have hnone : (d.disk cfg.indexDir key).tids = none := by rw [← htids, hgone]
        rw [hgone, ← hnone]
    · exact hother dir hdir

theorem MakesRoom.commit_unchanged_iff (h : MakesRoom cfg d d') {dir : Dir} {ops : List FileOp}
    (hops : ∀ a, (runFileOps ops a).tids = none ∨ (runFileOps ops a).tids = a.tids) :
    Unchanged key d (commitFiles d' dir key ops) ↔
      Spared cfg key d d' ∧ runFileOps ops (d.disk dir key) = d.disk dir key := by
  have hat : (commitFiles d' dir key ops).disk dir key = runFileOps ops (d'.disk dir key) :=
    Disk.modify_same ..
  have hoff : ∀ dir', dir' ≠ dir → (commitFiles d' dir key ops).disk dir' key = d'.disk dir' key :=
    fun dir' hne => if_neg fun h => hne h.1
  constructor
  · intro hsame
    have hlen : (PgCuvs.own key d'.live).length = (PgCuvs.own key d.live).length :=
      congrArg List.length hsame.entry
    have hspared : Spared cfg key d d' := by
      refine ⟨hlen, ?_⟩
      by_cases hdir : cfg.indexDir = dir
      · obtain ⟨-, -, hfiles⟩ := h.evictions.own key
        rcases hfiles hlen with hfile | hgone
        · exact congrArg Artifacts.tids hfile
        · change d'.disk cfg.indexDir key = { d.disk cfg.indexDir key with tids := none } at hgone
          have hfinal := congrArg Artifacts.tids (hsame.files dir)
          rw [hat, ← hdir, hgone] at hfinal
          rw [hgone, ← hfinal]
          rcases hops { d.disk cfg.indexDir key with tids := none } with hnone | hnone <;>
            rw [hnone]
      · rw [← hoff _ hdir, hsame.files]
    refine ⟨hspared, ?_⟩
    rw [← (h.unchanged_iff.mpr hspared).files dir, ← hat, hsame.files,
      (h.unchanged_iff.mpr hspared).files dir]
  · rintro ⟨hspared, hrun⟩
    have hroom := h.unchanged_iff.mpr hspared
    refine ⟨fun dir' => ?_, hroom.entry, hroom.pending⟩
    by_cases hdir : dir' = dir
    · subst hdir
      rw [hat, hroom.files, hrun]
    · rw [hoff dir' hdir, hroom.files]

end Own

section CleanUp

variable {env : Env} {benv : BuildEnv} {a : Artifacts}

theorem before_eq_iff (file : VectorsFile) :
    runFileOps (stageVectors env benv file).before a = a ↔
      (benv.vectors = .writeFailed → a.vectors = none) := by
  unfold stageVectors
  cases benv.vectors with
  | written => simp [VectorsStage.before, runFileOps]
  | renameFailed => simp [VectorsStage.before, runFileOps]
  | writeFailed =>
    refine ⟨fun h _ => ?_, fun h => ?_⟩
    · exact (congrArg Artifacts.vectors h).symm
    · change { a with vectors := none } = a
      rw [← h rfl]

/-- The second rename has put the new `.tids` in the place of the old one. -/
theorem saveFault_eq_iff (tids : TidsFile) (graph : Cagra) (fault : SaveFault) :
    runFileOps (saveIndexOps tids graph (some fault.commitFault)) a = a ↔
      (fault = .renameCagra → a.tids = none) := by
  cases fault with
  | renameCagra =>
    refine ⟨fun h _ => ?_, fun h => ?_⟩
    · exact (congrArg Artifacts.tids h).symm
    · change { a with tids := none } = a
      rw [← h rfl]
  | writeTids | serialize | renameTids => simp [SaveFault.commitFault, saveIndexOps, runFileOps]

theorem run_unlinkShardCagra (k i : ℕ) (a : Artifacts) :
    (runFileOps ((List.range k).map .unlinkShardCagra) a).shardCagra i
      = if i < k then none else a.shardCagra i := by
  induction k with
  | zero => simp [runFileOps]
  | succ k ih =>
    rw [List.range_succ, List.map_append, runFileOps, CrashPrefix.run_append]
    change Function.update (runFileOps ((List.range k).map .unlinkShardCagra) a).shardCagra k none i = _
    rw [Function.update_apply, ih]
    split_ifs <;> first | rfl | omega

def shardedRenames (dim : ℕ) (metric : Metric) (tids : List Tid) (shards : List ShardBuild) :
    List FileOp :=
  renameShardFiles 0 shards ++ [FileOp.renameTids (cuvsTidsWrite dim metric tids),
    FileOp.renameShards (shardManifest dim metric tids shards)]

def shardedFaultOps (renames : List FileOp) (nShards done : ℕ) : List FileOp :=
  renames.take done ++ (List.range (min done nShards)).map FileOp.unlinkShardCagra
    ++ [FileOp.unlinkTids, FileOp.unlinkShards]

/-- What a sharded commit that stops can change at all. -/
theorem shardedFault_frame {dim : ℕ} {metric : Metric} {tids : List Tid} {shards : List ShardBuild}
    {done : ℕ} :
    runFileOps (shardedFaultOps (shardedRenames dim metric tids shards) shards.length done) a =
      { a with
        tids := none, shards := none
        shardCagra := (runFileOps (shardedFaultOps (shardedRenames dim metric tids shards)
          shards.length done) a).shardCagra } := by
  have hops : ∀ o ∈ (shardedRenames dim metric tids shards).take done
      ++ (List.range (min done shards.length)).map FileOp.unlinkShardCagra,
      (∃ f, o = .renameTids f) ∨ (∃ m, o = .renameShards m) ∨ (∃ i c, o = .renameShardCagra i c) ∨
        ∃ i, o = .unlinkShardCagra i := by
    have hfiles : ∀ (j : ℕ) (ss : List ShardBuild), ∀ o ∈ renameShardFiles j ss,
        ∃ i c, o = .renameShardCagra i c := by
      intro j ss
      induction ss generalizing j with
      | nil => exact fun o ho => (nomatch ho)
      | cons b ss ih => exact List.forall_mem_cons.mpr ⟨⟨j, b.graph, rfl⟩, ih (j + 1)⟩
    intro o ho
    rcases List.mem_append.mp ho with hrename | hunlink
    · rcases List.mem_append.mp (List.mem_of_mem_take hrename) with hshard | hlast
      · exact .inr (.inr (.inl (hfiles 0 shards o hshard)))
      · simp only [List.mem_cons, List.not_mem_nil, or_false] at hlast
        rcases hlast with rfl | rfl
        · exact .inl ⟨_, rfl⟩
        · exact .inr (.inl ⟨_, rfl⟩)
    · obtain ⟨i, -, rfl⟩ := List.mem_map.mp hunlink
      exact .inr (.inr (.inr ⟨i, rfl⟩))
  have hframe := CrashPrefix.run_induct FileOp.apply (P := fun b : Artifacts =>
    b = { a with tids := b.tids, shards := b.shards, shardCagra := b.shardCagra }) (s := a)
    (fun o ho b hb => by
      rcases hops o ho with ⟨f, rfl⟩ | ⟨m, rfl⟩ | ⟨i, c, rfl⟩ | ⟨i, rfl⟩
      · exact congrArg (fun b : Artifacts => { b with tids := some f }) hb
      · exact congrArg (fun b : Artifacts => { b with shards := some m }) hb
      · exact congrArg (FileOp.apply (.renameShardCagra i c)) hb
      · exact congrArg (FileOp.apply (.unlinkShardCagra i)) hb) rfl
  unfold shardedFaultOps
  simp only [runFileOps, CrashPrefix.run_append _ _ [FileOp.unlinkTids, FileOp.unlinkShards]]
  exact congrArg (fun b : Artifacts => { b with tids := none, shards := none }) hframe

theorem shardedFault_shardCagra (dim : ℕ) (metric : Metric) (tids : List Tid)
    (shards : List ShardBuild) (done i : ℕ) :
    (runFileOps (shardedFaultOps (shardedRenames dim metric tids shards) shards.length done) a).shardCagra i
      = if i < min done shards.length then none else a.shardCagra i := by
  unfold shardedFaultOps shardedRenames
  simp only [runFileOps, CrashPrefix.run_append, List.take_append, length_renameShardFiles]
  change (runFileOps ((List.range _).map .unlinkShardCagra) _).shardCagra i = _
  rw [run_unlinkShardCagra]
  split_ifs with hi
  · rfl
  · have htail : ∀ (k : ℕ) (b : Artifacts), (CrashPrefix.run FileOp.apply
        (([FileOp.renameTids (cuvsTidsWrite dim metric tids),
          FileOp.renameShards (shardManifest dim metric tids shards)]).take k) b).shardCagra i
        = b.shardCagra i := by
      intro k b
      have hcases : k = 0 ∨ k = 1 ∨ 2 ≤ k := by omega
      rcases hcases with rfl | rfl | hk
      · rfl
      · rfl
      · rw [List.take_of_length_le (by simpa using hk)]
        rfl
    rw [htail]
    exact run_renameShardFiles i 0 done shards a (.inr (by omega))

/-- A sharded commit that stops unlinks the manifest, the `.tids` and every shard file it has
renamed. -/
theorem shardedFault_eq_iff (dim : ℕ) (metric : Metric) (tids : List Tid) (shards : List ShardBuild)
    (done : ℕ) :
    runFileOps (shardedFaultOps (shardedRenames dim metric tids shards) shards.length done) a = a ↔
      a.tids = none ∧ a.shards = none ∧ ∀ i < min done shards.length, a.shardCagra i = none := by
  constructor
  · intro h
    have hframe := shardedFault_frame.symm.trans h
    refine ⟨(congrArg Artifacts.tids hframe).symm, (congrArg Artifacts.shards hframe).symm, ?_⟩
    intro i hi
    have hat := shardedFault_shardCagra (a := a) dim metric tids shards done i
    rw [h, if_pos hi] at hat
    exact hat
  · rintro ⟨htids, hshards, hfiles⟩
    have hsame : (runFileOps (shardedFaultOps (shardedRenames dim metric tids shards) shards.length
        done) a).shardCagra = a.shardCagra := by
      funext i
      rw [shardedFault_shardCagra]
      split_ifs with hi
      · exact (hfiles i hi).symm
      · rfl
    rw [shardedFault_frame, hsame, ← htids, ← hshards]

theorem before_append_iff (file : VectorsFile) {ops : List FileOp}
    (hops : ∀ b, (runFileOps ops b).vectors = b.vectors) :
    runFileOps ((stageVectors env benv file).before ++ ops) a = a ↔
      (benv.vectors = .writeFailed → a.vectors = none) ∧ runFileOps ops a = a := by
  have happend : runFileOps ((stageVectors env benv file).before ++ ops) a
      = runFileOps ops (runFileOps (stageVectors env benv file).before a) :=
    CrashPrefix.run_append ..
  rw [happend]
  have hvectors := hops (runFileOps (stageVectors env benv file).before a)
  constructor
  · intro h
    have hbefore : runFileOps (stageVectors env benv file).before a = a := by
      refine (before_eq_iff file).mpr fun hfailed => ?_
      have hgone : (runFileOps (stageVectors env benv file).before a).vectors = none := by
        simp only [stageVectors, hfailed]
        rfl
      rw [← congrArg Artifacts.vectors h]
      exact hvectors.trans hgone
    refine ⟨(before_eq_iff file).mp hbefore, ?_⟩
    rwa [hbefore] at h
  · rintro ⟨hbefore, hrun⟩
    rw [(before_eq_iff file).mpr hbefore, hrun]

theorem before_append_tids (v : VectorsStage) (ops : List FileOp)
    (hops : ∀ b, (runFileOps ops b).tids = none ∨ (runFileOps ops b).tids = b.tids) (a : Artifacts) :
    (runFileOps (v.before ++ ops) a).tids = none ∨ (runFileOps (v.before ++ ops) a).tids = a.tids := by
  have happend : runFileOps (v.before ++ ops) a = runFileOps ops (runFileOps v.before a) :=
    CrashPrefix.run_append ..
  have htids : (runFileOps v.before a).tids = a.tids := by cases v <;> rfl
  rw [happend, ← htids]
  exact hops _

end CleanUp

section Theorem

variable (cfg : Config) (env : Env) (benv : BuildEnv)

/-- What a build that fails has to find: its own entry spared by the evictions, and nothing
under the names that the clean-up unlinks. -/
def Prepared.Spares (key : Key) (d : Daemon) : Prepared → Prop
  | .failed d' _ => Spared cfg key d d'
  | .graph d' t _ => ∀ fault, benv.fault = some fault → Spared cfg key d d' ∧
      (benv.vectors = .writeFailed → (d.disk t.saveDir key).vectors = none) ∧
      (fault = .renameCagra → (d.disk t.saveDir key).tids = none)
  | .sharded d' dir _ shards => ∀ fault, benv.shardedFault = some fault → Spared cfg key d d' ∧
      (benv.vectors = .writeFailed → (d.disk dir key).vectors = none) ∧
      ∀ done, fault = .rename done → (d.disk dir key).tids = none ∧ (d.disk dir key).shards = none ∧
        ∀ i < min done shards.length, (d.disk dir key).shardCagra i = none
  | .ivfpq d' dir _ _ _ => ∀ fault, benv.fault = some fault → Spared cfg key d d' ∧
      (fault = .renameCagra → (d.disk dir key).tids = none)

def Prepared.Sound (frame : BuildFrame) (d : Daemon) : Prepared → Prop
  | .failed d' r => MakesRoom cfg d d' ∧ r.status ≠ .ok
  | .graph d' t _ => MakesRoom cfg d d' ∧ t.frame = frame
  | .sharded d' _ _ _ | .ivfpq d' _ _ _ _ => MakesRoom cfg d d'

variable {cfg env benv} {d d1 : Daemon} {frame : BuildFrame}

theorem installEntry_status {key : Key} {gpu : ℕ} {w : EntryWrite} {c : SlotInit} :
    (installEntry cfg env d key gpu w c).reply.status = .ok := by
  unfold installEntry
  split
  · rfl
  · simp only
    split_ifs <;> rfl

theorem unchanged_failure_iff {status : Status} {error : String} {key : Key}
    (hstatus : status ≠ .ok) :
    ((Effect.failure d1 status error).reply.status ≠ .ok →
      Unchanged key d (Effect.failure d1 status error).final) ↔ Unchanged key d d1 :=
  ⟨fun h => h hstatus, fun h _ => h⟩

theorem Prepared.unchanged_iff {p : Prepared} (hp : p.Sound cfg frame d) :
    ((p.commit cfg env benv frame).reply.status ≠ .ok →
      Unchanged frame.key d (p.commit cfg env benv frame).final) ↔
      p.Spares cfg benv frame.key d := by
  cases p with
  | failed d1 r => exact (unchanged_failure_iff hp.2).trans hp.1.unchanged_iff
  | graph d1 t image =>
    obtain ⟨hroom, rfl⟩ := hp
    simp only [Prepared.commit, finishBuildCommit, Prepared.Spares]
    cases hfault : benv.fault with
    | none =>
      simp only [installEntry_status]
      simp
    | some fault =>
      have hops : t.commitOps env benv ⟨image, t.corpus.vecs⟩ (d1.disk t.saveDir t.frame.key)
          = (stageVectors env benv t.vectors).before ++ saveIndexOps
            (cuvsTidsWrite t.frame.dim t.frame.metric t.corpus.tids) ⟨image, t.corpus.vecs⟩
            (some fault.commitFault) := by
        simp only [BuildTicket.commitOps, hfault, Option.map_some, finishBuildCommitOps,
          Option.isSome_some, if_true, List.append_nil]
      refine (unchanged_failure_iff (by decide)).trans ?_
      rw [hops]
      refine (hroom.commit_unchanged_iff (before_append_tids _ _ ?_)).trans ?_
      · intro b
        cases fault with
        | renameCagra => exact .inl rfl
        | writeTids | serialize | renameTids => exact .inr rfl
      · rw [before_append_iff, saveFault_eq_iff]
        · simp
        · intro b
          cases fault <;> rfl
  | sharded d1 dir corpus shards =>
    have hroom : MakesRoom cfg d d1 := hp
    simp only [Prepared.commit, commitSharded, Prepared.Spares]
    rcases benv.shardedFault with _ | _ | done
    · simp only [installEntry_status]
      simp
    · refine (unchanged_failure_iff (by decide)).trans ?_
      refine (hroom.commit_unchanged_iff fun b => .inr ?_).trans ?_
      · unfold stageVectors
        cases benv.vectors <;> rfl
      · rw [before_eq_iff]
        simp
    · refine (unchanged_failure_iff (by decide)).trans ?_
      refine (hroom.commit_unchanged_iff (before_append_tids _
        (shardedFaultOps (shardedRenames frame.dim frame.metric corpus.tids shards)
          shards.length done) fun b => .inl ?_)).trans ?_
      · rw [shardedFault_frame]
      · rw [before_append_iff _ fun b => by rw [shardedFault_frame], shardedFault_eq_iff]
        simp
  | ivfpq d1 dir corpus gpu image =>
    have hroom : MakesRoom cfg d d1 := hp
    simp only [Prepared.commit, commitIvfpq, Prepared.Spares]
    cases hfault : benv.fault with
    | none =>
      simp only [installEntry_status]
      simp
    | some fault =>
      refine (unchanged_failure_iff (by decide)).trans ?_
      refine (hroom.commit_unchanged_iff fun b => ?_).trans ?_
      · cases fault with
        | renameCagra => exact .inl rfl
        | writeTids | serialize | renameTids => exact .inr rfl
      · have hops : ∀ (f : TidsFile) (q : IvfPq), runFileOps (buildIvfpqOps f q
            (some fault.commitFault)) (d.disk dir frame.key) = d.disk dir frame.key ↔
              (fault = .renameCagra → (d.disk dir frame.key).tids = none) := by
          intro f q
          rw [← saveFault_eq_iff f ⟨[], []⟩ fault]
          cases fault <;> exact Iff.rfl
        rw [Option.map_some, hops]
        simp

theorem subPending_addPending (pending : ℕ → ℕ) (gpu needed : ℕ) :
    subPending (addPending pending gpu needed) gpu needed = pending := by
  funext g
  unfold subPending addPending
  split_ifs
  · exact Nat.add_sub_cancel ..
  · rfl

theorem admitBuild_room (kind : CorpusKind) (dir : Dir) (corpus : Corpus) (vectors : VectorsFile) :
    match admitBuild cfg env d kind frame dir corpus vectors with
    | (d1, .error r) => MakesRoom cfg d d1 ∧ r.status ≠ .ok
    | (d1, .ok t) => t.frame = frame ∧ Evictions cfg d.resident d1.resident ∧
        d1.maxVramPerGpu = d.maxVramPerGpu ∧
        d1.pendingBuildVram = addPending d.pendingBuildVram t.targetGpu t.needed := by
  simp only [admitBuild]
  cases pickGpuForIndex cfg env d (estimateVramBytes corpus.tids.length frame.dim frame.graphDegree) with
  | none => exact ⟨.refl d, by decide⟩
  | some gpu =>
    have hroom := ensureVram_room cfg env d
      (estimateVramBytes corpus.tids.length frame.dim frame.graphDegree) gpu
    simp only
    rcases hensure : ensureVram cfg env d
      (estimateVramBytes corpus.tids.length frame.dim frame.graphDegree) gpu with ⟨d1, _ | _⟩
    · rw [hensure] at hroom
      exact ⟨hroom, by simp⟩
    · rw [hensure] at hroom
      exact ⟨rfl, hroom.evictions, hroom.budget,
        congrArg (fun pending => addPending pending gpu _) hroom.pending⟩

theorem prepareGraph_sound {kind : CorpusKind} {t : BuildTicket} (hframe : t.frame = frame)
    (hevict : Evictions cfg d.resident d1.resident) (hbudget : d1.maxVramPerGpu = d.maxVramPerGpu)
    (hpending : d1.pendingBuildVram = addPending d.pendingBuildVram t.targetGpu t.needed) :
    (prepareGraph cfg env benv d1 kind t).Sound cfg frame d := by
  have hrun := runBuild_room cfg env benv t (d1.live.length + 1) 0 d1
  unfold prepareGraph
  rcases hran : runBuild cfg env benv t (d1.live.length + 1) 0 d1 with ⟨d2, outcome⟩
  rw [hran] at hrun
  have hroom : MakesRoom cfg d
      { d2 with pendingBuildVram := subPending d2.pendingBuildVram t.targetGpu t.needed } := by
    have hkept : d2.pendingBuildVram = addPending d.pendingBuildVram t.targetGpu t.needed :=
      hrun.pending.trans hpending
    refine ⟨hevict.trans hrun.evictions, hrun.budget.trans hbudget, ?_⟩
    simp only [hkept, subPending_addPending]
  cases outcome with
  | built image => exact ⟨hroom, hframe⟩
  | oom | failed => exact ⟨hroom, by simp⟩

theorem prepareSharded_sound (dir : Dir) (corpus : Corpus) (shardCount : ℕ) :
    (prepareSharded cfg env benv d frame dir corpus shardCount).Sound cfg frame d := by
  have hroom := buildShards_room cfg env benv frame corpus.vecs
    (clampShards shardCount corpus.tids.length) (clampShards shardCount corpus.tids.length) 0 d
  simp only [prepareSharded]
  split_ifs
  · exact ⟨.refl d, by simp⟩
  · rcases hshards : buildShards cfg env benv frame corpus.vecs
      (clampShards shardCount corpus.tids.length) (clampShards shardCount corpus.tids.length) 0 d
      with ⟨d1, _ | shards⟩
    · rw [hshards] at hroom
      exact ⟨hroom, by simp⟩
    · rw [hshards] at hroom
      exact hroom

theorem prepareBuild_sound (input : BuildInput) :
    (prepareBuild cfg env benv d frame input).Sound cfg frame d := by
  unfold prepareBuild
  cases planBuild cfg frame input with
  | error err => exact ⟨.refl d, by simp⟩
  | ok p =>
    simp only
    split_ifs
    · exact ⟨.refl d, by simp⟩
    · exact prepareSharded_sound p.dir p.corpus _
    · have hadmit := @admitBuild_room cfg env d frame p.kind p.dir
        p.corpus p.vectors
      rcases hadmitted : admitBuild cfg env d p.kind frame p.dir p.corpus p.vectors with ⟨d1, r | t⟩
      · rw [hadmitted] at hadmit
        exact hadmit
      · rw [hadmitted] at hadmit
        obtain ⟨hframe, hevict, hbudget, hpending⟩ := hadmit
        exact prepareGraph_sound hframe hevict hbudget hpending

theorem prepareIvfpq_sound (input : BuildInput) :
    (prepareIvfpq cfg env benv d frame input).Sound cfg frame d := by
  unfold prepareIvfpq
  cases input.indexDir with
  | none => exact ⟨.refl d, by simp⟩
  | some dir =>
    simp only
    split_ifs
    · exact ⟨.refl d, by simp⟩
    · cases input.segment with
      | error fault => exact ⟨.refl d, by simp⟩
      | ok seg =>
        simp only
        cases pickGpuForIndex cfg env d (ivfpqVramBytes frame frame.nVecs.toNat) with
        | none => exact ⟨.refl d, by simp⟩
        | some gpu =>
          have hroom := ensureVram_room cfg env d (ivfpqVramBytes frame frame.nVecs.toNat) gpu
          simp only
          rcases hensure : ensureVram cfg env d (ivfpqVramBytes frame frame.nVecs.toNat) gpu
            with ⟨d1, _ | _⟩
          · rw [hensure] at hroom
            exact ⟨hroom, by simp⟩
          · rw [hensure] at hroom
            cases benv.ivfpqImage with
            | none => exact ⟨hroom, by simp⟩
            | some image => exact hroom

end Theorem

/-! The same of the state the build finds. -/

section Condition

variable (cfg : Config) (env : Env) (benv : BuildEnv) (d : Daemon) (frame : BuildFrame)

/-- What a BUILD evicts; done when it comes to its commit. -/
def buildPicks (nVecs : ℕ) : Picks :=
  let sc := resolveShardCount cfg d frame
  if sc = 0 then .nothing d.live false
  else if 2 ≤ sc then
    let sc := clampShards sc nVecs
    if sc < 2 then .nothing d.live false else shardPicks cfg env benv d frame nVecs sc sc 0 d.live
  else
    let needed := estimateVramBytes nVecs frame.dim frame.graphDegree
    match pickGpuForIndex cfg env d needed with
    | none => .nothing d.live false
    | some gpu =>
      let p := ensurePicks env (d.goal needed gpu) d.live
      if p.done then
        p.andThen fun left => retryPicks env benv gpu (left.length + 1) 0 left
      else p

def ivfpqPicks : Picks :=
  let needed := ivfpqVramBytes frame frame.nVecs.toNat
  match pickGpuForIndex cfg env d needed with
  | none => .nothing d.live false
  | some gpu =>
    let p := ensurePicks env (d.goal needed gpu) d.live
    { p with done := p.done && benv.ivfpqImage.isSome }

/-- A build that stops, before its commit or at the fault of it: no pick costs the index
anything, and the clean-up of the commit finds nothing to unlink. -/
structure StopsClean {F : Type} (p : Picks) (fault : Option F) (cleanUp : F → Prop) : Prop where
  picks : p.done = false ∨ fault.isSome →
    ∀ e ∈ p.entries, e.Spares env frame.key (d.disk cfg.indexDir frame.key).tids
  files : p.done = true → ∀ f ∈ fault, cleanUp f

/-- What a BUILD that fails has to find in the registry and on disk. -/
def BuildStopsClean (input : BuildInput) : Prop :=
  ∀ p, planBuild cfg frame input = .ok p →
    let n := p.corpus.tids.length
    let a := d.disk p.dir frame.key
    if 2 ≤ resolveShardCount cfg d frame then
      StopsClean cfg env d frame (buildPicks cfg env benv d frame n) benv.shardedFault fun fault =>
        (benv.vectors = .writeFailed → a.vectors = none) ∧
        ∀ done, fault = .rename done → a.tids = none ∧ a.shards = none ∧
          ∀ i < min done (clampShards (resolveShardCount cfg d frame) n), a.shardCagra i = none
    else
      StopsClean cfg env d frame (buildPicks cfg env benv d frame n) benv.fault fun fault =>
        (benv.vectors = .writeFailed → a.vectors = none) ∧ (fault = .renameCagra → a.tids = none)

def IvfpqStopsClean (input : BuildInput) : Prop :=
  ∀ dir, input.indexDir = some dir → 1 ≤ frame.nVecs → frame.dim ≠ 0 →
    input.segment.toOption.isSome →
    StopsClean cfg env d frame (ivfpqPicks cfg env benv d frame) benv.fault fun fault =>
      fault = .renameCagra → (d.disk (saveDir cfg dir) frame.key).tids = none

variable {cfg env benv d frame}

theorem spared_refl : Spared cfg frame.key d d := ⟨rfl, rfl⟩

theorem stopsClean_nothing {F : Type} {fault : Option F} {cleanUp : F → Prop} :
    StopsClean cfg env d frame (.nothing d.live false) fault cleanUp :=
  ⟨fun _ _ he => (nomatch he), fun h => (nomatch h)⟩

theorem stopsClean_of_stopped {F : Type} {p : Picks} {fault : Option F} {cleanUp : F → Prop}
    (hdone : p.done = false) : StopsClean cfg env d frame p fault cleanUp ↔
      ∀ e ∈ p.entries, e.Spares env frame.key (d.disk cfg.indexDir frame.key).tids :=
  ⟨fun h => h.picks (.inl hdone), fun h => ⟨fun _ => h, fun hd => nomatch hdone.symm.trans hd⟩⟩

theorem stopsClean_of_done {F : Type} {p : Picks} {fault : Option F} {cleanUp : F → Prop}
    (hdone : p.done = true) : StopsClean cfg env d frame p fault cleanUp ↔
      ∀ f, fault = some f →
        (∀ e ∈ p.entries, e.Spares env frame.key (d.disk cfg.indexDir frame.key).tids) ∧
          cleanUp f := by
  constructor
  · rintro ⟨hpicks, hfiles⟩ f rfl
    exact ⟨hpicks (.inr rfl), hfiles hdone f rfl⟩
  · intro h
    refine ⟨?_, fun _ f hf => (h f hf).2⟩
    rintro (hstop | hfault)
    · cases hstop.symm.trans hdone
    · obtain ⟨f, hf⟩ := Option.isSome_iff_exists.mp hfault
      exact (h f hf).1

theorem prepareSharded_spares_iff {dir : Dir} {corpus : Corpus}
    (hsc : 2 ≤ resolveShardCount cfg d frame) :
    (prepareSharded cfg env benv d frame dir corpus (resolveShardCount cfg d frame)).Spares cfg benv
        frame.key d ↔
      StopsClean cfg env d frame (buildPicks cfg env benv d frame corpus.tids.length)
        benv.shardedFault fun fault =>
          (benv.vectors = .writeFailed → (d.disk dir frame.key).vectors = none) ∧
          ∀ done, fault = .rename done →
            (d.disk dir frame.key).tids = none ∧ (d.disk dir frame.key).shards = none ∧
            ∀ i < min done (clampShards (resolveShardCount cfg d frame) corpus.tids.length),
              (d.disk dir frame.key).shardCagra i = none := by
  unfold prepareSharded buildPicks
  simp only [if_neg (show resolveShardCount cfg d frame ≠ 0 by omega), if_pos hsc]
  set sc := clampShards (resolveShardCount cfg d frame) corpus.tids.length with hclamp
  by_cases hfew : sc < 2
  · simp only [if_pos hfew]
    exact iff_of_true spared_refl stopsClean_nothing
  · obtain ⟨hfollows, hdone⟩ := @buildShards_follows cfg env frame.key d d benv frame corpus.vecs sc sc
      0 (.refl d)
    have hlen := (buildShards_spec cfg env benv frame corpus.vecs sc sc 0 d).2
    rw [corpus.length_vecs] at hfollows hdone
    simp only [if_neg hfew]
    rcases hshards : buildShards cfg env benv frame corpus.vecs sc sc 0 d with ⟨d1, _ | shards⟩
    · rw [hshards] at hfollows hdone
      rw [stopsClean_of_stopped hdone]
      exact hfollows.spared
    · rw [hshards] at hfollows hdone hlen
      rw [stopsClean_of_done hdone, ← hfollows.spared, ← hlen shards rfl]
      exact Iff.rfl

theorem Follows.prepareGraph_spares_iff {p : Picks} {d1 d2 : Daemon} {pending : ℕ → ℕ}
    {kind : CorpusKind} {t : BuildTicket} (h : Follows cfg env frame.key d p d1)
    (hd2 : d2 = { d1 with pendingBuildVram := pending }) :
    (prepareGraph cfg env benv d2 kind t).Spares cfg benv frame.key d ↔
      StopsClean cfg env d frame
        (p.andThen fun left => retryPicks env benv t.targetGpu (left.length + 1) 0 left) benv.fault
        fun fault =>
          (benv.vectors = .writeFailed → (d.disk t.saveDir frame.key).vectors = none) ∧
            (fault = .renameCagra → (d.disk t.saveDir frame.key).tids = none) := by
  have hlive : d2.live = d1.live := by
    rw [hd2]
    rfl
  obtain ⟨hfollows, hbuilds⟩ := @runBuild_follows cfg env frame.key benv t (d2.live.length + 1) 0 d2
  unfold prepareGraph
  rcases hrun : runBuild cfg env benv t (d2.live.length + 1) 0 d2 with ⟨d3, outcome⟩
  rw [hrun, hlive] at hfollows hbuilds
  have hretry : Follows cfg env frame.key d1
      (retryPicks env benv t.targetGpu (d1.live.length + 1) 0 d1.live)
      { d3 with pendingBuildVram := d1.pendingBuildVram } := by
    rw [hd2] at hfollows
    exact hfollows.reserved
  set retries := fun left : List IndexEntry =>
    retryPicks env benv t.targetGpu (left.length + 1) 0 left
  have hall : Follows cfg env frame.key d (p.andThen retries) _ := h.andThen hretry
  have hspared := hall.spared
  have hdone : (p.andThen retries).done = outcome.builds := by
    rw [Picks.andThen_done, h.left]
    exact hbuilds
  cases outcome with
  | built image =>
    rw [stopsClean_of_done hdone, ← hspared]
    exact Iff.rfl
  | oom | failed =>
    rw [stopsClean_of_stopped hdone, ← hspared]
    exact Iff.rfl

theorem prepareGraph_spares_iff {dir : Dir} {corpus : Corpus} {kind : CorpusKind}
    {vectors : VectorsFile} (hsc : ¬2 ≤ resolveShardCount cfg d frame)
    (hfits : resolveShardCount cfg d frame ≠ 0) :
    (match admitBuild cfg env d kind frame dir corpus vectors with
      | (d1, .error r) => Prepared.failed d1 r
      | (d1, .ok t) => prepareGraph cfg env benv d1 kind t).Spares cfg benv frame.key d ↔
      StopsClean cfg env d frame (buildPicks cfg env benv d frame corpus.tids.length) benv.fault
        fun fault =>
          (benv.vectors = .writeFailed → (d.disk dir frame.key).vectors = none) ∧
            (fault = .renameCagra → (d.disk dir frame.key).tids = none) := by
  unfold admitBuild buildPicks
  simp only [if_neg hfits, if_neg hsc]
  cases pickGpuForIndex cfg env d
    (estimateVramBytes corpus.tids.length frame.dim frame.graphDegree) with
  | none => exact iff_of_true spared_refl stopsClean_nothing
  | some gpu =>
    obtain ⟨hroom, hdone⟩ := @ensureVram_follows cfg env frame.key d
      (estimateVramBytes corpus.tids.length frame.dim frame.graphDegree) gpu
    dsimp only
    rcases hensure : ensureVram cfg env d
      (estimateVramBytes corpus.tids.length frame.dim frame.graphDegree) gpu with ⟨d1, _ | _⟩
    · rw [hensure] at hroom hdone
      rw [if_neg (by simp [hdone]), stopsClean_of_stopped hdone]
      exact hroom.spared
    · rw [hensure] at hroom hdone
      dsimp only at hroom hdone ⊢
      rw [if_pos hdone]
      exact hroom.prepareGraph_spares_iff rfl

theorem prepareBuild_spares_iff (input : BuildInput) :
    (prepareBuild cfg env benv d frame input).Spares cfg benv frame.key d ↔
      BuildStopsClean cfg env benv d frame input := by
  unfold prepareBuild BuildStopsClean
  cases hplan : planBuild cfg frame input with
  | error err => exact iff_of_true spared_refl fun p hp => (nomatch hp)
  | ok p =>
    simp only [Except.ok.injEq, forall_eq']
    by_cases hzero : resolveShardCount cfg d frame = 0
    · have hnone : buildPicks cfg env benv d frame p.corpus.tids.length = .nothing d.live false := by
        rw [buildPicks, if_pos hzero]
      rw [if_pos hzero, if_neg (by omega), hnone]
      exact iff_of_true spared_refl stopsClean_nothing
    · rw [if_neg hzero]
      by_cases hsc : 2 ≤ resolveShardCount cfg d frame
      · rw [if_pos hsc, if_pos hsc]
        exact prepareSharded_spares_iff hsc
      · rw [if_neg hsc, if_neg hsc]
        exact prepareGraph_spares_iff hsc hzero

theorem prepareIvfpq_spares_iff (input : BuildInput) :
    (prepareIvfpq cfg env benv d frame input).Spares cfg benv frame.key d ↔
      IvfpqStopsClean cfg env benv d frame input := by
  unfold prepareIvfpq IvfpqStopsClean
  cases input.indexDir with
  | none => exact iff_of_true spared_refl fun dir hdir => (nomatch hdir)
  | some dir =>
    simp only [Option.some.injEq, forall_eq']
    by_cases hrows : frame.nVecs < 1 ∨ frame.dim = 0
    · rw [if_pos hrows]
      exact iff_of_true spared_refl fun hvecs hdim => by omega
    · obtain ⟨hvecs, hdim⟩ := not_or.mp hrows
      rw [if_neg hrows]
      cases input.segment with
      | error fault => exact iff_of_true spared_refl fun _ _ hseg => (nomatch hseg)
      | ok seg =>
        have hasks : ∀ {P : Prop}, (1 ≤ frame.nVecs → frame.dim ≠ 0 →
            (Except.ok (ε := ShmFault) seg).toOption.isSome → P) ↔ P :=
          ⟨fun h => h (by omega) hdim rfl, fun h _ _ _ => h⟩
        rw [hasks]
        unfold ivfpqPicks
        dsimp only
        cases pickGpuForIndex cfg env d (ivfpqVramBytes frame frame.nVecs.toNat) with
        | none => exact iff_of_true spared_refl stopsClean_nothing
        | some gpu =>
          obtain ⟨hroom, hdone⟩ := @ensureVram_follows cfg env frame.key d
            (ivfpqVramBytes frame frame.nVecs.toNat) gpu
          dsimp only
          rcases hensure : ensureVram cfg env d (ivfpqVramBytes frame frame.nVecs.toNat) gpu
            with ⟨d1, _ | _⟩
          · rw [hensure] at hroom hdone
            rw [stopsClean_of_stopped (by simp [hdone])]
            exact hroom.spared
          · rw [hensure] at hroom hdone
            cases benv.ivfpqImage with
            | none =>
              rw [stopsClean_of_stopped (by simp)]
              exact hroom.spared
            | some image =>
              rw [stopsClean_of_done (by simp [hdone])]
              dsimp only
              rw [← hroom.spared]
              exact Iff.rfl

variable (cfg env benv d frame)

/-- A build that fails leaves its index as it was exactly if the evictions it makes cost the
index nothing and its clean-up finds nothing to unlink. -/
theorem failed_build_unchanged_iff (input : BuildInput) :
    (((handleBuild cfg env benv d frame input).reply.status ≠ .ok →
        Unchanged frame.key d (handleBuild cfg env benv d frame input).final) ↔
      BuildStopsClean cfg env benv d frame input) ∧
    (((handleBuildIvfpq cfg env benv d frame input).reply.status ≠ .ok →
        Unchanged frame.key d (handleBuildIvfpq cfg env benv d frame input).final) ↔
      IvfpqStopsClean cfg env benv d frame input) := by
  rw [handleBuild_eq, handleBuildIvfpq_eq]
  exact ⟨(Prepared.unchanged_iff (prepareBuild_sound input)).trans (prepareBuild_spares_iff input),
    (Prepared.unchanged_iff (prepareIvfpq_sound input)).trans (prepareIvfpq_spares_iff input)⟩

end Condition

section Sample

def sampleIndexed : Daemon :=
  (handleBuild sampleConfig (Env.quiet 9 100000) (BuildEnv.quiet []) (Daemon.initial (fun _ => 0) Disk.fresh)
    (sampleIndexBuild ⟨1, 2⟩ 2) (sampleInput 101 10)).final

def sampleTornBuild : BuildEnv := { BuildEnv.quiet [] with fault := some .renameCagra }

/-- The failing rebuild leaves the index without its `.tids`. -/
theorem failed_build_unlinks :
    ¬∀ (cfg : Config) (env : Env) (benv : BuildEnv) (d : Daemon) (frame : BuildFrame)
      (input : BuildInput), (handleBuild cfg env benv d frame input).reply.status ≠ .ok →
        Unchanged frame.key d (handleBuild cfg env benv d frame input).final := by
  intro h
  have hsame := h sampleConfig (Env.quiet 9 100000) sampleTornBuild sampleIndexed
    (sampleIndexBuild ⟨1, 2⟩ 2) (sampleInput 201 20) (by decide +kernel)
  have hfiles := congrArg Artifacts.tids (hsame.files sampleConfig.indexDir)
  have hbefore : (sampleIndexed.disk sampleConfig.indexDir ⟨1, 2⟩).tids.isSome := by decide +kernel
  have hafter : ((handleBuild sampleConfig (Env.quiet 9 100000) sampleTornBuild sampleIndexed
      (sampleIndexBuild ⟨1, 2⟩ 2) (sampleInput 201 20)).final.disk sampleConfig.indexDir
        ⟨1, 2⟩).tids = none := by decide +kernel
  have hkey : (sampleIndexBuild ⟨1, 2⟩ 2).key = ⟨1, 2⟩ := rfl
  rw [hkey, hafter] at hfiles
  rw [← hfiles] at hbefore
  cases hbefore

end Sample

end PgCuvs
