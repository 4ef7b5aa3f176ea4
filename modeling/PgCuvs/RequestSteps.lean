import PgCuvs.Serve

/-! What requests do to the registry and the files: they serve, by searches, loads
and evictions, and commit one thing of their own. -/

namespace PgCuvs

def BuildInput.single (input : BuildInput) (frame : BuildFrame) : Option Corpus :=
  match input.segment with
  | .ok seg => some (seg.corpus frame.nVecs.toNat)
  | .error _ => none

def BuildInput.multi (input : BuildInput) : Option Corpus :=
  match input.partials.map mapPartials with
  | some (.ok maps) => some (assembleCorpus maps)
  | _ => none

/-- The directory the files of a build go to. -/
def BuildInput.dir (cfg : Config) (input : BuildInput) : Dir :=
  saveDir cfg (input.indexDir.getD "")

inductive CorpusUse where
  | cagra
  | flat
  | ivfpq
  | extend
deriving DecidableEq, Repr

section Given

variable {D : Type}

def Request.corpus : Request D → Option (CorpusUse × BuildFrame × Corpus)
  | .build _ _ frame input =>
    (if 0 < frame.nPartials then input.multi else input.single frame).map (.cagra, frame, ·)
  | .flat _ _ frame input => (input.single frame).map (.flat, frame, ·)
  | .ivfpq _ _ frame input => (input.single frame).map (.ivfpq, frame, ·)
  | .extend frame input _ => (input.single frame).map (.extend, frame, ·)
  | _ => none

def Request.dir (cfg : Config) : Request D → Dir
  | .build _ _ _ input | .flat _ _ _ input | .ivfpq _ _ _ input | .extend _ input _ => input.dir cfg
  | _ => cfg.indexDir

def Request.serving : Request D → Option (Env × Key)
  | .search env _ _ frame | .resume env _ _ frame _ _ => some (env, frame.key)
  | .batch env _ _ r0 _ => some (env, r0.key.key)
  | .fanout env _ _ f => some (env, f.key)
  | _ => none

def Request.halfExtends (s : Server) : Request D → Bool
  | .extend frame input (.failedExtended _) => extendsGraph s.daemon frame input
  | _ => false

structure Given where
  serving : Env → Key → Prop
  /-- it ends a fanout -/
  leaves : Prop
  restarts : Prop
  /-- it is an EXTEND whose kernel fails with the graph extended -/
  halfExtends : Prop
  rows : CorpusUse → Dir → BuildFrame → Corpus → Prop
  built : BuildEnv → BuildTicket → Prop
  compacted : CompactTicket → Prop

def Request.given (cfg : Config) (s : Server) (r : Request D) : Given where
  serving env key := r.serving = some (env, key)
  leaves := ∃ env senv kern f, r = .fanout env senv kern f
  restarts := r = .restart
  halfExtends := r.halfExtends s
  rows use dir frame corpus := r.corpus = some (use, frame, corpus) ∧ r.dir cfg = dir
  built benv t := ∃ env j kind image, r = .buildEnd env benv j (.built image) ∧
    s.builds[j]? = some (kind, t)
  compacted t := ∃ env j image, r = .compactEnd env j (some image) ∧ s.compacts[j]? = some t

end Given

inductive Outcome where
  | keep
  /-- there is none -/
  | absent
  | write (w : EntryWrite)
  | create (c : SlotInit)
  | remove

def Outcome.install (found : Option IndexEntry) (w : EntryWrite) (c : SlotInit) : Outcome :=
  match found with
  | some _ => .write w
  | none => .create c

section Changes

variable (cfg : Config) (s : Server) (given : Given)

def shardedFiles (env : Env) (benv : BuildEnv) (frame : BuildFrame) (corpus : Corpus)
    (shards : List ShardBuild) (fault : Option ℕ) (a : Artifacts) : Artifacts :=
  runFileOps (buildShardedOps a frame.dim frame.metric corpus.tids shards
    (stageVectors env benv (cuvsVectorsWrite frame.dim frame.metric
      (cuvsCrc32 (tidBytes corpus.tids)) corpus.vecs)) fault) a

def flatFiles (now : ℕ) (frame : BuildFrame) (corpus : Corpus) (fault : Option FlatFault) :
    Artifacts → Artifacts :=
  runFileOps (buildFlatOps (cuvsTidsWrite frame.dim frame.metric corpus.tids)
    ⟨cuvsVectorsWrite frame.dim frame.metric (cuvsCrc32 (tidBytes corpus.tids)) corpus.vecs, now⟩
    fault)

def ivfpqFiles (frame : BuildFrame) (corpus : Corpus) (image : List UInt8)
    (fault : Option CommitFault) : Artifacts → Artifacts :=
  runFileOps (buildIvfpqOps (cuvsTidsWrite frame.dim frame.metric corpus.tids)
    ⟨image, corpus.vecs⟩ fault)

def BuildTicket.files (env : Env) (benv : BuildEnv) (t : BuildTicket) (image : List UInt8)
    (a : Artifacts) : Artifacts :=
  runFileOps (t.commitOps env benv ⟨image, t.corpus.vecs⟩ a) a

/-- COMPACT saves the new entry and unlinks the tombstones it has read. -/
def compactFiles (cfg : Config) (fault : Option SaveFault) (t : CompactTicket) (e : IndexEntry)
    (g : Cagra) (dir : Dir) (a : Artifacts) : Artifacts :=
  let a := onDir cfg.indexDir (runFileOps (saveEntryOps fault e g).1) dir a
  if fault.isNone then onDir t.dir (runFileOps [.unlinkTombstone]) dir a else a

/-- What requests change: the entry found, the files of the index, the status replied, and
what becomes of the entry. -/
inductive Change : Option IndexEntry → Key → (Dir → Artifacts → Artifacts) → Status → Outcome → Prop
  | nothing (key : Key) (status : Status) : Change none key (fun _ a => a) status .keep
  | build (env : Env) (benv : BuildEnv) (image : List UInt8) {found : Option IndexEntry}
      {kind : CorpusKind} {t : BuildTicket} {o : Outcome} (ht : (kind, t) ∈ s.builds)
      (hbuilt : given.built benv t) (hfault : benv.fault = none)
      (ho : o = .install found (.build env.now t ⟨image, t.corpus.vecs⟩)
        (.build env.now t ⟨image, t.corpus.vecs⟩)) :
      Change found t.frame.key (onDir t.saveDir (t.files env benv image)) .ok o
  | buildFailed (env : Env) (benv : BuildEnv) (image : List UInt8) {kind : CorpusKind}
      {t : BuildTicket} (ht : (kind, t) ∈ s.builds) (hbuilt : given.built benv t)
      (hfault : benv.fault.isSome) :
      Change none t.frame.key (onDir t.saveDir (t.files env benv image)) .persistFailed .keep
  | sharded (env : Env) (benv : BuildEnv) {found : Option IndexEntry} {dir : Dir}
      {frame : BuildFrame} {corpus : Corpus} {shards : List ShardBuild} {o : Outcome}
      (hrows : given.rows .cagra dir frame corpus)
      (hsplit : 2 ≤ resolveShardCount cfg s.daemon frame) (hcount : 2 ≤ shards.length)
      (ho : o = .install found
        (.sharded env.now frame corpus.tids (shardEntries frame 0 0 shards))
        (.sharded env.now frame corpus.tids (shardEntries frame 0 0 shards))) :
      Change found frame.key (onDir dir (shardedFiles env benv frame corpus shards none)) .ok o
  | shardedUnwritten {dir : Dir} {frame : BuildFrame} {corpus : Corpus} (stage : VectorsStage)
      (hrows : given.rows .cagra dir frame corpus) :
      Change none frame.key (onDir dir (runFileOps stage.before)) .persistFailed .keep
  | shardedFailed (env : Env) (benv : BuildEnv) {dir : Dir} {frame : BuildFrame} {corpus : Corpus}
      (shards : List ShardBuild) (done : ℕ) (hrows : given.rows .cagra dir frame corpus) :
      Change none frame.key (onDir dir (shardedFiles env benv frame corpus shards (some done)))
        .persistFailed .keep
  | flatFiles (now : ℕ) {dir : Dir} {frame : BuildFrame} {corpus : Corpus}
      (hrows : given.rows .flat dir frame corpus) :
      Change none frame.key (onDir dir (flatFiles now frame corpus none)) .ok .keep
  | flatFailed (now : ℕ) (fault : FlatFault) {dir : Dir} {frame : BuildFrame} {corpus : Corpus}
      (hrows : given.rows .flat dir frame corpus) :
      Change none frame.key (onDir dir (flatFiles now frame corpus (some fault))) .persistFailed
        .keep
  | flat (now gpu : ℕ) {found : Option IndexEntry} {t : FlatTicket} {o : Outcome}
      (ht : t ∈ s.flats)
      (ho : o = .install found (.flat now t.frame t.tids gpu) (.flat now t.frame t.tids gpu)) :
      Change found t.frame.key (fun _ a => a) .ok o
  | ivfpq (now needed gpu : ℕ) (image : List UInt8) {found : Option IndexEntry} {dir : Dir}
      {frame : BuildFrame} {corpus : Corpus} {o : Outcome}
      (hrows : given.rows .ivfpq dir frame corpus) (hpos : 0 < corpus.tids.length)
      (ho : o = .install found (.ivfpq now frame corpus.tids ⟨image, corpus.vecs⟩ needed gpu)
        (.ivfpq now frame corpus.tids ⟨image, corpus.vecs⟩ needed gpu)) :
      Change found frame.key (onDir dir (ivfpqFiles frame corpus image none)) .ok o
  | ivfpqFailed (image : List UInt8) (fault : CommitFault) {dir : Dir} {frame : BuildFrame}
      {corpus : Corpus} (hrows : given.rows .ivfpq dir frame corpus) :
      Change none frame.key (onDir dir (ivfpqFiles frame corpus image (some fault))) .persistFailed
        .keep
  | extend (image : List UInt8) {e : IndexEntry} {g : Cagra} {dir : Dir} {frame : BuildFrame}
      {new : Corpus} (hrows : given.rows .extend dir frame new) (hg : e.handle = some g) :
      Change (some e) frame.key (fun _ a => a) .ok (.write (.extend g image new))
  | extendFailed (image : List UInt8) {e : IndexEntry} {g : Cagra} {dir : Dir} {frame : BuildFrame}
      {new : Corpus} (hhalf : given.halfExtends) (hrows : given.rows .extend dir frame new)
      (hg : e.handle = some g) :
      Change (some e) frame.key (fun _ a => a) .buildFailed (.write (.extendFailed g image new))
  | compactNothing {t : CompactTicket} (ht : t ∈ s.compacts) :
      Change none t.key (onDir t.dir (runFileOps [.unlinkTombstone])) .ok .keep
  | compact (now : ℕ) (image : List UInt8) (fault : Option SaveFault) {e : IndexEntry} {g : Cagra}
      {t : CompactTicket} (ht : t ∈ s.compacts) (hcompacted : given.compacted t)
      (hg : e.handle = some g) (hdead : (keepBits t.deadTids e).all id = false) :
      Change (some e) t.key
        (compactFiles cfg fault t (compactEntry now g image (keepBits t.deadTids e) e)
          ⟨image, keepMarked (keepBits t.deadTids e) g.rows⟩)
        (if fault.isNone then .ok else .persistFailed)
        (.write (.compact now g image (keepBits t.deadTids e)))
  | stale (now : ℕ) (opens : Bool) (key : Key) {found : Option IndexEntry} {o : Outcome}
      (ho : o = if found.isSome then .write (.stale now) else .absent) :
      Change found key
        (onDir cfg.indexDir fun a => if opens then { a with stale := some (a.stale.getD now) } else a)
        .ok o
  | drop (key : Key) {found : Option IndexEntry} {o : Outcome}
      (ho : o = if found.isSome then .remove else .absent) :
      Change found key (onDir cfg.indexDir fun a => runFileOps (dropOps a) a) .ok o
  | sidecars (dir : Dir) (key : Key) (delta : Option (Stamped DeltaFile))
      (tombstone : Option TombstoneFile) :
      Change none key (onDir dir fun a => { a with delta, tombstone }) .ok .keep

/-- How a change is committed in the state `r` that the request's own serving left. -/
inductive Committed (r : Resident) (x : Effect) : Prop
  | restart (hx : x.daemon.resident = (⟨[], []⟩, r.2)) (hact : x.action = .keep)
      (hrestart : given.restarts)
  | keep {key : Key} {f : Dir → Artifacts → Artifacts}
      (h : Change cfg s given none key f x.reply.status .keep)
      (hx : x.daemon.resident = (r.1, r.2.modifyKey key f)) (hact : x.action = .keep)
  | absent {key : Key} {f : Dir → Artifacts → Artifacts}
      (h : Change cfg s given none key f x.reply.status .absent)
      (hmissing : ∀ e ∈ r.1.live, e.key ≠ key)
      (hx : x.daemon.resident = (r.1, r.2.modifyKey key f)) (hact : x.action = .keep)
  | write {i : ℕ} {e : IndexEntry} {key : Key} {f : Dir → Artifacts → Artifacts} {w : EntryWrite}
      (h : Change cfg s given (some e) key f x.reply.status (.write w))
      (hfind : findIndex r.1.live key = some i) (hi : r.1.live[i]? = some e) (hkey : e.key = key)
      (hx : x.daemon.resident = (r.1, r.2.modifyKey key f)) (hact : x.action = .replace i w)
  | create {key : Key} {f : Dir → Artifacts → Artifacts} {c : SlotInit}
      (h : Change cfg s given none key f x.reply.status (.create c))
      (hmissing : ∀ e ∈ r.1.live, e.key ≠ key)
      (hevict : Evictions cfg (r.1, r.2.modifyKey key f) x.daemon.resident)
      (hact : x.action = .register c)
  | full {key : Key} {f : Dir → Artifacts → Artifacts} {c : SlotInit}
      (h : Change cfg s given none key f x.reply.status (.create c))
      (hmissing : ∀ e ∈ r.1.live, e.key ≠ key)
      (hevict : Evictions cfg (r.1, r.2.modifyKey key f) x.daemon.resident)
      (hact : x.action = .keep)
  | remove {i : ℕ} {e : IndexEntry} {key : Key} {f : Dir → Artifacts → Artifacts}
      (h : Change cfg s given (some e) key f x.reply.status .remove)
      (hfind : findIndex r.1.live key = some i) (hi : r.1.live[i]? = some e) (hkey : e.key = key)
      (hx : x.daemon.resident = (r.1, r.2.modifyKey key f)) (hact : x.action = .remove i)

/-- A request serves, or it makes room and commits. -/
inductive EffectSpec (d : Daemon) (x : Effect) : Prop
  | serves {env : Env} {key : Key} {r : Resident} (hserving : given.serving env key)
      (hresolved : Resolved cfg env key d r) (hstores : Stores given.leaves cfg r x.daemon.resident)
      (hact : x.action = .keep)
  | commits {r : Resident} (hevict : Evictions cfg d.resident r)
      (hcommit : Committed cfg s given r x)

end Changes

section Handlers

variable {cfg : Config} {env : Env} {benv : BuildEnv} {s : Server} {given : Given}
  {d d1 : Daemon} {r : Resident} {x : Effect}

theorem EffectSpec.quiet (h : Evictions cfg d.resident x.daemon.resident) (hact : x.action = .keep) :
    EffectSpec cfg s given d x := by
  refine .commits h (.keep (.nothing ⟨0, 0⟩ _) ?_ hact)
  rw [Disk.modifyKey_id]

theorem EffectSpec.commit (h : Committed cfg s given d.resident x) : EffectSpec cfg s given d x :=
  .commits Relation.ReflTransGen.refl h

theorem EffectSpec.of_keep {key : Key} {f : Dir → Artifacts → Artifacts} {d1 : Daemon}
    (hevict : Evictions cfg d.resident d1.resident)
    (h : Change cfg s given none key f x.reply.status .keep)
    (hx : x.daemon.resident = (d1.registry, d1.disk.modifyKey key f)) (hact : x.action = .keep) :
    EffectSpec cfg s given d x :=
  .commits hevict (.keep h hx hact)

theorem installEntry_committed {key : Key} {gpu : ℕ} {w : EntryWrite} {c : SlotInit}
    {f : Dir → Artifacts → Artifacts}
    (h : ∀ found, Change cfg s given found key f .ok (.install found w c))
    (hr : d1.resident = (r.1, r.2.modifyKey key f)) :
    Committed cfg s given r (installEntry cfg env d1 key gpu w c) := by
  have hlive : d1.live = r.1.live := congrArg (fun r : Resident => r.1.live) hr
  unfold installEntry
  cases hfind : findIndex d1.live key with
  | some i =>
    obtain ⟨e, hslot, hek⟩ := findIndex_eq_some hfind
    rw [hlive] at hfind hslot
    exact .write (h (some e)) hfind hslot hek hr rfl
  | none =>
    have hmissing : ∀ e ∈ r.1.live, e.key ≠ key := hlive ▸ findIndex_eq_none.mp hfind
    have hevict := makeSlot_evictions cfg env d1 gpu
    rw [hr] at hevict
    simp only
    split_ifs
    · exact .full (h none) hmissing hevict rfl
    · exact .create (h none) hmissing hevict rfl

theorem commit_resident (d : Daemon) (dir : Dir) (key : Key) {f g : Artifacts → Artifacts}
    (h : f (d.disk dir key) = g (d.disk dir key)) :
    Daemon.resident { d with disk := d.disk.modify dir key f }
      = (d.registry, d.disk.modifyKey key (onDir dir g)) := by
  rw [← Disk.modify_eq, ← Disk.modify_congr h]
  rfl

theorem finishBuildCommit_committed {kind : CorpusKind} {t : BuildTicket} {image : List UInt8}
    (ht : (kind, t) ∈ s.builds) (hbuilt : given.built benv t) :
    Committed cfg s given d.resident (finishBuildCommit cfg env benv d t ⟨image, t.corpus.vecs⟩) := by
  have hfiles := commit_resident d t.saveDir t.frame.key (g := t.files env benv image)
    (f := runFileOps (t.commitOps env benv ⟨image, t.corpus.vecs⟩ (d.disk t.saveDir t.frame.key))) rfl
  simp only [finishBuildCommit]
  cases hfault : benv.fault with
  | some fault =>
    exact .keep (.buildFailed env benv image ht hbuilt (by rw [hfault]; rfl)) hfiles rfl
  | none =>
    exact installEntry_committed (fun found => .build env benv image ht hbuilt hfault rfl) hfiles

theorem endBuild_spec {kind : CorpusKind} {t : BuildTicket} {outcome : BuildOutcome}
    (ht : (kind, t) ∈ s.builds) (hbuilt : ∀ image, outcome = .built image → given.built benv t) :
    EffectSpec cfg s given d (endBuild cfg env benv d kind t outcome) := by
  cases outcome with
  | built image =>
    exact .commit (finishBuildCommit_committed
      (d := { d with pendingBuildVram := subPending d.pendingBuildVram t.targetGpu t.needed })
      ht (hbuilt image rfl))
  | oom => exact .quiet Relation.ReflTransGen.refl rfl
  | failed => exact .quiet Relation.ReflTransGen.refl rfl

theorem admitBuild_evictions (cfg : Config) (env : Env) (d : Daemon) (kind : CorpusKind) (frame : BuildFrame) (dir : Dir) (corpus : Corpus)
    (vectors : VectorsFile) :
    Evictions cfg d.resident (admitBuild cfg env d kind frame dir corpus vectors).1.resident ∧
      ∀ t, (admitBuild cfg env d kind frame dir corpus vectors).2 = .ok t →
        t.frame = frame ∧ t.corpus = corpus ∧ t.saveDir = dir ∧ t.vectors = vectors := by
  simp only [admitBuild]
  split
  · exact ⟨Relation.ReflTransGen.refl, fun _ h => by cases h⟩
  · rename_i gpu _
    have hvram := ensureVram_evictions cfg env d
      (estimateVramBytes corpus.tids.length frame.dim frame.graphDegree) gpu
    split
    · rename_i heq
      rw [heq] at hvram
      exact ⟨hvram, fun _ h => by cases h⟩
    · rename_i heq
      rw [heq] at hvram
      refine ⟨hvram, ?_⟩
      rintro t ⟨⟩
      exact ⟨rfl, rfl, rfl, rfl⟩

theorem buildShards_spec (cfg : Config) (env : Env) (benv : BuildEnv) (frame : BuildFrame) (vecs : List Vec) (sc todo i : ℕ) (d : Daemon) :
    Evictions cfg d.resident (buildShards cfg env benv frame vecs sc todo i d).1.resident ∧
      ∀ shards, (buildShards cfg env benv frame vecs sc todo i d).2 = some shards →
        shards.length = todo := by
  induction todo generalizing i d with
  | zero =>
    refine ⟨Relation.ReflTransGen.refl, ?_⟩
    rintro shards ⟨⟩
    rfl
  | succ todo ih =>
    simp only [buildShards]
    have hplace := placeShard_evictions cfg env d
      (estimateVramBytes (shardRange vecs.length sc i).2 frame.dim frame.graphDegree)
      (usableGpu cfg (i % nUsableGpus cfg))
    split
    · rename_i heq
      rw [heq] at hplace
      exact ⟨hplace, fun _ h => by cases h⟩
    · rename_i d1 dev heq
      rw [heq] at hplace
      split
      · exact ⟨hplace, fun _ h => by cases h⟩
      · obtain ⟨hrest, hlen⟩ := ih (i + 1) d1
        split
        · rename_i hb
          rw [hb] at hrest
          exact ⟨hplace.trans hrest, fun _ h => by cases h⟩
        · rename_i rest hb
          rw [hb] at hrest hlen
          refine ⟨hplace.trans hrest, ?_⟩
          rintro shards ⟨⟩
          rw [List.length_cons, hlen rest rfl]

theorem length_shardEntries (frame : BuildFrame) (i off : ℕ) (shards : List ShardBuild) :
    (shardEntries frame i off shards).length = shards.length := by
  induction shards generalizing i off with
  | nil => rfl
  | cons b bs ih => exact congrArg (· + 1) (ih (i + 1) (off + b.nVecs))

theorem buildSharded_spec (d : Daemon) (frame : BuildFrame) {dir : Dir} {corpus : Corpus}
    (shardCount : ℕ) (hrows : given.rows .cagra dir frame corpus)
    (hsplit : 2 ≤ resolveShardCount cfg s.daemon frame) :
    EffectSpec cfg s given d (buildSharded cfg env benv d frame dir corpus shardCount) := by
  simp only [buildSharded]
  split_ifs with hsc
  · exact .quiet Relation.ReflTransGen.refl rfl
  · obtain ⟨hevict, hlen⟩ := buildShards_spec cfg env benv frame corpus.vecs
      (clampShards shardCount corpus.tids.length) (clampShards shardCount corpus.tids.length) 0 d
    split
    · rename_i heq
      rw [heq] at hevict
      exact .quiet hevict rfl
    · rename_i d1 shards heq
      rw [heq] at hevict hlen
      have hcount : 2 ≤ shards.length := by
        rw [hlen shards rfl]
        exact Nat.not_lt.mp hsc
      split
      · exact .of_keep hevict (.shardedUnwritten _ hrows) (commit_resident d1 dir _ rfl) rfl
      · exact .of_keep hevict (.shardedFailed env benv shards _ hrows)
          (commit_resident d1 dir _ rfl) rfl
      · exact .commits hevict (installEntry_committed
          (fun found => .sharded env benv hrows hsplit hcount rfl) (commit_resident d1 dir _ rfl))

def BuildStart.Spec (cfg : Config) (s : Server) (given : Given) (dir : Dir) (frame : BuildFrame)
    (d : Daemon) : BuildStart → Prop
  | .done x => EffectSpec cfg s given d x
  | .unlocked d' _ t => Evictions cfg d.resident d'.resident ∧ t.frame = frame ∧ t.saveDir = dir ∧
      given.rows .cagra dir frame t.corpus

theorem startBuild_spec (kind : CorpusKind) (frame : BuildFrame) {dir : Dir} {corpus : Corpus}
    (vectors : VectorsFile) (hrows : given.rows .cagra dir frame corpus) :
    (startBuild cfg env benv s.daemon kind frame dir corpus vectors).Spec cfg s given dir frame
      s.daemon := by
  simp only [startBuild]
  split_ifs with hzero hsplit
  · exact .quiet Relation.ReflTransGen.refl rfl
  · exact buildSharded_spec s.daemon frame _ hrows hsplit
  · obtain ⟨hevict, hticket⟩ := admitBuild_evictions cfg env s.daemon kind frame dir corpus vectors
    split
    · rename_i heq
      rw [heq] at hevict
      exact .quiet hevict rfl
    · rename_i t heq
      rw [heq] at hevict hticket
      obtain ⟨hframe, hcorpus, hdir, -⟩ := hticket t rfl
      exact ⟨hevict, hframe, hdir, hcorpus ▸ hrows⟩

theorem beginBuild_spec (frame : BuildFrame) (input : BuildInput)
    (hrows : ∀ corpus, (if 0 < frame.nPartials then input.multi else input.single frame)
      = some corpus → given.rows .cagra (input.dir cfg) frame corpus) :
    (beginBuild cfg env benv s.daemon frame input).Spec cfg s given (input.dir cfg) frame
      s.daemon := by
  have hfail : ∀ err : String, (BuildStart.done (Effect.failure s.daemon .error err)).Spec cfg s
      given (input.dir cfg) frame s.daemon := fun _ => .quiet Relation.ReflTransGen.refl rfl
  unfold beginBuild
  split
  · exact hfail _
  · rename_i dir hdir
    have hinput : input.dir cfg = saveDir cfg dir := by rw [BuildInput.dir, hdir, Option.getD_some]
    split_ifs with hshape hpayload hpartials
    · exact hfail _
    · exact hfail _
    · unfold handleBuildMulti
      simp only
      split_ifs
      · exact hfail _
      · split
        · exact hfail _
        · rename_i descs hdescs
          split
          · exact hfail _
          · split
            · exact hfail _
            · exact hfail _
            · rename_i maps _ hmaps
              rw [hinput] at hrows ⊢
              refine startBuild_spec .multi frame _ (hrows _ ?_)
              simp only [if_pos hpartials, BuildInput.multi, hdescs, Option.map_some, hmaps]
    · split
      · exact hfail _
      · rename_i seg hseg
        rw [hinput] at hrows ⊢
        refine startBuild_spec .single frame _ (hrows _ ?_)
        simp only [if_neg hpartials, BuildInput.single, hseg]

theorem checkFlat_ok {frame : BuildFrame} {input : BuildInput} {dir : Dir} {corpus : Corpus}
    (h : checkFlat cfg d frame input = .ok (dir, corpus)) :
    input.single frame = some corpus ∧ dir = input.dir cfg := by
  unfold checkFlat at h
  split at h
  · cases h
  · rename_i indexDir hdir
    cases hseg : input.segment with
    | error fault =>
      simp only [hseg] at h
      split_ifs at h
    | ok seg =>
      simp only [hseg] at h
      split_ifs at h
      cases h
      exact ⟨by simp only [BuildInput.single, hseg], by rw [BuildInput.dir, hdir, Option.getD_some]⟩

theorem beginBuildFlat_spec (cfg : Config) (env : Env) (benv : BuildEnv) (s : Server)
    (given : Given) (d : Daemon) (frame : BuildFrame) (input : BuildInput)
    (hrows : ∀ corpus, input.single frame = some corpus →
      given.rows .flat (input.dir cfg) frame corpus) :
    match beginBuildFlat cfg env benv d frame input with
    | .error x => EffectSpec cfg s given d x
    | .ok (d1, t) => EffectSpec cfg s given d (.quiet d1) ∧ t.frame = frame ∧
        ∃ corpus, given.rows .flat (input.dir cfg) frame corpus ∧ t.tids = corpus.tids := by
  have hrefl : Evictions cfg d.resident d.resident := Relation.ReflTransGen.refl
  unfold beginBuildFlat
  cases hcheck : checkFlat cfg d frame input with
  | error r => exact .quiet hrefl rfl
  | ok p =>
    obtain ⟨dir, corpus⟩ := p
    obtain ⟨hsingle, rfl⟩ := checkFlat_ok hcheck
    have hcorpus := hrows corpus hsingle
    simp only
    cases hfault : flatFault benv with
    | none =>
      refine ⟨?_, rfl, corpus, hcorpus, rfl⟩
      exact .of_keep hrefl (.flatFiles env.now hcorpus) (commit_resident d _ _ rfl) rfl
    | some q =>
      exact .of_keep hrefl (.flatFailed env.now q.1 hcorpus) (commit_resident d _ _ rfl) rfl

theorem handleBuildIvfpq_spec (d : Daemon) (frame : BuildFrame) (input : BuildInput)
    (hrows : ∀ corpus, input.single frame = some corpus →
      given.rows .ivfpq (input.dir cfg) frame corpus) :
    EffectSpec cfg s given d (handleBuildIvfpq cfg env benv d frame input) := by
  have hrefl : Evictions cfg d.resident d.resident := Relation.ReflTransGen.refl
  unfold handleBuildIvfpq
  split
  · exact .quiet hrefl rfl
  · rename_i dir hdir
    have hinput : saveDir cfg dir = input.dir cfg := by rw [BuildInput.dir, hdir, Option.getD_some]
    simp only
    split_ifs with hshape
    · exact .quiet hrefl rfl
    · split
      · exact .quiet hrefl rfl
      · rename_i seg hseg
        have hpos : 0 < (seg.corpus frame.nVecs.toNat).tids.length := by
          simp only [Segment.corpus, Segment.length_tids]
          omega
        have hcorpus := hrows (seg.corpus frame.nVecs.toNat) (by simp only [BuildInput.single, hseg])
        split
        · exact .quiet hrefl rfl
        · rename_i gpu _
          have hvram :=
            ensureVram_evictions cfg env d (ivfpqVramBytes frame frame.nVecs.toNat) gpu
          split
          · rename_i heq
            rw [heq] at hvram
            exact .quiet hvram rfl
          · rename_i d1 heq
            rw [heq] at hvram
            split
            · exact .quiet hvram rfl
            · rename_i image himage
              rw [hinput]
              cases hfault : benv.fault with
              | some fault =>
                exact .of_keep hvram (.ivfpqFailed image _ hcorpus) (commit_resident d1 _ _ rfl) rfl
              | none =>
                exact .commits hvram (installEntry_committed
                  (fun found => .ivfpq env.now _ gpu image hcorpus hpos rfl)
                  (commit_resident d1 _ _ rfl))

theorem handleExtend_spec (d : Daemon) (frame : BuildFrame) (input : BuildInput)
    (outcome : ExtendOutcome)
    (hrows : ∀ corpus, input.single frame = some corpus →
      given.rows .extend (input.dir cfg) frame corpus)
    (hhalf : ∀ image, outcome = .failedExtended image → extendsGraph d frame input = true →
      given.halfExtends) :
    EffectSpec cfg s given d (handleExtend d frame input outcome) := by
  have hrefl : Evictions cfg d.resident d.resident := Relation.ReflTransGen.refl
  unfold handleExtend
  simp only
  split_ifs
  · exact .quiet hrefl rfl
  · exact .quiet hrefl rfl
  · split
    · exact .quiet hrefl rfl
    · rename_i seg hseg
      split
      · exact .quiet hrefl rfl
      · rename_i i hfind
        obtain ⟨e, hslot, hkey⟩ := findIndex_eq_some hfind
        simp only [hslot]
        split
        · exact .quiet hrefl rfl
        · rename_i g hg
          have hcorpus := hrows (seg.corpus frame.nVecs.toNat)
            (by simp only [BuildInput.single, hseg])
          split_ifs
          · exact .quiet hrefl rfl
          · split
            · exact .quiet hrefl rfl
            · rename_i image
              have hdir : input.indexDir.isSome = true := Option.isSome_iff_ne_none.mpr (by simp_all)
              have hreached : extendsGraph d frame input = true := by
                simp_all [extendsGraph, Except.toOption]
              refine .commit (.write (.extendFailed image (hhalf image rfl hreached) hcorpus hg)
                hfind hslot hkey ?_ rfl)
              rw [Disk.modifyKey_id]
            · rename_i image
              refine .commit (.write (.extend image hcorpus hg) hfind hslot hkey ?_ rfl)
              rw [Disk.modifyKey_id]

theorem endCompact_spec (d : Daemon) {t : CompactTicket} (ht : t ∈ s.compacts)
    (image : Option (List UInt8)) (hcompacted : image.isSome → given.compacted t) :
    EffectSpec cfg s given d (endCompact cfg env d t image) := by
  have hrefl : Evictions cfg d.resident d.resident := Relation.ReflTransGen.refl
  unfold endCompact
  split
  · exact .quiet hrefl rfl
  · rename_i i hfind
    obtain ⟨e, hslot, hkey⟩ := findIndex_eq_some hfind
    simp only [hslot]
    split
    · exact .quiet hrefl rfl
    · rename_i g hg
      split_ifs with hdead
      · exact .of_keep hrefl (.compactNothing ht) (commit_resident d _ _ rfl) rfl
      · split
        · exact .quiet hrefl rfl
        · rename_i image
          have hdead : (keepBits t.deadTids e).all id = false := Bool.eq_false_iff.mpr hdead
          set e1 := compactEntry env.now g image (keepBits t.deadTids e) e
          have hhandle : e1.handle = some ⟨image, keepMarked (keepBits t.deadTids e) g.rows⟩ :=
            buildRevTidMap_handle _
          have hek : e1.key = t.key := (buildRevTidMap_key _).trans hkey
          have hsave : saveIndex cfg env d.disk e1
              = (d.disk.modify cfg.indexDir t.key (runFileOps (saveEntryOps (env.saveFault t.key) e1
                  ⟨image, keepMarked (keepBits t.deadTids e) g.rows⟩).1),
                (env.saveFault t.key).isNone) := by
            unfold saveIndex
            rw [hhandle, hek]
            rcases env.saveFault t.key with _ | fault
            · rfl
            · cases fault <;> rfl
          have hchange : ∀ fault status, status = (if fault.isNone then .ok else .persistFailed) →
              Change cfg s given (some e) t.key (compactFiles cfg fault t e1
                ⟨image, keepMarked (keepBits t.deadTids e) g.rows⟩) status
                (.write (.compact env.now g image (keepBits t.deadTids e))) := by
            rintro fault _ rfl
            exact .compact env.now image fault ht (hcompacted rfl) hg hdead
          rw [hsave]
          refine .commit ?_
          cases env.saveFault t.key with
          | none =>
            refine .write (hchange none _ rfl) hfind hslot hkey ?_ rfl
            simp only [Option.isNone_none, unlinkTombstone, Daemon.resident, Disk.modify_eq,
              Disk.modifyKey_modifyKey]
            rfl
          | some fault =>
            refine .write (hchange (some fault) _ rfl) hfind hslot hkey ?_ rfl
            simp only [Option.isNone_some, Daemon.resident, Disk.modify_eq]
            rfl

theorem handleMarkStale_spec (d : Daemon) (key : Key) (opens : Bool) :
    EffectSpec cfg s given d (handleMarkStale cfg env d key opens) := by
  have hfiles : (handleMarkStale cfg env d key opens).daemon.resident
      = (d.registry, d.disk.modifyKey key (onDir cfg.indexDir fun a =>
        if opens then { a with stale := some (a.stale.getD env.now) } else a)) := by
    rw [← Disk.modify_eq]
    simp only [handleMarkStale]
    cases opens with
    | true => rfl
    | false =>
      have hid : d.disk.modify cfg.indexDir key (fun a => a) = d.disk := by
        funext dir' key'
        unfold Disk.modify
        split_ifs <;> rfl
      simp only [Bool.false_eq_true, if_false, hid]
      rfl
  refine .commit ?_
  cases hfind : findIndex d.live key with
  | none =>
    refine .absent (.stale env.now opens key rfl) (findIndex_eq_none.mp hfind) hfiles ?_
    simp only [handleMarkStale, hfind]
  | some i =>
    obtain ⟨e, hslot, hkey⟩ := findIndex_eq_some hfind
    refine .write (.stale env.now opens key rfl) hfind hslot hkey hfiles ?_
    simp only [handleMarkStale, hfind]

theorem handleDrop_spec (d : Daemon) (key : Key) :
    EffectSpec cfg s given d (handleDrop cfg d key) := by
  have hfiles : (handleDrop cfg d key).daemon.resident = (d.registry, d.disk.modifyKey key
      (onDir cfg.indexDir fun a => runFileOps (dropOps a) a)) :=
    commit_resident d _ _ rfl
  refine .commit ?_
  cases hfind : findIndex d.live key with
  | none =>
    refine .absent (.drop key rfl) (findIndex_eq_none.mp hfind) hfiles ?_
    simp only [handleDrop, hfind]
  | some i =>
    obtain ⟨e, hslot, hkey⟩ := findIndex_eq_some hfind
    refine .remove (.drop key rfl) hfind hslot hkey hfiles ?_
    simp only [handleDrop, hfind]

end Handlers

section Requests

variable {D : Type} [LT D] [DecidableLT D]

theorem ServeSpec.effect {cfg : Config} {env : Env} {key : Key} {s : Server} {given : Given}
    {d d' : Daemon} {merged : Bool} (h : ServeSpec given.leaves cfg env key d d' merged)
    (hserving : given.serving env key) : EffectSpec cfg s given d (.quiet d') := by
  obtain ⟨r, hresolved, hstores⟩ := h.stores
  exact .serves hserving hresolved hstores rfl

omit [LT D] [DecidableLT D] in
theorem Request.beginBuild_spec (cfg : Config) (s : Server) (env : Env) (benv : BuildEnv)
    (frame : BuildFrame) (input : BuildInput) :
    (beginBuild cfg env benv s.daemon frame input).Spec cfg s
      ((Request.build (D := D) env benv frame input).given cfg s) (input.dir cfg) frame s.daemon := by
  refine PgCuvs.beginBuild_spec frame input ?_
  intro corpus hcorpus
  exact ⟨by simp only [Request.corpus, hcorpus, Option.map_some], rfl⟩

theorem Request.effect_spec (cfg : Config) (s : Server) (r : Request D) :
    EffectSpec cfg s (r.given cfg s) s.daemon (r.effect cfg s) := by
  have hrefl : Evictions cfg s.daemon.resident s.daemon.resident := Relation.ReflTransGen.refl
  cases r with
  | search env senv kern frame =>
    exact (handleSearch_spec cfg env senv kern s.daemon frame).effect rfl
  | resume env senv kern frame mode query =>
    exact (resumeSearch_spec cfg env senv kern s.daemon frame mode query).effect rfl
  | batch env kern latencyUs r0 reqs =>
    exact (batchRunGroup_spec cfg env kern latencyUs s.daemon r0 reqs).effect rfl
  | fanout env senv kern f =>
    exact (finishFanout_spec ⟨env, senv, kern, f, rfl⟩ cfg env senv kern s.daemon f).effect rfl
  | build env benv frame input =>
    have hspec := Request.beginBuild_spec (D := D) cfg s env benv frame input
    simp only [Request.effect]
    split
    · rename_i heq
      rwa [heq] at hspec
    · rename_i heq
      rw [heq] at hspec
      exact .quiet hspec.1 rfl
  | buildRetry env j =>
    simp only [Request.effect]
    split
    · exact .quiet (evictLru_evictions cfg env s.daemon _) rfl
    · exact .quiet hrefl rfl
  | buildEnd env benv j outcome =>
    simp only [Request.effect]
    split
    · rename_i kind t ht
      refine endBuild_spec (List.mem_of_getElem? ht) ?_
      rintro image rfl
      exact ⟨env, j, kind, image, rfl, ht⟩
    · exact .quiet hrefl rfl
  | flat env benv frame input =>
    have hspec := beginBuildFlat_spec cfg env benv s
      ((Request.flat (D := D) env benv frame input).given cfg s) s.daemon frame input
      (fun _ h => ⟨by rw [Request.corpus, h]; rfl, rfl⟩)
    simp only [Request.effect]
    split
    · rename_i heq
      rwa [heq] at hspec
    · rename_i heq
      rw [heq] at hspec
      exact hspec.1
  | flatEnd env j =>
    simp only [Request.effect]
    split
    · rename_i t ht
      refine .commit (installEntry_committed (f := fun _ a => a)
        (fun found => .flat env.now _ (List.mem_of_getElem? ht) rfl) ?_)
      rw [Disk.modifyKey_id]
    · exact .quiet hrefl rfl
  | ivfpq env benv frame input =>
    exact handleBuildIvfpq_spec _ _ _ fun _ h => ⟨by rw [Request.corpus, h]; rfl, rfl⟩
  | extend frame input outcome =>
    refine handleExtend_spec _ _ _ _ (fun _ h => ⟨by rw [Request.corpus, h]; rfl, rfl⟩) ?_
    rintro image rfl hreached
    exact hreached
  | compact key indexDir => exact .quiet hrefl rfl
  | compactEnd env j image =>
    simp only [Request.effect]
    split
    · rename_i t ht
      refine endCompact_spec _ (List.mem_of_getElem? ht) image ?_
      intro himage
      obtain ⟨image, rfl⟩ := Option.isSome_iff_exists.mp himage
      exact ⟨env, j, image, rfl, ht⟩
    · exact .quiet hrefl rfl
  | markStale env key opens => exact handleMarkStale_spec ..
  | drop key => exact handleDrop_spec ..
  | sidecars dir key delta tombstone =>
    refine .commit (.keep (.sidecars dir key delta tombstone) ?_ rfl)
    rw [← Disk.modify_eq]
    rfl
  | restart => exact .commit (.restart rfl rfl rfl)

theorem Server.step_builds {cfg : Config} {s : Server} {r : Request D} {kind : CorpusKind}
    {t : BuildTicket} (h : (kind, t) ∈ (s.step cfg r).builds) :
    (kind, t) ∈ s.builds ∨ (r.given cfg s).rows .cagra t.saveDir t.frame t.corpus := by
  cases r with
  | build env benv frame input =>
    have hspec := Request.beginBuild_spec (D := D) cfg s env benv frame input
    simp only [Server.step, Request.tickets] at h
    split at h
    · rename_i heq
      rw [heq] at hspec
      obtain ⟨-, hframe, hdir, hcorpus⟩ := hspec
      rcases List.mem_append.mp h with hold | hnew
      · exact .inl hold
      · cases List.mem_singleton.mp hnew
        rw [hframe, hdir]
        exact .inr hcorpus
    · exact .inl h
  | buildEnd env benv j outcome => exact .inl (List.mem_of_mem_eraseIdx h)
  | flat env benv frame input =>
    simp only [Server.step, Request.tickets] at h
    split at h <;> exact .inl h
  | compact key indexDir =>
    simp only [Server.step, Request.tickets] at h
    split at h <;> exact .inl h
  | restart => cases h
  | _ => exact .inl h

theorem Server.step_flats {cfg : Config} {s : Server} {r : Request D} {t : FlatTicket}
    (h : t ∈ (s.step cfg r).flats) :
    t ∈ s.flats ∨ ∃ corpus, r.corpus = some (.flat, t.frame, corpus) ∧ t.tids = corpus.tids := by
  cases r with
  | build env benv frame input =>
    simp only [Server.step, Request.tickets] at h
    split at h <;> exact .inl h
  | flat env benv frame input =>
    have hspec := beginBuildFlat_spec cfg env benv s
      ((Request.flat (D := D) env benv frame input).given cfg s) s.daemon frame input
      (fun _ h => ⟨by rw [Request.corpus, h]; rfl, rfl⟩)
    simp only [Server.step, Request.tickets] at h
    split at h
    · rename_i heq
      rw [heq] at hspec
      obtain ⟨-, hframe, corpus, hcorpus, htids⟩ := hspec
      rcases List.mem_append.mp h with hold | hnew
      · exact .inl hold
      · cases List.mem_singleton.mp hnew
        exact .inr ⟨corpus, hframe ▸ hcorpus.1, htids⟩
    · exact .inl h
  | flatEnd env j => exact .inl (List.mem_of_mem_eraseIdx h)
  | compact key indexDir =>
    simp only [Server.step, Request.tickets] at h
    split at h <;> exact .inl h
  | restart => cases h
  | _ => exact .inl h

end Requests

end PgCuvs
