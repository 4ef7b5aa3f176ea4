import Mathlib.Data.List.Induction
import Mathlib.Data.List.Infix
import PgCuvs.Crash.Loads
import PgCuvs.Crash.Core

/-! Without a manifest, `.tids` and `.cagra` belong together after completed
operations and after most crashes. The exception is a crash right after the
rename of `.tids`. -/

namespace PgCuvs

open CrashPrefix

/-- Every TID array on disk is some operation's, and without a manifest the
graph next to it is the same operation's. -/
structure Settled (ops : List PersistOp) (c : Artifacts.Core) : Prop where
  source : ∀ f, c.tids = some f → ∃ op ∈ ops, op.tidsFile = some f
  pair : c.shards = none → ∀ f g, c.tids = some f → c.cagra = some g →
    ∃ op ∈ ops, op.tidsFile = some f ∧ op.graph = .cagra g

/-- Which final names a commit has renamed: `.tids` alone, then `.cagra` too, after which a
build unlinks an old manifest, or the manifest of a sharded build. A failed commit has unlinked
`.tids` again. -/
inductive CommitPoint where
  | untouched
  | torn
  | paired
  | committed
  | manifest
  | cleared
deriving DecidableEq, Repr

def CommitPoint.of : List FileOp → CommitPoint
  | [] => .untouched
  | [.renameTids _] => .torn
  | [.renameTids _, .renameCagra _] => .paired
  | [.renameTids _, .renameCagra _, .unlinkShards] => .committed
  | [.renameTids _, .renameShards _] | [.renameTids _, .renameShards _, .unlinkCagra] => .manifest
  | _ => .cleared

def PersistOp.reached (a : Artifacts) (op : PersistOp) (n : ℕ) : CommitPoint :=
  .of (op.executed a n)

def PersistOp.shardGraphs : PersistOp → List Cagra
  | .buildSharded _ _ _ shards _ _ => shards.map ShardBuild.graph
  | _ => []

def PersistOp.manifest : PersistOp → Option ShardsFile
  | .buildSharded dim metric tids shards _ _ => some (shardManifest dim metric tids shards)
  | _ => none

section Reached

variable {op : PersistOp} {c : Artifacts.Core} {p : List FileOp}

theorem prefix_two {x y : FileOp} (h : p <+: [x, y]) : p = [] ∨ p = [x] ∨ p = [x, y] := by
  have hmem := (List.mem_inits p _).mpr h
  simpa using hmem

theorem prefix_three {x y z : FileOp} (h : p <+: [x, y, z]) :
    p = [] ∨ p = [x] ∨ p = [x, y] ∨ p = [x, y, z] := by
  have hmem := (List.mem_inits p _).mpr h
  simpa using hmem

def PersistOp.unsharded : PersistOp → Bool
  | .build .. | .save .. => true
  | _ => false

def PersistOp.isSharded : PersistOp → Bool
  | .buildSharded .. => true
  | _ => false

def PersistOp.commits (op : PersistOp) : Bool := op.unsharded || op.isSharded

theorem commits_of_unsharded (h : op.unsharded) : op.commits := by
  unfold PersistOp.commits
  rw [h, Bool.true_or]

theorem commits_of_isSharded (h : op.isSharded) : op.commits := by
  unfold PersistOp.commits
  rw [h, Bool.or_true]

/-- The core at each point of a commit that found `c`. -/
inductive Reached (c : Artifacts.Core) (op : PersistOp) : CommitPoint → Artifacts.Core → Prop
  | untouched : Reached c op .untouched c
  | torn {f : TidsFile} (hf : op.tidsFile = some f) :
      Reached c op .torn { c with tids := some f }
  | paired {f : TidsFile} {g : Cagra} (hf : op.tidsFile = some f) (hg : op.graph = .cagra g) :
      Reached c op .paired { c with tids := some f, cagra := some g }
  | committed {f : TidsFile} {g : Cagra} (hf : op.tidsFile = some f) (hg : op.graph = .cagra g) :
      Reached c op .committed { c with tids := some f, cagra := some g, shards := none }
  | manifest {f : TidsFile} {m : ShardsFile} {c' : Artifacts.Core} (hf : op.tidsFile = some f)
      (hm : op.manifest = some m) (htids : c'.tids = some f) (hshards : c'.shards = some m)
      (hivfpq : c'.ivfpq = c.ivfpq) : Reached c op .manifest c'
  | cleared {c' : Artifacts.Core} (htids : c'.tids = none) : Reached c op .cleared c'

theorem reached_of_steps (hop : op.commits) (hp : p <+: op.coreSteps) :
    Reached c op (.of p) (runCore p c) := by
  cases op with
  | build dim metric tids graph vectors hnsw fault =>
    rcases fault with _ | _ | _
    · rcases prefix_three hp with rfl | rfl | rfl | rfl
      · exact .untouched
      · exact .torn rfl
      · exact .paired rfl rfl
      · exact .committed rfl rfl
    · obtain rfl := List.prefix_nil.mp hp
      exact .untouched
    · rcases prefix_two hp with rfl | rfl | rfl
      · exact .untouched
      · exact .torn rfl
      · exact .cleared rfl
  | save dim metric tids graph fault =>
    rcases fault with _ | _ | _
    · rcases prefix_two hp with rfl | rfl | rfl
      · exact .untouched
      · exact .torn rfl
      · exact .paired rfl rfl
    · obtain rfl := List.prefix_nil.mp hp
      exact .untouched
    · rcases prefix_two hp with rfl | rfl | rfl
      · exact .untouched
      · exact .torn rfl
      · exact .cleared rfl
  | buildSharded dim metric tids shards vectors fault =>
    rcases fault with _ | m
    · rcases prefix_three hp with rfl | rfl | rfl | rfl
      · exact .untouched
      · exact .torn rfl
      · exact .manifest rfl rfl rfl rfl rfl
      · exact .manifest rfl rfl rfl rfl rfl
    · -- a failed commit undoes `.tids` and the manifest, however far it got
      simp only [PersistOp.coreSteps] at hp
      generalize m - shards.length = k at hp
      rcases k with _ | _ | k
      · rcases prefix_two hp with rfl | rfl | rfl
        · exact .untouched
        · exact .cleared rfl
        · exact .cleared rfl
      · rcases prefix_three hp with rfl | rfl | rfl | rfl
        · exact .untouched
        · exact .torn rfl
        · exact .cleared rfl
        · exact .cleared rfl
      · simp only [List.take_succ_cons, List.take_nil, List.cons_append, List.nil_append] at hp
        rcases List.prefix_cons_iff.mp hp with rfl | ⟨q, rfl, hq⟩
        · exact .untouched
        · rcases prefix_three hq with rfl | rfl | rfl | rfl
          · exact .torn rfl
          · exact .manifest rfl rfl rfl rfl rfl
          · exact .cleared rfl
          · exact .cleared rfl
  | _ => cases hop

theorem reached_crashed (hist : List PersistOp) (hop : op.commits) (n : ℕ) :
    Reached (replay hist).core op (op.reached (replay hist) n) (crashed hist op n).core := by
  rw [core_crashed]
  exact reached_of_steps hop (steps_executed _ op n)

end Reached

section Settled

variable {ops hist : List PersistOp} {op : PersistOp} {c : Artifacts.Core} {p : List FileOp}

theorem Settled.mono (h : Settled ops c) (op : PersistOp) : Settled (ops ++ [op]) c where
  source f hf := by
    obtain ⟨q, hq, hfile⟩ := h.source f hf
    exact ⟨q, List.mem_append_left _ hq, hfile⟩
  pair hshards f g hf hg := by
    obtain ⟨q, hq, hwrote⟩ := h.pair hshards f g hf hg
    exact ⟨q, List.mem_append_left _ hq, hwrote⟩

theorem Settled.of_tids_none (h : c.tids = none) : Settled ops c where
  source f hf := by simp [h] at hf
  pair _ f g hf := by simp [h] at hf

theorem Settled.of_tids {f : TidsFile} (hop : op.tidsFile = some f) (htids : c.tids = some f)
    (hcagra : c.cagra = none ∨ c.shards ≠ none ∨ ∃ g, c.cagra = some g ∧ op.graph = .cagra g) :
    Settled (ops ++ [op]) c where
  source f' hf' := by
    rw [htids, Option.some.injEq] at hf'
    exact ⟨op, List.mem_append_right _ List.mem_cons_self, hf' ▸ hop⟩
  pair hshards f' g hf' hg := by
    have hmem : op ∈ ops ++ [op] := List.mem_append_right _ List.mem_cons_self
    rw [htids, Option.some.injEq] at hf'
    rcases hcagra with hnone | hsome | ⟨g', hg', hgraph⟩
    · simp [hnone] at hg
    · exact absurd hshards hsome
    · rw [hg', Option.some.injEq] at hg
      exact ⟨op, hmem, hf' ▸ hop, hg ▸ hgraph⟩

theorem Reached.settled {p : CommitPoint} {c' : Artifacts.Core} (h : Reached c op p c')
    (hsettled : Settled ops c) (htorn : p ≠ .torn) : Settled (ops ++ [op]) c' := by
  cases h with
  | untouched => exact hsettled.mono op
  | torn => exact absurd rfl htorn
  | paired hf hg | committed hf hg => exact Settled.of_tids hf rfl (.inr (.inr ⟨_, rfl, hg⟩))
  | manifest hf hm htids hshards =>
    refine Settled.of_tids hf htids (.inr (.inl ?_))
    rw [hshards]
    exact Option.some_ne_none _
  | cleared htids => exact Settled.of_tids_none htids

theorem coreSteps_not_torn (op : PersistOp) : CommitPoint.of op.coreSteps ≠ .torn := by
  cases op with
  | build dim metric tids graph vectors hnsw fault => rcases fault with _ | _ | _ <;> intro h <;> cases h
  | save dim metric tids graph fault => rcases fault with _ | _ | _ <;> intro h <;> cases h
  | buildSharded dim metric tids shards vectors fault =>
    rcases fault with _ | m
    · intro h
      cases h
    · simp only [PersistOp.coreSteps]
      generalize m - shards.length = k
      rcases k with _ | _ | k <;> simp [CommitPoint.of]
  | buildFlat dim metric tids vectors fault => rcases fault with _ | _ | _ <;> intro h <;> cases h
  | buildIvfpq dim metric tids ivfpq fault => rcases fault with _ | _ | _ <;> intro h <;> cases h
  | drop => simp [PersistOp.coreSteps, CommitPoint.of]

/-- Every completed operation leaves a settled core. -/
theorem settled_step (h : Settled ops c) (op : PersistOp) :
    Settled (ops ++ [op]) (runCore op.coreSteps c) := by
  rcases hkind : op.commits with _ | _
  · cases op with
    | buildFlat dim metric tids vectors fault =>
      rcases fault with _ | _ | _
      · exact Settled.of_tids rfl rfl (.inl rfl)
      · exact h.mono _
      · exact h.mono _
    | buildIvfpq dim metric tids ivfpq fault =>
      rcases fault with _ | _ | _
      · exact Settled.of_tids rfl rfl (.inl rfl)
      · exact h.mono _
      · exact Settled.of_tids_none rfl
    | drop => exact Settled.of_tids_none rfl
    | _ => cases hkind
  · exact (reached_of_steps hkind (List.prefix_refl _)).settled h (coreSteps_not_torn op)

theorem settled_replay (hist : List PersistOp) : Settled hist (replay hist).core := by
  induction hist using List.reverseRecOn with
  | nil => exact Settled.of_tids_none rfl
  | append_singleton hist op ih =>
    rw [core_replay_append]
    exact settled_step ih op

/-- A crash outside the torn window leaves a settled core. -/
theorem settled_crashed (hop : op.commits) {n : ℕ} (htorn : op.reached (replay hist) n ≠ .torn) :
    Settled (hist ++ [op]) (crashed hist op n).core :=
  (reached_crashed hist hop n).settled (settled_replay hist) htorn

end Settled

section Manifest

/-- The manifest on disk and its shards are those of one build. -/
structure PersistOp.OnDisk (op : PersistOp) (a : Artifacts) : Prop where
  manifest : op.manifest.isSome ∧ a.shards = op.manifest
  shards : ∀ i g, op.shardGraphs[i]? = some g → a.shardCagra i = some g

variable {ops hist : List PersistOp} {op : PersistOp} {a b : Artifacts}

theorem PersistOp.OnDisk.congr (h : op.OnDisk a) (hshards : b.shards = a.shards)
    (hfiles : b.shardCagra = a.shardCagra) : op.OnDisk b :=
  ⟨by rw [hshards]; exact h.manifest, by rw [hfiles]; exact h.shards⟩

/-- Every completed operation leaves a manifest with its shards, or none. -/
theorem onDisk_steps (h : a.shards = none ∨ ∃ p ∈ ops, p.OnDisk a) (op : PersistOp) :
    (runFileOps (op.steps a) a).shards = none ∨
      ∃ p ∈ ops ++ [op], p.OnDisk (runFileOps (op.steps a) a) := by
  have hcore := core_runFileOps (op.steps a) a
  rw [filter_steps] at hcore
  have hnone : (runCore op.coreSteps a.core).shards = none →
      (runFileOps (op.steps a) a).shards = none := by
    intro hgone
    rw [← hcore] at hgone
    exact hgone
  have hkeep : (runFileOps (op.steps a) a).shards = a.shards →
      (runFileOps (op.steps a) a).shardCagra = a.shardCagra →
      (runFileOps (op.steps a) a).shards = none ∨
        ∃ p ∈ ops ++ [op], p.OnDisk (runFileOps (op.steps a) a) := by
    intro hshards hfiles
    rcases h with hgone | ⟨p, hp, hdisk⟩
    · exact .inl (hshards.trans hgone)
    · exact .inr ⟨p, List.mem_append_left _ hp, hdisk.congr hshards hfiles⟩
  -- an operation writes the manifest with its shards, removes it, or touches neither
  cases op with
  | build dim metric tids graph vectors hnsw fault =>
    rcases fault with _ | _ | _
    · exact .inl (hnone rfl)
    · cases vectors <;> exact hkeep rfl rfl
    · cases vectors <;> exact hkeep rfl rfl
  | save dim metric tids graph fault => rcases fault with _ | _ | _ <;> exact hkeep rfl rfl
  | buildSharded dim metric tids shards vectors fault =>
    cases fault with
    | none =>
      refine .inr ⟨_, List.mem_append_right _ List.mem_cons_self, ⟨rfl, ?_⟩, ?_⟩
      · exact congrArg Artifacts.Core.shards hcore
      · intro i g hg
        obtain ⟨s, hs, rfl⟩ := Option.map_eq_some_iff.mp (List.getElem?_map .. ▸ hg)
        exact buildSharded_shardCagra hs
    | some m =>
      refine .inl (hnone ?_)
      rw [runCore, PersistOp.coreSteps, CrashPrefix.run_append]
      rfl
  | buildFlat dim metric tids vectors fault =>
    rcases fault with _ | _ | _
    · exact .inl (hnone rfl)
    · exact hkeep rfl rfl
    · exact hkeep rfl rfl
  | buildIvfpq dim metric tids ivfpq fault => rcases fault with _ | _ | _ <;> exact hkeep rfl rfl
  | drop => exact .inl (hnone rfl)

theorem onDisk_replay (hist : List PersistOp) :
    (replay hist).shards = none ∨ ∃ p ∈ hist, p.OnDisk (replay hist) := by
  induction hist using List.reverseRecOn with
  | nil => exact .inl rfl
  | append_singleton hist op ih =>
    rw [replay_append]
    exact onDisk_steps ih op

end Manifest

section Sourced

def FileOp.ofOp (op : PersistOp) : FileOp → Prop
  | .renameTids f => op.tidsFile = some f
  | .renameShards m => op.manifest = some m
  | .renameShardCagra _ c => c ∈ op.shardGraphs
  | _ => True

structure Sourced (ops : List PersistOp) (a : Artifacts) : Prop where
  tids : ∀ f, a.tids = some f → ∃ op ∈ ops, op.tidsFile = some f
  shards : ∀ m, a.shards = some m → ∃ op ∈ ops, op.manifest = some m
  shardCagra : ∀ i c, a.shardCagra i = some c → ∃ op ∈ ops, c ∈ op.shardGraphs

variable {ops : List PersistOp} {op : PersistOp} {a : Artifacts}

theorem Sourced.apply (hop : op ∈ ops) {o : FileOp} (ho : o.ofOp op) (h : Sourced ops a) :
    Sourced ops (o.apply a) := by
  cases o with
  | renameTids f => exact ⟨fun _ hf => ⟨op, hop, ho.trans hf⟩, h.shards, h.shardCagra⟩
  | renameShards m => exact ⟨h.tids, fun _ hm => ⟨op, hop, ho.trans hm⟩, h.shardCagra⟩
  | renameShardCagra s c =>
    refine ⟨h.tids, h.shards, fun i c' hc' => ?_⟩
    rcases eq_or_ne i s with rfl | hne
    · have hsame : c = c' := by simpa [FileOp.apply] using hc'
      exact ⟨op, hop, hsame ▸ ho⟩
    · exact h.shardCagra i c' (by simpa [FileOp.apply, Function.update_of_ne hne] using hc')
  | unlinkShardCagra s =>
    refine ⟨h.tids, h.shards, fun i c' hc' => ?_⟩
    rcases eq_or_ne i s with rfl | hne
    · simp [FileOp.apply] at hc'
    · exact h.shardCagra i c' (by simpa [FileOp.apply, Function.update_of_ne hne] using hc')
  | unlinkTids => exact ⟨fun _ hf => (Option.some_ne_none _ hf.symm).elim, h.shards, h.shardCagra⟩
  | unlinkShards => exact ⟨h.tids, fun _ hm => (Option.some_ne_none _ hm.symm).elim, h.shardCagra⟩
  | _ => exact ⟨h.tids, h.shards, h.shardCagra⟩

theorem ofOp_before (v : VectorsStage) : ∀ o ∈ v.before, o.ofOp op := by
  cases v <;> simp [VectorsStage.before, FileOp.ofOp]

theorem ofOp_commit (v : VectorsStage) : ∀ o ∈ v.commit, o.ofOp op := by
  cases v <;> simp [VectorsStage.commit, FileOp.ofOp]

theorem ofOp_unlinkShardFiles (start : ℕ) (a : Artifacts) :
    ∀ o ∈ unlinkShardFiles start a, o.ofOp op := by
  intro o ho
  obtain ⟨s, -, rfl⟩ := List.mem_map.mp ho
  exact trivial

theorem ofOp_renameShardFiles {ss : List ShardBuild}
    (h : ∀ b ∈ ss, b.graph ∈ op.shardGraphs) (i : ℕ) :
    ∀ o ∈ renameShardFiles i ss, o.ofOp op := by
  induction ss generalizing i with
  | nil => simp [renameShardFiles]
  | cons b ss ih =>
    intro o ho
    rcases List.mem_cons.mp ho with rfl | ho
    · exact h b List.mem_cons_self
    · exact ih (fun b' hb' => h b' (List.mem_cons_of_mem b hb')) (i + 1) o ho

theorem ofOp_saveIndexOps {tids : TidsFile} (h : op.tidsFile = some tids) (graph : Cagra)
    (fault : Option CommitFault) : ∀ o ∈ saveIndexOps tids graph fault, o.ofOp op := by
  rcases fault with _ | _ | _ <;> simp [saveIndexOps, FileOp.ofOp, h]

theorem ofOp_steps (a : Artifacts) (op : PersistOp) : ∀ o ∈ op.steps a, o.ofOp op := by
  cases op with
  | build dim metric tids graph vectors hnsw fault =>
    have htail : ∀ o ∈ hnsw.toList.map FileOp.writeHnsw,
        o.ofOp (.build dim metric tids graph vectors hnsw fault) := by
      cases hnsw <;> simp [FileOp.ofOp]
    simp only [PersistOp.steps, finishBuildCommitOps, List.forall_mem_append]
    refine ⟨⟨ofOp_before vectors, ofOp_saveIndexOps rfl graph fault⟩, ?_⟩
    split_ifs
    · simp
    · simp only [List.forall_mem_append]
      refine ⟨⟨⟨ofOp_commit vectors, ?_⟩, ofOp_unlinkShardFiles 0 a⟩, htail⟩
      simp [FileOp.ofOp]
  | save dim metric tids graph fault => exact ofOp_saveIndexOps rfl graph fault
  | buildSharded dim metric tids shards vectors fault =>
    set op := PersistOp.buildSharded dim metric tids shards vectors fault
    have hrenames : ∀ o ∈ renameShardFiles 0 shards ++
        [.renameTids (cuvsTidsWrite dim metric tids),
          .renameShards (shardManifest dim metric tids shards)], o.ofOp op := by
      refine List.forall_mem_append.mpr ⟨ofOp_renameShardFiles ?_ 0, ?_⟩
      · intro b hb
        exact List.mem_map_of_mem hb
      · simp [op, FileOp.ofOp, PersistOp.tidsFile, PersistOp.manifest]
    simp only [op, PersistOp.steps, buildShardedOps, List.forall_mem_append]
    refine ⟨ofOp_before vectors, ?_⟩
    cases fault with
    | some m =>
      simp only [List.forall_mem_append]
      refine ⟨⟨fun o ho => hrenames o (List.mem_of_mem_take ho), ?_⟩, ?_⟩
      · intro o ho
        obtain ⟨s, -, rfl⟩ := List.mem_map.mp ho
        exact trivial
      · simp [FileOp.ofOp]
    | none =>
      rw [List.forall_mem_append, List.forall_mem_append, List.forall_mem_append]
      refine ⟨⟨⟨hrenames, ofOp_commit vectors⟩, ?_⟩, ofOp_unlinkShardFiles shards.length a⟩
      simp [FileOp.ofOp]
  | buildFlat dim metric tids vectors fault =>
    rcases fault with _ | _ | _ <;>
      simp [PersistOp.steps, buildFlatOps, FileOp.ofOp, PersistOp.tidsFile]
  | buildIvfpq dim metric tids ivfpq fault =>
    rcases fault with _ | _ | _ <;>
      simp [PersistOp.steps, buildIvfpqOps, FileOp.ofOp, PersistOp.tidsFile]
  | drop =>
    simp only [PersistOp.steps, dropOps, List.forall_mem_append]
    refine ⟨?_, ofOp_unlinkShardFiles 0 a⟩
    simp [FileOp.ofOp]

theorem Sourced.mono (h : Sourced ops a) (op : PersistOp) : Sourced (ops ++ [op]) a where
  tids f hf := by
    obtain ⟨q, hq, hfile⟩ := h.tids f hf
    exact ⟨q, List.mem_append_left _ hq, hfile⟩
  shards m hm := by
    obtain ⟨q, hq, hfile⟩ := h.shards m hm
    exact ⟨q, List.mem_append_left _ hq, hfile⟩
  shardCagra i c hc := by
    obtain ⟨q, hq, hfile⟩ := h.shardCagra i c hc
    exact ⟨q, List.mem_append_left _ hq, hfile⟩

theorem sourced_run {os : List FileOp} (hop : op ∈ ops) (hos : ∀ o ∈ os, o.ofOp op)
    (h : Sourced ops a) : Sourced ops (runFileOps os a) :=
  run_induct FileOp.apply (fun o ho _ hs => hs.apply hop (hos o ho)) h

theorem sourced_replay (hist : List PersistOp) : Sourced hist (replay hist) := by
  induction hist using List.reverseRecOn with
  | nil =>
    refine ⟨?_, ?_, ?_⟩
    · intro f hf
      cases hf
    · intro m hm
      cases hm
    · intro i c hc
      cases hc
  | append_singleton hist op ih =>
    rw [replay_append]
    exact sourced_run (List.mem_append_right _ List.mem_cons_self) (ofOp_steps _ op) (ih.mono op)

theorem sourced_crashed (hist : List PersistOp) (op : PersistOp) (n : ℕ) :
    Sourced (hist ++ [op]) (crashed hist op n) := by
  have hmem : op ∈ hist ++ [op] := List.mem_append_right _ List.mem_cons_self
  have hsteps : ∀ o ∈ (op.steps (replay hist)).take n, o.ofOp op :=
    fun o ho => ofOp_steps _ op o (List.mem_of_mem_take ho)
  exact sourced_run hmem hsteps ((sourced_replay hist).mono op)

end Sourced

end PgCuvs
