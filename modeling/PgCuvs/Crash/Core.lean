import PgCuvs.Crash.History

/-! The files a loader pairs with each other, and the few steps of each
operation that write them. -/

namespace PgCuvs

open CrashPrefix

structure Artifacts.Core where
  tids : Option TidsFile
  cagra : Option Cagra
  shards : Option ShardsFile
  ivfpq : Option IvfPq

def Artifacts.core (a : Artifacts) : Artifacts.Core := ⟨a.tids, a.cagra, a.shards, a.ivfpq⟩

def FileOp.coreApply : FileOp → Artifacts.Core → Artifacts.Core
  | .renameTids f, c => { c with tids := some f }
  | .renameCagra g, c => { c with cagra := some g }
  | .renameShards f, c => { c with shards := some f }
  | .renameIvfpq p, c => { c with ivfpq := some p }
  | .unlinkTids, c => { c with tids := none }
  | .unlinkCagra, c => { c with cagra := none }
  | .unlinkShards, c => { c with shards := none }
  | .unlinkIvfpq, c => { c with ivfpq := none }
  | _, c => c

def FileOp.major : FileOp → Bool
  | .renameTids _ | .renameCagra _ | .renameShards _ | .renameIvfpq _ | .unlinkTids
  | .unlinkCagra | .unlinkShards | .unlinkIvfpq => true
  | _ => false

theorem core_apply (o : FileOp) (a : Artifacts) : (o.apply a).core = o.coreApply a.core := by
  cases o <;> rfl

theorem coreApply_of_not_major (o : FileOp) (c : Artifacts.Core) (h : o.major = false) :
    o.coreApply c = c := by
  cases o <;> first | rfl | cases h

abbrev runCore : List FileOp → Artifacts.Core → Artifacts.Core := run FileOp.coreApply

theorem core_runFileOps (os : List FileOp) (a : Artifacts) :
    (runFileOps os a).core = runCore (os.filter FileOp.major) a.core := by
  rw [runCore, run_filter coreApply_of_not_major]
  exact run_view core_apply os a

def PersistOp.coreSteps : PersistOp → List FileOp
  | .build dim metric tids graph _ _ fault =>
    saveIndexOps (cuvsTidsWrite dim metric tids) graph fault ++
      if fault.isSome then [] else [.unlinkShards]
  | .save dim metric tids graph fault => saveIndexOps (cuvsTidsWrite dim metric tids) graph fault
  | .buildSharded dim metric tids shards _ fault =>
    let renames := [.renameTids (cuvsTidsWrite dim metric tids),
      .renameShards (shardManifest dim metric tids shards)]
    match fault with
    | some m => renames.take (m - shards.length) ++ [.unlinkTids, .unlinkShards]
    | none => renames ++ [.unlinkCagra]
  | .buildFlat dim metric tids _ fault =>
    if fault.isSome then []
    else [.renameTids (cuvsTidsWrite dim metric tids), .unlinkCagra, .unlinkIvfpq, .unlinkShards]
  | .buildIvfpq dim metric tids ivfpq fault =>
    buildIvfpqOps (cuvsTidsWrite dim metric tids) ivfpq fault |>.filter FileOp.major
  | .drop => [.unlinkCagra, .unlinkTids, .unlinkShards]

section Filter

theorem filter_unlinkShardFiles (start : ℕ) (a : Artifacts) :
    (unlinkShardFiles start a).filter FileOp.major = [] := by
  refine List.filter_eq_nil_iff.mpr ?_
  intro o ho
  obtain ⟨s, -, rfl⟩ := List.mem_map.mp ho
  exact Bool.false_ne_true

theorem filter_before (v : VectorsStage) : v.before.filter FileOp.major = [] := by
  cases v <;> rfl

theorem filter_commit (v : VectorsStage) : v.commit.filter FileOp.major = [] := by
  cases v <;> rfl

theorem filter_writeHnsw (h : Option Hnsw) :
    (h.toList.map FileOp.writeHnsw).filter FileOp.major = [] := by
  cases h <;> rfl

theorem filter_saveIndexOps (tids : TidsFile) (graph : Cagra) (fault : Option CommitFault) :
    (saveIndexOps tids graph fault).filter FileOp.major = saveIndexOps tids graph fault := by
  rcases fault with _ | _ | _ <;> rfl

theorem filter_renameShardFiles (i : ℕ) (ss : List ShardBuild) :
    (renameShardFiles i ss).filter FileOp.major = [] := by
  induction ss generalizing i with
  | nil => rfl
  | cons s ss ih => exact ih (i + 1)

theorem length_renameShardFiles (i : ℕ) (ss : List ShardBuild) :
    (renameShardFiles i ss).length = ss.length := by
  induction ss generalizing i with
  | nil => rfl
  | cons s ss ih => exact congrArg (· + 1) (ih (i + 1))

theorem filter_unlinkShardCagra (m : ℕ) :
    ((List.range m).map FileOp.unlinkShardCagra).filter FileOp.major = [] := by
  refine List.filter_eq_nil_iff.mpr ?_
  intro o ho
  obtain ⟨s, -, rfl⟩ := List.mem_map.mp ho
  exact Bool.false_ne_true

theorem filter_steps (a : Artifacts) (op : PersistOp) :
    (op.steps a).filter FileOp.major = op.coreSteps := by
  cases op with
  | build dim metric tids graph vectors hnsw fault =>
    simp only [PersistOp.steps, finishBuildCommitOps, PersistOp.coreSteps, List.filter_append,
      filter_before, filter_saveIndexOps, List.nil_append]
    split_ifs
    · rfl
    · simp only [List.filter_append, filter_commit, filter_unlinkShardFiles, filter_writeHnsw,
        List.nil_append, List.append_nil]
      rfl
  | save dim metric tids graph fault => exact filter_saveIndexOps _ graph fault
  | buildSharded dim metric tids shards vectors fault =>
    cases fault with
    | none =>
      simp only [PersistOp.steps, buildShardedOps, PersistOp.coreSteps, List.filter_append,
        filter_before, filter_renameShardFiles, filter_commit, filter_unlinkShardFiles,
        List.nil_append, List.append_nil]
      rfl
    | some m =>
      have hshards : ((renameShardFiles 0 shards).take m).filter FileOp.major = [] := by
        have hprefix := (List.take_prefix m (renameShardFiles 0 shards)).filter FileOp.major
        rw [filter_renameShardFiles] at hprefix
        exact List.prefix_nil.mp hprefix
      have hrenames : ∀ k : ℕ, (([.renameTids (cuvsTidsWrite dim metric tids),
          .renameShards (shardManifest dim metric tids shards)] : List FileOp).take k).filter
            FileOp.major = ([.renameTids (cuvsTidsWrite dim metric tids),
          .renameShards (shardManifest dim metric tids shards)] : List FileOp).take k := by
        rintro (_ | _ | _ | k) <;> rfl
      simp only [PersistOp.steps, buildShardedOps, PersistOp.coreSteps, List.filter_append,
        filter_before, List.take_append, length_renameShardFiles, hshards, hrenames,
        filter_unlinkShardCagra, List.nil_append, List.append_nil]
      rfl
  | buildFlat dim metric tids vectors fault => rcases fault with _ | _ | _ <;> rfl
  | buildIvfpq dim metric tids ivfpq fault => rfl
  | drop =>
    simp only [PersistOp.steps, dropOps, List.filter_append, filter_unlinkShardFiles,
      List.append_nil]
    rfl

end Filter

section ShardFiles

variable {a : Artifacts}

theorem run_renameShardFiles (i j m : ℕ) (ss : List ShardBuild) (a : Artifacts)
    (hi : i < j ∨ j + min m ss.length ≤ i) :
    (runFileOps ((renameShardFiles j ss).take m) a).shardCagra i = a.shardCagra i := by
  induction ss generalizing j m a with
  | nil => simp [renameShardFiles, runFileOps]
  | cons s ss ih =>
    cases m with
    | zero => rfl
    | succ m =>
      have hne : i ≠ j := by
        simp only [List.length_cons] at hi
        omega
      rw [renameShardFiles, List.take_succ_cons, runFileOps, CrashPrefix.run_cons]
      refine (ih (j + 1) m _ ?_).trans (Function.update_of_ne hne _ _)
      simp only [List.length_cons] at hi
      omega

theorem run_unlinkShardFiles (i start : ℕ) (b : Artifacts) (hi : i < start) :
    (runFileOps (unlinkShardFiles start b) a).shardCagra i = a.shardCagra i := by
  refine CrashPrefix.run_field (f := fun a : Artifacts => a.shardCagra i) FileOp.apply ?_ a
  intro o ho c
  obtain ⟨s, hs, rfl⟩ := List.mem_map.mp ho
  have hrange := List.mem_range'_1.mp (List.takeWhile_prefix _ |>.sublist.mem hs)
  exact Function.update_of_ne (by omega) _ _

theorem run_renameShardFiles_get (i : ℕ) (ss : List ShardBuild) (a : Artifacts) {j : ℕ}
    {s : ShardBuild} (hs : ss[j]? = some s) :
    (runFileOps (renameShardFiles i ss) a).shardCagra (i + j) = some s.graph := by
  induction ss generalizing i j a with
  | nil => cases hs
  | cons t ts ih =>
    rw [renameShardFiles, runFileOps, CrashPrefix.run_cons]
    cases j with
    | zero =>
      cases hs
      have hlater := run_renameShardFiles i (i + 1) ts.length ts
        (FileOp.apply (.renameShardCagra i s.graph) a) (.inl (Nat.lt_succ_self i))
      rw [List.take_of_length_le (length_renameShardFiles (i + 1) ts).le] at hlater
      exact hlater.trans (Function.update_self ..)
    | succ j =>
      rw [Nat.add_comm j 1, ← Nat.add_assoc]
      exact ih (i + 1) _ hs

theorem buildSharded_shardCagra {dim : ℕ} {metric : Metric} {tids : List Tid}
    {shards : List ShardBuild} {v : VectorsStage} {j : ℕ} {s : ShardBuild}
    (hs : shards[j]? = some s) :
    (runFileOps (buildShardedOps a dim metric tids shards v none) a).shardCagra j
      = some s.graph := by
  have hj : j < shards.length := (List.getElem?_eq_some_iff.mp hs).1
  have hrenamed := run_renameShardFiles_get 0 shards (runFileOps v.before a) hs
  rw [Nat.zero_add] at hrenamed
  simp only [buildShardedOps, runFileOps, CrashPrefix.run_append]
  rw [run_unlinkShardFiles j shards.length a hj, ← hrenamed]
  cases v <;> rfl

end ShardFiles

def PersistOp.executed (a : Artifacts) (op : PersistOp) (n : ℕ) : List FileOp :=
  ((op.steps a).take n).filter FileOp.major

theorem steps_executed (a : Artifacts) (op : PersistOp) (n : ℕ) :
    op.executed a n <+: op.coreSteps := by
  rw [← filter_steps a op]
  exact (List.take_prefix n (op.steps a)).filter FileOp.major

theorem core_crashed (hist : List PersistOp) (op : PersistOp) (n : ℕ) :
    (crashed hist op n).core = runCore (op.executed (replay hist) n) (replay hist).core :=
  core_runFileOps _ _

theorem core_replay_append (hist : List PersistOp) (op : PersistOp) :
    (replay (hist ++ [op])).core = runCore op.coreSteps (replay hist).core := by
  rw [replay_append, core_runFileOps, filter_steps]

end PgCuvs
