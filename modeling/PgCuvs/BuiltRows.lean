import PgCuvs.Alignment
import PgCuvs.FailedBuild
import PgCuvs.RegistryKeys

/-! The rows a BUILD leaves when it replies OK: in the files of its index and, unless the
registry is full, in the entry. -/

namespace PgCuvs

section Rows

theorem zip_append_drop {α β : Type*} (xs : List α) (ys zs : List β) :
    xs.zip (ys ++ zs) = xs.zip ys ++ (xs.drop ys.length).zip zs := by
  induction ys generalizing xs with
  | nil => simp
  | cons y ys ih =>
    cases xs with
    | nil => simp
    | cons x xs => rw [List.cons_append, List.zip_cons_cons, ih, List.zip_cons_cons, List.cons_append,
        List.length_cons, List.drop_succ_cons]

def IndexEntry.rows (e : IndexEntry) : List (Tid × Vec) :=
  if 2 ≤ e.shardCount then
    e.shards.flatMap fun s => (e.tids.drop s.tidOffset).zip (s.handle.elim [] Cagra.rows)
  else e.tids.zip (e.handle.elim [] Cagra.rows)

def Daemon.residentRows (d : Daemon) (key : Key) : Option (List (Tid × Vec)) :=
  (d.live.find? fun e => e.key == key).map IndexEntry.rows

def Artifacts.tidBody (a : Artifacts) : List Tid := a.tids.elim [] TidsFile.body

def Artifacts.rows (a : Artifacts) : List (Tid × Vec) :=
  match a.shards with
  | some m =>
    m.body.flatMap fun r =>
      (a.tidBody.drop r.tidOffset).zip ((a.shardCagra r.shardId).elim [] Cagra.rows)
  | none => a.tidBody.zip (a.cagra.elim [] Cagra.rows)

structure Artifacts.HoldRows (rows : List (Tid × Vec)) (a : Artifacts) : Prop where
  graphs : a.rows = rows
  vectors : ∀ f, a.vectors = some f → a.tidBody.zip f.content.body = rows

structure Effect.HoldsRows (key : Key) (dir : Dir) (rows : List (Tid × Vec)) (x : Effect) :
    Prop where
  resident : ∀ held, x.final.residentRows key = some held → held = rows
  stored : (x.final.disk dir key).HoldRows rows

end Rows

section Shards

variable {tids : List Tid}

def ShardsCounted (shards : List ShardBuild) : Prop := ∀ s ∈ shards, s.graph.rows.length = s.nVecs

theorem shardEntries_rows (frame : BuildFrame) (i off : ℕ) {shards : List ShardBuild}
    (h : ShardsCounted shards) :
    ((shardEntries frame i off shards).flatMap fun s =>
        (tids.drop s.tidOffset).zip (s.handle.elim [] Cagra.rows))
      = (tids.drop off).zip (shards.flatMap fun s => s.graph.rows) := by
  induction shards generalizing i off with
  | nil => simp [shardEntries]
  | cons s ss ih =>
    have hs := h s List.mem_cons_self
    rw [shardEntries, List.flatMap_cons, List.flatMap_cons, zip_append_drop, List.drop_drop, hs,
      ih (i + 1) (off + s.nVecs) fun t ht => h t (List.mem_cons_of_mem s ht)]
    rfl

theorem shardRecords_rows (dim : ℕ) (metric : Metric) (i off : ℕ) {shards : List ShardBuild}
    (h : ShardsCounted shards) {files : ℕ → Option Cagra}
    (hfiles : ∀ j s, shards[j]? = some s → files (i + j) = some s.graph) :
    ((shardRecords dim metric i off shards).flatMap fun r =>
        (tids.drop r.tidOffset).zip ((files r.shardId).elim [] Cagra.rows))
      = (tids.drop off).zip (shards.flatMap fun s => s.graph.rows) := by
  induction shards generalizing i off with
  | nil => simp [shardRecords]
  | cons s ss ih =>
    have hs := h s List.mem_cons_self
    have hfile : files i = some s.graph := hfiles 0 s rfl
    have hrest := ih (i + 1) (off + s.nVecs) (fun t ht => h t (List.mem_cons_of_mem s ht)) (by
      intro j t ht
      rw [Nat.add_assoc, Nat.add_comm 1 j]
      exact hfiles (j + 1) t ht)
    rw [shardRecords, List.flatMap_cons, List.flatMap_cons, zip_append_drop, List.drop_drop, hs, hrest]
    simp only [hfile, Option.elim_some]

theorem shardRange_succ (n sc i : ℕ) :
    (shardRange n sc i).1 + (shardRange n sc i).2 = (shardRange n sc (i + 1)).1 := by
  simp only [shardRange, Nat.mul_succ]
  split_ifs <;> omega

theorem shardRange_end (n sc : ℕ) (h : 0 < sc) : (shardRange n sc sc).1 = n := by
  have hmod := Nat.mod_lt n h
  rw [shardRange, Nat.min_eq_right hmod.le, Nat.mul_comm]
  exact Nat.div_add_mod n sc

theorem buildShards_rows {cfg : Config} {env : Env} {benv : BuildEnv} {frame : BuildFrame}
    {vecs : List Vec} {sc todo i : ℕ} {d d' : Daemon} {shards : List ShardBuild} (hsc : 0 < sc)
    (hi : i + todo = sc)
    (h : buildShards cfg env benv frame vecs sc todo i d = (d', some shards)) :
    ShardsCounted shards ∧ (shards.flatMap fun s => s.graph.rows)
      = vecs.drop (shardRange vecs.length sc i).1 := by
  induction todo generalizing i d d' shards with
  | zero =>
    cases h
    obtain rfl : i = sc := hi
    rw [shardRange_end _ _ hsc, List.drop_length]
    exact ⟨fun _ hs => (nomatch hs), rfl⟩
  | succ todo ih =>
    simp only [buildShards] at h
    split at h
    · cases h
    · split at h
      · cases h
      · split at h
        · cases h
        · rename_i rest hrest
          cases h
          obtain ⟨hcount, hrows⟩ := ih (by omega) hrest
          have hlast := shardRange_succ vecs.length sc i
          have hbound : (shardRange vecs.length sc i).1 + (shardRange vecs.length sc i).2
              ≤ vecs.length := by
            rw [hlast]
            have hmono : ∀ k, (shardRange vecs.length sc (i + 1)).1
                ≤ (shardRange vecs.length sc (i + 1 + k)).1 := by
              intro k
              induction k with
              | zero => exact le_rfl
              | succ k ihk =>
                have hnext := shardRange_succ vecs.length sc (i + 1 + k)
                rw [← Nat.add_assoc]
                omega
            have hsum := hmono todo
            rwa [Nat.add_assoc, Nat.add_comm 1 todo, hi, shardRange_end _ _ hsc] at hsum
          refine ⟨List.forall_mem_cons.mpr ⟨?_, hcount⟩, ?_⟩
          · rw [List.length_take, List.length_drop]
            exact Nat.min_eq_left (by omega)
          · rw [List.flatMap_cons, hrows, ← hlast, ← List.drop_drop]
            exact List.take_append_drop _ _

end Shards

section Files

variable {a : Artifacts}

def FileOp.keepsVectors : FileOp → Bool
  | .renameVectors _ | .unlinkVectors => false
  | _ => true

theorem run_keepsVectors {ops : List FileOp} (h : ∀ o ∈ ops, o.keepsVectors) (a : Artifacts) :
    (runFileOps ops a).vectors = a.vectors := by
  refine CrashPrefix.run_field FileOp.apply ?_ a
  intro o ho b
  have hkeep := h o ho
  cases o <;> first | rfl | cases hkeep

theorem commit_vectors {v : VectorsStage} {renames rest : List FileOp}
    (hrenames : ∀ o ∈ renames, o.keepsVectors) (hrest : ∀ o ∈ rest, o.keepsVectors)
    {f : Stamped VectorsFile}
    (h : (runFileOps (v.before ++ renames ++ v.commit ++ rest) a).vectors = some f) :
    v = .ready f := by
  simp only [runFileOps, CrashPrefix.run_append] at h
  rw [run_keepsVectors hrest] at h
  cases v with
  | ready g =>
    cases h
    rfl
  | writeFailed =>
    have hgone := run_keepsVectors hrenames (runFileOps VectorsStage.writeFailed.before a)
    cases h.symm.trans hgone
  | renameFailed => cases h

theorem keepsVectors_unlinkShardFiles (start : ℕ) (b : Artifacts) :
    ∀ o ∈ unlinkShardFiles start b, o.keepsVectors := by
  intro o ho
  obtain ⟨s, -, rfl⟩ := List.mem_map.mp ho
  rfl

theorem keepsVectors_renameShardFiles (i : ℕ) (ss : List ShardBuild) :
    ∀ o ∈ renameShardFiles i ss, o.keepsVectors := by
  induction ss generalizing i with
  | nil => exact fun _ ho => (nomatch ho)
  | cons t ts ih => exact List.forall_mem_cons.mpr ⟨rfl, ih (i + 1)⟩

theorem finishBuildCommit_holdRows {dim : ℕ} {metric : Metric} {corpus : Corpus}
    {image : List UInt8} {v : VectorsStage} {hnsw : Option Hnsw}
    (hbody : ∀ f, v = .ready f → f.content.body = corpus.vecs) :
    (runFileOps (finishBuildCommitOps a (cuvsTidsWrite dim metric corpus.tids)
      ⟨image, corpus.vecs⟩ v hnsw none) a).HoldRows corpus.rows := by
  have hcore := core_runFileOps
    ((PersistOp.build dim metric corpus.tids ⟨image, corpus.vecs⟩ v hnsw none).steps a) a
  rw [filter_steps] at hcore
  have htids := congrArg Artifacts.Core.tids hcore
  have hcagra := congrArg Artifacts.Core.cagra hcore
  have hshards := congrArg Artifacts.Core.shards hcore
  simp only [PersistOp.steps] at htids hcagra hshards
  set b := runFileOps (finishBuildCommitOps a (cuvsTidsWrite dim metric corpus.tids)
    ⟨image, corpus.vecs⟩ v hnsw none) a with hb
  have htids' : b.tids = some (cuvsTidsWrite dim metric corpus.tids) := htids
  have hcagra' : b.cagra = some ⟨image, corpus.vecs⟩ := hcagra
  have hshards' : b.shards = none := hshards
  have hbodyTids : b.tidBody = corpus.tids := by rw [Artifacts.tidBody, htids']; rfl
  constructor
  · simp only [Artifacts.rows, hshards', hcagra', hbodyTids]
    rfl
  · intro f hf
    have hops : finishBuildCommitOps a (cuvsTidsWrite dim metric corpus.tids)
        ⟨image, corpus.vecs⟩ v hnsw none
        = v.before ++ saveIndexOps (cuvsTidsWrite dim metric corpus.tids) ⟨image, corpus.vecs⟩ none
          ++ v.commit ++ ([.unlinkStale, .unlinkShards] ++ unlinkShardFiles 0 a
            ++ hnsw.toList.map .writeHnsw) := by
      simp only [finishBuildCommitOps, Option.isSome_none, Bool.false_eq_true, if_false,
        List.append_assoc]
    rw [hb, hops] at hf
    have hstaged : v = .ready f := by
      refine commit_vectors ?_ ?_ hf
      · simp [saveIndexOps, FileOp.keepsVectors]
      · refine List.forall_mem_append.mpr ⟨List.forall_mem_append.mpr ⟨?_, ?_⟩, ?_⟩
        · simp [FileOp.keepsVectors]
        · exact keepsVectors_unlinkShardFiles 0 a
        · simp [FileOp.keepsVectors]
    rw [hbodyTids, hbody f hstaged]
    rfl

theorem buildSharded_holdRows {dim : ℕ} {metric : Metric} {corpus : Corpus}
    {shards : List ShardBuild} {v : VectorsStage} (hcount : ShardsCounted shards)
    (hrows : (shards.flatMap fun s => s.graph.rows) = corpus.vecs)
    (hbody : ∀ f, v = .ready f → f.content.body = corpus.vecs) :
    (runFileOps (buildShardedOps a dim metric corpus.tids shards v none) a).HoldRows
      corpus.rows := by
  have hcore := core_runFileOps
    ((PersistOp.buildSharded dim metric corpus.tids shards v none).steps a) a
  rw [filter_steps] at hcore
  have htids := congrArg Artifacts.Core.tids hcore
  have hshards := congrArg Artifacts.Core.shards hcore
  simp only [PersistOp.steps] at htids hshards
  have hfiles : ∀ j s, shards[j]? = some s →
      (runFileOps (buildShardedOps a dim metric corpus.tids shards v none) a).shardCagra (0 + j)
        = some s.graph := by
    intro j s hs
    rw [Nat.zero_add]
    exact buildSharded_shardCagra hs
  set b := runFileOps (buildShardedOps a dim metric corpus.tids shards v none) a with hb
  have htids' : b.tids = some (cuvsTidsWrite dim metric corpus.tids) := htids
  have hshards' : b.shards = some (shardManifest dim metric corpus.tids shards) := hshards
  have hbodyTids : b.tidBody = corpus.tids := by rw [Artifacts.tidBody, htids']; rfl
  constructor
  · simp only [Artifacts.rows, hshards', hbodyTids]
    refine (shardRecords_rows dim metric 0 0 hcount hfiles).trans ?_
    rw [List.drop_zero, hrows]
    rfl
  · intro f hf
    have hops : buildShardedOps a dim metric corpus.tids shards v none
        = v.before ++ (renameShardFiles 0 shards ++
            [.renameTids (cuvsTidsWrite dim metric corpus.tids),
              .renameShards (shardManifest dim metric corpus.tids shards)])
          ++ v.commit ++ ([.unlinkStale, .unlinkCagra] ++ unlinkShardFiles shards.length a) := by
      simp only [buildShardedOps, List.append_assoc]
    rw [hb, hops] at hf
    -- the old `.vectors` are gone before the commit, so what is there was staged
    have hstaged : v = .ready f := by
      refine commit_vectors ?_ ?_ hf
      · refine List.forall_mem_append.mpr ⟨keepsVectors_renameShardFiles 0 shards, ?_⟩
        simp [FileOp.keepsVectors]
      · refine List.forall_mem_append.mpr ⟨?_, keepsVectors_unlinkShardFiles _ a⟩
        simp [FileOp.keepsVectors]
    rw [hbodyTids, hbody f hstaged]
    rfl

end Files

section Entries

variable {cfg : Config} {env : Env} {d : Daemon} {key : Key} {gpu : ℕ} {w : EntryWrite}
  {c : SlotInit} {rows : List (Tid × Vec)}

theorem find?_set {l : List IndexEntry} {i : ℕ} {e : IndexEntry} (hi : findIndex l key = some i)
    (he : e.key = key) : (l.set i e).find? (fun e => e.key == key) = some e := by
  induction l generalizing i with
  | nil => cases hi
  | cons x xs ih =>
    rw [findIndex, List.findIdx?_cons] at hi
    split_ifs at hi with hx
    · cases hi
      rw [List.set_cons_zero, List.find?_cons_of_pos (by simpa using he)]
    · obtain ⟨j, hj, rfl⟩ := Option.map_eq_some_iff.mp hi
      rw [List.set_cons_succ, List.find?_cons, Bool.eq_false_iff.mpr hx]
      exact ih hj

theorem find?_append_new {l : List IndexEntry} {e : IndexEntry} (hl : ∀ e ∈ l, e.key ≠ key)
    (he : e.key = key) : (l ++ [e]).find? (fun e => e.key == key) = some e := by
  have hnone : l.find? (fun e => e.key == key) = none := by simpa using hl
  rw [List.find?_append, hnone, Option.none_or, List.find?_cons_of_pos (by simpa using he)]

theorem installEntry_residentRows (hw : ∀ e, e.key = key → (w.apply e).key = key ∧ (w.apply e).rows = rows)
    (hc : ∀ slot, (c.apply slot).key = key ∧ (c.apply slot).rows = rows) :
    (installEntry cfg env d key gpu w c).final.residentRows key =
      if findIndex d.live key = none ∧ cfg.maxIndexes ≤ (makeSlot cfg env d gpu).live.length then none
      else some rows := by
  unfold installEntry
  cases hfind : findIndex d.live key with
  | some i =>
    obtain ⟨e, hi, hkey⟩ := findIndex_eq_some hfind
    have hlive : (Effect.final ⟨d, .replace i w, .ok⟩).live = d.live.set i (w.apply e) := by
      simp only [Effect.final, Daemon.act, Daemon.live, Registry.act]
      rw [show d.registry.live[i]? = some e from hi]
      rfl
    simp only [Daemon.residentRows]
    rw [hlive, find?_set hfind (hw e hkey).1, Option.map_some, (hw e hkey).2, if_neg (by rintro ⟨⟨⟩, -⟩)]
  | none =>
    have hkey : NotResident key (makeSlot cfg env d gpu) :=
      (makeSlot_evictions cfg env d gpu).notResident cfg (findIndex_eq_none.mp hfind)
    have hnone : (makeSlot cfg env d gpu).live.find? (fun e => e.key == key) = none := by
      simpa [NotResident] using hkey
    simp only [true_and]
    split_ifs
    · simp only [Daemon.residentRows, Effect.final, Daemon.act, Registry.act]
      exact congrArg (Option.map IndexEntry.rows) hnone
    · simp only [Daemon.residentRows, Effect.final, Daemon.act, Daemon.live, Registry.act,
        Registry.append_live]
      refine (congrArg (Option.map IndexEntry.rows) (find?_append_new hkey (hc _).1)).trans ?_
      rw [Option.map_some, (hc _).2]

theorem installEntry_disk (dir : Dir) :
    (installEntry cfg env d key gpu w c).final.disk dir key = d.disk dir key := by
  unfold installEntry
  cases hfind : findIndex d.live key with
  | some i => rfl
  | none =>
    have hsame := (makeSlot_evictions cfg env d gpu).disk cfg (findIndex_eq_none.mp hfind) dir
    simp only
    split_ifs <;> exact hsame

theorem buildRevTidMap_rows (e : IndexEntry) : (buildRevTidMap e).rows = e.rows :=
  buildRevTidMap_field IndexEntry.rows (fun _ _ _ => rfl) e

end Entries

section Commit

variable {cfg : Config} {env : Env} {benv : BuildEnv} {d : Daemon} {frame : BuildFrame} {dir : Dir}
  {corpus : Corpus} {p : Prepared}

def Prepared.Carries (key : Key) (dir : Dir) (corpus : Corpus) : Prepared → Prop
  | .failed _ r => r.status ≠ .ok
  | .graph _ t _ => t.frame.key = key ∧ t.saveDir = dir ∧ t.corpus = corpus ∧
      t.vectors.body = corpus.vecs
  | .sharded _ dir' corpus' shards => dir' = dir ∧ corpus' = corpus ∧ 2 ≤ shards.length ∧
      ShardsCounted shards ∧ (shards.flatMap fun s => s.graph.rows) = corpus.vecs
  | .ivfpq .. => False

theorem stageVectors_body {file : VectorsFile} {f : Stamped VectorsFile}
    (h : stageVectors env benv file = .ready f) : f.content = file := by
  unfold stageVectors at h
  split at h <;> cases h
  rfl

def Installs (key : Key) (rows : List (Tid × Vec)) (w : EntryWrite) (c : SlotInit) : Prop :=
  (∀ e, e.key = key → (w.apply e).key = key ∧ (w.apply e).rows = rows) ∧
    ∀ slot, (c.apply slot).key = key ∧ (c.apply slot).rows = rows

theorem build_installs (now : ℕ) (t : BuildTicket) {graph : Cagra}
    (hgraph : graph.rows = t.corpus.vecs) :
    Installs t.frame.key t.corpus.rows (.build now t graph) (.build now t graph) := by
  have hzip : t.corpus.tids.zip graph.rows = t.corpus.rows := by rw [hgraph]; rfl
  constructor
  · intro e he
    have hkey := EntryWrite.apply_key (w := .build now t graph) ⟨he, hgraph⟩
    exact ⟨hkey.trans he, (buildRevTidMap_rows _).trans hzip⟩
  · intro slot
    refine ⟨SlotInit.apply_key (.build now t graph) slot, ?_⟩
    have hrows : ∀ e : IndexEntry, (resetEntryStats e).rows = e.rows := fun _ => rfl
    exact (hrows _).trans ((buildRevTidMap_rows _).trans hzip)

theorem sharded_installs (now : ℕ) {shards : List ShardBuild} (hsplit : 2 ≤ shards.length)
    (hcount : ShardsCounted shards)
    (hrows : (shards.flatMap fun s => s.graph.rows) = corpus.vecs) :
    Installs frame.key corpus.rows
      (.sharded now frame corpus.tids (shardEntries frame 0 0 shards))
      (.sharded now frame corpus.tids (shardEntries frame 0 0 shards)) := by
  have hentry : ∀ e : IndexEntry,
      (installSharded now frame corpus.tids (shardEntries frame 0 0 shards) e).rows = corpus.rows := by
    intro e
    have hlen : 2 ≤ (shardEntries frame 0 0 shards).length := by
      rwa [length_shardEntries]
    have hcut : ((shardEntries frame 0 0 shards).flatMap fun s =>
        (corpus.tids.drop s.tidOffset).zip (s.handle.elim [] Cagra.rows)) = corpus.rows := by
      rw [shardEntries_rows frame 0 0 hcount, List.drop_zero, hrows]
      rfl
    exact (if_pos hlen).trans hcut
  exact ⟨fun e _ => ⟨rfl, hentry e⟩, fun _ => ⟨rfl, hentry _⟩⟩

theorem installEntry_holdsRows {key : Key} {gpu : ℕ} {w : EntryWrite} {c : SlotInit}
    {rows : List (Tid × Vec)} (h : Installs key rows w c) (hdisk : (d.disk dir key).HoldRows rows) :
    (installEntry cfg env d key gpu w c).HoldsRows key dir rows where
  resident := by
    intro held hheld
    rw [installEntry_residentRows h.1 h.2] at hheld
    split_ifs at hheld
    exact (Option.some.inj hheld).symm
  stored := by
    rw [installEntry_disk]
    exact hdisk

theorem Prepared.Carries.holdsRows (h : p.Carries frame.key dir corpus)
    (hok : (p.commit cfg env benv frame).reply.status = .ok) :
    (p.commit cfg env benv frame).HoldsRows frame.key dir corpus.rows := by
  cases p with
  | failed d1 r => exact absurd hok h
  | graph d1 t image =>
    obtain ⟨hkey, rfl, rfl, hbody⟩ := h
    simp only [Prepared.commit, finishBuildCommit] at hok ⊢
    cases hfault : benv.fault with
    | some fault =>
      rw [hfault] at hok
      cases hok
    | none =>
      rw [← hkey]
      refine installEntry_holdsRows (build_installs env.now t rfl) ?_
      simp only [Disk.modify_same, BuildTicket.commitOps, hfault]
      refine finishBuildCommit_holdRows ?_
      intro f hf
      rw [stageVectors_body hf, hbody]
  | sharded d1 dir' corpus' shards =>
    obtain ⟨rfl, rfl, hsplit, hcount, hrows⟩ := h
    simp only [Prepared.commit, commitSharded] at hok ⊢
    rcases hfault : benv.shardedFault with _ | _ | done
    · refine installEntry_holdsRows (sharded_installs env.now hsplit hcount hrows) ?_
      simp only [commitFiles, Disk.modify_same]
      refine buildSharded_holdRows hcount hrows ?_
      intro f hf
      rw [stageVectors_body hf]
      rfl
    · rw [hfault] at hok
      cases hok
    · rw [hfault] at hok
      cases hok
  | ivfpq d1 dir' corpus' gpu image => exact h.elim

/-- A plan that passes the checks is carried through. -/
theorem prepareBuild_carries {input : BuildInput} {plan : BuildPlan}
    (hplan : planBuild cfg frame input = .ok plan) (hbody : plan.vectors.body = plan.corpus.vecs) :
    (prepareBuild cfg env benv d frame input).Carries frame.key plan.dir plan.corpus := by
  unfold prepareBuild
  rw [hplan]
  simp only
  split_ifs
  · rintro ⟨⟩
  · simp only [prepareSharded]
    split_ifs with hsc
    · rintro ⟨⟩
    · rcases hshards : buildShards cfg env benv frame plan.corpus.vecs _ _ 0 d with ⟨d1, _ | shards⟩
      · rintro ⟨⟩
      · have hlen := (buildShards_spec cfg env benv frame plan.corpus.vecs _ _ 0 d).2 shards
          (by rw [hshards])
        obtain ⟨hcount, hrows⟩ := buildShards_rows (by omega) (Nat.zero_add _) hshards
        refine ⟨rfl, rfl, by omega, hcount, ?_⟩
        rw [hrows]
        simp [shardRange]
  · have hadmit := (admitBuild_evictions cfg env d plan.kind frame plan.dir plan.corpus plan.vectors).2
    rcases hadmitted : admitBuild cfg env d plan.kind frame plan.dir plan.corpus plan.vectors
      with ⟨d1, r | t⟩
    · have hroom := @admitBuild_room cfg env d frame plan.kind plan.dir plan.corpus plan.vectors
      rw [hadmitted] at hroom
      exact hroom.2
    · rw [hadmitted] at hadmit
      obtain ⟨hframe, hcorpus, hdir, hvectors⟩ := hadmit t rfl
      change (prepareGraph cfg env benv d1 plan.kind t).Carries frame.key plan.dir plan.corpus
      unfold prepareGraph
      rcases runBuild cfg env benv t (d1.live.length + 1) 0 d1 with ⟨d2, _ | _ | _⟩
      · exact ⟨by rw [hframe], hdir, hcorpus, by rw [hvectors, hbody]⟩
      · rintro ⟨⟩
      · rintro ⟨⟩

end Commit

end PgCuvs
