import PgCuvs.Alignment
import PgCuvs.Linked

/-! The CPU graph of an index carries no generation token. It answers for the entry that
has it, or that finds its file, whatever the entry's rows have become since. -/

namespace PgCuvs

section Pairs

variable (brought : BuildFrame → Corpus → Prop)

/-- Element `j` of the graph was built from the vector whose TID is `tids[j]`. -/
def HnswPaired (key : Key) (tids : List Tid) (n : ℕ) (h : Hnsw) : Prop :=
  ∃ frame corpus, brought frame corpus ∧ frame.key = key ∧ corpus.tids = tids ∧
    corpus.vecs = h.rows ∧ n = tids.length

/-- The shapes of entry whose searches come to the CPU graph. -/
def UsesHnsw (e : IndexEntry) : Prop := e.shardCount < 2 ∧ e.isFlat = false

/-- The cached graph is the entry's own, and so is the file that a search would cache. -/
def HnswOwn (e : IndexEntry) (a : Artifacts) : Prop :=
  UsesHnsw e → ∀ h, e.hnswIdx = some h ∨ a.hnsw = some h →
    HnswPaired brought e.key e.tids e.nVecs h

def HnswFile (_ : Dir) (key : Key) (a : Artifacts) : Prop :=
  ∀ f h, a.tids = some f → a.hnsw = some h → ∃ tids dim metric,
    f = cuvsTidsWrite dim metric tids ∧ HnswPaired brought key tids tids.length h

variable {brought} {e e' : IndexEntry} {a b : Artifacts} {dir : Dir} {key : Key}

theorem HnswOwn.of_none (he : e.hnswIdx = none) (ha : a.hnsw = none) : HnswOwn brought e a := by
  rintro - h (hh | hh)
  · cases he.symm.trans hh
  · cases ha.symm.trans hh

theorem HnswOwn.congr (h : HnswOwn brought e a) (hkey : e'.key = e.key) (htids : e'.tids = e.tids)
    (hn : e'.nVecs = e.nVecs) (huses : UsesHnsw e' → UsesHnsw e)
    (hhnsw : ∀ g, e'.hnswIdx = some g → e.hnswIdx = some g ∨ a.hnsw = some g) :
    HnswOwn brought e' a := by
  intro hu g hg
  rw [hkey, htids, hn]
  refine h (huses hu) g ?_
  rcases hg with hg | hg
  · exact hhnsw g hg
  · exact .inr hg

theorem HnswFile.of_no_tids (h : a.tids = none) : HnswFile brought dir key a := by
  intro f g hf
  cases h.symm.trans hf

theorem HnswFile.of_no_hnsw (h : a.hnsw = none) : HnswFile brought dir key a := by
  intro f g _ hg
  cases h.symm.trans hg

theorem HnswFile.congr (h : HnswFile brought dir key a) (htids : b.tids = a.tids)
    (hhnsw : b.hnsw = a.hnsw) : HnswFile brought dir key b := by
  intro f g hf hg
  exact h f g (htids.symm.trans hf) (hhnsw.symm.trans hg)

theorem HnswFile.loaded {thdr : TidsHeader} {tids : List Tid} (h : HnswFile brought dir key a)
    (htids : TidsAccepted a thdr tids) {g : Hnsw} (hg : a.hnsw = some g) :
    HnswPaired brought key tids thdr.nVecs g := by
  obtain ⟨f, hf, hread⟩ := Option.bind_eq_some_iff.mp htids.1
  obtain ⟨tids', dim, metric, rfl, hpaired⟩ := h f g hf hg
  obtain rfl := cuvsTidsRead_write_tids hread
  rw [← (cuvsTidsRead_eq_some hread).2.2.1]
  exact hpaired

end Pairs

section Moves

variable {brought : BuildFrame → Corpus → Prop} {cfg : Config} {e e' : IndexEntry} {a : Artifacts}
  {r r' : Resident}

theorem storeKeeps_hnsw (cfg : Config) : StoreKeeps cfg (HnswOwn brought) (HnswFile brought) := by
  intro e e' a _ hmove he
  cases hmove with
  | delta room builds =>
    refine he.congr (refreshDeltaCache_key e) (refreshDeltaCache_tids e) (refreshDeltaCache_nVecs e)
      ?_ ?_
    · rw [UsesHnsw, refreshDeltaCache_field IndexEntry.shardCount (fun _ => rfl) e,
        refreshDeltaCache_field IndexEntry.isFlat (fun _ => rfl) e]
      exact id
    · rw [refreshDeltaCache_field IndexEntry.hnswIdx (fun _ => rfl) e]
      exact fun _ => .inl
  | mainBf room builds prec =>
    refine he.congr (refreshMainBfCache_key e) (refreshMainBfCache_tids e)
      (refreshMainBfCache_nVecs e) ?_ ?_
    · rw [UsesHnsw, refreshMainBfCache_field IndexEntry.shardCount (fun _ _ _ _ _ _ _ => rfl) e,
        refreshMainBfCache_field IndexEntry.isFlat (fun _ _ _ _ _ _ _ => rfl) e]
      exact id
    · rw [refreshMainBfCache_field IndexEntry.hnswIdx (fun _ _ _ _ _ _ _ => rfl) e]
      exact fun _ => .inl
  | hnsw hnswIdx h => exact he.congr rfl rfl rfl id h
  | account | enter | leave | shardBf => exact he.congr rfl rfl rfl id fun _ => .inl

theorem saveEntryOps_hnsw (fault : Option SaveFault) (e : IndexEntry) (g : Cagra) (a : Artifacts) :
    (runFileOps (saveEntryOps fault e g).1 a).hnsw = a.hnsw :=
  saveEntryOps_field (f := Artifacts.hnsw) (fun _ _ => rfl) (fun _ _ => rfl) fault e g a

theorem saveKeeps_hnsw (cfg : Config) : SaveKeeps cfg (HnswOwn brought) (HnswFile brought) where
  saved e g a he _ hneeds _ := by
    have huses : UsesHnsw e := by
      simp only [needsSave, Bool.and_eq_true, Bool.not_eq_true', decide_eq_false_iff_not] at hneeds
      exact ⟨Nat.lt_of_not_le hneeds.1.1, hneeds.2⟩
    rintro f h ⟨⟩ hh
    have hown := he huses h (.inr ((saveEntryOps_hnsw none e g a).symm.trans hh))
    obtain ⟨frame, corpus, hrows, hkey, htids, hvecs, hn⟩ := hown
    have htake : e.tids.take e.nVecs = e.tids := by rw [hn, List.take_length]
    refine ⟨e.tids, e.dim, e.metric, by rw [htake], frame, corpus, hrows, hkey, htids, hvecs, rfl⟩
  failed fault e g a he ha _ _ := by
    have hhnsw := saveEntryOps_hnsw (some fault) e g a
    have hfile : HnswFile brought cfg.indexDir e.key (runFileOps (saveEntryOps (some fault) e g).1 a) := by
      cases fault with
      | renameCagra => exact .of_no_tids rfl
      | writeTids | serialize | renameTids => exact ha
    refine ⟨hfile, fun huses h hh => he huses h ?_⟩
    rwa [hhnsw] at hh

theorem Evictions.hnsw (h : Evictions cfg r r') (dir : Dir) (key : Key) :
    (r'.2 dir key).hnsw = (r.2 dir key).hnsw := by
  have hmodify : ∀ (disk : Disk) (fault : Option SaveFault) (e : IndexEntry) (g : Cagra),
      (disk.modify cfg.indexDir e.key (runFileOps (saveEntryOps fault e g).1) dir key).hnsw
        = (disk dir key).hnsw := by
    intro disk fault e g
    unfold Disk.modify
    split_ifs with hat
    · exact saveEntryOps_hnsw fault e g _
    · rfl
  induction h with
  | refl => rfl
  | tail _ hstep ih =>
    cases hstep with
    | drop hi hdev hneeds => exact ih
    | saved hi hdev hneeds hg => exact (hmodify _ none _ _).trans ih
    | failed fault hi hneeds hg => exact (hmodify _ (some fault) _ _).trans ih

end Moves

section Slots

variable (cfg : Config) (env : Env) {d : Daemon} {key : Key}

def graphSlot (d : Daemon) (key : Key) : Option IndexEntry :=
  let a := d.disk cfg.indexDir key
  match a.tids.bind cuvsTidsRead with
  | none => none
  | some (thdr, _) =>
    if a.shards.isSome ∨ a.cagra.isNone ∧ a.ivfpq.isNone ∧ a.vectors.isSome then none
    else
      let needed := estimateVramBytes thdr.nVecs thdr.dim 64
      match pickGpuForIndex cfg env d needed with
      | none => none
      | some gpu =>
        let (d, admitted) := ensureVram cfg env d needed gpu
        if admitted ∧ (deserializeIndex env a gpu).isSome then
          some ((makeSlot cfg env d gpu).registry.tail.headD IndexEntry.zero)
        else none

variable {d' d1 : Daemon} {init : IndexEntry → IndexEntry} {e : IndexEntry}

theorem initUnsharded_hnswIdx (thdr : TidsHeader) (tids : List Tid) (graph : Cagra ⊕ IvfPq)
    (needed gpu : ℕ) (a : Artifacts) (slot : IndexEntry) :
    (initUnsharded env key thdr tids graph needed gpu a slot).hnswIdx = slot.hnswIdx := by
  simp [initUnsharded, restoreStale_eq, resetEntryStats, clearMainBfFields, clearDeltaFields]

theorem LoadPlan.hnswIdx {a : Artifacts} {thdr : TidsHeader} {tids : List Tid} {slot : IndexEntry}
    (h : LoadPlan env a key thdr tids init)
    (hfiles : a.shards.isSome ∨ a.cagra.isNone ∧ a.ivfpq.isNone ∧ a.vectors.isSome) :
    (init slot).hnswIdx = none := by
  cases h with
  | sharded => 
    simp [initSharded, restoreStale_eq, resetEntryStats, IndexEntry.zero]
  | flat => simp [initFlat, restoreStale_eq, resetEntryStats]
  | unsharded hfile hgraph =>
    exfalso
    rcases hfiles with hshards | ⟨hcagra, hivfpq, -⟩
    · rw [hfile] at hshards
      cases hshards
    · obtain ⟨c, -, hc⟩ | ⟨p, -, hp⟩ := deserializeIndex_eq_some hgraph
      · rw [hc] at hcagra
        cases hcagra
      · rw [hp] at hivfpq
        cases hivfpq

theorem loadIndex_hnswIdx (hkey : NotResident key d) (he : e ∈ (loadIndex cfg env d key).1.live)
    (hek : e.key = key) :
    e.hnswIdx = none ∨ ∃ slot, graphSlot cfg env d key = some slot ∧ e.hnswIdx = slot.hnswIdx := by
  have hevicted : ∀ d' : Daemon, Evictions cfg d.resident d'.resident → e ∉ d'.live :=
    fun d' hevict hmem => (hevict.notResident cfg hkey) e hmem hek
  -- sharded and flat entries start without a graph for the CPU; an unsharded load takes over
  -- what the slot held
  by_cases hfiles : (d.disk cfg.indexDir key).shards.isSome ∨ (d.disk cfg.indexDir key).cagra.isNone ∧
      (d.disk cfg.indexDir key).ivfpq.isNone ∧ (d.disk cfg.indexDir key).vectors.isSome
  · obtain ⟨d1, hevict, ⟨-, heq⟩ | ⟨-, thdr, tids, init, htids, hplan, heq⟩⟩ :=
      loadIndex_spec cfg env hkey
    · rw [heq] at he
      exact absurd he (hevicted d1 hevict)
    · rw [heq] at he
      rcases mem_live_append he with hold | rfl
      · exact absurd hold (hevicted d1 hevict)
      · exact .inl (hplan.hnswIdx env hfiles)
  · have hshards : (d.disk cfg.indexDir key).shards = none := by
      simpa using fun h => hfiles (.inl h)
    unfold loadIndex at he
    unfold graphSlot
    simp only
    cases hread : (d.disk cfg.indexDir key).tids.bind cuvsTidsRead with
    | none =>
      rw [hread] at he
      exact absurd he (hevicted d Relation.ReflTransGen.refl)
    | some p =>
      obtain ⟨thdr, tids⟩ := p
      simp only [hread, loadIndexSharded, hshards, if_neg (fun h => hfiles (.inr h))] at he
      simp only [if_neg hfiles]
      split_ifs at he with hdim
      · exact absurd he (hevicted d Relation.ReflTransGen.refl)
      · simp only [loadIndexUnsharded] at he
        cases hpick : pickGpuForIndex cfg env d (estimateVramBytes thdr.nVecs thdr.dim 64) with
        | none =>
          rw [hpick] at he
          exact absurd he (hevicted d Relation.ReflTransGen.refl)
        | some gpu =>
          have hvram := ensureVram_evictions cfg env d (estimateVramBytes thdr.nVecs thdr.dim 64) gpu
          rw [hpick] at he
          simp only at he ⊢
          rcases hensure : ensureVram cfg env d (estimateVramBytes thdr.nVecs thdr.dim 64) gpu
            with ⟨d1, _ | _⟩
          · rw [hensure] at he hvram
            exact absurd he (hevicted d1 hvram)
          · rw [hensure] at he hvram
            have hdisk := hvram.disk cfg hkey cfg.indexDir
            simp only at he hdisk ⊢
            rw [hdisk] at he
            cases hgraph : deserializeIndex env (d.disk cfg.indexDir key) gpu with
            | none =>
              rw [hgraph] at he
              exact absurd he (hevicted d1 hvram)
            | some graph =>
              have hslot := hvram.trans (makeSlot_evictions cfg env d1 gpu)
              rw [hgraph] at he
              simp only at he
              split_ifs at he with hfull
              · exact absurd he (hevicted _ hslot)
              · rcases mem_live_append he with hold | rfl
                · exact absurd hold (hevicted _ hslot)
                · exact .inr ⟨_, by simp, initUnsharded_hnswIdx ..⟩

end Slots

section Files

def PersistOp.hnsw : PersistOp → Option Hnsw
  | .build _ _ _ _ _ hnsw none => hnsw
  | _ => none

def PersistOp.succeeds : PersistOp → Bool
  | .build _ _ _ _ _ _ fault | .save _ _ _ _ fault | .buildIvfpq _ _ _ _ fault => fault.isNone
  | .buildSharded _ _ _ _ _ fault => fault.isNone
  | .buildFlat _ _ _ _ fault => fault.isNone
  | .drop => false

def FileOp.keepsHnsw : FileOp → Prop
  | .writeHnsw _ => False
  | _ => True

variable {ops : List FileOp} {a : Artifacts} {brought : BuildFrame → Corpus → Prop} {dir : Dir}
  {key : Key}

theorem run_keepsHnsw (h : ∀ o ∈ ops, o.keepsHnsw) (a : Artifacts) :
    (runFileOps ops a).hnsw = a.hnsw := by
  refine CrashPrefix.run_field (f := Artifacts.hnsw) FileOp.apply ?_ a
  intro o ho s
  cases o with
  | writeHnsw g => exact (h _ ho).elim
  | _ => rfl

theorem keepsHnsw_unlinkShardFiles (start : ℕ) (a : Artifacts) :
    ∀ o ∈ unlinkShardFiles start a, o.keepsHnsw := by
  intro o ho
  obtain ⟨i, -, rfl⟩ := List.mem_map.mp ho
  exact trivial

theorem keepsHnsw_renameShardFiles (i : ℕ) (ss : List ShardBuild) :
    ∀ o ∈ renameShardFiles i ss, o.keepsHnsw := by
  induction ss generalizing i with
  | nil => exact fun o ho => (nomatch ho)
  | cons b ss ih => exact List.forall_mem_cons.mpr ⟨trivial, ih (i + 1)⟩

theorem keepsHnsw_stage (v : VectorsStage) :
    (∀ o ∈ v.before, o.keepsHnsw) ∧ ∀ o ∈ v.commit, o.keepsHnsw := by
  cases v <;> simp [VectorsStage.before, VectorsStage.commit, FileOp.keepsHnsw]

theorem keepsHnsw_steps (a : Artifacts) {op : PersistOp} (h : op.hnsw = none) :
    ∀ o ∈ op.steps a, o.keepsHnsw := by
  cases op with
  | build dim metric tids graph vectors hnsw fault =>
    have hsave : ∀ o ∈ saveIndexOps (cuvsTidsWrite dim metric tids) graph fault, o.keepsHnsw := by
      rcases fault with _ | _ | _ <;> simp [saveIndexOps, FileOp.keepsHnsw]
    obtain ⟨hbefore, hcommit⟩ := keepsHnsw_stage vectors
    simp only [PersistOp.steps, finishBuildCommitOps, List.forall_mem_append]
    refine ⟨⟨hbefore, hsave⟩, ?_⟩
    cases fault with
    | some fault => exact fun o ho => by cases ho
    | none =>
      obtain rfl : hnsw = none := h
      simp only [Option.isSome_none, Bool.false_eq_true, if_false, List.forall_mem_append]
      refine ⟨⟨⟨hcommit, ?_⟩, keepsHnsw_unlinkShardFiles 0 a⟩, fun o ho => by cases ho⟩
      simp [FileOp.keepsHnsw]
  | save dim metric tids graph fault =>
    rcases fault with _ | _ | _ <;> simp [PersistOp.steps, saveIndexOps, FileOp.keepsHnsw]
  | buildSharded dim metric tids shards vectors fault =>
    obtain ⟨hbefore, hcommit⟩ := keepsHnsw_stage vectors
    have hrenames : ∀ o ∈ renameShardFiles 0 shards ++ [.renameTids (cuvsTidsWrite dim metric tids),
        .renameShards (shardManifest dim metric tids shards)], o.keepsHnsw := by
      refine List.forall_mem_append.mpr ⟨keepsHnsw_renameShardFiles 0 shards, ?_⟩
      simp [FileOp.keepsHnsw]
    simp only [PersistOp.steps, buildShardedOps, List.forall_mem_append]
    refine ⟨hbefore, ?_⟩
    cases fault with
    | some m =>
      simp only [List.forall_mem_append]
      refine ⟨⟨fun o ho => hrenames o (List.mem_of_mem_take ho), ?_⟩, ?_⟩
      · intro o ho
        obtain ⟨i, -, rfl⟩ := List.mem_map.mp ho
        exact trivial
      · simp [FileOp.keepsHnsw]
    | none =>
      rw [List.forall_mem_append, List.forall_mem_append, List.forall_mem_append]
      refine ⟨⟨⟨hrenames, hcommit⟩, ?_⟩, keepsHnsw_unlinkShardFiles shards.length a⟩
      simp [FileOp.keepsHnsw]
  | buildFlat dim metric tids vectors fault =>
    rcases fault with _ | _ | _ <;> simp [PersistOp.steps, buildFlatOps, FileOp.keepsHnsw]
  | buildIvfpq dim metric tids ivfpq fault =>
    rcases fault with _ | _ | _ <;> simp [PersistOp.steps, buildIvfpqOps, FileOp.keepsHnsw]
  | drop =>
    simp only [PersistOp.steps, dropOps, List.forall_mem_append]
    refine ⟨?_, keepsHnsw_unlinkShardFiles 0 a⟩
    simp [FileOp.keepsHnsw]

theorem steps_hnsw (op : PersistOp) (a : Artifacts) :
    (runFileOps (op.steps a) a).hnsw = op.hnsw.or a.hnsw := by
  cases hop : op.hnsw with
  | none => rw [run_keepsHnsw (keepsHnsw_steps a hop), Option.none_or]
  | some h =>
    cases op with
    | build dim metric tids graph vectors hnsw fault =>
      cases fault with
      | some fault => cases hop
      | none =>
        obtain rfl : hnsw = some h := hop
        simp only [PersistOp.steps, finishBuildCommitOps, Option.isSome_none, Bool.false_eq_true,
          if_false, ← List.append_assoc]
        rw [runFileOps, CrashPrefix.run_append]
        rfl
    | _ => cases hop

theorem steps_tids (op : PersistOp) (a : Artifacts) :
    (op.succeeds = true ∧ (runFileOps (op.steps a) a).tids = op.tidsFile) ∨
      (op.succeeds = false ∧ op.hnsw = none ∧ ((runFileOps (op.steps a) a).tids = none ∨
        (runFileOps (op.steps a) a).tids = a.tids)) := by
  have hcore := congrArg Artifacts.Core.tids (core_runFileOps (op.steps a) a)
  rw [filter_steps] at hcore
  change (runFileOps (op.steps a) a).tids = _ at hcore
  rw [hcore]
  cases op with
  | build dim metric tids graph vectors hnsw fault =>
    rcases fault with _ | _ | _
    · exact .inl ⟨rfl, rfl⟩
    · exact .inr ⟨rfl, rfl, .inr rfl⟩
    · exact .inr ⟨rfl, rfl, .inl rfl⟩
  | save dim metric tids graph fault =>
    rcases fault with _ | _ | _
    · exact .inl ⟨rfl, rfl⟩
    · exact .inr ⟨rfl, rfl, .inr rfl⟩
    · exact .inr ⟨rfl, rfl, .inl rfl⟩
  | buildSharded dim metric tids shards vectors fault =>
    cases fault with
    | none => exact .inl ⟨rfl, rfl⟩
    | some m =>
      refine .inr ⟨rfl, rfl, .inl ?_⟩
      rw [PersistOp.coreSteps, runCore, CrashPrefix.run_append]
      rfl
  | buildFlat dim metric tids vectors fault =>
    cases fault with
    | none => exact .inl ⟨rfl, rfl⟩
    | some q => exact .inr ⟨rfl, rfl, .inr rfl⟩
  | buildIvfpq dim metric tids ivfpq fault =>
    rcases fault with _ | _ | _
    · exact .inl ⟨rfl, rfl⟩
    · exact .inr ⟨rfl, rfl, .inr rfl⟩
    · exact .inr ⟨rfl, rfl, .inl rfl⟩
  | drop => exact .inr ⟨rfl, rfl, .inl rfl⟩

/-- An operation that succeeds has to leave no CPU graph but one of its own rows. -/
theorem hnswFile_steps (op : PersistOp) (ha : HnswFile brought dir key a)
    (hop : op.succeeds = true → op.hnsw.or a.hnsw = none ∨ ∃ tids dim metric h,
      op.tidsFile = some (cuvsTidsWrite dim metric tids) ∧ op.hnsw = some h ∧
        HnswPaired brought key tids tids.length h) :
    HnswFile brought dir key (runFileOps (op.steps a) a) := by
  have hhnsw := steps_hnsw op a
  rcases steps_tids op a with ⟨hok, htids⟩ | ⟨-, hnone, hgone | hsame⟩
  · rcases hop hok with hnone | ⟨tids, dim, metric, h, hfile, hown, hpaired⟩
    · exact .of_no_hnsw (hhnsw.trans hnone)
    · intro f g hf hg
      rw [hhnsw, hown, Option.some_or] at hg
      rw [htids, hfile] at hf
      cases hf
      cases hg
      exact ⟨tids, dim, metric, rfl, hpaired⟩
  · exact .of_no_tids hgone
  · refine ha.congr hsame ?_
    rw [hhnsw, hnone, Option.none_or]

end Files

section Safe

variable {D : Type} [LT D] [DecidableLT D]

def NoCpuGraph (cfg : Config) (d : Daemon) (key : Key) : Prop :=
  (d.disk cfg.indexDir key).hnsw = none ∧ ∀ e ∈ d.live, e.key = key → e.hnswIdx = none

/-- A commit writes a CPU graph of its own, or there is none to be left over. -/
def BuildTicket.HnswSafe (cfg : Config) (benv : BuildEnv) (d : Daemon) (t : BuildTicket) : Prop :=
  (t.frame.useCpuHnsw = true ∧ (benv.hnswFile t.corpus.vecs).isSome ∨
      (d.disk t.saveDir t.frame.key).hnsw = none) ∧
    (t.saveDir = cfg.indexDir ∨ (d.disk cfg.indexDir t.frame.key).hnsw = none)

/-- No build without a CPU graph, EXTEND or COMPACT succeeds on an index that has one, and no
load takes over the slot of an entry that had one. -/
def Request.HnswSafe (cfg : Config) (s : Server) (r : Request D) : Prop :=
  (∀ p ∈ r.serving, NotResident p.2 s.daemon →
    ∀ slot ∈ graphSlot cfg p.1 s.daemon p.2, slot.hnswIdx = none) ∧
  match r with
  | .buildEnd _ benv j (.built _) =>
    benv.fault = none → ∀ p ∈ s.builds[j]?, p.2.HnswSafe cfg benv s.daemon
  | .build _ _ frame input =>
    2 ≤ resolveShardCount cfg s.daemon frame → (r.effect cfg s).reply.status = .ok →
      (s.daemon.disk (input.dir cfg) frame.key).hnsw = none
  | .flat _ _ frame input =>
    (r.effect cfg s).reply.status = .ok → (s.daemon.disk (input.dir cfg) frame.key).hnsw = none
  | .ivfpq _ _ frame input =>
    (r.effect cfg s).reply.status = .ok → (s.daemon.disk (input.dir cfg) frame.key).hnsw = none ∧
      (s.daemon.disk cfg.indexDir frame.key).hnsw = none
  | .extend frame _ _ => (r.effect cfg s).reply.status = .ok → NoCpuGraph cfg s.daemon frame.key
  | .compactEnd _ j (some _) => ∀ t ∈ s.compacts[j]?, ∀ e ∈ s.daemon.live, e.key = t.key →
      e.handle.isSome → (keepBits t.deadTids e).all id = false → NoCpuGraph cfg s.daemon t.key
  | _ => True

structure Given.HnswSafe (cfg : Config) (s : Server) (given : Given) (status : Status) : Prop where
  built : ∀ benv t, given.built benv t → benv.fault = none → t.HnswSafe cfg benv s.daemon
  sharded : status = .ok → ∀ dir frame corpus, given.rows .cagra dir frame corpus →
    2 ≤ resolveShardCount cfg s.daemon frame → (s.daemon.disk dir frame.key).hnsw = none
  flat : status = .ok → ∀ dir frame corpus, given.rows .flat dir frame corpus →
    (s.daemon.disk dir frame.key).hnsw = none
  ivfpq : status = .ok → ∀ dir frame corpus, given.rows .ivfpq dir frame corpus →
    (s.daemon.disk dir frame.key).hnsw = none ∧ (s.daemon.disk cfg.indexDir frame.key).hnsw = none
  extend : status = .ok → ∀ dir frame corpus, given.rows .extend dir frame corpus →
    NoCpuGraph cfg s.daemon frame.key
  compacted : ∀ t, given.compacted t → ∀ e ∈ s.daemon.live, e.key = t.key → e.handle.isSome →
    (keepBits t.deadTids e).all id = false → NoCpuGraph cfg s.daemon t.key

theorem Request.HnswSafe.given {cfg : Config} {s : Server} {r : Request D} (h : r.HnswSafe cfg s) :
    (r.given cfg s).HnswSafe cfg s (r.effect cfg s).reply.status where
  built := by
    rintro benv t ⟨env, j, kind, image, rfl, ht⟩ hfault
    exact h.2 hfault _ ht
  sharded := by
    rintro hok _ frame corpus ⟨hcorpus, rfl⟩ hsplit
    cases r with
    | build env benv frame' input =>
      obtain ⟨c, -, heq⟩ := Option.map_eq_some_iff.mp hcorpus
      cases heq
      exact h.2 hsplit hok
    | flat | ivfpq | extend =>
      obtain ⟨c, -, heq⟩ := Option.map_eq_some_iff.mp hcorpus
      cases heq
    | _ => cases hcorpus
  flat := by
    rintro hok _ frame corpus ⟨hcorpus, rfl⟩
    cases r with
    | flat env benv frame' input =>
      obtain ⟨c, -, heq⟩ := Option.map_eq_some_iff.mp hcorpus
      cases heq
      exact h.2 hok
    | build | ivfpq | extend =>
      obtain ⟨c, -, heq⟩ := Option.map_eq_some_iff.mp hcorpus
      cases heq
    | _ => cases hcorpus
  ivfpq := by
    rintro hok _ frame corpus ⟨hcorpus, rfl⟩
    cases r with
    | ivfpq env benv frame' input =>
      obtain ⟨c, -, heq⟩ := Option.map_eq_some_iff.mp hcorpus
      cases heq
      exact h.2 hok
    | build | flat | extend =>
      obtain ⟨c, -, heq⟩ := Option.map_eq_some_iff.mp hcorpus
      cases heq
    | _ => cases hcorpus
  extend := by
    rintro hok _ frame corpus ⟨hcorpus, rfl⟩
    cases r with
    | extend frame' input image =>
      obtain ⟨c, -, heq⟩ := Option.map_eq_some_iff.mp hcorpus
      cases heq
      exact h.2 hok
    | build | flat | ivfpq =>
      obtain ⟨c, -, heq⟩ := Option.map_eq_some_iff.mp hcorpus
      cases heq
    | _ => cases hcorpus
  compacted := by
    rintro t ⟨env, j, image, rfl, ht⟩ e he hek hhandle hdead
    exact h.2 t ht e he hek hhandle hdead

end Safe

section Commits

variable {brought : BuildFrame → Corpus → Prop} {cfg : Config} {s : Server} {given : Given}
  {found : Option IndexEntry} {key : Key} {f : Dir → Artifacts → Artifacts} {status : Status}
  {o : Outcome} {r : Resident} {dir dir' : Dir} {a : Artifacts} {g : Artifacts → Artifacts}

theorem HnswFile.onDir (h : HnswFile brought dir key a)
    (hg : dir = dir' → HnswFile brought dir key (g a)) :
    HnswFile brought dir key (onDir dir' g dir a) := by
  unfold PgCuvs.onDir
  split_ifs with hdir
  · exact hg hdir
  · exact h

theorem HnswPaired.of_corpus {frame : BuildFrame} {corpus : Corpus} (h : brought frame corpus)
    (image : List UInt8) :
    HnswPaired brought frame.key corpus.tids corpus.tids.length ⟨image, corpus.vecs⟩ :=
  ⟨frame, corpus, h, rfl, rfl, rfl, rfl⟩

theorem BuildEnv.hnswFile_eq_some {benv : BuildEnv} {rows : List Vec} {h : Hnsw}
    (hfile : benv.hnswFile rows = some h) : ∃ image, h = ⟨image, rows⟩ := by
  unfold BuildEnv.hnswFile at hfile
  split_ifs at hfile
  obtain ⟨image, -, rfl⟩ := Option.map_eq_some_iff.mp hfile
  exact ⟨image, rfl⟩

theorem BuildTicket.commitOp_hnsw {t : BuildTicket} {benv : BuildEnv} (env : Env) (graph : Cagra)
    (hcpu : t.frame.useCpuHnsw = true) (hfile : (benv.hnswFile graph.rows).isSome)
    (hfault : benv.fault = none) :
    ∃ image, (t.commitOp env benv graph).hnsw = some ⟨image, graph.rows⟩ := by
  obtain ⟨h, hsome⟩ := Option.isSome_iff_exists.mp hfile
  obtain ⟨image, rfl⟩ := benv.hnswFile_eq_some hsome
  refine ⟨image, ?_⟩
  simp only [BuildTicket.commitOp, PersistOp.hnsw, hfault, hcpu, hsome, Option.map_none, if_true]

theorem BuildTicket.files_hnsw {t : BuildTicket} {benv : BuildEnv} (env : Env) (image : List UInt8)
    (hfault : benv.fault = none) (hsafe : t.HnswSafe cfg benv s.daemon)
    (ha : a.hnsw = (s.daemon.disk t.saveDir t.frame.key).hnsw) :
    (t.commitOp env benv ⟨image, t.corpus.vecs⟩).hnsw.or a.hnsw = none ∨
      ∃ image', (t.commitOp env benv ⟨image, t.corpus.vecs⟩).hnsw
        = some ⟨image', t.corpus.vecs⟩ := by
  by_cases hcpu : t.frame.useCpuHnsw = true ∧ (benv.hnswFile t.corpus.vecs).isSome
  · exact .inr (t.commitOp_hnsw env ⟨image, t.corpus.vecs⟩ hcpu.1 hcpu.2 hfault)
  · have hnone : (t.commitOp env benv ⟨image, t.corpus.vecs⟩).hnsw = none := by
      simp only [BuildTicket.commitOp, PersistOp.hnsw, hfault, Option.map_none]
      split_ifs with huse
      · simpa [huse] using hcpu
      · rfl
    left
    rw [hnone, Option.none_or, ha]
    exact hsafe.1.resolve_left hcpu

/-- A safe commit finds no CPU graph of other rows beside the `.tids` it writes. -/
theorem Change.hnswFile (h : Change cfg s given found key f status o)
    (hsafe : given.HnswSafe cfg s status) (hbuilds : ∀ p ∈ s.builds, brought p.2.frame p.2.corpus)
    (hlive : ∀ e ∈ r.1.live, e ∈ s.daemon.live)
    (hdisk : ∀ dir key, (r.2 dir key).hnsw = (s.daemon.disk dir key).hnsw)
    (hfound : ∀ e ∈ found, e ∈ r.1.live ∧ e.key = key)
    (ha : ∀ dir, HnswFile brought dir key (r.2 dir key)) (dir : Dir) :
    HnswFile brought dir key (f dir (r.2 dir key)) := by
  -- an operation that brings no `.hnsw` keeps the condition as long as it finds none to pair up
  have hquiet : ∀ {dir' : Dir} (op : PersistOp), (op.succeeds = true → op.hnsw = none ∧
      (s.daemon.disk dir' key).hnsw = none) → HnswFile brought dir key
        (PgCuvs.onDir dir' (fun a => runFileOps (op.steps a) a) dir (r.2 dir key)) := by
    intro dir' op hop
    refine (ha dir).onDir ?_
    rintro rfl
    refine hnswFile_steps op (ha dir) fun hok => .inl ?_
    obtain ⟨hnone, hfile⟩ := hop hok
    rw [hnone, Option.none_or, hdisk, hfile]
  cases h with
  | nothing => exact ha dir
  | @build env benv image _ kind t _ ht hbuilt hfault ho =>
    refine (ha dir).onDir ?_
    rintro rfl
    refine hnswFile_steps (t.commitOp env benv ⟨image, t.corpus.vecs⟩) (ha _) fun _ => ?_
    rcases t.files_hnsw env image hfault (hsafe.built benv t hbuilt hfault) (hdisk _ _) with
      hnone | ⟨image', hown⟩
    · exact .inl hnone
    · exact .inr ⟨t.corpus.tids, _, _, _, rfl, hown, .of_corpus (hbuilds _ ht) image'⟩
  | @buildFailed env benv image kind t ht hbuilt hfault =>
    refine hquiet (t.commitOp env benv ⟨image, t.corpus.vecs⟩) fun hok => ?_
    have hsome : (benv.fault.map SaveFault.commitFault).isNone = true := hok
    rw [Option.isNone_map, Option.isNone_iff_eq_none] at hsome
    rw [hsome] at hfault
    cases hfault
  | @sharded env benv _ dir' frame corpus shards _ hrows hsplit hcount ho =>
    exact hquiet (.buildSharded frame.dim frame.metric corpus.tids shards _ none) fun _ =>
      ⟨rfl, hsafe.sharded rfl dir' frame corpus hrows hsplit⟩
  | @shardedUnwritten dir' frame corpus stage hrows =>
    refine (ha dir).onDir fun _ => (ha dir).congr ?_ ?_ <;> cases stage <;> rfl
  | @shardedFailed env benv dir' frame corpus shards done hrows =>
    exact hquiet (.buildSharded frame.dim frame.metric corpus.tids shards _ (some done))
      fun hok => by cases hok
  | @flatFiles now dir' frame corpus hrows =>
    exact hquiet (.buildFlat frame.dim frame.metric corpus.tids _ none) fun _ =>
      ⟨rfl, hsafe.flat rfl dir' frame corpus hrows⟩
  | @flatFailed now fault dir' frame corpus hrows =>
    exact hquiet (.buildFlat frame.dim frame.metric corpus.tids _ (some fault))
      fun hok => by cases hok
  | flat now gpu ht ho => exact ha dir
  | @ivfpq now needed gpu image _ dir' frame corpus _ hrows hpos ho =>
    exact hquiet (.buildIvfpq frame.dim frame.metric corpus.tids ⟨image, corpus.vecs⟩ none)
      fun _ => ⟨rfl, (hsafe.ivfpq rfl dir' frame corpus hrows).1⟩
  | @ivfpqFailed image fault dir' frame corpus hrows =>
    exact hquiet (.buildIvfpq frame.dim frame.metric corpus.tids ⟨image, corpus.vecs⟩
      (some fault)) fun hok => by cases hok
  | extend image hrows hg => exact ha dir
  | extendFailed image hhalf hrows hg => exact ha dir
  | compactNothing ht => exact (ha dir).onDir fun _ => (ha dir).congr rfl rfl
  -- COMPACT rewrites `.tids` but not `.hnsw`: the index it compacts must not have one
  | @compact now image fault e gr t ht hcompacted hg hdead =>
    obtain ⟨he, hek⟩ := hfound e rfl
    have hnone := (hsafe.compacted t hcompacted e (hlive e he) hek (by rw [hg]; rfl) hdead).1
    set e1 := compactEntry now gr image (keepBits t.deadTids e) e
    set g1 : Cagra := ⟨image, keepMarked (keepBits t.deadTids e) gr.rows⟩
    have hsaved : HnswFile brought dir t.key
        (PgCuvs.onDir cfg.indexDir (runFileOps (saveEntryOps fault e1 g1).1) dir (r.2 dir t.key)) := by
      refine (ha dir).onDir ?_
      rintro rfl
      refine .of_no_hnsw ?_
      rw [saveEntryOps_hnsw, hdisk, hnone]
    simp only [compactFiles]
    split_ifs
    · exact hsaved.onDir fun _ => hsaved.congr rfl rfl
    · exact hsaved
  | stale now opens key ho =>
    refine (ha dir).onDir fun _ => (ha dir).congr ?_ ?_ <;> cases opens <;> rfl
  | drop key ho => exact hquiet (.drop) fun hok => by cases hok
  | sidecars dir' key delta tombstone => exact (ha dir).onDir fun _ => (ha dir).congr rfl rfl

theorem Change.keep_hnsw (h : Change cfg s given none key f status .keep) (dir : Dir) (a : Artifacts) :
    (f dir a).hnsw = a.hnsw := by
  have hside : ∀ {dir' : Dir} {g : Artifacts → Artifacts}, (∀ b, (g b).hnsw = b.hnsw) →
      (PgCuvs.onDir dir' g dir a).hnsw = a.hnsw := by
    intro dir' g hg
    unfold PgCuvs.onDir
    split_ifs
    · exact hg a
    · rfl
  have hop : ∀ {dir' : Dir} (op : PersistOp), op.hnsw = none →
      (PgCuvs.onDir dir' (fun a => runFileOps (op.steps a) a) dir a).hnsw = a.hnsw := by
    intro dir' op hnone
    refine hside fun b => ?_
    rw [steps_hnsw, hnone, Option.none_or]
  cases h with
  | nothing => rfl
  | build env benv image ht hbuilt hfault ho => cases ho
  | @buildFailed env benv image kind t ht hbuilt hfault =>
    obtain ⟨fault, hfault⟩ := Option.isSome_iff_exists.mp hfault
    refine hop (t.commitOp env benv ⟨image, t.corpus.vecs⟩) ?_
    simp only [BuildTicket.commitOp, hfault, Option.map_some, PersistOp.hnsw]
  | sharded env benv hrows hsplit hcount ho => cases ho
  | shardedUnwritten stage hrows => exact hside fun b => by cases stage <;> rfl
  | @shardedFailed env benv dir' frame corpus shards done hrows =>
    exact hop (.buildSharded frame.dim frame.metric corpus.tids shards _ (some done)) rfl
  | @flatFiles now dir' frame corpus hrows =>
    exact hop (.buildFlat frame.dim frame.metric corpus.tids _ none) rfl
  | @flatFailed now fault dir' frame corpus hrows =>
    exact hop (.buildFlat frame.dim frame.metric corpus.tids _ (some fault)) rfl
  | flat now gpu ht ho => rfl
  | ivfpq now needed gpu image hrows hpos ho => cases ho
  | @ivfpqFailed image fault dir' frame corpus hrows =>
    exact hop (.buildIvfpq frame.dim frame.metric corpus.tids ⟨image, corpus.vecs⟩ (some fault))
      rfl
  | compactNothing ht => exact hside fun _ => rfl
  | stale now opens key ho => cases ho
  | drop key ho => cases ho
  | sidecars dir' key delta tombstone => exact hside fun _ => rfl

end Commits

section Entries

variable {brought : BuildFrame → Corpus → Prop} {cfg : Config} {s : Server} {given : Given}
  {e e' : IndexEntry} {key : Key} {f : Dir → Artifacts → Artifacts} {status : Status} {r : Resident}
  {a b : Artifacts}

theorem HnswOwn.of_unused (h : ¬UsesHnsw e) : HnswOwn brought e a := fun huses => absurd huses h

theorem HnswOwn.of_file (he : e.hnswIdx = none)
    (ha : ∀ h, a.hnsw = some h → HnswPaired brought e.key e.tids e.nVecs h) :
    HnswOwn brought e a := by
  rintro - h (hh | hh)
  · cases he.symm.trans hh
  · exact ha h hh

theorem HnswOwn.files (h : HnswOwn brought e a) (hb : b.hnsw = a.hnsw) : HnswOwn brought e b := by
  intro huses g hg
  rw [hb] at hg
  exact h huses g hg

theorem BuildTicket.hnswOwn {t : BuildTicket} {benv : BuildEnv} (env : Env) (image : List UInt8)
    (hfault : benv.fault = none) (hsafe : t.HnswSafe cfg benv s.daemon)
    (hrows : brought t.frame t.corpus)
    (hdisk : ∀ dir key, (r.2 dir key).hnsw = (s.daemon.disk dir key).hnsw)
    (hkey : e.key = t.frame.key) (htids : e.tids = t.corpus.tids) (hn : e.nVecs = t.corpus.tids.length)
    (he : e.hnswIdx = none) :
    HnswOwn brought e
      (onDir t.saveDir (t.files env benv image) cfg.indexDir (r.2 cfg.indexDir t.frame.key)) := by
  refine .of_file he ?_
  rw [hkey, htids, hn]
  intro h hh
  by_cases hdir : cfg.indexDir = t.saveDir
  · rw [hdir, onDir_same] at hh
    have hfile := steps_hnsw (t.commitOp env benv ⟨image, t.corpus.vecs⟩) (r.2 t.saveDir t.frame.key)
    change (t.files env benv image (r.2 t.saveDir t.frame.key)).hnsw = _ at hfile
    rw [hfile] at hh
    rcases t.files_hnsw env image hfault hsafe (hdisk _ _) with hnone | ⟨image', hown⟩
    · cases hnone.symm.trans hh
    · rw [hown, Option.some_or] at hh
      cases hh
      exact .of_corpus hrows image'
  · rw [onDir_of_ne _ _ hdir, hdisk] at hh
    cases (hsafe.2.resolve_left fun h => hdir h.symm).symm.trans hh

theorem Change.hnswWrite {w : EntryWrite} (h : Change cfg s given (some e) key f status (.write w))
    (hsafe : given.HnswSafe cfg s status) (hbuilds : ∀ p ∈ s.builds, brought p.2.frame p.2.corpus)
    (hlive : ∀ e ∈ r.1.live, e ∈ s.daemon.live)
    (hdisk : ∀ dir key, (r.2 dir key).hnsw = (s.daemon.disk dir key).hnsw) (he : e ∈ r.1.live)
    (hek : e.key = key) (hown : HnswOwn brought e (r.2 cfg.indexDir key)) :
    HnswOwn brought (w.apply e) (f cfg.indexDir (r.2 cfg.indexDir key)) := by
  cases h with
  | build env benv image ht hbuilt hfault ho =>
    cases Outcome.install_write ho
    refine BuildTicket.hnswOwn env image hfault (hsafe.built _ _ hbuilt hfault) (hbuilds _ ht) hdisk
      ?_ ?_ ?_ ?_ <;>
      simp [EntryWrite.apply, installBuild, resetEntryStats, freeDeltaCache, hek]
  | sharded env benv hrows hsplit hcount ho =>
    cases Outcome.install_write ho
    refine .of_unused fun huses => ?_
    have hlt : (shardEntries _ 0 0 _).length < 2 := huses.1
    rw [length_shardEntries] at hlt
    omega
  | flat now gpu ht ho =>
    cases Outcome.install_write ho
    exact .of_unused fun huses => by cases huses.2
  | @ivfpq now needed gpu image _ dir frame corpus _ hrows hpos ho =>
    cases Outcome.install_write ho
    obtain ⟨hdir, hindex⟩ := hsafe.ivfpq rfl dir frame corpus hrows
    refine .of_none (by simp [EntryWrite.apply, installIvfpq, resetEntryStats]) ?_
    have hsteps := steps_hnsw (.buildIvfpq frame.dim frame.metric corpus.tids ⟨image, corpus.vecs⟩ none)
      (r.2 cfg.indexDir frame.key)
    unfold onDir
    split_ifs
    · exact hsteps.trans ((hdisk _ _).trans hindex)
    · exact (hdisk _ _).trans hindex
  | @extend image _ g dir frame new hrows hg =>
    obtain ⟨hfile, hcached⟩ := hsafe.extend rfl dir frame new hrows
    refine .of_none ?_ ((hdisk _ _).trans hfile)
    simp only [EntryWrite.apply, extendEntry, buildRevTidMap_hnswIdx]
    exact hcached e (hlive e he) hek
  | extendFailed image hhalf hrows hg => exact hown
  | @compact now image fault _ g t ht hcompacted hg hdead =>
    obtain ⟨hfile, hcached⟩ :=
      hsafe.compacted t hcompacted e (hlive e he) hek (by rw [hg]; rfl) hdead
    refine .of_none ?_ ?_
    · simp only [EntryWrite.apply, compactEntry, buildRevTidMap_hnswIdx]
      exact hcached e (hlive e he) hek
    · have hsaved : ∀ e1 g1, (runFileOps (saveEntryOps fault e1 g1).1 (r.2 cfg.indexDir t.key)).hnsw
          = none := by
        intro e1 g1
        rw [saveEntryOps_hnsw, hdisk, hfile]
      simp only [compactFiles, onDir_same]
      unfold onDir
      split_ifs <;> exact hsaved _ _
  | stale now opens key ho =>
    cases Outcome.write.inj ho
    refine HnswOwn.files (a := r.2 cfg.indexDir key) ?_ ?_
    · simp only [EntryWrite.apply, flagStale]
      split_ifs
      · exact hown
      · exact hown
    · rw [onDir_same]
      cases opens <;> rfl
  | drop key ho => cases ho

theorem Change.hnswCreate {c : SlotInit} (h : Change cfg s given none key f status (.create c))
    (hsafe : given.HnswSafe cfg s status) (hbuilds : ∀ p ∈ s.builds, brought p.2.frame p.2.corpus)
    (hdisk : ∀ dir key, (r.2 dir key).hnsw = (s.daemon.disk dir key).hnsw) (slot : IndexEntry) :
    HnswOwn brought (c.apply slot) (f cfg.indexDir (r.2 cfg.indexDir key)) := by
  cases h with
  | build env benv image ht hbuilt hfault ho =>
    cases Outcome.install_create ho
    refine BuildTicket.hnswOwn env image hfault (hsafe.built _ _ hbuilt hfault) (hbuilds _ ht) hdisk
      ?_ ?_ ?_ ?_ <;>
      simp [SlotInit.apply, initBuild, resetEntryStats, clearMainBfFields, clearDeltaFields]
  | sharded env benv hrows hsplit hcount ho =>
    cases Outcome.install_create ho
    refine .of_unused fun huses => ?_
    have hlt : (shardEntries _ 0 0 _).length < 2 := huses.1
    rw [length_shardEntries] at hlt
    omega
  | flat now gpu ht ho =>
    cases Outcome.install_create ho
    exact .of_unused fun huses => by cases huses.2
  | @ivfpq now needed gpu image _ dir frame corpus _ hrows hpos ho =>
    cases Outcome.install_create ho
    obtain ⟨hdir, hindex⟩ := hsafe.ivfpq rfl dir frame corpus hrows
    refine .of_none (by simp [SlotInit.apply, initIvfpq, resetEntryStats]) ?_
    have hsteps := steps_hnsw (.buildIvfpq frame.dim frame.metric corpus.tids ⟨image, corpus.vecs⟩ none)
      (r.2 cfg.indexDir frame.key)
    unfold onDir
    split_ifs
    · exact hsteps.trans ((hdisk _ _).trans hindex)
    · exact (hdisk _ _).trans hindex
  | stale now opens key ho => cases ho
  | drop key ho => cases ho

end Entries

section Runs

variable {D : Type} [LT D] [DecidableLT D] {cfg : Config} {s : Server}
  {brought : BuildFrame → Corpus → Prop}

structure HnswInvariant (cfg : Config) (brought : BuildFrame → Corpus → Prop) (s : Server) : Prop where
  linked : Linked cfg (HnswOwn brought) (HnswFile brought) s.daemon.resident
  builds : ∀ p ∈ s.builds, brought p.2.frame p.2.corpus

theorem HnswInvariant.step {r : Request D} (h : HnswInvariant cfg brought s)
    (hr : ∀ p ∈ r.corpus, brought p.2.1 p.2.2) (hsafe : r.HnswSafe cfg s) :
    HnswInvariant cfg brought (s.step cfg r) where
  linked := by
    change Linked cfg (HnswOwn brought) (HnswFile brought) (r.effect cfg s).final.resident
    cases r.effect_spec cfg s with
    | @serves env key r' hserving hresolved hstores hact =>
      have hr' : Linked cfg (HnswOwn brought) (HnswFile brought) r' := by
        refine hresolved.linked (saveKeeps_hnsw cfg) h.linked ?_
        intro hmissing d1 thdr tids init heq htids hplan
        obtain ⟨c, hreads, hckey, rfl⟩ := hplan.slotInit htids
        have hck := c.apply_key (d1.registry.tail.headD IndexEntry.zero)
        have hmem : c.apply (d1.registry.tail.headD IndexEntry.zero) ∈
            (loadIndex cfg env s.daemon key).1.live := by
          rw [heq]
          exact List.mem_append_right _ (List.mem_singleton_self _)
        have hnone : (c.apply (d1.registry.tail.headD IndexEntry.zero)).hnswIdx = none := by
          rcases loadIndex_hnswIdx cfg env hmissing hmem (hck.trans hckey) with hnone | ⟨slot, hslot, heq⟩
          · exact hnone
          · rw [heq]
            exact hsafe.1 (env, key) hserving hmissing slot hslot
        refine .of_file hnone fun g hg => ?_
        obtain ⟨thdr', htids', hn⟩ := hreads.accepted
        rw [hck, hckey, c.apply_tids, c.apply_nVecs, hn]
        exact (h.linked.files cfg.indexDir key).loaded htids' hg
      rw [Effect.final_resident, hact]
      exact hstores.linked (storeKeeps_hnsw cfg) hr'
    | commits hevict hcommit =>
      have hdisk := fun dir key => Evictions.hnsw hevict dir key
      have hgiven := hsafe.given
      refine hcommit.linked (hevict.linked (saveKeeps_hnsw cfg) h.linked) (saveKeeps_hnsw cfg)
        ?_ ?_ ?_ ?_
      · intro found key f o hchange hfound dir
        exact hchange.hnswFile hgiven h.builds hevict.live_subset hdisk hfound
          (fun dir => (hevict.linked (saveKeeps_hnsw cfg) h.linked).files dir key) dir
      · rintro key f hchange e he rfl
        exact ((hevict.linked (saveKeeps_hnsw cfg) h.linked).entries e he).files
          (hchange.keep_hnsw _ _)
      · rintro e key f w i hchange he rfl -
        exact hchange.hnswWrite hgiven h.builds hevict.live_subset hdisk he rfl
          ((hevict.linked (saveKeeps_hnsw cfg) h.linked).entries e he)
      · intro key f c hchange slot
        exact hchange.hnswCreate hgiven h.builds hdisk slot
  builds := by
    intro p hp
    rcases Server.step_builds hp with hold | hnew
    · exact h.builds p hold
    · exact hr _ hnew.1

/-- The graph that a search of an entry with the files `a` answers from, if it comes to the
CPU graph. -/
def cpuGraph (a : Artifacts) (senv : SearchEnv) (e : IndexEntry) : Option Hnsw :=
  if e.shardCount < 2 ∧ e.isFlat = false then (loadHnsw a senv e).hnswIdx else none

/-- Element `j` of every CPU graph a search can answer from is the vector of `tids[j]`, and
every `.hnsw` was written by the build that wrote the `.tids` beside it. -/
def HnswCurrent (cfg : Config) (brought : BuildFrame → Corpus → Prop) (d : Daemon) : Prop :=
  (∀ e ∈ d.live, ∀ senv h, cpuGraph (d.disk cfg.indexDir e.key) senv e = some h →
    HnswPaired brought e.key e.tids e.nVecs h) ∧
  ∀ dir key, HnswFile brought dir key (d.disk dir key)

theorem HnswOwn.cpuGraph {e : IndexEntry} {a : Artifacts} {senv : SearchEnv} {h : Hnsw}
    (hown : HnswOwn brought e a) (hgraph : cpuGraph a senv e = some h) :
    HnswPaired brought e.key e.tids e.nVecs h := by
  unfold PgCuvs.cpuGraph at hgraph
  split_ifs at hgraph with huses
  refine hown huses h ?_
  unfold loadHnsw at hgraph
  split_ifs at hgraph
  · exact .inl hgraph
  · exact .inr (Option.filter_eq_some_iff.mp hgraph).1

/-- Along a run that leaves no old CPU graph behind, every CPU graph is current. -/
theorem hnsw_current (cfg : Config) (maxVram : ℕ → ℕ) (evs : List (Request D))
    (h : Run.Along (Server.step cfg) (fun s r => r.HnswSafe cfg s)
      (Server.initial maxVram Disk.fresh) evs) :
    Run.Along (Server.step cfg)
      (fun s r => HnswCurrent cfg (BroughtBy evs) (s.step cfg r).daemon)
      (Server.initial maxVram Disk.fresh) evs := by
  have hbrought : Run.Along (Server.step cfg) (fun _ r => ∀ p ∈ r.corpus, BroughtBy evs p.2.1 p.2.2)
      (Server.initial maxVram Disk.fresh) evs := by
    refine Run.along_of_forall ?_ _
    intro r hr p hp
    exact ⟨r, hr, Request.rows_eq hp⟩
  refine Run.along_invariant (HnswInvariant cfg (BroughtBy evs)) (fun _ _ hs hr => hs.step hr.1 hr.2)
    ?_ ?_ (hbrought.and h)
  · intro s r hs hr
    have hlinked := (hs.step hr.1 hr.2).linked
    exact ⟨fun e he senv g hg => (hlinked.entries e he).cpuGraph hg, hlinked.files⟩
  · refine ⟨⟨List.nodup_nil, fun _ he => (nomatch he), ?_⟩, fun _ hp => (nomatch hp)⟩
    rintro dir key f g ⟨⟩

instance (cfg : Config) (s : Server) (r : Request D) : Decidable (r.HnswSafe cfg s) := by
  unfold Request.HnswSafe NoCpuGraph BuildTicket.HnswSafe
  cases r with
  | buildEnd env benv j outcome => cases outcome <;> infer_instance
  | compactEnd env j image => cases image <;> infer_instance
  | _ => infer_instance

section Sample

def sampleHnswBuild (cpu : Bool) (first : Tid) (x : UInt32) : List (Request ℕ) :=
  [.build (Env.quiet 9 100000) (BuildEnv.quiet [])
    { sampleIndexBuild ⟨1, 2⟩ 16 with useCpuHnsw := cpu } (sampleInput first x),
   .buildEnd (Env.quiet 9 100000) (BuildEnv.quiet []) 0 (.built [])]

def sampleHnswSearch : Request ℕ :=
  .search (Env.quiet 9 100000) (SearchEnv.plain [0]) sampleDeltaKernels
    { sampleFrame with useCpuHnsw := true }

def sampleHnswRebuilt : List (Request ℕ) :=
  sampleHnswBuild true 101 10 ++ [sampleHnswSearch] ++ sampleHnswBuild true 201 20
    ++ [sampleHnswSearch]

theorem hnsw_current_rebuilt :
    Run.Along (Server.step sampleConfig)
      (fun s r => HnswCurrent sampleConfig (BroughtBy sampleHnswRebuilt)
        (s.step sampleConfig r).daemon)
      (Server.initial (fun _ => 0) Disk.fresh) sampleHnswRebuilt :=
  hnsw_current sampleConfig (fun _ => 0) sampleHnswRebuilt (by decide +kernel)

def sampleHnswLeft : List (Request ℕ) := sampleHnswBuild true 101 10 ++ sampleHnswBuild false 201 20

theorem hnsw_left :
    ¬∀ (cfg : Config) (maxVram : ℕ → ℕ) (evs : List (Request ℕ)), Run.Along (Server.step cfg)
      (fun s r => HnswCurrent cfg (BroughtBy evs) (s.step cfg r).daemon)
      (Server.initial maxVram Disk.fresh) evs := by
  intro h
  have hlast := (Run.along_last (h sampleConfig (fun _ => 0) (sampleHnswLeft ++ [sampleHnswSearch]))).1
  set d := ((Run.run (Server.step sampleConfig) (Server.initial (fun _ => 0) Disk.fresh)
    sampleHnswLeft).step sampleConfig sampleHnswSearch).daemon with hd
  have hentries : d.live.map (fun e => (e.tids, e.nVecs, e.shardCount, e.isFlat, e.hnswIdx))
      = [((List.range 16).map (201 + ·), 16, 0, false, some ⟨[], sampleVecs 10 16⟩)] := by
    rw [hd]
    decide +kernel
  obtain ⟨e, hlive, he⟩ := List.map_eq_singleton_iff.mp hentries
  simp only [Prod.mk.injEq] at he
  obtain ⟨htids, -, hcount, hflat, hidx⟩ := he
  obtain ⟨frame, corpus, ⟨r, hr, hrows⟩, -, hct, hcv, -⟩ := hlast e (by rw [hlive]; simp)
    (SearchEnv.plain [0]) ⟨[], sampleVecs 10 16⟩ (by simp [cpuGraph, loadHnsw, hcount, hflat, hidx])
  have hbad : r.rows.map Prod.snd = some (((List.range 16).map (201 + ·)).zip (sampleVecs 10 16)) := by
    rw [hrows, Option.map_some, Corpus.rows, hct, hcv, htids]
  have hnone : ∀ r ∈ sampleHnswLeft ++ [sampleHnswSearch],
      r.rows.map Prod.snd ≠ some (((List.range 16).map (201 + ·)).zip (sampleVecs 10 16)) := by decide +kernel
  exact hnone r hr hbad

end Sample

end Runs

end PgCuvs
