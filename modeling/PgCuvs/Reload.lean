import PgCuvs.Capacity
import PgCuvs.Linked

/-! A graph that is evicted comes back from the files its eviction saved. The graph degree
is in none of them, and a load takes the manifest and the `.stale` marker that it finds. -/

namespace PgCuvs

section Marks

structure KeepsMarks (a b : Artifacts) : Prop where
  stale : b.stale = a.stale
  manifest : a.shards = none → b.shards = none

def FileOp.keepsMarks : FileOp → Prop
  | .unlinkStale | .renameShards _ => False
  | _ => True

variable {a b c : Artifacts} {ops : List FileOp}

theorem KeepsMarks.refl (a : Artifacts) : KeepsMarks a a := ⟨rfl, id⟩

theorem KeepsMarks.trans (h : KeepsMarks a b) (h' : KeepsMarks b c) : KeepsMarks a c :=
  ⟨h'.stale.trans h.stale, h'.manifest ∘ h.manifest⟩

theorem KeepsMarks.run (h : ∀ o ∈ ops, o.keepsMarks) (a : Artifacts) :
    KeepsMarks a (runFileOps ops a) := by
  refine CrashPrefix.run_induct FileOp.apply (P := KeepsMarks a) ?_ (.refl a)
  intro o ho s hs
  refine hs.trans ?_
  cases o with
  | unlinkStale | renameShards => exact (h _ ho).elim
  | unlinkShards => exact ⟨rfl, fun _ => rfl⟩
  | _ => exact ⟨rfl, id⟩

theorem KeepsMarks.onDir {dir dir' : Dir} {f : Artifacts → Artifacts} (h : KeepsMarks a (f a)) :
    KeepsMarks a (onDir dir f dir' a) := by
  unfold PgCuvs.onDir
  split_ifs
  · exact h
  · exact .refl a

theorem keepsMarks_stage (v : VectorsStage) :
    (∀ o ∈ v.before, o.keepsMarks) ∧ ∀ o ∈ v.commit, o.keepsMarks := by
  cases v <;> simp [VectorsStage.before, VectorsStage.commit, FileOp.keepsMarks]

theorem keepsMarks_saveIndexOps (tids : TidsFile) (g : Cagra) (fault : Option CommitFault) :
    ∀ o ∈ saveIndexOps tids g fault, o.keepsMarks := by
  rcases fault with _ | _ | _ <;> simp [saveIndexOps, FileOp.keepsMarks]

theorem keepsMarks_unlinkShardFiles (start : ℕ) (a : Artifacts) :
    ∀ o ∈ unlinkShardFiles start a, o.keepsMarks := by
  intro o ho
  obtain ⟨i, -, rfl⟩ := List.mem_map.mp ho
  exact trivial

theorem saveEntryOps_keepsMarks (fault : Option SaveFault) (e : IndexEntry) (g : Cagra)
    (a : Artifacts) : KeepsMarks a (runFileOps (saveEntryOps fault e g).1 a) where
  stale := saveEntryOps_field (f := Artifacts.stale) (fun _ _ => rfl) (fun _ _ => rfl) fault e g a
  manifest h := (saveEntryOps_field (f := Artifacts.shards) (fun _ _ => rfl) (fun _ _ => rfl)
    fault e g a).trans h

theorem shardedFiles_keepsMarks (env : Env) (benv : BuildEnv) (frame : BuildFrame) (corpus : Corpus)
    (shards : List ShardBuild) (done : ℕ) (a : Artifacts) :
    KeepsMarks a (shardedFiles env benv frame corpus shards (some done) a) where
  stale := by
    refine CrashPrefix.run_field FileOp.apply (f := Artifacts.stale) ?_ a
    have hrenames : ∀ i, ∀ o ∈ renameShardFiles i shards, o ≠ .unlinkStale := by
      induction shards with
      | nil => exact fun _ o ho => (nomatch ho)
      | cons b ss ih =>
        exact fun i => List.forall_mem_cons.mpr ⟨(fun h => nomatch h), ih (i + 1)⟩
    have hops : ∀ o ∈ buildShardedOps a frame.dim frame.metric corpus.tids shards
        (stageVectors env benv (cuvsVectorsWrite frame.dim frame.metric
          (cuvsCrc32 (tidBytes corpus.tids)) corpus.vecs)) (some done), o ≠ .unlinkStale := by
      simp only [buildShardedOps, List.forall_mem_append]
      refine ⟨?_, ⟨fun o ho => ?_, ?_⟩, by simp⟩
      · intro o ho heq
        subst heq
        exact (keepsMarks_stage _).1 _ ho
      · rcases List.mem_append.mp (List.mem_of_mem_take ho) with ho | ho
        · exact hrenames 0 o ho
        · rintro rfl
          simp at ho
      · rintro o ho rfl
        simp at ho
    intro o ho s
    cases o with
    | unlinkStale => exact absurd rfl (hops _ ho)
    | _ => rfl
  manifest _ := by
    simp only [shardedFiles, buildShardedOps, runFileOps, CrashPrefix.run_append]
    rfl

theorem BuildTicket.files_marks {benv : BuildEnv} (env : Env) (t : BuildTicket) (image : List UInt8)
    (hfault : benv.fault = none) (a : Artifacts) :
    (t.files env benv image a).stale = none ∧ (t.files env benv image a).shards = none := by
  set stage := stageVectors env benv t.vectors
  set hnsw : Option Hnsw := if t.frame.useCpuHnsw then
    benv.hnswFile t.corpus.vecs else none with hhnsw
  set before := stage.before ++ saveIndexOps
    (cuvsTidsWrite t.frame.dim t.frame.metric t.corpus.tids) ⟨image, t.corpus.vecs⟩ none
      ++ stage.commit
  set after := unlinkShardFiles 0 a ++ hnsw.toList.map FileOp.writeHnsw
  have hops : t.commitOps env benv ⟨image, t.corpus.vecs⟩ a
      = before ++ ([.unlinkStale, .unlinkShards] ++ after) := by
    simp [BuildTicket.commitOps, finishBuildCommitOps, hfault, before, after, stage, hhnsw]
  have hafter : ∀ o ∈ after, o.keepsMarks := by
    refine List.forall_mem_append.mpr ⟨keepsMarks_unlinkShardFiles 0 a, ?_⟩
    intro o ho
    obtain ⟨g, -, rfl⟩ := List.mem_map.mp ho
    exact trivial
  have hrun : t.files env benv image a
      = runFileOps after (runFileOps [.unlinkStale, .unlinkShards] (runFileOps before a)) := by
    rw [BuildTicket.files, hops]
    exact (CrashPrefix.run_append _ _ _ a).trans (CrashPrefix.run_append _ _ _ _)
  have hmarks := KeepsMarks.run hafter
    (runFileOps [.unlinkStale, .unlinkShards] (runFileOps before a))
  rw [hrun]
  exact ⟨hmarks.stale, hmarks.manifest rfl⟩

end Marks

section Entries

/-- What a graph's entry comes back from. A flat build that has written its files and is not
registered yet has unlinked the marker. -/
structure Reloadable (flats : List FlatTicket) (e : IndexEntry) (a : Artifacts) : Prop where
  saved : needsSave e = true
  rows : e.tids.length = e.nVecs
  dim : e.dim ≠ 0
  vram : e.vramBytes = estimateVramBytes e.nVecs e.dim e.graphDegree
  manifest : a.shards = none
  stale : (∀ t ∈ flats, t.frame.key ≠ e.key) → e.stale = a.stale.isSome

def GraphReloadable (index : Key) (flats : List FlatTicket) (e : IndexEntry) (a : Artifacts) : Prop :=
  e.key = index → e.handle.isSome → Reloadable flats e a

def reloadView (e : IndexEntry) :
    (Key × Option Cagra × Bool) × (List Tid × ℕ × ℕ) × ℕ × ℕ × Bool :=
  ((e.key, e.handle, needsSave e), (e.tids, e.nVecs, e.dim), e.vramBytes, e.graphDegree, e.stale)

variable {cfg : Config} {index : Key} {flats flats' : List FlatTicket} {e e' : IndexEntry}
  {a b : Artifacts}

theorem GraphReloadable.of_none (h : e.handle = none) : GraphReloadable index flats e a := by
  intro _ hsome
  rw [h] at hsome
  nomatch hsome

theorem Reloadable.of_view {key : Key} {handle : Option Cagra} {tids : List Tid}
    {n dim vram degree : ℕ} {stale : Bool}
    (hview : reloadView e = ((key, handle, true), (tids, n, dim), vram, degree, stale))
    (hrows : tids.length = n) (hdim : dim ≠ 0) (hvram : vram = estimateVramBytes n dim degree)
    (hmanifest : a.shards = none)
    (hstale : (∀ t ∈ flats, t.frame.key ≠ key) → stale = a.stale.isSome) :
    Reloadable flats e a := by
  simp only [reloadView, Prod.mk.injEq] at hview
  obtain ⟨⟨rfl, -, hsaved⟩, ⟨rfl, rfl, rfl⟩, rfl, rfl, rfl⟩ := hview
  exact ⟨hsaved, hrows, hdim, hvram, hmanifest, hstale⟩

theorem GraphReloadable.congr (h : GraphReloadable index flats e a) (hview : reloadView e' = reloadView e) :
    GraphReloadable index flats e' a := by
  intro hkey hsome
  have hsame : e'.key = e.key := congrArg (fun v => v.1.1) hview
  have hhandle : e'.handle = e.handle := congrArg (fun v => v.1.2.1) hview
  obtain ⟨saved, rows, dim, vram, manifest, stale⟩ := h (hsame ▸ hkey) (hhandle ▸ hsome)
  rw [reloadView, reloadView, saved] at hview
  exact .of_view hview rows dim vram manifest stale

theorem GraphReloadable.files (h : GraphReloadable index flats e a) (hmarks : KeepsMarks a b) :
    GraphReloadable index flats e b := by
  intro hkey hsome
  obtain ⟨saved, rows, dim, vram, manifest, stale⟩ := h hkey hsome
  refine ⟨saved, rows, dim, vram, hmarks.manifest manifest, ?_⟩
  rw [hmarks.stale]
  exact stale

theorem GraphReloadable.mono (h : GraphReloadable index flats e a)
    (hflats : ∀ t ∈ flats, t.frame.key = e.key → ∃ t' ∈ flats', t'.frame.key = e.key) :
    GraphReloadable index flats' e a := by
  intro hkey hsome
  obtain ⟨saved, rows, dim, vram, manifest, stale⟩ := h hkey hsome
  refine ⟨saved, rows, dim, vram, manifest, fun hno => stale fun t ht hkey => ?_⟩
  obtain ⟨t', ht', hkey'⟩ := hflats t ht hkey
  exact hno t' ht' hkey'

theorem storeKeeps_reload (cfg : Config) :
    StoreKeeps cfg (GraphReloadable index flats) fun _ _ _ => True := by
  intro e e' a _ hmove he
  cases hmove with
  | delta room builds => exact he.congr (refreshDeltaCache_field reloadView (fun _ => rfl) e)
  | mainBf room builds prec =>
    exact he.congr (refreshMainBfCache_field reloadView (fun _ _ _ _ _ _ _ => rfl) e)
  | hnsw hnswIdx h => exact he.congr rfl
  | account | enter | leave | shardBf => exact he.congr rfl

theorem saveKeeps_reload (cfg : Config) :
    SaveKeeps cfg (GraphReloadable index flats) fun _ _ _ => True where
  saved _ _ _ _ _ _ _ := trivial
  failed _ e g a he _ _ _ := ⟨trivial, he.files (saveEntryOps_keepsMarks _ e g a)⟩

structure BuildTicket.Sized (cfg : Config) (t : BuildTicket) : Prop where
  dim : t.frame.dim ≠ 0
  needed : t.needed = estimateVramBytes t.corpus.tids.length t.frame.dim t.frame.graphDegree
  own : t.saveDir = cfg.indexDir

theorem admitBuild_needed {env : Env} {d d' : Daemon} {kind : CorpusKind} {frame : BuildFrame}
    {dir : Dir} {corpus : Corpus} {vectors : VectorsFile} {t : BuildTicket}
    (h : admitBuild cfg env d kind frame dir corpus vectors = (d', .ok t)) :
    t.frame = frame ∧ t.saveDir = dir ∧
      t.needed = estimateVramBytes t.corpus.tids.length t.frame.dim t.frame.graphDegree := by
  simp only [admitBuild] at h
  split at h
  · cases h
  · split at h
    · cases h
    · cases h
      exact ⟨rfl, rfl, rfl⟩

theorem planBuild_ok {frame : BuildFrame} {input : BuildInput} {p : BuildPlan}
    (h : planBuild cfg frame input = .ok p) : frame.dim ≠ 0 ∧ p.dir = input.dir cfg := by
  unfold planBuild at h
  split at h
  · cases h
  · rename_i dir hdir
    have hown : saveDir cfg dir = input.dir cfg := by rw [BuildInput.dir, hdir, Option.getD_some]
    split_ifs at h with hshape hpayload hpartials
    · refine ⟨fun hzero => hshape (.inr hzero), ?_⟩
      unfold planBuildMulti at h
      split_ifs at h
      split at h
      · cases h
      · split at h
        · cases h
        · split at h
          · cases h
          · cases h
          · cases h
            exact hown
    · refine ⟨fun hzero => hshape (.inr hzero), ?_⟩
      split at h
      · cases h
      · cases h
        exact hown

theorem beginBuild_sized {env : Env} {benv : BuildEnv} {d d' : Daemon} {frame : BuildFrame}
    {input : BuildInput} {kind : CorpusKind} {t : BuildTicket}
    (hown : frame.key = index → input.dir cfg = cfg.indexDir)
    (h : beginBuild cfg env benv d frame input = .unlocked d' kind t) :
    t.frame.key = index → t.Sized cfg := by
  rw [beginBuild_eq] at h
  split at h
  · cases h
  · rename_i p hplan
    obtain ⟨hdim, hdir⟩ := planBuild_ok hplan
    simp only [startBuild] at h
    split_ifs at h
    split at h
    · cases h
    · rename_i hadmit
      cases h
      obtain ⟨rfl, hsave, hneeded⟩ := admitBuild_needed hadmit
      intro hkey
      exact ⟨hdim, hneeded, hsave.trans (hdir.trans (hown hkey))⟩

end Entries

section Loads

variable {cfg : Config} {env : Env} {d : Daemon} {key index : Key} {e : IndexEntry} {a : Artifacts}
  {thdr : TidsHeader} {tids : List Tid}

theorem LoadPlan.handle {init : IndexEntry → IndexEntry} {slot : IndexEntry}
    (h : LoadPlan env a key thdr tids init)
    (hfiles : a.shards.isSome ∨ a.cagra.isNone ∧ a.ivfpq.isNone ∧ a.vectors.isSome) :
    (init slot).handle = none := by
  cases h with
  | sharded => simp [initSharded, restoreStale_eq, resetEntryStats]
  | flat => simp [initFlat, restoreStale_eq, resetEntryStats, clearMainBfFields, clearDeltaFields]
  | unsharded hfile hgraph =>
    exfalso
    rcases hfiles with hshards | ⟨hcagra, hivfpq, -⟩
    · rw [hfile] at hshards
      cases hshards
    · obtain ⟨c, -, hc⟩ | ⟨p, -, hp⟩ := deserializeIndex_eq_some hgraph
      · rw [hc] at hcagra
        cases hcagra
      · rw [hp] at hivfpq
        cases hivfpq

theorem loadIndex_init (hkey : NotResident key d) (he : e ∈ (loadIndex cfg env d key).1.live)
    (hek : e.key = key) : e.handle = none ∨ ∃ thdr tids graph gpu slot,
      TidsAccepted (d.disk cfg.indexDir key) thdr tids ∧
        (d.disk cfg.indexDir key).shards = none ∧
        e = initUnsharded env key thdr tids graph (estimateVramBytes thdr.nVecs thdr.dim 64) gpu
          (d.disk cfg.indexDir key) slot := by
  have hevicted : ∀ d' : Daemon, Evictions cfg d.resident d'.resident → e ∉ d'.live :=
    fun d' hevict hmem => (hevict.notResident cfg hkey) e hmem hek
  -- sharded and flat loads leave no handle, and only an unsharded load is left
  by_cases hfiles : (d.disk cfg.indexDir key).shards.isSome ∨ (d.disk cfg.indexDir key).cagra.isNone ∧
      (d.disk cfg.indexDir key).ivfpq.isNone ∧ (d.disk cfg.indexDir key).vectors.isSome
  · obtain ⟨d1, hevict, ⟨-, heq⟩ | ⟨-, thdr, tids, init, htids, hplan, heq⟩⟩ :=
      loadIndex_spec cfg env hkey
    · rw [heq] at he
      exact absurd he (hevicted d1 hevict)
    · rw [heq] at he
      rcases mem_live_append he with hold | rfl
      · exact absurd hold (hevicted d1 hevict)
      · exact .inl (hplan.handle hfiles)
  · have hshards : (d.disk cfg.indexDir key).shards = none := by
      simpa using fun h => hfiles (.inl h)
    unfold loadIndex at he
    cases hread : (d.disk cfg.indexDir key).tids.bind cuvsTidsRead with
    | none =>
      rw [hread] at he
      exact absurd he (hevicted d Relation.ReflTransGen.refl)
    | some p =>
      obtain ⟨thdr, tids⟩ := p
      simp only [hread, loadIndexSharded, hshards, if_neg (fun h => hfiles (.inr h))] at he
      split_ifs at he with hdim
      · exact absurd he (hevicted d Relation.ReflTransGen.refl)
      · simp only [loadIndexUnsharded] at he
        cases hpick : pickGpuForIndex cfg env d (estimateVramBytes thdr.nVecs thdr.dim 64) with
        | none =>
          rw [hpick] at he
          exact absurd he (hevicted d Relation.ReflTransGen.refl)
        | some gpu =>
          have hvram := ensureVram_evictions cfg env d (estimateVramBytes thdr.nVecs thdr.dim 64) gpu
          rw [hpick] at he
          simp only at he
          rcases hensure : ensureVram cfg env d (estimateVramBytes thdr.nVecs thdr.dim 64) gpu
            with ⟨d1, _ | _⟩
          · rw [hensure] at he hvram
            exact absurd he (hevicted d1 hvram)
          · rw [hensure] at he hvram
            have hslot : Evictions cfg d.resident (makeSlot cfg env d1 gpu).resident :=
              hvram.trans (makeSlot_evictions cfg env d1 gpu)
            simp only at he
            split at he
            · exact absurd he (hevicted d1 hvram)
            · rename_i graph hgraph
              split_ifs at he with hfull
              · exact absurd he (hevicted _ hslot)
              · rcases mem_live_append he with hold | rfl
                · exact absurd hold (hevicted _ hslot)
                · rw [← hslot.disk cfg hkey] at hread hshards ⊢
                  exact .inr ⟨thdr, tids, graph, gpu, _, ⟨hread, hdim⟩, hshards, rfl⟩

theorem initUnsharded_view (g : Cagra) (needed gpu : ℕ) (slot : IndexEntry) :
    reloadView (initUnsharded env key thdr tids (.inl g) needed gpu a slot) =
      ((key, some g, true), (tids, thdr.nVecs, thdr.dim), needed, 0, a.stale.isSome) := by
  simp [reloadView, needsSave, initUnsharded, restoreStale_eq, resetEntryStats, clearMainBfFields,
    clearDeltaFields, buildRevTidMap_field IndexEntry.dim (fun _ _ _ => rfl)]

theorem initUnsharded_reloadable {flats : List FlatTicket} {graph : Cagra ⊕ IvfPq} {gpu : ℕ}
    {slot : IndexEntry} (htids : TidsAccepted a thdr tids) (hshards : a.shards = none) :
    GraphReloadable index flats
      (initUnsharded env key thdr tids graph (estimateVramBytes thdr.nVecs thdr.dim 64) gpu a slot)
      a := by
  cases graph with
  | inl g =>
    obtain ⟨f, -, hread⟩ := Option.bind_eq_some_iff.mp htids.1
    obtain ⟨-, -, hlen, -⟩ := cuvsTidsRead_eq_some hread
    exact fun _ _ => .of_view (initUnsharded_view ..) hlen htids.2 rfl hshards fun _ => rfl
  | inr p =>
    refine .of_none ?_
    simp [initUnsharded, restoreStale_eq, resetEntryStats, clearMainBfFields, clearDeltaFields]

theorem loadIndex_reloadable {flats : List FlatTicket} (hkey : NotResident key d)
    (he : e ∈ (loadIndex cfg env d key).1.live) (hek : e.key = key) :
    GraphReloadable index flats e (d.disk cfg.indexDir key) := by
  rcases loadIndex_init hkey he hek with
    hnone | ⟨thdr, tids, graph, gpu, slot, htids, hshards, rfl⟩
  · exact .of_none hnone
  · exact initUnsharded_reloadable htids hshards

end Loads

section Commits

variable {cfg : Config} {s : Server} {given : Given} {r : Resident} {e : IndexEntry} {key index : Key}
  {f : Dir → Artifacts → Artifacts} {status : Status} {a : Artifacts} {flats : List FlatTicket}

theorem Change.reloadKeep (h : Change cfg s given none key f status .keep)
    (hflat : ∀ dir frame corpus, status = .ok → given.rows .flat dir frame corpus →
      ∃ t ∈ flats, t.frame.key = frame.key)
    (he : GraphReloadable index flats e a) (hek : e.key = key) :
    GraphReloadable index flats e (f cfg.indexDir a) := by
  cases h with
  | nothing => exact he
  | @buildFailed env benv image kind t ht hbuilt hfault =>
    refine he.files (KeepsMarks.onDir (KeepsMarks.run ?_ a))
    have hsome : (benv.fault.map SaveFault.commitFault).isSome := by rwa [Option.isSome_map]
    simp only [BuildTicket.commitOps, finishBuildCommitOps, hsome, if_true, List.append_nil]
    exact List.forall_mem_append.mpr ⟨(keepsMarks_stage _).1, keepsMarks_saveIndexOps _ _ _⟩
  | shardedUnwritten stage hrows =>
    exact he.files (KeepsMarks.onDir (KeepsMarks.run (keepsMarks_stage stage).1 a))
  | shardedFailed env benv shards done hrows =>
    exact he.files (KeepsMarks.onDir (shardedFiles_keepsMarks ..))
  | @flatFiles now dir frame corpus hrows =>
    obtain ⟨t, ht, hkey⟩ := hflat dir frame corpus rfl hrows
    intro hindex hsome
    obtain ⟨saved, rows, dim, vram, manifest, -⟩ := he hindex hsome
    refine ⟨saved, rows, dim, vram, ?_, fun hno => absurd (hkey.trans hek.symm) (hno t ht)⟩
    unfold onDir
    split_ifs
    · rfl
    · exact manifest
  | flatFailed now fault hrows =>
    refine he.files (KeepsMarks.onDir (KeepsMarks.run ?_ a))
    cases fault <;> simp [buildFlatOps, FileOp.keepsMarks]
  | ivfpqFailed image fault hrows =>
    refine he.files (KeepsMarks.onDir (KeepsMarks.run ?_ a))
    cases fault <;> simp [buildIvfpqOps, FileOp.keepsMarks]
  | compactNothing ht =>
    exact he.files (KeepsMarks.onDir (KeepsMarks.run (by simp [FileOp.keepsMarks]) a))
  | sidecars dir key delta tombstone => exact he.files (KeepsMarks.onDir ⟨rfl, id⟩)
  | build _ _ _ _ _ _ ho | sharded _ _ _ _ _ ho | flat _ _ _ ho | ivfpq _ _ _ _ _ _ ho
  | stale _ _ _ ho | drop _ ho => cases ho

theorem BuildTicket.reloadable {t : BuildTicket} {benv : BuildEnv}
    (h : t.frame.key = index → t.Sized cfg) (env : Env) (image : List UInt8) (hfault : benv.fault = none)
    (hview : reloadView e = ((t.frame.key, some ⟨image, t.corpus.vecs⟩, true),
      (t.corpus.tids, t.corpus.tids.length, t.frame.dim), t.needed, t.frame.graphDegree, false)) :
    GraphReloadable index flats e (onDir t.saveDir (t.files env benv image) cfg.indexDir a) := by
  intro hkey _
  have hown : t.frame.key = e.key := (congrArg (fun v => v.1.1) hview).symm
  have hsized := h (hown.trans hkey)
  obtain ⟨hstale, hshards⟩ := t.files_marks env image hfault a
  rw [hsized.own, onDir_same]
  exact .of_view hview rfl hsized.dim hsized.needed hshards fun _ => by rw [hstale]; rfl

theorem installBuild_view (now : ℕ) (t : BuildTicket) (g : Cagra) (h : e.key = t.frame.key) :
    reloadView (installBuild now t g e) = ((t.frame.key, some g, true),
      (t.corpus.tids, t.corpus.tids.length, t.frame.dim), t.needed, t.frame.graphDegree, false) := by
  rw [← h]
  exact buildRevTidMap_field reloadView (fun _ _ _ => rfl) _

theorem initBuild_view (now : ℕ) (t : BuildTicket) (g : Cagra) (slot : IndexEntry) :
    reloadView (initBuild now t g slot) = ((t.frame.key, some g, true),
      (t.corpus.tids, t.corpus.tids.length, t.frame.dim), t.needed, t.frame.graphDegree, false) :=
  buildRevTidMap_field
    (fun e => reloadView { resetEntryStats e with graphDegree := t.frame.graphDegree })
    (fun _ _ _ => rfl) _

theorem Change.reloadCreate {c : SlotInit} (h : Change cfg s given none key f status (.create c))
    (hbuilds : ∀ p ∈ s.builds, p.2.frame.key = index → p.2.Sized cfg) (slot : IndexEntry) :
    GraphReloadable index flats (c.apply slot) (f cfg.indexDir a) := by
  cases h with
  | build env benv image ht hbuilt hfault ho =>
    cases Outcome.install_create ho
    exact BuildTicket.reloadable (hbuilds _ ht) env image hfault (initBuild_view ..)
  | sharded env benv hrows hsplit hcount ho =>
    cases Outcome.install_create ho
    exact .of_none (SlotInit.apply_handle _ slot)
  | flat now gpu ht ho =>
    cases Outcome.install_create ho
    exact .of_none (SlotInit.apply_handle _ slot)
  | ivfpq now needed gpu image hrows hpos ho =>
    cases Outcome.install_create ho
    exact .of_none (SlotInit.apply_handle _ slot)
  | stale now opens key ho => cases ho
  | drop key ho => cases ho

theorem Change.reloadWrite {w : EntryWrite} (h : Change cfg s given (some e) key f status (.write w))
    (hbuilds : ∀ p ∈ s.builds, p.2.frame.key = index → p.2.Sized cfg)
    (hstale : ∀ now, w ≠ .stale now) (hek : e.key = key)
    (he : GraphReloadable index flats e a) :
    GraphReloadable index flats (w.apply e) (f cfg.indexDir a) := by
  cases h with
  | build env benv image ht hbuilt hfault ho =>
    cases Outcome.install_write ho
    exact BuildTicket.reloadable (hbuilds _ ht) env image hfault (installBuild_view _ _ _ hek)
  | sharded env benv hrows hsplit hcount ho =>
    cases Outcome.install_write ho
    refine .of_none ?_
    simp [EntryWrite.apply, installSharded, resetEntryStats, clearMainBfFields, clearDeltaFields]
  | flat now gpu ht ho =>
    cases Outcome.install_write ho
    refine .of_none ?_
    simp [EntryWrite.apply, installFlat, resetEntryStats, freeMainBfCache, freeDeltaCache]
  | ivfpq now needed gpu image hrows hpos ho =>
    cases Outcome.install_write ho
    refine .of_none ?_
    simp [EntryWrite.apply, installIvfpq, resetEntryStats, freeMainBfCache, freeDeltaCache]
  | @extend image _ g dir frame new hrows hg =>
    have hview : reloadView (extendEntry g image new e) =
        ((e.key, some (extendedGraph g image new.vecs), needsSave e),
          (e.tids.take e.nVecs ++ new.tids, e.nVecs + new.tids.length, e.dim),
          estimateVramBytes (e.nVecs + new.tids.length) e.dim e.graphDegree, e.graphDegree,
          e.stale) := buildRevTidMap_field reloadView (fun _ _ _ => rfl) _
    have hsame := congrArg (fun v => v.1.1) hview
    intro hindex _
    obtain ⟨saved, rows, dim, vram, manifest, stale⟩ := he (hsame.symm.trans hindex) (by rw [hg]; rfl)
    rw [saved] at hview
    refine .of_view hview ?_ dim rfl manifest stale
    rw [List.length_append, List.length_take, rows, Nat.min_self]
  | extendFailed image hhalf hrows hg =>
    intro hindex _
    obtain ⟨saved, rows, dim, vram, manifest, stale⟩ := he hindex (by rw [hg]; rfl)
    exact ⟨saved, rows, dim, vram, manifest, stale⟩
  | @compact now image fault _ g t ht hcompacted hg hdead =>
    set keep := keepBits t.deadTids e
    have hview : reloadView (compactEntry now g image keep e) =
        ((e.key, some ⟨image, keepMarked keep g.rows⟩, needsSave e),
          (keepMarked keep (e.tids.take e.nVecs), (keepMarked keep (e.tids.take e.nVecs)).length,
            e.dim),
          estimateVramBytes (keepMarked keep (e.tids.take e.nVecs)).length e.dim e.graphDegree,
          e.graphDegree, e.stale) := buildRevTidMap_field reloadView (fun _ _ _ => rfl) _
    have hsame := congrArg (fun v => v.1.1) hview
    have hnew : GraphReloadable index flats (compactEntry now g image keep e) a := by
      intro hindex _
      obtain ⟨saved, rows, dim, vram, manifest, stale⟩ :=
        he (hsame.symm.trans hindex) (by rw [hg]; rfl)
      rw [saved] at hview
      exact .of_view hview rfl dim rfl manifest stale
    refine hnew.files ?_
    have hsaved := saveEntryOps_keepsMarks fault (compactEntry now g image keep e)
      ⟨image, keepMarked keep g.rows⟩ a
    unfold compactFiles
    rw [onDir_same]
    split_ifs
    · exact hsaved.trans (KeepsMarks.onDir (KeepsMarks.run (by simp [FileOp.keepsMarks]) _))
    · exact hsaved
  | stale now opens key ho =>
    cases Outcome.write.inj ho
    exact absurd rfl (hstale now)
  | drop key ho => cases ho

end Commits

section Steps

variable {D : Type} [LT D] [DecidableLT D] {cfg : Config} {env : Env} {s : Server} {d : Daemon}
  {e : IndexEntry} {index : Key}

/-- A BUILD of the index goes to the daemon's own directory, and the marker of a MARK_STALE of it
can be created. -/
def Request.Own (cfg : Config) (index : Key) : Request D → Prop
  | .build _ _ frame input => frame.key = index → input.dir cfg = cfg.indexDir
  | .markStale _ key opens => key = index → opens = true
  | _ => True

instance (cfg : Config) (index : Key) : (r : Request D) → Decidable (r.Own cfg index)
  | .build _ _ frame input =>
    inferInstanceAs (Decidable (frame.key = index → input.dir cfg = cfg.indexDir))
  | .markStale _ key opens => inferInstanceAs (Decidable (key = index → opens = true))
  | .search .. | .resume .. | .batch .. | .fanout .. | .buildRetry .. | .buildEnd .. | .flat ..
  | .flatEnd .. | .ivfpq .. | .extend .. | .compact .. | .compactEnd .. | .drop _ | .sidecars ..
  | .restart => isTrue trivial

structure ReloadInvariant (cfg : Config) (index : Key) (s : Server) : Prop where
  linked : Linked cfg (GraphReloadable index s.flats) (fun _ _ _ => True) s.daemon.resident
  builds : ∀ p ∈ s.builds, p.2.frame.key = index → p.2.Sized cfg
  capacity : s.daemon.live.length ≤ cfg.maxIndexes

theorem Linked.mono {cfg : Config} {G G' : IndexEntry → Artifacts → Prop}
    {F : Dir → Key → Artifacts → Prop} {r : Resident} (h : Linked cfg G F r)
    (hG : ∀ e ∈ r.1.live, ∀ a, G e a → G' e a) : Linked cfg G' F r :=
  ⟨h.unique, fun e he => hG e he _ (h.entries e he), h.files⟩

theorem Request.flat_ticket {r : Request D} {frame : BuildFrame} {corpus : Corpus}
    (hrows : r.corpus = some (.flat, frame, corpus)) (hok : (r.effect cfg s).reply.status = .ok) :
    ∃ t ∈ (r.tickets cfg s).flats, t.frame.key = frame.key := by
  cases r with
  | flat env benv frame' input =>
    simp only [Request.corpus, Option.map_eq_some_iff, Prod.mk.injEq] at hrows
    obtain ⟨-, -, -, rfl, -⟩ := hrows
    have hspec := beginBuildFlat_spec cfg env benv s
      ((Request.flat (D := D) env benv frame' input).given cfg s) s.daemon frame' input
      (fun _ h => ⟨by rw [Request.corpus, h]; rfl, rfl⟩)
    simp only [Request.effect, Request.tickets] at hok ⊢
    cases heq : beginBuildFlat cfg env benv s.daemon frame' input with
    | error x =>
      rw [heq] at hok
      exact absurd hok (beginBuildFlat_error heq).2
    | ok p =>
      rw [heq] at hspec
      exact ⟨p.2, List.mem_append_right _ (List.mem_singleton_self _), congrArg _ hspec.2.1⟩
  | _ => simp [Request.corpus] at hrows

theorem endBuildFlat_handle {t : FlatTicket} (hunique : UniqueKeys d.registry)
    (he : e ∈ (endBuildFlat cfg env d t).final.live) (hek : e.key = t.frame.key) :
    e.handle = none := by
  rw [endBuildFlat] at he
  set gpu := (pickGpuForIndex cfg env d 0).getD (usableGpu cfg 0)
  rw [installEntry] at he
  split at he
  · rename_i i hfind
    obtain ⟨e0, hslot, hkey⟩ := findIndex_eq_some hfind
    have hslot' : d.registry.live[i]? = some e0 := hslot
    simp only [Effect.final, Daemon.act, Registry.act, hslot'] at he
    rcases mem_live_set_ne he with ⟨j, hij, hj⟩ | rfl
    · exact absurd (hek.trans hkey.symm) (hunique.key_ne hslot' hj hij)
    · simp [EntryWrite.apply, installFlat, resetEntryStats]
  · rename_i hfind
    have hmissing := (makeSlot_evictions cfg env d gpu).notResident cfg (findIndex_eq_none.mp hfind)
    simp only at he
    split_ifs at he
    · exact absurd hek (hmissing e he)
    · rcases mem_live_append he with hold | rfl
      · exact absurd hek (hmissing e hold)
      · exact SlotInit.apply_handle _ _

theorem Request.flats_kept {r : Request D} (hunique : UniqueKeys s.daemon.registry)
    (he : e ∈ (s.step cfg r).daemon.live) (hsome : e.handle.isSome) {t : FlatTicket}
    (ht : t ∈ s.flats) (hkey : t.frame.key = e.key) :
    ∃ t' ∈ (s.step cfg r).flats, t'.frame.key = e.key := by
  cases r with
  | flatEnd env j =>
    change e ∈ ((Request.flatEnd (D := D) env j).effect cfg s).final.live at he
    change ∃ t' ∈ s.flats.eraseIdx j, _
    simp only [Request.effect] at he
    split at he
    · rename_i t0 ht0
      -- the end of a flat build leaves an entry of its key without a handle
      by_cases hsame : e.key = t0.frame.key
      · rw [endBuildFlat_handle hunique he hsame] at hsome
        cases hsome
      · obtain ⟨k, hk⟩ := List.getElem?_of_mem ht
        have hkj : k ≠ j := by
          rintro rfl
          cases hk.symm.trans ht0
          exact hsame hkey.symm
        exact ⟨t, List.mem_eraseIdx_iff_getElem?.mpr ⟨k, hkj, hk⟩, hkey⟩
    · rename_i hnone
      rw [List.eraseIdx_of_length_le (List.getElem?_eq_none_iff.mp hnone)]
      exact ⟨t, ht, hkey⟩
  | restart => cases he
  | build env benv frame input =>
    simp only [Server.step, Request.tickets]
    split <;> exact ⟨t, ht, hkey⟩
  | flat env benv frame input =>
    simp only [Server.step, Request.tickets]
    split
    · exact ⟨t, List.mem_append_left _ ht, hkey⟩
    · exact ⟨t, ht, hkey⟩
  | compact key indexDir =>
    simp only [Server.step, Request.tickets]
    split <;> exact ⟨t, ht, hkey⟩
  | _ => exact ⟨t, ht, hkey⟩

theorem Server.step_sized {r : Request D} (hr : r.Own cfg index)
    (h : ∀ p ∈ s.builds, p.2.frame.key = index → p.2.Sized cfg) :
    ∀ p ∈ (s.step cfg r).builds, p.2.frame.key = index → p.2.Sized cfg := by
  cases r with
  | build env benv frame input =>
    simp only [Server.step, Request.tickets]
    split
    · rename_i heq
      intro p hp
      rcases List.mem_append.mp hp with hold | hnew
      · exact h p hold
      · cases List.mem_singleton.mp hnew
        exact beginBuild_sized hr heq
    · exact h
  | buildEnd env benv j outcome => exact fun p hp => h p (List.mem_of_mem_eraseIdx hp)
  | flat env benv frame input =>
    simp only [Server.step, Request.tickets]
    split <;> exact h
  | compact key indexDir =>
    simp only [Server.step, Request.tickets]
    split <;> exact h
  | restart => exact fun p hp => by cases hp
  | _ => exact h

theorem handleMarkStale_linked {flats : List FlatTicket} {key : Key} {opens : Bool}
    (hopens : key = index → opens = true)
    (h : Linked cfg (GraphReloadable index flats) (fun _ _ _ => True) d.resident) :
    Linked cfg (GraphReloadable index flats) (fun _ _ _ => True)
      (handleMarkStale cfg env d key opens).final.resident := by
  have hflag : ∀ e, e.key = key → (EntryWrite.stale env.now).apply e =
      flagStale env.now e ∧ (flagStale env.now e).key = key := by
    intro e hkey
    refine ⟨rfl, ?_⟩
    unfold flagStale
    split_ifs <;> exact hkey
  rw [Effect.final_resident]
  cases opens with
  | false =>
    -- the marker cannot be created: another index
    have hother : key ≠ index := fun heq => Bool.false_ne_true (hopens heq)
    simp only [handleMarkStale, Bool.false_eq_true, if_false]
    cases hfind : findIndex d.live key with
    | none => exact h
    | some i =>
      obtain ⟨e, hslot, hkey⟩ := findIndex_eq_some hfind
      have hslot' : d.registry.live[i]? = some e := hslot
      obtain ⟨happly, hflagged⟩ := hflag e hkey
      simp only [Registry.act, hslot']
      rw [happly]
      refine Linked.set h hslot' (hflagged.trans hkey.symm) fun hindex => ?_
      exact absurd (hflagged.symm.trans hindex) hother
  | true =>
    simp only [handleMarkStale, if_true, Disk.modify_eq]
    cases hfind : findIndex d.live key with
    | none =>
      refine Linked.modifyKey h (fun _ => trivial) ?_
      exact fun e he hk => absurd hk (findIndex_eq_none.mp hfind e he)
    | some i =>
      obtain ⟨e, hslot, hkey⟩ := findIndex_eq_some hfind
      have hslot' : d.registry.live[i]? = some e := hslot
      obtain ⟨happly, hflagged⟩ := hflag e hkey
      simp only [Registry.act, hslot']
      rw [happly]
      refine Linked.write h hslot' hkey hflagged (fun _ => trivial) ?_
      intro hindex hsome
      have hview : reloadView (flagStale env.now e) = ((e.key, e.handle, needsSave e),
          (e.tids, e.nVecs, e.dim), e.vramBytes, e.graphDegree, true) := by
        unfold flagStale
        split_ifs with hs
        · rw [reloadView, hs]
        · rfl
      have hhandle : (flagStale env.now e).handle = e.handle := congrArg (fun v => v.1.2.1) hview
      have he := h.entries e (List.mem_of_getElem? hslot')
      obtain ⟨saved, rows, dim, vram, manifest, -⟩ :=
        he ((hkey.trans hflagged.symm).trans hindex) (hhandle ▸ hsome)
      rw [hkey] at manifest
      rw [saved] at hview
      refine .of_view hview rows dim vram ?_ fun _ => ?_
      · rw [onDir_same]
        exact manifest
      · rw [onDir_same]
        rfl

theorem ReloadInvariant.step {r : Request D} (h : ReloadInvariant cfg index s)
    (hr : r.Own cfg index) : ReloadInvariant cfg index (s.step cfg r) where
  linked := by
    -- the step may settle a flat build or start one: it is followed with the tickets of both states
    set both := s.flats ++ (s.step cfg r).flats
    have hboth : Linked cfg (GraphReloadable index both) (fun _ _ _ => True) s.daemon.resident :=
      h.linked.mono fun e _ a he => he.mono fun t ht hk => ⟨t, List.mem_append_left _ ht, hk⟩
    have hdone : Linked cfg (GraphReloadable index both) (fun _ _ _ => True)
        (r.effect cfg s).final.resident := by
      by_cases hmark : ∃ env key opens, r = .markStale env key opens
      · obtain ⟨env, key, opens, rfl⟩ := hmark
        exact handleMarkStale_linked hr hboth
      · have hplaces := r.places cfg s fun env key opens heq => hmark ⟨env, key, opens, heq⟩
        cases r.effect_spec cfg s with
        | @serves env key r' hserving hresolved hstores hact =>
          have hr' : Linked cfg (GraphReloadable index both) (fun _ _ _ => True) r' := by
            refine hresolved.linked (saveKeeps_reload cfg) hboth ?_
            intro hmissing d1 thdr tids init heq htids hplan
            obtain ⟨c, -, hckey, rfl⟩ := hplan.slotInit htids
            have hmem : c.apply (d1.registry.tail.headD IndexEntry.zero) ∈
                (loadIndex cfg env s.daemon key).1.live := by
              rw [heq]
              exact List.mem_append_right _ (List.mem_singleton_self _)
            exact loadIndex_reloadable hmissing hmem ((c.apply_key _).trans hckey)
          rw [Effect.final_resident, hact]
          exact hstores.linked (storeKeeps_reload cfg) hr'
        | @commits r' hevict hcommit =>
          have hr' := hevict.linked (saveKeeps_reload cfg) hboth
          refine hcommit.linked hr' (saveKeeps_reload cfg) (fun _ _ _ => trivial) ?_ ?_ ?_
          · intro key f hchange e he hek
            refine hchange.reloadKeep ?_ (hek ▸ hr'.entries e he) hek
            intro dir frame corpus hok hrows
            obtain ⟨t, ht, hkey⟩ := Request.flat_ticket hrows.1 hok
            exact ⟨t, List.mem_append_right _ ht, hkey⟩
          · intro e key f w i hchange he hek hact
            refine hchange.reloadWrite h.builds ?_ hek (hek ▸ hr'.entries e he)
            rintro now rfl
            exact hplaces.unflagged i now hact
          · intro key f c hchange slot
            exact hchange.reloadCreate h.builds slot
    change Linked cfg (GraphReloadable index (s.step cfg r).flats) (fun _ _ _ => True)
      (r.effect cfg s).final.resident
    refine ⟨hdone.unique, fun e he hindex hsome => ?_, hdone.files⟩
    refine (hdone.entries e he).mono (fun t ht hk => ?_) hindex hsome
    rcases List.mem_append.mp ht with hold | hnew
    · exact Request.flats_kept h.linked.unique he hsome hold hk
    · exact ⟨t, hnew, hk⟩
  builds := Server.step_sized hr h.builds
  capacity := Server.step_capacity r h.capacity

theorem reloadInvariant_run (cfg : Config) (maxVram : ℕ → ℕ) {evs : List (Request D)}
    (h : ∀ r ∈ evs, r.Own cfg index) :
    ReloadInvariant cfg index
      (Run.run (Server.step cfg) (Server.initial maxVram Disk.fresh) evs) := by
  refine Run.run_invariant (ReloadInvariant cfg index) (fun _ _ hs hr => hs.step hr) ?_
    (Run.along_of_forall h _)
  refine ⟨⟨List.nodup_nil, fun _ he => (nomatch he), fun _ _ => trivial⟩,
    fun _ hp => (nomatch hp), ?_⟩
  exact Nat.zero_le _

end Steps

section Reload

def HasRoom (cfg : Config) (env : Env) (d : Daemon) (nVecs dim : ℕ) : Prop :=
  ∃ gpu, pickGpuForIndex cfg env d (estimateVramBytes nVecs dim 64) = some gpu ∧
    (ensureVram cfg env d (estimateVramBytes nVecs dim 64) gpu).2 = true

/-- After `evict_lru` has evicted the graph of `e`, a load with enough VRAM registers an entry
with `P`. The graph is taken to come back from its file as it was serialized. -/
def Reloads (cfg : Config) (d : Daemon) (e : IndexEntry) (P : IndexEntry → Prop) : Prop :=
  ∀ (env env' : Env) (device : ℕ) (g : Cagra), victim d.live device = some e →
    e.handle = some g → env.saveFault e.key = none →
    HasRoom cfg env' (evictLru cfg env d device).1 e.nVecs e.dim →
    (∀ gpu, env'.cagraDeserializes g gpu = true) →
    (loadIndex cfg env' (evictLru cfg env d device).1 e.key).2 = .loaded ∧
      ∃ e' ∈ (loadIndex cfg env' (evictLru cfg env d device).1 e.key).1.live, P e'

/-- The entries stand for the same index. -/
structure ReloadedAs (e e' : IndexEntry) : Prop where
  key : e'.key = e.key
  dim : e'.dim = e.dim
  metric : e'.metric = e.metric
  nVecs : e'.nVecs = e.nVecs
  tids : e'.tids = e.tids
  handle : e'.handle = e.handle
  stale : e'.stale = e.stale

variable {cfg : Config} {env : Env} {d : Daemon} {key : Key} {e : IndexEntry} {g : Cagra}
  {thdr : TidsHeader} {tids : List Tid} {device : ℕ}

theorem evictLru_graph (cfg : Config) (hvictim : victim d.live device = some e)
    (hneeds : needsSave e = true) (hg : e.handle = some g) (hfault : env.saveFault e.key = none) :
    (evictLru cfg env d device).1.live = withoutVictim d.live device ∧
      (evictLru cfg env d device).1.disk =
        d.disk.modify cfg.indexDir e.key (runFileOps (saveEntryOps none e g).1) := by
  refine ⟨(evictLru_of_saves cfg hvictim (.inr ⟨by rw [hg]; rfl, hfault⟩)).2, ?_⟩
  obtain ⟨i, hi, he, -⟩ := victim_eq_some hvictim
  simp only [evictLru, hi, he, hneeds, if_true, saveIndex, hg, hfault]
  rfl

theorem loadIndex_graph (hmissing : NotResident key d) (hslot : d.live.length < cfg.maxIndexes)
    (htids : TidsAccepted (d.disk cfg.indexDir key) thdr tids)
    (hshards : (d.disk cfg.indexDir key).shards = none)
    (hcagra : (d.disk cfg.indexDir key).cagra = some g)
    (hroom : HasRoom cfg env d thdr.nVecs thdr.dim)
    (hgraph : ∀ gpu, env.cagraDeserializes g gpu = true) :
    (loadIndex cfg env d key).2 = .loaded ∧ ∃ gpu slot,
      initUnsharded env key thdr tids (.inl g) (estimateVramBytes thdr.nVecs thdr.dim 64) gpu
        (d.disk cfg.indexDir key) slot ∈ (loadIndex cfg env d key).1.live := by
  obtain ⟨hread, hdim⟩ := htids
  obtain ⟨gpu, hpick, hvram⟩ := hroom
  have hevict := ensureVram_evictions cfg env d (estimateVramBytes thdr.nVecs thdr.dim 64) gpu
  rcases hensure : ensureVram cfg env d (estimateVramBytes thdr.nVecs thdr.dim 64) gpu
    with ⟨d1, admitted⟩
  rw [hensure] at hevict hvram
  obtain rfl : admitted = true := hvram
  have hdisk : d1.disk cfg.indexDir key = d.disk cfg.indexDir key :=
    hevict.disk cfg hmissing cfg.indexDir
  have hfree : ¬cfg.maxIndexes ≤ d1.live.length := by
    have hle : d1.live.length ≤ d.live.length := hevict.length_le
    omega
  have hmake : makeSlot cfg env d1 gpu = d1 := if_neg hfree
  have hfile : deserializeIndex env (d.disk cfg.indexDir key) gpu = some (.inl g) := by
    rw [deserializeIndex, Option.filter_eq_some_iff.mpr ⟨hcagra, hgraph gpu⟩]
  set init := initUnsharded env key thdr tids (.inl g) (estimateVramBytes thdr.nVecs thdr.dim 64) gpu
    (d.disk cfg.indexDir key) with hinit
  have hload : loadIndex cfg env d key =
      ({ d1 with registry := d1.registry.append init }, .loaded) := by
    simp [hinit, loadIndex, hread, hdim, loadIndexSharded, hshards, hcagra, loadIndexUnsharded, hpick,
      hensure, hdisk, hfile, hmake, Nat.lt_of_not_le hfree]
  rw [hload]
  refine ⟨rfl, gpu, d1.registry.tail.headD IndexEntry.zero, ?_⟩
  exact List.mem_append_right _ (List.mem_singleton_self _)

theorem initUnsharded_metric (needed gpu : ℕ) (a : Artifacts) (slot : IndexEntry) :
    (initUnsharded env key thdr tids (.inl g) needed gpu a slot).metric = thdr.metric := by
  simp [initUnsharded, restoreStale_eq, resetEntryStats, clearMainBfFields, clearDeltaFields,
    buildRevTidMap_field IndexEntry.metric (fun _ _ _ => rfl)]

theorem estimateVramBytes_inj {n dim degree : ℕ} (hn : 0 < n) :
    estimateVramBytes n dim 64 = estimateVramBytes n dim degree ↔ degree = 0 ∨ degree = 64 := by
  simp only [estimateVramBytes, Nat.mul_right_inj hn.ne']
  split_ifs <;> omega

/-- An entry of a reachable state, as its eviction saves it. -/
theorem ReloadInvariant.saved {s : Server} (h : ReloadInvariant cfg e.key s)
    (hvictim : victim s.daemon.live device = some e) (hg : e.handle = some g)
    (hfault : env.saveFault e.key = none) :
    NotResident e.key (evictLru cfg env s.daemon device).1 ∧
      (evictLru cfg env s.daemon device).1.live.length < cfg.maxIndexes ∧
      (evictLru cfg env s.daemon device).1.disk cfg.indexDir e.key =
        { s.daemon.disk cfg.indexDir e.key with
          tids := some (cuvsTidsWrite e.dim e.metric e.tids), cagra := some g } := by
  obtain ⟨i, -, hi, hrest⟩ := victim_eq_some hvictim
  have hslot : s.daemon.registry.live[i]? = some e := hi
  have hentry := h.linked.entries e (List.mem_of_getElem? hslot) rfl (by rw [hg]; rfl)
  obtain ⟨hlive, hdisk⟩ := evictLru_graph cfg hvictim hentry.saved hg hfault
  refine ⟨?_, ?_, ?_⟩
  · intro x hx
    rw [hlive, hrest] at hx
    obtain ⟨j, hij, hj⟩ := List.mem_eraseIdx_iff_getElem?.mp hx
    exact h.linked.unique.key_ne hslot hj hij
  · have hlt : i < s.daemon.live.length := (List.getElem?_eq_some_iff.mp hi).1
    rw [hlive, hrest, List.length_eraseIdx_of_lt hlt]
    have hle := h.capacity
    omega
  · have htake : e.tids.take e.nVecs = e.tids := by rw [← hentry.rows, List.take_length]
    rw [hdisk, Disk.modify_same, saveEntryOps, htake]
    rfl

/-- An evicted graph of 1 to 10^9 vectors comes back, as a graph of the default degree. -/
theorem ReloadInvariant.reloads {s : Server} (h : ReloadInvariant cfg e.key s) (hpos : 0 < e.nVecs)
    (hmax : e.nVecs ≤ tidsMaxVecs) (hflats : ∀ t ∈ s.flats, t.frame.key ≠ e.key) :
    Reloads cfg s.daemon e fun e' => ReloadedAs e e' ∧
      e'.vramBytes = estimateVramBytes e.nVecs e.dim 64 ∧
      (e'.vramBytes = e.vramBytes ↔ e.graphDegree = 0 ∨ e.graphDegree = 64) := by
  intro env env' device g hvictim hg hfault hroom hgraph
  obtain ⟨hmissing, hslot, hfiles⟩ := h.saved hvictim hg hfault
  obtain ⟨i, -, hi, -⟩ := victim_eq_some hvictim
  obtain ⟨-, hrows, hdim, hvram, hmanifest, hstale⟩ :=
    h.linked.entries e (List.mem_of_getElem? hi) rfl (by rw [hg]; rfl)
  set d1 := (evictLru cfg env s.daemon device).1
  have htids : TidsAccepted (d1.disk cfg.indexDir e.key) (cuvsTidsWrite e.dim e.metric e.tids).header
      e.tids := by
    rw [hfiles]
    refine ⟨cuvsTidsRead_write ?_ (hrows.symm ▸ hmax), hdim⟩
    exact List.ne_nil_of_length_pos (hrows.symm ▸ hpos)
  have hn : (cuvsTidsWrite e.dim e.metric e.tids).header.nVecs = e.nVecs := hrows
  obtain ⟨hloaded, gpu, slot, hmem⟩ := loadIndex_graph hmissing hslot htids
    (by rw [hfiles]; exact hmanifest) (by rw [hfiles]) (by rw [hn]; exact hroom) hgraph
  rw [hn] at hmem
  have hmark : (d1.disk cfg.indexDir e.key).stale.isSome = e.stale := by
    rw [hfiles]
    exact (hstale hflats).symm
  set a := d1.disk cfg.indexDir e.key
  set thdr := (cuvsTidsWrite e.dim e.metric e.tids).header
  refine ⟨hloaded, _, hmem, ?_⟩
  have hview : reloadView (initUnsharded env' e.key thdr e.tids (.inl g)
      (estimateVramBytes e.nVecs e.dim 64) gpu a slot) = ((e.key, some g, true),
        (e.tids, thdr.nVecs, e.dim), estimateVramBytes e.nVecs e.dim 64, 0, a.stale.isSome) :=
    initUnsharded_view ..
  have hmetric : (initUnsharded env' e.key thdr e.tids (.inl g)
      (estimateVramBytes e.nVecs e.dim 64) gpu a slot).metric = e.metric := initUnsharded_metric ..
  rw [hn, hmark] at hview
  simp only [reloadView, Prod.mk.injEq] at hview
  obtain ⟨⟨hkey, hhandle, -⟩, ⟨htids', hn', hdim'⟩, hvram', -, hstale'⟩ := hview
  refine ⟨⟨hkey, hdim', hmetric, hn', htids', hhandle.trans hg.symm, hstale'⟩, hvram', ?_⟩
  exact (Eq.congr hvram' hvram).trans (estimateVramBytes_inj hpos)

/-- The reader of `.tids` turns away what the writer wrote for an emptied graph, or for more than
10^9 vectors. -/
theorem ReloadInvariant.lost {s : Server} (h : ReloadInvariant cfg e.key s) {env' : Env}
    (hsize : e.nVecs = 0 ∨ tidsMaxVecs < e.nVecs)
    (hvictim : victim s.daemon.live device = some e) (hg : e.handle = some g)
    (hfault : env.saveFault e.key = none) :
    (loadIndex cfg env' (evictLru cfg env s.daemon device).1 e.key).2 = .failed := by
  obtain ⟨-, -, hfiles⟩ := h.saved hvictim hg hfault
  obtain ⟨i, -, hi, -⟩ := victim_eq_some hvictim
  have hrows := (h.linked.entries e (List.mem_of_getElem? hi) rfl (by rw [hg]; rfl)).rows
  have hread : cuvsTidsRead (cuvsTidsWrite e.dim e.metric e.tids) = none := by
    have hn : (cuvsTidsWrite e.dim e.metric e.tids).header.nVecs = e.nVecs := hrows
    unfold cuvsTidsRead
    simp only [hn, if_pos hsize, ite_self]
  rw [loadIndex, hfiles, Option.bind_some, hread]

variable {D : Type} [LT D] [DecidableLT D]

theorem evict_reload (cfg : Config) (maxVram : ℕ → ℕ) (evs : List (Request D)) :
    ∀ e ∈ (Run.run (Server.step cfg) (Server.initial maxVram Disk.fresh) evs).daemon.live,
      (∀ r ∈ evs, r.Own cfg e.key) → 0 < e.nVecs → e.nVecs ≤ tidsMaxVecs →
      (∀ t ∈ (Run.run (Server.step cfg) (Server.initial maxVram Disk.fresh) evs).flats,
        t.frame.key ≠ e.key) →
      Reloads cfg (Run.run (Server.step cfg) (Server.initial maxVram Disk.fresh) evs).daemon e
        fun e' => ReloadedAs e e' ∧ e'.vramBytes = estimateVramBytes e.nVecs e.dim 64 ∧
          (e'.vramBytes = e.vramBytes ↔ e.graphDegree = 0 ∨ e.graphDegree = 64) :=
  fun _ _ hown hpos hmax hflats => (reloadInvariant_run cfg maxVram hown).reloads hpos hmax hflats

def sampleDegreeBuild : List (Request ℕ) :=
  [.build (Env.quiet 9 100000) (BuildEnv.quiet [])
    { sampleIndexBuild ⟨1, 2⟩ 2 with graphDegree := 32 } (sampleInput 101 10),
   .buildEnd (Env.quiet 9 100000) (BuildEnv.quiet []) 0 (.built [])]

def sampleDegreeCompacted : List (Request ℕ) :=
  sampleDegreeBuild ++
    [.extend (sampleIndexBuild ⟨1, 2⟩ 1) (sampleInput 201 20) (.extended []),
     .sidecars "index" ⟨1, 2⟩ none
      (some ⟨some { cuvsTombstoneHeaderInit 0 with nEntries := 1 }, [⟨101, 7⟩], 0⟩),
     .compact ⟨1, 2⟩ (some ""), .compactEnd (Env.quiet 9 100000) 0 (some [])]

def sampleReloadDaemon (evs : List (Request ℕ)) : Daemon :=
  (Run.run (Server.step sampleConfig) (Server.initial (fun _ => 0) Disk.fresh) evs).daemon

theorem evict_reload_compacted : ∃ e e',
    victim (sampleReloadDaemon sampleDegreeCompacted).live 0 = some e ∧ e.tids = [102, 201] ∧
      e' ∈ (loadIndex sampleConfig (Env.quiet 9 100000)
        (evictLru sampleConfig (Env.quiet 9 100000) (sampleReloadDaemon sampleDegreeCompacted) 0).1
        e.key).1.live ∧
      ReloadedAs e e' := by
  have hview : (victim (sampleReloadDaemon sampleDegreeCompacted).live 0).map
      (fun e => (e.key, e.nVecs, e.dim, e.handle, e.tids))
        = some (⟨1, 2⟩, 2, 1, some ⟨[], [[11], [20]]⟩, [102, 201]) := by
    decide +kernel
  obtain ⟨e, hvictim, hfields⟩ := Option.map_eq_some_iff.mp hview
  simp only [Prod.mk.injEq] at hfields
  obtain ⟨hkey, hn, hdim, hg, htids⟩ := hfields
  obtain ⟨i, -, hi, -⟩ := victim_eq_some hvictim
  have hflats : (Run.run (Server.step sampleConfig) (Server.initial (fun _ => 0) Disk.fresh)
      sampleDegreeCompacted).flats = [] := by
    decide +kernel
  obtain ⟨-, e', he', hsame, -⟩ := evict_reload sampleConfig (fun _ => 0) sampleDegreeCompacted
    e (List.mem_of_getElem? hi) (by rw [hkey]; decide) (by omega) (by rw [hn]; decide)
    (by simp [hflats])
    (Env.quiet 9 100000) (Env.quiet 9 100000) 0 _ hvictim hg rfl
    (by rw [hn, hdim]; exact ⟨0, by decide +kernel, by decide +kernel⟩) (fun _ => rfl)
  exact ⟨e, e', hvictim, htids, he', hsame⟩

/-- The load asks for the VRAM of the default degree. -/
theorem evict_reload_degree :
    ¬∀ (cfg : Config) (maxVram : ℕ → ℕ) (evs : List (Request ℕ)),
      ∀ e ∈ (Run.run (Server.step cfg) (Server.initial maxVram Disk.fresh) evs).daemon.live,
        (∀ r ∈ evs, r.Own cfg e.key) → Reloads cfg (Run.run (Server.step cfg) (Server.initial maxVram Disk.fresh) evs).daemon e
          fun e' => ReloadedAs e e' ∧ e'.vramBytes = e.vramBytes := by
  intro h
  have hview : (victim (sampleReloadDaemon sampleDegreeBuild).live 0).map
      (fun e => (e.key, e.nVecs, e.dim, e.handle, e.vramBytes))
        = some (⟨1, 2⟩, 2, 1, some ⟨[], [[10], [11]]⟩, 264) := by
    decide +kernel
  obtain ⟨e, hvictim, hfields⟩ := Option.map_eq_some_iff.mp hview
  simp only [Prod.mk.injEq] at hfields
  obtain ⟨hkey, hn, hdim, hg, hvram⟩ := hfields
  obtain ⟨i, -, hi, -⟩ := victim_eq_some hvictim
  obtain ⟨-, e', he', -, hsame⟩ := h sampleConfig (fun _ => 0) sampleDegreeBuild e
    (List.mem_of_getElem? hi) (by rw [hkey]; decide) (Env.quiet 9 100000) (Env.quiet 9 100000) 0 _ hvictim hg rfl
    (by rw [hn, hdim]; exact ⟨0, by decide +kernel, by decide +kernel⟩) (fun _ => rfl)
  have hloaded : ∀ e' ∈ (loadIndex sampleConfig (Env.quiet 9 100000)
      (evictLru sampleConfig (Env.quiet 9 100000) (sampleReloadDaemon sampleDegreeBuild) 0).1
      ⟨1, 2⟩).1.live, e'.vramBytes = 520 := by
    decide +kernel
  rw [hkey] at he'
  have hbig := hloaded e' he'
  omega

end Reload

end PgCuvs
