import PgCuvs.Crash.Settled

/-! Loading an index after the daemon died in a commit. Both loaders check each
file on its own; only the manifest ties files of different names together. -/

namespace PgCuvs

/-- A load after a crash pairs files of one operation. -/
def LoadsOneOperation (hist : List PersistOp) (op : PersistOp) (n : ℕ) : Prop :=
  ∀ cfg env d d' key, NotResident key d → d.disk cfg.indexDir key = crashed hist op n →
    loadIndex cfg env d key = (d', .loaded) →
      ∃ e, d'.live.getLast? = some e ∧ e.key = key ∧
        WrittenTogether (hist ++ [op]) e.tids e.graphFile

section Conditions

abbrev PersistOp.tids (op : PersistOp) : Option (List Tid) := op.tidsFile.map TidsFile.body

def TidsFile.Loadable (f : TidsFile) : Prop := (cuvsTidsRead f).isSome ∧ f.header.dim ≠ 0

/-- The `.tids` on disk when the daemon dies: the old one, or the one of `op`. -/
def CommitPoint.tidsFile (a : Artifacts) (op : PersistOp) : CommitPoint → Option TidsFile
  | .untouched => a.tids
  | .cleared => none
  | .torn | .paired | .committed | .manifest => op.tidsFile

def CommitPoint.Bare (a : Artifacts) : CommitPoint → Prop
  | .untouched | .torn | .paired => a.shards = none
  | .committed => True
  | .manifest | .cleared => False

variable (hist : List PersistOp) (op : PersistOp) (n : ℕ)

/-- What a crash in `op` after `n` steps must find on disk. -/
structure CrashSafe : Prop where
  /-- between the two renames an index without a manifest has no graph, or one that came with
  the same TIDs before -/
  torn : op.reached (replay hist) n = .torn → (replay hist).shards = none →
    ∀ f g, op.tidsFile = some f → f.Loadable → (replay hist).cagra = some g →
      op.graph = .cagra g ∨ ∃ q ∈ hist, q.tids = some f.body ∧ q.graph = .cagra g
  /-- no IVF-PQ graph to fall back to, or one that came with these TIDs -/
  ivfpq : (op.reached (replay hist) n).Bare (replay hist) →
    ∀ f p, (op.reached (replay hist) n).tidsFile (replay hist) op = some f → f.Loadable →
      (replay hist).ivfpq = some p → ∃ q ∈ hist, q.tids = some f.body ∧ q.graph = .ivfpq p

/-- The header of the `.tids` on disk is not by accident the one the old manifest was written
for. -/
def ManifestSafe : Prop :=
  ∀ p ∈ hist, p.OnDisk (replay hist) → (p.manifest.bind cuvsShardsRead).isSome →
    op.reached (replay hist) n ≠ .committed →
      ∀ f f', (op.reached (replay hist) n).tidsFile (replay hist) op = some f → f.Loadable →
        p.tidsFile = some f' → f.header = f'.header →
          f.body = f'.body ∨ ∃ q ∈ hist, q.tids = some f.body ∧ q.graph = p.graph

end Conditions

section AfterCrash

variable {hist : List PersistOp} {op : PersistOp} {n : ℕ} {t : List Tid} {g : GraphFile}

theorem loadsOneOperation_iff :
    LoadsOneOperation hist op n ↔
      ∀ t g, Loads (crashed hist op n) t g → WrittenTogether (hist ++ [op]) t g := by
  constructor
  · intro h t g hloads
    let disk : Disk := fun _ _ => crashed hist op n
    have hfiles : Loads (disk "" ⟨0, 0⟩) t g := hloads
    obtain ⟨env, d', e, hload, hlast, ht, hg⟩ := hfiles.registersLast
    have hempty : NotResident ⟨0, 0⟩ (freshDaemon disk) := by
      intro e he
      cases he
    obtain ⟨e', hlast', -, hwritten⟩ :=
      h (loadConfig "") env (freshDaemon disk) d' ⟨0, 0⟩ hempty rfl hload
    obtain rfl := Option.some.inj (hlast.symm.trans hlast')
    rwa [ht, hg] at hwritten
  · intro h cfg env d d' key hkey hdisk hload
    obtain ⟨e, hlast, hekey, hloads⟩ := loadIndex_loads hkey hload
    rw [hdisk] at hloads
    exact ⟨e, hlast, hekey, h _ _ hloads⟩

theorem PersistOp.tidsFile_body {f : TidsFile} {thdr : TidsHeader} (h : op.tidsFile = some f)
    (hread : cuvsTidsRead f = some (thdr, t)) : op.tidsFile.map TidsFile.body = some t := by
  obtain ⟨rfl, ht, -⟩ := cuvsTidsRead_eq_some hread
  have hwhole : f.body.take f.header.nVecs = f.body := by
    cases op <;> cases h <;> exact List.take_length
  rw [h, ht, hwhole]
  rfl

theorem PersistOp.tidsFile_header {f : TidsFile} {dim : ℕ} {metric : Metric} {tids : List Tid}
    (h : op.tidsFile = some f) (hrows : f.header.nVecs = tids.length) (hdim : f.header.dim = dim)
    (hmetric : f.header.metric = metric) (hcrc : f.header.bodyCrc32 = cuvsCrc32 (tidBytes tids)) :
    f.header = (cuvsTidsWrite dim metric tids).header := by
  subst hdim hmetric
  cases op with
  | drop => cases h
  | _ =>
    cases h
    simp only [cuvsTidsWrite] at hrows hcrc ⊢
    rw [hrows, hcrc]

theorem tidsAccepted_iff {a : Artifacts} {f : TidsFile} {thdr : TidsHeader} (hfile : a.tids = some f)
    (hf : op.tidsFile = some f) :
    TidsAccepted a thdr t ↔ f.Loadable ∧ thdr = f.header ∧ t = f.body := by
  unfold TidsAccepted TidsFile.Loadable
  rw [hfile, Option.bind_some]
  constructor
  · rintro ⟨hread, hdim⟩
    have hbody := PersistOp.tidsFile_body hf hread
    rw [hf] at hbody
    obtain ⟨rfl, -⟩ := cuvsTidsRead_eq_some hread
    exact ⟨⟨by rw [hread]; rfl, hdim⟩, rfl, (Option.some.inj hbody).symm⟩
  · rintro ⟨⟨hread, hdim⟩, rfl, rfl⟩
    obtain ⟨⟨thdr, t⟩, hread⟩ := Option.isSome_iff_exists.mp hread
    have hbody := PersistOp.tidsFile_body hf hread
    rw [hf] at hbody
    obtain ⟨rfl, -⟩ := cuvsTidsRead_eq_some hread
    rw [Option.some.inj hbody]
    exact ⟨hread, hdim⟩

theorem tidsAccepted_crashed {thdr : TidsHeader} (h : TidsAccepted (crashed hist op n) thdr t) :
    ∃ f, (crashed hist op n).tids = some f ∧ f.Loadable ∧ thdr = f.header ∧ t = f.body := by
  obtain ⟨f, hf, -⟩ := Option.bind_eq_some_iff.mp h.1
  obtain ⟨q, -, hq⟩ := (sourced_crashed hist op n).tids f hf
  exact ⟨f, hf, (tidsAccepted_iff hf hq).mp h⟩

theorem tidsAccepted_of_loadable {f : TidsFile} (hf : (crashed hist op n).tids = some f)
    (hloadable : f.Loadable) : TidsAccepted (crashed hist op n) f.header f.body := by
  obtain ⟨q, -, hq⟩ := (sourced_crashed hist op n).tids f hf
  exact (tidsAccepted_iff hf hq).mpr ⟨hloadable, rfl, rfl⟩

theorem Reached.tids {a : Artifacts} {p : CommitPoint} {c : Artifacts.Core}
    (h : Reached a.core op p c) : c.tids = p.tidsFile a op := by
  cases h with
  | untouched => rfl
  | torn hf | paired hf | committed hf => exact hf.symm
  | manifest hf hm htids => exact htids.trans hf.symm
  | cleared htids => exact htids

/-- Commits leave `.ivfpq` alone, and while there is a `.tids` file no manifest means that the
commit found or left none. -/
theorem Reached.bare {a : Artifacts} {p : CommitPoint} {c : Artifacts.Core}
    (h : Reached a.core op p c) (htids : c.tids ≠ none) :
    (c.shards = none ↔ p.Bare a) ∧ c.ivfpq = a.ivfpq := by
  cases h with
  | untouched => exact ⟨Iff.rfl, rfl⟩
  | torn hf | paired hf => exact ⟨Iff.rfl, rfl⟩
  | committed hf => exact ⟨iff_of_true rfl trivial, rfl⟩
  | manifest hf hm _ hshards hivfpq =>
    refine ⟨iff_of_false ?_ fun h => h, hivfpq⟩
    rw [hshards]
    exact Option.some_ne_none _
  | cleared hgone => exact absurd hgone htids

theorem Reached.torn_files {a : Artifacts} {c : Artifacts.Core} (h : Reached a.core op .torn c) :
    c.cagra = a.cagra ∧ c.shards = a.shards := by
  cases h
  exact ⟨rfl, rfl⟩

theorem Reached.manifest_iff {a : Artifacts} {p : CommitPoint} {c : Artifacts.Core} {m : ShardsFile}
    (h : Reached a.core op p c) (hop : op.manifest = none) (htids : c.tids ≠ none) :
    c.shards = some m ↔ a.shards = some m ∧ p ≠ .committed := by
  cases h with
  | untouched => exact (and_iff_left (by decide)).symm
  | torn hf => exact (and_iff_left (by decide)).symm
  | paired hf => exact (and_iff_left (by decide)).symm
  | committed hf =>
    constructor
    · intro hm
      cases hm
    · rintro ⟨-, hpoint⟩
      exact absurd rfl hpoint
  | manifest hf hm' => cases hop.symm.trans hm'
  | cleared hgone => exact absurd hgone htids

theorem loads_sound (hop : op.commits) (hsafe : CrashSafe hist op n)
    (hmanifest : ∀ thdr t recs graphs, TidsAccepted (crashed hist op n) thdr t →
      ManifestAccepted (crashed hist op n) thdr recs → ShardFiles (crashed hist op n) recs graphs →
        WrittenTogether (hist ++ [op]) t (.sharded (graphs.map some)))
    (h : Loads (crashed hist op n) t g) : WrittenTogether (hist ++ [op]) t g := by
  have hreached := reached_crashed hist hop n
  have hmem : op ∈ hist ++ [op] := List.mem_append_right _ List.mem_cons_self
  cases h with
  | sharded htids haccepted hgraphs => exact hmanifest _ _ _ _ htids haccepted hgraphs
  | @cagra thdr t g htids hfile hgraph =>
    obtain ⟨f, hf, hloadable, -, rfl⟩ := tidsAccepted_crashed htids
    by_cases htorn : op.reached (replay hist) n = .torn
    · rw [htorn] at hreached
      obtain ⟨hcagra, hshards⟩ := hreached.torn_files
      have hown : op.tidsFile = some f := hreached.tids.symm.trans hf
      rcases hsafe.torn htorn (hshards.symm.trans hfile) f g hown hloadable
        (hcagra.symm.trans hgraph) with hnew | ⟨q, hq, hqTids, hqGraph⟩
      · exact ⟨op, hmem, by rw [hown]; rfl, .inr hnew.symm⟩
      · exact ⟨q, List.mem_append_left _ hq, hqTids, .inr hqGraph.symm⟩
    · obtain ⟨q, hq, hqTids, hqGraph⟩ := (settled_crashed hop htorn).pair hfile f g hf hgraph
      exact ⟨q, hq, by rw [hqTids]; rfl, .inr hqGraph.symm⟩
  | @ivfpq thdr t p htids hfile hgraph =>
    obtain ⟨f, hf, hloadable, -, rfl⟩ := tidsAccepted_crashed htids
    obtain ⟨hbare, hivfpq⟩ := hreached.bare (fun hnone => nomatch hf.symm.trans hnone)
    obtain ⟨q, hq, hqTids, hqGraph⟩ := hsafe.ivfpq (hbare.mp hfile) f p
      (hreached.tids.symm.trans hf) hloadable (hivfpq.symm.trans hgraph)
    exact ⟨q, List.mem_append_left _ hq, hqTids, .inr hqGraph.symm⟩
  | flat htids =>
    obtain ⟨f, hf, -, -, rfl⟩ := tidsAccepted_crashed htids
    obtain ⟨q, hq, hqTids⟩ := (sourced_crashed hist op n).tids f hf
    exact ⟨q, hq, by rw [hqTids]; rfl, .inl rfl⟩

theorem graph_ne_ivfpq (hop : op.commits) (p : IvfPq) : op.graph ≠ .ivfpq p := by
  cases op with
  | buildFlat | buildIvfpq | drop => cases hop
  | _ =>
    intro h
    cases h

theorem crashSafe_of_loads (hop : op.commits)
    (h : ∀ t g, Loads (crashed hist op n) t g → WrittenTogether (hist ++ [op]) t g) :
    CrashSafe hist op n := by
  have hreached := reached_crashed hist hop n
  have hmem : ∀ {q : PersistOp}, q ∈ hist ++ [op] → q ∈ hist ∨ q = op := by simp
  constructor
  · intro htorn hshards f g hf hloadable hg
    rw [htorn] at hreached
    obtain ⟨hcagra', hshards'⟩ := hreached.torn_files
    have hfile : (crashed hist op n).tids = some f := hreached.tids.trans hf
    obtain ⟨q, hq, hqTids, hflat | hqGraph⟩ := h _ _ (Loads.cagra (tidsAccepted_of_loadable hfile hloadable)
      (hshards'.trans hshards) (hcagra'.trans hg))
    · cases hflat
    · rcases hmem hq with hold | rfl
      · exact .inr ⟨q, hold, hqTids, hqGraph.symm⟩
      · exact .inl hqGraph.symm
  · intro hbare f p hf hloadable hp
    have hfile : (crashed hist op n).tids = some f := hreached.tids.trans hf
    obtain ⟨hshards, hivfpq⟩ := hreached.bare (fun hnone => nomatch hfile.symm.trans hnone)
    obtain ⟨q, hq, hqTids, hflat | hqGraph⟩ := h _ _ (Loads.ivfpq (tidsAccepted_of_loadable hfile hloadable)
      (hshards.mpr hbare) (hivfpq.trans hp))
    · cases hflat
    · rcases hmem hq with hold | rfl
      · exact ⟨q, hold, hqTids, hqGraph.symm⟩
      · exact absurd hqGraph.symm (graph_ne_ivfpq hop p)

end AfterCrash

section Manifest

variable {hist : List PersistOp} {op : PersistOp} {n : ℕ} {a : Artifacts} {graphs : List Cagra}

def FileOp.keepsShardFiles : FileOp → Bool
  | .renameShardCagra .. | .unlinkShardCagra _ => false
  | _ => true

theorem run_keepsShardFiles {ops : List FileOp} (h : ∀ o ∈ ops, o.keepsShardFiles) (a : Artifacts) :
    (runFileOps ops a).shardCagra = a.shardCagra := by
  refine CrashPrefix.run_field FileOp.apply ?_ a
  intro o ho b
  have hkeep := h o ho
  cases o <;> first | rfl | cases hkeep

theorem keepsShardFiles_before (v : VectorsStage) : ∀ o ∈ v.before, o.keepsShardFiles := by
  cases v <;> simp [VectorsStage.before, FileOp.keepsShardFiles]

theorem keepsShardFiles_commit (v : VectorsStage) : ∀ o ∈ v.commit, o.keepsShardFiles := by
  cases v <;> simp [VectorsStage.commit, FileOp.keepsShardFiles]

theorem keepsShardFiles_saveIndexOps (tids : TidsFile) (graph : Cagra) (fault : Option CommitFault) :
    ∀ o ∈ saveIndexOps tids graph fault, o.keepsShardFiles := by
  rcases fault with _ | _ | _ <;> simp [saveIndexOps, FileOp.keepsShardFiles]

/-- Only the shard files and `.hnsw` come after the manifest, which comes after the graph. -/
theorem reached_behind_manifest {before rest : List FileOp} {f : TidsFile} {g : Cagra}
    (hsteps : op.steps a = before ++ .unlinkShards :: rest)
    (hbefore : before.filter FileOp.major = [.renameTids f, .renameCagra g])
    (hrest : rest.filter FileOp.major = []) (hn : before.length < n) :
    op.reached a n = .committed := by
  obtain ⟨k, rfl⟩ := Nat.exists_eq_add_of_lt hn
  have hdone : (rest.take k).filter FileOp.major = [] := by
    have hprefix := (List.take_prefix k rest).filter FileOp.major
    rw [hrest] at hprefix
    exact List.prefix_nil.mp hprefix
  rw [PersistOp.reached, PersistOp.executed, hsteps, Nat.add_assoc, List.take_length_add_append,
    List.take_succ_cons, List.filter_append, hbefore, List.filter_cons_of_pos rfl, hdone]
  rfl

/-- The shard files stay until the manifest is unlinked. -/
theorem crashed_shardCagra (hop : op.unsharded) (hpoint : op.reached (replay hist) n ≠ .committed) :
    (crashed hist op n).shardCagra = (replay hist).shardCagra := by
  refine run_keepsShardFiles ?_ _
  cases op with
  | save dim metric tids graph fault =>
    intro o ho
    exact keepsShardFiles_saveIndexOps _ _ _ o (List.mem_of_mem_take ho)
  | build dim metric tids graph vectors hnsw fault =>
    cases fault with
    | some fault =>
      intro o ho
      have hmem : o ∈ vectors.before ++ saveIndexOps (cuvsTidsWrite dim metric tids) graph fault := by
        have hsteps := List.mem_of_mem_take ho
        simpa [PersistOp.steps, finishBuildCommitOps] using hsteps
      rcases List.mem_append.mp hmem with ho | ho
      · exact keepsShardFiles_before vectors o ho
      · exact keepsShardFiles_saveIndexOps _ _ _ o ho
    | none =>
      set before := vectors.before ++ saveIndexOps (cuvsTidsWrite dim metric tids) graph none ++
        vectors.commit ++ [.unlinkStale] with hbefore
      set rest := unlinkShardFiles 0 (replay hist) ++ hnsw.toList.map FileOp.writeHnsw with hrest
      have hsteps : (PersistOp.build dim metric tids graph vectors hnsw none).steps (replay hist)
          = before ++ .unlinkShards :: rest := by
        simp [PersistOp.steps, finishBuildCommitOps, before, rest]
      have hkept : ∀ o ∈ before, o.keepsShardFiles := by
        simp only [hbefore, List.forall_mem_append]
        refine ⟨⟨⟨keepsShardFiles_before vectors, keepsShardFiles_saveIndexOps _ _ _⟩,
          keepsShardFiles_commit vectors⟩, ?_⟩
        simp [FileOp.keepsShardFiles]
      rcases Nat.lt_or_ge before.length n with hlt | hle
      · have hmajor : before.filter FileOp.major
            = [.renameTids (cuvsTidsWrite dim metric tids), .renameCagra graph] := by
          simp only [hbefore, List.filter_append, filter_before, filter_commit, filter_saveIndexOps]
          rfl
        have hminor : rest.filter FileOp.major = [] := by
          simp only [hrest, List.filter_append, filter_unlinkShardFiles, filter_writeHnsw,
            List.append_nil]
        exact absurd (reached_behind_manifest hsteps hmajor hminor hlt) hpoint
      · intro o ho
        rw [hsteps, List.take_append_of_le_length hle] at ho
        exact hkept o (List.mem_of_mem_take ho)
  | _ => cases hop

theorem PersistOp.manifest_eq_some {op : PersistOp} {m : ShardsFile} (h : op.manifest = some m) :
    ∃ dim metric tids shards vectors fault,
      op = .buildSharded dim metric tids shards vectors fault ∧
        m = shardManifest dim metric tids shards := by
  cases op with
  | buildSharded dim metric tids shards vectors fault =>
    exact ⟨dim, metric, tids, shards, vectors, fault, rfl, (Option.some.inj h).symm⟩
  | _ => cases h

theorem shardFiles_iff {dim : ℕ} {metric : Metric} {ss : List ShardBuild} {k off : ℕ}
    (hfiles : ∀ i s, ss[i]? = some s → a.shardCagra (k + i) = some s.graph) :
    ShardFiles a (shardRecords dim metric k off ss) graphs ↔ graphs = ss.map ShardBuild.graph := by
  induction ss generalizing k off graphs with
  | nil =>
    rw [shardRecords, List.map_nil]
    exact List.forall₂_nil_left_iff
  | cons s ss ih =>
    have hfile : a.shardCagra k = some s.graph := hfiles 0 s rfl
    have hrest : ∀ i s', ss[i]? = some s' → a.shardCagra (k + 1 + i) = some s'.graph := by
      intro i s' hs
      rw [Nat.add_assoc, Nat.add_comm 1 i]
      exact hfiles (i + 1) s' hs
    rw [shardRecords, List.map_cons]
    constructor
    · intro h
      cases h with
      | cons hhead htail =>
        rw [(ih hrest).mp htail, Option.some.inj (hhead.1.symm.trans hfile)]
    · rintro rfl
      exact List.Forall₂.cons ⟨hfile, rfl⟩ ((ih hrest).mpr rfl)

theorem manifest_of_unsharded (hop : op.unsharded) : op.manifest = none := by
  cases op with
  | build | save => rfl
  | _ => cases hop

theorem graph_of_unsharded (hop : op.unsharded) : ∃ g, op.graph = .cagra g := by
  cases op with
  | build _ _ _ graph | save _ _ _ graph => exact ⟨graph, rfl⟩
  | _ => cases hop

/-- What an old manifest accepts after the crash are the shards of the build that wrote it. -/
theorem ManifestSafe.accepted (hsafe : ManifestSafe hist op n) (hop : op.unsharded)
    {thdr : TidsHeader} {t : List Tid} {recs : List ShardRecord}
    (htids : TidsAccepted (crashed hist op n) thdr t)
    (hmanifest : ManifestAccepted (crashed hist op n) thdr recs)
    (hgraphs : ShardFiles (crashed hist op n) recs graphs) :
    WrittenTogether (hist ++ [op]) t (.sharded (graphs.map some)) := by
  obtain ⟨f, hf, hloadable, hthdr, rfl⟩ := tidsAccepted_crashed htids
  obtain ⟨m, shdr, hm, hread, hbase, hrows, hdim, hmetric⟩ := hmanifest
  have hreached := reached_crashed hist (commits_of_unsharded hop) n
  have hpresent : (crashed hist op n).core.tids ≠ none := fun hnone => nomatch hf.symm.trans hnone
  obtain ⟨hold, hpoint⟩ :=
    (hreached.manifest_iff (manifest_of_unsharded hop) hpresent).mp hm
  have hfiles := crashed_shardCagra hop hpoint
  -- the manifest dates from before the operation, and so do the shards it lists
  rcases onDisk_replay hist with hnone | ⟨p, hp, hdisk⟩
  · cases hnone.symm.trans hold
  · have hpm : p.manifest = some m := hdisk.manifest.2.symm.trans hold
    obtain ⟨dim, metric, tids, shards, vectors, fault, rfl, rfl⟩ := PersistOp.manifest_eq_some hpm
    obtain ⟨rfl, hrecs, -⟩ := cuvsShardsRead_eq_some hread
    have hrecords : recs = shardRecords dim metric 0 0 shards := by
      rw [hrecs]
      exact List.take_length
    have hshards : graphs = shards.map ShardBuild.graph := by
      rw [hrecords] at hgraphs
      refine (shardFiles_iff ?_).mp hgraphs
      intro i s hs
      rw [hfiles, Nat.zero_add]
      exact hdisk.shards i _ (by rw [PersistOp.shardGraphs, List.getElem?_map, hs]; rfl)
    have hreadable : ((some (shardManifest dim metric tids shards)).bind cuvsShardsRead).isSome := by
      rw [Option.bind_some, hread]
      rfl
    have hheader : f.header = (cuvsTidsWrite dim metric tids).header := by
      obtain ⟨q, -, hq⟩ := (sourced_crashed hist op n).tids f hf
      rw [hthdr] at hbase hrows hdim hmetric
      exact PersistOp.tidsFile_header hq hrows.symm hdim.symm hmetric.symm hbase.symm
    have hgraph : GraphFile.sharded (graphs.map some)
        = (PersistOp.buildSharded dim metric tids shards vectors fault).graph := by
      rw [hshards, List.map_map]
      rfl
    rcases hsafe _ hp hdisk hreadable hpoint f _ (hreached.tids.symm.trans hf) hloadable rfl hheader
      with hbody | ⟨q, hq, hqTids, hqGraph⟩
    · exact ⟨_, List.mem_append_left _ hp, congrArg some hbody.symm, .inr hgraph⟩
    · exact ⟨q, List.mem_append_left _ hq, hqTids, .inr (hgraph.trans hqGraph.symm)⟩

theorem manifestSafe_of_loads (hop : op.unsharded)
    (h : ∀ t g, Loads (crashed hist op n) t g → WrittenTogether (hist ++ [op]) t g) :
    ManifestSafe hist op n := by
  intro p hp hdisk hreadable hpoint f f' hf hloadable hf' hheader
  have hreached := reached_crashed hist (commits_of_unsharded hop) n
  have hfile : (crashed hist op n).tids = some f := hreached.tids.trans hf
  have hpresent : (crashed hist op n).core.tids ≠ none :=
    fun hnone => nomatch hfile.symm.trans hnone
  obtain ⟨m, hm⟩ := Option.isSome_iff_exists.mp hdisk.manifest.1
  obtain ⟨dim, metric, tids, shards, vectors, fault, rfl, rfl⟩ := PersistOp.manifest_eq_some hm
  obtain ⟨⟨shdr, recs⟩, hread⟩ := Option.isSome_iff_exists.mp hreadable
  have hmanifest : (crashed hist op n).shards = some (shardManifest dim metric tids shards) :=
    (hreached.manifest_iff (manifest_of_unsharded hop) hpresent).mpr
      ⟨hdisk.manifest.2, hpoint⟩
  have hread : cuvsShardsRead (shardManifest dim metric tids shards) = some (shdr, recs) := hread
  obtain ⟨rfl, hrecs, -⟩ := cuvsShardsRead_eq_some hread
  have hrecords : recs = shardRecords dim metric 0 0 shards := by
    rw [hrecs]
    exact List.take_length
  have haccepted : ManifestAccepted (crashed hist op n) f.header recs := by
    obtain rfl := Option.some.inj hf'
    exact ⟨_, _, hmanifest, hread, by rw [hheader]; rfl, by rw [hheader]; exact ⟨rfl, rfl, rfl⟩⟩
  have hgraphs : ShardFiles (crashed hist op n) recs (shards.map ShardBuild.graph) := by
    rw [hrecords]
    refine (shardFiles_iff ?_).mpr rfl
    intro i s hs
    rw [crashed_shardCagra hop hpoint, Nat.zero_add]
    exact hdisk.shards i _ (by rw [PersistOp.shardGraphs, List.getElem?_map, hs]; rfl)
  obtain ⟨q, hq, hqTids, hflat | hqGraph⟩ :=
    h _ _ (Loads.sharded (tidsAccepted_of_loadable hfile hloadable) haccepted hgraphs)
  · cases hflat
  · rcases List.mem_append.mp hq with hold | hnew
    · refine .inr ⟨q, hold, hqTids, hqGraph.symm.trans ?_⟩
      rw [List.map_map]
      rfl
    · obtain rfl := List.mem_singleton.mp hnew
      obtain ⟨g, hg⟩ := graph_of_unsharded hop
      cases hqGraph.trans hg

end Manifest

section Unsharded

/-- A crash in an unsharded commit is harmless exactly when it finds no old graph to pair with
the `.tids` it leaves. -/
theorem unshardedCommit_crash_iff (hist : List PersistOp) (op : PersistOp) (hop : op.unsharded)
    (n : ℕ) : LoadsOneOperation hist op n ↔ CrashSafe hist op n ∧ ManifestSafe hist op n := by
  rw [loadsOneOperation_iff]
  constructor
  · intro h
    exact ⟨crashSafe_of_loads (commits_of_unsharded hop) h, manifestSafe_of_loads hop h⟩
  · rintro ⟨hsafe, hmanifest⟩ t g hloads
    refine loads_sound (commits_of_unsharded hop) hsafe ?_ hloads
    intro thdr t recs graphs
    exact hmanifest.accepted hop

def sampleBuild (tid : Tid) (row : UInt32) : PersistOp :=
  .build 1 .l2 [tid, tid + 1] ⟨[0, 1], [[row], [row + 1]]⟩ .writeFailed none none

/-- A build that dies after both renames is safe. -/
theorem unshardedCommit_crash_sample :
    LoadsOneOperation [sampleBuild 101 10] (sampleBuild 201 20) 3 := by
  refine (unshardedCommit_crash_iff _ _ rfl 3).mpr ⟨⟨?_, ?_⟩, ?_⟩
  · intro htorn
    cases htorn
  · intro _ f p _ _ hp
    cases hp
  · intro p _ hdisk
    cases hdisk.manifest.1.symm.trans (congrArg Option.isSome hdisk.manifest.2.symm)

/-- Between the renames it leaves the TIDs of the second build over the graph
of the first. -/
theorem unshardedCommit_crash_mixes :
    ¬∀ hist op, op.unsharded → ∀ n, LoadsOneOperation hist op n := by
  intro h
  have hpair := loadsOneOperation_iff.mp (h [sampleBuild 101 10] (sampleBuild 201 20) rfl 2)
  have hfile : (crashed [sampleBuild 101 10] (sampleBuild 201 20) 2).tids
      = some (cuvsTidsWrite 1 .l2 [201, 202]) := rfl
  have htids : TidsAccepted (crashed [sampleBuild 101 10] (sampleBuild 201 20) 2)
      (cuvsTidsWrite 1 .l2 [201, 202]).header [201, 202] := by
    refine ⟨?_, Nat.one_ne_zero⟩
    rw [hfile, Option.bind_some, cuvsTidsRead_write (List.cons_ne_nil _ _) (by decide)]
  obtain ⟨q, hq, hqTids, hflat | hqGraph⟩ :=
    hpair [201, 202] (.cagra ⟨[0, 1], [[10], [11]]⟩) (Loads.cagra htids rfl rfl)
  · cases hflat
  · rcases List.mem_cons.mp hq with rfl | hq
    · revert hqTids
      decide
    · obtain rfl := List.mem_singleton.mp hq
      revert hqGraph
      decide

end Unsharded

end PgCuvs
