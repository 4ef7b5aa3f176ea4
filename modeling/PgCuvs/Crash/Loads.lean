import Mathlib.Algebra.Order.BigOperators.Group.List
import Mathlib.Algebra.Order.Group.Nat
import PgCuvs.Crash.History

/-! Which pairs of a TID array and a graph a load registers from given files,
over every environment the load may run in. -/

namespace PgCuvs

/-- The graphs of the shard files a manifest lists, each with the checksum the
manifest has for it. -/
def ShardFiles (a : Artifacts) : List ShardRecord → List Cagra → Prop :=
  List.Forall₂ fun r c => a.shardCagra r.shardId = some c ∧ cuvsCrc32 c.image = r.artifactCrc32

def ManifestAccepted (a : Artifacts) (thdr : TidsHeader) (recs : List ShardRecord) : Prop :=
  ∃ m shdr, a.shards = some m ∧ cuvsShardsRead m = some (shdr, recs) ∧
    shdr.baseTidsCrc32 = thdr.bodyCrc32 ∧
    (shdr.nVecs = thdr.nVecs ∧ shdr.dim = thdr.dim ∧ shdr.metric = thdr.metric)

inductive Loads (a : Artifacts) : List Tid → GraphFile → Prop
  | sharded {thdr : TidsHeader} {t : List Tid} {recs : List ShardRecord} {graphs : List Cagra}
      (htids : TidsAccepted a thdr t) (hmanifest : ManifestAccepted a thdr recs)
      (hgraphs : ShardFiles a recs graphs) : Loads a t (.sharded (graphs.map some))
  | cagra {thdr : TidsHeader} {t : List Tid} {g : Cagra} (htids : TidsAccepted a thdr t)
      (hfile : a.shards = none) (hgraph : a.cagra = some g) : Loads a t (.cagra g)
  | ivfpq {thdr : TidsHeader} {t : List Tid} {p : IvfPq} (htids : TidsAccepted a thdr t)
      (hfile : a.shards = none) (hgraph : a.ivfpq = some p) : Loads a t (.ivfpq p)
  | flat {thdr : TidsHeader} {t : List Tid} (htids : TidsAccepted a thdr t)
      (hfile : a.shards = none) (hcagra : a.cagra = none) (hivfpq : a.ivfpq = none)
      (hvectors : a.vectors.isSome) : Loads a t .flat

section Sound

variable {a : Artifacts} {recs : List ShardRecord} {shards : List ShardEntry}

theorem ShardFiles.of_loaded (h : List.Forall₂ (ShardLoaded a) recs shards) :
    ∃ graphs, ShardFiles a recs graphs ∧ shards.map ShardEntry.handle = graphs.map some := by
  induction h with
  | nil => exact ⟨[], List.Forall₂.nil, rfl⟩
  | cons hr _ ih =>
    obtain ⟨graphs, hfiles, hhandles⟩ := ih
    obtain ⟨c, hhandle, hfile, hcrc⟩ := hr.graph
    refine ⟨c :: graphs, List.Forall₂.cons ⟨hfile, hcrc⟩ hfiles, ?_⟩
    rw [List.map_cons, List.map_cons, hhandle, hhandles]

variable (env : Env) (key : Key) (thdr : TidsHeader) (t : List Tid)

theorem initSharded_fields (shards : List ShardEntry) (a : Artifacts) :
    let e := initSharded env key thdr t shards a
    e.key = key ∧ e.tids = t ∧ e.shards = shards := by
  simp only [initSharded, restoreStale_eq, resetEntryStats, buildRevTidMap_key,
    buildRevTidMap_tids, and_self]

theorem initFlat_fields (gpu : ℕ) (a : Artifacts) (slot : IndexEntry) :
    let e := initFlat env key thdr t gpu a slot
    e.key = key ∧ e.tids = t ∧ e.graphFile = .flat := by
  simp only [initFlat, restoreStale_eq, resetEntryStats, clearMainBfFields, clearDeltaFields,
    IndexEntry.graphFile, buildRevTidMap_key, buildRevTidMap_tids, buildRevTidMap_handle,
    buildRevTidMap_ivfpqHandle, ne_eq, not_true_eq_false, if_false, and_self]

theorem initUnsharded_fields (graph : Cagra ⊕ IvfPq) (needed gpu : ℕ) (a : Artifacts)
    (slot : IndexEntry) :
    let e := initUnsharded env key thdr t graph needed gpu a slot
    e.key = key ∧ e.tids = t ∧ e.graphFile = graph.elim GraphFile.cagra GraphFile.ivfpq := by
  simp only [initUnsharded, restoreStale_eq, resetEntryStats, clearMainBfFields, clearDeltaFields,
    IndexEntry.graphFile, buildRevTidMap_key, buildRevTidMap_tids, buildRevTidMap_handle,
    buildRevTidMap_ivfpqHandle, ne_eq, not_true_eq_false, if_false, true_and]
  cases graph <;> rfl

theorem deserializeIndex_eq_some {env : Env} {a : Artifacts} {gpu : ℕ} {graph : Cagra ⊕ IvfPq}
    (h : deserializeIndex env a gpu = some graph) :
    (∃ g, graph = .inl g ∧ a.cagra = some g) ∨ ∃ p, graph = .inr p ∧ a.ivfpq = some p := by
  unfold deserializeIndex at h
  split at h
  · rename_i c hc
    have hfile := (Option.filter_eq_some_iff.mp hc).1
    exact .inl ⟨c, (Option.some.inj h).symm, hfile⟩
  · obtain ⟨p, hp, rfl⟩ := Option.map_eq_some_iff.mp h
    exact .inr ⟨p, rfl, (Option.filter_eq_some_iff.mp hp).1⟩

theorem LoadPlan.loads {env : Env} {a : Artifacts} {key : Key} {thdr : TidsHeader} {t : List Tid}
    {init : IndexEntry → IndexEntry} (htids : TidsAccepted a thdr t)
    (h : LoadPlan env a key thdr t init) (slot : IndexEntry) :
    (init slot).key = key ∧ Loads a (init slot).tids (init slot).graphFile := by
  cases h with
  | sharded hfile hread hcrc hshape hshards =>
    rename_i shards
    obtain ⟨hkey, ht, hentry⟩ := initSharded_fields env key thdr t shards a
    obtain ⟨graphs, hfiles, hhandles⟩ := ShardFiles.of_loaded hshards
    have hpos : shards ≠ [] := by
      rintro rfl
      obtain ⟨-, -, hlen, hcount, -⟩ := cuvsShardsRead_eq_some hread
      have hnil := hshards.length_eq
      simp only [List.length_nil] at hnil
      omega
    have hgraph : (initSharded env key thdr t shards a).graphFile
        = .sharded (graphs.map some) := by
      unfold IndexEntry.graphFile
      rw [hentry, if_pos hpos, hhandles]
    refine ⟨hkey, ?_⟩
    rw [ht, hgraph]
    exact Loads.sharded htids ⟨_, _, hfile, hread, hcrc, hshape⟩ hfiles
  | flat hfile hcagra hivfpq hvectors =>
    rename_i gpu
    obtain ⟨hkey, ht, hgraph⟩ := initFlat_fields env key thdr t gpu a slot
    refine ⟨hkey, ?_⟩
    rw [ht, hgraph]
    exact Loads.flat htids hfile hcagra hivfpq hvectors
  | unsharded hfile hgraph =>
    rename_i graph needed gpu
    obtain ⟨hkey, ht, hentry⟩ := initUnsharded_fields env key thdr t graph needed gpu a slot
    refine ⟨hkey, ?_⟩
    rw [ht, hentry]
    rcases deserializeIndex_eq_some hgraph with ⟨g, rfl, hg⟩ | ⟨p, rfl, hp⟩
    · exact Loads.cagra htids hfile hg
    · exact Loads.ivfpq htids hfile hp

theorem loadIndex_loads {cfg : Config} {env : Env} {key : Key} {d d' : Daemon}
    (hkey : NotResident key d) (hload : loadIndex cfg env d key = (d', .loaded)) :
    ∃ e, d'.live.getLast? = some e ∧ e.key = key ∧
      Loads (d.disk cfg.indexDir key) e.tids e.graphFile := by
  obtain ⟨d1, -, ⟨hfail, -⟩ | ⟨-, hreg⟩⟩ := loadIndex_spec cfg env hkey
  · rw [hload] at hfail
    exact absurd rfl hfail
  · rw [hload] at hreg
    obtain ⟨thdr, t, init, hread, hplan, hd'⟩ := hreg
    refine ⟨init (d1.registry.tail.headD IndexEntry.zero), ?_, ?_⟩
    · simp only at hd'
      rw [hd', Daemon.live, Registry.append_live, List.getLast?_concat]
    · exact hplan.loads hread _

end Sound

section Complete

def loadConfig (dir : Dir) : Config where
  indexDir := dir
  maxIndexes := 1
  nGpus := 1
  allowedGpus := []
  snapshotUri := ""

variable {env : Env} {free : ℕ} {dir : Dir} {key : Key} {disk : Disk} {thdr : TidsHeader}
  {t : List Tid}

def freshDaemon (disk : Disk) : Daemon := Daemon.initial (fun _ => 0) disk

theorem ensureVram_fresh (dir : Dir) (disk : Disk) (hfree : ∀ l g, env.freeVram l g = free) {needed : ℕ}
    (hneeded : needed ≤ free) (device : ℕ) :
    ensureVram (loadConfig dir) env (freshDaemon disk) needed device = (freshDaemon disk, true) := by
  have hroom : decide (needed ≤ env.freeVram (freshDaemon disk).live device) = true := by
    rw [hfree]
    exact decide_eq_true hneeded
  simp only [ensureVram]
  rw [if_neg (by simp [freshDaemon, Daemon.initial]), if_neg (by simp [freshDaemon, Daemon.initial])]
  rw [← hroom]
  rfl

theorem pickGpuForIndex_fresh (needed : ℕ) :
    pickGpuForIndex (loadConfig dir) env (freshDaemon disk) needed = some 0 := rfl

theorem loadShards_fresh (hfree : ∀ l g, env.freeVram l g = free)
    (hdes : ∀ c g, env.cagraDeserializes c g = true) {recs : List ShardRecord}
    {graphs : List Cagra} (hgraphs : ShardFiles (disk dir key) recs graphs)
    (hneeded : ∀ r ∈ recs, estimateVramBytes r.nVecs r.dim 64 ≤ free) (i : ℕ) :
    ∃ shards, loadShards (loadConfig dir) env key i (freshDaemon disk) recs
        = (freshDaemon disk, .ok shards) ∧ shards.map ShardEntry.handle = graphs.map some := by
  induction hgraphs generalizing i with
  | nil => exact ⟨[], rfl, rfl⟩
  | @cons r c recs graphs hfile _ ih =>
    obtain ⟨shards, hrest, hhandles⟩ := ih (fun r hr => hneeded r (List.mem_cons_of_mem _ hr)) (i + 1)
    have hroom := ensureVram_fresh dir disk hfree (hneeded r List.mem_cons_self)
      (usableGpu (loadConfig dir) (i % nUsableGpus (loadConfig dir)))
    have hshard : ((freshDaemon disk).disk (loadConfig dir).indexDir key).shardCagra r.shardId
        = some c := hfile.1
    simp only [loadShards, placeShard, hroom, hshard, hfile.2, hdes, hrest, ne_eq, not_true_eq_false,
      if_false, Bool.not_true, Bool.false_eq_true]
    refine ⟨_, rfl, ?_⟩
    rw [List.map_cons, List.map_cons, hhandles]

def RegistersLast (dir : Dir) (disk : Disk) (env : Env) (key : Key) (t : List Tid)
    (g : GraphFile) : Prop :=
  ∃ d' e, loadIndex (loadConfig dir) env (freshDaemon disk) key = (d', .loaded) ∧
    d'.live.getLast? = some e ∧ e.tids = t ∧ e.graphFile = g

theorem registersLast_of (init : IndexEntry → IndexEntry) {g : GraphFile}
    (hload : loadIndex (loadConfig dir) env (freshDaemon disk) key
      = ({ freshDaemon disk with registry := (freshDaemon disk).registry.append init }, .loaded))
    (ht : (init IndexEntry.zero).tids = t) (hg : (init IndexEntry.zero).graphFile = g) :
    RegistersLast dir disk env key t g :=
  ⟨_, init IndexEntry.zero, hload, rfl, ht, hg⟩

theorem registersLast_sharded (hfree : ∀ l g, env.freeVram l g = free)
    (hdes : ∀ c g, env.cagraDeserializes c g = true) {recs : List ShardRecord}
    {graphs : List Cagra} (htids : TidsAccepted (disk dir key) thdr t)
    (hmanifest : ManifestAccepted (disk dir key) thdr recs)
    (hgraphs : ShardFiles (disk dir key) recs graphs)
    (hneeded : ∀ r ∈ recs, estimateVramBytes r.nVecs r.dim 64 ≤ free) :
    RegistersLast dir disk env key t (.sharded (graphs.map some)) := by
  obtain ⟨m, shdr, hfile, hread, hcrc, hn, hdim, hmetric⟩ := hmanifest
  obtain ⟨shards, hshards, hhandles⟩ := loadShards_fresh hfree hdes hgraphs hneeded 0
  obtain ⟨-, ht, hentry⟩ := initSharded_fields env key thdr t shards (disk dir key)
  have hread' : (((freshDaemon disk).disk (loadConfig dir).indexDir key).tids.bind cuvsTidsRead)
      = some (thdr, t) := htids.1
  have hfile' : ((freshDaemon disk).disk (loadConfig dir).indexDir key).shards = some m := hfile
  have hslot : makeSlot (loadConfig dir) env (freshDaemon disk) (usableGpu (loadConfig dir) 0)
      = freshDaemon disk := rfl
  have hnone : ¬(shdr.baseTidsCrc32 ≠ thdr.bodyCrc32 ∨ shdr.nVecs ≠ thdr.nVecs ∨
      shdr.dim ≠ thdr.dim ∨ shdr.metric ≠ thdr.metric) := by
    simp [hcrc, hn, hdim, hmetric]
  have hroom : ¬(loadConfig dir).maxIndexes ≤ (freshDaemon disk).live.length := by
    simp [loadConfig, freshDaemon, Daemon.initial, Daemon.live]
  have hpos : shards ≠ [] := by
    rintro rfl
    obtain ⟨-, -, hlen, hcount, -⟩ := cuvsShardsRead_eq_some hread
    have hnil : graphs = [] := by simpa using hhandles.symm
    have hempty := hgraphs.length_eq
    rw [hnil, List.length_nil] at hempty
    omega
  refine registersLast_of (fun _ => initSharded env key thdr t shards (disk dir key)) ?_ ht ?_
  · simp only [loadIndex, hread', loadIndexSharded, hfile', hread, if_neg hnone, hslot,
      if_neg hroom, hshards, if_neg htids.2]
    rfl
  · unfold IndexEntry.graphFile
    rw [hentry, if_pos hpos, hhandles]

theorem loadIndex_fresh (hread : TidsAccepted (disk dir key) thdr t)
    (hfile : (disk dir key).shards = none) :
    loadIndex (loadConfig dir) env (freshDaemon disk) key
      = if (disk dir key).cagra.isNone ∧ (disk dir key).ivfpq.isNone ∧ (disk dir key).vectors.isSome
        then loadIndexFlat (loadConfig dir) env (freshDaemon disk) key thdr t
        else loadIndexUnsharded (loadConfig dir) env (freshDaemon disk) key thdr t := by
  have hread' : (((freshDaemon disk).disk (loadConfig dir).indexDir key).tids.bind cuvsTidsRead)
      = some (thdr, t) := hread.1
  have hfile' : ((freshDaemon disk).disk (loadConfig dir).indexDir key).shards = none := hfile
  simp only [loadIndex, hread', if_neg hread.2, loadIndexSharded, hfile']
  rfl

theorem registersLast_unsharded (hfree : ∀ l g, env.freeVram l g = free)
    (htids : TidsAccepted (disk dir key) thdr t) (hfile : (disk dir key).shards = none)
    {graph : Cagra ⊕ IvfPq} (hgraph : deserializeIndex env (disk dir key) 0 = some graph)
    (hneeded : estimateVramBytes thdr.nVecs thdr.dim 64 ≤ free) :
    RegistersLast dir disk env key t (graph.elim GraphFile.cagra GraphFile.ivfpq) := by
  have hnotFlat : ¬((disk dir key).cagra.isNone ∧ (disk dir key).ivfpq.isNone ∧
      (disk dir key).vectors.isSome) := by
    rintro ⟨hcagra, hivfpq, -⟩
    rcases deserializeIndex_eq_some hgraph with ⟨g, -, hg⟩ | ⟨p, -, hp⟩
    · simp [hg] at hcagra
    · simp [hp] at hivfpq
  have hgraph' : deserializeIndex env ((freshDaemon disk).disk (loadConfig dir).indexDir key) 0
      = some graph := hgraph
  have hroom := ensureVram_fresh dir disk hfree hneeded 0
  obtain ⟨-, ht, hentry⟩ := initUnsharded_fields env key thdr t graph
    (estimateVramBytes thdr.nVecs thdr.dim 64) 0 (disk dir key) IndexEntry.zero
  refine registersLast_of _ ?_ ht hentry
  rw [loadIndex_fresh htids hfile, if_neg hnotFlat]
  simp only [loadIndexUnsharded, pickGpuForIndex_fresh, hroom, hgraph']
  rfl

theorem registersLast_flat (htids : TidsAccepted (disk dir key) thdr t)
    (hfile : (disk dir key).shards = none) (hcagra : (disk dir key).cagra = none)
    (hivfpq : (disk dir key).ivfpq = none) (hvectors : (disk dir key).vectors.isSome) :
    RegistersLast dir disk env key t .flat := by
  have hflat : (disk dir key).cagra.isNone ∧ (disk dir key).ivfpq.isNone ∧
      (disk dir key).vectors.isSome := by
    rw [hcagra, hivfpq]
    exact ⟨rfl, rfl, hvectors⟩
  obtain ⟨-, ht, hgraph⟩ := initFlat_fields env key thdr t 0 (disk dir key) IndexEntry.zero
  refine registersLast_of _ ?_ ht hgraph
  rw [loadIndex_fresh htids hfile, if_pos hflat]
  rfl

theorem Loads.registersLast {g : GraphFile} (h : Loads (disk dir key) t g) :
    ∃ env, RegistersLast dir disk env key t g := by
  cases h with
  | @sharded thdr t recs graphs htids hmanifest hgraphs =>
    refine ⟨Env.quiet 0 (recs.map fun r => estimateVramBytes r.nVecs r.dim 64).sum, ?_⟩
    refine registersLast_sharded (fun _ _ => rfl) (fun _ _ => rfl) htids hmanifest hgraphs ?_
    intro r hr
    exact List.single_le_sum (by simp) _ (List.mem_map_of_mem hr)
  | @cagra thdr t g htids hfile hgraph =>
    refine ⟨Env.quiet 0 (estimateVramBytes thdr.nVecs thdr.dim 64), ?_⟩
    have hdes : deserializeIndex (Env.quiet 0 (estimateVramBytes thdr.nVecs thdr.dim 64))
        (disk dir key) 0 = some (.inl g) := by
      unfold deserializeIndex
      rw [hgraph]
      rfl
    exact registersLast_unsharded (fun _ _ => rfl) htids hfile hdes le_rfl
  | @ivfpq thdr t p htids hfile hgraph =>
    -- the loader falls back to `.ivfpq` when the CAGRA file does not deserialize
    let env := { Env.quiet 0 (estimateVramBytes thdr.nVecs thdr.dim 64) with
      cagraDeserializes := fun _ _ => false }
    have hdes : deserializeIndex env (disk dir key) 0 = some (.inr p) := by
      cases hcagra : (disk dir key).cagra <;> simp [deserializeIndex, hcagra, hgraph, env, Env.quiet]
    exact ⟨env, registersLast_unsharded (fun _ _ => rfl) htids hfile hdes le_rfl⟩
  | flat htids hfile hcagra hivfpq hvectors =>
    exact ⟨Env.quiet 0 0, registersLast_flat htids hfile hcagra hivfpq hvectors⟩

end Complete

end PgCuvs
