import PgCuvs.Load

/-! What a load does: it evicts other indexes at most, and when it succeeds it
appends one entry made from the files it found. -/

namespace PgCuvs

variable (cfg : Config) (env : Env) {key : Key} {d d' : Daemon}

theorem Evictions.notResident (h : Evictions cfg d.resident d'.resident)
    (hkey : NotResident key d) : NotResident key d' := (h.frame hkey).1

theorem Evictions.disk (h : Evictions cfg d.resident d'.resident) (hkey : NotResident key d)
    (dir : Dir) : d'.disk dir key = d.disk dir key := (h.frame hkey).2 dir

section Closed

variable {cfg env} {R : Daemon → Daemon → Prop}

theorem EvictClosed.of_makeSlot (h : EvictClosed cfg env R) (d : Daemon) (device : ℕ) :
    R d (makeSlot cfg env d device) := by
  unfold makeSlot
  split_ifs
  · exact h.step d device
  · exact h.refl d

theorem EvictClosed.of_placeShard (h : EvictClosed cfg env R) (d : Daemon) (needed dev : ℕ) :
    R d (placeShard cfg env d needed dev).1 := by
  have hfirst := h.of_ensureVram d needed dev
  unfold placeShard
  rcases hvram : ensureVram cfg env d needed dev with ⟨d1, _ | _⟩
  · rw [hvram] at hfirst
    simp only
    cases halt : pickGpuForIndex cfg env d1 needed with
    | none => exact hfirst
    | some alt =>
      have hsecond := h.of_ensureVram d1 needed alt
      rcases hvram2 : ensureVram cfg env d1 needed alt with ⟨d2, _ | _⟩
      · rw [hvram2] at hsecond
        simpa only [hvram2] using h.trans hfirst hsecond
      · rw [hvram2] at hsecond
        simpa only [hvram2] using h.trans hfirst hsecond
  · rwa [hvram] at hfirst

theorem EvictClosed.of_loadShards (h : EvictClosed cfg env R) (d : Daemon) (i : ℕ)
    (recs : List ShardRecord) : R d (loadShards cfg env key i d recs).1 := by
  induction recs generalizing i d with
  | nil => exact h.refl d
  | cons r rs ih =>
    simp only [loadShards]
    have hplace := h.of_placeShard d (estimateVramBytes r.nVecs r.dim 64)
      (usableGpu cfg (i % nUsableGpus cfg))
    rcases hplaced : placeShard cfg env d (estimateVramBytes r.nVecs r.dim 64)
      (usableGpu cfg (i % nUsableGpus cfg)) with ⟨d1, _ | dev⟩
    · rwa [hplaced] at hplace
    · rw [hplaced] at hplace
      have hrest := h.trans hplace (ih d1 (i + 1))
      simp only
      split
      · exact hplace
      · split_ifs
        · exact hplace
        · exact hplace
        · rcases hload : loadShards cfg env key (i + 1) d1 rs with ⟨d2, _ | shards⟩
          · rwa [hload] at hrest
          · rwa [hload] at hrest

end Closed

theorem makeSlot_evictions (d : Daemon) (device : ℕ) :
    Evictions cfg d.resident (makeSlot cfg env d device).resident :=
  (evictClosed_evictions cfg env).of_makeSlot d device

theorem placeShard_evictions (d : Daemon) (needed dev : ℕ) :
    Evictions cfg d.resident (placeShard cfg env d needed dev).1.resident :=
  (evictClosed_evictions cfg env).of_placeShard d needed dev

structure ShardLoaded (a : Artifacts) (r : ShardRecord) (s : ShardEntry) : Prop where
  shardId : s.shardId = r.shardId
  tidOffset : s.tidOffset = r.tidOffset
  nVecs : s.nVecs = r.nVecs
  bfIdx : s.bfIdx = none
  graph : ∃ c, s.handle = some c ∧ a.shardCagra r.shardId = some c ∧
    cuvsCrc32 c.image = r.artifactCrc32

theorem loadShards_spec (hkey : NotResident key d) (i : ℕ) (recs : List ShardRecord) :
    Evictions cfg d.resident (loadShards cfg env key i d recs).1.resident ∧
      ∀ shards, (loadShards cfg env key i d recs).2 = .ok shards →
        List.Forall₂ (ShardLoaded (d.disk cfg.indexDir key)) recs shards := by
  induction recs generalizing i d with
  | nil =>
    refine ⟨Relation.ReflTransGen.refl, ?_⟩
    intro shards h
    obtain rfl := Except.ok.inj h
    exact List.Forall₂.nil
  | cons r rs ih =>
    simp only [loadShards]
    have hplace := placeShard_evictions cfg env d (estimateVramBytes r.nVecs r.dim 64)
      (usableGpu cfg (i % nUsableGpus cfg))
    rcases hplaced : placeShard cfg env d (estimateVramBytes r.nVecs r.dim 64)
      (usableGpu cfg (i % nUsableGpus cfg)) with ⟨d1, _ | dev⟩
    · rw [hplaced] at hplace
      exact ⟨hplace, by simp⟩
    · rw [hplaced] at hplace
      have hdisk := hplace.disk cfg hkey cfg.indexDir
      simp only at hdisk ⊢
      rw [hdisk]
      split
      · exact ⟨hplace, by simp⟩
      · rename_i c hc
        split_ifs with hcrc hdes
        · exact ⟨hplace, by simp⟩
        · exact ⟨hplace, by simp⟩
        · obtain ⟨hrest, hshards⟩ := ih (hplace.notResident cfg hkey) (i + 1)
          rcases hload : loadShards cfg env key (i + 1) d1 rs with ⟨d2, _ | shards⟩
          · rw [hload] at hrest
            exact ⟨hplace.trans hrest, by simp⟩
          · rw [hload, hdisk] at hshards
            rw [hload] at hrest
            refine ⟨hplace.trans hrest, ?_⟩
            intro out hout
            obtain rfl := Except.ok.inj hout
            exact List.Forall₂.cons ⟨rfl, rfl, rfl, rfl, c, rfl, hc, not_not.mp hcrc⟩
              (hshards shards rfl)

theorem loadShards_error {i : ℕ} {recs : List ShardRecord} {rc : LoadResult}
    (h : loadShards cfg env key i d recs = (d', .error rc)) : rc ≠ .loaded := by
  induction recs generalizing i d d' with
  | nil => cases h
  | cons r rs ih =>
    simp only [loadShards] at h
    rcases hplaced : placeShard cfg env d (estimateVramBytes r.nVecs r.dim 64)
      (usableGpu cfg (i % nUsableGpus cfg)) with ⟨d1, _ | dev⟩
    · rw [hplaced] at h
      cases h
      decide
    · rw [hplaced] at h
      simp only at h
      split at h
      · cases h
        decide
      · split_ifs at h
        · cases h
          decide
        · cases h
          decide
        · split at h
          · cases h
          · rename_i hrest
            cases h
            exact ih hrest

theorem loadShards_handles {i : ℕ} {recs : List ShardRecord} {shards : List ShardEntry}
    (h : loadShards cfg env key i d recs = (d', .ok shards)) : ∀ s ∈ shards, s.handle.isSome := by
  induction recs generalizing i d d' shards with
  | nil =>
    cases h
    exact fun _ hs => (nomatch hs)
  | cons r rs ih =>
    simp only [loadShards] at h
    rcases hplaced : placeShard cfg env d (estimateVramBytes r.nVecs r.dim 64)
      (usableGpu cfg (i % nUsableGpus cfg)) with ⟨d1, _ | dev⟩
    · rw [hplaced] at h
      cases h
    · rw [hplaced] at h
      simp only at h
      split at h
      · cases h
      · split_ifs at h
        · cases h
        · cases h
        · split at h
          · rename_i hrest
            cases h
            exact List.forall_mem_cons.mpr ⟨rfl, ih hrest⟩
          · cases h

theorem buildRevTidMap_field {β : Type*} (f : IndexEntry → β)
    (hf : ∀ e tids ids, f { e with revTids := tids, revItemIds := ids } = f e) (e : IndexEntry) :
    f (buildRevTidMap e) = f e := by
  unfold buildRevTidMap
  split_ifs
  · rfl
  · exact hf e _ _

section Fields

variable (e : IndexEntry)

@[simp] theorem buildRevTidMap_key : (buildRevTidMap e).key = e.key :=
  buildRevTidMap_field IndexEntry.key (fun _ _ _ => rfl) e

@[simp] theorem buildRevTidMap_nVecs : (buildRevTidMap e).nVecs = e.nVecs :=
  buildRevTidMap_field IndexEntry.nVecs (fun _ _ _ => rfl) e

@[simp] theorem buildRevTidMap_tids : (buildRevTidMap e).tids = e.tids :=
  buildRevTidMap_field IndexEntry.tids (fun _ _ _ => rfl) e

@[simp] theorem buildRevTidMap_handle : (buildRevTidMap e).handle = e.handle :=
  buildRevTidMap_field IndexEntry.handle (fun _ _ _ => rfl) e

@[simp] theorem buildRevTidMap_ivfpqHandle : (buildRevTidMap e).ivfpqHandle = e.ivfpqHandle :=
  buildRevTidMap_field IndexEntry.ivfpqHandle (fun _ _ _ => rfl) e

@[simp] theorem buildRevTidMap_hnswIdx : (buildRevTidMap e).hnswIdx = e.hnswIdx :=
  buildRevTidMap_field IndexEntry.hnswIdx (fun _ _ _ => rfl) e

end Fields

theorem restoreStale_eq (a : Artifacts) (e : IndexEntry) :
    restoreStale a e = { e with stale := a.stale.isSome, staleSince := a.stale.getD 0 } := by
  unfold restoreStale
  cases a.stale <;> rfl

def TidsAccepted (a : Artifacts) (thdr : TidsHeader) (t : List Tid) : Prop :=
  a.tids.bind cuvsTidsRead = some (thdr, t) ∧ thdr.dim ≠ 0

inductive LoadPlan (env : Env) (a : Artifacts) (key : Key) (thdr : TidsHeader) (tids : List Tid) :
    (IndexEntry → IndexEntry) → Prop
  | sharded {m : ShardsFile} {shdr : ShardsHeader} {recs : List ShardRecord}
      {shards : List ShardEntry} (hfile : a.shards = some m)
      (hread : cuvsShardsRead m = some (shdr, recs))
      (hcrc : shdr.baseTidsCrc32 = thdr.bodyCrc32)
      (hshape : shdr.nVecs = thdr.nVecs ∧ shdr.dim = thdr.dim ∧ shdr.metric = thdr.metric)
      (hshards : List.Forall₂ (ShardLoaded a) recs shards) :
      LoadPlan env a key thdr tids fun _ => initSharded env key thdr tids shards a
  | flat {gpu : ℕ} (hfile : a.shards = none) (hcagra : a.cagra = none) (hivfpq : a.ivfpq = none)
      (hvectors : a.vectors.isSome) :
      LoadPlan env a key thdr tids (initFlat env key thdr tids gpu a)
  | unsharded {graph : Cagra ⊕ IvfPq} {needed gpu : ℕ} (hfile : a.shards = none)
      (hgraph : deserializeIndex env a gpu = some graph) :
      LoadPlan env a key thdr tids (initUnsharded env key thdr tids graph needed gpu a)

def Registered (env : Env) (key : Key) (a : Artifacts) (d1 d' : Daemon) : Prop :=
  ∃ thdr tids init, TidsAccepted a thdr tids ∧ LoadPlan env a key thdr tids init ∧
    d' = { d1 with registry := d1.registry.append init }

/-- What a load may do to the daemon, by its result. -/
def LoadEffect (cfg : Config) (env : Env) (key : Key) (a : Artifacts) (d : Daemon)
    (p : Daemon × LoadResult) : Prop :=
  ∃ d1, Evictions cfg d.resident d1.resident ∧
    (p.2 ≠ .loaded ∧ p.1 = d1 ∨ p.2 = .loaded ∧ Registered env key a d1 p.1)

section Branches

variable {thdr : TidsHeader} {tids : List Tid}

theorem LoadEffect.failed {a : Artifacts} {d d1 : Daemon} {rc : LoadResult}
    (h : Evictions cfg d.resident d1.resident) (hrc : rc ≠ .loaded) : LoadEffect cfg env key a d (d1, rc) :=
  ⟨d1, h, .inl ⟨hrc, rfl⟩⟩

theorem loadIndexSharded_spec (hkey : NotResident key d)
    (hread : (d.disk cfg.indexDir key).tids.bind cuvsTidsRead = some (thdr, tids))
    (hdim : thdr.dim ≠ 0) :
    ((d.disk cfg.indexDir key).shards = none ∧
        loadIndexSharded cfg env d key thdr tids = (d, none)) ∨
      ∃ d' rc, loadIndexSharded cfg env d key thdr tids = (d', some rc) ∧
        LoadEffect cfg env key (d.disk cfg.indexDir key) d (d', rc) := by
  have hrefl : Evictions cfg d.resident d.resident := Relation.ReflTransGen.refl
  unfold loadIndexSharded
  cases hfile : (d.disk cfg.indexDir key).shards with
  | none => exact .inl ⟨rfl, rfl⟩
  | some m =>
    right
    simp only
    cases hm : cuvsShardsRead m with
    | none => exact ⟨_, _, rfl, LoadEffect.failed cfg env hrefl (by decide)⟩
    | some p =>
      obtain ⟨shdr, recs⟩ := p
      simp only
      split_ifs with hmatch hfull
      · exact ⟨_, _, rfl, LoadEffect.failed cfg env hrefl (by decide)⟩
      · exact ⟨_, _, rfl, LoadEffect.failed cfg env (makeSlot_evictions cfg env d _) (by decide)⟩
      · simp only [not_or, ne_eq, not_not] at hmatch
        have hslot := makeSlot_evictions cfg env d (usableGpu cfg 0)
        set d1 := makeSlot cfg env d (usableGpu cfg 0)
        obtain ⟨hshards, hloaded⟩ := loadShards_spec cfg env (hslot.notResident cfg hkey) 0 recs
        rw [hslot.disk cfg hkey] at hloaded
        rcases hout : loadShards cfg env key 0 d1 recs with ⟨d2, rc | shards⟩
        · rw [hout] at hshards
          refine ⟨_, _, rfl, LoadEffect.failed cfg env (hslot.trans hshards) ?_⟩
          exact loadShards_error cfg env hout
        · rw [hout] at hshards hloaded
          have hall : Evictions cfg d.resident d2.resident := hslot.trans hshards
          refine ⟨_, _, rfl, d2, hall, .inr ⟨rfl, thdr, tids, _, ⟨hread, hdim⟩, ?_, rfl⟩⟩
          rw [hall.disk cfg hkey]
          exact LoadPlan.sharded hfile hm hmatch.1 hmatch.2 (hloaded shards rfl)

theorem loadIndexFlat_spec (hkey : NotResident key d)
    (hread : (d.disk cfg.indexDir key).tids.bind cuvsTidsRead = some (thdr, tids))
    (hdim : thdr.dim ≠ 0) (hshards : (d.disk cfg.indexDir key).shards = none)
    (hflat : (d.disk cfg.indexDir key).cagra.isNone ∧ (d.disk cfg.indexDir key).ivfpq.isNone ∧
      (d.disk cfg.indexDir key).vectors.isSome) :
    LoadEffect cfg env key (d.disk cfg.indexDir key) d (loadIndexFlat cfg env d key thdr tids) := by
  simp only [loadIndexFlat]
  set gpu := (pickGpuForIndex cfg env d 0).getD (usableGpu cfg 0)
  have hslot := makeSlot_evictions cfg env d gpu
  split_ifs
  · exact LoadEffect.failed cfg env hslot (by decide)
  · refine ⟨_, hslot, .inr ⟨rfl, thdr, tids, _, ⟨hread, hdim⟩, ?_, rfl⟩⟩
    rw [hslot.disk cfg hkey]
    obtain ⟨hcagra, hivfpq, hvectors⟩ := hflat
    exact LoadPlan.flat hshards (by simpa using hcagra) (by simpa using hivfpq) hvectors

theorem loadIndexUnsharded_spec (hkey : NotResident key d)
    (hread : (d.disk cfg.indexDir key).tids.bind cuvsTidsRead = some (thdr, tids))
    (hdim : thdr.dim ≠ 0) (hshards : (d.disk cfg.indexDir key).shards = none) :
    LoadEffect cfg env key (d.disk cfg.indexDir key) d
      (loadIndexUnsharded cfg env d key thdr tids) := by
  simp only [loadIndexUnsharded]
  cases hpick : pickGpuForIndex cfg env d (estimateVramBytes thdr.nVecs thdr.dim 64) with
  | none => exact LoadEffect.failed cfg env Relation.ReflTransGen.refl (by decide)
  | some gpu =>
    have hvram := ensureVram_evictions cfg env d (estimateVramBytes thdr.nVecs thdr.dim 64) gpu
    simp only
    rcases hensure : ensureVram cfg env d (estimateVramBytes thdr.nVecs thdr.dim 64) gpu
      with ⟨d1, _ | _⟩
    · rw [hensure] at hvram
      exact LoadEffect.failed cfg env hvram (by decide)
    · rw [hensure] at hvram
      have hdisk := hvram.disk cfg hkey cfg.indexDir
      simp only at hdisk ⊢
      rw [hdisk]
      cases hgraph : deserializeIndex env (d.disk cfg.indexDir key) gpu with
      | none => exact LoadEffect.failed cfg env hvram (by decide)
      | some graph =>
        have hslot : Evictions cfg d.resident (makeSlot cfg env d1 gpu).resident :=
          hvram.trans (makeSlot_evictions cfg env d1 gpu)
        simp only
        split_ifs
        · exact LoadEffect.failed cfg env hslot (by decide)
        · refine ⟨_, hslot, .inr ⟨rfl, thdr, tids, _, ⟨hread, hdim⟩, ?_, rfl⟩⟩
          rw [hslot.disk cfg hkey]
          exact LoadPlan.unsharded hshards hgraph

end Branches

theorem loadIndex_spec (hkey : NotResident key d) :
    LoadEffect cfg env key (d.disk cfg.indexDir key) d (loadIndex cfg env d key) := by
  unfold loadIndex
  cases hread : (d.disk cfg.indexDir key).tids.bind cuvsTidsRead with
  | none => exact LoadEffect.failed cfg env Relation.ReflTransGen.refl (by decide)
  | some p =>
    obtain ⟨thdr, tids⟩ := p
    simp only
    split_ifs with hdim
    · exact LoadEffect.failed cfg env Relation.ReflTransGen.refl (by decide)
    · rcases loadIndexSharded_spec cfg env hkey hread hdim with
        ⟨hshards, hnone⟩ | ⟨d', rc, hsome, heffect⟩
      · rw [hnone]
        simp only
        split_ifs with hflat
        · exact loadIndexFlat_spec cfg env hkey hread hdim hshards hflat
        · exact loadIndexUnsharded_spec cfg env hkey hread hdim hshards
      · rw [hsome]
        exact heffect

end PgCuvs
