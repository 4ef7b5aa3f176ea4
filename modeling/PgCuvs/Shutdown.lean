import PgCuvs.Reload

/-! The daemon goes down on SIGTERM and comes up again. Each graph is on disk when it goes down,
and from then on it is resident or on disk, whatever the start loads, evicts or fails to save. -/

namespace PgCuvs

section Shutdown

/-- `graceful_shutdown`: an entry that cannot be saved does not keep the others from it. -/
def gracefulShutdown (cfg : Config) (env : Env) (d : Daemon) : Disk :=
  d.live.foldl (fun disk e => (saveIndex cfg env disk e).1) d.disk

end Shutdown

/-- The files of a graph that its entry can come back from. -/
structure SavedAs (e : IndexEntry) (a : Artifacts) : Prop where
  tids : a.tids = some (cuvsTidsWrite e.dim e.metric e.tids)
  cagra : a.cagra = e.handle
  manifest : a.shards = none
  stale : a.stale.isSome = e.stale

/-- A graph is resident under its key, or in its files. -/
structure Kept (cfg : Config) (e : IndexEntry) (r : Resident) : Prop where
  entries : ∀ x ∈ r.1.live, x.key = e.key → ReloadedAs e x ∧ needsSave x = true
  manifest : (r.2 cfg.indexDir e.key).shards = none
  stale : (r.2 cfg.indexDir e.key).stale.isSome = e.stale
  saved : (∀ x ∈ r.1.live, x.key ≠ e.key) → SavedAs e (r.2 cfg.indexDir e.key)

variable {cfg : Config} {env : Env} {d : Daemon} {e x : IndexEntry} {a : Artifacts} {g : Cagra}
  {r r' : Resident}

section Save

theorem saveIndex_of_key_ne (disk : Disk) {key : Key} (h : key ≠ x.key) (dir : Dir) :
    (saveIndex cfg env disk x).1 dir key = disk dir key := by
  rw [saveIndex]
  cases x.handle with
  | none => rfl
  | some g => exact Disk.modify_of_key_ne _ _ h

theorem foldl_saveIndex_of_key_ne {key : Key} (live : List IndexEntry) (disk : Disk)
    (h : ∀ x ∈ live, key ≠ x.key) (dir : Dir) :
    (live.foldl (fun disk x => (saveIndex cfg env disk x).1) disk) dir key = disk dir key := by
  induction live generalizing disk with
  | nil => rfl
  | cons x live ih =>
    rw [List.foldl_cons, ih _ fun y hy => h y (List.mem_cons_of_mem x hy)]
    exact saveIndex_of_key_ne disk (h x List.mem_cons_self) dir

theorem saveEntryOps_marks (fault : Option SaveFault) :
    (runFileOps (saveEntryOps fault x g).1 a).shards = a.shards ∧
      (runFileOps (saveEntryOps fault x g).1 a).stale = a.stale :=
  ⟨saveEntryOps_field (f := Artifacts.shards) (fun _ _ => rfl) (fun _ _ => rfl) fault x g a,
    saveEntryOps_field (f := Artifacts.stale) (fun _ _ => rfl) (fun _ _ => rfl) fault x g a⟩

/-- The save of an entry that stands for a graph writes the files of that graph. -/
theorem ReloadedAs.saved (h : ReloadedAs e x) (hrows : e.tids.length = e.nVecs)
    (hg : x.handle = some g) (hmanifest : a.shards = none) (hstale : a.stale.isSome = e.stale) :
    SavedAs e (runFileOps (saveEntryOps none x g).1 a) := by
  obtain ⟨hshards, hmark⟩ := saveEntryOps_marks (x := x) (g := g) (a := a) none
  have htake : x.tids.take x.nVecs = e.tids := by
    rw [h.tids, h.nVecs, ← hrows, List.take_length]
  refine ⟨?_, ?_, hshards.trans hmanifest, hmark ▸ hstale⟩
  · rw [← htake, ← h.dim, ← h.metric]
    rfl
  · rw [← h.handle, hg]
    rfl

end Save

section Kept

theorem Kept.of_same {reg reg' : Registry} {disk disk' : Disk} (h : Kept cfg e (reg, disk))
    (hfiles : disk' cfg.indexDir e.key = disk cfg.indexDir e.key)
    (hlive : ∀ x, x.key = e.key → (x ∈ reg'.live ↔ x ∈ reg.live)) : Kept cfg e (reg', disk') := by
  have hdisk : (reg', disk').2 cfg.indexDir e.key = disk cfg.indexDir e.key := hfiles
  refine ⟨fun x hx hkey => h.entries x ((hlive x hkey).mp hx) hkey, ?_, ?_, fun hgone => ?_⟩
  · rw [hdisk]
    exact h.manifest
  · rw [hdisk]
    exact h.stale
  · rw [hdisk]
    exact h.saved fun x hx hkey => hgone x ((hlive x hkey).mpr hx) hkey

theorem mem_removeIdx_of_key_ne {reg : Registry} {i : ℕ} {freed : IndexEntry}
    (hi : reg.live[i]? = some x) (hother : x.key ≠ e.key) {y : IndexEntry} (hkey : y.key = e.key) :
    y ∈ (reg.removeIdx i freed).live ↔ y ∈ reg.live := by
  refine ⟨mem_live_removeIdx, fun hy => ?_⟩
  obtain ⟨j, hj⟩ := List.getElem?_of_mem hy
  have hij : j ≠ i := by
    intro hij
    rw [hij, hi] at hj
    cases hj
    exact hother hkey
  exact List.mem_eraseIdx_iff_getElem?.mpr ⟨j, hij, hj⟩

theorem Kept.step (hrows : e.tids.length = e.nVecs) (h : Kept cfg e r)
    (hstep : Eviction cfg r r') : Kept cfg e r' := by
  cases hstep with
  | @drop reg disk i device x hi hdev hneeds =>
    -- what is dropped unsaved is not a graph
    have hother : x.key ≠ e.key := by
      intro hkey
      have hsaved := (h.entries x (List.mem_of_getElem? hi) hkey).2
      rw [hneeds] at hsaved
      cases hsaved
    exact h.of_same rfl fun y hkey => mem_removeIdx_of_key_ne hi hother hkey
  | @saved reg disk i device x g hi hdev hneeds hg =>
    by_cases hkey : x.key = e.key
    · have hfiles := (h.entries x (List.mem_of_getElem? hi) hkey).1.saved hrows hg h.manifest h.stale
      have hdisk : disk.modify cfg.indexDir x.key (runFileOps (saveEntryOps none x g).1)
          cfg.indexDir e.key = runFileOps (saveEntryOps none x g).1 (disk cfg.indexDir e.key) := by
        rw [hkey, Disk.modify_same]
      have hsaved : SavedAs e (disk.modify cfg.indexDir x.key
          (runFileOps (saveEntryOps none x g).1) cfg.indexDir e.key) := by
        rw [hdisk]
        exact hfiles
      exact ⟨fun y hy => h.entries y (mem_live_removeIdx hy), hsaved.manifest, hsaved.stale,
        fun _ => hsaved⟩
    · exact h.of_same (Disk.modify_of_key_ne _ _ fun hsame => hkey hsame.symm)
        fun y hyk => mem_removeIdx_of_key_ne hi hkey hyk
  | @failed reg disk i x g fault hi hneeds hg =>
    by_cases hkey : x.key = e.key
    · -- the files may be gone, but the entry stays
      obtain ⟨hshards, hmark⟩ :=
        saveEntryOps_marks (x := x) (g := g) (a := disk cfg.indexDir e.key) (some fault)
      have hdisk : disk.modify cfg.indexDir x.key (runFileOps (saveEntryOps (some fault) x g).1)
          cfg.indexDir e.key =
            runFileOps (saveEntryOps (some fault) x g).1 (disk cfg.indexDir e.key) := by
        rw [hkey, Disk.modify_same]
      refine ⟨h.entries, ?_, ?_, fun hgone => absurd hkey (hgone x (List.mem_of_getElem? hi))⟩
      · exact (congrArg Artifacts.shards hdisk).trans (hshards.trans h.manifest)
      · show (disk.modify _ _ _ _ _).stale.isSome = e.stale
        rw [hdisk, hmark]
        exact h.stale
    · exact h.of_same (Disk.modify_of_key_ne _ _ fun hsame => hkey hsame.symm) fun _ _ => Iff.rfl

theorem Kept.evictions (hrows : e.tids.length = e.nVecs) (hsteps : Evictions cfg r r')
    (h : Kept cfg e r) : Kept cfg e r' := by
  induction hsteps with
  | refl => exact h
  | tail _ hstep ih => exact ih.step hrows hstep

end Kept

section Loads

variable {thdr : TidsHeader} {tids : List Tid} {init : IndexEntry → IndexEntry} {key : Key}

structure Sound (e : IndexEntry) : Prop where
  rows : e.tids.length = e.nVecs
  pos : 0 < e.nVecs
  max : e.nVecs ≤ tidsMaxVecs
  dim : e.dim ≠ 0

theorem SavedAs.accepted (h : SavedAs e a) (he : Sound e) :
    TidsAccepted a (cuvsTidsWrite e.dim e.metric e.tids).header e.tids := by
  have hne : e.tids ≠ [] := List.ne_nil_of_length_pos (he.rows.symm ▸ he.pos)
  have hread : cuvsTidsRead (cuvsTidsWrite e.dim e.metric e.tids) = _ :=
    cuvsTidsRead_write hne (he.rows.symm ▸ he.max)
  refine ⟨?_, he.dim⟩
  rw [h.tids]
  exact hread

/-- What is loaded from the files of a graph is that graph. -/
theorem SavedAs.loaded (h : SavedAs e a) (he : Sound e) (hg : e.handle = some g)
    (hgraph : ∀ gpu, env.cagraDeserializes g gpu = true) (htids : TidsAccepted a thdr tids)
    (hplan : LoadPlan env a e.key thdr tids init) (slot : IndexEntry) :
    ReloadedAs e (init slot) ∧ needsSave (init slot) = true := by
  have hsame := (h.accepted he).1.symm.trans htids.1
  obtain ⟨rfl, rfl⟩ := Prod.mk.inj (Option.some.inj hsame)
  have hcagra : a.cagra = some g := h.cagra.trans hg
  cases hplan with
  | sharded hfile =>
    rw [h.manifest] at hfile
    cases hfile
  | flat hfile hnone =>
    rw [hcagra] at hnone
    cases hnone
  | @unsharded graph needed gpu hfile hfound =>
    have hfilter : a.cagra.filter (fun c => env.cagraDeserializes c gpu) = some g :=
      Option.filter_eq_some_iff.mpr ⟨hcagra, hgraph gpu⟩
    rw [deserializeIndex, hfilter] at hfound
    obtain rfl := Option.some.inj hfound
    have hn : (cuvsTidsWrite e.dim e.metric e.tids).header.nVecs = e.nVecs := he.rows
    set thdr := (cuvsTidsWrite e.dim e.metric e.tids).header
    have hview : reloadView (initUnsharded env e.key thdr e.tids (.inl g) needed gpu a slot) = _ :=
      initUnsharded_view g needed gpu slot
    have hmetric : (initUnsharded env e.key thdr e.tids (.inl g) needed gpu a slot).metric = _ :=
      initUnsharded_metric needed gpu a slot
    rw [hn, h.stale] at hview
    simp only [reloadView, Prod.mk.injEq] at hview
    obtain ⟨⟨hkey, hhandle, hsave⟩, ⟨htids', hn', hdim'⟩, -, -, hstale'⟩ := hview
    exact ⟨⟨hkey, hdim', hmetric, hn', htids', hhandle.trans hg.symm, hstale'⟩, hsave⟩

theorem Kept.loadIndex (h : Kept cfg e d.resident) (he : Sound e) (hg : e.handle = some g)
    (hgraph : ∀ gpu, env.cagraDeserializes g gpu = true) (hmissing : NotResident key d) :
    Kept cfg e (loadIndex cfg env d key).1.resident := by
  obtain ⟨d1, hevict, ⟨-, heq⟩ | ⟨-, thdr, tids, init, htids, hplan, heq⟩⟩ :=
    loadIndex_spec cfg env hmissing
  · rw [heq]
    exact h.evictions he.rows hevict
  · have hkept := h.evictions he.rows hevict
    set slot := d1.registry.tail.headD IndexEntry.zero with hslot
    have hinit : (init slot).key = key := by
      obtain ⟨c, -, hck, rfl⟩ := hplan.slotInit htids
      exact (c.apply_key _).trans hck
    rw [heq]
    by_cases hkey : key = e.key
    · subst hkey
      have hnew := (h.saved hmissing).loaded he hg hgraph htids hplan slot
      refine ⟨fun x hx hxk => ?_, hkept.manifest, hkept.stale, fun hgone => ?_⟩
      · rcases mem_live_append hx with hold | hx
        · exact hkept.entries x hold hxk
        · rw [hx]
          exact hnew
      · refine absurd hinit (hgone _ ?_)
        exact List.mem_append_right _ (List.mem_singleton_self _)
    · refine hkept.of_same rfl fun x hxk => ⟨fun hx => ?_, List.mem_append_left _⟩
      rcases mem_live_append hx with hold | hx
      · exact hold
      · rw [hx] at hxk
        exact absurd (hinit.symm.trans hxk) hkey

theorem loadIndex_notResident {k : Key} (hmissing : NotResident key d) (hk : NotResident k d)
    (hne : k ≠ key) : NotResident k (PgCuvs.loadIndex cfg env d key).1 := by
  obtain ⟨d1, hevict, ⟨-, heq⟩ | ⟨-, thdr, tids, init, htids, hplan, heq⟩⟩ :=
    loadIndex_spec cfg env hmissing
  · rw [heq]
    exact hevict.notResident cfg hk
  · intro x hx
    rw [heq] at hx
    rcases mem_live_append hx with hold | hx
    · exact hevict.notResident cfg hk x hold
    · obtain ⟨c, -, hck, rfl⟩ := hplan.slotInit htids
      rw [hx, c.apply_key, hck]
      exact fun h => hne h.symm

theorem Kept.loadCagraFiles {names : List String} (h : Kept cfg e d.resident) (he : Sound e)
    (hg : e.handle = some g) (hgraph : ∀ gpu, env.cagraDeserializes g gpu = true)
    (honce : (names.filterMap cuvsParseIndexFilename).Nodup)
    (hmissing : ∀ key ∈ names.filterMap cuvsParseIndexFilename, NotResident key d) :
    Kept cfg e (loadCagraFiles cfg env d names).resident := by
  unfold PgCuvs.loadCagraFiles
  generalize names.filterMap cuvsParseIndexFilename = keys at honce hmissing ⊢
  induction keys generalizing d with
  | nil => exact h
  | cons key keys ih =>
    obtain ⟨hnew, honce⟩ := List.nodup_cons.mp honce
    have hkey := hmissing key List.mem_cons_self
    refine ih (h.loadIndex he hg hgraph hkey) honce fun k hk => ?_
    refine loadIndex_notResident hkey (hmissing k (List.mem_cons_of_mem _ hk)) ?_
    rintro rfl
    exact hnew hk

theorem Kept.loadSidecarFiles (tail : String) (names : List String) (h : Kept cfg e d.resident)
    (he : Sound e) (hg : e.handle = some g)
    (hgraph : ∀ gpu, env.cagraDeserializes g gpu = true) :
    Kept cfg e (loadSidecarFiles cfg env tail d names).resident := by
  unfold PgCuvs.loadSidecarFiles
  generalize names.filterMap (parseSidecarName tail) = keys
  induction keys generalizing d with
  | nil => exact h
  | cons key keys ih =>
    rw [List.foldl_cons]
    split_ifs with hfind
    · exact ih (h.loadIndex he hg hgraph (findIndex_eq_none.mp hfind))
    · exact ih h

/-- Nothing is resident when the start begins. -/
theorem Kept.startup {maxVram : ℕ → ℕ} {disk : Disk} {names : List String}
    (h : SavedAs e (disk cfg.indexDir e.key)) (he : Sound e) (hg : e.handle = some g)
    (hgraph : ∀ gpu, env.cagraDeserializes g gpu = true)
    (honce : (names.filterMap cuvsParseIndexFilename).Nodup) :
    Kept cfg e (startupLoadIndexes cfg env (Daemon.initial maxVram disk) names).resident := by
  have hempty : (Daemon.initial maxVram disk).live = [] := rfl
  have hstart : Kept cfg e (Daemon.initial maxVram disk).resident := by
    refine ⟨fun x hx => ?_, h.manifest, h.stale, fun _ => h⟩
    cases hx
  have hmissing : ∀ key ∈ names.filterMap cuvsParseIndexFilename,
      NotResident key (Daemon.initial maxVram disk) := by
    intro key _ x hx
    rw [hempty] at hx
    cases hx
  rw [startupLoadIndexes, registerCold_resident]
  have hfirst := hstart.loadCagraFiles he hg hgraph honce hmissing
  exact (hfirst.loadSidecarFiles "shards" names he hg hgraph).loadSidecarFiles "vectors" names he hg
    hgraph

end Loads

section Restart

variable {D : Type} [LT D] [DecidableLT D]

/-- Each graph of a daemon that goes down is saved. -/
theorem ReloadInvariant.gracefulShutdown {s : Server} (h : ReloadInvariant cfg e.key s)
    (he : e ∈ s.daemon.live) (hg : e.handle = some g) (hfault : env.saveFault e.key = none)
    (hflats : ∀ t ∈ s.flats, t.frame.key ≠ e.key) :
    SavedAs e (PgCuvs.gracefulShutdown cfg env s.daemon cfg.indexDir e.key) := by
  obtain ⟨-, hrows, -, -, hmanifest, hstale⟩ := h.linked.entries e he rfl (by rw [hg]; rfl)
  have hself : ReloadedAs e e := ⟨rfl, rfl, rfl, rfl, rfl, rfl, rfl⟩
  obtain ⟨pre, post, hlive⟩ := List.append_of_mem he
  have hunique : (s.daemon.live.map IndexEntry.key).Nodup := h.linked.unique
  rw [hlive, List.map_append, List.map_cons] at hunique
  have hpost : ∀ x ∈ post, e.key ≠ x.key := by
    intro x hx hkey
    have hcons := (List.nodup_append.mp hunique).2.1
    exact (List.nodup_cons.mp hcons).1 (hkey ▸ List.mem_map_of_mem hx)
  have hpre : ∀ x ∈ pre, e.key ≠ x.key := by
    intro x hx hkey
    exact (List.nodup_append.mp hunique).2.2 _ (List.mem_map_of_mem hx) _ List.mem_cons_self hkey.symm
  rw [PgCuvs.gracefulShutdown, hlive, List.foldl_append, List.foldl_cons,
    foldl_saveIndex_of_key_ne post _ hpost]
  have hsave : ∀ disk : Disk, (saveIndex cfg env disk e).1 cfg.indexDir e.key =
      runFileOps (saveEntryOps none e g).1 (disk cfg.indexDir e.key) := by
    intro disk
    simp only [saveIndex, hg, hfault, Disk.modify_same]
  rw [hsave, foldl_saveIndex_of_key_ne pre _ hpre]
  exact hself.saved hrows hg hmanifest (hstale hflats).symm

/-- Whatever happens before a shutdown and during the start behind it, a graph of 1 to 10^9
vectors is not lost: an entry that the start has made of it stands for the same index, and without
one the next load has it, given a slot and the VRAM. -/
theorem shutdown_restart (cfg : Config) (maxVram maxVram' : ℕ → ℕ) (evs : List (Request D))
    (env env' : Env) (names : List String)
    (honce : (names.filterMap cuvsParseIndexFilename).Nodup) :
    let s := Run.run (Server.step cfg) (Server.initial maxVram Disk.fresh) evs
    let d := startupLoadIndexes cfg env'
      (Daemon.initial maxVram' (gracefulShutdown cfg env s.daemon)) names
    ∀ e ∈ s.daemon.live, (∀ r ∈ evs, r.Own cfg e.key) →
      ∀ g, e.handle = some g → 0 < e.nVecs → e.nVecs ≤ tidsMaxVecs →
      (∀ t ∈ s.flats, t.frame.key ≠ e.key) → env.saveFault e.key = none →
      (∀ gpu, env'.cagraDeserializes g gpu = true) →
      (∀ e' ∈ d.live, e'.key = e.key → ReloadedAs e e') ∧
      (NotResident e.key d → d.live.length < cfg.maxIndexes → HasRoom cfg env' d e.nVecs e.dim →
        (loadIndex cfg env' d e.key).2 = .loaded ∧
          ∃ e' ∈ (loadIndex cfg env' d e.key).1.live, ReloadedAs e e') := by
  intro s d e hmem hown g hg hpos hmax hflats hfault hgraph
  have hinv : ReloadInvariant cfg e.key s := reloadInvariant_run cfg maxVram hown
  obtain ⟨-, hrows, hdim, -⟩ := hinv.linked.entries e hmem rfl (by rw [hg]; rfl)
  have he : Sound e := ⟨hrows, hpos, hmax, hdim⟩
  have hkept : Kept cfg e d.resident :=
    Kept.startup (hinv.gracefulShutdown hmem hg hfault hflats) he hg hgraph honce
  refine ⟨fun e' he' hkey => (hkept.entries e' he' hkey).1, fun hmissing hslot hroom => ?_⟩
  have hsaved := hkept.saved hmissing
  have hn : (cuvsTidsWrite e.dim e.metric e.tids).header.nVecs = e.nVecs := hrows
  have hload : (loadIndex cfg env' d e.key).2 = .loaded ∧ _ :=
    loadIndex_graph hmissing hslot (hsaved.accepted he) hsaved.manifest (hsaved.cagra.trans hg)
      (by rw [hn]; exact hroom) hgraph
  obtain ⟨hloaded, gpu, slot, hnew⟩ := hload
  have hnext : Kept cfg e (loadIndex cfg env' d e.key).1.resident :=
    hkept.loadIndex he hg hgraph hmissing
  refine ⟨hloaded, _, hnew, (hnext.entries _ hnew ?_).1⟩
  exact congrArg (fun v => v.1.1) (initUnsharded_view ..)

/-- A graph that was extended and compacted comes back when the daemon does. -/
theorem sampleDegree_restart :
    let d := startupLoadIndexes sampleConfig (Env.quiet 9 100000) (Daemon.initial (fun _ => 0)
      (gracefulShutdown sampleConfig (Env.quiet 9 100000)
        (sampleReloadDaemon sampleDegreeCompacted))) ["1_2.cagra", "1_2.tids"]
    d.live.map IndexEntry.key = [⟨1, 2⟩] ∧
      ∃ e ∈ (sampleReloadDaemon sampleDegreeCompacted).live, e.tids = [102, 201] ∧
        ∀ e' ∈ d.live, e'.key = e.key → ReloadedAs e e' := by
  have hview : (sampleReloadDaemon sampleDegreeCompacted).live.map
      (fun e => (e.key, e.nVecs, e.handle, e.tids)) =
        [(⟨1, 2⟩, 2, some ⟨[], [[11], [20]]⟩, [102, 201])] := by
    decide +kernel
  obtain ⟨e, hlive, hfields⟩ := List.map_eq_singleton_iff.mp hview
  simp only [Prod.mk.injEq] at hfields
  obtain ⟨hkey, hn, hg, htids⟩ := hfields
  have hmem : e ∈ (sampleReloadDaemon sampleDegreeCompacted).live := by
    rw [hlive]
    exact List.mem_singleton_self e
  have hflats : (Run.run (Server.step sampleConfig) (Server.initial (fun _ => 0) Disk.fresh)
      sampleDegreeCompacted).flats = [] := by
    decide +kernel
  have hrestart := shutdown_restart sampleConfig (fun _ => 0) (fun _ => 0) sampleDegreeCompacted
    (Env.quiet 9 100000) (Env.quiet 9 100000) ["1_2.cagra", "1_2.tids"]
    (by decide +kernel) e hmem (by rw [hkey]; decide) _ hg (by omega) (by rw [hn]; decide) (by simp [hflats]) rfl
    (fun _ => rfl)
  exact ⟨by decide +kernel, e, hmem, htids, hrestart.1⟩

end Restart

end PgCuvs
