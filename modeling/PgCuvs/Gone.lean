import PgCuvs.DropFiles
import PgCuvs.FailedBuild
import PgCuvs.Invariants
import PgCuvs.Lifecycle
import PgCuvs.RegistryKeys

/-! An index that the daemon has nothing of. No request on another index, no search, no start
and no download of another index brings it back. -/

namespace PgCuvs

def Daemon.warm (d : Daemon) : List ColdIndexEntry × List WarmupJob := (d.cold, d.warmupQueue)

structure Gone (key : Key) (d : Daemon) : Prop where
  entry : NotResident key d
  cold : ∀ c ∈ d.cold, c.key ≠ key
  job : ∀ j ∈ d.warmupQueue, j.key ≠ key
  files : ∀ dir, d.disk dir key = Artifacts.empty

def Elsewhere (key : Key) (e : IndexEntry) : Prop := e.key ≠ key

def Unfiled (key : Key) (_ : Dir) (k : Key) (a : Artifacts) : Prop := k = key → a = Artifacts.empty

section Rules

variable {cfg : Config} {env : Env} {key k : Key} {d d' d1 : Daemon}

theorem Gone.holds (h : Gone key d) : Holds (Elsewhere key) (Unfiled key) d.resident where
  entries := h.entry
  files := by
    rintro dir k rfl
    exact h.files dir

theorem Gone.of_holds (h : Holds (Elsewhere key) (Unfiled key) d'.resident) (hd : Gone key d)
    (hwarm : d'.warm = d.warm) : Gone key d' where
  entry := h.entries
  cold := by
    rw [show d'.cold = d.cold from congrArg Prod.fst hwarm]
    exact hd.cold
  job := by
    rw [show d'.warmupQueue = d.warmupQueue from congrArg Prod.snd hwarm]
    exact hd.job
  files := fun dir => h.files dir key rfl

theorem Gone.saveRule : SaveRule cfg (Elsewhere key) (Unfiled key) :=
  fun _ _ _ _ he _ _ _ hk => absurd hk he

theorem Gone.moveRule : MoveRule cfg (Elsewhere key) (Unfiled key) := by
  intro e e' a _ hmove he
  rw [Elsewhere, hmove.key]
  exact he

theorem Gone.not_reads {c : SlotInit} {a : Artifacts} (h : c.Reads a) : a ≠ Artifacts.empty := by
  rintro rfl
  obtain ⟨_, ⟨htids, -⟩, -⟩ := h.accepted
  cases htids

theorem Gone.loadRule : LoadRule cfg (Elsewhere key) (Unfiled key) := by
  intro env a k thdr tids init slot hfiles htids hplan
  obtain ⟨c, hc, rfl, rfl⟩ := hplan.slotInit htids
  rw [Elsewhere, SlotInit.apply_key]
  exact fun hk => Gone.not_reads hc (hfiles hk)

theorem Gone.of_moves (h : Gone key d) (hmoves : Moves cfg d.resident d'.resident)
    (h1 : Gone key d1) (hwarm : d'.warm = d1.warm) : Gone key d' :=
  .of_holds (Moves.holds saveRule moveRule loadRule hmoves h.holds) h1 hwarm

theorem evictLru_warm (d : Daemon) (device : ℕ) : (evictLru cfg env d device).1.warm = d.warm := by
  unfold evictLru
  split
  · rfl
  · split
    · rfl
    · split_ifs
      · split <;> rfl
      · rfl

theorem goneClosed (cfg : Config) (env : Env) (key : Key) :
    EvictClosed cfg env fun d d' => Gone key d → Gone key d' where
  refl _ := id
  trans h h' := h' ∘ h
  step d device h :=
    .of_holds ((evictLru_evictions cfg env d device).holds Gone.saveRule h.holds) h
      (evictLru_warm d device)

theorem Gone.loadIndex (cfg : Config) (env : Env) (h : Gone key d) (k : Key) :
    Gone key (loadIndex cfg env d k).1 := by
  obtain ⟨d1, hd1, heq | ⟨c, hc, rfl, -, heq⟩⟩ := (goneClosed cfg env key).of_loadIndex cfg env d k
  · rw [heq]
    exact hd1 h
  · rw [heq]
    refine .of_holds (Holds.append (hd1 h).holds fun slot => ?_) (hd1 h) rfl
    rw [Elsewhere, SlotInit.apply_key]
    intro hk
    rw [hk, h.files] at hc
    exact Gone.not_reads hc rfl

theorem Gone.modify (h : Gone key d) {dir : Dir} {f : Artifacts → Artifacts} (hk : k ≠ key) :
    Gone key { d with disk := d.disk.modify dir k f } :=
  .of_holds (Holds.modify h.holds fun _ hk' => absurd hk' hk) h rfl

theorem Gone.setEntry (h : Gone key d) {i : ℕ} {e : IndexEntry} (he : e.key ≠ key) :
    Gone key (d.setEntry i e) :=
  .of_holds (Holds.set h.holds he) h rfl

theorem Gone.installEntry (h : Gone key d) (hk : k ≠ key) {gpu : ℕ} {w : EntryWrite} {c : SlotInit}
    (hw : ∀ e : IndexEntry, e.key = k → (w.apply e).key = k) (hc : c.key = k) :
    Gone key (installEntry cfg env d k gpu w c).final := by
  unfold PgCuvs.installEntry
  cases hfind : findIndex d.live k with
  | some i =>
    obtain ⟨e, hslot, hek⟩ := findIndex_eq_some hfind
    refine .of_holds (Holds.replace h.holds hslot rfl fun _ => ?_) h rfl
    rw [Elsewhere, hw e hek]
    exact hk
  | none =>
    have hslot := (goneClosed cfg env key).of_makeSlot d gpu h
    simp only
    split_ifs
    · exact hslot
    · refine .of_holds (Holds.register hslot.holds rfl fun slot => ?_) hslot rfl
      rw [Elsewhere, SlotInit.apply_key, hc]
      exact hk

end Rules

section Builds

variable {cfg : Config} {env : Env} {benv : BuildEnv} {key : Key} {d : Daemon} {frame : BuildFrame}

theorem Gone.finishBuildCommit (h : Gone key d) {t : BuildTicket} (hk : t.frame.key ≠ key)
    {image : List UInt8} :
    Gone key (finishBuildCommit cfg env benv d t ⟨image, t.corpus.vecs⟩).final := by
  have hfiles := @Gone.modify key _ d h t.saveDir
    (runFileOps (t.commitOps env benv ⟨image, t.corpus.vecs⟩ (d.disk t.saveDir t.frame.key))) hk
  simp only [PgCuvs.finishBuildCommit]
  cases benv.fault with
  | some fault => exact hfiles
  | none =>
    refine hfiles.installEntry hk (fun e he => ?_) rfl
    exact (EntryWrite.apply_key (w := .build env.now t ⟨image, t.corpus.vecs⟩) ⟨he, rfl⟩).trans he

theorem Gone.endBuild (h : Gone key d) {kind : CorpusKind} {t : BuildTicket}
    (hk : t.frame.key ≠ key) {outcome : BuildOutcome} :
    Gone key (endBuild cfg env benv d kind t outcome).final := by
  have hpending : Gone key
      { d with pendingBuildVram := subPending d.pendingBuildVram t.targetGpu t.needed } :=
    .of_holds h.holds h rfl
  cases outcome with
  | built image => exact hpending.finishBuildCommit hk
  | oom => exact hpending
  | failed => exact hpending

theorem Gone.buildSharded (h : Gone key d) (hk : frame.key ≠ key) {dir : Dir} {corpus : Corpus}
    {shardCount : ℕ} : Gone key (buildSharded cfg env benv d frame dir corpus shardCount).final := by
  rw [buildSharded_eq, prepareSharded]
  split_ifs
  · exact h
  · have hroom := (goneClosed cfg env key).of_buildShards benv frame corpus.vecs
      (clampShards shardCount corpus.tids.length) (clampShards shardCount corpus.tids.length) 0 d h
    split
    · rename_i heq
      rwa [heq] at hroom
    · rename_i d1 shards heq
      rw [heq] at hroom
      simp only [Prepared.commit, commitSharded]
      split
      · exact hroom.modify hk
      · exact hroom.modify hk
      · exact (hroom.modify hk).installEntry hk (fun _ _ => rfl) rfl

theorem Gone.admitBuild (h : Gone key d) {kind : CorpusKind} {dir : Dir} {corpus : Corpus}
    {vectors : VectorsFile} : Gone key (admitBuild cfg env d kind frame dir corpus vectors).1 := by
  simp only [PgCuvs.admitBuild]
  split
  · exact h
  · rename_i gpu _
    have hvram := (goneClosed cfg env key).of_ensureVram d
      (estimateVramBytes corpus.tids.length frame.dim frame.graphDegree) gpu h
    split
    · rename_i heq
      rwa [heq] at hvram
    · rename_i heq
      rw [heq] at hvram
      exact .of_holds hvram.holds hvram rfl

theorem Gone.beginBuild (cfg : Config) (env : Env) (benv : BuildEnv) (h : Gone key d)
    (hk : frame.key ≠ key) (input : BuildInput) :
    match beginBuild cfg env benv d frame input with
    | .done x => Gone key x.final
    | .unlocked d' _ _ => Gone key d' := by
  rw [beginBuild_eq]
  cases planBuild cfg frame input with
  | error err => exact h
  | ok plan =>
    simp only [startBuild]
    split_ifs
    · exact h
    · exact h.buildSharded hk
    · have hadmit := @Gone.admitBuild cfg env key d frame h plan.kind plan.dir plan.corpus
        plan.vectors
      rcases hplan : PgCuvs.admitBuild cfg env d plan.kind frame plan.dir plan.corpus plan.vectors
        with ⟨d1, r | t⟩
      · rwa [hplan] at hadmit
      · rwa [hplan] at hadmit

theorem Gone.beginBuildFlat (cfg : Config) (env : Env) (benv : BuildEnv) (h : Gone key d)
    (hk : frame.key ≠ key) (input : BuildInput) :
    match beginBuildFlat cfg env benv d frame input with
    | .error x => Gone key x.final
    | .ok (d', _) => Gone key d' := by
  unfold PgCuvs.beginBuildFlat
  cases checkFlat cfg d frame input with
  | error r => exact h
  | ok p =>
    simp only
    cases flatFault benv with
    | none => exact h.modify hk
    | some q => exact h.modify hk

theorem Gone.endBuildFlat (h : Gone key d) {t : FlatTicket} (hk : t.frame.key ≠ key) :
    Gone key (endBuildFlat cfg env d t).final :=
  h.installEntry hk
    (fun _ he => (EntryWrite.apply_key (w := .flat env.now t.frame t.tids _) he).trans he) rfl

theorem Gone.handleBuildIvfpq (h : Gone key d) (hk : frame.key ≠ key) {input : BuildInput} :
    Gone key (handleBuildIvfpq cfg env benv d frame input).final := by
  rw [handleBuildIvfpq_eq, prepareIvfpq]
  cases input.indexDir with
  | none => exact h
  | some dir =>
    simp only
    split_ifs
    · exact h
    · cases input.segment with
      | error fault => exact h
      | ok seg =>
        simp only
        cases pickGpuForIndex cfg env d (ivfpqVramBytes frame frame.nVecs.toNat) with
        | none => exact h
        | some gpu =>
          have hvram := (goneClosed cfg env key).of_ensureVram d
            (ivfpqVramBytes frame frame.nVecs.toNat) gpu h
          simp only
          rcases hensure : ensureVram cfg env d (ivfpqVramBytes frame frame.nVecs.toNat) gpu
            with ⟨d1, _ | _⟩
          · rwa [hensure] at hvram
          · rw [hensure] at hvram
            cases benv.ivfpqImage with
            | none => exact hvram
            | some image =>
              have hfiles := fun ops => @Gone.modify key _ d1 hvram (saveDir cfg dir)
                (runFileOps ops) hk
              simp only [Prepared.commit, commitIvfpq]
              cases benv.fault with
              | some fault => exact hfiles _
              | none =>
                refine (hfiles _).installEntry hk (fun e he => ?_) rfl
                exact (EntryWrite.apply_key
                  (w := .ivfpq env.now frame _ ⟨image, _⟩ _ gpu) he).trans he

end Builds

section Writes

variable {cfg : Config} {env : Env} {key k : Key} {d : Daemon}

theorem Gone.replace (h : Gone key d) {i : ℕ} {e : IndexEntry} {w : EntryWrite} {r : Reply}
    (hi : d.live[i]? = some e) (hw : w.Fits e) : Gone key (Effect.mk d (.replace i w) r).final := by
  refine .of_holds (Holds.replace h.holds hi rfl fun he => ?_) h rfl
  rwa [Elsewhere, EntryWrite.apply_key hw]

theorem Gone.handleExtend (h : Gone key d) {frame : BuildFrame} {input : BuildInput}
    {outcome : ExtendOutcome} : Gone key (handleExtend d frame input outcome).final := by
  unfold PgCuvs.handleExtend
  simp only
  split_ifs
  · exact h
  · exact h
  · split
    · exact h
    · split
      · exact h
      · split
        · exact h
        · rename_i e hslot
          split
          · exact h
          · rename_i g hg
            split_ifs
            · exact h
            · split
              · exact h
              · exact h.replace hslot hg
              · exact h.replace hslot hg

theorem Gone.endCompact (h : Gone key d) {t : CompactTicket} {image : Option (List UInt8)} :
    Gone key (endCompact cfg env d t image).final := by
  unfold PgCuvs.endCompact
  split
  · exact h
  · rename_i i hfind
    obtain ⟨e, hslot, hek⟩ := findIndex_eq_some hfind
    have hk : t.key ≠ key := hek ▸ h.entry e (List.mem_of_getElem? hslot)
    simp only [hslot]
    split
    · exact h
    · rename_i g hg
      split_ifs
      · exact h.modify hk
      · split
        · exact h
        · rename_i image
          have hek' : ∀ e', e'.key = t.key → Gone key
              { d with disk := (saveIndex cfg env d.disk e').1 } := by
            intro e' he'
            unfold saveIndex
            split
            · exact h
            · exact h.modify (he'.symm ▸ hk)
          have hsaved := hek' (compactEntry env.now g image (keepBits t.deadTids e) e)
            ((buildRevTidMap_key _).trans hek)
          have hfits : (EntryWrite.compact env.now g image (keepBits t.deadTids e)).Fits e :=
            ⟨hg, by simp [keepBits]⟩
          rcases hsave : saveIndex cfg env d.disk
            (compactEntry env.now g image (keepBits t.deadTids e) e) with ⟨disk, _ | _⟩
          · rw [hsave] at hsaved
            exact hsaved.replace hslot hfits
          · rw [hsave] at hsaved
            exact (hsaved.modify hk).replace hslot hfits

theorem Gone.handleMarkStale (h : Gone key d) (hk : k ≠ key) {opens : Bool} :
    Gone key (handleMarkStale cfg env d k opens).final := by
  have hfiles : Gone key (PgCuvs.handleMarkStale cfg env d k opens).daemon := by
    cases opens with
    | true => exact h.modify hk
    | false => exact h
  have hlive : (PgCuvs.handleMarkStale cfg env d k opens).daemon.live = d.live := by
    cases opens <;> rfl
  cases hfind : findIndex d.live k with
  | none =>
    have hkeep : PgCuvs.handleMarkStale cfg env d k opens
        = ⟨(PgCuvs.handleMarkStale cfg env d k opens).daemon, .keep, .ok⟩ := by
      simp only [PgCuvs.handleMarkStale, hfind]
    rw [hkeep]
    exact hfiles
  | some i =>
    obtain ⟨e, hslot, -⟩ := findIndex_eq_some hfind
    have hmark : PgCuvs.handleMarkStale cfg env d k opens
        = ⟨(PgCuvs.handleMarkStale cfg env d k opens).daemon, .replace i (.stale env.now), .ok⟩ := by
      simp only [PgCuvs.handleMarkStale, hfind]
    rw [hmark]
    exact hfiles.replace (hlive.symm ▸ hslot) trivial

theorem Gone.handleDrop (h : Gone key d) : Gone key (handleDrop cfg d k).final := by
  have hdrop : Gone key (PgCuvs.handleDrop cfg d k).daemon := by
    refine ⟨h.entry, fun c hc => h.cold c (List.mem_of_mem_eraseP hc), h.job, fun dir => ?_⟩
    have hdisk : (PgCuvs.handleDrop cfg d k).daemon.disk dir key
        = d.disk.modify cfg.indexDir k Artifacts.dropped dir key := rfl
    rw [hdisk, Disk.modify]
    split_ifs
    · rw [h.files, Artifacts.dropped_empty]
    · exact h.files dir
  cases hfind : findIndex d.live k with
  | none =>
    have hkeep : PgCuvs.handleDrop cfg d k = ⟨(PgCuvs.handleDrop cfg d k).daemon, .keep, .ok⟩ := by
      simp only [PgCuvs.handleDrop, hfind]
    rw [hkeep]
    exact hdrop
  | some i =>
    obtain ⟨e, hslot, -⟩ := findIndex_eq_some hfind
    have hremove : (PgCuvs.handleDrop cfg d k).action = .remove i := by
      simp only [PgCuvs.handleDrop, hfind]
    exact .of_holds (Holds.remove hdrop.holds hslot hremove) hdrop rfl

theorem Gone.initial (h : Gone key d) : Gone key (Daemon.initial d.maxVramPerGpu d.disk) where
  entry := fun _ he => absurd he List.not_mem_nil
  cold := fun _ hc => absurd hc List.not_mem_nil
  job := fun _ hj => absurd hj List.not_mem_nil
  files := h.files

end Writes

section Searches

variable {D : Type} {cfg : Config} {env : Env} {senv : SearchEnv} {kern : Kernels D} {key k : Key}
  {d : Daemon} {i : ℕ} {e : IndexEntry} {frame : SearchFrame} {query : Vec}

theorem mem_warmupEnqueue {queue : List WarmupJob} {job j : WarmupJob}
    (h : j ∈ warmupEnqueue queue job) : j ∈ queue ∨ j = job := by
  unfold warmupEnqueue at h
  split_ifs at h
  · exact .inl h
  · exact .inl h
  · rcases List.mem_append.mp h with hold | hnew
    · exact .inl hold
    · exact .inr (List.mem_singleton.mp hnew)

theorem Gone.noteColdMiss (h : Gone key d) : Gone key (noteColdMiss cfg d k) := by
  unfold PgCuvs.noteColdMiss
  split_ifs
  · exact h
  · split
    · exact h
    · rename_i ci hci
      split
      · exact h
      · rename_i c hc
        have hck : c.key ≠ key := h.cold c (List.mem_of_getElem? hc)
        have hk : k ≠ key := by
          obtain ⟨hlt, hkey, -⟩ := List.findIdx?_eq_some_iff_getElem.mp hci
          rw [List.getElem?_eq_getElem hlt] at hc
          rw [Option.some.inj hc, beq_iff_eq] at hkey
          exact hkey ▸ hck
        have hset : ∀ c' : ColdIndexEntry, c'.key = c.key → ∀ x ∈ d.cold.set ci c', x.key ≠ key := by
          intro c' hc' x hx
          rcases List.mem_or_eq_of_mem_set hx with hold | rfl
          · exact h.cold x hold
          · exact hc' ▸ hck
        simp only
        split_ifs
        · refine ⟨h.entry, hset _ rfl, ?_, h.files⟩
          intro j hj
          rcases mem_warmupEnqueue hj with hold | rfl
          · exact h.job j hold
          · exact hk
        · exact ⟨h.entry, hset _ rfl, h.job, h.files⟩

theorem Gone.searchResolve (h : Gone key d) : Gone key (searchResolve cfg env d k).1 := by
  have hcounters : ∀ {d : Daemon} {counters : CacheCounters}, Gone key d →
      Gone key { d with counters } := fun hd => .of_holds hd.holds hd rfl
  have hload := h.loadIndex cfg env k
  unfold PgCuvs.searchResolve
  split
  · split
    · exact hcounters h
    · exact h
  · split
    · rename_i heq
      rw [heq] at hload
      split
      · split
        · exact hcounters hload
        · exact hload.noteColdMiss
      · exact hload.noteColdMiss
    · rename_i heq
      rw [heq] at hload
      simp only
      split_ifs
      · exact hcounters hload
      · exact (hcounters hload).noteColdMiss

theorem searchSharded_warm :
    (searchSharded (D := D) cfg env d i e frame query).daemon.warm = d.warm := by
  simp only [searchSharded]
  split_ifs <;> rfl

variable [LT D] [DecidableLT D]

theorem searchDWedge_warm {bf : BfIndex} :
    (searchDWedge cfg env senv kern d i e bf frame query).daemon.warm = d.warm := by
  simp only [searchDWedge]
  split
  · split_ifs <;> rfl
  · generalize (if 0 < frame.nFilterTids then (mapFilter senv frame).map cuvsU64Sort else none)
      = filterTids
    split
    · rfl
    · cases filterTids with
      | none => rfl
      | some l =>
        simp only
        split
        · split <;> rfl
        · rfl

theorem searchBruteForce_warm :
    (searchBruteForce cfg env senv kern d i e frame query).daemon.warm = d.warm := by
  simp only [searchBruteForce]
  split_ifs
  · rfl
  · split
    · rfl
    · split
      · rfl
      · exact searchDWedge_warm

theorem searchCagra_warm :
    (searchCagra cfg env senv kern d i e frame query).daemon.warm = d.warm := by
  unfold searchCagra
  split
  · rfl
  · split
    · split_ifs <;> rfl
    · rfl

theorem searchEntry_warm :
    (searchEntry cfg env senv kern d i e frame query).daemon.warm = d.warm := by
  unfold searchEntry
  split_ifs
  · rfl
  · rfl
  · exact searchBruteForce_warm
  · exact searchSharded_warm
  · unfold searchGraph
    split
    · rfl
    · simp only
      split_ifs
      · rfl
      · rfl
      · exact searchCagra_warm

theorem handleSearch_warm :
    (handleSearch cfg env senv kern d frame).daemon.warm
      = (searchResolve cfg env d frame.key).1.warm := by
  unfold handleSearch
  split
  · rename_i heq
    rw [heq]
    rfl
  · rename_i heq
    rw [heq]
    simp only
    split
    · rfl
    · split
      · rfl
      · split
        · rfl
        · split
          · rfl
          · exact searchEntry_warm

theorem Gone.handleSearch (h : Gone key d) :
    Gone key (handleSearch cfg env senv kern d frame).daemon :=
  h.of_moves (handleSearch_spec (L := True) cfg env senv kern d frame).moves h.searchResolve handleSearch_warm

theorem Gone.resumeSearch (h : Gone key d) {mode : ℕ} :
    Gone key (resumeSearch cfg env senv kern d frame mode query).daemon := by
  refine h.of_moves (resumeSearch_spec (L := True) cfg env senv kern d frame mode query).moves h ?_
  unfold PgCuvs.resumeSearch
  split
  · rfl
  · split
    · rfl
    · split_ifs
      · exact searchBruteForce_warm
      · exact searchCagra_warm

omit [LT D] [DecidableLT D] in
theorem Gone.batchResolve (h : Gone key d) : Gone key (batchResolve cfg env d k).1 := by
  have hload := h.loadIndex cfg env k
  simp only [PgCuvs.batchResolve]
  split
  · exact h
  · split
    · rename_i heq
      rwa [heq] at hload
    · rename_i heq
      rwa [heq] at hload

theorem batchRunGroup_warm {latencyUs : ℕ} {r0 : BatchRequest} {reqs : List BatchRequest} :
    (batchRunGroup cfg env kern latencyUs d r0 reqs).1.warm
      = (batchResolve cfg env d r0.key.key).1.warm := by
  unfold batchRunGroup
  split_ifs
  · unfold cagraBatchRunGroup
    split
    · rename_i heq
      rw [heq]
    · rename_i heq
      rw [heq]
      split_ifs
      · rfl
      · split
        · rfl
        · simp only
          split <;> rfl
  · unfold bfBatchRunGroup
    split
    · rename_i heq
      rw [heq]
    · rename_i heq
      rw [heq]
      split_ifs
      · rfl
      · simp only
        split
        · rfl
        · split <;> rfl

theorem Gone.batchRunGroup (h : Gone key d) {latencyUs : ℕ} {r0 : BatchRequest}
    {reqs : List BatchRequest} : Gone key (batchRunGroup cfg env kern latencyUs d r0 reqs).1 :=
  h.of_moves (batchRunGroup_spec (L := True) cfg env kern latencyUs d r0 reqs).moves h.batchResolve
    batchRunGroup_warm

theorem Gone.finishFanout (h : Gone key d) {f : Fanout} :
    Gone key (finishFanout cfg env senv kern d f).1 := by
  refine h.of_moves (finishFanout_spec trivial cfg env senv kern d f).moves h ?_
  unfold PgCuvs.finishFanout
  split
  · rfl
  · simp only
    split_ifs <;> rfl

end Searches

end PgCuvs
