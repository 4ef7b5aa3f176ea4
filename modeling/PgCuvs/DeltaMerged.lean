import PgCuvs.Library.Run
import PgCuvs.DeltaFreshness
import PgCuvs.DeltaMerge

/-! Runs of searches and of backends that append to, remove and recreate the
`.delta` file. -/

namespace PgCuvs

structure DeltaWorld where
  daemon : Daemon
  /-- the current second -/
  now : ℕ

inductive DeltaEvent (D : Type) where
  | search (env : Env) (senv : SearchEnv) (kern : Kernels D) (frame : SearchFrame)
  | resume (env : Env) (senv : SearchEnv) (kern : Kernels D) (frame : SearchFrame) (mode : ℕ)
      (query : Vec)
  | batch (env : Env) (kern : Kernels D) (latencyUs : ℕ) (r0 : BatchRequest)
      (reqs : List BatchRequest)
  | fanout (env : Env) (senv : SearchEnv) (kern : Kernels D) (f : Fanout)
  | append (dir : Dir) (key : Key) (maxDeltaRows : ℕ) (fault : Option AppendFault) (tid : Tid)
      (vec : Vec) (metric : Metric)
  | remove (dir : Dir) (key : Key)
  | tick (seconds : ℕ)

variable {D : Type} [LT D] [DecidableLT D]

/-- The daemon after an event and the index it merged the delta of, if any. -/
def DeltaEvent.serve (cfg : Config) (w : DeltaWorld) : DeltaEvent D → Daemon × Option Key
  | .search env senv kern frame =>
    let o := handleSearch cfg env senv kern w.daemon frame
    (o.daemon, if o.merged then some frame.key else none)
  | .resume env senv kern frame mode query =>
    let o := resumeSearch cfg env senv kern w.daemon frame mode query
    (o.daemon, if o.merged then some frame.key else none)
  | .batch env kern latencyUs r0 reqs =>
    let p := batchRunGroup cfg env kern latencyUs w.daemon r0 reqs
    (p.1, if anyMerged p.2 then some r0.key.key else none)
  | .fanout env senv kern f =>
    let p := finishFanout cfg env senv kern w.daemon f
    (p.1, if p.2.deltaMerged then some f.key else none)
  | .append dir key maxDeltaRows fault tid vec metric =>
    ({ w.daemon with
       disk := w.daemon.disk.modify dir key fun a =>
        (cuvsDeltaAppend maxDeltaRows w.now fault tid vec metric a).1 }, none)
  | .remove dir key =>
    ({ w.daemon with disk := w.daemon.disk.modify dir key fun a => { a with delta := none } }, none)
  | .tick _ => (w.daemon, none)

def DeltaWorld.step (cfg : Config) (w : DeltaWorld) (ev : DeltaEvent D) : DeltaWorld where
  daemon := (ev.serve cfg w).1
  now :=
    match ev with
    | .tick seconds => w.now + seconds
    | _ => w.now

/-- A change of `.delta` the daemon can notice: it starts no file while host rows
of an older one are cached, and it adds no row in the second the resident index
was built at. -/
def NoticedChange (now : ℕ) (delta delta' : Option (Stamped DeltaFile)) (e : IndexEntry) : Prop :=
  (delta.isNone → delta'.isSome → e.deltaVecsHost = none) ∧
    (delta.isSome → delta'.map (fun f => f.content.records) ≠
        delta.map (fun f => f.content.records) →
      e.deltaIdx.isSome → e.deltaMtime ≠ now)

instance (now : ℕ) (delta delta' : Option (Stamped DeltaFile)) :
    DecidablePred (NoticedChange now delta delta') :=
  fun _ => inferInstanceAs (Decidable (_ ∧ _))

def NoticedAppend (cfg : Config) (w : DeltaWorld) : DeltaEvent D → Prop
  | .append dir key maxDeltaRows fault tid vec metric =>
    dir = cfg.indexDir → ∀ e ∈ w.daemon.live, e.key = key →
      NoticedChange w.now (w.daemon.disk dir key).delta
        (cuvsDeltaAppend maxDeltaRows w.now fault tid vec metric (w.daemon.disk dir key)).1.delta e
  | _ => True

instance (cfg : Config) (w : DeltaWorld) : DecidablePred (NoticedAppend (D := D) cfg w)
  | .append .. => inferInstanceAs (Decidable (_ → _))
  | .search .. | .resume .. | .batch .. | .fanout .. | .remove .. | .tick _ => isTrue trivial

/-- After a merged reply the resident cache holds the rows of the file. -/
def MergesFile (cfg : Config) (w : DeltaWorld) (ev : DeltaEvent D) : Prop :=
  ∀ key, (ev.serve cfg w).2 = some key →
    ∃ i e f, findIndex (ev.serve cfg w).1.live key = some i ∧
      (ev.serve cfg w).1.live[i]? = some e ∧ e.deltaIdx.isSome ∧
      ((ev.serve cfg w).1.disk cfg.indexDir key).delta = some f ∧
      DeltaCacheHolds e f.content.records

section Invariant

variable {cfg : Config} {w : DeltaWorld} {e : IndexEntry} {f : Stamped DeltaFile} {f' : DeltaFile}

structure DeltaInvariant (cfg : Config) (w : DeltaWorld) : Prop where
  fresh : AllDeltaFresh cfg w.daemon.resident
  past : ∀ key f, (w.daemon.disk cfg.indexDir key).delta = some f → f.mtime ≤ w.now

theorem HostPrefix.grow {f : DeltaFile} {n : ℕ} {vecs : List Vec} {tids : List Tid}
    (h : HostPrefix f n vecs tids) (hgrows : f.Grows f') : HostPrefix f' n vecs tids := by
  obtain ⟨hdr, hheader, hcount⟩ := h.counted
  obtain ⟨hdr', hheader', hle⟩ := hgrows.header hdr hheader
  obtain ⟨hlen, hbody⟩ := hgrows.body hdr n hheader hcount h.length
  refine ⟨⟨hdr', hheader', hcount.trans hle⟩, hlen, ?_, ?_⟩
  · rw [hbody, h.vecs]
  · rw [hbody, h.tids]

theorem DeltaFresh.grow {now : ℕ} (h : DeltaFresh (some f) e) (hseen : DeltaSeen (some f) e)
    (hpast : f.mtime ≤ now) (hgrows : f.content.Grows f')
    (hnoticed : f'.records ≠ f.content.records → e.deltaIdx.isSome → e.deltaMtime ≠ now) :
    DeltaFresh (some ⟨f', now⟩) e ∧ DeltaSeen (some ⟨f', now⟩) e := by
  refine ⟨⟨?_, h.backed, ?_⟩, ?_⟩
  · intro g hg vecs tids hvecs htids
    obtain rfl := Option.some.inj hg
    exact (h.host f rfl vecs tids hvecs htids).grow hgrows
  · intro g hg hmtime b hb
    obtain rfl := Option.some.inj hg
    have hidx : e.deltaIdx.isSome := by
      rw [hb]
      rfl
    have hsame : f'.records = f.content.records := by
      by_contra hne
      exact hnoticed hne hidx hmtime.symm
    have hold : f.mtime = e.deltaMtime :=
      le_antisymm (hpast.trans_eq hmtime) (hseen hidx f rfl)
    have hcache := h.cache f rfl hold b hb
    rwa [← hsame] at hcache
  · intro hidx g hg
    obtain rfl := Option.some.inj hg
    exact (hseen hidx f rfl).trans hpast

theorem ServeSpec.deltaInvariant {env : Env} {key : Key} {d' : Daemon} {merged : Bool}
    (h : ServeSpec True cfg env key w.daemon d' merged) (hinv : DeltaInvariant cfg w) :
    DeltaInvariant cfg ⟨d', w.now⟩ where
  fresh := h.moves.allDeltaFresh hinv.fresh
  past k f hf := by
    have hfile : (d'.disk cfg.indexDir k).delta = (w.daemon.disk cfg.indexDir k).delta :=
      h.moves.deltaFile cfg.indexDir k
    exact hinv.past k f (hfile.symm.trans hf)

theorem DeltaInvariant.modify {dir : Dir} {key : Key} {g : Artifacts → Artifacts}
    (h : DeltaInvariant cfg w)
    (hpast : dir = cfg.indexDir → ∀ f, (g (w.daemon.disk dir key)).delta = some f → f.mtime ≤ w.now)
    (hfresh : dir = cfg.indexDir → ∀ e ∈ w.daemon.live, e.key = key →
      DeltaFresh (g (w.daemon.disk dir key)).delta e ∧
        DeltaSeen (g (w.daemon.disk dir key)).delta e) :
    DeltaInvariant cfg ⟨{ w.daemon with disk := w.daemon.disk.modify dir key g }, w.now⟩ where
  fresh e he := by
    have hold := h.fresh e he
    simp only [Daemon.resident, Disk.modify]
    split_ifs with hfile
    · obtain ⟨hdir, hkey⟩ := hfile
      have hnew := hfresh hdir.symm e he hkey
      rwa [← hdir, ← hkey] at hnew
    · exact hold
  past k f hf := by
    simp only [Disk.modify] at hf
    split_ifs at hf with hfile
    · obtain ⟨hdir, hkey⟩ := hfile
      rw [hdir, hkey] at hf
      exact hpast hdir.symm f hf
    · exact h.past k f hf

theorem DeltaInvariant.step {ev : DeltaEvent D} (h : DeltaInvariant cfg w)
    (hnoticed : NoticedAppend cfg w ev) : DeltaInvariant cfg (w.step cfg ev) := by
  cases ev with
  | search env senv kern frame => exact (handleSearch_spec ..).deltaInvariant h
  | resume env senv kern frame mode query => exact (resumeSearch_spec ..).deltaInvariant h
  | batch env kern latencyUs r0 reqs => exact (batchRunGroup_spec ..).deltaInvariant h
  | fanout env senv kern f => exact (finishFanout_spec trivial ..).deltaInvariant h
  | tick seconds => exact ⟨h.fresh, fun k f hf => (h.past k f hf).trans (Nat.le_add_right _ _)⟩
  | remove dir key =>
    refine h.modify (fun _ f hf => by cases hf) ?_
    rintro rfl e he hkey
    obtain ⟨hfresh, -⟩ := h.fresh e he
    refine ⟨⟨?_, hfresh.backed, ?_⟩, ?_⟩
    · intro f hf
      cases hf
    · intro f hf
      cases hf
    · intro _ f hf
      cases hf
  -- an append creates the file, adds to it, or fails and leaves what was there
  | append dir key maxDeltaRows fault tid vec metric =>
    obtain ⟨delta, heq, hcases⟩ := cuvsDeltaAppend_cases maxDeltaRows w.now fault tid vec metric
      (w.daemon.disk dir key)
    have hdelta : (cuvsDeltaAppend maxDeltaRows w.now fault tid vec metric
        (w.daemon.disk dir key)).1.delta = delta := by rw [heq]
    refine h.modify ?_ ?_
    · rintro rfl f hf
      rw [hdelta] at hf
      rcases hcases with rfl | ⟨-, f', rfl⟩ | ⟨-, f', -, rfl, -⟩
      · exact h.past key f hf
      · obtain rfl := Option.some.inj hf
        exact le_rfl
      · obtain rfl := Option.some.inj hf
        exact le_rfl
    · rintro rfl e he rfl
      obtain ⟨hfresh, hseen⟩ := h.fresh e he
      obtain ⟨hnew, hrows⟩ := hnoticed rfl e he rfl
      rw [hdelta] at hnew hrows ⊢
      rw [Option.isNone_iff_eq_none] at hnew
      rcases hcases with rfl | ⟨hnone, f', rfl⟩ | ⟨f, f', hf, rfl, hgrows⟩
      · exact ⟨hfresh, hseen⟩
      · have hhost := hnew hnone rfl
        have hidx : e.deltaIdx = none := by
          by_contra hne
          have hbacked := hfresh.backed (Option.isSome_iff_ne_none.mpr hne)
          rw [hhost] at hbacked
          cases hbacked
        exact ⟨DeltaFresh.of_empty hidx hhost, fun hsome => by simp [hidx] at hsome⟩
      · have hfile : (w.daemon.resident.2 cfg.indexDir e.key).delta = some f := hf
        rw [hfile] at hfresh hseen
        refine hfresh.grow hseen (h.past e.key f hf) hgrows fun hne => hrows ?_ ?_
        · rw [hf]
          rfl
        · rw [hf]
          simpa using hne

/-- An event that merges finds the resident cache in line with the file. -/
theorem DeltaInvariant.mergesFile {ev : DeltaEvent D} (h : DeltaInvariant cfg w) :
    MergesFile cfg w ev := by
  have hserve : ∀ (env : Env) (key : Key) (d' : Daemon) (merged : Bool),
      ServeSpec True cfg env key w.daemon d' merged →
      ∀ k, (if merged then some key else none) = some k → ∃ i e f,
        findIndex d'.live k = some i ∧ d'.live[i]? = some e ∧ e.deltaIdx.isSome ∧
        (d'.disk cfg.indexDir k).delta = some f ∧ DeltaCacheHolds e f.content.records := by
    intro env key d' merged hspec k hk
    cases merged with
    | false => cases hk
    | true =>
      obtain rfl := Option.some.inj hk
      obtain ⟨i, e, hfind, hslot, hidx, f, hf, hmtime⟩ := hspec.current rfl
      have hfresh := (hspec.moves.allDeltaFresh h.fresh) e (List.mem_of_getElem? hslot)
      obtain ⟨e', hslot', hkey⟩ := findIndex_eq_some hfind
      obtain rfl := Option.some.inj (hslot.symm.trans hslot')
      have hfile : (d'.resident.2 cfg.indexDir e.key).delta = some f := hkey ▸ hf
      exact ⟨i, e, f, hfind, hslot, hidx, hf, hfresh.1.cache f hfile hmtime⟩
  intro key hkey
  cases ev with
  | search env senv kern frame => exact hserve _ _ _ _ (handleSearch_spec ..) key hkey
  | resume env senv kern frame mode query => exact hserve _ _ _ _ (resumeSearch_spec ..) key hkey
  | batch env kern latencyUs r0 reqs => exact hserve _ _ _ _ (batchRunGroup_spec ..) key hkey
  | fanout env senv kern f => exact hserve _ _ _ _ (finishFanout_spec trivial ..) key hkey
  | append | remove | tick => cases hkey

end Invariant

/-- In a run whose appends the daemon can notice, every merged reply was merged
with exactly the rows of the `.delta` file. -/
theorem deltaMerged_fresh (cfg : Config) (maxVram : ℕ → ℕ) (disk : Disk) (now : ℕ)
    (hpast : ∀ key f, (disk cfg.indexDir key).delta = some f → f.mtime ≤ now)
    (evs : List (DeltaEvent D))
    (hnoticed : Run.Along (DeltaWorld.step cfg) (NoticedAppend cfg)
      ⟨Daemon.initial maxVram disk, now⟩ evs) :
    Run.Along (DeltaWorld.step cfg) (MergesFile cfg) ⟨Daemon.initial maxVram disk, now⟩ evs := by
  refine Run.along_invariant (DeltaInvariant cfg) (fun _ _ h hev => h.step hev)
    (fun _ _ h _ => h.mergesFile) ⟨?_, hpast⟩ hnoticed
  intro e he
  cases he

section Sample

def sampleSearchEvent : DeltaEvent ℕ :=
  .search (Env.quiet 9 100000) (SearchEnv.plain [0]) sampleDeltaKernels sampleFrame

def sampleAppend (tid : Tid) (x : UInt32) : DeltaEvent ℕ :=
  .append "index" ⟨1, 2⟩ 100 none tid [x] .l2

def sampleWorld : DeltaWorld := ⟨Daemon.initial (fun _ => 0) fun _ _ => sampleIndexFiles, 5⟩

/-- One row a second is always noticed. -/
theorem deltaMerged_fresh_sample :
    Run.Along (DeltaWorld.step sampleConfig) (MergesFile sampleConfig) sampleWorld
      [sampleAppend 103 5, sampleSearchEvent, .tick 1, sampleAppend 104 6, sampleSearchEvent] :=
  deltaMerged_fresh sampleConfig (fun _ => 0) (fun _ _ => sampleIndexFiles) 5
    (by rintro key f ⟨⟩) _ (by decide +kernel)

def sampleMissed : DeltaWorld :=
  ((sampleWorld.step sampleConfig (sampleAppend 103 5)).step sampleConfig sampleSearchEvent).step
    sampleConfig (sampleAppend 104 6)

theorem MergesFile.rows {cfg : Config} {w : DeltaWorld} {ev : DeltaEvent D} {key : Key}
    {cached rows : List Tid} (h : MergesFile cfg w ev) (hkey : (ev.serve cfg w).2 = some key)
    (hcached : ∀ e ∈ (ev.serve cfg w).1.live, e.deltaTids = some cached)
    (hrows : ((ev.serve cfg w).1.disk cfg.indexDir key).delta.map
      (fun f => f.content.records.map DeltaRecord.tid) = some rows) : cached = rows := by
  obtain ⟨i, e, f, -, hslot, hidx, hf, hcache⟩ := h key hkey
  have htids : f.content.records.map DeltaRecord.tid = rows := by
    rw [hf] at hrows
    exact Option.some.inj hrows
  obtain ⟨b, hb⟩ := Option.isSome_iff_exists.mp hidx
  obtain ⟨-, hfile, -⟩ := hcache b hb
  have hold := hcached e (List.mem_of_getElem? hslot)
  rw [htids, hold] at hfile
  exact Option.some.inj hfile

/-- A second row in the second of the first search is not. -/
theorem deltaMerged_misses_row :
    ¬∀ (cfg : Config) (maxVram : ℕ → ℕ) (disk : Disk) (now : ℕ),
      (∀ key f, (disk cfg.indexDir key).delta = some f → f.mtime ≤ now) →
      ∀ evs : List (DeltaEvent ℕ), Run.Along (DeltaWorld.step cfg) (MergesFile cfg)
        ⟨Daemon.initial maxVram disk, now⟩ evs := by
  intro h
  have hrun := h sampleConfig (fun _ => 0) (fun _ _ => sampleIndexFiles) 5
    (by rintro key f ⟨⟩) [sampleAppend 103 5, sampleSearchEvent, sampleAppend 104 6, sampleSearchEvent]
  have hmerges : MergesFile sampleConfig sampleMissed sampleSearchEvent := hrun.2.2.2.1
  have hcached : ∀ e ∈ (sampleSearchEvent.serve sampleConfig sampleMissed).1.live,
      e.deltaTids = some [103] := by decide +kernel
  have hrows : ((sampleSearchEvent.serve sampleConfig sampleMissed).1.disk
      sampleConfig.indexDir ⟨1, 2⟩).delta.map
        (fun f => f.content.records.map DeltaRecord.tid) = some [103, 104] := by decide +kernel
  exact absurd (hmerges.rows (by decide +kernel) hcached hrows) (by decide)

end Sample

end PgCuvs
