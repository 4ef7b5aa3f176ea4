import PgCuvs.Library.Run
import PgCuvs.Crash.Loads
import PgCuvs.Invariants

/-! The TID array of a CAGRA entry and the rows of its graph are the two columns of one
list of rows: what a build brought, extended and compacted since. -/

namespace PgCuvs

/-- The lists of rows an index can stand for. -/
inductive Generation (brought : BuildFrame → Corpus → Prop) (key : Key) :
    List (Tid × Vec) → Prop
  | build {frame : BuildFrame} {corpus : Corpus} (h : brought frame corpus)
      (hkey : frame.key = key) : Generation brought key corpus.rows
  | extend {frame : BuildFrame} {rows : List (Tid × Vec)} {new : Corpus}
      (hrows : Generation brought key rows) (h : brought frame new) (hkey : frame.key = key) :
      Generation brought key (rows ++ new.rows)
  | compact {rows : List (Tid × Vec)} (hrows : Generation brought key rows) (keep : List Bool) :
      Generation brought key (keepMarked keep rows)

theorem Corpus.rows_fst (c : Corpus) : c.rows.map Prod.fst = c.tids :=
  List.map_fst_zip c.length_vecs.ge

theorem Corpus.rows_snd (c : Corpus) : c.rows.map Prod.snd = c.vecs :=
  List.map_snd_zip c.length_vecs.le

section Inputs

def Segment.rows (seg : Segment) (n : ℕ) : List (Tid × Vec) :=
  (List.range n).map fun i => (seg.tid i, seg.vec i)

def PartialDesc.rows (p : PartialDesc) : List (Tid × Vec) :=
  match p.segment with
  | .ok seg => seg.rows p.nVecs.toNat
  | .error _ => []

/-- The rows in the segments that come with a request: of one segment, or of the partials
one after the other. -/
def Request.rows {D : Type} : Request D → Option (BuildFrame × List (Tid × Vec))
  | .build _ _ frame input =>
    if 0 < frame.nPartials then
      input.partials.map fun descs => (frame, descs.flatMap PartialDesc.rows)
    else input.segment.toOption.map fun seg => (frame, seg.rows frame.nVecs.toNat)
  | .flat _ _ frame input | .ivfpq _ _ frame input | .extend frame input _ =>
    input.segment.toOption.map fun seg => (frame, seg.rows frame.nVecs.toNat)
  | _ => none

theorem Segment.corpus_rows (seg : Segment) (n : ℕ) : (seg.corpus n).rows = seg.rows n := by
  simp only [Corpus.rows, Segment.corpus, Segment.tids, Segment.vecs, Segment.rows,
    List.zip_map']

theorem assembleCorpus_rows {maps : List (Segment × ℕ)} :
    (assembleCorpus maps).rows = maps.flatMap fun p => p.1.rows p.2 := by
  change (assembleTids maps).zip (partVecs maps).flatten = _
  rw [assembleTids_eq, partVecs]
  induction maps with
  | nil => rfl
  | cons p ps ih =>
    have hlen : (p.1.tids p.2).length = (p.1.vecs p.2).length := by simp
    rw [List.map_cons, List.map_cons, List.flatten_cons, List.flatten_cons,
      List.zip_append hlen, List.flatMap_cons, ih]
    exact congrArg (· ++ _) (p.1.corpus_rows p.2)

theorem mapPartials_rows {descs : List PartialDesc} {maps : List (Segment × ℕ)}
    (h : mapPartials descs = .ok maps) :
    descs.flatMap PartialDesc.rows = maps.flatMap fun p => p.1.rows p.2 := by
  induction descs generalizing maps with
  | nil =>
    cases h
    rfl
  | cons p ps ih =>
    rw [mapPartials] at h
    rw [List.flatMap_cons]
    split at h
    · rename_i hzero
      have hnone : p.rows = [] := by
        rw [PartialDesc.rows, hzero]
        cases p.segment <;> rfl
      rw [hnone, List.nil_append, ih h]
    · split at h
      · cases h
      · rename_i seg hseg
        split at h
        · cases h
        · rename_i rest hrest
          cases h
          rw [List.flatMap_cons, ih hrest, PartialDesc.rows, hseg]

theorem BuildInput.single_rows {input : BuildInput} {frame : BuildFrame} {corpus : Corpus}
    (h : input.single frame = some corpus) :
    (input.segment.toOption.map fun seg => (frame, seg.rows frame.nVecs.toNat))
      = some (frame, corpus.rows) := by
  unfold BuildInput.single at h
  split at h
  · rename_i seg hseg
    cases h
    rw [hseg, Segment.corpus_rows]
    rfl
  · cases h

theorem BuildInput.multi_rows {input : BuildInput} {frame : BuildFrame} {corpus : Corpus}
    (h : input.multi = some corpus) :
    (input.partials.map fun descs => (frame, descs.flatMap PartialDesc.rows))
      = some (frame, corpus.rows) := by
  unfold BuildInput.multi at h
  split at h
  · rename_i maps hmaps
    cases h
    obtain ⟨descs, hdescs, hmap⟩ := Option.map_eq_some_iff.mp hmaps
    rw [hdescs, assembleCorpus_rows, ← mapPartials_rows hmap]
    rfl
  · cases h

theorem Request.rows_eq {D : Type} {r : Request D} {use : CorpusUse} {frame : BuildFrame}
    {corpus : Corpus} (h : r.corpus = some (use, frame, corpus)) :
    r.rows = some (frame, corpus.rows) := by
  cases r with
  | build env benv frame' input =>
    obtain ⟨c, hc, heq⟩ := Option.map_eq_some_iff.mp h
    cases heq
    rw [Request.rows]
    split_ifs at hc ⊢
    · exact input.multi_rows hc
    · exact input.single_rows hc
  | flat env benv frame' input =>
    obtain ⟨c, hc, heq⟩ := Option.map_eq_some_iff.mp h
    cases heq
    exact input.single_rows hc
  | ivfpq env benv frame' input =>
    obtain ⟨c, hc, heq⟩ := Option.map_eq_some_iff.mp h
    cases heq
    exact input.single_rows hc
  | extend frame' input image =>
    obtain ⟨c, hc, heq⟩ := Option.map_eq_some_iff.mp h
    cases heq
    exact input.single_rows hc
  | _ => cases h

end Inputs

section Entries

variable (brought : BuildFrame → Corpus → Prop)

/-- Item `i` of the graph is the vector of the row whose TID is `tids[i]`. -/
def IndexEntry.GraphAligned (e : IndexEntry) : Prop :=
  ∀ g, e.handle = some g → ∃ rows, Generation brought e.key rows ∧
    e.tids = rows.map Prod.fst ∧ g.rows = rows.map Prod.snd ∧ e.nVecs = rows.length

def FilesAligned (_ : Dir) (key : Key) (a : Artifacts) : Prop :=
  ∀ f g, a.tids = some f → a.cagra = some g → ∃ rows dim metric, Generation brought key rows ∧
    f = cuvsTidsWrite dim metric (rows.map Prod.fst) ∧ g.rows = rows.map Prod.snd

variable {brought} {e e' : IndexEntry} {a : Artifacts}

theorem IndexEntry.GraphAligned.of_no_handle (h : e.handle = none) : e.GraphAligned brought := by
  intro g hg
  rw [h] at hg
  cases hg

theorem IndexEntry.GraphAligned.congr (h : e.GraphAligned brought) (hkey : e'.key = e.key)
    (hhandle : e'.handle = e.handle) (htids : e'.tids = e.tids) (hn : e'.nVecs = e.nVecs) :
    e'.GraphAligned brought := by
  intro g hg
  rw [hkey, htids, hn]
  exact h g (hhandle ▸ hg)

theorem IndexEntry.GraphAligned.buildRevTidMap (h : e.GraphAligned brought) :
    (buildRevTidMap e).GraphAligned brought :=
  h.congr (buildRevTidMap_field IndexEntry.key (fun _ _ _ => rfl) e)
    (buildRevTidMap_field IndexEntry.handle (fun _ _ _ => rfl) e)
    (buildRevTidMap_field IndexEntry.tids (fun _ _ _ => rfl) e)
    (buildRevTidMap_field IndexEntry.nVecs (fun _ _ _ => rfl) e)

theorem IndexEntry.GraphAligned.of_rows (rows : List (Tid × Vec))
    (hrows : Generation brought e.key rows) (htids : e.tids = rows.map Prod.fst)
    (hn : e.nVecs = e.tids.length) (hg : ∀ g, e.handle = some g → g.rows = rows.map Prod.snd) :
    e.GraphAligned brought := by
  intro g hhandle
  refine ⟨rows, hrows, htids, hg g hhandle, ?_⟩
  rw [hn, htids, List.length_map]

theorem EntryMove.graphAligned (hmove : EntryMove True a e e') (h : e.GraphAligned brought) :
    e'.GraphAligned brought := by
  cases hmove with
  | delta room builds =>
    exact h.congr (refreshDeltaCache_key e) (refreshDeltaCache_field IndexEntry.handle (fun _ => rfl) e)
      (refreshDeltaCache_tids e) (refreshDeltaCache_nVecs e)
  | mainBf room builds prec =>
    exact h.congr (refreshMainBfCache_key e)
      (refreshMainBfCache_field IndexEntry.handle (fun _ _ _ _ _ _ _ => rfl) e)
      (refreshMainBfCache_tids e) (refreshMainBfCache_nVecs e)
  | account lastSearch stats mode => exact h
  | enter => exact h
  | leave => exact h
  | hnsw hnswIdx => exact h
  | shardBf hsharded mtime prec shards => exact h

theorem SlotInit.graphAligned {c : SlotInit} (hn : c.nVecs = c.tids.length)
    (hg : ∀ g, c.handle = some g → ∃ rows, Generation brought c.key rows ∧
      c.tids = rows.map Prod.fst ∧ g.rows = rows.map Prod.snd) (slot : IndexEntry) :
    (c.apply slot).GraphAligned brought := by
  intro g hhandle
  rw [SlotInit.apply_handle] at hhandle
  obtain ⟨rows, hrows, htids, hvecs⟩ := hg g hhandle
  refine ⟨rows, ?_, ?_, hvecs, ?_⟩
  · rwa [SlotInit.apply_key]
  · rwa [SlotInit.apply_tids]
  · rw [SlotInit.apply_nVecs, hn, htids, List.length_map]

theorem cuvsTidsRead_write_tids {dim : ℕ} {metric : Metric} {tids tids' : List Tid}
    {thdr : TidsHeader} (h : cuvsTidsRead (cuvsTidsWrite dim metric tids) = some (thdr, tids')) :
    tids' = tids := by
  obtain ⟨rfl, htids, -⟩ := cuvsTidsRead_eq_some h
  rw [htids]
  exact List.take_length

theorem loadRule_graphAligned (cfg : Config) :
    LoadRule cfg (IndexEntry.GraphAligned brought) (FilesAligned brought) := by
  intro env a key thdr tids init slot ha htids hplan
  have hread := cuvsTidsRead_eq_some (Option.bind_eq_some_iff.mp htids.1).choose_spec.2
  cases hplan with
  | @sharded m shdr recs shards =>
    refine SlotInit.graphAligned (c := .loadSharded env key thdr tids shards a) hread.2.2.1.symm ?_ slot
    rintro g ⟨⟩
  | @flat gpu =>
    refine SlotInit.graphAligned (c := .loadFlat env key thdr tids gpu a) hread.2.2.1.symm ?_ slot
    rintro g ⟨⟩
  | @unsharded graph needed gpu hfile hgraph =>
    refine SlotInit.graphAligned (c := .loadUnsharded env key thdr tids graph needed gpu a)
      hread.2.2.1.symm ?_ slot
    intro g hg
    have hcagra : a.cagra = some g := by
      obtain ⟨c, rfl, hc⟩ | ⟨p, rfl, -⟩ := deserializeIndex_eq_some hgraph
      · obtain rfl : c = g := Option.some.inj hg
        exact hc
      · cases hg
    obtain ⟨f, hf, hf'⟩ := Option.bind_eq_some_iff.mp htids.1
    obtain ⟨rows, dim, metric, hrows, rfl, hvecs⟩ := ha f g hf hcagra
    exact ⟨rows, hrows, cuvsTidsRead_write_tids hf', hvecs⟩

def EntryWrite.Brought (brought : BuildFrame → Corpus → Prop) (e : IndexEntry) : EntryWrite → Prop
  | .build _ t _ => brought t.frame t.corpus
  | .extend _ _ new => ∃ frame, brought frame new ∧ frame.key = e.key
  -- the graph takes the rows in, the TIDs do not
  | .extendFailed .. => False
  | _ => True

theorem EntryWrite.graphAligned {w : EntryWrite} (hw : w.Fits e) (hb : w.Brought brought e)
    (h : e.GraphAligned brought) : (w.apply e).GraphAligned brought := by
  cases w with
  | build now t graph =>
    obtain ⟨hkey, hvecs⟩ := hw
    simp only [EntryWrite.apply, installBuild]
    refine IndexEntry.GraphAligned.buildRevTidMap (.of_rows t.corpus.rows (.build hb hkey.symm) ?_ rfl ?_)
    · exact t.corpus.rows_fst.symm
    · rintro g ⟨⟩
      rw [hvecs, Corpus.rows_snd]
  | sharded now frame tids shards => exact .of_no_handle rfl
  | flat now frame tids gpu =>
    have hnone : (installFlat now frame tids gpu e).handle = none := by
      simp [installFlat, resetEntryStats]
    exact .of_no_handle hnone
  | ivfpq now frame tids codes needed gpu =>
    have hnone : (installIvfpq now frame tids codes needed gpu e).handle = none := by
      simp [installIvfpq, resetEntryStats]
    exact .of_no_handle hnone
  | extend g image new =>
    obtain ⟨frame, hnew, hkey⟩ := hb
    obtain ⟨rows, hrows, htids, hvecs, hn⟩ := h g hw
    have htake : e.tids.take e.nVecs = rows.map Prod.fst := by
      rw [hn, ← List.length_map (f := Prod.fst), ← htids, List.take_length]
    simp only [EntryWrite.apply, extendEntry]
    refine IndexEntry.GraphAligned.buildRevTidMap
      (.of_rows (rows ++ new.rows) (.extend hrows hnew hkey) ?_ ?_ ?_)
    · rw [List.map_append, Corpus.rows_fst, ← htake]
    · show e.nVecs + new.tids.length = (e.tids.take e.nVecs ++ new.tids).length
      rw [htake, List.length_append, List.length_map, hn]
    · rintro g' ⟨⟩
      rw [List.map_append, Corpus.rows_snd, extendedGraph, hvecs]
  | extendFailed g image new => exact hb.elim
  | compact now g image keep =>
    obtain ⟨rows, hrows, htids, hvecs, hn⟩ := h g hw.1
    have htake : e.tids.take e.nVecs = rows.map Prod.fst := by
      rw [hn, ← List.length_map (f := Prod.fst), ← htids, List.take_length]
    simp only [EntryWrite.apply, compactEntry]
    refine IndexEntry.GraphAligned.buildRevTidMap
      (.of_rows (keepMarked keep rows) (.compact hrows keep) ?_ rfl ?_)
    · rw [htake, keepMarked_map]
    · rintro g' ⟨⟩
      rw [hvecs, keepMarked_map]
  | stale now =>
    simp only [EntryWrite.apply, flagStale]
    split_ifs
    · exact h
    · exact h

end Entries

section Files

variable {brought : BuildFrame → Corpus → Prop} {a b : Artifacts} {dir : Dir} {key : Key}

def PersistOp.Aligned (brought : BuildFrame → Corpus → Prop) (key : Key) : PersistOp → Prop
  | .build _ _ tids graph .. | .save _ _ tids graph _ => ∃ rows, Generation brought key rows ∧
      tids = rows.map Prod.fst ∧ graph.rows = rows.map Prod.snd
  | _ => True

theorem FilesAligned.of_core (h : FilesAligned brought dir key a) (htids : b.core.tids = a.core.tids)
    (hcagra : b.core.cagra = a.core.cagra) : FilesAligned brought dir key b := by
  intro f g hf hg
  exact h f g (htids.symm.trans hf) (hcagra.symm.trans hg)

theorem FilesAligned.of_no_tids (h : a.core.tids = none) : FilesAligned brought dir key a := by
  intro f g hf hg
  cases h.symm.trans hf

theorem FilesAligned.of_no_cagra (h : a.core.cagra = none) : FilesAligned brought dir key a := by
  intro f g hf hg
  cases h.symm.trans hg

theorem filesAligned_saved {tids : List Tid} {graph : Cagra} (dim : ℕ) (metric : Metric)
    (fault : Option CommitFault) (tail : List FileOp) (ha : FilesAligned brought dir key a)
    (hrows : ∃ rows, Generation brought key rows ∧ tids = rows.map Prod.fst ∧
      graph.rows = rows.map Prod.snd)
    (htail : tail = [] ∨ tail = [.unlinkShards])
    (hb : b.core = runCore (saveIndexOps (cuvsTidsWrite dim metric tids) graph fault ++ tail) a.core) :
    FilesAligned brought dir key b := by
  obtain ⟨rows, hgen, rfl, hvecs⟩ := hrows
  rcases fault with _ | _ | _
  · intro f g hf hg
    have htids : b.core.tids = some (cuvsTidsWrite dim metric (rows.map Prod.fst)) := by
      rw [hb]
      rcases htail with rfl | rfl <;> rfl
    have hcagra : b.core.cagra = some graph := by
      rw [hb]
      rcases htail with rfl | rfl <;> rfl
    cases htids.symm.trans hf
    cases hcagra.symm.trans hg
    exact ⟨rows, dim, metric, hgen, rfl, hvecs⟩
  · refine ha.of_core ?_ ?_ <;> rw [hb] <;> rcases htail with rfl | rfl <;> rfl
  · refine .of_no_tids ?_
    rw [hb]
    rcases htail with rfl | rfl <;> rfl

/-- Every operation leaves a pair that belongs together, or no pair. -/
theorem filesAligned_steps {op : PersistOp} (hop : op.Aligned brought key)
    (ha : FilesAligned brought dir key a) :
    FilesAligned brought dir key (runFileOps (op.steps a) a) := by
  have hcore := core_runFileOps (op.steps a) a
  rw [filter_steps] at hcore
  cases op with
  | build dim metric tids graph vectors hnsw fault =>
    refine filesAligned_saved dim metric fault _ ha hop ?_ hcore
    rcases fault with _ | _ | _
    · exact .inr rfl
    · exact .inl rfl
    · exact .inl rfl
  | save dim metric tids graph fault =>
    refine filesAligned_saved dim metric fault [] ha hop (.inl rfl) ?_
    rw [List.append_nil]
    exact hcore
  | buildSharded dim metric tids shards vectors fault =>
    cases fault with
    | none => exact .of_no_cagra (by rw [hcore]; rfl)
    | some m =>
      refine .of_no_tids ?_
      rw [hcore, PersistOp.coreSteps, runCore, CrashPrefix.run_append]
      rfl
  | buildFlat dim metric tids vectors fault =>
    cases fault with
    | none => exact .of_no_cagra (by rw [hcore]; rfl)
    | some q => exact ha.of_core (by rw [hcore]; rfl) (by rw [hcore]; rfl)
  | buildIvfpq dim metric tids ivfpq fault =>
    rcases fault with _ | _ | _
    · exact .of_no_cagra (by rw [hcore]; rfl)
    · exact ha.of_core (by rw [hcore]; rfl) (by rw [hcore]; rfl)
    · exact .of_no_tids (by rw [hcore]; rfl)
  | drop => exact .of_no_tids (by rw [hcore]; rfl)

theorem saveOp_aligned {fault : Option SaveFault} {e : IndexEntry} {g : Cagra}
    (h : e.GraphAligned brought) (hg : e.handle = some g) : (saveOp fault e g).Aligned brought e.key := by
  obtain ⟨rows, hrows, htids, hvecs, hn⟩ := h g hg
  refine ⟨rows, hrows, ?_, hvecs⟩
  rw [hn, ← List.length_map (f := Prod.fst), ← htids, List.take_length]

theorem saveRule_graphAligned (cfg : Config) :
    SaveRule cfg (IndexEntry.GraphAligned brought) (FilesAligned brought) := by
  intro fault e g a he _ hg ha
  rw [saveEntryOps_steps fault e g a]
  exact filesAligned_steps (saveOp_aligned he hg) ha

end Files

section Runs

variable {D : Type} [LT D] [DecidableLT D] {cfg : Config} {s : Server}
  {brought : BuildFrame → Corpus → Prop} {given : Given}
  {r : Resident} {x : Effect}

theorem Committed.graphAligned (hcommit : Committed cfg s given r x)
    (h : Holds (IndexEntry.GraphAligned brought) (FilesAligned brought) r)
    (hbuilds : ∀ p ∈ s.builds, brought p.2.frame p.2.corpus) (hwhole : ¬given.halfExtends)
    (hgiven : ∀ use dir frame corpus, given.rows use dir frame corpus → brought frame corpus) :
    Holds (IndexEntry.GraphAligned brought) (FilesAligned brought) x.final.resident := by
  refine hcommit.holds h (saveRule_graphAligned cfg) ?_ ?_ ?_ ?_
  · intro dir key op a hof ha
    refine filesAligned_steps ?_ ha
    cases hof with
    | @build env benv image kind t ht =>
      exact ⟨t.corpus.rows, .build (hbuilds _ ht) rfl, t.corpus.rows_fst.symm, t.corpus.rows_snd.symm⟩
    | save fault he hg => exact saveOp_aligned he hg
    | sharded | flat | ivfpq | drop => trivial
  · intro dir key a b hcore ha
    exact ha.of_core (congrArg Artifacts.Core.tids hcore) (congrArg Artifacts.Core.cagra hcore)
  · intro e he w hw hentry
    cases hw with
    | build now image ht hkey => exact EntryWrite.graphAligned ⟨hkey, rfl⟩ (hbuilds _ ht) hentry
    | sharded now shards hg hsplit hcount hkey =>
      exact EntryWrite.graphAligned (w := .sharded now _ _ _) ⟨hkey, hcount⟩ trivial hentry
    | flat now gpu ht hkey => exact EntryWrite.graphAligned (w := .flat now _ _ _) hkey trivial hentry
    | ivfpq now needed gpu image hg hkey =>
      exact EntryWrite.graphAligned (w := .ivfpq now _ _ _ _ _) hkey trivial hentry
    | extend image hnew hg hkey =>
      exact EntryWrite.graphAligned (w := .extend _ _ _) hg ⟨_, hgiven _ _ _ _ hnew, hkey.symm⟩ hentry
    | extendFailed image hhalf hnew hg hkey => exact absurd hhalf hwhole
    | compact now image ht hg hkey =>
      exact EntryWrite.graphAligned (w := .compact now _ _ _) ⟨hg, by simp [keepBits]⟩ trivial hentry
    | stale now => exact EntryWrite.graphAligned (w := .stale now) trivial trivial hentry
  · intro c slot hc
    refine SlotInit.graphAligned ?_ ?_ slot
    · cases hc <;> rfl
    · cases hc with
      | @build now image kind t ht =>
        rintro g ⟨⟩
        exact ⟨t.corpus.rows, .build (hbuilds _ ht) rfl, t.corpus.rows_fst.symm,
          t.corpus.rows_snd.symm⟩
      | sharded | flat | ivfpq => rintro g ⟨⟩

structure AlignedInvariant (brought : BuildFrame → Corpus → Prop) (s : Server) : Prop where
  holds : Holds (IndexEntry.GraphAligned brought) (FilesAligned brought) s.daemon.resident
  builds : ∀ p ∈ s.builds, brought p.2.frame p.2.corpus

theorem AlignedInvariant.step {r : Request D} (h : AlignedInvariant brought s)
    (hwhole : ¬r.halfExtends s) (hr : ∀ p ∈ r.corpus, brought p.2.1 p.2.2) : AlignedInvariant brought (s.step cfg r) where
  holds := by
    cases r.effect_spec cfg s with
    | serves hserving hresolved hstores hact =>
      have hmoves := hresolved.moves.trans hstores.moves
      exact Holds.keep (Moves.holds (saveRule_graphAligned cfg)
        (fun _ _ _ _ hmove he => hmove.graphAligned he) (loadRule_graphAligned cfg) hmoves h.holds) hact
    | commits hevict hcommit =>
      exact hcommit.graphAligned (hevict.holds (saveRule_graphAligned cfg) h.holds) h.builds hwhole
        fun _ _ _ _ hrows => hr _ hrows.1
  builds := by
    intro p hp
    rcases Server.step_builds hp with hold | hnew
    · exact h.builds p hold
    · exact hr _ hnew.1

def BroughtBy (evs : List (Request D)) (frame : BuildFrame) (corpus : Corpus) : Prop :=
  ∃ r ∈ evs, r.rows = some (frame, corpus.rows)

/-- In every run the graph and the TID array of an entry are the columns of one list of
rows, unless an EXTEND fails with its graph extended. -/
theorem graph_aligned (cfg : Config) (maxVram : ℕ → ℕ) (evs : List (Request D))
    (h : Run.Along (Server.step cfg) (fun s r => ¬r.halfExtends s)
      (Server.initial maxVram Disk.fresh) evs) :
    Run.Along (Server.step cfg)
      (fun s r => ∀ e ∈ (s.step cfg r).daemon.live, e.GraphAligned (BroughtBy evs))
      (Server.initial maxVram Disk.fresh) evs := by
  have hbrought : Run.Along (Server.step cfg) (fun _ r => ∀ p ∈ r.corpus, BroughtBy evs p.2.1 p.2.2)
      (Server.initial maxVram Disk.fresh) evs := by
    refine Run.along_of_forall ?_ _
    intro r hr p hp
    exact ⟨r, hr, Request.rows_eq hp⟩
  refine Run.along_invariant (AlignedInvariant (BroughtBy evs))
    (fun _ _ hinv hr => hinv.step hr.1 hr.2) ?_ ?_ (h.and hbrought)
  · intro s r hinv hr e he
    exact (hinv.step hr.1 hr.2).holds.entries e he
  · refine ⟨⟨fun _ he => (nomatch he), ?_⟩, fun _ hp => (nomatch hp)⟩
    rintro dir key f g ⟨⟩

def sampleGraphBuild : List (Request ℕ) :=
  [.build (Env.quiet 9 100000) (BuildEnv.quiet []) (sampleIndexBuild ⟨1, 2⟩ 2) (sampleInput 101 10),
   .buildEnd (Env.quiet 9 100000) (BuildEnv.quiet []) 0 (.built [])]

def sampleGraphRun : List (Request ℕ) :=
  sampleGraphBuild ++
    [.extend (sampleIndexBuild ⟨1, 2⟩ 1) (sampleInput 201 20) .failed,
     .extend (sampleIndexBuild ⟨1, 2⟩ 1) (sampleInput 301 30) (.extended []),
     .sidecars "index" ⟨1, 2⟩ none
      (some ⟨some { cuvsTombstoneHeaderInit 0 with nEntries := 1 }, [⟨101, 7⟩], 0⟩),
     .compact ⟨1, 2⟩ (some ""), .compactEnd (Env.quiet 9 100000) 0 (some [])]

theorem graph_aligned_sample :
    ((Run.run (Server.step sampleConfig) (Server.initial (fun _ => 0) Disk.fresh)
      sampleGraphRun).daemon.live.map fun e => (e.tids, e.handle)) =
        [([102, 301], some ⟨[], [[11], [30]]⟩)] ∧
    Run.Along (Server.step sampleConfig)
      (fun s r => ∀ e ∈ (s.step sampleConfig r).daemon.live, e.GraphAligned (BroughtBy sampleGraphRun))
      (Server.initial (fun _ => 0) Disk.fresh) sampleGraphRun :=
  ⟨by decide +kernel, graph_aligned sampleConfig (fun _ => 0) sampleGraphRun (by decide +kernel)⟩

/-- The call throws after `cagra::extend`: three rows in the graph, two TIDs. -/
theorem graph_misaligned :
    ¬∀ (cfg : Config) (maxVram : ℕ → ℕ) (evs : List (Request ℕ)), Run.Along (Server.step cfg)
      (fun s r => ∀ e ∈ (s.step cfg r).daemon.live, e.GraphAligned (BroughtBy evs))
      (Server.initial maxVram Disk.fresh) evs := by
  intro h
  have hlast := Run.along_last (h sampleConfig (fun _ => 0) (sampleGraphBuild ++
    [.extend (sampleIndexBuild ⟨1, 2⟩ 1) (sampleInput 201 20) (.failedExtended [])]))
  have hview : ((Run.run (Server.step sampleConfig) (Server.initial (fun _ => 0) Disk.fresh)
      sampleGraphBuild).step sampleConfig (.extend (D := ℕ) (sampleIndexBuild ⟨1, 2⟩ 1)
        (sampleInput 201 20) (.failedExtended []))).daemon.live.map (fun e => (e.handle, e.nVecs))
      = [(some ⟨[], [[10], [11], [20]]⟩, 2)] := by
    decide +kernel
  obtain ⟨e, he, hfields⟩ := List.mem_map.mp (hview ▸ List.mem_singleton_self _)
  obtain ⟨hg, hn⟩ := Prod.mk.inj hfields
  obtain ⟨rows, -, -, hrows, hlen⟩ := hlast e he _ hg
  have hsame : 3 = rows.length := by
    simpa using congrArg List.length hrows
  omega

end Runs

end PgCuvs
