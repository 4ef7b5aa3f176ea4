import PgCuvs.Crash.Settled
import PgCuvs.RegistrySteps

/-! Invariants that say one thing of every entry and one of the files of every index:
what searches, loads, evictions and commits have to keep for a run to keep them. -/

namespace PgCuvs

structure Holds (E : IndexEntry → Prop) (F : Dir → Key → Artifacts → Prop) (r : Resident) : Prop where
  entries : ∀ e ∈ r.1.live, E e
  files : ∀ dir key, F dir key (r.2 dir key)

variable {cfg : Config} {E : IndexEntry → Prop} {F : Dir → Key → Artifacts → Prop}
  {r r' : Resident} {reg : Registry} {disk : Disk} {x : Effect}

section Rules

variable (cfg E F)

def SaveRule : Prop :=
  ∀ (fault : Option SaveFault) (e : IndexEntry) (g : Cagra) (a : Artifacts), E e → needsSave e →
    e.handle = some g → F cfg.indexDir e.key a →
    F cfg.indexDir e.key (runFileOps (saveEntryOps fault e g).1 a)

def MoveRule : Prop :=
  ∀ (e e' : IndexEntry) (a : Artifacts), F cfg.indexDir e.key a → EntryMove True a e e' → E e → E e'

def LoadRule : Prop :=
  ∀ (env : Env) (a : Artifacts) (key : Key) (thdr : TidsHeader) (tids : List Tid)
    (init : IndexEntry → IndexEntry) (slot : IndexEntry), F cfg.indexDir key a →
    TidsAccepted a thdr tids → LoadPlan env a key thdr tids init → E (init slot)

end Rules

theorem mem_live_set {i : ℕ} {e e' : IndexEntry} (h : e ∈ (reg.set i e').live) :
    e ∈ reg.live ∨ e = e' :=
  List.mem_or_eq_of_mem_set h

theorem mem_live_append {init : IndexEntry → IndexEntry} {e : IndexEntry}
    (h : e ∈ (reg.append init).live) :
    e ∈ reg.live ∨ e = init (reg.tail.headD IndexEntry.zero) := by
  rw [Registry.append_live] at h
  rcases List.mem_append.mp h with h | h
  · exact .inl h
  · exact .inr (List.mem_singleton.mp h)

theorem mem_live_removeIdx {i : ℕ} {e e' : IndexEntry} (h : e ∈ (reg.removeIdx i e').live) :
    e ∈ reg.live :=
  List.mem_of_mem_eraseIdx h

theorem Holds.set {i : ℕ} {e : IndexEntry} (h : Holds E F (reg, disk)) (he : E e) :
    Holds E F (reg.set i e, disk) := by
  refine ⟨?_, h.files⟩
  intro e' he'
  rcases mem_live_set he' with hold | rfl
  · exact h.entries e' hold
  · exact he

theorem Holds.append {init : IndexEntry → IndexEntry} (h : Holds E F (reg, disk))
    (hinit : ∀ slot, E (init slot)) : Holds E F (reg.append init, disk) := by
  refine ⟨?_, h.files⟩
  intro e' he'
  rcases mem_live_append he' with hold | rfl
  · exact h.entries e' hold
  · exact hinit _

theorem Holds.removeIdx {i : ℕ} {e : IndexEntry} (h : Holds E F (reg, disk)) :
    Holds E F (reg.removeIdx i e, disk) :=
  ⟨fun e' he' => h.entries e' (mem_live_removeIdx he'), h.files⟩

theorem Holds.modify {dir : Dir} {key : Key} {f : Artifacts → Artifacts}
    (h : Holds E F (reg, disk)) (hf : F dir key (disk dir key) → F dir key (f (disk dir key))) :
    Holds E F (reg, disk.modify dir key f) := by
  refine ⟨h.entries, ?_⟩
  intro dir' key'
  by_cases hsame : dir' = dir ∧ key' = key
  · obtain ⟨rfl, rfl⟩ := hsame
    simp only [Disk.modify_same]
    exact hf (h.files _ _)
  · have hother : disk.modify dir key f dir' key' = disk dir' key' := if_neg hsame
    simp only [hother]
    exact h.files dir' key'

theorem Evictions.live_subset (h : Evictions cfg r r') : ∀ e ∈ r'.1.live, e ∈ r.1.live := by
  induction h with
  | refl => exact fun _ he => he
  | tail _ hstep ih =>
    cases hstep with
    | drop hi hdev hneeds => exact fun e he => ih e (mem_live_removeIdx he)
    | saved hi hdev hneeds hg => exact fun e he => ih e (mem_live_removeIdx he)
    | failed fault hi hneeds hg => exact ih

theorem Evictions.holds (hsave : SaveRule cfg E F) (hsteps : Evictions cfg r r')
    (h : Holds E F r) : Holds E F r' := by
  induction hsteps with
  | refl => exact h
  | tail _ hstep ih =>
    cases hstep with
    | drop hi hdev hneeds => exact ih.removeIdx
    | saved hi hdev hneeds hg =>
      refine (ih.modify ?_).removeIdx
      exact hsave none _ _ _ (ih.entries _ (List.mem_of_getElem? hi)) hneeds hg
    | failed fault hi hneeds hg =>
      refine ih.modify ?_
      exact hsave (some fault) _ _ _ (ih.entries _ (List.mem_of_getElem? hi)) hneeds hg

theorem Moves.holds (hsave : SaveRule cfg E F) (hmove : MoveRule cfg E F)
    (hload : LoadRule cfg E F) (hsteps : Moves cfg r r') (h : Holds E F r) : Holds E F r' := by
  induction hsteps with
  | refl => exact h
  | tail _ hstep ih =>
    cases hstep with
    | entry hi hentry =>
      exact ih.set (hmove _ _ _ (ih.files _ _) hentry (ih.entries _ (List.mem_of_getElem? hi)))
    | evict hevict => exact Evictions.holds hsave (Relation.ReflTransGen.single hevict) ih
    | load hkey htids hplan => exact ih.append fun slot => hload _ _ _ _ _ _ slot (ih.files _ _) htids hplan

theorem Holds.replace {i : ℕ} {e : IndexEntry} {w : EntryWrite} (h : Holds E F x.daemon.resident)
    (hi : x.daemon.registry.live[i]? = some e) (hact : x.action = .replace i w)
    (hw : E e → E (w.apply e)) : Holds E F x.final.resident := by
  have hfinal : x.final.resident = (x.daemon.registry.set i (w.apply e), x.daemon.disk) := by
    simp only [Effect.final, Daemon.act, Daemon.resident, hact, Registry.act, hi]
  rw [hfinal]
  exact Holds.set h (hw (h.entries e (List.mem_of_getElem? hi)))

theorem Holds.register {c : SlotInit} (h : Holds E F x.daemon.resident)
    (hact : x.action = .register c) (hc : ∀ slot, E (c.apply slot)) : Holds E F x.final.resident := by
  have hfinal : x.final.resident = (x.daemon.registry.append c.apply, x.daemon.disk) := by
    simp only [Effect.final, Daemon.act, Daemon.resident, hact, Registry.act]
  rw [hfinal]
  exact Holds.append h hc

theorem Holds.remove {i : ℕ} {e : IndexEntry} (h : Holds E F x.daemon.resident)
    (hi : x.daemon.registry.live[i]? = some e) (hact : x.action = .remove i) :
    Holds E F x.final.resident := by
  have hfinal : x.final.resident
      = (x.daemon.registry.removeIdx i (freeDropped e), x.daemon.disk) := by
    simp only [Effect.final, Daemon.act, Daemon.resident, hact, Registry.act, hi]
  rw [hfinal]
  exact Holds.removeIdx h

theorem Holds.keep (h : Holds E F x.daemon.resident) (hact : x.action = .keep) :
    Holds E F x.final.resident := by
  have hfinal : x.final.resident = x.daemon.resident := by
    simp only [Effect.final, Daemon.act, Daemon.resident, hact, Registry.act]
  rwa [hfinal]

theorem loadIndex_holds {env : Env} {d : Daemon} {key : Key} (hsave : SaveRule cfg E F)
    (hload : ∀ (c : SlotInit) a slot, c.Reads a → F cfg.indexDir c.key a → E (c.apply slot))
    (h : Holds E F d.resident) : Holds E F (loadIndex cfg env d key).1.resident := by
  obtain ⟨d1, hevict, heq | ⟨c, hc, hkey, -, heq⟩⟩ := loadIndex_any cfg env d key
  · rw [heq]
    exact hevict.holds hsave h
  · rw [heq]
    have hfiles : F cfg.indexDir c.key (d.disk cfg.indexDir key) := hkey ▸ h.files _ _
    exact Holds.append (hevict.holds hsave h) fun slot => hload c _ slot hc hfiles

section Persist

def saveOp (fault : Option SaveFault) (e : IndexEntry) (g : Cagra) : PersistOp :=
  .save e.dim e.metric (e.tids.take e.nVecs) g (fault.map SaveFault.commitFault)

theorem saveEntryOps_steps (fault : Option SaveFault) (e : IndexEntry) (g : Cagra) (a : Artifacts) :
    (saveEntryOps fault e g).1 = (saveOp fault e g).steps a := by
  rcases fault with _ | _ | _ | _ | _ <;> rfl

def BuildTicket.commitOp (env : Env) (benv : BuildEnv) (t : BuildTicket) (graph : Cagra) : PersistOp :=
  .build t.frame.dim t.frame.metric t.corpus.tids graph (stageVectors env benv t.vectors)
    (if t.frame.useCpuHnsw then benv.hnswFile graph.rows else none)
    (benv.fault.map SaveFault.commitFault)

end Persist

section Commits

variable (cfg : Config) (s : Server) (given : Given)

/-- The operations a request runs on the files of an index. -/
inductive OpOf (E : IndexEntry → Prop) : Key → PersistOp → Prop
  | build (env : Env) (benv : BuildEnv) (image : List UInt8) {kind : CorpusKind} {t : BuildTicket}
      (ht : (kind, t) ∈ s.builds) : OpOf E t.frame.key (t.commitOp env benv ⟨image, t.corpus.vecs⟩)
  | sharded (shards : List ShardBuild) (stage : VectorsStage) (fault : Option ℕ) {dir : Dir}
      {frame : BuildFrame} {corpus : Corpus} (hrows : given.rows .cagra dir frame corpus) :
      OpOf E frame.key (.buildSharded frame.dim frame.metric corpus.tids shards stage fault)
  | flat (vectors : Stamped VectorsFile) (fault : Option FlatFault) {dir : Dir}
      {frame : BuildFrame} {corpus : Corpus} (hrows : given.rows .flat dir frame corpus) :
      OpOf E frame.key (.buildFlat frame.dim frame.metric corpus.tids vectors fault)
  | ivfpq (ivfpq : IvfPq) (fault : Option CommitFault) {dir : Dir} {frame : BuildFrame}
      {corpus : Corpus} (hrows : given.rows .ivfpq dir frame corpus) :
      OpOf E frame.key (.buildIvfpq frame.dim frame.metric corpus.tids ivfpq fault)
  | save (fault : Option SaveFault) {e : IndexEntry} {g : Cagra} (he : E e)
      (hg : e.handle = some g) : OpOf E e.key (saveOp fault e g)
  | drop (key : Key) : OpOf E key .drop

/-- The rewrites of an entry that a request ends with. -/
inductive WriteOf (e : IndexEntry) : EntryWrite → Prop
  | build (now : ℕ) (image : List UInt8) {kind : CorpusKind} {t : BuildTicket}
      (ht : (kind, t) ∈ s.builds) (hkey : e.key = t.frame.key) :
      WriteOf e (.build now t ⟨image, t.corpus.vecs⟩)
  | sharded (now : ℕ) (shards : List ShardEntry) {dir : Dir} {frame : BuildFrame} {corpus : Corpus}
      (hrows : given.rows .cagra dir frame corpus) (hsplit : 2 ≤ resolveShardCount cfg s.daemon frame)
      (hcount : 2 ≤ shards.length) (hkey : e.key = frame.key) :
      WriteOf e (.sharded now frame corpus.tids shards)
  | flat (now gpu : ℕ) {t : FlatTicket} (ht : t ∈ s.flats) (hkey : e.key = t.frame.key) :
      WriteOf e (.flat now t.frame t.tids gpu)
  | ivfpq (now needed gpu : ℕ) (image : List UInt8) {dir : Dir} {frame : BuildFrame}
      {corpus : Corpus} (hrows : given.rows .ivfpq dir frame corpus) (hkey : e.key = frame.key) :
      WriteOf e (.ivfpq now frame corpus.tids ⟨image, corpus.vecs⟩ needed gpu)
  | extend (image : List UInt8) {dir : Dir} {frame : BuildFrame} {new : Corpus} {g : Cagra}
      (hrows : given.rows .extend dir frame new) (hg : e.handle = some g) (hkey : e.key = frame.key) :
      WriteOf e (.extend g image new)
  | extendFailed (image : List UInt8) {dir : Dir} {frame : BuildFrame} {new : Corpus} {g : Cagra}
      (hhalf : given.halfExtends) (hrows : given.rows .extend dir frame new)
      (hg : e.handle = some g) (hkey : e.key = frame.key) :
      WriteOf e (.extendFailed g image new)
  | compact (now : ℕ) (image : List UInt8) {t : CompactTicket} {g : Cagra} (ht : t ∈ s.compacts)
      (hg : e.handle = some g) (hkey : e.key = t.key) :
      WriteOf e (.compact now g image (keepBits t.deadTids e))
  | stale (now : ℕ) : WriteOf e (.stale now)

inductive InitOf : SlotInit → Prop
  | build (now : ℕ) (image : List UInt8) {kind : CorpusKind} {t : BuildTicket}
      (ht : (kind, t) ∈ s.builds) : InitOf (.build now t ⟨image, t.corpus.vecs⟩)
  | sharded (now : ℕ) (shards : List ShardEntry) {dir : Dir} {frame : BuildFrame} {corpus : Corpus}
      (hrows : given.rows .cagra dir frame corpus) (hcount : 2 ≤ shards.length) :
      InitOf (.sharded now frame corpus.tids shards)
  | flat (now gpu : ℕ) {t : FlatTicket} (ht : t ∈ s.flats) : InitOf (.flat now t.frame t.tids gpu)
  | ivfpq (now needed gpu : ℕ) (image : List UInt8) {dir : Dir} {frame : BuildFrame}
      {corpus : Corpus} (hrows : given.rows .ivfpq dir frame corpus) (hpos : 0 < corpus.tids.length) :
      InitOf (.ivfpq now frame corpus.tids ⟨image, corpus.vecs⟩ needed gpu)

variable {cfg s given} {found : Option IndexEntry} {e : IndexEntry} {key : Key}
  {f : Dir → Artifacts → Artifacts} {status : Status} {o : Outcome}

theorem Change.writeOf {w : EntryWrite} (h : Change cfg s given (some e) key f status (.write w))
    (hkey : e.key = key) : WriteOf cfg s given e w := by
  cases h with
  | build env benv image ht hbuilt hfault ho =>
    cases Outcome.install_write ho
    exact .build env.now image ht hkey
  | sharded env benv hrows hsplit hcount ho =>
    cases Outcome.install_write ho
    exact .sharded env.now _ hrows hsplit (by rwa [length_shardEntries]) hkey
  | flat now gpu ht ho =>
    cases Outcome.install_write ho
    exact .flat now gpu ht hkey
  | ivfpq now needed gpu image hrows hpos ho =>
    cases Outcome.install_write ho
    exact .ivfpq now needed gpu image hrows hkey
  | extend image hrows hg => exact .extend image hrows hg hkey
  | extendFailed image hhalf hrows hg => exact .extendFailed image hhalf hrows hg hkey
  | compact now image fault ht hcompacted hg hdead => exact .compact now image ht hg hkey
  | stale now opens key ho =>
    cases Outcome.write.inj ho
    exact .stale now
  | drop key ho => cases ho

theorem Change.initOf {c : SlotInit} (h : Change cfg s given none key f status (.create c)) :
    InitOf s given c := by
  cases h with
  | build env benv image ht hbuilt hfault ho =>
    cases Outcome.install_create ho
    exact .build env.now image ht
  | sharded env benv hrows hsplit hcount ho =>
    cases Outcome.install_create ho
    exact .sharded env.now _ hrows (by rwa [length_shardEntries])
  | flat now gpu ht ho =>
    cases Outcome.install_create ho
    exact .flat now gpu ht
  | ivfpq now needed gpu image hrows hpos ho =>
    cases Outcome.install_create ho
    exact .ivfpq now needed gpu image hrows hpos
  | stale now opens key ho => cases ho
  | drop key ho => cases ho

theorem Change.files (h : Change cfg s given found key f status o)
    (hfound : ∀ e ∈ found, e.key = key)
    (hwrite : ∀ e ∈ found, ∀ w, WriteOf cfg s given e w → E (w.apply e)) (dir : Dir)
    (a : Artifacts) :
    (f dir a).core = a.core ∨
      ∃ op, OpOf s given E key op ∧ (f dir a).core = (runFileOps (op.steps a) a).core := by
  have hside : ∀ {dir' : Dir} {g : Artifacts → Artifacts}, (∀ b, (g b).core = b.core) →
      (onDir dir' g dir a).core = a.core := by
    intro dir' g hg
    unfold onDir
    split_ifs
    · exact hg a
    · rfl
  have hop : ∀ {dir' : Dir} {g : Artifacts → Artifacts} (op : PersistOp), OpOf s given E key op →
      (∀ b, g b = runFileOps (op.steps b) b) → (onDir dir' g dir a).core = a.core ∨
        ∃ op, OpOf s given E key op ∧ (onDir dir' g dir a).core = (runFileOps (op.steps a) a).core := by
    intro dir' g op hof hg
    unfold onDir
    split_ifs
    · exact .inr ⟨op, hof, by rw [hg]⟩
    · exact .inl rfl
  cases h with
  | nothing => exact .inl rfl
  | build env benv image ht => exact hop _ (.build env benv image ht) fun _ => rfl
  | buildFailed env benv image ht => exact hop _ (.build env benv image ht) fun _ => rfl
  | sharded env benv hrows => exact hop _ (.sharded _ _ none hrows) fun _ => rfl
  | shardedUnwritten stage hrows => exact .inl (hside fun b => by cases stage <;> rfl)
  | shardedFailed env benv shards done hrows =>
    exact hop _ (.sharded shards _ (some done) hrows) fun _ => rfl
  | flatFiles now hrows => exact hop _ (.flat _ none hrows) fun _ => rfl
  | flatFailed now fault hrows => exact hop _ (.flat _ (some fault) hrows) fun _ => rfl
  | flat now gpu ht ho => exact .inl rfl
  | @ivfpq now needed gpu image _ _ frame corpus _ hrows =>
    exact hop _ (.ivfpq ⟨image, corpus.vecs⟩ none hrows) fun _ => rfl
  | @ivfpqFailed image fault _ frame corpus hrows =>
    exact hop _ (.ivfpq ⟨image, corpus.vecs⟩ (some fault) hrows) fun _ => rfl
  | extend image hrows hg => exact .inl rfl
  | extendFailed image hhalf hrows hg => exact .inl rfl
  | compactNothing ht => exact .inl (hside fun _ => rfl)
  | @compact now image fault e g t ht hcompacted hg hdead =>
    have hkey : e.key = t.key := hfound e rfl
    set e1 := compactEntry now g image (keepBits t.deadTids e) e
    have hentry : E e1 := hwrite e rfl _ (.compact now image ht hg hkey)
    have hek : e1.key = t.key := (buildRevTidMap_key _).trans hkey
    have hcore : (compactFiles cfg fault t e1 ⟨image, keepMarked (keepBits t.deadTids e) g.rows⟩ dir
        a).core = (onDir cfg.indexDir (runFileOps (saveEntryOps fault e1
          ⟨image, keepMarked (keepBits t.deadTids e) g.rows⟩).1) dir a).core := by
      simp only [compactFiles]
      unfold onDir
      split_ifs <;> rfl
    -- the sidecars COMPACT drops are not part of the core, what is left is the save
    rw [hcore, ← hek]
    rw [← hek] at hop
    refine hop (saveOp fault e1 _) (.save fault hentry (buildRevTidMap_handle _)) ?_
    intro b
    rw [saveEntryOps_steps]
  | stale now opens key ho =>
    refine .inl (hside fun b => ?_)
    cases opens <;> rfl
  | drop key ho => exact hop _ (.drop key) fun _ => rfl
  | sidecars dir' key delta tombstone => exact .inl (hside fun _ => rfl)

theorem Holds.modifyKey {reg : Registry} {disk : Disk} (h : Holds E F (reg, disk))
    (hf : ∀ dir, F dir key (disk dir key) → F dir key (f dir (disk dir key))) :
    Holds E F (reg, disk.modifyKey key f) := by
  refine ⟨h.entries, ?_⟩
  intro dir key'
  change F dir key' (disk.modifyKey key f dir key')
  by_cases hk : key' = key
  · subst hk
    rw [Disk.modifyKey_same]
    exact hf dir (h.files dir key')
  · rw [Disk.modifyKey_of_ne _ _ _ hk]
    exact h.files dir key'

/-- What a commit has to keep, one thing at a time. `F` is about the files a load pairs. -/
theorem Committed.holds (hcommit : Committed cfg s given r x) (h : Holds E F r)
    (hsave : SaveRule cfg E F)
    (hop : ∀ dir key op a, OpOf s given E key op → F dir key a →
      F dir key (runFileOps (op.steps a) a))
    (hcore : ∀ dir key a b, b.core = Artifacts.core a → F dir key a → F dir key b)
    (hwrite : ∀ e ∈ r.1.live, ∀ w, WriteOf cfg s given e w → E e → E (w.apply e))
    (hinit : ∀ c slot, InitOf s given c → E (c.apply slot)) : Holds E F x.final.resident := by
  have hfiles : ∀ {found key f status o}, Change cfg s given found key f status o →
      (∀ e ∈ found, e.key = key ∧ e ∈ r.1.live) → Holds E F (r.1, r.2.modifyKey key f) := by
    intro found key f status o hchange hfound
    refine Holds.modifyKey h fun dir ha => ?_
    have hwrites : ∀ e ∈ found, ∀ w, WriteOf cfg s given e w → E (w.apply e) := fun e he w hw =>
      hwrite e (hfound e he).2 w hw (h.entries e (hfound e he).2)
    rcases hchange.files (fun e he => (hfound e he).1) hwrites dir (r.2 dir key) with
      hsame | ⟨op, hof, hsame⟩
    · exact hcore _ _ _ _ hsame ha
    · exact hcore _ _ _ _ hsame (hop _ _ _ _ hof ha)
  have hslot : ∀ {i : ℕ} {e : IndexEntry} {reg : Registry} {disk : Disk},
      x.daemon.resident = (reg, disk) → reg.live[i]? = some e →
        x.daemon.registry.live[i]? = some e := by
    intro i e reg disk hx hi
    rwa [show x.daemon.registry = reg from congrArg Prod.fst hx]
  have hmem : ∀ {i : ℕ} {e : IndexEntry} {key : Key}, r.1.live[i]? = some e → e.key = key →
      ∀ e' ∈ some e, e'.key = key ∧ e' ∈ r.1.live := by
    rintro i e key hi hkey e' ⟨⟩
    exact ⟨hkey, List.mem_of_getElem? hi⟩
  cases hcommit with
  | restart hx hact =>
    have hempty : Holds E F (⟨[], []⟩, r.2) := ⟨fun e he => (nomatch he), h.files⟩
    exact Holds.keep (hx ▸ hempty) hact
  | keep hchange hx hact =>
    exact Holds.keep (hx ▸ hfiles hchange fun _ he => (nomatch he)) hact
  | absent hchange hmissing hx hact =>
    exact Holds.keep (hx ▸ hfiles hchange fun _ he => (nomatch he)) hact
  | @write i e key f w hchange hfind hi hkey hx hact =>
    have hfound := hfiles hchange (hmem hi hkey)
    exact Holds.replace (hx ▸ hfound) (hslot hx hi) hact
      (hwrite e (List.mem_of_getElem? hi) w (hchange.writeOf hkey))
  | create hchange hmissing hevict hact =>
    have hfound := hfiles hchange fun _ he => (nomatch he)
    exact (hevict.holds hsave hfound).register hact fun slot => hinit _ slot hchange.initOf
  | full hchange hmissing hevict hact =>
    exact (hevict.holds hsave (hfiles hchange fun _ he => (nomatch he))).keep hact
  | @remove i e key f hchange hfind hi hkey hx hact =>
    have hfound := hfiles hchange (hmem hi hkey)
    exact Holds.remove (hx ▸ hfound) (hslot hx hi) hact

end Commits

end PgCuvs
