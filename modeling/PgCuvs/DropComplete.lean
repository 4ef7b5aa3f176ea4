import PgCuvs.Gone
import PgCuvs.Library.Run

/-! When a DROP leaves nothing of its index: in the registry, on the worker's list, on disk,
on the devices, and in any later start, reload or warmup. -/

namespace PgCuvs

section World

structure DropWorld where
  server : Server
  held : Option WarmupJob

abbrev DropWorld.daemon (w : DropWorld) : Daemon := w.server.daemon

def DropWorld.drop (cfg : Config) (key : Key) (w : DropWorld) : DropWorld :=
  { w with server := { w.server with daemon := (handleDrop cfg w.daemon key).final } }

inductive LaterEvent (D : Type) where
  | serve (r : Request D)
  | startup (env : Env) (names : List String)
  /-- the worker takes the job at the head of the ring -/
  | take
  | download (files : Artifacts)
  | hydrate (env : Env) (durationMs : ℕ)
  /-- the worker unlinks the sidecars and is done with the job -/
  | hydrated

variable {D : Type} [LT D] [DecidableLT D]

def DropWorld.step (cfg : Config) (w : DropWorld) : LaterEvent D → DropWorld
  | .serve .restart => ⟨w.server.step cfg (.restart : Request D), none⟩
  | .serve r => { w with server := w.server.step cfg r }
  | .startup env names => ⟨w.server.lifeStep cfg (.startup env names : LifeEvent D), none⟩
  | .take =>
    match w.held, w.daemon.warmupQueue with
    | none, j :: js =>
      ⟨{ w.server with daemon := { w.daemon with warmupQueue := js } }, some j⟩
    | _, _ => w
  | .download files =>
    match w.held with
    | some j => { w with server := w.server.lifeStep cfg (.download j.key files : LifeEvent D) }
    | none => w
  | .hydrate env durationMs =>
    match w.held with
    | some j =>
      { w with server := w.server.lifeStep cfg (.hydrate env j.key durationMs : LifeEvent D) }
    | none => w
  | .hydrated =>
    match w.held with
    | some j => ⟨w.server.lifeStep cfg (.hydrated j.key : LifeEvent D), none⟩
    | none => w

/-- The request builds the index anew, or it writes a file for it. -/
def Request.Revives (s : Server) (key : Key) : Request D → Prop
  | .build _ _ frame _ | .flat _ _ frame _ | .ivfpq _ _ frame _ => frame.key = key
  | .buildEnd _ _ j _ => ∃ kind t, s.builds[j]? = some (kind, t) ∧ t.frame.key = key
  | .flatEnd _ j => ∃ t, s.flats[j]? = some t ∧ t.frame.key = key
  | .markStale _ k _ | .sidecars _ k _ _ => k = key
  | _ => False

/-- Nobody asks for the index to be built or writes its files, and a start finds a name of the
index only where there is a file. -/
def LaterEvent.Allowed (cfg : Config) (key : Key) (w : DropWorld) : LaterEvent D → Prop
  | .serve r => ¬r.Revives w.server key
  | .startup _ names =>
    (∃ name ∈ names, (scanKey name).map Prod.fst = some key) →
      w.daemon.disk cfg.indexDir key ≠ Artifacts.empty
  | _ => True

end World

section Owned

/-- What an entry points to outside the registry. -/
inductive Owned where
  | tids
  | handle
  | shards
  | shardHandle (s : ℕ)
  | shardBf (s : ℕ)
  | deltaIdx
  | deltaTids
  | deltaVecsHost
  | mainBfIdx
  | revTids
  | revItemIds
  | hnswIdx
  | ivfpqHandle
deriving DecidableEq, Repr

def pointer {α : Type} (o : Option α) (x : Owned) : List Owned := if o.isSome then [x] else []

def shardPointers (shards : List ShardEntry) : List Owned :=
  shards.zipIdx.flatMap fun (s, i) =>
    pointer s.handle (.shardHandle i) ++ pointer s.bfIdx (.shardBf i)

/-- Every pointer of an entry that is not NULL. -/
def IndexEntry.owned (e : IndexEntry) : List Owned :=
  [[.tids], pointer e.revTids .revTids, pointer e.revItemIds .revItemIds,
    pointer e.deltaIdx .deltaIdx, pointer e.deltaTids .deltaTids,
    pointer e.deltaVecsHost .deltaVecsHost, pointer e.mainBfIdx .mainBfIdx,
    pointer e.handle .handle, pointer e.ivfpqHandle .ivfpqHandle, pointer e.hnswIdx .hnswIdx,
    pointer e.shards.head? .shards, shardPointers e.shards].flatten

def IndexEntry.freeDeltaFrees (e : IndexEntry) : List Owned :=
  pointer e.deltaIdx .deltaIdx ++ pointer e.deltaTids .deltaTids
    ++ pointer e.deltaVecsHost .deltaVecsHost

def IndexEntry.freeShardsFrees (e : IndexEntry) : List Owned := shardPointers e.shards ++ [.shards]

def IndexEntry.dropFrees (e : IndexEntry) : List Owned :=
  e.freeDeltaFrees ++ pointer e.mainBfIdx .mainBfIdx
    ++ (if 2 ≤ e.shardCount then e.freeShardsFrees else pointer e.handle .handle)
    ++ [.tids] ++ pointer e.revTids .revTids ++ pointer e.revItemIds .revItemIds

/-- DROP knows the entry's graphs: those of its shards, or one that is no IVF-PQ index and has no
CPU graph beside it. -/
structure IndexEntry.DropKnows (e : IndexEntry) : Prop where
  hnsw : e.hnswIdx = none
  ivfpq : e.ivfpqHandle = none
  graph : 2 ≤ e.shardCount → e.handle = none
  shards : e.shardCount < 2 → e.shards = []

theorem mem_pointer {α : Type} {o : Option α} {x y : Owned} :
    y ∈ pointer o x ↔ o.isSome ∧ y = x := by
  unfold pointer
  split_ifs with h <;> simp [h]

theorem mem_shardPointers {shards : List ShardEntry} {x : Owned} (h : x ∈ shardPointers shards) :
    (∃ i, x = .shardHandle i) ∨ ∃ i, x = .shardBf i := by
  obtain ⟨⟨s, i⟩, -, hx⟩ := List.mem_flatMap.mp h
  rcases List.mem_append.mp hx with hx | hx
  · exact .inl ⟨i, (mem_pointer.mp hx).2⟩
  · exact .inr ⟨i, (mem_pointer.mp hx).2⟩

theorem IndexEntry.mem_dropFrees_iff {e : IndexEntry} {x : Owned} :
    x ∈ e.dropFrees ↔ x ∈ e.freeDeltaFrees ∨ x ∈ pointer e.mainBfIdx .mainBfIdx ∨
      (if 2 ≤ e.shardCount then x ∈ e.freeShardsFrees else x ∈ pointer e.handle .handle) ∨
      x = .tids ∨ x ∈ pointer e.revTids .revTids ∨ x ∈ pointer e.revItemIds .revItemIds := by
  unfold dropFrees
  split_ifs <;> simp only [List.mem_append, List.mem_singleton, or_assoc]

theorem IndexEntry.not_mem_dropFrees (e : IndexEntry) :
    .hnswIdx ∉ e.dropFrees ∧ .ivfpqHandle ∉ e.dropFrees ∧
      (2 ≤ e.shardCount → .handle ∉ e.dropFrees) ∧ (e.shardCount < 2 → .shards ∉ e.dropFrees) := by
  have hshards : ∀ x, x ∈ e.freeShardsFrees → x = .shards ∨ (∃ i, x = .shardHandle i) ∨
      ∃ i, x = .shardBf i := by
    intro x hx
    rcases List.mem_append.mp hx with hx | hx
    · exact .inr (mem_shardPointers hx)
    · exact .inl (List.mem_singleton.mp hx)
  have hdelta : ∀ x, x ∈ e.freeDeltaFrees → x = .deltaIdx ∨ x = .deltaTids ∨ x = .deltaVecsHost := by
    intro x hx
    simp only [freeDeltaFrees, List.mem_append, mem_pointer] at hx
    tauto
  have hwhat : ∀ x, x ∈ e.dropFrees → x ≠ .hnswIdx ∧ x ≠ .ivfpqHandle ∧
      (2 ≤ e.shardCount → x ≠ .handle) ∧ (e.shardCount < 2 → x ≠ .shards) := by
    intro x hx
    rw [mem_dropFrees_iff] at hx
    rcases hx with hx | hx | hx | rfl | hx | hx
    · rcases hdelta x hx with rfl | rfl | rfl <;> simp
    · obtain ⟨-, rfl⟩ := mem_pointer.mp hx
      simp
    · split_ifs at hx with hcount
      · rcases hshards x hx with rfl | ⟨i, rfl⟩ | ⟨i, rfl⟩
        · exact ⟨by simp, by simp, fun _ => by simp, fun hless => absurd hcount (Nat.not_le.mpr hless)⟩
        · simp
        · simp
      · obtain ⟨-, rfl⟩ := mem_pointer.mp hx
        exact ⟨by simp, by simp, fun hle => absurd hle hcount, fun _ => by simp⟩
    · simp
    · obtain ⟨-, rfl⟩ := mem_pointer.mp hx
      simp
    · obtain ⟨-, rfl⟩ := mem_pointer.mp hx
      simp
  refine ⟨fun h => (hwhat _ h).1 rfl, fun h => (hwhat _ h).2.1 rfl, fun hcount h => ?_,
    fun hcount h => ?_⟩
  · exact (hwhat _ h).2.2.1 hcount rfl
  · exact (hwhat _ h).2.2.2 hcount rfl

theorem IndexEntry.owned_freed_iff (e : IndexEntry) :
    (∀ x ∈ e.owned, x ∈ e.dropFrees) ↔ e.DropKnows := by
  constructor
  · intro h
    obtain ⟨hhnsw, hivfpq, hhandle, hshards⟩ := e.not_mem_dropFrees
    have hnone : ∀ {α : Type} {o : Option α} {x : Owned}, pointer o x ⊆ e.owned →
        x ∉ e.dropFrees → o = none := by
      intro α o x hsub hnot
      by_contra hsome
      exact hnot (h x (hsub (mem_pointer.mpr ⟨Option.isSome_iff_ne_none.mpr hsome, rfl⟩)))
    have howned : ∀ {l : List Owned}, l ∈ [pointer e.hnswIdx .hnswIdx,
        pointer e.ivfpqHandle .ivfpqHandle, pointer e.handle .handle,
        pointer e.shards.head? .shards] → l ⊆ e.owned := by
      intro l hl x hx
      refine List.mem_flatten.mpr ⟨l, ?_, hx⟩
      simp only [List.mem_cons, List.not_mem_nil, or_false] at hl ⊢
      rcases hl with rfl | rfl | rfl | rfl <;> simp
    refine ⟨hnone (howned (by simp)) hhnsw, hnone (howned (by simp)) hivfpq, ?_, ?_⟩
    · exact fun hcount => hnone (howned (by simp)) (hhandle hcount)
    · exact fun hcount => List.head?_eq_none_iff.mp (hnone (howned (by simp)) (hshards hcount))
  · rintro ⟨hhnsw, hivfpq, hgraph, hshards⟩ x hx
    obtain ⟨l, hl, hx⟩ := List.mem_flatten.mp hx
    rw [mem_dropFrees_iff, freeDeltaFrees]
    simp only [List.mem_cons, List.not_mem_nil, or_false, hhnsw, hivfpq] at hl
    rcases hl with rfl | rfl | rfl | rfl | rfl | rfl | rfl | rfl | rfl | rfl | rfl | rfl
    · simp [List.mem_singleton.mp hx]
    · simp [hx]
    · simp [hx]
    · simp [hx]
    · simp [hx]
    · simp [hx]
    · simp [hx]
    · split_ifs with hcount
      · rw [hgraph hcount] at hx
        cases hx
      · simp [hx]
    · cases hx
    · cases hx
    · rcases Nat.lt_or_ge e.shardCount 2 with hcount | hcount
      · rw [hshards hcount] at hx
        cases hx
      · rw [if_pos hcount, (mem_pointer.mp hx).2]
        simp [freeShardsFrees]
    · rcases Nat.lt_or_ge e.shardCount 2 with hcount | hcount
      · rw [hshards hcount] at hx
        cases hx
      · rw [if_pos hcount]
        simp [freeShardsFrees, hx]

end Owned

section Steps

variable {D : Type} [LT D] [DecidableLT D] {cfg : Config} {key : Key} {s : Server} {d : Daemon}

/-- A request that is not about the index leaves nothing of it behind. -/
theorem Gone.step (cfg : Config) (h : Gone key s.daemon) {r : Request D} (hr : ¬r.Revives s key) :
    Gone key (s.step cfg r).daemon := by
  cases r with
  | search env senv kern frame => exact h.handleSearch
  | resume env senv kern frame mode query => exact h.resumeSearch
  | batch env kern latencyUs r0 reqs => exact h.batchRunGroup
  | fanout env senv kern f => exact h.finishFanout
  | build env benv frame input =>
    have hbuild := h.beginBuild cfg env benv hr input
    simp only [Server.step, Request.effect]
    split
    · rename_i heq
      rwa [heq] at hbuild
    · rename_i heq
      rwa [heq] at hbuild
  | buildRetry env j =>
    simp only [Server.step, Request.effect]
    split
    · exact (goneClosed cfg env key).step s.daemon _ h
    · exact h
  | buildEnd env benv j outcome =>
    simp only [Server.step, Request.effect]
    split
    · rename_i kind t ht
      exact h.endBuild fun hk => hr ⟨kind, t, ht, hk⟩
    · exact h
  | flat env benv frame input =>
    have hflat := h.beginBuildFlat cfg env benv hr input
    simp only [Server.step, Request.effect]
    split
    · rename_i heq
      rwa [heq] at hflat
    · rename_i heq
      rwa [heq] at hflat
  | flatEnd env j =>
    simp only [Server.step, Request.effect]
    split
    · rename_i t ht
      exact h.endBuildFlat fun hk => hr ⟨t, ht, hk⟩
    · exact h
  | ivfpq env benv frame input => exact h.handleBuildIvfpq hr
  | extend frame input image => exact h.handleExtend
  | compact k indexDir => exact h
  | compactEnd env j image =>
    simp only [Server.step, Request.effect]
    split
    · exact h.endCompact
    · exact h
  | markStale env k opens => exact h.handleMarkStale hr
  | drop k => exact h.handleDrop
  | sidecars dir k delta tombstone =>
    exact @Gone.modify key k s.daemon h dir (fun a => { a with delta, tombstone }) hr
  | restart => exact h.initial

theorem Gone.loads (h : Gone key d) {keys : List Key} {f : Daemon → Key → Daemon}
    (hf : ∀ d k, Gone key d → Gone key (f d k)) : Gone key (keys.foldl f d) := by
  induction keys generalizing d with
  | nil => exact h
  | cons k keys ih => exact ih (hf d k h)

theorem Gone.registerCold (h : Gone key d) {names : List String}
    (hnames : ∀ name ∈ names, (scanKey name).map Prod.fst ≠ some key) :
    Gone key (registerCold cfg d names) := by
  have hkeys : ∀ k ∈ names.filterMap fun name => (scanKey name).map Prod.fst, k ≠ key := by
    intro k hk
    obtain ⟨name, hname, hscan⟩ := List.mem_filterMap.mp hk
    rintro rfl
    exact hnames name hname hscan
  unfold PgCuvs.registerCold
  split_ifs
  · exact h
  · generalize names.filterMap (fun name => (scanKey name).map Prod.fst) = keys at hkeys
    induction keys generalizing d with
    | nil => exact h
    | cons k keys ih =>
      have hk : k ≠ key := hkeys k List.mem_cons_self
      rw [List.foldl_cons]
      refine ih ?_ fun k' hk' => hkeys k' (List.mem_cons_of_mem k hk')
      by_cases hfound : (findIndex d.live k).isSome
      · rw [if_pos hfound]
        exact h
      · rw [if_neg hfound]
        refine ⟨h.entry, fun c hc => ?_, fun j hj => ?_, h.files⟩
        · simp only at hc
          split_ifs at hc
          · rcases List.mem_append.mp hc with hold | hnew
            · exact h.cold c hold
            · rw [List.mem_singleton.mp hnew]
              exact hk
          · exact h.cold c hc
        · rcases mem_warmupEnqueue hj with hold | rfl
          · exact h.job j hold
          · exact hk

theorem Gone.setColdState (h : Gone key d) (k : Key) (state : WarmupState) :
    Gone key (setColdState d k state) := by
  unfold PgCuvs.setColdState
  split
  · refine ⟨h.entry, fun c hc => ?_, h.job, h.files⟩
    obtain ⟨i, hi, rfl⟩ := List.mem_iff_getElem.mp hc
    rw [List.getElem_modify]
    rw [List.length_modify] at hi
    have hold : d.cold[i].key ≠ key := h.cold _ (List.getElem_mem hi)
    split_ifs
    · exact hold
    · exact hold
  · exact h

theorem Gone.hydrate (h : Gone key d) {env : Env} {k : Key} {durationMs : ℕ} :
    Gone key (hydrate cfg env d k durationMs) := by
  have hload := (h.setColdState k .loading).loadIndex cfg env k
  unfold PgCuvs.hydrate
  simp only
  split
  · rename_i d1 heq
    rw [heq] at hload
    have herase : Gone key { d1 with cold := d1.cold.eraseP fun c => c.key == k } :=
      ⟨hload.entry, fun c hc => hload.cold c (List.mem_of_mem_eraseP hc), hload.job, hload.files⟩
    split
    · split
      · rename_i e hslot
        exact herase.setEntry (hload.entry e (List.mem_of_getElem? hslot))
      · exact herase
    · exact herase
  · rename_i heq
    rw [heq] at hload
    exact hload.setColdState k .failed

structure DropWorld.Gone (key : Key) (w : DropWorld) : Prop where
  daemon : PgCuvs.Gone key w.daemon
  held : ∀ j, w.held = some j → j.key ≠ key

theorem DropWorld.Gone.step {w : DropWorld} (h : w.Gone key) {ev : LaterEvent D}
    (hev : ev.Allowed cfg key w) : (w.step cfg ev).Gone key := by
  cases ev with
  | serve r =>
    have hserve := h.daemon.step cfg hev
    cases r
    case restart => exact ⟨hserve, by rintro _ ⟨⟩⟩
    all_goals exact ⟨hserve, h.held⟩
  | startup env names =>
    -- a name the scan takes for the key would need a file of the key
    have hnames : ∀ name ∈ names, (scanKey name).map Prod.fst ≠ some key := fun name hname hscan =>
      hev ⟨name, hname, hscan⟩ (h.daemon.files cfg.indexDir)
    have hload : ∀ (d : Daemon) (k : Key), PgCuvs.Gone key d →
        PgCuvs.Gone key (loadIndex cfg env d k).1 := fun _ k hd => hd.loadIndex cfg env k
    have hmissing : ∀ (d : Daemon) (k : Key), PgCuvs.Gone key d → PgCuvs.Gone key
        (if findIndex d.live k = none then (loadIndex cfg env d k).1 else d) := by
      intro d k hd
      split_ifs
      · exact hload d k hd
      · exact hd
    refine ⟨?_, by rintro _ ⟨⟩⟩
    exact PgCuvs.Gone.registerCold
      (((h.daemon.initial.loads hload).loads hmissing).loads hmissing) hnames
  | take =>
    unfold DropWorld.step
    simp only
    split
    · rename_i j js hheld hqueue
      have hjobs : ∀ x ∈ j :: js, x.key ≠ key := hqueue ▸ h.daemon.job
      refine ⟨⟨h.daemon.entry, h.daemon.cold, ?_, h.daemon.files⟩, ?_⟩
      · exact fun x hx => hjobs x (List.mem_cons_of_mem j hx)
      · rintro x ⟨⟩
        exact hjobs j List.mem_cons_self
    · exact h
  | download files =>
    unfold DropWorld.step
    simp only
    split
    · rename_i j hheld
      have hcold := h.daemon.setColdState j.key .downloading
      have hfiles := @Gone.modify key j.key w.daemon h.daemon cfg.indexDir (fun _ => files)
        (h.held j hheld)
      exact ⟨⟨hcold.entry, hcold.cold, hcold.job, hfiles.files⟩, h.held⟩
    · exact h
  | hydrate env durationMs =>
    unfold DropWorld.step
    simp only
    split
    · exact ⟨h.daemon.hydrate, h.held⟩
    · exact h
  | hydrated =>
    unfold DropWorld.step
    simp only
    split
    · rename_i j hheld
      exact ⟨h.daemon.modify (h.held j hheld), by rintro _ ⟨⟩⟩
    · exact h

end Steps

section Complete

def Daemon.found (d : Daemon) (key : Key) : Option IndexEntry :=
  (findIndex d.live key).bind fun i => d.live[i]?

section Claim

variable (D : Type) [LT D] [DecidableLT D] (cfg : Config) (key : Key) (w : DropWorld)

/-- What DROP is for. -/
structure DropComplete : Prop where
  entry : NotResident key (w.drop cfg key).daemon
  cold : ∀ c ∈ (w.drop cfg key).daemon.cold, c.key ≠ key
  job : ∀ j ∈ (w.drop cfg key).daemon.warmupQueue, j.key ≠ key
  held : ∀ j, (w.drop cfg key).held = some j → j.key ≠ key
  files : ∀ dir, (w.drop cfg key).daemon.disk dir key = Artifacts.empty
  freed : ∀ e, w.daemon.found key = some e → ∀ x ∈ e.owned, x ∈ e.dropFrees
  /-- no start, reload or warmup registers the index again -/
  buried : ∀ evs : List (LaterEvent D),
    Run.Along (DropWorld.step cfg) (fun w ev => ev.Allowed cfg key w) (w.drop cfg key) evs →
      NotResident key (Run.run (DropWorld.step cfg) (w.drop cfg key) evs).daemon

/-- What the handler relies on. -/
structure DropSafe : Prop where
  entry : (w.daemon.live.countP fun e => e.key == key) ≤ 1
  cold : (w.daemon.cold.countP fun c => c.key == key) ≤ 1
  job : ∀ j ∈ w.daemon.warmupQueue, j.key ≠ key
  held : ∀ j, w.held = some j → j.key ≠ key
  files : (w.daemon.disk cfg.indexDir key).DropKnows
  /-- a build with an `index_dir` of its own has its files there -/
  elsewhere : ∀ dir, dir ≠ cfg.indexDir → w.daemon.disk dir key = Artifacts.empty
  owned : ∀ e, w.daemon.found key = some e → e.DropKnows

end Claim

variable {cfg : Config} {key : Key} {w : DropWorld}

theorem not_mem_eraseP_iff {α : Type} {p : α → Bool} {l : List α} :
    (∀ x ∈ l.eraseP p, ¬p x) ↔ l.countP p ≤ 1 := by
  induction l with
  | nil => simp
  | cons a l ih =>
    by_cases ha : p a
    · rw [List.eraseP_cons_of_pos ha, List.countP_cons_of_pos ha]
      have hzero : l.countP p = 0 ↔ ∀ x ∈ l, ¬p x := List.countP_eq_zero
      rw [← hzero]
      omega
    · rw [List.eraseP_cons_of_neg ha, List.countP_cons_of_neg ha, ← ih]
      simp [ha]

theorem handleDrop_live (cfg : Config) (d : Daemon) :
    (handleDrop cfg d key).final.live = d.live.eraseP fun e => e.key == key := by
  rw [List.eraseP_eq_eraseIdx]
  unfold handleDrop Effect.final
  cases hfind : findIndex d.live key with
  | none =>
    rw [show d.live.findIdx? (fun e => e.key == key) = none from hfind]
    rfl
  | some i =>
    obtain ⟨e, hslot, -⟩ := findIndex_eq_some hfind
    have hslot' : d.registry.live[i]? = some e := hslot
    rw [show d.live.findIdx? (fun e => e.key == key) = some i from hfind]
    simp only [Daemon.act, Daemon.live, Registry.act, hslot', Registry.removeIdx_live]

theorem drop_files_iff :
    (∀ dir, (w.drop cfg key).daemon.disk dir key = Artifacts.empty) ↔
      (w.daemon.disk cfg.indexDir key).DropKnows ∧
        ∀ dir, dir ≠ cfg.indexDir → w.daemon.disk dir key = Artifacts.empty := by
  have hdisk : ∀ dir, (w.drop cfg key).daemon.disk dir key
      = w.daemon.disk.modify cfg.indexDir key Artifacts.dropped dir key := fun _ => rfl
  simp only [hdisk]
  constructor
  · intro h
    have hown := h cfg.indexDir
    rw [Disk.modify_same, Artifacts.dropped_eq_empty_iff] at hown
    refine ⟨hown, fun dir hdir => ?_⟩
    rw [← h dir, Disk.modify_of_dir_ne _ _ hdir]
  · rintro ⟨hknown, hother⟩ dir
    by_cases hdir : dir = cfg.indexDir
    · rw [hdir, Disk.modify_same, Artifacts.dropped_eq_empty_iff]
      exact hknown
    · rw [Disk.modify_of_dir_ne _ _ hdir]
      exact hother dir hdir

theorem DropSafe.gone (h : DropSafe cfg key w) : (w.drop cfg key).Gone key where
  daemon := by
    refine ⟨?_, ?_, h.job, drop_files_iff.mpr ⟨h.files, h.elsewhere⟩⟩
    · have hlive := not_mem_eraseP_iff.mpr h.entry
      rw [← handleDrop_live cfg] at hlive
      exact fun e he => by simpa using hlive e he
    · exact fun c hc => by simpa using not_mem_eraseP_iff.mpr h.cold c hc
  held := h.held

end Complete

section Sample

end Sample

end PgCuvs
