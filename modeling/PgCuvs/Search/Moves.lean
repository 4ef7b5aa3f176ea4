import PgCuvs.LoadSpec
import PgCuvs.Search.Deferred

/-! Every search, immediate, batched or fanned out, is a sequence of small moves:
one entry is refreshed or accounted for, another is evicted, a missing one is
loaded. What every move keeps, every search keeps. -/

namespace PgCuvs

def ShardEntry.base (s : ShardEntry) : ShardEntry :=
  { s with searchCount := 0, errorCount := 0, lastStatus := .ok }

def ShardEntry.graphOnly (s : ShardEntry) : ShardEntry :=
  { s.base with bfIdx := none, bfVramBytes := 0 }

/-- What a search does to an entry whose files are `a`. The end of a fanout is the one that
may leave it (`leaves`). -/
inductive EntryMove (leaves : Prop) (a : Artifacts) (e : IndexEntry) : IndexEntry → Prop
  | account (lastSearch : ℕ) (stats : SearchStats) (mode : SearchMode) :
      EntryMove leaves a e { e with lastSearch, stats, lastSearchMode := mode }
  | enter : EntryMove leaves a e { e with inflight := e.inflight + 1 }
  | leave (h : leaves) (shards : List ShardEntry)
      (hshards : shards.map ShardEntry.base = e.shards.map ShardEntry.base) :
      EntryMove leaves a e { e with inflight := e.inflight - 1, shards }
  | hnsw (hnswIdx : Option Hnsw) (h : ∀ g, hnswIdx = some g → e.hnswIdx = some g ∨ a.hnsw = some g) :
      EntryMove leaves a e { e with hnswIdx }
  | delta (room : Room) (builds : List Vec → ℕ → Bool) :
      EntryMove leaves a e (refreshDeltaCache a room builds e)
  | mainBf (room : Room) (builds : List Vec → ℕ → Bool) (prec : ℕ) :
      EntryMove leaves a e (refreshMainBfCache a room builds prec e)
  | shardBf (hsharded : 2 ≤ e.shardCount) (mtime prec : ℕ) (shards : List ShardEntry)
      (hshards : shards.map ShardEntry.graphOnly = e.shards.map ShardEntry.graphOnly) :
      EntryMove leaves a e { e with mainBfMtime := mtime, bfPrecision := prec, shards }

abbrev EntryMoves (leaves : Prop) (a : Artifacts) : IndexEntry → IndexEntry → Prop :=
  Relation.ReflTransGen (EntryMove leaves a)

inductive Move (cfg : Config) : Resident → Resident → Prop
  | entry {reg : Registry} {disk : Disk} {i : ℕ} {e e' : IndexEntry}
      (hi : reg.live[i]? = some e) (h : EntryMove True (disk cfg.indexDir e.key) e e') :
      Move cfg (reg, disk) (reg.set i e', disk)
  | evict {r r' : Resident} (h : Eviction cfg r r') : Move cfg r r'
  | load {reg : Registry} {disk : Disk} {env : Env} {key : Key} {thdr : TidsHeader}
      {tids : List Tid} {init : IndexEntry → IndexEntry} (hkey : ∀ e ∈ reg.live, e.key ≠ key)
      (htids : TidsAccepted (disk cfg.indexDir key) thdr tids)
      (hplan : LoadPlan env (disk cfg.indexDir key) key thdr tids init) :
      Move cfg (reg, disk) (reg.append init, disk)

abbrev Moves (cfg : Config) : Resident → Resident → Prop := Relation.ReflTransGen (Move cfg)

inductive Store (leaves : Prop) (cfg : Config) : Resident → Resident → Prop
  | mk {reg : Registry} {disk : Disk} {i : ℕ} {e e' : IndexEntry} (hi : reg.live[i]? = some e)
      (h : EntryMove leaves (disk cfg.indexDir e.key) e e') :
      Store leaves cfg (reg, disk) (reg.set i e', disk)

abbrev Stores (leaves : Prop) (cfg : Config) : Resident → Resident → Prop :=
  Relation.ReflTransGen (Store leaves cfg)

variable {L : Prop}

theorem EntryMove.mono {L' : Prop} {a : Artifacts} {e e' : IndexEntry} (h : EntryMove L a e e')
    (hL : L → L') : EntryMove L' a e e' := by
  cases h with
  | account => exact .account ..
  | enter => exact .enter
  | leave h shards hshards => exact .leave (hL h) shards hshards
  | hnsw hnswIdx h => exact .hnsw hnswIdx h
  | delta => exact .delta ..
  | mainBf => exact .mainBf ..
  | shardBf hsharded mtime prec shards hshards => exact .shardBf hsharded mtime prec shards hshards

theorem Stores.mono {L' : Prop} {cfg : Config} {r r' : Resident} (h : Stores L cfg r r')
    (hL : L → L') : Stores L' cfg r r' := by
  refine Relation.ReflTransGen.mono ?_ _ _ h
  rintro _ _ ⟨hi, hmove⟩
  exact .mk hi (hmove.mono hL)

theorem Stores.moves {cfg : Config} {r r' : Resident} (h : Stores L cfg r r') : Moves cfg r r' := by
  refine Relation.ReflTransGen.mono ?_ _ _ h
  rintro _ _ ⟨hi, hmove⟩
  exact Move.entry hi (hmove.mono fun _ => trivial)

theorem EntryMove.key {a : Artifacts} {e e' : IndexEntry} (h : EntryMove L a e e') :
    e'.key = e.key := by
  cases h with
  | delta room builds => exact refreshDeltaCache_key e
  | mainBf room builds prec => exact refreshMainBfCache_key e
  | _ => rfl

theorem EntryMoves.key {a : Artifacts} {e e' : IndexEntry} (h : EntryMoves L a e e') :
    e'.key = e.key := by
  induction h with
  | refl => rfl
  | tail _ hstep ih => exact hstep.key.trans ih

section Holding

variable {cfg : Config} {d : Daemon} {i : ℕ} {e e' : IndexEntry}

theorem Stores.entry {reg : Registry} {disk : Disk} (hi : reg.live[i]? = some e)
    (h : EntryMoves L (disk cfg.indexDir e.key) e e') :
    Stores L cfg (reg, disk) (reg.set i e', disk) := by
  induction h with
  | refl =>
    obtain ⟨hlt, hself⟩ := List.getElem?_eq_some_iff.mp hi
    have hsame : reg.set i e = reg := by
      unfold Registry.set
      rw [← hself, List.set_getElem_self hlt]
    rw [hsame]
  | @tail b c hb hstep ih =>
    have hlt : i < reg.live.length := (List.getElem?_eq_some_iff.mp hi).1
    have hslot : (reg.set i b).live[i]? = some b := List.getElem?_set_self hlt
    have hmove : Store L cfg (reg.set i b, disk) ((reg.set i b).set i c, disk) :=
      Store.mk hslot (by rwa [EntryMoves.key hb])
    have hset : (reg.set i b).set i c = reg.set i c := by
      unfold Registry.set
      rw [List.set_set]
    rw [hset] at hmove
    exact ih.tail hmove

/-- A handler works on `e`, which is slot `i` with moves that are not stored yet. -/
def Holding (L : Prop) (cfg : Config) (d : Daemon) (i : ℕ) (e : IndexEntry) : Prop :=
  ∃ e0, d.live[i]? = some e0 ∧ EntryMoves L (d.disk cfg.indexDir e0.key) e0 e

theorem Holding.of_slot (h : d.live[i]? = some e) : Holding L cfg d i e :=
  ⟨e, h, Relation.ReflTransGen.refl⟩

theorem Holding.moves (h : Holding L cfg d i e) (hstep : EntryMoves L (d.disk cfg.indexDir e.key) e e') :
    Holding L cfg d i e' := by
  obtain ⟨e0, hi, hmoves⟩ := h
  refine ⟨e0, hi, hmoves.trans ?_⟩
  rwa [← EntryMoves.key hmoves]

theorem Holding.move (h : Holding L cfg d i e) (hstep : EntryMove L (d.disk cfg.indexDir e.key) e e') :
    Holding L cfg d i e' :=
  h.moves (Relation.ReflTransGen.single hstep)

theorem Holding.lt (h : Holding L cfg d i e) : i < d.live.length := by
  obtain ⟨e0, hi, -⟩ := h
  exact (List.getElem?_eq_some_iff.mp hi).1

/-- Storing what the handler holds is a sequence of moves. -/
theorem Holding.store (h : Holding L cfg d i e) :
    Stores L cfg d.resident (d.setEntry i e).resident := by
  obtain ⟨e0, hi, hmoves⟩ := h
  exact Stores.entry hi hmoves

theorem Holding.keys (h : Holding L cfg d i e) :
    (d.setEntry i e).live.map IndexEntry.key = d.live.map IndexEntry.key := by
  obtain ⟨e0, hi, hmoves⟩ := h
  refine List.ext_getElem? fun j => ?_
  rw [Daemon.setEntry_live, List.getElem?_map, List.getElem?_map, List.getElem?_set]
  split_ifs with hij hlt
  · subst hij
    rw [hi, Option.map_some, Option.map_some, EntryMoves.key hmoves]
  · subst hij
    exact absurd (List.getElem?_eq_some_iff.mp hi).1 hlt
  · rfl

theorem Holding.stored (h : Holding L cfg d i e) : Holding L cfg (d.setEntry i e) i e :=
  Holding.of_slot (List.getElem?_set_self h.lt)

end Holding

section Load

theorem Evictions.moves {cfg : Config} {r r' : Resident} (h : Evictions cfg r r') :
    Moves cfg r r' :=
  Relation.ReflTransGen.mono (fun _ _ => Move.evict) _ _ h

variable (cfg : Config) (env : Env)

theorem loadIndex_moves {key : Key} {d : Daemon} (hkey : NotResident key d) :
    Moves cfg d.resident (loadIndex cfg env d key).1.resident := by
  obtain ⟨d1, hevict, ⟨-, heq⟩ | ⟨-, hreg⟩⟩ := loadIndex_spec cfg env hkey
  · rw [heq]
    exact hevict.moves
  · obtain ⟨thdr, tids, init, htids, hplan, heq⟩ := hreg
    have hkey1 := hevict.notResident cfg hkey
    rw [← hevict.disk cfg hkey] at htids hplan
    rw [heq]
    exact hevict.moves.tail (Move.load hkey1 htids hplan)

theorem noteColdMiss_resident (d : Daemon) (key : Key) :
    (noteColdMiss cfg d key).resident = d.resident := by
  simp only [noteColdMiss]
  split_ifs
  · rfl
  · split
    · rfl
    · split
      · rfl
      · split_ifs <;> rfl

inductive Resolved (key : Key) (d : Daemon) (r : Resident) : Prop
  | found (h : r = d.resident)
  | loaded (hkey : NotResident key d) (h : r = (loadIndex cfg env d key).1.resident)

theorem searchResolve_spec (d : Daemon) (key : Key) :
    Resolved cfg env key d (searchResolve cfg env d key).1.resident ∧
      ∀ i e, (searchResolve cfg env d key).2 = .ok (i, e) →
        findIndex (searchResolve cfg env d key).1.live key = some i ∧
          (searchResolve cfg env d key).1.live[i]? = some e := by
  unfold searchResolve
  cases hfind : findIndex d.live key with
  | some i =>
    simp only
    cases hslot : d.live[i]? with
    | none => exact ⟨.found rfl, fun _ _ h => by cases h⟩
    | some e =>
      refine ⟨.found rfl, ?_⟩
      rintro j f ⟨⟩
      exact ⟨hfind, hslot⟩
  | none =>
    have hkey : NotResident key d := findIndex_eq_none.mp hfind
    simp only
    rcases hload : loadIndex cfg env d key with ⟨d1, rc⟩
    have hloaded : Resolved cfg env key d d1.resident := .loaded hkey (by rw [hload])
    cases rc with
    | loaded =>
      simp only
      cases hfind1 : findIndex d1.live key with
      | none =>
        refine ⟨?_, fun _ _ h => by cases h⟩
        rw [noteColdMiss_resident]
        exact hloaded
      | some i =>
        simp only
        cases hslot : d1.live[i]? with
        | none =>
          refine ⟨?_, fun _ _ h => by cases h⟩
          rw [noteColdMiss_resident]
          exact hloaded
        | some e =>
          refine ⟨hloaded, ?_⟩
          rintro j f ⟨⟩
          exact ⟨hfind1, hslot⟩
    | failed =>
      refine ⟨?_, fun _ _ h => by cases h⟩
      simp only [reduceCtorEq, if_false, noteColdMiss_resident]
      exact hloaded
    | vram => exact ⟨hloaded, fun _ _ h => by cases h⟩

end Load

section Handlers

variable {D : Type} {cfg : Config} {env : Env} {senv : SearchEnv} {kern : Kernels D}
  {d : Daemon} {i : ℕ} {e : IndexEntry} {frame : SearchFrame} {query : Vec}
  {o : SearchOutcome D}

def SearchOutcome.daemon : SearchOutcome D → Daemon
  | .reply d _ | .batched d _ | .resume d _ _ | .fanout d _ => d

structure SearchSpec (L : Prop) (cfg : Config) (d : Daemon) (i : ℕ) (o : SearchOutcome D) : Prop where
  moves : Stores L cfg d.resident o.daemon.resident
  keys : o.daemon.live.map IndexEntry.key = d.live.map IndexEntry.key
  /-- a merged reply comes from a delta cache in line with its file -/
  merged : ∀ d' r, o = .reply d' r → r.deltaMerged = true →
    ∃ e, d'.live[i]? = some e ∧ DeltaCurrent (d'.disk cfg.indexDir e.key) e

theorem SearchSpec.refl (h : ∀ d' r, o = .reply d' r → r.deltaMerged = false)
    (hd : o.daemon = d) : SearchSpec L cfg d i o where
  moves := by rw [hd]
  keys := by rw [hd]
  merged d' r ho hr := by simp [h d' r ho] at hr

theorem SearchSpec.of_store (h : Holding L cfg d i e) (hd : o.daemon = d.setEntry i e)
    (hmerged : ∀ d' r, o = .reply d' r → r.deltaMerged = true →
      DeltaCurrent (d.disk cfg.indexDir e.key) e) : SearchSpec L cfg d i o where
  moves := by
    rw [hd]
    exact h.store
  keys := by
    rw [hd]
    exact h.keys
  merged d' r ho hr := by
    subst ho
    obtain rfl : d' = d.setEntry i e := hd
    exact ⟨e, List.getElem?_set_self h.lt, hmerged _ r rfl hr⟩

theorem SearchSpec.after_store (h : Holding L cfg d i e) (hspec : SearchSpec L cfg (d.setEntry i e) i o) :
    SearchSpec L cfg d i o where
  moves := h.store.trans hspec.moves
  keys := hspec.keys.trans h.keys
  merged := hspec.merged

theorem failEntry_spec (h : Holding L cfg d i e) (status : Status) (error : String) :
    SearchSpec (D := D) L cfg d i (failEntry env d i e status error) := by
  refine SearchSpec.of_store (h.move (EntryMove.account ..)) rfl ?_
  rintro d' r ⟨⟩ hr
  cases hr

theorem answerEntry_spec (h : Holding L cfg d i e) (k : ℕ) (mode : SearchMode)
    (results : List (CuvsResult D)) (merged : Bool)
    (hmerged : merged = true → DeltaCurrent (d.disk cfg.indexDir e.key) e) :
    SearchSpec L cfg d i (answerEntry env senv d i e k mode results merged) := by
  refine SearchSpec.of_store (h.move (EntryMove.account ..)) rfl ?_
  rintro d' r ⟨⟩ hr
  exact hmerged hr

theorem answerEntry_base_spec (h : Holding L cfg d i e) (k : ℕ) (mode : SearchMode)
    (results : List (CuvsResult D)) :
    SearchSpec L cfg d i (answerEntry env senv d i e k mode results false) :=
  answerEntry_spec h k mode results false fun hr => by cases hr

theorem prefilterSearch_stats {P : IndexEntry → Prop} (hP : ∀ s, P { e with stats := s })
    (revTids : List Tid) (revItemIds : List ℤ) (filterTids : List Tid) :
    P (prefilterSearch kern frame query e revTids revItemIds filterTids).1 := by
  have hself : P e := hP e.stats
  rcases hbf : e.mainBfIdx with _ | bf
  · simp only [prefilterSearch, hbf, Option.isSome_none, Bool.false_eq_true, and_false, if_false]
    split
    · exact hself
    · split <;> exact hself
  · simp only [prefilterSearch, hbf, Bool.false_eq_true, if_false, if_true]
    split
    · split <;> exact hself
    · split
      · split <;> exact hself
      · split_ifs
        · rw [← hbf]
          split <;> exact hP _
        · exact hself

theorem tryPrefilter_stats :
    ∃ s, (tryPrefilter kern senv frame query e).1 = { e with stats := s } := by
  have hself : ∃ s, e = { e with stats := s } := ⟨e.stats, rfl⟩
  unfold tryPrefilter
  split_ifs
  · split
    · exact prefilterSearch_stats (P := fun e' => ∃ s, e' = { e with stats := s })
        (fun s => ⟨s, rfl⟩) ..
    · exact hself
  · exact hself

theorem tryPrefilter_moves (a : Artifacts) (e : IndexEntry) :
    EntryMoves L a e (tryPrefilter kern senv frame query e).1 := by
  have hstats : ∃ s, (tryPrefilter kern senv frame query e).1 = { e with stats := s } :=
    tryPrefilter_stats
  obtain ⟨s, hs⟩ := hstats
  rw [hs]
  exact Relation.ReflTransGen.single (EntryMove.account e.lastSearch s e.lastSearchMode)

variable [LT D] [DecidableLT D]

theorem searchDWedge_spec (h : Holding L cfg d i e) (bf : BfIndex) :
    SearchSpec L cfg d i (searchDWedge cfg env senv kern d i e bf frame query) := by
  simp only [searchDWedge]
  split
  · split
    · exact failEntry_spec h ..
    · exact failEntry_spec h ..
  · generalize (if 0 < frame.nFilterTids then (mapFilter senv frame).map cuvsU64Sort
      else none) = filterTids
    split
    · exact failEntry_spec h ..
    · split
      · split
        · split
          · exact answerEntry_base_spec h ..
          · exact failEntry_spec h ..
        · exact answerEntry_base_spec h ..
      · exact answerEntry_base_spec h ..

theorem searchBruteForce_spec (h : Holding L cfg d i e) :
    SearchSpec L cfg d i (searchBruteForce cfg env senv kern d i e frame query) := by
  simp only [searchBruteForce]
  set e1 := refreshMainBfCache (d.disk cfg.indexDir e.key) (hasRoom env d i) env.bfBuilds
    frame.bfPrecision e
  have h1 : Holding L cfg d i e1 := h.move (EntryMove.mainBf ..)
  split_ifs
  · exact failEntry_spec h1 ..
  · have hmoves : EntryMoves L (d.disk cfg.indexDir e1.key) e1
        (tryPrefilter kern senv frame query e1).1 := tryPrefilter_moves ..
    rcases hpre : tryPrefilter kern senv frame query e1 with ⟨e2, res⟩
    rw [hpre] at hmoves
    have h2 : Holding L cfg d i e2 := h1.moves hmoves
    cases res with
    | some p => exact answerEntry_base_spec h2 ..
    | none =>
      simp only
      split
      · exact failEntry_spec h2 ..
      · exact searchDWedge_spec h2 _

omit [LT D] [DecidableLT D] in
theorem buildShardBfCaches_shards (room : Room) (builds : List Vec → ℕ → Bool)
    (vh : VectorsHeader) (vecs : List Vec) (prec fuel s : ℕ) (e : IndexEntry) :
    ∃ shards, (buildShardBfCaches room builds vh vecs prec fuel s e).1 = { e with shards } ∧
      shards.map ShardEntry.graphOnly = e.shards.map ShardEntry.graphOnly := by
  induction fuel generalizing s e with
  | zero => exact ⟨e.shards, rfl, rfl⟩
  | succ fuel ih =>
    simp only [buildShardBfCaches]
    split
    · exact ⟨e.shards, rfl, rfl⟩
    · rename_i sh hsh
      split_ifs
      · exact ⟨e.shards, rfl, rfl⟩
      · exact ⟨e.shards, rfl, rfl⟩
      · set sh' : ShardEntry :=
          { sh with
            bfIdx := some ⟨vh.dim, (vecs.drop sh.tidOffset).take sh.nVecs, vh.metric, prec⟩
            bfVramBytes := sh.nVecs * vh.dim * bfElementBytes prec }
        obtain ⟨shards, heq, hshards⟩ := ih (s + 1) { e with shards := e.shards.set s sh' }
        refine ⟨shards, heq, hshards.trans ?_⟩
        have hmap : (e.shards.map ShardEntry.graphOnly)[s]? = some sh'.graphOnly := by
          rw [List.getElem?_map, hsh]
          rfl
        obtain ⟨hlt, hself⟩ := List.getElem?_eq_some_iff.mp hmap
        rw [List.map_set, ← hself, List.set_getElem_self hlt]

omit [LT D] [DecidableLT D] in
theorem freeShardBfCaches_shards (e : IndexEntry) :
    (freeShardBfCaches e).shards.map ShardEntry.graphOnly = e.shards.map ShardEntry.graphOnly := by
  simp only [freeShardBfCaches, List.map_map]
  refine List.map_congr_left fun s _ => ?_
  simp only [Function.comp_apply]
  split_ifs <;> rfl

omit [LT D] [DecidableLT D] in
theorem refreshShardBfCaches_eq (a : Artifacts) (room : Room) (builds : List Vec → ℕ → Bool)
    (prec : ℕ) (e : IndexEntry) :
    ∃ mtime prec' shards, (refreshShardBfCaches a room builds prec e).1
        = { e with mainBfMtime := mtime, bfPrecision := prec', shards } ∧
      shards.map ShardEntry.graphOnly = e.shards.map ShardEntry.graphOnly := by
  have hsame : ∃ mtime prec' shards, e = { e with mainBfMtime := mtime, bfPrecision := prec', shards } ∧
      shards.map ShardEntry.graphOnly = e.shards.map ShardEntry.graphOnly :=
    ⟨e.mainBfMtime, e.bfPrecision, e.shards, rfl, rfl⟩
  have hfree := freeShardBfCaches_shards e
  simp only [refreshShardBfCaches]
  split_ifs with hkind
  · exact hsame
  · rcases hfile : a.vectors with _ | f
    · exact ⟨0, e.bfPrecision, _, rfl, hfree⟩
    · simp only
      split_ifs
      · exact hsame
      · split
        · exact ⟨f.mtime, prec, _, rfl, hfree⟩
        · rename_i vh vecs _
          obtain ⟨shards, hbuild, hshards⟩ := buildShardBfCaches_shards room builds vh vecs prec
            (freeShardBfCaches e).shards.length 0
            { freeShardBfCaches e with mainBfMtime := f.mtime, bfPrecision := prec }
          split
          · rename_i e2 hbuilt
            rw [hbuilt] at hbuild
            exact ⟨f.mtime, prec, shards, hbuild, hshards.trans hfree⟩
          · rename_i e2 hbuilt
            rw [hbuilt] at hbuild
            obtain rfl : e2 = _ := hbuild
            exact ⟨f.mtime, prec, _, rfl,
              (freeShardBfCaches_shards _).trans (hshards.trans hfree)⟩

omit [LT D] [DecidableLT D] in
theorem refreshShardBfCaches_moves (a : Artifacts) (room : Room) (builds : List Vec → ℕ → Bool)
    (prec : ℕ) (e : IndexEntry) : EntryMoves L a e (refreshShardBfCaches a room builds prec e).1 := by
  by_cases hkind : e.shardCount < 2 ∨ e.shards = []
  · rw [refreshShardBfCaches, if_pos hkind]
  · obtain ⟨mtime, prec', shards, heq, hshards⟩ := refreshShardBfCaches_eq a room builds prec e
    rw [heq]
    exact Relation.ReflTransGen.single
      (EntryMove.shardBf (by omega) mtime prec' shards hshards)

omit [LT D] [DecidableLT D] in
theorem searchSharded_spec (h : Holding L cfg d i e) :
    SearchSpec (D := D) L cfg d i (searchSharded cfg env d i e frame query) := by
  simp only [searchSharded]
  split
  · exact failEntry_spec h ..
  · generalize hrefreshed : (if (frame.searchMode == 1) = true then
      refreshShardBfCaches (d.disk cfg.indexDir e.key) (hasRoom env d i) env.bfBuilds
        frame.bfPrecision e
      else (e, true)) = p
    have hp : Holding L cfg d i p.1 := by
      rw [← hrefreshed]
      split_ifs
      · exact h.moves (refreshShardBfCaches_moves ..)
      · exact h
    obtain ⟨e1, ready⟩ := p
    simp only
    split
    · exact failEntry_spec hp ..
    · refine SearchSpec.of_store (hp.move EntryMove.enter) rfl ?_
      rintro d' r ⟨⟩

omit [LT D] [DecidableLT D] in
theorem tryCpuHnsw_moves (a : Artifacts) (e : IndexEntry) :
    EntryMoves L a e (tryCpuHnsw a senv kern frame query e).1 := by
  have hload : EntryMoves L a e (loadHnsw a senv e) := by
    unfold loadHnsw
    split_ifs
    · exact Relation.ReflTransGen.refl
    · refine Relation.ReflTransGen.single (EntryMove.hnsw _ ?_)
      intro g hg
      exact .inr (Option.eq_some_of_filter_eq_some hg)
  simp only [tryCpuHnsw]
  split
  · split
    · exact hload
    · split <;> exact hload
  · exact Relation.ReflTransGen.refl

omit [LT D] [DecidableLT D] in
theorem searchDelta_isSome {k device : ℕ} {draw : List (SearchResult D)} {nDc : ℕ}
    (h : searchDelta kern query k device e = (some draw, nDc)) : e.deltaIdx.isSome := by
  unfold searchDelta at h
  split at h
  · cases h
  · rename_i bf hbf
    rw [hbf]
    rfl

theorem searchCagra_spec (h : Holding L cfg d i e) :
    SearchSpec L cfg d i (searchCagra cfg env senv kern d i e frame query) := by
  simp only [searchCagra]
  split
  · exact failEntry_spec h ..
  · split
    · split
      · exact failEntry_spec h ..
      · exact failEntry_spec h ..
    · rename_i raw _
      set e1 := refreshDeltaCache (d.disk cfg.indexDir e.key) (hasRoom env d i) env.bfBuilds e
        with he1
      have h1 : Holding L cfg d i e1 := h.move (EntryMove.delta ..)
      rcases hdraw : searchDelta kern query frame.k e1.gpuDeviceId e1 with ⟨draw, nDc⟩
      obtain ⟨stats, hstats⟩ := cagraFinishOne_fst e1 raw frame.k draw nDc
      have h2 : Holding L cfg d i { e1 with stats := stats } :=
        h1.move (EntryMove.account e1.lastSearch stats e1.lastSearchMode)
      simp only
      rw [hstats]
      refine answerEntry_spec h2 _ _ _ _ ?_
      intro hmerged
      obtain ⟨raw', rfl⟩ := Option.isSome_iff_exists.mp (cagraFinishOne_merged hmerged)
      have hcurrent : DeltaCurrent (d.disk cfg.indexDir e.key) e1 :=
        refreshDeltaCache_current (searchDelta_isSome hdraw)
      rwa [← refreshDeltaCache_key e] at hcurrent

theorem searchGraph_spec (h : Holding L cfg d i e) :
    SearchSpec L cfg d i (searchGraph cfg env senv kern d i e frame query) := by
  have htry : EntryMoves L (d.disk cfg.indexDir e.key) e
      (tryCpuHnsw (d.disk cfg.indexDir e.key) senv kern frame query e).1 := tryCpuHnsw_moves ..
  simp only [searchGraph]
  rcases htried : tryCpuHnsw (d.disk cfg.indexDir e.key) senv kern frame query e with ⟨e1, res⟩
  rw [htried] at htry
  have h1 : Holding L cfg d i e1 := h.moves htry
  cases res with
  | some results => exact answerEntry_base_spec h1 ..
  | none =>
    simp only
    split
    · split
      · exact SearchSpec.of_store h1 rfl fun _ _ ho => by cases ho
      · exact SearchSpec.of_store h1 rfl fun _ _ ho => by cases ho
    · exact SearchSpec.after_store h1 (searchCagra_spec h1.stored)

theorem searchEntry_spec (h : Holding L cfg d i e) :
    SearchSpec L cfg d i (searchEntry cfg env senv kern d i e frame query) := by
  simp only [searchEntry]
  split
  · split
    · split
      · exact SearchSpec.refl (fun _ _ ho => by cases ho) rfl
      · exact SearchSpec.refl (fun _ _ ho => by cases ho) rfl
    · exact searchBruteForce_spec h
  · split
    · exact searchSharded_spec h
    · exact searchGraph_spec h

theorem findIndex_congr {live live' : List IndexEntry} {key : Key}
    (h : live'.map IndexEntry.key = live.map IndexEntry.key) :
    findIndex live' key = findIndex live key := by
  have hmap : ∀ l : List IndexEntry,
      findIndex l key = (l.map IndexEntry.key).findIdx? fun k => k == key := by
    intro l
    unfold findIndex
    rw [List.findIdx?_map]
    rfl
  rw [hmap, hmap, h]

/-- What a search on `key` does: it finds the entry, loads it if need be, and stores what
it changes; what it merges is current. -/
structure ServeSpec (L : Prop) (cfg : Config) (env : Env) (key : Key) (d d' : Daemon) (merged : Bool) : Prop where
  stores : ∃ r, Resolved cfg env key d r ∧ Stores L cfg r d'.resident
  current : merged = true → ∃ i e, findIndex d'.live key = some i ∧ d'.live[i]? = some e ∧
    DeltaCurrent (d'.disk cfg.indexDir key) e

theorem Resolved.moves {key : Key} {r : Resident} (h : Resolved cfg env key d r) :
    Moves cfg d.resident r := by
  cases h with
  | found h => rw [h]
  | loaded hkey h =>
    rw [h]
    exact loadIndex_moves cfg env hkey

theorem ServeSpec.moves {key : Key} {d' : Daemon} {merged : Bool}
    (h : ServeSpec L cfg env key d d' merged) : Moves cfg d.resident d'.resident := by
  obtain ⟨r, hresolved, hstores⟩ := h.stores
  exact hresolved.moves.trans hstores.moves

def SearchOutcome.merged : SearchOutcome D → Bool
  | .reply _ r => r.deltaMerged
  | _ => false

omit [LT D] [DecidableLT D] in
theorem SearchSpec.serve {key : Key} {d0 : Daemon} (h : SearchSpec L cfg d i o)
    (hresolved : Resolved cfg env key d0 d.resident) (hfind : findIndex d.live key = some i) :
    ServeSpec L cfg env key d0 o.daemon o.merged where
  stores := ⟨_, hresolved, h.moves⟩
  current hmerged := by
    cases o with
    | reply d' r =>
      obtain ⟨e, hslot, hcurrent⟩ := h.merged d' r rfl hmerged
      have hfind' : findIndex d'.live key = some i := (findIndex_congr h.keys).trans hfind
      obtain ⟨e', hslot', hkey⟩ := findIndex_eq_some hfind'
      obtain rfl : e = e' := Option.some.inj (hslot.symm.trans hslot')
      exact ⟨i, e, hfind', hslot, hkey ▸ hcurrent⟩
    | batched | resume | fanout => cases hmerged

theorem ServeSpec.of_stores {key : Key} {d d' : Daemon} {r : Resident}
    (hresolved : Resolved cfg env key d r) (h : Stores L cfg r d'.resident) :
    ServeSpec L cfg env key d d' false :=
  ⟨⟨r, hresolved, h⟩, fun hmerged => by cases hmerged⟩

theorem ServeSpec.refl {key : Key} : ServeSpec L cfg env key d d false :=
  .of_stores (.found rfl) Relation.ReflTransGen.refl

theorem handleSearch_spec (cfg : Config) (env : Env) (senv : SearchEnv) (kern : Kernels D)
    (d : Daemon) (frame : SearchFrame) :
    ServeSpec L cfg env frame.key d (handleSearch cfg env senv kern d frame).daemon
      (handleSearch cfg env senv kern d frame).merged := by
  obtain ⟨hresolve, hfound⟩ := searchResolve_spec cfg env d frame.key
  simp only [handleSearch]
  rcases hresolved : searchResolve cfg env d frame.key with ⟨d1, status | ⟨i, e⟩⟩
  · rw [hresolved] at hresolve
    exact ServeSpec.of_stores hresolve Relation.ReflTransGen.refl
  · rw [hresolved] at hresolve hfound
    obtain ⟨hfind, hslot⟩ := hfound i e rfl
    have h1 : Holding L cfg d1 i { e with lastSearch := env.now } :=
      (Holding.of_slot hslot).move (EntryMove.account env.now e.stats e.lastSearchMode)
    refine SearchSpec.serve (SearchSpec.after_store h1 ?_) hresolve hfind
    simp only
    split
    · exact failEntry_spec h1.stored ..
    · split
      · exact failEntry_spec h1.stored ..
      · split
        · exact SearchSpec.refl (fun _ _ ho => by cases ho; rfl) rfl
        · split
          · exact failEntry_spec h1.stored ..
          · exact searchEntry_spec h1.stored

theorem resumeSearch_spec (cfg : Config) (env : Env) (senv : SearchEnv) (kern : Kernels D)
    (d : Daemon) (frame : SearchFrame) (mode : ℕ) (query : Vec) :
    ServeSpec L cfg env frame.key d (resumeSearch cfg env senv kern d frame mode query).daemon
      (resumeSearch cfg env senv kern d frame mode query).merged := by
  simp only [resumeSearch]
  split
  · exact ServeSpec.refl
  · rename_i i hfind
    split
    · exact ServeSpec.refl
    · rename_i e hslot
      refine SearchSpec.serve ?_ (.found rfl) hfind
      split
      · exact searchBruteForce_spec (Holding.of_slot hslot)
      · exact searchCagra_spec (Holding.of_slot hslot)

end Handlers

end PgCuvs
