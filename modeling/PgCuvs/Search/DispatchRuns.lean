import PgCuvs.Invariants
import PgCuvs.Library.Run
import PgCuvs.Lifecycle
import PgCuvs.RegistryKeys
import PgCuvs.Search.Dispatch

/-! When every object that a request hands to the kernels is there and of the dimension of its
entry, in every state a daemon gets to. -/

namespace PgCuvs

section Refresh

variable {a : Artifacts} {room : Room} {builds : List Vec → ℕ → Bool} {prec : ℕ} {e : IndexEntry}

def IndexEntry.MainFits (e : IndexEntry) : Prop := ∀ b, e.mainBfIdx = some b → b.dim = e.dim

def IndexEntry.ShardFits (e : IndexEntry) (s : ShardEntry) : Prop :=
  ∃ b, s.bfIdx = some b ∧ b.dim = e.dim

def IndexEntry.DeltaFits (e : IndexEntry) : Prop := ∀ b, e.deltaIdx = some b → b.dim = e.dim

theorem loadDeltaRows_dim {gen : UInt32} {n : ℕ} {hdr : DeltaHeader} {body : List DeltaRecord}
    (hempty : e.deltaIdx = none) {b : BfIndex}
    (hb : (loadDeltaRows room builds gen n hdr body e).deltaIdx = some b) : b.dim = hdr.dim := by
  have hnone : ∀ {b}, e.deltaIdx = some b → b.dim = hdr.dim := by
    intro b hb
    exact nomatch hempty.symm.trans hb
  have hrebuild : ∀ {needed b}, (rebuildDeltaCache builds hdr body needed e).deltaIdx = some b →
      b.dim = hdr.dim := by
    intro needed b hb
    simp only [rebuildDeltaCache] at hb
    split_ifs at hb
    · exact hnone hb
    · obtain rfl := Option.some.inj hb
      rfl
    · exact hnone hb
  simp only [loadDeltaRows] at hb
  split at hb
  · exact hnone hb
  · split at hb
    · split at hb
      · simp only [extendDeltaCache] at hb
        split_ifs at hb
        · exact hnone hb
        · obtain rfl := Option.some.inj hb
          rfl
        · exact hnone hb
      · exact hrebuild hb
    · exact hrebuild hb

theorem refreshDeltaCache_fits (h : e.DeltaFits) : (refreshDeltaCache a room builds e).DeltaFits := by
  intro b hb
  rw [refreshDeltaCache_field IndexEntry.dim fun _ => rfl]
  simp only [refreshDeltaCache] at hb
  split at hb
  · cases hb
  · split at hb
    · exact h b hb
    · split at hb
      · cases hb
      · split_ifs at hb with hfits
        · cases hb
        · cases hb
        · cases hb
        · rw [not_or, not_or, not_not, not_not] at hfits
          exact (loadDeltaRows_dim rfl hb).trans hfits.2.1

theorem vectorsForEntry_dim {f : VectorsFile} {vh : VectorsHeader} {vecs : List Vec}
    (h : vectorsForEntry a f e = some (vh, vecs)) : vh.dim = e.dim := by
  simp only [vectorsForEntry] at h
  split at h
  · exact nomatch h
  · split_ifs at h with hfits
    obtain ⟨rfl, -⟩ := Prod.mk.inj (Option.some.inj h)
    rw [not_or, not_not] at hfits
    exact hfits.1

/-- The file is of the second that the resident cache was built from, and the precision is the
one asked for. -/
def MainReused (a : Artifacts) (prec : ℕ) (e : IndexEntry) : Prop :=
  (∃ f, a.vectors = some f ∧ f.mtime = e.mainBfMtime) ∧ e.bfPrecision = prec

theorem refreshMainBfCache_reused (h : MainReused a prec e) (hsome : e.mainBfIdx.isSome) :
    refreshMainBfCache a room builds prec e = e := by
  obtain ⟨⟨f, hf, hmtime⟩, hprec⟩ := h
  simp only [refreshMainBfCache, hf]
  exact if_pos ⟨hsome, hmtime, hprec⟩

theorem refreshMainBfCache_built (h : ¬ (e.mainBfIdx.isSome ∧ MainReused a prec e)) :
    (refreshMainBfCache a room builds prec e).MainFits := by
  intro b hb
  rw [refreshMainBfCache_field IndexEntry.dim fun _ _ _ _ _ _ _ => rfl]
  simp only [refreshMainBfCache] at hb
  split at hb
  · cases hb
  · rename_i f hf
    rw [if_neg fun hkeep => h ⟨hkeep.1, ⟨f, hf, hkeep.2.1⟩, hkeep.2.2⟩] at hb
    split at hb
    · cases hb
    · rename_i vh vecs hvecs
      split_ifs at hb
      · cases hb
      · cases hb
      · obtain rfl := Option.some.inj hb
        exact vectorsForEntry_dim hvecs

theorem refreshMainBfCache_fits_iff :
    (refreshMainBfCache a room builds prec e).MainFits ↔ (MainReused a prec e → e.MainFits) := by
  by_cases hreused : e.mainBfIdx.isSome ∧ MainReused a prec e
  · rw [refreshMainBfCache_reused hreused.2 hreused.1]
    exact ⟨fun h _ => h, fun h => h hreused.2⟩
  · refine iff_of_true (refreshMainBfCache_built hreused) fun hmain b hb => ?_
    exact absurd ⟨by simp [hb], hmain⟩ hreused

theorem buildShardBfCaches_fits {vh : VectorsHeader} {vecs : List Vec} {fuel s : ℕ}
    {e' : IndexEntry}
    (h : buildShardBfCaches room builds vh vecs prec fuel s e = (e', true))
    (hall : e.shards.length ≤ s + fuel)
    (hdone : ∀ j < s, ∀ sh, e.shards[j]? = some sh → ∃ b, sh.bfIdx = some b ∧ b.dim = vh.dim) :
    ∀ sh ∈ e'.shards, ∃ b, sh.bfIdx = some b ∧ b.dim = vh.dim := by
  have hfinished : e.shards.length ≤ s →
      ∀ sh ∈ e.shards, ∃ b, sh.bfIdx = some b ∧ b.dim = vh.dim := by
    intro hlen sh hsh
    obtain ⟨j, hj⟩ := List.mem_iff_getElem?.mp hsh
    exact hdone j ((List.getElem?_eq_some_iff.mp hj).1.trans_le hlen) sh hj
  induction fuel generalizing s e with
  | zero =>
    obtain rfl : e = e' := (Prod.mk.inj h).1
    exact hfinished hall
  | succ fuel ih =>
    simp only [buildShardBfCaches] at h
    split at h
    · rename_i hend
      obtain rfl : e = e' := (Prod.mk.inj h).1
      exact hfinished (List.getElem?_eq_none_iff.mp hend)
    · rename_i sh hsh
      split_ifs at h
      · cases (Prod.mk.inj h).2
      · cases (Prod.mk.inj h).2
      have hstep : ∀ j < s + 1, ∀ x, (e.shards.set s
          { sh with
            bfIdx := some ⟨vh.dim, (vecs.drop sh.tidOffset).take sh.nVecs, vh.metric, prec⟩
            bfVramBytes := sh.nVecs * vh.dim * bfElementBytes prec })[j]? = some x →
          ∃ b, x.bfIdx = some b ∧ b.dim = vh.dim := by
        intro j hj x hx
        rw [List.getElem?_set] at hx
        split_ifs at hx with hsame hlt
        · obtain rfl := Option.some.inj hx
          exact ⟨_, rfl, rfl⟩
        · exact hdone j (by omega) x hx
      refine ih h (by rw [List.length_set]; omega) hstep fun hlen x hx => ?_
      obtain ⟨j, hj⟩ := List.mem_iff_getElem?.mp hx
      exact hstep j ((List.getElem?_eq_some_iff.mp hj).1.trans_le hlen) x hj

def ShardsReused (a : Artifacts) (prec : ℕ) (e : IndexEntry) : Prop :=
  MainReused a prec e ∧ ∀ s ∈ e.shards, s.bfIdx.isSome

theorem refreshShardBfCaches_reused (hkind : ¬ (e.shardCount < 2 ∨ e.shards = []))
    (h : ShardsReused a prec e) : refreshShardBfCaches a room builds prec e = (e, true) := by
  obtain ⟨⟨⟨f, hf, hmtime⟩, hprec⟩, hall⟩ := h
  simp only [refreshShardBfCaches, if_neg hkind, hf]
  exact if_pos ⟨hmtime, hprec, List.all_eq_true.mpr hall⟩

theorem refreshShardBfCaches_built {e' : IndexEntry} (hnew : ¬ ShardsReused a prec e)
    (h : refreshShardBfCaches a room builds prec e = (e', true)) :
    ∀ s ∈ e'.shards, e'.ShardFits s := by
  obtain ⟨mtime, prec', shards, hframe, -⟩ := refreshShardBfCaches_eq a room builds prec e
  have hdim : e'.dim = e.dim := by
    rw [h] at hframe
    obtain rfl : e' = _ := hframe
    rfl
  simp only [refreshShardBfCaches] at h
  split_ifs at h with hkind
  · cases (Prod.mk.inj h).2
  · rcases hfile : a.vectors with _ | f
    · rw [hfile] at h
      cases (Prod.mk.inj h).2
    rw [hfile] at h
    simp only at h
    rw [if_neg fun hkeep => hnew ⟨⟨⟨f, hfile, hkeep.1⟩, hkeep.2.1⟩,
      List.all_eq_true.mp hkeep.2.2⟩] at h
    split at h
    · cases (Prod.mk.inj h).2
    · rename_i vh vecs hvecs
      split at h
      · rename_i e2 hbuilt
        obtain rfl : e2 = e' := (Prod.mk.inj h).1
        have hvh : vh.dim = e2.dim := (vectorsForEntry_dim hvecs).trans hdim.symm
        intro s hs
        obtain ⟨b, hb, hbdim⟩ := buildShardBfCaches_fits hbuilt (by simp)
          (fun j hj => absurd hj (Nat.not_lt_zero j)) s hs
        exact ⟨b, hb, hbdim.trans hvh⟩
      · cases (Prod.mk.inj h).2

end Refresh

section Entries

variable {L : Prop} {a : Artifacts} {e e' : IndexEntry}

/-- The delta cache has the dimension of its entry, and every shard its graph. -/
structure IndexEntry.Dispatchable (e : IndexEntry) : Prop where
  delta : e.DeltaFits
  shards : ∀ s ∈ e.shards, s.handle.isSome

theorem handles_of_map_eq {f : ShardEntry → ShardEntry} (hf : ∀ s, (f s).handle = s.handle)
    {shards shards' : List ShardEntry} (hmap : shards'.map f = shards.map f)
    (h : ∀ s ∈ shards, s.handle.isSome) : ∀ s ∈ shards', s.handle.isSome := by
  intro s hs
  obtain ⟨t, ht, hst⟩ := List.mem_map.mp (hmap ▸ List.mem_map_of_mem (f := f) hs)
  rw [← hf s, ← hst, hf t]
  exact h t ht

theorem refreshMainBfCache_dispatchable {room : Room} {builds : List Vec → ℕ → Bool} {prec : ℕ}
    (h : e.Dispatchable) : (refreshMainBfCache a room builds prec e).Dispatchable := by
  refine ⟨fun b hb => ?_, fun s hs => ?_⟩
  · rw [refreshMainBfCache_field IndexEntry.deltaIdx fun _ _ _ _ _ _ _ => rfl] at hb
    rw [refreshMainBfCache_field IndexEntry.dim fun _ _ _ _ _ _ _ => rfl]
    exact h.delta b hb
  · rw [refreshMainBfCache_field IndexEntry.shards fun _ _ _ _ _ _ _ => rfl] at hs
    exact h.shards s hs

theorem refreshDeltaCache_dispatchable {room : Room} {builds : List Vec → ℕ → Bool}
    (h : e.Dispatchable) : (refreshDeltaCache a room builds e).Dispatchable := by
  refine ⟨refreshDeltaCache_fits h.delta, fun s hs => ?_⟩
  rw [refreshDeltaCache_field IndexEntry.shards fun _ => rfl] at hs
  exact h.shards s hs

theorem EntryMove.dispatchable (hmove : EntryMove L a e e') (h : e.Dispatchable) :
    e'.Dispatchable := by
  cases hmove with
  | account | enter | hnsw => exact ⟨h.delta, h.shards⟩
  | leave _ shards hshards => exact ⟨h.delta, handles_of_map_eq (f := ShardEntry.base) (fun _ => rfl) hshards h.shards⟩
  | delta room builds => exact refreshDeltaCache_dispatchable h
  | mainBf room builds prec => exact refreshMainBfCache_dispatchable h
  | shardBf _ _ _ shards hshards =>
    exact ⟨h.delta, handles_of_map_eq (f := ShardEntry.graphOnly) (fun _ => rfl) hshards h.shards⟩

theorem buildRevTidMap_objects (e : IndexEntry) :
    (buildRevTidMap e).deltaIdx = e.deltaIdx ∧ (buildRevTidMap e).shards = e.shards :=
  ⟨buildRevTidMap_field IndexEntry.deltaIdx (fun _ _ _ => rfl) e,
    buildRevTidMap_field IndexEntry.shards (fun _ _ _ => rfl) e⟩

theorem buildRevTidMap_dispatchable (h : e.Dispatchable) : (buildRevTidMap e).Dispatchable := by
  unfold buildRevTidMap
  split_ifs
  · exact h
  · exact ⟨h.delta, h.shards⟩

theorem restoreStale_dispatchable (h : e.Dispatchable) : (restoreStale a e).Dispatchable := by
  unfold restoreStale
  split <;> exact ⟨h.delta, h.shards⟩

theorem IndexEntry.Dispatchable.of_empty (hdelta : e.deltaIdx = none)
    (hshards : ∀ s ∈ e.shards, s.handle.isSome) : e.Dispatchable :=
  ⟨fun _ hb => (nomatch hdelta.symm.trans hb), hshards⟩

def EntryWrite.Whole : EntryWrite → Prop
  | .sharded _ _ _ shards => ∀ s ∈ shards, s.handle.isSome
  | _ => True

theorem EntryWrite.dispatchable {w : EntryWrite} (hw : w.Whole) (h : e.Dispatchable) :
    (w.apply e).Dispatchable := by
  cases w with
  | build now t graph =>
    exact buildRevTidMap_dispatchable (.of_empty rfl fun _ hs => nomatch hs)
  | sharded now frame tids shards => exact .of_empty rfl hw
  | flat now frame tids gpu =>
    obtain ⟨hdelta, hshards⟩ := buildRevTidMap_objects _
    exact .of_empty hdelta fun s hs => nomatch hshards ▸ hs
  | ivfpq now frame tids codes needed gpu =>
    exact buildRevTidMap_dispatchable (.of_empty rfl h.shards)
  | extend g image new => exact buildRevTidMap_dispatchable ⟨h.delta, h.shards⟩
  | extendFailed g image new => exact ⟨h.delta, h.shards⟩
  | compact now g image keep => exact buildRevTidMap_dispatchable ⟨h.delta, h.shards⟩
  | stale now =>
    simp only [EntryWrite.apply, flagStale]
    split_ifs
    · exact h
    · exact ⟨h.delta, h.shards⟩

theorem SlotInit.dispatchable {c : SlotInit} (hc : c.Whole) (slot : IndexEntry) :
    (c.apply slot).Dispatchable := by
  cases c with
  | loadSharded env key thdr tids shards a =>
    exact restoreStale_dispatchable (.of_empty (buildRevTidMap_objects _).1 hc)
  | loadFlat => exact restoreStale_dispatchable (.of_empty rfl fun _ hs => nomatch hs)
  | loadUnsharded => exact restoreStale_dispatchable (.of_empty rfl fun _ hs => nomatch hs)
  | build =>
    obtain ⟨hdelta, hshards⟩ := buildRevTidMap_objects _
    exact .of_empty hdelta fun s hs => nomatch hshards ▸ hs
  | sharded => exact .of_empty rfl hc
  | flat => exact .of_empty rfl fun _ hs => nomatch hs
  | ivfpq => exact buildRevTidMap_dispatchable (.of_empty rfl fun _ hs => nomatch hs)

theorem shardEntries_handles (frame : BuildFrame) (shards : List ShardBuild) (i off : ℕ) :
    ∀ s ∈ shardEntries frame i off shards, s.handle.isSome := by
  induction shards generalizing i off with
  | nil => exact fun _ hs => nomatch hs
  | cons s shards ih => exact List.forall_mem_cons.mpr ⟨rfl, ih _ _⟩

end Entries

section Changes

variable {cfg : Config} {env : Env} {s : Server} {given : Given} {r r' : Resident} {d : Daemon}
  {key : Key} {x : Effect}

def AllDispatchable (r : Registry) : Prop := ∀ e ∈ r.live, e.Dispatchable

theorem AllDispatchable.set {reg : Registry} (h : AllDispatchable reg) {i : ℕ} {e : IndexEntry}
    (he : e.Dispatchable) : AllDispatchable (reg.set i e) := by
  intro x hx
  rcases List.mem_or_eq_of_mem_set hx with hold | rfl
  · exact h x hold
  · exact he

theorem AllDispatchable.evict {reg : Registry} {disk : Disk} (h : AllDispatchable reg)
    (hevict : Evictions cfg (reg, disk) r') : AllDispatchable r'.1 :=
  fun e he => h e (hevict.live_subset e he)

theorem AllDispatchable.append {reg : Registry} (h : AllDispatchable reg) {c : SlotInit}
    (hc : c.Whole) : AllDispatchable (reg.append c.apply) := by
  intro e he
  rcases List.mem_append.mp he with hold | hnew
  · exact h e hold
  · rw [List.mem_singleton.mp hnew]
    exact SlotInit.dispatchable hc _

theorem AllDispatchable.load (h : AllDispatchable d.registry) (key : Key) :
    AllDispatchable (loadIndex cfg env d key).1.registry := by
  obtain ⟨d1, hevict, heq | ⟨c, -, -, hwhole, heq⟩⟩ := loadIndex_any cfg env d key
  · rw [heq]
    exact h.evict hevict
  · rw [heq]
    have h1 : AllDispatchable d1.registry := h.evict hevict
    exact h1.append hwhole

theorem Resolved.dispatchable (hresolved : Resolved cfg env key d r)
    (h : AllDispatchable d.registry) : AllDispatchable r.1 := by
  cases hresolved with
  | found heq => exact heq ▸ h
  | loaded _ heq => exact heq ▸ h.load key

theorem Stores.dispatchable {L : Prop} (hstores : Stores L cfg r r') (h : AllDispatchable r.1) :
    AllDispatchable r'.1 := by
  induction hstores with
  | refl => exact h
  | tail _ hstep ih =>
    obtain ⟨hi, hmove⟩ := hstep
    exact ih.set (hmove.dispatchable (ih _ (List.mem_of_getElem? hi)))

def Outcome.Whole : Outcome → Prop
  | .write w => w.Whole
  | .create c => c.Whole
  | .keep | .absent | .remove => True

theorem Outcome.install_whole {found : Option IndexEntry} {w : EntryWrite} {c : SlotInit}
    (hw : w.Whole) (hc : c.Whole) : (Outcome.install found w c).Whole := by
  cases found with
  | none => exact hc
  | some e => exact hw

theorem Change.whole {found : Option IndexEntry} {f : Dir → Artifacts → Artifacts} {status : Status}
    {o : Outcome} (h : Change cfg s given found key f status o) : o.Whole := by
  cases h with
  | build env benv image ht hbuilt hfault ho => exact ho ▸ Outcome.install_whole trivial trivial
  | @sharded env benv _ _ frame _ shards _ hrows hsplit hcount ho =>
    have hshards := shardEntries_handles frame shards 0 0
    exact ho ▸ Outcome.install_whole hshards hshards
  | flat now gpu ht ho => exact ho ▸ Outcome.install_whole trivial trivial
  | ivfpq now needed gpu image hrows hpos ho => exact ho ▸ Outcome.install_whole trivial trivial
  | stale now opens key ho =>
    rw [ho]
    split_ifs <;> trivial
  | drop key ho =>
    rw [ho]
    split_ifs <;> trivial
  | _ => trivial

theorem AllDispatchable.remove {reg : Registry} (h : AllDispatchable reg) (i : ℕ)
    (freed : IndexEntry) : AllDispatchable (reg.removeIdx i freed) :=
  fun e he => h e (mem_live_removeIdx he)

theorem Committed.dispatchable (hcommit : Committed cfg s given r x) (h : AllDispatchable r.1) :
    AllDispatchable x.final.registry := by
  have hfinal : x.final.registry = x.daemon.registry.act x.action := rfl
  have hfirst : ∀ {reg disk}, x.daemon.resident = (reg, disk) → x.daemon.registry = reg :=
    fun hx => congrArg Prod.fst hx
  rw [hfinal]
  cases hcommit with
  | restart hx hact =>
    rw [hact, hfirst hx]
    exact fun _ he => nomatch he
  | keep _ hx hact | absent _ _ hx hact =>
    rw [hact, hfirst hx]
    exact h
  | write hchange hfind hi hkey hx hact =>
    rw [hact, hfirst hx]
    simp only [Registry.act, hi]
    exact h.set (EntryWrite.dispatchable hchange.whole (h _ (List.mem_of_getElem? hi)))
  | create hchange hmissing hevict hact =>
    rw [hact]
    have h1 : AllDispatchable x.daemon.registry := h.evict hevict
    exact h1.append hchange.whole
  | full hchange hmissing hevict hact =>
    rw [hact]
    exact h.evict hevict
  | remove hchange hfind hi hkey hx hact =>
    rw [hact, hfirst hx]
    simp only [Registry.act, hi]
    exact h.remove _ _

end Changes

section Steps

variable {D : Type} [LT D] [DecidableLT D] {cfg : Config}

theorem Server.lifeStep_dispatchable {s : Server} (h : AllDispatchable s.daemon.registry)
    (ev : LifeEvent D) : AllDispatchable (s.lifeStep cfg ev).daemon.registry := by
  cases ev with
  | serve r =>
    change AllDispatchable (r.effect cfg s).final.registry
    cases r.effect_spec cfg s with
    | serves hserving hresolved hstores hact =>
      have hquiet : (r.effect cfg s).final.registry = (r.effect cfg s).daemon.registry := by
        rw [Effect.final, hact]
        rfl
      rw [hquiet]
      exact Stores.dispatchable hstores (hresolved.dispatchable h)
    | commits hevict hcommit => exact hcommit.dispatchable (h.evict hevict)
  | startup env names =>
    exact startupLoadIndexes_induct (P := fun r => AllDispatchable r.1) names
      (fun d key hd => hd.load key) fun _ he => by cases he
  | download key files =>
    simp only [Server.lifeStep]
    rw [setColdState_registry]
    exact h
  | hydrate env key durationMs =>
    refine hydrate_induct (P := fun r => AllDispatchable r.1) key durationMs
      (fun d key hd => hd.load key) ?_ h
    intro reg disk i e c hreg hi
    have he := hreg e (List.mem_of_getElem? hi)
    exact hreg.set ⟨he.delta, he.shards⟩
  | hydrated key => exact h

end Steps

section Guards

variable {cfg : Config} {env : Env} {senv : SearchEnv} {d : Daemon} {i : ℕ} {e e1 : IndexEntry}
  {frame : SearchFrame}

/-- A brute-force search that keeps the resident cache and gets to a kernel finds the cache of
the dimension of the entry. -/
def BruteForceGuarded (cfg : Config) (senv : SearchEnv) (d : Daemon) (e : IndexEntry)
    (frame : SearchFrame) : Prop :=
  MainReused (d.disk cfg.indexDir e.key) frame.bfPrecision e →
    prefilterRuns senv frame e = true
        ∨ 0 < bkDepth frame.k frame.nFilterTids e.mainBfN frame.nVecs →
      e.MainFits

def ShardsGuarded (cfg : Config) (d : Daemon) (e : IndexEntry) (frame : SearchFrame) : Prop :=
  ShardsReused (d.disk cfg.indexDir e.key) frame.bfPrecision e →
    ∀ s ∈ e.shards, min s.nVecs (effK frame.k frame.shardOverfetch) ≠ 0 → e.ShardFits s

theorem allSound_append {calls calls' : List KernelCall} :
    AllSound (calls ++ calls') ↔ AllSound calls ∧ AllSound calls' := List.forall_mem_append

theorem allSound_singleton {c : KernelCall} : AllSound [c] ↔ c.Sound := List.forall_mem_singleton

theorem allSound_nil : AllSound [] := fun _ hc => nomatch hc

theorem sound_main_iff (h : e.mainBfIdx.isSome) :
    (KernelCall.bruteForce e.mainBfIdx e.dim).Sound ↔ e.MainFits := by
  obtain ⟨b, hb⟩ := Option.isSome_iff_exists.mp h
  constructor
  · rintro ⟨c, hc, hdim⟩ b' hb'
    obtain rfl := Option.some.inj (hc.symm.trans hb')
    exact hdim
  · exact fun hfits => ⟨b, hb, hfits b hb⟩

theorem mainFits_of_none (h : ¬ e.mainBfIdx.isSome = true) : e.MainFits := by
  intro b hb
  exact absurd (by simp [hb]) h

theorem deltaCalls_sound (h : e.DeltaFits) : AllSound (deltaCalls e) := by
  unfold deltaCalls
  split_ifs with hdelta
  · obtain ⟨b, hb⟩ := Option.isSome_iff_exists.mp hdelta.1
    exact allSound_singleton.mpr ⟨b, hb, h b hb⟩
  · exact allSound_nil

/-- The CAGRA section looks at its graph, and a delta file is checked when it is loaded. -/
theorem cagraCalls_sound (h : e.DeltaFits) : AllSound (cagraCalls cfg env d i e) := by
  unfold cagraCalls
  split_ifs with hgraph
  · exact List.forall_mem_cons.mpr ⟨hgraph, deltaCalls_sound (refreshDeltaCache_fits h)⟩
  · exact allSound_nil

theorem prefilterCalls_sound_iff :
    AllSound (prefilterCalls senv frame e) ↔ (prefilterRuns senv frame e = true → e.MainFits) := by
  unfold prefilterCalls
  split_ifs with hruns hgraph hcache hcache
  · rw [allSound_append, allSound_singleton, allSound_singleton, sound_main_iff hcache]
    exact ⟨fun h _ => h.2, fun h => ⟨hgraph, h hruns⟩⟩
  · exact iff_of_true (allSound_singleton.mpr hgraph) fun _ => mainFits_of_none hcache
  · rw [List.nil_append, allSound_singleton, sound_main_iff hcache]
    exact ⟨fun h _ => h, fun h => h hruns⟩
  · exact iff_of_true allSound_nil fun _ => mainFits_of_none hcache
  · exact iff_of_true allSound_nil fun h => absurd h hruns

theorem dWedgeCalls_sound_iff :
    AllSound (dWedgeCalls frame e) ↔
      (0 < bkDepth frame.k frame.nFilterTids e.mainBfN frame.nVecs → e.MainFits) := by
  unfold dWedgeCalls
  split_ifs with hcall
  · rw [allSound_singleton, sound_main_iff hcall.1]
    exact ⟨fun h _ => h, fun h => h hcall.2⟩
  · refine iff_of_true allSound_nil fun hdepth => mainFits_of_none fun hsome => ?_
    exact hcall ⟨hsome, hdepth⟩

theorem bruteForceCalls_sound_iff :
    AllSound (bruteForceCalls cfg env senv d i e frame) ↔ BruteForceGuarded cfg senv d e frame := by
  have hcalls : ∀ e1 : IndexEntry,
      AllSound (prefilterCalls senv frame e1 ++ dWedgeCalls frame e1) ↔
        (prefilterRuns senv frame e1 = true
          ∨ 0 < bkDepth frame.k frame.nFilterTids e1.mainBfN frame.nVecs → e1.MainFits) := by
    intro e1
    rw [allSound_append, prefilterCalls_sound_iff, dWedgeCalls_sound_iff, or_imp]
  unfold bruteForceCalls BruteForceGuarded
  by_cases hkept : e.mainBfIdx.isSome ∧ MainReused (d.disk cfg.indexDir e.key) frame.bfPrecision e
  · have hsame : refreshedMain cfg env d i frame.bfPrecision e = e :=
      refreshMainBfCache_reused hkept.2 hkept.1
    simp only [hsame]
    rw [if_neg fun h => absurd (Option.isNone_iff_eq_none.mp h.1) (Option.isSome_iff_ne_none.mp hkept.1),
      hcalls]
    exact ⟨fun h _ => h, fun h => h hkept.2⟩
  · have hfits : (refreshedMain cfg env d i frame.bfPrecision e).MainFits :=
      refreshMainBfCache_built hkept
    refine iff_of_true ?_ fun hreused _ => mainFits_of_none fun hsome => hkept ⟨hsome, hreused⟩
    dsimp only
    split_ifs
    · exact allSound_nil
    · exact (hcalls _).mpr fun _ => hfits

theorem shardCalls_graph_sound (h : e.Dispatchable) :
    AllSound (shardCalls e.dim (shardArgs frame false e)) := by
  intro c hc
  obtain ⟨a, ha, rfl⟩ := List.mem_map.mp hc
  obtain ⟨s, hs, rfl⟩ := List.mem_map.mp (List.mem_filter.mp ha).1
  exact h.shards s hs

theorem shardCalls_cache_iff :
    AllSound (shardCalls e.dim (shardArgs frame true e)) ↔
      ∀ s ∈ e.shards, min s.nVecs (effK frame.k frame.shardOverfetch) ≠ 0 → e.ShardFits s := by
  constructor
  · intro h s hs hrows
    refine h (.bruteForce s.bfIdx e.dim) (List.mem_map.mpr ⟨⟨s.handle, s.bfIdx, true,
      min s.nVecs (effK frame.k frame.shardOverfetch), s.gpuDeviceId, s.tidOffset, s.nVecs⟩, ?_, rfl⟩)
    exact List.mem_filter.mpr ⟨List.mem_map.mpr ⟨s, hs, rfl⟩, by simpa using hrows⟩
  · intro h c hc
    obtain ⟨a, ha, rfl⟩ := List.mem_map.mp hc
    obtain ⟨ha, hrows⟩ := List.mem_filter.mp ha
    obtain ⟨s, hs, rfl⟩ := List.mem_map.mp ha
    exact h s hs (by simpa using hrows)

theorem shardCalls_refreshed_iff {useBf ready : Bool} (h : e.Dispatchable)
    (hkind : 2 ≤ e.shardCount)
    (hrefreshed : refreshedShards cfg env d i useBf frame.bfPrecision e = (e1, ready)) :
    (ready = true → AllSound (shardCalls e1.dim (shardArgs frame useBf e1))) ↔
      (useBf = true → ShardsGuarded cfg d e frame) := by
  unfold refreshedShards at hrefreshed
  cases useBf with
  | false =>
    rw [if_neg Bool.false_ne_true] at hrefreshed
    obtain rfl := (Prod.mk.inj hrefreshed).1
    exact iff_of_true (fun _ => shardCalls_graph_sound h) fun h => by cases h
  | true =>
    rw [if_pos rfl] at hrefreshed
    rw [shardCalls_cache_iff]
    by_cases hreused : ShardsReused (d.disk cfg.indexDir e.key) frame.bfPrecision e
    · by_cases hempty : e.shards = []
      · rw [refreshShardBfCaches, if_pos (.inr hempty)] at hrefreshed
        obtain ⟨rfl, rfl⟩ := Prod.mk.inj hrefreshed
        exact iff_of_true (fun h => by cases h) fun _ _ s hs => by cases hempty ▸ hs
      · rw [refreshShardBfCaches_reused (by simp [hempty]; omega) hreused] at hrefreshed
        obtain ⟨rfl, rfl⟩ := Prod.mk.inj hrefreshed
        exact ⟨fun h _ _ => h rfl, fun h _ => h rfl hreused⟩
    · refine iff_of_true ?_ fun _ h => absurd h hreused
      rintro rfl s hs -
      exact refreshShardBfCaches_built hreused hrefreshed s hs

def SearchEntryGuarded (cfg : Config) (senv : SearchEnv) (d : Daemon) (e : IndexEntry)
    (frame : SearchFrame) : Prop :=
  if (frame.searchMode = 1 ∨ e.isFlat) ∧ e.shardCount < 2 then
    bfBatchGate senv frame e = false → BruteForceGuarded cfg senv d e frame
  else if 2 ≤ e.shardCount then
    frame.nFilterTids = 0 → frame.searchMode = 1 → ShardsGuarded cfg d e frame
  else True

theorem searchGraphCalls_sound (h : e.DeltaFits) :
    AllSound (searchGraphCalls cfg env senv d i e frame) := by
  have hload : ∀ a, (loadHnsw a senv e).DeltaFits := by
    intro a
    unfold loadHnsw
    split_ifs
    · exact h
    · exact h
  unfold searchGraphCalls
  dsimp only
  split_ifs
  · exact allSound_nil
  · exact cagraCalls_sound (hload _)
  · exact allSound_nil
  · exact cagraCalls_sound h

theorem shardedCalls_sound_iff (h : e.Dispatchable) (hkind : 2 ≤ e.shardCount) :
    AllSound (shardedCalls cfg env d i e frame) ↔
      (frame.nFilterTids = 0 → frame.searchMode = 1 → ShardsGuarded cfg d e frame) := by
  unfold shardedCalls
  split_ifs with hfilter
  · exact iff_of_true allSound_nil fun hplain => absurd hplain hfilter.ne'
  · have hplain : frame.nFilterTids = 0 := Nat.eq_zero_of_not_pos hfilter
    rcases hrefreshed : refreshedShards cfg env d i (frame.searchMode == 1) frame.bfPrecision e
      with ⟨e1, ready⟩
    have hiff := shardCalls_refreshed_iff h hkind hrefreshed
    rw [beq_iff_eq] at hiff
    simp only [hrefreshed, hplain, forall_const]
    rw [← hiff]
    cases ready with
    | false => exact iff_of_true allSound_nil fun h => nomatch h
    | true => exact ⟨fun h _ => h, fun h => h rfl⟩

theorem searchEntryCalls_sound_iff (h : e.Dispatchable) :
    AllSound (searchEntryCalls cfg env senv d i e frame) ↔
      SearchEntryGuarded cfg senv d e frame := by
  unfold searchEntryCalls SearchEntryGuarded
  split_ifs with hbf hgate hkind
  · exact iff_of_true allSound_nil fun hshut => nomatch hgate.symm.trans hshut
  · rw [bruteForceCalls_sound_iff]
    exact ⟨fun h _ => h, fun h => h (by simpa using hgate)⟩
  · exact shardedCalls_sound_iff h hkind
  · exact iff_of_true (searchGraphCalls_sound h.delta) trivial

def GroupGuarded (cfg : Config) (d : Daemon) (e : IndexEntry) (r0 : BatchRequest) : Prop :=
  r0.key.mode ≠ 0 → MainReused (d.disk cfg.indexDir e.key) r0.key.precision e → e.MainFits

theorem bfGroupCalls_sound_iff {prec : ℕ} :
    AllSound (bfGroupCalls cfg env prec d i e) ↔
      (MainReused (d.disk cfg.indexDir e.key) prec e → e.MainFits) := by
  rw [← @refreshMainBfCache_fits_iff _ (hasRoom env d i) env.bfBuilds]
  unfold bfGroupCalls
  dsimp only
  split_ifs with hcache
  · rw [allSound_singleton, sound_main_iff hcache]
    rfl
  · exact iff_of_true allSound_nil (mainFits_of_none hcache)

/-- A batch finds its caches of the dimension of the entry, and, without a brute-force search or
shards, a graph. -/
def SearchBatchEntryGuarded (cfg : Config) (d : Daemon) (e : IndexEntry) (frame : SearchFrame) :
    Prop :=
  if 2 ≤ e.shardCount then frame.searchMode = 1 ∨ e.isFlat = true → ShardsGuarded cfg d e frame
  else if frame.searchMode = 1 ∨ e.isFlat = true then
    MainReused (d.disk cfg.indexDir e.key) frame.bfPrecision e → e.MainFits
  else e.handle.isSome

theorem searchBatchEntryCalls_sound_iff (h : e.Dispatchable) :
    AllSound (searchBatchEntryCalls cfg env d i e frame) ↔
      SearchBatchEntryGuarded cfg d e frame := by
  obtain ⟨useBf, huse⟩ : ∃ useBf, (frame.searchMode == 1 || e.isFlat) = useBf := ⟨_, rfl⟩
  have hmode : (frame.searchMode = 1 ∨ e.isFlat = true) ↔ useBf = true := by
    rw [← huse, Bool.or_eq_true, beq_iff_eq]
  unfold SearchBatchEntryGuarded
  simp only [searchBatchEntryCalls, huse, hmode]
  rcases hrefreshed : refreshedBatch cfg env d i useBf frame.bfPrecision e with ⟨e1, ready⟩
  obtain ⟨hhandle, hcount, -⟩ := refreshedBatch_kind hrefreshed
  unfold refreshedBatch at hrefreshed
  by_cases hkind : 2 ≤ e.shardCount
  · rw [if_pos hkind] at hrefreshed ⊢
    have hiff := shardCalls_refreshed_iff h hkind hrefreshed
    rw [← hiff]
    cases ready with
    | false => exact iff_of_true allSound_nil fun h => by cases h
    | true =>
      dsimp only
      rw [if_neg (by omega)]
      exact ⟨fun h _ => h, fun h => h rfl⟩
  have hunsharded : e1.shardCount < 2 := by omega
  rw [if_neg hkind] at hrefreshed ⊢
  cases useBf with
  | true =>
    rw [if_pos rfl] at hrefreshed ⊢
    obtain ⟨rfl, rfl⟩ := Prod.mk.inj hrefreshed
    rw [← @bfGroupCalls_sound_iff cfg env d i]
    unfold bfGroupCalls
    dsimp only
    cases (refreshedMain cfg env d i frame.bfPrecision e).mainBfIdx.isSome with
    | false => rfl
    | true =>
      dsimp only
      rw [if_pos hunsharded, if_pos rfl, if_pos rfl]
  | false =>
    rw [if_neg Bool.false_ne_true] at hrefreshed ⊢
    obtain ⟨rfl, rfl⟩ := Prod.mk.inj hrefreshed
    dsimp only
    rw [if_pos hunsharded]
    exact allSound_singleton

end Guards

section Entered

variable {cfg : Config} {env : Env} {senv : SearchEnv} {d d1 : Daemon} {i : ℕ} {e : IndexEntry}
  {key : Key}

theorem findEntry_dispatchable (h : AllDispatchable d.registry)
    (hfound : findEntry d key = some (i, e)) : e.Dispatchable := by
  obtain ⟨j, -, hslot⟩ := Option.bind_eq_some_iff.mp hfound
  obtain ⟨f, hf, heq⟩ := Option.map_eq_some_iff.mp hslot
  cases heq
  exact h _ (List.mem_of_getElem? hf)

theorem searchEntered_dispatchable {frame : SearchFrame} {query : Vec}
    (h : AllDispatchable d.registry)
    (hentered : searchEntered cfg env senv d frame = some (d1, i, e, query)) : e.Dispatchable := by
  obtain ⟨hresolved, hslot⟩ := searchResolve_spec cfg env d frame.key
  unfold searchEntered at hentered
  rcases hfound : searchResolve cfg env d frame.key with ⟨d', status | ⟨i', e'⟩⟩
  · rw [hfound] at hentered
    exact nomatch hentered
  rw [hfound] at hentered hresolved hslot
  obtain ⟨-, hi⟩ := hslot i' e' rfl
  have he : e'.Dispatchable := hresolved.dispatchable h e' (List.mem_of_getElem? hi)
  rcases hquery : senv.query with fault | q
  · rw [hquery] at hentered
    exact nomatch hentered
  rw [hquery] at hentered
  dsimp only at hentered
  split_ifs at hentered
  cases hentered
  exact ⟨he.delta, he.shards⟩

theorem batchAdmits_dispatchable (h : AllDispatchable d.registry)
    (hadmits : batchAdmits cfg env d key = some (d1, i, e)) : e.Dispatchable := by
  obtain ⟨hresolved, hslot⟩ := batchResolve_spec cfg env d key
  unfold batchAdmits at hadmits
  rcases hfound : batchResolve cfg env d key with ⟨d', _ | ⟨i', e'⟩⟩
  · rw [hfound] at hadmits
    exact nomatch hadmits
  rw [hfound] at hadmits hresolved hslot
  obtain ⟨-, hi⟩ := hslot i' e' rfl
  dsimp only at hadmits
  split_ifs at hadmits
  cases hadmits
  exact hresolved.dispatchable h _ (List.mem_of_getElem? hi)

/-- A batch looks its entry up as the batch worker does; it tells a load without room. -/
theorem batchFind_resolve (cfg : Config) (env : Env) (d : Daemon) (key : Key) :
    (batchFind cfg env d key).1.resident = (batchResolve cfg env d key).1.resident ∧
      ∀ p, (batchFind cfg env d key).2 = .ok p → (batchResolve cfg env d key).2 = some p := by
  simp only [batchFind, batchResolve]
  split
  · rename_i i e hlookup
    simp only [hlookup]
    exact ⟨rfl, fun _ hp => congrArg some (Except.ok.inj hp)⟩
  · rename_i hlookup
    simp only [hlookup]
    rcases hload : loadIndex cfg env d key with ⟨d1, rc⟩
    cases rc with
    | loaded =>
      dsimp only
      split
      · rename_i hfound
        exact ⟨rfl, fun _ hp => hfound.trans (congrArg some (Except.ok.inj hp))⟩
      · exact ⟨rfl, fun _ hp => by cases hp⟩
    | failed => exact ⟨rfl, fun _ hp => by cases hp⟩
    | vram => exact ⟨rfl, fun _ hp => by cases hp⟩

theorem batchFind_dispatchable (h : AllDispatchable d.registry) :
    AllDispatchable (batchFind cfg env d key).1.registry ∧
      ∀ i e, (batchFind cfg env d key).2 = .ok (i, e) →  e.Dispatchable := by
  obtain ⟨hresident, hfound⟩ := batchFind_resolve cfg env d key
  obtain ⟨hresolved, hslot⟩ := batchResolve_spec cfg env d key
  have hall := hresolved.dispatchable h
  rw [← hresident] at hall
  refine ⟨hall, fun i e hok => ?_⟩
  obtain ⟨-, hi⟩ := hslot i e (hfound _ hok)
  exact hresolved.dispatchable h e (List.mem_of_getElem? hi)

theorem searchBatchEntered_dispatchable {frame : SearchFrame} {queries : Except ShmFault (List Vec)}
    {qs : List Vec} (h : AllDispatchable d.registry)
    (hentered : searchBatchEntered cfg env d frame queries = some (d1, i, e, qs)) :
    AllDispatchable d1.registry ∧ e.Dispatchable := by
  obtain ⟨hall, hfound⟩ := @batchFind_dispatchable cfg env d frame.key h
  unfold searchBatchEntered at hentered
  rcases hfind : batchFind cfg env d frame.key with ⟨d', status | ⟨i', e'⟩⟩
  · rw [hfind] at hentered
    exact nomatch hentered
  rw [hfind] at hentered hall hfound
  have he := hfound i' e' rfl
  rcases queries with fault | qs'
  · exact nomatch hentered
  dsimp only at hentered
  split_ifs at hentered
  cases hentered
  exact ⟨hall.set ⟨he.delta, he.shards⟩, he.delta, he.shards⟩

end Entered

section Events

variable {D : Type}

inductive DispatchEvent (D : Type) where
  | life (ev : LifeEvent D)
  | searchBatch (env : Env) (kern : Kernels D) (fltMax : D) (latencyUs : ℕ) (frame : SearchFrame)
      (queries : Except ShmFault (List Vec))
  | exportAdjacency (key : Key)
  | exportHnswShm (key : Key)

/-- A fanout was handed its shards by the SEARCH that opened it. -/
def Request.kernelCalls (cfg : Config) (s : Server) : Request D → List KernelCall
  | .search env senv _ frame => searchCalls cfg env senv s.daemon frame
  | .resume env senv _ frame mode _ => resumeCalls cfg env senv s.daemon frame mode
  | .batch env _ _ r0 _ => batchGroupCalls cfg env s.daemon r0
  | .fanout env _ kern f => finishFanoutCalls cfg env kern s.daemon f
  | .extend frame input _ => extendCalls s.daemon frame input
  | .compactEnd _ j _ =>
    match s.compacts[j]? with
    | some t => compactCalls s.daemon t
    | none => []
  | _ => []

def DispatchEvent.kernelCalls (cfg : Config) (s : Server) : DispatchEvent D → List KernelCall
  | .life (.serve r) => r.kernelCalls cfg s
  | .life _ => []
  | .searchBatch env _ _ _ frame queries => searchBatchCalls cfg env s.daemon frame queries
  | .exportAdjacency key | .exportHnswShm key => exportCalls s.daemon key

/-- The exact condition: a request that keeps a cache built before finds it of the dimension of
the entry, and a SEARCH_BATCH that is for the graph finds a graph. -/
def Request.Guarded (cfg : Config) (s : Server) : Request D → Prop
  | .search env senv _ frame =>
    ∀ p ∈ searchEntered cfg env senv s.daemon frame, SearchEntryGuarded cfg senv p.1 p.2.2.1 frame
  | .resume _ senv _ frame mode _ =>
    ∀ p ∈ findEntry s.daemon frame.key, mode = 1 → BruteForceGuarded cfg senv s.daemon p.2 frame
  | .batch env _ _ r0 _ =>
    ∀ p ∈ batchAdmits cfg env s.daemon r0.key.key, GroupGuarded cfg p.1 p.2.2 r0
  | _ => True

def DispatchEvent.Guarded (cfg : Config) (s : Server) : DispatchEvent D → Prop
  | .life (.serve r) => r.Guarded cfg s
  | .searchBatch env _ _ _ frame queries =>
    ∀ p ∈ searchBatchEntered cfg env s.daemon frame queries,
      SearchBatchEntryGuarded cfg p.1 p.2.2.1 frame
  | _ => True

def Request.withKernels (kern : Kernels D) : Request D → Request D
  | .search env senv _ frame => .search env senv kern frame
  | .resume env senv _ frame mode query => .resume env senv kern frame mode query
  | .batch env _ latencyUs r0 reqs => .batch env kern latencyUs r0 reqs
  | .fanout env senv _ f => .fanout env senv kern f
  | r => r

def DispatchEvent.withKernels (kern : Kernels D) : DispatchEvent D → DispatchEvent D
  | .life (.serve r) => .life (.serve (r.withKernels kern))
  | .searchBatch env _ fltMax latencyUs frame queries =>
    .searchBatch env kern fltMax latencyUs frame queries
  | ev => ev

def DispatchEvent.kernels : DispatchEvent D → Option (Kernels D)
  | .life (.serve (.search _ _ kern _)) | .life (.serve (.resume _ _ kern _ _ _))
  | .life (.serve (.batch _ kern _ _ _)) | .life (.serve (.fanout _ _ kern _))
  | .searchBatch _ kern _ _ _ _ => some kern
  | _ => none

def DispatchEvent.fannedOut : DispatchEvent D → List KernelCall
  | .life (.serve (.fanout _ _ _ f)) => shardCalls f.frame.dim f.args
  | _ => []

variable [LT D] [DecidableLT D]

def Server.dispatchStep (cfg : Config) (s : Server) : DispatchEvent D → Server
  | .life ev => s.lifeStep cfg ev
  | .searchBatch env kern fltMax latencyUs frame queries =>
    { s with
      daemon := (handleSearchBatch cfg env kern fltMax latencyUs s.daemon frame queries).1 }
  | .exportAdjacency _ | .exportHnswShm _ => s

def Request.statuses (cfg : Config) (s : Server) : Request D → List Status
  | .search env senv kern frame =>
    ((handleSearch cfg env senv kern s.daemon frame).reply?.map SearchReply.status).toList
  | .resume env senv kern frame mode query =>
    ((resumeSearch cfg env senv kern s.daemon frame mode query).reply?.map
      SearchReply.status).toList
  | .batch env kern latencyUs r0 reqs =>
    (batchRunGroup cfg env kern latencyUs s.daemon r0 reqs).2.map SearchReply.status
  | .fanout env senv kern f => [(finishFanout cfg env senv kern s.daemon f).2.status]
  | .extend frame input outcome => [(handleExtend s.daemon frame input outcome).reply.status]
  | .compactEnd env j image =>
    match s.compacts[j]? with
    | some t => [(endCompact cfg env s.daemon t image).reply.status]
    | none => []
  | _ => []

def exportStatus : Except Reply Cagra → Status
  | .ok _ => .ok
  | .error r => r.status

def DispatchEvent.statuses (cfg : Config) (s : Server) : DispatchEvent D → List Status
  | .life (.serve r) => r.statuses cfg s
  | .life _ => []
  | .searchBatch env kern fltMax latencyUs frame queries =>
    [(handleSearchBatch cfg env kern fltMax latencyUs s.daemon frame queries).2.status]
  | .exportAdjacency key => [exportStatus (exportAdjacencyGraph s.daemon key)]
  | .exportHnswShm key => [exportStatus (exportHnswShmGraph s.daemon key)]

def Request.Served (cfg : Config) (s : Server) : Request D → Prop
  | .search env senv _ frame => searchObject cfg env senv s.daemon frame
  | .resume env _ _ frame mode _ => resumeObject cfg env s.daemon frame mode
  | .batch env _ _ r0 _ => batchGroupObject cfg env s.daemon r0
  | .fanout _ _ _ f => ∀ c ∈ shardCalls f.frame.dim f.args, c.Present
  | .extend frame _ _ => entryHasGraph s.daemon frame.key
  | .compactEnd _ j _ => ∀ t ∈ s.compacts[j]?, entryHasGraph s.daemon t.key
  | _ => True

def DispatchEvent.Served (cfg : Config) (s : Server) : DispatchEvent D → Prop
  | .life (.serve r) => r.Served cfg s
  | .life _ => True
  | .searchBatch env _ _ _ frame queries => searchBatchObject cfg env s.daemon frame queries
  | .exportAdjacency key | .exportHnswShm key =>
    ∃ g, exportCalls s.daemon key = [.cagra (some g)]

/-- Every object handed to a kernel is there and of the right dimension; an OK reply has its
object; and the kernels matter on these objects only. -/
structure DispatchEvent.Checked (cfg : Config) (s : Server) (ev : DispatchEvent D) : Prop where
  sound : AllSound (ev.kernelCalls cfg s)
  served : .ok ∈ ev.statuses cfg s → ev.Served cfg s
  confined : ∀ kern ∈ ev.kernels, ∀ kern' : Kernels D,
    kern'.AgreeOn kern (ev.kernelCalls cfg s ++ ev.fannedOut) →
      s.dispatchStep cfg (ev.withKernels kern') = s.dispatchStep cfg ev ∧
        (ev.withKernels kern').statuses cfg s = ev.statuses cfg s

variable {cfg : Config} {s : Server}

omit [LT D] [DecidableLT D] in
theorem Request.kernelCalls_sound_iff (h : AllDispatchable s.daemon.registry) (r : Request D) :
    AllSound (r.kernelCalls cfg s) ↔ r.Guarded cfg s := by
  cases r with
  | search env senv kern frame =>
    simp only [Request.kernelCalls, Request.Guarded, searchCalls]
    rcases hentered : searchEntered cfg env senv s.daemon frame with _ | ⟨d1, i, e, query⟩
    · exact iff_of_true allSound_nil fun _ hp => by cases hp
    · simp only [Option.mem_some_iff, forall_eq']
      exact searchEntryCalls_sound_iff (searchEntered_dispatchable h hentered)
  | resume env senv kern frame mode query =>
    simp only [Request.kernelCalls, Request.Guarded, resumeCalls]
    rcases hfound : findEntry s.daemon frame.key with _ | ⟨i, e⟩
    · exact iff_of_true allSound_nil fun _ hp => by cases hp
    · simp only [Option.mem_some_iff, forall_eq']
      split_ifs with hmode
      · rw [bruteForceCalls_sound_iff]
        exact ⟨fun h _ => h, fun h => h hmode⟩
      · exact iff_of_true (cagraCalls_sound (findEntry_dispatchable h hfound).delta)
          fun hmode' => absurd hmode' hmode
  | batch env kern latencyUs r0 reqs =>
    simp only [Request.kernelCalls, Request.Guarded, batchGroupCalls]
    rcases hadmits : batchAdmits cfg env s.daemon r0.key.key with _ | ⟨d1, i, e⟩
    · exact iff_of_true allSound_nil fun _ hp => by cases hp
    · simp only [Option.mem_some_iff, forall_eq', GroupGuarded]
      split_ifs with hmode
      · exact iff_of_true (cagraCalls_sound (batchAdmits_dispatchable h hadmits).delta)
          fun hmode' => absurd hmode hmode'
      · rw [bfGroupCalls_sound_iff]
        exact ⟨fun h _ => h, fun h => h hmode⟩
  | fanout env senv kern f =>
    refine iff_of_true ?_ trivial
    simp only [Request.kernelCalls, finishFanoutCalls]
    rcases hfound : findEntry s.daemon f.key with _ | ⟨i, e⟩
    · exact allSound_nil
    · dsimp only
      split_ifs
      · exact allSound_nil
      · exact deltaCalls_sound (refreshDeltaCache_fits (findEntry_dispatchable h hfound).delta)
  | extend frame input image =>
    refine iff_of_true ?_ trivial
    simp only [Request.kernelCalls]
    rcases @handleExtend_cases s.daemon frame input with ⟨g, hcalls⟩ | ⟨hcalls, -⟩
    · rw [hcalls]
      exact allSound_singleton.mpr rfl
    · rw [hcalls]
      exact allSound_nil
  | compactEnd env j image =>
    refine iff_of_true ?_ trivial
    simp only [Request.kernelCalls]
    rcases s.compacts[j]? with _ | t
    · exact allSound_nil
    · dsimp only
      rcases @endCompact_cases cfg env s.daemon t with ⟨g, hcalls⟩ | ⟨hcalls, -⟩
      · rw [hcalls]
        exact allSound_singleton.mpr rfl
      · rw [hcalls]
        exact allSound_nil
  | _ => exact iff_of_true allSound_nil trivial

omit [LT D] [DecidableLT D] in
theorem DispatchEvent.kernelCalls_sound_iff (h : AllDispatchable s.daemon.registry)
    (ev : DispatchEvent D) : AllSound (ev.kernelCalls cfg s) ↔ ev.Guarded cfg s := by
  have hexport : ∀ key, AllSound (exportCalls s.daemon key) := by
    intro key
    rcases @exportGraph_cases s.daemon key "" with ⟨g, -, hcalls⟩ | ⟨hcalls, -⟩
    · rw [hcalls]
      exact allSound_singleton.mpr rfl
    · rw [hcalls]
      exact allSound_nil
  cases ev with
  | life ev =>
    cases ev with
    | serve r => exact r.kernelCalls_sound_iff h
    | _ => exact iff_of_true allSound_nil trivial
  | searchBatch env kern fltMax latencyUs frame queries =>
    simp only [DispatchEvent.kernelCalls, DispatchEvent.Guarded, searchBatchCalls]
    rcases hentered : searchBatchEntered cfg env s.daemon frame queries with _ | ⟨d1, i, e, qs⟩
    · exact iff_of_true allSound_nil fun _ hp => nomatch hp
    · simp only [Option.mem_some_iff, forall_eq']
      exact searchBatchEntryCalls_sound_iff (searchBatchEntered_dispatchable h hentered).2
  | exportAdjacency key => exact iff_of_true (hexport key) trivial
  | exportHnswShm key => exact iff_of_true (hexport key) trivial

theorem Request.served {r : Request D} (hok : .ok ∈ r.statuses cfg s) : r.Served cfg s := by
  have hreply : ∀ {o : SearchOutcome D}, .ok ∈ (o.reply?.map SearchReply.status).toList →
      ∃ d' r', o = .reply d' r' ∧ r'.status = .ok := by
    intro o ho
    obtain ⟨r', hr', hstatus⟩ := Option.map_eq_some_iff.mp (Option.mem_toList.mp ho)
    obtain ⟨d', hd'⟩ := SearchOutcome.reply?_eq_some hr'
    exact ⟨d', r', hd', hstatus⟩
  cases r with
  | search env senv kern frame =>
    obtain ⟨d', r', hr', hstatus⟩ := hreply hok
    exact handleSearch_served hr' hstatus
  | resume env senv kern frame mode query =>
    obtain ⟨d', r', hr', hstatus⟩ := hreply hok
    exact resumeSearch_served hr' hstatus
  | batch env kern latencyUs r0 reqs =>
    obtain ⟨r', hr', hstatus⟩ := List.mem_map.mp hok
    exact batchRunGroup_served hr' hstatus
  | fanout env senv kern f => exact finishFanout_served (List.mem_singleton.mp hok).symm
  | extend frame input image => exact handleExtend_served (List.mem_singleton.mp hok).symm
  | compactEnd env j image =>
    intro t ht
    simp only [Request.statuses, Option.mem_def.mp ht] at hok
    exact endCompact_served (List.mem_singleton.mp hok).symm
  | _ => trivial

theorem DispatchEvent.served {ev : DispatchEvent D} (hok : .ok ∈ ev.statuses cfg s) :
    ev.Served cfg s := by
  have hexport : ∀ {error key}, .ok = exportStatus (exportGraph error s.daemon key) →
      ∃ g, exportCalls s.daemon key = [.cagra (some g)] := by
    intro error key h
    rcases @exportGraph_cases s.daemon key error with ⟨g, -, hcalls⟩ | ⟨-, hrefused⟩
    · exact ⟨g, hcalls⟩
    · rw [hrefused] at h
      exact nomatch h
  cases ev with
  | life ev =>
    cases ev with
    | serve r => exact Request.served hok
    | _ => trivial
  | searchBatch env kern fltMax latencyUs frame queries =>
    exact handleSearchBatch_served (List.mem_singleton.mp hok).symm
  | exportAdjacency key => exact hexport (List.mem_singleton.mp hok)
  | exportHnswShm key => exact hexport (List.mem_singleton.mp hok)

/-- A request that differs in its kernels, where these agree. -/
theorem Request.confined {r : Request D} {kern kern' : Kernels D}
    (hkern : (DispatchEvent.life (.serve r)).kernels = some kern)
    (h : kern'.AgreeOn kern (r.kernelCalls cfg s))
    (hshards : kern'.AgreeOn kern (DispatchEvent.life (.serve r)).fannedOut) :
    s.step cfg (r.withKernels kern') = s.step cfg r ∧
      (r.withKernels kern').statuses cfg s = r.statuses cfg s := by
  cases r with
  | search env senv kern1 frame =>
    obtain rfl := Option.some.inj hkern
    have hsame := handleSearch_congr h
    simp only [Request.withKernels, Server.step, Request.tickets, Request.effect,
      Request.statuses, hsame, and_self]
  | resume env senv kern1 frame mode query =>
    obtain rfl := Option.some.inj hkern
    have hsame : resumeSearch cfg env senv kern' s.daemon frame mode query
        = resumeSearch cfg env senv kern1 s.daemon frame mode query := resumeSearch_congr h
    simp only [Request.withKernels, Server.step, Request.tickets, Request.effect,
      Request.statuses, hsame, and_self]
  | batch env kern1 latencyUs r0 reqs =>
    obtain rfl := Option.some.inj hkern
    have hsame := batchRunGroup_congr h latencyUs reqs
    simp only [Request.withKernels, Server.step, Request.tickets, Request.effect,
      Request.statuses, hsame, and_self]
  | fanout env senv kern1 f =>
    obtain rfl := Option.some.inj hkern
    have hsame : finishFanout cfg env senv kern' s.daemon f
        = finishFanout cfg env senv kern1 s.daemon f := finishFanout_congr hshards h
    simp only [Request.withKernels, Server.step, Request.tickets, Request.effect,
      Request.statuses, hsame, and_self]
  | _ => cases hkern

theorem DispatchEvent.confined {ev : DispatchEvent D} {kern kern' : Kernels D}
    (hkern : ev.kernels = some kern)
    (h : kern'.AgreeOn kern (ev.kernelCalls cfg s ++ ev.fannedOut)) :
    s.dispatchStep cfg (ev.withKernels kern') = s.dispatchStep cfg ev ∧
      (ev.withKernels kern').statuses cfg s = ev.statuses cfg s := by
  have hcalls := h.mono (List.subset_append_left ..)
  cases ev with
  | life ev =>
    cases ev with
    | serve r => exact Request.confined hkern hcalls (h.mono (List.subset_append_right ..))
    | _ => exact nomatch hkern
  | searchBatch env kern1 fltMax latencyUs frame queries =>
    obtain rfl := Option.some.inj hkern
    have hsame : handleSearchBatch cfg env kern' fltMax latencyUs s.daemon frame queries
        = handleSearchBatch cfg env kern1 fltMax latencyUs s.daemon frame queries :=
      handleSearchBatch_congr hcalls
    simp only [DispatchEvent.withKernels, Server.dispatchStep, DispatchEvent.statuses, hsame,
      and_self]
  | exportAdjacency | exportHnswShm => exact nomatch hkern

theorem DispatchEvent.checked_iff (h : AllDispatchable s.daemon.registry) (ev : DispatchEvent D) :
    ev.Checked cfg s ↔ ev.Guarded cfg s := by
  constructor
  · exact fun hchecked => (ev.kernelCalls_sound_iff h).mp hchecked.sound
  · intro hguarded
    exact ⟨(ev.kernelCalls_sound_iff h).mpr hguarded, DispatchEvent.served,
      fun _ hkern _ => DispatchEvent.confined hkern⟩

end Events

section Runs

variable {D : Type} [LT D] [DecidableLT D] {cfg : Config} {env : Env} {kern : Kernels D}

omit [LT D] [DecidableLT D] in
theorem refreshedBatch_dispatchable {d : Daemon} {i : ℕ} {e e1 : IndexEntry} {useBf ready : Bool}
    {prec : ℕ} (h : e.Dispatchable)
    (hrefreshed : refreshedBatch cfg env d i useBf prec e = (e1, ready)) : e1.Dispatchable := by
  obtain ⟨mtime, prec', shards, heq, hshards⟩ := refreshShardBfCaches_eq
    (d.disk cfg.indexDir e.key) (hasRoom env d i) env.bfBuilds prec e
  unfold refreshedBatch refreshedShards at hrefreshed
  split_ifs at hrefreshed
  · rw [hrefreshed] at heq
    obtain rfl : e1 = _ := heq
    exact ⟨h.delta, handles_of_map_eq (f := ShardEntry.graphOnly) (fun _ => rfl) hshards h.shards⟩
  · exact (Prod.mk.inj hrefreshed).1 ▸ h
  · exact (Prod.mk.inj hrefreshed).1 ▸ refreshMainBfCache_dispatchable h
  · exact (Prod.mk.inj hrefreshed).1 ▸ h

theorem searchBatchEntry_dispatchable {d : Daemon} {i : ℕ} {e : IndexEntry}
    (h : AllDispatchable d.registry) (he : e.Dispatchable) (fltMax : D) (latencyUs : ℕ)
    (frame : SearchFrame) (queries : List Vec) :
    AllDispatchable
      (searchBatchEntry cfg env kern fltMax latencyUs d i e frame queries).1.registry := by
  obtain ⟨useBf, huse⟩ : ∃ useBf, (frame.searchMode == 1 || e.isFlat) = useBf := ⟨_, rfl⟩
  rcases hrefreshed : refreshedBatch cfg env d i useBf frame.bfPrecision e with ⟨e1, ready⟩
  have he1 : e1.Dispatchable := refreshedBatch_dispatchable he hrefreshed
  have hset : ∀ e' : IndexEntry, e'.Dispatchable → AllDispatchable (d.setEntry i e').registry :=
    fun e' he' => h.set he'
  rw [searchBatchEntry_refreshed fltMax latencyUs queries huse hrefreshed]
  cases ready
  · exact hset _ ⟨he1.delta, he1.shards⟩
  · rw [if_neg (by decide)]
    rcases (if e1.shardCount < 2 then
        batchUnsharded kern frame useBf e1 queries (min frame.k e.nVecs)
      else batchSharded kern fltMax frame useBf e1 (min frame.k e.nVecs) queries) with rc | rows
    · exact hset _ ⟨he1.delta, he1.shards⟩
    · exact hset _ ⟨he1.delta, he1.shards⟩

theorem handleSearchBatch_dispatchable {d : Daemon} (h : AllDispatchable d.registry) (fltMax : D)
    (latencyUs : ℕ) (frame : SearchFrame) (queries : Except ShmFault (List Vec)) :
    AllDispatchable (handleSearchBatch cfg env kern fltMax latencyUs d frame queries).1.registry := by
  obtain ⟨hall, hfound⟩ := @batchFind_dispatchable cfg env d frame.key h
  unfold handleSearchBatch
  rcases hfind : batchFind cfg env d frame.key with ⟨d1, status | ⟨i, e⟩⟩
  · rw [hfind] at hall
    exact hall
  rw [hfind] at hall hfound
  have he : IndexEntry.Dispatchable { e with lastSearch := env.now } :=
    ⟨(hfound i e rfl).delta, (hfound i e rfl).shards⟩
  have h1 : AllDispatchable (d1.setEntry i { e with lastSearch := env.now }).registry := hall.set he
  have hfail : ∀ (status : Status) (error : String), AllDispatchable (failBatch (D := D) env
      (d1.setEntry i { e with lastSearch := env.now }) i { e with lastSearch := env.now } status
      error).1.registry := fun _ _ => h1.set ⟨he.delta, he.shards⟩
  dsimp only
  split_ifs
  · exact hfail _ _
  · exact hfail _ _
  · exact hfail _ _
  · exact h1
  · cases queries with
    | error fault => exact h1
    | ok queries => exact searchBatchEntry_dispatchable h1 he fltMax latencyUs frame _

theorem Server.dispatchStep_dispatchable {s : Server} (h : AllDispatchable s.daemon.registry)
    (ev : DispatchEvent D) : AllDispatchable (s.dispatchStep cfg ev).daemon.registry := by
  cases ev with
  | life ev => exact Server.lifeStep_dispatchable h ev
  | searchBatch env kern fltMax latencyUs frame queries =>
    exact handleSearchBatch_dispatchable h fltMax latencyUs frame queries
  | exportAdjacency | exportHnswShm => exact h

/-- A run hands the kernels what is there and fits exactly when every step is guarded. -/
theorem dispatch_checked_iff (cfg : Config) (maxVram : ℕ → ℕ) (disk : Disk)
    (evs : List (DispatchEvent D)) :
    Run.Along (Server.dispatchStep cfg) (fun s ev => ev.Checked cfg s)
        (Server.initial maxVram disk) evs
      ↔ Run.Along (Server.dispatchStep cfg) (fun s ev => ev.Guarded cfg s)
        (Server.initial maxVram disk) evs := by
  refine Run.along_iff (fun s => AllDispatchable s.daemon.registry) ?_ ?_ ?_
  · exact fun s ev h _ => Server.dispatchStep_dispatchable h ev
  · exact fun s ev h => ev.checked_iff h
  · exact fun _ he => nomatch he

end Runs

section Sample

def sampleIvfpqBuild : DispatchEvent ℕ :=
  .life (.serve (.ivfpq (Env.quiet 9 100000) (BuildEnv.quiet []) (sampleIndexBuild ⟨1, 2⟩ 2)
    (sampleInput 101 10)))

def sampleGraphBatch : DispatchEvent ℕ :=
  .searchBatch (Env.quiet 9 100000) sampleDeltaKernels 0 0 { sampleFrame with nVecs := 1 } (.ok [[0]])

/-- A batch on an IVF-PQ index hands its missing graph to the kernel. -/
theorem dispatch_without_graph :
    ¬∀ (cfg : Config) (maxVram : ℕ → ℕ) (disk : Disk) (evs : List (DispatchEvent ℕ)),
      Run.Along (Server.dispatchStep cfg) (fun s ev => ev.Checked cfg s)
        (Server.initial maxVram disk) evs := by
  intro h
  have hrun := h sampleConfig (fun _ => 0) Disk.fresh ([sampleIvfpqBuild] ++ [sampleGraphBatch])
  have hlast : DispatchEvent.Checked _ _ _ := Run.along_last hrun
  have hcalls : sampleGraphBatch.kernelCalls sampleConfig (Run.run (Server.dispatchStep sampleConfig)
      (Server.initial (fun _ => 0) Disk.fresh) [sampleIvfpqBuild]) = [.cagra none] := by
    decide +kernel
  have hsound := hlast.sound
  rw [hcalls] at hsound
  exact nomatch allSound_singleton.mp hsound

end Sample

end PgCuvs
