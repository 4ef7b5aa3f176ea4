import PgCuvs.RequestSteps

/-! What requests do to the registry: they store what they changed in an entry,
evict and load, and end with one action of their own. -/

namespace PgCuvs

def SlotInit.Reads (a : Artifacts) : SlotInit → Prop
  | .loadSharded _ _ thdr tids _ _ | .loadFlat _ _ thdr tids _ _
  | .loadUnsharded _ _ thdr tids _ _ _ _ => TidsAccepted a thdr tids
  | _ => False

def SlotInit.key : SlotInit → Key
  | .loadSharded _ key _ _ _ _ | .loadFlat _ key _ _ _ _ | .loadUnsharded _ key _ _ _ _ _ _ => key
  | .build _ t _ => t.frame.key
  | .sharded _ frame _ _ | .flat _ frame _ _ | .ivfpq _ frame _ _ _ _ => frame.key

def SlotInit.tids : SlotInit → List Tid
  | .loadSharded _ _ _ tids _ _ | .loadFlat _ _ _ tids _ _ | .loadUnsharded _ _ _ tids _ _ _ _ => tids
  | .build _ t _ => t.corpus.tids
  | .sharded _ _ tids _ | .flat _ _ tids _ | .ivfpq _ _ tids _ _ _ => tids

def SlotInit.handle : SlotInit → Option Cagra
  | .loadUnsharded _ _ _ _ graph _ _ _ => graph.getLeft?
  | .build _ _ graph => some graph
  | .loadSharded .. | .loadFlat .. | .sharded .. | .flat .. | .ivfpq .. => none

def SlotInit.nVecs : SlotInit → ℕ
  | .loadSharded _ _ thdr _ _ _ | .loadFlat _ _ thdr _ _ _ | .loadUnsharded _ _ thdr _ _ _ _ _ =>
    thdr.nVecs
  | .build _ t _ => t.corpus.tids.length
  | .sharded _ _ tids _ | .flat _ _ tids _ | .ivfpq _ _ tids _ _ _ => tids.length

def SlotInit.Whole : SlotInit → Prop
  | .loadSharded _ _ _ _ shards _ | .sharded _ _ _ shards => ∀ s ∈ shards, s.handle.isSome
  | _ => True

theorem SlotInit.apply_key (c : SlotInit) (slot : IndexEntry) : (c.apply slot).key = c.key := by
  cases c <;> simp [SlotInit.apply, SlotInit.key, initSharded, initFlat, initUnsharded, initBuild,
    installSharded, initFlatBuild, initIvfpq, restoreStale_eq, resetEntryStats, clearMainBfFields,
    clearDeltaFields]

theorem SlotInit.apply_tids (c : SlotInit) (slot : IndexEntry) : (c.apply slot).tids = c.tids := by
  cases c <;> simp [SlotInit.apply, SlotInit.tids, initSharded, initFlat, initUnsharded, initBuild,
    installSharded, initFlatBuild, initIvfpq, restoreStale_eq, resetEntryStats, clearMainBfFields,
    clearDeltaFields]

theorem SlotInit.apply_nVecs (c : SlotInit) (slot : IndexEntry) : (c.apply slot).nVecs = c.nVecs := by
  cases c <;> simp [SlotInit.apply, SlotInit.nVecs, initSharded, initFlat, initUnsharded, initBuild,
    installSharded, initFlatBuild, initIvfpq, restoreStale_eq, resetEntryStats, clearMainBfFields,
    clearDeltaFields]

theorem SlotInit.apply_handle (c : SlotInit) (slot : IndexEntry) :
    (c.apply slot).handle = c.handle := by
  cases c <;> simp [SlotInit.apply, SlotInit.handle, initSharded, initFlat, initUnsharded, initBuild,
    installSharded, initFlatBuild, initIvfpq, restoreStale_eq, resetEntryStats, clearMainBfFields,
    clearDeltaFields]

theorem SlotInit.Reads.accepted {a : Artifacts} {c : SlotInit} (h : c.Reads a) :
    ∃ thdr, TidsAccepted a thdr c.tids ∧ c.nVecs = thdr.nVecs := by
  cases c with
  | loadSharded _ _ thdr | loadFlat _ _ thdr | loadUnsharded _ _ thdr => exact ⟨thdr, h, rfl⟩
  | _ => exact h.elim

/-- A request loads what it did not find. -/
def LoadsMissing (r : Registry) (c : SlotInit) : Prop :=
  (∃ a, c.Reads a) ∧ ∀ e ∈ r.live, e.key ≠ c.key

/-- One change that serving makes; only a restart may empty the registry. -/
inductive ServingStep (restarts : Prop) : Registry → Registry → Prop
  | entry {r : Registry} {i : ℕ} {e e' : IndexEntry} {a : Artifacts} (hi : r.live[i]? = some e)
      (h : EntryMove True a e e') : ServingStep restarts r (r.set i e')
  | evict {r : Registry} {i device : ℕ} {e : IndexEntry} (hi : r.live[i]? = some e)
      (hdev : evictable e device) : ServingStep restarts r (r.removeIdx i (freeEvicted e))
  | load {r : Registry} {c : SlotInit} (hc : LoadsMissing r c) :
      ServingStep restarts r (r.append c.apply)
  | restart {r : Registry} (hrestart : restarts) : ServingStep restarts r ⟨[], []⟩

abbrev ServingSteps (restarts : Prop) : Registry → Registry → Prop :=
  Relation.ReflTransGen (ServingStep restarts)

section Loads

variable {cfg : Config} {env : Env} {r r' : Resident} {d : Daemon} {key : Key}
  {restarts : Prop}

theorem Evictions.serving (h : Evictions cfg r r') : ServingSteps restarts r.1 r'.1 := by
  induction h with
  | refl => exact Relation.ReflTransGen.refl
  | tail _ hstep ih =>
    cases hstep with
    | drop hi hdev hsave => exact ih.tail (ServingStep.evict hi hdev)
    | saved hi hdev hsave hg => exact ih.tail (ServingStep.evict hi hdev)
    | failed fault hi hsave hg => exact ih

theorem LoadPlan.slotInit {a : Artifacts} {thdr : TidsHeader} {tids : List Tid}
    {init : IndexEntry → IndexEntry} (h : LoadPlan env a key thdr tids init)
    (htids : TidsAccepted a thdr tids) : ∃ c : SlotInit, c.Reads a ∧ c.key = key ∧ init = c.apply := by
  cases h with
  | @sharded m shdr recs shards =>
    exact ⟨.loadSharded env key thdr tids shards a, htids, rfl, rfl⟩
  | @flat gpu => exact ⟨.loadFlat env key thdr tids gpu a, htids, rfl, rfl⟩
  | @unsharded graph needed gpu =>
    exact ⟨.loadUnsharded env key thdr tids graph needed gpu a, htids, rfl, rfl⟩

theorem Moves.serving (h : Moves cfg r r') : ServingSteps restarts r.1 r'.1 := by
  induction h with
  | refl => exact Relation.ReflTransGen.refl
  | tail _ hstep ih =>
    cases hstep with
    | entry hi hmove => exact ih.tail (ServingStep.entry hi hmove)
    | evict hevict => exact ih.trans (Evictions.serving (Relation.ReflTransGen.single hevict))
    | load hkey htids hplan =>
      obtain ⟨c, hc, rfl, rfl⟩ := hplan.slotInit htids
      exact ih.tail (ServingStep.load ⟨⟨_, hc⟩, hkey⟩)

variable (cfg env)

/-- What a load does, whether or not its index is resident: it makes room, and takes one
slot at most. -/
theorem EvictClosed.of_loadIndex {R : Daemon → Daemon → Prop} (h : EvictClosed cfg env R)
    (d : Daemon) (key : Key) :
    ∃ d1, R d d1 ∧
      ((loadIndex cfg env d key).1 = d1 ∨
        ∃ c : SlotInit, c.Reads (d.disk cfg.indexDir key) ∧ c.key = key ∧ c.Whole ∧
          (loadIndex cfg env d key).1 = { d1 with registry := d1.registry.append c.apply }) := by
  unfold loadIndex
  cases hread : (d.disk cfg.indexDir key).tids.bind cuvsTidsRead with
  | none => exact ⟨d, h.refl d, .inl rfl⟩
  | some p =>
    obtain ⟨thdr, tids⟩ := p
    simp only
    split_ifs with hdim
    · exact ⟨d, h.refl d, .inl rfl⟩
    · have htids : TidsAccepted (d.disk cfg.indexDir key) thdr tids := ⟨hread, hdim⟩
      unfold loadIndexSharded
      cases (d.disk cfg.indexDir key).shards with
      | none =>
        simp only
        split_ifs
        · simp only [loadIndexFlat]
          have hslot := h.of_makeSlot d ((pickGpuForIndex cfg env d 0).getD (usableGpu cfg 0))
          split_ifs
          · exact ⟨_, hslot, .inl rfl⟩
          · exact ⟨_, hslot, .inr ⟨.loadFlat env key thdr tids _ _, htids, rfl, trivial, rfl⟩⟩
        · simp only [loadIndexUnsharded]
          cases pickGpuForIndex cfg env d (estimateVramBytes thdr.nVecs thdr.dim 64) with
          | none => exact ⟨d, h.refl d, .inl rfl⟩
          | some gpu =>
            have hvram := h.of_ensureVram d (estimateVramBytes thdr.nVecs thdr.dim 64) gpu
            simp only
            rcases hensure : ensureVram cfg env d (estimateVramBytes thdr.nVecs thdr.dim 64) gpu
              with ⟨d1, _ | _⟩
            · rw [hensure] at hvram
              exact ⟨d1, hvram, .inl rfl⟩
            · rw [hensure] at hvram
              simp only
              cases deserializeIndex env (d1.disk cfg.indexDir key) gpu with
              | none => exact ⟨d1, hvram, .inl rfl⟩
              | some graph =>
                have hslot := h.trans hvram (h.of_makeSlot d1 gpu)
                simp only
                split_ifs
                · exact ⟨_, hslot, .inl rfl⟩
                · exact ⟨_, hslot,
                    .inr ⟨.loadUnsharded env key thdr tids graph _ gpu _, htids, rfl, trivial, rfl⟩⟩
      | some m =>
        simp only
        cases cuvsShardsRead m with
        | none => exact ⟨d, h.refl d, .inl rfl⟩
        | some p =>
          obtain ⟨shdr, recs⟩ := p
          simp only
          split_ifs
          · exact ⟨d, h.refl d, .inl rfl⟩
          · exact ⟨_, h.of_makeSlot d _, .inl rfl⟩
          · have hslot := h.of_makeSlot d (usableGpu cfg 0)
            have hshards : R d
                (loadShards cfg env key 0 (makeSlot cfg env d (usableGpu cfg 0)) recs).1 :=
              h.trans hslot (h.of_loadShards _ 0 recs)
            rcases hout : loadShards cfg env key 0 (makeSlot cfg env d (usableGpu cfg 0)) recs
              with ⟨d2, rc | shards⟩
            · rw [hout] at hshards
              exact ⟨d2, hshards, .inl rfl⟩
            · rw [hout] at hshards
              exact ⟨d2, hshards, .inr ⟨.loadSharded env key thdr tids shards _, htids, rfl,
                loadShards_handles cfg env hout, rfl⟩⟩

theorem loadIndex_any (d : Daemon) (key : Key) :
    ∃ d1, Evictions cfg d.resident d1.resident ∧
      ((loadIndex cfg env d key).1 = d1 ∨
        ∃ c : SlotInit, c.Reads (d.disk cfg.indexDir key) ∧ c.key = key ∧ c.Whole ∧
          (loadIndex cfg env d key).1 = { d1 with registry := d1.registry.append c.apply }) :=
  (evictClosed_evictions cfg env).of_loadIndex cfg env d key

end Loads

section Actions

def EntryWrite.Fits (e : IndexEntry) : EntryWrite → Prop
  | .build _ t graph => e.key = t.frame.key ∧ graph.rows = t.corpus.vecs
  | .sharded _ frame _ shards => e.key = frame.key ∧ 2 ≤ shards.length
  | .flat _ frame _ _ => e.key = frame.key
  | .ivfpq _ frame _ _ _ _ => e.key = frame.key
  | .extend g _ _ | .extendFailed g _ _ => e.handle = some g
  | .compact _ g _ keep => e.handle = some g ∧ keep.length = (e.tids.take e.nVecs).length
  | .stale _ => True

def SlotInit.Fits : SlotInit → Prop
  | .build _ t graph => graph.rows = t.corpus.vecs
  | .sharded _ _ _ shards => 2 ≤ shards.length
  | .flat .. => True
  | .ivfpq _ _ tids _ _ _ => 0 < tids.length
  | .loadSharded .. | .loadFlat .. | .loadUnsharded .. => False

def RegistryAction.Fits (r : Registry) : RegistryAction → Prop
  | .keep => True
  | .replace i w => ∃ e, r.live[i]? = some e ∧ w.Fits e
  | .register c => c.Fits ∧ ∀ e ∈ r.live, e.key ≠ c.key
  | .remove i => ∃ e, r.live[i]? = some e

/-- A request serves, and then does one thing to the registry. -/
structure RegistrySpec (restarts : Prop) (r : Registry) (x : Effect) : Prop where
  serving : ServingSteps restarts r x.daemon.registry
  fits : x.action.Fits x.daemon.registry

variable {cfg : Config} {s : Server} {given : Given} {r : Resident} {x : Effect} {e : IndexEntry}
  {key : Key} {f : Dir → Artifacts → Artifacts} {status : Status}

theorem Outcome.install_write {w w' : EntryWrite} {c : SlotInit}
    (h : Outcome.write w' = .install (some e) w c) : w' = w := Outcome.write.inj h

theorem Outcome.install_create {w : EntryWrite} {c c' : SlotInit}
    (h : Outcome.create c' = .install none w c) : c' = c := Outcome.create.inj h

theorem Change.write_fits {w : EntryWrite} (h : Change cfg s given (some e) key f status (.write w))
    (hkey : e.key = key) : w.Fits e := by
  cases h with
  | build env benv image ht hbuilt hfault ho =>
    cases Outcome.install_write ho
    exact ⟨hkey, rfl⟩
  | sharded env benv hrows hsplit hcount ho =>
    cases Outcome.install_write ho
    exact ⟨hkey, by rwa [length_shardEntries]⟩
  | flat now gpu ht ho =>
    cases Outcome.install_write ho
    exact hkey
  | ivfpq now needed gpu image hrows hpos ho =>
    cases Outcome.install_write ho
    exact hkey
  | extend image hrows hg => exact hg
  | extendFailed image hhalf hrows hg => exact hg
  | compact now image fault ht hcompacted hg hdead => exact ⟨hg, by simp [keepBits]⟩
  | stale now opens key ho =>
    cases Outcome.write.inj ho
    trivial
  | drop key ho => cases ho

theorem Change.create_fits {c : SlotInit} (h : Change cfg s given none key f status (.create c)) :
    c.Fits ∧ c.key = key := by
  cases h with
  | build env benv image ht hbuilt hfault ho =>
    cases Outcome.install_create ho
    exact ⟨rfl, rfl⟩
  | sharded env benv hrows hsplit hcount ho =>
    cases Outcome.install_create ho
    refine ⟨?_, rfl⟩
    rwa [← length_shardEntries _ 0 0] at hcount
  | flat now gpu ht ho =>
    cases Outcome.install_create ho
    exact ⟨trivial, rfl⟩
  | ivfpq now needed gpu image hrows hpos ho =>
    cases Outcome.install_create ho
    exact ⟨hpos, rfl⟩
  | stale now opens key ho => cases ho
  | drop key ho => cases ho

theorem Committed.registrySpec (h : Committed cfg s given r x) :
    RegistrySpec given.restarts r.1 x := by
  have hfirst : ∀ {reg disk}, x.daemon.resident = (reg, disk) → x.daemon.registry = reg :=
    fun hx => congrArg Prod.fst hx
  cases h with
  | restart hx hact hrestart =>
    refine ⟨?_, by rw [hact]; trivial⟩
    rw [hfirst hx]
    exact Relation.ReflTransGen.single (ServingStep.restart hrestart)
  | keep h hx hact => exact ⟨by rw [hfirst hx], by rw [hact]; trivial⟩
  | absent h hmissing hx hact => exact ⟨by rw [hfirst hx], by rw [hact]; trivial⟩
  | @write i e key f w h hfind hi hkey hx hact =>
    refine ⟨by rw [hfirst hx], ?_⟩
    rw [hact, hfirst hx]
    exact ⟨e, hi, h.write_fits hkey⟩
  | create h hmissing hevict hact =>
    refine ⟨hevict.serving, ?_⟩
    obtain ⟨hfits, hkey⟩ := h.create_fits
    rw [hact]
    refine ⟨hfits, ?_⟩
    rw [hkey]
    exact (hevict.frame hmissing).1
  | full h hmissing hevict hact => exact ⟨hevict.serving, by rw [hact]; trivial⟩
  | @remove i e key f h hfind hi hkey hx hact =>
    refine ⟨by rw [hfirst hx], ?_⟩
    rw [hact, hfirst hx]
    exact ⟨e, hi⟩

end Actions

variable {D : Type} [LT D] [DecidableLT D]

theorem Request.registrySpec (cfg : Config) (s : Server) (r : Request D) :
    RegistrySpec (r = .restart) s.daemon.registry (r.effect cfg s) := by
  cases r.effect_spec cfg s with
  | serves hserving hresolved hstores hact =>
    refine ⟨Moves.serving (hresolved.moves.trans hstores.moves), ?_⟩
    rw [hact]
    trivial
  | commits hevict hcommit =>
    exact ⟨hevict.serving.trans hcommit.registrySpec.serving, hcommit.registrySpec.fits⟩

end PgCuvs
