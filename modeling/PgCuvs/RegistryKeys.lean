import PgCuvs.Library.Run
import PgCuvs.Lifecycle
import PgCuvs.RegistrySteps

/-! At most one entry for each index. `find_index`, DROP and a rebuild act on the
first entry they find. -/

namespace PgCuvs

def UniqueKeys (r : Registry) : Prop := (r.live.map IndexEntry.key).Nodup

section Steps

variable {r r' : Registry} {e e' : IndexEntry} {i : ℕ}

theorem EntryWrite.apply_key {w : EntryWrite} (h : w.Fits e) : (w.apply e).key = e.key := by
  have hmap : ∀ x : IndexEntry, (buildRevTidMap x).key = x.key :=
    buildRevTidMap_field IndexEntry.key fun _ _ _ => rfl
  cases w with
  | build now t graph => exact hmap _
  | sharded now frame tids shards => exact h.1.symm
  | flat now frame tids gpu => exact hmap _
  | ivfpq now frame tids codes needed gpu => exact hmap _
  | extend g image new => exact hmap _
  | extendFailed g image new => rfl
  | compact now g image keep => exact hmap _
  | stale now =>
    simp only [EntryWrite.apply, flagStale]
    split_ifs <;> rfl

theorem UniqueKeys.set (h : UniqueKeys r) (hi : r.live[i]? = some e) (hkey : e'.key = e.key) :
    UniqueKeys (r.set i e') := by
  obtain ⟨hlt, rfl⟩ := List.getElem?_eq_some_iff.mp hi
  have hsame : (r.live.set i e').map IndexEntry.key = r.live.map IndexEntry.key := by
    rw [List.map_set, hkey, ← List.getElem_map IndexEntry.key (h := by simpa using hlt)]
    exact List.set_getElem_self _
  rw [UniqueKeys, Registry.set_live, hsame]
  exact h

theorem UniqueKeys.removeIdx (h : UniqueKeys r) (i : ℕ) (e : IndexEntry) :
    UniqueKeys (r.removeIdx i e) := by
  have hsub : (r.live.eraseIdx i).Sublist r.live := List.eraseIdx_sublist ..
  exact List.Nodup.sublist (hsub.map IndexEntry.key) h

theorem UniqueKeys.append {c : SlotInit} (h : UniqueKeys r) (hkey : ∀ e ∈ r.live, e.key ≠ c.key) :
    UniqueKeys (r.append c.apply) := by
  rw [UniqueKeys, Registry.append_live, List.map_append, List.map_singleton, SlotInit.apply_key]
  refine List.Nodup.append h (List.nodup_singleton _) ?_
  intro k hk hc
  obtain ⟨e, he, rfl⟩ := List.mem_map.mp hk
  exact hkey e he (List.mem_singleton.mp hc)

theorem ServingStep.uniqueKeys {restarts : Prop} (hstep : ServingStep restarts r r')
    (h : UniqueKeys r) : UniqueKeys r' := by
  cases hstep with
  | entry hi hmove => exact h.set hi hmove.key
  | evict hi hdev => exact h.removeIdx _ _
  | load hc => exact h.append hc.2
  | restart => exact List.nodup_nil

theorem ServingSteps.uniqueKeys {restarts : Prop} (hsteps : ServingSteps restarts r r')
    (h : UniqueKeys r) : UniqueKeys r' := by
  induction hsteps with
  | refl => exact h
  | tail _ hstep ih => exact hstep.uniqueKeys ih

theorem RegistryAction.uniqueKeys {action : RegistryAction} (hfits : action.Fits r)
    (h : UniqueKeys r) : UniqueKeys (r.act action) := by
  cases action with
  | keep => exact h
  | replace i w =>
    obtain ⟨e, hi, hw⟩ := hfits
    simp only [Registry.act, hi]
    exact h.set hi (EntryWrite.apply_key hw)
  | register c => exact h.append hfits.2
  | remove i =>
    obtain ⟨e, hi⟩ := hfits
    simp only [Registry.act, hi]
    exact h.removeIdx _ _

end Steps

variable {D : Type} [LT D] [DecidableLT D] {cfg : Config} {env : Env} {d : Daemon} {s : Server}

theorem Server.step_uniqueKeys (r : Request D) (h : UniqueKeys s.daemon.registry) :
    UniqueKeys (s.step cfg r).daemon.registry := by
  have hspec := r.registrySpec cfg s
  exact RegistryAction.uniqueKeys hspec.fits (hspec.serving.uniqueKeys h)

section Loads

theorem loadIndex_uniqueKeys {key : Key} (h : UniqueKeys d.registry) (hkey : NotResident key d) :
    UniqueKeys (loadIndex cfg env d key).1.registry := by
  have hserving : ServingSteps False d.registry (loadIndex cfg env d key).1.registry :=
    (loadIndex_moves cfg env hkey).serving
  exact hserving.uniqueKeys h

instance (key : Key) (d : Daemon) : Decidable (NotResident key d) :=
  inferInstanceAs (Decidable (∀ e ∈ d.live, _))

/-- Each index is missing when its turn to be loaded comes. -/
def LoadsOnce (cfg : Config) (env : Env) : Daemon → List Key → Prop
  | _, [] => True
  | d, key :: keys => NotResident key d ∧ LoadsOnce cfg env (loadIndex cfg env d key).1 keys

instance LoadsOnce.decidable (cfg : Config) (env : Env) :
    ∀ d keys, Decidable (LoadsOnce cfg env d keys)
  | _, [] => isTrue trivial
  | d, key :: keys =>
    @instDecidableAnd _ _ _ (LoadsOnce.decidable cfg env (loadIndex cfg env d key).1 keys)

theorem loadCagraFiles_uniqueKeys {names : List String} (h : UniqueKeys d.registry)
    (honce : LoadsOnce cfg env d (names.filterMap cuvsParseIndexFilename)) :
    UniqueKeys (loadCagraFiles cfg env d names).registry := by
  unfold loadCagraFiles
  generalize names.filterMap cuvsParseIndexFilename = keys at honce ⊢
  induction keys generalizing d with
  | nil => exact h
  | cons key keys ih => exact ih (loadIndex_uniqueKeys h honce.1) honce.2

theorem loadSidecarFiles_uniqueKeys (tail : String) (names : List String)
    (h : UniqueKeys d.registry) :
    UniqueKeys (loadSidecarFiles cfg env tail d names).registry := by
  unfold loadSidecarFiles
  generalize names.filterMap (parseSidecarName tail) = keys
  induction keys generalizing d with
  | nil => exact h
  | cons key keys ih =>
    rw [List.foldl_cons]
    split_ifs with hfind
    · exact ih (loadIndex_uniqueKeys h (findIndex_eq_none.mp hfind))
    · exact ih h

theorem hydrate_uniqueKeys {key : Key} {durationMs : ℕ} (h : UniqueKeys d.registry)
    (hkey : NotResident key d) : UniqueKeys (hydrate cfg env d key durationMs).registry := by
  have hreg : (setColdState d key .loading).registry = d.registry := setColdState_registry ..
  have hmissing : NotResident key (setColdState d key .loading) := by
    unfold NotResident Daemon.live
    rwa [hreg]
  have hload := @loadIndex_uniqueKeys cfg env _ _ (by rwa [hreg]) hmissing
  simp only [hydrate]
  split
  · rename_i heq
    rw [heq] at hload
    split
    · split
      · rename_i hslot
        exact hload.set hslot rfl
      · exact hload
    · exact hload
  · rename_i heq
    rw [heq] at hload
    rwa [setColdState_registry]

end Loads

/-- No `load_index` call that does not look first is made for a resident index: the
first pass of a start and the warmup worker make such calls. -/
def LoadsMissingIndex (cfg : Config) (s : Server) : LifeEvent D → Prop
  | .startup env names =>
    LoadsOnce cfg env (Daemon.initial s.daemon.maxVramPerGpu s.daemon.disk)
      (names.filterMap cuvsParseIndexFilename)
  | .hydrate _ key _ => NotResident key s.daemon
  | .serve _ | .download .. | .hydrated _ => True

instance (cfg : Config) (s : Server) (ev : LifeEvent D) :
    Decidable (LoadsMissingIndex cfg s ev) := by
  cases ev <;> unfold LoadsMissingIndex <;> infer_instance

theorem Server.lifeStep_uniqueKeys {ev : LifeEvent D} (h : UniqueKeys s.daemon.registry)
    (hev : LoadsMissingIndex cfg s ev) : UniqueKeys (s.lifeStep cfg ev).daemon.registry := by
  cases ev with
  | serve r => exact Server.step_uniqueKeys r h
  | startup env names =>
    simp only [Server.lifeStep, startupLoadIndexes]
    rw [registerCold_registry]
    refine loadSidecarFiles_uniqueKeys _ names (loadSidecarFiles_uniqueKeys _ names ?_)
    exact loadCagraFiles_uniqueKeys List.nodup_nil hev
  | download key files =>
    simp only [Server.lifeStep]
    rwa [setColdState_registry]
  | hydrate env key durationMs => exact hydrate_uniqueKeys h hev
  | hydrated key => exact h

/-- One entry for each index, so that the entry found first is the only one. -/
def OnlyCopies (r : Registry) : Prop :=
  UniqueKeys r ∧ ∀ i e, r.live[i]? = some e → findIndex r.live e.key = some i

theorem UniqueKeys.onlyCopies {r : Registry} (h : UniqueKeys r) : OnlyCopies r := by
  refine ⟨h, ?_⟩
  intro i e hi
  obtain ⟨hlt, rfl⟩ := List.getElem?_eq_some_iff.mp hi
  refine List.findIdx?_eq_some_iff_getElem.mpr ⟨hlt, by simp, ?_⟩
  intro j hj
  have hne := List.pairwise_iff_getElem.mp h j i (by simp; omega) (by simpa using hlt) hj
  simpa using hne

/-- In a run in which the unguarded loads find their index missing, every state has
one entry for each index at most. -/
theorem registry_unique (cfg : Config) (maxVram : ℕ → ℕ) (disk : Disk) (evs : List (LifeEvent D))
    (hevs : Run.Along (Server.lifeStep cfg) (LoadsMissingIndex cfg) (Server.initial maxVram disk)
      evs) :
    Run.Along (Server.lifeStep cfg) (fun s ev => OnlyCopies (s.lifeStep cfg ev).daemon.registry)
      (Server.initial maxVram disk) evs :=
  Run.along_invariant (fun s : Server => UniqueKeys s.daemon.registry)
    (fun _ _ h hev => Server.lifeStep_uniqueKeys h hev)
    (fun _ _ h hev => (Server.lifeStep_uniqueKeys h hev).onlyCopies) List.nodup_nil hevs

section Sample

def sampleRebuild : List (LifeEvent ℕ) :=
  [.serve (.ivfpq (Env.quiet 9 100000) (BuildEnv.quiet []) (sampleIndexBuild ⟨1, 2⟩ 2)
    (sampleInput 101 10)),
   .download ⟨1, 2⟩ sampleIndexFiles]

def sampleHydrate : LifeEvent ℕ := .hydrate (Env.quiet 9 100000) ⟨1, 2⟩ 5

theorem registry_unique_sample :
    Run.Along (Server.lifeStep sampleConfig)
      (fun s ev => OnlyCopies (s.lifeStep sampleConfig ev).daemon.registry)
      (Server.initial (fun _ => 0) Disk.fresh)
      (sampleRebuild ++ [.serve (.drop ⟨1, 2⟩), .download ⟨1, 2⟩ sampleIndexFiles,
        sampleHydrate]) :=
  registry_unique sampleConfig (fun _ => 0) Disk.fresh _ (by decide +kernel)

/-- The worker registers a second copy. -/
theorem registry_hydrates_twice :
    ¬∀ (cfg : Config) (maxVram : ℕ → ℕ) (disk : Disk) (evs : List (LifeEvent ℕ)),
      Run.Along (Server.lifeStep cfg) (fun s ev => OnlyCopies (s.lifeStep cfg ev).daemon.registry)
        (Server.initial maxVram disk) evs := by
  intro h
  have hrun := h sampleConfig (fun _ => 0) Disk.fresh (sampleRebuild ++ [sampleHydrate])
  have hlast : OnlyCopies _ := Run.along_last hrun
  have hkeys : ((Run.run (Server.lifeStep sampleConfig) (Server.initial (fun _ => 0) Disk.fresh)
      sampleRebuild).lifeStep sampleConfig sampleHydrate).daemon.registry.live.map IndexEntry.key
        = [⟨1, 2⟩, ⟨1, 2⟩] := by decide +kernel
  have hunique := hlast.1
  rw [UniqueKeys, hkeys] at hunique
  exact absurd hunique (by decide)

end Sample

end PgCuvs
