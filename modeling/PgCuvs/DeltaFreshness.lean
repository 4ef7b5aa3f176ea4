import PgCuvs.Backend.Append
import PgCuvs.Search.DeferredMoves

/-! The resident delta cache against the `.delta` file. The daemon sees a change
by the file's modification second, and it re-reads only the rows past the ones
it has cached. -/

namespace PgCuvs

structure HostPrefix (f : DeltaFile) (n : ℕ) (vecs : List Vec) (tids : List Tid) : Prop where
  counted : ∃ h, f.header = some h ∧ n ≤ h.nRows
  length : n ≤ f.body.length
  vecs : vecs.take n = (f.body.take n).map DeltaRecord.vec
  tids : tids.take n = (f.body.take n).map DeltaRecord.tid

/-- The delta cache of an entry is in line with the `.delta` file of its index,
unless the file has a newer second. -/
structure DeltaFresh (delta : Option (Stamped DeltaFile)) (e : IndexEntry) : Prop where
  host : ∀ f, delta = some f → ∀ vecs tids, e.deltaVecsHost = some vecs →
    e.deltaTids = some tids → HostPrefix f.content e.deltaNCached vecs tids
  backed : e.deltaIdx.isSome → e.deltaVecsHost.isSome
  cache : ∀ f, delta = some f → f.mtime = e.deltaMtime → DeltaCacheHolds e f.content.records

section Refresh

variable {delta : Option (Stamped DeltaFile)} {e e' : IndexEntry}

theorem DeltaFresh.of_empty (hidx : e.deltaIdx = none) (hhost : e.deltaVecsHost = none) :
    DeltaFresh delta e where
  host f _ vecs tids hvecs := by simp [hhost] at hvecs
  backed h := by simp [hidx] at h
  cache f _ _ b hb := by simp [hidx] at hb

theorem DeltaFresh.of_host (hidx : e.deltaIdx = none)
    (hhost : ∀ f, delta = some f → ∀ vecs tids, e.deltaVecsHost = some vecs →
      e.deltaTids = some tids → HostPrefix f.content e.deltaNCached vecs tids) :
    DeltaFresh delta e where
  host := hhost
  backed h := by simp [hidx] at h
  cache f _ _ b hb := by simp [hidx] at hb

variable {f : Stamped DeltaFile} {hdr : DeltaHeader} {builds : List Vec → ℕ → Bool} {needed : ℕ}

theorem installDelta_fresh (hheader : f.content.header = some hdr)
    (hlen : hdr.nRows ≤ f.content.body.length)
    (hvecs : e.deltaVecsHost = some ((f.content.body.take hdr.nRows).map DeltaRecord.vec))
    (htids : e.deltaTids = some ((f.content.body.take hdr.nRows).map DeltaRecord.tid)) :
    DeltaFresh (some f)
      (installDelta hdr needed ((f.content.body.take hdr.nRows).map DeltaRecord.vec) e) where
  host f' hf' vecs tids hv ht := by
    obtain rfl := Option.some.inj hf'
    obtain rfl := Option.some.inj (hvecs.symm.trans hv)
    obtain rfl := Option.some.inj (htids.symm.trans ht)
    have hrows : (f.content.body.take hdr.nRows).take hdr.nRows = f.content.body.take hdr.nRows := by
      rw [List.take_take, min_self]
    exact ⟨⟨hdr, hheader, le_rfl⟩, hlen, by rw [← List.map_take]; exact congrArg _ hrows,
      by rw [← List.map_take]; exact congrArg _ hrows⟩
  backed _ := by
    have hhost : (installDelta hdr needed ((f.content.body.take hdr.nRows).map DeltaRecord.vec)
        e).deltaVecsHost = e.deltaVecsHost := rfl
    rw [hhost, hvecs]
    rfl
  cache f' hf' _ b hb := by
    obtain rfl := Option.some.inj hf'
    obtain rfl := Option.some.inj hb
    have hrecords : f.content.records = f.content.body.take hdr.nRows := by
      unfold DeltaFile.records
      rw [hheader]
    have hcount : (f.content.body.take hdr.nRows).length = hdr.nRows := by
      rw [List.length_take, min_eq_left hlen]
    rw [hrecords]
    exact ⟨rfl, htids, hcount.symm⟩

theorem rebuildDeltaCache_fresh (hheader : f.content.header = some hdr) (hidx : e.deltaIdx = none)
    (hhost : ∀ vecs tids, e.deltaVecsHost = some vecs → e.deltaTids = some tids →
      HostPrefix f.content e.deltaNCached vecs tids) :
    DeltaFresh (some f) (rebuildDeltaCache builds hdr f.content.body needed e) := by
  have hsame : DeltaFresh (some f) e := by
    refine DeltaFresh.of_host hidx ?_
    intro f' hf' vecs tids hv ht
    obtain rfl := Option.some.inj hf'
    exact hhost vecs tids hv ht
  simp only [rebuildDeltaCache]
  split_ifs with hshort hbuilds
  · exact hsame
  · exact installDelta_fresh hheader (not_lt.mp hshort) rfl rfl
  · exact hsame

theorem extendDeltaCache_fresh {prevCached : ℕ} {hostTids : List Tid} {hostVecs : List Vec}
    (hheader : f.content.header = some hdr) (hidx : e.deltaIdx = none)
    (hcached : e.deltaNCached = prevCached) (hmore : prevCached < hdr.nRows)
    (hhost : HostPrefix f.content prevCached hostVecs hostTids) :
    DeltaFresh (some f)
      (extendDeltaCache builds hdr f.content.body needed prevCached hostTids hostVecs e) := by
  have hsplit : f.content.body.take prevCached ++ (f.content.body.take hdr.nRows).drop prevCached
      = f.content.body.take hdr.nRows := by
    have hshorter : f.content.body.take prevCached
        = (f.content.body.take hdr.nRows).take prevCached := by
      rw [List.take_take, min_eq_left hmore.le]
    rw [hshorter, List.take_append_drop]
  have hvecs : hostVecs.take prevCached ++
      ((f.content.body.take hdr.nRows).drop prevCached).map DeltaRecord.vec
        = (f.content.body.take hdr.nRows).map DeltaRecord.vec := by
    rw [hhost.vecs, ← List.map_append, hsplit]
  have htids : hostTids.take prevCached ++
      ((f.content.body.take hdr.nRows).drop prevCached).map DeltaRecord.tid
        = (f.content.body.take hdr.nRows).map DeltaRecord.tid := by
    rw [hhost.tids, ← List.map_append, hsplit]
  have hpartial : DeltaFresh (some f)
      { e with
        deltaTids := some ((f.content.body.take hdr.nRows).map DeltaRecord.tid)
        deltaVecsHost := some ((f.content.body.take hdr.nRows).map DeltaRecord.vec) } := by
    refine DeltaFresh.of_host hidx ?_
    rintro f' hf' vecs tids hv ht
    obtain rfl := Option.some.inj hf'
    obtain rfl := Option.some.inj hv
    obtain rfl := Option.some.inj ht
    have hrows : (f.content.body.take hdr.nRows).take prevCached
        = f.content.body.take prevCached := by
      rw [List.take_take, min_eq_left hmore.le]
    refine ⟨?_, ?_, ?_, ?_⟩
    · exact ⟨hdr, hheader, hcached ▸ hmore.le⟩
    · exact hcached ▸ hhost.length
    · rw [hcached, ← List.map_take, hrows]
    · rw [hcached, ← List.map_take, hrows]
  simp only [extendDeltaCache, hvecs, htids]
  split_ifs with hshort hbuilds
  · exact hpartial
  · exact installDelta_fresh hheader (not_lt.mp hshort) rfl rfl
  · exact hpartial

theorem loadDeltaRows_fresh {room : Room} {prevGen : UInt32} (hheader : f.content.header = some hdr)
    (hidx : e.deltaIdx = none)
    (hhost : ∀ vecs tids, e.deltaVecsHost = some vecs → e.deltaTids = some tids →
      HostPrefix f.content e.deltaNCached vecs tids) :
    DeltaFresh (some f)
      (loadDeltaRows room builds prevGen e.deltaNCached hdr f.content.body e) := by
  simp only [loadDeltaRows]
  split
  · exact DeltaFresh.of_empty hidx rfl
  · split
    · rename_i hostTids hostVecs htids hvecs
      split
      · rename_i hgrown
        exact extendDeltaCache_fresh hheader hidx rfl hgrown.2 (hhost hostVecs hostTids hvecs htids)
      · exact rebuildDeltaCache_fresh hheader hidx hhost
    · exact rebuildDeltaCache_fresh hheader hidx hhost

/-- A refresh keeps the cache in line, whichever path it takes. -/
theorem refreshDeltaCache_fresh {a : Artifacts} {room : Room} (h : DeltaFresh a.delta e) :
    DeltaFresh a.delta (refreshDeltaCache a room builds e) := by
  rcases hfile : a.delta with _ | f
  · simp only [refreshDeltaCache, hfile]
    exact DeltaFresh.of_empty rfl rfl
  · rw [hfile] at h
    simp only [refreshDeltaCache, hfile]
    split
    · exact h
    · split
      · exact DeltaFresh.of_empty rfl rfl
      · rename_i hdr hhdr
        have hheader : f.content.header = some hdr := (Option.filter_eq_some_iff.mp hhdr).1
        split
        · exact DeltaFresh.of_empty rfl rfl
        · split
          · exact DeltaFresh.of_empty rfl rfl
          · split
            · exact DeltaFresh.of_empty rfl rfl
            · refine loadDeltaRows_fresh hheader rfl ?_
              exact fun vecs tids hv ht => h.host f rfl vecs tids hv ht

end Refresh

section Moves

variable {delta : Option (Stamped DeltaFile)} {e e' : IndexEntry} {a : Artifacts} {cfg : Config}

def DeltaSeen (delta : Option (Stamped DeltaFile)) (e : IndexEntry) : Prop :=
  e.deltaIdx.isSome → ∀ f, delta = some f → e.deltaMtime ≤ f.mtime

theorem DeltaSeen.of_current (h : e.deltaIdx.isSome → DeltaCurrent a e) : DeltaSeen a.delta e := by
  intro hidx f hf
  obtain ⟨-, f', hf', hmtime⟩ := h hidx
  obtain rfl := Option.some.inj (hf.symm.trans hf')
  exact hmtime.ge

theorem EntryMove.deltaFresh (h : EntryMove True a e e') (hfresh : DeltaFresh a.delta e) :
    DeltaFresh a.delta e' := by
  cases h with
  | delta room builds => exact refreshDeltaCache_fresh hfresh
  | mainBf room builds prec =>
    have hframe : DeltaFresh a.delta (refreshMainBfCache a room builds prec e)
        = DeltaFresh a.delta e := refreshMainBfCache_field (DeltaFresh a.delta)
      (fun _ _ _ _ _ _ _ => propext
        ⟨fun h => ⟨h.host, h.backed, h.cache⟩, fun h => ⟨h.host, h.backed, h.cache⟩⟩) e
    exact hframe ▸ hfresh
  | _ => exact ⟨hfresh.host, hfresh.backed, hfresh.cache⟩

theorem EntryMove.deltaSeen (h : EntryMove True a e e') (hseen : DeltaSeen a.delta e) :
    DeltaSeen a.delta e' := by
  cases h with
  | delta room builds => exact DeltaSeen.of_current refreshDeltaCache_current
  | mainBf room builds prec =>
    have hframe : DeltaSeen a.delta (refreshMainBfCache a room builds prec e)
        = DeltaSeen a.delta e := refreshMainBfCache_field (DeltaSeen a.delta)
      (fun _ _ _ _ _ _ _ => rfl) e
    exact hframe ▸ hseen
  | _ => exact hseen

def AllDeltaFresh (cfg : Config) (r : Resident) : Prop :=
  ∀ e ∈ r.1.live, DeltaFresh (r.2 cfg.indexDir e.key).delta e ∧
    DeltaSeen (r.2 cfg.indexDir e.key).delta e

theorem LoadPlan.deltaEmpty {env : Env} {key : Key} {thdr : TidsHeader} {tids : List Tid}
    {init : IndexEntry → IndexEntry} (h : LoadPlan env a key thdr tids init) (slot : IndexEntry) :
    (init slot).deltaIdx = none ∧ (init slot).deltaVecsHost = none := by
  cases h with
  | sharded =>
    simp only [initSharded, restoreStale_eq, resetEntryStats]
    exact ⟨buildRevTidMap_field IndexEntry.deltaIdx (fun _ _ _ => rfl) _,
      buildRevTidMap_field IndexEntry.deltaVecsHost (fun _ _ _ => rfl) _⟩
  | flat =>
    simp only [initFlat, restoreStale_eq, resetEntryStats]
    exact ⟨rfl, rfl⟩
  | unsharded =>
    simp only [initUnsharded, restoreStale_eq, resetEntryStats]
    exact ⟨rfl, rfl⟩

/-- Nothing the daemon does for a search writes `.delta`. -/
theorem Move.deltaFile {r r' : Resident} (h : Move cfg r r') (dir : Dir) (key : Key) :
    (r'.2 dir key).delta = (r.2 dir key).delta := by
  have hsaved : ∀ (fault : Option SaveFault) (e : IndexEntry) (g : Cagra) (disk : Disk),
      (disk.modify cfg.indexDir e.key (runFileOps (saveEntryOps fault e g).1) dir key).delta
        = (disk dir key).delta := by
    intro fault e g disk
    unfold Disk.modify
    split_ifs
    · exact saveEntryOps_field (f := Artifacts.delta) (fun _ _ => rfl) (fun _ _ => rfl) fault e g _
    · rfl
  cases h with
  | evict h =>
    cases h with
    | drop => rfl
    | saved hi hdev hsave hg => exact hsaved ..
    | failed fault hi hsave hg => exact hsaved ..
  | _ => rfl

theorem Moves.deltaFile {r r' : Resident} (h : Moves cfg r r') (dir : Dir) (key : Key) :
    (r'.2 dir key).delta = (r.2 dir key).delta := by
  induction h with
  | refl => rfl
  | tail _ hstep ih => exact (hstep.deltaFile dir key).trans ih

theorem Move.allDeltaFresh {r r' : Resident} (h : Move cfg r r') (hr : AllDeltaFresh cfg r) :
    AllDeltaFresh cfg r' := by
  intro e he
  rw [h.deltaFile]
  cases h with
  | entry hi hmove =>
    rcases List.mem_or_eq_of_mem_set he with he | rfl
    · exact hr e he
    · obtain ⟨hfresh, hseen⟩ := hr _ (List.mem_of_getElem? hi)
      rw [hmove.key]
      exact ⟨hmove.deltaFresh hfresh, hmove.deltaSeen hseen⟩
  | evict h =>
    cases h with
    | drop hi hdev hsave => exact hr e (List.mem_of_mem_eraseIdx he)
    | saved hi hdev hsave hg => exact hr e (List.mem_of_mem_eraseIdx he)
    | failed fault hi hsave hg => exact hr e he
  | load hkey htids hplan =>
    rcases List.mem_append.mp he with he | he
    · exact hr e he
    · obtain rfl := List.mem_singleton.mp he
      obtain ⟨hidx, hhost⟩ := hplan.deltaEmpty _
      refine ⟨DeltaFresh.of_empty hidx hhost, fun h => ?_⟩
      rw [hidx] at h
      cases h

theorem Moves.allDeltaFresh {r r' : Resident} (h : Moves cfg r r') (hr : AllDeltaFresh cfg r) :
    AllDeltaFresh cfg r' := by
  induction h with
  | refl => exact hr
  | tail _ hstep ih => exact hstep.allDeltaFresh ih

end Moves

end PgCuvs
