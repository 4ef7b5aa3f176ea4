import Mathlib.Logic.Relation
import PgCuvs.Daemon
import PgCuvs.Persist

/-! VRAM accounting, saving an entry to disk and eviction. -/

namespace PgCuvs

def estimateVramBytes (nVecs dim graphDegree : ℕ) : ℕ :=
  let gd := if 0 < graphDegree then graphDegree else 64
  nVecs * (dim * 4 + gd * 4)

def sizeSub (a b : ℕ) : ℕ := if b ≤ a then a - b else 2 ^ 64 - (b - a)

def entryVramOn (e : IndexEntry) (device : ℕ) : ℕ :=
  if 2 ≤ e.shardCount then
    ((e.shards.filter fun s => s.gpuDeviceId == device).map fun s =>
      s.vramBytes + s.bfVramBytes).sum
  else if e.gpuDeviceId = device then e.vramBytes + e.deltaVramBytes + e.mainBfVramBytes
  else 0

def totalVramUsed (d : Daemon) (device : ℕ) : ℕ :=
  (d.live.map fun e => entryVramOn e device).sum
    + (if device < cuvsMaxGpus then d.pendingBuildVram device else 0)

def nUsableGpus (cfg : Config) : ℕ :=
  if cfg.allowedGpus = [] then cfg.nGpus else cfg.allowedGpus.length

def usableGpu (cfg : Config) (i : ℕ) : ℕ :=
  if cfg.allowedGpus = [] then i else cfg.allowedGpus.getD i 0

/-- The device with the most headroom whose budget `needed` does not exceed. -/
def pickGpuForIndex (cfg : Config) (env : Env) (d : Daemon) (needed : ℕ) : Option ℕ :=
  let step (best : Option (ℕ × ℕ)) (i : ℕ) : Option (ℕ × ℕ) :=
    let dev := usableGpu cfg i
    let budget := d.maxVramPerGpu dev
    if 0 < budget ∧ budget < needed then best
    else
      -- unsigned: a device past its budget seems to have room for anything
      let headroom :=
        if 0 < budget then sizeSub budget (totalVramUsed d dev) else env.freeVram d.live dev
      match best with
      | none => some (dev, headroom)
      | some (_, h) => if h < headroom then some (dev, headroom) else best
  ((List.range (nUsableGpus cfg)).foldl step none).map Prod.fst

/-- What `save_index` does to the files of an entry, and whether it succeeds. -/
def saveEntryOps (fault : Option SaveFault) (e : IndexEntry) (handle : Cagra) :
    List FileOp × Bool :=
  let tids := cuvsTidsWrite e.dim e.metric (e.tids.take e.nVecs)
  match fault with
  | some .writeTids | some .serialize | some .renameTids =>
    (saveIndexOps tids handle (some .renameTids), false)
  | some .renameCagra => (saveIndexOps tids handle (some .renameGraph), false)
  | none => (saveIndexOps tids handle none, true)

theorem saveEntryOps_field {β : Type*} {f : Artifacts → β} (htids : ∀ a x, f { a with tids := x } = f a)
    (hcagra : ∀ a x, f { a with cagra := x } = f a) (fault : Option SaveFault) (e : IndexEntry)
    (handle : Cagra) (a : Artifacts) : f (runFileOps (saveEntryOps fault e handle).1 a) = f a := by
  refine CrashPrefix.run_field FileOp.apply ?_ a
  intro o ho s
  rcases fault with _ | _ | _ | _ | _ <;> simp [saveEntryOps, saveIndexOps] at ho
  · rcases ho with rfl | rfl
    · exact htids ..
    · exact hcagra ..
  · rcases ho with rfl | rfl
    · exact htids ..
    · exact htids ..

def saveIndex (cfg : Config) (env : Env) (disk : Disk) (e : IndexEntry) : Disk × Bool :=
  match e.handle with
  | none => (disk, false)
  | some handle =>
    let p := saveEntryOps (env.saveFault e.key) e handle
    (disk.modify cfg.indexDir e.key (runFileOps p.1), p.2)

def entryOnDevice (e : IndexEntry) (device : ℕ) : Bool :=
  if 2 ≤ e.shardCount then e.shards.any fun s => s.gpuDeviceId == device
  else e.gpuDeviceId == device

def evictable (e : IndexEntry) (device : ℕ) : Bool :=
  !(decide (2 ≤ e.shardCount) && decide (0 < e.inflight)) && entryOnDevice e device

/-- One round of the scan: `lru` is the best slot so far and its `lastSearch`. -/
def lruStep (device : ℕ) (lru : Option (ℕ × ℕ)) (p : IndexEntry × ℕ) : Option (ℕ × ℕ) :=
  if !evictable p.1 device then lru
  else
    match lru with
    | none => some (p.2, p.1.lastSearch)
    | some (_, t) => if p.1.lastSearch < t then some (p.2, p.1.lastSearch) else lru

/-- Slot of the least recently searched evictable entry on a device. -/
def findLruIndex (live : List IndexEntry) (device : ℕ) : Option ℕ :=
  (live.zipIdx.foldl (lruStep device) none).map Prod.fst

theorem findLruIndex_eq_some {live : List IndexEntry} {device i : ℕ}
    (h : findLruIndex live device = some i) :
    ∃ e, live[i]? = some e ∧ evictable e device = true := by
  have hfold : ∀ (ps : List (IndexEntry × ℕ)) (lru : Option (ℕ × ℕ)),
      (∀ p ∈ ps, live[p.2]? = some p.1) →
      (∀ q, lru = some q → ∃ e, live[q.1]? = some e ∧ evictable e device = true) →
      ∀ q, ps.foldl (lruStep device) lru = some q →
        ∃ e, live[q.1]? = some e ∧ evictable e device = true := by
    intro ps
    induction ps with
    | nil => exact fun lru _ hlru q hq => hlru q hq
    | cons p ps ih =>
      intro lru hps hlru
      refine ih _ (fun q hq => hps q (List.mem_cons_of_mem p hq)) ?_
      intro q hq
      have hp : live[p.2]? = some p.1 := hps p List.mem_cons_self
      simp only [lruStep] at hq
      split_ifs at hq with hdev
      · exact hlru q hq
      · have hself : ∃ e, live[p.2]? = some e ∧ evictable e device = true :=
          ⟨p.1, hp, by simpa using hdev⟩
        split at hq
        · obtain rfl := Option.some.inj hq
          exact hself
        · split_ifs at hq
          · obtain rfl := Option.some.inj hq
            exact hself
          · exact hlru q hq
  obtain ⟨q, hq, rfl⟩ := Option.map_eq_some_iff.mp h
  refine hfold live.zipIdx none ?_ (fun _ h => by cases h) q hq
  intro p hp
  exact List.mk_mem_zipIdx_iff_getElem?.mp hp

/-- What eviction leaves in the slot besides the freed pointers. -/
def freeEvicted (e : IndexEntry) : IndexEntry :=
  let e := freeMainBfCache (freeDeltaCache e)
  let e := if 2 ≤ e.shardCount then freeIndexShards e else e
  { e with revTids := none, revItemIds := none, hnswIdx := none, ivfpqHandle := none }

/-- Bytes eviction gives back on a device. -/
def evictedBytes (e : IndexEntry) (device : ℕ) : ℕ :=
  if 2 ≤ e.shardCount then
    ((e.shards.filter fun s => s.gpuDeviceId == device).map ShardEntry.vramBytes).sum
  else if e.ivfpqHandle.isSome then e.vramBytes
  else if e.isFlat then e.mainBfVramBytes
  else e.vramBytes

/-- Only an unsharded CAGRA entry has to be saved before it may go. -/
def needsSave (e : IndexEntry) : Bool :=
  !decide (2 ≤ e.shardCount) && !e.ivfpqHandle.isSome && !e.isFlat

def dropEvicted (d : Daemon) (i : ℕ) (e : IndexEntry) (device : ℕ) : Daemon :=
  { d with
    registry := d.registry.removeIdx i (freeEvicted e)
    counters := { d.counters with evictions := bump d.counters.evictions device } }

def evictLru (cfg : Config) (env : Env) (d : Daemon) (device : ℕ) : Daemon × ℕ :=
  match findLruIndex d.live device with
  | none => (d, 0)
  | some i =>
    match d.live[i]? with
    | none => (d, 0)
    | some e =>
      if needsSave e then
        match saveIndex cfg env d.disk e with
        | (disk, true) => (dropEvicted { d with disk } i e device, evictedBytes e device)
        -- what cannot be saved is not evicted, and no other entry is tried
        | (disk, false) =>
          ({ d with
             disk
             counters := { d.counters with persistFail := bump d.counters.persistFail device } },
            0)
      else (dropEvicted d i e device, evictedBytes e device)

/-- Evict on a device while `more` asks for it and eviction frees something.
Every round but the last removes a slot, so the registry size bounds them. -/
def evictWhile (cfg : Config) (env : Env) (device : ℕ) (more : Daemon → Bool) :
    ℕ → Daemon → Daemon
  | 0, d => d
  | fuel + 1, d =>
    if !d.live.isEmpty && more d then
      let (d', freed) := evictLru cfg env d device
      if freed = 0 then d' else evictWhile cfg env device more fuel d'
    else d

def overBudget (needed device : ℕ) (d : Daemon) : Bool :=
  decide (d.maxVramPerGpu device < totalVramUsed d device + needed)

/-- The second loop of `ensure_vram`: `free` was measured after the last
eviction that gave something back. -/
def evictUntilFree (cfg : Config) (env : Env) (needed device : ℕ) :
    ℕ → Daemon → ℕ → Daemon × Bool
  | 0, d, free => (d, decide (needed ≤ free))
  | fuel + 1, d, free =>
    if !d.live.isEmpty && decide (free < needed) then
      let (d', freed) := evictLru cfg env d device
      if freed = 0 then (d', decide (needed ≤ free))
      else evictUntilFree cfg env needed device fuel d' (env.freeVram d'.live device)
    else (d, decide (needed ≤ free))

/-- Make room for `needed` bytes; the flag tells whether there is. -/
def ensureVram (cfg : Config) (env : Env) (d : Daemon) (needed device : ℕ) : Daemon × Bool :=
  let d :=
    if 0 < d.maxVramPerGpu device ∧ overBudget needed device d then
      evictWhile cfg env device (overBudget needed device) (d.live.length + 1) d
    else d
  if 0 < d.maxVramPerGpu device ∧ overBudget needed device d then (d, false)
  else
    evictUntilFree cfg env needed device (d.live.length + 1) d (env.freeVram d.live device)

section Closed

/-- A relation that every eviction stays in, and so whatever makes room by evictions. -/
structure EvictClosed (cfg : Config) (env : Env) (R : Daemon → Daemon → Prop) : Prop where
  refl : ∀ d, R d d
  trans : ∀ {d d' d'' : Daemon}, R d d' → R d' d'' → R d d''
  step : ∀ d device, R d (evictLru cfg env d device).1

variable {cfg : Config} {env : Env} {R : Daemon → Daemon → Prop}

theorem EvictClosed.of_evictWhile (h : EvictClosed cfg env R) {device : ℕ} {more : Daemon → Bool}
    (fuel : ℕ) (d : Daemon) : R d (evictWhile cfg env device more fuel d) := by
  induction fuel generalizing d with
  | zero => exact h.refl d
  | succ fuel ih =>
    have hstep := h.step d device
    simp only [evictWhile]
    split_ifs
    · exact hstep
    · exact h.trans hstep (ih _)
    · exact h.refl d

theorem EvictClosed.of_evictUntilFree (h : EvictClosed cfg env R) {needed device : ℕ} (fuel : ℕ)
    (d : Daemon) (free : ℕ) : R d (evictUntilFree cfg env needed device fuel d free).1 := by
  induction fuel generalizing d free with
  | zero => exact h.refl d
  | succ fuel ih =>
    have hstep := h.step d device
    simp only [evictUntilFree]
    split_ifs
    · exact hstep
    · exact h.trans hstep (ih _ _)
    · exact h.refl d

theorem EvictClosed.of_ensureVram (h : EvictClosed cfg env R) (d : Daemon) (needed device : ℕ) :
    R d (ensureVram cfg env d needed device).1 := by
  have hbudget : R d
      (if 0 < d.maxVramPerGpu device ∧ overBudget needed device d then
        evictWhile cfg env device (overBudget needed device) (d.live.length + 1) d
      else d) := by
    split_ifs
    · exact h.of_evictWhile _ d
    · exact h.refl d
  simp only [ensureVram]
  set d1 := if 0 < d.maxVramPerGpu device ∧ overBudget needed device d then
      evictWhile cfg env device (overBudget needed device) (d.live.length + 1) d
    else d
  split_ifs
  · exact hbudget
  · exact h.trans hbudget (h.of_evictUntilFree _ _ _)

end Closed

section Moves

abbrev Resident := Registry × Disk

def Daemon.resident (d : Daemon) : Resident := (d.registry, d.disk)

inductive Eviction (cfg : Config) : Resident → Resident → Prop
  | drop {reg : Registry} {disk : Disk} {i device : ℕ} {e : IndexEntry}
      (hi : reg.live[i]? = some e) (hdev : evictable e device) (hsave : needsSave e = false) :
      Eviction cfg (reg, disk) (reg.removeIdx i (freeEvicted e), disk)
  | saved {reg : Registry} {disk : Disk} {i device : ℕ} {e : IndexEntry} {g : Cagra}
      (hi : reg.live[i]? = some e) (hdev : evictable e device) (hsave : needsSave e = true)
      (hg : e.handle = some g) :
      Eviction cfg (reg, disk)
        (reg.removeIdx i (freeEvicted e),
          disk.modify cfg.indexDir e.key (runFileOps (saveEntryOps none e g).1))
  | failed {reg : Registry} {disk : Disk} {i : ℕ} {e : IndexEntry} {g : Cagra}
      (fault : SaveFault) (hi : reg.live[i]? = some e) (hsave : needsSave e = true)
      (hg : e.handle = some g) :
      Eviction cfg (reg, disk)
        (reg, disk.modify cfg.indexDir e.key (runFileOps (saveEntryOps (some fault) e g).1))

abbrev Evictions (cfg : Config) : Resident → Resident → Prop :=
  Relation.ReflTransGen (Eviction cfg)

variable (cfg : Config) (env : Env)

theorem evictLru_evictions (d : Daemon) (device : ℕ) :
    Evictions cfg d.resident (evictLru cfg env d device).1.resident := by
  unfold evictLru
  cases hlru : findLruIndex d.live device with
  | none => exact Relation.ReflTransGen.refl
  | some i =>
    obtain ⟨e, hi, hdev⟩ := findLruIndex_eq_some hlru
    have hslot : d.registry.live[i]? = some e := hi
    simp only [hi]
    split_ifs with hsave
    · unfold saveIndex
      cases hg : e.handle with
      | none => exact Relation.ReflTransGen.refl
      | some g =>
        rcases hfault : env.saveFault e.key with _ | fault
        · exact Relation.ReflTransGen.single (Eviction.saved hslot hdev hsave hg)
        · have hmove : Eviction cfg (d.registry, d.disk) _ := Eviction.failed fault hslot hsave hg
          cases fault <;> exact Relation.ReflTransGen.single hmove
    · exact Relation.ReflTransGen.single
        (Eviction.drop hslot hdev (Bool.eq_false_iff.mpr hsave))

theorem evictClosed_evictions :
    EvictClosed cfg env fun d d' => Evictions cfg d.resident d'.resident where
  refl _ := Relation.ReflTransGen.refl
  trans := Relation.ReflTransGen.trans
  step := evictLru_evictions cfg env

theorem ensureVram_evictions (d : Daemon) (needed device : ℕ) :
    Evictions cfg d.resident (ensureVram cfg env d needed device).1.resident :=
  (evictClosed_evictions cfg env).of_ensureVram d needed device

end Moves

section Frame

variable {cfg : Config} {key : Key} {r r' : Resident}

theorem Evictions.frame (h : Evictions cfg r r') (hkey : ∀ e ∈ r.1.live, e.key ≠ key) :
    (∀ e ∈ r'.1.live, e.key ≠ key) ∧ ∀ dir, r'.2 dir key = r.2 dir key := by
  induction h with
  | refl => exact ⟨hkey, fun _ => rfl⟩
  | tail _ hstep ih =>
    obtain ⟨hlive, hdisk⟩ := ih
    cases hstep with
    | drop hi hdev hsave =>
      exact ⟨fun e he => hlive e (List.mem_of_mem_eraseIdx he), hdisk⟩
    | saved hi hdev hsave hg =>
      have hne := hlive _ (List.mem_of_getElem? hi)
      refine ⟨fun e he => hlive e (List.mem_of_mem_eraseIdx he), fun dir => ?_⟩
      exact (Disk.modify_of_key_ne _ _ hne.symm).trans (hdisk dir)
    | failed fault hi hsave hg =>
      have hne := hlive _ (List.mem_of_getElem? hi)
      exact ⟨hlive, fun dir => (Disk.modify_of_key_ne _ _ hne.symm).trans (hdisk dir)⟩

def NotResident (key : Key) (d : Daemon) : Prop := ∀ e ∈ d.live, e.key ≠ key

end Frame

end PgCuvs
