import PgCuvs.Library.Ring
import PgCuvs.Library.Run
import PgCuvs.Gone

/-! The warmup ring, the cold registry and the worker threads between them. The ring has
a mutex of its own; the registry is changed under the index lock. -/

namespace PgCuvs

section Ring

abbrev WarmupRing := Ring.Buffer WarmupJob

/-- `warmup_enqueue`: jobs in the ring are looked at, jobs of the workers are not. -/
def WarmupRing.enqueue (r : WarmupRing) (job : WarmupJob) : WarmupRing :=
  if r.contents.any (fun j => j.key == job.key) then r
  else if warmupQueueMax ≤ r.count then r
  else r.push job

/-- `warmup_dequeue`, when it need not wait. -/
def WarmupRing.dequeue (r : WarmupRing) : Option (WarmupJob × WarmupRing) :=
  if r.count = 0 then none else r.slots[r.head]?.map fun job => (job, r.pop)

def WarmupRing.Queues (r : WarmupRing) (jobs : List WarmupJob) : Prop :=
  r.Holds jobs ∧ r.slots.length = warmupQueueMax

variable {r : WarmupRing} {jobs : List WarmupJob}

theorem WarmupRing.Queues.enqueue (h : r.Queues jobs) (job : WarmupJob) :
    (r.enqueue job).Queues (warmupEnqueue jobs job) := by
  unfold WarmupRing.enqueue warmupEnqueue
  rw [h.1.contents, h.1.count]
  split_ifs with hdup hfull
  · exact h
  · exact h
  · exact ⟨h.1.push (h.2 ▸ not_le.mp hfull) job, (List.length_set ..).trans h.2⟩

theorem WarmupRing.Queues.dequeue {job : WarmupJob} (h : r.Queues (job :: jobs)) :
    r.dequeue = some (job, r.pop) ∧ WarmupRing.Queues r.pop jobs := by
  refine ⟨?_, h.1.pop, h.2⟩
  have hcount : r.count ≠ 0 := by
    rw [h.1.count]
    simp
  rw [WarmupRing.dequeue, if_neg hcount, h.1.front]
  rfl

theorem WarmupRing.Queues.dequeue_nil (h : r.Queues []) : r.dequeue = none := by
  have hcount : r.count = 0 := h.1.count
  rw [WarmupRing.dequeue, if_pos hcount]

end Ring

/-- Where a `warmup_worker_thread` is. It has the index lock at `loading` only. -/
inductive WarmupWorker where
  | idle
  /-- dequeued, and not marked in the registry yet -/
  | taken (job : WarmupJob)
  | downloading (job : WarmupJob)
  | fetched (job : WarmupJob)
  | loading (job : WarmupJob)
  | cleaning (job : WarmupJob)
deriving DecidableEq, Repr

def WarmupWorker.job : WarmupWorker → Option WarmupJob
  | .idle => none
  | .taken j | .downloading j | .fetched j | .loading j | .cleaning j => some j

structure WarmupPool where
  cold : List ColdIndexEntry
  ring : WarmupRing
  workers : List WarmupWorker

def WarmupPool.locked (s : WarmupPool) : Bool :=
  s.workers.any fun w =>
    match w with
    | .loading _ => true
    | _ => false

def updateCold (key : Key) (f : ColdIndexEntry → ColdIndexEntry) (cold : List ColdIndexEntry) :
    List ColdIndexEntry :=
  match cold.findIdx? fun c => c.key == key with
  | some ci => cold.modify ci f
  | none => cold

def setWarmup (state : WarmupState) (c : ColdIndexEntry) : ColdIndexEntry :=
  { c with warmupState := state }

def bumpMiss (c : ColdIndexEntry) : ColdIndexEntry :=
  { c with cacheMissCount := c.cacheMissCount + 1 }

/-- A file of the directory whose index is not resident, with the sidecar's numbers. -/
structure ColdFile where
  key : Key
  relfilenode : ℕ
  tableOid : Oid
deriving DecidableEq, Repr

def ColdFile.entry (f : ColdFile) : ColdIndexEntry where
  key := f.key
  relfilenode := f.relfilenode
  tableOid := f.tableOid
  warmupState := .queued
  lastWarmupAt := 0
  warmupDurationMs := 0
  downloadCount := 0
  cacheMissCount := 0

def ColdFile.job (f : ColdFile) : WarmupJob := ⟨f.key, f.relfilenode, f.tableOid, false⟩

def registerFile (maxIndexes : ℕ) (p : List ColdIndexEntry × WarmupRing) (f : ColdFile) :
    List ColdIndexEntry × WarmupRing :=
  (if p.1.length < maxIndexes then p.1 ++ [f.entry] else p.1, p.2.enqueue f.job)

/-- The pool after a start; the workers are spawned behind it. -/
def WarmupPool.startup (maxIndexes nThreads : ℕ) (files : List ColdFile) : WarmupPool :=
  let p := files.foldl (registerFile maxIndexes) ([], .empty warmupQueueMax ⟨⟨0, 0⟩, 0, 0, false⟩)
  ⟨p.1, p.2, List.replicate nThreads .idle⟩

inductive WarmupEvent where
  /-- a search finds the index neither resident nor loadable -/
  | miss (key : Key)
  /-- worker `w` goes on; `ok` says how its download or load ended -/
  | worker (w : ℕ) (ok : Bool)
  | drop (key : Key)
deriving DecidableEq, Repr

def WarmupPool.setWorker (s : WarmupPool) (w : ℕ) (worker : WarmupWorker) : WarmupPool :=
  { s with workers := s.workers.set w worker }

def WarmupPool.miss (s : WarmupPool) (key : Key) : WarmupPool :=
  match s.cold.find? fun c => c.key == key with
  | none => s
  | some c =>
    if c.warmupState = .cold ∨ c.warmupState = .failed then
      { s with
        cold := updateCold key (fun c => setWarmup .queued (bumpMiss c)) s.cold
        ring := s.ring.enqueue ⟨key, c.relfilenode, c.tableOid, true⟩ }
    else { s with cold := updateCold key bumpMiss s.cold }

def WarmupPool.advance (s : WarmupPool) (w : ℕ) (ok : Bool) : WarmupWorker → WarmupPool
  | .idle =>
    match s.ring.dequeue with
    | some (j, ring) => { s.setWorker w (.taken j) with ring }
    | none => s
  | .taken j =>
    -- a request that holds the lock makes the worker wait
    if s.locked then s
    else { s.setWorker w (.downloading j) with
      cold := updateCold j.key (setWarmup .downloading) s.cold }
  | .downloading j =>
    if ok then s.setWorker w (.fetched j)
    else if s.locked then s
    else { s.setWorker w .idle with cold := updateCold j.key (setWarmup .failed) s.cold }
  | .fetched j =>
    if s.locked then s
    else { s.setWorker w (.loading j) with
      cold := updateCold j.key (setWarmup .loading) s.cold }
  | .loading j =>
    if ok then
      { s.setWorker w (.cleaning j) with cold := s.cold.eraseP fun c => c.key == j.key }
    else { s.setWorker w .idle with cold := updateCold j.key (setWarmup .failed) s.cold }
  | .cleaning _ => s.setWorker w .idle

def WarmupPool.step (s : WarmupPool) : WarmupEvent → WarmupPool
  | .miss key => if s.locked then s else s.miss key
  | .worker w ok =>
    match s.workers[w]? with
    | some worker => s.advance w ok worker
    | none => s
  | .drop key =>
    if s.locked then s else { s with cold := s.cold.eraseP fun c => c.key == key }

section Tracks

structure WarmupPool.Tracks (s : WarmupPool) (d : Daemon) : Prop where
  cold : s.cold = d.cold
  ring : s.ring.Queues d.warmupQueue

variable {cfg : Config} {s : WarmupPool} {d : Daemon} {key : Key}

theorem setColdState_cold (state : WarmupState) :
    setColdState d key state = { d with cold := updateCold key (setWarmup state) d.cold } := by
  unfold setColdState updateCold
  cases d.cold.findIdx? fun c => c.key == key with
  | none => rfl
  | some ci => rfl

theorem noteColdMiss_eq (huri : cfg.snapshotUri ≠ "") :
    noteColdMiss cfg d key = match d.cold.find? fun c => c.key == key with
      | none => d
      | some c =>
        if c.warmupState = .cold ∨ c.warmupState = .failed then
          { d with
            cold := updateCold key (fun c => setWarmup .queued (bumpMiss c)) d.cold
            warmupQueue := warmupEnqueue d.warmupQueue ⟨key, c.relfilenode, c.tableOid, true⟩ }
        else { d with cold := updateCold key bumpMiss d.cold } := by
  unfold noteColdMiss updateCold
  rw [if_neg huri]
  cases hfind : d.cold.findIdx? fun c => c.key == key with
  | none =>
    rw [List.find?_eq_none.mpr fun c hc => by
      simpa using List.findIdx?_eq_none_iff.mp hfind c hc]
  | some ci =>
    obtain ⟨hlt, hkey, hbefore⟩ := List.findIdx?_eq_some_iff_getElem.mp hfind
    have hsome : (d.cold.find? fun c => c.key == key) = some d.cold[ci] := by
      rw [List.find?_eq_some_iff_getElem]
      exact ⟨hkey, ci, hlt, rfl, fun j hj => by simpa using hbefore j hj⟩
    simp only [hsome, List.getElem?_eq_getElem hlt, List.modify_eq_set_getElem?, setWarmup, bumpMiss]
    split_ifs <;> rfl

theorem WarmupPool.Tracks.miss (h : s.Tracks d) (huri : cfg.snapshotUri ≠ "") :
    (s.miss key).Tracks (noteColdMiss cfg d key) := by
  rw [noteColdMiss_eq huri]
  unfold WarmupPool.miss
  rw [h.cold]
  split
  · exact h
  · split_ifs
    · exact ⟨rfl, h.ring.enqueue _⟩
    · exact ⟨rfl, h.ring⟩

theorem act_warm (d : Daemon) (action : RegistryAction) : (d.act action).warm = d.warm :=
  rfl

theorem WarmupPool.Tracks.of_warm {d' : Daemon} (h : s.Tracks d) (hwarm : d'.warm = d.warm) :
    s.Tracks d' where
  cold := h.cold.trans (congrArg Prod.fst hwarm).symm
  ring := by
    rw [show d'.warmupQueue = d.warmupQueue from congrArg Prod.snd hwarm]
    exact h.ring

theorem WarmupPool.Tracks.drop (h : s.Tracks d) (hfree : s.locked = false) :
    (s.step (.drop key)).Tracks (handleDrop cfg d key).final := by
  have hentry : (s.step (.drop key)).Tracks (handleDrop cfg d key).daemon := by
    simp only [WarmupPool.step, hfree, Bool.false_eq_true, if_false]
    exact ⟨congrArg (List.eraseP _) h.cold, h.ring⟩
  exact hentry.of_warm (act_warm _ _)

theorem warmClosed (cfg : Config) (env : Env) :
    EvictClosed cfg env fun d d' => d'.warm = d.warm where
  refl _ := rfl
  trans h h' := h'.trans h
  step d device := evictLru_warm d device

theorem loadIndex_warm (env : Env) : (loadIndex cfg env d key).1.warm = d.warm := by
  obtain ⟨d1, hd1, heq | ⟨c, -, -, -, heq⟩⟩ := (warmClosed cfg env).of_loadIndex cfg env d key
  · rw [heq]
    exact hd1
  · rw [heq]
    exact hd1

def registerName (cfg : Config) (d : Daemon) (key : Key) : Daemon :=
  if (findIndex d.live key).isSome then d
  else
    let (relfilenode, tableOid) := ((d.disk cfg.indexDir key).relfilenode).getD (0, 0)
    let f : ColdFile := ⟨key, relfilenode, tableOid⟩
    { d with
      cold := if d.cold.length < cfg.maxIndexes then d.cold ++ [f.entry] else d.cold
      warmupQueue := warmupEnqueue d.warmupQueue f.job }

theorem registerCold_eq (huri : cfg.snapshotUri ≠ "") (names : List String) :
    registerCold cfg d names
      = (names.filterMap fun name => (scanKey name).map Prod.fst).foldl (registerName cfg) d := by
  rw [registerCold, if_neg huri]
  rfl

def ColdFile.of (cfg : Config) (d : Daemon) (key : Key) : ColdFile :=
  let numbers := ((d.disk cfg.indexDir key).relfilenode).getD (0, 0)
  ⟨key, numbers.1, numbers.2⟩

def coldFiles (cfg : Config) (d : Daemon) (names : List String) : List ColdFile :=
  ((names.filterMap fun name => (scanKey name).map Prod.fst).filter fun key =>
    !(findIndex d.live key).isSome).map (ColdFile.of cfg d)

theorem registerNames_tracks {keys : List Key} {d' : Daemon} {p : List ColdIndexEntry × WarmupRing}
    (hlive : d'.live = d.live) (hdisk : d'.disk = d.disk) (hcold : p.1 = d'.cold)
    (hring : p.2.Queues d'.warmupQueue) (workers : List WarmupWorker) :
    let q := ((keys.filter fun key => !(findIndex d.live key).isSome).map (ColdFile.of cfg d)).foldl
      (registerFile cfg.maxIndexes) p
    WarmupPool.Tracks ⟨q.1, q.2, workers⟩ (keys.foldl (registerName cfg) d') := by
  induction keys generalizing d' p with
  | nil => exact ⟨hcold, hring⟩
  | cons key keys ih =>
    by_cases hres : (findIndex d.live key).isSome
    · have hskip : registerName cfg d' key = d' := by rw [registerName, hlive, if_pos hres]
      rw [List.filter_cons_of_neg (by simp [hres]), List.foldl_cons, hskip]
      exact ih hlive hdisk hcold hring
    · have htake : registerName cfg d' key =
          { d' with
            cold := if d'.cold.length < cfg.maxIndexes then
              d'.cold ++ [(ColdFile.of cfg d key).entry] else d'.cold
            warmupQueue := warmupEnqueue d'.warmupQueue (ColdFile.of cfg d key).job } := by
        rw [registerName, hlive, if_neg hres, hdisk]
        rfl
      rw [List.filter_cons_of_pos (by simp [hres]), List.map_cons, List.foldl_cons, List.foldl_cons,
        htake]
      refine ih hlive hdisk ?_ (hring.enqueue _)
      rw [registerFile, hcold]

/-- The pool of a start is what the start leaves in an empty registry. -/
theorem WarmupPool.startup_tracks (nThreads : ℕ) (names : List String)
    (huri : cfg.snapshotUri ≠ "") (hcold : d.cold = []) (hqueue : d.warmupQueue = []) :
    (WarmupPool.startup cfg.maxIndexes nThreads (coldFiles cfg d names)).Tracks
      (registerCold cfg d names) := by
  rw [registerCold_eq huri]
  refine registerNames_tracks rfl rfl hcold.symm ?_ _
  rw [hqueue]
  exact ⟨Ring.Buffer.holds_empty (by decide) _, List.length_replicate⟩

theorem WarmupPool.Tracks.setColdState (h : s.Tracks d) (state : WarmupState)
    (workers : List WarmupWorker) :
    WarmupPool.Tracks ⟨updateCold key (setWarmup state) s.cold, s.ring, workers⟩
      (setColdState d key state) := by
  rw [setColdState_cold]
  exact ⟨congrArg (updateCold _ _) h.cold, h.ring⟩

def endHydrate (env : Env) (ms : ℕ) (key : Key) : Daemon × LoadResult → Daemon
  | (d, .loaded) =>
    let d' := { d with cold := d.cold.eraseP fun c => c.key == key }
    match findIndex d.live key with
    | some i =>
      match d.live[i]? with
      | some e => d'.setEntry i (noteHydrated env.now ms (coldEntry d key) e)
      | none => d'
    | none => d'
  | (d, _) => PgCuvs.setColdState d key .failed

theorem hydrate_eq (env : Env) (ms : ℕ) :
    hydrate cfg env d key ms
      = endHydrate env ms key (loadIndex cfg env (setColdState d key .loading) key) :=
  rfl

theorem WarmupPool.Tracks.endHydrate (h : s.Tracks d) {w : ℕ} {j : WarmupJob} {outcome : LoadResult}
    {env : Env} {ms : ℕ} {d1 : Daemon} (hw : s.workers[w]? = some (.loading j))
    (hout : loadIndex cfg env d j.key = (d1, outcome)) :
    (s.step (.worker w (outcome == .loaded))).Tracks (endHydrate env ms j.key (d1, outcome)) := by
  have hafter : s.Tracks d1 := by
    have hwarm : (loadIndex cfg env d j.key).1.warm = d.warm := loadIndex_warm env
    rw [hout] at hwarm
    exact h.of_warm hwarm
  simp only [WarmupPool.step, hw, WarmupPool.advance]
  cases outcome with
  | loaded =>
    have hgone : WarmupPool.Tracks
        ⟨s.cold.eraseP fun c => c.key == j.key, s.ring, s.workers.set w (.cleaning j)⟩
        { d1 with cold := d1.cold.eraseP fun c => c.key == j.key } :=
      ⟨congrArg (List.eraseP _) hafter.cold, hafter.ring⟩
    rw [if_pos (by rfl)]
    unfold PgCuvs.endHydrate
    simp only
    split
    · split
      · exact hgone.of_warm rfl
      · exact hgone
    · exact hgone
  | failed => exact hafter.setColdState .failed _
  | vram => exact hafter.setColdState .failed _

/-- A worker that has its download and gets the lock: the two moves are the daemon's
`hydrate`. -/
theorem WarmupPool.Tracks.hydrate (h : s.Tracks d) {w : ℕ} {j : WarmupJob}
    (hw : s.workers[w]? = some (.fetched j)) (hfree : s.locked = false) (env : Env) (ms : ℕ) :
    ∃ ok, ((s.step (.worker w true)).step (.worker w ok)).Tracks (hydrate cfg env d j.key ms) := by
  have hlt : w < s.workers.length := (List.getElem?_eq_some_iff.mp hw).1
  have hload : s.step (.worker w true)
      = ⟨updateCold j.key (setWarmup .loading) s.cold, s.ring, s.workers.set w (.loading j)⟩ := by
    simp only [WarmupPool.step, hw, WarmupPool.advance, hfree, Bool.false_eq_true, if_false]
    rfl
  rw [hload]
  cases hout : loadIndex cfg env (PgCuvs.setColdState d j.key .loading) j.key with
  | mk d1 outcome =>
    refine ⟨outcome == .loaded, ?_⟩
    rw [hydrate_eq, hout]
    exact (h.setColdState .loading _).endHydrate (List.getElem?_set_self hlt) hout

end Tracks

end PgCuvs
