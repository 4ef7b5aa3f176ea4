import PgCuvs.Warmup.Registry

/-! The warmup ring, the workers and the cold registry over whole runs. -/

namespace PgCuvs

open Run

def WarmupWorker.holds (key : Key) (w : WarmupWorker) : Bool := w.job.any fun j => j.key == key

namespace WarmupPool

def jobs (s : WarmupPool) : List WarmupJob := s.ring.contents ++ s.workers.filterMap WarmupWorker.job

/-- No job is lost: a worker may have taken the job of an entry that still says QUEUED. -/
structure Accounted (s : WarmupPool) : Prop where
  waiting : ∀ c ∈ s.cold, c.warmupState = .queued →
    (∃ j ∈ s.ring.contents, j.key = c.key) ∨ ∃ j, .taken j ∈ s.workers ∧ j.key = c.key
  working : ∀ c ∈ s.cold, c.warmupState = .downloading ∨ c.warmupState = .loading →
    s.workers.countP (WarmupWorker.holds c.key) = 1
  once : (s.jobs.map WarmupJob.key).Nodup
  ring : s.ring.Holds s.ring.contents

structure Consistent (s : WarmupPool) : Prop extends s.Accounted where
  queued : ∀ c ∈ s.cold, c.warmupState = .queued → ∃ j ∈ s.ring.contents, j.key = c.key

/-- A worker has a job whose entry it has not marked yet. -/
def InWindow (s : WarmupPool) : Prop := ∃ j, .taken j ∈ s.workers ∧ ∃ c ∈ s.cold, c.key = j.key

/-- A miss of the index puts its entry back to QUEUED. -/
def requeues (s : WarmupPool) (key : Key) : Bool :=
  !s.locked && (s.cold.find? fun c => c.key == key).any fun c =>
    c.warmupState = .cold ∨ c.warmupState = .failed

def HasRoom (s : WarmupPool) : WarmupEvent → Prop
  | .miss key => s.requeues key → s.ring.count < warmupQueueMax
  | _ => True

instance (s : WarmupPool) : ∀ e, Decidable (s.HasRoom e)
  | .miss _ => inferInstanceAs (Decidable (_ → _))
  | .worker _ _ => isTrue trivial
  | .drop _ => isTrue trivial

structure Inv (kept : Prop) (s : WarmupPool) : Prop where
  ring : s.ring.Queues s.ring.contents
  shown : Shown kept s.cold s.claims

section Claims

variable {kept : Prop} {s : WarmupPool} {w : ℕ} {x : WarmupWorker}

theorem claims_keys (s : WarmupPool) : s.claims.map Prod.fst = s.jobs.map WarmupJob.key := by
  have hworkers : ∀ x : WarmupWorker,
      Option.map Prod.fst x.claim = Option.map WarmupJob.key x.job := by
    intro x
    cases x <;> rfl
  rw [claims, jobs, List.map_append, List.map_append, List.map_map, List.map_filterMap,
    List.map_filterMap, List.filterMap_congr fun x _ => hworkers x]
  rfl

theorem claims_state {p : Key × Option WarmupState} (hp : p ∈ s.claims) {state : WarmupState}
    (hstate : p.2 = some state) : state.Busy := by
  rcases List.mem_append.mp hp with hring | hworker
  · obtain ⟨j, -, rfl⟩ := List.mem_map.mp hring
    cases hstate
    decide
  · obtain ⟨x, -, hx⟩ := List.mem_filterMap.mp hworker
    cases x <;> cases hx <;> cases hstate <;> decide

def others (s : WarmupPool) (w : ℕ) : List (Key × Option WarmupState) :=
  s.ring.contents.map queuedClaim ++ (s.workers.eraseIdx w).filterMap WarmupWorker.claim

theorem claims_setWorker (hw : w < s.workers.length) (x : WarmupWorker) :
    (s.setWorker w x).claims.Perm (x.claim.toList ++ s.others w) := by
  have hset := (List.set_perm_cons_eraseIdx hw x).filterMap WarmupWorker.claim
  have hcons : (x :: s.workers.eraseIdx w).filterMap WarmupWorker.claim
      = x.claim.toList ++ (s.workers.eraseIdx w).filterMap WarmupWorker.claim := by
    cases hx : x.claim <;> simp [hx]
  rw [hcons] at hset
  refine (hset.append_left _).trans ?_
  rw [← List.append_assoc, others, ← List.append_assoc]
  exact List.perm_append_comm.append_right _

theorem claims_at (hw : s.workers[w]? = some x) : s.claims.Perm (x.claim.toList ++ s.others w) := by
  obtain ⟨hlt, hx⟩ := List.getElem?_eq_some_iff.mp hw
  have hsame : s.setWorker w x = s := by
    rw [setWorker, ← hx, List.set_getElem_self]
  have hclaims := claims_setWorker hlt x
  rwa [hsame] at hclaims

end Claims

section Steps

variable {kept : Prop} {s : WarmupPool} {w : ℕ} {x : WarmupWorker}

theorem Inv.move (h : s.Inv kept) (hlt : w < s.workers.length) {cold : List ColdIndexEntry}
    (hshown : Shown kept cold (x.claim.toList ++ s.others w)) :
    Inv kept { s.setWorker w x with cold := cold } where
  ring := h.ring
  shown := hshown.perm (claims_setWorker (s := s) hlt x).symm

theorem Inv.dequeue (h : s.Inv kept) (hw : s.workers[w]? = some .idle) {j : WarmupJob}
    {ring : WarmupRing} (hdeq : s.ring.dequeue = some (j, ring)) :
    Inv kept { s.setWorker w (.taken j) with ring } := by
  have hlt : w < s.workers.length := (List.getElem?_eq_some_iff.mp hw).1
  have hring := h.ring
  cases hjobs : s.ring.contents with
  | nil =>
    rw [hjobs] at hring
    cases hring.dequeue_nil.symm.trans hdeq
  | cons j' jobs =>
    rw [hjobs] at hring
    obtain ⟨htook, hrest⟩ := hring.dequeue
    cases htook.symm.trans hdeq
    have hcontents : s.ring.pop.contents = jobs := hrest.1.contents
    refine ⟨hcontents.symm ▸ hrest, h.shown.perm ?_⟩
    have hidle : s.claims.Perm (s.others w) := claims_at hw
    have hmoved := claims_setWorker (s := { s with ring := s.ring.pop }) hlt (.taken j)
    refine hidle.trans (.trans ?_ hmoved.symm)
    rw [others, others, hjobs, hcontents]
    exact .refl _

theorem Inv.advance (h : s.Inv kept) (hw : s.workers[w]? = some x) (ok : Bool) :
    Inv kept (s.advance w ok x) := by
  have hlt : w < s.workers.length := (List.getElem?_eq_some_iff.mp hw).1
  have hat : Shown kept s.cold (x.claim.toList ++ s.others w) := h.shown.perm (claims_at hw)
  cases x with
  | idle =>
    simp only [WarmupPool.advance]
    split
    · rename_i hdeq
      exact h.dequeue hw hdeq
    · exact h
  | taken j =>
    simp only [WarmupPool.advance]
    split_ifs
    · exact h
    · exact h.move hlt hat.mark
  | downloading j =>
    simp only [WarmupPool.advance]
    split_ifs
    · exact h.move hlt hat
    · exact h
    · exact h.move hlt hat.fail
  | fetched j =>
    simp only [WarmupPool.advance]
    split_ifs
    · exact h
    · exact h.move hlt hat.mark
  | loading j =>
    simp only [WarmupPool.advance]
    split_ifs
    · exact h.move hlt hat.loaded
    · exact h.move hlt hat.fail
  | cleaning j => exact h.move hlt hat.cleaned

theorem absent_of_requeues (h : s.Inv kept) {c : ColdIndexEntry} (hc : c ∈ s.cold)
    (hstate : c.warmupState = .cold ∨ c.warmupState = .failed) :
    c.key ∉ s.claims.map Prod.fst := by
  intro hmem
  obtain ⟨p, hp, hkey⟩ := List.mem_map.mp hmem
  have hbusy := claims_state hp (h.shown.agree c hc p hp hkey)
  rcases hstate with heq | heq <;> rw [heq] at hbusy <;> revert hbusy <;> decide

theorem requeues_of_find (hfree : s.locked = false) {key : Key} {c : ColdIndexEntry}
    (hfind : (s.cold.find? fun c => c.key == key) = some c)
    (hstate : c.warmupState = .cold ∨ c.warmupState = .failed) : s.requeues key = true := by
  simp [requeues, hfree, hfind, hstate]

theorem enqueue_absent (h : s.Inv kept) (job : WarmupJob)
    (habsent : job.key ∉ s.claims.map Prod.fst) :
    (s.ring.enqueue job).Queues (s.ring.enqueue job).contents ∧
      (s.ring.enqueue job).contents
        = if warmupQueueMax ≤ s.ring.count then s.ring.contents else s.ring.contents ++ [job] := by
  have hqueues := h.ring.enqueue job
  have hnot : (s.ring.contents.any fun j => j.key == job.key) = false := by
    rw [List.any_eq_false]
    intro j hj heq
    apply habsent
    rw [claims_keys]
    exact List.mem_map.mpr ⟨j, List.mem_append_left _ hj, beq_iff_eq.mp heq⟩
  have hcontents := hqueues.1.contents
  rw [hcontents]
  refine ⟨hqueues, ?_⟩
  rw [warmupEnqueue, hnot, h.ring.1.count]
  rfl

theorem Inv.miss (h : s.Inv kept) {key : Key} (hfree : s.locked = false)
    (hroom : kept → s.HasRoom (.miss key)) : Inv kept (s.miss key) := by
  unfold WarmupPool.miss
  cases hfind : s.cold.find? fun c => c.key == key with
  | none => exact h
  | some c =>
    have hc : c ∈ s.cold := List.mem_of_find?_eq_some hfind
    have hkey : c.key = key := by simpa using List.find?_some hfind
    simp only
    split_ifs with hstate
    · have habsent : key ∉ s.claims.map Prod.fst := hkey ▸ absent_of_requeues h hc hstate
      have hbut := (h.shown.but_absent habsent).update
        (f := fun c => setWarmup .queued (bumpMiss c)) fun _ => rfl
      obtain ⟨hqueues, hcontents⟩ :=
        enqueue_absent h ⟨key, c.relfilenode, c.tableOid, true⟩ habsent
      refine ⟨hqueues, ?_⟩
      by_cases hfull : warmupQueueMax ≤ s.ring.count
      · rw [if_pos hfull] at hcontents
        rw [claims, hcontents]
        refine hbut.release fun hkept => ?_
        exact absurd (hroom hkept (requeues_of_find hfree hfind hstate)) (not_lt.mpr hfull)
      · rw [if_neg hfull] at hcontents
        have hshown : Shown kept _ ((key, some .queued) :: s.claims) := hbut.assign fun c hc hkey => by
          rcases mem_updateCold h.shown.once hc with ⟨-, hne⟩ | ⟨c0, -, -, rfl⟩
          · exact absurd hkey hne
          · rfl
        refine hshown.perm ?_
        rw [claims, claims, hcontents, List.map_append, List.append_assoc]
        exact List.perm_middle.symm
    · exact ⟨h.ring, h.shown.bump key⟩

theorem Inv.step (h : s.Inv kept) {e : WarmupEvent} (hroom : kept → s.HasRoom e) :
    Inv kept (s.step e) := by
  cases e with
  | miss key =>
    simp only [WarmupPool.step]
    split_ifs with hlocked
    · exact h
    · exact h.miss (Bool.eq_false_iff.mpr hlocked) hroom
  | worker w ok =>
    simp only [WarmupPool.step]
    split
    · rename_i hw
      exact h.advance hw ok
    · exact h
  | drop key =>
    simp only [WarmupPool.step]
    split_ifs
    · exact h
    · exact ⟨h.ring, h.shown.drop key⟩

end Steps

section Accounted

variable {kept : Prop} {s : WarmupPool}

theorem Inv.once (h : s.Inv kept) : (s.jobs.map WarmupJob.key).Nodup := by
  rw [← claims_keys]
  exact h.shown.distinct

theorem mem_claims {p : Key × Option WarmupState} (hp : p ∈ s.claims) :
    (∃ j ∈ s.ring.contents, j.key = p.1 ∧ p.2 = some .queued) ∨
      ∃ x ∈ s.workers, x.claim = some p := by
  rcases List.mem_append.mp hp with hring | hworker
  · obtain ⟨j, hj, rfl⟩ := List.mem_map.mp hring
    exact .inl ⟨j, hj, rfl, rfl⟩
  · obtain ⟨x, hx, hclaim⟩ := List.mem_filterMap.mp hworker
    exact .inr ⟨x, hx, hclaim⟩

theorem countP_holds_le (h : s.Inv kept) (key : Key) :
    s.workers.countP (WarmupWorker.holds key) ≤ 1 := by
  have hcount := List.nodup_iff_count_le_one.mp h.once key
  rw [jobs, List.map_append, List.count_append] at hcount
  have hworkers : ((s.workers.filterMap WarmupWorker.job).map WarmupJob.key).count key
      = s.workers.countP (WarmupWorker.holds key) := by
    rw [List.count, List.countP_map, List.countP_filterMap]
    congr 1
    funext x
    cases x <;> rfl
  omega

theorem accounted_of_inv (h : s.Inv True) : s.Accounted where
  waiting c hc hqueued := by
    obtain ⟨p, hp, hkey⟩ := List.mem_map.mp (h.shown.owed trivial c hc (.inl hqueued))
    have hstate : p.2 = some .queued := hqueued ▸ h.shown.agree c hc p hp hkey
    rcases mem_claims hp with ⟨j, hj, hjkey, -⟩ | ⟨x, hx, hclaim⟩
    · exact .inl ⟨j, hj, hjkey.trans hkey⟩
    · cases x with
      | taken j =>
        cases hclaim
        exact .inr ⟨j, hx, hkey⟩
      | idle => cases hclaim
      | downloading j | fetched j | loading j | cleaning j =>
        cases hclaim
        cases hstate
  working c hc hwork := by
    obtain ⟨p, hp, hkey⟩ := List.mem_map.mp (h.shown.owed trivial c hc (.inr hwork))
    have hstate := h.shown.agree c hc p hp hkey
    have hpos : 0 < s.workers.countP (WarmupWorker.holds c.key) := by
      rcases mem_claims hp with ⟨-, -, -, hqueued⟩ | ⟨x, hx, hclaim⟩
      · have hq := Option.some.inj (hstate.symm.trans hqueued)
        rcases hwork with heq | heq <;> cases heq.symm.trans hq
      · refine List.countP_pos_iff.mpr ⟨x, hx, ?_⟩
        cases x <;> cases hclaim <;> simpa [WarmupWorker.holds, WarmupWorker.job] using hkey
    exact le_antisymm (countP_holds_le h c.key) hpos
  once := h.once
  ring := h.ring.1

theorem consistent_iff (h : s.Inv kept) : s.Consistent ↔ s.Accounted ∧ ¬ s.InWindow := by
  refine ⟨fun hcons => ⟨hcons.toAccounted, ?_⟩, fun ⟨hacc, hwindow⟩ => ⟨hacc, ?_⟩⟩
  · rintro ⟨j, hj, c, hc, hkey⟩
    -- the entry agrees with the job that was taken, so the ring has a second one
    have hclaim : (j.key, some WarmupState.queued) ∈ s.claims :=
      List.mem_append_right _ (List.mem_filterMap.mpr ⟨_, hj, rfl⟩)
    have hqueued := Option.some.inj (h.shown.agree c hc _ hclaim hkey.symm)
    obtain ⟨j', hj', hkey'⟩ := hcons.queued c hc hqueued.symm
    have honce := h.once
    rw [jobs, List.map_append] at honce
    exact (List.disjoint_of_nodup_append honce)
      (List.mem_map.mpr ⟨j', hj', hkey'.trans hkey⟩)
      (List.mem_map.mpr ⟨j, List.mem_filterMap.mpr ⟨_, hj, rfl⟩, rfl⟩)
  · intro c hc hqueued
    rcases hacc.waiting c hc hqueued with hring | ⟨j, hj, hkey⟩
    · exact hring
    · exact absurd ⟨j, hj, c, hc, hkey.symm⟩ hwindow

theorem not_accounted {c : ColdIndexEntry} (hc : c ∈ s.cold) (hqueued : c.warmupState = .queued)
    (habsent : c.key ∉ s.jobs.map WarmupJob.key) : ¬ s.Accounted := by
  intro hacc
  apply habsent
  rcases hacc.waiting c hc hqueued with ⟨j, hj, hkey⟩ | ⟨j, hj, hkey⟩
  · exact List.mem_map.mpr ⟨j, List.mem_append_left _ hj, hkey⟩
  · exact List.mem_map.mpr
      ⟨j, List.mem_append_right _ (List.mem_filterMap.mpr ⟨_, hj, rfl⟩), hkey⟩

/-- A miss that finds the ring full loses its job for good: only a COLD or FAILED entry is
queued again. -/
theorem lost_of_not_hasRoom (h : s.Inv kept) {e : WarmupEvent} (hroom : ¬ s.HasRoom e) :
    ¬ (s.step e).Accounted := by
  cases e with
  | worker w ok => exact absurd trivial hroom
  | drop key => exact absurd trivial hroom
  | miss key =>
    obtain ⟨hreq, hfull⟩ := Classical.not_imp.mp hroom
    obtain ⟨hfree, c, hfind, hstate⟩ : s.locked = false ∧
        ∃ c, (s.cold.find? fun c => c.key == key) = some c ∧
          (c.warmupState = .cold ∨ c.warmupState = .failed) := by
      simpa [requeues, Option.any_eq_true] using hreq
    have hc : c ∈ s.cold := List.mem_of_find?_eq_some hfind
    have hkey : c.key = key := by simpa using List.find?_some hfind
    have habsent : key ∉ s.claims.map Prod.fst := hkey ▸ absent_of_requeues h hc hstate
    obtain ⟨-, hcontents⟩ :=
      enqueue_absent h ⟨key, c.relfilenode, c.tableOid, true⟩ habsent
    rw [if_pos (not_lt.mp hfull)] at hcontents
    have hstep : s.step (.miss key) =
        { s with
          cold := updateCold key (fun c => setWarmup .queued (bumpMiss c)) s.cold
          ring := s.ring.enqueue ⟨key, c.relfilenode, c.tableOid, true⟩ } := by
      simp only [step, hfree, Bool.false_eq_true, if_false, WarmupPool.miss, hfind, if_pos hstate]
    rw [hstep]
    refine not_accounted (c := setWarmup .queued (bumpMiss c)) ?_ rfl ?_
    · exact mem_updateCold_of_find hfind
    · change c.key ∉ _
      rw [claims_keys, jobs] at habsent
      rw [jobs, hcontents, hkey]
      exact habsent

end Accounted

section Startup

variable {maxIndexes nThreads : ℕ} {files : List ColdFile}

theorem foldl_registerFile_cold (files : List ColdFile) (p : List ColdIndexEntry × WarmupRing) :
    (files.foldl (registerFile maxIndexes) p).1
      = p.1 ++ (files.take (maxIndexes - p.1.length)).map ColdFile.entry := by
  induction files generalizing p with
  | nil => simp
  | cons f files ih =>
    rw [List.foldl_cons, ih, registerFile]
    by_cases hroom : p.1.length < maxIndexes
    · obtain ⟨n, hn⟩ := Nat.exists_eq_add_of_lt hroom
      have hleft : maxIndexes - p.1.length = n + 1 := by omega
      have hnext : maxIndexes - (p.1.length + 1) = n := by omega
      simp [if_pos hroom, hleft, hnext]
    · have hleft : maxIndexes - p.1.length = 0 := by omega
      simp [if_neg hroom, hleft]

theorem startup_cold :
    (startup maxIndexes nThreads files).cold = (files.take maxIndexes).map ColdFile.entry := by
  rw [startup, foldl_registerFile_cold]
  rfl

def startupJobs (files : List ColdFile) : List WarmupJob :=
  (files.map ColdFile.job).foldl warmupEnqueue []

theorem startup_ring : (startup maxIndexes nThreads files).ring.Queues (startupJobs files) := by
  have hfold : ∀ (files : List ColdFile) (p : List ColdIndexEntry × WarmupRing)
      (jobs : List WarmupJob), p.2.Queues jobs →
      (files.foldl (registerFile maxIndexes) p).2.Queues
        ((files.map ColdFile.job).foldl warmupEnqueue jobs) := by
    intro files
    induction files with
    | nil => exact fun _ _ h => h
    | cons f files ih => exact fun p jobs h => ih _ _ (h.enqueue f.job)
  exact hfold files _ [] ⟨Ring.Buffer.holds_empty (by decide) _, List.length_replicate⟩

section Enqueue

variable {queue jobs : List WarmupJob} {job : WarmupJob}

theorem prefix_foldl_enqueue (queue jobs : List WarmupJob) :
    queue <+: jobs.foldl warmupEnqueue queue := by
  induction jobs generalizing queue with
  | nil => exact List.prefix_rfl
  | cons job jobs ih =>
    refine List.IsPrefix.trans ?_ (ih (warmupEnqueue queue job))
    unfold warmupEnqueue
    split_ifs
    · exact List.prefix_rfl
    · exact List.prefix_rfl
    · exact List.prefix_append _ _

theorem nodup_enqueue (h : (queue.map WarmupJob.key).Nodup) (job : WarmupJob) :
    ((warmupEnqueue queue job).map WarmupJob.key).Nodup := by
  unfold warmupEnqueue
  split_ifs with hdup hfull
  · exact h
  · exact h
  · rw [List.map_append, List.map_singleton]
    refine List.nodup_append_comm.mp (List.nodup_cons.mpr ⟨fun hmem => hdup ?_, h⟩)
    obtain ⟨j, hj, hkey⟩ := List.mem_map.mp hmem
    exact List.any_eq_true.mpr ⟨j, hj, beq_iff_eq.mpr hkey⟩

theorem nodup_foldl_enqueue (h : (queue.map WarmupJob.key).Nodup) (jobs : List WarmupJob) :
    ((jobs.foldl warmupEnqueue queue).map WarmupJob.key).Nodup := by
  induction jobs generalizing queue with
  | nil => exact h
  | cons job jobs ih => exact ih (nodup_enqueue h job)

theorem foldl_enqueue_fits (hdistinct : ((queue ++ jobs).map WarmupJob.key).Nodup)
    (hfits : (queue ++ jobs).length ≤ warmupQueueMax) :
    jobs.foldl warmupEnqueue queue = queue ++ jobs := by
  induction jobs generalizing queue with
  | nil => exact (List.append_nil queue).symm
  | cons job jobs ih =>
    have hnot : (queue.any fun j => j.key == job.key) = false := by
      rw [List.any_eq_false]
      intro j hj heq
      rw [List.map_append] at hdistinct
      exact List.disjoint_of_nodup_append hdistinct (List.mem_map.mpr ⟨j, hj, beq_iff_eq.mp heq⟩)
        (List.mem_map.mpr ⟨job, List.mem_cons_self, rfl⟩)
    have hroom : ¬ warmupQueueMax ≤ queue.length := by
      rw [List.length_append, List.length_cons] at hfits
      omega
    have hnext : warmupEnqueue queue job = queue ++ [job] := by
      rw [warmupEnqueue, hnot, if_neg hroom]
      rfl
    rw [List.foldl_cons, hnext, ih, List.append_assoc, List.singleton_append]
    · rwa [List.append_assoc]
    · rwa [List.append_assoc]

theorem foldl_enqueue_full (hfull : warmupQueueMax ≤ queue.length) :
    jobs.foldl warmupEnqueue queue = queue := by
  induction jobs with
  | nil => rfl
  | cons job jobs ih =>
    have hskip : warmupEnqueue queue job = queue := by
      unfold warmupEnqueue
      split_ifs
      · rfl
      · rfl
    rw [List.foldl_cons, hskip, ih]

end Enqueue

theorem startupJobs_split {n : ℕ} (hdistinct : ((files.take n).map ColdFile.key).Nodup)
    (hfits : (files.take n).length ≤ warmupQueueMax) :
    startupJobs files
      = ((files.drop n).map ColdFile.job).foldl warmupEnqueue
          ((files.take n).map ColdFile.job) := by
  have hfirst : ((files.take n).map ColdFile.job).foldl warmupEnqueue []
      = (files.take n).map ColdFile.job := by
    refine foldl_enqueue_fits ?_ ?_
    · rw [List.nil_append, List.map_map]
      exact hdistinct
    · rw [List.nil_append, List.length_map]
      exact hfits
  rw [startupJobs, ← hfirst, ← List.foldl_append, ← List.map_append, List.take_append_drop]

theorem startupJobs_nodup (files : List ColdFile) :
    ((startupJobs files).map WarmupJob.key).Nodup :=
  @nodup_foldl_enqueue [] List.nodup_nil _

theorem startup_claims : (startup maxIndexes nThreads files).claims
    = (startupJobs files).map queuedClaim := by
  have hidle : (startup maxIndexes nThreads files).workers.filterMap WarmupWorker.claim = [] :=
    List.filterMap_eq_nil_iff.mpr fun x hx => by
      rw [List.eq_of_mem_replicate hx]
      rfl
  have hring : (startup maxIndexes nThreads files).ring.Queues (startupJobs files) := startup_ring
  rw [claims, hidle, List.append_nil, hring.1.contents]

theorem startup_inv {kept : Prop} (hdistinct : ((files.take maxIndexes).map ColdFile.key).Nodup)
    (hfits : kept → (files.take maxIndexes).length ≤ warmupQueueMax) :
    (startup maxIndexes nThreads files).Inv kept where
  ring := by
    have hring : (startup maxIndexes nThreads files).ring.Queues (startupJobs files) := startup_ring
    rwa [hring.1.contents]
  shown :=
    { once := by
        rw [startup_cold, List.map_map]
        exact hdistinct
      distinct := by
        rw [startup_claims, List.map_map]
        exact startupJobs_nodup files
      agree := fun c hc p hp _ => by
        rw [startup_cold] at hc
        rw [startup_claims] at hp
        obtain ⟨f, -, rfl⟩ := List.mem_map.mp hc
        obtain ⟨j, -, rfl⟩ := List.mem_map.mp hp
        rfl
      owed := fun hkept c hc _ => by
        rw [startup_cold] at hc
        obtain ⟨f, hf, rfl⟩ := List.mem_map.mp hc
        rw [startup_claims, List.map_map]
        have hjob : f.job ∈ startupJobs files :=
          startupJobs_split hdistinct (hfits hkept) ▸
            (prefix_foldl_enqueue _ _).subset (List.mem_map.mpr ⟨f, hf, rfl⟩)
        exact List.mem_map.mpr ⟨f.job, hjob, rfl⟩ }

/-- The ring takes no more than its slots: the next entry of a start has no job. -/
theorem lost_of_startup (hdistinct : ((files.take maxIndexes).map ColdFile.key).Nodup)
    (hmany : warmupQueueMax < (files.take maxIndexes).length) :
    ¬ (startup maxIndexes nThreads files).Accounted := by
  have hle : warmupQueueMax ≤ maxIndexes := by
    rw [List.length_take] at hmany
    omega
  have hfirst : files.take warmupQueueMax = (files.take maxIndexes).take warmupQueueMax := by
    rw [List.take_take, Nat.min_eq_left hle]
  have hlen : (files.take warmupQueueMax).length = warmupQueueMax := by
    rw [hfirst, List.length_take, Nat.min_eq_left hmany.le]
  have hjobs : startupJobs files = (files.take warmupQueueMax).map ColdFile.job := by
    have hdistinct' : ((files.take warmupQueueMax).map ColdFile.key).Nodup := by
      rw [hfirst]
      exact hdistinct.sublist ((List.take_sublist _ _).map _)
    rw [startupJobs_split hdistinct' hlen.le, foldl_enqueue_full]
    rw [List.length_map, hlen]
  obtain ⟨f, rest, hf⟩ : ∃ f rest, (files.take maxIndexes).drop warmupQueueMax = f :: rest := by
    cases hdrop : (files.take maxIndexes).drop warmupQueueMax with
    | nil => exact absurd (List.drop_eq_nil_iff.mp hdrop) (not_le.mpr hmany)
    | cons f rest => exact ⟨f, rest, rfl⟩
  have hsplit : files.take maxIndexes = files.take warmupQueueMax ++ f :: rest := by
    rw [hfirst, ← hf, List.take_append_drop]
  refine not_accounted (c := f.entry) ?_ rfl ?_
  · rw [startup_cold, hsplit]
    exact List.mem_map.mpr ⟨f, List.mem_append_right _ List.mem_cons_self, rfl⟩
  · rw [← claims_keys, startup_claims, hjobs, List.map_map, List.map_map]
    rw [hsplit, List.map_append] at hdistinct
    intro hmem
    exact List.disjoint_of_nodup_append hdistinct hmem (List.mem_map.mpr ⟨f, List.mem_cons_self, rfl⟩)

end Startup

/-- Over the runs from a start whose names are distinct: no job is lost if and only if the start
and every later miss find room in the ring; and the registry and the ring agree except while a
worker holds a job whose entry it has not marked. -/
theorem consistent_run_iff {maxIndexes nThreads : ℕ} {files : List ColdFile}
    (hdistinct : ((files.take maxIndexes).map ColdFile.key).Nodup) (events : List WarmupEvent) :
    ((∀ pre, pre <+: events → (run step (startup maxIndexes nThreads files) pre).Accounted) ↔
      (files.take maxIndexes).length ≤ warmupQueueMax ∧
        Along step HasRoom (startup maxIndexes nThreads files) events) ∧
    ∀ pre, pre <+: events →
      ((run step (startup maxIndexes nThreads files) pre).Consistent ↔
        (run step (startup maxIndexes nThreads files) pre).Accounted ∧
          ¬ (run step (startup maxIndexes nThreads files) pre).InWindow) := by
  have hinv : ∀ pre, (run step (startup maxIndexes nThreads files) pre).Inv False := fun pre =>
    run_invariant (C := fun _ _ => True) (Inv False) (fun _ _ h _ => h.step False.elim)
      (startup_inv hdistinct False.elim) (along_of_forall (fun _ _ => trivial) _)
  refine ⟨⟨fun h => ⟨?_, ?_⟩, fun ⟨hfits, hroom⟩ pre hpre => ?_⟩, fun pre _ => consistent_iff (hinv pre)⟩
  · by_contra hmany
    exact lost_of_startup hdistinct (not_le.mp hmany) (h [] List.nil_prefix)
  · by_contra hlost
    obtain ⟨pre, e, post, rfl, -, hfull⟩ := exists_first_not_along hlost
    have hafter := h (pre ++ [e]) (by simp)
    rw [run_append] at hafter
    exact lost_of_not_hasRoom (hinv pre) hfull hafter
  · obtain ⟨post, rfl⟩ := hpre
    exact accounted_of_inv (run_invariant (Inv True) (fun _ _ h hC => h.step fun _ => hC)
      (startup_inv hdistinct fun _ => hfits) (along_append.mp hroom).1)

def sampleFiles (n : ℕ) : List ColdFile := (List.range n).map fun i => ⟨⟨5, 100 + i⟩, 1, 2⟩

theorem consistent_run_sample :
    (run step (startup 1024 1 (sampleFiles 2))
      [.worker 0 true, .worker 0 true, .worker 0 false, .miss ⟨5, 100⟩]).Accounted :=
  (consistent_run_iff (by decide +kernel) _).1.mpr ⟨by decide +kernel, by decide +kernel⟩ _
    List.prefix_rfl

/-- Of 65 indexes the last has no job, and no search gets it one. -/
theorem startup_loses :
    ¬ (run step (startup 1024 1 (sampleFiles 65)) [.miss ⟨5, 164⟩]).Consistent := by
  intro h
  have hlost : ∃ c ∈ (run step (startup 1024 1 (sampleFiles 65)) [.miss ⟨5, 164⟩]).cold,
      c.warmupState = .queued ∧
        ∀ j ∈ (run step (startup 1024 1 (sampleFiles 65)) [.miss ⟨5, 164⟩]).ring.contents,
          j.key ≠ c.key := by
    decide +kernel
  obtain ⟨c, hc, hqueued, hno⟩ := hlost
  obtain ⟨j, hj, hkey⟩ := h.queued c hc hqueued
  exact hno j hj hkey

end WarmupPool

end PgCuvs
