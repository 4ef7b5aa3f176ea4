import PgCuvs.Library.Run
import PgCuvs.Search.BatchGroup

/-! The hand-off between the connection threads, which queue requests on their stacks, and
the batch worker, which answers them. Each step is one critical section of `g_batch_mtx`, or
one group's dispatch. -/

namespace PgCuvs

def cuvsBatchMax : ℕ := 256

/-- A request on its producer's stack, with the statuses written into it. -/
structure QueuedRequest where
  req : BatchRequest
  answers : List Status
  done : Bool
  left : Bool
deriving DecidableEq, Repr

/-- Where `batch_worker_thread` is; it holds the lock at none of these points. -/
inductive BatchWorker where
  | notStarted
  | idle
  | window
  | running (batch gid : List ℕ) (ng g : ℕ)
  | exited
deriving DecidableEq, Repr

/-- Requests are numbered in the order they are queued. `lateTouches` are those the worker
has read or written after their flag was set. -/
structure BatchServer where
  requests : List QueuedRequest
  queue : List ℕ
  worker : BatchWorker
  started : Bool
  shutdown : Bool
  lateTouches : List ℕ
deriving DecidableEq, Repr

def BatchServer.initial : BatchServer := ⟨[], [], .notStarted, false, false, []⟩

inductive BatchEvent where
  | spawn
  | enqueue (req : BatchRequest)
  /-- the producer wakes up and looks at its flag -/
  | wake (id : ℕ)
  /-- the worker goes on; `status` is what its dispatch gives -/
  | worker (status : ℕ → Status)
  | sigterm

def BatchServer.isDone (s : BatchServer) (id : ℕ) : Bool :=
  match s.requests[id]? with
  | some r => r.done
  | none => true

def BatchServer.touch (s : BatchServer) (ids : List ℕ) (f : ℕ → QueuedRequest → QueuedRequest) :
    BatchServer :=
  { s with
    requests := s.requests.mapIdx fun id r => if id ∈ ids then f id r else r
    lateTouches := s.lateTouches ++ ids.filter fun id => s.isDone id }

def BatchServer.keyOf (s : BatchServer) (id : ℕ) : BatchKey :=
  match s.requests[id]? with
  | some r => r.req.key
  | none => ⟨⟨0, 0⟩, 0, 0, 0, 0, 0⟩

/-- `batch_process_locked` up to the first group. -/
def batchProcessLocked (s : BatchServer) : BatchServer :=
  if s.queue = [] then { s with worker := .idle }
  else
    let s' := s.touch s.queue fun _ r => r
    { s' with
      queue := []
      worker := .running s.queue (cuvsBatchGroup (s.queue.map s.keyOf)).1
        (cuvsBatchGroup (s.queue.map s.keyOf)).2 0 }

def batchFailAllLocked (s : BatchServer) (status : Status) : BatchServer :=
  { s.touch s.queue (fun _ r => { r with answers := r.answers ++ [status], done := true }) with
    queue := [] }

def groupMembers (batch gid : List ℕ) (g : ℕ) : List ℕ :=
  ((batch.zip gid).filter fun p => p.2 = g).map Prod.fst

def batchWorkerThread (s : BatchServer) (status : ℕ → Status) : BatchServer :=
  match s.worker with
  | .notStarted | .exited => s
  | .idle =>
    if s.shutdown then { batchFailAllLocked s .unavailable with worker := .exited }
    else
      match s.queue with
      | [] => s
      | first :: _ =>
        -- the window is the wait of the request at the head
        let s' := s.touch [first] fun _ r => r
        match s.requests[first]? with
        | some r => if 0 < r.req.waitUs then { s' with worker := .window } else batchProcessLocked s'
        | none => s'
  | .window => batchProcessLocked s
  | .running batch gid ng g =>
    if g < ng then
      { s.touch (groupMembers batch gid g)
          (fun id r => { r with answers := r.answers ++ [status id] }) with
        worker := .running batch gid ng (g + 1) }
    -- all the requests are marked at once, behind the last group
    else { s.touch batch (fun _ r => { r with done := true }) with worker := .idle }

def BatchServer.step (s : BatchServer) : BatchEvent → BatchServer
  | .spawn =>
    if s.worker = .notStarted then { s with worker := .idle, started := true } else s
  | .enqueue req =>
    if s.started ∧ s.queue.length < cuvsBatchMax then
      { s with
        requests := s.requests ++ [⟨req, [], false, false⟩]
        queue := s.queue ++ [s.requests.length] }
    else s
  | .wake id =>
    { s with
      requests := s.requests.mapIdx fun j r =>
        if j = id ∧ r.done = true then { r with left := true } else r }
  | .worker status => batchWorkerThread s status
  | .sigterm => { s with shutdown := true }

def BatchServer.batch (s : BatchServer) : List ℕ :=
  match s.worker with
  | .running batch _ _ _ => batch
  | _ => []

/-- The state of a sound hand-off. -/
structure BatchServer.HandOff (s : BatchServer) : Prop where
  placed : ∀ id < s.requests.length, s.isDone id = false → (s.queue ++ s.batch).count id = 1
  bounded : s.queue.length ≤ cuvsBatchMax
  answered : ∀ r ∈ s.requests, r.answers.length ≤ 1 ∧ (r.done = true → r.answers.length = 1)
  untouched : s.lateTouches = []
  drained : s.worker = .exited → ∀ r ∈ s.requests, r.done = true

section Touch

variable (s : BatchServer) (ids : List ℕ) (f : ℕ → QueuedRequest → QueuedRequest)

@[simp] theorem touch_queue : (s.touch ids f).queue = s.queue := rfl

@[simp] theorem touch_worker : (s.touch ids f).worker = s.worker := rfl

@[simp] theorem touch_started : (s.touch ids f).started = s.started := rfl

@[simp] theorem touch_shutdown : (s.touch ids f).shutdown = s.shutdown := rfl

theorem touch_getElem? (id : ℕ) : (s.touch ids f).requests[id]?
    = s.requests[id]?.map fun r => if id ∈ ids then f id r else r := by
  rw [BatchServer.touch, List.getElem?_mapIdx]

@[simp] theorem touch_length : (s.touch ids f).requests.length = s.requests.length := by
  rw [BatchServer.touch, List.length_mapIdx]

variable {s ids}

theorem isDone_eq_false {id : ℕ} :
    s.isDone id = false ↔ ∃ r, s.requests[id]? = some r ∧ r.done = false := by
  unfold BatchServer.isDone
  cases s.requests[id]? with
  | none => simp
  | some r => simp

theorem lateTouches_same (h : ∀ id ∈ ids, s.isDone id = false) :
    (s.lateTouches ++ ids.filter fun id => s.isDone id) = s.lateTouches := by
  have hnone : (ids.filter fun id => s.isDone id) = [] :=
    List.filter_eq_nil_iff.mpr fun id hid => by simp [h id hid]
  rw [hnone, List.append_nil]

theorem touch_read (h : ∀ id ∈ ids, s.isDone id = false) : s.touch ids (fun _ r => r) = s := by
  have hrequests : (s.touch ids fun _ r => r).requests = s.requests := by
    refine List.ext_getElem? fun id => ?_
    rw [touch_getElem?]
    cases s.requests[id]? <;> simp
  have hlate := lateTouches_same h
  cases s
  simp only [BatchServer.touch] at hrequests hlate ⊢
  rw [hrequests, hlate]

end Touch

section Invariant

variable {s : BatchServer}

/-- How far the current batch has come: the groups before `g` have their answers. -/
def BatchServer.Phase (s : BatchServer) : Prop :=
  match s.worker with
  | .running batch gid ng g =>
    gid.length = batch.length ∧ (∀ i ∈ gid, i < ng) ∧ g ≤ ng ∧ ng ≤ cuvsBatchMax ∧
      ∀ p ∈ batch.zip gid, ∃ r, s.requests[p.1]? = some r ∧ r.done = false ∧
        r.answers.length = if p.2 < g then 1 else 0
  | _ => True

structure BatchServer.Inv (s : BatchServer) : Prop where
  queued : ∀ id ∈ s.queue, ∃ r, s.requests[id]? = some r ∧ r.done = false ∧ r.answers = []
  nodup : (s.queue ++ s.batch).Nodup
  covered : ∀ (id : ℕ) (r : QueuedRequest), s.requests[id]? = some r → r.done = false →
    id ∈ s.queue ++ s.batch
  answered : ∀ (id : ℕ) (r : QueuedRequest), s.requests[id]? = some r → r.done = true →
    r.answers.length = 1
  bounded : s.queue.length ≤ cuvsBatchMax
  untouched : s.lateTouches = []
  phase : s.Phase
  started : s.started = true ↔ s.worker ≠ .notStarted
  fresh : s.worker = .notStarted → s.requests = []
  drained : s.worker = .exited → s.queue = []

theorem BatchServer.Inv.queue_undone (h : s.Inv) : ∀ id ∈ s.queue, s.isDone id = false := by
  intro id hid
  obtain ⟨r, hr, hdone, -⟩ := h.queued id hid
  exact isDone_eq_false.mpr ⟨r, hr, hdone⟩

theorem BatchServer.Inv.batched (h : s.Inv) {batch gid : List ℕ} {ng g : ℕ}
    (hw : s.worker = .running batch gid ng g) {id : ℕ} (hid : id ∈ batch) :
    ∃ i, (id, i) ∈ batch.zip gid ∧ i < ng ∧ ∃ r, s.requests[id]? = some r ∧ r.done = false ∧
      r.answers.length = if i < g then 1 else 0 := by
  have hphase := h.phase
  rw [BatchServer.Phase, hw] at hphase
  obtain ⟨hlen, hgid, -, -, hpairs⟩ := hphase
  obtain ⟨k, hk⟩ := List.mem_iff_getElem?.mp hid
  have hk' : k < gid.length := hlen ▸ (List.getElem?_eq_some_iff.mp hk).1
  have hpair : (id, gid[k]) ∈ batch.zip gid := by
    refine List.mem_of_getElem? (i := k) ?_
    rw [List.getElem?_zip_eq_some]
    exact ⟨hk, List.getElem?_eq_getElem hk'⟩
  exact ⟨gid[k], hpair, hgid _ (List.getElem_mem hk'), hpairs _ hpair⟩

theorem BatchServer.Inv.handOff (h : s.Inv) : s.HandOff where
  placed := by
    intro id hid hdone
    obtain ⟨r, hr, hundone⟩ := isDone_eq_false.mp hdone
    exact List.count_eq_one_of_mem h.nodup (h.covered id r hr hundone)
  bounded := h.bounded
  answered := by
    intro r hr
    obtain ⟨id, hid⟩ := List.mem_iff_getElem?.mp hr
    refine ⟨?_, h.answered id r hid⟩
    cases hdone : r.done with
    | true => rw [h.answered id r hid hdone]
    | false =>
      rcases List.mem_append.mp (h.covered id r hid hdone) with hq | hb
      · obtain ⟨r', hr', -, hnone⟩ := h.queued id hq
        rw [hid] at hr'
        rw [Option.some.inj hr', hnone]
        exact Nat.zero_le 1
      · unfold BatchServer.batch at hb
        split at hb
        case h_1 batch gid ng g hw =>
          obtain ⟨i, -, -, r', hr', -, hcount⟩ := h.batched hw hb
          rw [hid] at hr'
          rw [Option.some.inj hr', hcount]
          split_ifs
          · exact Nat.le_refl 1
          · exact Nat.zero_le 1
        case h_2 => exact nomatch hb
  untouched := h.untouched
  drained := by
    intro hw r hr
    obtain ⟨id, hid⟩ := List.mem_iff_getElem?.mp hr
    cases hdone : r.done with
    | true => rfl
    | false =>
      have hmem := h.covered id r hid hdone
      rw [h.drained hw, BatchServer.batch, hw] at hmem
      exact nomatch hmem

theorem BatchServer.initial_inv : BatchServer.initial.Inv where
  queued := fun id hid => nomatch hid
  nodup := List.nodup_nil
  covered := fun id r hr => nomatch hr
  answered := fun id r hr => nomatch hr
  bounded := Nat.zero_le _
  untouched := rfl
  phase := trivial
  started := by decide
  fresh := fun _ => rfl
  drained := fun h => nomatch h

theorem BatchServer.Inv.rest (h : s.Inv) (hbatch : s.batch = []) {w : BatchWorker}
    (hw : w = .idle ∨ w = .window) (hstarted : s.started = true) :
    BatchServer.Inv { s with worker := w } := by
  have hempty : BatchServer.batch { s with worker := w } = [] := by
    rcases hw with rfl | rfl <;> rfl
  constructor
  case queued => exact h.queued
  case nodup => rw [hempty, ← hbatch]; exact h.nodup
  case covered => rw [hempty, ← hbatch]; exact h.covered
  case answered => exact h.answered
  case bounded => exact h.bounded
  case untouched => exact h.untouched
  case phase => rcases hw with rfl | rfl <;> trivial
  case started => rcases hw with rfl | rfl <;> exact iff_of_true hstarted fun hc => nomatch hc
  case fresh => rcases hw with rfl | rfl <;> exact fun hc => nomatch hc
  case drained => rcases hw with rfl | rfl <;> exact fun hc => nomatch hc

theorem BatchServer.Inv.process (h : s.Inv) (hbatch : s.batch = []) (hstarted : s.started = true) :
    (batchProcessLocked s).Inv := by
  unfold batchProcessLocked
  split_ifs with hempty
  · exact h.rest hbatch (.inl rfl) hstarted
  · have hlen := cuvsBatchGroup_length (s.queue.map s.keyOf)
    have hcount := cuvsBatchGroup_le (s.queue.map s.keyOf)
    rw [List.length_map] at hlen hcount
    have hnodup := h.nodup
    have hcovered := h.covered
    rw [hbatch, List.append_nil] at hnodup hcovered
    rw [touch_read h.queue_undone]
    constructor
    case queued => exact fun id hid => nomatch hid
    case nodup => exact hnodup
    case covered => exact hcovered
    case answered => exact h.answered
    case bounded => exact Nat.zero_le _
    case untouched => exact h.untouched
    case phase =>
      refine ⟨hlen, cuvsBatchGroup_lt _, Nat.zero_le _, hcount.trans h.bounded, fun p hp => ?_⟩
      obtain ⟨r, hr, hdone, hnone⟩ := h.queued p.1 (List.of_mem_zip hp).1
      refine ⟨r, hr, hdone, ?_⟩
      rw [hnone, if_neg (Nat.not_lt_zero _)]
      rfl
    case started => exact iff_of_true hstarted fun hc => nomatch hc
    case fresh => exact fun hc => nomatch hc
    case drained => exact fun hc => nomatch hc

theorem BatchServer.Inv.failAll (h : s.Inv) (hbatch : s.batch = []) (hstarted : s.started = true) :
    BatchServer.Inv { batchFailAllLocked s .unavailable with worker := .exited } := by
  have hget := touch_getElem? s s.queue
    fun _ r => { r with answers := r.answers ++ [.unavailable], done := true }
  constructor
  case queued => exact fun id hid => nomatch hid
  case nodup => exact List.nodup_nil
  case covered =>
    intro id r hr hdone
    simp only [batchFailAllLocked, hget, Option.map_eq_some_iff] at hr
    obtain ⟨r', hr', rfl⟩ := hr
    split_ifs at hdone with hq
    have hmem := h.covered id r' hr' hdone
    rw [hbatch, List.append_nil] at hmem
    exact absurd hmem hq
  case answered =>
    intro id r hr hdone
    simp only [batchFailAllLocked, hget, Option.map_eq_some_iff] at hr
    obtain ⟨r', hr', rfl⟩ := hr
    split_ifs at hdone ⊢ with hq
    · obtain ⟨r'', hr'', -, hnone⟩ := h.queued id hq
      rw [hr'] at hr''
      simp [Option.some.inj hr'', hnone]
    · exact h.answered id r' hr' hdone
  case bounded => exact Nat.zero_le _
  case untouched => exact (lateTouches_same h.queue_undone).trans h.untouched
  case phase => trivial
  case started => exact iff_of_true hstarted fun hc => nomatch hc
  case fresh => exact fun hc => nomatch hc
  case drained => exact fun _ => rfl

theorem mem_groupMembers {batch gid : List ℕ} {g id : ℕ} :
    id ∈ groupMembers batch gid g ↔ (id, g) ∈ batch.zip gid := by
  simp only [groupMembers, List.mem_map, List.mem_filter, decide_eq_true_eq]
  constructor
  · rintro ⟨p, ⟨hp, hg⟩, rfl⟩
    rw [← hg]
    exact hp
  · exact fun hp => ⟨(id, g), ⟨hp, rfl⟩, rfl⟩

theorem zip_unique {batch gid : List ℕ} (hnodup : batch.Nodup) {id i j : ℕ}
    (hi : (id, i) ∈ batch.zip gid) (hj : (id, j) ∈ batch.zip gid) : i = j := by
  obtain ⟨a, ha⟩ := List.mem_iff_getElem?.mp hi
  obtain ⟨b, hb⟩ := List.mem_iff_getElem?.mp hj
  rw [List.getElem?_zip_eq_some] at ha hb
  have hab : a = b := by
    have hlt : a < batch.length := (List.getElem?_eq_some_iff.mp ha.1).1
    exact (List.getElem?_inj hlt hnodup).mp (ha.1.trans hb.1.symm)
  subst hab
  exact Option.some.inj (ha.2.symm.trans hb.2)

theorem BatchServer.Inv.dispatch (h : s.Inv) {batch gid : List ℕ} {ng g : ℕ}
    (hw : s.worker = .running batch gid ng g) (hg : g < ng) (status : ℕ → Status) :
    BatchServer.Inv
      { s.touch (groupMembers batch gid g)
          (fun id r => { r with answers := r.answers ++ [status id] }) with
        worker := .running batch gid ng (g + 1) } := by
  have hbatch : s.batch = batch := by rw [BatchServer.batch, hw]
  have hnodup := h.nodup
  have hcovered := h.covered
  rw [hbatch] at hnodup hcovered
  obtain ⟨-, hbatchNodup, hdisjoint⟩ := List.nodup_append.mp hnodup
  have hmember : ∀ id ∈ groupMembers batch gid g, id ∈ batch := fun id hid =>
    (List.of_mem_zip (mem_groupMembers.mp hid)).1
  have hget := touch_getElem? s (groupMembers batch gid g)
    fun id r => { r with answers := r.answers ++ [status id] }
  -- no member of the group is done yet: nobody has left and its frame is still alive
  have hundone : ∀ id ∈ groupMembers batch gid g, s.isDone id = false := by
    intro id hid
    obtain ⟨i, -, -, r, hr, hdone, -⟩ := h.batched hw (hmember id hid)
    exact isDone_eq_false.mpr ⟨r, hr, hdone⟩
  constructor
  case queued =>
    intro id hid
    obtain ⟨r, hr, hdone, hnone⟩ := h.queued id hid
    have hout : id ∉ groupMembers batch gid g := fun hin => hdisjoint id hid id (hmember id hin) rfl
    refine ⟨r, ?_, hdone, hnone⟩
    rw [hget, hr, Option.map_some, if_neg hout]
  case nodup => exact hnodup
  case covered =>
    intro id r hr hdone
    rw [hget, Option.map_eq_some_iff] at hr
    obtain ⟨r', hr', rfl⟩ := hr
    refine hcovered id r' hr' ?_
    split_ifs at hdone <;> exact hdone
  case answered =>
    intro id r hr hdone
    rw [hget, Option.map_eq_some_iff] at hr
    obtain ⟨r', hr', rfl⟩ := hr
    split_ifs at hdone ⊢ with hin
    · obtain ⟨r'', hr'', hundone''⟩ := isDone_eq_false.mp (hundone id hin)
      rw [hr'] at hr''
      rw [← Option.some.inj hr'', hdone] at hundone''
      exact nomatch hundone''
    · exact h.answered id r' hr' hdone
  case bounded => exact h.bounded
  case untouched => exact (lateTouches_same hundone).trans h.untouched
  case phase =>
    have hphase := h.phase
    rw [BatchServer.Phase, hw] at hphase
    obtain ⟨hlen, hgid, -, hng, hpairs⟩ := hphase
    refine ⟨hlen, hgid, hg, hng, fun p hp => ?_⟩
    obtain ⟨r, hr, hdone, hcount⟩ := hpairs p hp
    rw [hget, hr, Option.map_some]
    refine ⟨_, rfl, ?_, ?_⟩
    · split_ifs <;> exact hdone
    -- an answer each for the members of group `g`, none for the others
    · by_cases hin : p.1 ∈ groupMembers batch gid g
      · have hsame : p.2 = g := zip_unique hbatchNodup hp (mem_groupMembers.mp hin)
        rw [if_pos hin, List.length_append, hcount, hsame, if_neg (Nat.lt_irrefl g),
          if_pos (Nat.lt_succ_self g)]
        rfl
      · have hother : p.2 ≠ g := fun hsame => hin (mem_groupMembers.mpr (by rw [← hsame]; exact hp))
        rw [if_neg hin, hcount]
        have hiff : p.2 < g ↔ p.2 < g + 1 := by omega
        simp only [hiff]
  case started =>
    exact iff_of_true (h.started.mpr (by rw [hw]; exact fun hc => nomatch hc)) fun hc => nomatch hc
  case fresh => exact fun hc => nomatch hc
  case drained => exact fun hc => nomatch hc

theorem BatchServer.Inv.finish (h : s.Inv) {batch gid : List ℕ} {ng g : ℕ}
    (hw : s.worker = .running batch gid ng g) (hg : ¬ g < ng) :
    BatchServer.Inv { s.touch batch (fun _ r => { r with done := true }) with worker := .idle } := by
  have hbatch : s.batch = batch := by rw [BatchServer.batch, hw]
  have hnodup := h.nodup
  have hcovered := h.covered
  rw [hbatch] at hnodup hcovered
  obtain ⟨hqueueNodup, -, hdisjoint⟩ := List.nodup_append.mp hnodup
  have hget := touch_getElem? s batch fun _ r => { r with done := true }
  have hundone : ∀ id ∈ batch, s.isDone id = false := by
    intro id hid
    obtain ⟨i, -, -, r, hr, hdone, -⟩ := h.batched hw hid
    exact isDone_eq_false.mpr ⟨r, hr, hdone⟩
  have hcopy : BatchServer.batch
      { s.touch batch (fun _ r => { r with done := true }) with worker := .idle } = [] := rfl
  constructor
  case queued =>
    intro id hid
    obtain ⟨r, hr, hdone, hnone⟩ := h.queued id hid
    have hout : id ∉ batch := fun hin => hdisjoint id hid id hin rfl
    refine ⟨r, ?_, hdone, hnone⟩
    rw [hget, hr, Option.map_some, if_neg hout]
  case nodup =>
    rw [hcopy, List.append_nil]
    exact hqueueNodup
  case covered =>
    intro id r hr hdone
    rw [hget, Option.map_eq_some_iff] at hr
    obtain ⟨r', hr', rfl⟩ := hr
    split_ifs at hdone with hin
    rw [hcopy, List.append_nil]
    exact (List.mem_append.mp (hcovered id r' hr' hdone)).resolve_right hin
  case answered =>
    intro id r hr hdone
    rw [hget, Option.map_eq_some_iff] at hr
    obtain ⟨r', hr', rfl⟩ := hr
    split_ifs at hdone ⊢ with hin
    · obtain ⟨i, -, hi, r'', hr'', -, hcount⟩ := h.batched hw hin
      rw [hr'] at hr''
      rw [Option.some.inj hr'', hcount, if_pos (by omega)]
    · exact h.answered id r' hr' hdone
  case bounded => exact h.bounded
  case untouched => exact (lateTouches_same hundone).trans h.untouched
  case phase => trivial
  case started =>
    exact iff_of_true (h.started.mpr (by rw [hw]; exact fun hc => nomatch hc)) fun hc => nomatch hc
  case fresh => exact fun hc => nomatch hc
  case drained => exact fun hc => nomatch hc

theorem BatchServer.Inv.worker (h : s.Inv) (status : ℕ → Status) :
    (batchWorkerThread s status).Inv := by
  unfold batchWorkerThread
  cases hw : s.worker with
  | notStarted => exact h
  | exited => exact h
  | idle =>
    have hbatch : s.batch = [] := by rw [BatchServer.batch, hw]
    have hstarted : s.started = true := h.started.mpr (by rw [hw]; exact fun hc => nomatch hc)
    simp only
    split_ifs with hshutdown
    · exact h.failAll hbatch hstarted
    · cases hq : s.queue with
      | nil => exact h
      | cons first rest =>
        have hfirst : first ∈ s.queue := by rw [hq]; exact List.mem_cons_self
        obtain ⟨r, hr, -, -⟩ := h.queued first hfirst
        have hread : s.touch [first] (fun _ r => r) = s := touch_read fun id hid => by
          rw [List.mem_singleton.mp hid]
          exact h.queue_undone first hfirst
        simp only [hr, hread]
        split_ifs
        · exact h.rest hbatch (.inr rfl) hstarted
        · exact h.process hbatch hstarted
  | window =>
    exact h.process (by rw [BatchServer.batch, hw])
      (h.started.mpr (by rw [hw]; exact fun hc => nomatch hc))
  | running batch gid ng g =>
    simp only
    split_ifs with hg
    · exact h.dispatch hw hg status
    · exact h.finish hw hg

theorem BatchServer.Inv.enqueue (h : s.Inv) (req : BatchRequest) (hw : s.worker ≠ .exited) :
    (s.step (.enqueue req)).Inv := by
  simp only [BatchServer.step]
  split_ifs with hroom
  · obtain ⟨hstarted, hlt⟩ := hroom
    have hnew : ∀ id ∈ s.queue ++ s.batch, id < s.requests.length := by
      intro id hid
      rcases List.mem_append.mp hid with hq | hb
      · obtain ⟨r, hr, -⟩ := h.queued id hq
        exact (List.getElem?_eq_some_iff.mp hr).1
      · unfold BatchServer.batch at hb
        split at hb
        case h_1 batch gid ng g hw =>
          obtain ⟨i, -, -, r, hr, -⟩ := h.batched hw hb
          exact (List.getElem?_eq_some_iff.mp hr).1
        case h_2 => exact nomatch hb
    have hold : ∀ (id : ℕ) (r : QueuedRequest), s.requests[id]? = some r →
        (s.requests ++ [⟨req, [], false, false⟩])[id]? = some r := fun id r hr => by
      rw [List.getElem?_append_left (List.getElem?_eq_some_iff.mp hr).1, hr]
    have hlast : ∀ (id : ℕ) (r : QueuedRequest),
        (s.requests ++ [⟨req, [], false, false⟩])[id]? = some r →
          s.requests[id]? = some r ∨ id = s.requests.length ∧ r = ⟨req, [], false, false⟩ := by
      intro id r hr
      rcases Nat.lt_or_ge id s.requests.length with hid | hid
      · rw [List.getElem?_append_left hid] at hr
        exact .inl hr
      · rw [List.getElem?_append_right hid, List.getElem?_singleton] at hr
        split_ifs at hr with hzero
        exact .inr ⟨by omega, (Option.some.inj hr).symm⟩
    have hplaces : (s.queue ++ [s.requests.length] ++ s.batch).Perm
        (s.requests.length :: (s.queue ++ s.batch)) := by
      rw [List.append_assoc]
      exact List.perm_middle
    -- the new request takes the next number, so the queued and the taken ones keep theirs
    constructor
    case queued =>
      intro id hid
      rcases List.mem_append.mp hid with hid | hid
      · obtain ⟨r, hr, hrest⟩ := h.queued id hid
        exact ⟨r, hold id r hr, hrest⟩
      · rw [List.mem_singleton.mp hid]
        exact ⟨_, by rw [List.getElem?_append_right (Nat.le_refl _), Nat.sub_self]; rfl, rfl, rfl⟩
    case nodup =>
      refine hplaces.nodup_iff.mpr (List.nodup_cons.mpr ⟨fun hmem => ?_, h.nodup⟩)
      exact absurd (hnew _ hmem) (Nat.lt_irrefl _)
    case covered =>
      intro id r hr hdone
      refine hplaces.mem_iff.mpr ?_
      rcases hlast id r hr with hr | ⟨rfl, -⟩
      · exact List.mem_cons_of_mem _ (h.covered id r hr hdone)
      · exact List.mem_cons_self
    case answered =>
      intro id r hr hdone
      rcases hlast id r hr with hr | ⟨-, rfl⟩
      · exact h.answered id r hr hdone
      · exact nomatch hdone
    case bounded =>
      rw [List.length_append, List.length_singleton]
      exact hlt
    case untouched => exact h.untouched
    case phase =>
      have hphase := h.phase
      unfold BatchServer.Phase at hphase ⊢
      simp only
      cases hwork : s.worker with
      | running batch gid ng g =>
        simp only [hwork] at hphase ⊢
        obtain ⟨hlen, hgid, hle, hng, hpairs⟩ := hphase
        refine ⟨hlen, hgid, hle, hng, fun p hp => ?_⟩
        obtain ⟨r, hr, hrest⟩ := hpairs p hp
        exact ⟨r, hold _ r hr, hrest⟩
      | _ => trivial
    case started => exact h.started
    case fresh => exact fun hfresh => absurd hfresh (h.started.mp hstarted)
    case drained => exact fun hexited => absurd hexited hw
  · exact h

theorem BatchServer.Inv.wake (h : s.Inv) (j : ℕ) : (s.step (.wake j)).Inv := by
  have hget : ∀ id : ℕ, (s.step (.wake j)).requests[id]?
      = s.requests[id]?.map fun r => if id = j ∧ r.done = true then { r with left := true } else r :=
    fun id => by rw [BatchServer.step, List.getElem?_mapIdx]
  -- a wakeup only marks requests that are done, so what is queued or in the batch is untouched
  have hkept : ∀ (id : ℕ) (r : QueuedRequest), s.requests[id]? = some r →
      ∃ r', (s.step (.wake j)).requests[id]? = some r' ∧ r'.done = r.done ∧
        r'.answers = r.answers := by
    intro id r hr
    refine ⟨_, by rw [hget, hr, Option.map_some], ?_, ?_⟩
    · split_ifs <;> rfl
    · split_ifs <;> rfl
  have hback : ∀ (id : ℕ) (r' : QueuedRequest), (s.step (.wake j)).requests[id]? = some r' →
      ∃ r, s.requests[id]? = some r ∧ r'.done = r.done ∧ r'.answers = r.answers := by
    intro id r' hr'
    rw [hget, Option.map_eq_some_iff] at hr'
    obtain ⟨r, hr, rfl⟩ := hr'
    refine ⟨r, hr, ?_, ?_⟩
    · split_ifs <;> rfl
    · split_ifs <;> rfl
  constructor
  case queued =>
    intro id hid
    obtain ⟨r, hr, hdone, hnone⟩ := h.queued id hid
    obtain ⟨r', hr', hdone', hanswers⟩ := hkept id r hr
    exact ⟨r', hr', hdone'.trans hdone, hanswers.trans hnone⟩
  case nodup => exact h.nodup
  case covered =>
    intro id r' hr' hdone
    obtain ⟨r, hr, hsame, -⟩ := hback id r' hr'
    exact h.covered id r hr (hsame ▸ hdone)
  case answered =>
    intro id r' hr' hdone
    obtain ⟨r, hr, hsame, hanswers⟩ := hback id r' hr'
    rw [hanswers]
    exact h.answered id r hr (hsame ▸ hdone)
  case bounded => exact h.bounded
  case untouched => exact h.untouched
  case phase =>
    have hphase := h.phase
    have hworker : (s.step (.wake j)).worker = s.worker := rfl
    unfold BatchServer.Phase at hphase ⊢
    rw [hworker]
    cases hwork : s.worker with
    | running batch gid ng g =>
      simp only [hwork] at hphase ⊢
      obtain ⟨hlen, hgid, hle, hng, hpairs⟩ := hphase
      refine ⟨hlen, hgid, hle, hng, fun p hp => ?_⟩
      obtain ⟨r, hr, hdone, hcount⟩ := hpairs p hp
      obtain ⟨r', hr', hdone', hanswers⟩ := hkept p.1 r hr
      exact ⟨r', hr', hdone'.trans hdone, by rw [hanswers]; exact hcount⟩
    | _ => trivial
  case started => exact h.started
  case fresh =>
    intro hw
    have hnil := h.fresh hw
    simp only [BatchServer.step, hnil]
    rfl
  case drained => exact h.drained

/-- No producer reaches its critical section after the worker has gone. -/
def BatchServer.Quiet (s : BatchServer) : BatchEvent → Prop
  | .enqueue _ => s.worker ≠ .exited
  | _ => True

theorem BatchServer.Inv.step {e : BatchEvent} (h : s.Inv) (hquiet : s.Quiet e) :
    (s.step e).Inv := by
  cases e with
  | spawn =>
    simp only [BatchServer.step]
    split_ifs with hw
    · have hnil := h.fresh hw
      have hqueue : s.queue = [] := by
        refine List.eq_nil_iff_forall_not_mem.mpr fun id hid => ?_
        obtain ⟨r, hr, -⟩ := h.queued id hid
        rw [hnil] at hr
        exact nomatch hr
      constructor
      case queued => rw [hqueue]; exact fun id hid => nomatch hid
      case nodup => rw [hqueue]; exact List.nodup_nil
      case covered => rw [hnil]; exact fun id r hr => nomatch hr
      case answered => rw [hnil]; exact fun id r hr => nomatch hr
      case bounded => exact h.bounded
      case untouched => exact h.untouched
      case phase => trivial
      case started => exact iff_of_true rfl fun hc => nomatch hc
      case fresh => exact fun hc => nomatch hc
      case drained => exact fun hc => nomatch hc
    · exact h
  | enqueue req => exact h.enqueue req hquiet
  | wake j => exact h.wake j
  | worker status => exact h.worker status
  | sigterm =>
    exact
      { queued := h.queued
        nodup := h.nodup
        covered := h.covered
        answered := h.answered
        bounded := h.bounded
        untouched := h.untouched
        phase := h.phase
        started := h.started
        fresh := h.fresh
        drained := h.drained }

end Invariant

section Progress

variable {s : BatchServer}

/-- Worker steps that a queued request may still have to wait for. -/
def BatchServer.queueRank (s : BatchServer) : ℕ :=
  match s.worker with
  | .notStarted | .exited => 0
  | .idle => 259
  | .window => 258
  | .running _ _ ng g => ng - g + 260

def BatchServer.batchRank (s : BatchServer) : ℕ :=
  match s.worker with
  | .running _ _ ng g => ng - g + 1
  | _ => 0

def BatchServer.rank (s : BatchServer) (id : ℕ) : ℕ :=
  if s.isDone id = true then 0 else if id ∈ s.queue then s.queueRank else s.batchRank

theorem BatchServer.Inv.rank_le (h : s.Inv) (id : ℕ) : s.rank id ≤ 516 := by
  have hphase := h.phase
  unfold BatchServer.Phase cuvsBatchMax at hphase
  unfold BatchServer.rank BatchServer.queueRank BatchServer.batchRank
  cases hw : s.worker with
  | running batch gid ng g =>
    simp only [hw] at hphase ⊢
    obtain ⟨-, -, -, hng, -⟩ := hphase
    split_ifs <;> omega
  | _ => simp only; split_ifs <;> omega

theorem BatchServer.Inv.rank_pos (h : s.Inv) {id : ℕ} (hdone : s.isDone id = false) :
    0 < s.rank id := by
  obtain ⟨r, hr, hundone⟩ := isDone_eq_false.mp hdone
  have hplace := h.covered id r hr hundone
  unfold BatchServer.rank
  rw [if_neg (by rw [hdone]; exact Bool.false_ne_true)]
  split_ifs with hq
  · unfold BatchServer.queueRank
    cases hw : s.worker with
    | notStarted =>
      rw [h.fresh hw] at hr
      exact nomatch hr
    | exited =>
      rw [h.drained hw] at hq
      exact nomatch hq
    | _ => exact Nat.succ_pos _
  · have hb := (List.mem_append.mp hplace).resolve_left hq
    unfold BatchServer.batch at hb
    unfold BatchServer.batchRank
    cases hw : s.worker with
    | running batch gid ng g => exact Nat.succ_pos _
    | _ =>
      rw [hw] at hb
      exact nomatch hb

theorem rank_done {id : ℕ} (h : s.isDone id = true) : s.rank id = 0 := if_pos h

theorem rank_process (h : s.Inv) {id : ℕ} (hq : id ∈ s.queue) :
    (batchProcessLocked s).rank id ≤ 257 := by
  have hempty : s.queue ≠ [] := fun hnil => by
    rw [hnil] at hq
    exact nomatch hq
  have hcount := cuvsBatchGroup_le (s.queue.map s.keyOf)
  rw [List.length_map] at hcount
  have hbound := h.bounded
  unfold batchProcessLocked cuvsBatchMax at *
  rw [if_neg hempty]
  simp only [BatchServer.rank, BatchServer.batchRank]
  split_ifs with hdone hin
  · exact Nat.zero_le _
  · exact nomatch hin
  · omega

theorem rank_le_place (s : BatchServer) (id : ℕ) :
    s.rank id ≤ if id ∈ s.queue then s.queueRank else s.batchRank := by
  unfold BatchServer.rank
  by_cases hdone : s.isDone id = true
  · rw [if_pos hdone]
    exact Nat.zero_le _
  · rw [if_neg hdone]

theorem touch_isDone {ids : List ℕ} {f : ℕ → QueuedRequest → QueuedRequest} {id : ℕ}
    (hf : ∀ j r, r.done = true → (f j r).done = true) (hdone : s.isDone id = true) :
    (s.touch ids f).isDone id = true := by
  unfold BatchServer.isDone at hdone ⊢
  rw [touch_getElem?]
  cases hr : s.requests[id]? with
  | none => rfl
  | some r =>
    rw [hr] at hdone
    simp only [Option.map_some]
    split_ifs
    · exact hf id r hdone
    · exact hdone

theorem BatchServer.Inv.worker_idle (h : s.Inv) (status : ℕ → Status) (hw : s.worker = .idle)
    (hshutdown : ¬ s.shutdown = true) :
    batchWorkerThread s status = s ∧ s.queue = [] ∨
      batchWorkerThread s status = { s with worker := .window } ∨
      batchWorkerThread s status = batchProcessLocked s := by
  unfold batchWorkerThread
  simp only [hw, if_neg hshutdown]
  cases hq : s.queue with
  | nil => exact .inl ⟨rfl, rfl⟩
  | cons first rest =>
    have hfirst : first ∈ s.queue := by rw [hq]; exact List.mem_cons_self
    obtain ⟨r, hr, -, -⟩ := h.queued first hfirst
    have hread : s.touch [first] (fun _ r => r) = s := touch_read fun id hid => by
      rw [List.mem_singleton.mp hid]
      exact h.queue_undone first hfirst
    simp only [hr, hread]
    split_ifs
    · exact .inr (.inl (by rw [hq]))
    · exact .inr (.inr rfl)

theorem process_isDone {id : ℕ} (hdone : s.isDone id = true) :
    (batchProcessLocked s).isDone id = true := by
  unfold batchProcessLocked
  split_ifs
  · exact hdone
  · exact touch_isDone (fun _ _ hr => hr) hdone

theorem BatchServer.Inv.worker_isDone (h : s.Inv) (status : ℕ → Status) {id : ℕ}
    (hdone : s.isDone id = true) : (batchWorkerThread s status).isDone id = true := by
  cases hw : s.worker with
  | idle =>
    by_cases hshutdown : s.shutdown = true
    · simp only [batchWorkerThread, hw, if_pos hshutdown]
      exact touch_isDone (fun _ _ _ => rfl) hdone
    · rcases h.worker_idle status hw hshutdown with ⟨heq, -⟩ | heq | heq
      · rw [heq]; exact hdone
      · rw [heq]; exact hdone
      · rw [heq]; exact process_isDone hdone
  | window =>
    simp only [batchWorkerThread, hw]
    exact process_isDone hdone
  | running batch gid ng g =>
    simp only [batchWorkerThread, hw]
    split_ifs
    · exact touch_isDone (fun _ _ hr => hr) hdone
    · exact touch_isDone (fun _ _ _ => rfl) hdone
  | _ =>
    simp only [batchWorkerThread, hw]
    exact hdone

theorem marked_isDone {ids : List ℕ} {f : ℕ → QueuedRequest → QueuedRequest} {id : ℕ}
    (hid : id ∈ ids) (hf : ∀ j r, (f j r).done = true) : (s.touch ids f).isDone id = true := by
  unfold BatchServer.isDone
  rw [touch_getElem?]
  cases s.requests[id]? with
  | none => rfl
  | some r =>
    simp only [Option.map_some, if_pos hid]
    exact hf id r

/-- The worker gets nearer to every request with each of its steps. -/
theorem BatchServer.Inv.rank_worker (h : s.Inv) (status : ℕ → Status) (id : ℕ) :
    (batchWorkerThread s status).rank id ≤ s.rank id - 1 := by
  cases hdone : s.isDone id with
  | true =>
    rw [rank_done (h.worker_isDone status hdone)]
    exact Nat.zero_le _
  | false =>
    obtain ⟨r, hr, hundone⟩ := isDone_eq_false.mp hdone
    have hplace := List.mem_append.mp (h.covered id r hr hundone)
    have hrank : s.rank id = if id ∈ s.queue then s.queueRank else s.batchRank :=
      if_neg (by rw [hdone]; exact Bool.false_ne_true)
    have hnext := rank_le_place (batchWorkerThread s status) id
    -- without a running batch an unanswered request can only be in the queue
    have hempty : (∀ batch gid ng g, s.worker ≠ .running batch gid ng g) → id ∈ s.queue := by
      intro hnot
      refine hplace.resolve_right fun hb => ?_
      unfold BatchServer.batch at hb
      split at hb
      case h_1 batch gid ng g hw => exact hnot _ _ _ _ hw
      case h_2 => exact nomatch hb
    cases hw : s.worker with
    | notStarted =>
      rw [h.fresh hw] at hr
      exact nomatch hr
    | exited =>
      have hq := hempty fun _ _ _ _ hc => by rw [hw] at hc; exact nomatch hc
      rw [h.drained hw] at hq
      exact nomatch hq
    | idle =>
      have hq := hempty fun _ _ _ _ hc => by rw [hw] at hc; exact nomatch hc
      rw [hrank, if_pos hq, BatchServer.queueRank, hw]
      by_cases hshutdown : s.shutdown = true
      · have hfailed : (batchWorkerThread s status).isDone id = true := by
          simp only [batchWorkerThread, hw, if_pos hshutdown]
          exact marked_isDone hq fun _ _ => rfl
        rw [rank_done hfailed]
        exact Nat.zero_le _
      · rcases h.worker_idle status hw hshutdown with ⟨-, hnil⟩ | heq | heq
        · rw [hnil] at hq
          exact nomatch hq
        · rw [heq] at hnext ⊢
          exact hnext.trans (Nat.le_of_eq (if_pos hq))
        · rw [heq]
          exact (rank_process h hq).trans (by decide)
    | window =>
      have hq := hempty fun _ _ _ _ hc => by rw [hw] at hc; exact nomatch hc
      rw [hrank, if_pos hq, BatchServer.queueRank, hw]
      simp only [batchWorkerThread, hw]
      exact rank_process h hq
    | running batch gid ng g =>
      have hphase := h.phase
      simp only [BatchServer.Phase, hw] at hphase
      obtain ⟨-, -, hle, -, -⟩ := hphase
      simp only [BatchServer.queueRank, BatchServer.batchRank, hw] at hrank
      by_cases hg : g < ng
      · simp only [batchWorkerThread, hw, if_pos hg, BatchServer.queueRank,
          BatchServer.batchRank, touch_queue] at hnext ⊢
        rw [hrank]
        refine hnext.trans ?_
        split_ifs <;> omega
      · by_cases hq : id ∈ s.queue
        · simp only [batchWorkerThread, hw, if_neg hg, BatchServer.queueRank, touch_queue,
            if_pos hq] at hnext ⊢
          rw [hrank, if_pos hq]
          refine hnext.trans ?_
          omega
        · have hb : id ∈ batch := by
            have hb := hplace.resolve_left hq
            rwa [BatchServer.batch, hw] at hb
          have hfinished : (batchWorkerThread s status).isDone id = true := by
            simp only [batchWorkerThread, hw, if_neg hg]
            exact marked_isDone hb fun _ _ => rfl
          rw [rank_done hfinished]
          exact Nat.zero_le _

def BatchEvent.isWorker : BatchEvent → Bool
  | .worker _ => true
  | _ => false

theorem BatchServer.Inv.rank_step (h : s.Inv) (e : BatchEvent) {id : ℕ}
    (hid : id < s.requests.length) :
    id < (s.step e).requests.length ∧
      (s.step e).rank id ≤ s.rank id - if e.isWorker then 1 else 0 := by
  -- only the worker has to lower the rank; the other steps must not raise it
  cases e with
  | spawn =>
    change _ ∧ _ ≤ s.rank id
    simp only [BatchServer.step]
    split_ifs with hw
    · rw [h.fresh hw] at hid
      exact absurd hid (Nat.not_lt_zero id)
    · exact ⟨hid, Nat.le_refl _⟩
  | enqueue req =>
    change _ ∧ _ ≤ s.rank id
    simp only [BatchServer.step]
    split_ifs
    · refine ⟨by rw [List.length_append]; omega, Nat.le_of_eq ?_⟩
      have hmem : id ∈ s.queue ++ [s.requests.length] ↔ id ∈ s.queue := by
        rw [List.mem_append, List.mem_singleton]
        exact or_iff_left (Nat.ne_of_lt hid)
      simp only [BatchServer.rank, BatchServer.isDone, List.getElem?_append_left hid, hmem]
      rfl
    · exact ⟨hid, Nat.le_refl _⟩
  | wake j =>
    refine ⟨by rw [BatchServer.step, List.length_mapIdx]; exact hid, Nat.le_of_eq ?_⟩
    have hsame : (s.step (.wake j)).isDone id = s.isDone id := by
      simp only [BatchServer.isDone, BatchServer.step, List.getElem?_mapIdx]
      cases s.requests[id]? with
      | none => rfl
      | some r =>
        simp only [Option.map_some]
        split_ifs <;> rfl
    simp only [BatchServer.rank, hsame]
    rfl
  | worker status =>
    refine ⟨?_, h.rank_worker status id⟩
    have hlen : (batchWorkerThread s status).requests.length = s.requests.length := by
      cases hw : s.worker with
      | idle =>
        by_cases hshutdown : s.shutdown = true
        · simp only [batchWorkerThread, hw, if_pos hshutdown]
          exact touch_length _ _ _
        · rcases h.worker_idle status hw hshutdown with ⟨heq, -⟩ | heq | heq
          · rw [heq]
          · rw [heq]
          · rw [heq, batchProcessLocked]
            split_ifs
            · rfl
            · exact touch_length _ _ _
      | window =>
        simp only [batchWorkerThread, hw, batchProcessLocked]
        split_ifs
        · rfl
        · exact touch_length _ _ _
      | running batch gid ng g =>
        simp only [batchWorkerThread, hw]
        split_ifs
        · exact touch_length _ _ _
        · exact touch_length _ _ _
      | _ => simp only [batchWorkerThread, hw]
    exact hid.trans_eq hlen.symm
  | sigterm => exact ⟨hid, Nat.le_refl _⟩

theorem BatchServer.Inv.rank_run (h : s.Inv) {os : List BatchEvent}
    (hquiet : Run.Along BatchServer.step BatchServer.Quiet s os) {id : ℕ}
    (hid : id < s.requests.length) :
    (Run.run BatchServer.step s os).rank id ≤ s.rank id - os.countP BatchEvent.isWorker := by
  induction os generalizing s with
  | nil => exact Nat.le_refl _
  | cons e os ih =>
    obtain ⟨hid', hstep⟩ := h.rank_step e hid
    have hrun := ih (h.step hquiet.1) hquiet.2 hid'
    rw [Run.run, List.countP_cons]
    omega

/-- A run hands every request off: each state is sound, and whoever waits is done after so many
steps of the worker. -/
structure Delivered (os : List BatchEvent) : Prop where
  handOff : ∀ pre post, os = pre ++ post → (Run.run BatchServer.step .initial pre).HandOff
  answered : ∀ pre post, os = pre ++ post → 516 ≤ post.countP BatchEvent.isWorker →
    ∀ id < (Run.run BatchServer.step .initial pre).requests.length,
      (Run.run BatchServer.step .initial os).isDone id = true

/-- The hand-off is sound as long as no producer comes after the worker has gone. -/
theorem delivered_iff (os : List BatchEvent) :
    Delivered os ↔ Run.Along BatchServer.step BatchServer.Quiet .initial os := by
  have hinv : ∀ os, Run.Along BatchServer.step BatchServer.Quiet .initial os →
      (Run.run BatchServer.step .initial os).Inv := fun os hos =>
    Run.run_invariant BatchServer.Inv (fun s e hs hquiet => hs.step hquiet)
      BatchServer.initial_inv hos
  constructor
  · intro h
    by_contra hbad
    obtain ⟨pre, e, post, rfl, hpre, hlate⟩ := Run.exists_first_not_along hbad
    have hstate := hinv pre hpre
    have hhand := h.handOff (pre ++ [e]) post (by simp)
    rw [Run.run_append] at hhand
    generalize Run.run BatchServer.step .initial pre = s at hstate hhand hlate
    -- the first step that is not quiet is an enqueue behind the back of a worker that has left
    cases e with
    | enqueue req =>
      have hw : s.worker = .exited := not_not.mp hlate
      have hroom : s.started = true ∧ s.queue.length < cuvsBatchMax :=
        ⟨hstate.started.mpr (by rw [hw]; intro hc; cases hc),
          by rw [hstate.drained hw]; decide⟩
      have hnext : s.step (.enqueue req)
          = { s with
              requests := s.requests ++ [⟨req, [], false, false⟩]
              queue := s.queue ++ [s.requests.length] } := if_pos hroom
      simp only [Run.run, hnext] at hhand
      have hdone := hhand.drained hw ⟨req, [], false, false⟩
        (List.mem_append_right _ List.mem_cons_self)
      cases hdone
    | _ => exact hlate trivial
  · intro hquiet
    constructor
    case handOff =>
      rintro pre post rfl
      exact (hinv pre (Run.along_append.mp hquiet).1).handOff
    case answered =>
      rintro pre post rfl hcount id hid
      obtain ⟨hpre, hpost⟩ := Run.along_append.mp hquiet
      have hstate := hinv pre hpre
      have hrank := hstate.rank_run hpost hid
      have hbound := hstate.rank_le id
      rw [← Run.run_append] at hrank
      cases hdone : (Run.run BatchServer.step .initial (pre ++ post)).isDone id with
      | true => rfl
      | false =>
        have hpos := (hinv _ hquiet).rank_pos hdone
        omega

def lateProducer : List BatchEvent :=
  [.spawn, .sigterm, .worker fun _ => .ok, .enqueue ⟨⟨⟨1, 1⟩, 0, 2, 0, 0, 0⟩, [0, 0], 1, 100⟩]

theorem lateProducer_not_delivered : ¬ Delivered lateProducer := by
  intro h
  have hdrained := (h.handOff lateProducer [] rfl).drained (by decide)
  exact absurd hdrained (by decide)

end Progress

end PgCuvs
