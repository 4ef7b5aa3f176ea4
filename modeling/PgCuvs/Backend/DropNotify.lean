import PgCuvs.Library.Scopes
import PgCuvs.Types

/-! The backend's list of pending drops: the object access hook collects them, the
subtransaction callback moves or discards them, and the transaction callback tells the
daemon. -/

namespace PgCuvs

abbrev SubTransactionId := ℕ

def topSubTransactionId : SubTransactionId := 1

structure CuvsPendingDrop where
  oid : Oid
  subid : SubTransactionId
deriving DecidableEq, Repr

inductive ObjectAccessType where
  | postCreate
  | drop
  | postAlter
  | namespaceSearch
  | functionExecute
  | truncate
deriving DecidableEq, Repr

inductive RelKind where
  | index
  | other
deriving DecidableEq, Repr

/-- One call of the object access hook, with the `pg_class` row of the object, if it has
one, and the OIDs of the two access methods; 0 is `InvalidOid`. -/
structure ObjectAccess where
  access : ObjectAccessType
  classId : Oid
  objectId : Oid
  subId : ℕ
  rel : Option (RelKind × Oid)
  cagraAm : Oid
  flatAm : Oid
deriving DecidableEq, Repr

def relationRelationId : Oid := 1259

def ObjectAccess.dropsIndex (a : ObjectAccess) : Bool :=
  decide (a.access = .drop ∧ a.classId = relationRelationId ∧ a.subId = 0) &&
    match a.rel with
    | some (relkind, relam) =>
      decide (relkind = .index ∧ relam ≠ 0 ∧ (relam = a.cagraAm ∨ relam = a.flatAm))
    | none => false

/-- An index of one of the two access methods is dropped, as a whole. -/
structure ObjectAccess.IndexDropped (a : ObjectAccess) : Prop where
  dropped : a.access = .drop
  whole : a.classId = relationRelationId ∧ a.subId = 0
  index : ∃ relam, a.rel = some (.index, relam) ∧ relam ≠ 0 ∧ relam ∈ [a.cagraAm, a.flatAm]

theorem ObjectAccess.dropsIndex_iff (a : ObjectAccess) : a.dropsIndex = true ↔ a.IndexDropped := by
  unfold dropsIndex
  rw [Bool.and_eq_true, decide_eq_true_iff]
  constructor
  · rintro ⟨⟨hdrop, hclass, hsub⟩, hrel⟩
    split at hrel
    · rename_i relkind relam hrow
      obtain ⟨rfl, hvalid, ham⟩ := of_decide_eq_true hrel
      exact ⟨hdrop, ⟨hclass, hsub⟩, relam, hrow, hvalid, by simpa using ham⟩
    · cases hrel
  · rintro ⟨hdrop, ⟨hclass, hsub⟩, relam, hrow, hvalid, ham⟩
    refine ⟨⟨hdrop, hclass, hsub⟩, ?_⟩
    rw [hrow]
    exact decide_eq_true ⟨rfl, hvalid, by simpa using ham⟩

instance (a : ObjectAccess) : Decidable a.IndexDropped := decidable_of_iff _ a.dropsIndex_iff

inductive XactEvent where
  | commit
  | parallelCommit
  | abort
  | parallelAbort
  | prepare
  | preCommit
  | parallelPreCommit
  | prePrepare
deriving DecidableEq, Repr

inductive SubXactEvent where
  | startSub
  | commitSub
  | abortSub
  | preCommitSub
deriving DecidableEq, Repr

/-- The backend's list, the OIDs it has sent with `cuvs_ipc_drop`, and the failures it has
warned of. -/
structure DropNotifier where
  pending : List CuvsPendingDrop
  sent : List Oid
  warnings : List (Oid × Status)
deriving DecidableEq, Repr

def DropNotifier.initial : DropNotifier := ⟨[], [], []⟩

def cuvsObjectAccess (current : SubTransactionId) (a : ObjectAccess) (s : DropNotifier) :
    DropNotifier :=
  if a.dropsIndex then { s with pending := s.pending ++ [⟨a.objectId, current⟩] } else s

/-- `foreach` with `foreach_delete_current`: a deletion keeps the cursor where it is. -/
def deleteOwned (mySubid : SubTransactionId) :
    ℕ → ℕ → List CuvsPendingDrop → List CuvsPendingDrop
  | 0, _, drops => drops
  | fuel + 1, i, drops =>
    match drops[i]? with
    | none => drops
    | some pd =>
      if pd.subid = mySubid then deleteOwned mySubid fuel i (drops.eraseIdx i)
      else deleteOwned mySubid fuel (i + 1) drops

def cuvsSubxactCallback (event : SubXactEvent) (mySubid parentSubid : SubTransactionId)
    (s : DropNotifier) : DropNotifier :=
  if s.pending = [] then s
  else
    match event with
    | .abortSub => { s with pending := deleteOwned mySubid (s.pending.length + 1) 0 s.pending }
    | .commitSub =>
      { s with
        pending := s.pending.map fun pd =>
          if pd.subid = mySubid then { pd with subid := parentSubid } else pd }
    | .startSub | .preCommitSub => s

/-- `ipcDrop oid` is the daemon's answer. -/
def cuvsXactCallback (ipcDrop : Oid → Status) (event : XactEvent) (s : DropNotifier) :
    DropNotifier :=
  if s.pending = [] then s
  else
    let s :=
      if event = .commit then
        let oids := s.pending.map CuvsPendingDrop.oid
        { s with
          sent := s.sent ++ oids
          warnings := s.warnings ++
            (oids.filter fun oid => ipcDrop oid ≠ .ok).map fun oid => (oid, ipcDrop oid) }
      else s
    -- the parallel and the `PRE` events leave the list alone
    if event = .commit ∨ event = .abort ∨ event = .prepare then { s with pending := [] } else s

section Loop

theorem deleteOwned_eq (mySubid : SubTransactionId) (kept rest : List CuvsPendingDrop) (fuel : ℕ)
    (hfuel : rest.length < fuel) :
    deleteOwned mySubid fuel kept.length (kept ++ rest)
      = kept ++ rest.filter fun pd => pd.subid ≠ mySubid := by
  induction rest generalizing kept fuel with
  | nil =>
    cases fuel with
    | zero => simp at hfuel
    | succ fuel => simp [deleteOwned]
  | cons pd rest ih =>
    cases fuel with
    | zero => simp at hfuel
    | succ fuel =>
      have hslot : (kept ++ pd :: rest)[kept.length]? = some pd := by simp
      have herase : (kept ++ pd :: rest).eraseIdx kept.length = kept ++ rest := by
        rw [List.eraseIdx_append_of_length_le (le_refl _), Nat.sub_self]
        rfl
      rw [List.length_cons, Nat.add_lt_add_iff_right] at hfuel
      simp only [deleteOwned, hslot]
      split_ifs with howner
      · rw [herase, ih kept fuel hfuel, List.filter_cons_of_neg (by simpa using howner)]
      · have hnext := ih (kept ++ [pd]) fuel hfuel
        rw [List.length_append, List.length_singleton, List.append_assoc,
          List.singleton_append] at hnext
        rw [hnext, List.filter_cons_of_pos (by simpa using howner), List.append_assoc,
          List.singleton_append]

theorem deleteOwned_filter (mySubid : SubTransactionId) (drops : List CuvsPendingDrop) :
    deleteOwned mySubid (drops.length + 1) 0 drops = drops.filter fun pd => pd.subid ≠ mySubid :=
  deleteOwned_eq mySubid [] drops _ (Nat.lt_succ_self _)

end Loop

section Calls

inductive BackendCall where
  | access (current : SubTransactionId) (a : ObjectAccess)
  | subxact (event : SubXactEvent) (mySubid parentSubid : SubTransactionId)
  | xact (event : XactEvent)

def DropNotifier.step (ipcDrop : Oid → Status) (s : DropNotifier) : BackendCall → DropNotifier
  | .access current a => cuvsObjectAccess current a s
  | .subxact event mySubid parentSubid => cuvsSubxactCallback event mySubid parentSubid s
  | .xact event => cuvsXactCallback ipcDrop event s

/-- What a (sub)transaction does: object accesses and subtransactions. -/
abbrev XactBody := Scopes.Body SubTransactionId ObjectAccess

/-- The calls while `cur` runs a body: a subtransaction is started, and released or rolled
back after everything inside has ended. -/
def bodyCalls (cur : SubTransactionId) : XactBody → List BackendCall
  | .done => []
  | .item a rest => .access cur a :: bodyCalls cur rest
  | .scope id committed inner rest =>
    .subxact .startSub id cur :: (bodyCalls id inner ++
      (if committed then [.subxact .preCommitSub id cur, .subxact .commitSub id cur]
        else [.subxact .abortSub id cur]) ++ bodyCalls cur rest)

structure Transaction where
  body : XactBody
  committed : Bool

def Transaction.calls (t : Transaction) : List BackendCall :=
  bodyCalls topSubTransactionId t.body ++
    if t.committed then [.xact .preCommit, .xact .commit] else [.xact .abort]

def Transaction.FreshIds (t : Transaction) : Prop := (topSubTransactionId :: t.body.ids).Nodup

/-- The dropped indexes, each with the outcomes of the subtransactions around its drop. -/
def Transaction.drops (t : Transaction) : List (List Bool × Oid) :=
  (t.body.outcomes.filter fun p => p.2.IndexDropped).map fun p => (p.1, p.2.objectId)

/-- What the daemon has to be told. -/
def Transaction.due (t : Transaction) : List Oid :=
  if t.committed then (t.drops.filter fun p => p.1.all id).map Prod.snd else []

end Calls

section Log

def CuvsPendingDrop.ofLog (p : SubTransactionId × ObjectAccess) : CuvsPendingDrop :=
  ⟨p.2.objectId, p.1⟩

def Tracks (s0 : DropNotifier) (log : List (SubTransactionId × ObjectAccess)) (s : DropNotifier) :
    Prop :=
  s = { s0 with pending := (log.filter fun p => p.2.dropsIndex).map CuvsPendingDrop.ofLog }

variable {s0 s : DropNotifier} {log : List (SubTransactionId × ObjectAccess)}
  (ipcDrop : Oid → Status)

theorem Tracks.access (h : Tracks s0 log s) (cur : SubTransactionId) (a : ObjectAccess) :
    Tracks s0 (Scopes.step log (.item cur a)) (s.step ipcDrop (.access cur a)) := by
  obtain rfl : s = _ := h
  simp only [Tracks, Scopes.step, DropNotifier.step, cuvsObjectAccess, List.filter_append,
    List.map_append]
  cases hdrop : a.dropsIndex with
  | true => simp [hdrop, CuvsPendingDrop.ofLog]
  | false => simp [hdrop]

theorem Tracks.commitSub (h : Tracks s0 log s) (id parent : SubTransactionId) :
    Tracks s0 (Scopes.step log (.commit id parent))
      (s.step ipcDrop (.subxact .commitSub id parent)) := by
  obtain rfl : s = _ := h
  have hpending : (Scopes.step log (.commit id parent)).filter (fun p => p.2.dropsIndex)
      = (log.filter fun p => p.2.dropsIndex).map
          fun p => if p.1 = id then (parent, p.2) else p := by
    rw [Scopes.step, List.filter_map]
    congr 1
    refine List.filter_congr fun p _ => ?_
    simp only [Function.comp_apply]
    split_ifs <;> rfl
  rw [Tracks, hpending]
  simp only [DropNotifier.step, cuvsSubxactCallback]
  split_ifs with hempty
  · rw [List.map_eq_nil_iff] at hempty
    rw [hempty]
    rfl
  · simp only [List.map_map]
    congr 1
    refine List.map_congr_left fun p _ => ?_
    by_cases howner : p.1 = id
    · simp [howner, CuvsPendingDrop.ofLog]
    · simp [howner, CuvsPendingDrop.ofLog]

theorem Tracks.abortSub (h : Tracks s0 log s) (id parent : SubTransactionId) :
    Tracks s0 (Scopes.step log (.abort id parent))
      (s.step ipcDrop (.subxact .abortSub id parent)) := by
  obtain rfl : s = _ := h
  have hpending : (Scopes.step log (.abort id parent)).filter (fun p => p.2.dropsIndex)
      = (log.filter fun p => p.2.dropsIndex).filter fun p => p.1 ≠ id := by
    rw [Scopes.step, List.filter_filter, List.filter_filter]
    exact List.filter_congr fun p _ => Bool.and_comm _ _
  rw [Tracks, hpending]
  simp only [DropNotifier.step, cuvsSubxactCallback]
  split_ifs with hempty
  · rw [List.map_eq_nil_iff] at hempty
    rw [hempty]
    rfl
  · rw [deleteOwned_filter, List.filter_map]
    rfl

theorem Tracks.body (b : XactBody) {cur : SubTransactionId} (h : Tracks s0 log s) :
    Tracks s0 ((b.trace cur).foldl Scopes.step log)
      ((bodyCalls cur b).foldl (DropNotifier.step ipcDrop) s) := by
  have hquiet : ∀ (s : DropNotifier) (event : SubXactEvent) (id parent : SubTransactionId),
      event = .startSub ∨ event = .preCommitSub →
        s.step ipcDrop (.subxact event id parent) = s := by
    intro s event id parent hevent
    simp only [DropNotifier.step, cuvsSubxactCallback]
    rcases hevent with rfl | rfl <;> split_ifs <;> rfl
  induction b generalizing cur log s with
  | done => exact h
  | item a rest ih => exact ih (h.access ipcDrop cur a)
  | scope id committed inner rest ihinner ihrest =>
    simp only [bodyCalls, Scopes.Body.trace, List.foldl_cons, List.foldl_append]
    rw [hquiet _ _ _ _ (.inl rfl)]
    refine ihrest ?_
    cases committed with
    | true =>
      simp only [if_true, List.foldl_cons, List.foldl_nil]
      rw [hquiet _ _ _ _ (.inr rfl)]
      exact (ihinner h).commitSub ipcDrop id cur
    | false =>
      simp only [Bool.false_eq_true, if_false, List.foldl_cons, List.foldl_nil]
      exact (ihinner h).abortSub ipcDrop id cur

end Log

section Session

variable (ipcDrop : Oid → Status)

theorem Transaction.due_eq (t : Transaction) (h : t.committed = true) :
    t.due = (t.body.survivors.filter ObjectAccess.dropsIndex).map ObjectAccess.objectId := by
  rw [Transaction.due, if_pos h, Transaction.drops, Scopes.Body.survivors, List.filter_map,
    List.filter_map, List.filter_filter, List.filter_filter, List.map_map, List.map_map]
  congr 1
  refine List.filter_congr fun p _ => ?_
  have htest : p.2.dropsIndex = decide p.2.IndexDropped := by
    rw [Bool.eq_iff_iff, decide_eq_true_iff]
    exact p.2.dropsIndex_iff
  simp only [Function.comp_apply, htest]
  exact Bool.and_comm _ _

/-- A transaction sends what is due and leaves the list empty. -/
theorem Transaction.run (t : Transaction) (hfresh : t.FreshIds) {s : DropNotifier}
    (hs : s.pending = []) :
    let s' := t.calls.foldl (DropNotifier.step ipcDrop) s
    s'.pending = [] ∧ s'.sent = s.sent ++ t.due := by
  obtain ⟨htop, hnodup⟩ := List.nodup_cons.mp hfresh
  have hstart : Tracks s [] s := by
    cases s
    simp only at hs
    rw [hs]
    rfl
  have hbody : Tracks s ((t.body.trace topSubTransactionId).foldl Scopes.step [])
      ((bodyCalls topSubTransactionId t.body).foldl (DropNotifier.step ipcDrop) s) :=
    hstart.body ipcDrop t.body
  rw [Scopes.foldl_trace t.body topSubTransactionId [] hnodup htop fun _ hp => (nomatch hp)] at hbody
  have hpending : (((t.body.survivors.map (Prod.mk topSubTransactionId)).filter
      fun p => p.2.dropsIndex).map CuvsPendingDrop.ofLog).map CuvsPendingDrop.oid
        = (t.body.survivors.filter ObjectAccess.dropsIndex).map ObjectAccess.objectId := by
    rw [List.filter_map, List.map_map, List.map_map]
    rfl
  simp only [Transaction.calls, List.foldl_append]
  rw [show _ = _ from hbody, List.nil_append]
  generalize ((t.body.survivors.map (Prod.mk topSubTransactionId)).filter
    fun p => p.2.dropsIndex).map CuvsPendingDrop.ofLog = pending at hpending
  cases hend : t.committed with
  | true =>
    rw [t.due_eq hend, ← hpending]
    simp only [if_true, List.foldl_cons, List.foldl_nil, DropNotifier.step, cuvsXactCallback]
    by_cases hempty : pending = []
    · simp [hempty]
    · simp [hempty]
  | false =>
    have hdue : t.due = [] := by
      rw [Transaction.due, hend]
      rfl
    simp only [Bool.false_eq_true, if_false, List.foldl_cons, List.foldl_nil, DropNotifier.step,
      cuvsXactCallback, hdue, List.append_nil]
    by_cases hempty : pending = []
    · simp [hempty]
    · simp [hempty]

/-- Over a session, the daemon is told of exactly the drops whose transaction and
subtransactions all committed. -/
theorem drops_notified (ts : List Transaction) (hfresh : ∀ t ∈ ts, t.FreshIds) :
    let s := (ts.flatMap Transaction.calls).foldl (DropNotifier.step ipcDrop) DropNotifier.initial
    s.pending = [] ∧ s.sent = ts.flatMap Transaction.due := by
  suffices hrun : ∀ s : DropNotifier, s.pending = [] →
      ((ts.flatMap Transaction.calls).foldl (DropNotifier.step ipcDrop) s).pending = [] ∧
        ((ts.flatMap Transaction.calls).foldl (DropNotifier.step ipcDrop) s).sent
          = s.sent ++ ts.flatMap Transaction.due from hrun DropNotifier.initial rfl
  induction ts with
  | nil => exact fun s hs => ⟨hs, (List.append_nil _).symm⟩
  | cons t ts ih =>
    intro s hs
    obtain ⟨hpending, hsent⟩ := t.run ipcDrop (hfresh t List.mem_cons_self) hs
    obtain ⟨hend, hall⟩ := ih (fun u hu => hfresh u (List.mem_cons_of_mem t hu)) _ hpending
    rw [List.flatMap_cons, List.foldl_append]
    refine ⟨hend, ?_⟩
    rw [hall, hsent, List.flatMap_cons, List.append_assoc]

def sampleDrop (oid : Oid) : ObjectAccess where
  access := .drop
  classId := relationRelationId
  objectId := oid
  subId := 0
  rel := some (.index, 20)
  cagraAm := 20
  flatAm := 30

def sampleTransaction : Transaction where
  body := .item (sampleDrop 100) (.scope 2 false (.item (sampleDrop 101) .done)
    (.scope 3 true (.item (sampleDrop 102) .done) .done))
  committed := true

/-- Three drops: at the top, in a savepoint that is rolled back, and in one released. -/
theorem drops_notified_savepoints :
    let s := ([sampleTransaction].flatMap Transaction.calls).foldl (DropNotifier.step fun _ => .ok)
      DropNotifier.initial
    s.pending = [] ∧ s.sent = [100, 102] := by
  have hfresh : ∀ t ∈ [sampleTransaction], t.FreshIds := by
    intro t ht
    rw [List.mem_singleton.mp ht]
    unfold Transaction.FreshIds
    decide
  have hdue : [sampleTransaction].flatMap Transaction.due = [100, 102] := by decide
  obtain ⟨hpending, hsent⟩ := drops_notified (fun _ => .ok) [sampleTransaction] hfresh
  exact ⟨hpending, hsent.trans hdue⟩

end Session

end PgCuvs
