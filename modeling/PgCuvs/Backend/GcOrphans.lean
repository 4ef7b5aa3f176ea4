import PgCuvs.DropFiles
import PgCuvs.Lifecycle

/-! `pg_cuvs_gc_orphans`: the files of the index directory against the catalogs, as the
snapshot of the caller shows them. -/

namespace PgCuvs

section Catalog

inductive XactStatus where
  | inProgress
  | committed
  | aborted
deriving DecidableEq, Repr

structure CatalogRow where
  oid : Oid
  xmin : ℕ
  xmax : Option ℕ
deriving DecidableEq, Repr

def CatalogRow.LiveUnder (status : ℕ → XactStatus) (r : CatalogRow) : Prop :=
  status r.xmin = .committed ∧ ∀ x, r.xmax = some x → status x ≠ .committed

structure Catalog where
  myDatabaseId : Oid
  /-- `pg_class` of each database -/
  pgClass : Oid → List CatalogRow
  pgDatabase : List CatalogRow
  status : ℕ → XactStatus
  /-- the calling transaction -/
  self : ℕ
  /-- the other transactions whose effects the caller sees -/
  snapshot : ℕ → Bool
  self_running : status self = .inProgress
  snapshot_committed : ∀ x, snapshot x → status x = .committed

namespace Catalog

variable (c : Catalog)

def sees (x : ℕ) : Bool := x == c.self || c.snapshot x

def visible (r : CatalogRow) : Bool := c.sees r.xmin && !r.xmax.any c.sees

def lookup (rows : List CatalogRow) (oid : Oid) : Bool :=
  rows.any fun r => r.oid == oid && c.visible r

/-- The index is there when the transactions have ended as `status` says. -/
def IndexUnder (status : ℕ → XactStatus) (key : Key) : Prop :=
  (∃ r ∈ c.pgDatabase, r.oid = key.dbOid ∧ r.LiveUnder status) ∧
    ∃ r ∈ c.pgClass key.dbOid, r.oid = key.indexOid ∧ r.LiveUnder status

def Settles (later : ℕ → XactStatus) : Prop := ∀ x, c.status x ≠ .inProgress → later x = c.status x

/-- It is there now, or it is once its creator has committed. -/
def LiveOrCreated (key : Key) : Prop :=
  c.IndexUnder c.status key ∨ ∃ later, c.Settles later ∧ c.IndexUnder later key

def Entered (rows : List CatalogRow) (oid : Oid) : Prop :=
  ∃ r ∈ rows, r.oid = oid ∧ (r.LiveUnder c.status ∨ c.status r.xmin = .inProgress)

/-- An index of this database without a catalog entry, or of a database that is gone. -/
def Orphan (key : Key) : Prop :=
  if key.dbOid = c.myDatabaseId then ¬c.Entered (c.pgClass c.myDatabaseId) key.indexOid
  else ¬c.Entered c.pgDatabase key.dbOid

end Catalog

end Catalog

section Collect

/-- `GcId`s: a `.cagra` or a `.shards` name. -/
def gcAnchor (name : String) : Option Key :=
  (cuvsParseIndexFilename name).or (parseSidecarName "shards" name)

inductive GcClass where
  | live
  | missingInCatalog
  | deadDatabase
  | unverifiableOtherDb
deriving DecidableEq, Repr

def gcClassify (c : Catalog) (key : Key) : GcClass :=
  if key.dbOid = c.myDatabaseId then
    if c.lookup (c.pgClass c.myDatabaseId) key.indexOid then .live else .missingInCatalog
  else if c.lookup c.pgDatabase key.dbOid then .unverifiableOtherDb
  else .deadDatabase

def GcClass.isOrphan : GcClass → Bool
  | .missingInCatalog | .deadDatabase => true
  | .live | .unverifiableOtherDb => false

def GcClass.reason : GcClass → Option String
  | .live => none
  | .missingInCatalog => some "missing_in_catalog"
  | .deadDatabase => some "dead_database"
  | .unverifiableOtherDb => some "unverifiable_other_db"

inductive DropCall where
  | answered
  /-- the daemon drops the index, its reply does not arrive -/
  | replyLost
  | unreachable
deriving DecidableEq, Repr

structure GcCall where
  drop : DropCall
  /-- the directory opens again for `gc_unlink_family` -/
  reopens : Bool
deriving DecidableEq, Repr

def GcCall.executes (call : GcCall) : Bool := call.drop != .unreachable

def GcCall.fallsBack (call : GcCall) : Bool := call.drop != .answered

def GcCall.unlinksFamily (call : GcCall) : Bool := call.fallsBack && call.reopens

structure GcRow where
  key : Key
  reason : String
  action : String
deriving DecidableEq, Repr

/-- The names of all files of an index start with `<db>_<idx>.`. -/
def gcUnlinkFamily (idir : Dir) (d : Daemon) (key : Key) : Daemon :=
  { d with disk := d.disk.modify idir key fun _ => Artifacts.empty }

def gcDelete (cfg : Config) (idir : Dir) (d : Daemon) (key : Key) (call : GcCall) :
    Daemon × String :=
  let d := if call.executes then (handleDrop cfg d key).final else d
  if !call.fallsBack then (d, "deleted")
  else if call.reopens then (gcUnlinkFamily idir d key, "deleted")
  else (d, "delete_failed")

def gcCandidate (cfg : Config) (c : Catalog) (idir : Dir) (doDelete : Bool) (d : Daemon)
    (key : Key) (call : GcCall) : Daemon × List GcRow :=
  match (gcClassify c key).reason with
  | none => (d, [])
  | some reason =>
    if !(gcClassify c key).isOrphan then (d, [⟨key, reason, "skipped"⟩])
    else if !doDelete then (d, [⟨key, reason, "would_delete"⟩])
    else
      let (d, action) := gcDelete cfg idir d key call
      (d, [⟨key, reason, action⟩])

def gcRun (cfg : Config) (c : Catalog) (idir : Dir) (doDelete : Bool) :
    Daemon → List (Key × GcCall) → Daemon × List GcRow
  | d, [] => (d, [])
  | d, (key, call) :: todo =>
    let (d, rows) := gcCandidate cfg c idir doDelete d key call
    let (d, more) := gcRun cfg c idir doDelete d todo
    (d, rows ++ more)

/-- The first pass; `calls` tells what the second one is going to meet at each. -/
def gcCandidates (names : List String) (calls : ℕ → GcCall) : List (Key × GcCall) :=
  (names.filterMap gcAnchor).zipIdx.map fun p => (p.1, calls p.2)

/-- `idir` is the directory the backend looks at, `opened` whether it can. -/
def pgCuvsGcOrphans (cfg : Config) (c : Catalog) (idir : Dir) (opened doDelete : Bool)
    (names : List String) (calls : ℕ → GcCall) (d : Daemon) : Daemon × List GcRow :=
  if opened then gcRun cfg c idir doDelete d (gcCandidates names calls) else (d, [])

end Collect

section Files

variable {cfg : Config} {c : Catalog} {idir : Dir} {doDelete : Bool}

def gcFiles (cfg : Config) (idir dir : Dir) (executes unlinks : Bool) (a : Artifacts) : Artifacts :=
  if dir = idir ∧ unlinks then Artifacts.empty
  else if dir = cfg.indexDir ∧ executes then a.dropped
  else a

theorem gcFiles_gcFiles (dir : Dir) (ex un ex' un' : Bool) (a : Artifacts) :
    gcFiles cfg idir dir ex' un' (gcFiles cfg idir dir ex un a)
      = gcFiles cfg idir dir (ex || ex') (un || un') a := by
  unfold gcFiles
  split_ifs <;> simp_all [Artifacts.dropped_dropped, Artifacts.dropped_empty]

theorem gcDelete_disk (d : Daemon) (key : Key) (call : GcCall) (dir : Dir) (k : Key) :
    (gcDelete cfg idir d key call).1.disk dir k =
      if k = key then gcFiles cfg idir dir call.executes call.unlinksFamily (d.disk dir k)
      else d.disk dir k := by
  have hdrop : (if call.executes then (handleDrop cfg d key).final else d).disk dir k =
      if k = key then gcFiles cfg idir dir call.executes false (d.disk dir k)
      else d.disk dir k := by
    unfold gcFiles
    by_cases hkey : k = key <;> by_cases hdir : dir = cfg.indexDir <;>
      cases call.executes <;> simp [hkey, hdir, handleDrop_disk, Disk.modify]
  have hfamily : ∀ d : Daemon, (gcUnlinkFamily idir d key).disk dir k =
      if k = key then gcFiles cfg idir dir false true (d.disk dir k) else d.disk dir k := by
    intro d
    unfold gcFiles
    by_cases hkey : k = key <;> by_cases hdir : dir = idir <;>
      simp [hkey, hdir, gcUnlinkFamily, Disk.modify]
  unfold gcDelete GcCall.unlinksFamily
  cases call.fallsBack with
  | false => simpa using hdrop
  | true =>
    cases call.reopens with
    | false => simpa using hdrop
    | true =>
      simp only [Bool.not_true, Bool.false_eq_true, if_false, if_true, Bool.and_self]
      rw [hfamily, hdrop]
      split_ifs
      · rw [gcFiles_gcFiles, Bool.or_false, Bool.false_or]
      · rfl

def Catalog.Seen (c : Catalog) (key : Key) : Prop := (gcClassify c key).isOrphan = false

instance (c : Catalog) (key : Key) : Decidable (c.Seen key) :=
  inferInstanceAs (Decidable (_ = _))

theorem gcCandidate_disk (d : Daemon) (key : Key) (call : GcCall) (dir : Dir) (k : Key) :
    (gcCandidate cfg c idir true d key call).1.disk dir k =
      if k = key ∧ ¬c.Seen k then
        gcFiles cfg idir dir call.executes call.unlinksFamily (d.disk dir k)
      else d.disk dir k := by
  by_cases hkey : k = key
  · subst hkey
    obtain ⟨verdict, hverdict⟩ : ∃ verdict, gcClassify c k = verdict := ⟨_, rfl⟩
    cases verdict <;>
      simp [gcCandidate, Catalog.Seen, hverdict, GcClass.reason, GcClass.isOrphan, gcDelete_disk]
  · have hdelete := @gcDelete_disk cfg idir d key call dir k
    rw [if_neg hkey] at hdelete
    rw [if_neg fun h => hkey h.1]
    unfold gcCandidate
    split
    · rfl
    · split_ifs
      · rfl
      · contradiction
      · exact hdelete

theorem gcRun_dry (todo : List (Key × GcCall)) (d : Daemon) :
    (gcRun cfg c idir false d todo).1 = d := by
  induction todo generalizing d with
  | nil => rfl
  | cons q todo ih =>
    have hcandidate : (gcCandidate cfg c idir false d q.1 q.2).1 = d := by
      unfold gcCandidate
      split
      · rfl
      · split_ifs
        · rfl
        · rfl
        · contradiction
    refine (ih _).trans hcandidate

def gcMeets (todo : List (Key × GcCall)) (key : Key) (p : GcCall → Bool) : Bool :=
  todo.any fun q => q.1 == key && p q.2

theorem gcMeets_iff {todo : List (Key × GcCall)} {key : Key} {p : GcCall → Bool} :
    gcMeets todo key p = true ↔ ∃ call, (key, call) ∈ todo ∧ p call = true := by
  simp only [gcMeets, List.any_eq_true, Bool.and_eq_true, beq_iff_eq]
  constructor
  · rintro ⟨⟨k, call⟩, hmem, rfl, hp⟩
    exact ⟨call, hmem, hp⟩
  · rintro ⟨call, hmem, hp⟩
    exact ⟨(key, call), hmem, rfl, hp⟩

theorem gcRun_disk (todo : List (Key × GcCall)) (d : Daemon) (dir : Dir) (key : Key) :
    (gcRun cfg c idir true d todo).1.disk dir key =
      if c.Seen key then d.disk dir key
      else gcFiles cfg idir dir (gcMeets todo key GcCall.executes)
        (gcMeets todo key GcCall.unlinksFamily) (d.disk dir key) := by
  induction todo generalizing d with
  | nil => simp [gcRun, gcMeets, gcFiles]
  | cons q todo ih =>
    obtain ⟨k, call⟩ := q
    have hrest := ih (gcCandidate cfg c idir true d k call).1
    rw [gcCandidate_disk] at hrest
    refine hrest.trans ?_
    by_cases hseen : c.Seen key
    · rw [if_pos hseen, if_pos hseen, if_neg fun h => h.2 hseen]
    · rw [if_neg hseen, if_neg hseen]
      by_cases hkey : key = k
      · subst hkey
        rw [if_pos ⟨rfl, hseen⟩, gcFiles_gcFiles]
        simp [gcMeets]
      · have hother : ∀ p, gcMeets ((k, call) :: todo) key p = gcMeets todo key p := by
          intro p
          simp [gcMeets, Ne.symm hkey]
        rw [if_neg fun h => hkey h.1, hother, hother]

end Files

section Correct

variable (cfg : Config) (c : Catalog) (idir : Dir) (opened : Bool) (names : List String)
  (calls : ℕ → GcCall) (d : Daemon)

/-- `pg_cuvs_gc_orphans(true)` deletes no file of an index that is live or whose creator goes
on to commit. -/
def GcSound : Prop :=
  ∀ later, c.Settles later → ∀ key, c.IndexUnder c.status key ∨ c.IndexUnder later key →
    ∀ dir, (pgCuvsGcOrphans cfg c idir opened true names calls d).1.disk dir key = d.disk dir key

/-- It leaves no file of an orphan, if the directory opens whenever it is looked at. -/
def GcComplete : Prop :=
  opened = true → (∀ i, (calls i).reopens = true) → ∀ key, c.Orphan key →
    (pgCuvsGcOrphans cfg c idir opened true names calls d).1.disk idir key = Artifacts.empty

structure GcSafe : Prop where
  /-- an index that the snapshot does not show yet has no file that would go -/
  spared : opened = true → ∀ key, c.LiveOrCreated key → ¬c.Seen key →
    ∀ call, (key, call) ∈ gcCandidates names calls →
      (call.executes → (d.disk cfg.indexDir key).DropSpares) ∧
        (call.unlinksFamily → d.disk idir key = Artifacts.empty)
  /-- an orphan has an anchor, is not shown any more, and the daemon does not answer for it, or
  answers for a family that it unlinks as a whole -/
  reached : opened = true → (∀ i, (calls i).reopens = true) → ∀ key, c.Orphan key →
    d.disk idir key = Artifacts.empty ∨
      ¬c.Seen key ∧ ∃ call, (key, call) ∈ gcCandidates names calls ∧
        (call.drop ≠ .answered ∨ idir = cfg.indexDir ∧ (d.disk idir key).DropKnows)

variable {cfg c idir opened names calls d}

theorem pgCuvsGcOrphans_disk (dir : Dir) (key : Key) :
    (pgCuvsGcOrphans cfg c idir opened true names calls d).1.disk dir key =
      if opened = true ∧ ¬c.Seen key then
        gcFiles cfg idir dir (gcMeets (gcCandidates names calls) key GcCall.executes)
          (gcMeets (gcCandidates names calls) key GcCall.unlinksFamily) (d.disk dir key)
      else d.disk dir key := by
  unfold pgCuvsGcOrphans
  cases opened with
  | false => rfl
  | true =>
    refine (gcRun_disk _ d dir key).trans ?_
    by_cases hseen : c.Seen key
    · rw [if_pos hseen, if_neg fun h => h.2 hseen]
    · rw [if_neg hseen, if_pos ⟨rfl, hseen⟩]

theorem gcFiles_unchanged_iff {ex un : Bool} {key : Key} :
    (∀ dir, gcFiles cfg idir dir ex un (d.disk dir key) = d.disk dir key) ↔
      (ex = true → (d.disk cfg.indexDir key).DropSpares) ∧
        (un = true → d.disk idir key = Artifacts.empty) := by
  constructor
  · intro h
    have hidir : un = true → d.disk idir key = Artifacts.empty := by
      intro hun
      have hat := h idir
      rw [gcFiles, if_pos ⟨rfl, hun⟩] at hat
      exact hat.symm
    refine ⟨fun hex => ?_, hidir⟩
    rw [← Artifacts.dropped_eq_self_iff]
    by_cases hboth : cfg.indexDir = idir ∧ un = true
    · rw [hboth.1, hidir hboth.2, Artifacts.dropped_empty]
    · have hat := h cfg.indexDir
      rwa [gcFiles, if_neg hboth, if_pos ⟨rfl, hex⟩] at hat
  · rintro ⟨hspared, hidir⟩ dir
    unfold gcFiles
    split_ifs with hun hex
    · rw [hun.1, hidir hun.2]
    · rw [hex.1, Artifacts.dropped_eq_self_iff.mpr (hspared hex.2)]
    · rfl

theorem gcFiles_empty_iff {ex un : Bool} {a : Artifacts} :
    gcFiles cfg idir idir ex un a = Artifacts.empty ↔
      a = Artifacts.empty ∨ un = true ∨ ex = true ∧ idir = cfg.indexDir ∧ a.DropKnows := by
  unfold gcFiles
  rw [← Artifacts.dropped_eq_empty_iff]
  split_ifs with hun hex
  · simp [hun.2]
  · have hno : un ≠ true := fun h => hun ⟨rfl, h⟩
    constructor
    · exact fun h => .inr (.inr ⟨hex.2, hex.1, h⟩)
    · rintro (hempty | h | ⟨-, -, hdropped⟩)
      · rw [hempty, Artifacts.dropped_empty]
      · exact absurd h hno
      · exact hdropped
  · have hno : un ≠ true := fun h => hun ⟨rfl, h⟩
    constructor
    · exact .inl
    · rintro (hempty | h | ⟨h, hdir, -⟩)
      · exact hempty
      · exact absurd h hno
      · exact absurd ⟨hdir, h⟩ hex

theorem GcSound_iff :
    GcSound cfg c idir opened names calls d ↔
      ∀ key, c.LiveOrCreated key → ∀ dir,
        (pgCuvsGcOrphans cfg c idir opened true names calls d).1.disk dir key = d.disk dir key := by
  constructor
  · rintro h key (hlive | ⟨later, hsettles, hcreated⟩)
    · exact h c.status (fun _ _ => rfl) key (.inl hlive)
    · exact h later hsettles key (.inr hcreated)
  · intro h later hsettles key hindex
    exact h key (hindex.imp id fun hcreated => ⟨later, hsettles, hcreated⟩)

theorem GcCall.unlinksFamily_eq {call : GcCall} (h : call.reopens = true) :
    call.unlinksFamily = true ↔ call.drop ≠ .answered := by
  simp [unlinksFamily, fallsBack, h]

theorem gcCandidates_reopens (hopens : ∀ i, (calls i).reopens = true) {key : Key} {call : GcCall}
    (h : (key, call) ∈ gcCandidates names calls) : call.reopens = true := by
  obtain ⟨p, -, heq⟩ := List.mem_map.mp h
  cases heq
  exact hopens p.2

end Correct

section Sample

def sampleCatalog : Catalog where
  myDatabaseId := 1
  pgClass := fun _ => [⟨2, 7, none⟩]
  pgDatabase := [⟨1, 3, none⟩]
  status := fun x => if x = 3 then .committed else .inProgress
  self := 9
  snapshot := fun x => x == 3
  self_running := rfl
  snapshot_committed := fun x hx => if_pos (by simpa using hx)

def sampleOrphans (files : Artifacts) : Daemon :=
  Daemon.initial (fun _ => 0) (Disk.fresh.modify "index" ⟨1, 2⟩ fun _ => files)

end Sample

end PgCuvs
