import Mathlib.Logic.Function.Basic
import Mathlib.Data.Nat.Notation
import Mathlib.Data.List.Basic

/-! Build segments with a name: the processes that make them, the daemon that opens them, the
advisory lock, and the reaper. One `SegmentId` stands for one name, which is never used again. -/

namespace PgCuvs

structure SegmentId where
  build : ℕ
  part : ℕ
deriving DecidableEq, Repr

inductive LockHolder where
  | owner
  | reaper (r : ℕ)
deriving DecidableEq, Repr

inductive SegmentOwner where
  | idle
  /-- after `shm_open`, before `flock` -/
  | created
  /-- the descriptor is open, with the lock unless `flock` failed -/
  | scanning (locked : Bool)
  | detached
  /-- it unlinked the segment: an empty share or, when not `ok`, an error -/
  | closed (ok : Bool)
  | died
deriving DecidableEq, Repr

structure ShmSegment where
  owner : SegmentOwner
  linked : Bool
  mtime : ℕ
  holder : Option LockHolder
deriving DecidableEq, Repr

def ShmSegment.release (s : ShmSegment) (holder : LockHolder) : ShmSegment :=
  if s.holder = some holder then { s with holder := none } else s

inductive OwnerEvent where
  | create
  /-- `flock` returns; its result is not looked at -/
  | lock (ok : Bool)
  | resize
  | detach
  | close
  | fail
  | die
deriving DecidableEq, Repr

/-- What its process does to a segment. The kernel releases the lock of a process that dies. -/
def ShmSegment.own (now : ℕ) (s : ShmSegment) (e : OwnerEvent) : ShmSegment :=
  match s.owner, e with
  | .idle, .create => { s with owner := .created, linked := true, mtime := now }
  | .created, .lock true =>
    if s.holder = none then { s with owner := .scanning true, holder := some .owner } else s
  | .created, .lock false => { s with owner := .scanning false }
  | .scanning _, .resize => { s with mtime := now }
  | .scanning _, .detach => { s.release .owner with owner := .detached }
  | .scanning _, .close => { s.release .owner with owner := .closed true, linked := false }
  | .idle, .fail | .created, .fail | .scanning _, .fail =>
    { s.release .owner with owner := .closed false, linked := false }
  | .idle, .die | .created, .die | .scanning _, .die => { s.release .owner with owner := .died }
  | _, _ => s

/-- A serial build has its segment open until after the daemon's reply; the participants of
a parallel build detach theirs, the leader's being the last. -/
inductive BuildKind where
  | serial
  | parallel (nparticipants : ℕ)
deriving DecidableEq, Repr

def BuildKind.parts : BuildKind → ℕ
  | .serial => 1
  | .parallel n => n

inductive BuildPhase where
  | scanning
  /-- the daemon has the names, and has opened the first `opened` -/
  | handed (opened : ℕ)
  /-- the daemon could not open one -/
  | refused
  | over
deriving DecidableEq, Repr

inductive Reaper where
  | idle
  | aged (n : SegmentId)
  | opened (n : SegmentId)
  | locked (n : SegmentId)
  | unlinked (n : SegmentId)
deriving DecidableEq, Repr

structure SharedMemory where
  segs : SegmentId → ShmSegment
  phase : ℕ → BuildPhase
  reapers : ℕ → Reaper
  now : ℕ

inductive BuildEvent where
  | send
  | daemon
  /-- the leader has its reply, or an error, and unlinks every name -/
  | finish
  /-- the daemon is done and the leader is gone -/
  | abandon
deriving DecidableEq, Repr

inductive ShmEvent where
  | tick
  | own (n : SegmentId) (e : OwnerEvent)
  | build (b : ℕ) (e : BuildEvent)
  | look (r : ℕ) (n : SegmentId)
  | reap (r : ℕ)
  | reaperDies (r : ℕ)
deriving DecidableEq, Repr

namespace SharedMemory

open Function

def start : SharedMemory where
  segs _ := ⟨.idle, false, 0, none⟩
  phase _ := .scanning
  reapers _ := .idle
  now := 0

section Steps

variable (kinds : ℕ → BuildKind) (minAge : ℕ) (s : SharedMemory)

def endsBuild (n : SegmentId) (e : OwnerEvent) : Bool :=
  n.part + 1 = (kinds n.build).parts ∧ s.phase n.build = .scanning ∧
    (e = .fail ∨ e = .die ∨ (e = .close ∧ kinds n.build = .serial))

def owns (n : SegmentId) (e : OwnerEvent) : Bool :=
  n.part < (kinds n.build).parts ∧ ¬(e = .detach ∧ kinds n.build = .serial)

def ownStep (n : SegmentId) (e : OwnerEvent) : SharedMemory :=
  if owns kinds n e then
    { s with
      segs := update s.segs n ((s.segs n).own s.now e)
      phase := if endsBuild kinds s n e then update s.phase n.build .over else s.phase }
  else s

def setPhase (b : ℕ) (p : BuildPhase) : SharedMemory := { s with phase := update s.phase b p }

/-- Every participant has come to its end without an error. -/
def scanned (b : ℕ) : Bool :=
  (List.range (kinds b).parts).all fun p =>
    (s.segs ⟨b, p⟩).owner = .detached ∨ (s.segs ⟨b, p⟩).owner = .closed true

def buildStep (b : ℕ) : BuildEvent → SharedMemory
  | .send =>
    if kinds b ≠ .serial ∧ s.phase b = .scanning ∧ scanned kinds s b then
      if (List.range (kinds b).parts).any fun p => (s.segs ⟨b, p⟩).owner = .detached then
        s.setPhase b (.handed 0)
      else s.setPhase b .over
    else s
  | .daemon =>
    match s.phase b with
    | .handed k =>
      if k < (kinds b).parts then
        -- the segments are opened by name, one after the other
        if (s.segs ⟨b, k⟩).owner = .detached ∧ (s.segs ⟨b, k⟩).linked = false then
          s.setPhase b .refused
        else s.setPhase b (.handed (k + 1))
      else s
    | _ => s
  | .finish =>
    match s.phase b with
    | .handed _ | .refused =>
      { s.setPhase b .over with
        segs := fun n => if n.build = b then { s.segs n with linked := false } else s.segs n }
    | _ => s
  | .abandon =>
    match s.phase b with
    | .handed _ | .refused => s.setPhase b .over
    | _ => s

def setReaper (r : ℕ) (x : Reaper) : SharedMemory := { s with reapers := update s.reapers r x }

def setSegment (n : SegmentId) (seg : ShmSegment) : SharedMemory :=
  { s with segs := update s.segs n seg }

def lookStep (r : ℕ) (n : SegmentId) : SharedMemory :=
  if s.reapers r = .idle ∧ (s.segs n).linked ∧ (s.segs n).mtime + minAge ≤ s.now then
    s.setReaper r (.aged n)
  else s

/-- What comes after: `shm_open`, `flock`, `shm_unlink`, `close`. -/
def reapStep (r : ℕ) : SharedMemory :=
  match s.reapers r with
  | .idle => s
  | .aged n => s.setReaper r (if (s.segs n).linked then .opened n else .idle)
  | .opened n =>
    if (s.segs n).holder = none then
      (s.setSegment n { s.segs n with holder := some (.reaper r) }).setReaper r (.locked n)
    else s.setReaper r .idle
  | .locked n => (s.setSegment n { s.segs n with linked := false }).setReaper r (.unlinked n)
  | .unlinked n => (s.setSegment n ((s.segs n).release (.reaper r))).setReaper r .idle

def reaperDies (r : ℕ) : SharedMemory :=
  match s.reapers r with
  | .locked n | .unlinked n =>
    (s.setSegment n ((s.segs n).release (.reaper r))).setReaper r .idle
  | _ => s.setReaper r .idle

def step : ShmEvent → SharedMemory
  | .tick => { s with now := s.now + 1 }
  | .own n e => s.ownStep kinds n e
  | .build b e => s.buildStep kinds b e
  | .look r n => s.lookStep minAge r n
  | .reap r => s.reapStep r
  | .reaperDies r => s.reaperDies r

end Steps

/-- Its creator died before it detached the segment, or the build is over. -/
def Spent (s : SharedMemory) (n : SegmentId) : Prop :=
  (s.segs n).owner = .died ∨ s.phase n.build = .over

/-- A reaper unlinks a segment only when it is spent. -/
def UnlinksSpent (s : SharedMemory) : ShmEvent → Prop
  | .reap r => ∀ n, s.reapers r = .locked n → (s.segs n).linked → s.Spent n
  | _ => True

/-- The build goes on and nobody has the lock for it. -/
def InWindow (s : SharedMemory) (n : SegmentId) : Prop :=
  s.phase n.build ≠ .over ∧
    ((s.segs n).owner = .created ∨ (s.segs n).owner = .scanning false ∨
      (s.segs n).owner = .detached)

/-- A reaper looks at a segment in a window before its age is up, and no segment is detached
between a reaper's look at it and the reaper's `flock`. -/
def Prompt (kinds : ℕ → BuildKind) (minAge : ℕ) (s : SharedMemory) : ShmEvent → Prop
  | .look r n => s.reapers r = .idle → s.InWindow n → s.now < (s.segs n).mtime + minAge
  | .own n .detach =>
    owns kinds n .detach → s.phase n.build ≠ .over → (s.segs n).owner = .scanning true →
      ∀ r, s.reapers r ≠ .aged n ∧ s.reapers r ≠ .opened n
  | _ => True

end SharedMemory

end PgCuvs
