import PgCuvs.Library.Owners
import PgCuvs.Library.Run
import PgCuvs.Lifecycle
import PgCuvs.RegistrySteps

/-! Registrations take over array slots that evictions and drops have vacated, with
whatever the shifted entries left in them. -/

namespace PgCuvs

open Owners

section Constructors

/-- The fields of the slot that a registration does not write are as in a zeroed one. -/
def SlotInit.Clear (slot : IndexEntry) : SlotInit → Prop
  | .loadUnsharded _ _ thdr tids graph _ _ _ =>
    slot.hnswIdx = none ∧ slot.inflight = 0 ∧ slot.nExtended = 0 ∧ slot.compactCount = 0
      ∧ slot.lastCompactAt = 0 ∧ slot.lastSearchMode = .gpuCagra
      ∧ (graph.isRight → slot.ivfpqVramBytes = 0)
      ∧ (tids = [] ∨ thdr.nVecs = 0 → slot.revTids = none ∧ slot.revItemIds = none)
  | .build .. => slot.inflight = 0
  | .ivfpq _ _ tids _ _ _ =>
    slot.inflight = 0 ∧ slot.nExtended = 0 ∧ slot.compactCount = 0 ∧ slot.lastCompactAt = 0
      ∧ (tids = [] → slot.revTids = none ∧ slot.revItemIds = none)
  | .loadSharded .. | .loadFlat .. | .sharded .. | .flat .. => True

instance (c : SlotInit) (slot : IndexEntry) : Decidable (c.Clear slot) := by
  cases c <;> unfold SlotInit.Clear <;> infer_instance

theorem SlotInit.apply_eq_iff (c : SlotInit) (slot : IndexEntry) :
    c.apply slot = c.apply IndexEntry.zero ↔ c.Clear slot := by
  cases c with
  | loadSharded | sharded => exact iff_of_true rfl trivial
  | loadFlat env key thdr tids gpu a =>
    refine iff_of_true ?_ trivial
    by_cases hempty : tids = [] ∨ thdr.nVecs = 0 <;>
      simp [SlotInit.apply, initFlat, buildRevTidMap, restoreStale_eq, hempty, clearMainBfFields,
        clearDeltaFields, resetEntryStats]
  | flat now frame tids gpu =>
    refine iff_of_true ?_ trivial
    by_cases hempty : tids = [] <;>
      simp [SlotInit.apply, initFlatBuild, buildRevTidMap, hempty, clearMainBfFields,
        clearDeltaFields, resetEntryStats]
  | build now t graph =>
    by_cases hempty : t.corpus.tids = [] <;>
      simp [SlotInit.apply, SlotInit.Clear, initBuild, buildRevTidMap, hempty, clearMainBfFields,
        clearDeltaFields, resetEntryStats, IndexEntry.zero]
  | ivfpq now frame tids codes needed gpu =>
    by_cases hempty : tids = [] <;>
      simp [SlotInit.apply, SlotInit.Clear, initIvfpq, buildRevTidMap, hempty, clearMainBfFields,
        clearDeltaFields, resetEntryStats, IndexEntry.zero]
    all_goals grind
  | loadUnsharded env key thdr tids graph needed gpu a =>
    by_cases hempty : tids = [] ∨ thdr.nVecs = 0 <;> cases graph <;>
      (simp [SlotInit.apply, SlotInit.Clear, initUnsharded, buildRevTidMap, restoreStale_eq, hempty,
        clearMainBfFields, clearDeltaFields, resetEntryStats, IndexEntry.zero]; grind)

inductive Pointer where
  | graph
  | tids
  | shards
  | deltaIdx
  | deltaTids
  | deltaVecs
  | mainBf
  | revTids
  | revItemIds
  | hnsw
  | ivfpq
deriving DecidableEq

@[reducible] def Pointer.Object : Pointer → Type
  | .graph => Cagra
  | .tids | .deltaTids | .revTids => List Tid
  | .shards => List ShardEntry
  | .deltaIdx | .mainBf => BfIndex
  | .deltaVecs => List Vec
  | .revItemIds => List ℤ
  | .hnsw => Hnsw
  | .ivfpq => IvfPq

def IndexEntry.object (e : IndexEntry) : (p : Pointer) → Option p.Object
  | .graph => e.handle
  | .tids => some e.tids
  | .shards => if 2 ≤ e.shardCount then some e.shards else none
  | .deltaIdx => e.deltaIdx
  | .deltaTids => e.deltaTids
  | .deltaVecs => e.deltaVecsHost
  | .mainBf => e.mainBfIdx
  | .revTids => e.revTids
  | .revItemIds => e.revItemIds
  | .hnsw => e.hnswIdx
  | .ivfpq => e.ivfpqHandle

def SlotInit.Inherits : SlotInit → Pointer → Prop
  | .loadUnsharded .., .hnsw => True
  | .loadUnsharded _ _ thdr tids _ _ _ _, .revTids
  | .loadUnsharded _ _ thdr tids _ _ _ _, .revItemIds => tids = [] ∨ thdr.nVecs = 0
  | .ivfpq _ _ tids _ _ _, .revTids | .ivfpq _ _ tids _ _ _, .revItemIds => tids = []
  | _, _ => False

instance (c : SlotInit) (p : Pointer) : Decidable (c.Inherits p) := by
  cases c <;> cases p <;> unfold SlotInit.Inherits <;> infer_instance

theorem SlotInit.object_apply (c : SlotInit) (slot : IndexEntry) (p : Pointer) :
    (c.apply slot).object p
      = if c.Inherits p then slot.object p else (c.apply IndexEntry.zero).object p := by
  cases c with
  | loadSharded | sharded => cases p <;> rfl
  | loadFlat env key thdr tids gpu a =>
    rw [if_neg (by cases p <;> exact id),
      ((SlotInit.loadFlat env key thdr tids gpu a).apply_eq_iff slot).mpr trivial]
  | flat now frame tids gpu =>
    rw [if_neg (by cases p <;> exact id),
      ((SlotInit.flat now frame tids gpu).apply_eq_iff slot).mpr trivial]
  | build now t graph =>
    by_cases hempty : t.corpus.tids = [] <;> cases p <;>
      simp [SlotInit.apply, SlotInit.Inherits, IndexEntry.object, initBuild, buildRevTidMap, hempty,
        clearMainBfFields, clearDeltaFields, resetEntryStats, IndexEntry.zero]
  | ivfpq now frame tids codes needed gpu =>
    by_cases hempty : tids = [] <;> cases p <;>
      simp [SlotInit.apply, SlotInit.Inherits, IndexEntry.object, initIvfpq, buildRevTidMap, hempty,
        clearMainBfFields, clearDeltaFields, resetEntryStats, IndexEntry.zero]
  | loadUnsharded env key thdr tids graph needed gpu a =>
    by_cases hempty : tids = [] ∨ thdr.nVecs = 0 <;> cases p <;>
      simp [SlotInit.apply, SlotInit.Inherits, IndexEntry.object, initUnsharded, buildRevTidMap,
        restoreStale_eq, hempty, clearMainBfFields, clearDeltaFields, resetEntryStats,
        IndexEntry.zero]

theorem SlotInit.Clear.object_eq_none {c : SlotInit} {slot : IndexEntry} {p : Pointer}
    (h : c.Clear slot) (hp : c.Inherits p) : slot.object p = none := by
  cases c with
  | loadUnsharded env key thdr tids graph needed gpu a =>
    obtain ⟨hhnsw, -, -, -, -, -, -, hrev⟩ := h
    cases p with
    | hnsw => exact hhnsw
    | revTids => exact (hrev hp).1
    | revItemIds => exact (hrev hp).2
    | _ => exact hp.elim
  | ivfpq now frame tids codes needed gpu =>
    obtain ⟨-, -, -, -, hrev⟩ := h
    cases p with
    | revTids => exact (hrev hp).1
    | revItemIds => exact (hrev hp).2
    | _ => exact hp.elim
  | _ => cases p <;> exact hp.elim

end Constructors

section Array

/-- A slot, and the step each of its objects is from. -/
structure Slot where
  entry : IndexEntry
  owner : Owner Pointer

/-- `g_indexes` with the operations done so far. -/
structure SlotArray where
  live : List Slot
  tail : List Slot
  clock : ℕ

def SlotArray.registry (s : SlotArray) : Registry :=
  ⟨s.live.map Slot.entry, s.tail.map Slot.entry⟩

def SlotArray.empty : SlotArray := ⟨[], [], 0⟩

/-- Content the slot gets in step `n`. A pointer in `keeps` stays the one it was; any
other is NULL or new. -/
def Slot.write (n : ℕ) (slot : Slot) (keeps : Pointer → Bool) (e : IndexEntry) : Slot where
  entry := e
  owner p :=
    if (e.object p).isNone then none
    else (if keeps p then slot.owner p else none).or (some n)

/-- What is done to the array: registrations, evictions, drops, and everything that
works on one entry in place. -/
inductive SlotOp where
  | create (c : SlotInit)
  | evict (i : ℕ)
  | drop (i : ℕ)
  | rewrite (i : ℕ) (keeps : Pointer → Bool) (e : IndexEntry)
  | restart

def SlotArray.freeSlot (s : SlotArray) : Slot := s.tail.headD ⟨IndexEntry.zero, fun _ => none⟩

def SlotArray.remove (s : SlotArray) (i : ℕ) (free : IndexEntry → IndexEntry) : SlotArray :=
  match s.live[i]? with
  | some slot =>
    { live := s.live.eraseIdx i
      tail := (s.live.set i (slot.write s.clock (fun _ => true) (free slot.entry))).getLast?.toList
        ++ s.tail
      clock := s.clock + 1 }
  | none => s

def SlotArray.step (s : SlotArray) : SlotOp → SlotArray
  | .create c =>
    { live := s.live ++ [s.freeSlot.write s.clock (fun p => decide (c.Inherits p))
        (c.apply s.freeSlot.entry)]
      tail := s.tail.tail
      clock := s.clock + 1 }
  | .evict i => s.remove i freeEvicted
  | .drop i => s.remove i freeDropped
  | .rewrite i keeps e =>
    match s.live[i]? with
    | some slot => { s with live := s.live.set i (slot.write s.clock keeps e), clock := s.clock + 1 }
    | none => s
  | .restart => { live := [], tail := [], clock := s.clock + 1 }

/-- No object is owned by two valid entries. -/
def SlotArray.OwnedOnce (s : SlotArray) : Prop := (s.live.map Slot.owner).Pairwise Apart

/-- What the operation registers is what it would register in a zeroed slot. -/
def SlotArray.Independent (s : SlotArray) (op : SlotOp) : Prop :=
  ∀ c, op = .create c → c.apply s.freeSlot.entry = c.apply IndexEntry.zero

def SlotArray.TakesClear (s : SlotArray) (op : SlotOp) : Prop :=
  ∀ c, op = .create c → c.Clear s.freeSlot.entry

variable {s : SlotArray} {slot : Slot} {n : ℕ}

theorem Slot.write_renews (slot : Slot) (keeps : Pointer → Bool) (e : IndexEntry) :
    Renews n slot.owner (slot.write n keeps e).owner := by
  intro p
  simp only [Slot.write]
  split_ifs
  · exact .inl rfl
  · cases h : slot.owner p with
    | none => exact .inr (.inr rfl)
    | some m => exact .inr (.inl rfl)
  · exact .inr (.inr rfl)

def Slot.Sound (n : ℕ) (slot : Slot) : Prop :=
  Before n slot.owner ∧ ∀ p, slot.entry.object p = none → slot.owner p = none

theorem Slot.Sound.mono {m : ℕ} (h : slot.Sound n) (hnm : n ≤ m) : slot.Sound m :=
  ⟨h.1.mono hnm, h.2⟩

theorem Slot.Sound.write {keeps : Pointer → Bool} {e : IndexEntry} (h : slot.Sound n) :
    (slot.write n keeps e).Sound (n + 1) := by
  refine ⟨(Slot.write_renews _ _ _).before h.1, ?_⟩
  intro p hp
  simp only [Slot.write] at hp ⊢
  rw [hp]
  rfl

structure SlotArray.Invariant (s : SlotArray) : Prop where
  once : s.OwnedOnce
  live : ∀ slot ∈ s.live, slot.Sound s.clock
  tail : ∀ slot ∈ s.tail, slot.Sound s.clock

theorem SlotArray.Invariant.before (h : s.Invariant) : ∀ o ∈ s.live.map Slot.owner, Before s.clock o := by
  intro o ho
  obtain ⟨slot, hslot, rfl⟩ := List.mem_map.mp ho
  exact (h.live slot hslot).1

theorem SlotArray.Invariant.freeSlot (h : s.Invariant) : s.freeSlot.Sound s.clock := by
  unfold SlotArray.freeSlot
  cases htail : s.tail with
  | nil => exact ⟨fun _ _ h => (nomatch h), fun _ _ => rfl⟩
  | cons slot rest => exact h.tail slot (htail ▸ List.mem_cons_self)

theorem SlotArray.Invariant.create {c : SlotInit} (h : s.Invariant)
    (hclear : c.Clear s.freeSlot.entry) : (s.step (.create c)).Invariant where
  once := by
    have hrenews : Renews s.clock (fun _ => none) (s.freeSlot.write s.clock
        (fun p => decide (c.Inherits p)) (c.apply s.freeSlot.entry)).owner := by
      intro p
      have hkeep : (if decide (c.Inherits p) = true then s.freeSlot.owner p else none) = none := by
        split_ifs with hp
        · exact h.freeSlot.2 p (hclear.object_eq_none (of_decide_eq_true hp))
        · rfl
      simp only [Slot.write, hkeep]
      split_ifs
      · exact .inl rfl
      · exact .inr (.inr rfl)
    have happend := pairwise_append h.once h.before hrenews
    simpa only [SlotArray.OwnedOnce, SlotArray.step, List.map_append, List.map_singleton] using happend
  live := by
    intro slot hslot
    rcases List.mem_append.mp hslot with hold | hnew
    · exact (h.live slot hold).mono (Nat.le_succ _)
    · obtain rfl := List.mem_singleton.mp hnew
      exact h.freeSlot.write
  tail := fun slot hslot => (h.tail slot (List.mem_of_mem_tail hslot)).mono (Nat.le_succ _)

theorem SlotArray.Invariant.remove (h : s.Invariant) (i : ℕ) (free : IndexEntry → IndexEntry) :
    (s.remove i free).Invariant := by
  unfold SlotArray.remove
  cases hi : s.live[i]? with
  | none => exact h
  | some slot =>
    refine ⟨?_, ?_, ?_⟩
    · have hsub : (s.live.eraseIdx i).Sublist s.live := List.eraseIdx_sublist ..
      exact List.Pairwise.sublist (hsub.map Slot.owner) h.once
    · exact fun x hx => (h.live x (List.mem_of_mem_eraseIdx hx)).mono (Nat.le_succ _)
    · intro x hx
      rcases List.mem_append.mp hx with hlast | hold
      · rcases List.mem_or_eq_of_mem_set (List.mem_of_getLast? (Option.mem_toList.mp hlast))
          with hlive | rfl
        · exact (h.live x hlive).mono (Nat.le_succ _)
        · exact (h.live slot (List.mem_of_getElem? hi)).write
      · exact (h.tail x hold).mono (Nat.le_succ _)

theorem SlotArray.Invariant.step {op : SlotOp} (h : s.Invariant) (hop : s.TakesClear op) :
    (s.step op).Invariant := by
  cases op with
  | create c => exact h.create (hop c rfl)
  | evict i => exact h.remove i freeEvicted
  | drop i => exact h.remove i freeDropped
  | rewrite i keeps e =>
    simp only [SlotArray.step]
    cases hi : s.live[i]? with
    | none => exact h
    | some slot =>
      refine ⟨?_, ?_, fun x hx => (h.tail x hx).mono (Nat.le_succ _)⟩
      · have howner : (s.live.map Slot.owner)[i]? = some slot.owner := by
          rw [List.getElem?_map, hi]
          rfl
        have hset := pairwise_set h.once h.before howner
          (Slot.write_renews slot keeps e)
        rwa [← List.map_set] at hset
      · intro x hx
        rcases List.mem_or_eq_of_mem_set hx with hold | rfl
        · exact (h.live x hold).mono (Nat.le_succ _)
        · exact (h.live slot (List.mem_of_getElem? hi)).write
  | restart => exact ⟨List.Pairwise.nil, fun _ hx => (nomatch hx), fun _ hx => (nomatch hx)⟩

theorem SlotArray.independent_iff {op : SlotOp} : s.Independent op ↔ s.TakesClear op :=
  forall₂_congr fun c _ => c.apply_eq_iff s.freeSlot.entry

/-- The registrations of a run are independent of their slots, and no object ever has two
owners, exactly when the slots taken are clear. -/
theorem along_iff_takesClear (ops : List SlotOp) :
    Run.Along SlotArray.step
        (fun s op => s.Independent op ∧ (s.step op).OwnedOnce) SlotArray.empty ops
      ↔ Run.Along SlotArray.step SlotArray.TakesClear SlotArray.empty ops := by
  refine Run.along_iff SlotArray.Invariant (fun _ _ h hop => h.step hop) ?_ ?_
  · intro s op h
    refine ⟨fun hboth => SlotArray.independent_iff.mp hboth.1, fun hop => ?_⟩
    exact ⟨SlotArray.independent_iff.mpr hop, (h.step hop).once⟩
  · exact ⟨List.Pairwise.nil, fun _ hx => (nomatch hx), fun _ hx => (nomatch hx)⟩

end Array

section Runs

variable {s : SlotArray} {r r' r'' : Registry} {restarts : Prop} {own : RegistryAction}
  {ops ops' : List SlotOp}

/-- One change that a step of the daemon makes to the registry, as a slot operation: `own` is
what the request itself does, and only a step that `restarts` empties the registry. Which
objects an entry keeps when it is written in place is left open. -/
inductive SlotStep (restarts : Prop) (own : RegistryAction) : Registry → SlotOp → Registry → Prop
  | store {r : Registry} {i : ℕ} {e e' : IndexEntry} {a : Artifacts} (keeps : Pointer → Bool)
      (hi : r.live[i]? = some e) (h : EntryMove True a e e') :
      SlotStep restarts own r (.rewrite i keeps e') (r.set i e')
  | note {r : Registry} {i now durationMs : ℕ} {e : IndexEntry} {c : Option ColdIndexEntry}
      (keeps : Pointer → Bool) (hi : r.live[i]? = some e) :
      SlotStep restarts own r (.rewrite i keeps (noteHydrated now durationMs c e))
        (r.set i (noteHydrated now durationMs c e))
  | evict {r : Registry} {i device : ℕ} {e : IndexEntry} (hi : r.live[i]? = some e)
      (hdev : evictable e device) : SlotStep restarts own r (.evict i) (r.removeIdx i (freeEvicted e))
  | load {r : Registry} {c : SlotInit} (hc : ∃ a, c.Reads a) :
      SlotStep restarts own r (.create c) (r.append c.apply)
  | replace {r : Registry} {i : ℕ} {e : IndexEntry} {w : EntryWrite} (keeps : Pointer → Bool)
      (hown : own = .replace i w) (hi : r.live[i]? = some e) :
      SlotStep restarts own r (.rewrite i keeps (w.apply e)) (r.set i (w.apply e))
  | register {r : Registry} {c : SlotInit} (hown : own = .register c) :
      SlotStep restarts own r (.create c) (r.append c.apply)
  | remove {r : Registry} {i : ℕ} {e : IndexEntry} (hown : own = .remove i)
      (hi : r.live[i]? = some e) : SlotStep restarts own r (.drop i) (r.removeIdx i (freeDropped e))
  | restart {r : Registry} (hrestart : restarts) : SlotStep restarts own r .restart ⟨[], []⟩

inductive SlotTrace (restarts : Prop) (own : RegistryAction) :
    Registry → List SlotOp → Registry → Prop
  | nil (r : Registry) : SlotTrace restarts own r [] r
  | cons {r r' r'' : Registry} {op : SlotOp} {ops : List SlotOp}
      (hstep : SlotStep restarts own r op r') (hrest : SlotTrace restarts own r' ops r'') :
      SlotTrace restarts own r (op :: ops) r''

theorem SlotStep.trace {op : SlotOp} (h : SlotStep restarts own r op r') :
    SlotTrace restarts own r [op] r' :=
  .cons h (.nil r')

theorem SlotTrace.append (h : SlotTrace restarts own r ops r')
    (h' : SlotTrace restarts own r' ops' r'') : SlotTrace restarts own r (ops ++ ops') r'' := by
  induction h with
  | nil => exact h'
  | cons hstep _ ih => exact .cons hstep (ih h')

section Registry

theorem SlotArray.freeSlot_entry : s.freeSlot.entry = s.registry.tail.headD IndexEntry.zero := by
  unfold SlotArray.freeSlot SlotArray.registry
  cases s.tail <;> rfl

theorem SlotArray.create_registry (c : SlotInit) :
    (s.step (.create c)).registry = s.registry.append c.apply := by
  rw [Registry.append, ← SlotArray.freeSlot_entry]
  simp [SlotArray.registry, SlotArray.step, Slot.write]

theorem SlotArray.remove_registry {i : ℕ} {e : IndexEntry} (free : IndexEntry → IndexEntry)
    (hi : s.registry.live[i]? = some e) :
    (s.remove i free).registry = s.registry.removeIdx i (free e) := by
  simp only [SlotArray.registry, List.getElem?_map, Option.map_eq_some_iff] at hi
  obtain ⟨slot, hslot, rfl⟩ := hi
  have hlast : ∀ l : List Slot, l.getLast?.toList.map Slot.entry = (l.map Slot.entry).getLast?.toList := by
    intro l
    rw [List.getLast?_map]
    cases l.getLast? <;> rfl
  simp only [SlotArray.remove, hslot, SlotArray.registry, Registry.removeIdx, List.map_append,
    List.eraseIdx_map, hlast, List.map_set, Slot.write]

theorem SlotArray.rewrite_registry {i : ℕ} {e e' : IndexEntry} (keeps : Pointer → Bool)
    (hi : s.registry.live[i]? = some e) :
    (s.step (.rewrite i keeps e')).registry = s.registry.set i e' := by
  simp only [SlotArray.registry, List.getElem?_map, Option.map_eq_some_iff] at hi
  obtain ⟨slot, hslot, rfl⟩ := hi
  simp only [SlotArray.step, hslot, SlotArray.registry, Registry.set, List.map_set, Slot.write]

/-- The array does what the registry does. -/
theorem SlotStep.registry {op : SlotOp} (h : SlotStep restarts own r op r')
    (hs : s.registry = r) : (s.step op).registry = r' := by
  subst hs
  cases h with
  | store keeps hi | note keeps hi | replace keeps _ hi => exact SlotArray.rewrite_registry keeps hi
  | evict hi => exact SlotArray.remove_registry freeEvicted hi
  | remove _ hi => exact SlotArray.remove_registry freeDropped hi
  | load | register => exact SlotArray.create_registry _
  | restart => rfl

theorem SlotTrace.registry (h : SlotTrace restarts own r ops r') (hs : s.registry = r) :
    (Run.run SlotArray.step s ops).registry = r' := by
  induction h generalizing s with
  | nil => exact hs
  | cons hstep _ ih => exact ih (hstep.registry hs)

end Registry

section Steps

theorem ServingSteps.traced (own : RegistryAction) (h : ServingSteps restarts r r') :
    ∃ ops, SlotTrace restarts own r ops r' := by
  induction h with
  | refl => exact ⟨[], .nil _⟩
  | tail _ hstep ih =>
    obtain ⟨ops, hops⟩ := ih
    cases hstep with
    | entry hi hmove => exact ⟨_, hops.append (SlotStep.store (fun _ => true) hi hmove).trace⟩
    | evict hi hdev => exact ⟨_, hops.append (SlotStep.evict hi hdev).trace⟩
    | load hc => exact ⟨_, hops.append (SlotStep.load hc.1).trace⟩
    | restart hrestart => exact ⟨_, hops.append (SlotStep.restart hrestart).trace⟩

theorem RegistryAction.traced (hfits : own.Fits r) :
    ∃ ops, SlotTrace restarts own r ops (r.act own) := by
  cases own with
  | keep => exact ⟨[], .nil r⟩
  | replace i w =>
    obtain ⟨e, hi, -⟩ := hfits
    simp only [Registry.act, hi]
    exact ⟨_, (SlotStep.replace (fun _ => true) rfl hi).trace⟩
  | register c => exact ⟨_, (SlotStep.register rfl).trace⟩
  | remove i =>
    obtain ⟨e, hi⟩ := hfits
    simp only [Registry.act, hi]
    exact ⟨_, (SlotStep.remove rfl hi).trace⟩

theorem loadIndex_traced (cfg : Config) (env : Env) (d : Daemon) (key : Key) :
    ∃ ops, SlotTrace restarts own d.registry ops (loadIndex cfg env d key).1.registry := by
  obtain ⟨d1, hevict, heq | ⟨c, hreads, -, -, heq⟩⟩ := loadIndex_any cfg env d key
  · rw [heq]
    exact hevict.serving.traced own
  · rw [heq]
    obtain ⟨ops, hops⟩ := hevict.serving.traced own
    exact ⟨_, hops.append (SlotStep.load ⟨_, hreads⟩).trace⟩

variable {D : Type} [LT D] [DecidableLT D]

def LifeEvent.action (cfg : Config) (s : Server) : LifeEvent D → RegistryAction
  | .serve r => (r.effect cfg s).action
  | _ => .keep

def LifeEvent.Restarts : LifeEvent D → Prop
  | .serve r => r = .restart
  | .startup _ _ => True
  | _ => False

abbrev LifeTrace (cfg : Config) (s : Server) (ev : LifeEvent D) (ops : List SlotOp) : Prop :=
  SlotTrace ev.Restarts (ev.action cfg s) s.daemon.registry ops (s.lifeStep cfg ev).daemon.registry

theorem Server.lifeStep_traced (cfg : Config) (s : Server) (ev : LifeEvent D) :
    ∃ ops, LifeTrace cfg s ev ops := by
  have htrans : ∀ {own : RegistryAction} {restarts : Prop} {r r' r'' : Registry},
      (∃ ops, SlotTrace restarts own r ops r') → (∃ ops, SlotTrace restarts own r' ops r'') →
      ∃ ops, SlotTrace restarts own r ops r'' := by
    rintro own restarts r r' r'' ⟨ops, h⟩ ⟨ops', h'⟩
    exact ⟨_, h.append h'⟩
  cases ev with
  | serve r =>
    have hspec := r.registrySpec cfg s
    exact htrans (hspec.serving.traced _) (RegistryAction.traced hspec.fits)
  | startup env names =>
    refine startupLoadIndexes_induct
      (P := fun r => ∃ ops, SlotTrace True .keep s.daemon.registry ops r.1) names ?_ ?_
    · exact fun d key h => htrans h (loadIndex_traced cfg env d key)
    · exact ⟨_, (SlotStep.restart trivial).trace⟩
  | download key files =>
    simp only [LifeTrace, Server.lifeStep]
    rw [setColdState_registry]
    exact ⟨[], .nil _⟩
  | hydrate env key durationMs =>
    refine hydrate_induct (P := fun r => ∃ ops, SlotTrace False .keep s.daemon.registry ops r.1) key
      durationMs ?_ ?_ ⟨[], .nil _⟩
    · exact fun d key h => htrans h (loadIndex_traced cfg env d key)
    · exact fun reg disk i e c h hi => htrans h ⟨_, (SlotStep.note (fun _ => true) hi).trace⟩
  | hydrated key => exact ⟨[], .nil _⟩

/-- Slot operations of a run of the daemon, step by step. -/
inductive RunTrace (cfg : Config) : Server → List (LifeEvent D) → List SlotOp → Prop
  | nil (s : Server) : RunTrace cfg s [] []
  | cons {s : Server} {ev : LifeEvent D} {evs : List (LifeEvent D)} {ops ops' : List SlotOp}
      (hstep : LifeTrace cfg s ev ops) (hrest : RunTrace cfg (s.lifeStep cfg ev) evs ops') :
      RunTrace cfg s (ev :: evs) (ops ++ ops')

theorem Server.exists_runTrace (cfg : Config) (s : Server) (evs : List (LifeEvent D)) :
    ∃ ops, RunTrace cfg s evs ops := by
  induction evs generalizing s with
  | nil => exact ⟨[], .nil s⟩
  | cons ev evs ih =>
    obtain ⟨ops, hops⟩ := s.lifeStep_traced cfg ev
    obtain ⟨ops', hops'⟩ := ih (s.lifeStep cfg ev)
    exact ⟨_, .cons hops hops'⟩

theorem RunTrace.registry {cfg : Config} {server : Server} {evs : List (LifeEvent D)}
    (h : RunTrace cfg server evs ops) (hs : s.registry = server.daemon.registry) :
    (Run.run SlotArray.step s ops).registry
      = (Run.run (Server.lifeStep cfg) server evs).daemon.registry := by
  induction h generalizing s with
  | nil => exact hs
  | cons hstep _ ih =>
    rw [Run.run_append]
    exact ih (hstep.registry hs)

/-- Every run of the daemon is a run of slot operations that ends in its registry; along it the
registrations are independent of their slots and no object ever has two owners exactly when
the slots taken are clear. -/
theorem slot_reuse_iff (cfg : Config) (maxVram : ℕ → ℕ) (disk : Disk) (evs : List (LifeEvent D)) :
    (∃ ops, RunTrace cfg (Server.initial maxVram disk) evs ops) ∧
    ∀ ops, RunTrace cfg (Server.initial maxVram disk) evs ops →
      (Run.run SlotArray.step SlotArray.empty ops).registry
        = (Run.run (Server.lifeStep cfg) (Server.initial maxVram disk) evs).daemon.registry ∧
      (Run.Along SlotArray.step (fun s op => s.Independent op ∧ (s.step op).OwnedOnce)
          SlotArray.empty ops
        ↔ Run.Along SlotArray.step SlotArray.TakesClear SlotArray.empty ops) :=
  ⟨Server.exists_runTrace cfg _ evs, fun _ h => ⟨h.registry rfl, along_iff_takesClear _⟩⟩

end Steps

end Runs

section Sample

def sampleShifted : List (LifeEvent ℕ) :=
  [.serve (.ivfpq (Env.quiet 9 100000) (BuildEnv.quiet []) (sampleIndexBuild ⟨1, 3⟩ 2)
    (sampleInput 101 10)),
   .serve (.build (Env.quiet 9 100000) (BuildEnv.quiet [])
    { sampleIndexBuild ⟨1, 2⟩ 16 with useCpuHnsw := true } (sampleInput 101 10)),
   .serve (.buildEnd (Env.quiet 9 100000) (BuildEnv.quiet []) 0 (.built [])),
   .serve (.search (Env.quiet 9 100000) (SearchEnv.plain [0]) sampleDeltaKernels
    { sampleFrame with useCpuHnsw := true }),
   .serve (.drop ⟨1, 3⟩),
   .download ⟨1, 4⟩ sampleIndexFiles]

def sampleReload : LifeEvent ℕ :=
  .serve (.search (Env.quiet 9 100000) (SearchEnv.plain [0]) sampleDeltaKernels
    { sampleFrame with key := ⟨1, 4⟩ })

/-- The daemon with its vacated slots zeroed. -/
def Server.zeroTail (s : Server) : Server :=
  { s with daemon := { s.daemon with registry := ⟨s.daemon.registry.live, []⟩ } }

/-- After DROP of the first index the third one takes over the CPU graph of the second. -/
theorem slot_reuse_inherits :
    ¬∀ (cfg : Config) (maxVram : ℕ → ℕ) (disk : Disk) (evs : List (LifeEvent ℕ)) (ev : LifeEvent ℕ),
      let s := Run.run (Server.lifeStep cfg) (Server.initial maxVram disk) evs
      (s.lifeStep cfg ev).daemon.live = (s.zeroTail.lifeStep cfg ev).daemon.live := by
  intro h
  have hlive := congrArg (List.map IndexEntry.hnswIdx)
    (h sampleConfig (fun _ => 0) Disk.fresh sampleShifted sampleReload)
  have hshared : ((Run.run (Server.lifeStep sampleConfig) (Server.initial (fun _ => 0) Disk.fresh)
      sampleShifted).lifeStep sampleConfig sampleReload).daemon.live.map IndexEntry.hnswIdx
        = [some ⟨[], sampleVecs 10 16⟩, some ⟨[], sampleVecs 10 16⟩] := by decide +kernel
  have hzero : ((Run.run (Server.lifeStep sampleConfig) (Server.initial (fun _ => 0) Disk.fresh)
      sampleShifted).zeroTail.lifeStep sampleConfig sampleReload).daemon.live.map
        IndexEntry.hnswIdx = [some ⟨[], sampleVecs 10 16⟩, none] := by decide +kernel
  rw [hshared, hzero] at hlive
  exact absurd hlive (by decide)

end Sample

end PgCuvs
