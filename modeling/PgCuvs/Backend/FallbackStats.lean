import PgCuvs.Backend.Gates
import PgCuvs.Library.Run
import PgCuvs.Library.SlotTable

/-! The fallback counters: 128 shared slots that plans turned away by a gate write
and `pg_stat_gpu_fallback` reads. -/

namespace PgCuvs

def cuvsFbSlots : ℕ := 128

/-- A slot with index OID 0 is free. -/
structure FbSlot where
  key : Key
  fallbackCount : ℕ
  lastReason : Option FallbackReason
  lastFallbackAt : ℤ
deriving DecidableEq

def FbSlot.zero : FbSlot := ⟨⟨0, 0⟩, 0, none, 0⟩

def cuvsFbReasonName : Option FallbackReason → String
  | some .disabled => "disabled"
  | some .breaker => "circuit_breaker"
  | some .stale => "stale"
  | some .drift => "delete_drift"
  | some .daemonDown => "daemon_down"
  | some .noArtifact => "no_artifact"
  | some .delta => "delta_unusable"
  | some .tombstone => "tombstone_unusable"
  | none => "none"

inductive FbScan where
  | found (i : ℕ)
  | free (i : ℕ)
  | full
deriving DecidableEq

def cuvsFbScan (key : Key) : List FbSlot → ℕ → Option ℕ → FbScan
  | [], _, some i => .free i
  | [], _, none => .full
  | s :: slots, i, freeSlot =>
    if s.key = key then .found i
    else cuvsFbScan key slots (i + 1) (if freeSlot = none ∧ s.key.indexOid = 0 then some i else freeSlot)

def FbScan.write (now : ℤ) (key : Key) (reason : FallbackReason) (slots : List FbSlot) :
    FbScan → List FbSlot
  | .found i => slots.modify i fun s =>
      { s with
        fallbackCount := s.fallbackCount + 1
        lastReason := some reason
        lastFallbackAt := now }
  | .free i => slots.set i ⟨key, 1, some reason, now⟩
  | .full => slots

/-- `none` is a server that did not preload the library. -/
def cuvsFbRecord (now : ℤ) (key : Key) (reason : FallbackReason) (gFb : Option (List FbSlot)) :
    Option (List FbSlot) :=
  gFb.map fun slots => (cuvsFbScan key slots 0 none).write now key reason slots

structure FallbackRow where
  indexrelid : Oid
  fallbackCount : ℕ
  lastReason : String
  lastFallbackAt : Option ℤ
deriving DecidableEq

def FbSlot.row (s : FbSlot) : FallbackRow where
  indexrelid := s.key.indexOid
  fallbackCount := s.fallbackCount
  lastReason := cuvsFbReasonName s.lastReason
  lastFallbackAt := if s.lastFallbackAt = 0 then none else some s.lastFallbackAt

def gpuFallbackStats (db : Oid) (gFb : Option (List FbSlot)) : List FallbackRow :=
  match gFb with
  | none => []
  | some slots =>
    (slots.filter fun s => decide (s.key.indexOid ≠ 0 ∧ s.key.dbOid = db)).map FbSlot.row

/-- What the cost estimate of an index path finds. -/
structure PlanCall where
  key : Key
  ordered : Bool
  guc : Guc
  env : PlanEnv
  files : Artifacts
  now : ℤ

/-- A path without `ORDER BY` is refused before the gates. -/
def PlanCall.reason (c : PlanCall) : Option FallbackReason :=
  if c.ordered then cuvsPlanGate c.guc c.env c.files else none

/-- The part of `cuvsamcostestimate` that records the gate. -/
def PlanCall.step (gFb : Option (List FbSlot)) (c : PlanCall) : Option (List FbSlot) :=
  match c.reason with
  | some reason => cuvsFbRecord c.now c.key reason gFb
  | none => gFb

/-! The slots hold a first-come table. -/

section Table

structure Fallback where
  key : Key
  reason : FallbackReason
  now : ℤ

structure FbCount where
  count : ℕ
  last : Option (FallbackReason × ℤ)

def FbCount.of (L : List Fallback) : FbCount :=
  ⟨L.length, L.getLast?.map fun f => (f.reason, f.now)⟩

def fbRecord : List (Key × FbCount) → Fallback → List (Key × FbCount) :=
  SlotTable.record cuvsFbSlots Fallback.key (fun f => ⟨1, some (f.reason, f.now)⟩)
    fun c f => ⟨c.count + 1, some (f.reason, f.now)⟩

def fbSlot (p : Key × FbCount) : FbSlot where
  key := p.1
  fallbackCount := p.2.count
  lastReason := p.2.last.map Prod.fst
  lastFallbackAt := (p.2.last.map Prod.snd).getD 0

structure FbHolds (t : List (Key × FbCount)) (slots : List FbSlot) : Prop where
  layout : ∃ free, slots = t.map fbSlot ++ free ∧ ∀ s ∈ free, s.key.indexOid = 0
  length_eq : slots.length = cuvsFbSlots
  used : ∀ p ∈ t, p.1.indexOid ≠ 0
  once : (t.map Prod.fst).Nodup

@[simp] theorem fbSlot_key (p : Key × FbCount) : (fbSlot p).key = p.1 := rfl

variable {t : List (Key × FbCount)} {slots free : List FbSlot} {key : Key}

theorem cuvsFbScan_of_mem (hmem : key ∈ t.map Prod.fst) (i : ℕ) (freeSlot : Option ℕ) :
    cuvsFbScan key (t.map fbSlot ++ free) i freeSlot
      = .found (i + (t.map Prod.fst).idxOf key) := by
  induction t generalizing i freeSlot with
  | nil => simp at hmem
  | cons p t ih =>
    rw [List.map_cons, List.cons_append, cuvsFbScan, List.map_cons, fbSlot_key]
    by_cases heq : p.1 = key
    · rw [if_pos heq, heq, List.idxOf_cons_self, Nat.add_zero]
    · rw [if_neg heq, ih ((List.mem_cons.mp hmem).resolve_left fun h => heq h.symm),
        List.idxOf_cons_ne _ heq]
      congr 1
      omega

theorem cuvsFbScan_used (hused : ∀ p ∈ t, p.1.indexOid ≠ 0) (hmem : key ∉ t.map Prod.fst) (i : ℕ)
    (freeSlot : Option ℕ) : cuvsFbScan key (t.map fbSlot ++ free) i freeSlot
      = cuvsFbScan key free (i + t.length) freeSlot := by
  induction t generalizing i with
  | nil => rfl
  | cons p t ih =>
    have hne : p.1 ≠ key := fun h => hmem (h ▸ List.mem_cons_self)
    have hp : p.1.indexOid ≠ 0 := hused p List.mem_cons_self
    rw [List.map_cons, List.cons_append, cuvsFbScan, fbSlot_key, if_neg hne,
      if_neg fun h => hp h.2, ih (fun q hq => hused q (List.mem_cons_of_mem p hq)) fun h =>
        hmem (List.mem_cons_of_mem _ h), List.length_cons]
    congr 1
    omega

theorem cuvsFbScan_free (hfree : ∀ s ∈ free, s.key.indexOid = 0) (hkey : key.indexOid ≠ 0) (i j : ℕ) :
    cuvsFbScan key free i (some j) = .free j := by
  induction free generalizing i with
  | nil => rfl
  | cons s free ih =>
    have hne : s.key ≠ key := by
      rintro rfl
      exact hkey (hfree s List.mem_cons_self)
    rw [cuvsFbScan, if_neg hne, if_neg fun h => Option.some_ne_none j h.1]
    exact ih (fun u hu => hfree u (List.mem_cons_of_mem s hu)) _

theorem cuvsFbScan_spec (key : Key) (slots : List FbSlot) (i : ℕ) (freeSlot : Option ℕ) :
    match cuvsFbScan key slots i freeSlot with
    | .found j => ∃ m, j = i + m ∧ (slots[m]?.map FbSlot.key) = some key
    | .free j => freeSlot = some j ∨
        ∃ m, j = i + m ∧ (slots[m]?.map fun s => s.key.indexOid) = some 0
    | .full => True := by
  induction slots generalizing i freeSlot with
  | nil => cases freeSlot <;> simp [cuvsFbScan]
  | cons s slots ih =>
    rw [cuvsFbScan]
    by_cases heq : s.key = key
    · rw [if_pos heq]
      exact ⟨0, rfl, congrArg some heq⟩
    · rw [if_neg heq]
      have hnext := ih (i + 1) (if freeSlot = none ∧ s.key.indexOid = 0 then some i else freeSlot)
      generalize hr : cuvsFbScan key slots (i + 1) _ = r at hnext ⊢
      cases r with
      | found j =>
        obtain ⟨m, rfl, hm⟩ := hnext
        exact ⟨m + 1, by omega, hm⟩
      | free j =>
        rcases hnext with hfree | ⟨m, rfl, hm⟩
        · by_cases hnew : freeSlot = none ∧ s.key.indexOid = 0
          · rw [if_pos hnew] at hfree
            obtain rfl := Option.some.inj hfree
            exact Or.inr ⟨0, rfl, congrArg some hnew.2⟩
          · rw [if_neg hnew] at hfree
            exact Or.inl hfree
        · exact Or.inr ⟨m + 1, by omega, hm⟩
      | full => trivial

theorem FbHolds.update (h : FbHolds t slots) (hmem : key ∈ t.map Prod.fst)
    {u : FbSlot → FbSlot} {c : FbCount → FbCount} (hu : ∀ p, u (fbSlot p) = fbSlot (p.1, c p.2)) :
    FbHolds (t.map fun p => if p.1 = key then (p.1, c p.2) else p)
      (slots.modify ((t.map Prod.fst).idxOf key) u) := by
  obtain ⟨free, rfl, hfree⟩ := h.layout
  have hkeys : (t.map fun p => if p.1 = key then (p.1, c p.2) else p).map Prod.fst
      = t.map Prod.fst := by
    rw [List.map_map]
    apply List.map_congr_left
    intro p _
    rw [Function.comp_apply]
    split_ifs <;> rfl
  refine ⟨⟨free, ?_, hfree⟩, ?_, ?_, ?_⟩
  · exact SlotTable.modify_idxOf hu hmem h.once free
  · rw [List.length_modify, h.length_eq]
  · intro p hp
    have hp' := List.mem_map_of_mem (f := Prod.fst) hp
    rw [hkeys] at hp'
    obtain ⟨q, hq, hqp⟩ := List.mem_map.mp hp'
    exact hqp ▸ h.used q hq
  · rw [hkeys]
    exact h.once

theorem FbHolds.append {s : FbSlot} (h : FbHolds t (t.map fbSlot ++ s :: free))
    (hfree : ∀ u ∈ free, u.key.indexOid = 0) (hkey : key.indexOid ≠ 0)
    (hmem : key ∉ t.map Prod.fst) (c : FbCount) :
    FbHolds (t ++ [(key, c)]) ((t.map fbSlot ++ s :: free).set t.length (fbSlot (key, c))) := by
  refine ⟨⟨free, ?_, hfree⟩, ?_, ?_, ?_⟩
  · rw [List.set_append_right _ _ (List.length_map ..).le, List.length_map, Nat.sub_self,
      List.map_append, List.append_assoc]
    rfl
  · rw [List.length_set, h.length_eq]
  · intro p hp
    rcases List.mem_append.mp hp with hp | hp
    · exact h.used p hp
    · obtain rfl := List.mem_singleton.mp hp
      exact hkey
  · rw [List.map_append, List.nodup_append]
    refine ⟨h.once, List.nodup_singleton _, ?_⟩
    intro a ha b hb hab
    obtain rfl := List.mem_singleton.mp hb
    exact hmem (hab ▸ ha)

theorem FbHolds.record (h : FbHolds t slots) (f : Fallback) (hkey : f.key.indexOid ≠ 0) :
    FbHolds (fbRecord t f)
      ((cuvsFbScan f.key slots 0 none).write f.now f.key f.reason slots) := by
  rw [fbRecord, SlotTable.record]
  obtain ⟨free, rfl, hfree⟩ := h.layout
  by_cases hmem : f.key ∈ t.map Prod.fst
  · rw [cuvsFbScan_of_mem hmem, Nat.zero_add, if_pos hmem, FbScan.write]
    apply h.update hmem (c := fun c => ⟨c.count + 1, some (f.reason, f.now)⟩)
    intro p
    rfl
  · rw [cuvsFbScan_used h.used hmem, Nat.zero_add, if_neg hmem]
    have hlen := h.length_eq
    rw [List.length_append, List.length_map] at hlen
    cases free with
    | nil =>
      -- Every slot is used, and the fallback is lost.
      have hfull : ¬t.length < cuvsFbSlots := by
        rw [List.length_nil] at hlen
        omega
      rw [if_neg hfull]
      exact h
    | cons s free =>
      have hroom : t.length < cuvsFbSlots := by
        rw [List.length_cons] at hlen
        omega
      have hs : s.key.indexOid = 0 := hfree s List.mem_cons_self
      have hne : s.key ≠ f.key := by
        intro heq
        exact hkey (heq ▸ hs)
      have hrest : ∀ u ∈ free, u.key.indexOid = 0 := fun u hu =>
        hfree u (List.mem_cons_of_mem s hu)
      rw [if_pos hroom, cuvsFbScan, if_neg hne, if_pos ⟨rfl, hs⟩, cuvsFbScan_free hrest hkey]
      exact h.append hrest hkey hmem _

theorem FbHolds.modify_free (h : FbHolds t slots) {m : ℕ} (hle : t.length ≤ m)
    {u : FbSlot → FbSlot} (hu : ∀ s, s.key.indexOid = 0 → (u s).key.indexOid = 0) :
    FbHolds t (slots.modify m u) := by
  obtain ⟨free, rfl, hfree⟩ := h.layout
  obtain ⟨n, rfl⟩ := Nat.exists_eq_add_of_le hle
  have hmodify : (t.map fbSlot ++ free).modify (t.length + n) u
      = t.map fbSlot ++ free.modify n u := by
    have htail := List.modifyTailIdx_add (List.modifyHead u) n (t.map fbSlot) free
    rwa [List.length_map] at htail
  refine ⟨⟨free.modify n u, hmodify, ?_⟩, ?_, h.used, h.once⟩
  · intro s hs
    obtain ⟨i, hi, rfl⟩ := List.mem_iff_getElem.mp hs
    rw [List.getElem_modify]
    split_ifs
    · exact hu _ (hfree _ (List.getElem_mem _))
    · exact hfree _ (List.getElem_mem _)
  · rw [List.length_modify, h.length_eq]

theorem FbHolds.record_invalid (h : FbHolds t slots) (now : ℤ) (reason : FallbackReason)
    (hkey : key.indexOid = 0) :
    FbHolds t ((cuvsFbScan key slots 0 none).write now key reason slots) := by
  have hbehind : ∀ {m}, (slots[m]?.map fun s => s.key.indexOid) = some 0 → t.length ≤ m := by
    obtain ⟨free, rfl, -⟩ := h.layout
    intro m hm
    by_contra hlt
    rw [List.getElem?_append_left (by rw [List.length_map]; omega), List.getElem?_map,
      List.getElem?_eq_getElem (Nat.not_le.mp hlt)] at hm
    exact h.used _ (List.getElem_mem _) (Option.some.inj hm)
  have hspec := cuvsFbScan_spec key slots 0 none
  generalize cuvsFbScan key slots 0 none = scan at hspec ⊢
  cases scan with
  | full => exact h
  | found j =>
    obtain ⟨m, rfl, hm⟩ := hspec
    have hzero := congrArg (Option.map Key.indexOid) hm
    rw [Option.map_map, Option.map_some, hkey] at hzero
    rw [Nat.zero_add]
    apply h.modify_free (hbehind hzero)
    intro s hs
    exact hs
  | free j =>
    obtain ⟨m, rfl, hm⟩ := hspec.resolve_left (Option.some_ne_none j).symm
    rw [Nat.zero_add, FbScan.write, List.set_eq_modify]
    apply h.modify_free (hbehind hm)
    intro _ _
    exact hkey

theorem fbHolds_startup : FbHolds [] (List.replicate cuvsFbSlots FbSlot.zero) where
  layout := by
    refine ⟨List.replicate cuvsFbSlots FbSlot.zero, rfl, ?_⟩
    intro s hs
    rw [List.eq_of_mem_replicate hs]
    rfl
  length_eq := List.length_replicate
  used := by simp
  once := List.nodup_nil

end Table

/-! What the view shows after any plans. -/

def PlanCall.fallback (c : PlanCall) : Option Fallback :=
  if c.key.indexOid = 0 then none else c.reason.map fun reason => ⟨c.key, reason, c.now⟩

def fallbackRow (key : Key) (L : List Fallback) : FallbackRow where
  indexrelid := key.indexOid
  fallbackCount := L.length
  lastReason := cuvsFbReasonName (L.getLast?.map Fallback.reason)
  lastFallbackAt := L.getLast?.bind fun f => if f.now = 0 then none else some f.now

theorem PlanCall.run_holds (cs : List PlanCall) :
    ∃ slots, cs.foldl PlanCall.step (some (List.replicate cuvsFbSlots FbSlot.zero)) = some slots ∧
      FbHolds ((cs.filterMap PlanCall.fallback).foldl fbRecord []) slots := by
  induction cs using List.reverseRecOn with
  | nil => exact ⟨_, rfl, fbHolds_startup⟩
  | append_singleton cs c ih =>
    obtain ⟨slots, hslots, hholds⟩ := ih
    rw [List.foldl_append, hslots, List.filterMap_append, List.foldl_append, List.foldl_cons,
      List.foldl_nil, List.filterMap_cons, List.filterMap_nil, PlanCall.step, PlanCall.fallback]
    cases c.reason with
    | none =>
      refine ⟨slots, rfl, ?_⟩
      by_cases hkey : c.key.indexOid = 0
      · simpa [hkey] using hholds
      · simpa [hkey] using hholds
    | some reason =>
      refine ⟨_, rfl, ?_⟩
      by_cases hkey : c.key.indexOid = 0
      · simpa [hkey] using hholds.record_invalid c.now reason hkey
      · simpa [hkey] using hholds.record ⟨c.key, reason, c.now⟩ hkey

theorem row_fbSlot (key : Key) (L : List Fallback) :
    (fbSlot (key, FbCount.of L)).row = fallbackRow key L := by
  rw [fbSlot, FbSlot.row, fallbackRow, FbCount.of]
  cases L.getLast? with
  | none => rfl
  | some f => rfl

/-- The view of a database lists the indexes that fell back before 128 others did, in the
order in which they first fell back, each with all of its fallbacks and the last one. -/
theorem PlanCall.run_fallbackStats (cs : List PlanCall) (db : Oid) :
    let fallbacks := cs.filterMap PlanCall.fallback
    gpuFallbackStats db
        (cs.foldl PlanCall.step (some (List.replicate cuvsFbSlots FbSlot.zero))) =
      (((fallbacks.map Fallback.key).eraseDups.take 128).filter fun key => key.dbOid = db).map
        fun key => fallbackRow key (fallbacks.filter fun f => f.key = key) := by
  intro fallbacks
  obtain ⟨slots, hslots, hholds⟩ := run_holds cs
  obtain ⟨free, rfl, hfree⟩ := hholds.layout
  have htable : fallbacks.foldl fbRecord []
      = SlotTable.rows cuvsFbSlots Fallback.key FbCount.of fallbacks := by
    apply SlotTable.foldl_record
    · intro f
      rfl
    · intro L f _
      simp [FbCount.of]
  have hused : ∀ p ∈ fallbacks.foldl fbRecord [],
      ((fun s : FbSlot => decide (s.key.indexOid ≠ 0 ∧ s.key.dbOid = db)) ∘ fbSlot) p
        = decide (p.1.dbOid = db) := by
    intro p hp
    apply decide_eq_decide.mpr
    constructor
    · exact And.right
    · intro hdb
      exact ⟨hholds.used p hp, hdb⟩
  have hnone : free.filter (fun s => decide (s.key.indexOid ≠ 0 ∧ s.key.dbOid = db)) = [] := by
    rw [List.filter_eq_nil_iff]
    intro s hs hshown
    exact (of_decide_eq_true hshown).1 (hfree s hs)
  rw [hslots, gpuFallbackStats, List.filter_append, hnone, List.append_nil, List.filter_map,
    List.filter_congr hused, htable, SlotTable.rows, List.filter_map, List.map_map, List.map_map]
  apply List.map_congr_left
  intro key _
  exact row_fbSlot key _

end PgCuvs
