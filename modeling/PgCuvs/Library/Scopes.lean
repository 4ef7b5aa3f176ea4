import Mathlib.Data.List.Nodup

/-! Nested scopes that end in a commit or an abort, and a log of items each of which
belongs to a scope: a commit hands the items of a scope to its parent, an abort drops
them. -/

namespace Scopes

variable {ι α : Type*}

/-- What runs inside a scope, in order. -/
inductive Body (ι α : Type*) where
  | done
  | item (a : α) (rest : Body ι α)
  | scope (id : ι) (committed : Bool) (inner rest : Body ι α)

/-- What a log sees of a body: items in the scope they are in, and the ends of scopes. -/
inductive Event (ι α : Type*) where
  | item (id : ι) (a : α)
  | commit (id parent : ι)
  | abort (id parent : ι)

namespace Body

def ids : Body ι α → List ι
  | done => []
  | item _ rest => rest.ids
  | scope id _ inner rest => id :: (inner.ids ++ rest.ids)

/-- Every item with the outcomes of the scopes around it. -/
def outcomes : Body ι α → List (List Bool × α)
  | done => []
  | item a rest => ([], a) :: rest.outcomes
  | scope _ committed inner rest =>
    (inner.outcomes.map fun p => (committed :: p.1, p.2)) ++ rest.outcomes

/-- The items all of whose enclosing scopes committed. -/
def survivors (b : Body ι α) : List α := (b.outcomes.filter fun p => p.1.all id).map Prod.snd

def trace (cur : ι) : Body ι α → List (Event ι α)
  | done => []
  | item a rest => .item cur a :: rest.trace cur
  | scope id committed inner rest =>
    inner.trace id ++ (if committed then .commit id cur else .abort id cur) :: rest.trace cur

@[simp] theorem survivors_done : (done : Body ι α).survivors = [] := rfl

@[simp] theorem survivors_item (a : α) (rest : Body ι α) :
    (item a rest).survivors = a :: rest.survivors := rfl

theorem survivors_scope (id : ι) (committed : Bool) (inner rest : Body ι α) :
    (scope id committed inner rest).survivors
      = (if committed then inner.survivors else []) ++ rest.survivors := by
  simp only [survivors, outcomes, List.filter_append, List.map_append, List.filter_map,
    List.map_map]
  congr 1
  cases committed <;> simp [Function.comp_def]

end Body

def Apart (log : List (ι × α)) (ids : List ι) : Prop := ∀ p ∈ log, p.1 ∉ ids

theorem Apart.mono {log : List (ι × α)} {ids ids' : List ι} (h : Apart log ids)
    (hsub : ∀ i ∈ ids', i ∈ ids) : Apart log ids' :=
  fun p hp hmem => h p hp (hsub _ hmem)

theorem Apart.append_map {log : List (ι × α)} {ids : List ι} {cur : ι} (h : Apart log ids)
    (hcur : cur ∉ ids) (items : List α) : Apart (log ++ items.map (Prod.mk cur)) ids := by
  intro p hp
  rcases List.mem_append.mp hp with hold | hnew
  · exact h p hold
  · obtain ⟨a, -, rfl⟩ := List.mem_map.mp hnew
    exact hcur

theorem Apart.fst_ne {log : List (ι × α)} {id : ι} (h : Apart log [id]) {p : ι × α}
    (hp : p ∈ log) : p.1 ≠ id :=
  fun heq => h p hp (List.mem_singleton.mpr heq)

variable [DecidableEq ι]

def step (log : List (ι × α)) : Event ι α → List (ι × α)
  | .item id a => log ++ [(id, a)]
  | .commit id parent => log.map fun p => if p.1 = id then (parent, p.2) else p
  | .abort id _ => log.filter fun p => p.1 ≠ id

theorem step_commit_apart {log : List (ι × α)} {id parent : ι} (h : Apart log [id])
    (items : List α) :
    step (log ++ items.map (Prod.mk id)) (.commit id parent)
      = log ++ items.map (Prod.mk parent) := by
  have hold : (log.map fun p => if p.1 = id then (parent, p.2) else p) = log := by
    conv_rhs => rw [← List.map_id log]
    refine List.map_congr_left fun p hp => ?_
    rw [if_neg (h.fst_ne hp)]
    rfl
  simp only [step, List.map_append, hold, List.map_map]
  congr 1
  refine List.map_congr_left fun a _ => ?_
  simp

theorem step_abort_apart {log : List (ι × α)} {id parent : ι} (h : Apart log [id])
    (items : List α) : step (log ++ items.map (Prod.mk id)) (.abort id parent) = log := by
  have hold : (log.filter fun p => p.1 ≠ id) = log := by
    refine List.filter_eq_self.mpr fun p hp => ?_
    simpa using h.fst_ne hp
  simp only [step, List.filter_append, hold]
  simp [List.filter_map, Function.comp_def]

/-- Run inside the scope `cur`, a body leaves its survivors to `cur`. -/
theorem foldl_trace (b : Body ι α) (cur : ι) (log : List (ι × α)) (hnodup : b.ids.Nodup)
    (hcur : cur ∉ b.ids) (hlog : Apart log b.ids) :
    (b.trace cur).foldl step log = log ++ b.survivors.map (Prod.mk cur) := by
  induction b generalizing cur log with
  | done => simp [Body.trace]
  | item a rest ih =>
    have hnext : Apart (log ++ [(cur, a)]) rest.ids := hlog.append_map hcur [a]
    simp only [Body.trace, List.foldl_cons, step]
    rw [ih cur (log ++ [(cur, a)]) hnodup hcur hnext, Body.survivors_item]
    simp
  | scope id committed inner rest ihinner ihrest =>
    simp only [Body.ids, List.nodup_cons, List.mem_append, not_or] at hnodup
    simp only [Body.ids, List.mem_cons, List.mem_append, not_or] at hcur
    obtain ⟨⟨hidinner, hidrest⟩, hboth⟩ := hnodup
    obtain ⟨hinner, hrest, -⟩ := List.nodup_append.mp hboth
    have hloginner : Apart log inner.ids :=
      hlog.mono fun i hi => List.mem_cons_of_mem _ (List.mem_append_left _ hi)
    have hlogrest : Apart log rest.ids :=
      hlog.mono fun i hi => List.mem_cons_of_mem _ (List.mem_append_right _ hi)
    have hlogid : Apart log [id] := hlog.mono fun i hi => by
      rw [List.mem_singleton.mp hi]
      exact List.mem_cons_self
    simp only [Body.trace, List.foldl_append, List.foldl_cons]
    rw [ihinner id log hinner hidinner hloginner]
    cases committed with
    | true =>
      rw [if_pos rfl, step_commit_apart hlogid,
        ihrest cur _ hrest hcur.2.2 (hlogrest.append_map hcur.2.2 _), Body.survivors_scope]
      simp
    | false =>
      rw [if_neg Bool.false_ne_true, step_abort_apart hlogid,
        ihrest cur log hrest hcur.2.2 hlogrest, Body.survivors_scope]
      simp

end Scopes
