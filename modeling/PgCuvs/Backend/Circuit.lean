import Mathlib.Data.List.DropRight
import PgCuvs.Types

/-! The circuit breakers of one backend: a table of bounded size, filled on
demand, that keeps the planner off indexes whose searches keep failing. -/

namespace PgCuvs

def cuvsMaxTrackedIndexes : ℕ := 64

structure CuvsCircuitBreaker where
  indexOid : Oid
  consecutiveErrors : ℕ
  isOpen : Bool
deriving DecidableEq, Repr

/-- `cuvs_circuit_breakers[0 .. cuvs_n_circuit_breakers)`. -/
abbrev CircuitBreakers := List CuvsCircuitBreaker

/-- The table after the call, and the breaker's place in it. -/
def findOrCreateBreaker (t : CircuitBreakers) (oid : Oid) : CircuitBreakers × Option ℕ :=
  match t.findIdx? fun b => b.indexOid = oid with
  | some i => (t, some i)
  | none =>
    if t.length < cuvsMaxTrackedIndexes then (t ++ [⟨oid, 0, false⟩], some t.length)
    else (t, none)

def CuvsCircuitBreaker.countError (threshold : ℕ) (b : CuvsCircuitBreaker) :
    CuvsCircuitBreaker :=
  let n := b.consecutiveErrors + 1
  { b with consecutiveErrors := n, isOpen := if threshold ≤ n then true else b.isOpen }

def cuvsCircuitRecordError (t : CircuitBreakers) (oid : Oid) (threshold : ℕ) :
    CircuitBreakers :=
  match findOrCreateBreaker t oid with
  | (t, none) => t
  | (t, some i) => t.modify i (·.countError threshold)

def Status.attributable : Status → Bool
  | .ok | .canceled | .dimMismatch | .metricMismatch | .stale | .noVectors => false
  | _ => true

def cuvsCircuitRecordStatus (t : CircuitBreakers) (oid : Oid) (threshold : ℕ)
    (status : Status) : CircuitBreakers :=
  if status.attributable then cuvsCircuitRecordError t oid threshold else t

/-- The loop the remaining functions share: the first slot of `oid` is updated. -/
def updateBreaker (f : CuvsCircuitBreaker → CuvsCircuitBreaker) (oid : Oid) :
    CircuitBreakers → CircuitBreakers
  | [] => []
  | b :: t => if b.indexOid = oid then f b :: t else b :: updateBreaker f oid t

def cuvsCircuitRecordSuccess (t : CircuitBreakers) (oid : Oid) : CircuitBreakers :=
  updateBreaker (fun b => { b with consecutiveErrors := 0 }) oid t

def cuvsCircuitReset (t : CircuitBreakers) (oid : Oid) : CircuitBreakers :=
  updateBreaker (fun b => { b with consecutiveErrors := 0, isOpen := false }) oid t

def cuvsCircuitIsOpen (t : CircuitBreakers) (oid : Oid) : Bool :=
  match t.find? fun b => b.indexOid = oid with
  | some b => b.isOpen
  | none => false

def cuvsCircuitResetAll : CircuitBreakers := []

inductive CircuitCall where
  | recordError (oid : Oid)
  | recordStatus (oid : Oid) (status : Status)
  | recordSuccess (oid : Oid)
  | reset (oid : Oid)
  | resetAll
  | isOpen (oid : Oid)
deriving DecidableEq, Repr

def CircuitCall.apply (threshold : ℕ) (t : CircuitBreakers) : CircuitCall → CircuitBreakers
  | .recordError oid => cuvsCircuitRecordError t oid threshold
  | .recordStatus oid status => cuvsCircuitRecordStatus t oid threshold status
  | .recordSuccess oid => cuvsCircuitRecordSuccess t oid
  | .reset oid => cuvsCircuitReset t oid
  | .resetAll => cuvsCircuitResetAll
  | .isOpen _ => t

def circuitAfter (threshold : ℕ) (calls : List CircuitCall) : CircuitBreakers :=
  calls.foldl (CircuitCall.apply threshold) []

/-! What the calls say about one index, without a table. -/

def CircuitCall.failure : CircuitCall → Option Oid
  | .recordError oid => some oid
  | .recordStatus oid status => if status.attributable then some oid else none
  | _ => none

def CircuitCall.Resets (oid : Oid) (c : CircuitCall) : Prop := c = .reset oid ∨ c = .resetAll

instance (oid : Oid) (c : CircuitCall) : Decidable (c.Resets oid) :=
  inferInstanceAs (Decidable (_ ∨ _))

/-- The calls that are about `oid` or about every index. -/
def CircuitCall.Concerns (oid : Oid) (c : CircuitCall) : Prop :=
  c.Resets oid ∨ c = .recordSuccess oid ∨ c.failure = some oid

instance (oid : Oid) (c : CircuitCall) : Decidable (c.Concerns oid) :=
  inferInstanceAs (Decidable (_ ∨ _))

/-- Since the last reset, `threshold` errors of `oid` came with no success between. -/
def Tripped (threshold : ℕ) (oid : Oid) (calls : List CircuitCall) : Prop :=
  ∃ mid, mid <:+: calls.rtakeWhile (fun c => ¬c.Resets oid) ∧
    (∀ c ∈ mid, c ≠ .recordSuccess oid) ∧
    threshold ≤ mid.countP fun c => c.failure = some oid

/-- The indexes with an error since the table was last emptied, in the order of
their first. -/
def failedIndexes (calls : List CircuitCall) : List Oid :=
  ((calls.rtakeWhile fun c => c ≠ .resetAll).filterMap CircuitCall.failure).eraseDups

/-- `oid` was among the first indexes to fail, as many as the table holds. -/
def Tracked (oid : Oid) (calls : List CircuitCall) : Prop :=
  oid ∈ (failedIndexes calls).take cuvsMaxTrackedIndexes

instance (oid : Oid) (calls : List CircuitCall) : Decidable (Tracked oid calls) :=
  inferInstanceAs (Decidable (_ ∈ _))

/-! Operations on the table, one index at a time. -/

section Table

variable {f : CuvsCircuitBreaker → CuvsCircuitBreaker} {oid o : Oid}

theorem updateBreaker_oids (hf : ∀ b, (f b).indexOid = b.indexOid) (t : CircuitBreakers) :
    (updateBreaker f o t).map (·.indexOid) = t.map (·.indexOid) := by
  induction t with
  | nil => rfl
  | cons b t ih =>
    rw [updateBreaker]
    split
    · rw [List.map_cons, List.map_cons, hf]
    · rw [List.map_cons, List.map_cons, ih]

theorem find?_updateBreaker_self (hf : ∀ b, (f b).indexOid = b.indexOid)
    (t : CircuitBreakers) :
    (updateBreaker f oid t).find? (fun b => b.indexOid = oid) =
      (t.find? fun b => b.indexOid = oid).map f := by
  induction t with
  | nil => rfl
  | cons b t ih =>
    rw [updateBreaker]
    by_cases h : b.indexOid = oid
    · rw [if_pos h, List.find?_cons_of_pos (by simpa [hf] using h),
        List.find?_cons_of_pos (by simpa using h), Option.map_some]
    · rw [if_neg h, List.find?_cons_of_neg (by simpa using h),
        List.find?_cons_of_neg (by simpa using h), ih]

theorem find?_updateBreaker_of_ne (hf : ∀ b, (f b).indexOid = b.indexOid) (h : o ≠ oid)
    (t : CircuitBreakers) :
    (updateBreaker f o t).find? (fun b => b.indexOid = oid) =
      t.find? fun b => b.indexOid = oid := by
  induction t with
  | nil => rfl
  | cons b t ih =>
    rw [updateBreaker]
    split
    · next hb =>
      rw [List.find?_cons_of_neg (by simpa [hf, hb] using h),
        List.find?_cons_of_neg (by simpa [hb] using h)]
    · rw [List.find?_cons, List.find?_cons, ih]

theorem mem_oids_of_find? {t : CircuitBreakers} {b : CuvsCircuitBreaker}
    (h : (t.find? fun b => b.indexOid = oid) = some b) : oid ∈ t.map (·.indexOid) := by
  have hoid := List.find?_some h
  exact List.mem_map.mpr ⟨b, List.mem_of_find?_eq_some h, of_decide_eq_true hoid⟩

theorem modify_concat (t : CircuitBreakers) (b : CuvsCircuitBreaker) :
    (t ++ [b]).modify t.length f = t ++ [f b] := by
  induction t with
  | nil => rfl
  | cons a t ih => exact congrArg (a :: ·) ih

theorem modify_findIdx? {t : CircuitBreakers} {i : ℕ}
    (h : (t.findIdx? fun b => b.indexOid = oid) = some i) :
    t.modify i f = updateBreaker f oid t := by
  induction t generalizing i with
  | nil => simp at h
  | cons b t ih =>
    rw [List.findIdx?_cons] at h
    rw [updateBreaker]
    by_cases hb : b.indexOid = oid
    · simp only [hb, decide_true, if_true, Option.some.injEq] at h ⊢
      subst h
      rfl
    · simp only [hb, decide_false, if_false, Bool.false_eq_true, Option.map_eq_some_iff] at h ⊢
      obtain ⟨j, hj, rfl⟩ := h
      rw [List.modify_succ_cons, ih hj]

/-- A call that counts an error updates the slot of its index, opens one while
there is room, and is lost otherwise. -/
theorem cuvsCircuitRecordError_eq (t : CircuitBreakers) (oid : Oid) (threshold : ℕ) :
    cuvsCircuitRecordError t oid threshold =
      if oid ∈ t.map (·.indexOid) then updateBreaker (·.countError threshold) oid t
      else if t.length < cuvsMaxTrackedIndexes then
        t ++ [CuvsCircuitBreaker.countError threshold ⟨oid, 0, false⟩]
      else t := by
  rw [cuvsCircuitRecordError, findOrCreateBreaker]
  cases h : t.findIdx? fun b => b.indexOid = oid with
  | some i =>
    have hmem : oid ∈ t.map (·.indexOid) := by
      have hany : t.any fun b => b.indexOid = oid := by
        rw [← List.findIdx?_isSome, h]
        rfl
      obtain ⟨b, hb, hoid⟩ := List.any_eq_true.mp hany
      exact List.mem_map.mpr ⟨b, hb, of_decide_eq_true hoid⟩
    rw [if_pos hmem]
    exact modify_findIdx? h
  | none =>
    have hmem : oid ∉ t.map (·.indexOid) := by
      intro hmem
      obtain ⟨b, hb, hoid⟩ := List.mem_map.mp hmem
      have := List.findIdx?_eq_none_iff.mp h b hb
      simp [hoid] at this
    rw [if_neg hmem]
    by_cases hroom : t.length < cuvsMaxTrackedIndexes
    · rw [if_pos hroom, if_pos hroom]
      exact modify_concat t _
    · rw [if_neg hroom, if_neg hroom]

theorem CuvsCircuitBreaker.countError_indexOid (threshold : ℕ) (b : CuvsCircuitBreaker) :
    (b.countError threshold).indexOid = b.indexOid := rfl

end Table

/-! A breaker with a slot of its own from the start. The table's breakers follow it. -/

section Sole

variable {threshold : ℕ} {oid : Oid}

def CircuitCall.watch (threshold : ℕ) (oid : Oid) (b : CuvsCircuitBreaker)
    (c : CircuitCall) : CuvsCircuitBreaker :=
  if c.Resets oid then { b with consecutiveErrors := 0, isOpen := false }
  else if c = .recordSuccess oid then { b with consecutiveErrors := 0 }
  else if c.failure = some oid then b.countError threshold
  else b

def soleBreaker (threshold : ℕ) (oid : Oid) (calls : List CircuitCall) : CuvsCircuitBreaker :=
  calls.foldl (CircuitCall.watch threshold oid) ⟨oid, 0, false⟩

theorem soleBreaker_concat (calls : List CircuitCall) (c : CircuitCall) :
    soleBreaker threshold oid (calls ++ [c]) =
      c.watch threshold oid (soleBreaker threshold oid calls) := by
  rw [soleBreaker, List.foldl_append]
  rfl

theorem soleBreaker_indexOid (calls : List CircuitCall) :
    (soleBreaker threshold oid calls).indexOid = oid := by
  induction calls using List.reverseRecOn with
  | nil => rfl
  | append_singleton calls c ih =>
    rw [soleBreaker_concat, CircuitCall.watch]
    split_ifs <;> exact ih

theorem CircuitCall.watch_of_not_concerns {b : CuvsCircuitBreaker} {c : CircuitCall}
    (h : ¬c.Concerns oid) : c.watch threshold oid b = b := by
  obtain ⟨hr, hs, hf⟩ : ¬c.Resets oid ∧ c ≠ .recordSuccess oid ∧ c.failure ≠ some oid := by
    simpa [Concerns] using h
  rw [watch, if_neg hr, if_neg hs, if_neg hf]

theorem soleBreaker_filter (calls : List CircuitCall) :
    soleBreaker threshold oid (calls.filter fun c => c.Concerns oid) =
      soleBreaker threshold oid calls := by
  induction calls using List.reverseRecOn with
  | nil => rfl
  | append_singleton calls c ih =>
    rw [List.filter_append, soleBreaker_concat]
    by_cases h : c.Concerns oid
    · rw [List.filter_cons_of_pos (by simpa using h), List.filter_nil, soleBreaker_concat, ih]
    · rw [List.filter_cons_of_neg (by simpa using h), List.filter_nil, List.append_nil, ih,
        CircuitCall.watch_of_not_concerns h]

theorem eraseDups_concat (l : List Oid) (a : Oid) :
    (l ++ [a]).eraseDups = if a ∈ l.eraseDups then l.eraseDups else l.eraseDups ++ [a] := by
  rw [List.eraseDups_append, List.removeAll]
  by_cases h : a ∈ l
  · rw [if_pos (List.mem_eraseDups.mpr h), List.filter_cons_of_neg (by simpa using h), List.filter_nil]
    exact List.append_nil _
  · rw [if_neg fun h' => h (List.mem_eraseDups.mp h'),
      List.filter_cons_of_pos (by simpa using h), List.filter_nil]
    rfl

theorem failedIndexes_concat (calls : List CircuitCall) {c : CircuitCall}
    (hc : c ≠ .resetAll) :
    failedIndexes (calls ++ [c]) =
      match c.failure with
      | some o =>
        if o ∈ failedIndexes calls then failedIndexes calls else failedIndexes calls ++ [o]
      | none => failedIndexes calls := by
  rw [failedIndexes, List.rtakeWhile_concat_pos _ _ _ (by simpa using hc), List.filterMap_append]
  cases hf : c.failure with
  | none =>
    rw [List.filterMap_cons_none hf, List.filterMap_nil, List.append_nil]
    rfl
  | some o =>
    rw [List.filterMap_cons_some hf, List.filterMap_nil, eraseDups_concat]
    rfl

theorem failedIndexes_resetAll (calls : List CircuitCall) :
    failedIndexes (calls ++ [.resetAll]) = [] := by
  rw [failedIndexes, List.rtakeWhile_concat_neg _ _ _ (by simp)]
  rfl

theorem soleBreaker_fresh {calls : List CircuitCall} (h : oid ∉ failedIndexes calls) :
    soleBreaker threshold oid calls = ⟨oid, 0, false⟩ := by
  induction calls using List.reverseRecOn with
  | nil => rfl
  | append_singleton calls c ih =>
    rw [soleBreaker_concat, CircuitCall.watch]
    by_cases hc : c = .resetAll
    · rw [if_pos (show c.Resets oid from Or.inr hc), soleBreaker_indexOid]
    · rw [failedIndexes_concat calls hc] at h
      have hf : c.failure ≠ some oid := by
        intro hf
        rw [hf] at h
        dsimp only at h
        split_ifs at h with ho
        · exact h ho
        · exact h (List.mem_append_right _ List.mem_cons_self)
      have hF : oid ∉ failedIndexes calls := by
        intro ho
        apply h
        cases c.failure with
        | none => exact ho
        | some o =>
          dsimp only
          split_ifs
          · exact ho
          · exact List.mem_append_left _ ho
      rw [ih hF, if_neg hf]
      split_ifs <;> rfl

structure Keeps (threshold : ℕ) (calls : List CircuitCall) (t : CircuitBreakers) : Prop where
  oids : t.map (·.indexOid) = (failedIndexes calls).take cuvsMaxTrackedIndexes
  same : ∀ oid b, (t.find? fun b => b.indexOid = oid) = some b →
    b = soleBreaker threshold oid calls

section Steps

variable {calls : List CircuitCall} {t : CircuitBreakers} {c : CircuitCall} {o : Oid}

theorem Keeps.resetAll : Keeps threshold (calls ++ [.resetAll]) [] where
  oids := by rw [failedIndexes_resetAll]; rfl
  same := fun _ _ h => nomatch h

theorem Keeps.update (h : Keeps threshold calls t) {f : CuvsCircuitBreaker → CuvsCircuitBreaker}
    (hf : ∀ b, (f b).indexOid = b.indexOid)
    (hF : (failedIndexes (calls ++ [c])).take cuvsMaxTrackedIndexes =
      (failedIndexes calls).take cuvsMaxTrackedIndexes)
    (hself : ∀ b, c.watch threshold o b = f b) (hother : ∀ oid, o ≠ oid → ¬c.Concerns oid) :
    Keeps threshold (calls ++ [c]) (updateBreaker f o t) where
  oids := by rw [updateBreaker_oids hf, h.oids, hF]
  same := by
    intro oid b hb
    rw [soleBreaker_concat]
    by_cases ho : o = oid
    · subst ho
      rw [find?_updateBreaker_self hf, Option.map_eq_some_iff] at hb
      obtain ⟨a, ha, rfl⟩ := hb
      rw [h.same o a ha, hself]
    · rw [find?_updateBreaker_of_ne hf ho] at hb
      rw [h.same oid b hb, CircuitCall.watch_of_not_concerns (hother oid ho)]

theorem Keeps.idle (h : Keeps threshold calls t) (hF : failedIndexes (calls ++ [c]) =
    failedIndexes calls) (hc : ∀ oid, ¬c.Concerns oid) : Keeps threshold (calls ++ [c]) t where
  oids := by rw [h.oids, hF]
  same := by
    intro oid b hb
    rw [soleBreaker_concat, h.same oid b hb, CircuitCall.watch_of_not_concerns (hc oid)]

theorem CircuitCall.watch_failure (hf : c.failure = some o) (b : CuvsCircuitBreaker) :
    c.watch threshold o b = b.countError threshold := by
  have hr : ¬c.Resets o := by
    rintro (rfl | rfl)
    · nomatch hf
    · nomatch hf
  have hs : c ≠ .recordSuccess o := by
    rintro rfl
    nomatch hf
  rw [watch, if_neg hr, if_neg hs, if_pos hf]

theorem CircuitCall.not_concerns_of_failure (hf : c.failure = some o) (oid : Oid)
    (ho : o ≠ oid) : ¬c.Concerns oid := by
  rintro ((rfl | rfl) | rfl | h)
  · nomatch hf
  · nomatch hf
  · nomatch hf
  · exact ho (Option.some.inj (hf.symm.trans h))

theorem Keeps.recordError (h : Keeps threshold calls t) (hf : c.failure = some o) :
    Keeps threshold (calls ++ [c]) (cuvsCircuitRecordError t o threshold) := by
  have hc : c ≠ .resetAll := by
    rintro rfl
    nomatch hf
  have hF := failedIndexes_concat calls hc
  rw [hf] at hF
  dsimp only at hF
  have hlen : t.length = min cuvsMaxTrackedIndexes (failedIndexes calls).length := by
    rw [← List.length_take, ← h.oids, List.length_map]
  rw [cuvsCircuitRecordError_eq]
  by_cases ho : o ∈ t.map (·.indexOid)
  · rw [if_pos ho]
    rw [h.oids] at ho
    rw [if_pos (List.mem_of_mem_take ho)] at hF
    exact h.update (CuvsCircuitBreaker.countError_indexOid threshold) (by rw [hF])
      (CircuitCall.watch_failure hf) (CircuitCall.not_concerns_of_failure hf)
  rw [if_neg ho]
  -- the table only grows until it is reset, so it holds the first indexes that failed
  by_cases hroom : t.length < cuvsMaxTrackedIndexes
  · have hall : (failedIndexes calls).take cuvsMaxTrackedIndexes = failedIndexes calls :=
      List.take_of_length_le (by omega)
    have hnew : o ∉ failedIndexes calls := by rwa [h.oids, hall] at ho
    rw [if_pos hroom]
    rw [if_neg hnew] at hF
    constructor
    · rw [List.map_append, h.oids, hF, hall, List.take_of_length_le]
      · rfl
      · rw [List.length_append, List.length_singleton]
        omega
    · intro oid b hb
      rw [soleBreaker_concat]
      rw [List.find?_append, Option.or_eq_some_iff] at hb
      rcases hb with hb | ⟨hnone, hb⟩
      · have hne : o ≠ oid := by
          rintro rfl
          exact ho (mem_oids_of_find? hb)
        rw [h.same oid b hb,
          CircuitCall.watch_of_not_concerns (CircuitCall.not_concerns_of_failure hf oid hne)]
      · obtain ⟨rfl, rfl⟩ : o = oid ∧
            CuvsCircuitBreaker.countError threshold ⟨o, 0, false⟩ = b := by
          rw [List.find?_singleton, CuvsCircuitBreaker.countError_indexOid] at hb
          split_ifs at hb with ho'
          exact ⟨of_decide_eq_true ho', Option.some.inj hb⟩
        rw [soleBreaker_fresh hnew, CircuitCall.watch_failure hf]
  · rw [if_neg hroom]
    constructor
    · rw [h.oids, hF]
      split_ifs
      · rfl
      · rw [List.take_append_of_le_length (by omega)]
    · intro oid b hb
      have hne : o ≠ oid := by
        rintro rfl
        exact ho (mem_oids_of_find? hb)
      rw [soleBreaker_concat, h.same oid b hb,
        CircuitCall.watch_of_not_concerns (CircuitCall.not_concerns_of_failure hf oid hne)]

/-- One call keeps the table in step with the breakers the indexes would have alone. -/
theorem Keeps.apply (h : Keeps threshold calls t) (c : CircuitCall) :
    Keeps threshold (calls ++ [c]) (c.apply threshold t) := by
  have idle : c.failure = none → c ≠ .resetAll →
      failedIndexes (calls ++ [c]) = failedIndexes calls := by
    intro hf hc
    rw [failedIndexes_concat calls hc, hf]
  cases c with
  | recordError o => exact h.recordError rfl
  | recordStatus o status =>
    rw [CircuitCall.apply, cuvsCircuitRecordStatus]
    by_cases hs : status.attributable = true
    · rw [if_pos hs]
      exact h.recordError (if_pos hs)
    · rw [if_neg hs]
      refine h.idle (idle (if_neg hs) (by simp)) fun oid => ?_
      simp [CircuitCall.Concerns, CircuitCall.Resets, CircuitCall.failure, hs]
  | recordSuccess o =>
    refine h.update (fun _ => rfl) (by rw [idle rfl (by simp)]) (fun b => ?_) fun oid ho => ?_
    · simp [CircuitCall.watch, CircuitCall.Resets]
    · simpa [CircuitCall.Concerns, CircuitCall.Resets, CircuitCall.failure] using ho
  | reset o =>
    refine h.update (fun _ => rfl) (by rw [idle rfl (by simp)]) (fun b => ?_) fun oid ho => ?_
    · simp [CircuitCall.watch, CircuitCall.Resets]
    · simpa [CircuitCall.Concerns, CircuitCall.Resets, CircuitCall.failure] using ho
  | resetAll => exact Keeps.resetAll
  | isOpen o =>
    refine h.idle (idle rfl (by simp)) fun oid => ?_
    simp [CircuitCall.Concerns, CircuitCall.Resets, CircuitCall.failure]

end Steps

theorem circuitAfter_keeps (threshold : ℕ) (calls : List CircuitCall) :
    Keeps threshold calls (circuitAfter threshold calls) := by
  induction calls using List.reverseRecOn with
  | nil =>
    constructor
    · rfl
    · intro _ _ h
      nomatch h
  | append_singleton calls c ih =>
    rw [circuitAfter, List.foldl_append]
    exact ih.apply c

theorem cuvsCircuitIsOpen_circuitAfter (threshold : ℕ) (calls : List CircuitCall) (oid : Oid) :
    cuvsCircuitIsOpen (circuitAfter threshold calls) oid = true ↔
      Tracked oid calls ∧ (soleBreaker threshold oid calls).isOpen = true := by
  have h := circuitAfter_keeps threshold calls
  rw [cuvsCircuitIsOpen, Tracked, ← h.oids]
  cases hb : (circuitAfter threshold calls).find? fun b => b.indexOid = oid with
  | some b =>
    rw [← h.same oid b hb]
    exact ⟨fun hopen => ⟨mem_oids_of_find? hb, hopen⟩, fun hopen => hopen.2⟩
  | none =>
    refine ⟨(fun hopen => nomatch hopen), fun ⟨hmem, _⟩ => ?_⟩
    obtain ⟨b, hmem, hoid⟩ := List.mem_map.mp hmem
    exact absurd hoid (of_decide_eq_false (by simpa using List.find?_eq_none.mp hb b hmem))

end Sole

/-! When a lone breaker opens. -/

section Trips

variable {threshold : ℕ} {oid : Oid}

def streak (oid : Oid) (calls : List CircuitCall) : ℕ :=
  ((calls.rtakeWhile fun c => ¬c.Resets oid).rtakeWhile fun c => c ≠ .recordSuccess oid).countP
    fun c => c.failure = some oid

theorem suffix_rtakeWhile {α : Type} {p : α → Bool} {s l : List α} (h : s <:+ l)
    (hs : ∀ a ∈ s, p a) : s <:+ l.rtakeWhile p := by
  obtain ⟨t, rfl⟩ := h
  rw [List.rtakeWhile, List.reverse_append,
    List.takeWhile_append_of_pos fun a ha => hs a (List.mem_reverse.mp ha), List.reverse_append,
    List.reverse_reverse]
  exact List.suffix_append _ _

theorem not_tripped_of_resets (h : 1 ≤ threshold) (calls : List CircuitCall) {c : CircuitCall}
    (hc : c.Resets oid) : ¬Tripped threshold oid (calls ++ [c]) := by
  rintro ⟨mid, hmid, -, hcount⟩
  rw [List.rtakeWhile_concat_neg _ _ _ (by simpa using hc), List.infix_nil] at hmid
  subst hmid
  rw [List.countP_nil] at hcount
  omega

theorem tripped_concat (h : 1 ≤ threshold) (calls : List CircuitCall) {c : CircuitCall}
    (hc : ¬c.Resets oid) :
    Tripped threshold oid (calls ++ [c]) ↔
      Tripped threshold oid calls ∨
        (c ≠ .recordSuccess oid ∧
          threshold ≤ streak oid calls + if c.failure = some oid then 1 else 0) := by
  have happ := List.rtakeWhile_concat_pos (fun c => decide ¬c.Resets oid) calls c
    (by simpa using hc)
  constructor
  · rintro ⟨mid, hmid, hsuccess, hcount⟩
    rw [happ, List.infix_concat_iff] at hmid
    -- the run of failures ends with the new call, or it was there before
    rcases hmid with hmid | hmid
    · rcases List.suffix_concat_iff.mp hmid with rfl | ⟨s, rfl, hs⟩
      · rw [List.countP_nil] at hcount
        omega
      · refine Or.inr ⟨hsuccess c (List.mem_append_right _ List.mem_cons_self), ?_⟩
        have hwithin : s <:+ (calls.rtakeWhile fun c => ¬c.Resets oid).rtakeWhile
            fun c => c ≠ .recordSuccess oid :=
          suffix_rtakeWhile hs fun a ha =>
            decide_eq_true (hsuccess a (List.mem_append_left _ ha))
        have hle := hwithin.sublist.countP_le (p := fun c => decide (c.failure = some oid))
        rw [List.countP_append, List.countP_singleton] at hcount
        simp only [decide_eq_true_eq] at hcount
        exact hcount.trans (Nat.add_le_add_right hle _)
    · exact Or.inl ⟨mid, hmid, hsuccess, hcount⟩
  · rintro (⟨mid, hmid, hsuccess, hcount⟩ | ⟨hlast, hcount⟩)
    · refine ⟨mid, ?_, hsuccess, hcount⟩
      rw [happ, List.infix_concat_iff]
      exact Or.inr hmid
    · refine ⟨((calls.rtakeWhile fun c => ¬c.Resets oid).rtakeWhile
        fun c => c ≠ .recordSuccess oid) ++ [c], ?_, ?_, ?_⟩
      · rw [happ]
        exact (List.suffix_concat_iff.mpr
          (Or.inr ⟨_, rfl, List.rtakeWhile_suffix _ _⟩)).isInfix
      · intro a ha
        rcases List.mem_append.mp ha with ha | ha
        · have hne := List.mem_rtakeWhile_imp ha
          exact of_decide_eq_true hne
        · rwa [List.mem_singleton.mp ha]
      · rw [List.countP_append, List.countP_singleton]
        simp only [decide_eq_true_eq]
        exact hcount

theorem tripped_of_streak {calls : List CircuitCall} (h : threshold ≤ streak oid calls) :
    Tripped threshold oid calls := by
  refine ⟨_, (List.rtakeWhile_suffix _ _).isInfix, fun a ha => ?_, h⟩
  have hne := List.mem_rtakeWhile_imp ha
  exact of_decide_eq_true hne

theorem streak_concat (calls : List CircuitCall) (c : CircuitCall) :
    streak oid (calls ++ [c]) =
      if c.Resets oid ∨ c = .recordSuccess oid then 0
      else streak oid calls + if c.failure = some oid then 1 else 0 := by
  rw [streak]
  by_cases hr : c.Resets oid
  · rw [List.rtakeWhile_concat_neg _ _ _ (by simpa using hr), if_pos (Or.inl hr)]
    rfl
  rw [List.rtakeWhile_concat_pos _ _ _ (by simpa using hr)]
  by_cases hs : c = .recordSuccess oid
  · rw [List.rtakeWhile_concat_neg _ _ _ (by simpa using hs), if_pos (Or.inr hs)]
    rfl
  rw [List.rtakeWhile_concat_pos _ _ _ (by simpa using hs), if_neg (not_or.mpr ⟨hr, hs⟩),
    List.countP_append, List.countP_singleton]
  simp only [decide_eq_true_eq]
  rfl

/-- A lone breaker counts its streak, and is open once a streak was long enough. -/
theorem soleBreaker_counts (h : 1 ≤ threshold) (calls : List CircuitCall) :
    (soleBreaker threshold oid calls).consecutiveErrors = streak oid calls ∧
      ((soleBreaker threshold oid calls).isOpen = true ↔ Tripped threshold oid calls) := by
  induction calls using List.reverseRecOn with
  | nil =>
    refine ⟨rfl, (fun hopen => nomatch hopen), ?_⟩
    rintro ⟨mid, hmid, -, hcount⟩
    rw [List.rtakeWhile_nil, List.infix_nil] at hmid
    subst hmid
    rw [List.countP_nil] at hcount
    omega
  | append_singleton calls c ih =>
    obtain ⟨hn, hopen⟩ := ih
    rw [soleBreaker_concat, CircuitCall.watch, streak_concat]
    -- a reset clears the count and the mark, a success the count, a failure adds to it
    by_cases hr : c.Resets oid
    · rw [if_pos hr, if_pos (Or.inl hr)]
      exact ⟨rfl, (fun hopen => nomatch hopen),
        fun htripped => absurd htripped (not_tripped_of_resets h calls hr)⟩
    rw [if_neg hr, tripped_concat h calls hr]
    by_cases hs : c = .recordSuccess oid
    · rw [if_pos hs, if_pos (Or.inr hs)]
      refine ⟨rfl, hopen.trans ⟨Or.inl, ?_⟩⟩
      rintro (htripped | ⟨hne, -⟩)
      · exact htripped
      · exact absurd hs hne
    rw [if_neg hs, if_neg (not_or.mpr ⟨hr, hs⟩)]
    by_cases hf : c.failure = some oid
    · rw [if_pos hf, if_pos hf, CuvsCircuitBreaker.countError, hn]
      refine ⟨rfl, ?_⟩
      dsimp only
      split_ifs with hle
      · exact ⟨fun _ => Or.inr ⟨hs, hle⟩, fun _ => rfl⟩
      · rw [hopen]
        exact ⟨Or.inl, fun htripped => htripped.resolve_right fun hlast => hle hlast.2⟩
    · rw [if_neg hf, if_neg hf, Nat.add_zero]
      refine ⟨hn, hopen.trans ⟨Or.inl, ?_⟩⟩
      rintro (htripped | ⟨-, hle⟩)
      · exact htripped
      · exact tripped_of_streak hle

end Trips

/-- A breaker is open when its index was among the first to fail and has tripped;
what the backend did with other indexes matters only for the former. -/
theorem cuvsCircuitIsOpen_iff (threshold : ℕ) (h : 1 ≤ threshold) (calls : List CircuitCall)
    (oid : Oid) :
    (cuvsCircuitIsOpen (circuitAfter threshold calls) oid = true ↔
      Tracked oid calls ∧ Tripped threshold oid calls) ∧
    ∀ calls', Tracked oid calls → Tracked oid calls' →
      (calls.filter fun c => c.Concerns oid) = (calls'.filter fun c => c.Concerns oid) →
      cuvsCircuitIsOpen (circuitAfter threshold calls) oid =
        cuvsCircuitIsOpen (circuitAfter threshold calls') oid := by
  constructor
  · rw [cuvsCircuitIsOpen_circuitAfter, (soleBreaker_counts h calls).2]
  · intro calls' ht ht' hsame
    rw [Bool.eq_iff_iff, cuvsCircuitIsOpen_circuitAfter, cuvsCircuitIsOpen_circuitAfter,
      ← soleBreaker_filter calls, hsame, soleBreaker_filter]
    exact ⟨fun hopen => ⟨ht', hopen.2⟩, fun hopen => ⟨ht, hopen.2⟩⟩

def crowd (n : ℕ) : List CircuitCall := (List.range (n + 1)).map .recordError

theorem cuvsCircuitIsOpen_crowded :
    Tripped 1 64 (crowd 64) ∧ cuvsCircuitIsOpen (circuitAfter 1 (crowd 64)) 64 = false ∧
      cuvsCircuitIsOpen (circuitAfter 1 [.recordError 64]) 64 = true := by
  refine ⟨⟨[.recordError 64], ?_, by simp, by decide⟩, by decide +kernel, by decide⟩
  have hall : (crowd 64).rtakeWhile (fun c => ¬c.Resets 64) = crowd 64 := by
    rw [List.rtakeWhile_eq_self_iff]
    decide
  rw [hall]
  exact ⟨(List.range 64).map .recordError, [], by decide⟩

theorem cuvsCircuitIsOpen_third_error :
    cuvsCircuitIsOpen (circuitAfter 3 [.recordError 7, .recordStatus 7 .stale,
      .recordError 8, .recordStatus 7 .oomFallback, .recordError 7]) 7 = true := by
  rw [(cuvsCircuitIsOpen_iff 3 (by decide) _ 7).1]
  refine ⟨by decide, [.recordError 7, .recordStatus 7 .stale, .recordError 8,
    .recordStatus 7 .oomFallback, .recordError 7], ?_, by decide, by decide⟩
  exact ⟨[], [], by decide⟩

end PgCuvs
