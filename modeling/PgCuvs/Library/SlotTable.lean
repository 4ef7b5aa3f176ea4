import Mathlib.Data.List.Basic
import Mathlib.Data.List.Induction

/-! A table of at most `cap` rows that is filled first come, first served: an event
of a key that has a row updates it, an event of a new key takes the next row while
there is one, and is lost otherwise. -/

namespace SlotTable

variable {κ ε β : Type*} [DecidableEq κ] (cap : ℕ) (keyOf : ε → κ)

def record (fresh : ε → β) (update : β → ε → β) (t : List (κ × β)) (e : ε) : List (κ × β) :=
  if keyOf e ∈ t.map Prod.fst then
    t.map fun p => if p.1 = keyOf e then (p.1, update p.2 e) else p
  else if t.length < cap then t ++ [(keyOf e, fresh e)]
  else t

/-- The keys that have a row: the first `cap` distinct ones. -/
def admitted (es : List ε) : List κ := (es.map keyOf).eraseDups.take cap

/-- The row of each admitted key, from all of its events. -/
def rows (summary : List ε → β) (es : List ε) : List (κ × β) :=
  (admitted cap keyOf es).map fun k => (k, summary (es.filter fun e => keyOf e = k))

variable {cap keyOf}

theorem mem_of_mem_admitted {es : List ε} {k : κ} (hk : k ∈ admitted cap keyOf es) :
    ∃ e ∈ es, keyOf e = k := by
  rw [← List.mem_map, ← List.mem_eraseDups]
  exact List.mem_of_mem_take hk

theorem admitted_append (es : List ε) (e : ε) :
    admitted cap keyOf (es ++ [e]) =
      if keyOf e ∈ admitted cap keyOf es then admitted cap keyOf es
      else if (admitted cap keyOf es).length < cap then admitted cap keyOf es ++ [keyOf e]
      else admitted cap keyOf es := by
  have hdups : ((es ++ [e]).map keyOf).eraseDups =
      if keyOf e ∈ es.map keyOf then (es.map keyOf).eraseDups
      else (es.map keyOf).eraseDups ++ [keyOf e] := by
    rw [List.map_append, List.eraseDups_append, List.map_singleton]
    split_ifs with hmem
    · rw [List.removeAll, List.filter_singleton]
      simp [hmem]
    · rw [List.removeAll, List.filter_singleton]
      simp [hmem, List.eraseDups_cons]
  have hlen : (admitted cap keyOf es).length = min cap (es.map keyOf).eraseDups.length :=
    List.length_take
  rw [hlen, admitted, hdups, admitted]
  by_cases hmem : keyOf e ∈ es.map keyOf
  · rw [if_pos hmem]
    by_cases hin : keyOf e ∈ (es.map keyOf).eraseDups.take cap
    · rw [if_pos hin]
    · -- A key that came too late: the table was full by then.
      have hfull : cap < (es.map keyOf).eraseDups.length := by
        by_contra hle
        rw [List.take_of_length_le (Nat.not_lt.mp hle), List.mem_eraseDups] at hin
        exact hin hmem
      rw [if_neg hin, if_neg (by omega)]
  · have hin : keyOf e ∉ (es.map keyOf).eraseDups.take cap := fun h =>
      hmem (List.mem_eraseDups.mp (List.mem_of_mem_take h))
    rw [if_neg hmem, if_neg hin]
    split_ifs with hroom
    · have hall : (es.map keyOf).eraseDups.length < cap := by omega
      rw [List.take_of_length_le (Nat.le_of_lt hall), List.take_of_length_le (by simpa using Nat.succ_le_of_lt hall)]
    · rw [List.take_append_of_le_length (by omega)]

variable {fresh : ε → β} {update : β → ε → β} {summary : List ε → β}

theorem record_rows (hfresh : ∀ e, summary [e] = fresh e)
    (hupdate : ∀ L e, L ≠ [] → summary (L ++ [e]) = update (summary L) e) (es : List ε) (e : ε) :
    record cap keyOf fresh update (rows cap keyOf summary es) e
      = rows cap keyOf summary (es ++ [e]) := by
  have hkeys : (rows cap keyOf summary es).map Prod.fst = admitted cap keyOf es := by
    rw [rows, List.map_map]
    exact List.map_id _
  have hlen : (rows cap keyOf summary es).length = (admitted cap keyOf es).length :=
    List.length_map ..
  have hother : ∀ k, k ≠ keyOf e →
      (es ++ [e]).filter (fun e => keyOf e = k) = es.filter fun e => keyOf e = k := by
    intro k hk
    rw [List.filter_append, List.filter_singleton, decide_eq_false hk.symm]
    exact List.append_nil _
  have hown : (es ++ [e]).filter (fun e' => keyOf e' = keyOf e)
      = es.filter (fun e' => keyOf e' = keyOf e) ++ [e] := by
    rw [List.filter_append, List.filter_singleton, decide_eq_true rfl]
    rfl
  rw [record, hkeys, hlen]
  rw [rows, rows, admitted_append]
  -- a known key is updated, a new one takes the next row, or is dropped when the table is full
  split_ifs with hmem hroom
  · rw [List.map_map]
    apply List.map_congr_left
    intro k hk
    by_cases heq : k = keyOf e
    · subst heq
      obtain ⟨e', he', hkey⟩ := mem_of_mem_admitted hk
      have hne : es.filter (fun e' => keyOf e' = keyOf e) ≠ [] :=
        List.ne_nil_of_mem (List.mem_filter.mpr ⟨he', decide_eq_true hkey⟩)
      rw [Function.comp_apply, if_pos rfl, hown, hupdate _ _ hne]
    · rw [Function.comp_apply, if_neg heq, hother k heq]
  · have hall : (admitted cap keyOf es) = (es.map keyOf).eraseDups := by
      apply List.take_of_length_le
      by_contra hlt
      rw [admitted, List.length_take] at hroom
      omega
    have hnew : es.filter (fun e' => keyOf e' = keyOf e) = [] := by
      rw [List.filter_eq_nil_iff]
      intro e' he' hkey
      apply hmem
      rw [hall, List.mem_eraseDups, List.mem_map]
      exact ⟨e', he', of_decide_eq_true hkey⟩
    rw [List.map_append, List.map_singleton, hown, hnew, List.nil_append, hfresh]
    congr 1
    apply List.map_congr_left
    intro k hk
    rw [hother k]
    rintro rfl
    exact hmem hk
  · apply List.map_congr_left
    intro k hk
    rw [hother k]
    rintro rfl
    exact hmem hk

/-- After any events the table holds the admitted keys with all of their events. -/
theorem foldl_record (hfresh : ∀ e, summary [e] = fresh e)
    (hupdate : ∀ L e, L ≠ [] → summary (L ++ [e]) = update (summary L) e) (es : List ε) :
    es.foldl (record cap keyOf fresh update) [] = rows cap keyOf summary es := by
  induction es using List.reverseRecOn with
  | nil => simp [rows, admitted]
  | append_singleton es e ih =>
    rw [List.foldl_append, ih]
    exact record_rows hfresh hupdate es e

theorem modify_idxOf {γ : Type*} {g : κ × β → γ} {u : γ → γ} {v : κ × β → κ × β}
    (huv : ∀ p, u (g p) = g (v p)) {t : List (κ × β)} {k : κ} (hmem : k ∈ t.map Prod.fst)
    (honce : (t.map Prod.fst).Nodup) (rest : List γ) :
    (t.map g ++ rest).modify ((t.map Prod.fst).idxOf k) u
      = (t.map fun p => if p.1 = k then v p else p).map g ++ rest := by
  induction t with
  | nil => simp at hmem
  | cons p t ih =>
    rw [List.map_cons, List.nodup_cons] at honce
    rw [List.map_cons, List.map_cons, List.map_cons, List.map_cons, List.cons_append]
    by_cases heq : p.1 = k
    · have hsame : (t.map fun q => if q.1 = k then v q else q) = t := by
        conv_rhs => rw [← List.map_id t]
        apply List.map_congr_left
        intro q hq
        apply if_neg
        rintro rfl
        exact honce.1 (heq ▸ List.mem_map_of_mem hq)
      rw [heq, List.idxOf_cons_self, if_pos rfl, hsame, ← huv]
      rfl
    · rw [List.idxOf_cons_ne _ heq, if_neg heq, List.cons_append,
        ← ih ((List.mem_cons.mp hmem).resolve_left fun h => heq h.symm) honce.2]
      rfl

end SlotTable
