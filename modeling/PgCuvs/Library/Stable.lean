import Mathlib.Data.List.Sort
import Mathlib.Data.List.Nodup

/-! Filters and stable sorting: a filter goes through the sort, a cut that is
wide enough goes through a filter, and two filters share their first elements
unless one of them lets an early element through alone. -/

namespace Stable

variable {α : Type*}

section Sorting

variable {r : α → α → Prop} [DecidableRel r] [IsTrans α r] [Std.Total r]

omit [Std.Total r] in
theorem filter_orderedInsert (p : α → Bool) (a : α) {l : List α} (hl : l.Pairwise r) :
    (l.orderedInsert r a).filter p
      = if p a then (l.filter p).orderedInsert r a else l.filter p := by
  induction l with
  | nil => by_cases hp : p a <;> simp [hp]
  | cons b l ih =>
    have ih := ih hl.of_cons
    by_cases hab : r a b
    · rw [List.orderedInsert_cons_of_le r _ hab]
      by_cases hp : p a
      · rw [List.filter_cons_of_pos hp, if_pos hp]
        -- `a` stays in front of whatever the filter leaves of the tail
        have hfront : ∀ c ∈ (b :: l).filter p, r a c := by
          intro c hc
          rcases List.mem_cons.mp (List.mem_of_mem_filter hc) with rfl | hc
          · exact hab
          · exact IsTrans.trans _ _ _ hab (List.rel_of_pairwise_cons hl hc)
        cases hrest : (b :: l).filter p with
        | nil => rfl
        | cons c cs =>
          rw [List.orderedInsert_cons_of_le r _ (hfront c (hrest ▸ List.mem_cons_self))]
      · rw [List.filter_cons_of_neg hp, if_neg hp]
    · rw [List.orderedInsert_of_not_le r _ hab]
      by_cases hb : p b
      · rw [List.filter_cons_of_pos hb, List.filter_cons_of_pos hb, ih]
        split_ifs with hp
        · rw [List.orderedInsert_of_not_le r _ hab]
        · rfl
      · rw [List.filter_cons_of_neg hb, List.filter_cons_of_neg hb, ih]

theorem filter_insertionSort (p : α → Bool) (l : List α) :
    (l.insertionSort r).filter p = (l.filter p).insertionSort r := by
  induction l with
  | nil => rfl
  | cons a l ih =>
    rw [List.insertionSort_cons, filter_orderedInsert p a (List.pairwise_insertionSort r l), ih]
    split_ifs with hp
    · rw [List.filter_cons_of_pos hp, List.insertionSort_cons]
    · rw [List.filter_cons_of_neg hp]

end Sorting

theorem take_filter_take (p : α → Bool) (k t : ℕ) (l : List α)
    (ht : l.countP (fun a => !p a) ≤ t) :
    ((l.take (k + t)).filter p).take k = (l.filter p).take k := by
  induction l generalizing k t with
  | nil => simp
  | cons a l ih =>
    rw [List.countP_cons] at ht
    by_cases hp : p a
    · cases k with
      | zero => simp
      | succ k =>
        have hrest := ih k t (by simpa [hp] using ht)
        rw [Nat.add_right_comm, List.take_succ_cons, List.filter_cons_of_pos hp,
          List.filter_cons_of_pos hp, List.take_succ_cons, List.take_succ_cons, hrest]
    · obtain ⟨t, rfl⟩ : ∃ s, t = s + 1 := ⟨t - 1, by simp [hp] at ht; omega⟩
      have hrest := ih k t (by simpa [hp] using ht)
      rw [← Nat.add_assoc, List.take_succ_cons, List.filter_cons_of_neg hp,
        List.filter_cons_of_neg hp, hrest]

/-- Two filters start alike exactly when each element that only one of them lets
through comes behind `k` elements that both do. -/
theorem take_filter_eq_iff [DecidableEq α] {l : List α} (hl : l.Nodup) (p q : α → Bool) (k : ℕ) :
    (l.filter p).take k = (l.filter q).take k ↔
      ∀ x ∈ l, p x ≠ q x →
        k ≤ ((l.takeWhile fun y => decide (y ≠ x)).filter fun y => p y && q y).length := by
  induction l generalizing k with
  | nil => simp
  | cons a l ih =>
    obtain ⟨ha, hl⟩ := List.nodup_cons.mp hl
    have hskip : ∀ x ∈ l, ((a :: l).takeWhile fun y => decide (y ≠ x))
        = a :: l.takeWhile fun y => decide (y ≠ x) := by
      intro x hx
      have hax : a ≠ x := fun h => ha (h ▸ hx)
      rw [List.takeWhile_cons_of_pos (by simpa using hax)]
    by_cases hpq : p a = q a
    · rw [List.forall_mem_cons]
      have hhead : (p a ≠ q a → k ≤ (((a :: l).takeWhile fun y => decide (y ≠ a)).filter
          fun y => p y && q y).length) ↔ True := iff_true_intro fun h => absurd hpq h
      rw [hhead, true_and]
      cases hp : p a with
      | true =>
        rw [List.filter_cons_of_pos hp, List.filter_cons_of_pos (hpq ▸ hp)]
        cases k with
        | zero => simp
        | succ k =>
          rw [List.take_succ_cons, List.take_succ_cons, List.cons_inj_right, ih hl]
          refine forall₂_congr fun x hx => imp_congr_right fun _ => ?_
          rw [hskip x hx, List.filter_cons_of_pos (by simp [← hpq, hp]), List.length_cons,
            Nat.succ_le_succ_iff]
      | false =>
        rw [List.filter_cons_of_neg (by simp [hp]), List.filter_cons_of_neg (by simp [← hpq, hp]),
          ih hl]
        refine forall₂_congr fun x hx => imp_congr_right fun _ => ?_
        rw [hskip x hx, List.filter_cons_of_neg (by simp [hp])]
    · -- one list has `a` in front, the other does not have it at all
      have hout : ∀ s : α → Bool, a ∉ (l.filter s).take k := fun s hs =>
        ha (List.mem_of_mem_filter (List.mem_of_mem_take hs))
      have hzero : (∀ x ∈ a :: l, p x ≠ q x →
          k ≤ (((a :: l).takeWhile fun y => decide (y ≠ x)).filter fun y => p y && q y).length)
            ↔ k = 0 := by
        constructor
        · intro h
          have hle := h a List.mem_cons_self hpq
          rwa [List.takeWhile_cons_of_neg (by simp), List.filter_nil, List.length_nil,
            Nat.le_zero] at hle
        · rintro rfl x - -
          exact Nat.zero_le _
      rw [hzero]
      constructor
      · intro heq
        by_contra hk
        obtain ⟨j, rfl⟩ := Nat.exists_eq_succ_of_ne_zero hk
        cases hp : p a with
        | true =>
          have hq : q a = false := by
            rw [hp] at hpq
            exact Bool.eq_false_iff.mpr fun h => hpq h.symm
          rw [List.filter_cons_of_pos hp, List.filter_cons_of_neg (by simp [hq]),
            List.take_succ_cons] at heq
          exact hout q (heq ▸ List.mem_cons_self)
        | false =>
          have hq : q a = true := by
            rw [hp] at hpq
            exact Bool.eq_true_of_not_eq_false fun h => hpq h.symm
          rw [List.filter_cons_of_neg (by simp [hp]), List.filter_cons_of_pos hq,
            List.take_succ_cons] at heq
          exact hout p (heq ▸ List.mem_cons_self)
      · rintro rfl
        rw [List.take_zero, List.take_zero]

end Stable
