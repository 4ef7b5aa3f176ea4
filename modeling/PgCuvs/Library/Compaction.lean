import Mathlib.Data.List.Basic

/-! Keeping the elements of an array's first part that pass a test, in place. The test may
fail, as an out of bounds read does. -/

namespace Compaction

variable {α : Type*} (test : α → Option Bool)

/-- `todo` elements are left to read from index `read` on; what passes is written at `keep`. -/
def compact : ℕ → ℕ → ℕ → List α → Option (List α × ℕ)
  | 0, _, keep, buf => some (buf, keep)
  | todo + 1, read, keep, buf =>
    match buf[read]? with
    | none => none
    | some x =>
      match test x with
      | none => none
      | some true => compact todo (read + 1) (keep + 1) (buf.set keep x)
      | some false => compact todo (read + 1) keep buf

theorem set_kept (kept gap todo : List α) (x : α) :
    ∃ gap', (kept ++ gap ++ x :: todo).set kept.length x = kept ++ [x] ++ gap' ++ todo ∧
      gap'.length = gap.length := by
  rw [List.append_assoc, List.set_append_right _ _ (Nat.le_refl _), Nat.sub_self]
  cases gap with
  | nil => exact ⟨[], by simp, rfl⟩
  | cons g gap => exact ⟨gap ++ [x], by simp, by simp⟩

/-- The write index stays behind the read index, so each element is read as it was at first. -/
theorem compact_eq (p : α → Bool) (todo kept gap rest : List α)
    (htest : ∀ x ∈ todo, test x = some (p x)) :
    ∃ after, compact test todo.length (kept.length + gap.length) kept.length
        (kept ++ gap ++ todo ++ rest)
      = some (kept ++ todo.filter p ++ after, (kept ++ todo.filter p).length) := by
  induction todo generalizing kept gap with
  | nil => exact ⟨gap ++ rest, by simp [compact]⟩
  | cons x todo ih =>
    have hread : (kept ++ gap ++ x :: todo ++ rest)[kept.length + gap.length]? = some x := by
      rw [List.append_assoc, List.getElem?_append_right (by simp)]
      simp
    have hx : test x = some (p x) := htest x List.mem_cons_self
    have htodo : ∀ y ∈ todo, test y = some (p y) := fun y hy =>
      htest y (List.mem_cons_of_mem x hy)
    simp only [List.length_cons, compact, hread, hx]
    cases hpass : p x with
    | true =>
      simp only
      obtain ⟨gap', hset, hlen⟩ := set_kept kept gap (todo ++ rest) x
      obtain ⟨after, hrec⟩ := ih (kept ++ [x]) gap' htodo
      rw [List.append_assoc, List.cons_append, hset, List.filter_cons_of_pos hpass]
      refine ⟨after, ?_⟩
      rw [List.length_append, List.length_singleton, hlen] at hrec
      rw [Nat.add_right_comm, ← List.append_assoc, hrec]
      simp
    | false =>
      obtain ⟨after, hrec⟩ := ih kept (gap ++ [x]) htodo
      simp only
      rw [List.filter_cons_of_neg (by simp [hpass])]
      refine ⟨after, ?_⟩
      rw [List.length_append, List.length_singleton] at hrec
      rw [Nat.add_assoc, ← hrec]
      simp

theorem compact_none (todo kept gap rest : List α) (htest : ∃ x ∈ todo, test x = none) :
    compact test todo.length (kept.length + gap.length) kept.length
      (kept ++ gap ++ todo ++ rest) = none := by
  induction todo generalizing kept gap with
  | nil => simp at htest
  | cons x todo ih =>
    have hread : (kept ++ gap ++ x :: todo ++ rest)[kept.length + gap.length]? = some x := by
      rw [List.append_assoc, List.getElem?_append_right (by simp)]
      simp
    simp only [List.length_cons, compact, hread]
    cases hx : test x with
    | none => rfl
    | some pass =>
      have htodo : ∃ y ∈ todo, test y = none := by
        obtain ⟨y, hy, hnone⟩ := htest
        rcases List.mem_cons.mp hy with rfl | hy
        · rw [hx] at hnone
          exact nomatch hnone
        · exact ⟨y, hy, hnone⟩
      cases pass with
      | true =>
        simp only
        obtain ⟨gap', hset, hlen⟩ := set_kept kept gap (todo ++ rest) x
        have hrec := ih (kept ++ [x]) gap' htodo
        rw [List.length_append, List.length_singleton, hlen] at hrec
        rw [List.append_assoc, List.cons_append, hset, Nat.add_right_comm, ← List.append_assoc,
          hrec]
      | false =>
        have hrec := ih kept (gap ++ [x]) htodo
        rw [List.length_append, List.length_singleton] at hrec
        simp only
        rw [Nat.add_assoc, ← hrec]
        simp

theorem compact_take (p : α → Bool) (buf : List α) (n : ℕ) (hn : n ≤ buf.length)
    (htest : ∀ x ∈ buf.take n, test x = some (p x)) :
    ∃ after, compact test n 0 0 buf
      = some ((buf.take n).filter p ++ after, ((buf.take n).filter p).length) := by
  have h := compact_eq test p (buf.take n) [] [] (buf.drop n) htest
  simpa [List.take_append_drop, Nat.min_eq_left hn] using h

theorem compact_take_none (buf : List α) (n : ℕ) (hn : n ≤ buf.length)
    (htest : ∃ x ∈ buf.take n, test x = none) : compact test n 0 0 buf = none := by
  have h := compact_none test (buf.take n) [] [] (buf.drop n) htest
  simpa [List.take_append_drop, Nat.min_eq_left hn] using h

end Compaction
