import Mathlib.Algebra.Ring.Nat
import Mathlib.Data.List.Sort

/-! Counting the elements of a list by bucket, and reading ranks back from the
counts. -/

namespace Histogram

variable {α : Type*} (bucket : α → ℕ)

/-- How many elements of `L` each of the first `n` buckets holds. -/
def counts (n : ℕ) (L : List α) : List ℕ :=
  (List.range n).map fun i => L.countP fun x => decide (bucket x = i)

/-- The first bucket at which the counts from `i` on, added to `cum`, reach `target`. -/
def firstReaching (target : ℕ) : ℕ → ℕ → List ℕ → Option ℕ
  | _, _, [] => none
  | cum, i, b :: bs =>
    if target ≤ cum + b then some i else firstReaching target (cum + b) (i + 1) bs

variable {bucket} {n : ℕ}

@[simp] theorem counts_length (L : List α) : (counts bucket n L).length = n := by
  simp [counts]

theorem counts_nil : counts bucket n [] = List.replicate n 0 := by
  simp [counts, List.map_const']

theorem counts_append_singleton (L : List α) (x : α) :
    counts bucket n (L ++ [x]) = (counts bucket n L).modify (bucket x) (· + 1) := by
  apply List.ext_getElem
  · simp
  · intro i hi hi'
    have hlt : i < n := by simpa using hi
    simp only [counts, List.getElem_map, List.getElem_range, List.countP_append,
      List.countP_singleton, List.getElem_modify, decide_eq_true_eq]
    split <;> rfl

theorem sum_take_counts (L : List α) {i : ℕ} (hi : i ≤ n) :
    ((counts bucket n L).take i).sum = L.countP fun x => decide (bucket x < i) := by
  induction i with
  | zero => simp
  | succ i ih =>
    have hlt : i < (counts bucket n L).length := by simpa using Nat.lt_of_succ_le hi
    rw [List.take_succ_eq_append_getElem hlt, List.sum_append, ih (by omega)]
    simp only [counts, List.getElem_map, List.getElem_range, List.sum_singleton]
    clear ih hlt
    -- An element below bucket `i + 1` is below bucket `i` or in it.
    induction L with
    | nil => rfl
    | cons x L ih =>
      simp only [List.countP_cons, decide_eq_true_eq, ← ih]
      split_ifs <;> omega

theorem sum_counts {L : List α} (h : ∀ x ∈ L, bucket x < n) :
    (counts bucket n L).sum = L.length := by
  have hsum : ((counts bucket n L).take n).sum = L.countP fun x => decide (bucket x < n) :=
    sum_take_counts L (le_refl n)
  rw [List.take_of_length_le (counts_length L).le] at hsum
  rw [hsum, List.countP_eq_length]
  intro x hx
  exact decide_eq_true (h x hx)

theorem firstReaching_eq_some {target : ℕ} {counts : List ℕ} {cum i k : ℕ} (hk : k < counts.length)
    (hreach : target ≤ cum + (counts.take (k + 1)).sum)
    (hbelow : ∀ j ≤ k, j ≠ 0 → cum + (counts.take j).sum < target) :
    firstReaching target cum i counts = some (i + k) := by
  induction counts generalizing cum i k with
  | nil => simp at hk
  | cons b bs ih =>
    cases k with
    | zero =>
      rw [firstReaching, if_pos (by simpa using hreach)]
      rfl
    | succ k =>
      have hfirst : cum + b < target := by simpa using hbelow 1 (by omega) (Nat.succ_ne_zero 0)
      rw [firstReaching, if_neg (by omega), ih (by simpa using hk)]
      · congr 1
        omega
      · simpa [Nat.add_assoc] using hreach
      · intro j hj hj0
        simpa [Nat.add_assoc] using hbelow (j + 1) (by omega) (Nat.succ_ne_zero j)

section Ranks

variable [LinearOrder α] {L S : List α}

theorem le_countP_iff (hS : S.Pairwise (· ≤ ·)) (hmono : Monotone bucket) {r : ℕ}
    (hr : r < S.length) (i : ℕ) :
    r + 1 ≤ S.countP (fun x => decide (bucket x < i)) ↔ bucket (S.get ⟨r, hr⟩) < i := by
  induction S generalizing r with
  | nil => simp at hr
  | cons a S ih =>
    obtain ⟨ha, hS⟩ := List.pairwise_cons.mp hS
    have hnone : ¬bucket a < i → S.countP (fun x => decide (bucket x < i)) = 0 := by
      intro hai
      rw [List.countP_eq_zero]
      intro b hb hbi
      exact hai ((hmono (ha b hb)).trans_lt (of_decide_eq_true hbi))
    rw [List.countP_cons]
    cases r with
    | zero =>
      show 0 + 1 ≤ _ ↔ bucket a < i
      by_cases hai : bucket a < i
      · simp [hai]
      · simp [hai, hnone hai]
    | succ r =>
      have hr' : r < S.length := by simpa using hr
      show r + 1 + 1 ≤ _ ↔ bucket (S.get ⟨r, hr'⟩) < i
      rw [← ih hS hr']
      by_cases hai : bucket a < i
      · simp [hai]
      · simp [hai, hnone hai]

/-- The bucket at which the counts reach a rank is the bucket of the element of that rank. -/
theorem firstReaching_counts (hp : L.Perm S) (hS : S.Pairwise (· ≤ ·)) (hmono : Monotone bucket)
    {r : ℕ} (hr : r < S.length) (hn : bucket (S.get ⟨r, hr⟩) < n) :
    firstReaching (r + 1) 0 0 (counts bucket n L) = some (bucket (S.get ⟨r, hr⟩)) := by
  have hsum : ∀ i ≤ n, ((counts bucket n L).take i).sum
      = S.countP fun x => decide (bucket x < i) := by
    intro i hi
    rw [sum_take_counts L hi, hp.countP_eq]
  have hlt : bucket (S.get ⟨r, hr⟩) < (counts bucket n L).length := by
    rwa [counts_length]
  have hfound : firstReaching (r + 1) 0 0 (counts bucket n L)
      = some (0 + bucket (S.get ⟨r, hr⟩)) := by
    apply firstReaching_eq_some hlt
    · rw [Nat.zero_add, hsum _ hn, le_countP_iff hS hmono hr]
      exact Nat.lt_succ_self _
    · intro j hj _
      have hnot := (le_countP_iff hS hmono hr j).not.mpr (Nat.not_lt.mpr hj)
      rw [Nat.zero_add, hsum j (hj.trans hn.le)]
      omega
  rw [hfound, Nat.zero_add]

end Ranks

end Histogram
