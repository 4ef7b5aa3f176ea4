import Mathlib.Algebra.Order.Ring.Int
import Mathlib.Order.Defs.LinearOrder
import Mathlib.Data.List.Basic

/-! Binary search over a half-open index range, for any choice of the probe. -/

namespace BinarySearch

variable {α : Type*} [LinearOrder α]

/-- An index in `[lo, hi)` whose value is `target`, searched by halving. The
range shrinks on every probe, so its width is enough fuel. -/
def find (probe : ℕ → ℕ → ℕ) (value : ℕ → α) (target : α) : ℕ → ℕ → ℕ → Option ℕ
  | 0, _, _ => none
  | fuel + 1, lo, hi =>
    if lo < hi then
      if value (probe lo hi) = target then some (probe lo hi)
      else if value (probe lo hi) < target then find probe value target fuel (probe lo hi + 1) hi
      else find probe value target fuel lo (probe lo hi)
    else none

def Within (probe : ℕ → ℕ → ℕ) : Prop := ∀ lo hi, lo < hi → lo ≤ probe lo hi ∧ probe lo hi < hi

variable {probe : ℕ → ℕ → ℕ} {value : ℕ → α} {target : α}

theorem find_some (hp : Within probe) {fuel lo hi i : ℕ}
    (h : find probe value target fuel lo hi = some i) :
    lo ≤ i ∧ i < hi ∧ value i = target := by
  induction fuel generalizing lo hi with
  | zero => simp [find] at h
  | succ fuel ih =>
    rw [find] at h
    split_ifs at h with hlt heq hless
    · obtain rfl : probe lo hi = i := Option.some.inj h
      exact ⟨(hp lo hi hlt).1, (hp lo hi hlt).2, heq⟩
    · obtain ⟨h1, h2, h3⟩ := ih h
      have := hp lo hi hlt
      exact ⟨by omega, h2, h3⟩
    · obtain ⟨h1, h2, h3⟩ := ih h
      have := hp lo hi hlt
      exact ⟨h1, by omega, h3⟩

theorem find_isSome (hp : Within probe) {fuel lo hi : ℕ} (hfuel : hi - lo < fuel)
    (hmono : ∀ i j, lo ≤ i → i ≤ j → j < hi → value i ≤ value j)
    {i : ℕ} (hlo : lo ≤ i) (hhi : i < hi) (hi' : value i = target) :
    (find probe value target fuel lo hi).isSome := by
  induction fuel generalizing lo hi with
  | zero => omega
  | succ fuel ih =>
    have hlt : lo < hi := by omega
    obtain ⟨hmid, hmid'⟩ := hp lo hi hlt
    rw [find, if_pos hlt]
    split_ifs with heq hless
    · rfl
    · have hright : probe lo hi + 1 ≤ i := by
        by_contra hle
        have := hmono i (probe lo hi) hlo (by omega) hmid'
        exact absurd (hi' ▸ this) (not_le.mpr hless)
      exact ih (by omega) (fun a b ha hab hb => hmono a b (by omega) hab hb) hright hhi
    · have hleft : i < probe lo hi := by
        by_contra hge
        have hle := hmono (probe lo hi) i hmid (by omega) hhi
        exact heq (le_antisymm (hi' ▸ hle) (not_lt.mp hless))
      exact ih (by omega) (fun a b ha hab hb => hmono a b ha hab (by omega)) hlo hleft

theorem find_congr (hp : Within probe) {value' : ℕ → α} {fuel lo hi : ℕ}
    (h : ∀ i, lo ≤ i → i < hi → value i = value' i) :
    find probe value target fuel lo hi = find probe value' target fuel lo hi := by
  induction fuel generalizing lo hi with
  | zero => rfl
  | succ fuel ih =>
    rw [find, find]
    by_cases hlt : lo < hi
    · obtain ⟨hlo, hhi⟩ := hp lo hi hlt
      rw [if_pos hlt, if_pos hlt, h _ hlo hhi, ih fun i hi1 hi2 => h i (by omega) hi2,
        ih fun i hi1 hi2 => h i hi1 (by omega)]
    · rw [if_neg hlt, if_neg hlt]

/-- Searching a sorted list decides membership. -/
theorem find_isSome_iff_mem (hp : Within probe) {l : List α} (hl : l.Pairwise (· ≤ ·))
    {d : α} :
    (find probe (fun i => l.getD i d) target (l.length + 1) 0 l.length).isSome ↔
      target ∈ l := by
  have hget : ∀ i (h : i < l.length), l.getD i d = l[i] := fun i h => by
    rw [List.getD_eq_getElem?_getD, List.getElem?_eq_getElem h, Option.getD_some]
  constructor
  · intro h
    obtain ⟨i, hi⟩ := Option.isSome_iff_exists.mp h
    obtain ⟨-, hlt, heq⟩ := find_some hp hi
    rw [hget i hlt] at heq
    exact heq ▸ List.getElem_mem hlt
  · intro h
    obtain ⟨i, hlt, heq⟩ := List.getElem_of_mem h
    refine find_isSome hp (by omega) ?_ (Nat.zero_le i) hlt ((hget i hlt).trans heq)
    intro a b _ hab hb
    rw [hget a (by omega), hget b hb]
    rcases Nat.eq_or_lt_of_le hab with rfl | hlt'
    · exact le_rfl
    · exact List.pairwise_iff_getElem.mp hl a b (by omega) hb hlt'

end BinarySearch
