import Mathlib.Data.List.Basic

/-! Ownership in an array of slots. A slot holds one object a field, or none; an object
is named by its field and the step that allocated it. -/

namespace Owners

variable {F : Type*}

abbrev Owner (F : Type*) := F → Option ℕ

def Apart (a b : Owner F) : Prop := ∀ f n, a f = some n → b f ≠ some n

def Before (n : ℕ) (a : Owner F) : Prop := ∀ f m, a f = some m → m < n

/-- What `b` has it got from `a` or from step `n`. -/
def Renews (n : ℕ) (a b : Owner F) : Prop := ∀ f, b f = none ∨ b f = a f ∨ b f = some n

variable {a b c : Owner F} {n m : ℕ}

theorem Apart.symm (h : Apart a b) : Apart b a := fun f n hb ha => h f n ha hb

theorem Before.mono (h : Before n a) (hnm : n ≤ m) : Before m a :=
  fun f k hk => Nat.lt_of_lt_of_le (h f k hk) hnm

theorem Renews.before (h : Renews n a b) (ha : Before n a) : Before (n + 1) b := by
  intro f m hm
  rcases h f with hb | hb | hb
  · rw [hm] at hb
    cases hb
  · exact Nat.lt_trans (ha f m (hb ▸ hm)) (Nat.lt_succ_self n)
  · rw [hm] at hb
    cases hb
    exact Nat.lt_succ_self n

/-- Objects of step `n` belong to no slot from before it. -/
theorem Apart.renews (h : Apart a c) (hren : Renews n a b) (hc : Before n c) : Apart b c := by
  intro f m hm hcm
  rcases hren f with hb | hb | hb
  · rw [hm] at hb
    cases hb
  · exact h f m (hb ▸ hm) hcm
  · rw [hm] at hb
    cases hb
    exact absurd (hc f n hcm) (Nat.lt_irrefl n)

theorem Apart.none_left : Apart (fun _ => none) c := fun _ _ h => (nomatch h)

theorem pairwise_set {slots : List (Owner F)} (h : slots.Pairwise Apart)
    (hbefore : ∀ o ∈ slots, Before n o) {i : ℕ} (hi : slots[i]? = some a) (hren : Renews n a b) :
    (slots.set i b).Pairwise Apart := by
  induction slots generalizing i with
  | nil => exact List.Pairwise.nil
  | cons o slots ih =>
    obtain ⟨hhead, htail⟩ := List.pairwise_cons.mp h
    have hslots : ∀ x ∈ slots, Before n x := fun x hx => hbefore x (List.mem_cons_of_mem o hx)
    cases i with
    | zero =>
      cases hi
      refine List.pairwise_cons.mpr ⟨fun x hx => ?_, htail⟩
      exact (hhead x hx).renews hren (hslots x hx)
    | succ i =>
      have hia : a ∈ slots := List.mem_of_getElem? hi
      refine List.pairwise_cons.mpr ⟨fun x hx => ?_, ih htail hslots hi⟩
      rcases List.mem_or_eq_of_mem_set hx with hold | rfl
      · exact hhead x hold
      · exact ((hhead a hia).symm.renews hren (hbefore o List.mem_cons_self)).symm

theorem pairwise_append {slots : List (Owner F)} (h : slots.Pairwise Apart)
    (hbefore : ∀ o ∈ slots, Before n o) (hren : Renews n (fun _ => none) b) :
    (slots ++ [b]).Pairwise Apart := by
  refine List.pairwise_append.mpr ⟨h, List.pairwise_singleton _ _, ?_⟩
  intro o ho x hx
  obtain rfl := List.mem_singleton.mp hx
  exact (Apart.none_left.renews hren (hbefore o ho)).symm

end Owners
