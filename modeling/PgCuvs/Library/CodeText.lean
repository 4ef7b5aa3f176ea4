import Mathlib.Data.List.Basic
import Mathlib.Data.List.Infix

/-! Texts made of fields and code words: a field ends where its separator stands, and a
word ends where a prefix-free code says so. -/

namespace CodeText

variable {α β : Type*}

section Fields

variable {sep : α} {a b x y : List α}

/-- Two texts that start with a field are equal only where the fields are. -/
theorem append_sep_inj (ha : sep ∉ a) (hb : sep ∉ b) :
    a ++ sep :: x = b ++ sep :: y ↔ a = b ∧ x = y := by
  refine ⟨fun h => ?_, fun h => by rw [h.1, h.2]⟩
  induction a generalizing b with
  | nil =>
    cases b with
    | nil => exact ⟨rfl, List.tail_eq_of_cons_eq h⟩
    | cons c b =>
      have hhead : sep = c := List.head_eq_of_cons_eq h
      exact absurd (hhead ▸ List.mem_cons_self) hb
  | cons c a ih =>
    cases b with
    | nil =>
      have hhead : c = sep := List.head_eq_of_cons_eq h
      exact absurd (hhead ▸ List.mem_cons_self) ha
    | cons c' b =>
      have hhead : c = c' := List.head_eq_of_cons_eq h
      have htail := ih (fun hm => ha (List.mem_cons_of_mem _ hm))
        (fun hm => hb (List.mem_cons_of_mem _ hm)) (List.tail_eq_of_cons_eq h)
      exact ⟨by rw [hhead, htail.1], htail.2⟩

theorem append_last_inj (ha : sep ∉ a) (hb : sep ∉ b) :
    x ++ sep :: a = y ++ sep :: b ↔ x = y ∧ a = b := by
  have hrev : x ++ sep :: a = y ++ sep :: b ↔
      a.reverse ++ sep :: x.reverse = b.reverse ++ sep :: y.reverse := by
    rw [← List.reverse_inj]
    simp only [List.reverse_append, List.reverse_cons, List.append_assoc, List.singleton_append]
  rw [hrev, append_sep_inj (by rwa [List.mem_reverse]) (by rwa [List.mem_reverse]),
    List.reverse_inj, List.reverse_inj, and_comm]

end Fields

section Words

/-- No word of a letter in `P` begins the word of another. -/
structure PrefixFree (code : α → List β) (P : α → Prop) : Prop where
  ne_nil : ∀ a, P a → code a ≠ []
  unique : ∀ a b, P a → P b → code a <+: code b → a = b

variable {code : α → List β} {P : α → Prop}

theorem PrefixFree.flatMap_injective (h : PrefixFree code P) {xs ys : List α}
    (hx : ∀ a ∈ xs, P a) (hy : ∀ a ∈ ys, P a) (heq : xs.flatMap code = ys.flatMap code) :
    xs = ys := by
  induction xs generalizing ys with
  | nil =>
    cases ys with
    | nil => rfl
    | cons b ys =>
      have hnil : code b = [] := (List.append_eq_nil_iff.mp heq.symm).1
      exact absurd hnil (h.ne_nil b (hy b List.mem_cons_self))
  | cons a xs ih =>
    cases ys with
    | nil =>
      have hnil : code a = [] := (List.append_eq_nil_iff.mp heq).1
      exact absurd hnil (h.ne_nil a (hx a List.mem_cons_self))
    | cons b ys =>
      have ha := hx a List.mem_cons_self
      have hb := hy b List.mem_cons_self
      rw [List.flatMap_cons, List.flatMap_cons] at heq
      -- the shorter of the two words begins the other
      have hab : a = b := by
        have hpa : code a <+: code b ++ ys.flatMap code := heq ▸ List.prefix_append _ _
        rcases List.prefix_or_prefix_of_prefix hpa (List.prefix_append _ _) with hp | hp
        · exact h.unique a b ha hb hp
        · exact (h.unique b a hb ha hp).symm
      subst hab
      have htail := ih (fun c hc => hx c (List.mem_cons_of_mem _ hc))
        (fun c hc => hy c (List.mem_cons_of_mem _ hc)) (List.append_cancel_left heq)
      rw [htail]

end Words

end CodeText
