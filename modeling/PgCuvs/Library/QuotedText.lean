import Mathlib.Data.List.Infix

/-! Searching a text for a quoted key. The text alternates between plain stretches and quoted
ones, and a key is a quoted stretch that the separator follows. -/

namespace QuotedText

variable {α : Type} [DecidableEq α]

/-- The text from the first occurrence of `pat` on. -/
def strstr (text pat : List α) : Option (List α) :=
  if pat.isPrefixOf text then some text
  else
    match text with
    | [] => none
    | _ :: rest => strstr rest pat

/-- A quoted stretch and the plain one after it, known under a label. -/
structure Cell (ι α : Type) where
  label : ι
  quoted : List α
  plain : List α

variable {ι : Type} (quote sep : α)

def render (lead : List α) : List (Cell ι α) → List α
  | [] => lead
  | c :: cells => lead ++ quote :: (c.quoted ++ quote :: render c.plain cells)

def pattern (key : List α) : List α := quote :: (key ++ [quote, sep])

/-- The cells from the first one on that is the key and not a value. -/
def seek (key : List α) : List (Cell ι α) → List (Cell ι α)
  | [] => []
  | c :: cells =>
    if c.plain.head? = some sep ∧ c.quoted = key then c :: cells else seek key cells

theorem seek_suffix (key : List α) (cells : List (Cell ι α)) : seek sep key cells <:+ cells := by
  induction cells with
  | nil => exact List.suffix_rfl
  | cons c cells ih =>
    rw [seek]
    split_ifs
    · exact List.suffix_rfl
    · exact ih.trans (List.suffix_cons c cells)

/-- No stretch holds a quote, and none between two quoted ones is the key. -/
def Clear (key : List α) (cells : List (Cell ι α)) : Prop :=
  ∀ c ∈ cells, quote ∉ c.quoted ∧ quote ∉ c.plain ∧ c.plain ≠ key

variable {quote sep}

theorem strstr_of_prefix {text pat : List α} (h : pat <+: text) : strstr text pat = some text := by
  rw [strstr.eq_def, if_pos (List.isPrefixOf_iff_prefix.mpr h)]

theorem strstr_of_not_prefix {c : α} {text pat : List α} (h : ¬pat <+: c :: text) :
    strstr (c :: text) pat = strstr text pat := by
  rw [strstr.eq_def, if_neg fun hp => h (List.isPrefixOf_iff_prefix.mp hp)]

theorem strstr_nil {c : α} {pat : List α} : strstr [] (c :: pat) = none := by
  rw [strstr.eq_def, if_neg (by simp)]

theorem strstr_plain {lead : List α} (hlead : quote ∉ lead) (text pat : List α) :
    strstr (lead ++ text) (quote :: pat) = strstr text (quote :: pat) := by
  induction lead with
  | nil => rfl
  | cons c lead ih =>
    obtain ⟨hc, hlead⟩ := not_or.mp (mt List.mem_cons.mpr hlead)
    rw [List.cons_append, strstr_of_not_prefix, ih hlead]
    intro hp
    exact hc (List.cons_prefix_cons.mp hp).1

omit [DecidableEq α] in
theorem append_quote_prefix_iff {a b x y : List α} (ha : quote ∉ a) (hb : quote ∉ b) :
    a ++ quote :: x <+: b ++ quote :: y ↔ a = b ∧ x <+: y := by
  induction a generalizing b with
  | nil =>
    cases b with
    | nil => simp [List.cons_prefix_cons]
    | cons d b =>
      obtain ⟨hd, -⟩ := not_or.mp (mt List.mem_cons.mpr hb)
      simp [List.cons_prefix_cons, hd]
  | cons c a ih =>
    obtain ⟨hc, ha⟩ := not_or.mp (mt List.mem_cons.mpr ha)
    cases b with
    | nil => simp [List.cons_prefix_cons, Ne.symm hc]
    | cons d b =>
      obtain ⟨-, hb⟩ := not_or.mp (mt List.mem_cons.mpr hb)
      rw [List.cons_append, List.cons_append, List.cons_prefix_cons, ih ha hb, List.cons.injEq,
        and_assoc]

omit [DecidableEq α] in
theorem render_append (lead more : List α) (cells : List (Cell ι α)) :
    render quote (lead ++ more) cells = lead ++ render quote more cells := by
  cases cells with
  | nil => rfl
  | cons c cells => exact List.append_assoc lead more _

omit [DecidableEq α] in
theorem head?_render (hsep : sep ≠ quote) (lead : List α) (cells : List (Cell ι α)) :
    [sep] <+: render quote lead cells ↔ lead.head? = some sep := by
  cases lead with
  | nil =>
    cases cells with
    | nil => simp [render]
    | cons c cells => simp [render, List.cons_prefix_cons, hsep]
  | cons d lead =>
    cases cells with
    | nil => simp [render, List.cons_prefix_cons, eq_comm]
    | cons c cells => simp [render, List.cons_prefix_cons, eq_comm]

/-- The search for a key ends at its cell, whatever the values are. -/
theorem strstr_render (hsep : sep ≠ quote) {key : List α} (hkey : quote ∉ key) {lead : List α}
    (hlead : quote ∉ lead) {cells : List (Cell ι α)} (hclear : Clear quote key cells) :
    strstr (render quote lead cells) (pattern quote sep key) =
      match seek sep key cells with
      | [] => none
      | found => some (render quote [] found) := by
  induction cells generalizing lead with
  | nil =>
    rw [render, pattern, ← List.append_nil lead, strstr_plain hlead, strstr_nil]
    rfl
  | cons c cells ih =>
    obtain ⟨⟨hquoted, hplain, hne⟩, hrest⟩ := List.forall_mem_cons.mp hclear
    have hhere : pattern quote sep key <+: quote :: (c.quoted ++ quote :: render quote c.plain cells)
        ↔ c.plain.head? = some sep ∧ c.quoted = key := by
      rw [pattern, List.cons_prefix_cons, append_quote_prefix_iff hkey hquoted, head?_render hsep]
      constructor
      · rintro ⟨-, rfl, h⟩
        exact ⟨h, rfl⟩
      · rintro ⟨h, rfl⟩
        exact ⟨rfl, rfl, h⟩
    have hclosing : ¬pattern quote sep key <+: quote :: render quote c.plain cells := by
      rw [pattern, List.cons_prefix_cons]
      rintro ⟨-, hp⟩
      cases cells with
      | nil => exact hplain (hp.subset (List.mem_append_right key List.mem_cons_self))
      | cons d cells => exact hne ((append_quote_prefix_iff hkey hplain).mp hp).1.symm
    rw [render, pattern, strstr_plain hlead, ← pattern, seek]
    by_cases h : c.plain.head? = some sep ∧ c.quoted = key
    · rw [if_pos h, strstr_of_prefix (hhere.mpr h)]
      rfl
    · rw [if_neg h, strstr_of_not_prefix (mt hhere.mp h), pattern, strstr_plain hquoted, ← pattern,
        strstr_of_not_prefix hclosing]
      exact ih hplain hrest

end QuotedText
