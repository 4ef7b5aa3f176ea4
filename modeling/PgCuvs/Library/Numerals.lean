import Mathlib.Algebra.Order.Ring.Int
import Mathlib.Data.Int.Basic

/-! Decimal numerals: printing them, and reading one from the front of a text as `strtoul` and
`strtoll` do. -/

namespace Numerals

def decimal (n : ℕ) : List Char := Nat.toDigits 10 n

def signedDecimal (z : ℤ) : List Char :=
  if z < 0 then '-' :: decimal z.natAbs else decimal z.natAbs

def isSpace (c : Char) : Bool :=
  c == ' ' || c == '\t' || c == '\n' || c == '\x0b' || c == '\x0c' || c == '\r'

def splitSign : List Char → Bool × List Char
  | '-' :: text => (true, text)
  | '+' :: text => (false, text)
  | text => (false, text)

def readNumeral (text : List Char) : Option (Bool × ℕ) :=
  let (negative, text) := splitSign (text.dropWhile isSpace)
  let digits := text.takeWhile Char.isDigit
  if digits = [] then none else some (negative, Nat.ofDigitChars 10 digits 0)

def strtoul (text : List Char) : Option UInt64 :=
  (readNumeral text).map fun (negative, n) =>
    if 2 ^ 64 ≤ n then UInt64.ofNat (2 ^ 64 - 1)
    else if negative then -UInt64.ofNat n else UInt64.ofNat n

def strtoll (text : List Char) : Option Int64 :=
  (readNumeral text).map fun (negative, n) =>
    if negative then if 2 ^ 63 < n then Int64.minValue else Int64.ofInt (-n)
    else if 2 ^ 63 ≤ n then Int64.maxValue else Int64.ofInt n

theorem decimal_length {n k : ℕ} (hk : 0 < k) (h : n < 10 ^ k) : (decimal n).length ≤ k :=
  (Nat.length_toDigits_le_iff (by decide) hk).mpr h

theorem decimal_cons (n : ℕ) : ∃ c digits, decimal n = c :: digits ∧ c.isDigit = true := by
  obtain ⟨c, digits, h⟩ := List.exists_cons_of_ne_nil (@Nat.toDigits_ne_nil n 10)
  refine ⟨c, digits, h, ?_⟩
  apply Nat.isDigit_of_mem_toDigits (b := 10) (n := n) (by decide) (by decide)
  rw [h]
  exact List.mem_cons_self

theorem isDigit_of_mem_decimal {n : ℕ} {c : Char} (h : c ∈ decimal n) : c.isDigit = true :=
  Nat.isDigit_of_mem_toDigits (by decide) (by decide) h

theorem takeWhile_decimal {n : ℕ} {rest : List Char}
    (hrest : ∀ c ∈ rest.head?, c.isDigit = false) :
    (decimal n ++ rest).takeWhile Char.isDigit = decimal n := by
  have hstop : rest.takeWhile Char.isDigit = [] := by
    cases rest with
    | nil => rfl
    | cons c rest => exact List.takeWhile_cons_of_neg (by rw [hrest c rfl]; decide)
  rw [List.takeWhile_append_of_pos fun c hc => isDigit_of_mem_decimal hc, hstop, List.append_nil]

theorem splitSign_decimal (n : ℕ) (rest : List Char) :
    splitSign ((decimal n ++ rest).dropWhile isSpace) = (false, decimal n ++ rest) := by
  obtain ⟨c, digits, hc, hdigit⟩ := decimal_cons n
  have hspace : isSpace c = false := by
    rw [Bool.eq_false_iff]
    intro h
    simp only [isSpace, Bool.or_eq_true, beq_iff_eq] at h
    rcases h with ((((rfl | rfl) | rfl) | rfl) | rfl) | rfl <;> exact absurd hdigit (by decide)
  rw [hc, List.cons_append, List.dropWhile_cons_of_neg (by rw [hspace]; decide)]
  unfold splitSign
  split
  · rename_i heq
    obtain ⟨rfl, -⟩ := List.cons.inj heq
    exact absurd hdigit (by decide)
  · rename_i heq
    obtain ⟨rfl, -⟩ := List.cons.inj heq
    exact absurd hdigit (by decide)
  · rfl

theorem readNumeral_decimal {n : ℕ} {rest : List Char}
    (hrest : ∀ c ∈ rest.head?, c.isDigit = false) :
    readNumeral (decimal n ++ rest) = some (false, n) := by
  have hne : decimal n ≠ [] := Nat.toDigits_ne_nil
  simp only [readNumeral, splitSign_decimal, takeWhile_decimal hrest, hne, if_false]
  exact congrArg (fun n => some (false, n)) Nat.ofDigitChars_ten_toDigits

theorem readNumeral_neg {n : ℕ} {rest : List Char}
    (hrest : ∀ c ∈ rest.head?, c.isDigit = false) :
    readNumeral ('-' :: (decimal n ++ rest)) = some (true, n) := by
  have hne : decimal n ≠ [] := Nat.toDigits_ne_nil
  have hsign : splitSign (('-' :: (decimal n ++ rest)).dropWhile isSpace)
      = (true, decimal n ++ rest) := rfl
  simp only [readNumeral, hsign, takeWhile_decimal hrest, hne, if_false]
  exact congrArg (fun n => some (true, n)) Nat.ofDigitChars_ten_toDigits

theorem strtoul_decimal {n : ℕ} (hn : n < 2 ^ 64) {rest : List Char}
    (hrest : ∀ c ∈ rest.head?, c.isDigit = false) :
    strtoul (decimal n ++ rest) = some (UInt64.ofNat n) := by
  simp only [strtoul, readNumeral_decimal hrest, Option.map_some, Nat.not_le.mpr hn, if_false,
    Bool.false_eq_true]

theorem strtoll_signedDecimal (x : Int64) {rest : List Char}
    (hrest : ∀ c ∈ rest.head?, c.isDigit = false) :
    strtoll (signedDecimal x.toInt ++ rest) = some x := by
  have hlow := x.le_toInt
  have hhigh := x.toInt_lt
  rw [signedDecimal]
  by_cases h : x.toInt < 0
  · have habs : -(x.toInt.natAbs : ℤ) = x.toInt := by omega
    have hfits : ¬2 ^ 63 < x.toInt.natAbs := by omega
    rw [if_pos h, List.cons_append, strtoll, readNumeral_neg hrest]
    simp only [Option.map_some, if_true, hfits, if_false, habs, Int64.ofInt_toInt]
  · have habs : (x.toInt.natAbs : ℤ) = x.toInt := by omega
    have hfits : ¬2 ^ 63 ≤ x.toInt.natAbs := by omega
    rw [if_neg h, strtoll, readNumeral_decimal hrest]
    simp only [Option.map_some, Bool.false_eq_true, hfits, if_false, habs, Int64.ofInt_toInt]

theorem signedDecimal_length (x : Int64) : (signedDecimal x.toInt).length ≤ 20 := by
  have hlow := x.le_toInt
  have hhigh := x.toInt_lt
  have hdigits : (decimal x.toInt.natAbs).length ≤ 19 :=
    decimal_length (by decide) (by omega)
  rw [signedDecimal]
  split_ifs
  · rw [List.length_cons]
    omega
  · omega

theorem not_mem_signedDecimal {c : Char} (hdigit : c.isDigit = false) (hsign : c ≠ '-') (z : ℤ) :
    c ∉ signedDecimal z := by
  have hdec : c ∉ decimal z.natAbs := fun h => by
    rw [isDigit_of_mem_decimal h] at hdigit
    exact nomatch hdigit
  rw [signedDecimal]
  split_ifs
  · exact fun h => (List.mem_cons.mp h).elim hsign hdec
  · exact hdec

end Numerals
