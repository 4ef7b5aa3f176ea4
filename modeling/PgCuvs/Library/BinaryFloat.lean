import Mathlib.Algebra.Order.Field.Power
import Mathlib.Data.Rat.Cast.Order
import Mathlib.Order.Monotone.Basic
import Mathlib.Tactic.FieldSimp
import Mathlib.Tactic.Linarith
import Mathlib.Tactic.Positivity
import Mathlib.Tactic.Ring

/-! Binary interchange formats: bit patterns, the numbers they stand for, and rounding a
number to the nearest of them, ties to even. -/

namespace BinaryFloat

/-- A sign bit, `expBits` of exponent and `fracBits` of fraction. -/
structure Format where
  fracBits : ℕ
  expBits : ℕ
  one_le_fracBits : 1 ≤ fracBits
  two_le_expBits : 2 ≤ expBits

inductive Datum where
  | nan (sign : Bool)
  | infinite (sign : Bool)
  | finite (sign : Bool) (value : ℚ)

def signed (sign : Bool) (x : ℚ) : ℚ := if sign then -x else x

namespace Format

variable (F : Format)

def bias : ℤ := 2 ^ (F.expBits - 1) - 1

def patterns : ℕ := 2 ^ (F.expBits + F.fracBits)

/-- The pattern of infinity; the patterns below it are finite numbers. -/
def top : ℕ := (2 ^ F.expBits - 1) * 2 ^ F.fracBits

/-- The step between numbers of exponent field `e`. -/
def ulp (e : ℕ) : ℚ := 2 ^ (max (e : ℤ) 1 - F.bias - F.fracBits)

/-- The number of a pattern without sign. It goes on beyond the format's finite numbers. -/
def magnitude (m : ℕ) : ℚ :=
  (if m / 2 ^ F.fracBits = 0 then (m % 2 ^ F.fracBits : ℕ)
    else (2 ^ F.fracBits + m % 2 ^ F.fracBits : ℕ)) * F.ulp (m / 2 ^ F.fracBits)

def sign (n : ℕ) : Bool := n / F.patterns % 2 = 1

def datum (n : ℕ) : Datum :=
  if F.top < n % F.patterns then .nan (F.sign n)
  else if n % F.patterns = F.top then .infinite (F.sign n)
  else .finite (F.sign n) (signed (F.sign n) (F.magnitude (n % F.patterns)))

/-- Numbers from here on round to infinity. -/
def overflowBound : ℚ := 2 ^ F.bias * (2 - 1 / 2 ^ (F.fracBits + 1))

/-- Pattern `n` is `x` rounded to nearest, ties to even; the sign of a zero is kept. -/
structure RoundsTo (sign : Bool) (x : ℚ) (n : ℕ) : Prop where
  overflow : F.overflowBound ≤ |x| → F.datum n = .infinite sign
  nearest : |x| < F.overflowBound → ∃ value, F.datum n = .finite sign value ∧
    ∀ n' sign' value', F.datum n' = .finite sign' value' →
      |value - x| ≤ |value' - x| ∧ (value' ≠ value → |value' - x| = |value - x| → n % 2 = 0)

/-- Pattern `n` is what a conversion into the format makes of a datum. -/
def Converts : Datum → ℕ → Prop
  | .nan sign, n => F.datum n = .nan sign
  | .infinite sign, n => F.datum n = .infinite sign
  | .finite sign x, n => F.RoundsTo sign x n

end Format

/-- `v / 2 ^ s` to the nearest integer, ties to even, decided by the bits shifted out. -/
def roundShift (v s : ℕ) : ℕ :=
  if v / 2 ^ (s - 1) % 2 = 1 ∧ (v % 2 ^ (s - 1) ≠ 0 ∨ v / 2 ^ s % 2 = 1) then v / 2 ^ s + 1
  else v / 2 ^ s

theorem roundShift_le (v s : ℕ) : roundShift v s ≤ v / 2 ^ s + 1 := by
  rw [roundShift]
  split_ifs
  · exact le_rfl
  · exact Nat.le_succ _

theorem roundShift_near (v : ℕ) {s : ℕ} (hs : 1 ≤ s) :
    2 ^ s * roundShift v s ≤ v + 2 ^ (s - 1) ∧ v ≤ 2 ^ s * roundShift v s + 2 ^ (s - 1) := by
  obtain ⟨s, rfl⟩ := Nat.exists_eq_succ_of_ne_zero (Nat.ne_of_gt hs)
  have hbits := Nat.div_add_mod v (2 ^ s.succ)
  have hlow : v % 2 ^ s < 2 ^ s := Nat.mod_lt _ (Nat.two_pow_pos s)
  rw [Nat.mod_pow_succ] at hbits
  rw [roundShift, Nat.succ_sub_one]
  generalize v % 2 ^ s = low at *
  generalize v / 2 ^ s.succ = high at *
  rw [Nat.pow_succ] at *
  rcases Nat.mod_two_eq_zero_or_one (v / 2 ^ s) with hbit | hbit
  · rw [hbit] at hbits ⊢
    simp only [zero_ne_one, false_and, if_false]
    omega
  · rw [hbit] at hbits ⊢
    split_ifs with hup
    · rw [Nat.mul_succ]
      omega
    · have hexact : low = 0 := by
        by_contra hne
        exact hup ⟨rfl, Or.inl hne⟩
      omega

theorem roundShift_eq {v s w : ℕ} (hs : 1 ≤ s) (hlo : v < 2 ^ s * w + 2 ^ (s - 1))
    (hhi : 2 ^ s * w < v + 2 ^ (s - 1)) : roundShift v s = w := by
  obtain ⟨hup, hdown⟩ := roundShift_near v hs
  have hhalf : 2 ^ s = 2 ^ (s - 1) + 2 ^ (s - 1) := by
    rw [← Nat.two_mul, ← Nat.pow_succ', Nat.succ_eq_add_one, Nat.sub_add_cancel hs]
  have hstep : ∀ {a b : ℕ}, 2 ^ s * a < 2 ^ s * b + 2 ^ s → a ≤ b := by
    intro a b h
    rw [← Nat.mul_succ] at h
    exact Nat.lt_succ_iff.mp (Nat.lt_of_mul_lt_mul_left h)
  apply Nat.le_antisymm
  · apply hstep
    omega
  · apply hstep
    omega

/-- `v` in `f + 1` significant bits, to nearest, ties to even. -/
def roundBits (f v : ℕ) : ℕ :=
  if v.log2 ≤ f then v else 2 ^ (v.log2 - f) * roundShift v (v.log2 - f)

theorem roundBits_of_le {f v : ℕ} (h : v.log2 ≤ f) : roundBits f v = v := if_pos h

section RoundBits

variable {f v s : ℕ} (hv : v.log2 = f + (s + 1))
include hv

theorem roundBits_of_lt : roundBits f v = 2 ^ (s + 1) * roundShift v (s + 1) := by
  have hgap : v.log2 - f = s + 1 := by omega
  rw [roundBits, if_neg (by omega), hgap]

/-- Rounding moves a number by at most half the step. -/
theorem roundBits_near : roundBits f v ≤ v + 2 ^ s ∧ v ≤ roundBits f v + 2 ^ s := by
  rw [roundBits_of_lt hv]
  exact roundShift_near v (Nat.succ_pos s)

theorem roundBits_eq {w : ℕ} (hlo : v < 2 ^ (s + 1) * w + 2 ^ s)
    (hhi : 2 ^ (s + 1) * w < v + 2 ^ s) : roundBits f v = 2 ^ (s + 1) * w := by
  rw [roundBits_of_lt hv]
  exact congrArg (2 ^ (s + 1) * ·) (roundShift_eq (Nat.succ_pos s) hlo hhi)

end RoundBits

/-! Rounding on a grid. -/

section Grid

variable {f : ℕ → ℚ} {n : ℕ} {x : ℚ}

/-- `x`, between grid points `n` and `n + 1`, goes to the upper one. -/
def RoundsUp (f : ℕ → ℚ) (n : ℕ) (x : ℚ) : Prop :=
  f (n + 1) - x < x - f n ∨ (f (n + 1) - x = x - f n ∧ n % 2 = 1)

theorem nearest_of_roundsUp (hf : StrictMono f) (hlo : f n ≤ x) (hhi : x < f (n + 1))
    (h : RoundsUp f n x) (k : ℕ) :
    |f (n + 1) - x| ≤ |f k - x| ∧
      (k ≠ n + 1 → |f k - x| = |f (n + 1) - x| → (n + 1) % 2 = 0) := by
  have hle : f (n + 1) - x ≤ x - f n := h.elim le_of_lt fun h => h.1.le
  rw [abs_of_pos (sub_pos.mpr hhi)]
  rcases Nat.lt_or_ge n k with hk | hk
  · have hfk : f (n + 1) ≤ f k := hf.monotone hk
    rw [abs_of_nonneg (by linarith)]
    refine ⟨by linarith, fun hne heq => ?_⟩
    have hlt : f (n + 1) < f k := hf (by omega)
    linarith
  · have hfk : f k ≤ f n := hf.monotone hk
    rw [abs_of_nonpos (sub_nonpos.mpr (hfk.trans hlo))]
    refine ⟨by linarith, fun _ heq => ?_⟩
    rcases h with h | ⟨-, hodd⟩
    · linarith
    · omega

theorem nearest_of_not_roundsUp (hf : StrictMono f) (hlo : f n ≤ x) (hhi : x < f (n + 1))
    (h : ¬RoundsUp f n x) (k : ℕ) :
    |f n - x| ≤ |f k - x| ∧ (k ≠ n → |f k - x| = |f n - x| → n % 2 = 0) := by
  obtain ⟨hle, heven⟩ : x - f n ≤ f (n + 1) - x ∧ (f (n + 1) - x = x - f n → n % 2 = 0) := by
    obtain ⟨hlt, hne⟩ := not_or.mp h
    exact ⟨not_lt.mp hlt, fun heq => Nat.mod_two_ne_one.mp fun hodd => hne ⟨heq, hodd⟩⟩
  rw [abs_of_nonpos (sub_nonpos.mpr hlo)]
  rcases Nat.lt_or_ge n k with hk | hk
  · have hfk : f (n + 1) ≤ f k := hf.monotone hk
    rw [abs_of_nonneg (by linarith)]
    exact ⟨by linarith, fun _ heq => heven (by linarith)⟩
  · have hfk : f k ≤ f n := hf.monotone hk
    rw [abs_of_nonpos (by linarith)]
    refine ⟨by linarith, fun hne heq => ?_⟩
    have hlt : f k < f n := hf (by omega)
    linarith

end Grid

/-! The numbers of a format are such a grid. -/

namespace Format

variable {F : Format}

theorem ulp_pos (e : ℕ) : 0 < F.ulp e := zpow_pos (by norm_num) _

theorem ulp_one : F.ulp 1 = F.ulp 0 := rfl

theorem ulp_succ {e : ℕ} (he : e ≠ 0) : F.ulp (e + 1) = 2 * F.ulp e := by
  have h1 : max ((e : ℤ)) 1 = e := max_eq_left (by omega)
  have h2 : max (((e + 1 : ℕ) : ℤ)) 1 = e + 1 := by
    rw [Nat.cast_succ]
    exact max_eq_left (by omega)
  rw [ulp, ulp, h1, h2, show (e : ℤ) + 1 - F.bias - F.fracBits = 1 + (e - F.bias - F.fracBits) by
    ring, zpow_add₀ (by norm_num), zpow_one]

theorem magnitude_succ (m : ℕ) :
    F.magnitude (m + 1) = F.magnitude m + F.ulp (m / 2 ^ F.fracBits) := by
  have hpos : 0 < 2 ^ F.fracBits := Nat.two_pow_pos _
  have hdm := Nat.div_add_mod m (2 ^ F.fracBits)
  have hlt := Nat.mod_lt m hpos
  rw [magnitude, magnitude]
  generalize hq : m / 2 ^ F.fracBits = q at *
  generalize hr : m % 2 ^ F.fracBits = r at *
  generalize 2 ^ F.fracBits = p at *
  by_cases hcarry : r + 1 < p
  · have hdiv : (m + 1) / p = q := by
      rw [← hdm, Nat.add_assoc, Nat.mul_add_div hpos, Nat.div_eq_of_lt hcarry, Nat.add_zero]
    have hmod : (m + 1) % p = r + 1 := by
      rw [← hdm, Nat.add_assoc, Nat.mul_add_mod, Nat.mod_eq_of_lt hcarry]
    rw [hdiv, hmod]
    split_ifs <;> push_cast <;> ring
  · have hr' : r + 1 = p := by omega
    have hm : m + 1 = p * (q + 1) := by rw [← hdm, Nat.add_assoc, hr']; ring
    rw [hm, Nat.mul_div_cancel_left _ hpos, Nat.mul_mod_right, if_neg (by omega)]
    by_cases h0 : q = 0
    · subst h0
      rw [if_pos rfl, Nat.zero_add, ulp_one, ← hr']
      push_cast
      ring
    · rw [if_neg h0, ulp_succ h0, ← hr']
      push_cast
      ring

theorem magnitude_strictMono : StrictMono F.magnitude := by
  refine strictMono_nat_of_lt_succ fun m => ?_
  rw [magnitude_succ]
  exact lt_add_of_pos_right _ (ulp_pos _)

theorem magnitude_zero : F.magnitude 0 = 0 := by
  rw [magnitude, Nat.zero_div, Nat.zero_mod, if_pos rfl, Nat.cast_zero, zero_mul]

theorem magnitude_subnormal {r : ℕ} (hr : r < 2 ^ F.fracBits) :
    F.magnitude r = r * F.ulp 0 := by
  rw [magnitude, Nat.div_eq_of_lt hr, Nat.mod_eq_of_lt hr, if_pos rfl]

theorem magnitude_normal {q r : ℕ} (hq : q ≠ 0) (hr : r < 2 ^ F.fracBits) :
    F.magnitude (q * 2 ^ F.fracBits + r) = (2 ^ F.fracBits + r : ℕ) * F.ulp q := by
  have hpos : 0 < 2 ^ F.fracBits := Nat.two_pow_pos _
  have hdiv : (q * 2 ^ F.fracBits + r) / 2 ^ F.fracBits = q := by
    rw [Nat.mul_comm, Nat.mul_add_div hpos, Nat.div_eq_of_lt hr, Nat.add_zero]
  have hmod : (q * 2 ^ F.fracBits + r) % 2 ^ F.fracBits = r := by
    rw [Nat.mul_comm, Nat.mul_add_mod, Nat.mod_eq_of_lt hr]
  rw [magnitude, hdiv, hmod, if_neg hq]

theorem magnitude_nonneg (m : ℕ) : 0 ≤ F.magnitude m := by
  rw [← magnitude_zero (F := F)]
  exact magnitude_strictMono.monotone (Nat.zero_le m)

theorem top_lt_patterns : F.top < F.patterns := by
  rw [top, patterns, Nat.pow_add]
  exact Nat.mul_lt_mul_of_pos_right (Nat.sub_lt (Nat.two_pow_pos _) Nat.one_pos)
    (Nat.two_pow_pos _)

theorem top_even : F.top % 2 = 0 := by
  obtain ⟨p, hp⟩ := Nat.exists_eq_succ_of_ne_zero (Nat.ne_of_gt F.one_le_fracBits)
  rw [top, hp, Nat.pow_succ, ← Nat.mul_assoc]
  exact Nat.mul_mod_left _ 2

theorem bias_expBits : ((2 ^ F.expBits - 1 : ℕ) : ℤ) = 2 * F.bias + 1 := by
  obtain ⟨w, hw⟩ := Nat.exists_eq_succ_of_ne_zero 
    (Nat.ne_of_gt (Nat.lt_of_lt_of_le Nat.zero_lt_two F.two_le_expBits))
  have hpos : 1 ≤ 2 ^ F.expBits := Nat.one_le_two_pow
  rw [bias, Nat.cast_sub hpos, hw, Nat.succ_sub_one, Nat.pow_succ]
  push_cast
  ring

theorem magnitude_top : F.magnitude F.top = 2 ^ (F.bias + 1) := by
  have hpos : 0 < 2 ^ F.fracBits := Nat.two_pow_pos _
  have hexp : 2 ^ 2 ≤ 2 ^ F.expBits := Nat.pow_le_pow_right Nat.zero_lt_two F.two_le_expBits
  have hmax : max (((2 ^ F.expBits - 1 : ℕ)) : ℤ) 1 = 2 * F.bias + 1 := by
    rw [← bias_expBits]
    exact max_eq_left (by omega)
  rw [magnitude, top, Nat.mul_div_cancel _ hpos, Nat.mul_mod_left, if_neg (by omega),
    Nat.add_zero, ulp, hmax, Nat.cast_pow, Nat.cast_ofNat, ← zpow_natCast,
    ← zpow_add₀ (by norm_num)]
  congr 1
  ring

theorem magnitude_top_pred : ∃ n, F.top = n + 1 ∧ n % 2 = 1 ∧
    F.magnitude F.top - F.overflowBound = F.overflowBound - F.magnitude n := by
  have hexp : 2 ^ 2 ≤ 2 ^ F.expBits := Nat.pow_le_pow_right Nat.zero_lt_two F.two_le_expBits
  have hpos : 0 < 2 ^ F.fracBits := Nat.two_pow_pos _
  have htop : F.top = (2 ^ F.expBits - 2) * 2 ^ F.fracBits + (2 ^ F.fracBits - 1) + 1 := by
    rw [top, Nat.add_assoc, Nat.sub_add_cancel hpos, ← Nat.succ_mul]
    congr 1
    omega
  set n := (2 ^ F.expBits - 2) * 2 ^ F.fracBits + (2 ^ F.fracBits - 1)
  have heven := F.top_even
  refine ⟨n, htop, by omega, ?_⟩
  have hdiv : n / 2 ^ F.fracBits = 2 ^ F.expBits - 2 := by
    show ((2 ^ F.expBits - 2) * 2 ^ F.fracBits + (2 ^ F.fracBits - 1)) / 2 ^ F.fracBits = _
    rw [Nat.mul_comm, Nat.mul_add_div hpos, Nat.div_eq_of_lt (Nat.sub_lt hpos Nat.one_pos),
      Nat.add_zero]
  have hstep := magnitude_succ (F := F) n
  have hmax : max (((2 ^ F.expBits - 2 : ℕ)) : ℤ) 1 = 2 * F.bias := by
    have h := F.bias_expBits
    rw [max_eq_left (by omega)]
    omega
  rw [← htop, hdiv, ulp, hmax, magnitude_top, show 2 * F.bias - F.bias - F.fracBits =
    F.bias - F.fracBits by ring, zpow_sub₀ (by norm_num), zpow_natCast] at hstep
  rw [magnitude_top, overflowBound, eq_sub_of_add_eq hstep.symm, zpow_add₀ (by norm_num),
    zpow_one, pow_succ]
  field_simp
  ring

def pattern (F : Format) (sign : Bool) (m : ℕ) : ℕ := (if sign then F.patterns else 0) + m

theorem pattern_mod (sign : Bool) {m : ℕ} (hm : m < F.patterns) :
    F.pattern sign m % F.patterns = m := by
  rw [pattern]
  cases sign
  · rw [if_neg Bool.false_ne_true, Nat.zero_add, Nat.mod_eq_of_lt hm]
  · rw [if_pos rfl, Nat.add_mod_left, Nat.mod_eq_of_lt hm]

theorem sign_pattern (sign : Bool) {m : ℕ} (hm : m < F.patterns) :
    F.sign (F.pattern sign m) = sign := by
  have hpos : 0 < F.patterns := Nat.zero_lt_of_lt hm
  rw [Format.sign, pattern]
  cases sign
  · rw [if_neg Bool.false_ne_true, Nat.zero_add, Nat.div_eq_of_lt hm]
    rfl
  · rw [if_pos rfl, Nat.add_div_left _ hpos, Nat.div_eq_of_lt hm]
    rfl

theorem pattern_even (sign : Bool) (m : ℕ) : F.pattern sign m % 2 = m % 2 := by
  obtain ⟨k, hk⟩ := Nat.exists_eq_succ_of_ne_zero (show F.expBits + F.fracBits ≠ 0 from
    Nat.ne_of_gt (Nat.add_pos_right _ F.one_le_fracBits))
  have heven : F.patterns % 2 = 0 := by
    rw [patterns, hk, Nat.pow_succ]
    exact Nat.mul_mod_left _ 2
  rw [pattern]
  split_ifs
  · omega
  · rw [Nat.zero_add]

theorem datum_infinite (sign : Bool) : F.datum (F.pattern sign F.top) = .infinite sign := by
  rw [datum, pattern_mod sign F.top_lt_patterns, sign_pattern sign F.top_lt_patterns,
    if_neg (Nat.lt_irrefl _), if_pos rfl]

theorem datum_nan (sign : Bool) {m : ℕ} (hm : m < F.patterns) (h : F.top < m) :
    F.datum (F.pattern sign m) = .nan sign := by
  rw [datum, pattern_mod sign hm, sign_pattern sign hm, if_pos h]

theorem datum_finite (sign : Bool) {m : ℕ} (h : m < F.top) :
    F.datum (F.pattern sign m) = .finite sign (signed sign (F.magnitude m)) := by
  have hm := h.trans F.top_lt_patterns
  rw [datum, pattern_mod sign hm, sign_pattern sign hm, if_neg h.le.not_gt, if_neg h.ne]

theorem datum_eq_finite {n : ℕ} {sign : Bool} {value : ℚ} (h : F.datum n = .finite sign value) :
    ∃ m, value = signed sign (F.magnitude m) := by
  rw [datum] at h
  split_ifs at h
  obtain ⟨rfl, rfl⟩ := Datum.finite.inj h
  exact ⟨_, rfl⟩

end Format

theorem abs_signed (sign : Bool) (x : ℚ) : |signed sign x| = |x| := by
  rw [signed]
  split_ifs
  · exact abs_neg x
  · rfl

theorem abs_signed_sub (sign : Bool) (a b : ℚ) : |signed sign a - signed sign b| = |a - b| := by
  rw [signed, signed]
  split_ifs
  · rw [neg_sub_neg, abs_sub_comm]
  · rfl

theorem abs_signed_sub_of_ne {sign sign' : Bool} (h : sign ≠ sign') {a b : ℚ} (ha : 0 ≤ a)
    (hb : 0 ≤ b) : |signed sign a - signed sign' b| = a + b := by
  cases sign <;> cases sign' <;> simp only [signed, ne_eq, reduceCtorEq, not_true_eq_false,
    not_false_eq_true, if_true, if_false, Bool.false_eq_true] at h ⊢
  · rw [sub_neg_eq_add, abs_of_nonneg (add_nonneg ha hb)]
  · rw [← neg_add', abs_neg, abs_of_nonneg (add_nonneg ha hb)]

namespace Format

variable {F : Format} {y : ℚ} {n m : ℕ}

theorem nearest_signed (sign : Bool) (hy : 0 ≤ y) (hm : m < F.top)
    (h : ∀ k, |F.magnitude m - y| ≤ |F.magnitude k - y| ∧
      (k ≠ m → |F.magnitude k - y| = |F.magnitude m - y| → m % 2 = 0)) :
    ∃ value, F.datum (F.pattern sign m) = .finite sign value ∧
      ∀ n' sign' value', F.datum n' = .finite sign' value' →
        |value - signed sign y| ≤ |value' - signed sign y| ∧
          (value' ≠ value → |value' - signed sign y| = |value - signed sign y| →
            F.pattern sign m % 2 = 0) := by
  refine ⟨_, datum_finite sign hm, fun n' sign' value' hn' => ?_⟩
  obtain ⟨k, rfl⟩ := datum_eq_finite hn'
  rw [abs_signed_sub, pattern_even]
  by_cases hsign : sign' = sign
  · subst hsign
    rw [abs_signed_sub]
    refine ⟨(h k).1, fun hne => (h k).2 ?_⟩
    rintro rfl
    exact hne rfl
  · have hk := magnitude_nonneg (F := F) k
    obtain ⟨hzero, hzeroTie⟩ := h 0
    rw [magnitude_zero, zero_sub, abs_neg, abs_of_nonneg hy] at hzero hzeroTie
    rw [abs_signed_sub_of_ne hsign hk hy]
    refine ⟨by linarith, fun hne heq => ?_⟩
    -- A tie with the other sign is a tie with zero.
    by_cases hm0 : m = 0
    · rw [hm0]
    · exact hzeroTie (fun h0 => hm0 h0.symm) (by linarith)

/-- A magnitude between two patterns goes to the nearer, on a tie to the even one. -/
theorem roundsTo_of_between (sign : Bool) (hn : n < F.top) (hlo : F.magnitude n ≤ y)
    (hhi : y < F.magnitude (n + 1))
    (hm : (RoundsUp F.magnitude n y ∧ m = n + 1) ∨ (¬RoundsUp F.magnitude n y ∧ m = n)) :
    F.RoundsTo sign (signed sign y) (F.pattern sign m) := by
  have hy : 0 ≤ y := (magnitude_nonneg n).trans hlo
  have hmax : m ≤ F.top := by
    rcases hm with ⟨-, rfl⟩ | ⟨-, rfl⟩
    · exact hn
    · exact hn.le
  obtain ⟨last, htop, hodd, hmid⟩ := magnitude_top_pred (F := F)
  -- Whether the bound is reached decides whether the result is infinity.
  have hbound : F.overflowBound ≤ y ↔ m = F.top := by
    have hstep : F.magnitude last < F.magnitude F.top := magnitude_strictMono (by omega)
    rcases Nat.lt_or_ge n last with hlast | hlast
    · have hle : F.magnitude (n + 1) ≤ F.magnitude last := magnitude_strictMono.monotone hlast
      constructor
      · intro h
        linarith
      · rcases hm with ⟨-, rfl⟩ | ⟨-, rfl⟩
        · omega
        · omega
    · obtain rfl : n = last := by omega
      rw [htop] at hmid ⊢
      rcases hm with ⟨hup, rfl⟩ | ⟨hdown, rfl⟩
      · refine ⟨fun _ => rfl, fun _ => ?_⟩
        rcases hup with hlt | ⟨heq, -⟩
        · linarith
        · linarith
      · refine ⟨fun h => absurd ?_ hdown, fun h => by omega⟩
        rcases h.eq_or_lt with h | h
        · exact Or.inr ⟨by linarith, hodd⟩
        · exact Or.inl (by linarith)
  constructor
  · rw [abs_signed, abs_of_nonneg hy, hbound]
    rintro rfl
    exact datum_infinite sign
  · rw [abs_signed, abs_of_nonneg hy, ← not_le, hbound]
    intro hne
    refine nearest_signed sign hy (by omega) ?_
    rcases hm with ⟨hup, rfl⟩ | ⟨hdown, rfl⟩
    · exact nearest_of_roundsUp magnitude_strictMono hlo hhi hup
    · exact nearest_of_not_roundsUp magnitude_strictMono hlo hhi hdown

theorem roundsUp_iff {v s : ℕ} (hs : 1 ≤ s) (hn : n % 2 = v / 2 ^ s % 2)
    (hy : y = F.magnitude n + F.ulp (n / 2 ^ F.fracBits) * ((v % 2 ^ s : ℕ) / 2 ^ s)) :
    RoundsUp F.magnitude n y ↔
      v / 2 ^ (s - 1) % 2 = 1 ∧ (v % 2 ^ (s - 1) ≠ 0 ∨ v / 2 ^ s % 2 = 1) := by
  obtain ⟨s, rfl⟩ := Nat.exists_eq_succ_of_ne_zero (Nat.ne_of_gt hs)
  have hpow : (0 : ℚ) < 2 ^ s.succ := by positivity
  have hstep : 0 < F.ulp (n / 2 ^ F.fracBits) / 2 ^ s.succ := div_pos (ulp_pos _) hpow
  have hpast : y - F.magnitude n =
      F.ulp (n / 2 ^ F.fracBits) / 2 ^ s.succ * (v % 2 ^ s.succ : ℕ) := by
    rw [hy]
    ring
  have hleft : F.magnitude (n + 1) - y =
      F.ulp (n / 2 ^ F.fracBits) / 2 ^ s.succ * ((2 ^ s.succ : ℕ) - (v % 2 ^ s.succ : ℕ) : ℚ) := by
    rw [magnitude_succ, hy]
    push_cast
    field_simp
    ring
  rw [RoundsUp, hpast, hleft, hn, mul_lt_mul_iff_right₀ hstep, mul_right_inj' hstep.ne',
    sub_lt_iff_lt_add, sub_eq_iff_eq_add, ← Nat.cast_add, Nat.cast_lt, Nat.cast_inj,
    Nat.mod_pow_succ, Nat.succ_sub_one]
  generalize v / 2 ^ s.succ % 2 = odd
  have hlow : v % 2 ^ s < 2 ^ s := Nat.mod_lt _ (Nat.two_pow_pos s)
  generalize v % 2 ^ s = low at *
  rw [Nat.pow_succ]
  rcases Nat.mod_two_eq_zero_or_one (v / 2 ^ s) with hbit | hbit
  · rw [hbit]
    omega
  · rw [hbit]
    omega

/-- Shifting `s` bits out of `v` with `roundShift` rounds. -/
theorem roundsTo_of_shift (sign : Bool) {b v s : ℕ} (hs : 1 ≤ s) (heven : b % 2 = 0)
    (hn : b + v / 2 ^ s < F.top)
    (hy : y = F.magnitude (b + v / 2 ^ s) +
      F.ulp ((b + v / 2 ^ s) / 2 ^ F.fracBits) * ((v % 2 ^ s : ℕ) / 2 ^ s)) :
    F.RoundsTo sign (signed sign y) (F.pattern sign (b + roundShift v s)) := by
  have hu := ulp_pos (F := F) ((b + v / 2 ^ s) / 2 ^ F.fracBits)
  have hpow : (0 : ℚ) < 2 ^ s := by positivity
  have ht : ((v % 2 ^ s : ℕ) : ℚ) / 2 ^ s < 1 := by
    rw [div_lt_one hpow]
    exact_mod_cast Nat.mod_lt v (Nat.two_pow_pos s)
  have ht0 : 0 ≤ ((v % 2 ^ s : ℕ) : ℚ) / 2 ^ s := by positivity
  have hup := roundsUp_iff hs (by omega) hy
  refine roundsTo_of_between sign hn ?_ ?_ ?_
  · rw [hy]
    exact le_add_of_nonneg_right (mul_nonneg hu.le ht0)
  · rw [hy, magnitude_succ]
    exact add_lt_add_right (mul_lt_of_lt_one_right hu ht) _
  · rw [hup, roundShift]
    split_ifs with h
    · exact Or.inl ⟨h, rfl⟩
    · exact Or.inr ⟨h, rfl⟩

theorem roundsTo_of_top_le (sign : Bool) (h : F.magnitude F.top ≤ y) :
    F.RoundsTo sign (signed sign y) (F.pattern sign F.top) := by
  have hy : 0 ≤ y := (magnitude_nonneg F.top).trans h
  obtain ⟨last, htop, -, hmid⟩ := magnitude_top_pred (F := F)
  have hstep : F.magnitude last < F.magnitude F.top := magnitude_strictMono (by omega)
  constructor
  · exact fun _ => datum_infinite sign
  · rw [abs_signed, abs_of_nonneg hy]
    intro hlt
    linarith

end Format

end BinaryFloat
