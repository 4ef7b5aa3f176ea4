import Mathlib.Data.Nat.Bitwise
import PgCuvs.Export.Tuples
import PgCuvs.Library.BinaryFloat

/-! The `halfvec` elements of an export: `float_to_half` against the two formats. -/

namespace PgCuvs

open BinaryFloat

def binary32 : Format := ⟨23, 8, by decide, by decide⟩

def binary16 : Format := ⟨10, 5, by decide, by decide⟩

/-- `float_to_half` without the sign, on the exponent field and the fraction. -/
def halfMagnitude (e m : ℕ) : ℕ :=
  if e = 255 then 0x7C00 + if m ≠ 0 then 0x200 else 0
  else if 143 ≤ e then 0x7C00
  else if e ≤ 112 then if e < 102 then 0 else roundShift (2 ^ 23 + m) (126 - e)
  else (e - 112) * 2 ^ 10 + roundShift m 13

/-! From bit operations to arithmetic. -/

section Bits

theorem and_two_pow_ne_zero (a : UInt32) {i : ℕ} {b : UInt32} (hb : b.toNat = 2 ^ i) :
    a &&& b ≠ 0 ↔ a.toNat / 2 ^ i % 2 = 1 := by
  rw [Ne, ← UInt32.toNat_inj, UInt32.toNat_and, hb, Nat.and_two_pow,
    Nat.testBit_eq_decide_div_mod_eq]
  by_cases h : a.toNat / 2 ^ i % 2 = 1
  · simp [h]
  · simp [h]

theorem and_mask_toNat (a : UInt32) {i : ℕ} {b : UInt32} (hb : b.toNat = 2 ^ i - 1) :
    (a &&& b).toNat = a.toNat % 2 ^ i := by
  rw [UInt32.toNat_and, hb, Nat.and_two_pow_sub_one_eq_mod]

theorem and_mask_ne_zero (a : UInt32) {i : ℕ} {b : UInt32} (hb : b.toNat = 2 ^ i - 1) :
    a &&& b ≠ 0 ↔ a.toNat % 2 ^ i ≠ 0 := by
  rw [Ne, ← UInt32.toNat_inj, and_mask_toNat a hb]
  rfl

theorem shiftRight_toNat (a : UInt32) {b : UInt32} (hb : b.toNat < 32) :
    (a >>> b).toNat = a.toNat / 2 ^ b.toNat := by
  rw [UInt32.toNat_shiftRight, Nat.mod_eq_of_lt hb, Nat.shiftRight_eq_div_pow]

theorem sign_or_toNat (x m : UInt32) (hm : m.toNat < 2 ^ 15) :
    (((x >>> 16) &&& 0x8000) ||| m).toUInt16.toNat =
      binary16.pattern (binary32.sign x.toNat) m.toNat := by
  have hlt : m.toNat < binary16.patterns := hm
  have hsign : ((x >>> 16) &&& 0x8000).toNat =
      if binary32.sign x.toNat then binary16.patterns else 0 := by
    have hx : x.toNat / 2 ^ 16 / 2 ^ 15 = x.toNat / binary32.patterns :=
      Nat.div_div_eq_div_mul _ _ _
    have hbit : (0x8000 : UInt32).toNat = 2 ^ 15 := rfl
    rw [UInt32.toNat_and, shiftRight_toNat x (by decide), hbit, Nat.and_two_pow,
      Nat.testBit_eq_decide_div_mod_eq, show (16 : UInt32).toNat = 16 from rfl, hx]
    change (binary32.sign x.toNat).toNat * 2 ^ 15 = _
    cases binary32.sign x.toNat
    · rfl
    · rfl
  rw [UInt32.toNat_toUInt16, UInt32.toNat_or, hsign, Format.pattern]
  cases binary32.sign x.toNat
  · rw [if_neg Bool.false_ne_true, Nat.zero_or, Nat.zero_add]
    exact Nat.mod_eq_of_lt (hm.trans (by decide))
  · have hor := Nat.two_pow_add_eq_or_of_lt hm 1
    rw [Nat.mul_one] at hor
    rw [if_pos rfl, show binary16.patterns = 2 ^ 15 from rfl, ← hor]
    exact Nat.mod_eq_of_lt (by omega)

theorem toNat_ofNat {n : ℕ} (h : n < 2 ^ 32) : (UInt32.ofNat n).toNat = n :=
  UInt32.toNat_ofNat_of_lt' h

theorem roundNormal_toNat (mant : UInt32) (hm : mant.toNat < 2 ^ 23) :
    (if mant &&& 0x1000 ≠ 0 ∧ (mant &&& 0xFFF ≠ 0 ∨ (mant >>> 13) &&& 1 ≠ 0) then
      (mant >>> 13) + 1 else mant >>> 13).toNat = roundShift mant.toNat 13 := by
  have hshift : (mant >>> 13).toNat = mant.toNat / 2 ^ 13 := shiftRight_toNat mant (by decide)
  rw [roundShift]
  simp only [and_two_pow_ne_zero mant (i := 12) (b := 0x1000) rfl,
    and_mask_ne_zero mant (i := 12) (b := 0xFFF) rfl,
    and_two_pow_ne_zero (mant >>> 13) (i := 0) (b := 1) rfl, hshift, Nat.pow_zero, Nat.div_one]
  split_ifs
  · rw [UInt32.toNat_add, hshift]
    exact Nat.mod_eq_of_lt (by change _ + 1 < 2 ^ 32; omega)
  · exact hshift

theorem roundSubnormal_toNat (mant shift : UInt32) (hm : mant.toNat < 2 ^ 24)
    (hpos : 1 ≤ shift.toNat) (hlt : shift.toNat < 32) :
    (if (mant >>> (shift - 1)) &&& 1 ≠ 0 ∧
        (mant &&& ((1 <<< (shift - 1)) - 1) ≠ 0 ∨ (mant >>> shift) &&& 1 ≠ 0) then
      (mant >>> shift) + 1 else mant >>> shift).toNat = roundShift mant.toNat shift.toNat := by
  have hpred : (shift - 1).toNat = shift.toNat - 1 :=
    UInt32.toNat_sub_of_le shift 1 (UInt32.le_iff_toNat_le.mpr hpos)
  have hone : ((1 : UInt32) <<< (shift - 1)).toNat = 2 ^ (shift.toNat - 1) := by
    have hpow : 2 ^ (shift.toNat - 1) < 2 ^ 32 := Nat.pow_lt_pow_right (by decide) (by omega)
    have hsmall : shift.toNat - 1 < 32 := by omega
    rw [UInt32.toNat_shiftLeft, hpred, Nat.mod_eq_of_lt hsmall, Nat.shiftLeft_eq,
      show (1 : UInt32).toNat = 1 from rfl, Nat.one_mul, Nat.mod_eq_of_lt hpow]
  have hmask : (((1 : UInt32) <<< (shift - 1)) - 1).toNat = 2 ^ (shift.toNat - 1) - 1 := by
    have hle : 1 ≤ 2 ^ (shift.toNat - 1) := Nat.one_le_two_pow
    rw [UInt32.toNat_sub_of_le _ 1 (UInt32.le_iff_toNat_le.mpr (by rw [hone]; exact hle)), hone]
    rfl
  have hshift := shiftRight_toNat mant hlt
  have hshift' := shiftRight_toNat mant (b := shift - 1) (by omega)
  rw [hpred] at hshift'
  rw [roundShift]
  simp only [and_mask_ne_zero mant hmask,
    and_two_pow_ne_zero (mant >>> shift) (i := 0) (b := 1) rfl,
    and_two_pow_ne_zero (mant >>> (shift - 1)) (i := 0) (b := 1) rfl, hshift, hshift',
    Nat.pow_zero, Nat.div_one]
  split_ifs
  · have hle := Nat.div_le_self mant.toNat (2 ^ shift.toNat)
    rw [UInt32.toNat_add, hshift]
    exact Nat.mod_eq_of_lt (by change _ + 1 < 2 ^ 32; omega)
  · exact hshift

theorem roundShift_normal_le {m : ℕ} (hm : m < 2 ^ 23) : roundShift m 13 ≤ 2 ^ 10 := by
  have h := roundShift_le m 13
  omega

theorem roundShift_subnormal_le {m s : ℕ} (hm : m < 2 ^ 23) (hs : 14 ≤ s) :
    roundShift (2 ^ 23 + m) s ≤ 2 ^ 10 := by
  have h := roundShift_le (2 ^ 23 + m) s
  have hpow : 2 ^ 14 ≤ 2 ^ s := Nat.pow_le_pow_right (by decide) hs
  have hdiv : (2 ^ 23 + m) / 2 ^ s ≤ (2 ^ 23 + m) / 2 ^ 14 := Nat.div_le_div_left hpow (by decide)
  omega

end Bits

/-- The code computes the magnitude and puts the sign in front. -/
theorem floatToHalf_toNat (x : UInt32) :
    (floatToHalf x).toNat = binary16.pattern (binary32.sign x.toNat)
      (halfMagnitude (x.toNat / 2 ^ 23 % 2 ^ 8) (x.toNat % 2 ^ 23)) := by
  have hbiased : ((x >>> 23) &&& 0xFF).toNat = x.toNat / 2 ^ 23 % 2 ^ 8 := by
    rw [and_mask_toNat _ (i := 8) rfl, shiftRight_toNat x (by decide)]
    rfl
  have hmant : (x &&& 0x7FFFFF).toNat = x.toNat % 2 ^ 23 := and_mask_toNat x (i := 23) rfl
  have hinf : (x >>> 23) &&& 0xFF = 0xFF ↔ x.toNat / 2 ^ 23 % 2 ^ 8 = 255 := by
    rw [← UInt32.toNat_inj, hbiased]
    rfl
  have he : x.toNat / 2 ^ 23 % 2 ^ 8 < 2 ^ 8 := Nat.mod_lt _ (by decide)
  have hm : x.toNat % 2 ^ 23 < 2 ^ 23 := Nat.mod_lt _ (by decide)
  rw [floatToHalf, halfMagnitude]
  simp only [hinf, hbiased]
  rw [← hmant] at hm ⊢
  generalize x.toNat / 2 ^ 23 % 2 ^ 8 = e at *
  generalize x &&& 0x7FFFFF = mant at *
  -- the exponent field alone decides the branch: NaN or infinity, overflow, subnormal, normal
  by_cases h255 : e = 255
  · rw [if_pos h255, if_pos h255, UInt32.or_assoc]
    have hnan : (0x7C00 ||| if mant ≠ 0 then (0x0200 : UInt32) else 0).toNat =
        0x7C00 + if mant.toNat ≠ 0 then 0x200 else 0 := by
      by_cases h0 : mant = 0
      · subst h0
        rfl
      · have h0' : mant.toNat ≠ 0 := fun h => h0 (UInt32.toNat_inj.mp h)
        rw [if_pos h0, if_pos h0']
        rfl
    rw [sign_or_toNat x _ (by rw [hnan]; split_ifs <;> decide), hnan]
  rw [if_neg h255, if_neg h255]
  by_cases h143 : 143 ≤ e
  · rw [if_pos (by omega), if_pos h143]
    exact sign_or_toNat x 0x7C00 (by decide)
  rw [if_neg (by omega), if_neg h143]
  by_cases h112 : e ≤ 112
  · rw [if_pos (by omega), if_pos h112]
    by_cases h102 : e < 102
    · rw [if_pos (by omega), if_pos h102]
      have h := sign_or_toNat x 0 (by decide)
      rwa [UInt32.or_zero] at h
    · rw [if_neg (by omega), if_neg h102]
      have hshift : (UInt32.ofNat (14 - ((e : ℤ) - 127 + 15)).toNat).toNat = 126 - e := by
        rw [toNat_ofNat (by omega)]
        omega
      have himplicit : (mant ||| 0x800000).toNat = 2 ^ 23 + mant.toNat := by
        have hor := Nat.two_pow_add_eq_or_of_lt hm 1
        rw [UInt32.toNat_or, Nat.lor_comm, show (0x800000 : UInt32).toNat = 2 ^ 23 * 1 from rfl,
          ← hor, Nat.mul_one]
      have hround := roundSubnormal_toNat (mant ||| 0x800000)
        (UInt32.ofNat (14 - ((e : ℤ) - 127 + 15)).toNat) (by omega) (by omega) (by omega)
      rw [himplicit, hshift] at hround
      have hle := roundShift_subnormal_le hm (show 14 ≤ 126 - e by omega)
      rw [sign_or_toNat x _ (by rw [hround]; omega), hround]
  · rw [if_neg (by omega), if_neg h112]
    have hround := roundNormal_toNat mant hm
    have hle := roundShift_normal_le hm
    generalize (if mant &&& 0x1000 ≠ 0 ∧ (mant &&& 0xFFF ≠ 0 ∨ (mant >>> 13) &&& 1 ≠ 0) then
      (mant >>> 13) + 1 else mant >>> 13) = half at *
    have hcarry : half &&& 0x400 ≠ 0 ↔ half.toNat = 2 ^ 10 := by
      rw [and_two_pow_ne_zero half (i := 10) rfl]
      omega
    have hpack : ∀ (exp : ℕ) (low : UInt32), exp < 31 → low.toNat < 2 ^ 10 →
        ((UInt32.ofNat exp <<< 10) ||| low).toNat = exp * 2 ^ 10 + low.toNat := by
      intro exp low hexp hlow
      have hor := Nat.shiftLeft_add_eq_or_of_lt hlow exp
      rw [UInt32.toNat_or, UInt32.toNat_shiftLeft, toNat_ofNat (by omega),
        show (10 : UInt32).toNat % 32 = 10 from rfl, Nat.shiftLeft_eq, Nat.mod_eq_of_lt (by omega),
        ← Nat.shiftLeft_eq, ← hor]
    -- rounding up an all-ones mantissa carries into the exponent, which may then overflow
    by_cases hc : half &&& 0x400 ≠ 0
    · rw [if_pos hc, ← hround, hcarry.mp hc]
      by_cases h142 : e = 142
      · subst h142
        exact sign_or_toNat x 0x7C00 (by decide)
      · have hexp : ((e : ℤ) - 127 + 15 + 1).toNat = e - 112 + 1 := by omega
        have h := hpack (e - 112 + 1) 0 (by omega) (by decide)
        rw [show (0 : UInt32).toNat = 0 from rfl] at h
        rw [if_neg (by omega), UInt32.or_assoc, hexp,
          sign_or_toNat x _ (by rw [h]; omega), h, Nat.succ_mul, Nat.add_zero]
    · have hlow : half.toNat < 2 ^ 10 := by
        have hne : half.toNat ≠ 2 ^ 10 := fun h => hc (hcarry.mpr h)
        omega
      have hexp : ((e : ℤ) - 127 + 15).toNat = e - 112 := by omega
      have h := hpack (e - 112) half (by omega) hlow
      rw [if_neg hc, ← hround, UInt32.or_assoc, hexp, sign_or_toNat x _ (by rw [h]; omega), h]

/-! From arithmetic to rounding. -/

section Rounding

theorem ulp_normal {e : ℕ} (h : 113 ≤ e) : binary16.ulp (e - 112) = binary32.ulp e * 2 ^ 13 := by
  have h16 : max ((e - 112 : ℕ) : ℤ) 1 = e - 112 := by omega
  have h32 : max (e : ℤ) 1 = e := by omega
  have hexp : (e : ℤ) - 112 - binary16.bias - binary16.fracBits =
      e - binary32.bias - binary32.fracBits + (13 : ℕ) := by
    change (e : ℤ) - 112 - 15 - 10 = e - 127 - 23 + 13
    ring
  rw [Format.ulp, Format.ulp, h16, h32, hexp, zpow_add₀ (by norm_num), zpow_natCast]

theorem ulp_subnormal {e : ℕ} (hpos : 1 ≤ e) (h : e ≤ 112) :
    binary16.ulp 0 = binary32.ulp e * 2 ^ (126 - e) := by
  have h16 : max ((0 : ℕ) : ℤ) 1 = 1 := by omega
  have h32 : max (e : ℤ) 1 = e := by omega
  have hexp : 1 - binary16.bias - binary16.fracBits =
      (e : ℤ) - binary32.bias - binary32.fracBits + (126 - e : ℕ) := by
    change (1 : ℤ) - 15 - 10 = e - 127 - 23 + (126 - e : ℕ)
    omega
  rw [Format.ulp, Format.ulp, h16, h32, hexp, zpow_add₀ (by norm_num), zpow_natCast]

theorem magnitude32 {e m : ℕ} (he : e ≠ 0) (hm : m < 2 ^ 23) :
    binary32.magnitude (e * 2 ^ 23 + m) = (2 ^ 23 + m) * binary32.ulp e := by
  have h := Format.magnitude_normal (F := binary32) he hm
  push_cast at h
  exact h

theorem magnitude16 {e m : ℕ} (he : e ≠ 0) (hm : m < 2 ^ 10) :
    binary16.magnitude (e * 2 ^ 10 + m) = (2 ^ 10 + m) * binary16.ulp e := by
  have h := Format.magnitude_normal (F := binary16) he hm
  push_cast at h
  exact h

theorem cast_eq_shift (v s : ℕ) : (v : ℚ) = (v / 2 ^ s : ℕ) * 2 ^ s + (v % 2 ^ s : ℕ) := by
  exact_mod_cast (Nat.div_add_mod' v (2 ^ s)).symm

variable (sign : Bool) {e m : ℕ}

theorem roundsTo_overflow (h : 143 ≤ e) :
    binary16.RoundsTo sign (signed sign (binary32.magnitude (e * 2 ^ 23 + m)))
      (binary16.pattern sign binary16.top) := by
  refine Format.roundsTo_of_top_le sign ?_
  have hle : binary32.magnitude (143 * 2 ^ 23 + 0) ≤ binary32.magnitude (e * 2 ^ 23 + m) :=
    Format.magnitude_strictMono.monotone (by omega)
  have htop := magnitude16 (e := 143 - 112) (m := 0) (by decide) (by decide)
  rw [ulp_normal (by decide)] at htop
  rw [magnitude32 (e := 143) (m := 0) (by decide) (by decide)] at hle
  calc binary16.magnitude binary16.top
      = (2 ^ 10 + (0 : ℕ)) * (binary32.ulp 143 * 2 ^ 13) := htop
    _ = (2 ^ 23 + (0 : ℕ)) * binary32.ulp 143 := by push_cast; ring
    _ ≤ _ := hle

theorem roundsTo_underflow (hm : m < 2 ^ 23) (h : e < 102) :
    binary16.RoundsTo sign (signed sign (binary32.magnitude (e * 2 ^ 23 + m)))
      (binary16.pattern sign 0) := by
  have hlt : binary32.magnitude (e * 2 ^ 23 + m) < binary32.magnitude (102 * 2 ^ 23 + 0) :=
    Format.magnitude_strictMono (by omega)
  rw [magnitude32 (e := 102) (m := 0) (by decide) (by decide)] at hlt
  have hnonneg := Format.magnitude_nonneg (F := binary32) (e * 2 ^ 23 + m)
  have hulp := ulp_subnormal (e := 102) (by decide) (by decide)
  have hone : binary16.magnitude (0 + 1) = binary16.ulp 0 := by
    rw [Format.magnitude_succ, Format.magnitude_zero, zero_add, Nat.zero_div]
  have hhalf : (2 ^ 23 + (0 : ℕ)) * binary32.ulp 102 = binary16.ulp 0 / 2 := by
    rw [hulp]
    push_cast
    ring
  rw [hhalf] at hlt
  have hpos := Format.ulp_pos (F := binary16) 0
  refine Format.roundsTo_of_between sign (by decide) ?_ ?_ (Or.inr ⟨?_, rfl⟩)
  · rwa [Format.magnitude_zero]
  · rw [hone]
    exact hlt.trans (half_lt_self hpos)
  · rw [RoundsUp, hone, Format.magnitude_zero]
    rintro (hup | ⟨-, hodd⟩)
    · rw [sub_zero, sub_lt_iff_lt_add] at hup
      exact absurd (hup.trans (add_lt_add hlt hlt)) (by rw [add_halves]; exact lt_irrefl _)
    · exact absurd hodd (by decide)

theorem roundsTo_subnormal (hm : m < 2 ^ 23) (hpos : 102 ≤ e) (h : e ≤ 112) :
    binary16.RoundsTo sign (signed sign (binary32.magnitude (e * 2 ^ 23 + m)))
      (binary16.pattern sign (roundShift (2 ^ 23 + m) (126 - e))) := by
  have hpow : 2 ^ 14 ≤ 2 ^ (126 - e) := Nat.pow_le_pow_right (by decide) (by omega)
  have hdiv : (2 ^ 23 + m) / 2 ^ (126 - e) ≤ (2 ^ 23 + m) / 2 ^ 14 :=
    Nat.div_le_div_left hpow (by decide)
  have hsmall : (2 ^ 23 + m) / 2 ^ (126 - e) < 2 ^ binary16.fracBits := by
    change _ < 2 ^ 10
    omega
  have hround := Format.roundsTo_of_shift (F := binary16) (b := 0) (v := 2 ^ 23 + m)
    (s := 126 - e) (y := binary32.magnitude (e * 2 ^ 23 + m)) sign (by omega) rfl
    (by rw [Nat.zero_add]; exact hsmall.trans (by decide)) ?_
  · rwa [Nat.zero_add] at hround
  rw [Nat.zero_add, Format.magnitude_subnormal hsmall, Nat.div_eq_of_lt hsmall,
    ulp_subnormal (by omega) h, magnitude32 (by omega) hm]
  have hsplit := cast_eq_shift (2 ^ 23 + m) (126 - e)
  rw [show ((2 : ℚ) ^ 23 + m) = ((2 ^ 23 + m : ℕ) : ℚ) by push_cast; rfl, hsplit]
  field_simp

theorem roundsTo_normal (hm : m < 2 ^ 23) (hpos : 113 ≤ e) (h : e ≤ 142) :
    binary16.RoundsTo sign (signed sign (binary32.magnitude (e * 2 ^ 23 + m)))
      (binary16.pattern sign ((e - 112) * 2 ^ 10 + roundShift m 13)) := by
  have htop : binary16.top = 31 * 2 ^ 10 := rfl
  refine Format.roundsTo_of_shift sign (by decide) (by omega) (by omega) ?_
  have hexp : ((e - 112) * 2 ^ 10 + m / 2 ^ 13) / 2 ^ binary16.fracBits = e - 112 := by
    change _ / 2 ^ 10 = _
    omega
  rw [hexp, magnitude16 (by omega) (by omega), ulp_normal hpos, magnitude32 (by omega) hm]
  have hsplit := cast_eq_shift m 13
  rw [hsplit]
  field_simp
  ring

theorem halfMagnitude_roundsTo (he : e < 255) (hm : m < 2 ^ 23) :
    binary16.RoundsTo sign (signed sign (binary32.magnitude (e * 2 ^ 23 + m)))
      (binary16.pattern sign (halfMagnitude e m)) := by
  rw [halfMagnitude, if_neg (by omega)]
  split_ifs with h143 h112 h102
  · exact roundsTo_overflow sign h143
  · exact roundsTo_underflow sign hm h102
  · exact roundsTo_subnormal sign hm (by omega) h112
  · exact roundsTo_normal sign hm (by omega) (by omega)

end Rounding

/-- `float_to_half` keeps infinities and NaNs with their sign and rounds every
number to the nearest half-precision one, ties to even. -/
theorem floatToHalf_converts (x : UInt32) :
    binary16.Converts (binary32.datum x.toNat) (floatToHalf x).toNat := by
  have hfields : x.toNat % binary32.patterns =
      x.toNat / 2 ^ 23 % 2 ^ 8 * 2 ^ 23 + x.toNat % 2 ^ 23 := by
    change x.toNat % 2 ^ 31 = _
    omega
  have htop : binary32.top = 255 * 2 ^ 23 := rfl
  have he : x.toNat / 2 ^ 23 % 2 ^ 8 < 2 ^ 8 := Nat.mod_lt _ (by decide)
  have hm : x.toNat % 2 ^ 23 < 2 ^ 23 := Nat.mod_lt _ (by decide)
  rw [floatToHalf_toNat, Format.datum, hfields, htop]
  generalize x.toNat / 2 ^ 23 % 2 ^ 8 = e at *
  generalize x.toNat % 2 ^ 23 = m at *
  generalize binary32.sign x.toNat = sign
  by_cases hnan : 255 * 2 ^ 23 < e * 2 ^ 23 + m
  · obtain rfl : e = 255 := by omega
    rw [if_pos hnan, halfMagnitude, if_pos rfl, if_pos (by omega)]
    exact Format.datum_nan sign (by decide) (by decide)
  rw [if_neg hnan]
  by_cases hinf : e * 2 ^ 23 + m = 255 * 2 ^ 23
  · obtain ⟨rfl, rfl⟩ : e = 255 ∧ m = 0 := by omega
    rw [if_pos hinf]
    exact Format.datum_infinite sign
  · rw [if_neg hinf]
    exact halfMagnitude_roundsTo sign (by omega) hm

/-- The tie that the source checked against a live server. -/
example : floatToHalf 0xBFC2F000 = 0xBE18 := by decide

end PgCuvs
