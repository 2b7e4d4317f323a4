/-
# Cvf.Library.Rounding — rationals rounded to a number of significant digits.

A number format with `digits` significant digits in base `base` and any exponent, ties to even.  Rounding
leaves a number alone exactly if it fits the format (`fits_iff`), and moves any other by at most half a unit
in its last place (`abs_roundTo_sub_le`).
-/
import Mathlib.Algebra.Order.Field.Power
import Mathlib.Algebra.Order.Floor.Ring
import Mathlib.Data.Int.Log
import Mathlib.Data.Rat.Floor
import Mathlib.Tactic.FieldSimp
import Mathlib.Tactic.Linarith
import Mathlib.Tactic.NormNum
import Mathlib.Tactic.Positivity
import Mathlib.Tactic.Ring

namespace Cvf.Library

/-! ## To an integer -/

/-- The nearest integer, and of two the even one. -/
def roundHalfEven (x : ℚ) : ℤ :=
  if Int.fract x < 1 / 2 then ⌊x⌋
  else if 1 / 2 < Int.fract x then ⌊x⌋ + 1
  else if Even ⌊x⌋ then ⌊x⌋ else ⌊x⌋ + 1

theorem roundHalfEven_intCast (n : ℤ) : roundHalfEven n = n := by
  unfold roundHalfEven
  rw [Int.fract_intCast, if_pos (by norm_num), Int.floor_intCast]

theorem abs_roundHalfEven_sub_le (x : ℚ) : |(roundHalfEven x : ℚ) - x| ≤ 1 / 2 := by
  have hsplit := Int.floor_add_fract x
  have hnonneg := Int.fract_nonneg x
  have hlt := Int.fract_lt_one x
  rw [abs_le]
  unfold roundHalfEven
  split_ifs <;> push_cast <;> constructor <;> linarith

/-! ## To significant digits -/

section

variable {base digits : ℕ} (hbase : 1 < base) {x : ℚ}

/-- The unit in the last place. -/
def ulp (base digits : ℕ) (x : ℚ) : ℚ := (base : ℚ) ^ (Int.log base |x| + 1 - digits)

/-- The nearest number of the format. -/
def roundTo (base digits : ℕ) (x : ℚ) : ℚ := roundHalfEven (x / ulp base digits x) * ulp base digits x

/-- A number of the format. -/
def Fits (base digits : ℕ) (x : ℚ) : Prop :=
  ∃ significand exponent : ℤ,
    |significand| < (base : ℤ) ^ digits ∧ x = significand * (base : ℚ) ^ exponent

include hbase

theorem base_pos : (0 : ℚ) < base := by
  exact_mod_cast Nat.zero_lt_of_lt hbase

theorem ulp_pos : 0 < ulp base digits x := zpow_pos (base_pos hbase) _

theorem ulp_le (hx : x ≠ 0) : ulp base digits x ≤ |x| * (base : ℚ) ^ (1 - digits : ℤ) := by
  have hexponent : Int.log base |x| + 1 - digits = Int.log base |x| + (1 - digits : ℤ) := by ring
  unfold ulp
  rw [hexponent, zpow_add₀ (base_pos hbase).ne']
  exact mul_le_mul_of_nonneg_right (Int.zpow_log_le_self hbase (abs_pos.mpr hx))
    (zpow_pos (base_pos hbase) _).le

theorem abs_lt_ulp (x : ℚ) : |x| < (base : ℚ) ^ digits * ulp base digits x := by
  have hexponent : (base : ℚ) ^ digits * ulp base digits x = (base : ℚ) ^ (Int.log base |x| + 1) := by
    unfold ulp
    rw [← zpow_natCast, ← zpow_add₀ (base_pos hbase).ne']
    congr 1
    ring
  rw [hexponent]
  exact Int.lt_zpow_succ_log_self hbase |x|

theorem abs_roundTo_sub_le (x : ℚ) : |roundTo base digits x - x| ≤ ulp base digits x / 2 := by
  have hpos : 0 < ulp base digits x := ulp_pos hbase
  have hfactor : roundTo base digits x - x =
      ((roundHalfEven (x / ulp base digits x) : ℚ) - x / ulp base digits x) * ulp base digits x := by
    unfold roundTo
    rw [sub_mul, div_mul_cancel₀ _ hpos.ne']
  rw [hfactor, abs_mul, abs_of_pos hpos]
  have hnear := mul_le_mul_of_nonneg_right (abs_roundHalfEven_sub_le (x / ulp base digits x)) hpos.le
  linarith

/-- A number of the format is a whole number of units. -/
theorem Fits.units (h : Fits base digits x) (hx : x ≠ 0) :
    ∃ units : ℤ, x / ulp base digits x = units := by
  obtain ⟨significand, exponent, hlt, rfl⟩ := h
  have hb := base_pos hbase
  set x := (significand : ℚ) * (base : ℚ) ^ exponent with hxdef
  -- the last place of the format is not above that of the number
  have hplace : Int.log base |x| + 1 - digits ≤ exponent := by
    by_contra hlow
    have hbelow : (digits : ℤ) + exponent ≤ Int.log base |x| := by omega
    have hsignificand : |(significand : ℚ)| < (base : ℚ) ^ digits := by exact_mod_cast hlt
    have habs : |x| = |(significand : ℚ)| * (base : ℚ) ^ exponent := by
      rw [hxdef, abs_mul, abs_of_pos (zpow_pos hb exponent)]
    have hcontra : |x| < |x| := by
      calc |x| = |(significand : ℚ)| * (base : ℚ) ^ exponent := habs
        _ < (base : ℚ) ^ digits * (base : ℚ) ^ exponent :=
          mul_lt_mul_of_pos_right hsignificand (zpow_pos hb exponent)
        _ = (base : ℚ) ^ ((digits : ℤ) + exponent) := by rw [← zpow_natCast, ← zpow_add₀ hb.ne']
        _ ≤ (base : ℚ) ^ Int.log base |x| :=
          zpow_le_zpow_right₀ (by exact_mod_cast hbase.le) hbelow
        _ ≤ |x| := Int.zpow_log_le_self hbase (abs_pos.mpr hx)
    exact lt_irrefl _ hcontra
  obtain ⟨shift, hshift⟩ := Int.eq_ofNat_of_zero_le (sub_nonneg.mpr hplace)
  have hsum : (shift : ℤ) + (Int.log base |x| + 1 - digits) = exponent := by omega
  refine ⟨significand * (base : ℤ) ^ shift, ?_⟩
  unfold ulp
  push_cast
  rw [div_eq_iff (zpow_pos hb _).ne', mul_assoc, ← zpow_natCast, ← zpow_add₀ hb.ne', hsum]

theorem roundTo_of_fits (h : Fits base digits x) : roundTo base digits x = x := by
  by_cases hx : x = 0
  · have hzero := roundHalfEven_intCast 0
    rw [Int.cast_zero] at hzero
    unfold roundTo
    rw [hx, zero_div, hzero, Int.cast_zero, zero_mul]
  · obtain ⟨units, hunits⟩ := h.units hbase hx
    unfold roundTo
    rw [hunits, roundHalfEven_intCast, ← hunits, div_mul_cancel₀ _ (ulp_pos hbase).ne']

/-- Rounding leaves exactly the numbers of the format alone. -/
theorem fits_iff : Fits base digits x ↔ roundTo base digits x = x := by
  refine ⟨roundTo_of_fits hbase, fun h => ?_⟩
  have hpos : 0 < ulp base digits x := ulp_pos hbase
  refine ⟨roundHalfEven (x / ulp base digits x), Int.log base |x| + 1 - digits, ?_, h.symm⟩
  have hunits : (roundHalfEven (x / ulp base digits x) : ℚ) = x / ulp base digits x := by
    rw [eq_div_iff hpos.ne']
    exact h
  have hlt : |(roundHalfEven (x / ulp base digits x) : ℚ)| < (base : ℚ) ^ digits := by
    rw [hunits, abs_div, abs_of_pos hpos, div_lt_iff₀ hpos]
    exact abs_lt_ulp hbase x
  exact_mod_cast hlt

omit hbase in
theorem Fits.neg (h : Fits base digits x) : Fits base digits (-x) := by
  obtain ⟨significand, exponent, hlt, rfl⟩ := h
  exact ⟨-significand, exponent, by rwa [abs_neg], by push_cast; ring⟩

/-- The relative error of a rounding. -/
theorem abs_roundTo_sub_le_mul (x : ℚ) :
    |roundTo base digits x - x| ≤ |x| * ((base : ℚ) ^ (1 - digits : ℤ) / 2) := by
  by_cases hx : x = 0
  · have hfits : Fits base digits x := ⟨0, 0, by positivity, by simp [hx]⟩
    rw [roundTo_of_fits hbase hfits, sub_self, abs_zero]
    have hb := base_pos hbase
    positivity
  · have hnear : |roundTo base digits x - x| ≤ ulp base digits x / 2 := abs_roundTo_sub_le hbase x
    have hulp : ulp base digits x ≤ |x| * (base : ℚ) ^ (1 - digits : ℤ) := ulp_le hbase hx
    linarith

theorem mul_le_roundTo (hx : 0 ≤ x) :
    x * (1 - (base : ℚ) ^ (1 - digits : ℤ) / 2) ≤ roundTo base digits x := by
  have hnear : |roundTo base digits x - x| ≤ _ := abs_roundTo_sub_le_mul hbase x
  rw [abs_of_nonneg hx, abs_le] at hnear
  linarith [hnear.1]

theorem roundTo_le_mul (hx : 0 ≤ x) :
    roundTo base digits x ≤ x * (1 + (base : ℚ) ^ (1 - digits : ℤ) / 2) := by
  have hnear : |roundTo base digits x - x| ≤ _ := abs_roundTo_sub_le_mul hbase x
  rw [abs_of_nonneg hx, abs_le] at hnear
  linarith [hnear.2]

end

end Cvf.Library
