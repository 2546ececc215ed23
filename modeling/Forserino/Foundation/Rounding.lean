import Mathlib.Algebra.Order.Field.Rat
import Mathlib.Algebra.Order.Floor.Ring
import Mathlib.Data.Int.Log
import Mathlib.Data.Rat.Floor

/-! Rounding to a binary number format with so many significant digits, to the nearest number and
to the even one of two. The exponent has no bounds here.
-/

set_option autoImplicit false

namespace Forserino.Foundation

/-- The nearest integer, and the even one of two. -/
def roundEven (q : ℚ) : ℤ :=
  if q - ⌊q⌋ < 1 / 2 then ⌊q⌋
  else if 1 / 2 < q - ⌊q⌋ then ⌊q⌋ + 1
  else if ⌊q⌋ % 2 = 0 then ⌊q⌋ else ⌊q⌋ + 1

/-- The place of the last significant digit. -/
def lastPlace (digits : ℕ) (q : ℚ) : ℚ := 2 ^ (Int.log 2 |q| + 1 - digits)

def roundTo (digits : ℕ) (q : ℚ) : ℚ := roundEven (q / lastPlace digits q) * lastPlace digits q

theorem roundEven_intCast (n : ℤ) : roundEven n = n := by
  rw [roundEven, Int.floor_intCast, sub_self, if_pos (half_pos one_pos)]

theorem floor_le_roundEven (q : ℚ) : ⌊q⌋ ≤ roundEven q := by
  unfold roundEven
  split
  · exact le_rfl
  · split
    · exact (lt_add_one _).le
    · split
      · exact le_rfl
      · exact (lt_add_one _).le

theorem roundEven_le_floor (q : ℚ) : roundEven q ≤ ⌊q⌋ + 1 := by
  unfold roundEven
  split
  · exact (lt_add_one _).le
  · split
    · exact le_rfl
    · split
      · exact (lt_add_one _).le
      · exact le_rfl

theorem roundEven_mono {p q : ℚ} (below : p ≤ q) : roundEven p ≤ roundEven q := by
  rcases (Int.floor_mono below).eq_or_lt with same | less
  · -- between the same integers only the distance from the lower one decides
    have nearer : p - ⌊p⌋ ≤ q - ⌊q⌋ := by
      rw [same]
      exact sub_le_sub_right below _
    by_cases low : q - ⌊q⌋ < 1 / 2
    · rw [roundEven, if_pos (nearer.trans_lt low), same]
      exact floor_le_roundEven q
    · by_cases high : 1 / 2 < q - ⌊q⌋
      · rw [roundEven.eq_def q, if_neg low, if_pos high, ← same]
        exact roundEven_le_floor p
      · by_cases lower : p - ⌊p⌋ < 1 / 2
        · rw [roundEven, if_pos lower, same]
          exact floor_le_roundEven q
        · -- both are in the middle
          have higher : ¬ 1 / 2 < p - ⌊p⌋ := fun above => high (above.trans_le nearer)
          rw [roundEven, roundEven, if_neg low, if_neg high, if_neg lower, if_neg higher, same]
  · exact (roundEven_le_floor p).trans ((Int.add_one_le_of_lt less).trans (floor_le_roundEven q))

variable {digits : ℕ} {p q : ℚ}

theorem lastPlace_pos (digits : ℕ) (q : ℚ) : 0 < lastPlace digits q := zpow_pos (by decide) _

theorem roundTo_nonneg (digits : ℕ) (natural : 0 ≤ q) : 0 ≤ roundTo digits q := by
  have scaled : 0 ≤ q / lastPlace digits q := div_nonneg natural (lastPlace_pos digits q).le
  have rounded : (0 : ℤ) ≤ roundEven (q / lastPlace digits q) := (Int.floor_nonneg.mpr scaled).trans (floor_le_roundEven _)
  exact mul_nonneg (Int.cast_nonneg rounded) (lastPlace_pos digits q).le

/-- The first digit of what is rounded to at least one digit stays, unless all digits are carried over. -/
theorem roundTo_between (some_ : 1 ≤ digits) (positive : 0 < q) :
    2 ^ Int.log 2 q ≤ roundTo digits q ∧ roundTo digits q ≤ 2 ^ (Int.log 2 q + 1) := by
  have place : lastPlace digits q = 2 ^ (Int.log 2 q + 1 - digits) := by rw [lastPlace, abs_of_pos positive]
  have unit := lastPlace_pos digits q
  have low : ((2 ^ (digits - 1) : ℤ) : ℚ) * lastPlace digits q = 2 ^ Int.log 2 q := by
    rw [place, Int.cast_pow, Int.cast_ofNat, ← zpow_natCast, ← zpow_add₀ two_ne_zero]
    congr 1
    omega
  have high : ((2 ^ digits : ℤ) : ℚ) * lastPlace digits q = 2 ^ (Int.log 2 q + 1) := by
    rw [place, Int.cast_pow, Int.cast_ofNat, ← zpow_natCast, ← zpow_add₀ two_ne_zero]
    congr 1
    omega
  constructor
  · rw [← low, roundTo]
    apply mul_le_mul_of_nonneg_right _ unit.le
    rw [Int.cast_le, ← roundEven_intCast (2 ^ (digits - 1))]
    apply roundEven_mono
    rw [le_div_iff₀ unit, low]
    exact Int.zpow_log_le_self one_lt_two positive
  · rw [← high, roundTo]
    apply mul_le_mul_of_nonneg_right _ unit.le
    rw [Int.cast_le, ← roundEven_intCast (2 ^ digits)]
    apply roundEven_mono
    rw [div_le_iff₀ unit, high]
    exact (Int.lt_zpow_succ_log_self one_lt_two q).le

theorem roundTo_mono (some_ : 1 ≤ digits) (positive : 0 < p) (below : p ≤ q) : roundTo digits p ≤ roundTo digits q := by
  have positiveToo := positive.trans_le below
  rcases (Int.log_mono_right (b := 2) positive below).eq_or_lt with same | less
  · have place : lastPlace digits p = lastPlace digits q := by
      rw [lastPlace, lastPlace, abs_of_pos positive, abs_of_pos positiveToo, same]
    rw [roundTo, roundTo, place]
    apply mul_le_mul_of_nonneg_right _ (lastPlace_pos digits q).le
    rw [Int.cast_le]
    exact roundEven_mono (div_le_div_of_nonneg_right below (lastPlace_pos digits q).le)
  · calc roundTo digits p
        _ ≤ 2 ^ (Int.log 2 p + 1) := (roundTo_between some_ positive).2
        _ ≤ 2 ^ Int.log 2 q := zpow_le_zpow_right₀ one_le_two (Int.add_one_le_of_lt less)
        _ ≤ roundTo digits q := (roundTo_between some_ positiveToo).1

/-- An integer with no more than these digits is not changed. -/
theorem roundTo_natCast (some_ : 1 ≤ digits) {n : ℕ} (fits : n < 2 ^ digits) : roundTo digits (n : ℚ) = n := by
  have few : Nat.log 2 n + 1 ≤ digits := by
    rcases Nat.eq_zero_or_pos n with rfl | positive
    · exact some_
    · exact Nat.log_lt_of_lt_pow positive.ne' fits
  have place : lastPlace digits (n : ℚ) = 2 ^ ((Nat.log 2 n : ℤ) + 1 - digits) := by
    rw [lastPlace, Nat.abs_cast, Int.log_natCast]
  have scaled : (n : ℚ) / lastPlace digits (n : ℚ) = ((n * 2 ^ (digits - (Nat.log 2 n + 1)) : ℤ) : ℚ) := by
    rw [div_eq_iff (lastPlace_pos digits _).ne', place, Int.cast_mul, Int.cast_pow, Int.cast_ofNat, Int.cast_natCast,
      ← zpow_natCast, mul_assoc, ← zpow_add₀ two_ne_zero]
    have back : ((digits - (Nat.log 2 n + 1) : ℕ) : ℤ) + ((Nat.log 2 n : ℤ) + 1 - digits) = 0 := by omega
    rw [back, zpow_zero, mul_one]
  rw [roundTo, scaled, roundEven_intCast, ← scaled, div_mul_cancel₀ _ (lastPlace_pos digits _).ne']

end Forserino.Foundation
