import Lox.Number.Rounding
import Mathlib.Data.Nat.Log
import Mathlib.Order.Monotone.Basic
import Mathlib.Tactic.Linarith
import Mathlib.Tactic.Ring

/-!
# Rounding to the nearest

Units grow with the magnitude, so every count of units lies between two neighbouring magnitudes, and the
rule that looks for the lower one finds it. Hence whatever lies no further from a magnitude than half way
to its neighbours is rounded to that magnitude; half way itself goes to the even one.
-/

namespace Lox.Number

/-! ## Units in order -/

/-- A count with its leading bit in the right place, which so many bits were dropped from. -/
theorem units_leading (dropped : Nat) {count : Nat} (low : 2 ^ 52 ≤ count) (high : count ≤ 2 ^ 53) :
    units (dropped * 2 ^ 52 + count) = count * 2 ^ dropped := by
  have double : (2 : Nat) ^ 53 = 2 * 2 ^ 52 := by norm_num
  change (if (dropped * 2 ^ 52 + count) / 2 ^ 52 = 0 then (dropped * 2 ^ 52 + count) % 2 ^ 52
    else (2 ^ 52 + (dropped * 2 ^ 52 + count) % 2 ^ 52) *
      2 ^ ((dropped * 2 ^ 52 + count) / 2 ^ 52 - 1)) = _
  rw [Nat.mul_add_mod', Nat.add_comm (dropped * _), Nat.add_mul_div_right _ _ (by norm_num)]
  obtain same | below := Nat.eq_or_lt_of_le high
  · -- The next power of two has its leading bit one place further up.
    rw [same, double, Nat.mul_div_cancel _ (by norm_num), Nat.mul_mod_left, if_neg (by omega),
      show 2 + dropped - 1 = dropped + 1 by omega, Nat.pow_succ]
    ring
  · have exponent : count / 2 ^ 52 = 1 := by omega
    have fraction : count % 2 ^ 52 = count - 2 ^ 52 := by omega
    rw [exponent, fraction, if_neg (by omega), Nat.add_sub_cancel' low,
      show 1 + dropped - 1 = dropped by omega]

theorem units_small {count : Nat} (small : count ≤ 2 ^ 53) : units count = count := by
  obtain below | leading := Nat.lt_or_ge count (2 ^ 52)
  · change (if count / 2 ^ 52 = 0 then count % 2 ^ 52 else _) = _
    rw [if_pos (Nat.div_eq_of_lt below), Nat.mod_eq_of_lt below]
  · simpa using units_leading 0 leading small

theorem units_lt_units_succ (magnitude : Nat) : units magnitude < units (magnitude + 1) := by
  obtain below | leading := Nat.lt_or_ge magnitude (2 ^ 52)
  · rw [units_small (by omega), units_small (by omega)]
    exact Nat.lt_succ_self _
  · -- Both have the same bits dropped.
    obtain ⟨dropped, count, low, high, rfl⟩ : ∃ dropped count, 2 ^ 52 ≤ count ∧ count < 2 ^ 53 ∧
        magnitude = dropped * 2 ^ 52 + count :=
      ⟨magnitude / 2 ^ 52 - 1, 2 ^ 52 + magnitude % 2 ^ 52, by omega, by omega, by omega⟩
    rw [Nat.add_assoc, units_leading _ low (by omega), units_leading _ (by omega) (by omega)]
    exact Nat.mul_lt_mul_of_pos_right (Nat.lt_succ_self _) (by positivity)

theorem units_strictMono : StrictMono units := strictMono_nat_of_lt_succ units_lt_units_succ

/-- A count lies between the units of the magnitude below it and those of the next. -/
theorem magnitudeBelow_spec (count : Nat) :
    units (magnitudeBelow count) ≤ count ∧ count < units (magnitudeBelow count + 1) := by
  change units ((count.log2 - 52) * 2 ^ 52 + count / 2 ^ (count.log2 - 52)) ≤ count ∧
    count < units ((count.log2 - 52) * 2 ^ 52 + count / 2 ^ (count.log2 - 52) + 1)
  by_cases small : count < 2 ^ 53
  · have none : count.log2 - 52 = 0 := by
      by_cases zero : count = 0
      · rw [zero]; rfl
      · have := (Nat.log2_lt zero).mpr small
        omega
    simp only [none, Nat.zero_mul, Nat.zero_add, pow_zero, Nat.div_one]
    rw [units_small (by omega), units_small (by omega)]
    exact ⟨Nat.le_refl _, Nat.lt_succ_self _⟩
  · have nonzero : count ≠ 0 := by omega
    have long : 53 ≤ count.log2 := (Nat.le_log2 nonzero).mpr (by omega)
    generalize dropped : count.log2 - 52 = places
    have total : count.log2 = places + 52 := by omega
    have bounds := (Nat.log2_eq_iff nonzero).mp total
    have scale : 0 < 2 ^ places := by positivity
    -- The bits that are kept have their leading one in the right place.
    have low : 2 ^ 52 ≤ count / 2 ^ places := by
      rw [Nat.le_div_iff_mul_le scale, ← pow_add, Nat.add_comm]
      exact bounds.1
    have high : count / 2 ^ places < 2 ^ 53 := by
      rw [Nat.div_lt_iff_lt_mul scale, ← pow_add, Nat.add_comm]
      exact bounds.2
    rw [Nat.add_assoc, units_leading _ low (by omega), units_leading _ (by omega) (by omega)]
    exact ⟨Nat.div_mul_le_self _ _, Nat.lt_mul_of_div_lt (Nat.lt_succ_self _) scale⟩

/-! ## Nearest magnitudes -/

/-- The quotient, in units, is no further from the magnitude than half way to its neighbours. Half way
itself is still near an even magnitude. -/
def IsNear (magnitude numerator denominator : Nat) : Prop :=
  let low := (units (magnitude - 1) + units magnitude) * denominator
  let high := (units magnitude + units (magnitude + 1)) * denominator
  if magnitude % 2 = 0 then low ≤ 2 * numerator ∧ 2 * numerator ≤ high
  else low < 2 * numerator ∧ 2 * numerator < high

variable {magnitude numerator denominator : Nat}

theorem IsNear.bounds (near : IsNear magnitude numerator denominator) :
    (units (magnitude - 1) + units magnitude) * denominator ≤ 2 * numerator ∧
      2 * numerator ≤ (units magnitude + units (magnitude + 1)) * denominator := by
  unfold IsNear at near
  dsimp only at near
  split at near
  · exact near
  · exact ⟨Nat.le_of_lt near.1, Nat.le_of_lt near.2⟩

/-- What is near a finite magnitude is rounded to it. -/
theorem IsNear.nearestMagnitude_eq (near : IsNear magnitude numerator denominator)
    (positive : 0 < denominator) (finite : magnitude < infinityMagnitude) :
    nearestMagnitude numerator denominator = magnitude := by
  obtain ⟨low, high⟩ := near.bounds
  obtain ⟨least, most⟩ := magnitudeBelow_spec (numerator / denominator)
  unfold nearestMagnitude
  generalize magnitudeBelow (numerator / denominator) = below at least most ⊢
  have least : units below * denominator ≤ numerator := (Nat.le_div_iff_mul_le positive).mp least
  have most : numerator < units (below + 1) * denominator := (Nat.div_lt_iff_lt_mul positive).mp most
  -- The magnitude below the quotient is this one or the one before it.
  have notAbove : below < magnitude + 1 := by
    by_contra above
    have further := units_strictMono.monotone (Nat.not_lt.mp above)
    have step := units_lt_units_succ magnitude
    nlinarith
  have notBefore : magnitude ≤ below + 1 := by
    by_contra before
    have further := units_strictMono.monotone (show below + 1 ≤ magnitude - 1 by omega)
    have step := units_strictMono (show magnitude - 1 < magnitude by omega)
    nlinarith
  unfold IsNear at near
  dsimp only at near ⊢
  rw [if_neg (by omega)]
  obtain rfl | rfl : below = magnitude ∨ magnitude = below + 1 := by omega
  · split at near
    · next even =>
      rw [if_neg (Nat.not_lt.mpr high) , if_pos even, ite_self]
    · rw [if_pos near.2]
  · rw [Nat.add_sub_cancel] at near low
    rw [if_neg (Nat.not_lt.mpr low)]
    split at near
    · rw [if_neg (show ¬below % 2 = 0 by omega), ite_self]
    · rw [if_pos near.1]

/-- The value of a magnitude is near it. -/
theorem isNear_units (magnitude : Nat) : IsNear magnitude (units magnitude) 1 := by
  have above := units_lt_units_succ magnitude
  have below := units_strictMono.monotone (Nat.sub_le magnitude 1)
  unfold IsNear
  dsimp only
  split
  · exact ⟨by omega, by omega⟩
  · next odd =>
    have before := units_strictMono (show magnitude - 1 < magnitude by omega)
    exact ⟨by omega, by omega⟩

/-- To be near is a matter of the quotient. -/
theorem IsNear.congr {otherNumerator otherDenominator : Nat}
    (near : IsNear magnitude numerator denominator) (positive : 0 < denominator)
    (otherPositive : 0 < otherDenominator)
    (same : otherNumerator * denominator = numerator * otherDenominator) :
    IsNear magnitude otherNumerator otherDenominator := by
  have double : 2 * otherNumerator * denominator = 2 * numerator * otherDenominator := by
    rw [Nat.mul_assoc, same, Nat.mul_assoc]
  -- Both sides of a comparison are brought to the common denominator.
  have below (count : Nat) : count * otherDenominator ≤ 2 * otherNumerator ↔
      count * denominator ≤ 2 * numerator := by
    rw [← Nat.mul_le_mul_right_iff positive, double, Nat.mul_right_comm count,
      Nat.mul_le_mul_right_iff otherPositive]
  have above (count : Nat) : 2 * otherNumerator ≤ count * otherDenominator ↔
      2 * numerator ≤ count * denominator := by
    rw [← Nat.mul_le_mul_right_iff positive, double, Nat.mul_right_comm count,
      Nat.mul_le_mul_right_iff otherPositive]
  simpa only [IsNear, below, above, ← Nat.not_le] using near

end Lox.Number
