import Lox.Number.Shortest
import Lox.Proofs.Numbers.Rounding
import Mathlib.Algebra.Order.Field.Rat
import Mathlib.Tactic.FieldSimp
import Mathlib.Tactic.Positivity

/-!
# Decimals near a double

The value of a decimal is a rational number, whatever way it is split into digits and exponent. The
shortest decimal of a double is near it, so it is rounded to that double again.
-/

namespace Lox

namespace Decimal

/-! ## Values -/

def value (d : Decimal) : ℚ := d.digits * (10 : ℚ) ^ d.exponent

theorem denominator_pos (d : Decimal) : 0 < d.denominator := Nat.pow_pos (by decide)

theorem value_eq (d : Decimal) : d.value = d.numerator / d.denominator := by
  have numerator : (d.numerator : ℚ) = d.digits * (10 : ℚ) ^ d.exponent.toNat := by
    simp [Decimal.numerator]
  have denominator : (d.denominator : ℚ) = (10 : ℚ) ^ (-d.exponent).toNat := by
    simp [Decimal.denominator]
  rw [numerator, denominator, value, mul_div_assoc, ← zpow_natCast, ← zpow_natCast,
    ← zpow_sub₀ (by norm_num)]
  congr 2
  omega

theorem value_reduced (d : Decimal) : d.reduced.value = d.value := by
  fun_induction reduced d with
  | case1 d trailing ih =>
    have whole : (d.digits : ℚ) = ((d.digits / 10 : Nat) : ℚ) * 10 := by
      exact_mod_cast (Nat.div_mul_cancel (Nat.dvd_of_mod_eq_zero trailing.2)).symm
    rw [ih, value, value, whole, zpow_add_one₀ (by norm_num)]
    ring
  | case2 d => rfl

/-- Decimals of one value are one quotient. -/
theorem cross_eq {d other : Decimal} (same : d.value = other.value) :
    d.numerator * other.denominator = other.numerator * d.denominator := by
  rw [value_eq, value_eq, div_eq_div_iff (by exact_mod_cast d.denominator_pos.ne')
    (by exact_mod_cast other.denominator_pos.ne')] at same
  exact_mod_cast same

end Decimal

namespace Number

/-! ## Decimals that are rounded to a magnitude -/

variable {magnitude : Nat} {d other : Decimal}

/-- The decimal is near the magnitude. -/
def IsDecimalOf (magnitude : Nat) (d : Decimal) : Prop :=
  IsNear magnitude (d.numerator * unitsPerOne) d.denominator

theorem isDecimalOf_iff : IsDecimalOf magnitude d ↔ isRoundedFrom magnitude d = true := by
  unfold IsDecimalOf IsNear isRoundedFrom
  dsimp only
  rw [Nat.mul_assoc 2]
  split <;> simp

theorem IsDecimalOf.congr (near : IsDecimalOf magnitude d) (same : other.value = d.value) :
    IsDecimalOf magnitude other := by
  refine IsNear.congr near d.denominator_pos other.denominator_pos ?_
  rw [Nat.mul_right_comm, Decimal.cross_eq same, Nat.mul_right_comm]

/-- A decimal is near one magnitude at most, and that is where it is rounded to. -/
theorem IsDecimalOf.nearestMagnitude_eq (near : IsDecimalOf magnitude d)
    (finite : magnitude < infinityMagnitude) :
    nearestMagnitude (d.numerator * unitsPerOne) d.denominator = magnitude :=
  IsNear.nearestMagnitude_eq near d.denominator_pos finite

/-- A count of units is a decimal of as many places as a unit has halvings. -/
theorem isNear_places (magnitude places : Nat) :
    IsNear magnitude
      ((Decimal.mk (units magnitude * Nat.pow 5 places) (-places)).numerator * Nat.pow 2 places)
      (Decimal.mk (units magnitude * Nat.pow 5 places) (-places)).denominator := by
  refine (isNear_units magnitude).congr (by decide) (Decimal.denominator_pos _) ?_
  have whole : (-(places : Int)).toNat = 0 := by omega
  have tens : Nat.pow 5 places * Nat.pow 2 places = Nat.pow 10 places := (Nat.mul_pow 5 2 places).symm
  simp only [Decimal.numerator, Decimal.denominator, whole, neg_neg, Int.toNat_natCast]
  rw [Nat.mul_one, show Nat.pow 10 0 = 1 from rfl, Nat.mul_one, Nat.mul_assoc, tens]

/-- The value of a magnitude is a decimal of it. -/
theorem isDecimalOf_exactDecimal (magnitude : Nat) : IsDecimalOf magnitude (exactDecimal magnitude) := by
  unfold IsDecimalOf exactDecimal unitsPerOne
  exact isNear_places magnitude 1074

theorem isDecimalOf_nearestOnGrid {tie : Tie} {exponent : Int}
    (found : nearestOnGrid? tie magnitude exponent = some d) : IsDecimalOf magnitude d := by
  rw [isDecimalOf_iff]
  unfold nearestOnGrid? at found
  extract_lets scaled step below above aboveIsNearer at found
  clear_value below above aboveIsNearer
  split at found
  · next belowRounds aboveRounds =>
    cases found
    split
    · exact aboveRounds
    · exact belowRounds
  · next belowRounds _ =>
    cases found
    exact belowRounds
  · next _ aboveRounds =>
    cases found
    exact aboveRounds
  · cases found

theorem isDecimalOf_firstOnGrids {tie : Tie} {exponent : Int} {count : Nat}
    (found : firstOnGrids? tie magnitude exponent count = some d) : IsDecimalOf magnitude d := by
  induction count generalizing exponent with
  | zero => cases found
  | succ count ih =>
    unfold firstOnGrids? at found
    split at found
    · next hit => exact isDecimalOf_nearestOnGrid (hit.trans found)
    · exact ih found

/-- The shortest decimal of a magnitude is rounded to it, whichever way ties go. -/
theorem isDecimalOf_shortest (tie : Tie) (magnitude : Nat) :
    IsDecimalOf magnitude (shortest tie magnitude) := by
  unfold shortest
  split
  · next found => exact (isDecimalOf_firstOnGrids found).congr (Decimal.value_reduced _)
  · exact (isDecimalOf_exactDecimal magnitude).congr (Decimal.value_reduced _)

end Number

end Lox
