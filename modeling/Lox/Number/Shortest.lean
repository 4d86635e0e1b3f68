import Lox.Number.Basic

/-!
# The shortest decimal of a double

Every double stands for all the reals that round to it: an interval that reaches half way to each
neighbour, its ends included exactly when the magnitude is even. The shortest decimal is the
point with the fewest digits in that interval. It is looked for grid by grid, with one more digit
each time, among the two points of the grid around the value.
-/

namespace Lox

/-- The decimal `digits × 10 ^ exponent`. -/
structure Decimal where
  digits : Nat
  exponent : Int
  deriving DecidableEq, Repr

namespace Decimal

/-- The numerator of the decimal over `denominator`, both whole. -/
def numerator (d : Decimal) : Nat := d.digits * Nat.pow 10 d.exponent.toNat

def denominator (d : Decimal) : Nat := Nat.pow 10 (-d.exponent).toNat

/-- The same decimal without zeros at the end of its digits. -/
def reduced (d : Decimal) : Decimal :=
  if d.digits ≠ 0 ∧ d.digits % 10 = 0 then reduced ⟨d.digits / 10, d.exponent + 1⟩ else d
  termination_by d.digits
  decreasing_by exact Nat.div_lt_self (Nat.pos_of_ne_zero (by omega)) (by omega)

/-- How many of the digits stand before the point; negative or zero when the point is followed by
zeros before the first digit. -/
def point (d : Decimal) : Int := (Nat.toDigits 10 d.digits).length + d.exponent

end Decimal

namespace Number

/-- Whether a decimal rounds to the finite, non-zero double of a magnitude. Twice the decimal is
compared with the sums of the value and its neighbours. -/
def isRoundedFrom (magnitude : Nat) (d : Decimal) : Bool :=
  let twice := 2 * d.numerator * unitsPerOne
  let low := (units (magnitude - 1) + units magnitude) * d.denominator
  let high := (units magnitude + units (magnitude + 1)) * d.denominator
  if magnitude % 2 = 0 then decide (low ≤ twice) && decide (twice ≤ high)
  else decide (low < twice) && decide (twice < high)

/-- Which of two equally near decimals is taken. -/
inductive Tie where
  /-- The greater one. -/
  | up
  /-- The one with an even last digit. -/
  | even
  deriving DecidableEq, Repr

/-- The nearer of the two multiples of `10 ^ exponent` around the value, of those that round to
it. -/
def nearestOnGrid? (tie : Tie) (magnitude : Nat) (exponent : Int) : Option Decimal :=
  let scaled := units magnitude * Nat.pow 10 (-exponent).toNat
  let step := unitsPerOne * Nat.pow 10 exponent.toNat
  let below : Decimal := ⟨scaled / step, exponent⟩
  let above : Decimal := ⟨scaled / step + 1, exponent⟩
  let aboveIsNearer :=
    let midpoint := (2 * (scaled / step) + 1) * step
    decide (midpoint < 2 * scaled)
      || (decide (midpoint = 2 * scaled)
        && match tie with
          | .up => true
          | .even => decide (below.digits % 2 = 1))
  match isRoundedFrom magnitude below, isRoundedFrom magnitude above with
  | true, true => some (if aboveIsNearer then above else below)
  | true, false => some below
  | false, true => some above
  | false, false => none

/-- The first hit on `count` grids, each ten times as fine as the one before. -/
def firstOnGrids? (tie : Tie) (magnitude : Nat) (exponent : Int) : Nat → Option Decimal
  | 0 => none
  | count + 1 =>
    match nearestOnGrid? tie magnitude exponent with
    | some d => some d
    | none => firstOnGrids? tie magnitude (exponent - 1) count

/-- The value itself, as a decimal: a unit is `5 ^ 1074 / 10 ^ 1074`. -/
def exactDecimal (magnitude : Nat) : Decimal := ⟨units magnitude * Nat.pow 5 1074, -1074⟩

/-- The exponent of the coarsest grid that tells the value from zero: that of its first digit. -/
def leadingExponent (magnitude : Nat) : Int :=
  (Nat.toDigits 10 (units magnitude * Nat.pow 10 400 / unitsPerOne)).length - 401

/-- The decimal with the fewest digits that rounds to the finite, non-zero double of a magnitude;
of several, the nearest. Seventeen digits are enough for every double. -/
def shortest (tie : Tie) (magnitude : Nat) : Decimal :=
  match firstOnGrids? tie magnitude (leadingExponent magnitude) 17 with
  | some d => d.reduced
  | none => (exactDecimal magnitude).reduced

end Number

end Lox
