import Lox.Number.Basic

/-!
# Rounding to a double

The one rounding rule of the language's arithmetic and of its number literals: an exact
non-negative quotient of units goes to the nearest double, a tie to the one with an even
magnitude, and everything from the midpoint past the greatest finite double on to infinity.
-/

namespace Lox.Number

/-- The greatest magnitude whose value is at most `count` units. The leading fifty-three bits of
`count` are kept, and the number of dropped bits moves the exponent. -/
def magnitudeBelow (count : Nat) : Nat :=
  let dropped := count.log2 - 52
  dropped * Nat.pow 2 52 + count / Nat.pow 2 dropped

/-- The magnitude nearest to `numerator / denominator` units, a tie going to the even one. -/
def nearestMagnitude (numerator denominator : Nat) : Nat :=
  let below := magnitudeBelow (numerator / denominator)
  if infinityMagnitude ≤ below then infinityMagnitude
  else
    let midpoint := (units below + units (below + 1)) * denominator
    if 2 * numerator < midpoint then below
    else if midpoint < 2 * numerator then below + 1
    else if below % 2 = 0 then below
    else below + 1

/-- The number nearest to `digits / 10 ^ places`: the value of a decimal literal with that many
digits after its point. -/
def ofDecimal (digits places : Nat) : Number :=
  ofMagnitude false (nearestMagnitude (digits * unitsPerOne) (Nat.pow 10 places))

end Lox.Number
