import Lox.Number.Rounding

/-!
# Arithmetic on numbers

Sum, difference, product and quotient are the exact result rounded once; the remainder is exact.
The cases without an exact result (an infinity, a not-a-number, a division by zero) follow
IEEE 754. Powers are the host's.
-/

namespace Lox.Number

/-- The sum. An exact zero is positive unless both operands have a negative sign. -/
def add (a b : Number) : Number :=
  if a.isNaN || b.isNaN then nan
  else if a.isInfinite then
    if b.isInfinite && a.isNegative != b.isNegative then nan else a
  else if b.isInfinite then b
  else
    let sum := a.signedUnits + b.signedUnits
    let negative := if sum = 0 then a.isNegative && b.isNegative else decide (sum < 0)
    ofMagnitude negative (nearestMagnitude sum.natAbs 1)

def subtract (a b : Number) : Number := a.add b.negate

/-- The product, which is negative when exactly one operand is. -/
def multiply (a b : Number) : Number :=
  let negative := a.isNegative != b.isNegative
  if a.isNaN || b.isNaN then nan
  else if a.isInfinite || b.isInfinite then
    if a.isZero || b.isZero then nan else infinity negative
  else
    ofMagnitude negative
      (nearestMagnitude (units a.magnitude * units b.magnitude) unitsPerOne)

/-- The quotient, which is negative when exactly one operand is. -/
def divide (a b : Number) : Number :=
  let negative := a.isNegative != b.isNegative
  if a.isNaN || b.isNaN || (a.isInfinite && b.isInfinite) || (a.isZero && b.isZero) then nan
  else if a.isInfinite || b.isZero then infinity negative
  else if b.isInfinite then ofMagnitude negative 0
  else
    ofMagnitude negative (nearestMagnitude (units a.magnitude * unitsPerOne) (units b.magnitude))

/-- What is left of the dividend after taking the divisor away as often as it goes in whole. It
has the dividend's sign, and it is exact: a remainder of units is itself a count of units with no
more leading bits than the divisor. -/
def remainder (a b : Number) : Number :=
  if a.isNaN || b.isNaN || a.isInfinite || b.isZero then nan
  else if b.isInfinite then a
  else ofMagnitude a.isNegative (nearestMagnitude (units a.magnitude % units b.magnitude) 1)

/-- The host's power function. -/
def power (a b : Number) : Number :=
  ⟨(Float.pow (Float.ofBits a.bits) (Float.ofBits b.bits)).toBits⟩

end Lox.Number
