/-!
# Numbers

A number of the language is an IEEE 754 double, kept as its 64 bits. Everything the language
asks about a number is answered exactly, in natural-number arithmetic, through one view:
every finite double is a whole count of *units* of 2⁻¹⁰⁷⁴, the least positive double.

The bits without the sign (the *magnitude*) grow with the size of the number, so the magnitude
after `b` is `b + 1`, and the magnitude of infinity comes right after the greatest finite one.
-/

namespace Lox

/-- A double, as its bits: the sign, eleven bits of exponent, fifty-two bits of fraction. -/
structure Number where
  bits : UInt64
  deriving DecidableEq, Repr

namespace Number

/-! ## Bits -/

/-- The magnitude of infinity: all bits of the exponent set, none of the fraction. -/
def infinityMagnitude : Nat := 0x7FF0000000000000

/-- The double with a given sign and magnitude. -/
def ofMagnitude (negative : Bool) (magnitude : Nat) : Number :=
  ⟨UInt64.ofNat (if negative then Nat.pow 2 63 + magnitude else magnitude)⟩

/-- The bits below the sign. -/
def magnitude (n : Number) : Nat := n.bits.toNat % Nat.pow 2 63

/-- Whether the sign bit is set. -/
def isNegative (n : Number) : Bool := decide (Nat.pow 2 63 ≤ n.bits.toNat)

def isFinite (n : Number) : Bool := decide (n.magnitude < infinityMagnitude)

def isInfinite (n : Number) : Bool := decide (n.magnitude = infinityMagnitude)

def isNaN (n : Number) : Bool := decide (infinityMagnitude < n.magnitude)

/-- Whether the number is positive or negative zero. -/
def isZero (n : Number) : Bool := decide (n.magnitude = 0)

def zero : Number := ofMagnitude false 0

def infinity (negative : Bool) : Number := ofMagnitude negative infinityMagnitude

/-- The quiet not-a-number that operations give. -/
def nan : Number := ⟨0x7FF8000000000000⟩

/-- The number with the opposite sign. -/
def negate (n : Number) : Number := ofMagnitude (!n.isNegative) n.magnitude

/-! ## The exact value -/

/-- How many units make 1. -/
def unitsPerOne : Nat := Nat.pow 2 1074

/-- The units that a magnitude stands for. Below 2⁵² the fraction counts units itself; from there
on the fraction has an implied leading bit and each step of the exponent doubles the unit. -/
def units (magnitude : Nat) : Nat :=
  let exponent := magnitude / Nat.pow 2 52
  let fraction := magnitude % Nat.pow 2 52
  if exponent = 0 then fraction else (Nat.pow 2 52 + fraction) * Nat.pow 2 (exponent - 1)

/-- The value in units, with its sign. An infinity counts as the first value past the finite ones,
which puts it on the right side of all of them. -/
def signedUnits (n : Number) : Int :=
  if n.isNegative then -(units n.magnitude : Int) else (units n.magnitude : Int)

/-- Whether the number is finite and has no fractional part. -/
def isIntegral (n : Number) : Bool := n.isFinite && decide (units n.magnitude % unitsPerOne = 0)

/-- The whole part of a finite number's absolute value. -/
def wholePart (n : Number) : Nat := units n.magnitude / unitsPerOne

/-! ## Comparison

No comparison holds of a not-a-number, and the two zeros are equal. -/

/-- Equality of values, which is not equality of bits: `0 = -0`, and a not-a-number differs from
itself. -/
def equal (a b : Number) : Bool := !a.isNaN && !b.isNaN && decide (a.signedUnits = b.signedUnits)

def less (a b : Number) : Bool := !a.isNaN && !b.isNaN && decide (a.signedUnits < b.signedUnits)

def lessOrEqual (a b : Number) : Bool :=
  !a.isNaN && !b.isNaN && decide (a.signedUnits ≤ b.signedUnits)

end Number

end Lox
