import Lox.Number.Shortest

/-!
# The written forms of a number

A number is written in four ways, all built from the same digits:

* `valueForm`, what a program prints: `7`, `2.5`, `1000000000000000000000`;
* `tokenForm`, in a listing of tokens: `7.0`, `2.5`;
* `treeForm`, in a printed statement: `7.0`, `99999999999999991611392.0`;
* `jsonForm`, in a JSON document: `7.0`, `1e+21`.

Only the last one ever uses an exponent, and only the second-last writes more digits than are
needed to read the number back.
-/

namespace Lox

/-! ## Laying out digits -/

namespace Decimal

/-- The decimal without an exponent: zeros fill the places between the digits and the point. -/
def positional (d : Decimal) : List Char :=
  let digits := Nat.toDigits 10 d.digits
  if 0 ≤ d.exponent then digits ++ List.replicate d.exponent.toNat '0'
  else if 0 < d.point then digits.take d.point.toNat ++ '.' :: digits.drop d.point.toNat
  else '0' :: '.' :: (List.replicate (-d.point).toNat '0' ++ digits)

/-- The decimal with one digit before the point and a signed exponent. -/
def scientific (d : Decimal) : List Char :=
  let digits := Nat.toDigits 10 d.digits
  let exponent := d.point - 1
  let fraction := if digits.length ≤ 1 then [] else '.' :: digits.drop 1
  digits.take 1 ++ fraction ++ 'e' :: (if exponent < 0 then '-' else '+')
    :: Nat.toDigits 10 exponent.natAbs

end Decimal

namespace Number

/-- A form with the sign in front of it. -/
def signed (negative : Bool) (form : List Char) : List Char :=
  if negative then '-' :: form else form

/-! ## The forms -/

/-- The shortest digits that read back, never with an exponent. A not-a-number has no sign. -/
def shortestForm (n : Number) : List Char :=
  if n.isNaN then ['N', 'a', 'N']
  else if n.isInfinite then signed n.isNegative ['i', 'n', 'f']
  else if n.isZero then signed n.isNegative ['0']
  else signed n.isNegative (shortest .up n.magnitude).positional

/-- Whole numbers below 10¹⁵ are written as integers. -/
def isPlainInteger (n : Number) : Bool := n.isIntegral && decide (n.wholePart < Nat.pow 10 15)

/-- A whole number as an integer; both zeros are `0`. -/
def integerForm (n : Number) : List Char :=
  signed (n.isNegative && !n.isZero) (Nat.toDigits 10 n.wholePart)

/-- The form a program's output shows. -/
def valueForm (n : Number) : List Char :=
  if n.isPlainInteger then n.integerForm else n.shortestForm

/-- The form a listing of tokens shows: integers are marked as numbers by `.0`. -/
def tokenForm (n : Number) : List Char :=
  if n.isPlainInteger then n.integerForm ++ ['.', '0'] else n.shortestForm

/-- The form a printed statement shows: every whole number with all its digits and `.0`, and with
the sign of negative zero. -/
def treeForm (n : Number) : List Char :=
  if n.isIntegral then signed n.isNegative (Nat.toDigits 10 n.wholePart ++ ['.', '0'])
  else n.shortestForm

/-- The form a JSON document shows: positional from 10⁻⁵ up to 10¹⁶, and `null` where JSON has no
number. -/
def jsonForm (n : Number) : List Char :=
  if !n.isFinite then ['n', 'u', 'l', 'l']
  else if n.isZero then signed n.isNegative ['0', '.', '0']
  else
    let d := shortest .even n.magnitude
    signed n.isNegative <|
      if d.point < -4 || 16 < d.point then d.scientific
      else if 0 ≤ d.exponent then d.positional ++ ['.', '0']
      else d.positional

end Number

end Lox
