import Lox.Number.Arithmetic
import Lox.Tree
import Lox.Value

/-!
# Operators on values

What the operators of the language do with their operands, and the operands that they refuse.
Nothing is converted, except that a number added to a text is written out.
-/

namespace Lox

/-! ## Errors -/

/-- What an operator can have against its operands. -/
inductive OperandProblem where
  | operandNotNumber
  | operandsNotNumbers
  | operandsNotAddable
  | operandsNotMultipliable
  | divisionByZero
  | moduloByZero
  | repeatCountNotNatural
  | repeatTooLarge
  deriving DecidableEq, Repr

def OperandProblem.message : OperandProblem → String
  | operandNotNumber => "Operand must be a number."
  | operandsNotNumbers => "Operands must be numbers."
  | operandsNotAddable => "Operands must be two numbers, or text and a number."
  | operandsNotMultipliable => "Operands must be numbers, or a text and a number."
  | divisionByZero => "Division by zero."
  | moduloByZero => "Modulo by zero."
  | repeatCountNotNatural => "Repeat count must be a non-negative integer."
  | repeatTooLarge => "Repeat result is too large."

/-! ## Repeated text -/

/-- So many copies of a text, joined by halves: it takes as many steps as the count has bits. -/
def copies (text : String) (count : Nat) : String :=
  if count = 0 then ""
  else
    let half := copies text (count / 2)
    if count % 2 = 0 then half ++ half else half ++ half ++ text
  termination_by count

/-- The most bytes that a repeat may build. -/
def maximumTextSize : Nat := Nat.pow 2 28

/-- The most copies that can be counted at all: the largest machine word, rounded to a number. -/
def maximumCopies : Nat := Nat.pow 2 64

/-- The largest machine word. -/
def maximumWord : Nat := Nat.pow 2 64 - 1

/-- The whole part as a machine word. What is more than a word can hold is the largest word. -/
def Number.toWord (n : Number) : Nat := min n.wholePart maximumWord

/-- The product of two machine words, if it is one. -/
def wordProduct? (a b : Nat) : Option Nat := if a * b ≤ maximumWord then some (a * b) else none

/-- `text * count`. The count has to be a whole number and not negative; one above
`maximumCopies` is refused even where the copies are empty. -/
def repeated (text : String) (count : Number) : Except OperandProblem Value :=
  if !count.isIntegral || (count.isNegative && !count.isZero) then .error .repeatCountNotNatural
  else if maximumCopies < count.wholePart then .error .repeatTooLarge
  else
    match wordProduct? text.utf8ByteSize count.toWord with
    | none => .error .repeatTooLarge
    | some size =>
      if maximumTextSize < size then .error .repeatTooLarge
      else .ok (.text (copies text count.toWord))

/-! ## Unary operators -/

def UnaryOperator.apply : UnaryOperator → Value → Except OperandProblem Value
  | not, operand => .ok (.boolean (!operand.isTruthy))
  | negate, .number n => .ok (.number n.negate)
  | negate, _ => .error .operandNotNumber

/-! ## Binary operators -/

/-- A number as it is added to a text. -/
def Number.shown (n : Number) : String := String.ofList n.valueForm

/-- Applies a function to two numbers and refuses all other operands. -/
def onNumbers (f : Number → Number → Except OperandProblem Value) (refusal : OperandProblem) :
    Value → Value → Except OperandProblem Value
  | .number a, .number b => f a b
  | _, _ => .error refusal

def BinaryOperator.apply : BinaryOperator → Value → Value → Except OperandProblem Value
  | equal, a, b => .ok (.boolean (a.equal b))
  | notEqual, a, b => .ok (.boolean (!a.equal b))
  | add, .number a, .number b => .ok (.number (a.add b))
  | add, .text a, .text b => .ok (.text (a ++ b))
  | add, .text a, .number b => .ok (.text (a ++ b.shown))
  | add, .number a, .text b => .ok (.text (a.shown ++ b))
  | add, _, _ => .error .operandsNotAddable
  | multiply, .text text, .number count => repeated text count
  | multiply, a, b =>
    onNumbers (fun x y => .ok (.number (x.multiply y))) .operandsNotMultipliable a b
  | subtract, a, b => onNumbers (fun x y => .ok (.number (x.subtract y))) .operandsNotNumbers a b
  | divide, a, b =>
    onNumbers (fun x y => if y.isZero then .error .divisionByZero else .ok (.number (x.divide y)))
      .operandsNotNumbers a b
  | modulo, a, b =>
    onNumbers
      (fun x y => if y.isZero then .error .moduloByZero else .ok (.number (x.remainder y)))
      .operandsNotNumbers a b
  | power, a, b => onNumbers (fun x y => .ok (.number (x.power y))) .operandsNotNumbers a b
  | greater, a, b => onNumbers (fun x y => .ok (.boolean (y.less x))) .operandsNotNumbers a b
  | greaterOrEqual, a, b =>
    onNumbers (fun x y => .ok (.boolean (y.lessOrEqual x))) .operandsNotNumbers a b
  | less, a, b => onNumbers (fun x y => .ok (.boolean (x.less y))) .operandsNotNumbers a b
  | lessOrEqual, a, b =>
    onNumbers (fun x y => .ok (.boolean (x.lessOrEqual y))) .operandsNotNumbers a b

end Lox
