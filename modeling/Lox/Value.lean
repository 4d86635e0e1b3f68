import Lox.Number.Form

/-!
# Values

What expressions evaluate to. Functions, classes and instances are denoted by their numbers in the
order of creation, so two of them are equal only if they are the same one; what they are made of
is kept in the heap.
-/

namespace Lox

/-- The number of a native routine. -/
abbrev NativeId := Nat

/-- The number of a function. -/
abbrev FunctionId := Nat

/-- The number of a class. -/
abbrev ClassId := Nat

/-- The number of an instance. -/
abbrev InstanceId := Nat

inductive Value where
  | nil
  | boolean (value : Bool)
  | number (value : Number)
  | text (contents : String)
  | native (id : NativeId)
  | function (id : FunctionId)
  | classObject (id : ClassId)
  | object (id : InstanceId)
  deriving DecidableEq, Repr

namespace Value

/-- Whether the value counts as true in a condition. Nil, false, the two zeros and the text `false`
do not. -/
def isTruthy : Value → Bool
  | nil => false
  | boolean value => value
  | number value => !value.isZero
  | text contents => contents != "false"
  | _ => true

/-- The name of the value's type. -/
def typeName : Value → String
  | nil => "nil"
  | boolean _ => "boolean"
  | number _ => "number"
  | text _ => "text"
  | native _ => "function"
  | function _ => "function"
  | classObject _ => "class"
  | object _ => "instance"

/-- Equality as programs see it: numbers by value, nothing converted, everything with an identity
by that identity. -/
def equal : Value → Value → Bool
  | number a, number b => a.equal b
  | a, b => decide (a = b)

end Value

end Lox
