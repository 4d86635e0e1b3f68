import Lox.Operator

/-!
# Native routines

Routines that programs call but do not contain. A routine sees its arguments and how each of them
is shown, and replies with what it wants done; it never touches the running program itself.
-/

namespace Lox

/-- What a native routine replies to a call. -/
inductive Reply where
  /-- The value of the call. -/
  | value (value : Value)
  /-- The call fails, with the routine's own message. -/
  | failure (message : String)
  /-- The text is written to the output; the value is nil. -/
  | write (text : String)
  /-- The value is the next reading of the clock. -/
  | readClock

structure Native where
  name : String
  arity : Nat
  /-- The reply to as many arguments as `arity` says, given how values are shown. -/
  routine : (Value → String) → List Value → Reply

namespace Native

/-- A routine of one argument. -/
def ofUnary (name : String) (f : (Value → String) → Value → Reply) : Native :=
  ⟨name, 1, fun shown arguments => f shown (arguments.headD .nil)⟩

/-- `clock()` gives the seconds since some fixed moment. -/
def clock : Native := ⟨"clock", 0, fun _ _ => .readClock⟩

/-- `print(value)` writes a value. -/
def print : Native := ofUnary "print" fun shown value => .write (shown value)

/-- `println(value)` writes a value and ends the line. -/
def println : Native := ofUnary "println" fun shown value => .write (shown value ++ "\n")

/-- The routines that every program finds among its globals. -/
def standard : List Native := [clock, print, println]

end Native

end Lox
