import Lox.Operator

/-!
# Runtime errors

What can go wrong while a program runs. Every error is located at a token.
-/

namespace Lox

inductive RuntimeProblem where
  | operands (problem : OperandProblem)
  | conditionNotBoolean
  | undefinedVariable (name : String)
  | undefinedProperty (name : String)
  | undefinedSuperclassProperty (name superclass : String)
  | propertyOfNonInstance
  | fieldOfNonInstance
  | notCallable
  | wrongArgumentCount (expected given : Nat)
  | stackOverflow
  | superclassNotClass
  | superOutsideClass
  | superOutsideMethod
  | outsideLoop (keyword : Keyword)
  | returnFromTopLevel
  /-- The message of a native routine. -/
  | nativeFailure (message : String)
  /-- The output has no room left. -/
  | outputFull
  deriving DecidableEq, Repr

def RuntimeProblem.message : RuntimeProblem → String
  | operands problem => problem.message
  | conditionNotBoolean => "Ternary condition must be a boolean."
  | undefinedVariable name => "Undefined variable '" ++ name ++ "'."
  | undefinedProperty name => "Undefined property '" ++ name ++ "'."
  | undefinedSuperclassProperty name superclass =>
    "Undefined property '" ++ name ++ "' on superclass '" ++ superclass ++ "'."
  | propertyOfNonInstance => "Only instances have properties."
  | fieldOfNonInstance => "Only instances have fields."
  | notCallable => "Can only call functions and classes."
  | wrongArgumentCount expected given =>
    "Expected " ++ toString expected ++ " arguments but got " ++ toString given ++ "."
  | stackOverflow => "Stack overflow."
  | superclassNotClass => "Superclass must be a class."
  | superOutsideClass => "Can't use 'super' outside of a class."
  | superOutsideMethod => "Can't use 'super' outside of a method."
  | outsideLoop keyword => "Can't use '" ++ keyword.lexeme ++ "' outside of a loop."
  | returnFromTopLevel => "Can't return from top-level code."
  | nativeFailure message => message
  | outputFull => "Output error: sink full"

/-- A problem, at the token where it arose. -/
structure RuntimeError where
  problem : RuntimeProblem
  token : Token
  deriving DecidableEq, Repr

end Lox
