import Lox.Binding
import Lox.RuntimeError
import Lox.Token.Scan
import Lox.Tree.SyntaxError

/-!
# Diagnostics

Everything that can be reported about a program, from its first character to its last output, and
how a report reads.
-/

namespace Lox

/-- Where a token is, in the words of a report. -/
def Token.location (token : Token) : String :=
  if token.kind = .endOfInput then " at end" else " at '" ++ token.lexeme ++ "'"

inductive Diagnostic where
  | lexical (error : LexicalError)
  | grammatical (error : SyntaxError)
  | binding (error : StaticError)
  | runtime (error : RuntimeError)
  /-- A failure of the host, in its own words. -/
  | host (message : String)
  deriving DecidableEq, Repr

namespace Diagnostic

/-- The line that the report is about. -/
def line? : Diagnostic → Option Nat
  | lexical error => some error.line
  | grammatical error => some error.token.line
  | binding error => some error.token.line
  | runtime error => some error.token.line
  | host _ => none

private def atLine (line : Nat) (location message : String) : String :=
  "[line " ++ toString line ++ "] Error" ++ location ++ ": " ++ message

/-- The report. An error of a running program comes with its message first and its place below;
the others begin with the line. -/
def text : Diagnostic → String
  | lexical error => atLine error.line "" error.problem.message
  | grammatical error => atLine error.token.line error.token.location error.problem.message
  | binding error => atLine error.token.line error.token.location error.problem.message
  | runtime error =>
    error.problem.message ++ "\n[line " ++ toString error.token.line ++ "] at '"
      ++ error.token.lexeme ++ "'"
  | host message => message

def isRuntime : Diagnostic → Bool
  | runtime _ => true
  | _ => false

end Diagnostic

end Lox
