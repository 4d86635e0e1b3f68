import Lox.Diagnostic
import Lox.Evaluation
import Lox.Tree.Parse

/-!
# Running programs

From source text to what comes of it. Lexical and syntax errors are reported and the statements
that are well-formed run all the same; a program with a name out of place does not start; the first
runtime error ends it.
-/

namespace Lox

/-! ## Reading -/

/-- The statements of a source text, and what is wrong with the rest of it: first what cannot be
scanned, then what cannot be parsed. -/
structure Reading where
  statements : List (Stmt Unit)
  diagnostics : List Diagnostic

def Reading.ofSource (source : String) : Reading :=
  let items := Scan.items source
  let program := Program.parse (items.filterMap Scan.Item.token?)
  ⟨program.statements,
    (items.filterMap Scan.Item.error?).map .lexical ++ program.errors.map .grammatical⟩

/-! ## Interpreting -/

/-- Runs statements at the top level, where no signal may arrive. -/
def Step.runTopLevel (fuel : Nat) : List (Stmt Binding) → Step Unit
  | [] => pure ()
  | stmt :: rest => do
    match ← execute fuel stmt with
    | .normal => runTopLevel fuel rest
    | .breaks line => fail (.outsideLoop .kwBreak) (Keyword.kwBreak.token line)
    | .continues line => fail (.outsideLoop .kwContinue) (Keyword.kwContinue.token line)
    | .returns line _ => fail .returnFromTopLevel (Keyword.kwReturn.token line)

namespace Machine

/-- What a host says when its output cannot be flushed. -/
def flushFailure : String := "flush failed"

/-- The report of a flush, if it fails. -/
def flush (machine : Machine) : List Diagnostic :=
  if machine.output.flushFails then [.host flushFailure] else []

/-- Runs statements to their end or to the first runtime error, and flushes the output. -/
def interpret (fuel : Nat) (stmts : List (Stmt Binding)) (machine : Machine) :
    Option (Machine × List Diagnostic) :=
  match Step.runTopLevel fuel stmts machine with
  | .finished () after => some (after, after.flush)
  | .failed error after => some (after, .runtime error :: after.flush)
  | .outOfFuel => none

end Machine

/-! ## Whole runs -/

/-- The worst that was reported about a program. -/
inductive Status where
  | ok
  | staticError
  | runtimeError
  deriving DecidableEq, Repr

namespace Status

def exitCode : Status → Nat
  | ok => 0
  | staticError => 65
  | runtimeError => 70

def ofDiagnostics (diagnostics : List Diagnostic) : Status :=
  if diagnostics.any Diagnostic.isRuntime then runtimeError
  else if diagnostics.isEmpty then ok
  else staticError

end Status

/-- What comes of a source text. -/
structure Report where
  output : Output
  diagnostics : List Diagnostic

def Report.status (report : Report) : Status := .ofDiagnostics report.diagnostics

/-- Runs a source text. A program whose names do not resolve is not run at all; nothing comes of one
that has not ended when its fuel is used up. -/
def run (fuel : Nat) (clock : Nat → Number) (output : Output) (source : String) :
    Option Report :=
  let reading := Reading.ofSource source
  match Stmt.resolveTopLevel reading.statements with
  | .error errors => some ⟨output, reading.diagnostics ++ errors.map .binding⟩
  | .ok stmts =>
    match (Machine.initial output clock).interpret fuel stmts with
    | none => none
    | some (machine, diagnostics) => some ⟨machine.output, reading.diagnostics ++ diagnostics⟩

end Lox
