import Lox.Run

/-!
# Sessions

One machine that runs one source text after another. What a text leaves behind, its globals and
everything they lead to, is there for the next one.

A text is run as a program, or it is stepped through statement by statement with the result of each
one kept. Either can be done without resolving names first, which leaves every name global and lets
signals reach the top level.
-/

namespace Lox

/-- The result of one statement of a text that is stepped through. -/
inductive StatementResult where
  | value (value : Value)
  | flow (flow : Flow)

namespace Session

/-- How a text is run. -/
structure Mode where
  resolves : Bool
  keepsResults : Bool
  deriving DecidableEq, Repr

/-- What comes of a text. -/
structure Answer where
  /-- Whether the names were resolved, or did not have to be. -/
  resolved : Bool
  diagnostics : List Diagnostic
  results : List StatementResult
  machine : Machine

/-- Evaluates an expression statement for its value, and runs any other statement. -/
def result (fuel : Nat) : Stmt Binding → Step StatementResult
  | .expression expr => do
    let value ← Step.evaluate fuel expr
    pure (.value value)
  | stmt => do
    let flow ← Step.execute fuel stmt
    pure (.flow flow)

/-- The results of statements up to the first runtime error, the error, and the machine after
them. -/
def results (fuel : Nat) (machine : Machine) :
    List (Stmt Binding) → Option (List StatementResult × List Diagnostic × Machine)
  | [] => some ([], [], machine)
  | stmt :: rest =>
    match result fuel stmt machine with
    | .finished first after =>
      (results fuel after rest).map fun (following, diagnostics, last) =>
        (first :: following, diagnostics, last)
    | .failed error after => some ([], [.runtime error], after)
    | .outOfFuel => none

/-- The statements as they are run, or what is wrong with their names. -/
def prepared (mode : Mode) (stmts : List (Stmt Unit)) :
    Except (List StaticError) (List (Stmt Binding)) :=
  if mode.resolves then Stmt.resolveTopLevel stmts else .ok (Stmt.unresolved stmts)

/-- Runs a text on a machine. -/
def answer (fuel : Nat) (mode : Mode) (source : String) (machine : Machine) : Option Answer :=
  let reading := Reading.ofSource source
  match prepared mode reading.statements with
  | .error errors => some ⟨false, reading.diagnostics ++ errors.map .binding, [], machine⟩
  | .ok stmts =>
    if mode.keepsResults then
      (results fuel machine stmts).map fun (results, diagnostics, after) =>
        ⟨true, reading.diagnostics ++ diagnostics, results, after⟩
    else
      (machine.interpret fuel stmts).map fun (after, diagnostics) =>
        ⟨true, reading.diagnostics ++ diagnostics, [], after⟩

end Session

end Lox
