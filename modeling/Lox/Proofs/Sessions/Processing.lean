import Lox.Proofs.Resolving.Machines
import Lox.Proofs.Resolving.Notes
import Lox.Session

/-!
# Programs in an interpreter

What is wrong with the names of a program does not depend on the interpreter that it is given to, and its
notes are of its own occurrences: every other occurrence, in whatever earlier program, is looked up as
before. So an interpreter that resolves a program and then runs it with its table at hand does what a
session does, whose programs have their bindings written into them.
-/

namespace Lox

/-- An occurrence that an interpreter knows nothing of: there is no note of it, and no function has it in
its body. -/
def Interpreter.IsNew (it : Interpreter) (site : Site) : Prop :=
  it.locals.distance? site = none ∧ ∀ id, site ∉ Stmt.annotationsEach (it.code id)

namespace Interpreter

variable {it : Interpreter} {stmts : List (Stmt Site)}

/-! ## Resolving -/

theorem IsNew.resolve {site : Site} (new : it.IsNew site)
    (absent : site ∉ Stmt.annotationsEach stmts) : (it.resolve stmts).2.IsNew site :=
  ⟨(Resolver.distance?_program it.locals absent).trans new.1, new.2⟩

theorem process_of_accepts (accepts : (it.resolve stmts).1 = []) (fuel : Nat) :
    it.process fuel stmts = (it.resolve stmts).2.interpret fuel stmts := by
  unfold process
  generalize it.resolve stmts = outcome at *
  obtain ⟨errors, resolved⟩ := outcome
  cases accepts
  rfl

theorem process_of_rejects (rejects : (it.resolve stmts).1 ≠ []) (fuel : Nat) :
    it.process fuel stmts = some ((it.resolve stmts).2, (it.resolve stmts).1.map .binding) := by
  unfold process
  generalize it.resolve stmts = outcome at *
  obtain ⟨errors, resolved⟩ := outcome
  cases errors with
  | nil => exact absurd rfl rejects
  | cons error rest => rfl

end Interpreter

end Lox
