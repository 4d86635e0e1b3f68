import Mathlib
import Lox.Proofs.Plans.Sessions
import Lox.Proofs.Sessions.Processing

/-!
# Programs in chunks

Statements that follow each other can be processed all at once, or the first of them as one program and the
rest as another one by the interpreter that the first one left. If the first program does not fail it makes
no difference. The resolver is after a program at the top level where it was before it, and so is the
machine, but for the heap. What is noted of the second program stands in the table while the first one runs
in the one case, and in the other not; but the first program and the functions from before it are looked up
at other sites. They are when the second program calls them, too.
-/

namespace Lox

/-! ## One after the other -/

namespace Interpreter

variable {it middle : Interpreter} {fuel : Nat} {stmts first second : List (Stmt Site)}
  {reported : List Diagnostic}

/-- The statements of a program bring only their own occurrences into functions. If they brought in
another site, the functions would read otherwise with a note of that site in the table, which the program
never looks up. -/
theorem IsNew.runTopLevel {site : Site} (new : it.IsNew site)
    (absent : site ∉ Stmt.annotationsEach stmts)
    (left : (Act.runTopLevel fuel stmts it).after? = some middle) : middle.IsNew site := by
  obtain ⟨unknown, nowhere⟩ := new
  let others := it.locals.note site 0
  have elsewhere {other : Site} (differs : other ≠ site) :
      others.binding other = it.locals.binding other := by
    refine Locals.binding_congr ?_
    rw [Locals.distance?_note, if_neg differs]
  have alike : it.ReadsAlike it.locals others := fun id =>
    Stmt.mapEach_congr (it.code id) fun other member => elsewhere fun same => nowhere id (same ▸ member)
  have same : Stmt.mapEach others.binding stmts = Stmt.mapEach it.locals.binding stmts :=
    Stmt.mapEach_congr stmts fun other member => elsewhere fun same => absent (same ▸ member)
  obtain gaveUp | ⟨_, leaves⟩ := Act.runTopLevel_agrees 0 fuel same it rfl alike
  · rw [gaveUp] at left
    cases left
  · obtain ⟨kept, alikeAfter⟩ := leaves middle left
    refine ⟨kept ▸ unknown, fun id member => ?_⟩
    have agrees := Stmt.agree_of_mapEach (middle.code id) (alikeAfter id) site member
    rw [Locals.binding_note_self, Locals.binding, unknown] at agrees
    cases agrees

theorem after?_of_interpret (ends : it.interpret fuel stmts = some (middle, reported)) :
    (Act.runTopLevel fuel stmts it).after? = some middle := by
  unfold interpret at ends
  split at ends <;> cases ends
  · next ran => rw [ran, Ending.after?]
  · next ran => rw [ran, Ending.after?]

/-- What an interpreter knows nothing of, it does not know of after another program either. -/
theorem IsNew.process {site : Site} (new : it.IsNew site)
    (absent : site ∉ Stmt.annotationsEach stmts)
    (ends : it.process fuel stmts = some (middle, reported)) : middle.IsNew site := by
  by_cases accepts : (it.resolve stmts).1 = []
  · rw [process_of_accepts accepts] at ends
    exact (new.resolve absent).runTopLevel absent (after?_of_interpret ends)
  · rw [process_of_rejects accepts] at ends
    cases ends
    exact new.resolve absent

/-- A program that ends, ends in the same way with all fuel beyond what it needs. -/
theorem interpret_of_le {more : Nat} {ending : Interpreter × List Diagnostic} (enough : fuel ≤ more)
    (ends : it.interpret fuel stmts = some ending) : it.interpret more stmts = some ending := by
  obtain ⟨extra, rfl⟩ := Nat.exists_eq_add_of_le' enough
  have agrees : Act.Agrees it.locals it.locals (Act.runTopLevel fuel stmts)
      (Act.runTopLevel (extra + fuel) stmts) := Act.runTopLevel_agrees extra fuel rfl
  obtain gaveUp | ⟨same, leaves⟩ := agrees it rfl fun _ => rfl
  · rw [interpret, gaveUp] at ends
    cases ends
  · rw [Ending.withLocals_self fun after left => (leaves after left).1] at same
    change Act.runTopLevel (extra + fuel) stmts it = _ at same
    rwa [interpret, same]

end Interpreter

end Lox
