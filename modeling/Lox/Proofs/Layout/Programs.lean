import Lox.Proofs.Layout.Rules
import Lox.Proofs.Recovery.Statements

/-!
# Layout does not change a program

A program without errors is the same on other lines, up to the lines in its tree, as long as each
`return` keeps its value on its own line, or keeps it off.
-/

namespace Lox.Program

/-- The same tokens on other lines are the same program. -/
theorem parse_relabels {tokens others : List Token} (relabels : Token.Relabels tokens others)
    (accepted : (parse tokens).errors = []) :
    (parse others).errors = [] ∧ ∀ line,
      Stmt.onLineEach line (parse others).statements =
        Stmt.onLineEach line (parse tokens).statements := by
  obtain ⟨stmts, finish, ran⟩ := exists_done tokens
  rw [parse_eq_of_done ran] at accepted ⊢
  have unharmed : finish.errors = [] := by simpa using accepted
  have agrees : ∀ line, ∃ same otherFinish,
      Reader.program (fuelFor others.length) (.ofTokens others) = .done same otherFinish ∧
        Stmt.onLineEach line same = Stmt.onLineEach line stmts ∧ finish.Relabels otherFinish := by
    intro line
    rw [relabels.length]
    have whole : Reader.Relabels (Stmt.onLineEach line) _ _ :=
      Reader.program_relabels (fuelFor tokens.length)
    exact whole.agrees (.ofTokens relabels) stmts finish ran unharmed
  constructor
  · obtain ⟨same, otherFinish, otherRan, -, between⟩ := agrees 0
    rw [parse_eq_of_done otherRan, between.otherClean]
    rfl
  · intro line
    obtain ⟨same, otherFinish, otherRan, sameView, -⟩ := agrees line
    rw [parse_eq_of_done otherRan]
    exact sameView

/-- A function with two `return` statements, the value of the first on its line and what follows the
second on another one. On the other side the lines do not even go up. -/
theorem parse_relabels_returns :
    let place (lines : List Nat) : List Token := List.zipWith Token.mk [.keyword .kwFun,
      .identifier "f", .symbol .leftParen, .symbol .rightParen, .symbol .leftBrace,
      .keyword .kwReturn, .keyword .kwNil, .keyword .kwReturn, .identifier "g", .symbol .rightBrace,
      .endOfInput] lines
    let tokens := place [1, 1, 1, 1, 1, 2, 2, 3, 4, 5, 5]
    let others := place [9, 8, 7, 7, 7, 6, 6, 5, 4, 4, 4]
    let body : List (Stmt Unit) := [.returnValue 0 (some (.literal .nil)), .returnValue 0 none,
      .expression (.reference ⟨"g", 0⟩ ())]
    Token.Relabels tokens others ∧ (parse tokens).errors = [] ∧ (parse others).errors = [] ∧
      Stmt.onLineEach 0 (parse others).statements = [.funDecl ⟨"f", 0⟩ ⟨[], body⟩] := by
  intro place tokens others body
  have relabels : Token.Relabels tokens others := by
    repeat refine .cons rfl (by decide) ?_
    exact .nil
  obtain ⟨accepted, same⟩ := parse_relabels relabels rfl
  exact ⟨relabels, rfl, accepted, (same 0).trans rfl⟩

end Lox.Program
