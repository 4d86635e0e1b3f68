import Lox.Proofs.Recovery.Rules
import Lox.Proofs.Returns.Gathering

/-!
# Every rule gathers the return statements of its parts

A rule gives the `return` statements that its parts have read, in their order. The rules call each
other, so they are shown together, each by its own parts, by recursion on the fuel.
-/

namespace Lox.Reader

open Gathers

theorem parameters_silent (fuel count : Nat) (held : List (ReturnStatement Unit)) :
    Gathers held (fun _ => held) (parameters fuel count) :=
  .silent (parameters_widens fuel 0 count)

theorem returns_assignment (targets : List (Target Unit)) (value : Expr Unit) :
    (assignment targets value).returns = Target.returnsEach targets ++ value.returns := by
  match targets with
  | [.property _ _] =>
    rw [Target.returnsEach, Target.returnsEach, List.append_nil]
    rfl
  | [] | [.name _ _] | .name _ _ :: _ :: _ | .property _ _ :: _ :: _ => rfl

/-- Whether a return statement ends at its keyword is for the next token to say. -/
theorem returnsNothing_done (line : Nat) (cursor : Cursor) : ∃ bare,
    returnsNothing line cursor = .done bare cursor ∧
      (bare = true ↔ cursor.next.EndsReturn line) :=
  ⟨_, rfl, by simp [Token.EndsReturn, or_assoc]⟩

mutual

theorem program_gathers : ∀ fuel, Gathers [] Stmt.returnsEach (program fuel)
  | 0 => .outOfFuel
  | fuel + 1 => by
    refine .bind (.silent .atEnd) fun ended => .ite (.pure rfl) ?_
    refine .bind (declaration_gathers fuel) fun first => ?_
    refine .bind (.after _ (program_gathers fuel)) fun rest => .pure ?_
    rw [Stmt.returnsEach_append, Stmt.returnsEach_toList]

theorem declaration_gathers : ∀ fuel, Gathers [] Stmt.returnsPart (declaration fuel)
  | 0 => .outOfFuel
  | fuel + 1 => by
    have widens := declared_widens fuel 0
    rw [Nat.zero_add] at widens
    exact .recovered widens (declared_gathers fuel)

theorem declared_gathers : ∀ fuel, Gathers [] Stmt.returns (declared fuel)
  | 0 => .outOfFuel
  | fuel + 1 => by
    refine .bind (.silent .next) fun token => ?_
    split
    · exact .bind (.silent .advance) fun _ => classDecl_gathers fuel
    · refine .bind (.silent .advance) fun _ => ?_
      exact .bind (function_gathers fuel _) fun ⟨name, lambda⟩ => .pure rfl
    · exact .bind (.silent .advance) fun _ => varDecl_gathers fuel
    · exact statement_gathers fuel

theorem classDecl_gathers : ∀ fuel, Gathers [] Stmt.returns (classDecl fuel)
  | 0 => .outOfFuel
  | fuel + 1 => by
    refine .bind (.silent (.identifier _)) fun name => ?_
    refine .bind (.silent .accept) fun inherits => .ite ?_ ?_
    · refine .bind (.silent (.identifier _)) fun parent => .bind (.silent (.expect _)) fun _ => ?_
      refine .bind (methods_gathers fuel) fun methods => ?_
      exact .bind (.silent (.expect _)) fun _ => .pure rfl
    · refine .bind (.silent (.expect _)) fun _ => .bind (methods_gathers fuel) fun methods => ?_
      exact .bind (.silent (.expect _)) fun _ => .pure rfl

theorem methods_gathers : ∀ fuel, Gathers [] Method.returnsEach (methods fuel)
  | 0 => .outOfFuel
  | fuel + 1 => by
    refine .bind (.silent .nextIs) fun closed => .bind (.silent .atEnd) fun ended => ?_
    refine .ite (.pure rfl) ?_
    refine .bind (function_gathers fuel _) fun first => ?_
    exact .bind (.after _ (methods_gathers fuel)) fun rest => .pure rfl

theorem function_gathers : ∀ fuel role, Gathers [] Method.returns (function fuel role)
  | 0, _ => .outOfFuel
  | fuel + 1, role => by
    refine .bind (.silent (.identifier _)) fun name => .bind (.silent (.expect _)) fun _ => ?_
    exact .bind (functionRest_gathers fuel role) fun lambda => .pure rfl

theorem functionRest_gathers : ∀ fuel role, Gathers [] Lambda.returns (functionRest fuel role)
  | 0, _ => .outOfFuel
  | fuel + 1, role => by
    refine .leftOut (parameters_silent fuel 0 _) rfl fun parameters => ?_
    refine .bind (.silent (.expect _)) fun _ => .bind (.silent (.expect _)) fun _ => ?_
    exact .bind (block_gathers fuel) fun body => .pure rfl

theorem varDecl_gathers : ∀ fuel, Gathers [] Stmt.returns (varDecl fuel)
  | 0 => .outOfFuel
  | fuel + 1 => by
    refine .bind (.silent (.identifier _)) fun name => ?_
    refine .bind (.silent .accept) fun initialized => .ite ?_ ?_
    · refine .bind (expression_gathers fuel) fun initializer => ?_
      exact .bind (.silent .terminator) fun _ => .pure rfl
    · exact .bind (.silent .terminator) fun _ => .pure rfl

theorem block_gathers : ∀ fuel, Gathers [] Stmt.returnsEach (block fuel)
  | 0 => .outOfFuel
  | fuel + 1 => by
    refine .bind (declarations_gathers fuel) fun body => ?_
    exact .bind (.silent (.expect _)) fun _ => .pure rfl

theorem declarations_gathers : ∀ fuel, Gathers [] Stmt.returnsEach (declarations fuel)
  | 0 => .outOfFuel
  | fuel + 1 => by
    refine .bind (.silent .nextIs) fun closed => .bind (.silent .atEnd) fun ended => ?_
    refine .ite (.pure rfl) ?_
    refine .bind (declaration_gathers fuel) fun first => ?_
    refine .bind (.after _ (declarations_gathers fuel)) fun rest => .pure ?_
    rw [Stmt.returnsEach_append, Stmt.returnsEach_toList]

theorem statement_gathers : ∀ fuel, Gathers [] Stmt.returns (statement fuel)
  | 0 => .outOfFuel
  | fuel + 1 => fun cursor => by
    have simple := expressionStatement_gathers fuel cursor
    refine .next ?_
    cases found : cursor.next.kind with
    | keyword keyword =>
      cases keyword with
      | kwFor => exact bind (.silent .advance) (fun _ => forLoop_gathers fuel) cursor
      | kwIf => exact bind (.silent .advance) (fun _ => branch_gathers fuel) cursor
      | kwWhile => exact bind (.silent .advance) (fun _ => whileLoop_gathers fuel) cursor
      | kwReturn =>
        intro stmt after ran
        exact ⟨_, rfl, returnValue_gathers fuel found ran⟩
      | kwBreak =>
        refine bind (.silent .advance) (fun _ => ?_) cursor
        exact bind (.silent .terminator) fun _ => .pure rfl
      | kwContinue =>
        refine bind (.silent .advance) (fun _ => ?_) cursor
        exact bind (.silent .terminator) fun _ => .pure rfl
      | _ => exact simple
    | symbol symbol =>
      cases symbol with
      | leftBrace =>
        refine bind (.silent .advance) (fun _ => ?_) cursor
        exact bind (block_gathers fuel) fun body => .pure rfl
      | _ => exact simple
    | _ => exact simple

theorem forLoop_gathers : ∀ fuel, Gathers [] Stmt.returns (forLoop fuel)
  | 0 => .outOfFuel
  | fuel + 1 => by
    refine .bind (.silent (.expect _)) fun _ => ?_
    refine .bind (forInitializer_gathers fuel) fun initializer => ?_
    refine .bind (.after _ (clause_gathers fuel _)) fun condition => ?_
    refine .bind (.silent (.expect _)) fun _ => ?_
    refine .bind (.after _ (clause_gathers fuel _)) fun increment => ?_
    refine .bind (.silent (.expect _)) fun _ => ?_
    exact .bind (.after _ (statement_gathers fuel)) fun body => .pure rfl

theorem forInitializer_gathers : ∀ fuel, Gathers [] Stmt.returnsPart (forInitializer fuel)
  | 0 => .outOfFuel
  | fuel + 1 => by
    refine .bind (.silent .next) fun token => ?_
    split
    · exact .bind (.silent .advance) fun _ => .pure rfl
    · refine .bind (.silent .advance) fun _ => ?_
      exact .bind (varDecl_gathers fuel) fun _ => .pure rfl
    · exact .bind (expressionStatement_gathers fuel) fun _ => .pure rfl

theorem clause_gathers : ∀ fuel ending, Gathers [] Expr.returnsPart (clause fuel ending)
  | 0, _ => .outOfFuel
  | fuel + 1, _ => by
    refine .bind (.silent .nextIs) fun _ => .ite (.pure rfl) ?_
    exact .bind (expression_gathers fuel) fun _ => .pure rfl

theorem branch_gathers : ∀ fuel, Gathers [] Stmt.returns (branch fuel)
  | 0 => .outOfFuel
  | fuel + 1 => by
    refine .bind (.silent (.expect _)) fun _ => .bind (expression_gathers fuel) fun condition => ?_
    refine .bind (.silent (.expect _)) fun _ => ?_
    refine .bind (.after _ (statement_gathers fuel)) fun thenBranch => ?_
    refine .bind (.silent .next) fun token => .ite ?_ (.pure ?_)
    · refine .bind (.silent .advance) fun _ => ?_
      exact .bind (.after _ (statement_gathers fuel)) fun elseBranch => .pure rfl
    · rw [Stmt.returns, Stmt.returnsPart, List.append_nil]

theorem whileLoop_gathers : ∀ fuel, Gathers [] Stmt.returns (whileLoop fuel)
  | 0 => .outOfFuel
  | fuel + 1 => by
    refine .bind (.silent (.expect _)) fun _ => .bind (expression_gathers fuel) fun condition => ?_
    refine .bind (.silent (.expect _)) fun _ => ?_
    exact .bind (.after _ (statement_gathers fuel)) fun body => .pure rfl

/-- A `return` statement comes before those in its value. -/
theorem returnValue_gathers : ∀ fuel {here after : Cursor} {stmt : Stmt Unit},
    here.next.kind = .keyword .kwReturn →
      returnValue fuel here.next.line here.advance = .done stmt after →
        here.Gathers stmt.returns after
  | 0, _, _, _, _, ran => by cases ran
  | fuel + 1, here, after, stmt, found, ran => by
    have keyword : here.next = ⟨.keyword .kwReturn, here.next.line⟩ := by rw [← found]
    obtain ⟨bare, looked, ends⟩ := returnsNothing_done here.next.line here.advance
    unfold returnValue at ran
    rw [bind_of_done looked] at ran
    cases bare with
    | true =>
      have without : Gathers [⟨here.next.line, none⟩] Stmt.returns
          (terminator >>= fun _ => pure (.returnValue here.next.line none)) :=
        .bind (.silent .terminator) fun _ => .pure rfl
      obtain ⟨more, same, further⟩ := without here.advance stmt after ran
      rw [same]
      exact .cons (.refl here) ⟨keyword, iff_of_true rfl (ends.mp rfl)⟩ further
    | false =>
      obtain ⟨value, middle, outcome, ran⟩ := exists_of_bind_done ran
      have held : Gathers (⟨here.next.line, some value⟩ :: value.returns) Stmt.returns
          (terminator >>= fun _ => pure (.returnValue here.next.line (some value))) :=
        .bind (.silent .terminator) fun _ => .pure rfl
      obtain ⟨inner, sameValue, reads⟩ := expression_gathers fuel here.advance value middle outcome
      obtain ⟨more, same, further⟩ := held middle stmt after ran
      rw [same, sameValue]
      have goesOn : ¬ here.advance.next.EndsReturn here.next.line := fun stops => by
        cases ends.mpr stops
      exact .cons (.refl here) ⟨keyword, iff_of_false nofun goesOn⟩ (reads.trans further)

theorem expressionStatement_gathers : ∀ fuel,
    Gathers [] Stmt.returns (expressionStatement fuel)
  | 0 => .outOfFuel
  | fuel + 1 => by
    refine .bind (ternary_gathers fuel) fun first => .bind (.silent .nextIs) fun assigns => ?_
    refine .ite ?_ ?_
    · refine .bind (assignments_gathers fuel first) fun ⟨targets, value⟩ => ?_
      exact .bind (.silent .terminator) fun _ => .pure (returns_assignment targets value)
    · refine .bind (operands_gathers fuel first) fun expr => ?_
      exact .bind (.silent .terminator) fun _ => .pure rfl

theorem assignments_gathers : ∀ fuel (pending : Expr Unit),
    Gathers pending.returns (fun chain => Target.returnsEach chain.1 ++ chain.2.returns)
      (assignments fuel pending)
  | 0, _ => .outOfFuel
  | fuel + 1, pending => by
    refine .bind (.silent .advance) fun equals => .bind (.target pending equals) fun first => ?_
    refine .bind (.after _ (ternary_gathers fuel)) fun following => ?_
    refine .bind (.silent .nextIs) fun assigns => .ite ?_ (.pure ?_)
    · refine .bind (.frame _ (assignments_gathers fuel following)) fun ⟨targets, value⟩ => .pure ?_
      rw [Target.returnsEach, List.append_assoc]
    · rw [Target.returnsEach, Target.returnsEach, List.append_nil]

theorem expression_gathers : ∀ fuel, Gathers [] Expr.returns (expression fuel)
  | 0 => .outOfFuel
  | fuel + 1 =>
    .bind (assignmentExpression_gathers fuel) fun first => operands_gathers fuel first

theorem operands_gathers : ∀ fuel (first : Expr Unit),
    Gathers first.returns Expr.returns (operands fuel first)
  | 0, _ => .outOfFuel
  | fuel + 1, first => by
    refine .bind (.silent .nextIs) fun more => .ite ?_ (.pure rfl)
    exact .bind (.after _ (furtherOperands_gathers fuel)) fun rest => .pure rfl

theorem furtherOperands_gathers : ∀ fuel, Gathers [] Expr.returnsEach (furtherOperands fuel)
  | 0 => .outOfFuel
  | fuel + 1 => by
    refine .bind (.silent .accept) fun more => .ite ?_ (.pure rfl)
    refine .bind (assignmentExpression_gathers fuel) fun operand => ?_
    exact .bind (.after _ (furtherOperands_gathers fuel)) fun rest => .pure rfl

theorem assignmentExpression_gathers : ∀ fuel,
    Gathers [] Expr.returns (assignmentExpression fuel)
  | 0 => .outOfFuel
  | fuel + 1 => by
    refine .bind (ternary_gathers fuel) fun expr => .bind (.silent .next) fun equals => ?_
    refine .bind (.silent .accept) fun assigns => .ite ?_ (.pure rfl)
    refine .bind (.after _ (assignmentExpression_gathers fuel)) fun value => ?_
    split
    · exact .pure rfl
    · exact .failAt _ equals

theorem ternary_gathers : ∀ fuel, Gathers [] Expr.returns (ternary fuel)
  | 0 => .outOfFuel
  | fuel + 1 => by
    refine .bind (leveled_gathers fuel _) fun condition => .bind (.silent .next) fun question => ?_
    refine .bind (.silent .accept) fun asks => .ite ?_ (.pure rfl)
    refine .bind (.silent .nextIs) fun bare => .ite (.fail _) ?_
    refine .bind (.after _ (ternary_gathers fuel)) fun thenBranch => ?_
    refine .bind (.silent (.expect _)) fun _ => ?_
    exact .bind (.after _ (ternary_gathers fuel)) fun elseBranch => .pure rfl

theorem leveled_gathers : ∀ fuel level, Gathers [] Expr.returns (leveled fuel level)
  | 0, _ => .outOfFuel
  | fuel + 1, level =>
    .bind (operand_gathers fuel level) fun first => operations_gathers fuel level first

theorem operations_gathers : ∀ fuel level (left : Expr Unit),
    Gathers left.returns Expr.returns (operations fuel level left)
  | 0, _, _ => .outOfFuel
  | fuel + 1, level, left => by
    refine .bind (.silent .next) fun token => ?_
    split
    · exact .pure rfl
    · refine .bind (.silent .advance) fun _ => ?_
      refine .bind (.after _ (operand_gathers fuel level)) fun right => ?_
      rw [← InfixOperator.returns_apply]
      exact operations_gathers fuel level _

theorem operand_gathers : ∀ fuel level, Gathers [] Expr.returns (operand fuel level)
  | 0, _ => .outOfFuel
  | fuel + 1, level => by
    cases level with
    | factor => exact unary_gathers fuel
    | _ => exact leveled_gathers fuel _

theorem unary_gathers : ∀ fuel, Gathers [] Expr.returns (unary fuel)
  | 0 => .outOfFuel
  | fuel + 1 => by
    refine .bind (.silent .next) fun token => ?_
    split
    · exact .bind (.silent .advance) fun _ => .bind (unary_gathers fuel) fun _ => .pure rfl
    · exact .bind (.silent .advance) fun _ => .bind (unary_gathers fuel) fun _ => .pure rfl
    · exact .bind (primary_gathers fuel) fun callee => calls_gathers fuel callee

theorem calls_gathers : ∀ fuel (callee : Expr Unit),
    Gathers callee.returns Expr.returns (calls fuel callee)
  | 0, _ => .outOfFuel
  | fuel + 1, callee => by
    refine .bind (.silent .next) fun token => ?_
    split
    · refine .bind (.silent .advance) fun _ => ?_
      refine .leftOut (.after _ (arguments_gathers fuel 0)) (List.append_nil _) fun arguments => ?_
      exact .bind (.silent (.expect _)) fun paren => calls_gathers fuel (.call callee paren.line arguments)
    · refine .bind (.silent .advance) fun _ => .bind (.silent (.identifier _)) fun name => ?_
      exact calls_gathers fuel (.property callee name)
    · exact .pure rfl

theorem arguments_gathers : ∀ fuel count, Gathers [] Expr.returnsEach (arguments fuel count)
  | 0, _ => .outOfFuel
  | fuel + 1, count => by
    refine .reported ?_
    refine .bind (assignmentExpression_gathers fuel) fun argument => ?_
    refine .bind (.silent .accept) fun more => .ite ?_ (.pure (List.append_nil _))
    exact .bind (.after _ (arguments_gathers fuel _)) fun rest => .pure rfl

theorem primary_gathers : ∀ fuel, Gathers [] Expr.returns (primary fuel)
  | 0 => .outOfFuel
  | fuel + 1 => by
    refine .bind (.silent .next) fun token => ?_
    split
    · exact .bind (.silent .advance) fun _ => .pure rfl
    · exact .bind (.silent .advance) fun _ => .pure rfl
    · exact .bind (.silent .advance) fun _ => .pure rfl
    · exact .bind (.silent .advance) fun _ => .pure rfl
    · exact .bind (.silent .advance) fun _ => .pure rfl
    · exact .bind (.silent .advance) fun _ => .pure rfl
    · refine .bind (.silent .advance) fun _ => .bind (.silent (.expect _)) fun _ => ?_
      exact .bind (.silent (.identifier _)) fun method => .pure rfl
    · exact .bind (.silent .advance) fun _ => .pure rfl
    · refine .bind (.silent .advance) fun _ => .bind (expression_gathers fuel) fun inner => ?_
      exact .bind (.silent (.expect _)) fun _ => .pure rfl
    · refine .bind (.silent .advance) fun _ => .bind (.silent (.expect _)) fun _ => ?_
      exact .bind (functionRest_gathers fuel _) fun lambda => .pure rfl
    · split
      · exact .fail _
      · exact .fail _

end

end Lox.Reader
