import Lox.Proofs.Progress.Declarations
import Lox.Proofs.Recovery.Rules

/-!
# Every rule leads onward

Each rule of the grammar, with its trail, follows the rule without. The rules call each other, so they
are shown together, each by its own parts, by recursion on the fuel.
-/

namespace Lox.Tracer

theorem parameters_follows (fuel : Nat) :
    ∀ count, FollowsBeyond (parameters fuel count) (Reader.parameters fuel count) := by
  induction fuel with
  | zero => exact fun _ _ => .outOfFuel
  | succ fuel ih =>
    intro count within
    refine .reported ?_
    refine .bind (.identifier _) fun parameter => .bind .accept fun more => ?_
    exact .ite (.bind (ih _ _) fun rest => .pure _) (.pure _)

/-- Where the end of the input is not at the front there are tokens left. -/
theorem more_of_atEnd {cursor finish : Cursor} (ran : Reader.atEnd cursor = .done false finish) :
    finish.rest ≠ [] := by
  obtain ⟨ended, rfl⟩ := Parsed.done.inj ran
  exact List.isEmpty_eq_false_iff.mp ended

mutual

/-- Declarations are called where the ones before them stopped. -/
theorem program_follows : ∀ fuel within,
    Follows within within (program fuel) (Reader.program fuel)
  | 0, _ => .outOfFuel
  | fuel + 1, within => by
    intro pointer inRange few
    -- A declaration is only called where there are tokens left for it to take.
    refine (Follows.atEnd pointer inRange few).bind fun ended middle ran onward => ?_
    cases ended with
    | true => exact .pure (onward.inRange inRange) []
    | false =>
      have inside := onward.inRange inRange
      have further := Nat.le_trans few onward.current
      have first := declaration_follows fuel middle inside (more_of_atEnd ran)
      refine (first.mono further).bindFollows inside further fun first => ?_
      exact .bind (program_follows fuel within) fun rest => .pure _

theorem declaration_follows : ∀ fuel (pointer : Pointer), pointer.InRange → pointer.cursor.rest ≠ [] →
    FollowsAt pointer.current pointer (declaration fuel pointer)
      (Reader.declaration fuel pointer.cursor)
  | 0, _, _, _ => .outOfFuel
  | fuel + 1, pointer, inRange, more =>
    declaration_followsAt inRange more (declared_follows fuel _ pointer inRange (Nat.le_refl _))

theorem declared_follows : ∀ fuel, FollowsBeyond (declared fuel) (Reader.declared fuel)
  | 0, _ => .outOfFuel
  | fuel + 1, _ => by
    refine .bind .next fun ⟨kind, line⟩ => ?_
    cases kind with
    | keyword keyword =>
      cases keyword with
      | kwClass => exact .advance (classDecl_follows fuel _)
      | kwFun =>
        refine .advance ?_
        exact .bind (function_follows fuel _ _) fun ⟨name, lambda⟩ => .pure _
      | kwVar => exact .advance (varDecl_follows fuel _)
      | _ => exact statement_follows fuel _
    | _ => exact statement_follows fuel _

theorem classDecl_follows : ∀ fuel, FollowsBeyond (classDecl fuel) (Reader.classDecl fuel)
  | 0, _ => .outOfFuel
  | fuel + 1, _ => by
    refine .bind (.identifier _) fun name => .bind .accept fun inherits => .ite ?_ ?_
    · refine .bind (.identifier _) fun parent => .bind (.expect _) fun _ => ?_
      refine .bind (methods_follows fuel _) fun methods => ?_
      exact .bind (.expect _) fun _ => .pure _
    · refine .bind (.expect _) fun _ => .bind (methods_follows fuel _) fun methods => ?_
      exact .bind (.expect _) fun _ => .pure _

theorem methods_follows : ∀ fuel, FollowsBeyond (methods fuel) (Reader.methods fuel)
  | 0, _ => .outOfFuel
  | fuel + 1, _ => by
    refine .bind .nextIs fun closed => .bind .atEnd fun ended => .ite (.pure _) ?_
    refine .bind (function_follows fuel _ _) fun first => ?_
    exact .bind (methods_follows fuel _) fun rest => .pure _

theorem function_follows : ∀ fuel role,
    FollowsBeyond (function fuel role) (Reader.function fuel role)
  | 0, _, _ => .outOfFuel
  | fuel + 1, role, _ => by
    refine .bind (.identifier _) fun name => .bind (.expect _) fun _ => ?_
    exact .bind (functionRest_follows fuel role _) fun lambda => .pure _

theorem functionRest_follows : ∀ fuel role,
    FollowsBeyond (functionRest fuel role) (Reader.functionRest fuel role)
  | 0, _, _ => .outOfFuel
  | fuel + 1, role, _ => by
    refine .leftOut (parameters_follows fuel 0 _) fun parameters => ?_
    refine .bind (.expect _) fun _ => .after_expect fun _ => ?_
    exact .bind (block_follows fuel _) fun body => .pure _

theorem varDecl_follows : ∀ fuel, FollowsBeyond (varDecl fuel) (Reader.varDecl fuel)
  | 0, _ => .outOfFuel
  | fuel + 1, _ => by
    refine .bind (.identifier _) fun name => .bind .accept fun initialized => ?_
    refine .ite ?_ ?_
    · refine .bind (expression_follows fuel _) fun initializer => ?_
      exact .bind .terminator fun _ => .pure _
    · exact .bind .terminator fun _ => .pure _

/-- The declarations of a block may start where it starts, after its brace. -/
theorem block_follows : ∀ fuel within, Follows within within (block fuel) (Reader.block fuel)
  | 0, _ => .outOfFuel
  | fuel + 1, within => by
    refine .bind (declarations_follows fuel within) fun body => ?_
    exact .bind (.expect _) fun _ => .pure _

theorem declarations_follows : ∀ fuel within,
    Follows within within (declarations fuel) (Reader.declarations fuel)
  | 0, _ => .outOfFuel
  | fuel + 1, within => by
    refine .bind .nextIs fun closed => ?_
    intro pointer inRange few
    refine (Follows.atEnd pointer inRange few).bind fun ended middle ran onward => ?_
    have inside := onward.inRange inRange
    cases ended with
    | true =>
      rw [Bool.or_true]
      exact .pure inside []
    | false =>
      cases closed with
      | true => exact .pure inside []
      | false =>
        have further := Nat.le_trans few onward.current
        have first := declaration_follows fuel middle inside (more_of_atEnd ran)
        refine (first.mono further).bindFollows inside further fun first => ?_
        exact .bind (declarations_follows fuel within) fun rest => .pure _

theorem statement_follows : ∀ fuel, FollowsBeyond (statement fuel) (Reader.statement fuel)
  | 0, _ => .outOfFuel
  | fuel + 1, within => by
    intro pointer inRange few
    refine .bindNext inRange ?_
    cases found : pointer.cursor.next.kind with
    | keyword keyword =>
      cases keyword with
      | kwFor => exact Follows.advance (forLoop_follows fuel _) pointer inRange few
      | kwIf => exact Follows.advance (branch_follows fuel _) pointer inRange few
      | kwWhile => exact Follows.advance (whileLoop_follows fuel _) pointer inRange few
      | kwReturn => exact Follows.advance (returnValue_follows fuel _ _) pointer inRange few
      | kwBreak =>
        exact Follows.advance (.bind .terminator fun _ => .pure _) pointer inRange few
      | kwContinue =>
        exact Follows.advance (.bind .terminator fun _ => .pure _) pointer inRange few
      | _ => exact expressionStatement_follows fuel _ pointer inRange few
    | symbol symbol =>
      cases symbol with
      | leftBrace =>
        -- Declarations may be called where the block starts: its brace makes room for them.
        have more := Cursor.rest_ne_nil pointer.cursor_ends (by simp [found])
        exact .after_advance inRange few more (.bind (block_follows fuel _) fun _ => .pure _)
      | _ => exact expressionStatement_follows fuel _ pointer inRange few
    | _ => exact expressionStatement_follows fuel _ pointer inRange few

theorem forLoop_follows : ∀ fuel, FollowsBeyond (forLoop fuel) (Reader.forLoop fuel)
  | 0, _ => .outOfFuel
  | fuel + 1, _ => by
    refine .bind (.expect _) fun _ => ?_
    refine .bind (forInitializer_follows fuel _) fun initializer => ?_
    refine .bind (clause_follows fuel _ _) fun condition => .bind (.expect _) fun _ => ?_
    refine .bind (clause_follows fuel _ _) fun increment => .bind (.expect _) fun _ => ?_
    exact .bind (statement_follows fuel _) fun body => .pure _

theorem forInitializer_follows : ∀ fuel,
    FollowsBeyond (forInitializer fuel) (Reader.forInitializer fuel)
  | 0, _ => .outOfFuel
  | fuel + 1, within => by
    have simple : Follows within (within + 1)
        (expressionStatement fuel >>= fun initializer => pure (some initializer))
        (Reader.expressionStatement fuel >>= fun initializer => pure (some initializer)) :=
      .bind (expressionStatement_follows fuel _) fun _ => .pure _
    refine .bind .next fun ⟨kind, line⟩ => ?_
    cases kind with
    | symbol symbol =>
      cases symbol with
      | semicolon => exact .advance (.pure _)
      | _ => exact simple
    | keyword keyword =>
      cases keyword with
      | kwVar =>
        exact .advance (.bind (varDecl_follows fuel _) fun _ => .pure _)
      | _ => exact simple
    | _ => exact simple

theorem clause_follows : ∀ fuel ending,
    FollowsBeyond (clause fuel ending) (Reader.clause fuel ending)
  | 0, _, _ => .outOfFuel
  | fuel + 1, _, _ =>
    .bind .nextIs fun _ =>
      .ite (.pure _) (.bind (expression_follows fuel _) fun _ => .pure _)

theorem branch_follows : ∀ fuel, FollowsBeyond (branch fuel) (Reader.branch fuel)
  | 0, _ => .outOfFuel
  | fuel + 1, _ => by
    refine .bind (.expect _) fun _ => .bind (expression_follows fuel _) fun condition => ?_
    refine .bind (.expect _) fun _ => .bind (statement_follows fuel _) fun thenBranch => ?_
    refine .bind .next fun token => .ite ?_ (.pure _)
    refine .advance ?_
    exact .bind (statement_follows fuel _) fun elseBranch => .pure _

theorem whileLoop_follows : ∀ fuel, FollowsBeyond (whileLoop fuel) (Reader.whileLoop fuel)
  | 0, _ => .outOfFuel
  | fuel + 1, _ => by
    refine .bind (.expect _) fun _ => .bind (expression_follows fuel _) fun condition => ?_
    refine .bind (.expect _) fun _ => ?_
    exact .bind (statement_follows fuel _) fun body => .pure _

theorem returnValue_follows : ∀ fuel line,
    FollowsBeyond (returnValue fuel line) (Reader.returnValue fuel line)
  | 0, _, _ => .outOfFuel
  | fuel + 1, line, _ => by
    refine .bind (.returnsNothing line) fun bare => .ite ?_ ?_
    · exact .bind .terminator fun _ => .pure _
    · refine .bind (expression_follows fuel _) fun value => ?_
      exact .bind .terminator fun _ => .pure _

theorem expressionStatement_follows : ∀ fuel,
    FollowsBeyond (expressionStatement fuel) (Reader.expressionStatement fuel)
  | 0, _ => .outOfFuel
  | fuel + 1, within => by
    refine .bind (ternary_follows fuel _) fun first => .ifNext ?_ ?_
    · intro pointer inRange few more
      have chain := assignments_follows fuel first within pointer inRange few more
      refine chain.bindFollows inRange few fun ⟨targets, value⟩ => ?_
      exact .bind .terminator fun _ => .pure _
    · refine .bind (operands_follows fuel first _) fun expr => ?_
      exact .bind .terminator fun _ => .pure _

/-- Assignments are read where there is an equals sign to be taken. -/
theorem assignments_follows : ∀ fuel pending within (pointer : Pointer), pointer.InRange →
    within ≤ pointer.current → pointer.cursor.rest ≠ [] →
      FollowsAt (within + 1) pointer (assignments fuel pending pointer)
        (Reader.assignments fuel pending pointer.cursor)
  | 0, _, _, _, _, _, _ => .outOfFuel
  | fuel + 1, pending, within, pointer, inRange, few, more => by
    refine (FollowsAt.advance inRange more).bindFollows inRange few fun equals => ?_
    refine .bind (.target pending equals) fun first => ?_
    refine .bind (ternary_follows fuel _) fun following => .ifNext ?_ (.pure _)
    intro pointer inRange few more
    have chain := assignments_follows fuel following within pointer inRange few more
    exact chain.bindFollows inRange few fun ⟨targets, value⟩ => .pure _

theorem expression_follows : ∀ fuel, FollowsBeyond (expression fuel) (Reader.expression fuel)
  | 0, _ => .outOfFuel
  | fuel + 1, _ =>
    .bind (assignmentExpression_follows fuel _) fun first => operands_follows fuel first _

theorem operands_follows : ∀ fuel first,
    FollowsBeyond (operands fuel first) (Reader.operands fuel first)
  | 0, _, _ => .outOfFuel
  | fuel + 1, _, _ =>
    .bind .nextIs fun _ =>
      .ite (.bind (furtherOperands_follows fuel _) fun _ => .pure _) (.pure _)

theorem furtherOperands_follows : ∀ fuel,
    FollowsBeyond (furtherOperands fuel) (Reader.furtherOperands fuel)
  | 0, _ => .outOfFuel
  | fuel + 1, _ => by
    refine .bind .accept fun more => .ite ?_ (.pure _)
    refine .bind (assignmentExpression_follows fuel _) fun operand => ?_
    exact .bind (furtherOperands_follows fuel _) fun rest => .pure _

theorem assignmentExpression_follows : ∀ fuel,
    FollowsBeyond (assignmentExpression fuel) (Reader.assignmentExpression fuel)
  | 0, _ => .outOfFuel
  | fuel + 1, _ => by
    refine .bind (ternary_follows fuel _) fun expr => .bind .next fun equals => ?_
    refine .bind .accept fun assigns => .ite ?_ (.pure _)
    refine .bind (assignmentExpression_follows fuel _) fun value => ?_
    cases expr with
    | reference name _ => exact .pure _
    | _ => exact .failAt _ equals

theorem ternary_follows : ∀ fuel, FollowsBeyond (ternary fuel) (Reader.ternary fuel)
  | 0, _ => .outOfFuel
  | fuel + 1, _ => by
    refine .bind (leveled_follows fuel _ _) fun condition => .bind .next fun question => ?_
    refine .bind .accept fun asks => .ite ?_ (.pure _)
    refine .bind .nextIs fun bare => .ite (.fail _) ?_
    refine .bind (ternary_follows fuel _) fun thenBranch => .bind (.expect _) fun _ => ?_
    exact .bind (ternary_follows fuel _) fun elseBranch => .pure _

theorem leveled_follows : ∀ fuel level,
    FollowsBeyond (leveled fuel level) (Reader.leveled fuel level)
  | 0, _, _ => .outOfFuel
  | fuel + 1, level, _ =>
    .bind (operand_follows fuel level _) fun first => operations_follows fuel level first _

theorem operations_follows : ∀ fuel level left,
    FollowsBeyond (operations fuel level left) (Reader.operations fuel level left)
  | 0, _, _, _ => .outOfFuel
  | fuel + 1, level, left, within => by
    refine .bind .next fun token => ?_
    cases level.operator? token.kind with
    | none => exact .pure _
    | some operator =>
      refine .advance (.bind (operand_follows fuel level _) fun right => ?_)
      exact operations_follows fuel level _ _

theorem operand_follows : ∀ fuel level,
    FollowsBeyond (operand fuel level) (Reader.operand fuel level)
  | 0, _, _ => .outOfFuel
  | fuel + 1, level, _ => by
    cases level with
    | factor => exact unary_follows fuel _
    | _ => exact leveled_follows fuel _ _

theorem unary_follows : ∀ fuel, FollowsBeyond (unary fuel) (Reader.unary fuel)
  | 0, _ => .outOfFuel
  | fuel + 1, within => by
    have called : Follows within (within + 1) (primary fuel >>= fun callee => calls fuel callee)
        (Reader.primary fuel >>= fun callee => Reader.calls fuel callee) :=
      .bind (primary_follows fuel _) fun callee => calls_follows fuel callee _
    refine .bind .next fun ⟨kind, line⟩ => ?_
    cases kind with
    | symbol symbol =>
      cases symbol with
      | bang => exact .advance (.bind (unary_follows fuel _) fun _ => .pure _)
      | minus => exact .advance (.bind (unary_follows fuel _) fun _ => .pure _)
      | _ => exact called
    | _ => exact called

theorem calls_follows : ∀ fuel callee,
    FollowsBeyond (calls fuel callee) (Reader.calls fuel callee)
  | 0, _, _ => .outOfFuel
  | fuel + 1, callee, _ => by
    refine .bind .next fun ⟨kind, line⟩ => ?_
    cases kind with
    | symbol symbol =>
      cases symbol with
      | leftParen =>
        refine .advance ?_
        refine .leftOut (arguments_follows fuel 0 _) fun arguments => ?_
        exact .bind (.expect _) fun paren => calls_follows fuel _ _
      | dot =>
        refine .advance (.bind (.identifier _) fun name => ?_)
        exact calls_follows fuel _ _
      | _ => exact .pure _
    | _ => exact .pure _

theorem arguments_follows : ∀ fuel count,
    FollowsBeyond (arguments fuel count) (Reader.arguments fuel count)
  | 0, _, _ => .outOfFuel
  | fuel + 1, count, _ => by
    refine .reported ?_
    refine .bind (assignmentExpression_follows fuel _) fun argument => ?_
    refine .bind .accept fun more => .ite ?_ (.pure _)
    exact .bind (arguments_follows fuel _ _) fun rest => .pure _

theorem primary_follows : ∀ fuel, FollowsBeyond (primary fuel) (Reader.primary fuel)
  | 0, _ => .outOfFuel
  | fuel + 1, _ => by
    refine .bind .next fun ⟨kind, line⟩ => ?_
    cases kind with
    | keyword keyword =>
      cases keyword with
      | kwFalse => exact .advance (.pure _)
      | kwTrue => exact .advance (.pure _)
      | kwNil => exact .advance (.pure _)
      | kwThis => exact .advance (.pure _)
      | kwSuper =>
        refine .advance (.bind (.expect _) fun _ => ?_)
        exact .bind (.identifier _) fun method => .pure _
      | kwFun =>
        refine .advance (.bind (.expect _) fun _ => ?_)
        exact .bind (functionRest_follows fuel _ _) fun lambda => .pure _
      | _ => exact .fail _
    | number text value => exact .advance (.pure _)
    | text contents => exact .advance (.pure _)
    | identifier text => exact .advance (.pure _)
    | symbol symbol =>
      cases symbol with
      | leftParen =>
        refine .advance (.bind (expression_follows fuel _) fun inner => ?_)
        exact .bind (.expect _) fun _ => .pure _
      | _ => exact .fail _
    | endOfInput => exact .fail _

end

end Lox.Tracer
