import Lox.Proofs.Recovery.Locality

/-!
# No rule looks further than it has to

Every rule of the grammar, with some fuel, is widened by itself with more. The rules call each
other, so they are shown together, each by its own parts, by recursion on the fuel of the smaller
run.
-/

namespace Lox.Reader

theorem parameters_widens : ∀ fuel extra count,
    Widens (parameters fuel count) (parameters (extra + fuel) count)
  | 0, _, _ => .outOfFuel _
  | fuel + 1, extra, count => by
    -- That there are too many of them is reported, and does not end the list.
    refine .reported ?_
    refine .bind (.identifier _) fun parameter => .bind .accept fun more => .ite ?_ (.pure _)
    exact .bind (parameters_widens fuel extra _) fun rest => .pure _

mutual

theorem program_widens : ∀ fuel extra, Widens (program fuel) (program (extra + fuel))
  | 0, _ => .outOfFuel _
  | fuel + 1, extra => by
    refine .bind .atEnd fun ended => .ite (.pure _) ?_
    refine .bind (declaration_widens fuel extra) fun first => ?_
    exact .bind (program_widens fuel extra) fun rest => .pure _

theorem declaration_widens : ∀ fuel extra, Widens (declaration fuel) (declaration (extra + fuel))
  | 0, _ => .outOfFuel _
  | fuel + 1, extra => .recovered (declared_widens fuel extra)

theorem declared_widens : ∀ fuel extra, Widens (declared fuel) (declared (extra + fuel))
  | 0, _ => .outOfFuel _
  | fuel + 1, extra => by
    refine .bind .next fun token => ?_
    split
    · exact .bind .advance fun _ => classDecl_widens fuel extra
    · refine .bind .advance fun _ => ?_
      refine .bind (function_widens fuel extra _) fun ⟨name, lambda⟩ => .pure _
    · exact .bind .advance fun _ => varDecl_widens fuel extra
    · exact statement_widens fuel extra

theorem classDecl_widens : ∀ fuel extra, Widens (classDecl fuel) (classDecl (extra + fuel))
  | 0, _ => .outOfFuel _
  | fuel + 1, extra => by
    refine .bind (.identifier _) fun name => .bind .accept fun inherits => .ite ?_ ?_
    · refine .bind (.identifier _) fun parent => .bind (.expect _) fun _ => ?_
      refine .bind (methods_widens fuel extra) fun methods => ?_
      exact .bind (.expect _) fun _ => .pure _
    · refine .bind (.expect _) fun _ => .bind (methods_widens fuel extra) fun methods => ?_
      exact .bind (.expect _) fun _ => .pure _

theorem methods_widens : ∀ fuel extra, Widens (methods fuel) (methods (extra + fuel))
  | 0, _ => .outOfFuel _
  | fuel + 1, extra => by
    refine .bind .nextIs fun closed => .bind .atEnd fun ended => .ite (.pure _) ?_
    refine .bind (function_widens fuel extra _) fun first => ?_
    exact .bind (methods_widens fuel extra) fun rest => .pure _

theorem function_widens : ∀ fuel extra role,
    Widens (function fuel role) (function (extra + fuel) role)
  | 0, _, _ => .outOfFuel _
  | fuel + 1, extra, role => by
    refine .bind (.identifier _) fun name => .bind (.expect _) fun _ => ?_
    exact .bind (functionRest_widens fuel extra role) fun lambda => .pure _

theorem functionRest_widens : ∀ fuel extra role,
    Widens (functionRest fuel role) (functionRest (extra + fuel) role)
  | 0, _, _ => .outOfFuel _
  | fuel + 1, extra, role => by
    refine .leftOut (parameters_widens fuel extra 0) fun parameters => ?_
    refine .bind (.expect _) fun _ => .bind (.expect _) fun _ => ?_
    exact .bind (block_widens fuel extra) fun body => .pure _

theorem varDecl_widens : ∀ fuel extra, Widens (varDecl fuel) (varDecl (extra + fuel))
  | 0, _ => .outOfFuel _
  | fuel + 1, extra => by
    refine .bind (.identifier _) fun name => .bind .accept fun initialized => .ite ?_ ?_
    · refine .bind (expression_widens fuel extra) fun initializer => ?_
      exact .bind .terminator fun _ => .pure _
    · exact .bind .terminator fun _ => .pure _

theorem block_widens : ∀ fuel extra, Widens (block fuel) (block (extra + fuel))
  | 0, _ => .outOfFuel _
  | fuel + 1, extra =>
    .bind (declarations_widens fuel extra) fun _ => .bind (.expect _) fun _ => .pure _

theorem declarations_widens : ∀ fuel extra,
    Widens (declarations fuel) (declarations (extra + fuel))
  | 0, _ => .outOfFuel _
  | fuel + 1, extra => by
    refine .bind .nextIs fun closed => .bind .atEnd fun ended => .ite (.pure _) ?_
    refine .bind (declaration_widens fuel extra) fun first => ?_
    exact .bind (declarations_widens fuel extra) fun rest => .pure _

theorem statement_widens : ∀ fuel extra, Widens (statement fuel) (statement (extra + fuel))
  | 0, _ => .outOfFuel _
  | fuel + 1, extra => by
    refine .bind .next fun token => ?_
    split
    · exact .bind .advance fun _ => forLoop_widens fuel extra
    · exact .bind .advance fun _ => branch_widens fuel extra
    · exact .bind .advance fun _ => whileLoop_widens fuel extra
    · exact .bind .advance fun _ => returnValue_widens fuel extra _
    · exact .bind .advance fun _ => .bind .terminator fun _ => .pure _
    · exact .bind .advance fun _ => .bind .terminator fun _ => .pure _
    · exact .bind .advance fun _ => .bind (block_widens fuel extra) fun _ => .pure _
    · exact expressionStatement_widens fuel extra

theorem forLoop_widens : ∀ fuel extra, Widens (forLoop fuel) (forLoop (extra + fuel))
  | 0, _ => .outOfFuel _
  | fuel + 1, extra => by
    refine .bind (.expect _) fun _ => ?_
    refine .bind (forInitializer_widens fuel extra) fun initializer => ?_
    refine .bind (clause_widens fuel extra _) fun condition => .bind (.expect _) fun _ => ?_
    refine .bind (clause_widens fuel extra _) fun increment => .bind (.expect _) fun _ => ?_
    exact .bind (statement_widens fuel extra) fun body => .pure _

theorem forInitializer_widens : ∀ fuel extra,
    Widens (forInitializer fuel) (forInitializer (extra + fuel))
  | 0, _ => .outOfFuel _
  | fuel + 1, extra => by
    refine .bind .next fun token => ?_
    split
    · exact .bind .advance fun _ => .pure _
    · exact .bind .advance fun _ => .bind (varDecl_widens fuel extra) fun _ => .pure _
    · exact .bind (expressionStatement_widens fuel extra) fun _ => .pure _

theorem clause_widens : ∀ fuel extra ending,
    Widens (clause fuel ending) (clause (extra + fuel) ending)
  | 0, _, _ => .outOfFuel _
  | fuel + 1, extra, _ =>
    .bind .nextIs fun _ =>
      .ite (.pure _) (.bind (expression_widens fuel extra) fun _ => .pure _)

theorem branch_widens : ∀ fuel extra, Widens (branch fuel) (branch (extra + fuel))
  | 0, _ => .outOfFuel _
  | fuel + 1, extra => by
    refine .bind (.expect _) fun _ => .bind (expression_widens fuel extra) fun condition => ?_
    refine .bind (.expect _) fun _ => .bind (statement_widens fuel extra) fun thenBranch => ?_
    refine .bind .next fun token => .ite ?_ (.pure _)
    exact .bind .advance fun _ => .bind (statement_widens fuel extra) fun elseBranch => .pure _

theorem whileLoop_widens : ∀ fuel extra, Widens (whileLoop fuel) (whileLoop (extra + fuel))
  | 0, _ => .outOfFuel _
  | fuel + 1, extra => by
    refine .bind (.expect _) fun _ => .bind (expression_widens fuel extra) fun condition => ?_
    exact .bind (.expect _) fun _ => .bind (statement_widens fuel extra) fun body => .pure _

theorem returnValue_widens : ∀ fuel extra line,
    Widens (returnValue fuel line) (returnValue (extra + fuel) line)
  | 0, _, _ => .outOfFuel _
  | fuel + 1, extra, line => by
    refine .bind (.returnsNothing line) fun bare => .ite ?_ ?_
    · exact .bind .terminator fun _ => .pure _
    · refine .bind (expression_widens fuel extra) fun value => ?_
      exact .bind .terminator fun _ => .pure _

theorem expressionStatement_widens : ∀ fuel extra,
    Widens (expressionStatement fuel) (expressionStatement (extra + fuel))
  | 0, _ => .outOfFuel _
  | fuel + 1, extra => by
    refine .bind (ternary_widens fuel extra) fun first => .bind .nextIs fun assigns => .ite ?_ ?_
    · refine .bind (assignments_widens fuel extra first) fun ⟨targets, value⟩ => ?_
      exact .bind .terminator fun _ => .pure _
    · refine .bind (operands_widens fuel extra first) fun expr => ?_
      exact .bind .terminator fun _ => .pure _

theorem assignments_widens : ∀ fuel extra pending,
    Widens (assignments fuel pending) (assignments (extra + fuel) pending)
  | 0, _, _ => .outOfFuel _
  | fuel + 1, extra, pending => by
    refine .bind .advance fun equals => .bind (.target pending equals) fun first => ?_
    refine .bind (ternary_widens fuel extra) fun following => ?_
    refine .bind .nextIs fun assigns => .ite ?_ (.pure _)
    exact .bind (assignments_widens fuel extra following) fun ⟨targets, value⟩ => .pure _

theorem expression_widens : ∀ fuel extra, Widens (expression fuel) (expression (extra + fuel))
  | 0, _ => .outOfFuel _
  | fuel + 1, extra =>
    .bind (assignmentExpression_widens fuel extra) fun first => operands_widens fuel extra first

theorem operands_widens : ∀ fuel extra first,
    Widens (operands fuel first) (operands (extra + fuel) first)
  | 0, _, _ => .outOfFuel _
  | fuel + 1, extra, _ =>
    .bind .nextIs fun _ =>
      .ite (.bind (furtherOperands_widens fuel extra) fun _ => .pure _) (.pure _)

theorem furtherOperands_widens : ∀ fuel extra,
    Widens (furtherOperands fuel) (furtherOperands (extra + fuel))
  | 0, _ => .outOfFuel _
  | fuel + 1, extra => by
    refine .bind .accept fun more => .ite ?_ (.pure _)
    refine .bind (assignmentExpression_widens fuel extra) fun operand => ?_
    exact .bind (furtherOperands_widens fuel extra) fun rest => .pure _

theorem assignmentExpression_widens : ∀ fuel extra,
    Widens (assignmentExpression fuel) (assignmentExpression (extra + fuel))
  | 0, _ => .outOfFuel _
  | fuel + 1, extra => by
    refine .bind (ternary_widens fuel extra) fun expr => .bind .next fun equals => ?_
    refine .bind .accept fun assigns => .ite ?_ (.pure _)
    refine .bind (assignmentExpression_widens fuel extra) fun value => ?_
    split
    · exact .pure _
    · exact .failAt equals

theorem ternary_widens : ∀ fuel extra, Widens (ternary fuel) (ternary (extra + fuel))
  | 0, _ => .outOfFuel _
  | fuel + 1, extra => by
    refine .bind (leveled_widens fuel extra _) fun condition => .bind .next fun question => ?_
    refine .bind .accept fun asks => .ite ?_ (.pure _)
    refine .bind .nextIs fun bare => .ite (.fail _) ?_
    refine .bind (ternary_widens fuel extra) fun thenBranch => .bind (.expect _) fun _ => ?_
    exact .bind (ternary_widens fuel extra) fun elseBranch => .pure _

theorem leveled_widens : ∀ fuel extra level,
    Widens (leveled fuel level) (leveled (extra + fuel) level)
  | 0, _, _ => .outOfFuel _
  | fuel + 1, extra, level =>
    .bind (operand_widens fuel extra level) fun first => operations_widens fuel extra level first

theorem operations_widens : ∀ fuel extra level left,
    Widens (operations fuel level left) (operations (extra + fuel) level left)
  | 0, _, _, _ => .outOfFuel _
  | fuel + 1, extra, level, left => by
    refine .bind .next fun token => ?_
    split
    · exact .pure _
    · refine .bind .advance fun _ => .bind (operand_widens fuel extra level) fun right => ?_
      exact operations_widens fuel extra level _

theorem operand_widens : ∀ fuel extra level,
    Widens (operand fuel level) (operand (extra + fuel) level)
  | 0, _, _ => .outOfFuel _
  | fuel + 1, extra, level => by
    change Widens (match level.tighter? with
      | some tighter => leveled fuel tighter
      | none => unary fuel) (match level.tighter? with
      | some tighter => leveled (extra + fuel) tighter
      | none => unary (extra + fuel))
    split
    · exact leveled_widens fuel extra _
    · exact unary_widens fuel extra

theorem unary_widens : ∀ fuel extra, Widens (unary fuel) (unary (extra + fuel))
  | 0, _ => .outOfFuel _
  | fuel + 1, extra => by
    refine .bind .next fun token => ?_
    split
    · exact .bind .advance fun _ => .bind (unary_widens fuel extra) fun _ => .pure _
    · exact .bind .advance fun _ => .bind (unary_widens fuel extra) fun _ => .pure _
    · exact .bind (primary_widens fuel extra) fun callee => calls_widens fuel extra callee

theorem calls_widens : ∀ fuel extra callee,
    Widens (calls fuel callee) (calls (extra + fuel) callee)
  | 0, _, _ => .outOfFuel _
  | fuel + 1, extra, callee => by
    refine .bind .next fun token => ?_
    split
    · refine .bind .advance fun _ => ?_
      refine .leftOut (arguments_widens fuel extra 0) fun arguments => ?_
      exact .bind (.expect _) fun paren => calls_widens fuel extra _
    · refine .bind .advance fun _ => .bind (.identifier _) fun name => ?_
      exact calls_widens fuel extra _
    · exact .pure _

theorem arguments_widens : ∀ fuel extra count,
    Widens (arguments fuel count) (arguments (extra + fuel) count)
  | 0, _, _ => .outOfFuel _
  | fuel + 1, extra, count => by
    refine .reported ?_
    refine .bind (assignmentExpression_widens fuel extra) fun argument => ?_
    refine .bind .accept fun more => .ite ?_ (.pure _)
    exact .bind (arguments_widens fuel extra _) fun rest => .pure _

theorem primary_widens : ∀ fuel extra, Widens (primary fuel) (primary (extra + fuel))
  | 0, _ => .outOfFuel _
  | fuel + 1, extra => by
    refine .bind .next fun token => ?_
    split
    · exact .bind .advance fun _ => .pure _
    · exact .bind .advance fun _ => .pure _
    · exact .bind .advance fun _ => .pure _
    · exact .bind .advance fun _ => .pure _
    · exact .bind .advance fun _ => .pure _
    · exact .bind .advance fun _ => .pure _
    · refine .bind .advance fun _ => .bind (.expect _) fun _ => ?_
      exact .bind (.identifier _) fun method => .pure _
    · exact .bind .advance fun _ => .pure _
    · refine .bind .advance fun _ => .bind (expression_widens fuel extra) fun inner => ?_
      exact .bind (.expect _) fun _ => .pure _
    · refine .bind .advance fun _ => .bind (.expect _) fun _ => ?_
      exact .bind (functionRest_widens fuel extra _) fun lambda => .pure _
    · split
      · exact .fail _
      · exact .fail _

end

end Lox.Reader
