import Lox.Proofs.Grammar.Fronts
import Lox.Proofs.Layout.Relabeling
import Lox.Proofs.Recovery.Rules

/-!
# No rule but one asks for a line

Every rule of the grammar makes the same of the same tokens on other lines, if it comes to no error.
The rules call each other, so they are shown together, each by its own parts, by recursion on the
fuel. The rule that asks for a line is the one for a `return` statement, so what it needs is handed
to it by the statement it belongs to.
-/

namespace Lox

variable {line : Nat}

/-! ## Trees -/

theorem Stmt.onLineEach_append (front back : List (Stmt Unit)) :
    Stmt.onLineEach line (front ++ back) =
      Stmt.onLineEach line front ++ Stmt.onLineEach line back := by
  induction front with
  | nil => rfl
  | cons stmt rest ih => rw [List.cons_append, onLineEach, onLineEach, ih, List.cons_append]

theorem Stmt.onLineEach_toList (stmt : Option (Stmt Unit)) :
    Stmt.onLineEach line stmt.toList = (Stmt.onLinePart line stmt).toList := by
  cases stmt <;> rfl

theorem Expr.reference_of_onLine {expr : Expr Unit} {name : Name}
    (same : expr.onLine line = .reference (name.onLine line) ()) :
    ∃ other, expr = .reference other () ∧ other.onLine line = name.onLine line := by
  cases expr with
  | reference other _ => exact ⟨other, rfl, (Expr.reference.inj same).1⟩
  | _ => cases same

theorem Expr.property_of_onLine {expr object : Expr Unit} {name : Name}
    (same : expr.onLine line = .property (object.onLine line) (name.onLine line)) :
    ∃ another other, expr = .property another other ∧
      another.onLine line = object.onLine line ∧ other.onLine line = name.onLine line := by
  cases expr with
  | property another other =>
    obtain ⟨sameObject, sameName⟩ := Expr.property.inj same
    exact ⟨another, other, rfl, sameObject, sameName⟩
  | _ => cases same

namespace Reader

theorem onLine_assignment (targets : List (Target Unit)) (value : Expr Unit) :
    (assignment targets value).onLine line =
      assignment (Target.onLineEach line targets) (value.onLine line) := by
  match targets with
  | [] | [.name _ _] | [.property _ _] | .name _ _ :: _ :: _ | .property _ _ :: _ :: _ => rfl

/-! ## Parts of rules -/

namespace Relabels

theorem target {expr another : Expr Unit} {equals otherEquals : Token}
    (same : another.onLine line = expr.onLine line) :
    Relabels (Target.onLine line) (target expr equals) (target another otherEquals) := by
  cases expr with
  | reference name _ =>
    obtain ⟨other, rfl, sameName⟩ := Expr.reference_of_onLine same
    exact .pure (by rw [Target.onLine, Target.onLine, sameName])
  | property object name =>
    obtain ⟨otherObject, other, rfl, sameObject, sameName⟩ := Expr.property_of_onLine same
    exact .pure (by rw [Target.onLine, Target.onLine, sameObject, sameName])
  | _ => exact .failAt equals

/-- A declaration that fails leaves an error behind. -/
theorem recovered {reader another : Reader (Stmt Unit)}
    (relabels : Relabels (Stmt.onLine line) reader another) :
    Relabels (Stmt.onLinePart line)
      (fun start => match reader start with
        | .done stmt cursor => .done (some stmt) cursor
        | .failed error cursor => .done none (cursor.recover start error)
        | .outOfFuel => .outOfFuel)
      (fun start => match another start with
        | .done stmt cursor => .done (some stmt) cursor
        | .failed error cursor => .done none (cursor.recover start error)
        | .outOfFuel => .outOfFuel) where
  widens := .recovered relabels.widens
  agrees {cursor other} between value after ran unharmed := by
    dsimp only at ran
    split at ran
    · next stmt finish outcome =>
      cases ran
      obtain ⟨same, otherFinish, otherRan, sameView, further⟩ :=
        relabels.agrees between stmt _ outcome unharmed
      refine ⟨some same, otherFinish, ?_, congrArg some sameView, further⟩
      dsimp only
      rw [otherRan]
    · cases ran
      cases unharmed
    · cases ran

end Relabels

theorem RelabelsAt.returnsNothing {here there : Nat} {cursor other : Cursor}
    (relabels : cursor.Relabels other) (stays : cursor.next.line = here ↔ other.next.line = there) :
    RelabelsAt id (returnsNothing here) (returnsNothing there) cursor other := by
  intro value after ran _
  cases ran
  refine ⟨_, other, rfl, ?_, relabels⟩
  rw [relabels.kind_next, decide_eq_decide.mpr (not_congr stays)]

/-! ## Rules -/

theorem parameters_relabels (line fuel : Nat) : ∀ count,
    Relabels (List.map (Name.onLine line)) (parameters fuel count) (parameters fuel count) := by
  induction fuel with
  | zero => exact fun _ => .outOfFuel
  | succ fuel ih =>
    intro count
    refine .reported ?_
    refine .bind (.identifier line _) fun parameter another sameName => ?_
    refine .bindSame .accept fun more => .ite ?_ (.pure ?_)
    · refine .bind (ih _) fun rest others sameRest => .pure ?_
      rw [List.map_cons, List.map_cons, sameName, sameRest]
    · rw [List.map_cons, List.map_cons, sameName, List.map_nil]

mutual

theorem program_relabels : ∀ fuel,
    Relabels (Stmt.onLineEach line) (program fuel) (program fuel)
  | 0 => .outOfFuel
  | fuel + 1 => by
    refine .bindSame .atEnd fun ended => .ite (.pure rfl) ?_
    refine .bind (declaration_relabels fuel) fun first another sameFirst => ?_
    refine .bind (program_relabels fuel) fun rest others sameRest => .pure ?_
    simp only [Stmt.onLineEach_append, Stmt.onLineEach_toList, sameFirst, sameRest]

theorem declaration_relabels : ∀ fuel,
    Relabels (Stmt.onLinePart line) (declaration fuel) (declaration fuel)
  | 0 => .outOfFuel
  | fuel + 1 => .recovered (declared_relabels fuel)

theorem declared_relabels : ∀ fuel, Relabels (Stmt.onLine line) (declared fuel) (declared fuel)
  | 0 => .outOfFuel
  | fuel + 1 => by
    refine .byKind fun kind here there => ?_
    cases kind with
    | keyword keyword =>
      cases keyword with
      | kwClass => exact .bind .advance fun _ _ _ => classDecl_relabels fuel
      | kwFun =>
        refine .bind .advance fun _ _ _ => ?_
        refine .bind (function_relabels fuel _) fun ⟨name, lambda⟩ ⟨other, another⟩ same => .pure ?_
        obtain ⟨sameName, sameLambda⟩ := Method.mk.inj same
        rw [Stmt.onLine, Stmt.onLine, sameName, sameLambda]
      | kwVar => exact .bind .advance fun _ _ _ => varDecl_relabels fuel
      | _ => exact statement_relabels fuel
    | _ => exact statement_relabels fuel

theorem classDecl_relabels : ∀ fuel, Relabels (Stmt.onLine line) (classDecl fuel) (classDecl fuel)
  | 0 => .outOfFuel
  | fuel + 1 => by
    refine .bind (.identifier line _) fun name another sameName => ?_
    refine .bindSame .accept fun inherits => .ite ?_ ?_
    · refine .bind (.identifier line _) fun parent ancestor sameParent => ?_
      refine .bind (.expect _) fun _ _ _ => ?_
      refine .bind (methods_relabels fuel) fun methods others sameMethods => ?_
      refine .bind (.expect _) fun _ _ _ => .pure ?_
      simp only [Stmt.onLine, Option.map_some, Superclass.onLine, sameName, sameParent, sameMethods]
    · refine .bind (.expect _) fun _ _ _ => ?_
      refine .bind (methods_relabels fuel) fun methods others sameMethods => ?_
      refine .bind (.expect _) fun _ _ _ => .pure ?_
      simp only [Stmt.onLine, Option.map_none, sameName, sameMethods]

theorem methods_relabels : ∀ fuel,
    Relabels (Method.onLineEach line) (methods fuel) (methods fuel)
  | 0 => .outOfFuel
  | fuel + 1 => by
    refine .bindSame .nextIs fun closed => .bindSame .atEnd fun ended => .ite (.pure rfl) ?_
    refine .bind (function_relabels fuel _) fun first another sameFirst => ?_
    refine .bind (methods_relabels fuel) fun rest others sameRest => .pure ?_
    rw [Method.onLineEach, Method.onLineEach, sameFirst, sameRest]

theorem function_relabels : ∀ fuel role,
    Relabels (Method.onLine line) (function fuel role) (function fuel role)
  | 0, _ => .outOfFuel
  | fuel + 1, role => by
    refine .bind (.identifier line _) fun name another sameName => .bind (.expect _) fun _ _ _ => ?_
    refine .bind (functionRest_relabels fuel role) fun lambda other sameLambda => .pure ?_
    rw [Method.onLine, Method.onLine, sameName, sameLambda]

theorem functionRest_relabels : ∀ fuel role,
    Relabels (Lambda.onLine line) (functionRest fuel role) (functionRest fuel role)
  | 0, _ => .outOfFuel
  | fuel + 1, role => by
    refine .leftOut (parameters_relabels line fuel 0) fun parameters others sameParameters => ?_
    refine .bind (.expect _) fun _ _ _ => .bind (.expect _) fun _ _ _ => ?_
    refine .bind (block_relabels fuel) fun body another sameBody => .pure ?_
    rw [Lambda.onLine, Lambda.onLine, sameBody]
    exact congrArg (Lambda.mk · _) sameParameters

theorem varDecl_relabels : ∀ fuel, Relabels (Stmt.onLine line) (varDecl fuel) (varDecl fuel)
  | 0 => .outOfFuel
  | fuel + 1 => by
    refine .bind (.identifier line _) fun name another sameName => ?_
    refine .bindSame .accept fun initialized => .ite ?_ ?_
    · refine .bind (expression_relabels fuel) fun initializer other same => ?_
      refine .bindSame .terminator fun _ => .pure ?_
      simp only [Stmt.onLine, Expr.onLinePart, sameName, same]
    · refine .bindSame .terminator fun _ => .pure ?_
      rw [Stmt.onLine, Stmt.onLine, sameName]

theorem block_relabels : ∀ fuel, Relabels (Stmt.onLineEach line) (block fuel) (block fuel)
  | 0 => .outOfFuel
  | fuel + 1 => by
    refine .bind (declarations_relabels fuel) fun body another sameBody => ?_
    exact .bind (.expect _) fun _ _ _ => .pure sameBody

theorem declarations_relabels : ∀ fuel,
    Relabels (Stmt.onLineEach line) (declarations fuel) (declarations fuel)
  | 0 => .outOfFuel
  | fuel + 1 => by
    refine .bindSame .nextIs fun closed => .bindSame .atEnd fun ended => .ite (.pure rfl) ?_
    refine .bind (declaration_relabels fuel) fun first another sameFirst => ?_
    refine .bind (declarations_relabels fuel) fun rest others sameRest => .pure ?_
    simp only [Stmt.onLineEach_append, Stmt.onLineEach_toList, sameFirst, sameRest]

theorem statement_relabels : ∀ fuel, Relabels (Stmt.onLine line) (statement fuel) (statement fuel)
  | 0 => .outOfFuel
  | fuel + 1 => by
    have widens := statement_widens (fuel + 1) 0
    rw [Nat.zero_add] at widens
    refine ⟨widens, fun {cursor other} relabels => .next ?_⟩
    have simple := (expressionStatement_relabels fuel).agrees relabels
    rw [relabels.kind_next]
    cases found : cursor.next.kind with
    | keyword keyword =>
      cases keyword with
      | kwFor => exact .advance ((forLoop_relabels fuel).agrees relabels.advance)
      | kwIf => exact .advance ((branch_relabels fuel).agrees relabels.advance)
      | kwWhile => exact .advance ((whileLoop_relabels fuel).agrees relabels.advance)
      | kwReturn =>
        have stays := relabels.line_next_advance found
        exact .advance (returnValue_relabels fuel relabels.advance stays)
      | kwBreak =>
        refine .advance (Relabels.agrees ?_ relabels.advance)
        exact .bindSame .terminator fun _ => .pure rfl
      | kwContinue =>
        refine .advance (Relabels.agrees ?_ relabels.advance)
        exact .bindSame .terminator fun _ => .pure rfl
      | _ => exact simple
    | symbol symbol =>
      cases symbol with
      | leftBrace =>
        refine .advance (Relabels.agrees ?_ relabels.advance)
        refine .bind (block_relabels fuel) fun body another sameBody => .pure ?_
        rw [Stmt.onLine, Stmt.onLine, sameBody]
      | _ => exact simple
    | _ => exact simple

theorem forLoop_relabels : ∀ fuel, Relabels (Stmt.onLine line) (forLoop fuel) (forLoop fuel)
  | 0 => .outOfFuel
  | fuel + 1 => by
    refine .bind (.expect _) fun _ _ _ => ?_
    refine .bind (forInitializer_relabels fuel) fun initializer first sameInitializer => ?_
    refine .bind (clause_relabels fuel _) fun condition second sameCondition => ?_
    refine .bind (.expect _) fun _ _ _ => ?_
    refine .bind (clause_relabels fuel _) fun increment third sameIncrement => ?_
    refine .bind (.expect _) fun _ _ _ => ?_
    refine .bind (statement_relabels fuel) fun body another sameBody => .pure ?_
    rw [Stmt.onLine, Stmt.onLine, sameInitializer, sameCondition, sameIncrement, sameBody]

theorem forInitializer_relabels : ∀ fuel,
    Relabels (Stmt.onLinePart line) (forInitializer fuel) (forInitializer fuel)
  | 0 => .outOfFuel
  | fuel + 1 => by
    have simple : Relabels (Stmt.onLinePart line)
        (expressionStatement fuel >>= fun initializer => pure (some initializer))
        (expressionStatement fuel >>= fun initializer => pure (some initializer)) :=
      .bind (expressionStatement_relabels fuel) fun _ _ same => .pure (congrArg some same)
    refine .byKind fun kind here there => ?_
    cases kind with
    | symbol symbol =>
      cases symbol with
      | semicolon => exact .bind .advance fun _ _ _ => .pure rfl
      | _ => exact simple
    | keyword keyword =>
      cases keyword with
      | kwVar =>
        refine .bind .advance fun _ _ _ => ?_
        exact .bind (varDecl_relabels fuel) fun _ _ same => .pure (congrArg some same)
      | _ => exact simple
    | _ => exact simple

theorem clause_relabels : ∀ fuel ending,
    Relabels (Expr.onLinePart line) (clause fuel ending) (clause fuel ending)
  | 0, _ => .outOfFuel
  | fuel + 1, _ => by
    refine .bindSame .nextIs fun left => .ite (.pure rfl) ?_
    exact .bind (expression_relabels fuel) fun _ _ same => .pure (congrArg some same)

theorem branch_relabels : ∀ fuel, Relabels (Stmt.onLine line) (branch fuel) (branch fuel)
  | 0 => .outOfFuel
  | fuel + 1 => by
    refine .bind (.expect _) fun _ _ _ => ?_
    refine .bind (expression_relabels fuel) fun condition first sameCondition => ?_
    refine .bind (.expect _) fun _ _ _ => ?_
    refine .bind (statement_relabels fuel) fun thenBranch second sameThen => ?_
    refine .byKind fun kind here there => .ite ?_ (.pure ?_)
    · refine .bind .advance fun _ _ _ => ?_
      refine .bind (statement_relabels fuel) fun elseBranch third sameElse => .pure ?_
      simp only [Stmt.onLine, Stmt.onLinePart, sameCondition, sameThen, sameElse]
    · rw [Stmt.onLine, Stmt.onLine, sameCondition, sameThen]

theorem whileLoop_relabels : ∀ fuel, Relabels (Stmt.onLine line) (whileLoop fuel) (whileLoop fuel)
  | 0 => .outOfFuel
  | fuel + 1 => by
    refine .bind (.expect _) fun _ _ _ => ?_
    refine .bind (expression_relabels fuel) fun condition first sameCondition => ?_
    refine .bind (.expect _) fun _ _ _ => ?_
    refine .bind (statement_relabels fuel) fun body another sameBody => .pure ?_
    rw [Stmt.onLine, Stmt.onLine, sameCondition, sameBody]

/-- A `return` statement does the same where the token after its keyword is on the line of that. -/
theorem returnValue_relabels : ∀ fuel {here there : Nat} {cursor other : Cursor},
    cursor.Relabels other → (cursor.next.line = here ↔ other.next.line = there) →
      RelabelsAt (Stmt.onLine line) (returnValue fuel here) (returnValue fuel there) cursor other
  | 0, _, _, _, _, relabels, _ => Relabels.outOfFuel.agrees relabels
  | fuel + 1, here, there, _, _, relabels, stays => by
    refine (RelabelsAt.returnsNothing relabels stays).bind fun bare another same => ?_
    cases (same : another = bare)
    refine .ite (.bindSame .terminator fun _ => .pure rfl) ?_
    refine .bind (expression_relabels fuel) fun value other sameValue => ?_
    refine .bindSame .terminator fun _ => .pure ?_
    simp only [Stmt.onLine, Expr.onLinePart, sameValue]

theorem expressionStatement_relabels : ∀ fuel,
    Relabels (Stmt.onLine line) (expressionStatement fuel) (expressionStatement fuel)
  | 0 => .outOfFuel
  | fuel + 1 => by
    refine .bind (ternary_relabels fuel) fun first another sameFirst => ?_
    refine .bindSame .nextIs fun assigns => .ite ?_ ?_
    · refine .bind (assignments_relabels fuel sameFirst) fun chain other same => ?_
      obtain ⟨sameTargets, sameValue⟩ := Prod.mk.inj same
      refine .bindSame .terminator fun _ => .pure ?_
      rw [onLine_assignment, onLine_assignment, sameTargets, sameValue]
    · refine .bind (operands_relabels fuel sameFirst) fun expr other same => ?_
      refine .bindSame .terminator fun _ => .pure ?_
      rw [Stmt.onLine, Stmt.onLine, same]

theorem assignments_relabels : ∀ fuel {pending another : Expr Unit},
    another.onLine line = pending.onLine line →
      Relabels (fun chain => (Target.onLineEach line chain.1, chain.2.onLine line))
        (assignments fuel pending) (assignments fuel another)
  | 0, _, _, _ => .outOfFuel
  | fuel + 1, _, _, samePending => by
    refine .bind .advance fun equals otherEquals _ => ?_
    refine .bind (.target samePending) fun first other sameFirst => ?_
    refine .bind (ternary_relabels fuel) fun following further sameFollowing => ?_
    refine .bindSame .nextIs fun assigns => .ite ?_ (.pure ?_)
    · refine .bind (assignments_relabels fuel sameFollowing) fun chain last same => ?_
      obtain ⟨sameTargets, sameValue⟩ := Prod.mk.inj same
      refine .pure ?_
      simp only [Target.onLineEach, sameFirst, sameTargets, sameValue]
    · simp only [Target.onLineEach, sameFirst, sameFollowing]

theorem expression_relabels : ∀ fuel,
    Relabels (Expr.onLine line) (expression fuel) (expression fuel)
  | 0 => .outOfFuel
  | fuel + 1 =>
    .bind (assignmentExpression_relabels fuel) fun _ _ sameFirst => operands_relabels fuel sameFirst

theorem operands_relabels : ∀ fuel {first another : Expr Unit},
    another.onLine line = first.onLine line →
      Relabels (Expr.onLine line) (operands fuel first) (operands fuel another)
  | 0, _, _, _ => .outOfFuel
  | fuel + 1, _, _, sameFirst => by
    refine .bindSame .nextIs fun more => .ite ?_ (.pure sameFirst)
    refine .bind (furtherOperands_relabels fuel) fun rest others sameRest => .pure ?_
    simp only [Expr.onLine, Expr.onLineEach, sameFirst, sameRest]

theorem furtherOperands_relabels : ∀ fuel,
    Relabels (Expr.onLineEach line) (furtherOperands fuel) (furtherOperands fuel)
  | 0 => .outOfFuel
  | fuel + 1 => by
    refine .bindSame .accept fun more => .ite ?_ (.pure rfl)
    refine .bind (assignmentExpression_relabels fuel) fun operand another sameOperand => ?_
    refine .bind (furtherOperands_relabels fuel) fun rest others sameRest => .pure ?_
    rw [Expr.onLineEach, Expr.onLineEach, sameOperand, sameRest]

theorem assignmentExpression_relabels : ∀ fuel,
    Relabels (Expr.onLine line) (assignmentExpression fuel) (assignmentExpression fuel)
  | 0 => .outOfFuel
  | fuel + 1 => by
    refine .bind (ternary_relabels fuel) fun expr another sameExpr => ?_
    refine .byKind fun equals here there => ?_
    refine .bindSame .accept fun assigns => .ite ?_ (.pure sameExpr)
    refine .bind (assignmentExpression_relabels fuel) fun value other sameValue => ?_
    cases expr with
    | reference name _ =>
      obtain ⟨otherName, rfl, sameName⟩ := Expr.reference_of_onLine sameExpr
      refine .pure ?_
      rw [Expr.onLine, Expr.onLine, sameName, sameValue]
    | _ => exact .failAt _

theorem ternary_relabels : ∀ fuel, Relabels (Expr.onLine line) (ternary fuel) (ternary fuel)
  | 0 => .outOfFuel
  | fuel + 1 => by
    refine .bind (leveled_relabels fuel _) fun condition first sameCondition => ?_
    refine .byKind fun question here there => ?_
    refine .bindSame .accept fun asks => .ite ?_ (.pure sameCondition)
    refine .bindSame .nextIs fun bare => .ite (.fail _) ?_
    refine .bind (ternary_relabels fuel) fun thenBranch second sameThen => ?_
    refine .bind (.expect _) fun _ _ _ => ?_
    refine .bind (ternary_relabels fuel) fun elseBranch third sameElse => .pure ?_
    rw [Expr.onLine, Expr.onLine, sameCondition, sameThen, sameElse]

theorem leveled_relabels : ∀ fuel level,
    Relabels (Expr.onLine line) (leveled fuel level) (leveled fuel level)
  | 0, _ => .outOfFuel
  | fuel + 1, level =>
    .bind (operand_relabels fuel level) fun _ _ sameFirst =>
      operations_relabels fuel level sameFirst

theorem operations_relabels : ∀ fuel level {left another : Expr Unit},
    another.onLine line = left.onLine line →
      Relabels (Expr.onLine line) (operations fuel level left) (operations fuel level another)
  | 0, _, _, _, _ => .outOfFuel
  | fuel + 1, level, _, _, sameLeft => by
    refine .byKind fun kind here there => ?_
    dsimp only
    cases level.operator? kind with
    | none => exact .pure sameLeft
    | some operator =>
      refine .bind .advance fun _ _ _ => ?_
      refine .bind (operand_relabels fuel level) fun right other sameRight => ?_
      refine operations_relabels fuel level ?_
      rw [InfixOperator.onLine_apply, InfixOperator.onLine_apply, sameLeft, sameRight]

theorem operand_relabels : ∀ fuel level,
    Relabels (Expr.onLine line) (operand fuel level) (operand fuel level)
  | 0, _ => .outOfFuel
  | fuel + 1, level => by
    cases level with
    | factor => exact unary_relabels fuel
    | _ => exact leveled_relabels fuel _

theorem unary_relabels : ∀ fuel, Relabels (Expr.onLine line) (unary fuel) (unary fuel)
  | 0 => .outOfFuel
  | fuel + 1 => by
    have called : Relabels (Expr.onLine line) (primary fuel >>= fun callee => calls fuel callee)
        (primary fuel >>= fun callee => calls fuel callee) :=
      .bind (primary_relabels fuel) fun _ _ sameCallee => calls_relabels fuel sameCallee
    have operation (operator : UnaryOperator) (here there : Nat) : Relabels (Expr.onLine line)
        (advance >>= fun _ => unary fuel >>= fun operand => pure (.unary operator here operand))
        (advance >>= fun _ =>
          unary fuel >>= fun operand => pure (.unary operator there operand)) := by
      refine .bind .advance fun _ _ _ => ?_
      refine .bind (unary_relabels fuel) fun operand another same => .pure ?_
      rw [Expr.onLine, Expr.onLine, same]
    refine .byKind fun kind here there => ?_
    cases kind with
    | symbol symbol =>
      cases symbol with
      | bang => exact operation .not here there
      | minus => exact operation .negate here there
      | _ => exact called
    | _ => exact called

theorem calls_relabels : ∀ fuel {callee another : Expr Unit},
    another.onLine line = callee.onLine line →
      Relabels (Expr.onLine line) (calls fuel callee) (calls fuel another)
  | 0, _, _, _ => .outOfFuel
  | fuel + 1, _, _, sameCallee => by
    refine .byKind fun kind here there => ?_
    cases kind with
    | symbol symbol =>
      cases symbol with
      | leftParen =>
        refine .bind .advance fun _ _ _ => ?_
        refine .leftOut (arguments_relabels fuel 0) fun arguments others sameArguments => ?_
        refine .bind (.expect _) fun paren other _ => calls_relabels fuel ?_
        rw [Expr.onLine, Expr.onLine, sameCallee, sameArguments]
      | dot =>
        refine .bind .advance fun _ _ _ => .bind (.identifier line _) fun name other sameName => ?_
        refine calls_relabels fuel ?_
        rw [Expr.onLine, Expr.onLine, sameCallee, sameName]
      | _ => exact .pure sameCallee
    | _ => exact .pure sameCallee

theorem arguments_relabels : ∀ fuel count,
    Relabels (Expr.onLineEach line) (arguments fuel count) (arguments fuel count)
  | 0, _ => .outOfFuel
  | fuel + 1, count => by
    refine .reported ?_
    refine .bind (assignmentExpression_relabels fuel) fun argument another sameArgument => ?_
    refine .bindSame .accept fun more => .ite ?_ (.pure ?_)
    · refine .bind (arguments_relabels fuel _) fun rest others sameRest => .pure ?_
      rw [Expr.onLineEach, Expr.onLineEach, sameArgument, sameRest]
    · simp only [Expr.onLineEach, sameArgument]

theorem primary_relabels : ∀ fuel, Relabels (Expr.onLine line) (primary fuel) (primary fuel)
  | 0 => .outOfFuel
  | fuel + 1 => by
    refine .byKind fun kind here there => ?_
    cases kind with
    | keyword keyword =>
      cases keyword with
      | kwFalse => exact .bind .advance fun _ _ _ => .pure rfl
      | kwTrue => exact .bind .advance fun _ _ _ => .pure rfl
      | kwNil => exact .bind .advance fun _ _ _ => .pure rfl
      | kwThis => exact .bind .advance fun _ _ _ => .pure rfl
      | kwSuper =>
        refine .bind .advance fun _ _ _ => .bind (.expect _) fun _ _ _ => ?_
        refine .bind (.identifier line _) fun method another sameMethod => .pure ?_
        rw [Expr.onLine, Expr.onLine, sameMethod]
      | kwFun =>
        refine .bind .advance fun _ _ _ => .bind (.expect _) fun _ _ _ => ?_
        refine .bind (functionRest_relabels fuel _) fun lambda another sameLambda => .pure ?_
        rw [Expr.onLine, Expr.onLine, sameLambda]
      | _ => exact .fail _
    | number text value => exact .bind .advance fun _ _ _ => .pure rfl
    | text contents => exact .bind .advance fun _ _ _ => .pure rfl
    | identifier text => exact .bind .advance fun _ _ _ => .pure rfl
    | symbol symbol =>
      cases symbol with
      | leftParen =>
        refine .bind .advance fun _ _ _ => ?_
        refine .bind (expression_relabels fuel) fun inner another sameInner => ?_
        refine .bind (.expect _) fun _ _ _ => .pure ?_
        rw [Expr.onLine, Expr.onLine, sameInner]
      | _ => exact .fail _
    | endOfInput => exact .fail _

end

end Reader

end Lox
