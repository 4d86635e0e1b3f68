import Lox.Proofs.Grammar.Readers
import Lox.Proofs.Grammar.Shape

/-!
# The contract of every rule

What each rule of the grammar takes, how tightly what it gives binds, and how much fuel it needs.
`Sound` puts the contracts of all rules side by side: they call each other, so they are shown
together, by induction on the fuel.
-/

namespace Lox

variable {α : Type}

/-! ## Levels -/

theorem Level.tightness_tighter {level tighter : Level} (next : level.tighter? = some tighter) :
    tighter.tightness = level.tightness + 1 := by
  cases level <;> cases next <;> rfl

theorem Level.tightness_tightest {level : Level} (last : level.tighter? = none) :
    level.tightness = 8 := by
  cases level <;> first | rfl | cases last

/-- The operators of a level, and how they are written. -/
theorem Level.operator?_eq_some {level : Level} {kind : Token.Kind} {operator : InfixOperator}
    (found : level.operator? kind = some operator) :
    operator.level = level ∧ kind = operator.written := by
  unfold Level.operator? at found
  split at found <;> cases found <;> exact ⟨rfl, rfl⟩

namespace InfixOperator

variable {operator : InfixOperator} {line : Nat} {left right : Expr Unit}

theorem written_ne_endOfInput : operator.written ≠ .endOfInput := by
  cases operator <;> simp [InfixOperator.written]

theorem written_apply : (operator.apply line left right).written =
    left.written ++ operator.written :: right.written := by
  cases operator <;> rfl

theorem tightness_apply :
    (operator.apply line left right).tightness = operator.level.tightness := by
  cases operator <;> rfl

theorem wellShaped_apply (leftTight : operator.level.tightness ≤ left.tightness)
    (rightTight : operator.level.tightness < right.tightness) (leftShaped : left.WellShaped)
    (rightShaped : right.WellShaped) : (operator.apply line left right).WellShaped := by
  cases operator <;> exact ⟨leftTight, rightTight, leftShaped, rightShaped⟩

end InfixOperator

theorem Expr.isOperandList_of_tight {expr : Expr Unit} (tight : 2 ≤ expr.tightness) :
    expr.IsOperandList := by
  unfold Expr.IsOperandList
  split
  · simp [Expr.tightness] at tight
  · exact tight

/-! ## What every reader takes -/

namespace Cursor

/-- An expression that binds at least so tightly was taken. -/
structure TakesExpr (start : Cursor) (least : Nat) (expr : Expr Unit) (finish : Cursor) : Prop
    extends start.Takes expr.written finish where
  shorter : finish.rest.length < start.rest.length
  tight : least ≤ expr.tightness
  shaped : expr.WellShaped

/-- What was taken makes another expression of one that stands to the left of it. -/
structure Extends (start : Cursor) (least : Nat) (left expr : Expr Unit) (finish : Cursor) :
    Prop where
  takes : ∃ kinds, expr.written = left.written ++ kinds ∧ start.Takes kinds finish
  tight : least ≤ expr.tightness
  shaped : expr.WellShaped

structure TakesStmt (start : Cursor) (stmt : Stmt Unit) (finish : Cursor) : Prop
    extends start.Takes stmt.written finish where
  shorter : finish.rest.length < start.rest.length
  shaped : stmt.WellShaped

/-- What was taken is a statement but for its first token. -/
structure TakesRest (start : Cursor) (first : Token.Kind) (stmt : Stmt Unit) (finish : Cursor) :
    Prop where
  takes : ∃ kinds, stmt.written = first :: kinds ∧ start.Takes kinds finish
  shaped : stmt.WellShaped

theorem TakesRest.whole {start middle finish : Cursor} {first : Token.Kind} {stmt : Stmt Unit}
    (taken : middle.TakesRest first stmt finish) (before : start.Takes [first] middle)
    (shorter : middle.rest.length < start.rest.length) : start.TakesStmt stmt finish := by
  obtain ⟨kinds, spelled, takes⟩ := taken.takes
  refine ⟨?_, Nat.lt_of_le_of_lt takes.length shorter, taken.shaped⟩
  rw [spelled]
  exact before.trans takes

structure TakesLambda (start : Cursor) (lambda : Lambda Unit) (finish : Cursor) : Prop
    extends start.Takes lambda.written finish where
  shorter : finish.rest.length < start.rest.length
  shaped : lambda.WellShaped

/-- A form of one token after another is taken. -/
theorem TakesExpr.extend {start middle finish : Cursor} {least more : Nat} {left expr : Expr Unit}
    (taken : start.TakesExpr least left middle) (further : middle.Extends more left expr finish) :
    start.TakesExpr more expr finish := by
  obtain ⟨kinds, spelled, takes⟩ := further.takes
  refine ⟨?_, Nat.lt_of_le_of_lt takes.length taken.shorter, further.tight, further.shaped⟩
  rw [spelled]
  exact taken.toTakes.trans takes

theorem Extends.before {start middle finish : Cursor} {least : Nat} {kinds : List Token.Kind}
    {left inner expr : Expr Unit} (further : middle.Extends least inner expr finish)
    (takes : start.Takes kinds middle) (spelled : inner.written = left.written ++ kinds) :
    start.Extends least left expr finish := by
  obtain ⟨more, moreSpelled, moreTakes⟩ := further.takes
  refine ⟨⟨kinds ++ more, ?_, takes.trans moreTakes⟩, further.tight, further.shaped⟩
  rw [moreSpelled, spelled, List.append_assoc]

end Cursor

namespace Reader

/-- With so much fuel for every token left, and some more for the rules that a rule goes through
before it takes its first token, the reader ends as the postcondition says. -/
def Reads (fuel rank : Nat) (reader : Reader α) (post : Cursor → α → Cursor → Prop) : Prop :=
  ∀ start : Cursor, start.Ends → 32 * start.rest.length + rank ≤ fuel →
    Ensures start start reader (post start)

/-- Without fuel nothing is read. -/
theorem Reads.zero {rank : Nat} {reader : Reader α} {post : Cursor → α → Cursor → Prop}
    (positive : 0 < rank) : Reads 0 rank reader post := by
  intro start _ enough
  omega

structure Sound (fuel : Nat) : Prop where
  program : Reads fuel 20 (program fuel) fun start stmts finish =>
    start.Takes (Stmt.writtenEach stmts) finish ∧ Stmt.WellShapedEach stmts ∧ finish.rest = []
  declaration : ∀ start : Cursor, start.Ends → start.rest ≠ [] →
    32 * start.rest.length + 19 ≤ fuel →
      Ensures start start (declaration fuel) fun stmt finish =>
        start.Takes (Stmt.writtenEach stmt.toList) finish ∧
          finish.rest.length < start.rest.length ∧ Stmt.WellShapedEach stmt.toList
  declared : Reads fuel 18 (declared fuel) (·.TakesStmt)
  classDecl : Reads fuel 1 (classDecl fuel) (·.TakesRest (.keyword .kwClass))
  methods : Reads fuel 2 (methods fuel) fun start methods finish =>
    start.Takes (Method.writtenEach methods) finish ∧ Method.WellShapedEach methods
  function : ∀ role, Reads fuel 1 (function fuel role) fun start method finish =>
    start.Takes method.written finish ∧ finish.rest.length < start.rest.length ∧ method.WellShaped
  functionRest : ∀ role, Reads fuel 2 (functionRest fuel role) (·.TakesLambda)
  parameters : ∀ count, Reads fuel 1 (parameters fuel count) fun start names finish =>
    start.Takes (Name.writtenEach names) finish ∧ names ≠ []
  varDecl : Reads fuel 1 (varDecl fuel) fun start stmt finish =>
    start.TakesRest (.keyword .kwVar) stmt finish ∧ stmt.IsInitializer
  block : Reads fuel 21 (block fuel) fun start body finish =>
    start.Takes (Stmt.writtenEach body ++ [.symbol .rightBrace]) finish ∧
      finish.rest.length < start.rest.length ∧ Stmt.WellShapedEach body
  declarations : Reads fuel 20 (declarations fuel) fun start body finish =>
    start.Takes (Stmt.writtenEach body) finish ∧ Stmt.WellShapedEach body
  statement : Reads fuel 17 (statement fuel) fun start stmt finish =>
    start.TakesStmt stmt finish ∧ stmt.declaredName? = none
  forLoop : Reads fuel 1 (forLoop fuel) fun start stmt finish =>
    start.TakesRest (.keyword .kwFor) stmt finish ∧ stmt.declaredName? = none
  forInitializer : Reads fuel 17 (forInitializer fuel) fun start initializer finish =>
    start.Takes (Stmt.writtenInitializer initializer) finish ∧
      (∀ stmt ∈ initializer, stmt.IsInitializer) ∧ Stmt.WellShapedPart initializer
  clause : ∀ ending, Reads fuel 18 (clause fuel ending) fun start expr finish =>
    start.Takes (Expr.writtenPart [] expr) finish ∧ Expr.WellShapedPart expr
  branch : Reads fuel 1 (branch fuel) fun start stmt finish =>
    start.TakesRest (.keyword .kwIf) stmt finish ∧ stmt.declaredName? = none
  whileLoop : Reads fuel 1 (whileLoop fuel) fun start stmt finish =>
    start.TakesRest (.keyword .kwWhile) stmt finish ∧ stmt.declaredName? = none
  returnValue : ∀ line, Reads fuel 18 (returnValue fuel line) fun start stmt finish =>
    start.TakesRest (.keyword .kwReturn) stmt finish ∧ stmt.declaredName? = none
  expressionStatement : Reads fuel 16 (expressionStatement fuel) fun start stmt finish =>
    start.TakesStmt stmt finish ∧ stmt.IsSimple
  assignments : ∀ (pending : Expr Unit) (start : Cursor), start.Ends →
    pending.WellShaped → start.next.kind = .symbol .equal →
      32 * start.rest.length + 1 ≤ fuel →
        Ensures start start (assignments fuel pending) fun (targets, value) finish =>
          (∃ kinds, Target.writtenEach targets ++ value.written = pending.written ++ kinds ∧
            start.Takes kinds finish) ∧ targets ≠ [] ∧ Target.WellShapedEach targets ∧
              2 ≤ value.tightness ∧ value.WellShaped
  expression : Reads fuel 17 (expression fuel) (·.TakesExpr 0)
  operands : ∀ first : Expr Unit, first.WellShaped → 1 ≤ first.tightness →
    Reads fuel 2 (operands fuel first) fun start expr finish =>
      start.Extends 0 first expr finish ∧ (2 ≤ first.tightness → expr.IsOperandList)
  furtherOperands : Reads fuel 1 (furtherOperands fuel) fun start exprs finish =>
    start.Takes (Expr.writtenAfterEach exprs) finish ∧ Expr.WellShapedEach exprs ∧
      (start.next.kind = .symbol .comma → exprs ≠ [])
  assignmentExpression : Reads fuel 16 (assignmentExpression fuel) (·.TakesExpr 1)
  ternary : Reads fuel 15 (ternary fuel) (·.TakesExpr 2)
  leveled : ∀ level, Reads fuel (20 - 2 * level.tightness) (leveled fuel level)
    (·.TakesExpr level.tightness)
  operations : ∀ (level : Level) (left : Expr Unit), left.WellShaped →
    level.tightness ≤ left.tightness →
      Reads fuel 1 (operations fuel level left) (·.Extends level.tightness left)
  operand : ∀ level, Reads fuel (19 - 2 * level.tightness) (operand fuel level)
    (·.TakesExpr (level.tightness + 1))
  unary : Reads fuel 2 (unary fuel) (·.TakesExpr 9)
  calls : ∀ callee : Expr Unit, callee.WellShaped → 10 ≤ callee.tightness →
    Reads fuel 1 (calls fuel callee) (·.Extends 10 callee)
  arguments : ∀ count, Reads fuel 17 (arguments fuel count) fun start exprs finish =>
    start.Takes (Expr.writtenEach exprs) finish ∧ Expr.WellShapedEach exprs ∧ exprs ≠ []
  primary : Reads fuel 1 (primary fuel) (·.TakesExpr 10)

end Reader

end Lox
