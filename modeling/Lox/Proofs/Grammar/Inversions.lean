import Lox.Proofs.Grammar.Fronts

/-!
# What every rule reads back

Each rule of the grammar, run on the written form of a tree it derives, yields that tree and leaves
what follows, provided that what follows does not belong to it. `Complete` puts these side by side
for one amount of fuel, as `Sound` does for the contracts.
-/

namespace Lox

open Token.Kind

/-- The expression that a target of an assignment is read as. -/
def Target.expr : Target Unit → Expr Unit
  | .name target () => .reference target ()
  | .property object target => .property object target

theorem Target.written_expr (target : Target Unit) : target.expr.written = target.written := by
  cases target <;> rfl

theorem Target.wellShaped_expr {target : Target Unit} (shaped : target.WellShaped) :
    target.expr.WellShaped := by
  cases target with
  | name _ _ => trivial
  | property _ _ => exact shaped

theorem Target.readable_expr {target : Target Unit} (readable : target.Readable) :
    target.expr.Readable := by
  cases target with
  | name _ _ => trivial
  | property _ _ => exact readable

theorem Target.tightness_expr (target : Target Unit) : target.expr.tightness = 10 := by
  cases target <;> rfl

namespace Reader

/-- The reader yields the expression whatever follows, if what follows does not continue one that
binds so tightly. -/
def YieldsExpr (line last tightness : Nat) (reader : Reader (Expr Unit)) : Prop :=
  ∀ (expr : Expr Unit) (rest : List Token.Kind), tightness ≤ expr.tightness → expr.WellShaped →
    expr.Readable → Stops tightness rest →
      Yields line last reader (expr.written ++ rest) (expr.onLine line) rest

/-- The reader yields the statement from its second token on. -/
def YieldsRest (line last : Nat) (reader : Reader (Stmt Unit)) (stmt : Stmt Unit) : Prop :=
  ∀ rest : List Token.Kind, stmt.WellShaped → stmt.Readable →
    (stmt.EndsOpen → front rest ≠ .keyword .kwElse) →
      Yields line last reader (stmt.written.tail ++ rest) (stmt.onLine line) rest

structure Complete (line last fuel : Nat) : Prop where
  program : ∀ stmts : List (Stmt Unit), Stmt.WellShapedEach stmts → Stmt.ReadableEach stmts →
    Yields line last (program fuel) (Stmt.writtenEach stmts) (Stmt.onLineEach line stmts) []
  declaration : ∀ (stmt : Stmt Unit) (rest : List Token.Kind), stmt.WellShaped → stmt.Readable →
    ¬stmt.StartsAsFunction → front rest ≠ .keyword .kwElse →
      Yields line last (declaration fuel) (stmt.written ++ rest) (some (stmt.onLine line)) rest
  declared : ∀ (stmt : Stmt Unit) (rest : List Token.Kind), stmt.WellShaped → stmt.Readable →
    ¬stmt.StartsAsFunction → front rest ≠ .keyword .kwElse →
      Yields line last (declared fuel) (stmt.written ++ rest) (stmt.onLine line) rest
  classDecl : ∀ name superclass methods,
    YieldsRest line last (classDecl fuel) (.classDecl name superclass methods)
  methods : ∀ (methods : List (Method Unit)) (rest : List Token.Kind),
    Method.WellShapedEach methods → Method.ReadableEach methods →
      Yields line last (Reader.methods fuel) (Method.writtenEach methods ++
        .symbol .rightBrace :: rest) (Method.onLineEach line methods) (.symbol .rightBrace :: rest)
  function : ∀ role (method : Method Unit) (rest : List Token.Kind), method.WellShaped →
    method.Readable →
      Yields line last (function fuel role) (method.written ++ rest) (method.onLine line) rest
  functionRest : ∀ role (lambda : Lambda Unit) (rest : List Token.Kind), lambda.WellShaped →
    lambda.Readable →
      Yields line last (functionRest fuel role) (lambda.written ++ rest) (lambda.onLine line) rest
  parameters : ∀ count names rest, names ≠ [] → count + names.length ≤ maximumArity →
    Yields line last (parameters fuel count) (Name.writtenEach names ++
      .symbol .rightParen :: rest) (names.map (·.onLine line)) (.symbol .rightParen :: rest)
  varDecl : ∀ name initializer, YieldsRest line last (varDecl fuel) (.varDecl name initializer)
  block : ∀ (body : List (Stmt Unit)) (rest : List Token.Kind), Stmt.WellShapedEach body →
    Stmt.ReadableEach body →
      Yields line last (block fuel) (Stmt.writtenEach body ++ .symbol .rightBrace :: rest)
        (Stmt.onLineEach line body) rest
  declarations : ∀ (body : List (Stmt Unit)) (rest : List Token.Kind), Stmt.WellShapedEach body →
    Stmt.ReadableEach body →
      Yields line last (declarations fuel) (Stmt.writtenEach body ++ .symbol .rightBrace :: rest)
        (Stmt.onLineEach line body) (.symbol .rightBrace :: rest)
  statement : ∀ (stmt : Stmt Unit) (rest : List Token.Kind), stmt.declaredName? = none →
    stmt.WellShaped → stmt.Readable → (stmt.EndsOpen → front rest ≠ .keyword .kwElse) →
      Yields line last (statement fuel) (stmt.written ++ rest) (stmt.onLine line) rest
  forLoop : ∀ initializer condition increment body,
    YieldsRest line last (forLoop fuel) (.forLoop initializer condition increment body)
  forInitializer : ∀ (initializer : Option (Stmt Unit)) (rest : List Token.Kind),
    (∀ stmt ∈ initializer, stmt.IsInitializer) → Stmt.WellShapedPart initializer →
      Stmt.ReadablePart initializer →
        Yields line last (forInitializer fuel) (Stmt.writtenInitializer initializer ++ rest)
          (Stmt.onLinePart line initializer) rest
  clause : ∀ (ending : Symbol) (expr : Option (Expr Unit)) (rest : List Token.Kind),
    ending = .semicolon ∨ ending = .rightParen → Expr.WellShapedPart expr →
      Expr.ReadablePart expr →
        Yields line last (clause fuel ending) (Expr.writtenPart [] expr ++
          .symbol ending :: rest) (Expr.onLinePart line expr) (.symbol ending :: rest)
  branch : ∀ condition thenBranch elseBranch,
    YieldsRest line last (branch fuel) (.branch condition thenBranch elseBranch)
  whileLoop : ∀ condition body, YieldsRest line last (whileLoop fuel) (.whileLoop condition body)
  returnValue : ∀ value, YieldsRest line last (returnValue fuel line) (.returnValue line value)
  expressionStatement : ∀ (stmt : Stmt Unit) (rest : List Token.Kind), stmt.IsSimple →
    stmt.WellShaped → stmt.Readable →
      Yields line last (expressionStatement fuel) (stmt.written ++ rest) (stmt.onLine line) rest
  assignments : ∀ (first : Target Unit) (others : List (Target Unit)) (value : Expr Unit)
    (rest : List Token.Kind), Target.WellShapedEach others → Target.ReadableEach others →
      2 ≤ value.tightness → value.WellShaped → value.Readable →
        Yields line last (assignments fuel (first.expr.onLine line))
          (.symbol .equal :: (Target.writtenEach others ++ value.written ++
            .symbol .semicolon :: rest))
          (Target.onLineEach line (first :: others), value.onLine line) (.symbol .semicolon :: rest)
  expression : YieldsExpr line last 0 (expression fuel)
  operands : ∀ (first : Expr Unit) (others : List (Expr Unit)) (rest : List Token.Kind),
    Expr.WellShapedEach others → Expr.ReadableEach others → Stops 0 rest →
      Yields line last (operands fuel first) (Expr.writtenAfterEach others ++ rest)
        (if others = [] then first else .comma (first :: Expr.onLineEach line others)) rest
  furtherOperands : ∀ (others : List (Expr Unit)) (rest : List Token.Kind),
    Expr.WellShapedEach others → Expr.ReadableEach others → Stops 0 rest →
      Yields line last (furtherOperands fuel) (Expr.writtenAfterEach others ++ rest)
        (Expr.onLineEach line others) rest
  assignmentExpression : YieldsExpr line last 1 (assignmentExpression fuel)
  ternary : YieldsExpr line last 2 (ternary fuel)
  leveled : ∀ level : Level, YieldsExpr line last level.tightness (leveled fuel level)
  operations : ∀ (level : Level) (left expr : Expr Unit) (kinds rest : List Token.Kind),
    Expr.Operations level left kinds expr → Stops level.tightness rest →
      Yields line last (operations fuel level (left.onLine line)) (kinds ++ rest)
        (expr.onLine line) rest
  operand : ∀ level : Level, YieldsExpr line last (level.tightness + 1) (operand fuel level)
  unary : YieldsExpr line last 9 (unary fuel)
  calls : ∀ (callee expr : Expr Unit) (kinds rest : List Token.Kind),
    Expr.Calls callee kinds expr → Stops 10 rest →
      Yields line last (calls fuel (callee.onLine line)) (kinds ++ rest) (expr.onLine line) rest
  arguments : ∀ (count : Nat) (exprs : List (Expr Unit)) (rest : List Token.Kind), exprs ≠ [] →
    count + exprs.length ≤ maximumArity → Expr.WellShapedEach exprs → Expr.ReadableEach exprs →
      Yields line last (arguments fuel count) (Expr.writtenEach exprs ++
        .symbol .rightParen :: rest) (Expr.onLineEach line exprs) (.symbol .rightParen :: rest)
  primary : ∀ (expr : Expr Unit) (rest : List Token.Kind), expr.IsPrimary → expr.WellShaped →
    expr.Readable → Yields line last (primary fuel) (expr.written ++ rest) (expr.onLine line) rest

end Reader

end Lox
