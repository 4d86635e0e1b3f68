import Lox.Binding
import Lox.Tree.Parse

/-!
# The shape of parsed trees

Which trees the grammar derives: how tightly the operands of every node have to bind, and where a
declaration may stand. Nothing here is about tokens.
-/

namespace Lox

variable {β : Type}

/-! ## How tightly expressions bind -/

def LogicalOperator.level : LogicalOperator → Level
  | or => .or
  | and => .and

def BinaryOperator.level : BinaryOperator → Level
  | equal | notEqual => .equality
  | greater | greaterOrEqual | less | lessOrEqual => .comparison
  | subtract | add => .term
  | divide | multiply | power | modulo => .factor

def InfixOperator.level : InfixOperator → Level
  | logical operator => operator.level
  | binary operator => operator.level

def Level.tightness : Level → Nat
  | or => 3
  | and => 4
  | equality => 5
  | comparison => 6
  | term => 7
  | factor => 8

/-- How tightly an expression binds: 0 for a comma, 1 for an assignment, 2 for `?:`, 3 to 8 for the
levels of the binary operators, 9 for the unary ones, 10 for calls and what brings its own brackets.
An operand that has to be at some rule of the grammar binds at least as tightly as that rule. -/
def Expr.tightness : Expr β → Nat
  | .comma _ => 0
  | .assign _ _ _ => 1
  | .conditional _ _ _ _ => 2
  | .logical operator _ _ _ => operator.level.tightness
  | .binary operator _ _ _ => operator.level.tightness
  | .unary _ _ _ => 9
  | _ => 10

theorem Level.tightness_bounds (level : Level) : 3 ≤ level.tightness ∧ level.tightness ≤ 8 := by
  cases level <;> decide

/-- What binds more loosely than every operator. -/
theorem Expr.loose_cases {expr : Expr β} (loose : expr.tightness < 3) :
    (∃ operands, expr = .comma operands) ∨ (∃ name binding value, expr = .assign name binding value) ∨
      ∃ line condition thenBranch elseBranch,
        expr = .conditional line condition thenBranch elseBranch := by
  cases expr with
  | comma operands => exact .inl ⟨operands, rfl⟩
  | assign name binding value => exact .inr (.inl ⟨name, binding, value, rfl⟩)
  | conditional line condition thenBranch elseBranch =>
    exact .inr (.inr ⟨line, condition, thenBranch, elseBranch, rfl⟩)
  | binary operator _ _ _ => exact absurd operator.level.tightness_bounds.1 (Nat.not_le.mpr loose)
  | logical operator _ _ _ => exact absurd operator.level.tightness_bounds.1 (Nat.not_le.mpr loose)
  | _ => simp [Expr.tightness] at loose

/-- Between the levels and the calls there are the unary operators alone. -/
theorem Expr.eq_unary {expr : Expr β} (same : expr.tightness = 9) :
    ∃ operator line operand, expr = .unary operator line operand := by
  cases expr with
  | unary operator line operand => exact ⟨operator, line, operand, rfl⟩
  | binary operator _ _ _ =>
    have := operator.level.tightness_bounds
    simp only [Expr.tightness] at same
    omega
  | logical operator _ _ _ =>
    have := operator.level.tightness_bounds
    simp only [Expr.tightness] at same
    omega
  | _ => simp [Expr.tightness] at same

/-! ## Where statements stand -/

/-- Whether the statement is an expression or an assignment. -/
def Stmt.IsSimple : Stmt β → Prop
  | .expression _ | .assign _ _ | .set _ _ _ => True
  | _ => False

/-- What can stand as the first clause of a `for` statement. -/
def Stmt.IsInitializer : Stmt β → Prop
  | .varDecl _ _ => True
  | stmt => stmt.IsSimple

/-- Whether an expression can be a statement: an operand list starts with a `?:` or tighter, since
an assignment there would be a statement of its own. -/
def Expr.IsOperandList : Expr β → Prop
  | .comma (first :: _) => 2 ≤ first.tightness
  | expr => 2 ≤ expr.tightness

/-- What can be stored into by an assignment to several targets or to a name. A single property is
stored into by a statement of its own. -/
def Target.IsChain : List (Target β) → Prop
  | [] | [.property _ _] => False
  | _ => True

/-! ## Well-shaped trees -/

mutual

def Expr.WellShaped : Expr β → Prop
  | .literal _ | .reference _ _ | .thisInstance _ _ | .superMethod _ _ _ => True
  | .group inner => inner.WellShaped
  | .unary _ _ operand => 9 ≤ operand.tightness ∧ operand.WellShaped
  | .binary operator _ left right =>
    operator.level.tightness ≤ left.tightness ∧ operator.level.tightness < right.tightness ∧
      left.WellShaped ∧ right.WellShaped
  | .logical operator _ left right =>
    operator.level.tightness ≤ left.tightness ∧ operator.level.tightness < right.tightness ∧
      left.WellShaped ∧ right.WellShaped
  | .comma operands => 2 ≤ operands.length ∧ Expr.WellShapedEach operands
  | .conditional _ condition thenBranch elseBranch =>
    3 ≤ condition.tightness ∧ 2 ≤ thenBranch.tightness ∧ 2 ≤ elseBranch.tightness ∧
      condition.WellShaped ∧ thenBranch.WellShaped ∧ elseBranch.WellShaped
  | .assign _ _ value => 1 ≤ value.tightness ∧ value.WellShaped
  | .property object _ => 10 ≤ object.tightness ∧ object.WellShaped
  | .call callee _ arguments =>
    10 ≤ callee.tightness ∧ callee.WellShaped ∧ Expr.WellShapedEach arguments
  | .function lambda => lambda.WellShaped

/-- Operands and arguments, each an assignment or tighter. -/
def Expr.WellShapedEach : List (Expr β) → Prop
  | [] => True
  | expr :: rest => 1 ≤ expr.tightness ∧ expr.WellShaped ∧ Expr.WellShapedEach rest

def Expr.WellShapedPart : Option (Expr β) → Prop
  | none => True
  | some expr => expr.WellShaped

def Target.WellShaped : Target β → Prop
  | .name _ _ => True
  | .property object _ => 10 ≤ object.tightness ∧ object.WellShaped

def Target.WellShapedEach : List (Target β) → Prop
  | [] => True
  | target :: rest => target.WellShaped ∧ Target.WellShapedEach rest

/-- A declaration is a statement like any other here; that it stands where declarations may is
demanded of the statement around it. -/
def Stmt.WellShaped : Stmt β → Prop
  | .expression value => value.IsOperandList ∧ value.WellShaped
  | .varDecl _ initializer => Expr.WellShapedPart initializer
  | .assign targets value =>
    Target.IsChain targets ∧ Target.WellShapedEach targets ∧ 2 ≤ value.tightness ∧
      value.WellShaped
  | .set object _ value =>
    10 ≤ object.tightness ∧ object.WellShaped ∧ 2 ≤ value.tightness ∧ value.WellShaped
  | .block body => Stmt.WellShapedEach body
  | .branch condition thenBranch elseBranch =>
    condition.WellShaped ∧ thenBranch.declaredName? = none ∧ thenBranch.WellShaped ∧
      (elseBranch.bind Stmt.declaredName?) = none ∧ Stmt.WellShapedPart elseBranch
  | .whileLoop condition body =>
    condition.WellShaped ∧ body.declaredName? = none ∧ body.WellShaped
  | .forLoop initializer condition increment body =>
    (∀ stmt ∈ initializer, stmt.IsInitializer) ∧ Stmt.WellShapedPart initializer ∧
      Expr.WellShapedPart condition ∧ Expr.WellShapedPart increment ∧
      body.declaredName? = none ∧ body.WellShaped
  | .breakLoop _ | .continueLoop _ => True
  | .funDecl _ lambda => lambda.WellShaped
  | .returnValue _ value => Expr.WellShapedPart value
  | .classDecl _ _ methods => Method.WellShapedEach methods

/-- Statements where declarations may stand. -/
def Stmt.WellShapedEach : List (Stmt β) → Prop
  | [] => True
  | stmt :: rest => stmt.WellShaped ∧ Stmt.WellShapedEach rest

def Stmt.WellShapedPart : Option (Stmt β) → Prop
  | none => True
  | some stmt => stmt.WellShaped

def Lambda.WellShaped : Lambda β → Prop
  | ⟨_, body⟩ => Stmt.WellShapedEach body

def Method.WellShaped : Method β → Prop
  | ⟨_, lambda⟩ => lambda.WellShaped

def Method.WellShapedEach : List (Method β) → Prop
  | [] => True
  | method :: rest => method.WellShaped ∧ Method.WellShapedEach rest

end

theorem Stmt.wellShapedEach_append {front back : List (Stmt β)}
    (frontShaped : Stmt.WellShapedEach front) (backShaped : Stmt.WellShapedEach back) :
    Stmt.WellShapedEach (front ++ back) := by
  induction front with
  | nil => exact backShaped
  | cons stmt rest ih => exact ⟨frontShaped.1, ih frontShaped.2⟩

theorem Stmt.WellShapedEach.of_mem {stmts : List (Stmt β)} {stmt : Stmt β}
    (shaped : Stmt.WellShapedEach stmts) (member : stmt ∈ stmts) : stmt.WellShaped := by
  induction stmts with
  | nil => cases member
  | cons first rest ih =>
    cases member with
    | head => exact shaped.1
    | tail _ further => exact ih shaped.2 further

theorem Stmt.declaredName?_of_isSimple {stmt : Stmt β} (simple : stmt.IsSimple) :
    stmt.declaredName? = none := by
  cases stmt <;> first | rfl | cases simple

theorem Stmt.isInitializer_of_isSimple {stmt : Stmt β} (simple : stmt.IsSimple) :
    stmt.IsInitializer := by
  cases stmt <;> first | exact True.intro | exact simple.elim

end Lox
