import Lox.Proofs.Grammar.Shape
import Lox.Proofs.Grammar.Written

/-!
# What can be read back

A tree of the grammar's shape is not yet one that its written form is read back as. Too long a list
of parameters or arguments is an error; an `else` belongs to the nearest `if` that lacks one; and
where a declaration may stand, `fun` begins one, also where an expression or the target of an
assignment was meant.
-/

namespace Lox

variable {β : Type}

/-- Whether the statement ends in an `if` without an `else`, which would take one that follows. -/
def Stmt.EndsOpen : Stmt β → Prop
  | .branch _ _ none => True
  | .branch _ _ (some elseBranch) => elseBranch.EndsOpen
  | .whileLoop _ body => body.EndsOpen
  | .forLoop _ _ _ body => body.EndsOpen
  | _ => False

/-- Whether the statement is an expression or an assignment that starts with `fun`. -/
def Stmt.StartsAsFunction (stmt : Stmt β) : Prop :=
  stmt.IsSimple ∧ stmt.written.head? = some (.keyword .kwFun)

mutual

def Expr.Readable : Expr β → Prop
  | .literal _ | .reference _ _ | .thisInstance _ _ | .superMethod _ _ _ => True
  | .group inner => inner.Readable
  | .unary _ _ operand => operand.Readable
  | .binary _ _ left right => left.Readable ∧ right.Readable
  | .logical _ _ left right => left.Readable ∧ right.Readable
  | .comma operands => Expr.ReadableEach operands
  | .conditional _ condition thenBranch elseBranch =>
    condition.Readable ∧ thenBranch.Readable ∧ elseBranch.Readable
  | .assign _ _ value => value.Readable
  | .property object _ => object.Readable
  | .call callee _ arguments =>
    callee.Readable ∧ arguments.length ≤ Reader.maximumArity ∧ Expr.ReadableEach arguments
  | .function lambda => lambda.Readable

def Expr.ReadableEach : List (Expr β) → Prop
  | [] => True
  | expr :: rest => expr.Readable ∧ Expr.ReadableEach rest

def Expr.ReadablePart : Option (Expr β) → Prop
  | none => True
  | some expr => expr.Readable

def Target.Readable : Target β → Prop
  | .name _ _ => True
  | .property object _ => object.Readable

def Target.ReadableEach : List (Target β) → Prop
  | [] => True
  | target :: rest => target.Readable ∧ Target.ReadableEach rest

def Stmt.Readable : Stmt β → Prop
  | .expression value => value.Readable
  | .varDecl _ initializer => Expr.ReadablePart initializer
  | .assign targets value => Target.ReadableEach targets ∧ value.Readable
  | .set object _ value => object.Readable ∧ value.Readable
  | .block body => Stmt.ReadableEach body
  | .branch condition thenBranch elseBranch =>
    condition.Readable ∧ thenBranch.Readable ∧ Stmt.ReadablePart elseBranch ∧
      (elseBranch.isSome → ¬thenBranch.EndsOpen)
  | .whileLoop condition body => condition.Readable ∧ body.Readable
  | .forLoop initializer condition increment body =>
    Stmt.ReadablePart initializer ∧ Expr.ReadablePart condition ∧ Expr.ReadablePart increment ∧
      body.Readable
  | .breakLoop _ | .continueLoop _ => True
  | .funDecl _ lambda => lambda.Readable
  | .returnValue _ value => Expr.ReadablePart value
  | .classDecl _ _ methods => Method.ReadableEach methods

/-- Statements where declarations may stand. -/
def Stmt.ReadableEach : List (Stmt β) → Prop
  | [] => True
  | stmt :: rest => stmt.Readable ∧ ¬stmt.StartsAsFunction ∧ Stmt.ReadableEach rest

def Stmt.ReadablePart : Option (Stmt β) → Prop
  | none => True
  | some stmt => stmt.Readable

def Lambda.Readable : Lambda β → Prop
  | ⟨parameters, body⟩ => parameters.length ≤ Reader.maximumArity ∧ Stmt.ReadableEach body

def Method.Readable : Method β → Prop
  | ⟨_, lambda⟩ => lambda.Readable

def Method.ReadableEach : List (Method β) → Prop
  | [] => True
  | method :: rest => method.Readable ∧ Method.ReadableEach rest

end

end Lox
