import Lox.Tree

/-!
# Trees on one line

The tree with the same line at every token. Two trees are the same up to their lines if they are
the same on one line.
-/

namespace Lox

variable {β : Type}

def Name.onLine (line : Nat) (name : Name) : Name := ⟨name.text, line⟩

def Superclass.onLine (line : Nat) (superclass : Superclass β) : Superclass β :=
  ⟨superclass.name.onLine line, superclass.binding⟩

mutual

def Expr.onLine (line : Nat) : Expr β → Expr β
  | .literal value => .literal value
  | .group inner => .group (inner.onLine line)
  | .unary operator _ operand => .unary operator line (operand.onLine line)
  | .binary operator _ left right => .binary operator line (left.onLine line) (right.onLine line)
  | .logical operator _ left right => .logical operator line (left.onLine line) (right.onLine line)
  | .comma operands => .comma (Expr.onLineEach line operands)
  | .conditional _ condition thenBranch elseBranch =>
    .conditional line (condition.onLine line) (thenBranch.onLine line) (elseBranch.onLine line)
  | .reference name binding => .reference (name.onLine line) binding
  | .assign name binding value => .assign (name.onLine line) binding (value.onLine line)
  | .property object name => .property (object.onLine line) (name.onLine line)
  | .call callee _ arguments => .call (callee.onLine line) line (Expr.onLineEach line arguments)
  | .function lambda => .function (lambda.onLine line)
  | .thisInstance _ binding => .thisInstance line binding
  | .superMethod _ binding method => .superMethod line binding (method.onLine line)

def Expr.onLineEach (line : Nat) : List (Expr β) → List (Expr β)
  | [] => []
  | expr :: rest => expr.onLine line :: Expr.onLineEach line rest

def Expr.onLinePart (line : Nat) : Option (Expr β) → Option (Expr β)
  | none => none
  | some expr => some (expr.onLine line)

def Target.onLine (line : Nat) : Target β → Target β
  | .name name binding => .name (name.onLine line) binding
  | .property object name => .property (object.onLine line) (name.onLine line)

def Target.onLineEach (line : Nat) : List (Target β) → List (Target β)
  | [] => []
  | target :: rest => target.onLine line :: Target.onLineEach line rest

def Stmt.onLine (line : Nat) : Stmt β → Stmt β
  | .expression value => .expression (value.onLine line)
  | .varDecl name initializer => .varDecl (name.onLine line) (Expr.onLinePart line initializer)
  | .assign targets value => .assign (Target.onLineEach line targets) (value.onLine line)
  | .set object name value => .set (object.onLine line) (name.onLine line) (value.onLine line)
  | .block body => .block (Stmt.onLineEach line body)
  | .branch condition thenBranch elseBranch =>
    .branch (condition.onLine line) (thenBranch.onLine line) (Stmt.onLinePart line elseBranch)
  | .whileLoop condition body => .whileLoop (condition.onLine line) (body.onLine line)
  | .forLoop initializer condition increment body =>
    .forLoop (Stmt.onLinePart line initializer) (Expr.onLinePart line condition)
      (Expr.onLinePart line increment) (body.onLine line)
  | .breakLoop _ => .breakLoop line
  | .continueLoop _ => .continueLoop line
  | .funDecl name lambda => .funDecl (name.onLine line) (lambda.onLine line)
  | .returnValue _ value => .returnValue line (Expr.onLinePart line value)
  | .classDecl name superclass methods =>
    .classDecl (name.onLine line) (superclass.map (·.onLine line)) (Method.onLineEach line methods)

def Stmt.onLineEach (line : Nat) : List (Stmt β) → List (Stmt β)
  | [] => []
  | stmt :: rest => stmt.onLine line :: Stmt.onLineEach line rest

def Stmt.onLinePart (line : Nat) : Option (Stmt β) → Option (Stmt β)
  | none => none
  | some stmt => some (stmt.onLine line)

def Lambda.onLine (line : Nat) : Lambda β → Lambda β
  | ⟨parameters, body⟩ => ⟨parameters.map (·.onLine line), Stmt.onLineEach line body⟩

def Method.onLine (line : Nat) : Method β → Method β
  | ⟨name, lambda⟩ => ⟨name.onLine line, lambda.onLine line⟩

def Method.onLineEach (line : Nat) : List (Method β) → List (Method β)
  | [] => []
  | method :: rest => method.onLine line :: Method.onLineEach line rest

end

end Lox
