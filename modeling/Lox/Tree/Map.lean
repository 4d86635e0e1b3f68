import Lox.Tree

/-!
# Changing what is known of occurrences

The same tree with another annotation on every occurrence of a name.
-/

namespace Lox

variable {β γ : Type}

def Superclass.map (f : β → γ) (superclass : Superclass β) : Superclass γ :=
  ⟨superclass.name, f superclass.binding⟩

mutual

def Expr.map (f : β → γ) : Expr β → Expr γ
  | .literal value => .literal value
  | .group inner => .group (inner.map f)
  | .unary operator line operand => .unary operator line (operand.map f)
  | .binary operator line left right => .binary operator line (left.map f) (right.map f)
  | .logical operator line left right => .logical operator line (left.map f) (right.map f)
  | .comma operands => .comma (Expr.mapEach f operands)
  | .conditional line condition thenBranch elseBranch =>
    .conditional line (condition.map f) (thenBranch.map f) (elseBranch.map f)
  | .reference name binding => .reference name (f binding)
  | .assign name binding value => .assign name (f binding) (value.map f)
  | .property object name => .property (object.map f) name
  | .call callee line arguments => .call (callee.map f) line (Expr.mapEach f arguments)
  | .function lambda => .function (lambda.map f)
  | .thisInstance line binding => .thisInstance line (f binding)
  | .superMethod line binding method => .superMethod line (f binding) method

def Expr.mapEach (f : β → γ) : List (Expr β) → List (Expr γ)
  | [] => []
  | expr :: rest => expr.map f :: Expr.mapEach f rest

def Expr.mapPart (f : β → γ) : Option (Expr β) → Option (Expr γ)
  | none => none
  | some expr => some (expr.map f)

def Target.map (f : β → γ) : Target β → Target γ
  | .name name binding => .name name (f binding)
  | .property object name => .property (object.map f) name

def Target.mapEach (f : β → γ) : List (Target β) → List (Target γ)
  | [] => []
  | target :: rest => target.map f :: Target.mapEach f rest

def Stmt.map (f : β → γ) : Stmt β → Stmt γ
  | .expression value => .expression (value.map f)
  | .varDecl name initializer => .varDecl name (Expr.mapPart f initializer)
  | .assign targets value => .assign (Target.mapEach f targets) (value.map f)
  | .set object name value => .set (object.map f) name (value.map f)
  | .block body => .block (Stmt.mapEach f body)
  | .branch condition thenBranch elseBranch =>
    .branch (condition.map f) (thenBranch.map f) (Stmt.mapPart f elseBranch)
  | .whileLoop condition body => .whileLoop (condition.map f) (body.map f)
  | .forLoop initializer condition increment body =>
    .forLoop (Stmt.mapPart f initializer) (Expr.mapPart f condition) (Expr.mapPart f increment)
      (body.map f)
  | .breakLoop line => .breakLoop line
  | .continueLoop line => .continueLoop line
  | .funDecl name lambda => .funDecl name (lambda.map f)
  | .returnValue line value => .returnValue line (Expr.mapPart f value)
  | .classDecl name superclass methods =>
    .classDecl name (superclass.map (·.map f)) (Method.mapEach f methods)

def Stmt.mapEach (f : β → γ) : List (Stmt β) → List (Stmt γ)
  | [] => []
  | stmt :: rest => stmt.map f :: Stmt.mapEach f rest

def Stmt.mapPart (f : β → γ) : Option (Stmt β) → Option (Stmt γ)
  | none => none
  | some stmt => some (stmt.map f)

def Lambda.map (f : β → γ) : Lambda β → Lambda γ
  | ⟨parameters, body⟩ => ⟨parameters, Stmt.mapEach f body⟩

def Method.map (f : β → γ) : Method β → Method γ
  | ⟨name, lambda⟩ => ⟨name, lambda.map f⟩

def Method.mapEach (f : β → γ) : List (Method β) → List (Method γ)
  | [] => []
  | method :: rest => method.map f :: Method.mapEach f rest

end

end Lox
