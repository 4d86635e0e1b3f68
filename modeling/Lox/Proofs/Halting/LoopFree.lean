import Lox.Proofs.Checking.Erasure
import Lox.Session

/-!
# Trees without loops

A tree is free of loops if there is no `while` and no `for` in it, neither in its statements nor in the
body of any function, be it a literal, a declaration or a method. What is known about the occurrences
of names has nothing to do with that, and resolving names adds nothing else to a tree.
-/

namespace Lox

variable {β γ : Type}

mutual

/-- Whether no function in the expression has a loop. -/
def Expr.LoopFree : Expr β → Prop
  | .literal _ => True
  | .group inner => inner.LoopFree
  | .unary _ _ operand => operand.LoopFree
  | .binary _ _ left right => left.LoopFree ∧ right.LoopFree
  | .logical _ _ left right => left.LoopFree ∧ right.LoopFree
  | .comma operands => Expr.LoopFreeEach operands
  | .conditional _ condition thenBranch elseBranch =>
    condition.LoopFree ∧ thenBranch.LoopFree ∧ elseBranch.LoopFree
  | .reference _ _ => True
  | .assign _ _ value => value.LoopFree
  | .property object _ => object.LoopFree
  | .call callee _ arguments => Expr.LoopFreeEach arguments ∧ callee.LoopFree
  | .function lambda => lambda.LoopFree
  | .thisInstance _ _ => True
  | .superMethod _ _ _ => True

def Expr.LoopFreeEach : List (Expr β) → Prop
  | [] => True
  | expr :: rest => expr.LoopFree ∧ Expr.LoopFreeEach rest

def Expr.LoopFreePart : Option (Expr β) → Prop
  | none => True
  | some expr => expr.LoopFree

def Target.LoopFree : Target β → Prop
  | .name _ _ => True
  | .property object _ => object.LoopFree

def Target.LoopFreeEach : List (Target β) → Prop
  | [] => True
  | target :: rest => target.LoopFree ∧ Target.LoopFreeEach rest

/-- Whether neither the statement nor any function in it has a loop. -/
def Stmt.LoopFree : Stmt β → Prop
  | .expression value => value.LoopFree
  | .varDecl _ initializer => Expr.LoopFreePart initializer
  | .assign targets value => value.LoopFree ∧ Target.LoopFreeEach targets
  | .set object _ value => object.LoopFree ∧ value.LoopFree
  | .block body => Stmt.LoopFreeEach body
  | .branch condition thenBranch elseBranch =>
    condition.LoopFree ∧ thenBranch.LoopFree ∧ Stmt.LoopFreePart elseBranch
  | .whileLoop _ _ => False
  | .forLoop _ _ _ _ => False
  | .breakLoop _ => True
  | .continueLoop _ => True
  | .funDecl _ lambda => lambda.LoopFree
  | .returnValue _ value => Expr.LoopFreePart value
  | .classDecl _ _ methods => Method.LoopFreeEach methods

def Stmt.LoopFreeEach : List (Stmt β) → Prop
  | [] => True
  | stmt :: rest => stmt.LoopFree ∧ Stmt.LoopFreeEach rest

def Stmt.LoopFreePart : Option (Stmt β) → Prop
  | none => True
  | some stmt => stmt.LoopFree

def Lambda.LoopFree : Lambda β → Prop
  | ⟨_, body⟩ => Stmt.LoopFreeEach body

def Method.LoopFree : Method β → Prop
  | ⟨_, lambda⟩ => lambda.LoopFree

def Method.LoopFreeEach : List (Method β) → Prop
  | [] => True
  | method :: rest => method.LoopFree ∧ Method.LoopFreeEach rest

end

theorem Stmt.LoopFreeEach.of_mem {stmts : List (Stmt β)} {stmt : Stmt β}
    (free : Stmt.LoopFreeEach stmts) (member : stmt ∈ stmts) : stmt.LoopFree := by
  induction stmts with
  | nil => cases member
  | cons first rest ih =>
    cases member with
    | head => exact free.1
    | tail _ further => exact ih free.2 further

/-! ## Annotations -/

mutual

theorem Expr.loopFree_map (f : β → γ) (expr : Expr β) : (expr.map f).LoopFree ↔ expr.LoopFree := by
  cases expr with
  | group inner => exact inner.loopFree_map f
  | unary operator line operand => exact operand.loopFree_map f
  | binary operator line left right =>
    exact and_congr (left.loopFree_map f) (right.loopFree_map f)
  | logical operator line left right =>
    exact and_congr (left.loopFree_map f) (right.loopFree_map f)
  | comma operands => exact Expr.loopFreeEach_mapEach f operands
  | conditional line condition thenBranch elseBranch =>
    exact and_congr (condition.loopFree_map f)
      (and_congr (thenBranch.loopFree_map f) (elseBranch.loopFree_map f))
  | assign name binding value => exact value.loopFree_map f
  | property object name => exact object.loopFree_map f
  | call callee line arguments =>
    exact and_congr (Expr.loopFreeEach_mapEach f arguments) (callee.loopFree_map f)
  | function lambda => exact lambda.loopFree_map f
  | literal | reference | thisInstance | superMethod => exact .rfl

theorem Expr.loopFreeEach_mapEach (f : β → γ) (exprs : List (Expr β)) :
    Expr.LoopFreeEach (Expr.mapEach f exprs) ↔ Expr.LoopFreeEach exprs := by
  cases exprs with
  | nil => exact .rfl
  | cons expr rest => exact and_congr (expr.loopFree_map f) (Expr.loopFreeEach_mapEach f rest)

theorem Expr.loopFreePart_mapPart (f : β → γ) (part : Option (Expr β)) :
    Expr.LoopFreePart (Expr.mapPart f part) ↔ Expr.LoopFreePart part := by
  cases part with
  | none => exact .rfl
  | some expr => exact expr.loopFree_map f

theorem Target.loopFree_map (f : β → γ) (target : Target β) :
    (target.map f).LoopFree ↔ target.LoopFree := by
  cases target with
  | name name binding => exact .rfl
  | property object name => exact object.loopFree_map f

theorem Target.loopFreeEach_mapEach (f : β → γ) (targets : List (Target β)) :
    Target.LoopFreeEach (Target.mapEach f targets) ↔ Target.LoopFreeEach targets := by
  cases targets with
  | nil => exact .rfl
  | cons target rest => exact and_congr (target.loopFree_map f) (Target.loopFreeEach_mapEach f rest)

theorem Stmt.loopFree_map (f : β → γ) (stmt : Stmt β) : (stmt.map f).LoopFree ↔ stmt.LoopFree := by
  cases stmt with
  | expression value => exact value.loopFree_map f
  | varDecl name initializer => exact Expr.loopFreePart_mapPart f initializer
  | assign targets value =>
    exact and_congr (value.loopFree_map f) (Target.loopFreeEach_mapEach f targets)
  | set object name value => exact and_congr (object.loopFree_map f) (value.loopFree_map f)
  | block body => exact Stmt.loopFreeEach_mapEach f body
  | branch condition thenBranch elseBranch =>
    exact and_congr (condition.loopFree_map f)
      (and_congr (thenBranch.loopFree_map f) (Stmt.loopFreePart_mapPart f elseBranch))
  | funDecl name lambda => exact lambda.loopFree_map f
  | returnValue line value => exact Expr.loopFreePart_mapPart f value
  | classDecl name superclass methods => exact Method.loopFreeEach_mapEach f methods
  | whileLoop | forLoop | breakLoop | continueLoop => exact .rfl

theorem Stmt.loopFreeEach_mapEach (f : β → γ) (stmts : List (Stmt β)) :
    Stmt.LoopFreeEach (Stmt.mapEach f stmts) ↔ Stmt.LoopFreeEach stmts := by
  cases stmts with
  | nil => exact .rfl
  | cons stmt rest => exact and_congr (stmt.loopFree_map f) (Stmt.loopFreeEach_mapEach f rest)

theorem Stmt.loopFreePart_mapPart (f : β → γ) (part : Option (Stmt β)) :
    Stmt.LoopFreePart (Stmt.mapPart f part) ↔ Stmt.LoopFreePart part := by
  cases part with
  | none => exact .rfl
  | some stmt => exact stmt.loopFree_map f

theorem Lambda.loopFree_map (f : β → γ) (lambda : Lambda β) :
    (lambda.map f).LoopFree ↔ lambda.LoopFree := by
  obtain ⟨parameters, body⟩ := lambda
  exact Stmt.loopFreeEach_mapEach f body

theorem Method.loopFree_map (f : β → γ) (method : Method β) :
    (method.map f).LoopFree ↔ method.LoopFree := by
  obtain ⟨name, lambda⟩ := method
  exact lambda.loopFree_map f

theorem Method.loopFreeEach_mapEach (f : β → γ) (methods : List (Method β)) :
    Method.LoopFreeEach (Method.mapEach f methods) ↔ Method.LoopFreeEach methods := by
  cases methods with
  | nil => exact .rfl
  | cons method rest => exact and_congr (method.loopFree_map f) (Method.loopFreeEach_mapEach f rest)

end

/-! ## Programs -/

/-- A program that is prepared to run, with its names resolved or not, has no loop if it had none. -/
theorem Stmt.LoopFreeEach.prepared {mode : Session.Mode} {stmts : List (Stmt Unit)}
    {ready : List (Stmt Binding)} (free : Stmt.LoopFreeEach stmts)
    (prepares : Session.prepared mode stmts = .ok ready) : Stmt.LoopFreeEach ready := by
  unfold Session.prepared at prepares
  split at prepares
  · rwa [← Stmt.loopFreeEach_mapEach Binding.forget, Stmt.mapEach_resolveTopLevel prepares]
  · cases prepares
    exact (Stmt.loopFreeEach_mapEach _ stmts).mpr free

end Lox
