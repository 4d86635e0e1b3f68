import Lox.Proofs.Signals.Confinement

/-!
# Resolving only annotates

A tree whose names are resolved is the tree that it was, with a binding on each occurrence of a name.
So whatever can be said of a tree without looking at its annotations can be said of it before its names
are resolved as well as after.
-/

namespace Lox

/-- Takes away what is known about an occurrence. -/
def Binding.forget : Binding → Unit := fun _ => ()

mutual

theorem Expr.gives_self {s : Surroundings} (expr : Expr Unit) :
    Gives (fun resolved => resolved.map Binding.forget = expr) (expr.resolve s) := by
  cases expr with
  | literal value => exact .ok rfl
  | group inner => exact inner.gives_self.bind fun _ inner => .ok (congrArg Expr.group inner)
  | unary operator line operand =>
    exact operand.gives_self.bind fun _ operand => .ok (congrArg (Expr.unary operator line) operand)
  | binary operator line left right =>
    exact left.gives_self.bind fun _ left => right.gives_self.bind fun _ right =>
      .ok (congr (congrArg (Expr.binary operator line) left) right)
  | logical operator line left right =>
    exact left.gives_self.bind fun _ left => right.gives_self.bind fun _ right =>
      .ok (congr (congrArg (Expr.logical operator line) left) right)
  | comma operands =>
    exact (Expr.gives_selfEach operands).bind fun _ operands => .ok (congrArg Expr.comma operands)
  | conditional line condition thenBranch elseBranch =>
    refine condition.gives_self.bind fun _ condition => ?_
    refine thenBranch.gives_self.bind fun _ thenBranch => ?_
    refine elseBranch.gives_self.bind fun _ elseBranch => .ok ?_
    rw [Expr.map, condition, thenBranch, elseBranch]
  | reference name _ => exact .ok rfl
  | assign name _ value =>
    exact value.gives_self.bind fun _ value => .ok (congrArg (Expr.assign name ()) value)
  | property object name =>
    exact object.gives_self.bind fun _ object => .ok (congrArg (Expr.property · name) object)
  | call callee line arguments =>
    refine (Expr.gives_selfEach arguments).bind fun _ arguments => ?_
    refine callee.gives_self.bind fun _ callee => .ok ?_
    rw [Expr.map, arguments, callee]
  | function lambda =>
    exact lambda.gives_self.bind fun _ lambda => .ok (congrArg Expr.function lambda)
  | thisInstance line _ =>
    simp only [Expr.resolve]
    split
    · exact .error
    · exact .ok rfl
  | superMethod line _ method =>
    simp only [Expr.resolve]
    split
    · exact .error
    · exact .error
    · exact .ok rfl

theorem Expr.gives_selfEach {s : Surroundings} (exprs : List (Expr Unit)) :
    Gives (fun resolved => Expr.mapEach Binding.forget resolved = exprs)
      (Expr.resolveEach s exprs) := by
  cases exprs with
  | nil => exact .ok rfl
  | cons expr rest =>
    exact expr.gives_self.bind fun _ expr => (Expr.gives_selfEach rest).bind fun _ rest =>
      .ok (congr (congrArg List.cons expr) rest)

theorem Expr.gives_selfPart {s : Surroundings} (part : Option (Expr Unit)) :
    Gives (fun resolved => Expr.mapPart Binding.forget resolved = part)
      (Expr.resolvePart s part) := by
  cases part with
  | none => exact .ok rfl
  | some expr => exact expr.gives_self.bind fun _ expr => .ok (congrArg some expr)

theorem Target.gives_self {s : Surroundings} (target : Target Unit) :
    Gives (fun resolved => resolved.map Binding.forget = target) (target.resolve s) := by
  cases target with
  | name name _ => exact .ok rfl
  | property object name =>
    exact object.gives_self.bind fun _ object => .ok (congrArg (Target.property · name) object)

theorem Target.gives_selfEach {s : Surroundings} (targets : List (Target Unit)) :
    Gives (fun resolved => Target.mapEach Binding.forget resolved = targets)
      (Target.resolveEach s targets) := by
  cases targets with
  | nil => exact .ok rfl
  | cons target rest =>
    exact target.gives_self.bind fun _ target => (Target.gives_selfEach rest).bind fun _ rest =>
      .ok (congr (congrArg List.cons target) rest)

theorem Stmt.gives_self {s : Surroundings} (stmt : Stmt Unit) :
    Gives (fun resolved => resolved.map Binding.forget = stmt) (stmt.resolve s) := by
  cases stmt with
  | expression value =>
    exact value.gives_self.bind fun _ value => .ok (congrArg Stmt.expression value)
  | varDecl name initializer =>
    exact (Expr.gives_selfPart initializer).bind fun _ initializer =>
      .ok (congrArg (Stmt.varDecl name) initializer)
  | assign targets value =>
    exact value.gives_self.bind fun _ value => (Target.gives_selfEach targets).bind fun _ targets =>
      .ok (congr (congrArg Stmt.assign targets) value)
  | set object name value =>
    refine object.gives_self.bind fun _ object => value.gives_self.bind fun _ value => .ok ?_
    rw [Stmt.map, object, value]
  | block body =>
    exact (Stmt.gives_selfEach body).bind fun _ body => .ok (congrArg Stmt.block body)
  | branch condition thenBranch elseBranch =>
    refine condition.gives_self.bind fun _ condition => ?_
    refine thenBranch.gives_self.bind fun _ thenGiven => ?_
    refine (Stmt.gives_selfPart elseBranch).bind fun _ elseBranch => .ok ?_
    rw [Stmt.map, condition, thenGiven, elseBranch]
  | whileLoop condition body =>
    refine condition.gives_self.bind fun _ condition => body.gives_self.bind fun _ body => ?_
    exact .ok (congr (congrArg Stmt.whileLoop condition) body)
  | forLoop initializer condition increment body =>
    refine (Stmt.gives_selfPart initializer).bind fun _ initializer => ?_
    refine (Expr.gives_selfPart condition).bind fun _ condition => ?_
    refine (Expr.gives_selfPart increment).bind fun _ increment => ?_
    refine body.gives_self.bind fun _ body => .ok ?_
    rw [Stmt.map, initializer, condition, increment, body]
  | breakLoop line | continueLoop line =>
    simp only [Stmt.resolve]
    split
    · exact .ok rfl
    · exact .error
  | funDecl name lambda =>
    exact lambda.gives_self.bind fun _ lambda => .ok (congrArg (Stmt.funDecl name) lambda)
  | returnValue line value =>
    simp only [Stmt.resolve]
    split
    · exact (Expr.gives_selfPart value).bind fun _ value =>
        .ok (congrArg (Stmt.returnValue line) value)
    · exact .error
  | classDecl name superclass methods =>
    cases superclass with
    | none =>
      exact (Method.gives_selfEach methods).bind fun _ methods =>
        .ok (congrArg (Stmt.classDecl name none) methods)
    | some parent =>
      obtain ⟨parent, ⟨⟩⟩ := parent
      simp only [Stmt.resolve]
      split
      · exact .error
      · exact (Method.gives_selfEach methods).bind fun _ methods =>
          .ok (congrArg (Stmt.classDecl name (some ⟨parent, ()⟩)) methods)

theorem Stmt.gives_selfEach {s : Surroundings} (stmts : List (Stmt Unit)) :
    Gives (fun resolved => Stmt.mapEach Binding.forget resolved = stmts)
      (Stmt.resolveEach s stmts) := by
  cases stmts with
  | nil => exact .ok rfl
  | cons stmt rest =>
    exact stmt.gives_self.bind fun _ stmt => (Stmt.gives_selfEach rest).bind fun _ rest =>
      .ok (congr (congrArg List.cons stmt) rest)

theorem Stmt.gives_selfPart {s : Surroundings} (part : Option (Stmt Unit)) :
    Gives (fun resolved => Stmt.mapPart Binding.forget resolved = part)
      (Stmt.resolvePart s part) := by
  cases part with
  | none => exact .ok rfl
  | some stmt => exact stmt.gives_self.bind fun _ stmt => .ok (congrArg some stmt)

theorem Lambda.gives_self {s : Surroundings} (lambda : Lambda Unit) :
    Gives (fun resolved => resolved.map Binding.forget = lambda) (lambda.resolve s) := by
  obtain ⟨parameters, body⟩ := lambda
  exact (Stmt.gives_selfEach body).bind fun _ body => .ok (congrArg (Lambda.mk parameters) body)

theorem Method.gives_self {s : Surroundings} (method : Method Unit) :
    Gives (fun resolved => resolved.map Binding.forget = method) (method.resolve s) := by
  obtain ⟨name, lambda⟩ := method
  exact lambda.gives_self.bind fun _ lambda => .ok (congrArg (Method.mk name) lambda)

theorem Method.gives_selfEach {s : Surroundings} (methods : List (Method Unit)) :
    Gives (fun resolved => Method.mapEach Binding.forget resolved = methods)
      (Method.resolveEach s methods) := by
  cases methods with
  | nil => exact .ok rfl
  | cons method rest =>
    exact method.gives_self.bind fun _ method => (Method.gives_selfEach rest).bind fun _ rest =>
      .ok (congr (congrArg List.cons method) rest)

end

/-- The statements of a program are what they were, one by one. -/
theorem Stmt.mapEach_resolveTopLevel {stmts : List (Stmt Unit)} {resolved : List (Stmt Binding)}
    (resolves : Stmt.resolveTopLevel stmts = .ok resolved) :
    Stmt.mapEach Binding.forget resolved = stmts := by
  induction stmts generalizing resolved with
  | nil =>
    cases resolves
    rfl
  | cons stmt rest ih =>
    simp only [Stmt.resolveTopLevel] at resolves
    split at resolves
    · next first others resolvesFirst resolvesRest =>
      cases resolves
      exact congr (congrArg List.cons (stmt.gives_self first resolvesFirst)) (ih resolvesRest)
    all_goals cases resolves

end Lox
