import Lox.Binding

/-!
# Confined signals

A tree is confined if its signals stay where something waits for them: `break` and `continue` in a
loop of the same function, `return` in a function. That holds of every function in the tree too, be
it a literal, a declaration or a method, which starts with no loop around it. Whatever resolves is
confined.
-/

namespace Lox

variable {β : Type}

mutual

/-- Whether every function in the expression is confined. -/
def Expr.Confined : Expr β → Prop
  | .literal _ => True
  | .group inner => inner.Confined
  | .unary _ _ operand => operand.Confined
  | .binary _ _ left right => left.Confined ∧ right.Confined
  | .logical _ _ left right => left.Confined ∧ right.Confined
  | .comma operands => Expr.ConfinedEach operands
  | .conditional _ condition thenBranch elseBranch =>
    condition.Confined ∧ thenBranch.Confined ∧ elseBranch.Confined
  | .reference _ _ => True
  | .assign _ _ value => value.Confined
  | .property object _ => object.Confined
  | .call callee _ arguments => Expr.ConfinedEach arguments ∧ callee.Confined
  | .function lambda => lambda.Confined
  | .thisInstance _ _ => True
  | .superMethod _ _ _ => True

def Expr.ConfinedEach : List (Expr β) → Prop
  | [] => True
  | expr :: rest => expr.Confined ∧ Expr.ConfinedEach rest

def Expr.ConfinedPart : Option (Expr β) → Prop
  | none => True
  | some expr => expr.Confined

def Target.Confined : Target β → Prop
  | .name _ _ => True
  | .property object _ => object.Confined

def Target.ConfinedEach : List (Target β) → Prop
  | [] => True
  | target :: rest => target.Confined ∧ Target.ConfinedEach rest

/-- Whether the statement is confined, given whether it is in a loop and in a function. -/
def Stmt.Confined (inLoop inFunction : Bool) : Stmt β → Prop
  | .expression value => value.Confined
  | .varDecl _ initializer => Expr.ConfinedPart initializer
  | .assign targets value => value.Confined ∧ Target.ConfinedEach targets
  | .set object _ value => object.Confined ∧ value.Confined
  | .block body => Stmt.ConfinedEach inLoop inFunction body
  | .branch condition thenBranch elseBranch =>
    condition.Confined ∧ thenBranch.Confined inLoop inFunction ∧
      Stmt.ConfinedPart inLoop inFunction elseBranch
  | .whileLoop condition body => condition.Confined ∧ body.Confined true inFunction
  | .forLoop initializer condition increment body =>
    Stmt.ConfinedPart inLoop inFunction initializer ∧ Expr.ConfinedPart condition ∧
      Expr.ConfinedPart increment ∧ body.Confined true inFunction
  | .breakLoop _ => inLoop = true
  | .continueLoop _ => inLoop = true
  | .funDecl _ lambda => lambda.Confined
  | .returnValue _ value => inFunction = true ∧ Expr.ConfinedPart value
  | .classDecl _ _ methods => Method.ConfinedEach methods

def Stmt.ConfinedEach (inLoop inFunction : Bool) : List (Stmt β) → Prop
  | [] => True
  | stmt :: rest =>
    stmt.Confined inLoop inFunction ∧ Stmt.ConfinedEach inLoop inFunction rest

def Stmt.ConfinedPart (inLoop inFunction : Bool) : Option (Stmt β) → Prop
  | none => True
  | some stmt => stmt.Confined inLoop inFunction

def Lambda.Confined : Lambda β → Prop
  | ⟨_, body⟩ => Stmt.ConfinedEach false true body

def Method.Confined : Method β → Prop
  | ⟨_, lambda⟩ => lambda.Confined

def Method.ConfinedEach : List (Method β) → Prop
  | [] => True
  | method :: rest => method.Confined ∧ Method.ConfinedEach rest

end

theorem Lambda.Confined.body {lambda : Lambda β} (confined : lambda.Confined) :
    Stmt.ConfinedEach false true lambda.body := by
  obtain ⟨parameters, body⟩ := lambda
  exact confined

/-! ## What resolving gives -/

/-- If anything was given, it is as it should be. -/
def Gives {ε α : Type} (post : α → Prop) (made : Except ε α) : Prop :=
  ∀ value, made = .ok value → post value

namespace Gives

variable {ε α γ : Type} {post : α → Prop} {last : γ → Prop}

theorem ok {value : α} (holds : post value) : Gives post (.ok value : Except ε α) := by
  intro other same
  cases same
  exact holds

theorem error {problem : ε} : Gives post (.error problem : Except ε α) := nofun

theorem bind {first : Except ε α} {rest : α → Except ε γ} (given : Gives post first)
    (further : ∀ value, post value → Gives last (rest value)) : Gives last (first >>= rest) := by
  cases first with
  | error problem => exact error
  | ok value => exact further value (given value rfl)

end Gives

mutual

theorem Expr.gives_confined {s : Surroundings} (expr : Expr Unit) :
    Gives Expr.Confined (expr.resolve s) := by
  cases expr with
  | literal value => exact .ok trivial
  | group inner => exact inner.gives_confined.bind fun _ inner => .ok inner
  | unary operator line operand => exact operand.gives_confined.bind fun _ operand => .ok operand
  | binary operator line left right =>
    exact left.gives_confined.bind fun _ left => right.gives_confined.bind fun _ right =>
      .ok ⟨left, right⟩
  | logical operator line left right =>
    exact left.gives_confined.bind fun _ left => right.gives_confined.bind fun _ right =>
      .ok ⟨left, right⟩
  | comma operands =>
    exact (Expr.gives_confinedEach operands).bind fun _ operands => .ok operands
  | conditional line condition thenBranch elseBranch =>
    exact condition.gives_confined.bind fun _ condition =>
      thenBranch.gives_confined.bind fun _ thenBranch =>
        elseBranch.gives_confined.bind fun _ elseBranch => .ok ⟨condition, thenBranch, elseBranch⟩
  | reference name _ => exact .ok trivial
  | assign name _ value => exact value.gives_confined.bind fun _ value => .ok value
  | property object name => exact object.gives_confined.bind fun _ object => .ok object
  | call callee line arguments =>
    exact (Expr.gives_confinedEach arguments).bind fun _ arguments =>
      callee.gives_confined.bind fun _ callee => .ok ⟨arguments, callee⟩
  | function lambda => exact lambda.gives_confined.bind fun _ lambda => .ok lambda
  | thisInstance line _ =>
    simp only [Expr.resolve]
    split
    · exact .error
    · exact .ok trivial
  | superMethod line _ method =>
    simp only [Expr.resolve]
    split
    · exact .error
    · exact .error
    · exact .ok trivial

theorem Expr.gives_confinedEach {s : Surroundings} (exprs : List (Expr Unit)) :
    Gives Expr.ConfinedEach (Expr.resolveEach s exprs) := by
  cases exprs with
  | nil => exact .ok trivial
  | cons expr rest =>
    exact expr.gives_confined.bind fun _ expr => (Expr.gives_confinedEach rest).bind fun _ rest =>
      .ok ⟨expr, rest⟩

theorem Expr.gives_confinedPart {s : Surroundings} (part : Option (Expr Unit)) :
    Gives Expr.ConfinedPart (Expr.resolvePart s part) := by
  cases part with
  | none => exact .ok trivial
  | some expr => exact expr.gives_confined.bind fun _ expr => .ok expr

theorem Target.gives_confined {s : Surroundings} (target : Target Unit) :
    Gives Target.Confined (target.resolve s) := by
  cases target with
  | name name _ => exact .ok trivial
  | property object name => exact object.gives_confined.bind fun _ object => .ok object

theorem Target.gives_confinedEach {s : Surroundings} (targets : List (Target Unit)) :
    Gives Target.ConfinedEach (Target.resolveEach s targets) := by
  cases targets with
  | nil => exact .ok trivial
  | cons target rest =>
    exact target.gives_confined.bind fun _ target =>
      (Target.gives_confinedEach rest).bind fun _ rest => .ok ⟨target, rest⟩

theorem Stmt.gives_confined {s : Surroundings} (stmt : Stmt Unit) :
    Gives (Stmt.Confined s.inLoop s.inFunction) (stmt.resolve s) := by
  cases stmt with
  | expression value => exact value.gives_confined.bind fun _ value => .ok value
  | varDecl name initializer =>
    exact (Expr.gives_confinedPart initializer).bind fun _ initializer => .ok initializer
  | assign targets value =>
    exact value.gives_confined.bind fun _ value =>
      (Target.gives_confinedEach targets).bind fun _ targets => .ok ⟨value, targets⟩
  | set object name value =>
    exact object.gives_confined.bind fun _ object => value.gives_confined.bind fun _ value =>
      .ok ⟨object, value⟩
  | block body => exact (Stmt.gives_confinedEach body).bind fun _ body => .ok body
  | branch condition thenBranch elseBranch =>
    refine condition.gives_confined.bind fun _ condition => ?_
    refine (Stmt.gives_confined (s := s.enter []) thenBranch).bind fun _ thenGiven => ?_
    refine (Stmt.gives_confinedPart
      (s := (s.enter []).after thenBranch.declaredName?) elseBranch).bind fun _ elseGiven => ?_
    -- The other branch is resolved behind what the first one declares, but in the same loop.
    rw [Surroundings.inLoop_after, Surroundings.inFunction_after] at elseGiven
    exact .ok ⟨condition, thenGiven, elseGiven⟩
  | whileLoop condition body =>
    refine condition.gives_confined.bind fun _ condition => ?_
    exact (Stmt.gives_confined body).bind fun _ body => .ok ⟨condition, body⟩
  | forLoop initializer condition increment body =>
    let inside := (s.enter []).after (initializer.bind Stmt.declaredName?)
    refine (Stmt.gives_confinedPart (s := s.enter []) initializer).bind fun _ initializer => ?_
    refine (Expr.gives_confinedPart condition).bind fun _ condition => ?_
    refine (Expr.gives_confinedPart increment).bind fun _ increment => ?_
    refine (Stmt.gives_confined (s := inside.enterLoop) body).bind fun _ bodyGiven => ?_
    -- Only the body is in the loop; its other parts have nothing in them that could leave it.
    have inFunction : inside.enterLoop.inFunction = s.inFunction :=
      Surroundings.inFunction_after (s.enter []) _
    rw [inFunction] at bodyGiven
    exact .ok ⟨initializer, condition, increment, bodyGiven⟩
  | breakLoop line | continueLoop line =>
    simp only [Stmt.resolve]
    split
    · next inside => exact .ok inside
    · exact .error
  | funDecl name lambda => exact lambda.gives_confined.bind fun _ lambda => .ok lambda
  | returnValue line value =>
    simp only [Stmt.resolve]
    split
    · next inside =>
      exact (Expr.gives_confinedPart value).bind fun _ value => .ok ⟨inside, value⟩
    · exact .error
  | classDecl name superclass methods =>
    cases superclass with
    | none => exact (Method.gives_confinedEach methods).bind fun _ methods => .ok methods
    | some parent =>
      obtain ⟨parent, ⟨⟩⟩ := parent
      simp only [Stmt.resolve]
      split
      · exact .error
      · exact (Method.gives_confinedEach methods).bind fun _ methods => .ok methods

theorem Stmt.gives_confinedEach {s : Surroundings} (stmts : List (Stmt Unit)) :
    Gives (Stmt.ConfinedEach s.inLoop s.inFunction) (Stmt.resolveEach s stmts) := by
  cases stmts with
  | nil => exact .ok trivial
  | cons stmt rest =>
    refine stmt.gives_confined.bind fun _ stmtGiven => ?_
    refine (Stmt.gives_confinedEach rest).bind fun _ restGiven => ?_
    rw [Surroundings.inLoop_after, Surroundings.inFunction_after] at restGiven
    exact .ok ⟨stmtGiven, restGiven⟩

theorem Stmt.gives_confinedPart {s : Surroundings} (part : Option (Stmt Unit)) :
    Gives (Stmt.ConfinedPart s.inLoop s.inFunction) (Stmt.resolvePart s part) := by
  cases part with
  | none => exact .ok trivial
  | some stmt => exact stmt.gives_confined.bind fun _ stmt => .ok stmt

theorem Lambda.gives_confined {s : Surroundings} (lambda : Lambda Unit) :
    Gives Lambda.Confined (lambda.resolve s) := by
  obtain ⟨parameters, body⟩ := lambda
  exact (Stmt.gives_confinedEach body).bind fun _ body => .ok body

theorem Method.gives_confined {s : Surroundings} (method : Method Unit) :
    Gives Method.Confined (method.resolve s) := by
  obtain ⟨name, lambda⟩ := method
  exact lambda.gives_confined.bind fun _ lambda => .ok lambda

theorem Method.gives_confinedEach {s : Surroundings} (methods : List (Method Unit)) :
    Gives Method.ConfinedEach (Method.resolveEach s methods) := by
  cases methods with
  | nil => exact .ok trivial
  | cons method rest =>
    exact method.gives_confined.bind fun _ method =>
      (Method.gives_confinedEach rest).bind fun _ rest => .ok ⟨method, rest⟩

end

end Lox
