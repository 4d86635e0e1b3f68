import Lox.Tree.Map

/-!
# Bindings

Before a program runs, every occurrence of a name is told where its binding lives: so many scopes
further out, or among the globals. The scopes are those that the program will have entered when it
comes to the occurrence, and the same walk finds what can be wrong with a program whatever its
values: a `break` outside of a loop, a `return` outside of a function, `this` and `super` where
there is none, a class that extends itself.

A name is visible from its declaration to the end of its scope; globals are not tracked.
-/

namespace Lox

/-- Where an occurrence of a name finds its value. -/
inductive Binding where
  /-- Among the globals, whatever they are when the occurrence is reached. -/
  | global
  /-- In the scope so many scopes further out. -/
  | lexical (distance : Nat)
  deriving DecidableEq, Repr

/-! ## Errors -/

inductive StaticProblem where
  | outsideLoop (keyword : Keyword)
  | returnFromTopLevel
  | thisOutsideClass
  | superOutsideClass
  | superWithoutSuperclass
  | inheritsFromItself
  deriving DecidableEq, Repr

def StaticProblem.message : StaticProblem → String
  | outsideLoop keyword => "Can't use '" ++ keyword.lexeme ++ "' outside of a loop."
  | returnFromTopLevel => "Can't return from top-level code."
  | thisOutsideClass => "Can't use 'this' outside of a class."
  | superOutsideClass => "Can't use 'super' outside of a class."
  | superWithoutSuperclass => "Can't use 'super' in a class with no superclass."
  | inheritsFromItself => "A class can't inherit from itself."

/-- A problem, at the token that causes it. -/
structure StaticError where
  problem : StaticProblem
  token : Token
  deriving DecidableEq, Repr

/-! ## Scopes -/

/-- The names in each scope that is open, innermost first. -/
abbrev Scopes := List (List String)

namespace Scopes

/-- Adds a name to the innermost scope. Among the globals nothing is tracked. -/
def declare (name : String) : Scopes → Scopes
  | [] => []
  | innermost :: outer => (name :: innermost) :: outer

/-- The binding of a name: the innermost scope that holds it. -/
def binding (scopes : Scopes) (name : String) : Binding :=
  match scopes.findIdx? (·.contains name) with
  | some distance => .lexical distance
  | none => .global

end Scopes

/-- The names under which a method's instance and a class's superclass are bound. No identifier is
spelled so. -/
def thisName : String := Keyword.kwThis.lexeme

def superName : String := Keyword.kwSuper.lexeme

/-- The class around some code. -/
inductive ClassContext where
  | outside
  | withoutSuperclass
  | withSuperclass
  deriving DecidableEq, Repr

/-- What surrounds some code, as far as it decides what the code may do. -/
structure Surroundings where
  scopes : Scopes
  inFunction : Bool
  inLoop : Bool
  inClass : ClassContext
  deriving DecidableEq, Repr

namespace Surroundings

/-- Around top-level code there is nothing. -/
def topLevel : Surroundings := ⟨[], false, false, .outside⟩

/-- Inside a new scope with some names. -/
def enter (names : List String) (s : Surroundings) : Surroundings :=
  { s with scopes := names :: s.scopes }

def declare (name : String) (s : Surroundings) : Surroundings :=
  { s with scopes := s.scopes.declare name }

/-- After a statement, given the name it declares. -/
def after (name : Option String) (s : Surroundings) : Surroundings :=
  match name with
  | some name => s.declare name
  | none => s

theorem inLoop_after (s : Surroundings) (name : Option String) :
    (s.after name).inLoop = s.inLoop := by
  cases name <;> rfl

theorem inFunction_after (s : Surroundings) (name : Option String) :
    (s.after name).inFunction = s.inFunction := by
  cases name <;> rfl

/-- Inside a loop's body. -/
def enterLoop (s : Surroundings) : Surroundings := { s with inLoop := true }

/-- Inside a function with some parameters. Loops around the function do not count in it. -/
def enterFunction (parameters : List Name) (s : Surroundings) : Surroundings :=
  { s with
    scopes := (parameters.map (·.text)) :: s.scopes
    inFunction := true
    inLoop := false }

/-- Inside a class. -/
def enterClass (inClass : ClassContext) (s : Surroundings) : Surroundings :=
  { s with inClass := inClass }

def binding (s : Surroundings) (name : String) : Binding := s.scopes.binding name

end Surroundings

/-! ## Resolving names -/

/-- The name that a statement declares in its own scope. -/
def Stmt.declaredName? {β : Type} : Stmt β → Option String
  | .varDecl name _ => some name.text
  | .funDecl name _ => some name.text
  | .classDecl name _ _ => some name.text
  | _ => none

theorem Stmt.declaredName?_map {β γ : Type} (f : β → γ) (stmt : Stmt β) :
    (stmt.map f).declaredName? = stmt.declaredName? := by
  cases stmt <;> rfl

mutual

def Expr.resolve (s : Surroundings) : Expr Unit → Except StaticError (Expr Binding)
  | .literal value => .ok (.literal value)
  | .group inner => do
    let inner ← inner.resolve s
    .ok (.group inner)
  | .unary operator line operand => do
    let operand ← operand.resolve s
    .ok (.unary operator line operand)
  | .binary operator line left right => do
    let left ← left.resolve s
    let right ← right.resolve s
    .ok (.binary operator line left right)
  | .logical operator line left right => do
    let left ← left.resolve s
    let right ← right.resolve s
    .ok (.logical operator line left right)
  | .comma operands => do
    let operands ← Expr.resolveEach s operands
    .ok (.comma operands)
  | .conditional line condition thenBranch elseBranch => do
    let condition ← condition.resolve s
    let thenBranch ← thenBranch.resolve s
    let elseBranch ← elseBranch.resolve s
    .ok (.conditional line condition thenBranch elseBranch)
  | .reference name () => .ok (.reference name (s.binding name.text))
  | .assign name () value => do
    let value ← value.resolve s
    .ok (.assign name (s.binding name.text) value)
  | .property object name => do
    let object ← object.resolve s
    .ok (.property object name)
  | .call callee line arguments => do
    let arguments ← Expr.resolveEach s arguments
    let callee ← callee.resolve s
    .ok (.call callee line arguments)
  | .function lambda => do
    let lambda ← lambda.resolve s
    .ok (.function lambda)
  | .thisInstance line () =>
    match s.inClass with
    | .outside => .error ⟨.thisOutsideClass, Keyword.kwThis.token line⟩
    | _ => .ok (.thisInstance line (s.binding thisName))
  | .superMethod line () method =>
    match s.inClass with
    | .outside => .error ⟨.superOutsideClass, Keyword.kwSuper.token line⟩
    | .withoutSuperclass => .error ⟨.superWithoutSuperclass, Keyword.kwSuper.token line⟩
    | .withSuperclass => .ok (.superMethod line (s.binding superName) method)

def Expr.resolveEach (s : Surroundings) :
    List (Expr Unit) → Except StaticError (List (Expr Binding))
  | [] => .ok []
  | expr :: rest => do
    let expr ← expr.resolve s
    let rest ← Expr.resolveEach s rest
    .ok (expr :: rest)

def Expr.resolvePart (s : Surroundings) :
    Option (Expr Unit) → Except StaticError (Option (Expr Binding))
  | none => .ok none
  | some expr => do
    let expr ← expr.resolve s
    .ok (some expr)

def Target.resolve (s : Surroundings) : Target Unit → Except StaticError (Target Binding)
  | .name name () => .ok (.name name (s.binding name.text))
  | .property object name => do
    let object ← object.resolve s
    .ok (.property object name)

def Target.resolveEach (s : Surroundings) :
    List (Target Unit) → Except StaticError (List (Target Binding))
  | [] => .ok []
  | target :: rest => do
    let target ← target.resolve s
    let rest ← Target.resolveEach s rest
    .ok (target :: rest)

/-- Resolves the names of a statement. A variable's initializer does not see the variable; a
function and a class see themselves. -/
def Stmt.resolve (s : Surroundings) : Stmt Unit → Except StaticError (Stmt Binding)
  | .expression value => do
    let value ← value.resolve s
    .ok (.expression value)
  | .varDecl name initializer => do
    let initializer ← Expr.resolvePart s initializer
    .ok (.varDecl name initializer)
  | .assign targets value => do
    let value ← value.resolve s
    let targets ← Target.resolveEach s targets
    .ok (.assign targets value)
  | .set object name value => do
    let object ← object.resolve s
    let value ← value.resolve s
    .ok (.set object name value)
  | .block body => do
    let body ← Stmt.resolveEach (s.enter []) body
    .ok (.block body)
  | .branch condition thenBranch elseBranch => do
    let inside := s.enter []
    let condition ← condition.resolve inside
    let resolvedThen ← thenBranch.resolve inside
    let elseBranch ← Stmt.resolvePart (inside.after thenBranch.declaredName?) elseBranch
    .ok (.branch condition resolvedThen elseBranch)
  | .whileLoop condition body => do
    let inside := s.enter []
    let condition ← condition.resolve inside
    let body ← body.resolve inside.enterLoop
    .ok (.whileLoop condition body)
  | .forLoop initializer condition increment body => do
    let resolvedInitializer ← Stmt.resolvePart (s.enter []) initializer
    let inside := (s.enter []).after (initializer.bind Stmt.declaredName?)
    let condition ← Expr.resolvePart inside condition
    let increment ← Expr.resolvePart inside increment
    let body ← body.resolve inside.enterLoop
    .ok (.forLoop resolvedInitializer condition increment body)
  | .breakLoop line =>
    if s.inLoop then .ok (.breakLoop line)
    else .error ⟨.outsideLoop .kwBreak, Keyword.kwBreak.token line⟩
  | .continueLoop line =>
    if s.inLoop then .ok (.continueLoop line)
    else .error ⟨.outsideLoop .kwContinue, Keyword.kwContinue.token line⟩
  | .funDecl name lambda => do
    let lambda ← lambda.resolve (s.declare name.text)
    .ok (.funDecl name lambda)
  | .returnValue line value =>
    if s.inFunction then do
      let value ← Expr.resolvePart s value
      .ok (.returnValue line value)
    else .error ⟨.returnFromTopLevel, Keyword.kwReturn.token line⟩
  | .classDecl name none methods => do
    let methods ← Method.resolveEach ((s.declare name.text).enterClass .withoutSuperclass) methods
    .ok (.classDecl name none methods)
  | .classDecl name (some ⟨parent, ()⟩) methods =>
    if parent.text = name.text then .error ⟨.inheritsFromItself, parent.token⟩
    else do
      let inside := (s.declare name.text).enterClass .withSuperclass
      let superclass : Superclass Binding := ⟨parent, inside.binding parent.text⟩
      let methods ← Method.resolveEach (inside.enter [superName]) methods
      .ok (.classDecl name (some superclass) methods)

/-- Resolves statements that follow each other: each one sees what the ones before it declared. -/
def Stmt.resolveEach (s : Surroundings) :
    List (Stmt Unit) → Except StaticError (List (Stmt Binding))
  | [] => .ok []
  | stmt :: rest => do
    let resolved ← stmt.resolve s
    let rest ← Stmt.resolveEach (s.after stmt.declaredName?) rest
    .ok (resolved :: rest)

def Stmt.resolvePart (s : Surroundings) :
    Option (Stmt Unit) → Except StaticError (Option (Stmt Binding))
  | none => .ok none
  | some stmt => do
    let stmt ← stmt.resolve s
    .ok (some stmt)

def Lambda.resolve (s : Surroundings) : Lambda Unit → Except StaticError (Lambda Binding)
  | ⟨parameters, body⟩ => do
    let body ← Stmt.resolveEach (s.enterFunction parameters) body
    .ok ⟨parameters, body⟩

/-- Resolves a method, which runs in a scope of its own that binds its instance. -/
def Method.resolve (s : Surroundings) : Method Unit → Except StaticError (Method Binding)
  | ⟨name, lambda⟩ => do
    let lambda ← lambda.resolve (s.enter [thisName])
    .ok ⟨name, lambda⟩

def Method.resolveEach (s : Surroundings) :
    List (Method Unit) → Except StaticError (List (Method Binding))
  | [] => .ok []
  | method :: rest => do
    let method ← method.resolve s
    let rest ← Method.resolveEach s rest
    .ok (method :: rest)

end

/-! ## Whole programs -/

/-- A program as the names of it are resolved: its statements, or what is wrong with it. Globals
are not tracked, so each statement at the top level stands by itself, and each one that is wrong
adds its first error. -/
def Stmt.resolveTopLevel : List (Stmt Unit) → Except (List StaticError) (List (Stmt Binding))
  | [] => .ok []
  | stmt :: rest =>
    match stmt.resolve .topLevel, resolveTopLevel rest with
    | .ok stmt, .ok rest => .ok (stmt :: rest)
    | .ok _, .error errors => .error errors
    | .error error, .ok _ => .error [error]
    | .error error, .error errors => .error (error :: errors)

/-- The statements of a program whose names are left unresolved: every occurrence is looked up
among the globals. -/
def Stmt.unresolved (stmts : List (Stmt Unit)) : List (Stmt Binding) :=
  Stmt.mapEach (fun _ => .global) stmts

end Lox
