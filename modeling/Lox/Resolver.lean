import Lox.Binding
import Lox.Tree.Annotations

/-!
# The resolver

Names are resolved in one walk over a program. What the walk needs to know of the code around it, it
keeps in a state that it changes on its way: the scopes that are open, the loops it is in, and what kind
of function and of class. What surrounds some code is put in place before the code and taken back after
it, also where something is found to be wrong with the code.

Nothing is written into the tree. Each occurrence of a name has a *site*, which no other occurrence
has, and those that are bound in a scope are noted in a table, from where running the program takes
them.
-/

namespace Lox

/-! ## Sites -/

/-- What tells an occurrence of a name from all the others. -/
abbrev Site := Nat

/-- The occurrences that are bound in a scope, and how many scopes further out. Of two notes of one
site the first one counts, which is the later one. -/
abbrev Locals := List (Site × Nat)

namespace Locals

def note (locals : Locals) (site : Site) (distance : Nat) : Locals := (site, distance) :: locals

/-- How many scopes further out an occurrence is bound, if it is bound in a scope. -/
def distance? (locals : Locals) (site : Site) : Option Nat := locals.lookup site

/-- Where an occurrence finds its value. One that is not noted is a global. -/
def binding (locals : Locals) (site : Site) : Binding :=
  match locals.distance? site with
  | some distance => .lexical distance
  | none => .global

end Locals

/-! ## The state -/

/-- A resolver on its way through a program. -/
structure Resolver where
  scopes : Scopes
  inFunction : Bool
  /-- How many loops of the function are around. -/
  loopDepth : Nat
  inClass : ClassContext
  locals : Locals
  deriving DecidableEq, Repr

/-- A resolver before a program, with the notes of the programs before it. -/
def Resolver.start (locals : Locals) : Resolver := ⟨[], false, 0, .outside, locals⟩

/-- Where an occurrence finds its value is noted of it. A global has no note. -/
def Resolver.noting (site : Site) (binding : Binding) (r : Resolver) : Resolver :=
  match binding with
  | .lexical distance => { r with locals := r.locals.note site distance }
  | .global => r

/-- A part of the way through a program. The first error ends it, in the state it was found in. -/
abbrev Walk := EStateM StaticError Resolver Unit

namespace Walk

/-- Changes the resolver for a part of the way, and changes it back however that part ends. -/
def around (enter : Resolver → Resolver) (leave : Resolver → Resolver → Resolver) (walk : Walk) :
    Walk := fun before =>
  match walk (enter before) with
  | .ok () after => .ok () (leave before after)
  | .error error after => .error error (leave before after)

/-- A part of the way in a new scope. -/
def within (names : List String) : Walk → Walk :=
  around (fun r => { r with scopes := names :: r.scopes })
    fun _ after => { after with scopes := after.scopes.tail }

/-- A part of the way in the body of a loop. -/
def inLoop : Walk → Walk :=
  around (fun r => { r with loopDepth := r.loopDepth + 1 })
    fun _ after => { after with loopDepth := after.loopDepth - 1 }

/-- A part of the way in a function, where the loops around the function do not count. -/
def inFunction : Walk → Walk :=
  around (fun r => { r with inFunction := true, loopDepth := 0 })
    fun before after =>
      { after with inFunction := before.inFunction, loopDepth := before.loopDepth }

/-- A part of the way in a class, about which more may turn out on the way. -/
def inClass (inClass : ClassContext) : Walk → Walk :=
  around (fun r => { r with inClass := inClass })
    fun before after => { after with inClass := before.inClass }

/-- From here on the class is known to have a superclass. -/
def enterSubclass : Walk := modify fun r => { r with inClass := .withSuperclass }

/-- Makes a name visible from here to the end of the innermost scope. -/
def declare (name : String) : Walk := modify fun r => { r with scopes := r.scopes.declare name }

def declareEach : List Name → Walk
  | [] => pure ()
  | name :: rest => do
    declare name.text
    declareEach rest

/-- Notes an occurrence of a name, if the name is bound in a scope. -/
def resolve (name : String) (site : Site) : Walk :=
  modify fun r => r.noting site (r.scopes.binding name)

end Walk

/-! ## The way through a tree -/

mutual

def Expr.walk : Expr Site → Walk
  | .literal _ => pure ()
  | .group inner => inner.walk
  | .unary _ _ operand => operand.walk
  | .binary _ _ left right => do
    left.walk
    right.walk
  | .logical _ _ left right => do
    left.walk
    right.walk
  | .comma operands => Expr.walkEach operands
  | .conditional _ condition thenBranch elseBranch => do
    condition.walk
    thenBranch.walk
    elseBranch.walk
  | .reference name site => Walk.resolve name.text site
  | .assign name site value => do
    value.walk
    Walk.resolve name.text site
  | .property object _ => object.walk
  | .call callee _ arguments => do
    Expr.walkEach arguments
    callee.walk
  | .function lambda => lambda.walk
  | .thisInstance line site => do
    match (← get).inClass with
    | .outside => throw ⟨.thisOutsideClass, Keyword.kwThis.token line⟩
    | _ => Walk.resolve thisName site
  | .superMethod line site _ => do
    match (← get).inClass with
    | .outside => throw ⟨.superOutsideClass, Keyword.kwSuper.token line⟩
    | .withoutSuperclass => throw ⟨.superWithoutSuperclass, Keyword.kwSuper.token line⟩
    | .withSuperclass => Walk.resolve superName site

def Expr.walkEach : List (Expr Site) → Walk
  | [] => pure ()
  | expr :: rest => do
    expr.walk
    Expr.walkEach rest

def Expr.walkPart : Option (Expr Site) → Walk
  | none => pure ()
  | some expr => expr.walk

def Target.walk : Target Site → Walk
  | .name name site => Walk.resolve name.text site
  | .property object _ => object.walk

def Target.walkEach : List (Target Site) → Walk
  | [] => pure ()
  | target :: rest => do
    target.walk
    Target.walkEach rest

def Stmt.walk : Stmt Site → Walk
  | .expression value => value.walk
  | .varDecl name initializer => do
    Expr.walkPart initializer
    Walk.declare name.text
  | .assign targets value => do
    value.walk
    Target.walkEach targets
  | .set object _ value => do
    object.walk
    value.walk
  | .block body => Walk.within [] (Stmt.walkEach body)
  | .branch condition thenBranch elseBranch => Walk.within [] do
    condition.walk
    thenBranch.walk
    Stmt.walkPart elseBranch
  | .whileLoop condition body => Walk.within [] do
    condition.walk
    Walk.inLoop body.walk
  | .forLoop initializer condition increment body => Walk.within [] do
    Stmt.walkPart initializer
    Expr.walkPart condition
    Expr.walkPart increment
    Walk.inLoop body.walk
  | .breakLoop line => do
    if (← get).loopDepth = 0 then throw ⟨.outsideLoop .kwBreak, Keyword.kwBreak.token line⟩
  | .continueLoop line => do
    if (← get).loopDepth = 0 then throw ⟨.outsideLoop .kwContinue, Keyword.kwContinue.token line⟩
  | .funDecl name lambda => do
    Walk.declare name.text
    lambda.walk
  | .returnValue line value => do
    if (← get).inFunction then Expr.walkPart value
    else throw ⟨.returnFromTopLevel, Keyword.kwReturn.token line⟩
  | .classDecl name none methods => Walk.inClass .withoutSuperclass do
    Walk.declare name.text
    Method.walkEach methods
  | .classDecl name (some ⟨parent, site⟩) methods => Walk.inClass .withoutSuperclass do
    Walk.declare name.text
    if parent.text = name.text then throw ⟨.inheritsFromItself, parent.token⟩
    else do
      Walk.enterSubclass
      Walk.resolve parent.text site
      Walk.within [superName] (Method.walkEach methods)

def Stmt.walkEach : List (Stmt Site) → Walk
  | [] => pure ()
  | stmt :: rest => do
    stmt.walk
    Stmt.walkEach rest

def Stmt.walkPart : Option (Stmt Site) → Walk
  | none => pure ()
  | some stmt => stmt.walk

def Lambda.walk : Lambda Site → Walk
  | ⟨parameters, body⟩ => Walk.inFunction <| Walk.within [] do
    Walk.declareEach parameters
    Stmt.walkEach body

def Method.walk : Method Site → Walk
  | ⟨_, lambda⟩ => Walk.within [thisName] lambda.walk

def Method.walkEach : List (Method Site) → Walk
  | [] => pure ()
  | method :: rest => do
    method.walk
    Method.walkEach rest

end

/-! ## Whole programs -/

/-- Resolves the statements of a program, one after the other, and collects what is wrong with them.
The resolver goes on to the next statement in the state in which it is after the last one, also if that
one is wrong. -/
def Resolver.program : List (Stmt Site) → Resolver → List StaticError × Resolver
  | [], r => ([], r)
  | stmt :: rest, r =>
    match stmt.walk r with
    | .ok () after => Resolver.program rest after
    | .error error after =>
      let (errors, last) := Resolver.program rest after
      (error :: errors, last)

end Lox
