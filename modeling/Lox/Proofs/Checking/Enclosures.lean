import Lox.Binding

/-!
# What stands around code

Some code is only allowed in some places: a `break` in a loop, a `return` in a function, `this` in
a method, `super` in a class that extends another. Here the places are told by what encloses them,
from the inside out, and nothing is known of scopes. Every occurrence of such code in a statement
is listed with its enclosures, wherever in the statement it is.
-/

namespace Lox

/-! ## Enclosures -/

/-- What can stand around code, as far as it decides what the code may do. A loop encloses only its
body. -/
inductive Enclosure where
  | loopBody
  | functionBody
  /-- The body of a method, which is a function body too. -/
  | methodBody
  | classBody (hasSuperclass : Bool)
  deriving DecidableEq, Repr

namespace Enclosure

/-- Whether this is the body of a function, be it declared, written as a literal or a method. -/
def isFunction : Enclosure → Bool
  | functionBody => true
  | methodBody => true
  | _ => false

/-- Whether this is a class, and then whether the class has a superclass. -/
def class? : Enclosure → Option Bool
  | classBody hasSuperclass => some hasSuperclass
  | _ => none

end Enclosure

/-- What encloses some code, from the inside out. -/
abbrev Enclosures := List Enclosure

namespace Enclosures

/-- Inside the body of a loop that is itself inside the same function body, if any. -/
def InLoop (around : Enclosures) : Prop := .loopBody ∈ around.takeWhile fun e => !e.isFunction

/-- Inside a function. -/
def InFunction (around : Enclosures) : Prop := ∃ e ∈ around, e.isFunction

/-- Inside a method. -/
def InMethod (around : Enclosures) : Prop := .methodBody ∈ around

/-- Whether the innermost class around has a superclass, if there is a class around. -/
def innermostClass? (around : Enclosures) : Option Bool := around.findSome? Enclosure.class?

instance (around : Enclosures) : Decidable around.InLoop :=
  inferInstanceAs (Decidable (_ ∈ _))

instance (around : Enclosures) : Decidable around.InFunction :=
  inferInstanceAs (Decidable (∃ e ∈ around, e.isFunction))

instance (around : Enclosures) : Decidable around.InMethod :=
  inferInstanceAs (Decidable (_ ∈ _))

end Enclosures

/-! ## Occurrences -/

/-- Code that is not allowed everywhere. -/
inductive Restricted where
  /-- `break` or `continue`. -/
  | loopSignal (keyword : Keyword)
  | returnStatement
  | thisExpression
  | superExpression
  /-- A class that extends a class. -/
  | inheritance (className superclass : String)
  deriving DecidableEq, Repr

/-- One place where restricted code occurs. -/
structure Occurrence where
  code : Restricted
  /-- The keyword, or the name of the superclass. -/
  token : Token
  around : Enclosures
  deriving DecidableEq, Repr

namespace Occurrence

/-- Whether the code is not allowed where it occurs. -/
def IsViolation (occurrence : Occurrence) : Prop :=
  match occurrence.code with
  | .loopSignal _ => ¬occurrence.around.InLoop
  | .returnStatement => ¬occurrence.around.InFunction
  | .thisExpression => ¬occurrence.around.InMethod
  | .superExpression => occurrence.around.innermostClass? ≠ some true
  | .inheritance className superclass => superclass = className

instance (occurrence : Occurrence) : Decidable occurrence.IsViolation := by
  unfold IsViolation
  cases occurrence.code <;> dsimp only <;> infer_instance

/-- What is wrong with a violation. -/
def problem (occurrence : Occurrence) : StaticProblem :=
  match occurrence.code with
  | .loopSignal keyword => .outsideLoop keyword
  | .returnStatement => .returnFromTopLevel
  | .thisExpression => .thisOutsideClass
  | .superExpression =>
    match occurrence.around.innermostClass? with
    | none => .superOutsideClass
    | some _ => .superWithoutSuperclass
  | .inheritance _ _ => .inheritsFromItself

/-- The report of a violation. -/
def error (occurrence : Occurrence) : StaticError := ⟨occurrence.problem, occurrence.token⟩

end Occurrence

/-! ## The occurrences in a tree

They are listed in the order of evaluation: arguments before their callee, values before the targets
they are stored into. -/

mutual

def Expr.occurrences (around : Enclosures) : Expr Unit → List Occurrence
  | .literal _ => []
  | .group inner => inner.occurrences around
  | .unary _ _ operand => operand.occurrences around
  | .binary _ _ left right => left.occurrences around ++ right.occurrences around
  | .logical _ _ left right => left.occurrences around ++ right.occurrences around
  | .comma operands => Expr.occurrencesEach around operands
  | .conditional _ condition thenBranch elseBranch =>
    condition.occurrences around ++ thenBranch.occurrences around ++ elseBranch.occurrences around
  | .reference _ _ => []
  | .assign _ _ value => value.occurrences around
  | .property object _ => object.occurrences around
  | .call callee _ arguments => Expr.occurrencesEach around arguments ++ callee.occurrences around
  | .function lambda => lambda.occurrences (.functionBody :: around)
  | .thisInstance line _ => [⟨.thisExpression, Keyword.kwThis.token line, around⟩]
  | .superMethod line _ _ => [⟨.superExpression, Keyword.kwSuper.token line, around⟩]

def Expr.occurrencesEach (around : Enclosures) : List (Expr Unit) → List Occurrence
  | [] => []
  | expr :: rest => expr.occurrences around ++ Expr.occurrencesEach around rest

def Expr.occurrencesPart (around : Enclosures) : Option (Expr Unit) → List Occurrence
  | none => []
  | some expr => expr.occurrences around

def Target.occurrences (around : Enclosures) : Target Unit → List Occurrence
  | .name _ _ => []
  | .property object _ => object.occurrences around

def Target.occurrencesEach (around : Enclosures) : List (Target Unit) → List Occurrence
  | [] => []
  | target :: rest => target.occurrences around ++ Target.occurrencesEach around rest

def Stmt.occurrences (around : Enclosures) : Stmt Unit → List Occurrence
  | .expression value => value.occurrences around
  | .varDecl _ initializer => Expr.occurrencesPart around initializer
  | .assign targets value => value.occurrences around ++ Target.occurrencesEach around targets
  | .set object _ value => object.occurrences around ++ value.occurrences around
  | .block body => Stmt.occurrencesEach around body
  | .branch condition thenBranch elseBranch =>
    condition.occurrences around ++ thenBranch.occurrences around ++
      Stmt.occurrencesPart around elseBranch
  | .whileLoop condition body =>
    condition.occurrences around ++ body.occurrences (.loopBody :: around)
  | .forLoop initializer condition increment body =>
    Stmt.occurrencesPart around initializer ++ Expr.occurrencesPart around condition ++
      Expr.occurrencesPart around increment ++ body.occurrences (.loopBody :: around)
  | .breakLoop line => [⟨.loopSignal .kwBreak, Keyword.kwBreak.token line, around⟩]
  | .continueLoop line => [⟨.loopSignal .kwContinue, Keyword.kwContinue.token line, around⟩]
  | .funDecl _ lambda => lambda.occurrences (.functionBody :: around)
  | .returnValue line value =>
    ⟨.returnStatement, Keyword.kwReturn.token line, around⟩ :: Expr.occurrencesPart around value
  | .classDecl _ none methods => Method.occurrencesEach (.classBody false :: around) methods
  | .classDecl name (some parent) methods =>
    ⟨.inheritance name.text parent.name.text, parent.name.token, around⟩ ::
      Method.occurrencesEach (.classBody true :: around) methods

def Stmt.occurrencesEach (around : Enclosures) : List (Stmt Unit) → List Occurrence
  | [] => []
  | stmt :: rest => stmt.occurrences around ++ Stmt.occurrencesEach around rest

def Stmt.occurrencesPart (around : Enclosures) : Option (Stmt Unit) → List Occurrence
  | none => []
  | some stmt => stmt.occurrences around

/-- The occurrences in the body of a function, given what encloses the body, itself included. -/
def Lambda.occurrences (around : Enclosures) : Lambda Unit → List Occurrence
  | ⟨_, body⟩ => Stmt.occurrencesEach around body

def Method.occurrences (around : Enclosures) : Method Unit → List Occurrence
  | ⟨_, lambda⟩ => lambda.occurrences (.methodBody :: around)

def Method.occurrencesEach (around : Enclosures) : List (Method Unit) → List Occurrence
  | [] => []
  | method :: rest => method.occurrences around ++ Method.occurrencesEach around rest

end

/-- The places in a statement at the top level where code stands that is not allowed there. -/
def Stmt.violations (stmt : Stmt Unit) : List Occurrence :=
  (stmt.occurrences []).filter (·.IsViolation)

end Lox
