import Lox.Proofs.Lexical.Runs
import Lox.Proofs.Scoping.Resolved
import Lox.Proofs.Signals.Confinement

/-!
# How far it is to `this` and `super`

Where names were resolved, all occurrences of `this` in a method lead to one scope, and so do all
occurrences of `super`: the next one further out. The tether of some code says how far out the first of
these scopes is, and whether there is the second. Every scope that the code opens makes the tether
longer by one, and nothing that it declares, being no identifier's name, cuts it.

A resolved tree is tethered if its occurrences of `this` and `super` agree with that, and if no name in
it is one of the two.
-/

namespace Lox

/-- How many scopes further out the one that binds `this` is, and whether the scope around that one
binds `super`. -/
structure Tether where
  distance : Nat
  subclass : Bool
  deriving DecidableEq, Repr

namespace Tether

/-- The tether in one more scope. -/
def longer (tether : Tether) : Tether := ⟨tether.distance + 1, tether.subclass⟩

/-- The tether of the methods of a class, outside of their own scopes. -/
def ofClass {α : Type} (superclass : Option α) : Tether := ⟨0, superclass.isSome⟩

end Tether

/-! ## Trees -/

mutual

def Expr.Tethered (tether : Option Tether) : Expr Binding → Prop
  | .literal _ => True
  | .group inner => inner.Tethered tether
  | .unary _ _ operand => operand.Tethered tether
  | .binary _ _ left right => left.Tethered tether ∧ right.Tethered tether
  | .logical _ _ left right => left.Tethered tether ∧ right.Tethered tether
  | .comma operands => Expr.TetheredEach tether operands
  | .conditional _ condition thenBranch elseBranch =>
    condition.Tethered tether ∧ thenBranch.Tethered tether ∧ elseBranch.Tethered tether
  | .reference _ _ => True
  | .assign name _ value => name.written.IsOrdinary ∧ value.Tethered tether
  | .property object _ => object.Tethered tether
  | .call callee _ arguments => Expr.TetheredEach tether arguments ∧ callee.Tethered tether
  | .function lambda => lambda.Tethered tether
  | .thisInstance _ binding => ∃ found, tether = some found ∧ binding = .lexical found.distance
  | .superMethod _ binding _ => ∃ found, tether = some found ∧ found.subclass = true ∧
      binding = .lexical (found.distance + 1)

def Expr.TetheredEach (tether : Option Tether) : List (Expr Binding) → Prop
  | [] => True
  | expr :: rest => expr.Tethered tether ∧ Expr.TetheredEach tether rest

def Expr.TetheredPart (tether : Option Tether) : Option (Expr Binding) → Prop
  | none => True
  | some expr => expr.Tethered tether

def Target.Tethered (tether : Option Tether) : Target Binding → Prop
  | .name name _ => name.written.IsOrdinary
  | .property object _ => object.Tethered tether

def Target.TetheredEach (tether : Option Tether) : List (Target Binding) → Prop
  | [] => True
  | target :: rest => target.Tethered tether ∧ Target.TetheredEach tether rest

def Stmt.Tethered (tether : Option Tether) : Stmt Binding → Prop
  | .expression value => value.Tethered tether
  | .varDecl name initializer => name.written.IsOrdinary ∧ Expr.TetheredPart tether initializer
  | .assign targets value => value.Tethered tether ∧ Target.TetheredEach tether targets
  | .set object _ value => object.Tethered tether ∧ value.Tethered tether
  | .block body => Stmt.TetheredEach (tether.map .longer) body
  | .branch condition thenBranch elseBranch =>
    condition.Tethered (tether.map .longer) ∧ thenBranch.Tethered (tether.map .longer) ∧
      Stmt.TetheredPart (tether.map .longer) elseBranch
  | .whileLoop condition body =>
    condition.Tethered (tether.map .longer) ∧ body.Tethered (tether.map .longer)
  | .forLoop initializer condition increment body =>
    Stmt.TetheredPart (tether.map .longer) initializer ∧
      Expr.TetheredPart (tether.map .longer) condition ∧
        Expr.TetheredPart (tether.map .longer) increment ∧ body.Tethered (tether.map .longer)
  | .breakLoop _ => True
  | .continueLoop _ => True
  | .funDecl name lambda => name.written.IsOrdinary ∧ lambda.Tethered tether
  | .returnValue _ value => Expr.TetheredPart tether value
  | .classDecl name superclass methods =>
    name.written.IsOrdinary ∧ Method.TetheredEach (some (.ofClass superclass)) methods

def Stmt.TetheredEach (tether : Option Tether) : List (Stmt Binding) → Prop
  | [] => True
  | stmt :: rest => stmt.Tethered tether ∧ Stmt.TetheredEach tether rest

def Stmt.TetheredPart (tether : Option Tether) : Option (Stmt Binding) → Prop
  | none => True
  | some stmt => stmt.Tethered tether

/-- A function opens a scope of its own for its parameters. -/
def Lambda.Tethered (tether : Option Tether) : Lambda Binding → Prop
  | ⟨parameters, body⟩ => (∀ parameter ∈ parameters, parameter.written.IsOrdinary) ∧
      Stmt.TetheredEach (tether.map .longer) body

def Method.Tethered (tether : Option Tether) : Method Binding → Prop
  | ⟨_, lambda⟩ => lambda.Tethered tether

def Method.TetheredEach (tether : Option Tether) : List (Method Binding) → Prop
  | [] => True
  | method :: rest => method.Tethered tether ∧ Method.TetheredEach tether rest

end

theorem Lambda.Tethered.parts {tether : Option Tether} {lambda : Lambda Binding}
    (tethered : lambda.Tethered tether) :
    (∀ parameter ∈ lambda.parameters, parameter.written.IsOrdinary) ∧
      Stmt.TetheredEach (tether.map .longer) lambda.body := by
  obtain ⟨parameters, body⟩ := lambda
  exact tethered

theorem Method.Tethered.lambda {tether : Option Tether} {method : Method Binding}
    (tethered : method.Tethered tether) : method.lambda.Tethered tether := by
  obtain ⟨name, lambda⟩ := method
  exact tethered

/-! ## Surroundings -/

/-- Here `this` and `super` resolve to the scopes at the end of the tether. -/
structure Surroundings.TetheredBy (s : Surroundings) (tether : Tether) : Prop where
  this : s.binding thisName = .lexical tether.distance
  super : tether.subclass = true → s.binding superName = .lexical (tether.distance + 1)
  inClass : s.inClass = if tether.subclass then .withSuperclass else .withoutSuperclass

/-- Outside of classes there is no tether. -/
def Surroundings.Tethers (s : Surroundings) : Option Tether → Prop
  | none => s.inClass = .outside
  | some tether => s.TetheredBy tether

theorem Scopes.binding_cons_of_not_mem {names : List String} {scopes : Scopes} {name : String}
    {distance : Nat} (absent : name ∉ names) (found : scopes.binding name = .lexical distance) :
    Scopes.binding (names :: scopes) name = .lexical (distance + 1) := by
  rw [Scopes.binding_cons, if_neg (by simpa using absent), found]

namespace Surroundings.Tethers

variable {s : Surroundings} {tether : Option Tether}

theorem topLevel : Surroundings.topLevel.Tethers none := rfl

/-- A new scope, with or without names, and whatever else it may change. -/
theorem opened {inside : Surroundings} {names : List String} (tethers : s.Tethers tether)
    (scopes : inside.scopes = names :: s.scopes) (inClass : inside.inClass = s.inClass)
    (noThis : thisName ∉ names) (noSuper : superName ∉ names) :
    inside.Tethers (tether.map .longer) := by
  cases tether with
  | none => exact inClass.trans tethers
  | some tether =>
    refine ⟨?_, fun subclass => ?_, inClass.trans tethers.inClass⟩
    · rw [Surroundings.binding, scopes]
      exact Scopes.binding_cons_of_not_mem noThis tethers.this
    · rw [Surroundings.binding, scopes]
      exact Scopes.binding_cons_of_not_mem noSuper (tethers.super subclass)

theorem enter (tethers : s.Tethers tether) : (s.enter []).Tethers (tether.map .longer) :=
  tethers.opened rfl rfl List.not_mem_nil List.not_mem_nil

theorem enterFunction {parameters : List Name} (tethers : s.Tethers tether)
    (ordinary : ∀ parameter ∈ parameters, parameter.written.IsOrdinary) :
    (s.enterFunction parameters).Tethers (tether.map .longer) := by
  refine tethers.opened rfl rfl (fun member => ?_) (fun member => ?_)
  · obtain ⟨parameter, listed, same⟩ := List.mem_map.mp member
    exact (ordinary parameter listed).1 same
  · obtain ⟨parameter, listed, same⟩ := List.mem_map.mp member
    exact (ordinary parameter listed).2 same

theorem declare {name : Name} (tethers : s.Tethers tether) (ordinary : name.written.IsOrdinary) :
    (s.declare name.text).Tethers tether := by
  cases tether with
  | none => exact tethers
  | some tether =>
    refine ⟨?_, fun subclass => ?_, tethers.inClass⟩
    · exact (Scopes.binding_declare_of_ne ordinary.1.symm).trans tethers.this
    · exact (Scopes.binding_declare_of_ne ordinary.2.symm).trans (tethers.super subclass)

theorem after {stmt : Stmt Unit} (tethers : s.Tethers tether) (ordinary : Ordinary stmt.written) :
    (s.after stmt.declaredName?).Tethers tether := by
  cases stmt with
  | varDecl name _ | funDecl name _ | classDecl name _ _ =>
    simp only [Stmt.written, Ordinary.cons] at ordinary
    exact tethers.declare ordinary.2.1
  | _ => exact tethers

theorem enterLoop (tethers : s.Tethers tether) : s.enterLoop.Tethers tether := by
  cases tether with
  | none => exact tethers
  | some tether => exact ⟨tethers.this, tethers.super, tethers.inClass⟩

/-- A method is inside the scope that binds its instance, and that one inside the scope that binds the
superclass, if its class has one. -/
theorem classBody {α : Type} (superclass : Option α) (s : Surroundings) :
    ((s.classBody superclass).enter [thisName]).Tethers (some (.ofClass superclass)) := by
  cases superclass with
  | none =>
    refine ⟨?_, nofun, rfl⟩
    exact (Scopes.binding_cons _ _ _).trans (if_pos rfl)
  | some _ =>
    refine ⟨?_, fun _ => ?_, rfl⟩
    · exact (Scopes.binding_cons _ _ _).trans (if_pos rfl)
    · refine Scopes.binding_cons_of_not_mem (by decide) ?_
      exact (Scopes.binding_cons _ _ _).trans (if_pos rfl)

end Surroundings.Tethers

/-! ## What resolving gives -/

section

variable {s : Surroundings} {tether : Option Tether}

theorem Expr.gives_tethered_this (tethers : s.Tethers tether) (line : Nat) :
    Gives (Expr.Tethered tether) ((Expr.thisInstance line ()).resolve s) := by
  simp only [Expr.resolve]
  split
  · exact .error
  · next inside =>
    cases tether with
    | none => exact absurd tethers inside
    | some tether => exact .ok ⟨tether, rfl, tethers.this⟩

theorem Expr.gives_tethered_super (tethers : s.Tethers tether) (line : Nat) (method : Name) :
    Gives (Expr.Tethered tether) ((Expr.superMethod line () method).resolve s) := by
  simp only [Expr.resolve]
  split
  · exact .error
  · exact .error
  · next inside =>
    cases tether with
    | none =>
      have outside : s.inClass = .outside := tethers
      rw [outside] at inside
      cases inside
    | some tether =>
      have inClass := tethers.inClass
      rw [inside] at inClass
      -- The class has a superclass, or it would not resolve.
      cases subclass : tether.subclass with
      | false =>
        rw [subclass] at inClass
        cases inClass
      | true => exact .ok ⟨tether, rfl, subclass, tethers.super subclass⟩

end

mutual

theorem Expr.gives_tethered {s : Surroundings} {tether : Option Tether} (tethers : s.Tethers tether)
    (expr : Expr Unit) (ordinary : Ordinary expr.written) :
    Gives (Expr.Tethered tether) (expr.resolve s) := by
  cases expr with
  | literal value => exact .ok trivial
  | group inner =>
    simp only [Expr.written, Ordinary.cons, Ordinary.append] at ordinary
    exact (inner.gives_tethered tethers ordinary.2.1).bind fun _ inner => .ok inner
  | unary operator line operand =>
    simp only [Expr.written, Ordinary.cons] at ordinary
    exact (operand.gives_tethered tethers ordinary.2).bind fun _ operand => .ok operand
  | binary operator line left right =>
    simp only [Expr.written, Ordinary.append, Ordinary.cons] at ordinary
    exact (left.gives_tethered tethers ordinary.1).bind fun _ left =>
      (right.gives_tethered tethers ordinary.2.2).bind fun _ right => .ok ⟨left, right⟩
  | logical operator line left right =>
    simp only [Expr.written, Ordinary.append, Ordinary.cons] at ordinary
    exact (left.gives_tethered tethers ordinary.1).bind fun _ left =>
      (right.gives_tethered tethers ordinary.2.2).bind fun _ right => .ok ⟨left, right⟩
  | comma operands =>
    exact (Expr.gives_tetheredEach tethers operands ordinary).bind fun _ operands => .ok operands
  | conditional line condition thenBranch elseBranch =>
    simp only [Expr.written, Ordinary.append, Ordinary.cons] at ordinary
    obtain ⟨ordinary, _, ordinaryThen, _, ordinaryElse⟩ := ordinary
    exact (condition.gives_tethered tethers ordinary).bind fun _ condition =>
      (thenBranch.gives_tethered tethers ordinaryThen).bind fun _ thenBranch =>
        (elseBranch.gives_tethered tethers ordinaryElse).bind fun _ elseBranch =>
          .ok ⟨condition, thenBranch, elseBranch⟩
  | reference name _ => exact .ok trivial
  | assign name _ value =>
    simp only [Expr.written, Ordinary.cons] at ordinary
    exact (value.gives_tethered tethers ordinary.2.2).bind fun _ value => .ok ⟨ordinary.1, value⟩
  | property object name =>
    simp only [Expr.written, Ordinary.append] at ordinary
    exact (object.gives_tethered tethers ordinary.1).bind fun _ object => .ok object
  | call callee line arguments =>
    simp only [Expr.written, Ordinary.append, Ordinary.cons] at ordinary
    exact (Expr.gives_tetheredEach tethers arguments ordinary.2.2.1).bind fun _ arguments =>
      (callee.gives_tethered tethers ordinary.1).bind fun _ callee => .ok ⟨arguments, callee⟩
  | function lambda =>
    simp only [Expr.written, Ordinary.cons] at ordinary
    exact (lambda.gives_tethered tethers ordinary.2.2).bind fun _ lambda => .ok lambda
  | thisInstance line _ => exact Expr.gives_tethered_this tethers line
  | superMethod line _ method => exact Expr.gives_tethered_super tethers line method

theorem Expr.gives_tetheredEach {s : Surroundings} {tether : Option Tether}
    (tethers : s.Tethers tether) (exprs : List (Expr Unit))
    (ordinary : Ordinary (Expr.writtenEach exprs)) :
    Gives (Expr.TetheredEach tether) (Expr.resolveEach s exprs) := by
  cases exprs with
  | nil => exact .ok trivial
  | cons expr rest =>
    rw [Expr.writtenEach, Ordinary.append, Lexical.Expr.ordinary_writtenAfterEach] at ordinary
    exact (expr.gives_tethered tethers ordinary.1).bind fun _ expr =>
      (Expr.gives_tetheredEach tethers rest ordinary.2).bind fun _ rest => .ok ⟨expr, rest⟩

theorem Expr.gives_tetheredPart {s : Surroundings} {tether : Option Tether}
    {before : List Token.Kind} (tethers : s.Tethers tether) (part : Option (Expr Unit))
    (ordinary : Ordinary (Expr.writtenPart before part)) :
    Gives (Expr.TetheredPart tether) (Expr.resolvePart s part) := by
  cases part with
  | none => exact .ok trivial
  | some expr =>
    rw [Expr.writtenPart, Ordinary.append] at ordinary
    exact (expr.gives_tethered tethers ordinary.2).bind fun _ expr => .ok expr

theorem Target.gives_tethered {s : Surroundings} {tether : Option Tether}
    (tethers : s.Tethers tether) (target : Target Unit) (ordinary : Ordinary target.written) :
    Gives (Target.Tethered tether) (target.resolve s) := by
  cases target with
  | name name _ => exact .ok (Ordinary.cons.mp ordinary).1
  | property object name =>
    simp only [Target.written, Ordinary.append] at ordinary
    exact (object.gives_tethered tethers ordinary.1).bind fun _ object => .ok object

theorem Target.gives_tetheredEach {s : Surroundings} {tether : Option Tether}
    (tethers : s.Tethers tether) (targets : List (Target Unit))
    (ordinary : Ordinary (Target.writtenEach targets)) :
    Gives (Target.TetheredEach tether) (Target.resolveEach s targets) := by
  cases targets with
  | nil => exact .ok trivial
  | cons target rest =>
    rw [Target.writtenEach, Ordinary.append, Ordinary.cons] at ordinary
    exact (target.gives_tethered tethers ordinary.1).bind fun _ target =>
      (Target.gives_tetheredEach tethers rest ordinary.2.2).bind fun _ rest => .ok ⟨target, rest⟩

theorem Stmt.gives_tethered {s : Surroundings} {tether : Option Tether} (tethers : s.Tethers tether)
    (stmt : Stmt Unit) (ordinary : Ordinary stmt.written) :
    Gives (Stmt.Tethered tether) (stmt.resolve s) := by
  cases stmt with
  | expression value =>
    simp only [Stmt.written, Ordinary.append] at ordinary
    exact (value.gives_tethered tethers ordinary.1).bind fun _ value => .ok value
  | varDecl name initializer =>
    simp only [Stmt.written, Ordinary.cons, Ordinary.append] at ordinary
    obtain ⟨_, named, ordinary, _⟩ := ordinary
    exact (Expr.gives_tetheredPart tethers initializer ordinary).bind fun _ initializer =>
      .ok ⟨named, initializer⟩
  | assign targets value =>
    simp only [Stmt.written, Ordinary.append] at ordinary
    obtain ⟨⟨ordinaryTargets, ordinary⟩, _⟩ := ordinary
    exact (value.gives_tethered tethers ordinary).bind fun _ value =>
      (Target.gives_tetheredEach tethers targets ordinaryTargets).bind fun _ targets =>
        .ok ⟨value, targets⟩
  | set object name value =>
    simp only [Stmt.written, Ordinary.append, Ordinary.cons] at ordinary
    obtain ⟨ordinary, _, _, _, ordinaryValue, _⟩ := ordinary
    exact (object.gives_tethered tethers ordinary).bind fun _ object =>
      (value.gives_tethered tethers ordinaryValue).bind fun _ value => .ok ⟨object, value⟩
  | block body =>
    simp only [Stmt.written, Ordinary.cons, Ordinary.append] at ordinary
    exact (Stmt.gives_tetheredEach tethers.enter body ordinary.2.1).bind fun _ body => .ok body
  | branch condition thenBranch elseBranch =>
    simp only [Stmt.written, Ordinary.cons, Ordinary.append] at ordinary
    obtain ⟨_, _, ordinary, _, ordinaryThen, ordinaryElse⟩ := ordinary
    refine (condition.gives_tethered tethers.enter ordinary).bind fun _ condition => ?_
    refine (thenBranch.gives_tethered tethers.enter ordinaryThen).bind fun _ thenGiven => ?_
    -- The other branch is resolved behind what the first one declares.
    exact (Stmt.gives_tetheredPart (tethers.enter.after ordinaryThen) elseBranch
      ordinaryElse).bind fun _ elseBranch => .ok ⟨condition, thenGiven, elseBranch⟩
  | whileLoop condition body =>
    simp only [Stmt.written, Ordinary.cons, Ordinary.append] at ordinary
    obtain ⟨_, _, ordinary, _, ordinaryBody⟩ := ordinary
    refine (condition.gives_tethered tethers.enter ordinary).bind fun _ condition => ?_
    exact (body.gives_tethered tethers.enter.enterLoop ordinaryBody).bind fun _ body =>
      .ok ⟨condition, body⟩
  | forLoop initializer condition increment body =>
    simp only [Stmt.written, Ordinary.cons, Ordinary.append] at ordinary
    obtain ⟨_, _, ordinary, ordinaryCondition, _, ordinaryIncrement, _, ordinaryBody⟩ := ordinary
    -- The rest of the loop is behind what the initializer declares.
    have inside : ((s.enter []).after (initializer.bind Stmt.declaredName?)).Tethers
        (tether.map .longer) := by
      cases initializer with
      | none => exact tethers.enter
      | some stmt => exact tethers.enter.after ordinary
    refine (Stmt.gives_tetheredInitializer tethers.enter initializer ordinary).bind fun _ first => ?_
    refine (Expr.gives_tetheredPart inside condition ordinaryCondition).bind fun _ condition => ?_
    refine (Expr.gives_tetheredPart inside increment ordinaryIncrement).bind fun _ increment => ?_
    exact (body.gives_tethered inside.enterLoop ordinaryBody).bind fun _ body =>
      .ok ⟨first, condition, increment, body⟩
  | breakLoop line | continueLoop line =>
    simp only [Stmt.resolve]
    split
    · exact .ok trivial
    · exact .error
  | funDecl name lambda =>
    simp only [Stmt.written, Ordinary.cons] at ordinary
    obtain ⟨_, named, _, ordinary⟩ := ordinary
    exact (lambda.gives_tethered (tethers.declare named) ordinary).bind fun _ lambda =>
      .ok ⟨named, lambda⟩
  | returnValue line value =>
    simp only [Stmt.written, Ordinary.cons, Ordinary.append] at ordinary
    simp only [Stmt.resolve]
    split
    · exact (Expr.gives_tetheredPart tethers value ordinary.2.1).bind fun _ value => .ok value
    · exact .error
  | classDecl name superclass methods =>
    simp only [Stmt.written, Ordinary.cons, Ordinary.append] at ordinary
    obtain ⟨_, named, _, _, ordinary, _⟩ := ordinary
    cases superclass with
    | none =>
      exact (Method.gives_tetheredEach (.classBody (none : Option Unit) (s.declare name.text)) methods
        ordinary).bind fun _ methods => .ok ⟨named, methods⟩
    | some parent =>
      obtain ⟨parent, ⟨⟩⟩ := parent
      simp only [Stmt.resolve]
      split
      · exact .error
      · exact (Method.gives_tetheredEach (.classBody (some parent) (s.declare name.text)) methods
          ordinary).bind fun _ methods => .ok ⟨named, methods⟩

theorem Stmt.gives_tetheredEach {s : Surroundings} {tether : Option Tether}
    (tethers : s.Tethers tether) (stmts : List (Stmt Unit))
    (ordinary : Ordinary (Stmt.writtenEach stmts)) :
    Gives (Stmt.TetheredEach tether) (Stmt.resolveEach s stmts) := by
  cases stmts with
  | nil => exact .ok trivial
  | cons stmt rest =>
    rw [Stmt.writtenEach, Ordinary.append] at ordinary
    exact (stmt.gives_tethered tethers ordinary.1).bind fun _ stmt =>
      (Stmt.gives_tetheredEach (tethers.after ordinary.1) rest ordinary.2).bind fun _ rest =>
        .ok ⟨stmt, rest⟩

theorem Stmt.gives_tetheredPart {s : Surroundings} {tether : Option Tether}
    {before : List Token.Kind} (tethers : s.Tethers tether) (part : Option (Stmt Unit))
    (ordinary : Ordinary (Stmt.writtenPart before part)) :
    Gives (Stmt.TetheredPart tether) (Stmt.resolvePart s part) := by
  cases part with
  | none => exact .ok trivial
  | some stmt =>
    rw [Stmt.writtenPart, Ordinary.append] at ordinary
    exact (stmt.gives_tethered tethers ordinary.2).bind fun _ stmt => .ok stmt

theorem Stmt.gives_tetheredInitializer {s : Surroundings} {tether : Option Tether}
    (tethers : s.Tethers tether) (part : Option (Stmt Unit))
    (ordinary : Ordinary (Stmt.writtenInitializer part)) :
    Gives (Stmt.TetheredPart tether) (Stmt.resolvePart s part) := by
  cases part with
  | none => exact .ok trivial
  | some stmt => exact (stmt.gives_tethered tethers ordinary).bind fun _ stmt => .ok stmt

theorem Lambda.gives_tethered {s : Surroundings} {tether : Option Tether}
    (tethers : s.Tethers tether) (lambda : Lambda Unit) (ordinary : Ordinary lambda.written) :
    Gives (Lambda.Tethered tether) (lambda.resolve s) := by
  have parts := Lambda.ordinary ordinary
  obtain ⟨parameters, body⟩ := lambda
  exact (Stmt.gives_tetheredEach (tethers.enterFunction parts.1) body parts.2).bind fun _ body =>
    .ok ⟨parts.1, body⟩

theorem Method.gives_tethered {s : Surroundings} {tether : Option Tether}
    (tethers : (s.enter [thisName]).Tethers tether) (method : Method Unit)
    (ordinary : Ordinary method.written) :
    Gives (Method.Tethered tether) (method.resolve s) := by
  obtain ⟨name, lambda⟩ := method
  simp only [Method.written, Ordinary.cons] at ordinary
  exact (lambda.gives_tethered tethers ordinary.2.2).bind fun _ lambda => .ok lambda

theorem Method.gives_tetheredEach {s : Surroundings} {tether : Option Tether}
    (tethers : (s.enter [thisName]).Tethers tether) (methods : List (Method Unit))
    (ordinary : Ordinary (Method.writtenEach methods)) :
    Gives (Method.TetheredEach tether) (Method.resolveEach s methods) := by
  cases methods with
  | nil => exact .ok trivial
  | cons method rest =>
    rw [Method.writtenEach, Ordinary.append] at ordinary
    exact (method.gives_tethered tethers ordinary.1).bind fun _ method =>
      (Method.gives_tetheredEach tethers rest ordinary.2).bind fun _ rest => .ok ⟨method, rest⟩

end

end Lox
