import Lox.Resolver

/-!
# What resolving leaves as it was

Whatever code the resolver goes through and however that ends, it is afterwards where it was: in the same
kind of function and of class, in as many loops, and in the same scopes, of which the innermost one may
hold more names. Apart from that there are new notes, and only of occurrences in that code. So at the top
level, where no scope is open, every statement starts from the same context, also after one that is wrong.
-/

namespace Lox

/-! ## Names in the innermost scope -/

namespace Scopes

/-- The scopes with more names in the innermost one. -/
def declareEach (names : List String) (scopes : Scopes) : Scopes :=
  names.foldl (fun scopes name => scopes.declare name) scopes

theorem declareEach_append (names others : List String) (scopes : Scopes) :
    scopes.declareEach (names ++ others) = (scopes.declareEach names).declareEach others :=
  List.foldl_append

/-- Among the globals nothing is tracked. -/
theorem declareEach_nil (names : List String) : declareEach names [] = [] := by
  induction names with
  | nil => rfl
  | cons name rest ih => exact ih

theorem declareEach_cons (names : List String) (innermost : List String) (outer : Scopes) :
    declareEach names (innermost :: outer) = (names.reverse ++ innermost) :: outer := by
  induction names generalizing innermost with
  | nil => rfl
  | cons name rest ih =>
    rw [List.reverse_cons, List.append_assoc]
    exact ih (name :: innermost)

end Scopes

/-! ## Contexts -/

/-- What is left of the context of some code, given the occurrences in the code, while it is open in what
kind of class the code is. -/
structure Resolver.Keeps (sites : List Site) (before after : Resolver) : Prop where
  inFunction : after.inFunction = before.inFunction
  loopDepth : after.loopDepth = before.loopDepth
  scopes : ∃ names, after.scopes = before.scopes.declareEach names
  locals : ∃ notes : Locals, after.locals = notes ++ before.locals ∧ ∀ note ∈ notes, note.1 ∈ sites

namespace Resolver.Keeps

variable {sites others : List Site} {before middle after : Resolver}

theorem refl (r : Resolver) : r.Keeps [] r :=
  ⟨rfl, rfl, ⟨[], rfl⟩, [], rfl, fun _ member => nomatch member⟩

theorem trans (first : before.Keeps sites middle) (second : middle.Keeps others after) :
    before.Keeps (sites ++ others) after := by
  obtain ⟨names, declared⟩ := first.scopes
  obtain ⟨further, declaredFurther⟩ := second.scopes
  obtain ⟨notes, noted, within⟩ := first.locals
  obtain ⟨more, notedMore, withinMore⟩ := second.locals
  refine
    { inFunction := second.inFunction.trans first.inFunction
      loopDepth := second.loopDepth.trans first.loopDepth
      scopes := ⟨names ++ further, ?_⟩
      locals := ⟨more ++ notes, ?_, ?_⟩ }
  · rw [declaredFurther, declared, Scopes.declareEach_append]
  · rw [notedMore, noted, List.append_assoc]
  · intro note member
    cases List.mem_append.mp member with
    | inl new => exact List.mem_append_right _ (withinMore note new)
    | inr old => exact List.mem_append_left _ (within note old)

theorem mono (keeps : before.Keeps sites after) (more : sites ⊆ others) : before.Keeps others after :=
  { keeps with
    locals :=
      let ⟨notes, noted, within⟩ := keeps.locals
      ⟨notes, noted, fun note member => more (within note member)⟩ }

end Resolver.Keeps

namespace Walk

/-- The resolver after a part of the way, be it at the end of that part or at an error. -/
def after (walk : Walk) (r : Resolver) : Resolver :=
  match walk r with
  | .ok () after => after
  | .error _ after => after

/-- Wherever the code with these occurrences stands and whatever is found out about it, its context is
afterwards what it was before. -/
def Restores (sites : List Site) (walk : Walk) : Prop :=
  ∀ r : Resolver, r.Keeps sites (walk.after r) ∧ (walk.after r).inClass = r.inClass

/-- The same, but for the kind of class. -/
def RestoresInClass (sites : List Site) (walk : Walk) : Prop :=
  ∀ r : Resolver, r.Keeps sites (walk.after r)

variable {walk first second : Walk} {sites others : List Site}

theorem after_bind (first second : Walk) (r : Resolver) :
    Walk.after (first >>= fun _ => second) r =
      match first r with
      | .ok () middle => second.after middle
      | .error _ middle => middle := by
  change (match EStateM.bind first (fun _ => second) r with
    | .ok () after => after
    | .error _ after => after) = _
  unfold EStateM.bind
  cases first r <;> rfl

theorem declareEach_eq (names : List Name) :
    Walk.declareEach names =
      modify fun r => { r with scopes := r.scopes.declareEach (names.map (·.text)) } := by
  induction names with
  | nil => rfl
  | cons name rest ih =>
    rw [declareEach, ih]
    rfl

theorem after_around (enter : Resolver → Resolver) (leave : Resolver → Resolver → Resolver)
    (walk : Walk) (r : Resolver) :
    (around enter leave walk).after r = leave r (walk.after (enter r)) := by
  unfold after around
  cases walk (enter r) <;> rfl

theorem RestoresInClass.bind (restores : walk.RestoresInClass sites)
    (further : second.RestoresInClass others) :
    RestoresInClass (sites ++ others) (walk >>= fun _ => second) := by
  intro r
  rw [after_bind]
  have kept := restores r
  unfold after at kept
  cases ends : walk r with
  | ok _ middle =>
    rw [ends] at kept
    exact kept.trans (further middle)
  | error error middle =>
    rw [ends] at kept
    exact kept.mono (List.subset_append_left _ _)

theorem RestoresInClass.enterSubclass : RestoresInClass [] Walk.enterSubclass := fun _ =>
  ⟨rfl, rfl, ⟨[], rfl⟩, [], rfl, fun _ member => nomatch member⟩

namespace Restores

theorem inAnyClass (restores : walk.Restores sites) : walk.RestoresInClass sites :=
  fun r => (restores r).1

theorem pure : Restores [] (pure ()) := fun r => ⟨.refl r, rfl⟩

/-- An error stops the walk before any of the code. -/
theorem throw (error : StaticError) : Restores sites (throw error) :=
  fun r => ⟨(Resolver.Keeps.refl r).mono (List.nil_subset _), rfl⟩

theorem bind (restores : walk.Restores sites) (further : second.Restores others) :
    Restores (sites ++ others) (walk >>= fun _ => second) := by
  refine fun r => ⟨restores.inAnyClass.bind further.inAnyClass r, ?_⟩
  rw [after_bind]
  have kept := (restores r).2
  unfold after at kept
  cases ends : walk r with
  | ok _ middle =>
    rw [ends] at kept
    exact (further middle).2.trans kept
  | error error middle =>
    rw [ends] at kept
    exact kept

/-- Code whose way depends on the state in which it begins. -/
theorem ofGet {choice : Resolver → Walk} (restores : ∀ r, (choice r).Restores sites) :
    Restores sites (get >>= choice) :=
  fun r => restores r r

theorem declare (name : String) : Restores [] (Walk.declare name) := by
  refine fun r => ⟨⟨rfl, rfl, ⟨[name], rfl⟩, [], rfl, ?_⟩, rfl⟩
  intro note member
  cases member

theorem declareEach (names : List Name) : Restores [] (Walk.declareEach names) := by
  induction names with
  | nil => exact pure
  | cons name rest ih => exact (declare name.text).bind ih

theorem resolve (name : String) (site : Site) : Restores [site] (Walk.resolve name site) := by
  intro r
  have after : Walk.after (Walk.resolve name site) r =
      r.noting site (r.scopes.binding name) := rfl
  rw [after]
  cases r.scopes.binding name with
  | lexical distance =>
    exact ⟨⟨rfl, rfl, ⟨[], rfl⟩, [(site, distance)], rfl, by simp⟩, rfl⟩
  | global => exact ⟨(Resolver.Keeps.refl r).mono (List.nil_subset _), rfl⟩

theorem within (restores : walk.Restores sites) (names : List String) :
    Restores sites (Walk.within names walk) := by
  intro r
  rw [Walk.within, after_around]
  obtain ⟨kept, inClass⟩ := restores { r with scopes := names :: r.scopes }
  obtain ⟨declared, scopes⟩ := kept.scopes
  refine ⟨⟨kept.inFunction, kept.loopDepth, ⟨[], ?_⟩, kept.locals⟩, inClass⟩
  -- What was declared inside is dropped with the scope.
  change (walk.after _).scopes.tail = r.scopes
  rw [scopes, Scopes.declareEach_cons]
  rfl

theorem inLoop (restores : walk.Restores sites) : Restores sites (Walk.inLoop walk) := by
  intro r
  rw [Walk.inLoop, after_around]
  obtain ⟨kept, inClass⟩ := restores { r with loopDepth := r.loopDepth + 1 }
  refine ⟨⟨kept.inFunction, ?_, kept.scopes, kept.locals⟩, inClass⟩
  change (walk.after _).loopDepth - 1 = r.loopDepth
  rw [kept.loopDepth]
  rfl

theorem inFunction (restores : walk.Restores sites) : Restores sites (Walk.inFunction walk) := by
  intro r
  rw [Walk.inFunction, after_around]
  obtain ⟨kept, inClass⟩ := restores { r with inFunction := true, loopDepth := 0 }
  exact ⟨⟨rfl, rfl, kept.scopes, kept.locals⟩, inClass⟩

theorem inClass (restores : walk.RestoresInClass sites) (inClass : ClassContext) :
    Restores sites (Walk.inClass inClass walk) := by
  intro r
  rw [Walk.inClass, after_around]
  have kept := restores { r with inClass := inClass }
  exact ⟨⟨kept.inFunction, kept.loopDepth, kept.scopes, kept.locals⟩, rfl⟩

end Restores

end Walk

/-! ## Trees -/

open Walk Walk.Restores

mutual

theorem Expr.walk_restores : (expr : Expr Site) → expr.walk.Restores expr.annotations
  | .literal _ => .pure
  | .group inner => inner.walk_restores
  | .unary _ _ operand => operand.walk_restores
  | .binary _ _ left right => left.walk_restores.bind right.walk_restores
  | .logical _ _ left right => left.walk_restores.bind right.walk_restores
  | .comma operands => Expr.walkEach_restores operands
  | .conditional _ condition thenBranch elseBranch =>
    condition.walk_restores.bind (thenBranch.walk_restores.bind elseBranch.walk_restores)
  | .reference name site => .resolve name.text site
  | .assign name site value => value.walk_restores.bind (.resolve name.text site)
  | .property object _ => object.walk_restores
  | .call callee _ arguments => (Expr.walkEach_restores arguments).bind callee.walk_restores
  | .function lambda => lambda.walk_restores
  | .thisInstance line site => by
    refine .ofGet fun r => ?_
    cases r.inClass with
    | outside => exact .throw _
    | _ => exact .resolve thisName site
  | .superMethod line site _ => by
    refine .ofGet fun r => ?_
    cases r.inClass with
    | withSuperclass => exact .resolve superName site
    | _ => exact .throw _

theorem Expr.walkEach_restores : (exprs : List (Expr Site)) →
    Restores (Expr.annotationsEach exprs) (Expr.walkEach exprs)
  | [] => .pure
  | expr :: rest => expr.walk_restores.bind (Expr.walkEach_restores rest)

theorem Expr.walkPart_restores : (part : Option (Expr Site)) →
    Restores (Expr.annotationsPart part) (Expr.walkPart part)
  | none => .pure
  | some expr => expr.walk_restores

theorem Target.walk_restores : (target : Target Site) → target.walk.Restores target.annotations
  | .name name site => .resolve name.text site
  | .property object _ => object.walk_restores

theorem Target.walkEach_restores : (targets : List (Target Site)) →
    Restores (Target.annotationsEach targets) (Target.walkEach targets)
  | [] => .pure
  | target :: rest => target.walk_restores.bind (Target.walkEach_restores rest)

theorem Stmt.walk_restores : (stmt : Stmt Site) → stmt.walk.Restores stmt.annotations
  | .expression value => value.walk_restores
  | .varDecl name initializer => by
    have := (Expr.walkPart_restores initializer).bind (.declare name.text)
    rwa [List.append_nil] at this
  | .assign targets value => value.walk_restores.bind (Target.walkEach_restores targets)
  | .set object _ value => object.walk_restores.bind value.walk_restores
  | .block body => (Stmt.walkEach_restores body).within []
  | .branch condition thenBranch elseBranch =>
    (condition.walk_restores.bind
      (thenBranch.walk_restores.bind (Stmt.walkPart_restores elseBranch))).within []
  | .whileLoop condition body => (condition.walk_restores.bind body.walk_restores.inLoop).within []
  | .forLoop initializer condition increment body =>
    ((Stmt.walkPart_restores initializer).bind ((Expr.walkPart_restores condition).bind
      ((Expr.walkPart_restores increment).bind body.walk_restores.inLoop))).within []
  | .breakLoop line => by
    refine .ofGet fun r => ?_
    split
    · exact .throw _
    · exact .pure
  | .continueLoop line => by
    refine .ofGet fun r => ?_
    split
    · exact .throw _
    · exact .pure
  | .funDecl name lambda => (Walk.Restores.declare name.text).bind lambda.walk_restores
  | .returnValue line value => by
    refine .ofGet fun r => ?_
    split
    · exact Expr.walkPart_restores value
    · exact .throw _
  | .classDecl name none methods =>
    .inClass ((Walk.Restores.declare name.text).bind (Method.walkEach_restores methods)).inAnyClass _
  | .classDecl name (some ⟨parent, site⟩) methods => by
    refine .inClass ((Walk.Restores.declare name.text).inAnyClass.bind ?_) _
    split
    · exact (Walk.Restores.throw _).inAnyClass
    · have methods := (Method.walkEach_restores methods).within [superName]
      exact .bind .enterSubclass ((Walk.Restores.resolve parent.text site).bind methods).inAnyClass

theorem Stmt.walkEach_restores : (stmts : List (Stmt Site)) →
    Restores (Stmt.annotationsEach stmts) (Stmt.walkEach stmts)
  | [] => .pure
  | stmt :: rest => stmt.walk_restores.bind (Stmt.walkEach_restores rest)

theorem Stmt.walkPart_restores : (part : Option (Stmt Site)) →
    Restores (Stmt.annotationsPart part) (Stmt.walkPart part)
  | none => .pure
  | some stmt => stmt.walk_restores

theorem Lambda.walk_restores : (lambda : Lambda Site) → lambda.walk.Restores lambda.annotations
  | ⟨parameters, body⟩ =>
    (((Walk.Restores.declareEach parameters).bind (Stmt.walkEach_restores body)).within []).inFunction

theorem Method.walk_restores : (method : Method Site) → method.walk.Restores method.annotations
  | ⟨_, lambda⟩ => lambda.walk_restores.within [thisName]

theorem Method.walkEach_restores : (methods : List (Method Site)) →
    Restores (Method.annotationsEach methods) (Method.walkEach methods)
  | [] => .pure
  | method :: rest => method.walk_restores.bind (Method.walkEach_restores rest)

end

/-! ## Programs -/

/-- After a statement at the top level, right or wrong, the resolver is where it is before a program. -/
theorem Stmt.after_walk_start (stmt : Stmt Site) (locals : Locals) :
    ∃ notes : Locals, stmt.walk.after (.start locals) = .start (notes ++ locals) ∧
      ∀ note ∈ notes, note.1 ∈ stmt.annotations := by
  obtain ⟨kept, inClass⟩ := stmt.walk_restores (.start locals)
  obtain ⟨names, declared⟩ := kept.scopes
  obtain ⟨notes, noted, within⟩ := kept.locals
  have scopes := declared.trans (Scopes.declareEach_nil names)
  have inFunction := kept.inFunction
  have loopDepth := kept.loopDepth
  refine ⟨notes, ?_, within⟩
  generalize stmt.walk.after (.start locals) = after at *
  obtain ⟨_, _, _, _, _⟩ := after
  cases scopes
  cases inFunction
  cases loopDepth
  cases inClass
  cases noted
  rfl

namespace Resolver

/-- The next statement is resolved from where the last one left the resolver. -/
theorem program_cons (stmt : Stmt Site) (rest : List (Stmt Site)) (r : Resolver) :
    Resolver.program (stmt :: rest) r =
      match stmt.walk r with
      | .ok () _ => Resolver.program rest (stmt.walk.after r)
      | .error error _ =>
        (error :: (Resolver.program rest (stmt.walk.after r)).1,
          (Resolver.program rest (stmt.walk.after r)).2) := by
  simp only [Resolver.program, Walk.after]
  cases stmt.walk r <;> rfl

/-- After a program the resolver is where it was before it, with notes of the occurrences in the
program. -/
theorem program_start (stmts : List (Stmt Site)) (locals : Locals) :
    ∃ notes : Locals, (Resolver.program stmts (.start locals)).2 = .start (notes ++ locals) ∧
      ∀ note ∈ notes, note.1 ∈ Stmt.annotationsEach stmts := by
  induction stmts generalizing locals with
  | nil => exact ⟨[], rfl, fun _ member => nomatch member⟩
  | cons stmt rest ih =>
    obtain ⟨notes, after, within⟩ := stmt.after_walk_start locals
    obtain ⟨further, last, withinRest⟩ := ih (notes ++ locals)
    refine ⟨further ++ notes, ?_, fun note member => ?_⟩
    · have onward : (Resolver.program (stmt :: rest) (.start locals)).2 =
          (Resolver.program rest (stmt.walk.after (.start locals))).2 := by
        rw [program_cons]
        cases stmt.walk (.start locals) <;> rfl
      rw [onward, after, last, List.append_assoc]
    · cases List.mem_append.mp member with
      | inl later => exact List.mem_append_right _ (withinRest note later)
      | inr earlier => exact List.mem_append_left _ (within note earlier)

end Resolver

end Lox
