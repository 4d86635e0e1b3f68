import Lox.Proofs.Checking.Exactness
import Lox.Proofs.Resolving.Contexts
import Mathlib.Data.List.Forall2

/-!
# What the notes of the resolver say

The resolver goes through a program with one state that it changes, and `Stmt.resolve` goes through it with
the surroundings of each part at hand. They find the same: the same error, or else the notes lead every
occurrence to the binding that is written into the tree. That needs sites that are told apart: no two
occurrences of the program share one, and there is no note of them from before.
-/

namespace Lox

/-! ## Tables -/

namespace Locals

theorem distance?_note (locals : Locals) (site other : Site) (distance : Nat) :
    (locals.note site distance).distance? other =
      if other = site then some distance else locals.distance? other := by
  simp only [note, distance?, List.lookup_cons]
  by_cases same : other = site
  · simp [same]
  · rw [if_neg same, beq_false_of_ne same]

theorem binding_note_self (locals : Locals) (site : Site) (distance : Nat) :
    (locals.note site distance).binding site = .lexical distance := by
  rw [binding, distance?_note, if_pos rfl]

/-- Notes of other sites are nothing to a site. -/
theorem distance?_append {notes locals : Locals} {site : Site} (other : ∀ note ∈ notes, note.1 ≠ site) :
    (notes ++ locals).distance? site = locals.distance? site := by
  induction notes with
  | nil => rfl
  | cons note rest ih =>
    have differs : ¬site = note.1 := fun same => other note (.head _) same.symm
    change (Locals.note (rest ++ locals) note.1 note.2).distance? site = _
    rw [distance?_note, if_neg differs]
    exact ih fun later member => other later (.tail _ member)

theorem binding_congr {locals others : Locals} {site : Site}
    (same : locals.distance? site = others.distance? site) :
    locals.binding site = others.binding site := by
  rw [binding, binding, same]

end Locals

namespace Resolver

theorem distance?_noting {site other : Site} (differs : other ≠ site) (binding : Binding)
    (r : Resolver) : (r.noting site binding).locals.distance? other = r.locals.distance? other := by
  cases binding with
  | lexical distance => rw [noting, Locals.distance?_note, if_neg differs]
  | global => rfl

/-- What is noted of a site is found there, if no note of it is left from before. -/
theorem binding_noting {r : Resolver} {site : Site} (fresh : r.locals.distance? site = none)
    (binding : Binding) : (r.noting site binding).locals.binding site = binding := by
  cases binding with
  | lexical distance => rw [noting, Locals.binding_note_self]
  | global => rw [noting, Locals.binding, fresh]

end Resolver

/-! ## Scopes -/

namespace Scopes

/-- The scopes hold the same names, each one those of the other. -/
def Alike : Scopes → Scopes → Prop :=
  List.Forall₂ fun names others => ∀ name, name ∈ names ↔ name ∈ others

namespace Alike

variable {scopes others : Scopes}

theorem binding (alike : scopes.Alike others) (name : String) :
    scopes.binding name = others.binding name := by
  have found : scopes.findIdx? (·.contains name) = others.findIdx? (·.contains name) := by
    induction alike with
    | nil => rfl
    | cons same _ ih =>
      rw [List.findIdx?_cons, List.findIdx?_cons, ih]
      simp only [List.contains_eq_mem, same name]
  rw [Scopes.binding, Scopes.binding, found]

theorem declare (alike : scopes.Alike others) (name : String) :
    (scopes.declare name).Alike (others.declare name) := by
  cases alike with
  | nil => exact .nil
  | cons same further =>
    refine .cons (fun other => ?_) further
    simp only [List.mem_cons, same other]

end Alike

end Scopes

/-- The resolver is where the surroundings say. -/
structure Resolver.Fits (r : Resolver) (s : Surroundings) : Prop where
  scopes : r.scopes.Alike s.scopes
  inFunction : r.inFunction = s.inFunction
  inLoop : r.loopDepth ≠ 0 ↔ s.inLoop = true
  inClass : r.inClass = s.inClass

namespace Resolver.Fits

variable {r : Resolver} {s : Surroundings}

theorem start (locals : Locals) : (Resolver.start locals).Fits .topLevel :=
  ⟨.nil, rfl, by simp [Resolver.start, Surroundings.topLevel], rfl⟩

theorem enter (fits : r.Fits s) (names : List String) :
    Resolver.Fits { r with scopes := names :: r.scopes } (s.enter names) :=
  { fits with scopes := .cons (fun _ => .rfl) fits.scopes }

theorem declare (fits : r.Fits s) (name : String) :
    Resolver.Fits { r with scopes := r.scopes.declare name } (s.declare name) :=
  { fits with scopes := fits.scopes.declare name }

theorem enterLoop (fits : r.Fits s) :
    Resolver.Fits { r with loopDepth := r.loopDepth + 1 } s.enterLoop :=
  { fits with inLoop := iff_of_true (Nat.succ_ne_zero _) rfl }

theorem enterClass (fits : r.Fits s) (inClass : ClassContext) :
    Resolver.Fits { r with inClass := inClass } (s.enterClass inClass) :=
  { fits with inClass := rfl }

theorem leave {names : List String} (fits : r.Fits (s.enter names)) :
    Resolver.Fits { r with scopes := r.scopes.tail } s := by
  refine ⟨?_, fits.inFunction, fits.inLoop, fits.inClass⟩
  change Scopes.Alike r.scopes.tail s.scopes
  cases scopes : r.scopes with
  | nil => exact nomatch scopes ▸ fits.scopes
  | cons innermost outer => exact (List.forall₂_cons.mp (scopes ▸ fits.scopes)).2

/-- In a function, once its parameters are declared. -/
theorem enterFunction (fits : r.Fits s) (parameters : List Name) :
    Resolver.Fits
      { r with
        inFunction := true
        loopDepth := 0
        scopes := Scopes.declareEach (parameters.map (·.text)) ([] :: r.scopes) }
      (s.enterFunction parameters) := by
  rw [Scopes.declareEach_cons]
  exact
    { scopes := .cons (fun name => by simp) fits.scopes
      inFunction := rfl
      inLoop := iff_of_false (fun differs => differs rfl) Bool.false_ne_true
      inClass := fits.inClass }

end Resolver.Fits

/-! ## Scopes that are left -/

namespace Surroundings

/-- Code is in a scope of its own that stands in some surroundings. -/
def IsScopeIn (inside s : Surroundings) : Prop := ∃ names, inside = s.enter names

theorem IsScopeIn.enter (s : Surroundings) (names : List String) : (s.enter names).IsScopeIn s :=
  ⟨names, rfl⟩

theorem IsScopeIn.after {inside s : Surroundings} (isScope : inside.IsScopeIn s)
    (declared : Option String) : (inside.after declared).IsScopeIn s := by
  obtain ⟨names, rfl⟩ := isScope
  cases declared with
  | none => exact ⟨names, rfl⟩
  | some name => exact ⟨name :: names, rfl⟩

theorem enterLoop_after (s : Surroundings) (declared : Option String) :
    (s.after declared).enterLoop = s.enterLoop.after declared := by
  cases declared <;> rfl

/-- After statements that follow each other. -/
def afterEach {β : Type} (s : Surroundings) (stmts : List (Stmt β)) : Surroundings :=
  stmts.foldl (fun s stmt => s.after stmt.declaredName?) s

theorem IsScopeIn.afterEach {β : Type} {inside s : Surroundings} (isScope : inside.IsScopeIn s)
    (stmts : List (Stmt β)) : (inside.afterEach stmts).IsScopeIn s := by
  induction stmts generalizing inside with
  | nil => exact isScope
  | cons stmt rest ih => exact ih (isScope.after stmt.declaredName?)

end Surroundings

/-! ## Findings -/

/-- The notes that were taken of some code are of its occurrences. Provided that its sites are told apart,
and that a table has these notes, the code reads under the table as it is resolved. -/
structure Charts {τ : Type} (read : Site → Binding) (sites : List Site) (bound resolved : τ)
    (before after : Locals) : Prop where
  elsewhere : ∀ site ∉ sites, after.distance? site = before.distance? site
  reads : sites.Nodup → (∀ site ∈ sites, before.distance? site = none) →
    (∀ site ∈ sites, read site = after.binding site) → bound = resolved

namespace Charts

variable {σ τ : Type} {read : Site → Binding} {sites others : List Site}
  {before middle after : Locals}

theorem refl (tree : τ) (locals : Locals) : Charts read [] tree tree locals locals :=
  ⟨fun _ _ => rfl, fun _ _ _ => rfl⟩

/-- The second part of some code may build on what the first one reads as. -/
theorem trans {bound resolved : σ} {tree : τ}
    (first : Charts read sites bound resolved before middle) (whole : σ → τ)
    (second : Charts read others (whole resolved) tree middle after) :
    Charts read (sites ++ others) (whole bound) tree before after := by
  refine ⟨fun site absent => ?_, fun nodup fresh reads => ?_⟩
  · rw [List.mem_append, not_or] at absent
    exact (second.elsewhere site absent.2).trans (first.elsewhere site absent.1)
  · obtain ⟨nodupFirst, nodupSecond, apart⟩ := List.nodup_append.mp nodup
    have mem_left {site : Site} : site ∈ sites → site ∈ sites ++ others :=
      List.mem_append_left _
    have mem_right {site : Site} : site ∈ others → site ∈ sites ++ others :=
      List.mem_append_right _
    -- What the second part notes is not of the first part, and the other way round.
    have firstReads := first.reads nodupFirst (fun site member => fresh site (mem_left member))
      fun site member => by
        have absent : site ∉ others := fun later => apart site member site later rfl
        rw [reads site (mem_left member), Locals.binding_congr (second.elsewhere site absent)]
    have secondReads := second.reads nodupSecond
      (fun site member => by
        have absent : site ∉ sites := fun earlier => apart site earlier site member rfl
        rw [first.elsewhere site absent]
        exact fresh site (mem_right member))
      fun site member => reads site (mem_right member)
    rw [firstReads]
    exact secondReads

theorem map {bound resolved : σ} (charts : Charts read sites bound resolved before after)
    (f : σ → τ) : Charts read sites (f bound) (f resolved) before after :=
  ⟨charts.elsewhere, fun nodup fresh reads => congrArg f (charts.reads nodup fresh reads)⟩

end Charts

/-- From a state of the resolver, a part of the way finds what resolving finds: the same error, or else
notes that chart the resolved code, and it ends where the surroundings say. -/
def Walk.Finds {τ : Type} (read : Site → Binding) (walk : Walk) (r : Resolver) (sites : List Site)
    (bound : τ) (s : Surroundings) (verdict : Except StaticError τ) : Prop :=
  (∃ after resolved, walk r = .ok () after ∧ verdict = .ok resolved ∧ after.Fits s ∧
    Charts read sites bound resolved r.locals after.locals) ∨
  ∃ error after, walk r = .error error after ∧ verdict = .error error

namespace Walk.Finds

variable {σ τ : Type} {read : Site → Binding} {walk first second : Walk} {r : Resolver}
  {sites others : List Site} {s inside : Surroundings}

theorem pure (fits : r.Fits s) (tree : τ) : Finds read (pure ()) r [] tree s (.ok tree) :=
  .inl ⟨r, tree, rfl, rfl, fits, .refl tree _⟩

/-- Code whose way depends on the state in which it begins. -/
theorem ofGet {choice : Resolver → Walk} {bound : τ} {verdict : Except StaticError τ}
    (found : Finds read (choice r) r sites bound s verdict) :
    Finds read (get >>= choice) r sites bound s verdict :=
  found

theorem throw (error : StaticError) (bound : τ) :
    Finds read (throw error) r sites bound s (.error error) :=
  .inr ⟨error, r, rfl, rfl⟩

theorem seq {bound : σ} {boundRest : σ → τ} {whole : τ} {verdict : Except StaticError σ}
    {rest : σ → Except StaticError τ} (found : Finds read first r sites bound inside verdict)
    (further : ∀ after resolved, after.Fits inside →
      Finds read second after others (boundRest resolved) s (rest resolved))
    (same : whole = boundRest bound := by rfl) :
    Finds read (first >>= fun _ => second) r (sites ++ others) whole s (verdict >>= rest) := by
  have run : (first >>= fun _ => second) r = EStateM.bind first (fun _ => second) r := rfl
  obtain ⟨middle, resolved, ends, rfl, fits, charts⟩ | ⟨error, after, ends, rfl⟩ := found
  · have onward : (first >>= fun _ => second) r = second middle := by
      rw [run, EStateM.bind, ends]
    obtain ⟨after, tree, endsRest, known, fits, chartsRest⟩ | ⟨error, after, endsRest, known⟩ :=
      further middle resolved fits
    · refine .inl ⟨after, tree, onward.trans endsRest, known, fits, ?_⟩
      rw [same]
      exact charts.trans boundRest chartsRest
    · exact .inr ⟨error, after, onward.trans endsRest, known⟩
  · exact .inr ⟨error, after, by rw [run, EStateM.bind, ends], rfl⟩

theorem map {bound : σ} {verdict : Except StaticError σ} {whole : τ} {f : σ → τ}
    (found : Finds read walk r sites bound s verdict) (same : whole = f bound := by rfl) :
    Finds read walk r sites whole s (verdict >>= fun tree => .ok (f tree)) := by
  subst same
  obtain ⟨after, resolved, ends, rfl, fits, charts⟩ | ⟨error, after, ends, rfl⟩ := found
  · exact .inl ⟨after, f resolved, ends, rfl, fits, charts.map f⟩
  · exact .inr ⟨error, after, ends, rfl⟩

/-- A change of the resolver that leaves its notes alone comes before some code. -/
theorem afterModify {bound : τ} {verdict : Except StaticError τ} {change : Resolver → Resolver}
    (found : Finds read walk (change r) sites bound s verdict)
    (keepsNotes : (change r).locals = r.locals) :
    Finds read (modify change >>= fun _ => walk) r sites bound s verdict := by
  rw [Finds, keepsNotes] at found
  exact found

/-- A signal that may only stand in a loop. -/
theorem unlessOutsideLoop (fits : r.Fits s) (error : StaticError) (tree : τ) :
    Finds read (if r.loopDepth = 0 then MonadExcept.throw error else Pure.pure ()) r [] tree s
      (if s.inLoop then .ok tree else .error error) := by
  by_cases outside : r.loopDepth = 0
  · have notInLoop : ¬s.inLoop = true := fun inLoop => fits.inLoop.mpr inLoop outside
    rw [if_pos outside, if_neg notInLoop]
    exact .throw _ _
  · rw [if_neg outside, if_pos (fits.inLoop.mp outside)]
    exact .pure fits tree

theorem declareAfter {bound : τ} {verdict : Except StaticError τ} {name : String}
    (found : Finds read walk r sites bound s verdict) :
    Finds read (walk >>= fun _ => Walk.declare name) r sites bound (s.declare name) verdict := by
  have run : (walk >>= fun _ => Walk.declare name) r =
      EStateM.bind walk (fun _ => Walk.declare name) r := rfl
  obtain ⟨after, resolved, ends, known, fits, charts⟩ | ⟨error, after, ends, known⟩ := found
  · exact .inl ⟨_, resolved, by rw [run, EStateM.bind, ends]; rfl, known, fits.declare name, charts⟩
  · exact .inr ⟨error, after, by rw [run, EStateM.bind, ends], known⟩

theorem resolve (f : Binding → τ) (fits : r.Fits s) (name : String) (site : Site) :
    Finds read (Walk.resolve name site) r [site] (f (read site)) s (.ok (f (s.binding name))) := by
  have bound : r.scopes.binding name = s.binding name := fits.scopes.binding name
  have run : Walk.resolve name site r = .ok () (r.noting site (r.scopes.binding name)) := rfl
  rw [bound] at run
  refine .inl ⟨_, _, run, rfl, ?_, fun other absent => ?_, fun _ fresh reads => ?_⟩
  · cases s.binding name <;> exact ⟨fits.scopes, fits.inFunction, fits.inLoop, fits.inClass⟩
  · exact Resolver.distance?_noting (List.ne_of_not_mem_cons absent) _ r
  · rw [reads site (.head _), Resolver.binding_noting (fresh site (.head _))]

/-- What is found on a part of the way is found of the code around it, where the context is put in place
before and taken back after. -/
theorem around {bound : τ} {verdict : Except StaticError τ} {enter : Resolver → Resolver}
    {leave : Resolver → Resolver → Resolver}
    (found : Finds read walk (enter r) sites bound inside verdict)
    (keepsNotes : (enter r).locals = r.locals)
    (takesBack : ∀ after, walk (enter r) = .ok () after → after.Fits inside →
      (leave r after).Fits s ∧ (leave r after).locals = after.locals) :
    Finds read (Walk.around enter leave walk) r sites bound s verdict := by
  obtain ⟨after, resolved, ends, known, fits, charts⟩ | ⟨error, after, ends, known⟩ := found
  · obtain ⟨fitsOutside, sameNotes⟩ := takesBack after ends fits
    refine .inl ⟨leave r after, resolved, ?_, known, fitsOutside, ?_⟩
    · rw [Walk.around, ends]
    · rw [sameNotes, ← keepsNotes]
      exact charts
  · exact .inr ⟨error, leave r after, by rw [Walk.around, ends], known⟩

theorem within {bound : τ} {verdict : Except StaticError τ} {names : List String}
    (found : Finds read walk { r with scopes := names :: r.scopes } sites bound inside verdict)
    (isScope : inside.IsScopeIn s) : Finds read (Walk.within names walk) r sites bound s verdict := by
  refine found.around rfl fun after _ fits => ⟨?_, rfl⟩
  obtain ⟨names, rfl⟩ := isScope
  exact fits.leave

/-- A body is left in as many loops as it was entered in, since all code is. -/
theorem inLoop {bound : τ} {verdict : Except StaticError τ} {declared : Option String}
    (restores : walk.Restores sites)
    (found : Finds read walk { r with loopDepth := r.loopDepth + 1 } sites bound
      (s.enterLoop.after declared) verdict) (fits : r.Fits s) :
    Finds read (Walk.inLoop walk) r sites bound (s.after declared) verdict := by
  rw [← Surroundings.enterLoop_after] at found
  refine found.around rfl fun after ends inside => ⟨?_, rfl⟩
  have kept := (restores { r with loopDepth := r.loopDepth + 1 }).1.loopDepth
  rw [Walk.after, ends] at kept
  refine ⟨inside.scopes, inside.inFunction, ?_, inside.inClass⟩
  change after.loopDepth - 1 ≠ 0 ↔ _
  rw [kept, Surroundings.inLoop_after]
  exact fits.inLoop

theorem inFunction {bound : τ} {verdict : Except StaticError τ} (fits : r.Fits s)
    (found : Finds read walk { r with inFunction := true, loopDepth := 0 } sites bound
      { s with inFunction := true, inLoop := false } verdict) :
    Finds read (Walk.inFunction walk) r sites bound s verdict := by
  refine found.around rfl fun after _ inside => ⟨?_, rfl⟩
  exact ⟨inside.scopes, fits.inFunction, fits.inLoop, inside.inClass⟩

theorem inClass {bound : τ} {verdict : Except StaticError τ} {inClass : ClassContext}
    (known : ClassContext)
    (outside : r.inClass = s.inClass)
    (found : Finds read walk { r with inClass := inClass } sites bound (s.enterClass known) verdict) :
    Finds read (Walk.inClass inClass walk) r sites bound s verdict := by
  refine found.around rfl fun after _ inside => ⟨?_, rfl⟩
  exact ⟨inside.scopes, inside.inFunction, inside.inLoop, outside⟩

end Walk.Finds

/-! ## Trees -/

open Walk

section

variable {read : Site → Binding}

mutual

theorem Expr.walk_finds {r : Resolver} {s : Surroundings} (expr : Expr Site) (fits : r.Fits s) :
    Finds read expr.walk r expr.annotations (expr.map read) s
      (Expr.resolve s (expr.map fun _ => ())) := by
  cases expr with
  | literal value => exact .pure fits _
  | group inner => exact (inner.walk_finds fits).map
  | unary operator line operand => exact (operand.walk_finds fits).map
  | binary operator line left right =>
    exact .seq (left.walk_finds fits) (fun _ _ fits => (right.walk_finds fits).map)
  | logical operator line left right =>
    exact .seq (left.walk_finds fits) (fun _ _ fits => (right.walk_finds fits).map)
  | comma operands => exact (Expr.walkEach_finds operands fits).map
  | conditional line condition thenBranch elseBranch =>
    exact .seq (condition.walk_finds fits) (fun _ _ fits =>
      .seq (thenBranch.walk_finds fits) (fun _ _ fits =>
        (elseBranch.walk_finds fits).map))
  | reference name site => exact .resolve (Expr.reference name) fits name.text site
  | assign name site value =>
    exact .seq (value.walk_finds fits) fun _ value fits =>
      .resolve (Expr.assign name · value) fits name.text site
  | property object name => exact (object.walk_finds fits).map
  | call callee line arguments =>
    exact .seq (Expr.walkEach_finds arguments fits) (fun _ _ fits =>
      (callee.walk_finds fits).map)
  | function lambda => exact (lambda.walk_finds fits).map
  | thisInstance line site =>
    refine .ofGet ?_
    simp only [Expr.map, Expr.resolve, fits.inClass]
    cases s.inClass with
    | outside => exact .throw _ _
    | _ => exact .resolve (Expr.thisInstance line) fits thisName site
  | superMethod line site method =>
    refine .ofGet ?_
    simp only [Expr.map, Expr.resolve, fits.inClass]
    cases s.inClass with
    | withSuperclass => exact .resolve (Expr.superMethod line · method) fits superName site
    | _ => exact .throw _ _

theorem Expr.walkEach_finds {r : Resolver} {s : Surroundings} (exprs : List (Expr Site))
    (fits : r.Fits s) :
    Finds read (Expr.walkEach exprs) r (Expr.annotationsEach exprs) (Expr.mapEach read exprs) s
      (Expr.resolveEach s (Expr.mapEach (fun _ => ()) exprs)) := by
  cases exprs with
  | nil => exact .pure fits _
  | cons expr rest =>
    exact .seq (expr.walk_finds fits) (fun _ _ fits => (Expr.walkEach_finds rest fits).map)

theorem Expr.walkPart_finds {r : Resolver} {s : Surroundings} (part : Option (Expr Site))
    (fits : r.Fits s) :
    Finds read (Expr.walkPart part) r (Expr.annotationsPart part) (Expr.mapPart read part) s
      (Expr.resolvePart s (Expr.mapPart (fun _ => ()) part)) := by
  cases part with
  | none => exact .pure fits _
  | some expr => exact (expr.walk_finds fits).map

theorem Target.walk_finds {r : Resolver} {s : Surroundings} (target : Target Site) (fits : r.Fits s) :
    Finds read target.walk r target.annotations (target.map read) s
      (Target.resolve s (target.map fun _ => ())) := by
  cases target with
  | name name site => exact .resolve (Target.name name) fits name.text site
  | property object name => exact (object.walk_finds fits).map

theorem Target.walkEach_finds {r : Resolver} {s : Surroundings} (targets : List (Target Site))
    (fits : r.Fits s) :
    Finds read (Target.walkEach targets) r (Target.annotationsEach targets)
      (Target.mapEach read targets) s
      (Target.resolveEach s (Target.mapEach (fun _ => ()) targets)) := by
  cases targets with
  | nil => exact .pure fits _
  | cons target rest =>
    exact .seq (target.walk_finds fits) (fun _ _ fits => (Target.walkEach_finds rest fits).map)

theorem Stmt.walk_finds {r : Resolver} {s : Surroundings} (stmt : Stmt Site) (fits : r.Fits s) :
    Finds read stmt.walk r stmt.annotations (stmt.map read) (s.after stmt.declaredName?)
      (Stmt.resolve s (stmt.map fun _ => ())) := by
  cases stmt with
  | expression value => exact (value.walk_finds fits).map
  | varDecl name initializer =>
    refine .declareAfter ?_
    exact (Expr.walkPart_finds initializer fits).map
  | assign targets value =>
    exact .seq (value.walk_finds fits) (fun _ _ fits =>
      (Target.walkEach_finds targets fits).map)
  | set object name value =>
    exact .seq (object.walk_finds fits) (fun _ _ fits => (value.walk_finds fits).map)
  | block body =>
    exact ((Stmt.walkEach_finds body (fits.enter [])).map).within (.afterEach (.enter s []) body)
  | branch condition thenBranch elseBranch =>
    simp only [Stmt.map, Stmt.resolve, Stmt.declaredName?_map]
    exact .within (.seq (condition.walk_finds (fits.enter [])) fun _ _ fits =>
      .seq (thenBranch.walk_finds fits) fun _ _ fits =>
        (Stmt.walkPart_finds elseBranch fits).map)
      (((Surroundings.IsScopeIn.enter s []).after _).after _)
  | whileLoop condition body =>
    have loopBody {r : Resolver} {s : Surroundings} (fits : r.Fits s) :=
      Finds.inLoop body.walk_restores (body.walk_finds fits.enterLoop) fits
    exact .within (.seq (condition.walk_finds (fits.enter [])) fun _ _ fits => (loopBody fits).map)
      ((Surroundings.IsScopeIn.enter s []).after _)
  | forLoop initializer condition increment body =>
    have loopBody {r : Resolver} {s : Surroundings} (fits : r.Fits s) :=
      Finds.inLoop body.walk_restores (body.walk_finds fits.enterLoop) fits
    have declared : (Stmt.mapPart (fun _ => ()) initializer).bind Stmt.declaredName? =
        initializer.bind Stmt.declaredName? := by
      cases initializer with
      | none => rfl
      | some stmt => exact stmt.declaredName?_map _
    simp only [Stmt.map, Stmt.resolve, declared]
    exact .within (.seq (Stmt.walkPart_finds initializer (fits.enter [])) fun _ _ fits =>
      .seq (Expr.walkPart_finds condition fits) fun _ _ fits =>
        .seq (Expr.walkPart_finds increment fits) fun _ _ fits => (loopBody fits).map)
      (((Surroundings.IsScopeIn.enter s []).after _).after _)
  | breakLoop line => exact .ofGet (.unlessOutsideLoop fits _ _)
  | continueLoop line => exact .ofGet (.unlessOutsideLoop fits _ _)
  | funDecl name lambda =>
    refine .afterModify ?_ rfl
    exact (lambda.walk_finds (fits.declare name.text)).map
  | returnValue line value =>
    refine .ofGet ?_
    simp only [Stmt.map, Stmt.resolve, fits.inFunction]
    split
    · exact (Expr.walkPart_finds value fits).map
    · exact .throw _ _
  | classDecl name superclass methods =>
    cases superclass with
    | none =>
      refine .inClass .withoutSuperclass (fits.declare name.text).inClass (.afterModify ?_ rfl)
      have inside := (fits.declare name.text).enterClass .withoutSuperclass
      exact (Method.walkEach_finds methods inside).map
    | some parent =>
      obtain ⟨parent, site⟩ := parent
      refine .inClass .withSuperclass (fits.declare name.text).inClass (.afterModify ?_ rfl)
      simp only [Stmt.map, Stmt.resolve, Option.map, Superclass.map]
      split
      · exact .throw _ _
      · have inside := (fits.declare name.text).enterClass .withSuperclass
        have scope {r : Resolver} {s : Surroundings} (fits : r.Fits s) :=
          (Method.walkEach_finds methods (fits.enter [superName])).within (.enter s _)
        refine .afterModify ?_ rfl
        have both := Finds.seq (.resolve (fun binding => binding) inside parent.text site)
          fun _ binding fits => (scope fits).map (f := Stmt.classDecl name (some ⟨parent, binding⟩))
        exact both

theorem Stmt.walkEach_finds {r : Resolver} {s : Surroundings} (stmts : List (Stmt Site))
    (fits : r.Fits s) :
    Finds read (Stmt.walkEach stmts) r (Stmt.annotationsEach stmts) (Stmt.mapEach read stmts)
      (s.afterEach stmts) (Stmt.resolveEach s (Stmt.mapEach (fun _ => ()) stmts)) := by
  cases stmts with
  | nil => exact .pure fits _
  | cons stmt rest =>
    exact .seq (stmt.walk_finds fits) fun _ _ fits => by
      rw [Stmt.declaredName?_map]
      exact (Stmt.walkEach_finds rest fits).map

theorem Stmt.walkPart_finds {r : Resolver} {s : Surroundings} (part : Option (Stmt Site))
    (fits : r.Fits s) :
    Finds read (Stmt.walkPart part) r (Stmt.annotationsPart part) (Stmt.mapPart read part)
      (s.after (part.bind Stmt.declaredName?))
      (Stmt.resolvePart s (Stmt.mapPart (fun _ => ()) part)) := by
  cases part with
  | none => exact .pure fits _
  | some stmt => exact (stmt.walk_finds fits).map

theorem Lambda.walk_finds {r : Resolver} {s : Surroundings} (lambda : Lambda Site)
    (fits : r.Fits s) :
    Finds read lambda.walk r lambda.annotations (lambda.map read) s
      (Lambda.resolve s (lambda.map fun _ => ())) := by
  obtain ⟨parameters, body⟩ := lambda
  refine .inFunction fits (.map (.within ?_ (.afterEach (.enter _ (parameters.map (·.text))) body)))
  rw [Walk.declareEach_eq]
  exact .afterModify (Stmt.walkEach_finds body (fits.enterFunction parameters)) rfl

theorem Method.walk_finds {r : Resolver} {s : Surroundings} (method : Method Site)
    (fits : r.Fits s) :
    Finds read method.walk r method.annotations (method.map read) s
      (Method.resolve s (method.map fun _ => ())) := by
  obtain ⟨name, lambda⟩ := method
  exact ((lambda.walk_finds (fits.enter [thisName])).map).within (.enter s _)

theorem Method.walkEach_finds {r : Resolver} {s : Surroundings} (methods : List (Method Site))
    (fits : r.Fits s) :
    Finds read (Method.walkEach methods) r (Method.annotationsEach methods)
      (Method.mapEach read methods) s
      (Method.resolveEach s (Method.mapEach (fun _ => ()) methods)) := by
  cases methods with
  | nil => exact .pure fits _
  | cons method rest =>
    exact .seq (method.walk_finds fits) (fun _ _ fits => (Method.walkEach_finds rest fits).map)

end

/-! ## Programs -/

namespace Resolver

end Resolver

end

/-- What a program notes is nothing to the occurrences that are not in it. -/
theorem Resolver.distance?_program {stmts : List (Stmt Site)} (locals : Locals) {site : Site}
    (absent : site ∉ Stmt.annotationsEach stmts) :
    (Resolver.program stmts (.start locals)).2.locals.distance? site = locals.distance? site := by
  obtain ⟨notes, start, within⟩ := Resolver.program_start stmts locals
  rw [start]
  refine Locals.distance?_append fun note member same => absent ?_
  rw [← same]
  exact within note member

end Lox
