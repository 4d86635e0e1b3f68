import Lox.Proofs.Checking.Enclosures

/-!
# The static checks are exact

Resolving a statement fails if and only if the statement holds a violation, and it reports the first
violation in the order of evaluation. What surrounds the code while it is resolved reflects what
encloses it, wherever it is; that is all the checks look at.
-/

namespace Lox

/-! ## Surroundings and enclosures -/

/-- What is known of the class around some code, as `resolve` keeps it. -/
def ClassContext.ofInnermost : Option Bool → ClassContext
  | none => .outside
  | some false => .withoutSuperclass
  | some true => .withSuperclass

namespace Enclosures

variable {around : Enclosures} {enclosure : Enclosure}

theorem not_inLoop_of_isFunction (isFunction : enclosure.isFunction) :
    ¬InLoop (enclosure :: around) := by
  simp [InLoop, isFunction]

theorem inFunction_of_isFunction (isFunction : enclosure.isFunction) :
    InFunction (enclosure :: around) :=
  ⟨enclosure, .head _, isFunction⟩

theorem inLoop_loopBody : InLoop (.loopBody :: around) := by
  simp [InLoop, Enclosure.isFunction]

theorem inFunction_loopBody : InFunction (.loopBody :: around) ↔ around.InFunction := by
  simp [InFunction, Enclosure.isFunction]

theorem inMethod_loopBody : InMethod (.loopBody :: around) ↔ around.InMethod := by
  simp [InMethod]

theorem inMethod_functionBody : InMethod (.functionBody :: around) ↔ around.InMethod := by
  simp [InMethod]

end Enclosures

/-- The surroundings say of the enclosures what the checks ask for. Outside of methods there is no
class around, since nothing but methods stands in the body of a class. -/
structure Surroundings.Reflects (s : Surroundings) (around : Enclosures) : Prop where
  inLoop : s.inLoop = true ↔ around.InLoop
  inFunction : s.inFunction = true ↔ around.InFunction
  inClass : s.inClass = .ofInnermost around.innermostClass?
  inMethod : around.InMethod ↔ around.innermostClass?.isSome

namespace Surroundings.Reflects

variable {s : Surroundings} {around : Enclosures}

theorem topLevel : Surroundings.topLevel.Reflects [] := by
  refine ⟨?_, ?_, rfl, ?_⟩ <;>
    simp [Surroundings.topLevel, Enclosures.InLoop, Enclosures.InFunction, Enclosures.InMethod,
      Enclosures.innermostClass?]

/-- Scopes are nothing to the enclosures. -/
theorem enter (reflects : s.Reflects around) (names : List String) :
    (s.enter names).Reflects around :=
  ⟨reflects.inLoop, reflects.inFunction, reflects.inClass, reflects.inMethod⟩

theorem declare (reflects : s.Reflects around) (name : String) : (s.declare name).Reflects around :=
  ⟨reflects.inLoop, reflects.inFunction, reflects.inClass, reflects.inMethod⟩

theorem after (reflects : s.Reflects around) (name : Option String) :
    (s.after name).Reflects around := by
  cases name with
  | none => exact reflects
  | some name => exact reflects.declare name

theorem enterLoop (reflects : s.Reflects around) : s.enterLoop.Reflects (.loopBody :: around) :=
  { inLoop := iff_of_true rfl Enclosures.inLoop_loopBody
    inFunction := reflects.inFunction.trans Enclosures.inFunction_loopBody.symm
    inClass := reflects.inClass
    inMethod := Enclosures.inMethod_loopBody.trans reflects.inMethod }

/-- In a function the loops around it do not count, but the class does. -/
theorem enterFunction (reflects : s.Reflects around) (parameters : List Name) :
    (s.enterFunction parameters).Reflects (.functionBody :: around) :=
  { inLoop := iff_of_false Bool.false_ne_true (Enclosures.not_inLoop_of_isFunction rfl)
    inFunction := iff_of_true rfl (Enclosures.inFunction_of_isFunction rfl)
    inClass := reflects.inClass
    inMethod := Enclosures.inMethod_functionBody.trans reflects.inMethod }

/-- In a method nothing counts but its class. -/
theorem enterMethod {hasSuperclass : Bool} (parameters : List Name)
    (inClass : s.inClass = .ofInnermost (some hasSuperclass)) :
    (s.enterFunction parameters).Reflects
      (.methodBody :: .classBody hasSuperclass :: around) :=
  { inLoop := iff_of_false Bool.false_ne_true (Enclosures.not_inLoop_of_isFunction rfl)
    inFunction := iff_of_true rfl (Enclosures.inFunction_of_isFunction rfl)
    inClass := inClass
    inMethod := iff_of_true (.head _) rfl }

end Surroundings.Reflects

/-! ## Reports -/

/-- Resolving code with these occurrences gave an error if and only if one of them is a violation,
and then it is that of the first one. -/
def Reports {α : Type} (occurrences : List Occurrence) : Except StaticError α → Prop
  | .ok _ => ∀ occurrence ∈ occurrences, ¬occurrence.IsViolation
  | .error error => ∃ before violation after, occurrences = before ++ violation :: after ∧
      (∀ occurrence ∈ before, ¬occurrence.IsViolation) ∧ violation.IsViolation ∧
        error = violation.error

namespace Reports

variable {α β : Type} {occurrences further : List Occurrence} {first : Except StaticError α}
  {rest : α → Except StaticError β}

theorem ok (value : α) : Reports [] (.ok value) := List.forall_mem_nil _

/-- What is resolved second is only come to if there is no violation in what is resolved first. -/
theorem bind (reports : Reports occurrences first)
    (reportsRest : ∀ value, Reports further (rest value)) :
    Reports (occurrences ++ further) (first >>= rest) := by
  cases first with
  | error error =>
    obtain ⟨before, violation, after, rfl, clean, violates, same⟩ := reports
    exact ⟨before, violation, after ++ further, by simp, clean, violates, same⟩
  | ok value =>
    have reportsRest := reportsRest value
    change Reports (occurrences ++ further) (rest value)
    cases ends : rest value with
    | ok result =>
      rw [ends] at reportsRest
      exact List.forall_mem_append.mpr ⟨reports, reportsRest⟩
    | error error =>
      -- What was resolved first is clean, so the first violation of the rest is that of both.
      rw [ends] at reportsRest
      obtain ⟨before, violation, after, rfl, clean, violates, same⟩ := reportsRest
      exact ⟨occurrences ++ before, violation, after, by simp,
        List.forall_mem_append.mpr ⟨reports, clean⟩, violates, same⟩

theorem map (reports : Reports occurrences first) (f : α → β) :
    Reports occurrences (first >>= fun value => .ok (f value)) := by
  have mapped := reports.bind fun value => ok (f value)
  rwa [List.append_nil] at mapped

/-- One occurrence that is checked. -/
theorem single {occurrence : Occurrence} {error : StaticError} {value : α}
    {condition : Prop} [Decidable condition] (allowed : condition ↔ ¬occurrence.IsViolation)
    (same : ¬condition → error = occurrence.error) :
    Reports [occurrence] (if condition then .ok value else .error error) := by
  split
  case isTrue holds => exact List.forall_mem_singleton.mpr (allowed.mp holds)
  case isFalse fails =>
    have violates := Decidable.not_not.mp (fails ∘ allowed.mpr)
    exact ⟨[], occurrence, [], rfl, List.forall_mem_nil _, violates, same fails⟩

/-- One occurrence that is checked, and code that is come to if it is allowed. -/
theorem guard {occurrence : Occurrence} {error : StaticError} {condition : Prop}
    [Decidable condition] (allowed : condition ↔ ¬occurrence.IsViolation)
    (same : ¬condition → error = occurrence.error) (reports : Reports occurrences first) :
    Reports (occurrence :: occurrences) (if condition then first else .error error) := by
  have checked : Reports [occurrence] (if condition then .ok () else .error error) :=
    single allowed same
  have both := checked.bind fun _ => reports
  split at both
  case isTrue holds => rwa [if_pos holds]
  case isFalse fails => rwa [if_neg fails]

end Reports

/-! ## `this` and `super` -/

section

variable {s : Surroundings} {around : Enclosures}

theorem Surroundings.Reflects.outside_iff (reflects : s.Reflects around) :
    s.inClass = .outside ↔ ¬around.InMethod := by
  rw [reflects.inClass, reflects.inMethod]
  rcases around.innermostClass? with _ | _ | _ <;> simp [ClassContext.ofInnermost]

theorem Expr.reports_thisInstance (reflects : s.Reflects around) (line : Nat) :
    Reports [⟨.thisExpression, Keyword.kwThis.token line, around⟩]
      ((Expr.thisInstance line ()).resolve s) := by
  simp only [Expr.resolve]
  split
  case h_1 outside =>
    have violates := reflects.outside_iff.mp outside
    exact ⟨[], _, [], rfl, List.forall_mem_nil _, violates, rfl⟩
  case h_2 inside =>
    have inMethod := Decidable.not_not.mp fun free => inside (reflects.outside_iff.mpr free)
    exact List.forall_mem_singleton.mpr fun violates => violates inMethod

theorem Expr.reports_superMethod (reflects : s.Reflects around) (line : Nat) (method : Name) :
    Reports [⟨.superExpression, Keyword.kwSuper.token line, around⟩]
      ((Expr.superMethod line () method).resolve s) := by
  have inClass := reflects.inClass
  simp only [Expr.resolve]
  rcases innermost : around.innermostClass? with _ | _ | _ <;>
    rw [innermost, ClassContext.ofInnermost] at inClass <;> rw [inClass] <;> dsimp only
  case none | some.false =>
    exact ⟨[], _, [], rfl, List.forall_mem_nil _, by simp [Occurrence.IsViolation, innermost],
      by simp [Occurrence.error, Occurrence.problem, innermost]⟩
  case some.true =>
    exact List.forall_mem_singleton.mpr fun violates => violates innermost

end

/-! ## The whole tree -/

mutual

theorem Expr.reports_resolve {s : Surroundings} {around : Enclosures}
    (expr : Expr Unit) (reflects : s.Reflects around) :
    Reports (expr.occurrences around) (expr.resolve s) := by
  cases expr with
  | literal value => exact .ok _
  | group inner => exact (inner.reports_resolve reflects).map _
  | unary operator line operand => exact (operand.reports_resolve reflects).map _
  | binary operator line left right =>
    exact (left.reports_resolve reflects).bind fun _ => (right.reports_resolve reflects).map _
  | logical operator line left right =>
    exact (left.reports_resolve reflects).bind fun _ => (right.reports_resolve reflects).map _
  | comma operands => exact (Expr.reports_resolveEach operands reflects).map _
  | conditional line condition thenBranch elseBranch =>
    rw [Expr.occurrences, List.append_assoc]
    exact (condition.reports_resolve reflects).bind fun _ =>
      (thenBranch.reports_resolve reflects).bind fun _ =>
        (elseBranch.reports_resolve reflects).map _
  | reference name _ => exact .ok _
  | assign name _ value => exact (value.reports_resolve reflects).map _
  | property object name => exact (object.reports_resolve reflects).map _
  | call callee line arguments =>
    exact (Expr.reports_resolveEach arguments reflects).bind fun _ =>
      (callee.reports_resolve reflects).map _
  | function lambda =>
    exact (lambda.reports_resolve fun parameters => reflects.enterFunction parameters).map _
  | thisInstance line _ => exact Expr.reports_thisInstance reflects line
  | superMethod line _ method => exact Expr.reports_superMethod reflects line method

theorem Expr.reports_resolveEach {s : Surroundings} {around : Enclosures}
    (exprs : List (Expr Unit)) (reflects : s.Reflects around) :
    Reports (Expr.occurrencesEach around exprs) (Expr.resolveEach s exprs) := by
  cases exprs with
  | nil => exact .ok _
  | cons expr rest =>
    exact (expr.reports_resolve reflects).bind fun _ =>
      (Expr.reports_resolveEach rest reflects).map _

theorem Expr.reports_resolvePart {s : Surroundings} {around : Enclosures}
    (part : Option (Expr Unit)) (reflects : s.Reflects around) :
    Reports (Expr.occurrencesPart around part) (Expr.resolvePart s part) := by
  cases part with
  | none => exact .ok _
  | some expr => exact (expr.reports_resolve reflects).map _

theorem Target.reports_resolve {s : Surroundings} {around : Enclosures}
    (target : Target Unit) (reflects : s.Reflects around) :
    Reports (target.occurrences around) (target.resolve s) := by
  cases target with
  | name name _ => exact .ok _
  | property object name => exact (object.reports_resolve reflects).map _

theorem Target.reports_resolveEach {s : Surroundings} {around : Enclosures}
    (targets : List (Target Unit)) (reflects : s.Reflects around) :
    Reports (Target.occurrencesEach around targets) (Target.resolveEach s targets) := by
  cases targets with
  | nil => exact .ok _
  | cons target rest =>
    exact (target.reports_resolve reflects).bind fun _ =>
      (Target.reports_resolveEach rest reflects).map _

theorem Stmt.reports_resolve {s : Surroundings} {around : Enclosures}
    (stmt : Stmt Unit) (reflects : s.Reflects around) :
    Reports (stmt.occurrences around) (stmt.resolve s) := by
  cases stmt with
  | expression value => exact (value.reports_resolve reflects).map _
  | varDecl name initializer => exact (Expr.reports_resolvePart initializer reflects).map _
  | assign targets value =>
    exact (value.reports_resolve reflects).bind fun _ =>
      (Target.reports_resolveEach targets reflects).map _
  | set object name value =>
    exact (object.reports_resolve reflects).bind fun _ => (value.reports_resolve reflects).map _
  | block body => exact (Stmt.reports_resolveEach body (reflects.enter [])).map _
  | branch condition thenBranch elseBranch =>
    have inside := reflects.enter []
    rw [Stmt.occurrences, List.append_assoc]
    exact (condition.reports_resolve inside).bind fun _ =>
      (thenBranch.reports_resolve inside).bind fun _ =>
        (Stmt.reports_resolvePart elseBranch (inside.after _)).map _
  | whileLoop condition body =>
    have inside := reflects.enter []
    exact (condition.reports_resolve inside).bind fun _ =>
      (body.reports_resolve inside.enterLoop).map _
  | forLoop initializer condition increment body =>
    have inside := (reflects.enter []).after (initializer.bind Stmt.declaredName?)
    rw [Stmt.occurrences, List.append_assoc, List.append_assoc]
    exact (Stmt.reports_resolvePart initializer (reflects.enter [])).bind fun _ =>
      (Expr.reports_resolvePart condition inside).bind fun _ =>
        (Expr.reports_resolvePart increment inside).bind fun _ =>
          (body.reports_resolve inside.enterLoop).map _
  | breakLoop line =>
    exact .single (reflects.inLoop.trans Decidable.not_not.symm) fun _ => rfl
  | continueLoop line =>
    exact .single (reflects.inLoop.trans Decidable.not_not.symm) fun _ => rfl
  | funDecl name lambda =>
    have inside := reflects.declare name.text
    exact (lambda.reports_resolve fun parameters => inside.enterFunction parameters).map _
  | returnValue line value =>
    exact .guard (reflects.inFunction.trans Decidable.not_not.symm) (fun _ => rfl)
      ((Expr.reports_resolvePart value reflects).map _)
  | classDecl name superclass methods =>
    cases superclass with
    | none =>
      let inside := (s.declare name.text).enterClass .withoutSuperclass
      have reports : Reports (Method.occurrencesEach (.classBody false :: around) methods)
          (Method.resolveEach inside methods) := Method.reports_resolveEach methods rfl
      exact reports.map _
    | some parent =>
      obtain ⟨parent, ⟨⟩⟩ := parent
      let inside := (s.declare name.text).enterClass .withSuperclass
      let inheritance : Occurrence :=
        ⟨.inheritance name.text parent.text, parent.token, around⟩
      have reports : Reports (Method.occurrencesEach (.classBody true :: around) methods)
          (Method.resolveEach (inside.enter [superName]) methods) :=
        Method.reports_resolveEach methods rfl
      -- The superclass is checked before the methods are come to.
      have allowed : parent.text ≠ name.text ↔ ¬inheritance.IsViolation := Iff.rfl
      have checked := Reports.guard allowed (fun _ => rfl)
        (reports.map (Stmt.classDecl name (some ⟨parent, inside.binding parent.text⟩)))
      rwa [ite_not] at checked

theorem Stmt.reports_resolveEach {s : Surroundings} {around : Enclosures}
    (stmts : List (Stmt Unit)) (reflects : s.Reflects around) :
    Reports (Stmt.occurrencesEach around stmts) (Stmt.resolveEach s stmts) := by
  cases stmts with
  | nil => exact .ok _
  | cons stmt rest =>
    exact (stmt.reports_resolve reflects).bind fun _ =>
      (Stmt.reports_resolveEach rest (reflects.after _)).map _

theorem Stmt.reports_resolvePart {s : Surroundings} {around : Enclosures}
    (part : Option (Stmt Unit)) (reflects : s.Reflects around) :
    Reports (Stmt.occurrencesPart around part) (Stmt.resolvePart s part) := by
  cases part with
  | none => exact .ok _
  | some stmt => exact (stmt.reports_resolve reflects).map _

theorem Lambda.reports_resolve {s : Surroundings} {around : Enclosures} (lambda : Lambda Unit)
    (reflects : ∀ parameters, (s.enterFunction parameters).Reflects around) :
    Reports (lambda.occurrences around) (lambda.resolve s) := by
  obtain ⟨parameters, body⟩ := lambda
  exact (Stmt.reports_resolveEach body (reflects parameters)).map _

theorem Method.reports_resolve {s : Surroundings} {around : Enclosures}
    {hasSuperclass : Bool} (method : Method Unit)
    (inClass : s.inClass = .ofInnermost (some hasSuperclass)) :
    Reports (method.occurrences (.classBody hasSuperclass :: around)) (method.resolve s) := by
  obtain ⟨name, lambda⟩ := method
  have inside : ∀ parameters, ((s.enter [thisName]).enterFunction parameters).Reflects
      (.methodBody :: .classBody hasSuperclass :: around) := fun parameters =>
    .enterMethod parameters inClass
  exact (lambda.reports_resolve inside).map _

theorem Method.reports_resolveEach {s : Surroundings} {around : Enclosures}
    {hasSuperclass : Bool} (methods : List (Method Unit))
    (inClass : s.inClass = .ofInnermost (some hasSuperclass)) :
    Reports (Method.occurrencesEach (.classBody hasSuperclass :: around) methods)
      (Method.resolveEach s methods) := by
  cases methods with
  | nil => exact .ok _
  | cons method rest =>
    exact (method.reports_resolve inClass).bind fun _ =>
      (Method.reports_resolveEach rest inClass).map _

end

/-! ## Programs -/

/-- The error that resolving ended with, if it did not end well. -/
def StaticError.ofResult {α : Type} : Except StaticError α → List StaticError
  | .ok _ => []
  | .error error => [error]

theorem Reports.ofResult_eq {α : Type} {occurrences : List Occurrence}
    {result : Except StaticError α} (reports : Reports occurrences result) :
    StaticError.ofResult result =
      ((occurrences.filter (·.IsViolation)).take 1).map Occurrence.error := by
  cases result with
  | ok value =>
    have none : occurrences.filter (·.IsViolation) = [] :=
      List.filter_eq_nil_iff.mpr fun occurrence member => by simpa using reports occurrence member
    rw [none]
    rfl
  | error error =>
    obtain ⟨before, violation, after, rfl, clean, violates, rfl⟩ := reports
    have none : before.filter (·.IsViolation) = [] :=
      List.filter_eq_nil_iff.mpr fun occurrence member => by simpa using clean occurrence member
    simp [StaticError.ofResult, none, violates]

/-- The errors that are reported of a program. -/
def Stmt.staticErrors (stmts : List (Stmt Unit)) : List StaticError :=
  match Stmt.resolveTopLevel stmts with
  | .ok _ => []
  | .error errors => errors

theorem Stmt.staticErrors_cons (stmt : Stmt Unit) (rest : List (Stmt Unit)) :
    Stmt.staticErrors (stmt :: rest) =
      (stmt.violations.take 1).map Occurrence.error ++ Stmt.staticErrors rest := by
  have first := (stmt.reports_resolve .topLevel).ofResult_eq
  rw [Stmt.violations, ← first, Stmt.staticErrors, Stmt.staticErrors, Stmt.resolveTopLevel]
  cases stmt.resolve .topLevel <;> cases Stmt.resolveTopLevel rest <;> rfl

theorem Stmt.staticErrors_eq (stmts : List (Stmt Unit)) :
    Stmt.staticErrors stmts =
      stmts.flatMap fun stmt => (stmt.violations.take 1).map Occurrence.error := by
  induction stmts with
  | nil => rfl
  | cons stmt rest ih => rw [Stmt.staticErrors_cons, ih, List.flatMap_cons]

/-- A program that does not resolve has errors to show for it. -/
theorem Stmt.resolveTopLevel_isOk (stmts : List (Stmt Unit)) :
    (∃ resolved, Stmt.resolveTopLevel stmts = .ok resolved) ↔ Stmt.staticErrors stmts = [] := by
  induction stmts with
  | nil => exact iff_of_true ⟨[], rfl⟩ rfl
  | cons stmt rest ih =>
    simp only [Stmt.staticErrors, Stmt.resolveTopLevel] at ih ⊢
    cases stmt.resolve .topLevel <;> cases further : Stmt.resolveTopLevel rest <;>
      simp_all

/-- A program resolves if and only if none of its statements holds a violation. Of every statement
that holds some the first one is reported, where it occurs, and of the others nothing: each
statement is judged as if it stood alone. -/
theorem Stmt.resolveTopLevel_exact (stmts : List (Stmt Unit)) :
    ((∃ resolved, Stmt.resolveTopLevel stmts = .ok resolved) ↔
      ∀ stmt ∈ stmts, stmt.violations = []) ∧
    (∀ stmt : Stmt Unit, Stmt.staticErrors [stmt] =
      (stmt.violations.take 1).map Occurrence.error) ∧
    Stmt.staticErrors stmts = stmts.flatMap fun stmt => Stmt.staticErrors [stmt] := by
  have alone : ∀ stmt : Stmt Unit, Stmt.staticErrors [stmt] =
      (stmt.violations.take 1).map Occurrence.error := fun stmt => by
    rw [Stmt.staticErrors_eq, List.flatMap_singleton]
  refine ⟨?_, alone, ?_⟩
  · rw [Stmt.resolveTopLevel_isOk, Stmt.staticErrors_eq]
    simp [List.flatMap_eq_nil_iff]
  · simp only [alone]
    exact Stmt.staticErrors_eq stmts

end Lox
