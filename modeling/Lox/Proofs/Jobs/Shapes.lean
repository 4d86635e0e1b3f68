import Lox.Proofs.Checking.Erasure
import Lox.Proofs.Grammar.Soundness
import Lox.Proofs.Jobs.Visits

/-!
# Shapes while programs run

Whatever runs in a session of programs that were parsed has the shape of the grammar, the bodies of the
functions that were made before included, with names resolved or not.
-/

namespace Lox

variable {β γ : Type}

/-! ## Annotations -/

theorem Expr.tightness_map (f : β → γ) (expr : Expr β) : (expr.map f).tightness = expr.tightness := by
  cases expr <;> rfl

theorem Expr.isOperandList_map (f : β → γ) (expr : Expr β) :
    (expr.map f).IsOperandList ↔ expr.IsOperandList := by
  match expr with
  | .comma (first :: rest) =>
    change 2 ≤ (first.map f).tightness ↔ 2 ≤ first.tightness
    rw [first.tightness_map f]
  | .comma [] => exact .rfl
  | .literal _ | .group _ | .unary _ _ _ | .binary _ _ _ _ | .logical _ _ _ _
  | .conditional _ _ _ _ | .reference _ _ | .assign _ _ _ | .property _ _ | .call _ _ _
  | .function _ | .thisInstance _ _ | .superMethod _ _ _ => exact .rfl

theorem Target.isChain_mapEach (f : β → γ) (targets : List (Target β)) :
    Target.IsChain (Target.mapEach f targets) ↔ Target.IsChain targets := by
  match targets with
  | [] | [.property _ _] | .name _ _ :: _ | .property _ _ :: _ :: _ => exact .rfl

theorem Stmt.isInitializer_map (f : β → γ) (stmt : Stmt β) :
    (stmt.map f).IsInitializer ↔ stmt.IsInitializer := by
  cases stmt <;> exact .rfl

theorem Expr.length_mapEach (f : β → γ) (exprs : List (Expr β)) :
    (Expr.mapEach f exprs).length = exprs.length := by
  induction exprs with
  | nil => rfl
  | cons expr rest ih => exact congrArg Nat.succ ih

mutual

theorem Expr.wellShaped_map (f : β → γ) (expr : Expr β) :
    (expr.map f).WellShaped ↔ expr.WellShaped := by
  cases expr with
  | group inner => exact inner.wellShaped_map f
  | unary operator line operand =>
    rw [Expr.map, Expr.WellShaped, Expr.WellShaped, operand.tightness_map f, operand.wellShaped_map f]
  | binary operator line left right | logical operator line left right =>
    rw [Expr.map, Expr.WellShaped, Expr.WellShaped, left.tightness_map f, right.tightness_map f,
      left.wellShaped_map f, right.wellShaped_map f]
  | comma operands =>
    rw [Expr.map, Expr.WellShaped, Expr.WellShaped, Expr.length_mapEach f operands,
      Expr.wellShapedEach_mapEach f operands]
  | conditional line condition thenBranch elseBranch =>
    rw [Expr.map, Expr.WellShaped, Expr.WellShaped, condition.tightness_map f,
      thenBranch.tightness_map f, elseBranch.tightness_map f, condition.wellShaped_map f,
      thenBranch.wellShaped_map f, elseBranch.wellShaped_map f]
  | assign name binding value =>
    rw [Expr.map, Expr.WellShaped, Expr.WellShaped, value.tightness_map f, value.wellShaped_map f]
  | property object name =>
    rw [Expr.map, Expr.WellShaped, Expr.WellShaped, object.tightness_map f, object.wellShaped_map f]
  | call callee line arguments =>
    rw [Expr.map, Expr.WellShaped, Expr.WellShaped, callee.tightness_map f, callee.wellShaped_map f,
      Expr.wellShapedEach_mapEach f arguments]
  | function lambda => exact lambda.wellShaped_map f
  | literal | reference | thisInstance | superMethod => exact .rfl

theorem Expr.wellShapedEach_mapEach (f : β → γ) (exprs : List (Expr β)) :
    Expr.WellShapedEach (Expr.mapEach f exprs) ↔ Expr.WellShapedEach exprs := by
  cases exprs with
  | nil => exact .rfl
  | cons expr rest =>
    rw [Expr.mapEach, Expr.WellShapedEach, Expr.WellShapedEach, expr.tightness_map f,
      expr.wellShaped_map f, Expr.wellShapedEach_mapEach f rest]

theorem Expr.wellShapedPart_mapPart (f : β → γ) (part : Option (Expr β)) :
    Expr.WellShapedPart (Expr.mapPart f part) ↔ Expr.WellShapedPart part := by
  cases part with
  | none => exact .rfl
  | some expr => exact expr.wellShaped_map f

theorem Target.wellShaped_map (f : β → γ) (target : Target β) :
    (target.map f).WellShaped ↔ target.WellShaped := by
  cases target with
  | name name binding => exact .rfl
  | property object name =>
    rw [Target.map, Target.WellShaped, Target.WellShaped, object.tightness_map f,
      object.wellShaped_map f]

theorem Target.wellShapedEach_mapEach (f : β → γ) (targets : List (Target β)) :
    Target.WellShapedEach (Target.mapEach f targets) ↔ Target.WellShapedEach targets := by
  cases targets with
  | nil => exact .rfl
  | cons target rest =>
    exact and_congr (target.wellShaped_map f) (Target.wellShapedEach_mapEach f rest)

theorem Stmt.wellShaped_map (f : β → γ) (stmt : Stmt β) :
    (stmt.map f).WellShaped ↔ stmt.WellShaped := by
  cases stmt with
  | expression value => exact and_congr (value.isOperandList_map f) (value.wellShaped_map f)
  | varDecl name initializer => exact Expr.wellShapedPart_mapPart f initializer
  | assign targets value =>
    rw [Stmt.map, Stmt.WellShaped, Stmt.WellShaped, Target.isChain_mapEach f targets,
      Target.wellShapedEach_mapEach f targets, value.tightness_map f, value.wellShaped_map f]
  | set object name value =>
    rw [Stmt.map, Stmt.WellShaped, Stmt.WellShaped, object.tightness_map f, object.wellShaped_map f,
      value.tightness_map f, value.wellShaped_map f]
  | block body => exact Stmt.wellShapedEach_mapEach f body
  | branch condition thenBranch elseBranch =>
    have declares : (Stmt.mapPart f elseBranch).bind Stmt.declaredName? =
        elseBranch.bind Stmt.declaredName? := by
      cases elseBranch with
      | none => rfl
      | some stmt => exact stmt.declaredName?_map f
    rw [Stmt.map, Stmt.WellShaped, Stmt.WellShaped, condition.wellShaped_map f,
      thenBranch.declaredName?_map f, thenBranch.wellShaped_map f, declares,
      Stmt.wellShapedPart_mapPart f elseBranch]
  | whileLoop condition body =>
    rw [Stmt.map, Stmt.WellShaped, Stmt.WellShaped, condition.wellShaped_map f,
      body.declaredName?_map f, body.wellShaped_map f]
  | forLoop initializer condition increment body =>
    have initializes : (∀ stmt ∈ Stmt.mapPart f initializer, stmt.IsInitializer) ↔
        ∀ stmt ∈ initializer, stmt.IsInitializer := by
      cases initializer with
      | none => exact ⟨nofun, nofun⟩
      | some stmt => simp [Stmt.mapPart, stmt.isInitializer_map f]
    rw [Stmt.map, Stmt.WellShaped, Stmt.WellShaped, initializes,
      Stmt.wellShapedPart_mapPart f initializer, Expr.wellShapedPart_mapPart f condition,
      Expr.wellShapedPart_mapPart f increment, body.declaredName?_map f, body.wellShaped_map f]
  | breakLoop | continueLoop => exact .rfl
  | funDecl name lambda => exact lambda.wellShaped_map f
  | returnValue line value => exact Expr.wellShapedPart_mapPart f value
  | classDecl name superclass methods => exact Method.wellShapedEach_mapEach f methods

theorem Stmt.wellShapedEach_mapEach (f : β → γ) (stmts : List (Stmt β)) :
    Stmt.WellShapedEach (Stmt.mapEach f stmts) ↔ Stmt.WellShapedEach stmts := by
  cases stmts with
  | nil => exact .rfl
  | cons stmt rest => exact and_congr (stmt.wellShaped_map f) (Stmt.wellShapedEach_mapEach f rest)

theorem Stmt.wellShapedPart_mapPart (f : β → γ) (part : Option (Stmt β)) :
    Stmt.WellShapedPart (Stmt.mapPart f part) ↔ Stmt.WellShapedPart part := by
  cases part with
  | none => exact .rfl
  | some stmt => exact stmt.wellShaped_map f

theorem Lambda.wellShaped_map (f : β → γ) (lambda : Lambda β) :
    (lambda.map f).WellShaped ↔ lambda.WellShaped := by
  obtain ⟨parameters, body⟩ := lambda
  exact Stmt.wellShapedEach_mapEach f body

theorem Method.wellShaped_map (f : β → γ) (method : Method β) :
    (method.map f).WellShaped ↔ method.WellShaped := by
  obtain ⟨name, lambda⟩ := method
  exact lambda.wellShaped_map f

theorem Method.wellShapedEach_mapEach (f : β → γ) (methods : List (Method β)) :
    Method.WellShapedEach (Method.mapEach f methods) ↔ Method.WellShapedEach methods := by
  cases methods with
  | nil => exact .rfl
  | cons method rest =>
    exact and_congr (method.wellShaped_map f) (Method.wellShapedEach_mapEach f rest)

end

/-- A program that is prepared to run has the shape that it had, its names resolved or not. -/
theorem Stmt.WellShapedEach.prepared {mode : Session.Mode} {stmts : List (Stmt Unit)}
    {ready : List (Stmt Binding)} (shaped : Stmt.WellShapedEach stmts)
    (prepares : Session.prepared mode stmts = .ok ready) : Stmt.WellShapedEach ready := by
  unfold Session.prepared at prepares
  split at prepares
  · rwa [← Stmt.wellShapedEach_mapEach Binding.forget, Stmt.mapEach_resolveTopLevel prepares]
  · cases prepares
    exact (Stmt.wellShapedEach_mapEach _ stmts).mpr shaped

/-! ## Functions that were made -/

/-- Whether the body of every function that was made has the shape of the grammar. -/
def Machine.Shaped (machine : Machine) : Prop :=
  ∀ lambda, machine.heap.Holds lambda → lambda.WellShaped

namespace Step

variable {α : Type} {machine : Machine}

theorem Tame.shaped {step : Step α} (tame : step.Tame) (shaped : machine.Shaped) :
    (step machine).Obeys Machine.Shaped := by
  refine ((tame machine).mono fun after reuses => ?_).weaken (fun _ _ => trivial) fun _ _ => trivial
  exact fun lambda holds => shaped lambda (reuses.reused lambda holds)

theorem close_shaped {lambda : Lambda Binding} (fits : lambda.WellShaped) (shaped : machine.Shaped)
    (name : Option String) (isInitializer : Bool) :
    (close name lambda isInitializer machine).Obeys Machine.Shaped := by
  refine ⟨fun other holds => ?_, trivial⟩
  cases Heap.Holds.of_addFunction holds with
  | inl before => exact shaped other before
  | inr same => exact same ▸ fits

theorem closeMethods_shaped {methods : List (Method Binding)} (table : Table FunctionId)
    (fits : Method.WellShapedEach methods) (shaped : machine.Shaped) :
    (closeMethods table methods machine).Obeys Machine.Shaped := by
  induction methods generalizing table machine with
  | nil => exact ⟨shaped, trivial⟩
  | cons method rest ih =>
    obtain ⟨name, lambda⟩ := method
    exact (close_shaped fits.1 shaped _ _).bind fun id middle shaped => ih _ fits.2 shaped

theorem closeMethodsOf_shaped {methods : List (Method Binding)} (superclass : Option ClassId)
    (fits : Method.WellShapedEach methods) (shaped : machine.Shaped) :
    (closeMethodsOf superclass methods machine).Obeys Machine.Shaped := by
  cases superclass with
  | none => exact closeMethods_shaped _ fits shaped
  | some id =>
    have entered : machine.enter.Shaped := shaped
    have inside := ((Tame.define superName (.classObject id)).shaped entered).bind
      fun _ _ shaped => closeMethods_shaped .empty fits shaped
    exact ends_inScope inside fun _ shaped => shaped

theorem declareClass_shaped {methods : List (Method Binding)} (name : Name)
    (superclass : Option (Superclass Binding)) (fits : Method.WellShapedEach methods)
    (shaped : machine.Shaped) :
    (declareClass name superclass methods machine).Obeys Machine.Shaped := by
  refine ((Tame.superclassOf _).shaped shaped).bind fun parent _ shaped => ?_
  refine ((Tame.define _ _).shaped shaped).bind fun _ _ shaped => ?_
  refine (closeMethodsOf_shaped parent fits shaped).bind fun table _ shaped => ?_
  exact ((Tame.addClass _).shaped shaped).bind fun id _ shaped => (Tame.define _ _).shaped shaped

theorem declareFunction_shaped {lambda : Lambda Binding} (name : Name) (fits : lambda.WellShaped)
    (shaped : machine.Shaped) : (declareFunction name lambda machine).Obeys Machine.Shaped := by
  refine ((Tame.define _ _).shaped shaped).bind fun _ _ shaped => ?_
  exact (close_shaped fits shaped _ _).bind fun id _ shaped => (Tame.define _ _).shaped shaped

theorem Tame.perform (native : Native) (arguments : List Value) (paren : Token) :
    Tame (perform native arguments paren) := by
  refine bind (readHeap _) fun reply => ?_
  split
  · exact pure _
  · exact fail id paren
  · exact bind (write _ _) fun _ => pure _
  · exact bind readClock fun _ => pure _

theorem callResult_shaped (closure : Closure) (flow : Flow) (shaped : machine.Shaped) :
    (callResult closure flow machine).Obeys Machine.Shaped := by
  unfold callResult
  split
  · exact ⟨shaped, trivial⟩
  · cases flow <;> exact ⟨shaped, trivial⟩

end Step

/-! ## Jobs -/

/-- Whether what the job works on has the shape of the grammar. -/
def Job.Shaped : Job → Prop
  | evaluate _ expr => expr.WellShaped
  | evaluateEach _ exprs | evaluateLast _ _ exprs => Expr.WellShapedEach exprs
  | evaluatePart _ part => Expr.WellShapedPart part
  | call _ _ _ _ | construct _ _ _ _ | perform _ _ _ => True
  | callClosure _ closure _ _ => closure.lambda.WellShaped
  | storeEach _ _ targets => Target.WellShapedEach targets
  | execute _ stmt | result _ stmt => stmt.WellShaped
  | executeEach _ stmts | runTopLevel _ stmts => Stmt.WellShapedEach stmts
  | executePart _ part => Stmt.WellShapedPart part
  | loop _ condition increment body =>
    Expr.WellShapedPart condition ∧ Expr.WellShapedPart increment ∧ body.WellShaped

/-- Started from this machine, the script starts and leaves behind only what is well-shaped. -/
def Script.Shaped {α : Type} (script : Script α) (machine : Machine) : Prop :=
  script.Sound Machine.Shaped Job.Shaped machine

namespace Script

variable {machine : Machine}

theorem evaluate_shaped (fuel : Nat) {expr : Expr Binding} (fits : expr.WellShaped)
    (shaped : machine.Shaped) : (evaluate fuel expr).Shaped machine := by
  cases fuel with
  | zero => exact .outOfFuel
  | succ fuel =>
    cases expr with
    | literal => exact .pure shaped
    | group => exact fits
    | comma => exact fits.2
    | reference | thisInstance => exact (Step.Tame.lookUp _ _ _).shaped shaped
    | superMethod => exact (Step.Tame.superProperty _ _ _).shaped shaped
    | function lambda =>
      exact .bind (Step.close_shaped fits shaped _ _) fun _ _ _ shaped => .pure shaped
    | unary =>
      exact .bind fits.2 fun _ _ _ shaped => (Step.Tame.ofOperands _ _).shaped shaped
    | binary =>
      refine .bind fits.2.2.1 fun _ _ _ shaped => .bind fits.2.2.2 fun _ _ _ shaped => ?_
      exact (Step.Tame.ofOperands _ _).shaped shaped
    | logical operator line left right =>
      refine .bind fits.2.2.1 fun value _ _ shaped => ?_
      split
      · exact .pure shaped
      · exact fits.2.2.2
    | conditional line condition thenBranch elseBranch =>
      obtain ⟨_, _, _, condition, thenBranch, elseBranch⟩ := fits
      refine .bind condition fun value _ _ shaped => ?_
      split
      · exact thenBranch
      · exact elseBranch
      · exact .fail shaped
    | assign name binding value =>
      refine .bind fits.2 fun _ _ _ shaped => ?_
      refine .bind ((Step.Tame.assign _ _ _).shaped shaped) fun _ _ _ shaped => ?_
      exact .pure shaped
    | property object name =>
      refine .bind fits.2 fun value _ _ shaped => ?_
      split
      · exact (Step.Tame.getProperty _ _).shaped shaped
      · exact .fail shaped
    | call callee line arguments =>
      exact .bind fits.2.2 fun _ _ _ _ => .bind fits.2.1 fun _ _ _ _ => trivial

theorem evaluateEach_shaped (fuel : Nat) {exprs : List (Expr Binding)}
    (fits : Expr.WellShapedEach exprs) (shaped : machine.Shaped) :
    (evaluateEach fuel exprs).Shaped machine := by
  match fuel, exprs with
  | 0, _ => exact .outOfFuel
  | _ + 1, [] => exact .pure shaped
  | fuel + 1, _ :: _ =>
    exact .bind fits.2.1 fun _ _ _ _ => .bind fits.2.2 fun _ _ _ shaped => .pure shaped

theorem evaluateLast_shaped (fuel : Nat) (last : Value) {exprs : List (Expr Binding)}
    (fits : Expr.WellShapedEach exprs) (shaped : machine.Shaped) :
    (evaluateLast fuel last exprs).Shaped machine := by
  match fuel, exprs with
  | 0, _ => exact .outOfFuel
  | _ + 1, [] => exact .pure shaped
  | fuel + 1, _ :: _ => exact .bind fits.2.1 fun _ _ _ _ => fits.2.2

theorem evaluatePart_shaped (fuel : Nat) {part : Option (Expr Binding)}
    (fits : Expr.WellShapedPart part) (shaped : machine.Shaped) :
    (evaluatePart fuel part).Shaped machine := by
  match fuel, part with
  | 0, _ => exact .outOfFuel
  | _ + 1, none => exact .pure shaped
  | fuel + 1, some _ => exact fits

theorem call_shaped (fuel : Nat) (callee : Value) (arguments : List Value) (paren : Token)
    (shaped : machine.Shaped) : (call fuel callee arguments paren).Shaped machine := by
  cases fuel with
  | zero => exact .outOfFuel
  | succ fuel =>
    cases callee with
    | native id =>
      refine .readHeap_bind shaped ?_
      split
      · exact .fail shaped
      · exact .bind ((Step.Tame.checkArity _ _ _).shaped shaped) fun _ _ _ _ => trivial
    | function id =>
      refine .readHeap_bind shaped ?_
      split
      · exact .fail shaped
      · next closure known =>
        -- The body that is gone into is that of a function that was made.
        refine .bind ((Step.Tame.checkArity _ _ _).shaped shaped) fun _ _ _ _ => ?_
        exact shaped _ ⟨id, closure, known, rfl⟩
    | classObject id => exact trivial
    | _ => exact .fail shaped

theorem construct_shaped (fuel : Nat) (classId : ClassId) (arguments : List Value) (paren : Token)
    (shaped : machine.Shaped) : (construct fuel classId arguments paren).Shaped machine := by
  cases fuel with
  | zero => exact .outOfFuel
  | succ fuel =>
    refine .readHeap_bind shaped ?_
    split
    · refine .bind ((Step.Tame.checkArity _ _ _).shaped shaped) fun _ _ _ shaped => ?_
      exact .bind ((Step.Tame.addInstance _).shaped shaped) fun _ _ _ shaped => .pure shaped
    · refine .readHeap_bind shaped ?_
      refine .bind ((Step.Tame.checkArity _ _ _).shaped shaped) fun _ _ _ shaped => ?_
      refine .bind ((Step.Tame.addInstance _).shaped shaped) fun id _ _ shaped => ?_
      refine .bind ((Step.Tame.bindMethod _ _).shaped shaped) fun bound _ _ shaped => ?_
      refine .readHeap_bind shaped ?_
      split
      · exact .pure shaped
      · next closure known =>
        have fits : closure.lambda.WellShaped := shaped _ ⟨bound, closure, known, rfl⟩
        exact .bind fits fun _ _ _ shaped => .pure shaped

theorem storeEach_shaped (fuel : Nat) (value : Value) {targets : List (Target Binding)}
    (fits : Target.WellShapedEach targets) (shaped : machine.Shaped) :
    (storeEach fuel value targets).Shaped machine := by
  match fuel, targets with
  | 0, _ => exact .outOfFuel
  | _ + 1, [] => exact .pure shaped
  | fuel + 1, .name _ _ :: _ =>
    exact .bind ((Step.Tame.assignOrDefine _ _ _).shaped shaped) fun _ _ _ _ => fits.2
  | fuel + 1, .property _ _ :: _ =>
    refine .bind fits.1.2 fun _ _ _ shaped => ?_
    exact .bind ((Step.Tame.setProperty _ _ _).shaped shaped) fun _ _ _ _ => fits.2

theorem execute_shaped (fuel : Nat) {stmt : Stmt Binding} (fits : stmt.WellShaped)
    (shaped : machine.Shaped) : (execute fuel stmt).Shaped machine := by
  cases fuel with
  | zero => exact .outOfFuel
  | succ fuel =>
    cases stmt with
    | breakLoop | continueLoop => exact .pure shaped
    | expression => exact .bind fits.2 fun _ _ _ shaped => .pure shaped
    | returnValue => exact .bind fits fun _ _ _ shaped => .pure shaped
    | varDecl =>
      refine .bind fits fun _ _ _ shaped => ?_
      exact .bind ((Step.Tame.define _ _).shaped shaped) fun _ _ _ shaped => .pure shaped
    | assign targets value =>
      exact .bind fits.2.2.2 fun _ _ _ _ => .bind fits.2.1 fun _ _ _ shaped => .pure shaped
    | set object name value =>
      refine .bind fits.2.1 fun object _ _ shaped => ?_
      split
      · refine .bind fits.2.2.2 fun _ _ _ shaped => ?_
        exact .bind ((Step.Tame.setProperty _ _ _).shaped shaped) fun _ _ _ shaped => .pure shaped
      · exact .fail shaped
    | block => exact fits
    | branch condition thenBranch elseBranch =>
      obtain ⟨condition, _, thenBranch, _, elseBranch⟩ := fits
      refine Script.Sound.bind condition fun value _ _ _ => ?_
      split
      · exact thenBranch
      · exact elseBranch
    | whileLoop => exact ⟨fits.1, trivial, fits.2.2⟩
    | forLoop initializer condition increment body =>
      obtain ⟨_, initializer, condition, increment, _, body⟩ := fits
      exact Script.Sound.bind initializer fun _ _ _ _ => ⟨condition, increment, body⟩
    | funDecl name lambda =>
      exact .bind (Step.declareFunction_shaped name fits shaped) fun _ _ _ shaped => .pure shaped
    | classDecl name superclass methods =>
      refine .bind (Step.declareClass_shaped name superclass fits shaped) fun _ _ _ shaped => ?_
      exact .pure shaped

theorem executeEach_shaped (fuel : Nat) {stmts : List (Stmt Binding)}
    (fits : Stmt.WellShapedEach stmts) (shaped : machine.Shaped) :
    (executeEach fuel stmts).Shaped machine := by
  match fuel, stmts with
  | 0, _ => exact .outOfFuel
  | _ + 1, [] => exact .pure shaped
  | fuel + 1, _ :: _ =>
    refine .bind fits.1 fun flow _ _ shaped => ?_
    cases flow with
    | normal => exact fits.2
    | _ => exact .pure shaped

theorem executePart_shaped (fuel : Nat) {part : Option (Stmt Binding)}
    (fits : Stmt.WellShapedPart part) (shaped : machine.Shaped) :
    (executePart fuel part).Shaped machine := by
  match fuel, part with
  | 0, _ => exact .outOfFuel
  | _ + 1, none => exact .pure shaped
  | fuel + 1, some _ => exact fits

theorem loop_shaped (fuel : Nat) {condition increment : Option (Expr Binding)} {body : Stmt Binding}
    (fits : Job.Shaped (.loop fuel condition increment body)) (shaped : machine.Shaped) :
    (loop fuel condition increment body).Shaped machine := by
  cases fuel with
  | zero => exact .outOfFuel
  | succ fuel =>
    obtain ⟨conditionFits, incrementFits, bodyFits⟩ := fits
    -- The rounds after this one are the same loop once more.
    have again : ∀ holds machine, machine.Shaped →
        (round fuel condition increment body holds).Shaped machine := by
      intro holds machine shaped
      cases holds with
      | false => exact .pure shaped
      | true =>
        refine .bind bodyFits fun flow _ _ shaped => ?_
        cases flow with
        | normal | continues =>
          exact .bind incrementFits fun _ _ _ _ => ⟨conditionFits, incrementFits, bodyFits⟩
        | breaks | returns => exact .pure shaped
    cases condition with
    | none => exact again true machine shaped
    | some expr =>
      exact .bind conditionFits fun value middle _ shaped => again value.isTruthy middle shaped

theorem callClosure_shaped (fuel : Nat) {closure : Closure} (fits : closure.lambda.WellShaped)
    (arguments : List Value) (paren : Token) :
    (callClosure fuel closure arguments paren).Shaped machine := by
  cases fuel with
  | zero => exact .outOfFuel
  | succ fuel =>
    obtain ⟨name, ⟨parameters, body⟩, frame, isInitializer⟩ := closure
    exact ⟨fits, fun flow _ _ shaped => Step.callResult_shaped _ flow shaped⟩

theorem runTopLevel_shaped (fuel : Nat) {stmts : List (Stmt Binding)}
    (fits : Stmt.WellShapedEach stmts) (shaped : machine.Shaped) :
    (runTopLevel fuel stmts).Shaped machine := by
  cases stmts with
  | nil => exact .pure shaped
  | cons stmt rest =>
    refine .bind fits.1 fun flow _ _ shaped => ?_
    cases flow with
    | normal => exact fits.2
    | _ => exact .fail shaped

theorem result_shaped (fuel : Nat) {stmt : Stmt Binding} (fits : stmt.WellShaped) :
    (result fuel stmt).Shaped machine := by
  cases stmt with
  | expression => exact .bind fits.2 fun _ _ _ shaped => .pure shaped
  | _ => exact .bind fits fun _ _ _ shaped => .pure shaped

end Script

theorem Job.closed_shaped : Job.Closed Machine.Shaped Job.Shaped where
  enter _ shaped := shaped
  leave _ shaped := shaped
  enterCall _ closure arguments shaped lambda holds := shaped lambda (Machine.holds_enterCall holds)
  leaveCall _ _ shaped := shaped
  script job machine fits shaped := by
    cases job with
    | evaluate fuel expr => exact Script.evaluate_shaped fuel fits shaped
    | evaluateEach fuel exprs => exact Script.evaluateEach_shaped fuel fits shaped
    | evaluateLast fuel last exprs => exact Script.evaluateLast_shaped fuel last fits shaped
    | evaluatePart fuel part => exact Script.evaluatePart_shaped fuel fits shaped
    | call fuel callee arguments paren => exact Script.call_shaped fuel callee arguments paren shaped
    | construct fuel classId arguments paren =>
      exact Script.construct_shaped fuel classId arguments paren shaped
    | callClosure fuel closure arguments paren =>
      exact Script.callClosure_shaped fuel fits arguments paren
    | perform native arguments paren => exact (Step.Tame.perform native arguments paren).shaped shaped
    | storeEach fuel value targets => exact Script.storeEach_shaped fuel value fits shaped
    | execute fuel stmt => exact Script.execute_shaped fuel fits shaped
    | executeEach fuel stmts => exact Script.executeEach_shaped fuel fits shaped
    | executePart fuel part => exact Script.executePart_shaped fuel fits shaped
    | loop fuel condition increment body => exact Script.loop_shaped fuel fits shaped
    | runTopLevel fuel stmts => exact Script.runTopLevel_shaped fuel fits shaped
    | result fuel stmt => exact Script.result_shaped fuel fits

end Lox
