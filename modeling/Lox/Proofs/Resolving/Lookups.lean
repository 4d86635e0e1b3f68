import Lox.Interpreter
import Lox.Proofs.Sessions.Endings

/-!
# Only the notes of what runs are looked up

An interpreter looks into the table for the occurrences in the statements that it runs and in the bodies
of the functions that there are, also of those from earlier programs. So a table that leads these to the
same bindings as its own changes nothing: the run ends alike, and what it leaves differs in the table
alone. Fuel is no part of that; the other run may have more of it.
-/

namespace Lox

/-! ## Interpreters with another table -/

namespace Interpreter

def withLocals (locals : Locals) (it : Interpreter) : Interpreter := { it with locals := locals }

/-- Under both tables the bodies of all functions read the same. -/
def ReadsAlike (table others : Locals) (it : Interpreter) : Prop :=
  ∀ id, Stmt.mapEach others.binding (it.code id) = Stmt.mapEach table.binding (it.code id)

variable {table others : Locals} {it : Interpreter}

theorem ReadsAlike.keepCode (alike : it.ReadsAlike table others) (id : FunctionId)
    {body : List (Stmt Site)}
    (same : Stmt.mapEach others.binding body = Stmt.mapEach table.binding body) :
    (it.keepCode id body).ReadsAlike table others := by
  intro other
  simp only [Interpreter.keepCode]
  split
  · exact same
  · exact alike other

end Interpreter

namespace Ending

variable {α : Type}

/-- The interpreter that an action leaves. -/
def after? : Ending α → Option Interpreter
  | finished _ after => some after
  | failed _ after => some after
  | outOfFuel => none

/-- What an action comes to, with another table in what it leaves. -/
def withLocals (locals : Locals) : Ending α → Ending α
  | finished result after => .finished result (after.withLocals locals)
  | failed error after => .failed error (after.withLocals locals)
  | outOfFuel => .outOfFuel

theorem withLocals_self {ending : Ending α} {locals : Locals}
    (kept : ∀ after, ending.after? = some after → after.locals = locals) :
    ending.withLocals locals = ending := by
  cases ending with
  | finished result after =>
    rw [← kept after rfl]
    rfl
  | failed error after =>
    rw [← kept after rfl]
    rfl
  | outOfFuel => rfl

theorem after?_mapMachine (ending : Ending α) (change : Machine → Machine) :
    (ending.mapMachine change).after? =
      ending.after?.map fun after => { after with machine := change after.machine } := by
  cases ending <;> rfl

theorem withLocals_mapMachine (ending : Ending α) (change : Machine → Machine) (locals : Locals) :
    (ending.mapMachine change).withLocals locals =
      (ending.withLocals locals).mapMachine change := by
  cases ending <;> rfl

end Ending

/-! ## Actions that end alike -/

/-- Under a table of its own an action ends as the other one does under the other table, unless it gives
up for want of fuel. The tables stay as they are, and whatever functions there are afterwards read the
same under both. -/
def Act.Agrees {α : Type} (table others : Locals) (act other : Act α) : Prop :=
  ∀ it : Interpreter, it.locals = table → it.ReadsAlike table others →
    act it = .outOfFuel ∨
      other (it.withLocals others) = (act it).withLocals others ∧
        ∀ after, (act it).after? = some after → after.locals = table ∧ after.ReadsAlike table others

namespace Act.Agrees

variable {α β : Type} {table others : Locals} {act other : Act α}

theorem ofOutOfFuel : Agrees table others Act.outOfFuel other := fun _ _ _ => .inl rfl

theorem pure (result : α) : Agrees table others (pure result) (pure result) := by
  intro it kept alike
  refine .inr ⟨rfl, fun after left => ?_⟩
  cases left
  exact ⟨kept, alike⟩

/-- The machine does not know of the table. -/
theorem lift (step : Step α) : Agrees table others (Act.lift step) (Act.lift step) := by
  intro it kept alike
  have same : step (it.withLocals others).machine = step it.machine := rfl
  refine .inr ⟨?_, fun after left => ?_⟩
  · unfold Act.lift
    rw [same]
    cases step it.machine <;> rfl
  · unfold Act.lift at left
    cases ran : step it.machine with
    | finished result machine =>
      rw [ran] at left
      cases left
      exact ⟨kept, alike⟩
    | failed error machine =>
      rw [ran] at left
      cases left
      exact ⟨kept, alike⟩
    | outOfFuel =>
      rw [ran] at left
      cases left

theorem bind {rest otherRest : α → Act β} (first : Agrees table others act other)
    (further : ∀ result, Agrees table others (rest result) (otherRest result)) :
    Agrees table others (act >>= rest) (other >>= otherRest) := by
  intro it kept alike
  change Act.bind act rest it = _ ∨
    Act.bind other otherRest (it.withLocals others) = (Act.bind act rest it).withLocals others ∧
      ∀ after, (Act.bind act rest it).after? = some after → _
  unfold Act.bind
  cases first it kept alike with
  | inl gaveUp =>
    rw [gaveUp]
    exact .inl rfl
  | inr same =>
    obtain ⟨same, leaves⟩ := same
    rw [same]
    cases ran : act it with
    | finished result after =>
      obtain ⟨keptAfter, alikeAfter⟩ := leaves after (by rw [ran]; rfl)
      exact further result after keptAfter alikeAfter
    | failed error after =>
      rw [ran] at leaves
      exact .inr ⟨rfl, leaves⟩
    | outOfFuel => exact .inl rfl

theorem ite {condition : Prop} [Decidable condition] {absent otherAbsent : Act α}
    (present : Agrees table others act other) (otherwise : Agrees table others absent otherAbsent) :
    Agrees table others (if condition then act else absent)
      (if condition then other else otherAbsent) := by
  split
  · exact present
  · exact otherwise

/-- A round of a loop: the body, and what comes after it if the loop goes on. -/
theorem round {body otherBody again otherAgain : Act Flow}
    (bodies : Agrees table others body otherBody) (onward : Agrees table others again otherAgain)
    (holds : Bool) :
    Agrees table others
      (if holds = true then body >>= fun
        | .breaks _ => Pure.pure .normal
        | .returns line value => Pure.pure (.returns line value)
        | _ => again
      else Pure.pure .normal)
      (if holds = true then otherBody >>= fun
        | .breaks _ => Pure.pure .normal
        | .returns line value => Pure.pure (.returns line value)
        | _ => otherAgain
      else Pure.pure .normal) := by
  refine .ite (.bind bodies fun flow => ?_) (.pure _)
  cases flow with
  | normal => exact onward
  | continues line => exact onward
  | breaks line => exact .pure _
  | returns line value => exact .pure _

/-- Actions that run on another machine, and change it back, agree if they agree there. -/
theorem mapMachine (agrees : Agrees table others act other) (enter leave : Machine → Machine)
    {it : Interpreter} (kept : it.locals = table) (alike : it.ReadsAlike table others) :
    (act { it with machine := enter it.machine }).mapMachine leave = .outOfFuel ∨
      (other { it.withLocals others with machine := enter it.machine }).mapMachine leave =
          ((act { it with machine := enter it.machine }).mapMachine leave).withLocals others ∧
        ∀ after, ((act { it with machine := enter it.machine }).mapMachine leave).after? = some after →
          after.locals = table ∧ after.ReadsAlike table others := by
  cases agrees { it with machine := enter it.machine } kept alike with
  | inl gaveUp =>
    rw [gaveUp]
    exact .inl rfl
  | inr same =>
    obtain ⟨same, leaves⟩ := same
    refine .inr ⟨?_, fun after left => ?_⟩
    · rw [Ending.withLocals_mapMachine, ← same]
      rfl
    · rw [Ending.after?_mapMachine] at left
      obtain ⟨inside, leftInside, rfl⟩ := Option.map_eq_some_iff.mp left
      exact leaves inside leftInside

theorem inScope (inner : Agrees table others act other) :
    Agrees table others (Act.inScope act) (Act.inScope other) :=
  fun _ kept alike => inner.mapMachine Machine.enter Machine.leave kept alike

theorem inCall (body : Agrees table others act other) (closure : Closure) (arguments : List Value)
    (paren : Token) :
    Agrees table others (Act.inCall closure arguments paren act)
      (Act.inCall closure arguments paren other) := by
  intro it kept alike
  unfold Act.inCall
  by_cases full : Step.maximumDepth ≤ it.machine.depth
  · rw [if_pos full, if_pos (show Step.maximumDepth ≤ (it.withLocals others).machine.depth from full)]
    refine .inr ⟨rfl, fun after left => ?_⟩
    cases left
    exact ⟨kept, alike⟩
  · rw [if_neg full,
      if_neg (show ¬Step.maximumDepth ≤ (it.withLocals others).machine.depth from full)]
    exact body.mapMachine (Machine.enterCall closure arguments) (Machine.leaveCall it.machine) kept
      alike

/-- An occurrence that both tables lead to the same binding. -/
theorem bindingAt {site : Site} (same : others.binding site = table.binding site)
    {rest otherRest : Binding → Act β}
    (further : ∀ binding, Agrees table others (rest binding) (otherRest binding)) :
    Agrees table others (Act.bindingAt site >>= rest) (Act.bindingAt site >>= otherRest) := by
  intro it kept alike
  subst kept
  have onward : (Act.bindingAt site >>= otherRest) (it.withLocals others) =
      otherRest (others.binding site) (it.withLocals others) := rfl
  rw [onward, same]
  exact further (it.locals.binding site) it rfl alike

/-- A function, whose body reads the same under both tables. -/
theorem functionAt {id : FunctionId} {rest otherRest : Option (Closure × List (Stmt Site)) → Act β}
    (missing : Agrees table others (rest none) (otherRest none))
    (further : ∀ closure body,
      Stmt.mapEach others.binding body = Stmt.mapEach table.binding body →
        Agrees table others (rest (some (closure, body))) (otherRest (some (closure, body)))) :
    Agrees table others (Act.functionAt id >>= rest) (Act.functionAt id >>= otherRest) := by
  intro it kept alike
  have run (continuation : Option (Closure × List (Stmt Site)) → Act β) (it : Interpreter) :
      (Act.functionAt id >>= continuation) it =
        continuation ((it.machine.heap.functions[id]?).map fun closure => (closure, it.code id)) it :=
    rfl
  rw [run, run]
  change _ ∨ otherRest ((it.machine.heap.functions[id]?).map fun closure => (closure, it.code id)) _ = _ ∧
    _
  cases it.machine.heap.functions[id]? with
  | none => exact missing it kept alike
  | some closure => exact further closure (it.code id) (alike id) it kept alike

/-- A new function, which reads the same under both tables. -/
theorem close {lambda : Lambda Site} (name : Option String) (isInitializer : Bool)
    (same : lambda.map others.binding = lambda.map table.binding) :
    Agrees table others (Act.close name lambda isInitializer)
      (Act.close name lambda isInitializer) := by
  intro it kept alike
  obtain ⟨parameters, body⟩ := lambda
  refine .inr ⟨rfl, fun after left => ?_⟩
  cases left
  exact ⟨kept, Interpreter.ReadsAlike.keepCode alike _ (congrArg Lambda.body same)⟩

theorem bindMethod (method : FunctionId) (receiver : InstanceId) :
    Agrees table others (Act.bindMethod method receiver) (Act.bindMethod method receiver) := by
  intro it kept alike
  refine .inr ⟨rfl, fun after left => ?_⟩
  cases left
  exact ⟨kept, Interpreter.ReadsAlike.keepCode alike _ (alike method)⟩

end Act.Agrees

namespace Act

variable {table others : Locals}

/-! ## Names, properties and declarations -/

section

variable {site : Site} (same : others.binding site = table.binding site)
include same

theorem lookUp_agrees (name : String) (token : Token) :
    Agrees table others (lookUp name site token) (lookUp name site token) :=
  .bindingAt same fun _ => .lift _

theorem assign_agrees (name : Name) (value : Value) :
    Agrees table others (assign name site value) (assign name site value) :=
  .bindingAt same fun _ => .lift _

theorem assignOrDefine_agrees (name : Name) (value : Value) :
    Agrees table others (assignOrDefine name site value) (assignOrDefine name site value) :=
  .bindingAt same fun _ => .lift _

theorem superProperty_agrees (line : Nat) (method : Name) :
    Agrees table others (superProperty line site method) (superProperty line site method) := by
  refine .bindingAt same fun binding => .bind (.lift _) fun (superclass, id) => .bind (.lift _) ?_
  intro found
  cases found with
  | some found => exact .bind (.bindMethod found id) fun _ => .pure _
  | none => exact .bind (.lift _) fun _ => .lift _

end

theorem getProperty_agrees (id : InstanceId) (name : Name) :
    Agrees table others (getProperty id name) (getProperty id name) := by
  refine .bind (.lift _) fun field? => ?_
  cases field? with
  | some value => exact .pure value
  | none =>
    refine .bind (.lift _) fun method? => ?_
    cases method? with
    | some method => exact .bind (.bindMethod method id) fun _ => .pure _
    | none => exact .lift _

theorem superclassOf_agrees {superclass : Option (Superclass Site)}
    (same : superclass.map (·.map others.binding) = superclass.map (·.map table.binding)) :
    Agrees table others (superclassOf superclass) (superclassOf superclass) := by
  cases superclass with
  | none => exact .pure none
  | some parent =>
    have same : others.binding parent.binding = table.binding parent.binding :=
      congrArg Superclass.binding (Option.some.inj same)
    refine .bind (lookUp_agrees same _ _) fun value => ?_
    cases value with
    | classObject id => exact .pure _
    | _ => exact .lift _

theorem closeMethods_agrees {methods : List (Method Site)}
    (same : Method.mapEach others.binding methods = Method.mapEach table.binding methods)
    (closed : Table FunctionId) :
    Agrees table others (closeMethods closed methods) (closeMethods closed methods) := by
  induction methods generalizing closed with
  | nil => exact .pure closed
  | cons method rest ih =>
    obtain ⟨first, further⟩ := List.cons.inj same
    obtain ⟨name, lambda⟩ := method
    exact .bind (.close _ _ (congrArg Method.lambda first)) fun id => ih further _

theorem closeMethodsOf_agrees {methods : List (Method Site)}
    (same : Method.mapEach others.binding methods = Method.mapEach table.binding methods)
    (superclass : Option ClassId) :
    Agrees table others (closeMethodsOf superclass methods) (closeMethodsOf superclass methods) := by
  cases superclass with
  | none => exact closeMethods_agrees same _
  | some id => exact .inScope (.bind (.lift _) fun _ => closeMethods_agrees same _)

theorem declareClass_agrees {superclass : Option (Superclass Site)} {methods : List (Method Site)}
    (sameSuperclass : superclass.map (·.map others.binding) = superclass.map (·.map table.binding))
    (sameMethods : Method.mapEach others.binding methods = Method.mapEach table.binding methods)
    (name : Name) :
    Agrees table others (declareClass name superclass methods)
      (declareClass name superclass methods) := by
  refine .bind (superclassOf_agrees sameSuperclass) fun parent => .bind (.lift _) fun _ => ?_
  refine .bind (closeMethodsOf_agrees sameMethods parent) fun closed => ?_
  exact .bind (.lift _) fun id => .lift _

theorem declareFunction_agrees {lambda : Lambda Site}
    (same : lambda.map others.binding = lambda.map table.binding) (name : Name) :
    Agrees table others (declareFunction name lambda) (declareFunction name lambda) :=
  .bind (.lift _) fun _ => .bind (.close _ _ same) fun _ => .lift _

/-! ## Evaluation -/

mutual

theorem evaluate_agrees (extra : Nat) : ∀ fuel {expr : Expr Site},
    expr.map others.binding = expr.map table.binding →
      Agrees table others (evaluate fuel expr) (evaluate (extra + fuel) expr)
  | 0, _, _ => .ofOutOfFuel
  | fuel + 1, expr, same => by
    cases expr with
    | literal value => exact .pure _
    | group inner => exact evaluate_agrees extra fuel (Expr.group.inj same)
    | unary operator line operand =>
      exact .bind (evaluate_agrees extra fuel (Expr.unary.inj same).2.2) fun _ => .lift _
    | binary operator line left right =>
      obtain ⟨_, _, sameLeft, sameRight⟩ := Expr.binary.inj same
      refine .bind (evaluate_agrees extra fuel sameLeft) fun a => ?_
      exact .bind (evaluate_agrees extra fuel sameRight) fun b => .lift _
    | logical operator line left right =>
      obtain ⟨_, _, sameLeft, sameRight⟩ := Expr.logical.inj same
      refine .bind (evaluate_agrees extra fuel sameLeft) fun value => ?_
      exact .ite (.pure _) (evaluate_agrees extra fuel sameRight)
    | comma operands => exact evaluateLast_agrees extra fuel .nil (Expr.comma.inj same)
    | conditional line condition thenBranch elseBranch =>
      obtain ⟨_, sameCondition, sameThen, sameElse⟩ := Expr.conditional.inj same
      refine .bind (evaluate_agrees extra fuel sameCondition) fun value => ?_
      split
      · exact evaluate_agrees extra fuel sameThen
      · exact evaluate_agrees extra fuel sameElse
      · exact .lift _
    | reference name site => exact lookUp_agrees (Expr.reference.inj same).2 _ _
    | assign name site value =>
      obtain ⟨_, sameSite, sameValue⟩ := Expr.assign.inj same
      refine .bind (evaluate_agrees extra fuel sameValue) fun value => ?_
      exact .bind (assign_agrees sameSite name value) fun _ => .pure _
    | property object name =>
      refine .bind (evaluate_agrees extra fuel (Expr.property.inj same).1) fun value => ?_
      cases value with
      | object id => exact getProperty_agrees id name
      | _ => exact .lift _
    | call callee line arguments =>
      obtain ⟨sameCallee, _, sameArguments⟩ := Expr.call.inj same
      refine .bind (evaluateEach_agrees extra fuel sameArguments) fun values => ?_
      refine .bind (evaluate_agrees extra fuel sameCallee) fun value => ?_
      exact call_agrees extra fuel value values _
    | function lambda => exact .bind (.close _ _ (Expr.function.inj same)) fun _ => .pure _
    | thisInstance line site => exact lookUp_agrees (Expr.thisInstance.inj same).2 _ _
    | superMethod line site method => exact superProperty_agrees (Expr.superMethod.inj same).2.1 _ _

theorem evaluateEach_agrees (extra : Nat) : ∀ fuel {exprs : List (Expr Site)},
    Expr.mapEach others.binding exprs = Expr.mapEach table.binding exprs →
      Agrees table others (evaluateEach fuel exprs) (evaluateEach (extra + fuel) exprs)
  | 0, _, _ => .ofOutOfFuel
  | _ + 1, [], _ => .pure _
  | fuel + 1, expr :: rest, same => by
    obtain ⟨sameFirst, sameRest⟩ := List.cons.inj same
    refine .bind (evaluate_agrees extra fuel sameFirst) fun value => ?_
    exact .bind (evaluateEach_agrees extra fuel sameRest) fun values => .pure _

theorem evaluateLast_agrees (extra : Nat) : ∀ fuel last {exprs : List (Expr Site)},
    Expr.mapEach others.binding exprs = Expr.mapEach table.binding exprs →
      Agrees table others (evaluateLast fuel last exprs) (evaluateLast (extra + fuel) last exprs)
  | 0, _, _, _ => .ofOutOfFuel
  | _ + 1, _, [], _ => .pure _
  | fuel + 1, _, expr :: rest, same => by
    obtain ⟨sameFirst, sameRest⟩ := List.cons.inj same
    refine .bind (evaluate_agrees extra fuel sameFirst) fun value => ?_
    exact evaluateLast_agrees extra fuel value sameRest

theorem evaluatePart_agrees (extra : Nat) : ∀ fuel {part : Option (Expr Site)},
    Expr.mapPart others.binding part = Expr.mapPart table.binding part →
      Agrees table others (evaluatePart fuel part) (evaluatePart (extra + fuel) part)
  | 0, _, _ => .ofOutOfFuel
  | _ + 1, none, _ => .pure _
  | fuel + 1, some _, same => evaluate_agrees extra fuel (Option.some.inj same)

theorem call_agrees (extra : Nat) : ∀ fuel callee arguments paren,
    Agrees table others (call fuel callee arguments paren)
      (call (extra + fuel) callee arguments paren)
  | 0, _, _, _ => .ofOutOfFuel
  | fuel + 1, callee, arguments, paren => by
    cases callee with
    | function id =>
      refine .functionAt (.lift _) fun closure _ same => .bind (.lift _) fun _ => ?_
      exact callClosure_agrees extra fuel closure same arguments paren
    | classObject id => exact construct_agrees extra fuel id arguments paren
    | native id => exact .lift _
    | _ => exact .lift (Step.fail .notCallable paren)

theorem construct_agrees (extra : Nat) : ∀ fuel classId arguments paren,
    Agrees table others (construct fuel classId arguments paren)
      (construct (extra + fuel) classId arguments paren)
  | 0, _, _, _ => .ofOutOfFuel
  | fuel + 1, classId, arguments, paren => by
    refine .bind (.lift _) fun initializer? => ?_
    cases initializer? with
    | none => exact .bind (.lift _) fun _ => .bind (.lift _) fun id => .pure _
    | some initializer =>
      refine .bind (.lift _) fun arity => .bind (.lift _) fun _ => .bind (.lift _) fun id => ?_
      refine .bind (.bindMethod initializer id) fun bound => ?_
      refine .functionAt (.pure _) fun closure _ same => ?_
      exact .bind (callClosure_agrees extra fuel closure same arguments paren) fun _ => .pure _

theorem callClosure_agrees (extra : Nat) : ∀ fuel closure {body : List (Stmt Site)},
    Stmt.mapEach others.binding body = Stmt.mapEach table.binding body → ∀ arguments paren,
      Agrees table others (callClosure fuel closure body arguments paren)
        (callClosure (extra + fuel) closure body arguments paren)
  | 0, _, _, _, _, _ => .ofOutOfFuel
  | fuel + 1, closure, _, same, arguments, paren =>
    .bind ((executeEach_agrees extra fuel same).inCall closure arguments paren) fun _ => .lift _

theorem storeEach_agrees (extra : Nat) : ∀ fuel value {targets : List (Target Site)},
    Target.mapEach others.binding targets = Target.mapEach table.binding targets →
      Agrees table others (storeEach fuel value targets) (storeEach (extra + fuel) value targets)
  | 0, _, _, _ => .ofOutOfFuel
  | _ + 1, _, [], _ => .pure _
  | fuel + 1, value, .name name site :: rest, same => by
    obtain ⟨sameFirst, sameRest⟩ := List.cons.inj same
    refine .bind (assignOrDefine_agrees (Target.name.inj sameFirst).2 name value) fun _ => ?_
    exact storeEach_agrees extra fuel value sameRest
  | fuel + 1, value, .property object name :: rest, same => by
    obtain ⟨sameFirst, sameRest⟩ := List.cons.inj same
    refine .bind (evaluate_agrees extra fuel (Target.property.inj sameFirst).1) fun object => ?_
    exact .bind (.lift _) fun _ => storeEach_agrees extra fuel value sameRest

theorem execute_agrees (extra : Nat) : ∀ fuel {stmt : Stmt Site},
    stmt.map others.binding = stmt.map table.binding →
      Agrees table others (execute fuel stmt) (execute (extra + fuel) stmt)
  | 0, _, _ => .ofOutOfFuel
  | fuel + 1, stmt, same => by
    cases stmt with
    | expression value =>
      exact .bind (evaluate_agrees extra fuel (Stmt.expression.inj same)) fun _ => .pure _
    | varDecl name initializer =>
      refine .bind (evaluatePart_agrees extra fuel (Stmt.varDecl.inj same).2) fun value => ?_
      exact .bind (.lift _) fun _ => .pure _
    | assign targets value =>
      obtain ⟨sameTargets, sameValue⟩ := Stmt.assign.inj same
      refine .bind (evaluate_agrees extra fuel sameValue) fun value => ?_
      exact .bind (storeEach_agrees extra fuel value sameTargets) fun _ => .pure _
    | set object name value =>
      obtain ⟨sameObject, _, sameValue⟩ := Stmt.set.inj same
      refine .bind (evaluate_agrees extra fuel sameObject) fun object => ?_
      cases object with
      | object id =>
        refine .bind (evaluate_agrees extra fuel sameValue) fun value => ?_
        exact .bind (.lift _) fun _ => .pure _
      | _ => exact .lift _
    | block body => exact (executeEach_agrees extra fuel (Stmt.block.inj same)).inScope
    | branch condition thenBranch elseBranch =>
      obtain ⟨sameCondition, sameThen, sameElse⟩ := Stmt.branch.inj same
      refine .inScope (.bind (evaluate_agrees extra fuel sameCondition) fun value => ?_)
      exact .ite (execute_agrees extra fuel sameThen) (executePart_agrees extra fuel sameElse)
    | whileLoop condition body =>
      obtain ⟨sameCondition, sameBody⟩ := Stmt.whileLoop.inj same
      have sameCondition : Expr.mapPart others.binding (some condition) =
          Expr.mapPart table.binding (some condition) := congrArg some sameCondition
      exact (loop_agrees extra fuel sameCondition rfl sameBody).inScope
    | forLoop initializer condition increment body =>
      obtain ⟨sameInitializer, sameCondition, sameIncrement, sameBody⟩ := Stmt.forLoop.inj same
      refine .inScope (.bind (executePart_agrees extra fuel sameInitializer) fun _ => ?_)
      exact loop_agrees extra fuel sameCondition sameIncrement sameBody
    | breakLoop line => exact .pure _
    | continueLoop line => exact .pure _
    | funDecl name lambda =>
      exact .bind (declareFunction_agrees (Stmt.funDecl.inj same).2 name) fun _ => .pure _
    | returnValue line value =>
      exact .bind (evaluatePart_agrees extra fuel (Stmt.returnValue.inj same).2) fun _ => .pure _
    | classDecl name superclass methods =>
      obtain ⟨_, sameSuperclass, sameMethods⟩ := Stmt.classDecl.inj same
      exact .bind (declareClass_agrees sameSuperclass sameMethods name) fun _ => .pure _

theorem executeEach_agrees (extra : Nat) : ∀ fuel {stmts : List (Stmt Site)},
    Stmt.mapEach others.binding stmts = Stmt.mapEach table.binding stmts →
      Agrees table others (executeEach fuel stmts) (executeEach (extra + fuel) stmts)
  | 0, _, _ => .ofOutOfFuel
  | _ + 1, [], _ => .pure _
  | fuel + 1, stmt :: rest, same => by
    obtain ⟨sameFirst, sameRest⟩ := List.cons.inj same
    refine .bind (execute_agrees extra fuel sameFirst) fun flow => ?_
    cases flow with
    | normal => exact executeEach_agrees extra fuel sameRest
    | _ => exact .pure _

theorem executePart_agrees (extra : Nat) : ∀ fuel {part : Option (Stmt Site)},
    Stmt.mapPart others.binding part = Stmt.mapPart table.binding part →
      Agrees table others (executePart fuel part) (executePart (extra + fuel) part)
  | 0, _, _ => .ofOutOfFuel
  | _ + 1, none, _ => .pure _
  | fuel + 1, some _, same => execute_agrees extra fuel (Option.some.inj same)

theorem loop_agrees (extra : Nat) : ∀ fuel {condition increment : Option (Expr Site)}
    {body : Stmt Site},
    Expr.mapPart others.binding condition = Expr.mapPart table.binding condition →
      Expr.mapPart others.binding increment = Expr.mapPart table.binding increment →
        body.map others.binding = body.map table.binding →
          Agrees table others (loop fuel condition increment body)
            (loop (extra + fuel) condition increment body)
  | 0, _, _, _, _, _, _ => .ofOutOfFuel
  | fuel + 1, condition, increment, body, sameCondition, sameIncrement, sameBody => by
    have again := Agrees.bind (evaluatePart_agrees extra fuel sameIncrement) fun _ =>
      loop_agrees extra fuel sameCondition sameIncrement sameBody
    have round := Agrees.round (execute_agrees extra fuel sameBody) again
    cases condition with
    | none => exact .bind (.pure _) round
    | some expr =>
      have condition := evaluate_agrees extra fuel (Option.some.inj sameCondition)
      exact .bind condition fun _ => .bind (.pure _) round

end

theorem runTopLevel_agrees (extra fuel : Nat) {stmts : List (Stmt Site)}
    (same : Stmt.mapEach others.binding stmts = Stmt.mapEach table.binding stmts) :
    Agrees table others (runTopLevel fuel stmts) (runTopLevel (extra + fuel) stmts) := by
  induction stmts with
  | nil => exact .pure _
  | cons stmt rest ih =>
    obtain ⟨sameFirst, sameRest⟩ := List.cons.inj same
    refine .bind (execute_agrees extra fuel sameFirst) fun flow => ?_
    cases flow with
    | normal => exact ih sameRest
    | _ => exact .lift _

end Act

end Lox
