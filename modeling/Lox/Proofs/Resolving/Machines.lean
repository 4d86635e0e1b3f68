import Lox.Proofs.Resolving.Bodies
import Lox.Proofs.Resolving.Lookups

/-!
# Interpreters as machines

With the bodies of its functions read under its table, an interpreter is a machine whose trees have their
bindings in them, and what it does is what that machine does with the statements read under the table. So
it is the same whether names are looked up in the table when they are come to, or written into the trees
beforehand.
-/

namespace Lox

/-! ## Seen through the table -/

/-- The machine that an interpreter is. -/
def Interpreter.bound (it : Interpreter) : Machine :=
  it.machine.withBodies fun id => Stmt.mapEach it.locals.binding (it.code id)

/-- A new function, whose body is kept, is one of the bound machine with the body as it is read. -/
theorem Interpreter.bound_keepCode (it : Interpreter) (closure : Closure) (body : List (Stmt Site)) :
    (Interpreter.keepCode it.machine.heap.functions.size body
        { it with machine := { it.machine with heap := (it.machine.heap.addFunction closure).2 } }).bound =
      { it.bound with
        heap := (it.bound.heap.addFunction
          (closure.withBody (Stmt.mapEach it.locals.binding body))).2 } := by
  have bodies : (fun other => Stmt.mapEach it.locals.binding
        (if other = it.machine.heap.functions.size then body else it.code other)) =
      fun other => if other = it.machine.heap.functions.size then Stmt.mapEach it.locals.binding body
        else Stmt.mapEach it.locals.binding (it.code other) := by
    funext other
    exact apply_ite _ _ _ _
  change Machine.withBodies (fun other => Stmt.mapEach it.locals.binding
    (if other = it.machine.heap.functions.size then body else it.code other)) _ = _
  rw [bodies]
  exact congrArg (fun heap => { it.machine with heap := heap })
    (Heap.withBodies_addFunction closure (Stmt.mapEach it.locals.binding body))

namespace Ending

variable {α : Type}

def bound : Ending α → Outcome α
  | finished result after => .finished result after.bound
  | failed error after => .failed error after.bound
  | outOfFuel => .outOfFuel

end Ending

/-- Under a table the action is what the step is, and the table stays as it is. -/
def Act.Mirrors {α : Type} (table : Locals) (act : Act α) (step : Step α) : Prop :=
  ∀ it : Interpreter, it.locals = table → (act it).bound = step it.bound ∧
    ∀ after, (act it).after? = some after → after.locals = table

namespace Act.Mirrors

variable {α β : Type} {table : Locals} {act : Act α} {step : Step α}

theorem outOfFuel : Mirrors table (Act.outOfFuel : Act α) Step.outOfFuel :=
  fun _ _ => ⟨rfl, fun _ left => nomatch left⟩

theorem pure (result : α) : Mirrors table (pure result) (pure result) := by
  refine fun it kept => ⟨rfl, fun after left => ?_⟩
  cases left
  exact kept

theorem lift (bodiless : step.Bodiless) : Mirrors table (Act.lift step) step := by
  intro it kept
  rw [Interpreter.bound, bodiless]
  unfold Act.lift
  cases step it.machine with
  | finished result machine => exact ⟨rfl, fun after left => by cases left; exact kept⟩
  | failed error machine => exact ⟨rfl, fun after left => by cases left; exact kept⟩
  | outOfFuel => exact ⟨rfl, fun after left => by cases left⟩

theorem bind {rest : α → Act β} {stepRest : α → Step β} (first : Mirrors table act step)
    (further : ∀ result, Mirrors table (rest result) (stepRest result)) :
    Mirrors table (act >>= rest) (step >>= stepRest) := by
  intro it kept
  obtain ⟨same, keeps⟩ := first it kept
  change (Act.bind act rest it).bound = Step.bind step stepRest it.bound ∧
    ∀ after, (Act.bind act rest it).after? = some after → _
  unfold Act.bind Step.bind
  rw [← same]
  cases ran : act it with
  | finished result after => exact further result after (keeps after (by rw [ran]; rfl))
  | failed error after =>
    rw [ran] at keeps
    exact ⟨rfl, keeps⟩
  | outOfFuel =>
    rw [ran] at keeps
    exact ⟨rfl, keeps⟩

theorem ite {condition : Prop} [Decidable condition] {absent : Act α} {stepAbsent : Step α}
    (present : Mirrors table act step) (otherwise : Mirrors table absent stepAbsent) :
    Mirrors table (if condition then act else absent)
      (if condition then step else stepAbsent) := by
  split
  · exact present
  · exact otherwise

/-- A round of a loop: the body, and what comes after it if the loop goes on. -/
theorem round {body again : Act Flow} {stepBody stepAgain : Step Flow}
    (bodies : Mirrors table body stepBody) (onward : Mirrors table again stepAgain) (holds : Bool) :
    Mirrors table
      (if holds = true then body >>= fun
        | .breaks _ => Pure.pure .normal
        | .returns line value => Pure.pure (.returns line value)
        | _ => again
      else Pure.pure .normal)
      (if holds = true then stepBody >>= fun
        | .breaks _ => Pure.pure .normal
        | .returns line value => Pure.pure (.returns line value)
        | _ => stepAgain
      else Pure.pure .normal) := by
  refine .ite (.bind bodies fun flow => ?_) (.pure _)
  cases flow with
  | normal => exact onward
  | continues line => exact onward
  | breaks line => exact .pure _
  | returns line value => exact .pure _

/-- What is done with the machine around an action is done with the bound machine around the step. -/
theorem mapMachine (mirrors : Mirrors table act step) (enter leave : Machine → Machine)
    (sameLeave : ∀ machine bodies, leave (machine.withBodies bodies) = (leave machine).withBodies bodies)
    {it : Interpreter} (kept : it.locals = table) :
    ((act { it with machine := enter it.machine }).mapMachine leave).bound =
        (step (Interpreter.bound { it with machine := enter it.machine })).mapMachine leave ∧
      ∀ after, ((act { it with machine := enter it.machine }).mapMachine leave).after? = some after →
        after.locals = table := by
  obtain ⟨same, keeps⟩ := mirrors { it with machine := enter it.machine } kept
  rw [← same]
  cases ran : act { it with machine := enter it.machine } with
  | finished result after =>
    have kept := keeps after (by rw [ran]; rfl)
    refine ⟨congrArg (Outcome.finished result) (sameLeave _ _).symm, fun last left => ?_⟩
    cases left
    exact kept
  | failed error after =>
    have kept := keeps after (by rw [ran]; rfl)
    refine ⟨congrArg (Outcome.failed error) (sameLeave _ _).symm, fun last left => ?_⟩
    cases left
    exact kept
  | outOfFuel => exact ⟨rfl, fun _ left => nomatch left⟩

theorem inScope (inner : Mirrors table act step) :
    Mirrors table (Act.inScope act) (Step.inScope step) := by
  intro it kept
  rw [Step.inScope_eq]
  exact inner.mapMachine Machine.enter Machine.leave (fun _ _ => rfl) kept

theorem inCall (body : Mirrors table act step) (closure : Closure) (read : List (Stmt Binding))
    (arguments : List Value) (paren : Token) :
    Mirrors table (Act.inCall closure arguments paren act)
      (Step.inCall (closure.withBody read) arguments paren step) := by
  intro it kept
  rw [Step.inCall_eq]
  unfold Act.inCall
  by_cases full : Step.maximumDepth ≤ it.machine.depth
  · rw [if_pos full, if_pos (show Step.maximumDepth ≤ it.bound.depth from full)]
    refine ⟨rfl, fun after left => ?_⟩
    cases left
    exact kept
  · rw [if_neg full, if_neg (show ¬Step.maximumDepth ≤ it.bound.depth from full)]
    -- Only the body of the function differs, and entering it needs its parameters and its scope.
    have entered : it.bound.enterCall (closure.withBody read) arguments =
        Interpreter.bound { it with machine := it.machine.enterCall closure arguments } :=
      congrArg (fun heap => Machine.mk heap it.machine.heap.environment.size (it.machine.depth + 1)
          it.machine.output it.machine.clock it.machine.readings)
        (Heap.bindParameters_withBodies (it.machine.heap.addFrame closure.frame).2 _ _ _)
    rw [entered]
    exact body.mapMachine (Machine.enterCall closure arguments) (Machine.leaveCall it.machine)
      (fun _ _ => rfl) kept

/-- An occurrence, which is bound as the table says. -/
theorem bindingAt {site : Site} {rest : Binding → Act β} {other : Step β}
    (further : Mirrors table (rest (table.binding site)) other) :
    Mirrors table (Act.bindingAt site >>= rest) other := by
  intro it kept
  subst kept
  exact further it rfl

/-- A function, whose body is read under the table. -/
theorem functionAt {id : FunctionId} {rest : Option (Closure × List (Stmt Site)) → Act β}
    {stepRest : Option Closure → Step β} (missing : Mirrors table (rest none) (stepRest none))
    (further : ∀ closure body, Mirrors table (rest (some (closure, body)))
      (stepRest (some (closure.withBody (Stmt.mapEach table.binding body))))) :
    Mirrors table (Act.functionAt id >>= rest) (Step.readHeap (·.functions[id]?) >>= stepRest) := by
  intro it kept
  have run : (Act.functionAt id >>= rest) it =
      rest ((it.machine.heap.functions[id]?).map fun closure => (closure, it.code id)) it := rfl
  have stepRun : (Step.readHeap (·.functions[id]?) >>= stepRest) it.bound =
      stepRest (it.bound.heap.functions[id]?) it.bound := rfl
  have bound : it.bound.heap.functions[id]? = (it.machine.heap.functions[id]?).map
      (Closure.withBody (Stmt.mapEach it.locals.binding (it.code id))) :=
    Heap.functions_withBodies id
  rw [run, stepRun, bound]
  cases it.machine.heap.functions[id]? with
  | none => exact missing it kept
  | some closure =>
    rw [kept]
    exact further closure (it.code id) it kept

theorem close (name : Option String) (lambda : Lambda Site) (isInitializer : Bool) :
    Mirrors table (Act.close name lambda isInitializer)
      (Step.close name (lambda.map table.binding) isInitializer) := by
  intro it kept
  subst kept
  obtain ⟨parameters, body⟩ := lambda
  refine ⟨?_, fun after left => by cases left; rfl⟩
  have bound := it.bound_keepCode ⟨name, ⟨parameters, []⟩, it.machine.frame, isInitializer⟩ body
  have size : it.bound.heap.functions.size = it.machine.heap.functions.size := Array.size_mapIdx
  exact congr (congrArg Outcome.finished size.symm) bound

/-- The copy of a method has the body of the method. -/
theorem bindMethod (method : FunctionId) (receiver : InstanceId) :
    Mirrors table (Act.bindMethod method receiver)
      (Step.changeHeap (·.bindMethod method receiver)) := by
  intro it kept
  refine ⟨?_, fun after left => by cases left; exact kept⟩
  have known : it.bound.heap.functions[method]? = (it.machine.heap.functions[method]?).map
      (Closure.withBody (Stmt.mapEach it.locals.binding (it.code method))) :=
    Heap.functions_withBodies method
  simp only [Act.bindMethod, Step.changeHeap, Heap.bindMethod, known]
  cases it.machine.heap.functions[method]? with
  | none =>
    have same : it.keepCode method (it.code method) = it := by
      have code : (fun other => if other = method then it.code method else it.code other) = it.code := by
        funext other
        split
        · next equal => rw [equal]
        · rfl
      exact congrArg (fun code => { it with code := code }) code
    exact congrArg (fun after => Outcome.finished method (Interpreter.bound after)) same
  | some closure =>
    -- The scope that binds the instance is made before the function.
    let frame := it.machine.heap.environment.size
    let scope := (it.machine.heap.addFrame closure.frame).2.define frame thisName (.object receiver)
    let inside : Interpreter := { it with machine := { it.machine with heap := scope } }
    have bound := inside.bound_keepCode { closure with frame := frame } (it.code method)
    have size : inside.bound.heap.functions.size = it.machine.heap.functions.size := Array.size_mapIdx
    exact congr (congrArg Outcome.finished size.symm) bound

end Act.Mirrors

namespace Act

variable {table : Locals}

/-! ## Names, properties and declarations -/

theorem lookUp_mirrors (name : String) (site : Site) (token : Token) :
    Mirrors table (lookUp name site token) (Step.lookUp name (table.binding site) token) :=
  .bindingAt (.lift (.lookUp _ _ _))

theorem assign_mirrors (name : Name) (site : Site) (value : Value) :
    Mirrors table (assign name site value) (Step.assign name (table.binding site) value) :=
  .bindingAt (.lift (.assign _ _ _))

theorem assignOrDefine_mirrors (name : Name) (site : Site) (value : Value) :
    Mirrors table (assignOrDefine name site value)
      (Step.assignOrDefine name (table.binding site) value) :=
  .bindingAt (.lift (.assignOrDefine _ _ _))

/-- Reading what has nothing to do with functions. -/
theorem readHeap_mirrors {α : Type} {f : Heap → α}
    (same : ∀ heap bodies, f (heap.withBodies bodies) = f heap) :
    Mirrors table (readHeap f) (Step.readHeap f) :=
  .lift (.readHeap same)

theorem fail_mirrors {α : Type} (problem : RuntimeProblem) (token : Token) :
    Mirrors table (fail problem token : Act α) (Step.fail problem token) :=
  .lift (.fail problem token)

theorem getProperty_mirrors (id : InstanceId) (name : Name) :
    Mirrors table (getProperty id name) (Step.getProperty id name) := by
  rw [Step.getProperty_eq]
  refine .bind (readHeap_mirrors fun _ _ => rfl) fun field? => ?_
  cases field? with
  | some value => exact .pure value
  | none =>
    refine .bind (readHeap_mirrors fun heap bodies => ?_) fun method? => ?_
    · simp only [Heap.findMethod?_withBodies]
      rfl
    · cases method? with
      | some method => exact .bind (.bindMethod method id) fun _ => .pure _
      | none => exact fail_mirrors _ _

theorem superProperty_mirrors (line : Nat) (site : Site) (method : Name) :
    Mirrors table (superProperty line site method)
      (Step.superProperty line (table.binding site) method) := by
  refine .bindingAt (.bind (.lift (.superParts _ _)) fun (superclass, id) => ?_)
  refine .bind (readHeap_mirrors fun _ _ => Heap.findMethod?_withBodies _ _) fun found => ?_
  cases found with
  | some found => exact .bind (.bindMethod found id) fun _ => .pure _
  | none => exact .bind (readHeap_mirrors fun _ _ => rfl) fun _ => fail_mirrors _ _

theorem superclassOf_mirrors (superclass : Option (Superclass Site)) :
    Mirrors table (superclassOf superclass)
      (Step.superclassOf (superclass.map (·.map table.binding))) := by
  cases superclass with
  | none => exact .pure none
  | some parent =>
    refine .bind (lookUp_mirrors _ _ _) fun value => ?_
    cases value with
    | classObject id => exact .pure _
    | _ => exact fail_mirrors _ _

theorem closeMethods_mirrors (methods : List (Method Site)) (closed : Table FunctionId) :
    Mirrors table (closeMethods closed methods)
      (Step.closeMethods closed (Method.mapEach table.binding methods)) := by
  induction methods generalizing closed with
  | nil => exact .pure closed
  | cons method rest ih =>
    obtain ⟨name, lambda⟩ := method
    exact .bind (.close _ lambda _) fun id => ih _

theorem closeMethodsOf_mirrors (superclass : Option ClassId) (methods : List (Method Site)) :
    Mirrors table (closeMethodsOf superclass methods)
      (Step.closeMethodsOf superclass (Method.mapEach table.binding methods)) := by
  cases superclass with
  | none => exact closeMethods_mirrors methods _
  | some id => exact .inScope (.bind (.lift (.define _ _)) fun _ => closeMethods_mirrors methods _)

theorem declareClass_mirrors (name : Name) (superclass : Option (Superclass Site))
    (methods : List (Method Site)) :
    Mirrors table (declareClass name superclass methods)
      (Step.declareClass name (superclass.map (·.map table.binding))
        (Method.mapEach table.binding methods)) := by
  refine .bind (superclassOf_mirrors superclass) fun parent => .bind (.lift (.define _ _)) fun _ => ?_
  refine .bind (closeMethodsOf_mirrors parent methods) fun closed => ?_
  exact .bind (.lift (.changeHeap fun _ _ => rfl)) fun id => .lift (.define _ _)

theorem declareFunction_mirrors (name : Name) (lambda : Lambda Site) :
    Mirrors table (declareFunction name lambda)
      (Step.declareFunction name (lambda.map table.binding)) :=
  .bind (.lift (.define _ _)) fun _ => .bind (.close _ lambda _) fun _ => .lift (.define _ _)

/-! ## Evaluation -/

mutual

theorem evaluate_mirrors : ∀ fuel (expr : Expr Site),
    Mirrors table (evaluate fuel expr) (Step.evaluate fuel (expr.map table.binding))
  | 0, _ => .outOfFuel
  | fuel + 1, expr => by
    cases expr with
    | literal value => exact .pure _
    | group inner => exact evaluate_mirrors fuel inner
    | unary operator line operand =>
      exact .bind (evaluate_mirrors fuel operand) fun _ => .lift (.ofOperands _ _)
    | binary operator line left right =>
      refine .bind (evaluate_mirrors fuel left) fun a => ?_
      exact .bind (evaluate_mirrors fuel right) fun b => .lift (.ofOperands _ _)
    | logical operator line left right =>
      refine .bind (evaluate_mirrors fuel left) fun value => ?_
      exact .ite (.pure _) (evaluate_mirrors fuel right)
    | comma operands => exact evaluateLast_mirrors fuel .nil operands
    | conditional line condition thenBranch elseBranch =>
      refine .bind (evaluate_mirrors fuel condition) fun value => ?_
      cases value with
      | boolean holds =>
        cases holds with
        | true => exact evaluate_mirrors fuel thenBranch
        | false => exact evaluate_mirrors fuel elseBranch
      | _ => exact fail_mirrors _ _
    | reference name site => exact lookUp_mirrors _ site _
    | assign name site value =>
      refine .bind (evaluate_mirrors fuel value) fun value => ?_
      exact .bind (assign_mirrors name site value) fun _ => .pure _
    | property object name =>
      refine .bind (evaluate_mirrors fuel object) fun value => ?_
      cases value with
      | object id => exact getProperty_mirrors id name
      | _ => exact fail_mirrors _ _
    | call callee line arguments =>
      refine .bind (evaluateEach_mirrors fuel arguments) fun values => ?_
      refine .bind (evaluate_mirrors fuel callee) fun value => ?_
      exact call_mirrors fuel value values _
    | function lambda => exact .bind (.close _ lambda _) fun _ => .pure _
    | thisInstance line site => exact lookUp_mirrors _ site _
    | superMethod line site method => exact superProperty_mirrors line site method

theorem evaluateEach_mirrors : ∀ fuel (exprs : List (Expr Site)),
    Mirrors table (evaluateEach fuel exprs)
      (Step.evaluateEach fuel (Expr.mapEach table.binding exprs))
  | 0, _ => .outOfFuel
  | _ + 1, [] => .pure _
  | fuel + 1, expr :: rest => by
    refine .bind (evaluate_mirrors fuel expr) fun value => ?_
    exact .bind (evaluateEach_mirrors fuel rest) fun values => .pure _

theorem evaluateLast_mirrors : ∀ fuel last (exprs : List (Expr Site)),
    Mirrors table (evaluateLast fuel last exprs)
      (Step.evaluateLast fuel last (Expr.mapEach table.binding exprs))
  | 0, _, _ => .outOfFuel
  | _ + 1, _, [] => .pure _
  | fuel + 1, _, expr :: rest =>
    .bind (evaluate_mirrors fuel expr) fun value => evaluateLast_mirrors fuel value rest

theorem evaluatePart_mirrors : ∀ fuel (part : Option (Expr Site)),
    Mirrors table (evaluatePart fuel part)
      (Step.evaluatePart fuel (Expr.mapPart table.binding part))
  | 0, _ => .outOfFuel
  | _ + 1, none => .pure _
  | fuel + 1, some expr => evaluate_mirrors fuel expr

theorem call_mirrors : ∀ fuel callee arguments paren,
    Mirrors table (call fuel callee arguments paren) (Step.call fuel callee arguments paren)
  | 0, _, _, _ => .outOfFuel
  | fuel + 1, callee, arguments, paren => by
    cases callee with
    | function id =>
      refine .functionAt (fail_mirrors _ _) fun closure body => ?_
      refine .bind (.lift (.checkArity _ _ _)) fun _ => ?_
      exact callClosure_mirrors fuel closure body arguments paren
    | classObject id => exact construct_mirrors fuel id arguments paren
    | native id => exact .lift (.callNative _ _ _)
    | _ => exact fail_mirrors .notCallable paren

theorem construct_mirrors : ∀ fuel classId arguments paren,
    Mirrors table (construct fuel classId arguments paren)
      (Step.construct fuel classId arguments paren)
  | 0, _, _, _ => .outOfFuel
  | fuel + 1, classId, arguments, paren => by
    refine .bind (readHeap_mirrors fun _ _ => Heap.findMethod?_withBodies _ _) fun initializer? => ?_
    cases initializer? with
    | none =>
      refine .bind (.lift (.checkArity _ _ _)) fun _ => ?_
      exact .bind (.lift (.changeHeap fun _ _ => rfl)) fun id => .pure _
    | some initializer =>
      refine .bind (readHeap_mirrors fun heap bodies => ?_) fun arity => ?_
      · simp only [Heap.functions_withBodies, Option.map_map]
        rfl
      · refine .bind (.lift (.checkArity _ _ _)) fun _ => ?_
        refine .bind (.lift (.changeHeap fun _ _ => rfl)) fun id => ?_
        refine .bind (.bindMethod initializer id) fun bound => ?_
        refine .functionAt (.pure _) fun closure body => ?_
        exact .bind (callClosure_mirrors fuel closure body arguments paren) fun _ => .pure _

theorem callClosure_mirrors : ∀ fuel closure (body : List (Stmt Site)) arguments paren,
    Mirrors table (callClosure fuel closure body arguments paren)
      (Step.callClosure fuel (closure.withBody (Stmt.mapEach table.binding body)) arguments paren)
  | 0, _, _, _, _ => .outOfFuel
  | fuel + 1, closure, body, arguments, paren =>
    .bind ((executeEach_mirrors fuel body).inCall closure _ arguments paren) fun flow =>
      .lift (.callResult closure flow)

theorem storeEach_mirrors : ∀ fuel value (targets : List (Target Site)),
    Mirrors table (storeEach fuel value targets)
      (Step.storeEach fuel value (Target.mapEach table.binding targets))
  | 0, _, _ => .outOfFuel
  | _ + 1, _, [] => .pure _
  | fuel + 1, value, .name name site :: rest =>
    .bind (assignOrDefine_mirrors name site value) fun _ => storeEach_mirrors fuel value rest
  | fuel + 1, value, .property object name :: rest => by
    refine .bind (evaluate_mirrors fuel object) fun object => ?_
    exact .bind (.lift (.setProperty _ _ _)) fun _ => storeEach_mirrors fuel value rest

theorem execute_mirrors : ∀ fuel (stmt : Stmt Site),
    Mirrors table (execute fuel stmt) (Step.execute fuel (stmt.map table.binding))
  | 0, _ => .outOfFuel
  | fuel + 1, stmt => by
    cases stmt with
    | expression value => exact .bind (evaluate_mirrors fuel value) fun _ => .pure _
    | varDecl name initializer =>
      refine .bind (evaluatePart_mirrors fuel initializer) fun value => ?_
      exact .bind (.lift (.define _ _)) fun _ => .pure _
    | assign targets value =>
      refine .bind (evaluate_mirrors fuel value) fun value => ?_
      exact .bind (storeEach_mirrors fuel value targets) fun _ => .pure _
    | set object name value =>
      refine .bind (evaluate_mirrors fuel object) fun object => ?_
      cases object with
      | object id =>
        refine .bind (evaluate_mirrors fuel value) fun value => ?_
        exact .bind (.lift (.setProperty _ _ _)) fun _ => .pure _
      | _ => exact fail_mirrors _ _
    | block body => exact (executeEach_mirrors fuel body).inScope
    | branch condition thenBranch elseBranch =>
      refine .inScope (.bind (evaluate_mirrors fuel condition) fun value => ?_)
      exact .ite (execute_mirrors fuel thenBranch) (executePart_mirrors fuel elseBranch)
    | whileLoop condition body => exact (loop_mirrors fuel (some condition) none body).inScope
    | forLoop initializer condition increment body =>
      refine .inScope (.bind (executePart_mirrors fuel initializer) fun _ => ?_)
      exact loop_mirrors fuel condition increment body
    | breakLoop line => exact .pure _
    | continueLoop line => exact .pure _
    | funDecl name lambda => exact .bind (declareFunction_mirrors name lambda) fun _ => .pure _
    | returnValue line value => exact .bind (evaluatePart_mirrors fuel value) fun _ => .pure _
    | classDecl name superclass methods =>
      exact .bind (declareClass_mirrors name superclass methods) fun _ => .pure _

theorem executeEach_mirrors : ∀ fuel (stmts : List (Stmt Site)),
    Mirrors table (executeEach fuel stmts)
      (Step.executeEach fuel (Stmt.mapEach table.binding stmts))
  | 0, _ => .outOfFuel
  | _ + 1, [] => .pure _
  | fuel + 1, stmt :: rest => by
    refine .bind (execute_mirrors fuel stmt) fun flow => ?_
    cases flow with
    | normal => exact executeEach_mirrors fuel rest
    | _ => exact .pure _

theorem executePart_mirrors : ∀ fuel (part : Option (Stmt Site)),
    Mirrors table (executePart fuel part)
      (Step.executePart fuel (Stmt.mapPart table.binding part))
  | 0, _ => .outOfFuel
  | _ + 1, none => .pure _
  | fuel + 1, some stmt => execute_mirrors fuel stmt

theorem loop_mirrors : ∀ fuel (condition increment : Option (Expr Site)) (body : Stmt Site),
    Mirrors table (loop fuel condition increment body)
      (Step.loop fuel (Expr.mapPart table.binding condition)
        (Expr.mapPart table.binding increment) (body.map table.binding))
  | 0, _, _, _ => .outOfFuel
  | fuel + 1, condition, increment, body => by
    have again := Mirrors.bind (evaluatePart_mirrors fuel increment) fun _ =>
      loop_mirrors fuel condition increment body
    have round := Mirrors.round (execute_mirrors fuel body) again
    cases condition with
    | none => exact .bind (.pure _) round
    | some expr =>
      exact .bind (evaluate_mirrors fuel expr) fun _ => .bind (.pure _) round

end

end Act

/-! ## Programs -/

namespace Interpreter

end Interpreter

end Lox
