import Lox.Proofs.Homes.Chronicle

/-!
# Chronicles tell of runs

Writing a run down changes nothing about it: each chronicle of the evaluator comes to what the step
comes to that it is a chronicle of.
-/

namespace Lox.Chronicle

variable {α β : Type}

/-- Whatever is on record already, the chronicle comes to what the step comes to. -/
def Records (chronicle : Chronicle α) (step : Step α) : Prop :=
  ∀ machine record, (chronicle machine record).outcome = step machine

namespace Records

variable {chronicle : Chronicle α} {step : Step α}

theorem pure (result : α) : Records (Pure.pure result) (Pure.pure result) := fun _ _ => rfl

theorem lift (step : Step α) : Records (Chronicle.lift step) step := fun _ _ => rfl

theorem outOfFuel : Records (Chronicle.outOfFuel : Chronicle α) Step.outOfFuel := fun _ _ => rfl

theorem bind {rest : α → Chronicle β} {continuation : α → Step β}
    (records : chronicle.Records step)
    (recordsRest : ∀ result, (rest result).Records (continuation result)) :
    (chronicle >>= rest).Records (step >>= continuation) := by
  intro machine record
  change (Chronicle.bind chronicle rest machine record).outcome =
    Step.bind step continuation machine
  have same := records machine record
  unfold Chronicle.bind Step.bind
  cases outcome : step machine with
  | finished result after =>
    rw [outcome] at same
    simp only [same]
    exact recordsRest result _ _
  | failed error after =>
    rw [outcome] at same
    simp only [same]
  | outOfFuel =>
    rw [outcome] at same
    simp only [same]

theorem ite {condition : Prop} [Decidable condition] {other : Chronicle α} {otherStep : Step α}
    (present : chronicle.Records step) (absent : other.Records otherStep) :
    (if condition then chronicle else other).Records (if condition then step else otherStep) := by
  split
  · exact present
  · exact absent

theorem inScope (records : chronicle.Records step) :
    (Chronicle.inScope chronicle).Records (Step.inScope step) := by
  intro machine record
  change (chronicle machine.enter record).outcome.mapMachine Machine.leave = _
  rw [records, Step.inScope_eq]

theorem inCall {body : Chronicle Flow} {step : Step Flow} (records : body.Records step)
    (closure : Closure) (arguments : List Value) (paren : Token) :
    (Chronicle.inCall closure arguments paren body).Records
      (Step.inCall closure arguments paren step) := by
  intro machine record
  rw [Step.inCall_eq]
  unfold Chronicle.inCall
  split
  · rfl
  · change (body (machine.enterCall closure arguments) record).outcome.mapMachine _ = _
    rw [records]

theorem noting {chronicle : Chronicle Value} {step : Step Value} (records : chronicle.Records step)
    (occasion : Occasion) : (Chronicle.noting occasion chronicle).Records step := records

/-- To look up what a function belongs to is no step at all. -/
theorem belongingOf {id : FunctionId} {rest : Belonging → Chronicle α}
    (records : ∀ belonging, (rest belonging).Records step) :
    (Chronicle.belongingOf id >>= rest).Records step :=
  fun machine record => records _ machine record

theorem close (belonging : Belonging) (name : Option String) (lambda : Lambda Binding)
    (isInitializer : Bool) :
    (Chronicle.close belonging name lambda isInitializer).Records
      (Step.close name lambda isInitializer) := fun _ _ => rfl

theorem bindMethod (method : FunctionId) (receiver : InstanceId) :
    (Chronicle.bindMethod method receiver).Records
      (Step.changeHeap (·.bindMethod method receiver)) := fun _ _ => rfl

end Records

/-! ## Parts without recursion -/

theorem getProperty_records (id : InstanceId) (name : Name) :
    (getProperty id name).Records (Step.getProperty id name) := by
  intro machine record
  unfold Step.getProperty
  change (Chronicle.bind (lift (Step.readHeap (·.field? id name.text))) _ machine record).outcome = _
  simp only [Chronicle.bind, lift, Step.readHeap]
  cases machine.heap.field? id name.text with
  | some value => rfl
  | none =>
    change (Chronicle.bind (lift (Step.readHeap _)) _ machine record).outcome = _
    simp only [Chronicle.bind, lift, Step.readHeap]
    cases (machine.heap.instances[id]?).bind fun i => machine.heap.findMethod? name.text i.classId with
    | some method => rfl
    | none => rfl

theorem superProperty_records (line : Nat) (binding : Binding) (method : Name) :
    (superProperty line binding method).Records (Step.superProperty line binding method) := by
  refine .bind (.lift _) fun (superclass, id) => .bind (.lift _) fun found? => ?_
  cases found? with
  | some found => exact .bind (.bindMethod found id) fun _ => .pure _
  | none => exact .bind (.lift _) fun _ => .lift _

theorem closeMethods_records (superclass : Option ClassId) (table : Table FunctionId)
    (methods : List (Method Binding)) :
    (closeMethods superclass table methods).Records (Step.closeMethods table methods) := by
  induction methods generalizing table with
  | nil => exact .pure _
  | cons method rest ih => exact .bind (.close _ _ _ _) fun id => ih _

theorem closeMethodsOf_records (superclass : Option ClassId) (methods : List (Method Binding)) :
    (closeMethodsOf superclass methods).Records (Step.closeMethodsOf superclass methods) := by
  cases superclass with
  | none => exact closeMethods_records _ _ _
  | some id => exact .inScope (.bind (.lift _) fun _ => closeMethods_records _ _ _)

theorem declareClass_records (name : Name) (superclass : Option (Superclass Binding))
    (methods : List (Method Binding)) :
    (declareClass name superclass methods).Records (Step.declareClass name superclass methods) := by
  refine .bind (.lift _) fun parent => .bind (.lift _) fun _ => ?_
  refine .bind (closeMethodsOf_records parent methods) fun table => ?_
  exact .bind (.lift _) fun _ => .lift _

theorem declareFunction_records (home : Option Home) (name : Name) (lambda : Lambda Binding) :
    (declareFunction home name lambda).Records (Step.declareFunction name lambda) :=
  .bind (.lift _) fun _ => .bind (.close _ _ _ _) fun _ => .lift _

/-! ## Expressions and statements -/

mutual

theorem evaluate_records : ∀ fuel home expr,
    (evaluate fuel home expr).Records (Step.evaluate fuel expr)
  | 0, _, _ => .outOfFuel
  | fuel + 1, home, expr => by
    cases expr with
    | literal value => exact .pure _
    | group inner => exact evaluate_records fuel home inner
    | unary operator line operand =>
      exact .bind (evaluate_records fuel home operand) fun _ => .lift _
    | binary operator line left right =>
      refine .bind (evaluate_records fuel home left) fun a => ?_
      exact .bind (evaluate_records fuel home right) fun b => .lift _
    | logical operator line left right =>
      refine .bind (evaluate_records fuel home left) fun value => ?_
      exact .ite (.pure _) (evaluate_records fuel home right)
    | comma operands => exact evaluateLast_records fuel home .nil operands
    | conditional line condition thenBranch elseBranch =>
      refine .bind (evaluate_records fuel home condition) fun value => ?_
      match value with
      | .boolean true => exact evaluate_records fuel home thenBranch
      | .boolean false => exact evaluate_records fuel home elseBranch
      | .nil | .number _ | .text _ | .native _ | .function _ | .classObject _ | .object _ =>
        exact .lift _
    | reference name binding => exact .lift _
    | assign name binding value =>
      refine .bind (evaluate_records fuel home value) fun value => ?_
      exact .bind (.lift _) fun _ => .pure _
    | property object name =>
      refine .bind (evaluate_records fuel home object) fun value => ?_
      cases value with
      | object id => exact getProperty_records id name
      | _ => exact .lift _
    | call callee line arguments =>
      refine .bind (evaluateEach_records fuel home arguments) fun values => ?_
      refine .bind (evaluate_records fuel home callee) fun value => ?_
      exact call_records fuel value values _
    | function lambda => exact .bind (.close _ _ _ _) fun _ => .pure _
    | thisInstance line binding => exact .noting (.lift _) _
    | superMethod line binding method => exact .noting (superProperty_records _ _ _) _

theorem evaluateEach_records : ∀ fuel home exprs,
    (evaluateEach fuel home exprs).Records (Step.evaluateEach fuel exprs)
  | 0, _, _ => .outOfFuel
  | _ + 1, _, [] => .pure _
  | fuel + 1, home, expr :: rest => by
    refine .bind (evaluate_records fuel home expr) fun value => ?_
    exact .bind (evaluateEach_records fuel home rest) fun values => .pure _

theorem evaluateLast_records : ∀ fuel home last exprs,
    (evaluateLast fuel home last exprs).Records (Step.evaluateLast fuel last exprs)
  | 0, _, _, _ => .outOfFuel
  | _ + 1, _, _, [] => .pure _
  | fuel + 1, home, _, expr :: rest =>
    .bind (evaluate_records fuel home expr) fun value => evaluateLast_records fuel home value rest

theorem evaluatePart_records : ∀ fuel home part,
    (evaluatePart fuel home part).Records (Step.evaluatePart fuel part)
  | 0, _, _ => .outOfFuel
  | _ + 1, _, none => .pure _
  | fuel + 1, home, some expr => evaluate_records fuel home expr

theorem call_records : ∀ fuel callee arguments paren,
    (call fuel callee arguments paren).Records (Step.call fuel callee arguments paren)
  | 0, _, _, _ => .outOfFuel
  | fuel + 1, callee, arguments, paren => by
    cases callee with
    | function id =>
      refine .bind (.lift _) fun found => ?_
      cases found with
      | none => exact .lift _
      | some closure =>
        refine .bind (.lift _) fun _ => .belongingOf fun belonging => ?_
        exact .noting (callClosure_records fuel belonging closure arguments paren) _
    | classObject id => exact .noting (construct_records fuel id arguments paren) _
    | _ => exact .lift _

theorem construct_records : ∀ fuel classId arguments paren,
    (construct fuel classId arguments paren).Records (Step.construct fuel classId arguments paren)
  | 0, _, _, _ => .outOfFuel
  | fuel + 1, classId, arguments, paren => by
    refine .bind (.lift _) fun initializer? => ?_
    cases initializer? with
    | none => exact .bind (.lift _) fun _ => .bind (.lift _) fun _ => .pure _
    | some initializer =>
      refine .bind (.lift _) fun arity => .bind (.lift _) fun _ => .bind (.lift _) fun id => ?_
      refine .bind (.bindMethod initializer id) fun bound => .bind (.lift _) fun found => ?_
      cases found with
      | none => exact .pure _
      | some closure =>
        refine .belongingOf fun belonging => ?_
        exact .bind (.noting (callClosure_records fuel belonging closure arguments paren) _)
          fun _ => .pure _

theorem callClosure_records : ∀ fuel belonging closure arguments paren,
    (callClosure fuel belonging closure arguments paren).Records
      (Step.callClosure fuel closure arguments paren)
  | 0, _, _, _, _ => .outOfFuel
  | fuel + 1, belonging, closure, arguments, paren => by
    have body := executeEach_records fuel belonging.home? closure.lambda.body
    exact .bind (.inCall body closure arguments paren) fun flow => .lift _

theorem storeEach_records : ∀ fuel home value targets,
    (storeEach fuel home value targets).Records (Step.storeEach fuel value targets)
  | 0, _, _, _ => .outOfFuel
  | _ + 1, _, _, [] => .pure _
  | fuel + 1, home, value, .name name binding :: rest =>
    .bind (.lift _) fun _ => storeEach_records fuel home value rest
  | fuel + 1, home, value, .property object name :: rest => by
    refine .bind (evaluate_records fuel home object) fun object => .bind (.lift _) fun _ => ?_
    exact storeEach_records fuel home value rest

theorem execute_records : ∀ fuel home stmt,
    (execute fuel home stmt).Records (Step.execute fuel stmt)
  | 0, _, _ => .outOfFuel
  | fuel + 1, home, stmt => by
    cases stmt with
    | expression value => exact .bind (evaluate_records fuel home value) fun _ => .pure _
    | varDecl name initializer =>
      refine .bind (evaluatePart_records fuel home initializer) fun value => ?_
      exact .bind (.lift _) fun _ => .pure _
    | assign targets value =>
      refine .bind (evaluate_records fuel home value) fun value => ?_
      exact .bind (storeEach_records fuel home value targets) fun _ => .pure _
    | set object name value =>
      refine .bind (evaluate_records fuel home object) fun object => ?_
      cases object with
      | object id =>
        refine .bind (evaluate_records fuel home value) fun value => ?_
        exact .bind (.lift _) fun _ => .pure _
      | _ => exact .lift _
    | block body => exact .inScope (executeEach_records fuel home body)
    | branch condition thenBranch elseBranch =>
      refine .inScope (.bind (evaluate_records fuel home condition) fun value => ?_)
      exact .ite (execute_records fuel home thenBranch) (executePart_records fuel home elseBranch)
    | whileLoop condition body => exact .inScope (loop_records fuel home (some condition) none body)
    | forLoop initializer condition increment body =>
      refine .inScope (.bind (executePart_records fuel home initializer) fun _ => ?_)
      exact loop_records fuel home condition increment body
    | breakLoop line => exact .pure _
    | continueLoop line => exact .pure _
    | funDecl name lambda => exact .bind (declareFunction_records home name lambda) fun _ => .pure _
    | returnValue line value =>
      exact .bind (evaluatePart_records fuel home value) fun _ => .pure _
    | classDecl name superclass methods =>
      exact .bind (declareClass_records name superclass methods) fun _ => .pure _

theorem executeEach_records : ∀ fuel home stmts,
    (executeEach fuel home stmts).Records (Step.executeEach fuel stmts)
  | 0, _, _ => .outOfFuel
  | _ + 1, _, [] => .pure _
  | fuel + 1, home, stmt :: rest => by
    refine .bind (execute_records fuel home stmt) fun flow => ?_
    cases flow with
    | normal => exact executeEach_records fuel home rest
    | _ => exact .pure _

theorem executePart_records : ∀ fuel home part,
    (executePart fuel home part).Records (Step.executePart fuel part)
  | 0, _, _ => .outOfFuel
  | _ + 1, _, none => .pure _
  | fuel + 1, home, some stmt => execute_records fuel home stmt

theorem loop_records : ∀ fuel home condition increment body,
    (loop fuel home condition increment body).Records (Step.loop fuel condition increment body)
  | 0, _, _, _, _ => .outOfFuel
  | fuel + 1, home, condition, increment, body => by
    have round : ∀ holds, Records (if holds = true then execute fuel home body >>= fun
          | .breaks _ => Pure.pure .normal
          | .returns line value => Pure.pure (.returns line value)
          | _ => evaluatePart fuel home increment >>= fun _ =>
            loop fuel home condition increment body
        else Pure.pure .normal)
        (if holds = true then Step.execute fuel body >>= fun
          | .breaks _ => Step.pure .normal
          | .returns line value => Step.pure (.returns line value)
          | _ => Step.evaluatePart fuel increment >>= fun _ =>
            Step.loop fuel condition increment body
        else Step.pure .normal) := by
      intro holds
      refine .ite (.bind (execute_records fuel home body) fun flow => ?_) (.pure _)
      have again := Records.bind (evaluatePart_records fuel home increment) fun _ =>
        loop_records fuel home condition increment body
      cases flow with
      | normal => exact again
      | continues line => exact again
      | breaks line => exact .pure _
      | returns line value => exact .pure _
    cases condition with
    | none => exact .bind (.pure true) round
    | some expr =>
      refine .bind (evaluate_records fuel home expr) fun value => ?_
      exact .bind (.pure value.isTruthy) round

end

/-! ## Programs -/

theorem runTopLevel_records (fuel : Nat) (stmts : List (Stmt Binding)) :
    (runTopLevel fuel stmts).Records (Step.runTopLevel fuel stmts) := by
  induction stmts with
  | nil => exact .pure _
  | cons stmt rest ih =>
    refine .bind (execute_records fuel none stmt) fun flow => ?_
    cases flow with
    | normal => exact ih
    | _ => exact .lift _

theorem result_records (fuel : Nat) (stmt : Stmt Binding) :
    (result fuel stmt).Records (Session.result fuel stmt) := by
  cases stmt with
  | expression value => exact .bind (evaluate_records fuel none value) fun _ => .pure _
  | _ => exact .bind (execute_records fuel none _) fun _ => .pure _

end Lox.Chronicle
