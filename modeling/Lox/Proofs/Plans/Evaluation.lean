import Lox.Proofs.Plans.Plan
import Lox.Session

/-!
# Evaluation written down

The plans of evaluation: one for each function of the evaluator, put together as the function is.
Running the plan is what the function does.
-/

namespace Lox.Plan

variable {α : Type}

/-! ## Tame steps -/

def ofOperands (result : Except OperandProblem α) (token : Token) : Plan α :=
  .basic _ (.ofOperands result token)

def readHeap (f : Heap → α) : Plan α := .basic _ (.readHeap f)

def lookUp (name : String) (binding : Binding) (token : Token) : Plan Value :=
  .basic _ (.lookUp name binding token)

def define (name : String) (value : Value) : Plan Unit := .basic _ (.define name value)

def assign (name : Name) (binding : Binding) (value : Value) : Plan Unit :=
  .basic _ (.assign name binding value)

def assignOrDefine (name : Name) (binding : Binding) (value : Value) : Plan Unit :=
  .basic _ (.assignOrDefine name binding value)

def getProperty (id : InstanceId) (name : Name) : Plan Value := .basic _ (.getProperty id name)

def setProperty (object : Value) (name : Name) (value : Value) : Plan Unit :=
  .basic _ (.setProperty object name value)

def superProperty (line : Nat) (binding : Binding) (method : Name) : Plan Value :=
  .basic _ (.superProperty line binding method)

def superclassOf (superclass : Option (Superclass Binding)) : Plan (Option ClassId) :=
  .basic _ (.superclassOf superclass)

def addClass (classObject : ClassObject) : Plan ClassId := .basic _ (.addClass classObject)

def addInstance (classId : ClassId) : Plan InstanceId := .basic _ (.addInstance classId)

def bindMethod (method : FunctionId) (receiver : InstanceId) : Plan FunctionId :=
  .basic _ (.bindMethod method receiver)

def checkArity (expected given : Nat) (paren : Token) : Plan Unit :=
  .basic _ (.checkArity expected given paren)

def callNative (id : NativeId) (arguments : List Value) (paren : Token) : Plan Value :=
  .basic _ (.callNative id arguments paren)

/-! ## Parts without recursion -/

def outsideLoop (keyword : Keyword) (line : Nat) : Plan Value :=
  .fail (.outsideLoop keyword) (keyword.token line)

def callResult (closure : Closure) (flow : Flow) : Plan Value :=
  if closure.isInitializer then
    readHeap fun heap => (heap.environment.getAt? closure.frame 0 thisName).getD .nil
  else
    match flow with
    | .normal => pure .nil
    | .returns _ value => pure value
    | .breaks line => outsideLoop .kwBreak line
    | .continues line => outsideLoop .kwContinue line

def closeMethods (table : Table FunctionId) : List (Method Binding) → Plan (Table FunctionId)
  | [] => pure table
  | method :: rest => do
    let name := method.name.text
    let id ← close (some name) method.lambda (name == initializerName)
    closeMethods (table.set name id) rest

def closeMethodsOf (superclass : Option ClassId) (methods : List (Method Binding)) :
    Plan (Table FunctionId) :=
  match superclass with
  | none => closeMethods .empty methods
  | some id => inScope do
    define superName (.classObject id)
    closeMethods .empty methods

def declareClass (name : Name) (superclass : Option (Superclass Binding))
    (methods : List (Method Binding)) : Plan Unit := do
  let parent ← superclassOf superclass
  define name.text .nil
  let table ← closeMethodsOf parent methods
  let id ← addClass ⟨name.text, parent, table⟩
  define name.text (.classObject id)

def declareFunction (name : Name) (lambda : Lambda Binding) : Plan Unit := do
  define name.text .nil
  let id ← close (some name.text) lambda false
  define name.text (.function id)

/-! ## Expressions and statements -/

mutual

def evaluate : Nat → Expr Binding → Plan Value
  | 0, _ => outOfFuel
  | fuel + 1, expr =>
    match expr with
    | .literal value => pure value.value
    | .group inner => evaluate fuel inner
    | .unary operator line operand => do
      let value ← evaluate fuel operand
      ofOperands (operator.apply value) (operator.symbol.token line)
    | .binary operator line left right => do
      let a ← evaluate fuel left
      let b ← evaluate fuel right
      ofOperands (operator.apply a b) (operator.symbol.token line)
    | .logical operator _ left right => do
      let value ← evaluate fuel left
      if operator.isDecidedBy value then pure value else evaluate fuel right
    | .comma operands => evaluateLast fuel .nil operands
    | .conditional line condition thenBranch elseBranch => do
      match ← evaluate fuel condition with
      | .boolean true => evaluate fuel thenBranch
      | .boolean false => evaluate fuel elseBranch
      | _ => fail .conditionNotBoolean (Symbol.question.token line)
    | .reference name binding => lookUp name.text binding name.token
    | .assign name binding value => do
      let value ← evaluate fuel value
      assign name binding value
      pure value
    | .property object name => do
      match ← evaluate fuel object with
      | .object id => getProperty id name
      | _ => fail .propertyOfNonInstance name.token
    | .call callee line arguments => do
      let arguments ← evaluateEach fuel arguments
      let callee ← evaluate fuel callee
      call fuel callee arguments (Symbol.rightParen.token line)
    | .function lambda => do
      let id ← close none lambda false
      pure (.function id)
    | .thisInstance line binding => lookUp thisName binding (Keyword.kwThis.token line)
    | .superMethod line binding method => superProperty line binding method

def evaluateEach : Nat → List (Expr Binding) → Plan (List Value)
  | 0, _ => outOfFuel
  | fuel + 1, exprs =>
    match exprs with
    | [] => pure []
    | expr :: rest => do
      let value ← evaluate fuel expr
      let values ← evaluateEach fuel rest
      pure (value :: values)

def evaluateLast : Nat → Value → List (Expr Binding) → Plan Value
  | 0, _, _ => outOfFuel
  | fuel + 1, last, exprs =>
    match exprs with
    | [] => pure last
    | expr :: rest => do
      let value ← evaluate fuel expr
      evaluateLast fuel value rest

def evaluatePart : Nat → Option (Expr Binding) → Plan Value
  | 0, _ => outOfFuel
  | fuel + 1, part =>
    match part with
    | none => pure .nil
    | some expr => evaluate fuel expr

def call : Nat → Value → List Value → Token → Plan Value
  | 0, _, _, _ => outOfFuel
  | fuel + 1, callee, arguments, paren =>
    match callee with
    | .native id => callNative id arguments paren
    | .function id => do
      match ← function? id with
      | none => fail .notCallable paren
      | some closure =>
        checkArity closure.lambda.parameters.length arguments.length paren
        callClosure fuel closure arguments paren
    | .classObject id => construct fuel id arguments paren
    | _ => fail .notCallable paren

def construct : Nat → ClassId → List Value → Token → Plan Value
  | 0, _, _, _ => outOfFuel
  | fuel + 1, classId, arguments, paren => do
    match ← readHeap (·.findMethod? initializerName classId) with
    | none =>
      checkArity 0 arguments.length paren
      let id ← addInstance classId
      pure (.object id)
    | some initializer =>
      let arity ← readHeap fun heap =>
        ((heap.functions[initializer]?).map (·.lambda.parameters.length)).getD 0
      checkArity arity arguments.length paren
      let id ← addInstance classId
      let bound ← bindMethod initializer id
      match ← function? bound with
      | none => pure (.object id)
      | some closure =>
        let _ ← callClosure fuel closure arguments paren
        pure (.object id)

def callClosure : Nat → Closure → List Value → Token → Plan Value
  | 0, _, _, _ => outOfFuel
  | fuel + 1, closure, arguments, paren => do
    let flow ← inCall closure arguments paren (executeEach fuel closure.lambda.body)
    callResult closure flow

def storeEach : Nat → Value → List (Target Binding) → Plan Unit
  | 0, _, _ => outOfFuel
  | fuel + 1, value, targets =>
    match targets with
    | [] => pure ()
    | .name name binding :: rest => do
      assignOrDefine name binding value
      storeEach fuel value rest
    | .property object name :: rest => do
      let object ← evaluate fuel object
      setProperty object name value
      storeEach fuel value rest

def execute : Nat → Stmt Binding → Plan Flow
  | 0, _ => outOfFuel
  | fuel + 1, stmt =>
    match stmt with
    | .expression value => do
      let _ ← evaluate fuel value
      pure .normal
    | .varDecl name initializer => do
      let value ← evaluatePart fuel initializer
      define name.text value
      pure .normal
    | .assign targets value => do
      let value ← evaluate fuel value
      storeEach fuel value targets
      pure .normal
    | .set object name value => do
      match ← evaluate fuel object with
      | .object id =>
        let value ← evaluate fuel value
        setProperty (.object id) name value
        pure .normal
      | _ => fail .fieldOfNonInstance name.token
    | .block body => inScope (executeEach fuel body)
    | .branch condition thenBranch elseBranch => inScope do
      let value ← evaluate fuel condition
      if value.isTruthy then execute fuel thenBranch else executePart fuel elseBranch
    | .whileLoop condition body => inScope (loop fuel (some condition) none body)
    | .forLoop initializer condition increment body => inScope do
      let _ ← executePart fuel initializer
      loop fuel condition increment body
    | .breakLoop line => pure (.breaks line)
    | .continueLoop line => pure (.continues line)
    | .funDecl name lambda => do
      declareFunction name lambda
      pure .normal
    | .returnValue line value => do
      let value ← evaluatePart fuel value
      pure (.returns line value)
    | .classDecl name superclass methods => do
      declareClass name superclass methods
      pure .normal

def executeEach : Nat → List (Stmt Binding) → Plan Flow
  | 0, _ => outOfFuel
  | fuel + 1, stmts =>
    match stmts with
    | [] => pure .normal
    | stmt :: rest => do
      match ← execute fuel stmt with
      | .normal => executeEach fuel rest
      | flow => pure flow

def executePart : Nat → Option (Stmt Binding) → Plan Flow
  | 0, _ => outOfFuel
  | fuel + 1, part =>
    match part with
    | none => pure .normal
    | some stmt => execute fuel stmt

def loop : Nat → Option (Expr Binding) → Option (Expr Binding) → Stmt Binding → Plan Flow
  | 0, _, _, _ => outOfFuel
  | fuel + 1, condition, increment, body => do
    let holds ←
      match condition with
      | none => pure true
      | some expr => do
        let value ← evaluate fuel expr
        pure value.isTruthy
    if holds then
      match ← execute fuel body with
      | .breaks _ => pure .normal
      | .returns line value => pure (.returns line value)
      | _ =>
        let _ ← evaluatePart fuel increment
        loop fuel condition increment body
    else pure .normal

end

/-! ## Programs -/

def runTopLevel (fuel : Nat) : List (Stmt Binding) → Plan Unit
  | [] => pure ()
  | stmt :: rest => do
    match ← execute fuel stmt with
    | .normal => runTopLevel fuel rest
    | .breaks line => fail (.outsideLoop .kwBreak) (Keyword.kwBreak.token line)
    | .continues line => fail (.outsideLoop .kwContinue) (Keyword.kwContinue.token line)
    | .returns line _ => fail .returnFromTopLevel (Keyword.kwReturn.token line)

/-- A statement that is stepped through. -/
def result (fuel : Nat) : Stmt Binding → Plan StatementResult
  | .expression expr => do
    let value ← evaluate fuel expr
    pure (.value value)
  | stmt => do
    let flow ← execute fuel stmt
    pure (.flow flow)

/-! ## Running the plans -/

section

variable {β : Type} {first : Plan α} {rest : α → Plan β} {step : Step α}
  {continuation : α → Step β}

theorem run_bind_eq (runs : first.run = step)
    (runsRest : ∀ result, (rest result).run = continuation result) :
    (first >>= rest).run = step >>= continuation := by
  rw [run_bind, runs]
  exact congrArg (step >>= ·) (funext runsRest)

theorem run_ite {condition : Prop} [Decidable condition] {plan other : Plan α}
    {step otherStep : Step α} (present : plan.run = step) (absent : other.run = otherStep) :
    (if condition then plan else other).run = if condition then step else otherStep := by
  split
  · exact present
  · exact absent

theorem run_inScope {inner : Plan α} (runs : inner.run = step) :
    (inScope inner).run = Step.inScope step :=
  congrArg Step.inScope runs

end

theorem callResult_run (closure : Closure) (flow : Flow) :
    (callResult closure flow).run = Step.callResult closure flow := by
  refine run_ite rfl ?_
  cases flow <;> rfl

theorem closeMethods_run (table : Table FunctionId) (methods : List (Method Binding)) :
    (closeMethods table methods).run = Step.closeMethods table methods := by
  induction methods generalizing table with
  | nil => rfl
  | cons method rest ih => exact run_bind_eq rfl fun id => ih _

theorem closeMethodsOf_run (superclass : Option ClassId) (methods : List (Method Binding)) :
    (closeMethodsOf superclass methods).run = Step.closeMethodsOf superclass methods := by
  cases superclass with
  | none => exact closeMethods_run _ _
  | some id => exact run_inScope (run_bind_eq rfl fun _ => closeMethods_run _ _)

theorem declareClass_run (name : Name) (superclass : Option (Superclass Binding))
    (methods : List (Method Binding)) :
    (declareClass name superclass methods).run = Step.declareClass name superclass methods := by
  refine run_bind_eq rfl fun parent => run_bind_eq rfl fun _ => ?_
  exact run_bind_eq (closeMethodsOf_run _ _) fun table => rfl

theorem declareFunction_run (name : Name) (lambda : Lambda Binding) :
    (declareFunction name lambda).run = Step.declareFunction name lambda := rfl

mutual

theorem evaluate_run : ∀ fuel expr, (evaluate fuel expr).run = Step.evaluate fuel expr
  | 0, _ => rfl
  | fuel + 1, expr => by
    cases expr with
    | literal value => rfl
    | group inner => exact evaluate_run fuel inner
    | unary operator line operand => exact run_bind_eq (evaluate_run fuel operand) fun _ => rfl
    | binary operator line left right =>
      refine run_bind_eq (evaluate_run fuel left) fun a => ?_
      exact run_bind_eq (evaluate_run fuel right) fun b => rfl
    | logical operator line left right =>
      refine run_bind_eq (evaluate_run fuel left) fun value => ?_
      exact run_ite rfl (evaluate_run fuel right)
    | comma operands => exact evaluateLast_run fuel .nil operands
    | conditional line condition thenBranch elseBranch =>
      refine run_bind_eq (evaluate_run fuel condition) fun value => ?_
      match value with
      | .boolean true => exact evaluate_run fuel thenBranch
      | .boolean false => exact evaluate_run fuel elseBranch
      | .nil | .number _ | .text _ | .native _ | .function _ | .classObject _ | .object _ => rfl
    | reference name binding => rfl
    | assign name binding value => exact run_bind_eq (evaluate_run fuel value) fun _ => rfl
    | property object name =>
      refine run_bind_eq (evaluate_run fuel object) fun value => ?_
      cases value <;> rfl
    | call callee line arguments =>
      refine run_bind_eq (evaluateEach_run fuel arguments) fun values => ?_
      refine run_bind_eq (evaluate_run fuel callee) fun value => ?_
      exact call_run fuel value values _
    | function lambda => rfl
    | thisInstance line binding => rfl
    | superMethod line binding method => rfl

theorem evaluateEach_run : ∀ fuel exprs,
    (evaluateEach fuel exprs).run = Step.evaluateEach fuel exprs
  | 0, _ => rfl
  | _ + 1, [] => rfl
  | fuel + 1, expr :: rest => by
    refine run_bind_eq (evaluate_run fuel expr) fun value => ?_
    exact run_bind_eq (evaluateEach_run fuel rest) fun values => rfl

theorem evaluateLast_run : ∀ fuel last exprs,
    (evaluateLast fuel last exprs).run = Step.evaluateLast fuel last exprs
  | 0, _, _ => rfl
  | _ + 1, _, [] => rfl
  | fuel + 1, _, expr :: rest =>
    run_bind_eq (evaluate_run fuel expr) fun value => evaluateLast_run fuel value rest

theorem evaluatePart_run : ∀ fuel part,
    (evaluatePart fuel part).run = Step.evaluatePart fuel part
  | 0, _ => rfl
  | _ + 1, none => rfl
  | fuel + 1, some expr => evaluate_run fuel expr

theorem call_run : ∀ fuel callee arguments paren,
    (call fuel callee arguments paren).run = Step.call fuel callee arguments paren
  | 0, _, _, _ => rfl
  | fuel + 1, callee, arguments, paren => by
    cases callee with
    | function id =>
      refine run_bind_eq rfl fun found => ?_
      cases found with
      | none => rfl
      | some closure => exact run_bind_eq rfl fun _ => callClosure_run fuel closure arguments paren
    | classObject id => exact construct_run fuel id arguments paren
    | _ => rfl

theorem construct_run : ∀ fuel classId arguments paren,
    (construct fuel classId arguments paren).run = Step.construct fuel classId arguments paren
  | 0, _, _, _ => rfl
  | fuel + 1, classId, arguments, paren => by
    refine run_bind_eq rfl fun initializer? => ?_
    cases initializer? with
    | none => rfl
    | some initializer =>
      refine run_bind_eq rfl fun arity => run_bind_eq rfl fun _ => ?_
      refine run_bind_eq rfl fun id => run_bind_eq rfl fun bound => run_bind_eq rfl fun found => ?_
      cases found with
      | none => rfl
      | some closure =>
        exact run_bind_eq (callClosure_run fuel closure arguments paren) fun _ => rfl

theorem callClosure_run : ∀ fuel closure arguments paren,
    (callClosure fuel closure arguments paren).run =
      Step.callClosure fuel closure arguments paren
  | 0, _, _, _ => rfl
  | fuel + 1, closure, arguments, paren => by
    refine run_bind_eq ?_ fun flow => callResult_run closure flow
    exact congrArg (Step.inCall closure arguments paren) (executeEach_run fuel closure.lambda.body)

theorem storeEach_run : ∀ fuel value targets,
    (storeEach fuel value targets).run = Step.storeEach fuel value targets
  | 0, _, _ => rfl
  | _ + 1, _, [] => rfl
  | fuel + 1, value, .name name binding :: rest =>
    run_bind_eq rfl fun _ => storeEach_run fuel value rest
  | fuel + 1, value, .property object name :: rest => by
    refine run_bind_eq (evaluate_run fuel object) fun object => run_bind_eq rfl fun _ => ?_
    exact storeEach_run fuel value rest

theorem execute_run : ∀ fuel stmt, (execute fuel stmt).run = Step.execute fuel stmt
  | 0, _ => rfl
  | fuel + 1, stmt => by
    cases stmt with
    | expression value => exact run_bind_eq (evaluate_run fuel value) fun _ => rfl
    | varDecl name initializer => exact run_bind_eq (evaluatePart_run fuel initializer) fun _ => rfl
    | assign targets value =>
      refine run_bind_eq (evaluate_run fuel value) fun value => ?_
      exact run_bind_eq (storeEach_run fuel value targets) fun _ => rfl
    | set object name value =>
      refine run_bind_eq (evaluate_run fuel object) fun object => ?_
      cases object with
      | object id => exact run_bind_eq (evaluate_run fuel value) fun _ => rfl
      | _ => rfl
    | block body => exact run_inScope (executeEach_run fuel body)
    | branch condition thenBranch elseBranch =>
      refine run_inScope (run_bind_eq (evaluate_run fuel condition) fun value => ?_)
      exact run_ite (execute_run fuel thenBranch) (executePart_run fuel elseBranch)
    | whileLoop condition body => exact run_inScope (loop_run fuel (some condition) none body)
    | forLoop initializer condition increment body =>
      refine run_inScope (run_bind_eq (executePart_run fuel initializer) fun _ => ?_)
      exact loop_run fuel condition increment body
    | breakLoop line => rfl
    | continueLoop line => rfl
    | funDecl name lambda => exact run_bind_eq (declareFunction_run name lambda) fun _ => rfl
    | returnValue line value => exact run_bind_eq (evaluatePart_run fuel value) fun _ => rfl
    | classDecl name superclass methods =>
      exact run_bind_eq (declareClass_run name superclass methods) fun _ => rfl

theorem executeEach_run : ∀ fuel stmts,
    (executeEach fuel stmts).run = Step.executeEach fuel stmts
  | 0, _ => rfl
  | _ + 1, [] => rfl
  | fuel + 1, stmt :: rest => by
    refine run_bind_eq (execute_run fuel stmt) fun flow => ?_
    cases flow with
    | normal => exact executeEach_run fuel rest
    | _ => rfl

theorem executePart_run : ∀ fuel part, (executePart fuel part).run = Step.executePart fuel part
  | 0, _ => rfl
  | _ + 1, none => rfl
  | fuel + 1, some stmt => execute_run fuel stmt

theorem loop_run : ∀ fuel condition increment body,
    (loop fuel condition increment body).run = Step.loop fuel condition increment body
  | 0, _, _, _ => rfl
  | fuel + 1, condition, increment, body => by
    have round : ∀ holds, (if holds = true then execute fuel body >>= fun
          | .breaks _ => pure .normal
          | .returns line value => pure (.returns line value)
          | _ => evaluatePart fuel increment >>= fun _ => loop fuel condition increment body
        else pure .normal : Plan Flow).run =
        (if holds = true then Step.execute fuel body >>= fun
          | .breaks _ => Step.pure .normal
          | .returns line value => Step.pure (.returns line value)
          | _ => Step.evaluatePart fuel increment >>= fun _ =>
            Step.loop fuel condition increment body
        else Step.pure .normal) := by
      intro holds
      refine run_ite (run_bind_eq (execute_run fuel body) fun flow => ?_) rfl
      have again := run_bind_eq (evaluatePart_run fuel increment) fun _ =>
        loop_run fuel condition increment body
      cases flow with
      | normal => exact again
      | continues line => exact again
      | breaks line => rfl
      | returns line value => rfl
    cases condition with
    | none => exact run_bind_eq rfl round
    | some expr => exact run_bind_eq (evaluate_run fuel expr) fun _ => run_bind_eq rfl round

end

theorem runTopLevel_run (fuel : Nat) (stmts : List (Stmt Binding)) :
    (runTopLevel fuel stmts).run = Step.runTopLevel fuel stmts := by
  induction stmts with
  | nil => rfl
  | cons stmt rest ih =>
    refine run_bind_eq (execute_run fuel stmt) fun flow => ?_
    cases flow with
    | normal => exact ih
    | _ => rfl

theorem result_run (fuel : Nat) (stmt : Stmt Binding) :
    (result fuel stmt).run = Session.result fuel stmt := by
  cases stmt with
  | expression value => exact run_bind_eq (evaluate_run fuel value) fun _ => rfl
  | _ => exact run_bind_eq (execute_run fuel _) fun _ => rfl

end Lox.Plan
