import Lox.Proofs.Plans.Plan
import Lox.Session

/-!
# Jobs

Evaluation is made of jobs: each function of the evaluator applied to what it is given is one, and so is
a program, a statement that is stepped through, and a native routine at work. A job is put together from
steps of the machine and from other jobs, in the way that its script writes down. So one can say of a run
which jobs it starts, and on which machine each of them is started, whether the run ever ends or not.
-/

namespace Lox

/-- Does what a native routine replies to as many arguments as it takes. -/
def Step.perform (native : Native) (arguments : List Value) (paren : Token) : Step Value := do
  match ← readHeap fun heap => native.routine heap.shown arguments with
  | .value value => pure value
  | .failure message => fail (.nativeFailure message) paren
  | .write text =>
    write text paren
    pure .nil
  | .readClock =>
    let reading ← readClock
    pure (.number reading)

inductive Job where
  | evaluate (fuel : Nat) (expr : Expr Binding)
  | evaluateEach (fuel : Nat) (exprs : List (Expr Binding))
  | evaluateLast (fuel : Nat) (last : Value) (exprs : List (Expr Binding))
  | evaluatePart (fuel : Nat) (part : Option (Expr Binding))
  | call (fuel : Nat) (callee : Value) (arguments : List Value) (paren : Token)
  | construct (fuel : Nat) (classId : ClassId) (arguments : List Value) (paren : Token)
  | callClosure (fuel : Nat) (closure : Closure) (arguments : List Value) (paren : Token)
  | perform (native : Native) (arguments : List Value) (paren : Token)
  | storeEach (fuel : Nat) (value : Value) (targets : List (Target Binding))
  | execute (fuel : Nat) (stmt : Stmt Binding)
  | executeEach (fuel : Nat) (stmts : List (Stmt Binding))
  | executePart (fuel : Nat) (part : Option (Stmt Binding))
  | loop (fuel : Nat) (condition increment : Option (Expr Binding)) (body : Stmt Binding)
  | runTopLevel (fuel : Nat) (stmts : List (Stmt Binding))
  /-- A statement that is stepped through. -/
  | result (fuel : Nat) (stmt : Stmt Binding)

namespace Job

abbrev Result : Job → Type
  | evaluateEach _ _ => List Value
  | storeEach _ _ _ | runTopLevel _ _ => Unit
  | execute _ _ | executeEach _ _ | executePart _ _ | loop _ _ _ _ => Flow
  | result _ _ => StatementResult
  | _ => Value

/-- The step that a job is. -/
def run : (job : Job) → Step job.Result
  | evaluate fuel expr => Step.evaluate fuel expr
  | evaluateEach fuel exprs => Step.evaluateEach fuel exprs
  | evaluateLast fuel last exprs => Step.evaluateLast fuel last exprs
  | evaluatePart fuel part => Step.evaluatePart fuel part
  | call fuel callee arguments paren => Step.call fuel callee arguments paren
  | construct fuel classId arguments paren => Step.construct fuel classId arguments paren
  | callClosure fuel closure arguments paren => Step.callClosure fuel closure arguments paren
  | perform native arguments paren => Step.perform native arguments paren
  | storeEach fuel value targets => Step.storeEach fuel value targets
  | execute fuel stmt => Step.execute fuel stmt
  | executeEach fuel stmts => Step.executeEach fuel stmts
  | executePart fuel part => Step.executePart fuel part
  | loop fuel condition increment body => Step.loop fuel condition increment body
  | runTopLevel fuel stmts => Step.runTopLevel fuel stmts
  | result fuel stmt => Session.result fuel stmt

/-- Every job that a job starts has a lower rank. -/
def rank : Job → Nat
  | evaluate fuel _ | evaluateEach fuel _ | evaluateLast fuel _ _ | evaluatePart fuel _
  | call fuel _ _ _ | construct fuel _ _ _ | callClosure fuel _ _ _ | storeEach fuel _ _
  | execute fuel _ | executeEach fuel _ | executePart fuel _ | loop fuel _ _ _ => fuel
  | perform _ _ _ => 0
  | runTopLevel fuel stmts => fuel + stmts.length + 1
  | result fuel _ => fuel + 1

end Job

/-! ## Scripts -/

/-- How a job is put together. -/
inductive Script : Type → Type 1 where
  | step {α : Type} (step : Step α) : Script α
  | job (job : Job) : Script job.Result
  | bind {α β : Type} (first : Script α) (rest : α → Script β) : Script β
  | inScope {α : Type} (inner : Script α) : Script α
  | inCall (closure : Closure) (arguments : List Value) (paren : Token) (body : Script Flow) :
    Script Flow

namespace Script

variable {α β : Type}

instance : Monad Script where
  pure result := .step (pure result)
  bind := Script.bind

/-- The step that a script is for. -/
def run : {α : Type} → Script α → Step α
  | _, .step plain => plain
  | _, .job own => own.run
  | _, .bind first rest => first.run >>= fun result => (rest result).run
  | _, .inScope inner => Step.inScope inner.run
  | _, .inCall closure arguments paren body => Step.inCall closure arguments paren body.run

/-- A run of the script on a machine starts a job, at a moment when the machine is in that state. -/
def Starts : {α : Type} → Script α → Machine → Job → Machine → Prop
  | _, .step _, _, _, _ => False
  | _, .job own, machine, started, moment => started = own ∧ moment = machine
  | _, .bind first rest, machine, started, moment =>
    first.Starts machine started moment ∨ ∃ result middle,
      first.run machine = .finished result middle ∧ (rest result).Starts middle started moment
  | _, .inScope inner, machine, started, moment => inner.Starts machine.enter started moment
  | _, .inCall closure arguments _ body, machine, started, moment =>
    -- A call that would be one too many inside one another never comes to its body.
    machine.depth < Step.maximumDepth ∧
      body.Starts (machine.enterCall closure arguments) started moment

end Script

/-! ## The scripts of the evaluator -/

namespace Script

def outOfFuel {α : Type} : Script α := .step Step.outOfFuel

def fail {α : Type} (problem : RuntimeProblem) (token : Token) : Script α :=
  .step (Step.fail problem token)

def readHeap {α : Type} (f : Heap → α) : Script α := .step (Step.readHeap f)

def checkArity (expected given : Nat) (paren : Token) : Script Unit :=
  .step (Step.checkArity expected given paren)

def evaluate : Nat → Expr Binding → Script Value
  | 0, _ => outOfFuel
  | fuel + 1, expr =>
    match expr with
    | .literal value => pure value.value
    | .group inner => job (.evaluate fuel inner)
    | .unary operator line operand => do
      let value ← job (.evaluate fuel operand)
      step (Step.ofOperands (operator.apply value) (operator.symbol.token line))
    | .binary operator line left right => do
      let a ← job (.evaluate fuel left)
      let b ← job (.evaluate fuel right)
      step (Step.ofOperands (operator.apply a b) (operator.symbol.token line))
    | .logical operator _ left right => do
      let value ← job (.evaluate fuel left)
      if operator.isDecidedBy value then pure value else job (.evaluate fuel right)
    | .comma operands => job (.evaluateLast fuel .nil operands)
    | .conditional line condition thenBranch elseBranch => do
      match ← job (.evaluate fuel condition) with
      | .boolean true => job (.evaluate fuel thenBranch)
      | .boolean false => job (.evaluate fuel elseBranch)
      | _ => fail .conditionNotBoolean (Symbol.question.token line)
    | .reference name binding => step (Step.lookUp name.text binding name.token)
    | .assign name binding value => do
      let value ← job (.evaluate fuel value)
      step (Step.assign name binding value)
      pure value
    | .property object name => do
      match ← job (.evaluate fuel object) with
      | .object id => step (Step.getProperty id name)
      | _ => fail .propertyOfNonInstance name.token
    | .call callee line arguments => do
      let arguments ← job (.evaluateEach fuel arguments)
      let callee ← job (.evaluate fuel callee)
      job (.call fuel callee arguments (Symbol.rightParen.token line))
    | .function lambda => do
      let id ← step (Step.close none lambda false)
      pure (.function id)
    | .thisInstance line binding => step (Step.lookUp thisName binding (Keyword.kwThis.token line))
    | .superMethod line binding method => step (Step.superProperty line binding method)

def evaluateEach : Nat → List (Expr Binding) → Script (List Value)
  | 0, _ => outOfFuel
  | fuel + 1, exprs =>
    match exprs with
    | [] => pure []
    | expr :: rest => do
      let value ← job (.evaluate fuel expr)
      let values ← job (.evaluateEach fuel rest)
      pure (value :: values)

def evaluateLast : Nat → Value → List (Expr Binding) → Script Value
  | 0, _, _ => outOfFuel
  | fuel + 1, last, exprs =>
    match exprs with
    | [] => pure last
    | expr :: rest => do
      let value ← job (.evaluate fuel expr)
      job (.evaluateLast fuel value rest)

def evaluatePart : Nat → Option (Expr Binding) → Script Value
  | 0, _ => outOfFuel
  | fuel + 1, part =>
    match part with
    | none => pure .nil
    | some expr => job (.evaluate fuel expr)

def call : Nat → Value → List Value → Token → Script Value
  | 0, _, _, _ => outOfFuel
  | fuel + 1, callee, arguments, paren =>
    match callee with
    | .native id => do
      match ← readHeap (·.natives[id]?) with
      | none => fail .notCallable paren
      | some native =>
        checkArity native.arity arguments.length paren
        job (.perform native arguments paren)
    | .function id => do
      match ← readHeap (·.functions[id]?) with
      | none => fail .notCallable paren
      | some closure =>
        checkArity closure.lambda.parameters.length arguments.length paren
        job (.callClosure fuel closure arguments paren)
    | .classObject id => job (.construct fuel id arguments paren)
    | _ => fail .notCallable paren

def construct : Nat → ClassId → List Value → Token → Script Value
  | 0, _, _, _ => outOfFuel
  | fuel + 1, classId, arguments, paren => do
    match ← readHeap (·.findMethod? initializerName classId) with
    | none =>
      checkArity 0 arguments.length paren
      let id ← step (Step.changeHeap (·.addInstance classId))
      pure (.object id)
    | some initializer =>
      let arity ← readHeap fun heap =>
        ((heap.functions[initializer]?).map (·.lambda.parameters.length)).getD 0
      checkArity arity arguments.length paren
      let id ← step (Step.changeHeap (·.addInstance classId))
      let bound ← step (Step.changeHeap (·.bindMethod initializer id))
      match ← readHeap (·.functions[bound]?) with
      | none => pure (.object id)
      | some closure =>
        let _ ← job (.callClosure fuel closure arguments paren)
        pure (.object id)

def callClosure : Nat → Closure → List Value → Token → Script Value
  | 0, _, _, _ => outOfFuel
  | fuel + 1, closure, arguments, paren => do
    let flow ← inCall closure arguments paren (job (.executeEach fuel closure.lambda.body))
    step (Step.callResult closure flow)

def storeEach : Nat → Value → List (Target Binding) → Script Unit
  | 0, _, _ => outOfFuel
  | fuel + 1, value, targets =>
    match targets with
    | [] => pure ()
    | .name name binding :: rest => do
      step (Step.assignOrDefine name binding value)
      job (.storeEach fuel value rest)
    | .property object name :: rest => do
      let object ← job (.evaluate fuel object)
      step (Step.setProperty object name value)
      job (.storeEach fuel value rest)

def execute : Nat → Stmt Binding → Script Flow
  | 0, _ => outOfFuel
  | fuel + 1, stmt =>
    match stmt with
    | .expression value => do
      let _ ← job (.evaluate fuel value)
      pure .normal
    | .varDecl name initializer => do
      let value ← job (.evaluatePart fuel initializer)
      step (Step.define name.text value)
      pure .normal
    | .assign targets value => do
      let value ← job (.evaluate fuel value)
      job (.storeEach fuel value targets)
      pure .normal
    | .set object name value => do
      match ← job (.evaluate fuel object) with
      | .object id =>
        let value ← job (.evaluate fuel value)
        step (Step.setProperty (.object id) name value)
        pure .normal
      | _ => fail .fieldOfNonInstance name.token
    | .block body => inScope (job (.executeEach fuel body))
    | .branch condition thenBranch elseBranch => inScope do
      let value ← job (.evaluate fuel condition)
      if value.isTruthy then job (.execute fuel thenBranch)
      else job (.executePart fuel elseBranch)
    | .whileLoop condition body => inScope (job (.loop fuel (some condition) none body))
    | .forLoop initializer condition increment body => inScope do
      let _ ← job (.executePart fuel initializer)
      job (.loop fuel condition increment body)
    | .breakLoop line => pure (.breaks line)
    | .continueLoop line => pure (.continues line)
    | .funDecl name lambda => do
      step (Step.declareFunction name lambda)
      pure .normal
    | .returnValue line value => do
      let value ← job (.evaluatePart fuel value)
      pure (.returns line value)
    | .classDecl name superclass methods => do
      step (Step.declareClass name superclass methods)
      pure .normal

def executeEach : Nat → List (Stmt Binding) → Script Flow
  | 0, _ => outOfFuel
  | fuel + 1, stmts =>
    match stmts with
    | [] => pure .normal
    | stmt :: rest => do
      match ← job (.execute fuel stmt) with
      | .normal => job (.executeEach fuel rest)
      | flow => pure flow

def executePart : Nat → Option (Stmt Binding) → Script Flow
  | 0, _ => outOfFuel
  | fuel + 1, part =>
    match part with
    | none => pure .normal
    | some stmt => job (.execute fuel stmt)

/-- A round of a loop whose condition was tested, and the rounds after it. -/
def round (fuel : Nat) (condition increment : Option (Expr Binding)) (body : Stmt Binding)
    (holds : Bool) : Script Flow :=
  if holds then do
    match ← job (.execute fuel body) with
    | .breaks _ => pure .normal
    | .returns line value => pure (.returns line value)
    | _ =>
      let _ ← job (.evaluatePart fuel increment)
      job (.loop fuel condition increment body)
  else pure .normal

def loop : Nat → Option (Expr Binding) → Option (Expr Binding) → Stmt Binding → Script Flow
  | 0, _, _, _ => outOfFuel
  | fuel + 1, condition, increment, body =>
    match condition with
    | none => round fuel condition increment body true
    | some expr => do
      let value ← job (.evaluate fuel expr)
      round fuel condition increment body value.isTruthy

def runTopLevel (fuel : Nat) : List (Stmt Binding) → Script Unit
  | [] => pure ()
  | stmt :: rest => do
    match ← job (.execute fuel stmt) with
    | .normal => job (.runTopLevel fuel rest)
    | .breaks line => fail (.outsideLoop .kwBreak) (Keyword.kwBreak.token line)
    | .continues line => fail (.outsideLoop .kwContinue) (Keyword.kwContinue.token line)
    | .returns line _ => fail .returnFromTopLevel (Keyword.kwReturn.token line)

def result (fuel : Nat) : Stmt Binding → Script StatementResult
  | .expression expr => do
    let value ← job (.evaluate fuel expr)
    pure (.value value)
  | stmt => do
    let flow ← job (.execute fuel stmt)
    pure (.flow flow)

end Script

namespace Job

def script : (job : Job) → Script job.Result
  | evaluate fuel expr => Script.evaluate fuel expr
  | evaluateEach fuel exprs => Script.evaluateEach fuel exprs
  | evaluateLast fuel last exprs => Script.evaluateLast fuel last exprs
  | evaluatePart fuel part => Script.evaluatePart fuel part
  | call fuel callee arguments paren => Script.call fuel callee arguments paren
  | construct fuel classId arguments paren => Script.construct fuel classId arguments paren
  | callClosure fuel closure arguments paren => Script.callClosure fuel closure arguments paren
  | perform native arguments paren => .step (Step.perform native arguments paren)
  | storeEach fuel value targets => Script.storeEach fuel value targets
  | execute fuel stmt => Script.execute fuel stmt
  | executeEach fuel stmts => Script.executeEach fuel stmts
  | executePart fuel part => Script.executePart fuel part
  | loop fuel condition increment body => Script.loop fuel condition increment body
  | runTopLevel fuel stmts => Script.runTopLevel fuel stmts
  | result fuel stmt => Script.result fuel stmt

end Job

/-! ## Running the scripts -/

namespace Script

variable {α β : Type}

theorem run_bind_eq {first : Script α} {rest : α → Script β} {step : Step α}
    {continuation : α → Step β} (runs : first.run = step)
    (runsRest : ∀ result, (rest result).run = continuation result) :
    (first >>= rest).run = step >>= continuation := by
  change (first.run >>= fun result => (rest result).run) = _
  rw [runs]
  exact congrArg (step >>= ·) (funext runsRest)

theorem run_ite {condition : Prop} [Decidable condition] {script other : Script α}
    {step otherStep : Step α} (present : script.run = step) (absent : other.run = otherStep) :
    (if condition then script else other).run = if condition then step else otherStep := by
  split
  · exact present
  · exact absent

theorem evaluate_run (fuel : Nat) (expr : Expr Binding) :
    (evaluate fuel expr).run = Step.evaluate fuel expr := by
  cases fuel with
  | zero => rfl
  | succ fuel =>
    -- Where a result decides what comes next, the two only agree once the result is known.
    cases expr with
    | logical operator line left right => exact run_bind_eq rfl fun value => run_ite rfl rfl
    | conditional line condition thenBranch elseBranch =>
      refine run_bind_eq rfl fun value => ?_
      match value with
      | .boolean true | .boolean false => rfl
      | .nil | .number _ | .text _ | .native _ | .function _ | .classObject _ | .object _ => rfl
    | property object name =>
      refine run_bind_eq rfl fun value => ?_
      cases value <;> rfl
    | _ => rfl

theorem call_run (fuel : Nat) (callee : Value) (arguments : List Value) (paren : Token) :
    (call fuel callee arguments paren).run = Step.call fuel callee arguments paren := by
  cases fuel with
  | zero => rfl
  | succ fuel =>
    cases callee with
    | native id =>
      refine run_bind_eq rfl fun found => ?_
      cases found <;> rfl
    | function id =>
      refine run_bind_eq rfl fun found => ?_
      cases found <;> rfl
    | _ => rfl

theorem construct_run (fuel : Nat) (classId : ClassId) (arguments : List Value) (paren : Token) :
    (construct fuel classId arguments paren).run =
      Step.construct fuel classId arguments paren := by
  cases fuel with
  | zero => rfl
  | succ fuel =>
    refine run_bind_eq rfl fun initializer? => ?_
    cases initializer? with
    | none => rfl
    | some initializer =>
      refine run_bind_eq rfl fun arity => run_bind_eq rfl fun _ => ?_
      refine run_bind_eq rfl fun id => run_bind_eq rfl fun bound => run_bind_eq rfl fun found => ?_
      cases found <;> rfl

theorem execute_run (fuel : Nat) (stmt : Stmt Binding) :
    (execute fuel stmt).run = Step.execute fuel stmt := by
  cases fuel with
  | zero => rfl
  | succ fuel =>
    cases stmt with
    | set object name value =>
      refine run_bind_eq rfl fun object => ?_
      cases object <;> rfl
    | branch condition thenBranch elseBranch =>
      exact congrArg Step.inScope (run_bind_eq rfl fun value => run_ite rfl rfl)
    | _ => rfl

theorem executeEach_run (fuel : Nat) (stmts : List (Stmt Binding)) :
    (executeEach fuel stmts).run = Step.executeEach fuel stmts := by
  cases fuel with
  | zero => rfl
  | succ fuel =>
    cases stmts with
    | nil => rfl
    | cons stmt rest =>
      refine run_bind_eq rfl fun flow => ?_
      cases flow <;> rfl

theorem loop_run (fuel : Nat) (condition increment : Option (Expr Binding)) (body : Stmt Binding) :
    (loop fuel condition increment body).run = Step.loop fuel condition increment body := by
  cases fuel with
  | zero => rfl
  | succ fuel =>
    cases condition with
    | none =>
      refine run_bind_eq rfl fun flow => ?_
      cases flow <;> rfl
    | some expr =>
      refine run_bind_eq rfl fun value => ?_
      -- Of the value only its truth matters.
      generalize value.isTruthy = holds
      cases holds with
      | false => rfl
      | true =>
        refine run_bind_eq rfl fun flow => ?_
        cases flow <;> rfl

theorem runTopLevel_run (fuel : Nat) (stmts : List (Stmt Binding)) :
    (runTopLevel fuel stmts).run = Step.runTopLevel fuel stmts := by
  cases stmts with
  | nil => rfl
  | cons stmt rest =>
    refine run_bind_eq rfl fun flow => ?_
    cases flow <;> rfl

end Script

/-- What a job is put together from does what the job does. -/
theorem Job.script_run (job : Job) : job.script.run = job.run := by
  cases job with
  | evaluate fuel expr => exact Script.evaluate_run fuel expr
  | evaluateEach fuel exprs =>
    cases fuel with
    | zero => rfl
    | succ fuel => cases exprs <;> rfl
  | evaluateLast fuel last exprs =>
    cases fuel with
    | zero => rfl
    | succ fuel => cases exprs <;> rfl
  | evaluatePart fuel part =>
    cases fuel with
    | zero => rfl
    | succ fuel => cases part <;> rfl
  | call fuel callee arguments paren => exact Script.call_run fuel callee arguments paren
  | construct fuel classId arguments paren => exact Script.construct_run fuel classId arguments paren
  | callClosure fuel closure arguments paren => cases fuel <;> rfl
  | perform native arguments paren => rfl
  | storeEach fuel value targets =>
    cases fuel with
    | zero => rfl
    | succ fuel =>
      match targets with
      | [] | .name _ _ :: _ | .property _ _ :: _ => rfl
  | execute fuel stmt => exact Script.execute_run fuel stmt
  | executeEach fuel stmts => exact Script.executeEach_run fuel stmts
  | executePart fuel part =>
    cases fuel with
    | zero => rfl
    | succ fuel => cases part <;> rfl
  | loop fuel condition increment body => exact Script.loop_run fuel condition increment body
  | runTopLevel fuel stmts => exact Script.runTopLevel_run fuel stmts
  | result fuel stmt => cases stmt <;> rfl

end Lox
