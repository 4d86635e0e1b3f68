import Lox.Resolver
import Lox.Run

/-!
# The interpreter

Programs that are run one after the other, each resolved before it is run. An interpreter keeps the
table of the resolver beside its machine and looks into it every time it comes to a name. The table
grows from program to program, and a function of an earlier program is run under the table as it is when
it is called.

Evaluation goes the same way as that of trees with bindings in them. Everything that concerns no
occurrence and no body is a step of the machine.
-/

namespace Lox

/-- The state of a running program, and what is known of the programs so far. -/
structure Interpreter where
  /-- The machine. Its functions have no bodies. -/
  machine : Machine
  /-- The body of each function, as it was parsed. -/
  code : FunctionId → List (Stmt Site)
  locals : Locals

/-- How an action ends. -/
inductive Ending (α : Type) where
  | finished (result : α) (after : Interpreter)
  | failed (error : RuntimeError) (after : Interpreter)
  | outOfFuel

/-- A step of evaluation that may look into the table. -/
def Act (α : Type) := Interpreter → Ending α

/-- How an action ends, with a change to the machine that it leaves. -/
def Ending.mapMachine {α : Type} (change : Machine → Machine) : Ending α → Ending α
  | finished result after => .finished result { after with machine := change after.machine }
  | failed error after => .failed error { after with machine := change after.machine }
  | outOfFuel => .outOfFuel

/-- Keeps the body of a function. -/
def Interpreter.keepCode (id : FunctionId) (body : List (Stmt Site)) (it : Interpreter) :
    Interpreter :=
  { it with code := fun other => if other = id then body else it.code other }

namespace Act

variable {α β : Type}

/-! ## Sequencing -/

protected def pure (result : α) : Act α := fun it => .finished result it

protected def bind (act : Act α) (continuation : α → Act β) : Act β := fun it =>
  match act it with
  | .finished result after => continuation result after
  | .failed error after => .failed error after
  | .outOfFuel => .outOfFuel

instance : Monad Act where
  pure := Act.pure
  bind := Act.bind

def outOfFuel : Act α := fun _ => .outOfFuel

/-- A step of the machine. -/
def lift (step : Step α) : Act α := fun it =>
  match step it.machine with
  | .finished result after => .finished result { it with machine := after }
  | .failed error after => .failed error { it with machine := after }
  | .outOfFuel => .outOfFuel

/-- Fails at a token. -/
def fail (problem : RuntimeProblem) (token : Token) : Act α := lift (Step.fail problem token)

def readHeap (f : Heap → α) : Act α := lift (Step.readHeap f)

/-- Runs an action in a new scope, which is left however the action ends. -/
def inScope (act : Act α) : Act α := fun it =>
  (act { it with machine := it.machine.enter }).mapMachine Machine.leave

/-! ## Occurrences -/

/-- Where an occurrence finds its value, as the table has it. -/
def bindingAt (site : Site) : Act Binding := fun it => .finished (it.locals.binding site) it

def lookUp (name : String) (site : Site) (token : Token) : Act Value := do
  let binding ← bindingAt site
  lift (Step.lookUp name binding token)

def assign (name : Name) (site : Site) (value : Value) : Act Unit := do
  let binding ← bindingAt site
  lift (Step.assign name binding value)

def assignOrDefine (name : Name) (site : Site) (value : Value) : Act Unit := do
  let binding ← bindingAt site
  lift (Step.assignOrDefine name binding value)

/-! ## Functions -/

/-- A new function, closed over the innermost scope. -/
def close (name : Option String) (lambda : Lambda Site) (isInitializer : Bool) : Act FunctionId :=
  fun it =>
    let closure : Closure := ⟨name, ⟨lambda.parameters, []⟩, it.machine.frame, isInitializer⟩
    let (id, heap) := it.machine.heap.addFunction closure
    .finished id (Interpreter.keepCode id lambda.body
      { it with machine := { it.machine with heap := heap } })

/-- The method bound to an instance, which is a new function with the same body. -/
def bindMethod (method : FunctionId) (receiver : InstanceId) : Act FunctionId := fun it =>
  let (id, heap) := it.machine.heap.bindMethod method receiver
  .finished id (Interpreter.keepCode id (it.code method)
    { it with machine := { it.machine with heap := heap } })

/-- A function and its body. -/
def functionAt (id : FunctionId) : Act (Option (Closure × List (Stmt Site))) := fun it =>
  .finished ((it.machine.heap.functions[id]?).map fun closure => (closure, it.code id)) it

/-- Runs the body of a function in a new scope inside the function's own frame. -/
def inCall (closure : Closure) (arguments : List Value) (paren : Token) (body : Act α) : Act α :=
  fun it =>
    if Step.maximumDepth ≤ it.machine.depth then .failed ⟨.stackOverflow, paren⟩ it
    else
      let caller := it.machine.frame
      let (frame, heap) := it.machine.heap.addFrame closure.frame
      let heap := Step.bindParameters heap frame closure.lambda.parameters arguments
      let inside : Machine :=
        { it.machine with heap := heap, frame := frame, depth := it.machine.depth + 1 }
      (body { it with machine := inside }).mapMachine fun after =>
        { after with frame := caller, depth := after.depth - 1 }

/-! ## Properties -/

/-- A property of an instance: a field, or else a method of its class, bound to it. -/
def getProperty (id : InstanceId) (name : Name) : Act Value := do
  match ← readHeap (·.field? id name.text) with
  | some value => pure value
  | none =>
    let method? ← readHeap fun heap =>
      (heap.instances[id]?).bind fun i => heap.findMethod? name.text i.classId
    match method? with
    | some method =>
      let bound ← bindMethod method id
      pure (.function bound)
    | none => fail (.undefinedProperty name.text) name.token

/-- A method of the superclass, bound to the instance of the running method. -/
def superProperty (line : Nat) (site : Site) (method : Name) : Act Value := do
  let binding ← bindingAt site
  let (superclass, id) ← lift (Step.superParts line binding)
  match ← readHeap (·.findMethod? method.text superclass) with
  | some found =>
    let bound ← bindMethod found id
    pure (.function bound)
  | none =>
    let className ← readHeap (·.className superclass)
    fail (.undefinedSuperclassProperty method.text className) method.token

/-! ## Declarations -/

def closeMethods (table : Table FunctionId) : List (Method Site) → Act (Table FunctionId)
  | [] => pure table
  | method :: rest => do
    let name := method.name.text
    let id ← close (some name) method.lambda (name == initializerName)
    closeMethods (table.set name id) rest

def closeMethodsOf (superclass : Option ClassId) (methods : List (Method Site)) :
    Act (Table FunctionId) :=
  match superclass with
  | none => closeMethods .empty methods
  | some id => inScope do
    lift (Step.define superName (.classObject id))
    closeMethods .empty methods

/-- The class that a class declaration extends. -/
def superclassOf : Option (Superclass Site) → Act (Option ClassId)
  | none => pure none
  | some parent => do
    match ← lookUp parent.name.text parent.binding parent.name.token with
    | .classObject id => pure (some id)
    | _ => fail .superclassNotClass parent.name.token

def declareClass (name : Name) (superclass : Option (Superclass Site))
    (methods : List (Method Site)) : Act Unit := do
  let parent ← superclassOf superclass
  lift (Step.define name.text .nil)
  let table ← closeMethodsOf parent methods
  let id ← lift (Step.changeHeap (·.addClass ⟨name.text, parent, table⟩))
  lift (Step.define name.text (.classObject id))

def declareFunction (name : Name) (lambda : Lambda Site) : Act Unit := do
  lift (Step.define name.text .nil)
  let id ← close (some name.text) lambda false
  lift (Step.define name.text (.function id))

/-! ## Expressions and statements -/

mutual

/-- The value of an expression. -/
def evaluate : Nat → Expr Site → Act Value
  | 0, _ => outOfFuel
  | fuel + 1, expr =>
    match expr with
    | .literal value => pure value.value
    | .group inner => evaluate fuel inner
    | .unary operator line operand => do
      let value ← evaluate fuel operand
      lift (Step.ofOperands (operator.apply value) (operator.symbol.token line))
    | .binary operator line left right => do
      let a ← evaluate fuel left
      let b ← evaluate fuel right
      lift (Step.ofOperands (operator.apply a b) (operator.symbol.token line))
    | .logical operator _ left right => do
      let value ← evaluate fuel left
      if operator.isDecidedBy value then pure value else evaluate fuel right
    | .comma operands => evaluateLast fuel .nil operands
    | .conditional line condition thenBranch elseBranch => do
      match ← evaluate fuel condition with
      | .boolean true => evaluate fuel thenBranch
      | .boolean false => evaluate fuel elseBranch
      | _ => fail .conditionNotBoolean (Symbol.question.token line)
    | .reference name site => lookUp name.text site name.token
    | .assign name site value => do
      let value ← evaluate fuel value
      assign name site value
      pure value
    | .property object name => do
      match ← evaluate fuel object with
      | .object id => getProperty id name
      | _ => fail .propertyOfNonInstance name.token
    | .call callee line arguments => do
      let arguments ← evaluateEach fuel arguments
      let callee ← evaluate fuel callee
      call fuel callee arguments (Symbol.rightParen.token line)
    | .function lambda => do
      let id ← close none lambda false
      pure (.function id)
    | .thisInstance line site => lookUp thisName site (Keyword.kwThis.token line)
    | .superMethod line site method => superProperty line site method

/-- The values of expressions, evaluated from left to right. -/
def evaluateEach : Nat → List (Expr Site) → Act (List Value)
  | 0, _ => outOfFuel
  | fuel + 1, exprs =>
    match exprs with
    | [] => pure []
    | expr :: rest => do
      let value ← evaluate fuel expr
      let values ← evaluateEach fuel rest
      pure (value :: values)

/-- The value of the last of some expressions, all of which are evaluated. -/
def evaluateLast : Nat → Value → List (Expr Site) → Act Value
  | 0, _, _ => outOfFuel
  | fuel + 1, last, exprs =>
    match exprs with
    | [] => pure last
    | expr :: rest => do
      let value ← evaluate fuel expr
      evaluateLast fuel value rest

/-- The value of a part that may be missing, which counts as nil. -/
def evaluatePart : Nat → Option (Expr Site) → Act Value
  | 0, _ => outOfFuel
  | fuel + 1, part =>
    match part with
    | none => pure .nil
    | some expr => evaluate fuel expr

/-- Calls a value. -/
def call : Nat → Value → List Value → Token → Act Value
  | 0, _, _, _ => outOfFuel
  | fuel + 1, callee, arguments, paren =>
    match callee with
    | .native id => lift (Step.callNative id arguments paren)
    | .function id => do
      match ← functionAt id with
      | none => fail .notCallable paren
      | some (closure, body) =>
        lift (Step.checkArity closure.lambda.parameters.length arguments.length paren)
        callClosure fuel closure body arguments paren
    | .classObject id => construct fuel id arguments paren
    | _ => fail .notCallable paren

/-- Makes an instance of a class and runs the initializer on it, if the class has one. -/
def construct : Nat → ClassId → List Value → Token → Act Value
  | 0, _, _, _ => outOfFuel
  | fuel + 1, classId, arguments, paren => do
    match ← readHeap (·.findMethod? initializerName classId) with
    | none =>
      lift (Step.checkArity 0 arguments.length paren)
      let id ← lift (Step.changeHeap (·.addInstance classId))
      pure (.object id)
    | some initializer =>
      let arity ← readHeap fun heap =>
        ((heap.functions[initializer]?).map (·.lambda.parameters.length)).getD 0
      lift (Step.checkArity arity arguments.length paren)
      let id ← lift (Step.changeHeap (·.addInstance classId))
      let bound ← bindMethod initializer id
      match ← functionAt bound with
      | none => pure (.object id)
      | some (closure, body) =>
        let _ ← callClosure fuel closure body arguments paren
        pure (.object id)

/-- Calls a function with as many arguments as it has parameters. -/
def callClosure : Nat → Closure → List (Stmt Site) → List Value → Token → Act Value
  | 0, _, _, _, _ => outOfFuel
  | fuel + 1, closure, body, arguments, paren => do
    let flow ← inCall closure arguments paren (executeEach fuel body)
    lift (Step.callResult closure flow)

/-- Stores a value into targets, from left to right. -/
def storeEach : Nat → Value → List (Target Site) → Act Unit
  | 0, _, _ => outOfFuel
  | fuel + 1, value, targets =>
    match targets with
    | [] => pure ()
    | .name name site :: rest => do
      assignOrDefine name site value
      storeEach fuel value rest
    | .property object name :: rest => do
      let object ← evaluate fuel object
      lift (Step.setProperty object name value)
      storeEach fuel value rest

/-- Runs a statement. -/
def execute : Nat → Stmt Site → Act Flow
  | 0, _ => outOfFuel
  | fuel + 1, stmt =>
    match stmt with
    | .expression value => do
      let _ ← evaluate fuel value
      pure .normal
    | .varDecl name initializer => do
      let value ← evaluatePart fuel initializer
      lift (Step.define name.text value)
      pure .normal
    | .assign targets value => do
      let value ← evaluate fuel value
      storeEach fuel value targets
      pure .normal
    | .set object name value => do
      match ← evaluate fuel object with
      | .object id =>
        let value ← evaluate fuel value
        lift (Step.setProperty (.object id) name value)
        pure .normal
      | _ => fail .fieldOfNonInstance name.token
    | .block body => inScope (executeEach fuel body)
    | .branch condition thenBranch elseBranch => inScope do
      let value ← evaluate fuel condition
      if value.isTruthy then execute fuel thenBranch else executePart fuel elseBranch
    | .whileLoop condition body => inScope (loop fuel (some condition) none body)
    | .forLoop initializer condition increment body => inScope do
      let _ ← executePart fuel initializer
      loop fuel condition increment body
    | .breakLoop line => pure (.breaks line)
    | .continueLoop line => pure (.continues line)
    | .funDecl name lambda => do
      declareFunction name lambda
      pure .normal
    | .returnValue line value => do
      let value ← evaluatePart fuel value
      pure (.returns line value)
    | .classDecl name superclass methods => do
      declareClass name superclass methods
      pure .normal

/-- Runs statements until one of them ends otherwise than normally. -/
def executeEach : Nat → List (Stmt Site) → Act Flow
  | 0, _ => outOfFuel
  | fuel + 1, stmts =>
    match stmts with
    | [] => pure .normal
    | stmt :: rest => do
      match ← execute fuel stmt with
      | .normal => executeEach fuel rest
      | flow => pure flow

/-- Runs a statement that may be missing. -/
def executePart : Nat → Option (Stmt Site) → Act Flow
  | 0, _ => outOfFuel
  | fuel + 1, part =>
    match part with
    | none => pure .normal
    | some stmt => execute fuel stmt

/-- Goes round a loop for as long as its condition holds. -/
def loop : Nat → Option (Expr Site) → Option (Expr Site) → Stmt Site → Act Flow
  | 0, _, _, _ => outOfFuel
  | fuel + 1, condition, increment, body => do
    let holds ←
      match condition with
      | none => pure true
      | some expr => do
        let value ← evaluate fuel expr
        pure value.isTruthy
    if holds then
      match ← execute fuel body with
      | .breaks _ => pure .normal
      | .returns line value => pure (.returns line value)
      | _ =>
        let _ ← evaluatePart fuel increment
        loop fuel condition increment body
    else pure .normal

end

/-- Runs statements at the top level, where no signal may arrive. -/
def runTopLevel (fuel : Nat) : List (Stmt Site) → Act Unit
  | [] => pure ()
  | stmt :: rest => do
    match ← execute fuel stmt with
    | .normal => runTopLevel fuel rest
    | .breaks line => fail (.outsideLoop .kwBreak) (Keyword.kwBreak.token line)
    | .continues line => fail (.outsideLoop .kwContinue) (Keyword.kwContinue.token line)
    | .returns line _ => fail .returnFromTopLevel (Keyword.kwReturn.token line)

end Act

/-! ## Programs -/

namespace Interpreter

/-- An interpreter about to run its first program. -/
def initial (output : Output) (clock : Nat → Number) : Interpreter :=
  ⟨Machine.initial output clock, fun _ => [], []⟩

/-- Resolves a program. What is noted of it stays, whatever is wrong with it. -/
def resolve (stmts : List (Stmt Site)) (it : Interpreter) : List StaticError × Interpreter :=
  let (errors, resolver) := Resolver.program stmts (.start it.locals)
  (errors, { it with locals := resolver.locals })

/-- Runs statements to their end or to the first runtime error, and flushes the output. -/
def interpret (fuel : Nat) (stmts : List (Stmt Site)) (it : Interpreter) :
    Option (Interpreter × List Diagnostic) :=
  match Act.runTopLevel fuel stmts it with
  | .finished () after => some (after, after.machine.flush)
  | .failed error after => some (after, .runtime error :: after.machine.flush)
  | .outOfFuel => none

/-- Resolves a program and runs it, unless something is wrong with its names. -/
def process (fuel : Nat) (stmts : List (Stmt Site)) (it : Interpreter) :
    Option (Interpreter × List Diagnostic) :=
  match it.resolve stmts with
  | ([], resolved) => resolved.interpret fuel stmts
  | (errors, resolved) => some (resolved, errors.map .binding)

end Interpreter

end Lox
