import Lox.Proofs.Plans.Plan
import Lox.Session

/-!
# Chronicles

A run that is written down as it goes. Beside the machine there is a record, of two things: which code
each function belongs to, and what the run came to. Whatever the code of a class says about `this` and
`super` is about its *home*: the superclass that the declaration of the class came to when it was
executed, and the instance that the running method is bound to. Code inside a method is at the same
home, however deep in functions, blocks and loops it stands, but for the methods of a class that is
declared there: they have homes of their own.

Nothing is added to the machine, and nothing of its is changed, so what a chronicle tells of is the run
itself.
-/

namespace Lox

/-! ## Homes and events -/

/-- Where the code of a class is at home: the superclass that this execution of the class's declaration
came to, and the instance that the running method is bound to. -/
structure Home where
  superclass : Option ClassId
  receiver : InstanceId
  deriving DecidableEq, Repr

/-- What a function belongs to. -/
inductive Belonging where
  /-- A declared function or a function literal, in code with that home. -/
  | function (home : Option Home)
  /-- A method as its class has it, with the superclass that the class was declared with. -/
  | method (name : String) (superclass : Option ClassId)
  /-- A method that is bound to an instance. -/
  | bound (name : String) (home : Home)
  deriving DecidableEq, Repr

namespace Belonging

/-- The home of the function's own code. -/
def home? : Belonging → Option Home
  | function home => home
  | method _ _ => none
  | bound _ home => some home

/-- The name of the method that the function is. -/
def method? : Belonging → Option String
  | function _ => none
  | method name _ => some name
  | bound name _ => some name

/-- The same function bound to an instance. -/
def boundTo (receiver : InstanceId) : Belonging → Belonging
  | function home => function home
  | method name superclass => bound name ⟨superclass, receiver⟩
  | bound name home => bound name ⟨home.superclass, receiver⟩

end Belonging

/-- What a run comes to. -/
inductive Occasion where
  /-- An evaluation of `this`, in code with that home. -/
  | this (home : Option Home)
  /-- An evaluation of `super` with a method's name, in code with that home. -/
  | super (home : Option Home) (method : Name)
  /-- A call of a class. -/
  | classCall (classId : ClassId)
  /-- A call of a function, be it a method or not. -/
  | functionCall (belonging : Belonging)
  deriving DecidableEq, Repr

/-- What a run came to, on which machine, and how it ended. -/
structure Event where
  occasion : Occasion
  moment : Machine
  outcome : Outcome Value

/-- What each function belongs to, in the order in which they were made, and the events, in the order
in which they ended. -/
structure Record where
  belongings : List Belonging
  events : List Event

/-- A step that was written down. -/
structure Chronicled (α : Type) where
  outcome : Outcome α
  record : Record

/-- A step that is written down. -/
def Chronicle (α : Type) := Machine → Record → Chronicled α

namespace Chronicle

variable {α β : Type}

/-! ## Sequencing -/

protected def pure (result : α) : Chronicle α := fun machine record =>
  ⟨.finished result machine, record⟩

protected def bind (first : Chronicle α) (rest : α → Chronicle β) : Chronicle β :=
  fun machine record =>
    let told := first machine record
    match told.outcome with
    | .finished result after => rest result after told.record
    | .failed error after => ⟨.failed error after, told.record⟩
    | .outOfFuel => ⟨.outOfFuel, told.record⟩

instance : Monad Chronicle where
  pure := Chronicle.pure
  bind := Chronicle.bind

/-- A step that makes no function and is no event. -/
def lift (step : Step α) : Chronicle α := fun machine record => ⟨step machine, record⟩

def outOfFuel : Chronicle α := lift Step.outOfFuel

def inScope (inner : Chronicle α) : Chronicle α := fun machine record =>
  let told := inner machine.enter record
  ⟨told.outcome.mapMachine Machine.leave, told.record⟩

/-- Runs the body of a function. -/
def inCall (closure : Closure) (arguments : List Value) (paren : Token) (body : Chronicle α) :
    Chronicle α := fun machine record =>
  if Step.maximumDepth ≤ machine.depth then ⟨.failed ⟨.stackOverflow, paren⟩ machine, record⟩
  else
    let told := body (machine.enterCall closure arguments) record
    ⟨told.outcome.mapMachine machine.leaveCall, told.record⟩

/-- Writes down a step as an event. -/
def noting (occasion : Occasion) (inner : Chronicle Value) : Chronicle Value :=
  fun machine record =>
    let told := inner machine record
    ⟨told.outcome,
      { told.record with events := told.record.events ++ [⟨occasion, machine, told.outcome⟩] }⟩

/-! ## Functions -/

/-- A new function, closed over the innermost scope, with what it belongs to. -/
def close (belonging : Belonging) (name : Option String) (lambda : Lambda Binding)
    (isInitializer : Bool) : Chronicle FunctionId := fun machine record =>
  ⟨Step.close name lambda isInitializer machine,
    { record with belongings := record.belongings ++ [belonging] }⟩

/-- A method bound to an instance. -/
def bindMethod (method : FunctionId) (receiver : InstanceId) : Chronicle FunctionId :=
  fun machine record =>
    let bound := (record.belongings[method]?).map (·.boundTo receiver)
    ⟨Step.changeHeap (·.bindMethod method receiver) machine,
      { record with belongings := record.belongings ++ bound.toList }⟩

/-- What a function belongs to. There is no function of which nothing was written down. -/
def belongingOf (id : FunctionId) : Chronicle Belonging := fun machine record =>
  ⟨.finished ((record.belongings[id]?).getD (.function none)) machine, record⟩

def getProperty (id : InstanceId) (name : Name) : Chronicle Value := do
  match ← lift (Step.readHeap (·.field? id name.text)) with
  | some value => pure value
  | none =>
    match ← lift (Step.readHeap fun heap =>
        (heap.instances[id]?).bind fun i => heap.findMethod? name.text i.classId) with
    | some method => do
      let bound ← bindMethod method id
      pure (.function bound)
    | none => lift (Step.fail (.undefinedProperty name.text) name.token)

def superProperty (line : Nat) (binding : Binding) (method : Name) : Chronicle Value := do
  let (superclass, id) ← lift (Step.superParts line binding)
  match ← lift (Step.readHeap (·.findMethod? method.text superclass)) with
  | some found =>
    let bound ← bindMethod found id
    pure (.function bound)
  | none =>
    let className ← lift (Step.readHeap (·.className superclass))
    lift (Step.fail (.undefinedSuperclassProperty method.text className) method.token)

/-! ## Declarations -/

/-- The methods of a class that was declared with that superclass. -/
def closeMethods (superclass : Option ClassId) (table : Table FunctionId) :
    List (Method Binding) → Chronicle (Table FunctionId)
  | [] => pure table
  | method :: rest => do
    let name := method.name.text
    let id ← close (.method name superclass) (some name) method.lambda (name == initializerName)
    closeMethods superclass (table.set name id) rest

def closeMethodsOf (superclass : Option ClassId) (methods : List (Method Binding)) :
    Chronicle (Table FunctionId) :=
  match superclass with
  | none => closeMethods superclass .empty methods
  | some id => inScope do
    lift (Step.define superName (.classObject id))
    closeMethods superclass .empty methods

def declareClass (name : Name) (superclass : Option (Superclass Binding))
    (methods : List (Method Binding)) : Chronicle Unit := do
  let parent ← lift (Step.superclassOf superclass)
  lift (Step.define name.text .nil)
  let table ← closeMethodsOf parent methods
  let id ← lift (Step.changeHeap (·.addClass ⟨name.text, parent, table⟩))
  lift (Step.define name.text (.classObject id))

def declareFunction (home : Option Home) (name : Name) (lambda : Lambda Binding) :
    Chronicle Unit := do
  lift (Step.define name.text .nil)
  let id ← close (.function home) (some name.text) lambda false
  lift (Step.define name.text (.function id))

/-! ## Expressions and statements

The home is that of the code that is evaluated. A call goes on in the home of the callee. -/

mutual

def evaluate : Nat → Option Home → Expr Binding → Chronicle Value
  | 0, _, _ => outOfFuel
  | fuel + 1, home, expr =>
    match expr with
    | .literal value => pure value.value
    | .group inner => evaluate fuel home inner
    | .unary operator line operand => do
      let value ← evaluate fuel home operand
      lift (Step.ofOperands (operator.apply value) (operator.symbol.token line))
    | .binary operator line left right => do
      let a ← evaluate fuel home left
      let b ← evaluate fuel home right
      lift (Step.ofOperands (operator.apply a b) (operator.symbol.token line))
    | .logical operator _ left right => do
      let value ← evaluate fuel home left
      if operator.isDecidedBy value then pure value else evaluate fuel home right
    | .comma operands => evaluateLast fuel home .nil operands
    | .conditional line condition thenBranch elseBranch => do
      match ← evaluate fuel home condition with
      | .boolean true => evaluate fuel home thenBranch
      | .boolean false => evaluate fuel home elseBranch
      | _ => lift (Step.fail .conditionNotBoolean (Symbol.question.token line))
    | .reference name binding => lift (Step.lookUp name.text binding name.token)
    | .assign name binding value => do
      let value ← evaluate fuel home value
      lift (Step.assign name binding value)
      pure value
    | .property object name => do
      match ← evaluate fuel home object with
      | .object id => getProperty id name
      | _ => lift (Step.fail .propertyOfNonInstance name.token)
    | .call callee line arguments => do
      let arguments ← evaluateEach fuel home arguments
      let callee ← evaluate fuel home callee
      call fuel callee arguments (Symbol.rightParen.token line)
    | .function lambda => do
      let id ← close (.function home) none lambda false
      pure (.function id)
    | .thisInstance line binding =>
      noting (.this home) (lift (Step.lookUp thisName binding (Keyword.kwThis.token line)))
    | .superMethod line binding method =>
      noting (.super home method) (superProperty line binding method)

def evaluateEach : Nat → Option Home → List (Expr Binding) → Chronicle (List Value)
  | 0, _, _ => outOfFuel
  | fuel + 1, home, exprs =>
    match exprs with
    | [] => pure []
    | expr :: rest => do
      let value ← evaluate fuel home expr
      let values ← evaluateEach fuel home rest
      pure (value :: values)

def evaluateLast : Nat → Option Home → Value → List (Expr Binding) → Chronicle Value
  | 0, _, _, _ => outOfFuel
  | fuel + 1, home, last, exprs =>
    match exprs with
    | [] => pure last
    | expr :: rest => do
      let value ← evaluate fuel home expr
      evaluateLast fuel home value rest

def evaluatePart : Nat → Option Home → Option (Expr Binding) → Chronicle Value
  | 0, _, _ => outOfFuel
  | fuel + 1, home, part =>
    match part with
    | none => pure .nil
    | some expr => evaluate fuel home expr

def call : Nat → Value → List Value → Token → Chronicle Value
  | 0, _, _, _ => outOfFuel
  | fuel + 1, callee, arguments, paren =>
    match callee with
    | .native id => lift (Step.callNative id arguments paren)
    | .function id => do
      match ← lift (Step.readHeap (·.functions[id]?)) with
      | none => lift (Step.fail .notCallable paren)
      | some closure =>
        lift (Step.checkArity closure.lambda.parameters.length arguments.length paren)
        let belonging ← belongingOf id
        noting (.functionCall belonging) (callClosure fuel belonging closure arguments paren)
    | .classObject id => noting (.classCall id) (construct fuel id arguments paren)
    | _ => lift (Step.fail .notCallable paren)

def construct : Nat → ClassId → List Value → Token → Chronicle Value
  | 0, _, _, _ => outOfFuel
  | fuel + 1, classId, arguments, paren => do
    match ← lift (Step.readHeap (·.findMethod? initializerName classId)) with
    | none =>
      lift (Step.checkArity 0 arguments.length paren)
      let id ← lift (Step.changeHeap (·.addInstance classId))
      pure (.object id)
    | some initializer =>
      let arity ← lift (Step.readHeap fun heap =>
        ((heap.functions[initializer]?).map (·.lambda.parameters.length)).getD 0)
      lift (Step.checkArity arity arguments.length paren)
      let id ← lift (Step.changeHeap (·.addInstance classId))
      let bound ← bindMethod initializer id
      match ← lift (Step.readHeap (·.functions[bound]?)) with
      | none => pure (.object id)
      | some closure =>
        let belonging ← belongingOf bound
        let _ ← noting (.functionCall belonging)
          (callClosure fuel belonging closure arguments paren)
        pure (.object id)

def callClosure : Nat → Belonging → Closure → List Value → Token → Chronicle Value
  | 0, _, _, _, _ => outOfFuel
  | fuel + 1, belonging, closure, arguments, paren => do
    let flow ← inCall closure arguments paren
      (executeEach fuel belonging.home? closure.lambda.body)
    lift (Step.callResult closure flow)

def storeEach : Nat → Option Home → Value → List (Target Binding) → Chronicle Unit
  | 0, _, _, _ => outOfFuel
  | fuel + 1, home, value, targets =>
    match targets with
    | [] => pure ()
    | .name name binding :: rest => do
      lift (Step.assignOrDefine name binding value)
      storeEach fuel home value rest
    | .property object name :: rest => do
      let object ← evaluate fuel home object
      lift (Step.setProperty object name value)
      storeEach fuel home value rest

def execute : Nat → Option Home → Stmt Binding → Chronicle Flow
  | 0, _, _ => outOfFuel
  | fuel + 1, home, stmt =>
    match stmt with
    | .expression value => do
      let _ ← evaluate fuel home value
      pure .normal
    | .varDecl name initializer => do
      let value ← evaluatePart fuel home initializer
      lift (Step.define name.text value)
      pure .normal
    | .assign targets value => do
      let value ← evaluate fuel home value
      storeEach fuel home value targets
      pure .normal
    | .set object name value => do
      match ← evaluate fuel home object with
      | .object id =>
        let value ← evaluate fuel home value
        lift (Step.setProperty (.object id) name value)
        pure .normal
      | _ => lift (Step.fail .fieldOfNonInstance name.token)
    | .block body => inScope (executeEach fuel home body)
    | .branch condition thenBranch elseBranch => inScope do
      let value ← evaluate fuel home condition
      if value.isTruthy then execute fuel home thenBranch else executePart fuel home elseBranch
    | .whileLoop condition body => inScope (loop fuel home (some condition) none body)
    | .forLoop initializer condition increment body => inScope do
      let _ ← executePart fuel home initializer
      loop fuel home condition increment body
    | .breakLoop line => pure (.breaks line)
    | .continueLoop line => pure (.continues line)
    | .funDecl name lambda => do
      declareFunction home name lambda
      pure .normal
    | .returnValue line value => do
      let value ← evaluatePart fuel home value
      pure (.returns line value)
    | .classDecl name superclass methods => do
      declareClass name superclass methods
      pure .normal

def executeEach : Nat → Option Home → List (Stmt Binding) → Chronicle Flow
  | 0, _, _ => outOfFuel
  | fuel + 1, home, stmts =>
    match stmts with
    | [] => pure .normal
    | stmt :: rest => do
      match ← execute fuel home stmt with
      | .normal => executeEach fuel home rest
      | flow => pure flow

def executePart : Nat → Option Home → Option (Stmt Binding) → Chronicle Flow
  | 0, _, _ => outOfFuel
  | fuel + 1, home, part =>
    match part with
    | none => pure .normal
    | some stmt => execute fuel home stmt

def loop : Nat → Option Home → Option (Expr Binding) → Option (Expr Binding) → Stmt Binding →
    Chronicle Flow
  | 0, _, _, _, _ => outOfFuel
  | fuel + 1, home, condition, increment, body => do
    let holds ←
      match condition with
      | none => pure true
      | some expr => do
        let value ← evaluate fuel home expr
        pure value.isTruthy
    if holds then
      match ← execute fuel home body with
      | .breaks _ => pure .normal
      | .returns line value => pure (.returns line value)
      | _ =>
        let _ ← evaluatePart fuel home increment
        loop fuel home condition increment body
    else pure .normal

end

/-! ## Programs

No class is around the statements of a program. -/

def runTopLevel (fuel : Nat) : List (Stmt Binding) → Chronicle Unit
  | [] => pure ()
  | stmt :: rest => do
    match ← execute fuel none stmt with
    | .normal => runTopLevel fuel rest
    | .breaks line => lift (Step.fail (.outsideLoop .kwBreak) (Keyword.kwBreak.token line))
    | .continues line => lift (Step.fail (.outsideLoop .kwContinue) (Keyword.kwContinue.token line))
    | .returns line _ => lift (Step.fail .returnFromTopLevel (Keyword.kwReturn.token line))

/-- A statement that is stepped through. -/
def result (fuel : Nat) : Stmt Binding → Chronicle StatementResult
  | .expression expr => do
    let value ← evaluate fuel none expr
    pure (.value value)
  | stmt => do
    let flow ← execute fuel none stmt
    pure (.flow flow)

end Chronicle

end Lox
