import Lox.Run

/-!
# Lexical semantics

What a program means by the text alone, with no names resolved and no frames. Every declaration has
a cell; at every point some names are visible, each with its cell, and a function keeps what was
visible where it was made. A name that is not visible is a global, looked up by its name when it is
come to.

Everything else is as evaluation has it: the operators, the order of evaluation, the depth of calls
and where fuel is spent.
-/

namespace Lox

namespace Lexical

/-- The number of a cell. -/
abbrev CellId := Nat

/-- The visible names with their cells, scope by scope, the innermost first. The globals are in no
scope. -/
abbrev Visible := List (Table CellId)

/-- The cell of a name: that of the innermost scope that holds it. -/
def Visible.cell? (visible : Visible) (name : String) : Option CellId :=
  visible.findSome? (·.get? name)

/-- A function with what is visible where it was made. -/
structure Function where
  name : Option String
  lambda : Lambda Unit
  visible : Visible
  isInitializer : Bool

structure State where
  cells : Array Value
  globals : Table Value
  functions : Array Function
  classes : Array ClassObject
  instances : Array Instance
  natives : Array Native
  visible : Visible
  /-- How many calls of functions are in progress. -/
  depth : Nat
  output : Output
  clock : Nat → Number
  readings : Nat

namespace State

/-- A state in which nothing was declared or installed. -/
def empty (output : Output) (clock : Nat → Number) : State :=
  ⟨#[], .empty, #[], #[], #[], #[], [], 0, output, clock, 0⟩

def install (state : State) (native : Native) : State :=
  { state with
    natives := state.natives.push native
    globals := state.globals.set native.name (.native state.natives.size) }

def initial (output : Output) (clock : Nat → Number) : State :=
  Native.standard.foldl install (empty output clock)

/-! ## Names -/

/-- The value of a name: in its cell if it is visible, else among the globals. -/
def read? (state : State) (name : String) : Option Value :=
  match state.visible.cell? name with
  | some cell => state.cells[cell]?
  | none => state.globals.get? name

def write (state : State) (cell : CellId) (value : Value) : State :=
  { state with cells := state.cells.setIfInBounds cell value }

def setGlobal (state : State) (name : String) (value : Value) : State :=
  { state with globals := state.globals.set name value }

/-- Declares a name. If its scope holds it already, it keeps its cell. -/
def declare (state : State) (name : String) (value : Value) : State :=
  match state.visible with
  | [] => state.setGlobal name value
  | innermost :: outer =>
    match innermost.get? name with
    | some cell => state.write cell value
    | none =>
      { state with
        cells := state.cells.push value
        visible := innermost.set name state.cells.size :: outer }

/-- Declares each parameter with its argument. -/
def declareEach (state : State) : List Name → List Value → State
  | parameter :: parameters, argument :: arguments =>
    (state.declare parameter.text argument).declareEach parameters arguments
  | _, _ => state

/-- In a new scope inside some others. -/
def enter (state : State) (visible : Visible) : State :=
  { state with visible := .empty :: visible }

/-! ## Functions, classes and instances -/

def addFunction (state : State) (function : Function) : FunctionId × State :=
  (state.functions.size, { state with functions := state.functions.push function })

def addClass (state : State) (classObject : ClassObject) : ClassId × State :=
  (state.classes.size, { state with classes := state.classes.push classObject })

def addInstance (state : State) (classId : ClassId) : InstanceId × State :=
  (state.instances.size, { state with instances := state.instances.push ⟨classId, .empty⟩ })

def findMethod? (state : State) (name : String) (classId : ClassId) : Option FunctionId :=
  match state.classes[classId]? with
  | none => none
  | some classObject =>
    match classObject.methods.get? name with
    | some method => some method
    | none =>
      match classObject.superclass with
      | none => none
      | some superclass =>
        if superclass < classId then state.findMethod? name superclass else none
  termination_by classId

def field? (state : State) (id : InstanceId) (name : String) : Option Value :=
  (state.instances[id]?).bind (·.fields.get? name)

def setField (state : State) (id : InstanceId) (name : String) (value : Value) : State :=
  { state with
    instances := state.instances.modify id fun i => ⟨i.classId, i.fields.set name value⟩ }

/-- The method bound to an instance, which is visible to it as `this`. -/
def bindMethod (state : State) (method : FunctionId) (receiver : InstanceId) :
    FunctionId × State :=
  match state.functions[method]? with
  | none => (method, state)
  | some function =>
    let scope : Table CellId := Table.empty.set thisName state.cells.size
    { state with cells := state.cells.push (.object receiver) }.addFunction
      { function with visible := scope :: function.visible }

def className (state : State) (id : ClassId) : String :=
  (state.classes[id]?.map (·.name)).getD ""

/-- A value as programs show it. -/
def shown (state : State) : Value → String
  | .nil => "nil"
  | .boolean true => "true"
  | .boolean false => "false"
  | .number value => value.shown
  | .text contents => contents
  | .native id => "<native fn " ++ (state.natives[id]?.map (·.name)).getD "" ++ ">"
  | .function id =>
    match (state.functions[id]?).bind (·.name) with
    | some name => "<fn " ++ name ++ ">"
    | none => "<fn>"
  | .classObject id => state.className id
  | .object id =>
    ((state.instances[id]?).map fun i => state.className i.classId).getD "" ++ " instance"

end State

end Lexical

/-! ## Steps -/

/-- How a step of the lexical semantics ends. -/
inductive Lexical.Ending (α : Type) where
  | finished (result : α) (state : Lexical.State)
  | failed (error : RuntimeError) (state : Lexical.State)
  | outOfFuel

/-- A step of the lexical semantics. -/
def Lexical (α : Type) := Lexical.State → Lexical.Ending α

namespace Lexical

variable {α β : Type}

protected def pure (result : α) : Lexical α := fun state => .finished result state

protected def bind (step : Lexical α) (continuation : α → Lexical β) : Lexical β := fun state =>
  match step state with
  | .finished result after => continuation result after
  | .failed error after => .failed error after
  | .outOfFuel => .outOfFuel

instance : Monad Lexical where
  pure := Lexical.pure
  bind := Lexical.bind

def outOfFuel : Lexical α := fun _ => .outOfFuel

def fail (problem : RuntimeProblem) (token : Token) : Lexical α :=
  fun state => .failed ⟨problem, token⟩ state

def ofOperands (result : Except OperandProblem α) (token : Token) : Lexical α :=
  match result with
  | .ok value => pure value
  | .error problem => fail (.operands problem) token

def readState (f : State → α) : Lexical α := fun state => .finished (f state) state

def changeState (f : State → α × State) : Lexical α := fun state =>
  let (result, after) := f state
  .finished result after

/-- Runs a step on a changed state, and changes the state back however the step ends. -/
def around (before after : State → State) (step : Lexical α) : Lexical α := fun state =>
  match step (before state) with
  | .finished result state => .finished result (after state)
  | .failed error state => .failed error (after state)
  | .outOfFuel => .outOfFuel

/-- Runs a step in a new scope, whose names are not visible after it. -/
def inScope (step : Lexical α) : Lexical α := fun state =>
  step.around (fun state => state.enter state.visible)
    (fun after => { after with visible := state.visible }) state

/-! ## Names -/

def lookUp (name : String) (token : Token) : Lexical Value := fun state =>
  match state.read? name with
  | some value => .finished value state
  | none => .failed ⟨.undefinedVariable name, token⟩ state

/-- Gives a name that is visible, or is a global, a new value. -/
def assign (name : Name) (value : Value) : Lexical Unit := fun state =>
  match state.visible.cell? name.text with
  | some cell => .finished () (state.write cell value)
  | none =>
    if (state.globals.get? name.text).isSome then .finished () (state.setGlobal name.text value)
    else .failed ⟨.undefinedVariable name.text, name.token⟩ state

/-- Gives a name a new value; a name that is not visible becomes a global. -/
def assignOrDefine (name : Name) (value : Value) : Lexical Unit := fun state =>
  match state.visible.cell? name.text with
  | some cell => .finished () (state.write cell value)
  | none => .finished () (state.setGlobal name.text value)

def declare (name : String) (value : Value) : Lexical Unit :=
  changeState fun state => ((), state.declare name value)

/-- A new function, which keeps what is visible here. -/
def close (name : Option String) (lambda : Lambda Unit) (isInitializer : Bool) :
    Lexical FunctionId :=
  changeState fun state => state.addFunction ⟨name, lambda, state.visible, isInitializer⟩

/-! ## Properties -/

def getProperty (id : InstanceId) (name : Name) : Lexical Value := do
  match ← readState (·.field? id name.text) with
  | some value => pure value
  | none =>
    match ← readState fun state =>
        (state.instances[id]?).bind fun i => state.findMethod? name.text i.classId with
    | some method => do
      let bound ← changeState (·.bindMethod method id)
      pure (.function bound)
    | none => fail (.undefinedProperty name.text) name.token

def setProperty (object : Value) (name : Name) (value : Value) : Lexical Unit :=
  match object with
  | .object id => changeState fun state => ((), state.setField id name.text value)
  | _ => fail .fieldOfNonInstance name.token

/-- The superclass and the instance are what `super` and `this` stand for here. -/
def superParts (line : Nat) : Lexical (ClassId × InstanceId) := fun state =>
  let token := Keyword.kwSuper.token line
  match state.read? superName with
  | some (.classObject superclass) =>
    match state.read? thisName with
    | some (.object id) => .finished (superclass, id) state
    | _ => .failed ⟨.superOutsideMethod, token⟩ state
  | _ => .failed ⟨.superclassNotClass, token⟩ state

def superProperty (line : Nat) (method : Name) : Lexical Value := do
  let (superclass, id) ← superParts line
  match ← readState (·.findMethod? method.text superclass) with
  | some found =>
    let bound ← changeState (·.bindMethod found id)
    pure (.function bound)
  | none =>
    let className ← readState (·.className superclass)
    fail (.undefinedSuperclassProperty method.text className) method.token

/-! ## Calls -/

def checkArity (expected given : Nat) (paren : Token) : Lexical Unit :=
  if expected = given then pure () else fail (.wrongArgumentCount expected given) paren

def writeOutput (text : String) (paren : Token) : Lexical Unit := fun state =>
  match state.output.write text.toUTF8 with
  | (output, true) => .finished () { state with output := output }
  | (output, false) => .failed ⟨.outputFull, paren⟩ { state with output := output }

def readClock : Lexical Number := fun state =>
  .finished (state.clock state.readings) { state with readings := state.readings + 1 }

def callNative (id : NativeId) (arguments : List Value) (paren : Token) : Lexical Value := do
  match ← readState (·.natives[id]?) with
  | none => fail .notCallable paren
  | some native =>
    checkArity native.arity arguments.length paren
    match ← readState fun state => native.routine state.shown arguments with
    | .value value => pure value
    | .failure message => fail (.nativeFailure message) paren
    | .write text =>
      writeOutput text paren
      pure .nil
    | .readClock =>
      let reading ← readClock
      pure (.number reading)

/-- Runs the body of a function in a new scope, which holds its parameters, inside what was visible
where the function was made. -/
def inCall (function : Function) (arguments : List Value) (paren : Token) (body : Lexical α) :
    Lexical α := fun state =>
  if Step.maximumDepth ≤ state.depth then .failed ⟨.stackOverflow, paren⟩ state
  else
    let entered := (state.enter function.visible).declareEach function.lambda.parameters arguments
    body.around (fun state => { entered with depth := state.depth + 1 })
      (fun after => { after with visible := state.visible, depth := after.depth - 1 }) state

/-- The value of a call whose body ended so. For an initializer it is the instance. -/
def callResult (function : Function) (flow : Flow) : Lexical Value :=
  if function.isInitializer then
    readState fun state =>
      ((function.visible.cell? thisName).bind fun cell => state.cells[cell]?).getD .nil
  else
    match flow with
    | .normal => pure .nil
    | .returns _ value => pure value
    | .breaks line => fail (.outsideLoop .kwBreak) (Keyword.kwBreak.token line)
    | .continues line => fail (.outsideLoop .kwContinue) (Keyword.kwContinue.token line)

/-! ## Declarations -/

def closeMethods (table : Table FunctionId) : List (Method Unit) → Lexical (Table FunctionId)
  | [] => pure table
  | method :: rest => do
    let name := method.name.text
    let id ← close (some name) method.lambda (name == initializerName)
    closeMethods (table.set name id) rest

/-- The methods of a class. With a superclass, it is visible to them as `super`. -/
def closeMethodsOf (superclass : Option ClassId) (methods : List (Method Unit)) :
    Lexical (Table FunctionId) :=
  match superclass with
  | none => closeMethods .empty methods
  | some id => inScope do
    declare superName (.classObject id)
    closeMethods .empty methods

def superclassOf : Option (Superclass Unit) → Lexical (Option ClassId)
  | none => pure none
  | some parent => do
    match ← lookUp parent.name.text parent.name.token with
    | .classObject id => pure (some id)
    | _ => fail .superclassNotClass parent.name.token

def declareClass (name : Name) (superclass : Option (Superclass Unit))
    (methods : List (Method Unit)) : Lexical Unit := do
  let parent ← superclassOf superclass
  declare name.text .nil
  let table ← closeMethodsOf parent methods
  let id ← changeState (·.addClass ⟨name.text, parent, table⟩)
  declare name.text (.classObject id)

def declareFunction (name : Name) (lambda : Lambda Unit) : Lexical Unit := do
  declare name.text .nil
  let id ← close (some name.text) lambda false
  declare name.text (.function id)

/-! ## Expressions and statements -/

mutual

def evaluate : Nat → Expr Unit → Lexical Value
  | 0, _ => outOfFuel
  | fuel + 1, expr =>
    match expr with
    | .literal value => pure value.value
    | .group inner => evaluate fuel inner
    | .unary operator line operand => do
      let value ← evaluate fuel operand
      ofOperands (operator.apply value) (operator.symbol.token line)
    | .binary operator line left right => do
      let a ← evaluate fuel left
      let b ← evaluate fuel right
      ofOperands (operator.apply a b) (operator.symbol.token line)
    | .logical operator _ left right => do
      let value ← evaluate fuel left
      if operator.isDecidedBy value then pure value else evaluate fuel right
    | .comma operands => evaluateLast fuel .nil operands
    | .conditional line condition thenBranch elseBranch => do
      match ← evaluate fuel condition with
      | .boolean true => evaluate fuel thenBranch
      | .boolean false => evaluate fuel elseBranch
      | _ => fail .conditionNotBoolean (Symbol.question.token line)
    | .reference name () => lookUp name.text name.token
    | .assign name () value => do
      let value ← evaluate fuel value
      assign name value
      pure value
    | .property object name => do
      match ← evaluate fuel object with
      | .object id => getProperty id name
      | _ => fail .propertyOfNonInstance name.token
    | .call callee line arguments => do
      let arguments ← evaluateEach fuel arguments
      let callee ← evaluate fuel callee
      call fuel callee arguments (Symbol.rightParen.token line)
    | .function lambda => do
      let id ← close none lambda false
      pure (.function id)
    | .thisInstance line () => lookUp thisName (Keyword.kwThis.token line)
    | .superMethod line () method => superProperty line method

def evaluateEach : Nat → List (Expr Unit) → Lexical (List Value)
  | 0, _ => outOfFuel
  | fuel + 1, exprs =>
    match exprs with
    | [] => pure []
    | expr :: rest => do
      let value ← evaluate fuel expr
      let values ← evaluateEach fuel rest
      pure (value :: values)

def evaluateLast : Nat → Value → List (Expr Unit) → Lexical Value
  | 0, _, _ => outOfFuel
  | fuel + 1, last, exprs =>
    match exprs with
    | [] => pure last
    | expr :: rest => do
      let value ← evaluate fuel expr
      evaluateLast fuel value rest

def evaluatePart : Nat → Option (Expr Unit) → Lexical Value
  | 0, _ => outOfFuel
  | fuel + 1, part =>
    match part with
    | none => pure .nil
    | some expr => evaluate fuel expr

def call : Nat → Value → List Value → Token → Lexical Value
  | 0, _, _, _ => outOfFuel
  | fuel + 1, callee, arguments, paren =>
    match callee with
    | .native id => callNative id arguments paren
    | .function id => do
      match ← readState (·.functions[id]?) with
      | none => fail .notCallable paren
      | some function =>
        checkArity function.lambda.parameters.length arguments.length paren
        callFunction fuel function arguments paren
    | .classObject id => construct fuel id arguments paren
    | _ => fail .notCallable paren

def construct : Nat → ClassId → List Value → Token → Lexical Value
  | 0, _, _, _ => outOfFuel
  | fuel + 1, classId, arguments, paren => do
    match ← readState (·.findMethod? initializerName classId) with
    | none =>
      checkArity 0 arguments.length paren
      let id ← changeState (·.addInstance classId)
      pure (.object id)
    | some initializer =>
      let arity ← readState fun state =>
        ((state.functions[initializer]?).map (·.lambda.parameters.length)).getD 0
      checkArity arity arguments.length paren
      let id ← changeState (·.addInstance classId)
      let bound ← changeState (·.bindMethod initializer id)
      match ← readState (·.functions[bound]?) with
      | none => pure (.object id)
      | some function =>
        let _ ← callFunction fuel function arguments paren
        pure (.object id)

def callFunction : Nat → Function → List Value → Token → Lexical Value
  | 0, _, _, _ => outOfFuel
  | fuel + 1, function, arguments, paren => do
    let flow ← inCall function arguments paren (executeEach fuel function.lambda.body)
    callResult function flow

def storeEach : Nat → Value → List (Target Unit) → Lexical Unit
  | 0, _, _ => outOfFuel
  | fuel + 1, value, targets =>
    match targets with
    | [] => pure ()
    | .name name () :: rest => do
      assignOrDefine name value
      storeEach fuel value rest
    | .property object name :: rest => do
      let object ← evaluate fuel object
      setProperty object name value
      storeEach fuel value rest

def execute : Nat → Stmt Unit → Lexical Flow
  | 0, _ => outOfFuel
  | fuel + 1, stmt =>
    match stmt with
    | .expression value => do
      let _ ← evaluate fuel value
      pure .normal
    | .varDecl name initializer => do
      let value ← evaluatePart fuel initializer
      declare name.text value
      pure .normal
    | .assign targets value => do
      let value ← evaluate fuel value
      storeEach fuel value targets
      pure .normal
    | .set object name value => do
      match ← evaluate fuel object with
      | .object id =>
        let value ← evaluate fuel value
        setProperty (.object id) name value
        pure .normal
      | _ => fail .fieldOfNonInstance name.token
    | .block body => inScope (executeEach fuel body)
    | .branch condition thenBranch elseBranch => inScope do
      let value ← evaluate fuel condition
      if value.isTruthy then execute fuel thenBranch else executePart fuel elseBranch
    | .whileLoop condition body => inScope (loop fuel (some condition) none body)
    | .forLoop initializer condition increment body => inScope do
      let _ ← executePart fuel initializer
      loop fuel condition increment body
    | .breakLoop line => pure (.breaks line)
    | .continueLoop line => pure (.continues line)
    | .funDecl name lambda => do
      declareFunction name lambda
      pure .normal
    | .returnValue line value => do
      let value ← evaluatePart fuel value
      pure (.returns line value)
    | .classDecl name superclass methods => do
      declareClass name superclass methods
      pure .normal

def executeEach : Nat → List (Stmt Unit) → Lexical Flow
  | 0, _ => outOfFuel
  | fuel + 1, stmts =>
    match stmts with
    | [] => pure .normal
    | stmt :: rest => do
      match ← execute fuel stmt with
      | .normal => executeEach fuel rest
      | flow => pure flow

def executePart : Nat → Option (Stmt Unit) → Lexical Flow
  | 0, _ => outOfFuel
  | fuel + 1, part =>
    match part with
    | none => pure .normal
    | some stmt => execute fuel stmt

def loop : Nat → Option (Expr Unit) → Option (Expr Unit) → Stmt Unit → Lexical Flow
  | 0, _, _, _ => outOfFuel
  | fuel + 1, condition, increment, body => do
    let holds ←
      match condition with
      | none => pure true
      | some expr => do
        let value ← evaluate fuel expr
        pure value.isTruthy
    if holds then
      match ← execute fuel body with
      | .breaks _ => pure .normal
      | .returns line value => pure (.returns line value)
      | _ =>
        let _ ← evaluatePart fuel increment
        loop fuel condition increment body
    else pure .normal

end

/-! ## Programs -/

def runTopLevel (fuel : Nat) : List (Stmt Unit) → Lexical Unit
  | [] => pure ()
  | stmt :: rest => do
    match ← execute fuel stmt with
    | .normal => runTopLevel fuel rest
    | .breaks line => fail (.outsideLoop .kwBreak) (Keyword.kwBreak.token line)
    | .continues line => fail (.outsideLoop .kwContinue) (Keyword.kwContinue.token line)
    | .returns line _ => fail .returnFromTopLevel (Keyword.kwReturn.token line)

/-- The report of a flush, if it fails. -/
def State.flush (state : State) : List Diagnostic :=
  if state.output.flushFails then [.host Machine.flushFailure] else []

/-- What comes of a program: its output and what is reported, first of it the runtime error if there
is one. A program that has not ended when its fuel is used up has no outcome. -/
def interpret (fuel : Nat) (stmts : List (Stmt Unit)) (state : State) :
    Option (Output × List Diagnostic) :=
  match runTopLevel fuel stmts state with
  | .finished () after => some (after.output, after.flush)
  | .failed error after => some (after.output, .runtime error :: after.flush)
  | .outOfFuel => none

/-- What comes of a source text, with its names resolved only to see whether they can be. -/
def run (fuel : Nat) (clock : Nat → Number) (output : Output) (source : String) :
    Option Report :=
  let reading := Reading.ofSource source
  match Stmt.resolveTopLevel reading.statements with
  | .error errors => some ⟨output, reading.diagnostics ++ errors.map .binding⟩
  | .ok _ => (interpret fuel reading.statements (.initial output clock)).map
      fun ending => ⟨ending.1, reading.diagnostics ++ ending.2⟩

end Lexical

end Lox
