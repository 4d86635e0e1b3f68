import Lox.Proofs.Scoping.Chains
import Lox.Run

/-!
# Watched runs

A run that is compared, node by node, with the resolving of names. It goes through the unresolved
tree and keeps the surroundings that `resolve` has at each node, while the machine does what the
resolved tree would have it do. Wherever an expression or a statement is come to, the frames have to
match the scopes, and wherever an occurrence resolves to a scope, its name has to be bound there;
otherwise the run is *astray*, and ends. It is astray as well where a method runs without having
been bound to an instance, or is bound twice, and where `super` is come to outside a subclass.

A function runs long after its declaration was resolved, so a watched run remembers where each
function comes from. Nothing else is added to the machine, and nothing of its is changed.
-/

namespace Lox

/-- Inside the body of a class, in the scope that binds its superclass if it has one. -/
def Surroundings.classBody {α : Type} (superclass : Option α) (s : Surroundings) : Surroundings :=
  match superclass with
  | none => s.enterClass .withoutSuperclass
  | some _ => (s.enterClass .withSuperclass).enter [superName]

/-- Where a function comes from: its declaration and what surrounds it. -/
structure Origin where
  surroundings : Surroundings
  lambda : Lambda Unit
  /-- Whether the function is a method that is not bound to an instance. -/
  bare : Bool

/-- How a watched step ends. -/
inductive Watched (α : Type) where
  | finished (result : α) (machine : Machine) (origins : List Origin)
  | failed (error : RuntimeError) (machine : Machine) (origins : List Origin)
  | outOfFuel
  | astray

/-- A watched step. -/
def Watch (α : Type) := Machine → List Origin → Watched α

namespace Watch

variable {α β : Type}

/-! ## Sequencing -/

protected def pure (result : α) : Watch α := fun machine origins =>
  .finished result machine origins

protected def bind (watch : Watch α) (continuation : α → Watch β) : Watch β :=
  fun machine origins =>
    match watch machine origins with
    | .finished result after origins => continuation result after origins
    | .failed error after origins => .failed error after origins
    | .outOfFuel => .outOfFuel
    | .astray => .astray

instance : Monad Watch where
  pure := Watch.pure
  bind := Watch.bind

def outOfFuel : Watch α := fun _ _ => .outOfFuel

/-- A step that makes no functions. -/
def lift (step : Step α) : Watch α := fun machine origins =>
  match step machine with
  | .finished result after => .finished result after origins
  | .failed error after => .failed error after origins
  | .outOfFuel => .outOfFuel

theorem lift_bind (first : Step α) (rest : α → Step β) :
    lift (first >>= rest) = lift first >>= fun result => lift (rest result) := by
  funext machine origins
  change lift (Step.bind first rest) machine origins =
    Watch.bind (lift first) (fun result => lift (rest result)) machine origins
  simp only [lift, Step.bind, Watch.bind]
  cases first machine <;> rfl

/-- Runs a step on a changed machine, and changes the machine back however the step ends. -/
def around (before after : Machine → Machine) (watch : Watch α) : Watch α :=
  fun machine origins =>
    match watch (before machine) origins with
    | .finished result machine origins => .finished result (after machine) origins
    | .failed error machine origins => .failed error (after machine) origins
    | .outOfFuel => .outOfFuel
    | .astray => .astray

def inScope (watch : Watch α) : Watch α := around Machine.enter Machine.leave watch

/-! ## What is watched -/

/-- The frames have to match the scopes. -/
def check (scopes : Scopes) : Watch Unit := fun machine origins =>
  if machine.heap.environment.Matches machine.frame scopes then .finished () machine origins
  else .astray

/-- The name has to be bound where an occurrence of it here is resolved to. -/
def occurs (s : Surroundings) (name : String) : Watch Unit := fun machine origins =>
  match s.binding name with
  | .global => .finished () machine origins
  | .lexical distance =>
    if (machine.heap.environment.getAt? machine.frame distance name).isSome &&
        (machine.heap.environment.assignAt machine.frame distance name .nil).1 then
      .finished () machine origins
    else .astray

/-- The code has to be in a class with a superclass. -/
def inSubclass (s : Surroundings) : Watch Unit := fun machine origins =>
  if s.inClass = .withSuperclass then .finished () machine origins else .astray

/-! ## Functions -/

/-- Where a function that is called comes from. A bare method must not be called. -/
def originOf (id : FunctionId) : Watch Origin := fun machine origins =>
  match origins[id]? with
  | some origin => if origin.bare then .astray else .finished origin machine origins
  | none => .astray

/-- A new function, closed over the innermost scope. -/
def close (s : Surroundings) (name : Option String) (lambda : Lambda Unit)
    (isInitializer bare : Bool) : Watch FunctionId := fun machine origins =>
  match lambda.resolve s with
  | .error _ => .astray
  | .ok resolved =>
    let (id, heap) := machine.heap.addFunction ⟨name, resolved, machine.frame, isInitializer⟩
    .finished id { machine with heap := heap } (origins ++ [⟨s, lambda, bare⟩])

/-- A method bound to an instance, which it must not have been before. -/
def bindMethod (method : FunctionId) (receiver : InstanceId) : Watch FunctionId :=
  fun machine origins =>
    match origins[method]? with
    | none => .astray
    | some origin =>
      if origin.bare then
        let (bound, heap) := machine.heap.bindMethod method receiver
        .finished bound { machine with heap := heap } (origins ++ [{ origin with bare := false }])
      else .astray

def getProperty (id : InstanceId) (name : Name) : Watch Value := do
  match ← lift (Step.readHeap (·.field? id name.text)) with
  | some value => pure value
  | none =>
    match ← lift (Step.readHeap fun heap =>
        (heap.instances[id]?).bind fun i => heap.findMethod? name.text i.classId) with
    | some method => do
      let bound ← bindMethod method id
      pure (.function bound)
    | none => lift (Step.fail (.undefinedProperty name.text) name.token)

def superProperty (line : Nat) (binding : Binding) (method : Name) : Watch Value := do
  let (superclass, id) ← lift (Step.superParts line binding)
  match ← lift (Step.readHeap (·.findMethod? method.text superclass)) with
  | some found =>
    let bound ← bindMethod found id
    pure (.function bound)
  | none =>
    let className ← lift (Step.readHeap (·.className superclass))
    lift (Step.fail (.undefinedSuperclassProperty method.text className) method.token)

/-- Runs the body of a function. -/
def inCall (closure : Closure) (arguments : List Value) (paren : Token) (body : Watch α) :
    Watch α := fun machine origins =>
  if Step.maximumDepth ≤ machine.depth then .failed ⟨.stackOverflow, paren⟩ machine origins
  else
    let caller := machine.frame
    let (frame, heap) := machine.heap.addFrame closure.frame
    let heap := Step.bindParameters heap frame closure.lambda.parameters arguments
    body.around (fun machine =>
        { machine with heap := heap, frame := frame, depth := machine.depth + 1 })
      (fun after => { after with frame := caller, depth := after.depth - 1 }) machine origins

/-! ## Declarations -/

def closeMethods (s : Surroundings) (table : Table FunctionId) :
    List (Method Unit) → Watch (Table FunctionId)
  | [] => pure table
  | method :: rest => do
    let name := method.name.text
    let id ← close s (some name) method.lambda (name == initializerName) true
    closeMethods s (table.set name id) rest

/-- The methods of a class, inside a scope that binds their instance. -/
def closeMethodsOf (s : Surroundings) (superclass : Option ClassId)
    (methods : List (Method Unit)) : Watch (Table FunctionId) :=
  match superclass with
  | none => closeMethods ((s.classBody superclass).enter [thisName]) .empty methods
  | some id => inScope do
    lift (Step.define superName (.classObject id))
    closeMethods ((s.classBody superclass).enter [thisName]) .empty methods

/-- The superclass is come to where the class itself is declared but not yet bound. -/
def superclassOf (s : Surroundings) (name : Name) :
    Option (Superclass Unit) → Watch (Option ClassId)
  | none => pure none
  | some parent => do
    check (s.scopes.without name.text)
    occurs s parent.name.text
    lift (Step.superclassOf (some ⟨parent.name, s.binding parent.name.text⟩))

def declareClass (s : Surroundings) (name : Name) (superclass : Option (Superclass Unit))
    (methods : List (Method Unit)) : Watch Unit := do
  let parent ← superclassOf (s.declare name.text) name superclass
  lift (Step.define name.text .nil)
  let table ← closeMethodsOf (s.declare name.text) parent methods
  let id ← lift (Step.changeHeap (·.addClass ⟨name.text, parent, table⟩))
  lift (Step.define name.text (.classObject id))

def declareFunction (s : Surroundings) (name : Name) (lambda : Lambda Unit) : Watch Unit := do
  lift (Step.define name.text .nil)
  let id ← close (s.declare name.text) (some name.text) lambda false false
  lift (Step.define name.text (.function id))

/-! ## Expressions and statements -/

mutual

def evaluate : Nat → Surroundings → Expr Unit → Watch Value
  | 0, _, _ => outOfFuel
  | fuel + 1, s, expr => do
    check s.scopes
    match expr with
    | .literal value => pure value.value
    | .group inner => evaluate fuel s inner
    | .unary operator line operand => do
      let value ← evaluate fuel s operand
      lift (Step.ofOperands (operator.apply value) (operator.symbol.token line))
    | .binary operator line left right => do
      let a ← evaluate fuel s left
      let b ← evaluate fuel s right
      lift (Step.ofOperands (operator.apply a b) (operator.symbol.token line))
    | .logical operator _ left right => do
      let value ← evaluate fuel s left
      if operator.isDecidedBy value then pure value else evaluate fuel s right
    | .comma operands => evaluateLast fuel s .nil operands
    | .conditional line condition thenBranch elseBranch => do
      match ← evaluate fuel s condition with
      | .boolean true => evaluate fuel s thenBranch
      | .boolean false => evaluate fuel s elseBranch
      | _ => lift (Step.fail .conditionNotBoolean (Symbol.question.token line))
    | .reference name () => do
      occurs s name.text
      lift (Step.lookUp name.text (s.binding name.text) name.token)
    | .assign name () value => do
      let value ← evaluate fuel s value
      occurs s name.text
      lift (Step.assign name (s.binding name.text) value)
      pure value
    | .property object name => do
      match ← evaluate fuel s object with
      | .object id => getProperty id name
      | _ => lift (Step.fail .propertyOfNonInstance name.token)
    | .call callee line arguments => do
      let arguments ← evaluateEach fuel s arguments
      let callee ← evaluate fuel s callee
      call fuel callee arguments (Symbol.rightParen.token line)
    | .function lambda => do
      let id ← close s none lambda false false
      pure (.function id)
    | .thisInstance line () => do
      occurs s thisName
      lift (Step.lookUp thisName (s.binding thisName) (Keyword.kwThis.token line))
    | .superMethod line () method => do
      inSubclass s
      occurs s superName
      superProperty line (s.binding superName) method

def evaluateEach : Nat → Surroundings → List (Expr Unit) → Watch (List Value)
  | 0, _, _ => outOfFuel
  | fuel + 1, s, exprs =>
    match exprs with
    | [] => pure []
    | expr :: rest => do
      let value ← evaluate fuel s expr
      let values ← evaluateEach fuel s rest
      pure (value :: values)

def evaluateLast : Nat → Surroundings → Value → List (Expr Unit) → Watch Value
  | 0, _, _, _ => outOfFuel
  | fuel + 1, s, last, exprs =>
    match exprs with
    | [] => pure last
    | expr :: rest => do
      let value ← evaluate fuel s expr
      evaluateLast fuel s value rest

def evaluatePart : Nat → Surroundings → Option (Expr Unit) → Watch Value
  | 0, _, _ => outOfFuel
  | fuel + 1, s, part =>
    match part with
    | none => pure .nil
    | some expr => evaluate fuel s expr

def call : Nat → Value → List Value → Token → Watch Value
  | 0, _, _, _ => outOfFuel
  | fuel + 1, callee, arguments, paren =>
    match callee with
    | .native id => lift (Step.callNative id arguments paren)
    | .function id => do
      match ← lift (Step.readHeap (·.functions[id]?)) with
      | none => lift (Step.fail .notCallable paren)
      | some closure =>
        lift (Step.checkArity closure.lambda.parameters.length arguments.length paren)
        let origin ← originOf id
        callClosure fuel closure origin arguments paren
    | .classObject id => construct fuel id arguments paren
    | _ => lift (Step.fail .notCallable paren)

def construct : Nat → ClassId → List Value → Token → Watch Value
  | 0, _, _, _ => outOfFuel
  | fuel + 1, classId, arguments, paren => do
    match ← lift (Step.readHeap (·.findMethod? initializerName classId)) with
    | none =>
      lift (Step.checkArity 0 arguments.length paren)
      let id ← lift (Step.changeHeap (·.addInstance classId))
      pure (.object id)
    | some initializer =>
      let arity ← lift (Step.readHeap fun heap =>
        ((heap.functions[initializer]?).map (·.lambda.parameters.length)).getD 0)
      lift (Step.checkArity arity arguments.length paren)
      let id ← lift (Step.changeHeap (·.addInstance classId))
      let bound ← bindMethod initializer id
      match ← lift (Step.readHeap (·.functions[bound]?)) with
      | none => pure (.object id)
      | some closure =>
        let origin ← originOf bound
        let _ ← callClosure fuel closure origin arguments paren
        pure (.object id)

/-- The body of a function is come to inside what surrounds its declaration. -/
def callClosure : Nat → Closure → Origin → List Value → Token → Watch Value
  | 0, _, _, _, _ => outOfFuel
  | fuel + 1, closure, origin, arguments, paren => do
    let flow ← inCall closure arguments paren
      (executeEach fuel (origin.surroundings.enterFunction origin.lambda.parameters)
        origin.lambda.body)
    lift (Step.callResult closure flow)

def storeEach : Nat → Surroundings → Value → List (Target Unit) → Watch Unit
  | 0, _, _, _ => outOfFuel
  | fuel + 1, s, value, targets =>
    match targets with
    | [] => pure ()
    | .name name () :: rest => do
      occurs s name.text
      lift (Step.assignOrDefine name (s.binding name.text) value)
      storeEach fuel s value rest
    | .property object name :: rest => do
      let object ← evaluate fuel s object
      lift (Step.setProperty object name value)
      storeEach fuel s value rest

def execute : Nat → Surroundings → Stmt Unit → Watch Flow
  | 0, _, _ => outOfFuel
  | fuel + 1, s, stmt => do
    check s.scopes
    match stmt with
    | .expression value => do
      let _ ← evaluate fuel s value
      pure .normal
    | .varDecl name initializer => do
      let value ← evaluatePart fuel s initializer
      lift (Step.define name.text value)
      pure .normal
    | .assign targets value => do
      let value ← evaluate fuel s value
      storeEach fuel s value targets
      pure .normal
    | .set object name value => do
      match ← evaluate fuel s object with
      | .object id =>
        let value ← evaluate fuel s value
        lift (Step.setProperty (.object id) name value)
        pure .normal
      | _ => lift (Step.fail .fieldOfNonInstance name.token)
    | .block body => inScope (executeEach fuel (s.enter []) body)
    | .branch condition thenBranch elseBranch => inScope do
      let inside := s.enter []
      let value ← evaluate fuel inside condition
      if value.isTruthy then execute fuel inside thenBranch
      -- The parser lets no branch declare a name, so both are in the same scopes.
      else executePart fuel inside elseBranch
    | .whileLoop condition body => inScope (loop fuel (s.enter []) (some condition) none body)
    | .forLoop initializer condition increment body => inScope do
      let _ ← executePart fuel (s.enter []) initializer
      loop fuel ((s.enter []).after (initializer.bind Stmt.declaredName?)) condition increment body
    | .breakLoop line => pure (.breaks line)
    | .continueLoop line => pure (.continues line)
    | .funDecl name lambda => do
      declareFunction s name lambda
      pure .normal
    | .returnValue line value => do
      let value ← evaluatePart fuel s value
      pure (.returns line value)
    | .classDecl name superclass methods => do
      declareClass s name superclass methods
      pure .normal

def executeEach : Nat → Surroundings → List (Stmt Unit) → Watch Flow
  | 0, _, _ => outOfFuel
  | fuel + 1, s, stmts =>
    match stmts with
    | [] => pure .normal
    | stmt :: rest => do
      match ← execute fuel s stmt with
      | .normal => executeEach fuel (s.after stmt.declaredName?) rest
      | flow => pure flow

def executePart : Nat → Surroundings → Option (Stmt Unit) → Watch Flow
  | 0, _, _ => outOfFuel
  | fuel + 1, s, part =>
    match part with
    | none => pure .normal
    | some stmt => execute fuel s stmt

def loop : Nat → Surroundings → Option (Expr Unit) → Option (Expr Unit) → Stmt Unit → Watch Flow
  | 0, _, _, _, _ => outOfFuel
  | fuel + 1, s, condition, increment, body => do
    let holds ←
      match condition with
      | none => pure true
      | some expr => do
        let value ← evaluate fuel s expr
        pure value.isTruthy
    if holds then
      match ← execute fuel s.enterLoop body with
      | .breaks _ => pure .normal
      | .returns line value => pure (.returns line value)
      | _ =>
        let next := s.after body.declaredName?
        let _ ← evaluatePart fuel next increment
        loop fuel next condition increment body
    else pure .normal

end

/-- Runs statements at the top level, where nothing surrounds them. -/
def runTopLevel (fuel : Nat) : List (Stmt Unit) → Watch Unit
  | [] => pure ()
  | stmt :: rest => do
    match ← execute fuel .topLevel stmt with
    | .normal => runTopLevel fuel rest
    | .breaks line => lift (Step.fail (.outsideLoop .kwBreak) (Keyword.kwBreak.token line))
    | .continues line => lift (Step.fail (.outsideLoop .kwContinue) (Keyword.kwContinue.token line))
    | .returns line _ => lift (Step.fail .returnFromTopLevel (Keyword.kwReturn.token line))

end Watch

end Lox
