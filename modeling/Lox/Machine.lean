import Lox.Heap
import Lox.Output
import Lox.RuntimeError

/-!
# The machine

The state of a running program and the steps that evaluation is made of. A step takes the machine
to its next state and gives a result, fails with a runtime error, or gives up for want of fuel. An
error keeps the state it arose in: what was done before it stays done.
-/

namespace Lox

/-- The state of a running program. -/
structure Machine where
  heap : Heap
  /-- The innermost scope. -/
  frame : FrameId
  /-- How many calls of functions are in progress. -/
  depth : Nat
  output : Output
  /-- What the clock says each time it is read. -/
  clock : Nat → Number
  /-- How often it has been read. -/
  readings : Nat

/-- How a step ends. -/
inductive Outcome (α : Type) where
  | finished (result : α) (machine : Machine)
  | failed (error : RuntimeError) (machine : Machine)
  | outOfFuel

/-- A step of evaluation. -/
def Step (α : Type) := Machine → Outcome α

namespace Machine

/-- A machine about to run its first program, with the standard routines installed. -/
def initial (output : Output) (clock : Nat → Number) : Machine :=
  ⟨Native.standard.foldl Heap.install Heap.empty, Heap.globals, 0, output, clock, 0⟩

/-- Installs a native routine among the globals. -/
def install (machine : Machine) (native : Native) : Machine :=
  { machine with heap := machine.heap.install native }

/-- The machine in a new scope inside the innermost one. -/
def enter (machine : Machine) : Machine :=
  let (frame, heap) := machine.heap.addFrame machine.frame
  { machine with heap := heap, frame := frame }

/-- The machine out of the innermost scope. The globals are never left. -/
def leave (machine : Machine) : Machine :=
  { machine with
    frame := (machine.heap.environment.enclosing? machine.frame).getD machine.frame }

end Machine

namespace Step

variable {α β : Type}

/-! ## Sequencing -/

@[always_inline, inline]
protected def pure (result : α) : Step α := fun machine => .finished result machine

@[always_inline, inline]
protected def bind (step : Step α) (continuation : α → Step β) : Step β := fun machine =>
  match step machine with
  | .finished result after => continuation result after
  | .failed error after => .failed error after
  | .outOfFuel => .outOfFuel

@[always_inline]
instance : Monad Step where
  pure := Step.pure
  bind := Step.bind

section

variable {step : Step α} {continuation : α → Step β} {machine after : Machine}

theorem bind_of_finished {result : α} (ran : step machine = .finished result after) :
    (step >>= continuation) machine = continuation result after := by
  change Step.bind step continuation machine = _
  simp only [Step.bind, ran]

theorem bind_of_failed {error : RuntimeError} (ran : step machine = .failed error after) :
    (step >>= continuation) machine = .failed error after := by
  change Step.bind step continuation machine = _
  simp only [Step.bind, ran]

theorem bind_of_outOfFuel (ran : step machine = .outOfFuel) :
    (step >>= continuation) machine = .outOfFuel := by
  change Step.bind step continuation machine = _
  simp only [Step.bind, ran]

end

def outOfFuel : Step α := fun _ => .outOfFuel

/-- Fails at a token. -/
def fail (problem : RuntimeProblem) (token : Token) : Step α :=
  fun machine => .failed ⟨problem, token⟩ machine

/-- The result of an operator, or its failure at the operator's token. -/
def ofOperands (result : Except OperandProblem α) (token : Token) : Step α :=
  match result with
  | .ok value => pure value
  | .error problem => fail (.operands problem) token

/-- Runs a step in a new scope, which is left however the step ends. -/
@[inline]
def inScope (step : Step α) : Step α := fun machine =>
  match step machine.enter with
  | .finished result after => .finished result after.leave
  | .failed error after => .failed error after.leave
  | .outOfFuel => .outOfFuel

/-! ## The heap -/

/-- The innermost scope. -/
@[inline]
def innermost : Step FrameId := fun machine => .finished machine.frame machine

/-- Reads the heap. -/
@[inline]
def readHeap (f : Heap → α) : Step α := fun machine => .finished (f machine.heap) machine

/-- Changes the heap, which gives a result. -/
@[inline]
def changeHeap (f : Heap → α × Heap) : Step α := fun machine =>
  let (result, heap) := f machine.heap
  .finished result { machine with heap := heap }

/-- Binds a name in the innermost scope. -/
def define (name : String) (value : Value) : Step Unit := fun machine =>
  .finished () { machine with heap := machine.heap.define machine.frame name value }

/-- Binds a name among the globals. -/
def defineGlobal (name : String) (value : Value) : Step Unit :=
  changeHeap fun heap => ((), heap.define Heap.globals name value)

/-- A new function, closed over the innermost scope. -/
def close (name : Option String) (lambda : Lambda Binding) (isInitializer : Bool) :
    Step FunctionId := fun machine =>
  let (id, heap) := machine.heap.addFunction ⟨name, lambda, machine.frame, isInitializer⟩
  .finished id { machine with heap := heap }

/-! ## Names -/

/-- The value of a name. -/
def lookUp (name : String) (binding : Binding) (token : Token) : Step Value := fun machine =>
  match machine.heap.lookUp? machine.frame name binding with
  | some value => .finished value machine
  | none => .failed ⟨.undefinedVariable name, token⟩ machine

/-- Gives a name that is bound a new value. -/
def assign (name : Name) (binding : Binding) (value : Value) : Step Unit := do
  let frame ← innermost
  let bound ← changeHeap (·.assign frame name.text value binding)
  if bound then pure () else fail (.undefinedVariable name.text) name.token

/-- Gives a name a new value as an assignment statement does: a global need not be bound
before. -/
def assignOrDefine (name : Name) (binding : Binding) (value : Value) : Step Unit :=
  match binding with
  | .global => defineGlobal name.text value
  | .lexical _ => assign name binding value

/-! ## Properties -/

/-- A property of an instance: a field, or else a method of its class, bound to it. -/
def getProperty (id : InstanceId) (name : Name) : Step Value := fun machine =>
  match machine.heap.field? id name.text with
  | some value => .finished value machine
  | none =>
    match (machine.heap.instances[id]?).bind fun i =>
        machine.heap.findMethod? name.text i.classId with
    | some method =>
      let (bound, heap) := machine.heap.bindMethod method id
      .finished (.function bound) { machine with heap := heap }
    | none => .failed ⟨.undefinedProperty name.text, name.token⟩ machine

/-- The same in smaller steps. -/
theorem getProperty_eq (id : InstanceId) (name : Name) : getProperty id name = (do
    match ← readHeap (·.field? id name.text) with
    | some value => pure value
    | none =>
      match ← readHeap fun heap =>
          (heap.instances[id]?).bind fun i => heap.findMethod? name.text i.classId with
      | some method => do
        let bound ← changeHeap (·.bindMethod method id)
        pure (.function bound)
      | none => fail (.undefinedProperty name.text) name.token) := by
  funext machine
  simp only [getProperty, bind, Step.bind, readHeap]
  cases machine.heap.field? id name.text with
  | some value => rfl
  | none =>
    simp only [Step.bind, readHeap]
    cases (machine.heap.instances[id]?).bind fun i =>
        machine.heap.findMethod? name.text i.classId with
    | some method => rfl
    | none => rfl

/-- Gives a property of a value, which has to be an instance, a new value. -/
def setProperty (object : Value) (name : Name) (value : Value) : Step Unit :=
  match object with
  | .object id => changeHeap fun heap => ((), heap.setField id name.text value)
  | _ => fail .fieldOfNonInstance name.token

/-- The superclass that a `super` expression starts from: in the scope that its binding leads to;
and the instance of the running method: in the scope just inside that one. -/
def superParts (line : Nat) (binding : Binding) : Step (ClassId × InstanceId) := fun machine =>
  let token := Keyword.kwSuper.token line
  match binding with
  | .global => .failed ⟨.superOutsideClass, token⟩ machine
  | .lexical distance =>
    match machine.heap.lookUp? machine.frame superName (.lexical distance) with
    | some (.classObject superclass) =>
      match distance with
      | 0 => .failed ⟨.superOutsideMethod, token⟩ machine
      | inner + 1 =>
        match machine.heap.lookUp? machine.frame thisName (.lexical inner) with
        | some (.object id) => .finished (superclass, id) machine
        | _ => .failed ⟨.superOutsideMethod, token⟩ machine
    | _ => .failed ⟨.superclassNotClass, token⟩ machine

/-- A method of the superclass, bound to the instance of the running method. -/
def superProperty (line : Nat) (binding : Binding) (method : Name) : Step Value := do
  let (superclass, id) ← superParts line binding
  match ← readHeap (·.findMethod? method.text superclass) with
  | some found =>
    let bound ← changeHeap (·.bindMethod found id)
    pure (.function bound)
  | none =>
    let className ← readHeap (·.className superclass)
    fail (.undefinedSuperclassProperty method.text className) method.token

/-! ## Calls -/

/-- The most calls of functions that can be in progress at once. -/
def maximumDepth : Nat := 1000

/-- Refuses a call with another number of arguments than the callee takes. -/
def checkArity (expected given : Nat) (paren : Token) : Step Unit :=
  if expected = given then pure () else fail (.wrongArgumentCount expected given) paren

/-- Writes text to the output. -/
def write (text : String) (paren : Token) : Step Unit := fun machine =>
  match machine.output.write text.toUTF8 with
  | (output, true) => .finished () { machine with output := output }
  | (output, false) => .failed ⟨.outputFull, paren⟩ { machine with output := output }

/-- Reads the clock. -/
def readClock : Step Number := fun machine =>
  .finished (machine.clock machine.readings) { machine with readings := machine.readings + 1 }

/-- Calls a native routine. -/
def callNative (id : NativeId) (arguments : List Value) (paren : Token) : Step Value := do
  match ← readHeap (·.natives[id]?) with
  | none => fail .notCallable paren
  | some native =>
    checkArity native.arity arguments.length paren
    match ← readHeap fun heap => native.routine heap.shown arguments with
    | .value value => pure value
    | .failure message => fail (.nativeFailure message) paren
    | .write text =>
      write text paren
      pure .nil
    | .readClock =>
      let reading ← readClock
      pure (.number reading)

/-- Binds each parameter to its argument, from left to right. -/
def bindParameters (heap : Heap) (frame : FrameId) : List Name → List Value → Heap
  | parameter :: parameters, argument :: arguments =>
    bindParameters (heap.define frame parameter.text argument) frame parameters arguments
  | _, _ => heap

/-- Runs the body of a function in a new scope inside the function's own frame, in which the
parameters are bound. However the body ends, the caller goes on in the scope it called from. -/
@[inline]
def inCall (closure : Closure) (arguments : List Value) (paren : Token) (body : Step α) :
    Step α := fun machine =>
  if maximumDepth ≤ machine.depth then .failed ⟨.stackOverflow, paren⟩ machine
  else
    let caller := machine.frame
    let (frame, heap) := machine.heap.addFrame closure.frame
    let heap := bindParameters heap frame closure.lambda.parameters arguments
    match body { machine with heap := heap, frame := frame, depth := machine.depth + 1 } with
    | .finished result after =>
      .finished result { after with frame := caller, depth := after.depth - 1 }
    | .failed error after =>
      .failed error { after with frame := caller, depth := after.depth - 1 }
    | .outOfFuel => .outOfFuel

end Step

end Lox
