import Lox.Machine

/-!
# Evaluation

Expressions evaluate to values; statements run to an end of one of four kinds. Every function here
calls the others with one unit of fuel less, so fuel bounds how deep evaluation goes, and how
often a loop goes round; a program that ends does so with the same outcome for every amount of
fuel that is enough.

The arguments of a call are evaluated before its callee, the value of an assignment before its
targets, and the object of a property before the value stored into it.
-/

namespace Lox

/-- How a statement ends. The lines are those of the keywords. -/
inductive Flow where
  | normal
  | breaks (line : Nat)
  | continues (line : Nat)
  | returns (line : Nat) (value : Value)

def Literal.value : Literal → Value
  | nil => .nil
  | boolean value => .boolean value
  | number value => .number value
  | text contents => .text contents

/-- Whether the left operand is the value of a logical operation, so that the right one is not
evaluated. -/
def LogicalOperator.isDecidedBy (operator : LogicalOperator) (left : Value) : Bool :=
  match operator with
  | .or => left.isTruthy
  | .and => !left.isTruthy

/-- The name of the method that makes an instance ready. -/
def initializerName : String := "init"

namespace Step

/-! ## Parts without recursion -/

/-- A signal that left every loop around it. -/
def outsideLoop (keyword : Keyword) (line : Nat) : Step Value :=
  fail (.outsideLoop keyword) (keyword.token line)

/-- The value of a call whose body ended so. An initializer always gives its instance. -/
def callResult (closure : Closure) (flow : Flow) : Step Value :=
  if closure.isInitializer then
    readHeap fun heap => (heap.environment.getAt? closure.frame 0 thisName).getD .nil
  else
    match flow with
    | .normal => pure .nil
    | .returns _ value => pure value
    | .breaks line => outsideLoop .kwBreak line
    | .continues line => outsideLoop .kwContinue line

/-- The functions that methods are, closed over the innermost scope. Of two methods of one name
the later one counts. -/
def closeMethods (table : Table FunctionId) : List (Method Binding) → Step (Table FunctionId)
  | [] => pure table
  | method :: rest => do
    let name := method.name.text
    let id ← close (some name) method.lambda (name == initializerName)
    closeMethods (table.set name id) rest

/-- The methods of a class. With a superclass they are closed over a scope that binds it. -/
def closeMethodsOf (superclass : Option ClassId) (methods : List (Method Binding)) :
    Step (Table FunctionId) :=
  match superclass with
  | none => closeMethods .empty methods
  | some id => inScope do
    define superName (.classObject id)
    closeMethods .empty methods

/-- The class that a class declaration extends. -/
def superclassOf : Option (Superclass Binding) → Step (Option ClassId)
  | none => pure none
  | some parent => do
    match ← lookUp parent.name.text parent.binding parent.name.token with
    | .classObject id => pure (some id)
    | _ => fail .superclassNotClass parent.name.token

/-- Declares a class. Its name is bound, to nil at first, before its methods are made. -/
def declareClass (name : Name) (superclass : Option (Superclass Binding))
    (methods : List (Method Binding)) : Step Unit := do
  let parent ← superclassOf superclass
  define name.text .nil
  let table ← closeMethodsOf parent methods
  let id ← changeHeap (·.addClass ⟨name.text, parent, table⟩)
  define name.text (.classObject id)

/-- Declares a function. Its name is bound, to nil at first, before the function is made. -/
def declareFunction (name : Name) (lambda : Lambda Binding) : Step Unit := do
  define name.text .nil
  let id ← close (some name.text) lambda false
  define name.text (.function id)

/-! ## Expressions and statements -/

mutual

/-- The value of an expression. -/
def evaluate : Nat → Expr Binding → Step Value
  | 0, _ => outOfFuel
  | fuel + 1, expr =>
    match expr with
    | .literal value => pure value.value
    | .group inner => evaluate fuel inner
    | .unary operator line operand => do
      let value ← evaluate fuel operand
      ofOperands (operator.apply value) (operator.symbol.token line)
    | .binary operator line left right => do
      let a ← evaluate fuel left
      let b ← evaluate fuel right
      ofOperands (operator.apply a b) (operator.symbol.token line)
    | .logical operator _ left right => do
      let value ← evaluate fuel left
      if operator.isDecidedBy value then pure value else evaluate fuel right
    | .comma operands => evaluateLast fuel .nil operands
    | .conditional line condition thenBranch elseBranch => do
      match ← evaluate fuel condition with
      | .boolean true => evaluate fuel thenBranch
      | .boolean false => evaluate fuel elseBranch
      | _ => fail .conditionNotBoolean (Symbol.question.token line)
    | .reference name binding => lookUp name.text binding name.token
    | .assign name binding value => do
      let value ← evaluate fuel value
      assign name binding value
      pure value
    | .property object name => do
      match ← evaluate fuel object with
      | .object id => getProperty id name
      | _ => fail .propertyOfNonInstance name.token
    | .call callee line arguments => do
      let arguments ← evaluateEach fuel arguments
      let callee ← evaluate fuel callee
      call fuel callee arguments (Symbol.rightParen.token line)
    | .function lambda => do
      let id ← close none lambda false
      pure (.function id)
    | .thisInstance line binding => lookUp thisName binding (Keyword.kwThis.token line)
    | .superMethod line binding method => superProperty line binding method

/-- The values of expressions, evaluated from left to right. -/
def evaluateEach : Nat → List (Expr Binding) → Step (List Value)
  | 0, _ => outOfFuel
  | fuel + 1, exprs =>
    match exprs with
    | [] => pure []
    | expr :: rest => do
      let value ← evaluate fuel expr
      let values ← evaluateEach fuel rest
      pure (value :: values)

/-- The value of the last of some expressions, all of which are evaluated. -/
def evaluateLast : Nat → Value → List (Expr Binding) → Step Value
  | 0, _, _ => outOfFuel
  | fuel + 1, last, exprs =>
    match exprs with
    | [] => pure last
    | expr :: rest => do
      let value ← evaluate fuel expr
      evaluateLast fuel value rest

/-- The value of a part that may be missing, which counts as nil. -/
def evaluatePart : Nat → Option (Expr Binding) → Step Value
  | 0, _ => outOfFuel
  | fuel + 1, part =>
    match part with
    | none => pure .nil
    | some expr => evaluate fuel expr

/-- Calls a value. -/
def call : Nat → Value → List Value → Token → Step Value
  | 0, _, _, _ => outOfFuel
  | fuel + 1, callee, arguments, paren =>
    match callee with
    | .native id => callNative id arguments paren
    | .function id => do
      match ← readHeap (·.functions[id]?) with
      | none => fail .notCallable paren
      | some closure =>
        checkArity closure.lambda.parameters.length arguments.length paren
        callClosure fuel closure arguments paren
    | .classObject id => construct fuel id arguments paren
    | _ => fail .notCallable paren

/-- Makes an instance of a class and runs the initializer on it, if the class has one. -/
def construct : Nat → ClassId → List Value → Token → Step Value
  | 0, _, _, _ => outOfFuel
  | fuel + 1, classId, arguments, paren => do
    match ← readHeap (·.findMethod? initializerName classId) with
    | none =>
      checkArity 0 arguments.length paren
      let id ← changeHeap (·.addInstance classId)
      pure (.object id)
    | some initializer =>
      let arity ← readHeap fun heap =>
        ((heap.functions[initializer]?).map (·.lambda.parameters.length)).getD 0
      checkArity arity arguments.length paren
      let id ← changeHeap (·.addInstance classId)
      let bound ← changeHeap (·.bindMethod initializer id)
      match ← readHeap (·.functions[bound]?) with
      | none => pure (.object id)
      | some closure =>
        let _ ← callClosure fuel closure arguments paren
        pure (.object id)

/-- Calls a function with as many arguments as it has parameters. -/
def callClosure : Nat → Closure → List Value → Token → Step Value
  | 0, _, _, _ => outOfFuel
  | fuel + 1, closure, arguments, paren => do
    let flow ← inCall closure arguments paren (executeEach fuel closure.lambda.body)
    callResult closure flow

/-- Stores a value into targets, from left to right. -/
def storeEach : Nat → Value → List (Target Binding) → Step Unit
  | 0, _, _ => outOfFuel
  | fuel + 1, value, targets =>
    match targets with
    | [] => pure ()
    | .name name binding :: rest => do
      assignOrDefine name binding value
      storeEach fuel value rest
    | .property object name :: rest => do
      let object ← evaluate fuel object
      setProperty object name value
      storeEach fuel value rest

/-- Runs a statement. -/
def execute : Nat → Stmt Binding → Step Flow
  | 0, _ => outOfFuel
  | fuel + 1, stmt =>
    match stmt with
    | .expression value => do
      let _ ← evaluate fuel value
      pure .normal
    | .varDecl name initializer => do
      let value ← evaluatePart fuel initializer
      define name.text value
      pure .normal
    | .assign targets value => do
      let value ← evaluate fuel value
      storeEach fuel value targets
      pure .normal
    | .set object name value => do
      match ← evaluate fuel object with
      | .object id =>
        let value ← evaluate fuel value
        setProperty (.object id) name value
        pure .normal
      | _ => fail .fieldOfNonInstance name.token
    | .block body => inScope (executeEach fuel body)
    | .branch condition thenBranch elseBranch => inScope do
      let value ← evaluate fuel condition
      if value.isTruthy then execute fuel thenBranch else executePart fuel elseBranch
    | .whileLoop condition body => inScope (loop fuel (some condition) none body)
    | .forLoop initializer condition increment body => inScope do
      let _ ← executePart fuel initializer
      loop fuel condition increment body
    | .breakLoop line => pure (.breaks line)
    | .continueLoop line => pure (.continues line)
    | .funDecl name lambda => do
      declareFunction name lambda
      pure .normal
    | .returnValue line value => do
      let value ← evaluatePart fuel value
      pure (.returns line value)
    | .classDecl name superclass methods => do
      declareClass name superclass methods
      pure .normal

/-- Runs statements until one of them ends otherwise than normally. -/
def executeEach : Nat → List (Stmt Binding) → Step Flow
  | 0, _ => outOfFuel
  | fuel + 1, stmts =>
    match stmts with
    | [] => pure .normal
    | stmt :: rest => do
      match ← execute fuel stmt with
      | .normal => executeEach fuel rest
      | flow => pure flow

/-- Runs a statement that may be missing. -/
def executePart : Nat → Option (Stmt Binding) → Step Flow
  | 0, _ => outOfFuel
  | fuel + 1, part =>
    match part with
    | none => pure .normal
    | some stmt => execute fuel stmt

/-- Goes round a loop for as long as its condition holds. A missing condition always holds. The
increment also follows a body that was left by `continue`. -/
def loop : Nat → Option (Expr Binding) → Option (Expr Binding) → Stmt Binding → Step Flow
  | 0, _, _, _ => outOfFuel
  | fuel + 1, condition, increment, body => do
    let holds ←
      match condition with
      | none => pure true
      | some expr => do
        let value ← evaluate fuel expr
        pure value.isTruthy
    if holds then
      match ← execute fuel body with
      | .breaks _ => pure .normal
      | .returns line value => pure (.returns line value)
      | _ =>
        let _ ← evaluatePart fuel increment
        loop fuel condition increment body
    else pure .normal

end

end Step

end Lox
