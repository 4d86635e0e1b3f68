import Lox.Proofs.Sessions.Endings

/-!
# Steps that look at no body

All that a machine does with the body of a function is to run it in a call, to make a function that has it
and to bind a method, which copies it. Every other step is the same whatever bodies the functions have,
and leaves them the ones that they have.
-/

namespace Lox

/-! ## Functions with other bodies -/

def Closure.withBody (body : List (Stmt Binding)) (closure : Closure) : Closure :=
  { closure with lambda := { closure.lambda with body := body } }

namespace Heap

variable {bodies : FunctionId → List (Stmt Binding)} {heap : Heap}

/-- The heap with a body given to each function. -/
def withBodies (bodies : FunctionId → List (Stmt Binding)) (heap : Heap) : Heap :=
  { heap with functions := heap.functions.mapIdx fun id => Closure.withBody (bodies id) }

theorem functions_withBodies (id : FunctionId) :
    (heap.withBodies bodies).functions[id]? =
      (heap.functions[id]?).map (Closure.withBody (bodies id)) :=
  Array.getElem?_mapIdx

theorem findMethod?_withBodies (name : String) (classId : ClassId) :
    (heap.withBodies bodies).findMethod? name classId = heap.findMethod? name classId := by
  have classes : (heap.withBodies bodies).classes = heap.classes := rfl
  exact findMethod?_of_classes classes name classId

theorem shown_withBodies : (heap.withBodies bodies).shown = heap.shown := by
  funext value
  cases value with
  | function id =>
    simp only [shown, functions_withBodies]
    cases heap.functions[id]? <;> rfl
  | boolean value => cases value <;> rfl
  | _ => rfl

theorem bindParameters_withBodies (heap : Heap) (frame : FrameId) (parameters : List Name)
    (arguments : List Value) :
    Step.bindParameters (heap.withBodies bodies) frame parameters arguments =
      (Step.bindParameters heap frame parameters arguments).withBodies bodies := by
  induction parameters generalizing heap arguments with
  | nil => rfl
  | cons parameter rest ih =>
    cases arguments with
    | nil => rfl
    | cons argument others =>
      exact ih (heap.define frame parameter.text argument) others

/-- A new function gets its body; those that were there keep theirs. -/
theorem withBodies_addFunction (closure : Closure) (body : List (Stmt Binding)) :
    (heap.addFunction closure).2.withBodies
        (fun id => if id = heap.functions.size then body else bodies id) =
      ((heap.withBodies bodies).addFunction (closure.withBody body)).2 := by
  have functions : (heap.functions.push closure).mapIdx (fun id =>
        Closure.withBody (if id = heap.functions.size then body else bodies id)) =
      (heap.functions.mapIdx fun id => Closure.withBody (bodies id)).push (closure.withBody body) := by
    rw [Array.mapIdx_push, if_pos rfl]
    congr 1
    refine Array.mapIdx_eq_mapIdx_iff.mpr fun id bound => ?_
    rw [if_neg (Nat.ne_of_lt bound)]
  exact congrArg (fun functions => { heap with functions := functions }) functions

end Heap

namespace Machine

def withBodies (bodies : FunctionId → List (Stmt Binding)) (machine : Machine) : Machine :=
  { machine with heap := machine.heap.withBodies bodies }

end Machine

/-! ## Steps -/

namespace Step

variable {α β : Type}

/-- The bodies of functions are nothing to the step. -/
def Bodiless (step : Step α) : Prop :=
  ∀ machine bodies, step (machine.withBodies bodies) =
    (step machine).mapMachine (Machine.withBodies bodies)

namespace Bodiless

variable {step : Step α}

theorem pure (result : α) : Bodiless (pure result) := fun _ _ => rfl

theorem fail (problem : RuntimeProblem) (token : Token) :
    Bodiless (Step.fail problem token : Step α) :=
  fun _ _ => rfl

theorem ofOperands (result : Except OperandProblem α) (token : Token) :
    Bodiless (Step.ofOperands result token) := by
  cases result with
  | ok value => exact .pure value
  | error problem => exact .fail _ token

theorem bind {continuation : α → Step β} (first : step.Bodiless)
    (further : ∀ result, (continuation result).Bodiless) : Bodiless (step >>= continuation) := by
  intro machine bodies
  change Step.bind step continuation _ = (Step.bind step continuation machine).mapMachine _
  unfold Step.bind
  rw [first machine bodies]
  cases step machine with
  | finished result after => exact further result after bodies
  | failed error after => rfl
  | outOfFuel => rfl

theorem ite {condition : Prop} [Decidable condition] {absent : Step α} (present : step.Bodiless)
    (otherwise : absent.Bodiless) : Bodiless (if condition then step else absent) := by
  split
  · exact present
  · exact otherwise

theorem readHeap {f : Heap → α} (same : ∀ heap bodies, f (heap.withBodies bodies) = f heap) :
    Bodiless (Step.readHeap f) := by
  intro machine bodies
  change Outcome.finished (f (machine.heap.withBodies bodies)) _ = _
  rw [same]
  rfl

theorem changeHeap {f : Heap → α × Heap}
    (same : ∀ heap bodies, f (heap.withBodies bodies) = ((f heap).1, (f heap).2.withBodies bodies)) :
    Bodiless (Step.changeHeap f) := by
  intro machine bodies
  have changed := same machine.heap bodies
  change Outcome.finished (f (machine.heap.withBodies bodies)).1
    { machine.withBodies bodies with heap := (f (machine.heap.withBodies bodies)).2 } = _
  rw [changed]
  rfl

theorem define (name : String) (value : Value) : Bodiless (Step.define name value) :=
  fun _ _ => rfl

theorem lookUp (name : String) (binding : Binding) (token : Token) :
    Bodiless (Step.lookUp name binding token) := by
  intro machine bodies
  have same : (machine.withBodies bodies).heap.lookUp? (machine.withBodies bodies).frame name
      binding = machine.heap.lookUp? machine.frame name binding := by
    cases binding <;> rfl
  unfold Step.lookUp
  rw [same]
  cases machine.heap.lookUp? machine.frame name binding <;> rfl

theorem assign (name : Name) (binding : Binding) (value : Value) :
    Bodiless (Step.assign name binding value) := by
  refine .bind (fun _ _ => rfl) fun frame => .bind (.changeHeap fun heap bodies => ?_) fun bound => ?_
  · cases binding <;> rfl
  · exact .ite (.pure ()) (.fail _ _)

theorem assignOrDefine (name : Name) (binding : Binding) (value : Value) :
    Bodiless (Step.assignOrDefine name binding value) := by
  cases binding with
  | global =>
    exact .changeHeap (f := fun heap => ((), heap.define Heap.globals name.text value)) fun _ _ => rfl
  | lexical distance => exact .assign name _ value

theorem setProperty (object : Value) (name : Name) (value : Value) :
    Bodiless (Step.setProperty object name value) := by
  cases object with
  | object id =>
    exact .changeHeap (f := fun heap => ((), heap.setField id name.text value)) fun _ _ => rfl
  | _ => exact .fail _ _

theorem superParts (line : Nat) (binding : Binding) : Bodiless (Step.superParts line binding) := by
  intro machine bodies
  cases binding with
  | global => rfl
  | lexical distance =>
    have same (distance : Nat) (name : String) :
        (machine.withBodies bodies).heap.lookUp? (machine.withBodies bodies).frame name
            (.lexical distance) =
          machine.heap.lookUp? machine.frame name (.lexical distance) := rfl
    simp only [Step.superParts, same]
    cases machine.heap.lookUp? machine.frame superName (.lexical distance) with
    | none => rfl
    | some parent =>
      cases parent with
      | classObject superclass =>
        cases distance with
        | zero => rfl
        | succ inner =>
          simp only
          cases machine.heap.lookUp? machine.frame thisName (.lexical inner) with
          | none => rfl
          | some receiver => cases receiver <;> rfl
      | _ => rfl

theorem checkArity (expected given : Nat) (paren : Token) :
    Bodiless (Step.checkArity expected given paren) :=
  .ite (.pure ()) (.fail _ _)

theorem write (text : String) (paren : Token) : Bodiless (Step.write text paren) := by
  intro machine bodies
  have same : (machine.withBodies bodies).output = machine.output := rfl
  simp only [Step.write, same]
  obtain ⟨output, done⟩ := machine.output.write text.toUTF8
  cases done <;> rfl

theorem callNative (id : NativeId) (arguments : List Value) (paren : Token) :
    Bodiless (Step.callNative id arguments paren) := by
  refine .bind (.readHeap fun _ _ => rfl) fun native? => ?_
  cases native? with
  | none => exact .fail _ _
  | some native =>
    refine .bind (.checkArity _ _ _) fun _ => .bind (.readHeap fun heap bodies => ?_) fun effect => ?_
    · rw [Heap.shown_withBodies]
    · cases effect with
      | value value => exact .pure value
      | failure message => exact .fail _ _
      | write text => exact .bind (.write text paren) fun _ => .pure _
      | readClock => exact .bind (fun _ _ => rfl) fun _ => .pure _

theorem callResult (closure : Closure) (flow : Flow) : Bodiless (Step.callResult closure flow) := by
  unfold Step.callResult
  refine .ite (.readHeap fun _ _ => rfl) ?_
  cases flow with
  | normal => exact .pure _
  | returns line value => exact .pure value
  | breaks line => exact .fail _ _
  | continues line => exact .fail _ _

end Bodiless

end Step

end Lox
