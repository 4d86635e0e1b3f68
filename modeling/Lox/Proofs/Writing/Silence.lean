import Lox.Proofs.Plans.Evaluation

/-!
# Who writes

A step is *silent* if it neither looks at the output nor writes to it. Every step of evaluation is, but
for the calls of native routines, and of a routine only the reply can bring about that something is
written.
-/

namespace Lox

/-- The machine with another output. -/
def Machine.writingTo (output : Output) (machine : Machine) : Machine :=
  { machine with output := output }

theorem Machine.output_writingTo (output : Output) (machine : Machine) :
    (machine.writingTo output).output = output := rfl

namespace Step

variable {α β : Type}

/-- With another output the step does what it did, and leaves that output as it found it. -/
def Silent (step : Step α) : Prop :=
  ∀ machine output,
    step (machine.writingTo output) = (step machine).mapMachine (·.writingTo output)

namespace Silent

theorem pure (result : α) : Silent (pure result) := fun _ _ => rfl

theorem fail (problem : RuntimeProblem) (token : Token) : Silent (fail problem token : Step α) :=
  fun _ _ => rfl

theorem bind {step : Step α} {continuation : α → Step β} (first : step.Silent)
    (second : ∀ result, (continuation result).Silent) : (step >>= continuation).Silent := by
  intro machine output
  change Step.bind step continuation _ = (Step.bind step continuation machine).mapMachine _
  unfold Step.bind
  rw [first machine output]
  cases step machine with
  | finished result after => exact second result after output
  | failed error after => rfl
  | outOfFuel => rfl

theorem ofOperands (result : Except OperandProblem α) (token : Token) :
    Silent (ofOperands result token) := by
  cases result with
  | ok value => exact pure value
  | error problem => exact fail _ token

/-! ### The heap -/

theorem innermost : Silent innermost := fun _ _ => rfl

theorem readHeap (f : Heap → α) : Silent (readHeap f) := fun _ _ => rfl

theorem changeHeap (f : Heap → α × Heap) : Silent (changeHeap f) := fun _ _ => rfl

theorem define (name : String) (value : Value) : Silent (define name value) := fun _ _ => rfl

theorem defineGlobal (name : String) (value : Value) : Silent (defineGlobal name value) :=
  fun _ _ => rfl

theorem setField (id : InstanceId) (name : String) (value : Value) :
    Silent (Step.changeHeap fun heap => ((), heap.setField id name value)) := fun _ _ => rfl

/-! ### Names -/

theorem lookUp (name : String) (binding : Binding) (token : Token) :
    Silent (lookUp name binding token) := by
  intro machine output
  simp only [Step.lookUp, Machine.writingTo]
  cases machine.heap.lookUp? machine.frame name binding <;> rfl

theorem assign (name : Name) (binding : Binding) (value : Value) :
    Silent (assign name binding value) := by
  refine bind innermost fun frame => bind (changeHeap _) fun bound => ?_
  split
  · exact pure ()
  · exact fail _ _

theorem assignOrDefine (name : Name) (binding : Binding) (value : Value) :
    Silent (assignOrDefine name binding value) := by
  cases binding with
  | global => exact defineGlobal _ _
  | lexical distance => exact assign name _ value

/-! ### Properties -/

theorem getProperty (id : InstanceId) (name : Name) : Silent (getProperty id name) := by
  intro machine output
  simp only [Step.getProperty, Machine.writingTo]
  repeat' split
  all_goals rfl

theorem setProperty (object : Value) (name : Name) (value : Value) :
    Silent (setProperty object name value) := by
  cases object with
  | object id => exact setField _ _ _
  | _ => exact fail _ _

theorem superParts (line : Nat) (binding : Binding) : Silent (superParts line binding) := by
  intro machine output
  cases binding with
  | global => rfl
  | lexical distance =>
    simp only [Step.superParts, Machine.writingTo]
    repeat' split
    all_goals rfl

theorem superProperty (line : Nat) (binding : Binding) (method : Name) :
    Silent (superProperty line binding method) := by
  refine bind (superParts line binding) fun (superclass, receiver) => ?_
  refine bind (readHeap _) fun found => ?_
  split
  · exact bind (changeHeap _) fun _ => pure _
  · exact bind (readHeap _) fun _ => fail _ _

theorem superclassOf (superclass : Option (Superclass Binding)) :
    Silent (superclassOf superclass) := by
  cases superclass with
  | none => exact pure none
  | some parent =>
    refine bind (lookUp _ _ _) fun value => ?_
    split
    · exact pure _
    · exact fail _ _

/-! ### Calls -/

theorem checkArity (expected given : Nat) (paren : Token) :
    Silent (checkArity expected given paren) := by
  unfold Step.checkArity
  split
  · exact pure ()
  · exact fail _ paren

end Silent

/-- All of the text is written, or else the call that writes it fails at its parenthesis. -/
theorem write_nil_eq (text : String) (paren : Token) (machine : Machine) :
    (write text paren >>= fun _ => pure Value.nil) machine =
      match machine.output.write text.toUTF8 with
      | (output, true) => .finished .nil (machine.writingTo output)
      | (output, false) => .failed ⟨.outputFull, paren⟩ (machine.writingTo output) := by
  cases written : machine.output.write text.toUTF8 with
  | mk output fits =>
    cases fits with
    | true => exact bind_of_finished (by simp only [write, written]; rfl)
    | false => exact bind_of_failed (by simp only [write, written]; rfl)

/-- What a call of a native routine does with the routine's reply. -/
theorem callNative_eq (id : NativeId) (arguments : List Value) (paren : Token)
    (machine : Machine) :
    callNative id arguments paren machine =
      match machine.heap.natives[id]? with
      | none => .failed ⟨.notCallable, paren⟩ machine
      | some native =>
        if native.arity = arguments.length then
          match native.routine machine.heap.shown arguments with
          | .value value => .finished value machine
          | .failure message => .failed ⟨.nativeFailure message, paren⟩ machine
          | .write text => (write text paren >>= fun _ => pure .nil) machine
          | .readClock => (readClock >>= fun reading => pure (.number reading)) machine
        else .failed ⟨.wrongArgumentCount native.arity arguments.length, paren⟩ machine := by
  unfold callNative
  change Step.bind (readHeap _) _ machine = _
  simp only [Step.bind, readHeap]
  cases machine.heap.natives[id]? with
  | none => rfl
  | some native =>
    change Step.bind (checkArity _ _ _) _ machine = _
    by_cases fits : native.arity = arguments.length
    · simp only [Step.bind, checkArity, if_pos fits]
      change Step.bind (readHeap _) _ machine = _
      simp only [Step.bind, readHeap]
      cases native.routine machine.heap.shown arguments <;> rfl
    · simp only [Step.bind, checkArity, if_neg fits]
      rfl

/-- A native routine is called silently, or else all that comes of the call is that a text is written. -/
theorem callNative_cases (id : NativeId) (arguments : List Value) (paren : Token)
    (machine : Machine) :
    (∀ output, callNative id arguments paren (machine.writingTo output) =
        (callNative id arguments paren machine).mapMachine (·.writingTo output)) ∨
      ∃ native text, machine.heap.natives[id]? = some native ∧
        native.arity = arguments.length ∧
        native.routine machine.heap.shown arguments = .write text ∧
        ∀ output, callNative id arguments paren (machine.writingTo output) =
          (write text paren >>= fun _ => pure .nil) (machine.writingTo output) := by
  simp only [callNative_eq, Machine.writingTo]
  cases machine.heap.natives[id]? with
  | none => exact .inl fun _ => rfl
  | some native =>
    by_cases fits : native.arity = arguments.length
    · simp only [if_pos fits]
      cases replied : native.routine machine.heap.shown arguments with
      | write text => exact .inr ⟨native, text, rfl, fits, replied, fun _ => rfl⟩
      | _ => exact .inl fun _ => rfl
    · simp only [if_neg fits]
      exact .inl fun _ => rfl

end Step

end Lox
