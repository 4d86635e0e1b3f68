import Lox.Proofs.Lexical.Names
import Lox.Proofs.Plans.Plan

/-!
# What `this` and `super` are bound to

Among the globals a routine may have any name. In every other frame `super` is bound to a class and
`this` to an instance, since no declaration and no parameter is spelled so. `Heap.Seated` says this
of a heap, and every step of evaluation keeps it.
-/

namespace Lox

/-- Whether a frame that is not that of the globals may bind the name to the value. -/
structure Value.Fits (name : String) (value : Value) : Prop where
  super : name = superName → ∃ id, value = .classObject id
  this : name = thisName → ∃ id, value = .object id

theorem Value.fits_of_ordinary {name : Name} (ordinary : name.written.IsOrdinary) (value : Value) :
    value.Fits name.text :=
  ⟨fun same => absurd same ordinary.2, fun same => absurd same ordinary.1⟩

/-- Frames bind `this` and `super` to what they stand for, and functions have no parameter of
these names. -/
structure Heap.Seated (heap : Heap) : Prop where
  slots : ∀ (frame : FrameId) (name : String) (value : Value), frame ≠ Heap.globals →
    heap.environment.slot? frame name = some value → value.Fits name
  parameters : ∀ lambda, heap.Holds lambda →
    ∀ parameter ∈ lambda.parameters, parameter.written.IsOrdinary

namespace Heap.Seated

variable {heap : Heap}

/-! ## Changing the heap -/

theorem define {frame : FrameId} {name : String} {value : Value} (seated : heap.Seated)
    (fits : frame ≠ Heap.globals → value.Fits name) : (heap.define frame name value).Seated := by
  refine ⟨fun other otherName held inner found => ?_, seated.parameters⟩
  cases Environment.slot?_define_eq_some found with
  | inl new =>
    obtain ⟨rfl, rfl, rfl⟩ := new
    exact fits inner
  | inr before => exact seated.slots other otherName held inner before

theorem addFrame (seated : heap.Seated) (frame : FrameId) : (heap.addFrame frame).2.Seated := by
  refine ⟨fun other name value inner found => ?_, seated.parameters⟩
  change (heap.environment.child frame).slot? other name = some value at found
  rw [Environment.slot?_child] at found
  exact seated.slots other name value inner found

theorem addFunction {closure : Closure} (seated : heap.Seated)
    (ordinary : ∀ parameter ∈ closure.lambda.parameters, parameter.written.IsOrdinary) :
    (heap.addFunction closure).2.Seated := by
  refine ⟨seated.slots, fun lambda holds => ?_⟩
  cases Heap.Holds.of_addFunction holds with
  | inl before => exact seated.parameters lambda before
  | inr same => exact same ▸ ordinary

theorem bindMethod (seated : heap.Seated) (method : FunctionId) (receiver : InstanceId) :
    (heap.bindMethod method receiver).2.Seated := by
  unfold Heap.bindMethod
  split
  · exact seated
  · next closure found =>
    -- The frame of a bound method is where `this` gets its seat.
    have fits : (Value.object receiver).Fits thisName :=
      ⟨fun same => absurd same (by decide), fun _ => ⟨receiver, rfl⟩⟩
    have bound : ((heap.addFrame closure.frame).2.define heap.environment.size thisName
        (.object receiver)).Seated := (seated.addFrame closure.frame).define fun _ => fits
    exact bound.addFunction (seated.parameters _ ⟨method, closure, found, rfl⟩)

theorem assign {frame : FrameId} {name : String} {value : Value} (seated : heap.Seated)
    (fits : value.Fits name) (binding : Binding) :
    (heap.assign frame name value binding).2.Seated := by
  cases binding with
  | global =>
    simp only [Heap.assign, Environment.assign]
    split
    · exact seated
    · exact seated.define fun _ => fits
  | lexical distance =>
    simp only [Heap.assign, Environment.assignAt]
    split
    · exact seated
    · split
      · exact seated.define fun _ => fits
      · exact seated

theorem bindParameters {frame : FrameId} {parameters : List Name} {arguments : List Value}
    (seated : heap.Seated)
    (ordinary : ∀ parameter ∈ parameters, parameter.written.IsOrdinary) :
    (Step.bindParameters heap frame parameters arguments).Seated := by
  induction parameters generalizing heap arguments with
  | nil => exact seated
  | cons parameter rest ih =>
    cases arguments with
    | nil => exact seated
    | cons argument others =>
      have fits := Value.fits_of_ordinary (ordinary parameter (.head _)) argument
      have bound : (heap.define frame parameter.text argument).Seated :=
        seated.define fun _ => fits
      exact ih bound fun other member => ordinary other (.tail _ member)

end Heap.Seated

/-! ## Steps -/

/-- Whether `super` was come to where nothing is bound to it. A class that extends what is no class
fails elsewhere, at the name of its superclass. -/
def RuntimeError.IsStraySuper (error : RuntimeError) : Prop :=
  match error.problem with
  | .superOutsideClass => True
  | .superOutsideMethod => True
  | .superclassNotClass => error.token.kind = .keyword .kwSuper
  | _ => False

namespace Step

variable {α β : Type}

/-- A step that keeps heaps seated, and does not fail for a stray `super`. -/
def Seats (step : Step α) (post : α → Prop) : Prop :=
  ∀ machine, machine.heap.Seated →
    (step machine).Ends (·.heap.Seated) post fun error => ¬error.IsStraySuper

namespace Seats

variable {post : α → Prop}

theorem pure {result : α} (holds : post result) : Seats (Pure.pure result) post :=
  fun _ seated => ⟨seated, holds⟩

theorem fail {problem : RuntimeProblem} {token : Token}
    (plain : ¬RuntimeError.IsStraySuper ⟨problem, token⟩) :
    Seats (Step.fail problem token) post :=
  fun _ seated => ⟨seated, plain⟩

theorem bind {first : Step α} {rest : α → Step β} {last : β → Prop} (seats : first.Seats post)
    (further : ∀ result, post result → (rest result).Seats last) : (first >>= rest).Seats last :=
  fun machine seated => ends_bind (seats machine seated) fun result middle seatedMiddle holds =>
    further result holds middle seatedMiddle

/-! ### The heap -/

theorem readHeap {f : Heap → α} (reads : ∀ heap : Heap, heap.Seated → post (f heap)) :
    Seats (Step.readHeap f) post :=
  fun _ seated => ⟨seated, reads _ seated⟩

theorem changeHeap {f : Heap → α × Heap}
    (changes : ∀ heap : Heap, heap.Seated → (f heap).2.Seated) :
    Seats (Step.changeHeap f) fun _ => True :=
  fun _ seated => ⟨changes _ seated, trivial⟩

/-- Reading a function gives one without a parameter named `this` or `super`. -/
theorem function? (id : FunctionId) :
    Seats (Step.readHeap (·.functions[id]?)) fun found => ∀ closure ∈ found,
      ∀ parameter ∈ closure.lambda.parameters, parameter.written.IsOrdinary :=
  readHeap fun _ seated closure known => seated.parameters _ ⟨id, closure, known, rfl⟩

theorem define {name : String} {value : Value} (fits : value.Fits name) :
    Seats (Step.define name value) fun _ => True :=
  fun _ seated => ⟨seated.define fun _ => fits, trivial⟩

theorem addInstance (classId : ClassId) :
    Seats (Step.changeHeap (·.addInstance classId)) fun _ => True :=
  changeHeap fun _ seated => ⟨seated.slots, seated.parameters⟩

theorem addClass (classObject : ClassObject) :
    Seats (Step.changeHeap (·.addClass classObject)) fun _ => True :=
  changeHeap fun _ seated => ⟨seated.slots, seated.parameters⟩

theorem setProperty (object : Value) (name : Name) (value : Value) :
    Seats (Step.setProperty object name value) fun _ => True := by
  cases object with
  | object id => exact fun _ seated => ⟨⟨seated.slots, seated.parameters⟩, trivial⟩
  | _ => exact fail id

/-! ### Names -/

theorem lookUp (name : String) (binding : Binding) (token : Token) :
    Seats (Step.lookUp name binding token) fun _ => True := by
  intro machine seated
  unfold Step.lookUp
  cases machine.heap.lookUp? machine.frame name binding with
  | some value => exact ⟨seated, trivial⟩
  | none => exact ⟨seated, id⟩

theorem assign {name : Name} (ordinary : name.written.IsOrdinary) (binding : Binding)
    (value : Value) : Seats (Step.assign name binding value) fun _ => True := by
  have frame : Seats innermost fun _ => True := fun _ seated => ⟨seated, trivial⟩
  refine bind frame fun frame _ => bind (Seats.changeHeap fun heap seated => ?_) fun bound _ => ?_
  · exact seated.assign (Value.fits_of_ordinary ordinary value) binding
  · split
    · exact pure trivial
    · exact fail id

theorem assignOrDefine {name : Name} (ordinary : name.written.IsOrdinary) (binding : Binding)
    (value : Value) : Seats (Step.assignOrDefine name binding value) fun _ => True := by
  cases binding with
  | global =>
    have fits := Value.fits_of_ordinary ordinary value
    -- Among the globals the value would fit anyway, but the name is ordinary too.
    have defined : Seats (Step.defineGlobal name.text value) fun _ => True :=
      fun _ seated => ⟨seated.define fun _ => fits, trivial⟩
    exact defined
  | lexical distance => exact assign ordinary _ value

/-- The superclass of a class is looked up under its name, where an error is no stray `super`. -/
theorem superclassOf (superclass : Option (Superclass Binding)) :
    Seats (Step.superclassOf superclass) fun _ => True := by
  cases superclass with
  | none => exact pure trivial
  | some parent =>
    refine bind (lookUp _ _ _) fun value _ => ?_
    split
    · exact pure trivial
    · exact fail nofun

/-! ### Operators and calls -/

theorem ofOperands (result : Except OperandProblem α) (token : Token) :
    Seats (Step.ofOperands result token) fun _ => True := by
  cases result with
  | ok value => exact pure trivial
  | error problem => exact fail id

theorem checkArity (expected given : Nat) (paren : Token) :
    Seats (Step.checkArity expected given paren) fun _ => True := by
  unfold Step.checkArity
  split
  · exact pure trivial
  · exact fail id

theorem write (text : String) (paren : Token) :
    Seats (Step.write text paren) fun _ => True := by
  intro machine seated
  unfold Step.write
  obtain ⟨output, _ | _⟩ := machine.output.write text.toUTF8
  · exact ⟨seated, id⟩
  · exact ⟨seated, trivial⟩

theorem callNative (native : NativeId) (arguments : List Value) (paren : Token) :
    Seats (Step.callNative native arguments paren) fun _ => True := by
  have anything : ∀ {γ : Type} (f : Heap → γ), Seats (Step.readHeap f) fun _ => True :=
    fun f => readHeap fun _ _ => trivial
  refine bind (anything _) fun found _ => ?_
  split
  · exact fail id
  · refine bind (checkArity _ _ _) fun _ _ => bind (anything _) fun reply _ => ?_
    split
    · exact pure trivial
    · exact fail id
    · exact bind (write _ _) fun _ _ => pure trivial
    · have clock : Seats readClock fun _ => True := fun _ seated => ⟨seated, trivial⟩
      exact bind clock fun _ _ => pure trivial

theorem callResult (closure : Closure) (flow : Flow) :
    Seats (Step.callResult closure flow) fun _ => True := by
  unfold Step.callResult
  split
  · exact readHeap fun _ _ => trivial
  · cases flow with
    | normal | returns line value => exact pure trivial
    | breaks line | continues line => exact fail id

end Seats

end Step

end Lox
