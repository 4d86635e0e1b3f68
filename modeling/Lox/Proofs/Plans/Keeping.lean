import Lox.Proofs.Sessions.Endings

/-!
# What steps leave as it was

The innermost scope and the number of calls in progress are the dynamic context of a run. A step
that neither opens a scope nor calls a function leaves both alone, and it neither moves a frame to
another place nor changes a function that was made. Such a step is *tame* if in addition it makes
functions only from declarations that were made into functions before, and fails only for a reason
of its own: never because a signal arrived where nothing waits for it.
-/

namespace Lox

/-! ## Environments that grow -/

/-- More frames, and each of those before where it was. -/
structure Environment.Extends {α : Type} (env later : Environment α) : Prop where
  size : env.size ≤ later.size
  enclosing : ∀ frame, frame < env.size → later.enclosing? frame = env.enclosing? frame

namespace Environment.Extends

variable {α : Type} {env later latest : Environment α}

theorem refl (env : Environment α) : env.Extends env := ⟨Nat.le_refl _, fun _ _ => rfl⟩

theorem trans (first : env.Extends later) (second : later.Extends latest) : env.Extends latest :=
  ⟨Nat.le_trans first.size second.size, fun frame made =>
    (second.enclosing frame (Nat.lt_of_lt_of_le made first.size)).trans
      (first.enclosing frame made)⟩

theorem child (env : Environment α) (frame : FrameId) : env.Extends (env.child frame) := by
  refine ⟨by simp [size_child], fun other made => ?_⟩
  rw [enclosing?_child, if_neg (Nat.ne_of_lt made)]

theorem define (env : Environment α) (frame : FrameId) (name : String) (value : α) :
    env.Extends (env.define frame name value) :=
  ⟨by simp [size_define], fun other _ => enclosing?_define env frame name value other⟩

theorem assign (env : Environment α) (frame : FrameId) (name : String) (value : α) :
    env.Extends (env.assign frame name value).2 := by
  unfold Environment.assign
  split
  · exact .refl env
  · exact .define env _ name value

theorem assignAt (env : Environment α) (frame : FrameId) (distance : Nat) (name : String)
    (value : α) : env.Extends (env.assignAt frame distance name value).2 := by
  unfold Environment.assignAt
  split
  · exact .refl env
  · split
    · exact .define env _ name value
    · exact .refl env

end Environment.Extends

/-! ## Heaps that grow -/

/-- Whether a declaration was made into a function. -/
def Heap.Holds (heap : Heap) (lambda : Lambda Binding) : Prop :=
  ∃ (id : FunctionId) (closure : Closure), heap.functions[id]? = some closure ∧
    closure.lambda = lambda

/-- More frames and functions, and those before as they were. -/
structure Heap.Extends (heap later : Heap) : Prop where
  environment : heap.environment.Extends later.environment
  functions : ∀ (id : FunctionId) (closure : Closure), heap.functions[id]? = some closure →
    later.functions[id]? = some closure

namespace Heap

variable {heap later latest : Heap}

namespace Extends

theorem refl (heap : Heap) : heap.Extends heap := ⟨.refl _, fun _ _ found => found⟩

theorem trans (first : heap.Extends later) (second : later.Extends latest) :
    heap.Extends latest :=
  ⟨first.environment.trans second.environment, fun id closure found =>
    second.functions id closure (first.functions id closure found)⟩

/-- Changes to the environment alone. -/
theorem ofEnvironment {environment : Environment Value}
    (grows : heap.environment.Extends environment) :
    heap.Extends { heap with environment := environment } :=
  ⟨grows, fun _ _ found => found⟩

theorem addFunction (heap : Heap) (closure : Closure) :
    heap.Extends (heap.addFunction closure).2 := by
  refine ⟨.refl _, fun id known found => ?_⟩
  change (heap.functions.push closure)[id]? = some known
  -- The new function stands behind those that were there.
  have made := (Array.getElem?_eq_some_iff.mp found).1
  rwa [Array.getElem?_push, if_neg (Nat.ne_of_lt made)]

theorem bindMethod (heap : Heap) (method : FunctionId) (receiver : InstanceId) :
    heap.Extends (heap.bindMethod method receiver).2 := by
  unfold Heap.bindMethod
  split
  · exact .refl heap
  · next closure _ =>
    -- A frame is opened, the instance is bound in it, and the method is closed over it once more.
    have opened : heap.Extends (heap.addFrame closure.frame).2 :=
      .ofEnvironment (.child _ _)
    have bound : heap.Extends ((heap.addFrame closure.frame).2.define heap.environment.size
        thisName (.object receiver)) := opened.trans (.ofEnvironment (.define _ _ _ _))
    exact bound.trans (.addFunction _ _)

end Extends

/-- A new function is made from its declaration; the others are as before. -/
theorem Holds.of_addFunction {closure : Closure} {lambda : Lambda Binding}
    (holds : (heap.addFunction closure).2.Holds lambda) :
    heap.Holds lambda ∨ lambda = closure.lambda := by
  obtain ⟨id, known, found, rfl⟩ := holds
  change (heap.functions.push closure)[id]? = some known at found
  rw [Array.getElem?_push] at found
  split at found
  · cases found
    exact .inr rfl
  · exact .inl ⟨id, known, found, rfl⟩

/-- A method that is bound is made from the same declaration once more. -/
theorem Holds.of_bindMethod {method : FunctionId} {receiver : InstanceId}
    {lambda : Lambda Binding} (holds : (heap.bindMethod method receiver).2.Holds lambda) :
    heap.Holds lambda := by
  unfold Heap.bindMethod at holds
  split at holds
  · exact holds
  · next closure found =>
    cases Holds.of_addFunction holds with
    | inl before => exact before
    -- The bound method is made from the declaration of the method that it binds.
    | inr same => exact ⟨method, closure, found, same.symm⟩

end Heap

/-! ## Machines -/

/-- The dynamic context is as it was, and so is whatever was made before. -/
structure Machine.Keeps (machine after : Machine) : Prop where
  frame : after.frame = machine.frame
  depth : after.depth = machine.depth
  heap : machine.heap.Extends after.heap

namespace Machine.Keeps

variable {machine after last : Machine}

theorem refl (machine : Machine) : machine.Keeps machine := ⟨rfl, rfl, .refl _⟩

theorem trans (first : machine.Keeps after) (second : after.Keeps last) : machine.Keeps last :=
  ⟨second.frame.trans first.frame, second.depth.trans first.depth, first.heap.trans second.heap⟩

end Machine.Keeps

/-- Besides, functions are made only from declarations that were made into functions before. -/
structure Machine.Reuses (machine after : Machine) : Prop where
  keeps : machine.Keeps after
  reused : ∀ lambda, after.heap.Holds lambda → machine.heap.Holds lambda

namespace Machine.Reuses

variable {machine after last : Machine}

theorem refl (machine : Machine) : machine.Reuses machine := ⟨.refl _, fun _ holds => holds⟩

theorem trans (first : machine.Reuses after) (second : after.Reuses last) :
    machine.Reuses last :=
  ⟨first.keeps.trans second.keeps, fun lambda holds =>
    first.reused lambda (second.reused lambda holds)⟩

/-- Changes to the heap alone. -/
theorem ofHeap {heap : Heap} (grows : machine.heap.Extends heap)
    (reused : ∀ lambda, heap.Holds lambda → machine.heap.Holds lambda) :
    machine.Reuses { machine with heap := heap } :=
  ⟨⟨rfl, rfl, grows⟩, reused⟩

end Machine.Reuses

/-! ## How steps end -/

/-- What holds of the end of a step, if it has one: of the machine that is left, and of the result
or of the error. -/
def Outcome.Ends {α : Type} (left : Machine → Prop) (post : α → Prop)
    (plain : RuntimeError → Prop) : Outcome α → Prop
  | finished result after => left after ∧ post result
  | failed error after => left after ∧ plain error
  | outOfFuel => True

section

variable {α β : Type} {machine : Machine} {left inner : Machine → Prop}
  {plain looser : RuntimeError → Prop}

namespace Outcome.Ends

variable {outcome : Outcome α} {post weaker : α → Prop}

theorem mono (ends : outcome.Ends inner post plain) (leaves : ∀ after, inner after → left after) :
    outcome.Ends left post plain := by
  cases outcome with
  | finished result after => exact ⟨leaves after ends.1, ends.2⟩
  | failed error after => exact ⟨leaves after ends.1, ends.2⟩
  | outOfFuel => trivial

theorem weaken (ends : outcome.Ends left post plain)
    (results : ∀ result, post result → weaker result)
    (errors : ∀ error, plain error → looser error) : outcome.Ends left weaker looser := by
  cases outcome with
  | finished result after => exact ⟨ends.1, results result ends.2⟩
  | failed error after => exact ⟨ends.1, errors error ends.2⟩
  | outOfFuel => trivial

theorem mapMachine {change : Machine → Machine} (ends : outcome.Ends inner post plain)
    (leaves : ∀ after, inner after → left (change after)) :
    (outcome.mapMachine change).Ends left post plain := by
  cases outcome with
  | finished result after => exact ⟨leaves after ends.1, ends.2⟩
  | failed error after => exact ⟨leaves after ends.1, ends.2⟩
  | outOfFuel => trivial

theorem of_machine? {after : Machine} (ends : outcome.Ends left post plain)
    (leaves : outcome.machine? = some after) : left after := by
  cases outcome with
  | finished result machine =>
    cases leaves
    exact ends.1
  | failed error machine =>
    cases leaves
    exact ends.1
  | outOfFuel => cases leaves

end Outcome.Ends

namespace Step

theorem ends_bind {first : Step α} {rest : α → Step β} {post : α → Prop} {last : β → Prop}
    (ends : (first machine).Ends left post plain)
    (further : ∀ result middle, left middle → post result →
      (rest result middle).Ends left last plain) :
    ((first >>= rest) machine).Ends left last plain := by
  cases outcome : first machine with
  | finished result middle =>
    rw [outcome] at ends
    rw [bind_of_finished outcome]
    exact further result middle ends.1 ends.2
  | failed error middle =>
    rw [outcome] at ends
    rw [bind_of_failed outcome]
    exact ends
  | outOfFuel =>
    rw [bind_of_outOfFuel outcome]
    trivial

/-- A step that runs in a scope of its own ends as it ends there, but for the scope. -/
theorem ends_inScope {step : Step α} {post : α → Prop}
    (ends : (step machine.enter).Ends inner post plain)
    (leaves : ∀ after, inner after → left after.leave) :
    (inScope step machine).Ends left post plain := by
  rw [inScope_eq]
  exact ends.mapMachine leaves

end Step

end

/-! ## Tame steps -/

/-- Whether a run ended because a signal arrived where nothing waits for it. -/
def RuntimeProblem.IsSignal : RuntimeProblem → Prop
  | outsideLoop _ => True
  | returnFromTopLevel => True
  | _ => False

namespace Step

variable {α β : Type}

def Tame (step : Step α) : Prop :=
  ∀ machine, (step machine).Ends machine.Reuses (fun _ => True) fun error =>
    ¬error.problem.IsSignal

namespace Tame

theorem pure (result : α) : Tame (pure result) := fun machine => ⟨.refl machine, trivial⟩

theorem fail {problem : RuntimeProblem} (plain : ¬problem.IsSignal) (token : Token) :
    Tame (fail problem token : Step α) :=
  fun machine => ⟨.refl machine, plain⟩

theorem bind {step : Step α} {continuation : α → Step β} (first : step.Tame)
    (second : ∀ result, (continuation result).Tame) : (step >>= continuation).Tame := by
  intro machine
  refine ends_bind (first machine) fun result middle reuses _ => ?_
  exact (second result middle).mono fun _ => reuses.trans

theorem ofOperands (result : Except OperandProblem α) (token : Token) :
    Tame (ofOperands result token) := by
  cases result with
  | ok value => exact pure value
  | error problem => exact fail id token

/-! ### The heap -/

theorem innermost : Tame innermost := fun machine => ⟨.refl machine, trivial⟩

theorem readHeap (f : Heap → α) : Tame (readHeap f) := fun machine => ⟨.refl machine, trivial⟩

theorem changeHeap {f : Heap → α × Heap} (grows : ∀ heap : Heap, heap.Extends (f heap).2)
    (reused : ∀ (heap : Heap) lambda, (f heap).2.Holds lambda → heap.Holds lambda) :
    Tame (Step.changeHeap f) :=
  fun _ => ⟨.ofHeap (grows _) (reused _), trivial⟩

theorem define (name : String) (value : Value) : Tame (define name value) :=
  fun _ => ⟨.ofHeap (.ofEnvironment (.define _ _ _ _)) fun _ holds => holds, trivial⟩

theorem defineGlobal (name : String) (value : Value) : Tame (defineGlobal name value) :=
  changeHeap (fun _ => .ofEnvironment (.define _ _ _ _)) fun _ _ holds => holds

theorem addInstance (classId : ClassId) : Tame (Step.changeHeap (·.addInstance classId)) :=
  changeHeap (fun _ => ⟨.refl _, fun _ _ found => found⟩) fun _ _ holds => holds

theorem addClass (classObject : ClassObject) : Tame (Step.changeHeap (·.addClass classObject)) :=
  changeHeap (fun _ => ⟨.refl _, fun _ _ found => found⟩) fun _ _ holds => holds

theorem setField (id : InstanceId) (name : String) (value : Value) :
    Tame (Step.changeHeap fun heap => ((), heap.setField id name value)) :=
  changeHeap (fun _ => ⟨.refl _, fun _ _ found => found⟩) fun _ _ holds => holds

theorem bindMethod (method : FunctionId) (receiver : InstanceId) :
    Tame (Step.changeHeap (·.bindMethod method receiver)) :=
  changeHeap (fun heap => .bindMethod heap method receiver) fun _ _ => Heap.Holds.of_bindMethod

/-! ### Names -/

theorem lookUp (name : String) (binding : Binding) (token : Token) :
    Tame (lookUp name binding token) := by
  intro machine
  unfold Step.lookUp
  split
  · exact ⟨.refl machine, trivial⟩
  · exact ⟨.refl machine, id⟩

theorem assign (name : Name) (binding : Binding) (value : Value) :
    Tame (assign name binding value) := by
  refine bind innermost fun frame => bind (Tame.changeHeap ?_ ?_) fun bound => ?_
  · intro heap
    cases binding with
    | global => exact .ofEnvironment (.assign _ _ _ _)
    | lexical distance => exact .ofEnvironment (.assignAt _ _ _ _ _)
  · intro heap lambda holds
    cases binding <;> exact holds
  · split
    · exact pure ()
    · exact fail id _

theorem assignOrDefine (name : Name) (binding : Binding) (value : Value) :
    Tame (assignOrDefine name binding value) := by
  cases binding with
  | global => exact defineGlobal _ _
  | lexical distance => exact assign name _ value

/-! ### Properties -/

theorem getProperty (id : InstanceId) (name : Name) : Tame (getProperty id name) := by
  intro machine
  unfold Step.getProperty
  cases machine.heap.field? id name.text with
  | some value => exact ⟨.refl machine, trivial⟩
  | none =>
    dsimp only
    cases (machine.heap.instances[id]?).bind fun i =>
        machine.heap.findMethod? name.text i.classId with
    | some method =>
      exact ⟨.ofHeap (.bindMethod _ _ _) fun _ => Heap.Holds.of_bindMethod, trivial⟩
    | none => exact ⟨.refl machine, nofun⟩

theorem setProperty (object : Value) (name : Name) (value : Value) :
    Tame (setProperty object name value) := by
  cases object with
  | object id => exact setField id name.text value
  | _ => exact fail id _

theorem superParts (line : Nat) (binding : Binding) : Tame (superParts line binding) := by
  intro machine
  unfold Step.superParts
  repeat' split
  all_goals first
    | exact ⟨.refl machine, trivial⟩
    | exact ⟨.refl machine, nofun⟩

theorem superProperty (line : Nat) (binding : Binding) (method : Name) :
    Tame (superProperty line binding method) := by
  refine bind (superParts line binding) fun (superclass, receiver) => ?_
  refine bind (readHeap _) fun found => ?_
  split
  · exact bind (bindMethod _ _) fun _ => pure _
  · exact bind (readHeap _) fun _ => fail id _

theorem superclassOf (superclass : Option (Superclass Binding)) :
    Tame (superclassOf superclass) := by
  cases superclass with
  | none => exact pure none
  | some parent =>
    refine bind (lookUp _ _ _) fun value => ?_
    split
    · exact pure _
    · exact fail id _

/-! ### Calls -/

theorem checkArity (expected given : Nat) (paren : Token) :
    Tame (checkArity expected given paren) := by
  unfold Step.checkArity
  split
  · exact pure ()
  · exact fail id paren

theorem write (text : String) (paren : Token) : Tame (write text paren) := by
  intro machine
  unfold Step.write
  split
  · exact ⟨⟨⟨rfl, rfl, .refl _⟩, fun _ holds => holds⟩, trivial⟩
  · exact ⟨⟨⟨rfl, rfl, .refl _⟩, fun _ holds => holds⟩, id⟩

theorem readClock : Tame readClock :=
  fun _ => ⟨⟨⟨rfl, rfl, .refl _⟩, fun _ holds => holds⟩, trivial⟩

theorem callNative (native : NativeId) (arguments : List Value) (paren : Token) :
    Tame (callNative native arguments paren) := by
  refine bind (readHeap _) fun found => ?_
  split
  · exact fail id paren
  · refine bind (checkArity _ _ _) fun _ => bind (readHeap _) fun reply => ?_
    split
    · exact pure _
    · exact fail id paren
    · exact bind (write _ _) fun _ => pure _
    · exact bind readClock fun _ => pure _

end Tame

end Step

end Lox
