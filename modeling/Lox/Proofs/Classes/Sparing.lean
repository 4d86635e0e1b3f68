import Lox.Proofs.Classes.Presence
import Lox.Proofs.Jobs.Job

/-!
# Steps that spare classes and instances

All steps of the machine but three leave classes and instances as they are: what they come to is there,
and so is everything that is led to from the scope that they leave.
-/

namespace Lox

/-- The innermost scope is there, and everything in the heap leads to what is there. -/
structure Machine.Steady (machine : Machine) : Prop where
  intact : machine.heap.Intact
  inside : ¬(Node.frame machine.frame).IsNew machine.heap

/-- The second machine is what became of the first while nothing was done to classes and instances. -/
structure Machine.Spares (machine after : Machine) : Prop where
  heap : machine.heap.Spares after.heap
  inside : ¬(Node.frame after.frame).IsNew after.heap

namespace Machine

variable {machine after last : Machine}

theorem Spares.steady (spares : machine.Spares after) : after.Steady := ⟨spares.heap.intact, spares.inside⟩

theorem Spares.refl (steady : machine.Steady) : machine.Spares machine :=
  ⟨.refl steady.intact, steady.inside⟩

theorem Spares.trans (first : machine.Spares after) (second : after.Spares last) : machine.Spares last :=
  ⟨first.heap.trans second.heap, second.inside⟩

/-- Changes to the heap alone. -/
theorem Spares.ofHeap {heap : Heap} (steady : machine.Steady) (spares : machine.heap.Spares heap) :
    machine.Spares { machine with heap := heap } :=
  ⟨spares, fun new => steady.inside (spares.retains.isNew new)⟩

theorem Steady.enter (steady : machine.Steady) : machine.Spares machine.enter :=
  ⟨steady.intact.addFrame steady.inside,
    Nat.not_le_of_lt (machine.heap.environment.size_lt_size_child machine.frame)⟩

theorem Steady.leave (steady : machine.Steady) : machine.Spares machine.leave := by
  refine ⟨.refl steady.intact, ?_⟩
  change ¬(Node.frame ((machine.heap.environment.enclosing? machine.frame).getD _)).IsNew machine.heap
  cases lies : machine.heap.environment.enclosing? machine.frame with
  | none => exact steady.inside
  | some outer => exact steady.intact.links _ _ (.enclosing lies)

/-- In the body of a function that is there, called with arguments that are. -/
theorem Steady.enterCall {closure : Closure} {arguments : List Value} (steady : machine.Steady)
    (inside : ¬(Node.frame closure.frame).IsNew machine.heap)
    (known : ∀ argument ∈ arguments, machine.heap.Knows argument) :
    machine.Spares (machine.enterCall closure arguments) := by
  have opened := steady.intact.addFrame inside
  have bound := opened.intact.bindParameters machine.heap.environment.size closure.lambda.parameters
    fun argument member => (known argument member).later opened.retains
  refine ⟨opened.trans bound, ?_⟩
  exact Nat.not_le_of_lt (Step.size_lt_size_enterCall closure arguments machine)

end Machine

/-! ## Outcomes -/

/-- What holds of a result and of the machine that is left with it, and of the machine after an error. -/
def Outcome.Meets {α : Type} (post : α → Machine → Prop) (broken : Machine → Prop) : Outcome α → Prop
  | finished result after => post result after
  | failed _ after => broken after
  | outOfFuel => True

section

variable {α β : Type} {machine : Machine} {outcome : Outcome α} {post weaker : α → Machine → Prop}
  {broken looser : Machine → Prop}

theorem Outcome.Meets.mono (meets : outcome.Meets post broken)
    (results : ∀ result after, post result after → weaker result after)
    (errors : ∀ after, broken after → looser after) : outcome.Meets weaker looser := by
  cases outcome with
  | finished result after => exact results result after meets
  | failed error after => exact errors after meets
  | outOfFuel => trivial

theorem Outcome.Meets.mapMachine {change : Machine → Machine} (meets : outcome.Meets post broken)
    (results : ∀ result after, post result after → weaker result (change after))
    (errors : ∀ after, broken after → looser (change after)) :
    (outcome.mapMachine change).Meets weaker looser := by
  cases outcome with
  | finished result after => exact results result after meets
  | failed error after => exact errors after meets
  | outOfFuel => trivial

theorem Step.meets_bind {first : Step α} {rest : α → Step β} {last : β → Machine → Prop}
    (meets : (first machine).Meets post broken)
    (further : ∀ result after, post result after → (rest result after).Meets last broken) :
    ((first >>= rest) machine).Meets last broken := by
  cases outcome : first machine with
  | finished result after =>
    rw [outcome] at meets
    rw [bind_of_finished outcome]
    exact further result after meets
  | failed error after =>
    rw [outcome] at meets
    rw [bind_of_failed outcome]
    exact meets
  | outOfFuel =>
    rw [bind_of_outOfFuel outcome]
    trivial

end

namespace Step

variable {α β : Type} {machine : Machine}

/-- Taken on this machine the step spares classes and instances, and a result meets the postcondition in
the heap that is left. -/
def Spares (step : Step α) (machine : Machine) (post : α → Heap → Prop) : Prop :=
  machine.Steady →
    (step machine).Meets (fun result after => machine.Spares after ∧ post result after.heap) machine.Spares

namespace Spares

variable {post : α → Heap → Prop} {last : β → Heap → Prop}

theorem pure {result : α} (holds : post result machine.heap) : Spares (Pure.pure result) machine post :=
  fun steady => ⟨.refl steady, holds⟩

theorem fail (problem : RuntimeProblem) (token : Token) : Spares (Step.fail problem token) machine post :=
  fun steady => .refl steady

theorem bind {first : Step α} {rest : α → Step β} (spares : first.Spares machine post)
    (further : ∀ result middle, machine.Spares middle → post result middle.heap →
      (rest result).Spares middle last) : (first >>= rest).Spares machine last := by
  intro steady
  refine meets_bind (spares steady) fun result middle early => ?_
  refine (further result middle early.1 early.2 early.1.steady).mono (fun value after late => ?_)
    fun after late => early.1.trans late
  exact ⟨early.1.trans late.1, late.2⟩

theorem inScope {step : Step α} (spares : step.Spares machine.enter post) :
    (Step.inScope step).Spares machine post := by
  intro steady
  have leaves : ∀ after, machine.enter.Spares after → machine.Spares after.leave :=
    fun after inner => steady.enter.trans (inner.trans inner.steady.leave)
  rw [inScope_eq]
  exact (spares steady.enter.steady).mapMachine (fun result after inner => ⟨leaves after inner.1, inner.2⟩) leaves

/-! ### The heap -/

theorem innermost : Step.innermost.Spares machine fun _ _ => True := fun steady => ⟨.refl steady, trivial⟩

theorem readHeap (post : α → Heap → Prop) {f : Heap → α} (reads : machine.heap.Intact → post (f machine.heap) machine.heap) :
    (Step.readHeap f).Spares machine post :=
  fun steady => ⟨.refl steady, reads steady.intact⟩

theorem changeHeap (post : α → Heap → Prop) {f : Heap → α × Heap} (changes : machine.heap.Intact →
    machine.heap.Spares (f machine.heap).2 ∧ post (f machine.heap).1 (f machine.heap).2) :
    (Step.changeHeap f).Spares machine post :=
  fun steady => ⟨.ofHeap steady (changes steady.intact).1, (changes steady.intact).2⟩

theorem define {value : Value} (name : String) (knows : machine.heap.Knows value) :
    (Step.define name value).Spares machine fun _ _ => True :=
  fun steady => ⟨.ofHeap steady (steady.intact.define _ name knows), trivial⟩

theorem close (name : Option String) (lambda : Lambda Binding) (isInitializer : Bool) :
    (Step.close name lambda isInitializer).Spares machine fun id heap =>
      ¬(Node.function id).IsNew heap :=
  fun steady => ⟨.ofHeap steady (steady.intact.addFunction _ steady.inside), Heap.there_addFunction _ _⟩

theorem bindMethod {method : FunctionId} {receiver : InstanceId}
    (there : ¬(Node.function method).IsNew machine.heap)
    (known : machine.heap.Knows (.object receiver)) :
    (Step.changeHeap (·.bindMethod method receiver)).Spares machine fun id heap =>
      ¬(Node.function id).IsNew heap :=
  changeHeap _ fun intact => intact.bindMethod there known

/-! ### Names -/

theorem lookUp (name : String) (binding : Binding) (token : Token) :
    (Step.lookUp name binding token).Spares machine fun value heap => heap.Knows value := by
  intro steady
  unfold Step.lookUp
  cases found : machine.heap.lookUp? machine.frame name binding with
  | some value => exact ⟨.refl steady, steady.intact.lookUp? found⟩
  | none => exact .refl steady

theorem assign (name : Name) (binding : Binding) {value : Value} (knows : machine.heap.Knows value) :
    (Step.assign name binding value).Spares machine fun _ _ => True := by
  refine bind innermost fun frame middle spares _ => ?_
  refine bind (changeHeap (fun _ _ => True) fun intact =>
    ⟨intact.assign name.text (knows.later spares.heap.retains) binding, trivial⟩) fun bound _ _ _ => ?_
  split
  · exact pure trivial
  · exact fail _ _

theorem assignOrDefine (name : Name) (binding : Binding) {value : Value}
    (knows : machine.heap.Knows value) :
    (Step.assignOrDefine name binding value).Spares machine fun _ _ => True := by
  cases binding with
  | global => exact fun steady => ⟨.ofHeap steady (steady.intact.define _ name.text knows), trivial⟩
  | lexical distance => exact assign name _ knows

theorem declareFunction (name : Name) (lambda : Lambda Binding) :
    (Step.declareFunction name lambda).Spares machine fun _ _ => True := by
  refine bind (define _ (Heap.knows_of_node?_eq_none rfl)) fun _ _ _ _ => ?_
  exact bind (close _ _ _) fun id _ _ there => define _ (Heap.knows_function there)

theorem superclassOf (superclass : Option (Superclass Binding)) :
    (Step.superclassOf superclass).Spares machine fun parent heap =>
      ∀ id ∈ parent, ¬(Node.classObject id).IsNew heap := by
  cases superclass with
  | none => exact pure nofun
  | some parent =>
    refine bind (lookUp _ _ _) fun value middle _ knows => ?_
    split
    · refine pure fun other same => ?_
      cases same
      exact knows _ rfl
    · exact fail _ _

/-! ### Properties -/

theorem getProperty {id : InstanceId} (known : machine.heap.Knows (.object id)) (name : Name) :
    (Step.getProperty id name).Spares machine fun value heap => heap.Knows value := by
  intro steady
  unfold Step.getProperty
  cases held : machine.heap.field? id name.text with
  | some value => exact ⟨.refl steady, steady.intact.field? held⟩
  | none =>
    dsimp only
    cases found : (machine.heap.instances[id]?).bind fun i =>
        machine.heap.findMethod? name.text i.classId with
    | some method =>
      obtain ⟨i, _, isMethod⟩ := Option.bind_eq_some_iff.mp found
      have bound := steady.intact.bindMethod (steady.intact.findMethod? isMethod) known
      exact ⟨.ofHeap steady bound.1, Heap.knows_function bound.2⟩
    | none => exact .refl steady

theorem superParts (line : Nat) (binding : Binding) :
    (Step.superParts line binding).Spares machine fun parts heap => heap.Knows (.object parts.2) := by
  intro steady
  unfold Step.superParts
  cases binding with
  | global => exact .refl steady
  | lexical distance =>
    dsimp only
    split
    · cases distance with
      | zero => exact .refl steady
      | succ inner =>
        dsimp only
        split
        · next id foundThis => exact ⟨.refl steady, steady.intact.lookUp? foundThis⟩
        · exact .refl steady
    · exact .refl steady

theorem superProperty (line : Nat) (binding : Binding) (method : Name) :
    (Step.superProperty line binding method).Spares machine fun value heap => heap.Knows value := by
  refine bind (superParts line binding) fun (superclass, receiver) middle _ known => ?_
  refine bind (readHeap (fun found heap => heap.Knows (.object receiver) ∧
      ∀ id ∈ found, ¬(Node.function id).IsNew heap) fun intact =>
        ⟨known, fun id found => intact.findMethod? found⟩) fun found last _ there => ?_
  split
  · next id =>
    exact bind (bindMethod (there.2 id rfl) there.1) fun bound _ _ made => pure (Heap.knows_function made)
  · exact bind (readHeap (fun _ _ => True) fun _ => trivial) fun _ _ _ _ => fail _ _

/-! ### Operators and calls -/

theorem ofOperands {result : Except OperandProblem Value} (token : Token)
    (data : ∀ value, result = .ok value → value.node? = none) :
    (Step.ofOperands result token).Spares machine fun value heap => heap.Knows value := by
  cases result with
  | ok value => exact pure (Heap.knows_of_node?_eq_none (data value rfl))
  | error problem => exact fail _ _

theorem checkArity (expected given : Nat) (paren : Token) :
    (Step.checkArity expected given paren).Spares machine fun _ _ => True := by
  unfold Step.checkArity
  split
  · exact pure trivial
  · exact fail _ _

theorem callResult (closure : Closure) {flow : Flow} (knows : machine.heap.KnowsFlow flow) :
    (Step.callResult closure flow).Spares machine fun value heap => heap.Knows value := by
  unfold Step.callResult
  split
  · refine readHeap _ fun intact => ?_
    cases found : machine.heap.environment.getAt? closure.frame 0 thisName with
    | none => exact Heap.knows_of_node?_eq_none rfl
    | some value =>
      obtain ⟨ancestor, _, held⟩ := Option.bind_eq_some_iff.mp found
      exact intact.slot held
  · cases flow with
    | normal => exact pure (Heap.knows_of_node?_eq_none rfl)
    | returns line value => exact pure knows
    | breaks line | continues line => exact fail _ _

theorem write (text : String) (paren : Token) :
    (Step.write text paren).Spares machine fun _ _ => True := by
  intro steady
  unfold Step.write
  split
  · exact ⟨⟨.refl steady.intact, steady.inside⟩, trivial⟩
  · exact ⟨.refl steady.intact, steady.inside⟩

theorem perform {native : Native} {arguments : List Value} (paren : Token) (discreet : native.Discreet)
    (known : ∀ argument ∈ arguments, machine.heap.Knows argument) :
    (Step.perform native arguments paren).Spares machine fun value heap => heap.Knows value := by
  refine bind (readHeap (fun reply heap => ∀ value, reply = .value value → heap.Knows value)
    fun _ value replied node denotes => ?_) fun reply middle _ knows => ?_
  · have given := discreet _ _ _ replied (Option.isSome_iff_exists.mpr ⟨node, denotes⟩)
    exact known value given node denotes
  · have data : ∀ heap : Heap, heap.Knows .nil := fun _ => Heap.knows_of_node?_eq_none rfl
    split
    · exact pure (knows _ rfl)
    · exact fail _ _
    · exact bind (write _ _) fun _ _ _ _ => pure (data _)
    · have clock : Step.readClock.Spares middle fun _ _ => True :=
        fun steady => ⟨⟨.refl steady.intact, steady.inside⟩, trivial⟩
      exact bind clock fun _ _ _ _ => pure (Heap.knows_of_node?_eq_none rfl)

end Spares

end Step

end Lox
