import Lox.Proofs.Reach.Calls

/-!
# What is there

Values denote what has been made. So whatever a value leads to through the heap was there when the value
was given, and it stays there. A step spares classes and instances if it leaves them as they are and
everything in the heap leads to what is there still; the steps that do are gone through one by one.
-/

namespace Lox

/-! ## Heaps -/

/-- What the value denotes is there. -/
def Heap.Knows (heap : Heap) (value : Value) : Prop :=
  ∀ node, value.node? = some node → ¬node.IsNew heap

/-- What a statement ends with is there. -/
def Heap.KnowsFlow (heap : Heap) : Flow → Prop
  | .returns _ value => heap.Knows value
  | _ => True

/-- Everything leads to what is there, and no routine gives back what it was not given. -/
structure Heap.Intact (heap : Heap) : Prop where
  globals : ¬(Node.frame Heap.globals).IsNew heap
  links : ∀ node next, heap.Leads node next → ¬next.IsNew heap
  discreet : heap.Discreet

/-- The second heap is what became of the first while nothing was done to classes and instances. -/
structure Heap.Spares (heap later : Heap) : Prop where
  retains : heap.Retains later
  intact : later.Intact
  classes : later.classes = heap.classes
  instances : later.instances = heap.instances

namespace Heap

variable {heap after last : Heap} {value : Value}

theorem knows_of_node?_eq_none (data : value.node? = none) : heap.Knows value := by
  intro node denotes
  rw [data] at denotes
  cases denotes

theorem knows_function {id : FunctionId} (there : ¬(Node.function id).IsNew heap) :
    heap.Knows (.function id) := by
  rintro node ⟨⟩
  exact there

theorem knows_classObject {id : ClassId} (there : ¬(Node.classObject id).IsNew heap) :
    heap.Knows (.classObject id) := by
  rintro node ⟨⟩
  exact there

theorem knows_object {id : InstanceId} (there : ¬(Node.object id).IsNew heap) :
    heap.Knows (.object id) := by
  rintro node ⟨⟩
  exact there

theorem there_addFunction (heap : Heap) (closure : Closure) :
    ¬(Node.function (heap.addFunction closure).1).IsNew (heap.addFunction closure).2 := by
  simp [Node.IsNew, Heap.addFunction]

theorem there_addClass (heap : Heap) (classObject : ClassObject) :
    ¬(Node.classObject (heap.addClass classObject).1).IsNew (heap.addClass classObject).2 := by
  simp [Node.IsNew, Heap.addClass]

theorem there_addInstance (heap : Heap) (classId : ClassId) :
    ¬(Node.object (heap.addInstance classId).1).IsNew (heap.addInstance classId).2 := by
  simp [Node.IsNew, Heap.addInstance]

theorem Knows.later (knows : heap.Knows value) (retains : heap.Retains after) : after.Knows value :=
  fun node denotes new => knows node denotes (retains.isNew new)

namespace Spares

theorem refl (intact : heap.Intact) : heap.Spares heap := ⟨.refl heap, intact, rfl, rfl⟩

theorem trans (first : heap.Spares after) (second : after.Spares last) : heap.Spares last :=
  ⟨first.retains.trans second.retains, second.intact, second.classes.trans first.classes,
    second.instances.trans first.instances⟩

end Spares

namespace Intact

variable (intact : heap.Intact)

include intact

/-- Links that are new lead to what is there. -/
theorem of_links (retains : heap.Retains after) (links : ∀ node next, after.Leads node next →
    heap.Leads node next ∨ ¬next.IsNew after) : after.Intact where
  globals new := intact.globals (retains.isNew new)
  links node next leads := (links node next leads).elim
    (fun before new => intact.links node next before (retains.isNew new)) id
  discreet := fun id native found => intact.discreet id native (retains.natives ▸ found)

/-! ### Reading -/

theorem slot {frame : FrameId} {name : String} (found : heap.environment.slot? frame name = some value) :
    heap.Knows value :=
  fun node denotes => intact.links _ node (.slot found denotes)

theorem lookUp? {frame : FrameId} {name : String} {binding : Binding}
    (found : heap.lookUp? frame name binding = some value) : heap.Knows value := by
  cases binding with
  | global =>
    obtain ⟨holder, _, held⟩ := Option.bind_eq_some_iff.mp found
    exact intact.slot held
  | lexical distance =>
    obtain ⟨ancestor, _, held⟩ := Option.bind_eq_some_iff.mp found
    exact intact.slot held

theorem field? {id : InstanceId} {name : String} (found : heap.field? id name = some value) :
    heap.Knows value := by
  obtain ⟨i, there, named⟩ := Option.bind_eq_some_iff.mp found
  exact fun node denotes => intact.links _ node (.field there named denotes)

theorem findMethod? {name : String} {classId : ClassId} {method : FunctionId}
    (found : heap.findMethod? name classId = some method) : ¬(Node.function method).IsNew heap := by
  replace found := provides_of_findMethod? found
  induction found with
  | own known own => exact intact.links _ _ (.method known own)
  | inherited _ _ _ _ ih => exact ih

/-! ### Writing -/

theorem define (frame : FrameId) (name : String) (knows : heap.Knows value) :
    heap.Spares (heap.define frame name value) := by
  have retains : heap.Retains (heap.define frame name value) := .ofEnvironment (.define _ _ _ _)
  refine ⟨retains, intact.of_links retains fun node next leads => ?_, rfl, rfl⟩
  exact leads.of_define.imp_right fun new => knows.later retains next new.2

theorem addFrame {frame : FrameId} (inside : ¬(Node.frame frame).IsNew heap) :
    heap.Spares (heap.addFrame frame).2 := by
  have retains : heap.Retains (heap.addFrame frame).2 := .ofEnvironment (.child _ _)
  refine ⟨retains, intact.of_links retains fun node next leads => ?_, rfl, rfl⟩
  refine leads.of_addFrame.imp_right ?_
  rintro ⟨_, rfl⟩ new
  exact inside (retains.isNew new)

theorem addFunction (closure : Closure) (inside : ¬(Node.frame closure.frame).IsNew heap) :
    heap.Spares (heap.addFunction closure).2 := by
  have retains := Retains.addFunction heap closure
  refine ⟨retains, intact.of_links retains fun node next leads => ?_, rfl, rfl⟩
  refine leads.of_addFunction.imp_right ?_
  rintro ⟨_, rfl⟩ new
  exact inside (retains.isNew new)

theorem bindMethod {method : FunctionId} {receiver : InstanceId}
    (there : ¬(Node.function method).IsNew heap) (known : heap.Knows (.object receiver)) :
    heap.Spares (heap.bindMethod method receiver).2 ∧
      ¬(Node.function (heap.bindMethod method receiver).1).IsNew (heap.bindMethod method receiver).2 := by
  unfold Heap.bindMethod
  split
  · exact ⟨.refl intact, there⟩
  · next closure found =>
    have opened := intact.addFrame (intact.links _ _ (.closure found))
    have bound := opened.intact.define heap.environment.size thisName (known.later opened.retains)
    -- The new frame is there before the function that is closed over it.
    have inside : ¬(Node.frame heap.environment.size).IsNew
        ((heap.addFrame closure.frame).2.define heap.environment.size thisName (.object receiver)) :=
      fun new => Nat.not_le_of_lt (heap.environment.size_lt_size_child closure.frame)
        (bound.retains.isNew new)
    have closed := bound.intact.addFunction { closure with frame := heap.environment.size } inside
    exact ⟨opened.trans (bound.trans closed), there_addFunction _ _⟩

theorem assign {frame : FrameId} (name : String) (knows : heap.Knows value) (binding : Binding) :
    heap.Spares (heap.assign frame name value binding).2 := by
  cases binding with
  | global =>
    simp only [Heap.assign, Environment.assign]
    split
    · exact .refl intact
    · exact intact.define _ name knows
  | lexical distance =>
    simp only [Heap.assign, Environment.assignAt]
    split
    · exact .refl intact
    · split
      · exact intact.define _ name knows
      · exact .refl intact

theorem bindParameters (frame : FrameId) (parameters : List Name) {arguments : List Value}
    (known : ∀ argument ∈ arguments, heap.Knows argument) :
    heap.Spares (Step.bindParameters heap frame parameters arguments) := by
  induction parameters generalizing heap arguments with
  | nil => exact .refl intact
  | cons parameter rest ih =>
    cases arguments with
    | nil => exact .refl intact
    | cons argument others =>
      have bound := intact.define frame parameter.text (known argument (.head _))
      exact bound.trans (ih bound.intact fun other member => (known other (.tail _ member)).later bound.retains)

/-! ### Classes and instances -/

theorem addClass {classObject : ClassObject}
    (superclass : ∀ id ∈ classObject.superclass, ¬(Node.classObject id).IsNew heap)
    (methods : ∀ name method, classObject.methods.get? name = some method →
      ¬(Node.function method).IsNew heap) : (heap.addClass classObject).2.Intact := by
  have retains := Retains.addClass heap classObject
  refine intact.of_links retains fun node next leads => leads.of_addClass.imp_right ?_
  rintro ⟨_, ⟨id, extended, rfl⟩ | ⟨name, method, named, rfl⟩⟩ new
  · exact superclass id extended (retains.isNew new)
  · exact methods name method named (retains.isNew new)

theorem addInstance {classId : ClassId} (there : ¬(Node.classObject classId).IsNew heap) :
    (heap.addInstance classId).2.Intact := by
  have retains := Retains.addInstance heap classId
  refine intact.of_links retains fun node next leads => leads.of_addInstance.imp_right ?_
  rintro ⟨_, rfl⟩ new
  exact there (retains.isNew new)

theorem setField (id : InstanceId) (name : String) (knows : heap.Knows value) :
    (heap.setField id name value).Intact := by
  have retains := Retains.setField heap id name value
  refine intact.of_links retains fun node next leads => leads.of_setField.imp_right fun new => ?_
  exact knows.later retains next new.2

/-! ### Routines -/

omit intact in
theorem isNew_of_install {native : Native} {node : Node} (new : node.IsNew (heap.install native)) :
    node.IsNew heap := by
  cases node with
  | frame id =>
    change (heap.environment.define _ _ _).size ≤ id at new
    rwa [Environment.size_define] at new
  | function | classObject | object => exact new

theorem install {native : Native} (tells : native.Discreet) : (heap.install native).Intact where
  globals new := intact.globals (isNew_of_install new)
  links node next leads new := by
    obtain before | ⟨_, denotes⟩ := leads.of_define
    · -- A routine is no node of the heap: the links are those that were there.
      have same : heap.Leads node next := by
        cases before with
        | slot found denotes => exact .slot found denotes
        | enclosing found => exact .enclosing found
        | closure found => exact .closure found
        | superclass found extended => exact .superclass found extended
        | method found named => exact .method found named
        | ofClass found => exact .ofClass found
        | field found named denotes => exact .field found named denotes
      exact intact.links node next same (isNew_of_install new)
    · cases denotes
  discreet := intact.discreet.install tells

end Intact

theorem intact_empty : empty.Intact where
  globals := Nat.not_succ_le_self 0
  links node next leads := by
    cases leads with
    | @slot frame name _ _ found =>
      cases frame <;> cases found
    | @enclosing frame _ found =>
      cases frame <;> cases found
    | closure found | superclass found | method found | ofClass found | field found => cases found
  discreet := .empty

theorem intact_initial (output : Output) (clock : Nat → Number) :
    (Machine.initial output clock).heap.Intact :=
  List.foldlRecOn Native.standard install intact_empty fun _ intact _ member =>
    intact.install (Native.discreet_of_mem_standard member)

end Heap

end Lox
