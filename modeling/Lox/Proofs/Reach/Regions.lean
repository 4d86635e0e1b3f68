import Lox.Proofs.Reach.Links

/-!
# Regions of a heap

A region is a part of a heap that no link leads out of. It takes in whatever is made later. A heap
that has changed since is within the bounds of a region if the region is still closed, if outside of
it nothing was written, and if nothing was undone that no step ever undoes.
-/

namespace Lox

/-! ## What no step undoes -/

theorem Array.size_le_of_kept {α : Type} {before after : Array α}
    (kept : ∀ (id : Nat) (entry : α), before[id]? = some entry →
      ∃ later, after[id]? = some later) :
    before.size ≤ after.size := by
  refine Nat.le_of_not_lt fun fewer => ?_
  obtain ⟨later, found⟩ := kept after.size before[after.size] (Array.getElem?_eq_getElem fewer)
  rw [Array.getElem?_eq_none (Nat.le_refl _)] at found
  cases found

/-- Frames are where they were, functions and classes are what they were, instances are of the
classes they were of, and the routines are the same. -/
structure Heap.Retains (heap later : Heap) : Prop where
  grown : heap.Extends later
  classes : ∀ (id : ClassId) (classObject : ClassObject), heap.classes[id]? = some classObject →
    later.classes[id]? = some classObject
  instances : ∀ (id : InstanceId) (i : Instance), heap.instances[id]? = some i →
    ∃ fields, later.instances[id]? = some ⟨i.classId, fields⟩
  natives : later.natives = heap.natives

namespace Heap.Retains

variable {heap later latest : Heap}

theorem refl (heap : Heap) : heap.Retains heap :=
  ⟨.refl heap, fun _ _ found => found, fun _ i found => ⟨i.fields, found⟩, rfl⟩

theorem trans (first : heap.Retains later) (second : later.Retains latest) :
    heap.Retains latest := by
  refine ⟨first.grown.trans second.grown, fun id classObject found =>
    second.classes id classObject (first.classes id classObject found), fun id i found => ?_,
    second.natives.trans first.natives⟩
  obtain ⟨fields, foundLater⟩ := first.instances id i found
  exact second.instances id ⟨i.classId, fields⟩ foundLater

/-- What is new later on was new before. -/
theorem isNew {node : Node} (retains : heap.Retains later) (new : node.IsNew later) :
    node.IsNew heap := by
  cases node with
  | frame id => exact Nat.le_trans retains.grown.environment.size new
  | function id =>
    have size := Array.size_le_of_kept fun id entry found =>
      ⟨entry, retains.grown.functions id entry found⟩
    exact Nat.le_trans size new
  | classObject id =>
    have size := Array.size_le_of_kept fun id entry found =>
      ⟨entry, retains.classes id entry found⟩
    exact Nat.le_trans size new
  | object id =>
    have size := Array.size_le_of_kept fun id entry found =>
      (retains.instances id entry found).elim fun fields foundLater => ⟨_, foundLater⟩
    exact Nat.le_trans size new

/-! ### Changes of the heap -/

theorem ofEnvironment {environment : Environment Value}
    (grown : heap.environment.Extends environment) :
    heap.Retains { heap with environment := environment } :=
  ⟨.ofEnvironment grown, fun _ _ found => found, fun _ i found => ⟨i.fields, found⟩, rfl⟩

theorem addFunction (heap : Heap) (closure : Closure) :
    heap.Retains (heap.addFunction closure).2 :=
  ⟨.addFunction heap closure, fun _ _ found => found, fun _ i found => ⟨i.fields, found⟩, rfl⟩

theorem addClass (heap : Heap) (classObject : ClassObject) :
    heap.Retains (heap.addClass classObject).2 := by
  refine ⟨⟨.refl _, fun _ _ found => found⟩, fun id known found => ?_,
    fun _ i found => ⟨i.fields, found⟩, rfl⟩
  change (heap.classes.push classObject)[id]? = some known
  have made := (Array.getElem?_eq_some_iff.mp found).1
  rwa [Array.getElem?_push, if_neg (Nat.ne_of_lt made)]

theorem addInstance (heap : Heap) (classId : ClassId) :
    heap.Retains (heap.addInstance classId).2 := by
  refine ⟨⟨.refl _, fun _ _ found => found⟩, fun _ _ found => found, fun id i found => ?_, rfl⟩
  refine ⟨i.fields, ?_⟩
  change (heap.instances.push _)[id]? = some i
  have made := (Array.getElem?_eq_some_iff.mp found).1
  rwa [Array.getElem?_push, if_neg (Nat.ne_of_lt made)]

theorem setField (heap : Heap) (id : InstanceId) (name : String) (value : Value) :
    heap.Retains (heap.setField id name value) := by
  refine ⟨⟨.refl _, fun _ _ found => found⟩, fun _ _ found => found, fun other i found => ?_, rfl⟩
  by_cases same : id = other
  · refine ⟨i.fields.set name value, ?_⟩
    change (heap.instances.modify id _)[other]? = _
    rw [Array.getElem?_modify, if_pos same, found]
    rfl
  · refine ⟨i.fields, ?_⟩
    change (heap.instances.modify id _)[other]? = _
    rwa [Array.getElem?_modify, if_neg same]

end Heap.Retains

/-! ## Regions -/

/-- A part of a heap with everything that it leads to, with the globals, and with whatever is not
there yet. The native routines keep to it: none gives back what it was not given. -/
structure Region (start : Heap) where
  Holds : Node → Prop
  globals : Holds (.frame Heap.globals)
  new : ∀ node, node.IsNew start → Holds node
  closed : ∀ node next, start.Leads node next → Holds node → Holds next
  natives : ∀ (id : NativeId) (native : Native), start.natives[id]? = some native →
    ∀ shown arguments value, native.routine shown arguments = .value value →
      (∀ argument ∈ arguments, ∀ node, argument.node? = some node → Holds node) →
        ∀ node, value.node? = some node → Holds node

namespace Region

variable {start : Heap}

/-- Whatever the value denotes is in the region. -/
def Has (region : Region start) (value : Value) : Prop :=
  ∀ node, value.node? = some node → region.Holds node

/-- All there is. -/
def whole (start : Heap) : Region start :=
  { Holds := fun _ => True
    globals := trivial
    new := fun _ _ => trivial
    closed := fun _ _ _ _ => trivial
    natives := fun _ _ _ _ _ _ _ _ _ _ => trivial }

theorem has_of_node?_eq_none {region : Region start} {value : Value} (data : value.node? = none) :
    region.Has value := by
  intro node denotes
  rw [data] at denotes
  cases denotes

/-- A later heap in which the region is closed still and nothing was written but in the region. -/
structure Bounds (region : Region start) (heap : Heap) : Prop where
  retains : start.Retains heap
  closed : ∀ node next, heap.Leads node next → region.Holds node → region.Holds next
  frames : ∀ id, ¬region.Holds (.frame id) →
    heap.environment.frames[id]? = start.environment.frames[id]?
  instances : ∀ id, ¬region.Holds (.object id) → heap.instances[id]? = start.instances[id]?

namespace Bounds

variable {region : Region start} {heap : Heap}

theorem refl (region : Region start) : region.Bounds start :=
  ⟨.refl start, region.closed, fun _ _ => rfl, fun _ _ => rfl⟩

theorem new {node : Node} (bounds : region.Bounds heap) (new : node.IsNew heap) :
    region.Holds node :=
  region.new node (bounds.retains.isNew new)

/-! ### Reading -/

theorem slot {frame : FrameId} {name : String} {value : Value} (bounds : region.Bounds heap)
    (inside : region.Holds (.frame frame))
    (found : heap.environment.slot? frame name = some value) : region.Has value :=
  fun _ denotes => bounds.closed _ _ (.slot found denotes) inside

theorem ancestor? {frame ancestor : FrameId} {distance : Nat} (bounds : region.Bounds heap)
    (inside : region.Holds (.frame frame))
    (found : heap.environment.ancestor? frame distance = some ancestor) :
    region.Holds (.frame ancestor) := by
  induction distance generalizing frame with
  | zero =>
    cases found
    exact inside
  | succ distance ih =>
    simp only [Environment.ancestor?] at found
    split at found
    · cases found
    · next outer lies => exact ih (bounds.closed _ _ (.enclosing lies) inside) found

theorem lookUp? {frame : FrameId} {name : String} {binding : Binding} {value : Value}
    (bounds : region.Bounds heap) (inside : region.Holds (.frame frame))
    (found : heap.lookUp? frame name binding = some value) : region.Has value := by
  cases binding with
  | global =>
    rw [Heap.lookUp?, Environment.get?_globals] at found
    exact bounds.slot region.globals found
  | lexical distance =>
    obtain ⟨ancestor, reached, held⟩ := Option.bind_eq_some_iff.mp found
    exact bounds.slot (bounds.ancestor? inside reached) held

theorem field? {id : InstanceId} {name : String} {value : Value} (bounds : region.Bounds heap)
    (inside : region.Holds (.object id)) (found : heap.field? id name = some value) :
    region.Has value := by
  obtain ⟨i, there, named⟩ := Option.bind_eq_some_iff.mp found
  exact fun _ denotes => bounds.closed _ _ (.field there named denotes) inside

theorem findMethod? {name : String} {classId : ClassId} {method : FunctionId}
    (bounds : region.Bounds heap) (inside : region.Holds (.classObject classId))
    (found : heap.findMethod? name classId = some method) : region.Holds (.function method) := by
  replace found := Heap.provides_of_findMethod? found
  induction found with
  | own known own => exact bounds.closed _ _ (.method known own) inside
  | inherited known _ extended _ ih => exact ih (bounds.closed _ _ (.superclass known extended) inside)

/-! ### Writing -/

theorem define {frame : FrameId} {value : Value} (bounds : region.Bounds heap) (name : String)
    (inside : region.Holds (.frame frame)) (has : region.Has value) :
    region.Bounds (heap.define frame name value) := by
  refine ⟨bounds.retains.trans (.ofEnvironment (.define _ _ _ _)), fun node next leads held => ?_,
    fun id outside => ?_, bounds.instances⟩
  · cases leads.of_define with
    | inl before => exact bounds.closed node next before held
    | inr new => exact has next new.2
  · have differs : frame ≠ id := fun same => outside (same ▸ inside)
    rw [← bounds.frames id outside]
    change (heap.environment.frames.modify frame _)[id]? = _
    rw [Array.getElem?_modify, if_neg differs]

theorem addFrame {frame : FrameId} (bounds : region.Bounds heap)
    (inside : region.Holds (.frame frame)) : region.Bounds (heap.addFrame frame).2 := by
  refine ⟨bounds.retains.trans (.ofEnvironment (.child _ _)), fun node next leads held => ?_,
    fun id outside => ?_, bounds.instances⟩
  · obtain before | ⟨_, rfl⟩ := leads.of_addFrame
    · exact bounds.closed node next before held
    · exact inside
  · have differs : id ≠ heap.environment.frames.size := fun same =>
      outside (bounds.new (Nat.le_of_eq same.symm))
    rw [← bounds.frames id outside]
    change (heap.environment.frames.push _)[id]? = _
    rw [Array.getElem?_push, if_neg differs]

theorem addFunction {closure : Closure} (bounds : region.Bounds heap)
    (inside : region.Holds (.frame closure.frame)) :
    region.Bounds (heap.addFunction closure).2 := by
  refine ⟨bounds.retains.trans (.addFunction _ _), fun node next leads held => ?_, bounds.frames,
    bounds.instances⟩
  obtain before | ⟨_, rfl⟩ := leads.of_addFunction
  · exact bounds.closed node next before held
  · exact inside

theorem addClass {classObject : ClassObject} (bounds : region.Bounds heap)
    (superclass : ∀ id ∈ classObject.superclass, region.Holds (.classObject id))
    (methods : ∀ name method, classObject.methods.get? name = some method →
      region.Holds (.function method)) : region.Bounds (heap.addClass classObject).2 := by
  refine ⟨bounds.retains.trans (.addClass _ _), fun node next leads held => ?_, bounds.frames,
    bounds.instances⟩
  obtain before | ⟨_, ⟨id, extended, rfl⟩ | ⟨name, method, named, rfl⟩⟩ := leads.of_addClass
  · exact bounds.closed node next before held
  · exact superclass id extended
  · exact methods name method named

theorem addInstance {classId : ClassId} (bounds : region.Bounds heap)
    (inside : region.Holds (.classObject classId)) :
    region.Bounds (heap.addInstance classId).2 := by
  refine ⟨bounds.retains.trans (.addInstance _ _), fun node next leads held => ?_, bounds.frames,
    fun id outside => ?_⟩
  · obtain before | ⟨_, rfl⟩ := leads.of_addInstance
    · exact bounds.closed node next before held
    · exact inside
  · have differs : id ≠ heap.instances.size := fun same =>
      outside (bounds.new (Nat.le_of_eq same.symm))
    rw [← bounds.instances id outside]
    change (heap.instances.push _)[id]? = _
    rw [Array.getElem?_push, if_neg differs]

theorem setField {id : InstanceId} {name : String} {value : Value} (bounds : region.Bounds heap)
    (inside : region.Holds (.object id)) (has : region.Has value) :
    region.Bounds (heap.setField id name value) := by
  refine ⟨bounds.retains.trans (.setField _ _ _ _), fun node next leads held => ?_, bounds.frames,
    fun other outside => ?_⟩
  · cases leads.of_setField with
    | inl before => exact bounds.closed node next before held
    | inr new => exact has next new.2
  · have differs : id ≠ other := fun same => outside (same ▸ inside)
    rw [← bounds.instances other outside]
    change (heap.instances.modify id _)[other]? = _
    rw [Array.getElem?_modify, if_neg differs]

/-- A bound method is new, and so is the frame that binds its instance. -/
theorem bindMethod {method : FunctionId} {receiver : InstanceId} (bounds : region.Bounds heap)
    (inside : region.Holds (.function method)) (bound : region.Holds (.object receiver)) :
    region.Bounds (heap.bindMethod method receiver).2 ∧
      region.Holds (.function (heap.bindMethod method receiver).1) := by
  unfold Heap.bindMethod
  split
  · exact ⟨bounds, inside⟩
  · next closure found =>
    have opened : region.Bounds (heap.addFrame closure.frame).2 :=
      bounds.addFrame (bounds.closed _ _ (.closure found) inside)
    have fresh : region.Holds (.frame heap.environment.size) := bounds.new (Nat.le_refl _)
    have has : region.Has (.object receiver) := by
      rintro node ⟨⟩
      exact bound
    have defined := opened.define thisName fresh has
    exact ⟨defined.addFunction fresh, bounds.new (Nat.le_refl _)⟩

theorem assign {frame : FrameId} {name : String} {value : Value} (bounds : region.Bounds heap)
    (inside : region.Holds (.frame frame)) (has : region.Has value) (binding : Binding) :
    region.Bounds (heap.assign frame name value binding).2 := by
  cases binding with
  | global =>
    simp only [Heap.assign, Environment.assign_globals]
    split
    · exact bounds.define name region.globals has
    · exact bounds
  | lexical distance =>
    simp only [Heap.assign, Environment.assignAt]
    split
    · exact bounds
    · next ancestor reached =>
      split
      · exact bounds.define name (bounds.ancestor? inside reached) has
      · exact bounds

theorem bindParameters {frame : FrameId} {parameters : List Name} {arguments : List Value}
    (bounds : region.Bounds heap) (inside : region.Holds (.frame frame))
    (has : ∀ argument ∈ arguments, region.Has argument) :
    region.Bounds (Step.bindParameters heap frame parameters arguments) := by
  induction parameters generalizing heap arguments with
  | nil => exact bounds
  | cons parameter rest ih =>
    cases arguments with
    | nil => exact bounds
    | cons argument others =>
      have bound := bounds.define parameter.text inside (has argument (.head _))
      exact ih bound fun other member => has other (.tail _ member)

end Bounds

end Region

end Lox
