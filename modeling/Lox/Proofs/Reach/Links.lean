import Lox.Proofs.Plans.Keeping
import Lox.Proofs.Scoping.Chains

/-!
# What leads where in a heap

Frames, functions, classes and instances are the nodes of a graph. A frame leads to the values that
it binds and to the frame around it, a function to the frame it is closed over, a class to its
superclass and to its methods, and an instance to its class and to the values of its fields. The
graph is shared and may go round in circles; what some values reach in it is found by following the
links from them, and from the globals.
-/

namespace Lox

/-! ## Nodes -/

/-- What has an identity, and a place in the heap. -/
inductive Node where
  | frame (id : FrameId)
  | function (id : FunctionId)
  | classObject (id : ClassId)
  | object (id : InstanceId)
  deriving DecidableEq, Repr

/-- The node that a value denotes. Native routines have an identity too, but nothing can be reached
through them. -/
def Value.node? : Value → Option Node
  | .function id => some (.function id)
  | .classObject id => some (.classObject id)
  | .object id => some (.object id)
  | _ => none

/-! Constants and operators make data only: no node comes of them. -/

theorem Literal.node?_value (literal : Literal) : literal.value.node? = none := by
  cases literal <;> rfl

theorem UnaryOperator.node?_apply {operator : UnaryOperator} {operand value : Value}
    (applied : operator.apply operand = .ok value) : value.node? = none := by
  unfold UnaryOperator.apply at applied
  split at applied <;> cases applied <;> rfl

theorem node?_repeated {text : String} {count : Number} {value : Value}
    (made : repeated text count = .ok value) : value.node? = none := by
  unfold repeated at made
  split at made
  · cases made
  · split at made
    · cases made
    · split at made
      · cases made
      · split at made
        · cases made
        · cases made
          rfl

theorem node?_onNumbers {f : Number → Number → Except OperandProblem Value}
    {refusal : OperandProblem} {left right value : Value}
    (data : ∀ a b result, f a b = .ok result → result.node? = none)
    (applied : onNumbers f refusal left right = .ok value) : value.node? = none := by
  unfold onNumbers at applied
  split at applied
  · exact data _ _ _ applied
  · cases applied

theorem BinaryOperator.node?_apply {operator : BinaryOperator} {left right value : Value}
    (applied : operator.apply left right = .ok value) : value.node? = none := by
  unfold BinaryOperator.apply at applied
  split at applied
  case h_8 => exact node?_repeated applied
  case h_9 | h_10 | h_13 | h_14 | h_15 | h_16 | h_17 =>
    refine node?_onNumbers (fun a b result made => ?_) applied
    cases made
    rfl
  case h_11 | h_12 =>
    refine node?_onNumbers (fun a b result made => ?_) applied
    split at made <;> cases made
    rfl
  all_goals cases applied <;> rfl

/-! ## Links -/

/-- One node leads to another in a single step. -/
inductive Heap.Leads (heap : Heap) : Node → Node → Prop where
  | slot {frame : FrameId} {name : String} {value : Value} {node : Node} :
      heap.environment.slot? frame name = some value → value.node? = some node →
        Leads heap (.frame frame) node
  | enclosing {frame outer : FrameId} :
      heap.environment.enclosing? frame = some outer → Leads heap (.frame frame) (.frame outer)
  | closure {id : FunctionId} {closure : Closure} :
      heap.functions[id]? = some closure → Leads heap (.function id) (.frame closure.frame)
  | superclass {id superclass : ClassId} {classObject : ClassObject} :
      heap.classes[id]? = some classObject → classObject.superclass = some superclass →
        Leads heap (.classObject id) (.classObject superclass)
  | method {id : ClassId} {classObject : ClassObject} {name : String} {method : FunctionId} :
      heap.classes[id]? = some classObject → classObject.methods.get? name = some method →
        Leads heap (.classObject id) (.function method)
  | ofClass {id : InstanceId} {i : Instance} :
      heap.instances[id]? = some i → Leads heap (.object id) (.classObject i.classId)
  | field {id : InstanceId} {i : Instance} {name : String} {value : Value} {node : Node} :
      heap.instances[id]? = some i → i.fields.get? name = some value → value.node? = some node →
        Leads heap (.object id) node

/-- What some values reach: they themselves, the globals, and whatever one of these leads to. -/
inductive Heap.Reaches (heap : Heap) (roots : List Value) : Node → Prop where
  | globals : Reaches heap roots (.frame Heap.globals)
  | root {value : Value} {node : Node} :
      value ∈ roots → value.node? = some node → Reaches heap roots node
  | step {node next : Node} :
      heap.Leads node next → Reaches heap roots node → Reaches heap roots next

/-- Whether a node was not made yet. -/
def Node.IsNew (heap : Heap) : Node → Prop
  | .frame id => heap.environment.size ≤ id
  | .function id => heap.functions.size ≤ id
  | .classObject id => heap.classes.size ≤ id
  | .object id => heap.instances.size ≤ id

/-- Nothing leads on from where there is nothing. -/
theorem Heap.Leads.not_isNew {heap : Heap} {node next : Node} (leads : heap.Leads node next) :
    ¬node.IsNew heap := by
  intro new
  cases leads with
  | @slot frame name value _ found _ =>
    have missing : heap.environment.frames[frame]? = none := Array.getElem?_eq_none new
    simp [Environment.slot?, missing] at found
  | @enclosing frame outer found =>
    have missing : heap.environment.frames[frame]? = none := Array.getElem?_eq_none new
    simp [Environment.enclosing?, missing] at found
  | closure found => exact absurd found (by simp [Array.getElem?_eq_none new])
  | superclass found _ => exact absurd found (by simp [Array.getElem?_eq_none new])
  | method found _ => exact absurd found (by simp [Array.getElem?_eq_none new])
  | ofClass found => exact absurd found (by simp [Array.getElem?_eq_none new])
  | field found _ _ => exact absurd found (by simp [Array.getElem?_eq_none new])

/-! ## Links in a changed heap

Every change of the heap adds links from one node at most; the others are as before. -/

namespace Heap.Leads

variable {heap : Heap} {node next : Node}

theorem of_define {frame : FrameId} {name : String} {value : Value}
    (leads : (heap.define frame name value).Leads node next) :
    heap.Leads node next ∨ node = .frame frame ∧ value.node? = some next := by
  cases leads with
  | slot found denotes =>
    cases Environment.slot?_define_eq_some found with
    | inl new =>
      obtain ⟨rfl, rfl, rfl⟩ := new
      exact .inr ⟨rfl, denotes⟩
    | inr before => exact .inl (.slot before denotes)
  | enclosing found =>
    change (heap.environment.define frame name value).enclosing? _ = _ at found
    rw [Environment.enclosing?_define] at found
    exact .inl (.enclosing found)
  | closure found => exact .inl (.closure found)
  | superclass found extended => exact .inl (.superclass found extended)
  | method found named => exact .inl (.method found named)
  | ofClass found => exact .inl (.ofClass found)
  | field found named denotes => exact .inl (.field found named denotes)

theorem of_addFrame {frame : FrameId} (leads : (heap.addFrame frame).2.Leads node next) :
    heap.Leads node next ∨ node.IsNew heap ∧ next = .frame frame := by
  cases leads with
  | slot found denotes =>
    change (heap.environment.child frame).slot? _ _ = _ at found
    rw [Environment.slot?_child] at found
    exact .inl (.slot found denotes)
  | enclosing found =>
    change (heap.environment.child frame).enclosing? _ = _ at found
    rw [Environment.enclosing?_child] at found
    split at found
    · next same =>
      cases found
      exact .inr ⟨Nat.le_of_eq same.symm, rfl⟩
    · exact .inl (.enclosing found)
  | closure found => exact .inl (.closure found)
  | superclass found extended => exact .inl (.superclass found extended)
  | method found named => exact .inl (.method found named)
  | ofClass found => exact .inl (.ofClass found)
  | field found named denotes => exact .inl (.field found named denotes)

theorem of_addFunction {closure : Closure}
    (leads : (heap.addFunction closure).2.Leads node next) :
    heap.Leads node next ∨ node.IsNew heap ∧ next = .frame closure.frame := by
  cases leads with
  | slot found denotes => exact .inl (.slot found denotes)
  | enclosing found => exact .inl (.enclosing found)
  | closure found =>
    change (heap.functions.push closure)[_]? = _ at found
    rw [Array.getElem?_push] at found
    split at found
    · next same =>
      cases found
      exact .inr ⟨Nat.le_of_eq same.symm, rfl⟩
    · exact .inl (.closure found)
  | superclass found extended => exact .inl (.superclass found extended)
  | method found named => exact .inl (.method found named)
  | ofClass found => exact .inl (.ofClass found)
  | field found named denotes => exact .inl (.field found named denotes)

theorem of_addClass {classObject : ClassObject}
    (leads : (heap.addClass classObject).2.Leads node next) :
    heap.Leads node next ∨ node.IsNew heap ∧
      ((∃ superclass, classObject.superclass = some superclass ∧ next = .classObject superclass) ∨
        ∃ name method, classObject.methods.get? name = some method ∧ next = .function method) := by
  cases leads with
  | slot found denotes => exact .inl (.slot found denotes)
  | enclosing found => exact .inl (.enclosing found)
  | closure found => exact .inl (.closure found)
  | superclass found extended =>
    change (heap.classes.push classObject)[_]? = _ at found
    rw [Array.getElem?_push] at found
    split at found
    · next same =>
      cases found
      exact .inr ⟨Nat.le_of_eq same.symm, .inl ⟨_, extended, rfl⟩⟩
    · exact .inl (.superclass found extended)
  | method found named =>
    change (heap.classes.push classObject)[_]? = _ at found
    rw [Array.getElem?_push] at found
    split at found
    · next same =>
      cases found
      exact .inr ⟨Nat.le_of_eq same.symm, .inr ⟨_, _, named, rfl⟩⟩
    · exact .inl (.method found named)
  | ofClass found => exact .inl (.ofClass found)
  | field found named denotes => exact .inl (.field found named denotes)

theorem of_addInstance {classId : ClassId} (leads : (heap.addInstance classId).2.Leads node next) :
    heap.Leads node next ∨ node.IsNew heap ∧ next = .classObject classId := by
  cases leads with
  | slot found denotes => exact .inl (.slot found denotes)
  | enclosing found => exact .inl (.enclosing found)
  | closure found => exact .inl (.closure found)
  | superclass found extended => exact .inl (.superclass found extended)
  | method found named => exact .inl (.method found named)
  | ofClass found =>
    change (heap.instances.push _)[_]? = _ at found
    rw [Array.getElem?_push] at found
    split at found
    · next same =>
      cases found
      exact .inr ⟨Nat.le_of_eq same.symm, rfl⟩
    · exact .inl (.ofClass found)
  | field found named denotes =>
    change (heap.instances.push _)[_]? = _ at found
    rw [Array.getElem?_push] at found
    split at found
    -- A new instance has no field that could lead anywhere.
    · cases found
      cases named
    · exact .inl (.field found named denotes)

theorem of_setField {id : InstanceId} {name : String} {value : Value}
    (leads : (heap.setField id name value).Leads node next) :
    heap.Leads node next ∨ node = .object id ∧ value.node? = some next := by
  cases leads with
  | slot found denotes => exact .inl (.slot found denotes)
  | enclosing found => exact .inl (.enclosing found)
  | closure found => exact .inl (.closure found)
  | superclass found extended => exact .inl (.superclass found extended)
  | method found named => exact .inl (.method found named)
  | ofClass found =>
    change (heap.instances.modify id fun i => ⟨i.classId, i.fields.set name value⟩)[_]? = _ at found
    rw [Array.getElem?_modify] at found
    split at found
    · obtain ⟨before, there, rfl⟩ := Option.map_eq_some_iff.mp found
      exact .inl (.ofClass (i := before) there)
    · exact .inl (.ofClass found)
  | field found named denotes =>
    change (heap.instances.modify id fun i => ⟨i.classId, i.fields.set name value⟩)[_]? = _ at found
    rw [Array.getElem?_modify] at found
    split at found
    · next same =>
      subst same
      obtain ⟨before, there, rfl⟩ := Option.map_eq_some_iff.mp found
      rw [Table.get?_set] at named
      split at named
      · cases named
        exact .inr ⟨rfl, denotes⟩
      · exact .inl (.field there named denotes)
    · exact .inl (.field found named denotes)

end Heap.Leads

end Lox
