import Lox.Proofs.Grammar.Shape
import Lox.Proofs.Scoping.Watch

/-!
# What holds of the heap throughout a run

Every function was made where its declaration was resolved: the frames it is closed over match the
scopes around the declaration. A method as its class holds it is short of one scope, the one that
binds its instance, so it must not be called before it is bound; therefore no variable and no field
ever holds one. `Heap.Sound` says both, relative to where the functions come from.
-/

namespace Lox

variable {origins later : List Origin} {heap : Heap}

/-! ## Values -/

/-- A function that can be called: a declared one, or a method bound to an instance. -/
def Value.IsPlain (origins : List Origin) : Value → Prop
  | .function id => ∃ origin, origins[id]? = some origin ∧ origin.bare = false
  | _ => True

/-- What a statement ends with can be kept. -/
def Flow.IsPlain (origins : List Origin) : Flow → Prop
  | .returns _ value => value.IsPlain origins
  | _ => True

/-- A method that is not bound to an instance. -/
def IsBare (origins : List Origin) (id : FunctionId) : Prop :=
  ∃ origin, origins[id]? = some origin ∧ origin.bare = true

theorem Value.IsPlain.mono {value : Value} (plain : value.IsPlain origins)
    (grown : origins <+: later) : value.IsPlain later := by
  cases value with
  | function id =>
    obtain ⟨origin, found, bound⟩ := plain
    exact ⟨origin, getElem?_grown grown found, bound⟩
  | _ => trivial

theorem IsBare.mono {id : FunctionId} (bare : IsBare origins id) (grown : origins <+: later) :
    IsBare later id := by
  obtain ⟨origin, found, unbound⟩ := bare
  exact ⟨origin, getElem?_grown grown found, unbound⟩

/-! ## Functions and classes -/

/-- The frame that a function is closed over matches what surrounds its declaration, short of the
scope of the instance if the function is a bare method. -/
def Origin.Places (origin : Origin) (env : Environment Value) (frame : FrameId) : Prop :=
  if origin.bare then
    ∃ outer, origin.surroundings.scopes = [thisName] :: outer ∧ env.Matches frame outer
  else env.Matches frame origin.surroundings.scopes

/-- The closure is what the declaration was resolved to. -/
structure Origin.Describes (origin : Origin) (env : Environment Value) (closure : Closure) :
    Prop where
  resolved : origin.lambda.resolve origin.surroundings = .ok closure.lambda
  shaped : origin.lambda.WellShaped
  placed : origin.Places env closure.frame

theorem Origin.Places.grows {origin : Origin} {env grown : Environment Value} {frame : FrameId}
    {gaining : FrameId → Prop} (placed : origin.Places env frame)
    (grows : env.Grows gaining grown) : origin.Places grown frame := by
  by_cases bare : origin.bare = true
  · rw [Origin.Places, if_pos bare] at placed ⊢
    obtain ⟨outer, short, matched⟩ := placed
    exact ⟨outer, short, matched.grows grows⟩
  · rw [Origin.Places, if_neg bare] at placed ⊢
    exact placed.grows grows

/-- A routine gives back no function that it was not given. -/
def Native.Forwards (native : Native) : Prop :=
  ∀ shown arguments id, native.routine shown arguments = .value (.function id) →
    .function id ∈ arguments

structure Heap.Sound (heap : Heap) (origins : List Origin) : Prop where
  root : Heap.globals < heap.environment.size
  count : origins.length = heap.functions.size
  functions : ∀ (id : FunctionId) (closure : Closure), heap.functions[id]? = some closure →
    ∃ origin : Origin, origins[id]? = some origin ∧ origin.Describes heap.environment closure
  classes : ∀ (id : ClassId) (classObject : ClassObject), heap.classes[id]? = some classObject →
    ∀ (name : String) (method : FunctionId), classObject.methods.get? name = some method → IsBare origins method
  slots : ∀ (frame : FrameId) (name : String) (value : Value), heap.environment.slot? frame name = some value →
    value.IsPlain origins
  fields : ∀ (id : InstanceId) (i : Instance), heap.instances[id]? = some i →
    ∀ (name : String) (value : Value), i.fields.get? name = some value → value.IsPlain origins
  natives : ∀ (id : NativeId) (native : Native), heap.natives[id]? = some native → native.Forwards

namespace Heap.Sound

/-! ## Changing the heap -/

theorem ofEnvironment {environment : Environment Value} {gaining : FrameId → Prop}
    (sound : heap.Sound origins) (grows : heap.environment.Grows gaining environment)
    (slots : ∀ (frame : FrameId) (name : String) (value : Value), environment.slot? frame name = some value →
      value.IsPlain origins) :
    Heap.Sound { heap with environment := environment } origins :=
  { root := Nat.lt_of_lt_of_le sound.root grows.size
    count := sound.count
    functions := by
      intro id closure found
      obtain ⟨origin, known, described⟩ := sound.functions id closure found
      exact ⟨origin, known, described.resolved, described.shaped, described.placed.grows grows⟩
    classes := sound.classes
    slots := slots
    fields := sound.fields
    natives := sound.natives }

theorem define {frame : FrameId} {name : String} {value : Value} (sound : heap.Sound origins)
    (made : frame < heap.environment.size) (plain : value.IsPlain origins) :
    (heap.define frame name value).Sound origins := by
  have grows : heap.environment.Grows (fun _ => True) (heap.environment.define frame name value) :=
    Environment.Grows.define made (.inl trivial)
  refine sound.ofEnvironment grows fun other otherName bound found => ?_
  rw [Environment.slot?_define _ _ _ _ made] at found
  split at found
  · cases found
    exact plain
  · exact sound.slots other otherName bound found

theorem addFrame {frame : FrameId} (sound : heap.Sound origins) :
    (heap.addFrame frame).2.Sound origins := by
  have grows : heap.environment.Grows (fun _ => True) (heap.environment.child frame) :=
    Environment.Grows.child _ _
  refine sound.ofEnvironment grows fun other name bound found => ?_
  rw [Environment.slot?_child] at found
  exact sound.slots other name bound found

/-- One more function, with where it comes from. -/
theorem addFunction {closure : Closure} {origin : Origin} (sound : heap.Sound origins)
    (described : origin.Describes heap.environment closure) :
    (heap.addFunction closure).2.Sound (origins ++ [origin]) := by
  have grown : origins <+: origins ++ [origin] := List.prefix_append _ _
  refine
    { root := sound.root
      count := by simp [Heap.addFunction, sound.count]
      functions := ?_
      classes := fun id classObject found name method named =>
        (sound.classes id classObject found name method named).mono grown
      slots := fun frame name value found => (sound.slots frame name value found).mono grown
      fields := fun id i found name value named =>
        (sound.fields id i found name value named).mono grown
      natives := sound.natives }
  intro id other found
  change (heap.functions.push closure)[id]? = some other at found
  by_cases new : id = heap.functions.size
  · subst new
    rw [Array.getElem?_push_size] at found
    cases found
    -- There are as many origins as functions, so the new ones have the same number.
    refine ⟨origin, ?_, described⟩
    rw [← sound.count, List.getElem?_append_right (Nat.le_refl _), Nat.sub_self]
    rfl
  · rw [Array.getElem?_push, if_neg new] at found
    obtain ⟨known, at', describes⟩ := sound.functions id other found
    exact ⟨known, getElem?_grown grown at', describes⟩

theorem addClass {classObject : ClassObject} (sound : heap.Sound origins)
    (bare : ∀ name method, classObject.methods.get? name = some method → IsBare origins method) :
    (heap.addClass classObject).2.Sound origins := by
  refine
    { root := sound.root
      count := sound.count
      functions := sound.functions
      classes := ?_
      slots := sound.slots
      fields := sound.fields
      natives := sound.natives }
  intro id other found
  change (heap.classes.push classObject)[id]? = some other at found
  by_cases new : id = heap.classes.size
  · subst new
    rw [Array.getElem?_push_size] at found
    cases found
    exact bare
  · rw [Array.getElem?_push, if_neg new] at found
    exact sound.classes id other found

theorem addInstance {classId : ClassId} (sound : heap.Sound origins) :
    (heap.addInstance classId).2.Sound origins := by
  refine
    { root := sound.root
      count := sound.count
      functions := sound.functions
      classes := sound.classes
      slots := sound.slots
      fields := ?_
      natives := sound.natives }
  intro id i found name value named
  change (heap.instances.push ⟨classId, .empty⟩)[id]? = some i at found
  by_cases new : id = heap.instances.size
  · subst new
    rw [Array.getElem?_push_size] at found
    cases found
    cases named
  · rw [Array.getElem?_push, if_neg new] at found
    exact sound.fields id i found name value named

theorem setField {id : InstanceId} {name : String} {value : Value} (sound : heap.Sound origins)
    (plain : value.IsPlain origins) : (heap.setField id name value).Sound origins := by
  refine
    { root := sound.root
      count := sound.count
      functions := sound.functions
      classes := sound.classes
      slots := sound.slots
      fields := ?_
      natives := sound.natives }
  intro other i found otherName held named
  change (heap.instances.modify id _)[other]? = some i at found
  rw [Array.getElem?_modify] at found
  split at found
  · obtain ⟨before, there, rfl⟩ := Option.map_eq_some_iff.mp found
    rw [Table.get?_set] at named
    split at named
    · cases named
      exact plain
    · exact sound.fields other before there otherName held named
  · exact sound.fields other i found otherName held named

/-! ## Methods -/

/-- What is found as a method is a bare one. -/
theorem findMethod? {name : String} {classId : ClassId} {method : FunctionId}
    (sound : heap.Sound origins) (found : heap.findMethod? name classId = some method) :
    IsBare origins method := by
  replace found := Heap.provides_of_findMethod? found
  induction found with
  | own known own => exact sound.classes _ _ known _ _ own
  | inherited _ _ _ _ ih => exact ih

/-- A bare method is bound in a frame of its own, which is the scope that it was short of. -/
theorem bindMethod {method : FunctionId} {receiver : InstanceId} {origin : Origin}
    (sound : heap.Sound origins) (known : origins[method]? = some origin)
    (bare : origin.bare = true) :
    (heap.bindMethod method receiver).2.Sound (origins ++ [{ origin with bare := false }]) := by
  have inside : method < heap.functions.size := by
    rw [← sound.count]
    exact (List.getElem?_eq_some_iff.mp known).1
  obtain ⟨closure, found⟩ : ∃ closure, heap.functions[method]? = some closure :=
    ⟨_, Array.getElem?_eq_getElem inside⟩
  obtain ⟨other, also, described⟩ := sound.functions method closure found
  cases known.symm.trans also
  -- The frame of the method matches all scopes but that of the instance.
  obtain ⟨outer, short, matched⟩ : ∃ outer, origin.surroundings.scopes = [thisName] :: outer ∧
      heap.environment.Matches closure.frame outer := by
    have placed := described.placed
    rw [Origin.Places, if_pos bare] at placed
    exact placed
  unfold Heap.bindMethod
  rw [found]
  have added : (heap.addFrame closure.frame).2.Sound origins := sound.addFrame
  have made := heap.environment.size_lt_size_child closure.frame
  have bound : ((heap.addFrame closure.frame).2.define heap.environment.size thisName
      (.object receiver)).Sound origins := added.define made trivial
  refine bound.addFunction ⟨described.resolved, described.shaped, ?_⟩
  rw [Origin.Places, if_neg Bool.false_ne_true]
  -- The scope it is short of is the one that the new frame, with the instance in it, opens.
  rw [short]
  exact matched.define_child sound.root thisName _

end Heap.Sound

end Lox
