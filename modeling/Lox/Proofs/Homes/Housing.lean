import Lox.Proofs.Homes.Chronicle
import Lox.Proofs.Homes.Tethers
import Lox.Proofs.Reach.Calls

/-!
# Homes in the heap

Code is at home in a frame if its tether leads from there to the scope that binds the instance of the
home, with the superclass in the scope around that one. Once these scopes are made, no step changes what
they bind `this` and `super` to, so code stays at home for as long as anything refers to it.

`Heap.Housed` says of a heap that every function in it was made where it is at home, as far as it
belongs anywhere: a method as its class has it is short of the scope of its instance. Such a method must
not be called before it is bound, so no variable and no field ever holds one.
-/

namespace Lox

/-! ## What environments keep -/

namespace Environment

variable {α : Type} {env later last : Environment α}

theorem slot?_define_of_ne {frame other : FrameId} {name otherName : String} {value : α}
    (differs : ¬(frame = other ∧ name = otherName)) :
    (env.define frame name value).slot? other otherName = env.slot? other otherName := by
  by_cases made : frame < env.size
  · rw [slot?_define _ _ _ _ made, if_neg differs]
  · by_cases same : frame = other
    · subst same
      have missing : env.frames[frame]? = none := Array.getElem?_eq_none (Nat.le_of_not_lt made)
      simp [define, slot?, Array.getElem?_modify, missing]
    · simp [define, slot?, Array.getElem?_modify, same]

theorem Extends.ancestor? {frame ancestor : FrameId} {distance : Nat} (extended : env.Extends later)
    (found : env.ancestor? frame distance = some ancestor) :
    later.ancestor? frame distance = some ancestor := by
  induction distance generalizing frame with
  | zero => exact found
  | succ distance ih =>
    simp only [Environment.ancestor?] at found ⊢
    split at found
    · cases found
    · next outer lies =>
      rw [extended.enclosing frame (lt_size_of_enclosing? lies), lies]
      exact ih found

theorem Extends.enclosing?_eq_some {frame outer : FrameId} (extended : env.Extends later)
    (lies : env.enclosing? frame = some outer) : later.enclosing? frame = some outer :=
  (extended.enclosing frame (lt_size_of_enclosing? lies)).trans lies

/-- From a new frame it is one frame further. -/
theorem ancestor?_child {frame ancestor : FrameId} {distance : Nat}
    (found : env.ancestor? frame distance = some ancestor) :
    (env.child frame).ancestor? env.size (distance + 1) = some ancestor := by
  simp only [ancestor?, enclosing?_child, if_pos]
  exact (Extends.child env frame).ancestor? found

theorem slot?_child_size (env : Environment α) (frame : FrameId) (name : String) :
    (env.child frame).slot? env.size name = none := by
  rw [slot?_child]
  simp [slot?, size]

/-- Frames are where they were, and those that bind `this` or `super` still do, the globals aside. -/
structure Secures (env later : Environment α) : Prop where
  extended : env.Extends later
  slots : ∀ (frame : FrameId) (name : String) (value : α), frame ≠ Heap.globals →
    name = thisName ∨ name = superName → env.slot? frame name = some value →
      later.slot? frame name = some value

namespace Secures

theorem refl (env : Environment α) : env.Secures env := ⟨.refl env, fun _ _ _ _ _ held => held⟩

theorem trans (first : env.Secures later) (second : later.Secures last) : env.Secures last :=
  ⟨first.extended.trans second.extended, fun frame name value inner reserved held =>
    second.slots frame name value inner reserved (first.slots frame name value inner reserved held)⟩

theorem child (env : Environment α) (frame : FrameId) : env.Secures (env.child frame) := by
  refine ⟨.child env frame, fun other name value _ _ held => ?_⟩
  rw [slot?_child]
  exact held

/-- To bind a name where it is not bound yet takes nothing away. -/
theorem define_new {frame : FrameId} {name : String} (absent : env.slot? frame name = none)
    (value : α) : env.Secures (env.define frame name value) := by
  refine ⟨.define env frame name value, fun other otherName held _ _ found => ?_⟩
  rw [slot?_define_of_ne]
  · exact found
  · rintro ⟨rfl, rfl⟩
    rw [absent] at found
    cases found

theorem define {frame : FrameId} {name : String} (free : name ≠ thisName ∧ name ≠ superName)
    (value : α) : env.Secures (env.define frame name value) := by
  refine ⟨.define env frame name value, fun other otherName held _ reserved found => ?_⟩
  rw [slot?_define_of_ne]
  · exact found
  · rintro ⟨rfl, rfl⟩
    exact reserved.elim free.1 free.2

/-- A new frame may bind any name. -/
theorem child_define (env : Environment α) (frame : FrameId) (name : String) (value : α) :
    env.Secures ((env.child frame).define env.size name value) :=
  (child env frame).trans (define_new (slot?_child_size env frame name) value)

/-- Among the globals any name may be bound. -/
theorem define_globals (name : String) (value : α) :
    env.Secures (env.define Heap.globals name value) := by
  refine ⟨.define env Heap.globals name value, fun other otherName held inner _ found => ?_⟩
  rw [slot?_define_of_ne]
  · exact found
  · exact fun same => inner same.1.symm

end Secures

end Environment

/-! ## At home -/

/-- The scope binds the instance of the home, and the scope around it the superclass, if there is
one. -/
structure Home.Anchored (home : Home) (env : Environment Value) (scope : FrameId) : Prop where
  inner : scope ≠ Heap.globals
  this : env.slot? scope thisName = some (.object home.receiver)
  super : ∀ parent ∈ home.superclass, ∃ outer, env.enclosing? scope = some outer ∧
    outer ≠ Heap.globals ∧ env.slot? outer superName = some (.classObject parent)

/-- The tether leads from the frame to where the home is anchored. -/
structure Tether.Leads (tether : Tether) (home : Home) (env : Environment Value)
    (frame : FrameId) : Prop where
  subclass : tether.subclass = home.superclass.isSome
  anchored : ∃ scope, env.ancestor? frame tether.distance = some scope ∧ home.Anchored env scope

/-- Code with the tether, if it has one, is at home in the frame. -/
def Home.Reaches (home : Option Home) (tether : Option Tether) (env : Environment Value)
    (frame : FrameId) : Prop :=
  ∀ length ∈ tether, ∃ found, home = some found ∧ length.Leads found env frame

section

variable {env after : Environment Value} {frame : FrameId} {home : Option Home}
  {tether : Option Tether}

theorem Home.Anchored.later {home : Home} {scope : FrameId} (anchored : home.Anchored env scope)
    (secures : env.Secures after) : home.Anchored after scope := by
  refine ⟨anchored.inner, secures.slots _ _ _ anchored.inner (.inl rfl) anchored.this,
    fun parent extended => ?_⟩
  obtain ⟨outer, lies, inner, held⟩ := anchored.super parent extended
  exact ⟨outer, secures.extended.enclosing?_eq_some lies, inner,
    secures.slots _ _ _ inner (.inr rfl) held⟩

theorem Home.Anchored.leads {home : Home} (anchored : home.Anchored env frame) :
    (Tether.ofClass home.superclass).Leads home env frame :=
  ⟨rfl, frame, rfl, anchored⟩

namespace Home.Reaches

theorem untethered : Home.Reaches home none env frame := nofun

theorem later (reaches : Home.Reaches home tether env frame) (secures : env.Secures after) :
    Home.Reaches home tether after frame := by
  intro length same
  obtain ⟨found, isHome, subclass, scope, reached, anchored⟩ := reaches length same
  exact ⟨found, isHome, subclass, scope, secures.extended.ancestor? reached, anchored.later secures⟩

theorem child (reaches : Home.Reaches home tether env frame) :
    Home.Reaches home (tether.map .longer) (env.child frame) env.size := by
  intro length same
  obtain ⟨shorter, given, rfl⟩ := Option.map_eq_some_iff.mp same
  obtain ⟨found, isHome, subclass, scope, reached, anchored⟩ := reaches shorter given
  exact ⟨found, isHome, subclass, scope, Environment.ancestor?_child reached,
    anchored.later (.child env frame)⟩

end Home.Reaches

end

/-! ## Values -/

/-- Whether a function can be called as it is. -/
def Belonging.IsCallable : Belonging → Prop
  | method _ _ => False
  | _ => True

/-- A function that can be called, a class that there is, or a value of another kind. -/
def Value.Known (heap : Heap) (belongings : List Belonging) : Value → Prop
  | .function id => ∃ belonging, belongings[id]? = some belonging ∧ belonging.IsCallable
  | .classObject id => id < heap.classes.size
  | _ => True

namespace Value.Known

variable {heap after : Heap} {belongings more : List Belonging} {value : Value}

theorem of_node?_eq_none (data : value.node? = none) : value.Known heap belongings := by
  cases value with
  | function id | classObject id => cases data
  | _ => trivial

theorem later (known : value.Known heap belongings) (retains : heap.Retains after)
    (grown : belongings <+: more) : value.Known after more := by
  cases value with
  | function id =>
    obtain ⟨belonging, found, callable⟩ := known
    exact ⟨belonging, getElem?_grown grown found, callable⟩
  | classObject id =>
    refine Nat.lt_of_lt_of_le known (Array.size_le_of_kept fun other classObject found => ?_)
    exact ⟨classObject, retains.classes other classObject found⟩
  | _ => trivial

end Value.Known

/-! ## Housed heaps -/

/-- What a function belongs to, and how it was made. -/
inductive Belonging.Houses (env : Environment Value) (closure : Closure) : Belonging → Prop where
  | function {home : Option Home} {tether : Option Tether} : closure.isInitializer = false →
      closure.lambda.Tethered tether → Home.Reaches home tether env closure.frame →
        Houses env closure (.function home)
  | method {name : String} {superclass : Option ClassId} :
      closure.isInitializer = (name == initializerName) →
        closure.lambda.Tethered (some (.ofClass superclass)) →
          (∀ parent ∈ superclass, closure.frame ≠ Heap.globals ∧
            env.slot? closure.frame superName = some (.classObject parent)) →
              Houses env closure (.method name superclass)
  | bound {name : String} {home : Home} : closure.isInitializer = (name == initializerName) →
      closure.lambda.Tethered (some (.ofClass home.superclass)) →
        home.Anchored env closure.frame → Houses env closure (.bound name home)

theorem Belonging.Houses.later {env after : Environment Value} {closure : Closure}
    {belonging : Belonging} (houses : belonging.Houses env closure) (secures : env.Secures after) :
    belonging.Houses after closure := by
  cases houses with
  | function plain tethered reaches => exact .function plain tethered (reaches.later secures)
  | method named tethered held =>
    refine .method named tethered fun parent extended => ?_
    obtain ⟨inner, bound⟩ := held parent extended
    exact ⟨inner, secures.slots _ _ _ inner (.inr rfl) bound⟩
  | bound named tethered anchored => exact .bound named tethered (anchored.later secures)

/-- A class extends an earlier one, and its methods are named as it has them. -/
structure ClassObject.Housed (classObject : ClassObject) (id : ClassId)
    (belongings : List Belonging) : Prop where
  superclass : ∀ parent ∈ classObject.superclass, parent < id
  methods : ∀ (name : String) (method : FunctionId), classObject.methods.get? name = some method →
    belongings[method]? = some (.method name classObject.superclass)

structure Heap.Housed (heap : Heap) (belongings : List Belonging) : Prop where
  root : Heap.globals < heap.environment.size
  count : belongings.length = heap.functions.size
  functions : ∀ (id : FunctionId) (closure : Closure), heap.functions[id]? = some closure →
    ∃ belonging : Belonging, belongings[id]? = some belonging ∧
      belonging.Houses heap.environment closure
  classes : ∀ (id : ClassId) (classObject : ClassObject), heap.classes[id]? = some classObject →
    classObject.Housed id belongings
  slots : ∀ (frame : FrameId) (name : String) (value : Value),
    heap.environment.slot? frame name = some value → value.Known heap belongings
  fields : ∀ (id : InstanceId) (i : Instance), heap.instances[id]? = some i →
    ∀ (name : String) (value : Value), i.fields.get? name = some value →
      value.Known heap belongings
  natives : heap.Discreet

namespace Heap.Housed

variable {heap : Heap} {belongings : List Belonging}

/-! ### Reading -/

theorem lookUp? {frame : FrameId} {name : String} {binding : Binding} {value : Value}
    (housed : heap.Housed belongings) (found : heap.lookUp? frame name binding = some value) :
    value.Known heap belongings := by
  cases binding with
  | global =>
    rw [Heap.lookUp?, Environment.get?_globals] at found
    exact housed.slots _ _ _ found
  | lexical distance =>
    obtain ⟨ancestor, _, held⟩ := Option.bind_eq_some_iff.mp found
    exact housed.slots _ _ _ held

theorem field? {id : InstanceId} {name : String} {value : Value} (housed : heap.Housed belongings)
    (found : heap.field? id name = some value) : value.Known heap belongings := by
  obtain ⟨i, there, named⟩ := Option.bind_eq_some_iff.mp found
  exact housed.fields id i there name value named

/-- What is found as a method is one of that name, as its class has it. -/
theorem findMethod? {name : String} {classId : ClassId} {method : FunctionId}
    (housed : heap.Housed belongings) (found : heap.findMethod? name classId = some method) :
    ∃ superclass, belongings[method]? = some (.method name superclass) := by
  replace found := Heap.provides_of_findMethod? found
  induction found with
  | own known own => exact ⟨_, (housed.classes _ _ known).methods _ _ own⟩
  | inherited _ _ _ _ ih => exact ih

/-- The search does not stop before the end of the chain: every superclass is an earlier class. -/
theorem findMethod?_eq_some_iff {name : String} {id : ClassId} {method : FunctionId}
    (housed : heap.Housed belongings) :
    heap.findMethod? name id = some method ↔ heap.Provides name id method := by
  refine ⟨provides_of_findMethod?, fun provides => ?_⟩
  induction provides with
  | own known own =>
    unfold Heap.findMethod?
    simp only [known, own]
  | inherited known missing extended _ ih =>
    have before := (housed.classes _ _ known).superclass _ extended
    unfold Heap.findMethod?
    simp only [known, missing, extended, if_pos before]
    exact ih

theorem closure? {id : FunctionId} {belonging : Belonging} (housed : heap.Housed belongings)
    (known : belongings[id]? = some belonging) : ∃ closure, heap.functions[id]? = some closure ∧
      belonging.Houses heap.environment closure := by
  have made : id < heap.functions.size := by
    rw [← housed.count]
    exact (List.getElem?_eq_some_iff.mp known).1
  have found := Array.getElem?_eq_getElem made
  obtain ⟨other, listed, houses⟩ := housed.functions id _ found
  rw [known] at listed
  cases listed
  exact ⟨_, found, houses⟩

/-! ### Writing -/

theorem ofEnvironment {environment : Environment Value} (housed : heap.Housed belongings)
    (secures : heap.environment.Secures environment)
    (slots : ∀ (frame : FrameId) (name : String) (value : Value),
      environment.slot? frame name = some value → value.Known heap belongings) :
    Heap.Housed { heap with environment := environment } belongings :=
  { root := Nat.lt_of_lt_of_le housed.root secures.extended.size
    count := housed.count
    functions := by
      intro id closure found
      obtain ⟨belonging, listed, houses⟩ := housed.functions id closure found
      exact ⟨belonging, listed, houses.later secures⟩
    classes := housed.classes
    slots := slots
    fields := housed.fields
    natives := housed.natives }

theorem define {frame : FrameId} {name : String} {value : Value} (housed : heap.Housed belongings)
    (secures : heap.environment.Secures (heap.environment.define frame name value))
    (known : value.Known heap belongings) : (heap.define frame name value).Housed belongings := by
  refine housed.ofEnvironment secures fun other otherName held found => ?_
  cases Environment.slot?_define_eq_some found with
  | inl new => exact new.2.2 ▸ known
  | inr before => exact housed.slots other otherName held before

theorem addFrame (housed : heap.Housed belongings) (frame : FrameId) :
    (heap.addFrame frame).2.Housed belongings := by
  refine housed.ofEnvironment (.child _ frame) fun other name value found => ?_
  rw [Environment.slot?_child] at found
  exact housed.slots other name value found

/-- One more function, with what it belongs to. -/
theorem addFunction {closure : Closure} {belonging : Belonging} (housed : heap.Housed belongings)
    (houses : belonging.Houses heap.environment closure) :
    (heap.addFunction closure).2.Housed (belongings ++ [belonging]) := by
  have grown : belongings <+: belongings ++ [belonging] := List.prefix_append _ _
  have retains := Heap.Retains.addFunction heap closure
  refine
    { root := housed.root
      count := by simp [Heap.addFunction, housed.count]
      functions := ?_
      classes := fun id classObject found => ⟨(housed.classes id classObject found).superclass,
        fun name method named =>
          getElem?_grown grown ((housed.classes id classObject found).methods name method named)⟩
      slots := fun frame name value found => (housed.slots frame name value found).later retains grown
      fields := fun id i found name value named =>
        (housed.fields id i found name value named).later retains grown
      natives := housed.natives }
  intro id other found
  change (heap.functions.push closure)[id]? = some other at found
  -- Functions and what they belong to are numbered alike: the new one is the last of both.
  by_cases new : id = heap.functions.size
  · subst new
    rw [Array.getElem?_push_size] at found
    cases found
    refine ⟨belonging, ?_, houses⟩
    rw [← housed.count, List.getElem?_append_right (Nat.le_refl _), Nat.sub_self]
    rfl
  · rw [Array.getElem?_push, if_neg new] at found
    obtain ⟨known, listed, housesOther⟩ := housed.functions id other found
    exact ⟨known, getElem?_grown grown listed, housesOther⟩

theorem addClass {classObject : ClassObject} (housed : heap.Housed belongings)
    (new : classObject.Housed heap.classes.size belongings) :
    (heap.addClass classObject).2.Housed belongings := by
  have retains := Heap.Retains.addClass heap classObject
  have same : belongings <+: belongings := List.prefix_refl _
  refine
    { root := housed.root
      count := housed.count
      functions := housed.functions
      classes := fun id other found => ?_
      slots := fun frame name value found => (housed.slots frame name value found).later retains same
      fields := fun id i found name value named =>
        (housed.fields id i found name value named).later retains same
      natives := housed.natives }
  change (heap.classes.push classObject)[id]? = some other at found
  rw [Array.getElem?_push] at found
  split at found
  · next last =>
    cases found
    exact last ▸ new
  · exact housed.classes id other found

theorem addInstance (housed : heap.Housed belongings) (classId : ClassId) :
    (heap.addInstance classId).2.Housed belongings := by
  refine
    { root := housed.root
      count := housed.count
      functions := housed.functions
      classes := housed.classes
      slots := housed.slots
      fields := fun id i found name value named => ?_
      natives := housed.natives }
  change (heap.instances.push ⟨classId, .empty⟩)[id]? = some i at found
  rw [Array.getElem?_push] at found
  split at found
  -- A new instance has no fields.
  · cases found
    cases named
  · exact housed.fields id i found name value named

theorem setField {id : InstanceId} {name : String} {value : Value} (housed : heap.Housed belongings)
    (known : value.Known heap belongings) : (heap.setField id name value).Housed belongings := by
  refine
    { root := housed.root
      count := housed.count
      functions := housed.functions
      classes := housed.classes
      slots := housed.slots
      fields := fun other i found otherName held named => ?_
      natives := housed.natives }
  change (heap.instances.modify id _)[other]? = some i at found
  rw [Array.getElem?_modify] at found
  split at found
  · obtain ⟨before, there, rfl⟩ := Option.map_eq_some_iff.mp found
    rw [Table.get?_set] at named
    split at named
    · cases named
      exact known
    · exact housed.fields other before there otherName held named
  · exact housed.fields other i found otherName held named

theorem assign {name : String} {value : Value} (housed : heap.Housed belongings) (frame : FrameId)
    (free : name ≠ thisName ∧ name ≠ superName) (known : value.Known heap belongings)
    (binding : Binding) : (heap.assign frame name value binding).2.Housed belongings ∧
      heap.environment.Secures (heap.assign frame name value binding).2.environment := by
  cases binding with
  | global =>
    simp only [Heap.assign, Environment.assign]
    split
    · exact ⟨housed, .refl _⟩
    · exact ⟨housed.define (.define free value) known, .define free value⟩
  | lexical distance =>
    simp only [Heap.assign, Environment.assignAt]
    split
    · exact ⟨housed, .refl _⟩
    · split
      · exact ⟨housed.define (.define free value) known, .define free value⟩
      · exact ⟨housed, .refl _⟩

theorem bindParameters {parameters : List Name} {arguments : List Value}
    (housed : heap.Housed belongings) (frame : FrameId)
    (ordinary : ∀ parameter ∈ parameters, parameter.written.IsOrdinary)
    (known : ∀ argument ∈ arguments, argument.Known heap belongings) :
    (Step.bindParameters heap frame parameters arguments).Housed belongings ∧
      heap.environment.Secures (Step.bindParameters heap frame parameters arguments).environment := by
  induction parameters generalizing heap arguments with
  | nil => exact ⟨housed, .refl _⟩
  | cons parameter rest ih =>
    cases arguments with
    | nil => exact ⟨housed, .refl _⟩
    | cons argument others =>
      have free := ordinary parameter (.head _)
      have secures : heap.environment.Secures
        (heap.define frame parameter.text argument).environment := .define free argument
      have bound := housed.define secures (known argument (.head _))
      obtain ⟨housedAll, securesAll⟩ := ih bound (fun other member => ordinary other (.tail _ member))
        fun other member => known other (.tail _ member)
      exact ⟨housedAll, secures.trans securesAll⟩

end Heap.Housed

/-! ### Methods -/

/-- The second function is the first one, with `this` bound to the receiver in a scope of its own. -/
def Heap.Binds (heap : Heap) (method bound : FunctionId) (receiver : InstanceId) : Prop :=
  ∃ closure frame, heap.functions[method]? = some closure ∧
    heap.functions[bound]? = some { closure with frame := frame } ∧
    heap.environment.enclosing? frame = some closure.frame ∧
    heap.environment.slot? frame thisName = some (.object receiver)

namespace Heap

variable {heap : Heap} {belongings : List Belonging} {method : FunctionId}

theorem secures_bindMethod (heap : Heap) (method : FunctionId) (receiver : InstanceId) :
    heap.environment.Secures (heap.bindMethod method receiver).2.environment := by
  unfold Heap.bindMethod
  split
  · exact .refl _
  · exact .child_define _ _ _ _

theorem retains_bindMethod (heap : Heap) (method : FunctionId) (receiver : InstanceId) :
    heap.Retains (heap.bindMethod method receiver).2 :=
  ((Region.Bounds.refl (.whole heap)).bindMethod trivial trivial).1.retains

theorem binds_bindMethod {closure : Closure} (found : heap.functions[method]? = some closure)
    (receiver : InstanceId) :
    (heap.bindMethod method receiver).2.Binds method (heap.bindMethod method receiver).1
      receiver := by
  have kept := (retains_bindMethod heap method receiver).grown.functions method closure found
  refine ⟨closure, heap.environment.size, kept, ?_, ?_, ?_⟩
  · simp [Heap.bindMethod, found, Heap.addFunction, Heap.addFrame, Heap.define]
  · simp [Heap.bindMethod, found, Heap.addFunction, Heap.addFrame, Heap.define,
      Environment.enclosing?_define, Environment.enclosing?_child]
  · simp only [Heap.bindMethod, found, Heap.addFunction, Heap.addFrame, Heap.define]
    exact Environment.slot?_define_self (heap.environment.size_lt_size_child closure.frame)

theorem Housed.binds_bindMethod {belonging : Belonging} (housed : heap.Housed belongings)
    (known : belongings[method]? = some belonging) (receiver : InstanceId) :
    (heap.bindMethod method receiver).2.Binds method (heap.bindMethod method receiver).1
      receiver := by
  obtain ⟨closure, found, _⟩ := housed.closure? known
  exact heap.binds_bindMethod found receiver

/-- A method that is bound is at home in the scope that it was short of. -/
theorem Housed.bindMethod {name : String} {superclass : Option ClassId}
    (housed : heap.Housed belongings)
    (known : belongings[method]? = some (.method name superclass)) (receiver : InstanceId) :
    (heap.bindMethod method receiver).2.Housed
        (belongings ++ [.bound name ⟨superclass, receiver⟩]) ∧
      (heap.bindMethod method receiver).1 = belongings.length := by
  obtain ⟨closure, found, houses⟩ := housed.closure? known
  -- As its class has it, the method is short of the instance alone.
  obtain ⟨named, tethered, held⟩ : closure.isInitializer = (name == initializerName) ∧
      closure.lambda.Tethered (some (.ofClass superclass)) ∧
      ∀ parent ∈ superclass, closure.frame ≠ Heap.globals ∧
        heap.environment.slot? closure.frame superName = some (.classObject parent) := by
    cases houses with
    | method named tethered held => exact ⟨named, tethered, held⟩
  let opened := heap.environment.child closure.frame
  let inside := opened.define heap.environment.size thisName (.object receiver)
  have secures : heap.environment.Secures inside := .child_define _ _ _ _
  have lies : inside.enclosing? heap.environment.size = some closure.frame := by
    rw [Environment.enclosing?_define, Environment.enclosing?_child, if_pos rfl]
  have anchored : Home.Anchored ⟨superclass, receiver⟩ inside heap.environment.size := by
    refine ⟨Nat.ne_of_gt housed.root, ?_, fun parent extended => ?_⟩
    · exact Environment.slot?_define_self (heap.environment.size_lt_size_child closure.frame)
    · obtain ⟨inner, bound⟩ := held parent extended
      exact ⟨closure.frame, lies, inner, secures.slots _ _ _ inner (.inr rfl) bound⟩
  have defined : Heap.Housed { heap with environment := inside } belongings := by
    -- The frame is new, so to bind `this` in it takes nothing from anyone.
    have absent := heap.environment.slot?_child_size closure.frame thisName
    exact (housed.addFrame closure.frame).define (.define_new absent _) trivial
  unfold Heap.bindMethod
  rw [found]
  refine ⟨defined.addFunction ?_, housed.count.symm⟩
  exact .bound named tethered anchored

end Heap

end Lox
