import Lox.Binding
import Lox.Environment
import Lox.Native
import Lox.Text.Quoted

/-!
# The heap

Everything with an identity that a running program has made: frames, functions, classes and
instances, each in the order of creation and none ever removed, and the native routines that were
installed.
-/

namespace Lox

/-! ## Objects -/

/-- A function declaration together with the frame it was evaluated in. -/
structure Closure where
  /-- The declared name; a function literal has none. -/
  name : Option String
  lambda : Lambda Binding
  frame : FrameId
  /-- Whether calls give the instance that the function is bound to. -/
  isInitializer : Bool

structure ClassObject where
  name : String
  superclass : Option ClassId
  methods : Table FunctionId

structure Instance where
  classId : ClassId
  fields : Table Value

structure Heap where
  environment : Environment Value
  functions : Array Closure
  classes : Array ClassObject
  instances : Array Instance
  natives : Array Native

namespace Heap

/-- The frame of the globals. -/
def globals : FrameId := 0

/-- A heap with the frame of the globals and nothing in it. -/
def empty : Heap := ⟨.root, #[], #[], #[], #[]⟩

/-! ## Adding objects -/

/-- Binds a name in a frame. -/
def define (heap : Heap) (frame : FrameId) (name : String) (value : Value) : Heap :=
  { heap with environment := heap.environment.define frame name value }

/-- A new frame in `frame`. -/
def addFrame (heap : Heap) (frame : FrameId) : FrameId × Heap :=
  (heap.environment.size, { heap with environment := heap.environment.child frame })

def addFunction (heap : Heap) (closure : Closure) : FunctionId × Heap :=
  (heap.functions.size, { heap with functions := heap.functions.push closure })

def addClass (heap : Heap) (classObject : ClassObject) : ClassId × Heap :=
  (heap.classes.size, { heap with classes := heap.classes.push classObject })

/-- A new instance of a class, without fields. -/
def addInstance (heap : Heap) (classId : ClassId) : InstanceId × Heap :=
  (heap.instances.size, { heap with instances := heap.instances.push ⟨classId, .empty⟩ })

/-- Makes a native routine known under its name, in place of a global of that name. -/
def install (heap : Heap) (native : Native) : Heap :=
  let id := heap.natives.size
  { heap with natives := heap.natives.push native }.define globals native.name (.native id)

/-! ## Names -/

/-- The value that a name has where `frame` is the innermost scope. -/
def lookUp? (heap : Heap) (frame : FrameId) (name : String) : Binding → Option Value
  | .global => heap.environment.get? globals name
  | .lexical distance => heap.environment.getAt? frame distance name

/-- Gives a name a new value where `frame` is the innermost scope, and says whether the name is
bound. -/
def assign (heap : Heap) (frame : FrameId) (name : String) (value : Value) : Binding → Bool × Heap
  | .global =>
    let (bound, environment) := heap.environment.assign globals name value
    (bound, { heap with environment := environment })
  | .lexical distance =>
    let (bound, environment) := heap.environment.assignAt frame distance name value
    (bound, { heap with environment := environment })

/-! ## Classes and instances -/

/-- The method of a class by a name: its own, or else that of its superclass, which was there
before it. -/
def findMethod? (heap : Heap) (name : String) (classId : ClassId) : Option FunctionId :=
  match heap.classes[classId]? with
  | none => none
  | some classObject =>
    match classObject.methods.get? name with
    | some method => some method
    | none =>
      match classObject.superclass with
      | none => none
      | some superclass =>
        if superclass < classId then heap.findMethod? name superclass else none
  termination_by classId

/-- Which method a class has is a matter of the classes alone. -/
theorem findMethod?_of_classes {heap later : Heap} (same : later.classes = heap.classes)
    (name : String) (classId : ClassId) :
    later.findMethod? name classId = heap.findMethod? name classId := by
  induction classId using Nat.strongRecOn with
  | ind classId ih =>
    rw [findMethod?, findMethod?, same]
    split
    · rfl
    · split
      · rfl
      · split
        · rfl
        · next superclass _ =>
          split
          · next before => exact ih superclass before
          · rfl

/-- The method is the first one of that name from the class upwards. -/
inductive Provides (heap : Heap) (name : String) : ClassId → FunctionId → Prop where
  | own {id : ClassId} {classObject : ClassObject} {method : FunctionId} :
      heap.classes[id]? = some classObject → classObject.methods.get? name = some method →
        Provides heap name id method
  | inherited {id parent : ClassId} {classObject : ClassObject} {method : FunctionId} :
      heap.classes[id]? = some classObject → classObject.methods.get? name = none →
        classObject.superclass = some parent → Provides heap name parent method →
          Provides heap name id method

theorem provides_of_findMethod? {heap : Heap} {name : String} {id : ClassId} {method : FunctionId}
    (found : heap.findMethod? name id = some method) : heap.Provides name id method := by
  induction id using Nat.strongRecOn with
  -- The search goes on only in a class that was made before this one.
  | ind id ih =>
    unfold findMethod? at found
    split at found
    case h_1 => cases found
    case h_2 classObject known =>
      split at found
      case h_1 own =>
        cases found
        exact .own known own
      case h_2 missing =>
        split at found
        case h_1 => cases found
        case h_2 parent extended =>
          split at found
          case isTrue before => exact .inherited known missing extended (ih parent before found)
          case isFalse => cases found

/-- A field of an instance. -/
def field? (heap : Heap) (id : InstanceId) (name : String) : Option Value :=
  (heap.instances[id]?).bind (·.fields.get? name)

/-- Gives a field of an instance a value, making the field if it is not there. -/
def setField (heap : Heap) (id : InstanceId) (name : String) (value : Value) : Heap :=
  { heap with
    instances := heap.instances.modify id fun i => ⟨i.classId, i.fields.set name value⟩ }

/-- The method bound to an instance: a new function whose frame, in the frame of the method, binds
the instance. -/
def bindMethod (heap : Heap) (method : FunctionId) (receiver : InstanceId) :
    FunctionId × Heap :=
  match heap.functions[method]? with
  | none => (method, heap)
  | some closure =>
    let (frame, heap) := heap.addFrame closure.frame
    let heap := heap.define frame thisName (.object receiver)
    heap.addFunction { closure with frame := frame }

/-! ## Showing values -/

def className (heap : Heap) (id : ClassId) : String := (heap.classes[id]?.map (·.name)).getD ""

/-- A value as programs show it. -/
def shown (heap : Heap) : Value → String
  | .nil => "nil"
  | .boolean true => "true"
  | .boolean false => "false"
  | .number value => value.shown
  | .text contents => contents
  | .native id => "<native fn " ++ (heap.natives[id]?.map (·.name)).getD "" ++ ">"
  | .function id =>
    match (heap.functions[id]?).bind (·.name) with
    | some name => "<fn " ++ name ++ ">"
    | none => "<fn>"
  | .classObject id => heap.className id
  | .object id =>
    ((heap.instances[id]?).map fun i => heap.className i.classId).getD "" ++ " instance"

end Heap

/-- A value with its type, unmistakably: texts are quoted. `shown` is how values are shown. -/
def Value.inspected (shown : Value → String) : Value → String
  | .text contents => "String(" ++ Text.quoted contents ++ ")"
  | value => value.typeName ++ "(" ++ shown value ++ ")"

end Lox
