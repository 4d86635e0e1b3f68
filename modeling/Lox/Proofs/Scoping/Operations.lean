import Lox.Proofs.Reach.Links
import Lox.Proofs.Scoping.Agreement

/-!
# Agreement of the parts without recursion

What evaluation is made of keeps the heap sound: values come from where values were put, names are
bound in frames that are there, and functions are made where their declarations were resolved.
-/

namespace Lox

variable {origins : List Origin}

/-! ## Data -/

/-- Only functions can be bare, so data is plain wherever functions come from. -/
theorem Value.IsPlain.of_node?_eq_none {value : Value} (data : value.node? = none) :
    value.IsPlain origins := by
  cases value with
  | function id => cases data
  | _ => trivial

/-! ## Names -/

namespace Heap

variable {heap : Heap} {frame : FrameId} {name : String} {binding : Binding}

theorem lookUp?_slot? {value : Value} (found : heap.lookUp? frame name binding = some value) :
    ∃ holder, heap.environment.slot? holder name = some value := by
  cases binding with
  | global =>
    rw [Heap.lookUp?, Environment.get?_globals] at found
    exact ⟨_, found⟩
  | lexical distance =>
    obtain ⟨ancestor, _, held⟩ := Option.bind_eq_some_iff.mp found
    exact ⟨ancestor, held⟩

/-- Assigning to a name changes it where it is bound, or nothing. -/
theorem assign_cases (heap : Heap) (frame : FrameId) (name : String) (value : Value)
    (binding : Binding) :
    heap.assign frame name value binding = (false, heap) ∨
      ∃ holder, (heap.environment.slot? holder name).isSome ∧
        heap.assign frame name value binding = (true, heap.define holder name value) := by
  cases binding with
  | global =>
    simp only [Heap.assign, Environment.assign_globals]
    split
    · next bound => exact .inr ⟨_, bound, rfl⟩
    · exact .inl rfl
  | lexical distance =>
    simp only [Heap.assign, Environment.assignAt]
    cases heap.environment.ancestor? frame distance with
    | none => exact .inl rfl
    | some ancestor =>
      by_cases bound : (heap.environment.slot? ancestor name).isSome
      · refine .inr ⟨ancestor, bound, ?_⟩
        simp only [bound, if_true]
        rfl
      · refine .inl ?_
        simp only [bound, Bool.false_eq_true, if_false]

/-- In a scope, a name is assigned to where it is bound. -/
theorem assign_lexical {distance : Nat} {ancestor : FrameId} (value : Value)
    (reached : heap.environment.ancestor? frame distance = some ancestor)
    (bound : (heap.environment.slot? ancestor name).isSome) :
    heap.assign frame name value (.lexical distance) = (true, heap.define ancestor name value) := by
  simp only [Heap.assign, Environment.assignAt, reached, if_pos bound]
  rfl

theorem assign_global (frame : FrameId) (name : String) (value : Value) :
    heap.assign frame name value .global =
      if (heap.environment.slot? globals name).isSome then (true, heap.define globals name value)
      else (false, heap) := by
  simp only [Heap.assign, Environment.assign_globals]
  split <;> rfl

end Heap

namespace Step

variable {name : Name} {binding : Binding} {value : Value} {machine : Machine}

theorem assign_bound {heap : Heap}
    (assigned : machine.heap.assign machine.frame name.text value binding = (true, heap)) :
    assign name binding value machine = .finished () { machine with heap := heap } := by
  simp only [assign, innermost, changeHeap, bind, Step.bind, assigned]
  rfl

theorem assign_unbound {heap : Heap}
    (unbound : machine.heap.assign machine.frame name.text value binding = (false, heap)) :
    assign name binding value machine =
      .failed ⟨.undefinedVariable name.text, name.token⟩ { machine with heap := heap } := by
  simp only [assign, innermost, changeHeap, bind, Step.bind, unbound]
  rfl

end Step

namespace Watch

variable {α : Type} {opens : Prop} {s : Surroundings} {machine after : Machine}

/-- A value that can be kept. -/
def Keeps (value : Value) (_ : Machine) (origins : List Origin) : Prop := value.IsPlain origins

theorem Steady.ofHeap (sound : machine.heap.Sound origins) (heap : after.heap = machine.heap)
    (frame : after.frame = machine.frame) : Steady opens machine origins after origins := by
  refine ⟨?_, frame, ?_, List.prefix_rfl⟩
  · rw [heap]
    exact sound
  · rw [heap]
    exact .refl _

theorem agrees_ofOperands {result : Except OperandProblem Value} {token : Token}
    (sound : machine.heap.Sound origins)
    (data : ∀ value, result = .ok value → value.node? = none) :
    Agrees opens machine origins (lift (Step.ofOperands result token))
      (Step.ofOperands result token) Keeps := by
  cases result with
  | ok value => exact agrees_pure sound (.of_node?_eq_none (data value rfl))
  | error problem => exact agrees_fail sound

theorem agrees_lookUp {name : String} {binding : Binding} {token : Token}
    (sound : machine.heap.Sound origins) :
    Agrees opens machine origins (lift (Step.lookUp name binding token))
      (Step.lookUp name binding token) Keeps := by
  refine agrees_lift (fun result after finished => ?_) (fun error after failed => ?_)
  · simp only [Step.lookUp] at finished
    split at finished
    · next value found =>
      cases finished
      obtain ⟨holder, held⟩ := Heap.lookUp?_slot? found
      exact ⟨.refl sound, sound.slots holder name _ held⟩
    · cases finished
  · simp only [Step.lookUp] at failed
    split at failed
    · cases failed
    · cases failed
      exact .refl sound

/-- Binds a name in the innermost scope, which has to be open to it. -/
theorem agrees_define {name : String} {value : Value} (stands : Stands s machine origins)
    (opened : opens) (plain : value.IsPlain origins) :
    Agrees opens machine origins (lift (Step.define name value)) (Step.define name value)
      fun _ after _ => (after.heap.environment.slot? after.frame name).isSome := by
  have made := stands.matched.lt_size stands.sound.root
  refine ⟨origins, rfl, ⟨stands.sound.define made plain, rfl,
    .define made (.inl (.inr ⟨opened, rfl⟩)), List.prefix_rfl⟩, ?_⟩
  change ((machine.heap.environment.define machine.frame name value).slot? _ name).isSome
  rw [Environment.slot?_define_self made]
  rfl

theorem steady_assign {name : String} {value : Value} {holder : FrameId}
    (sound : machine.heap.Sound origins) (plain : value.IsPlain origins)
    (bound : (machine.heap.environment.slot? holder name).isSome) :
    Steady opens machine origins { machine with heap := machine.heap.define holder name value }
      origins := by
  have made := Environment.lt_size_of_slot? bound
  exact ⟨sound.define made plain, rfl, .define made (.inr bound), List.prefix_rfl⟩

theorem agrees_assign {name : Name} {binding : Binding} {value : Value}
    (sound : machine.heap.Sound origins) (plain : value.IsPlain origins) :
    Agrees opens machine origins (lift (Step.assign name binding value))
      (Step.assign name binding value) fun _ _ _ => True := by
  obtain unbound | ⟨holder, bound, assigned⟩ :=
    machine.heap.assign_cases machine.frame name.text value binding
  · have fails := Step.assign_unbound unbound
    refine agrees_lift (fun result after finished => ?_) (fun error after failed => ?_)
    · rw [fails] at finished
      cases finished
    · rw [fails] at failed
      cases failed
      exact .refl sound
  · have finishes := Step.assign_bound assigned
    refine agrees_lift (fun result after finished => ?_) (fun error after failed => ?_)
    · rw [finishes] at finished
      cases finished
      exact ⟨steady_assign sound plain bound, trivial⟩
    · rw [finishes] at failed
      cases failed

theorem agrees_assignOrDefine {name : Name} {binding : Binding} {value : Value}
    (sound : machine.heap.Sound origins) (plain : value.IsPlain origins) :
    Agrees opens machine origins (lift (Step.assignOrDefine name binding value))
      (Step.assignOrDefine name binding value) fun _ _ _ => True := by
  cases binding with
  | global =>
    exact ⟨origins, rfl, ⟨sound.define sound.root plain, rfl,
      .define sound.root (.inl (.inl rfl)), List.prefix_rfl⟩, trivial⟩
  | lexical distance => exact agrees_assign sound plain

/-! ## Properties -/

/-- The bound method is one more function, and one that can be called: the method but for its
frame. -/
theorem agrees_bindMethod {method : FunctionId} {receiver : InstanceId}
    (sound : machine.heap.Sound origins) (bare : IsBare origins method) :
    Agrees opens machine origins (bindMethod method receiver)
      (Step.changeHeap (·.bindMethod method receiver))
      fun bound after later => (∃ origin, later[bound]? = some origin ∧ origin.bare = false) ∧
        ∃ closure frame, machine.heap.functions[method]? = some closure ∧
          after.heap.functions[bound]? = some { closure with frame := frame } := by
  obtain ⟨origin, known, unbound⟩ := bare
  have inside : method < machine.heap.functions.size := by
    rw [← sound.count]
    exact (List.getElem?_eq_some_iff.mp known).1
  have found : machine.heap.functions[method]? = some machine.heap.functions[method] :=
    Array.getElem?_eq_getElem inside
  have first : (machine.heap.bindMethod method receiver).1 = machine.heap.functions.size := by
    simp only [Heap.bindMethod, found]
    rfl
  have pushed : (machine.heap.bindMethod method receiver).2.functions = machine.heap.functions.push
      { machine.heap.functions[method] with frame := machine.heap.environment.size } := by
    simp only [Heap.bindMethod, found]
    rfl
  have second : (machine.heap.bindMethod method receiver).2.environment =
      (machine.heap.environment.child machine.heap.functions[method].frame).define
        machine.heap.environment.size thisName (.object receiver) := by
    simp only [Heap.bindMethod, found]
    rfl
  simp only [Agrees, Step.changeHeap]
  refine ⟨origins ++ [{ origin with bare := false }], ?_, ⟨sound.bindMethod known unbound, rfl, ?_,
    List.prefix_append _ _⟩, ⟨{ origin with bare := false }, ?_, rfl⟩, _, _, found,
    by rw [pushed, first, Array.getElem?_push_size]⟩
  · simp only [bindMethod, known, unbound]
    rfl
  · rw [second]
    exact .child_define _ _ _
  · rw [first, ← sound.count, List.getElem?_append_right (Nat.le_refl _), Nat.sub_self]
    rfl

/-- A method, found as such, becomes a value by being bound. -/
theorem agrees_boundMethod {method : FunctionId} {receiver : InstanceId}
    (sound : machine.heap.Sound origins) (bare : IsBare origins method) :
    Agrees opens machine origins (bindMethod method receiver >>= fun bound => pure (.function bound))
      (Step.changeHeap (·.bindMethod method receiver) >>= fun bound => pure (.function bound))
      Keeps :=
  agrees_bind (agrees_bindMethod sound bare) fun _ _ _ steady plain =>
    agrees_pure steady.sound plain.1

theorem agrees_getProperty {id : InstanceId} {name : Name} (sound : machine.heap.Sound origins) :
    Agrees opens machine origins (getProperty id name) (Step.getProperty id name) Keeps := by
  rw [Step.getProperty_eq]
  refine agrees_readHeap ?_
  cases held : machine.heap.field? id name.text with
  | some value =>
    obtain ⟨i, there, named⟩ := Option.bind_eq_some_iff.mp held
    exact agrees_pure sound (sound.fields id i there name.text value named)
  | none =>
    refine agrees_readHeap ?_
    cases found : (machine.heap.instances[id]?).bind fun i =>
        machine.heap.findMethod? name.text i.classId with
    | some method =>
      obtain ⟨i, _, isMethod⟩ := Option.bind_eq_some_iff.mp found
      exact agrees_boundMethod sound (sound.findMethod? isMethod)
    | none => exact agrees_fail sound

/-- The parts of a `super` expression are only read. -/
theorem agrees_superParts {line : Nat} {binding : Binding} (sound : machine.heap.Sound origins) :
    Agrees opens machine origins (lift (Step.superParts line binding))
      (Step.superParts line binding) fun _ _ _ => True := by
  have stays : (∃ parts, Step.superParts line binding machine = .finished parts machine) ∨
      ∃ error, Step.superParts line binding machine = .failed error machine := by
    simp only [Step.superParts]
    split
    · exact .inr ⟨_, rfl⟩
    · split
      · split
        · exact .inr ⟨_, rfl⟩
        · split
          · exact .inl ⟨_, rfl⟩
          · exact .inr ⟨_, rfl⟩
      · exact .inr ⟨_, rfl⟩
  refine agrees_lift (fun result after finished => ?_) (fun error after failed => ?_)
  · obtain ⟨parts, ends⟩ | ⟨error, ends⟩ := stays <;> rw [ends] at finished <;> cases finished
    exact ⟨.refl sound, trivial⟩
  · obtain ⟨parts, ends⟩ | ⟨error, ends⟩ := stays <;> rw [ends] at failed <;> cases failed
    exact .refl sound

theorem agrees_superProperty {line : Nat} {binding : Binding} {method : Name}
    (sound : machine.heap.Sound origins) :
    Agrees opens machine origins (superProperty line binding method)
      (Step.superProperty line binding method) Keeps := by
  refine agrees_bind (agrees_superParts sound) ?_
  rintro ⟨superclass, id⟩ after later steady _
  refine agrees_readHeap ?_
  cases found : after.heap.findMethod? method.text superclass with
  | some isMethod => exact agrees_boundMethod steady.sound (steady.sound.findMethod? found)
  | none => exact agrees_readHeap (agrees_fail steady.sound)

theorem agrees_setProperty {object : Value} {name : Name} {value : Value}
    (sound : machine.heap.Sound origins) (plain : value.IsPlain origins) :
    Agrees opens machine origins (lift (Step.setProperty object name value))
      (Step.setProperty object name value) fun _ _ _ => True := by
  cases object with
  | object id =>
    exact ⟨origins, rfl, ⟨sound.setField plain, rfl, .refl _, List.prefix_rfl⟩, trivial⟩
  | _ => exact agrees_fail sound

/-- An instance of a class, which makes no functions. -/
theorem agrees_addInstance {classId : ClassId} (sound : machine.heap.Sound origins) :
    Agrees opens machine origins (lift (Step.changeHeap (·.addInstance classId)))
      (Step.changeHeap (·.addInstance classId))
      fun _ after _ => after.heap.functions = machine.heap.functions :=
  agrees_changeHeap sound.addInstance (.refl _) rfl

/-! ## Calls -/

theorem agrees_checkArity {expected given : Nat} {paren : Token}
    (sound : machine.heap.Sound origins) :
    Agrees opens machine origins (lift (Step.checkArity expected given paren))
      (Step.checkArity expected given paren) fun _ after _ => after = machine ∧ expected = given := by
  by_cases same : expected = given
  · simp only [Step.checkArity, if_pos same]
    exact agrees_pure sound ⟨rfl, same⟩
  · simp only [Step.checkArity, if_neg same]
    exact agrees_fail sound

theorem agrees_write {text : String} {paren : Token} (sound : machine.heap.Sound origins) :
    Agrees opens machine origins (lift (Step.write text paren)) (Step.write text paren)
      fun _ _ _ => True := by
  refine agrees_lift (fun result after finished => ?_) (fun error after failed => ?_)
  · simp only [Step.write] at finished
    split at finished <;> cases finished
    exact ⟨.ofHeap sound rfl rfl, trivial⟩
  · simp only [Step.write] at failed
    split at failed <;> cases failed
    exact .ofHeap sound rfl rfl

theorem agrees_readClock (sound : machine.heap.Sound origins) :
    Agrees opens machine origins (lift Step.readClock) Step.readClock fun _ _ _ => True :=
  ⟨origins, rfl, .ofHeap sound rfl rfl, trivial⟩

theorem agrees_lift_bind {β : Type} {first : Step α} {rest : α → Step β}
    {post : β → Machine → List Origin → Prop}
    (agrees : Agrees opens machine origins (lift first >>= fun result => lift (rest result))
      (first >>= rest) post) :
    Agrees opens machine origins (lift (first >>= rest)) (first >>= rest) post := by
  rw [lift_bind]
  exact agrees

theorem agrees_callNative {id : NativeId} {arguments : List Value} {paren : Token}
    (sound : machine.heap.Sound origins)
    (plain : ∀ argument ∈ arguments, argument.IsPlain origins) :
    Agrees opens machine origins (lift (Step.callNative id arguments paren))
      (Step.callNative id arguments paren) Keeps := by
  refine agrees_lift_bind (agrees_readHeap ?_)
  cases found : machine.heap.natives[id]? with
  | none => exact agrees_fail sound
  | some native =>
    refine agrees_lift_bind (agrees_bind (agrees_checkArity sound) ?_)
    rintro _ _ later steady ⟨rfl, _⟩
    refine agrees_lift_bind (agrees_readHeap ?_)
    cases replied : native.routine (Heap.shown _) arguments with
    | value value =>
      refine agrees_pure steady.sound ?_
      cases value with
      -- The only functions that a routine gives back are among the arguments.
      | function given =>
        have forwarded := sound.natives id native found _ arguments given replied
        exact (plain _ forwarded).mono steady.origins
      | _ => trivial
    | failure message => exact agrees_fail steady.sound
    | write text =>
      refine agrees_lift_bind (agrees_bind (agrees_write steady.sound) ?_)
      intro _ after latest further _
      exact agrees_pure further.sound trivial
    | readClock =>
      refine agrees_lift_bind (agrees_bind (agrees_readClock steady.sound) ?_)
      intro _ after latest further _
      exact agrees_pure further.sound trivial

theorem agrees_callResult {closure : Closure} {flow : Flow} (sound : machine.heap.Sound origins)
    (plain : flow.IsPlain origins) :
    Agrees opens machine origins (lift (Step.callResult closure flow))
      (Step.callResult closure flow) Keeps := by
  by_cases initializes : closure.isInitializer = true
  · simp only [Step.callResult, if_pos initializes]
    refine agrees_pure sound ?_
    -- An initializer gives what `this` is bound to, and whatever is bound is plain.
    change ((machine.heap.environment.getAt? closure.frame 0 thisName).getD .nil).IsPlain origins
    cases found : machine.heap.environment.getAt? closure.frame 0 thisName with
    | none => trivial
    | some value => exact sound.slots closure.frame thisName value found
  · simp only [Step.callResult, if_neg initializes]
    cases flow with
    | normal => exact agrees_pure sound trivial
    | returns _ value => exact agrees_pure sound plain
    | breaks _ => exact agrees_fail sound
    | continues _ => exact agrees_fail sound

/-- Binding parameters in a frame binds all of them there, and changes no other frame. -/
theorem bindParameters_sound {heap : Heap} {frame : FrameId} {parameters : List Name}
    {arguments : List Value} (sound : heap.Sound origins) (made : frame < heap.environment.size)
    (plain : ∀ argument ∈ arguments, argument.IsPlain origins)
    (arity : parameters.length = arguments.length) :
    (Step.bindParameters heap frame parameters arguments).Sound origins ∧
      heap.environment.Grows (· = frame)
        (Step.bindParameters heap frame parameters arguments).environment ∧
      ∀ parameter ∈ parameters, ((Step.bindParameters heap frame parameters
        arguments).environment.slot? frame parameter.text).isSome := by
  induction parameters generalizing heap arguments with
  | nil => exact ⟨sound, .refl _, nofun⟩
  | cons parameter parameters ih =>
    cases arguments with
    | nil => cases arity
    | cons argument arguments =>
      rw [Step.bindParameters]
      have defined : (heap.define frame parameter.text argument).Sound origins :=
        sound.define made (plain argument (.head _))
      have grown : heap.environment.Grows (· = frame)
          (heap.define frame parameter.text argument).environment := .define made (.inl rfl)
      obtain ⟨bound, grows, named⟩ := ih defined
        (Nat.lt_of_lt_of_le made grown.size)
        (fun other member => plain other (.tail _ member)) (Nat.succ.inj arity)
      refine ⟨bound, grown.trans grows fun _ _ same => same, fun other member => ?_⟩
      cases member with
      | head =>
        refine grows.kept frame parameter.text ?_
        change ((heap.environment.define frame parameter.text argument).slot? _ _).isSome
        rw [Environment.slot?_define_self made]
        rfl
      | tail _ further => exact named other further

section

variable {β : Type} {watch : Watch β} {step : Step β} {inner post : β → Machine → List Origin → Prop}

/-- The body of a function runs inside what surrounds its declaration, wherever it is called. -/
theorem agrees_inCall {closure : Closure} {origin : Origin} {arguments : List Value} {paren : Token}
    (sound : machine.heap.Sound origins)
    (described : origin.Describes machine.heap.environment closure) (bound : origin.bare = false)
    (plain : ∀ argument ∈ arguments, argument.IsPlain origins)
    (arity : closure.lambda.parameters.length = arguments.length)
    (body : ∀ entered : Machine,
      Stands (origin.surroundings.enterFunction closure.lambda.parameters) entered origins →
        Agrees True entered origins watch step inner)
    (weakens : ∀ result after left later, inner result after later → post result left later) :
    Agrees False machine origins (inCall closure arguments paren watch)
      (Step.inCall closure arguments paren step) post := by
  have matched : machine.heap.environment.Matches closure.frame origin.surroundings.scopes := by
    have placed := described.placed
    rw [Origin.Places, if_neg (by simp [bound])] at placed
    exact placed
  have added : (machine.heap.addFrame closure.frame).2.Sound origins := sound.addFrame
  obtain ⟨boundSound, grows, named⟩ := bindParameters_sound added
    (machine.heap.environment.size_lt_size_child closure.frame) plain arity
  -- The frame of the call opens a scope inside those of the declaration. The parameters are bound
  -- in that frame, which leaves the frames around it as they were.
  obtain ⟨inner, _, enclosing, lies, rest⟩ := (matched.child sound.root).grows grows
  have entered : machine.heap.environment.Grows (machine.MayGain False)
      (machine.heap.environment.child closure.frame) := .child _ _
  have called := entered.trans_new grows
  by_cases full : Step.maximumDepth ≤ machine.depth
  · simp only [Agrees, Step.inCall_eq, inCall, if_pos full]
    exact ⟨origins, rfl, .refl sound⟩
  · have inside := body (machine.enterCall closure arguments)
      ⟨boundSound, inner, fun name member => by
        obtain ⟨parameter, listed, rfl⟩ := List.mem_map.mp member
        exact named parameter listed, enclosing, lies, rest⟩
    have runs : Step.inCall closure arguments paren step machine =
        (step (machine.enterCall closure arguments)).mapMachine machine.leaveCall := by
      rw [Step.inCall_eq, if_neg full]
    refine agrees_around inside ?_ runs
      (fun _ _ steady => steady.back called (Nat.le_refl _) rfl rfl)
      fun result left later _ holds => weakens result left _ later holds
    simp only [inCall, if_neg full]
    exact around_eq

end

end Watch

end Lox
