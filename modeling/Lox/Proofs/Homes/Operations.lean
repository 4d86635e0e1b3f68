import Lox.Proofs.Homes.Telling

/-!
# What the steps of evaluation tell

The contract of each step that evaluation is made of. Only declarations, assignments and parameters write
to frames that are there, and none of them under the name `this` or `super`; what binds these are the
frames of classes and of bound methods, which are new.
-/

namespace Lox

theorem Heap.retains_assign (heap : Heap) (frame : FrameId) (name : String) (value : Value)
    (binding : Binding) : heap.Retains (heap.assign frame name value binding).2 :=
  ((Region.Bounds.refl (.whole heap)).assign trivial (fun _ _ => trivial) binding).retains

/-- One frame further out. -/
theorem Environment.ancestor?_succ {α : Type} {env : Environment α} {frame ancestor outer : FrameId}
    {distance : Nat} (reached : env.ancestor? frame distance = some ancestor)
    (lies : env.enclosing? ancestor = some outer) :
    env.ancestor? frame (distance + 1) = some outer := by
  induction distance generalizing frame with
  | zero =>
    cases reached
    simp only [ancestor?, lies]
  | succ distance ih =>
    simp only [ancestor?] at reached ⊢
    split at reached
    · cases reached
    · exact ih reached

namespace Chronicle

variable {α : Type} {home : Option Home} {tether : Option Tether} {machine : Machine}
  {record : Record}

section

variable {post : α → Heap → List Belonging → Prop} (here : AtHome home tether machine record)

include here

/-! ## The heap -/

theorem tells_readHeap {f : Heap → α} (reads : post (f machine.heap) machine.heap record.belongings) :
    (lift (Step.readHeap f) machine record).Tells machine record post := ⟨here.stay, reads⟩

theorem tells_changeHeap {f : Heap → α × Heap}
    (housed : (f machine.heap).2.Housed record.belongings)
    (retains : machine.heap.Retains (f machine.heap).2)
    (secures : machine.heap.environment.Secures (f machine.heap).2.environment)
    (holds : post (f machine.heap).1 (f machine.heap).2 record.belongings) :
    (lift (Step.changeHeap f) machine record).Tells machine record post :=
  ⟨here.change housed retains secures, holds⟩

theorem tells_ofOperands {result : Except OperandProblem Value} (token : Token)
    (data : ∀ value, result = .ok value → value.node? = none) :
    (lift (Step.ofOperands result token) machine record).Tells machine record
      fun value heap belongings => value.Known heap belongings := by
  cases result with
  | ok value => exact ⟨here.stay, .of_node?_eq_none (data value rfl)⟩
  | error problem => exact tells_fail here _ _

theorem tells_checkArity (expected given : Nat) (paren : Token) :
    (lift (Step.checkArity expected given paren) machine record).Tells machine record
      fun _ _ _ => True := by
  unfold Step.checkArity
  split
  · exact ⟨here.stay, trivial⟩
  · exact tells_fail here _ _

theorem tells_addInstance (classId : ClassId) :
    (lift (Step.changeHeap (·.addInstance classId)) machine record).Tells machine record
      fun id heap _ => (Node.object id).IsNew machine.heap ∧
        heap.instances[id]? = some ⟨classId, .empty⟩ :=
  tells_changeHeap here (here.housed.addInstance classId) (.addInstance _ _) (.refl _)
    ⟨Nat.le_refl _, Array.getElem?_push_size⟩

theorem tells_addClass {classObject : ClassObject}
    (housed : classObject.Housed machine.heap.classes.size record.belongings) :
    (lift (Step.changeHeap (·.addClass classObject)) machine record).Tells machine record
      fun id heap belongings => (Value.classObject id).Known heap belongings := by
  refine tells_changeHeap here (here.housed.addClass housed) (.addClass _ _) (.refl _) ?_
  change machine.heap.classes.size < (machine.heap.classes.push classObject).size
  rw [Array.size_push]
  exact Nat.lt_succ_self _

/-! ## Names -/

theorem tells_define {name : Name} {value : Value} (ordinary : name.written.IsOrdinary)
    (known : value.Known machine.heap record.belongings) :
    (lift (Step.define name.text value) machine record).Tells machine record fun _ _ _ => True := by
  have secures : machine.heap.environment.Secures
      (machine.heap.define machine.frame name.text value).environment := .define ordinary value
  exact ⟨here.change (here.housed.define secures known) (.ofEnvironment secures.extended) secures,
    trivial⟩

theorem tells_lookUp (name : String) (binding : Binding) (token : Token) :
    (lift (Step.lookUp name binding token) machine record).Tells machine record
      fun value heap belongings => value.Known heap belongings := by
  unfold lift Step.lookUp
  cases found : machine.heap.lookUp? machine.frame name binding with
  | some value => exact ⟨here.stay, here.housed.lookUp? found⟩
  | none => exact here.stay

theorem tells_assign {name : Name} {value : Value} (ordinary : name.written.IsOrdinary)
    (binding : Binding) (known : value.Known machine.heap record.belongings) :
    (lift (Step.assign name binding value) machine record).Tells machine record
      fun _ _ _ => True := by
  obtain ⟨housed, secures⟩ := here.housed.assign machine.frame ordinary known binding
  have onward := here.change housed (machine.heap.retains_assign _ _ _ _) secures
  have ended : Step.assign name binding value machine =
      if (machine.heap.assign machine.frame name.text value binding).1 then
        .finished () { machine with
          heap := (machine.heap.assign machine.frame name.text value binding).2 }
      else .failed ⟨.undefinedVariable name.text, name.token⟩ { machine with
          heap := (machine.heap.assign machine.frame name.text value binding).2 } := by
    change (if (machine.heap.assign machine.frame name.text value binding).1 then
      (Step.pure () : Step Unit) else Step.fail _ _) _ = _
    split <;> rfl
  unfold lift
  rw [ended]
  split
  · exact ⟨onward, trivial⟩
  · exact onward

theorem tells_assignOrDefine {name : Name} {value : Value} (ordinary : name.written.IsOrdinary)
    (binding : Binding) (known : value.Known machine.heap record.belongings) :
    (lift (Step.assignOrDefine name binding value) machine record).Tells machine record
      fun _ _ _ => True := by
  cases binding with
  | global =>
    have secures : machine.heap.environment.Secures
        (machine.heap.define Heap.globals name.text value).environment := .define ordinary value
    exact ⟨here.change (here.housed.define secures known) (.ofEnvironment secures.extended) secures,
      trivial⟩
  | lexical distance => exact tells_assign here ordinary _ known

/-- The superclass of a class is a class that there is. -/
theorem tells_superclassOf (superclass : Option (Superclass Binding)) :
    (lift (Step.superclassOf superclass) machine record).Tells machine record
      fun found heap belongings => found.isSome = superclass.isSome ∧
        ∀ id ∈ found, (Value.classObject id).Known heap belongings := by
  cases superclass with
  | none => exact ⟨here.stay, rfl, nofun⟩
  | some parent =>
    change (lift (Step.lookUp _ _ _ >>= _) machine record).Tells machine record _
    rw [lift_bind]
    refine tells_bind here (tells_lookUp here _ _ _) fun value _ _ _ there known => ?_
    split
    · next id =>
      refine ⟨there.stay, rfl, fun other same => ?_⟩
      cases same
      exact known
    · exact tells_fail there _ _

/-! ## Properties and routines -/

theorem tells_setProperty {object value : Value} (name : Name)
    (known : value.Known machine.heap record.belongings) :
    (lift (Step.setProperty object name value) machine record).Tells machine record
      fun _ _ _ => True := by
  cases object with
  | object id =>
    exact ⟨here.change (here.housed.setField known) (.setField _ _ _ _) (.refl _), trivial⟩
  | _ => exact tells_fail here _ _

theorem tells_write (text : String) (paren : Token) :
    (lift (Step.write text paren) machine record).Tells machine record fun _ _ _ => True := by
  have onward : ∀ output, Onward machine record { machine with output := output } record :=
    fun _ => ⟨here.housed, here.truthful, ⟨rfl, rfl, .refl _⟩, .refl _, .refl _, List.prefix_refl _⟩
  unfold lift Step.write
  split
  · exact ⟨onward _, trivial⟩
  · exact onward _

theorem tells_callNative (id : NativeId) {arguments : List Value} (paren : Token)
    (known : ∀ argument ∈ arguments, argument.Known machine.heap record.belongings) :
    (lift (Step.callNative id arguments paren) machine record).Tells machine record
      fun value heap belongings => value.Known heap belongings := by
  unfold Step.callNative
  rw [lift_bind]
  have reads : (lift (Step.readHeap (·.natives[id]?)) machine record).Tells machine record
      fun found _ _ => ∀ native ∈ found, Native.Discreet native :=
    tells_readHeap here fun native found => here.housed.natives id native found
  refine tells_bind here reads fun found middle next onward there discreet => ?_
  cases found with
  | none => exact tells_fail there _ _
  | some native =>
    dsimp only
    rw [lift_bind]
    refine tells_bind there (tells_checkArity there _ _ _) fun _ middle next on there _ => ?_
    have onward := onward.trans on
    rw [lift_bind]
    have replies : (lift (Step.readHeap fun heap => native.routine heap.shown arguments) middle
        next).Tells middle next fun reply heap belongings => ∀ value, reply = .value value →
          value.Known heap belongings := by
      refine tells_readHeap there fun value replied => ?_
      -- What is given back is data, or it was among the arguments.
      cases data : value.node? with
      | none => exact .of_node?_eq_none data
      | some node =>
        have given := discreet native rfl _ _ value replied (Option.isSome_iff_exists.mpr ⟨_, data⟩)
        exact onward.known (known value given)
    refine tells_bind there replies fun reply _ _ _ there given => ?_
    cases reply with
    | value value => exact ⟨there.stay, given value rfl⟩
    | failure message => exact tells_fail there _ _
    | write text =>
      dsimp only
      rw [lift_bind]
      exact tells_bind there (tells_write there _ _) fun _ _ _ _ there _ => ⟨there.stay, trivial⟩
    | readClock =>
      exact ⟨⟨there.housed, there.truthful, ⟨rfl, rfl, .refl _⟩, .refl _, .refl _,
        List.prefix_refl _⟩, trivial⟩

/-! ## Functions -/

theorem tells_close {belonging : Belonging} {name : Option String} {lambda : Lambda Binding}
    {isInitializer : Bool}
    (houses : belonging.Houses machine.heap.environment ⟨name, lambda, machine.frame, isInitializer⟩) :
    (close belonging name lambda isInitializer machine record).Tells machine record
      fun id _ belongings => belongings[id]? = some belonging := by
  refine ⟨⟨here.housed.addFunction houses, here.truthful, ⟨rfl, rfl, .addFunction _ _⟩,
    .addFunction _ _, .refl _, List.prefix_append _ _⟩, ?_⟩
  change (record.belongings ++ [belonging])[machine.heap.functions.size]? = some belonging
  rw [← here.housed.count]
  exact List.getElem?_concat_length

theorem tells_bindMethod {method : FunctionId} {receiver : InstanceId} {name : String}
    {superclass : Option ClassId}
    (known : record.belongings[method]? = some (.method name superclass)) :
    (bindMethod method receiver machine record).Tells machine record fun bound heap belongings =>
      belongings[bound]? = some (.bound name ⟨superclass, receiver⟩) ∧
        heap.Binds method bound receiver := by
  obtain ⟨housed, number⟩ := here.housed.bindMethod known receiver
  have retains := machine.heap.retains_bindMethod method receiver
  have binds := here.housed.binds_bindMethod known receiver
  unfold bindMethod
  rw [known]
  refine ⟨⟨housed, here.truthful, ⟨rfl, rfl, retains.grown⟩, retains,
    machine.heap.secures_bindMethod method receiver, List.prefix_append _ _⟩, ?_, binds⟩
  change (record.belongings ++ [_])[(machine.heap.bindMethod method receiver).1]? = _
  rw [number]
  exact List.getElem?_concat_length

theorem tells_belongingOf {id : FunctionId} {belonging : Belonging}
    (known : record.belongings[id]? = some belonging) :
    (belongingOf id machine record).Tells machine record fun found _ _ => found = belonging := by
  refine ⟨here.stay, ?_⟩
  rw [known]
  rfl

theorem tells_getProperty (id : InstanceId) (name : Name) :
    (getProperty id name machine record).Tells machine record
      fun value heap belongings => value.Known heap belongings := by
  have field : (lift (Step.readHeap (·.field? id name.text)) machine record).Tells machine record
      fun value? heap belongings => ∀ value ∈ value?, value.Known heap belongings :=
    tells_readHeap here fun value found => here.housed.field? found
  refine tells_bind here field fun value? middle next _ there known => ?_
  cases value? with
  | some value => exact ⟨there.stay, known value rfl⟩
  | none =>
    have method : (lift (Step.readHeap fun heap => (heap.instances[id]?).bind fun i =>
        heap.findMethod? name.text i.classId) middle next).Tells middle next
          fun method? _ belongings => ∀ method ∈ method?, ∃ superclass,
            belongings[method]? = some (.method name.text superclass) := by
      refine tells_readHeap there fun method found => ?_
      obtain ⟨i, _, isMethod⟩ := Option.bind_eq_some_iff.mp found
      exact there.housed.findMethod? isMethod
    refine tells_bind there method fun method? _ _ _ there isMethod => ?_
    cases method? with
    | some method =>
      obtain ⟨superclass, listed⟩ := isMethod method rfl
      exact tells_bind there (tells_bindMethod there listed) fun bound _ _ _ there ⟨known, _⟩ =>
        ⟨there.stay, _, known, trivial⟩
    | none => exact tells_fail there _ _

end

/-! ## `this` and `super` -/

/-- Where code is at home, `this` is the instance of its home. -/
theorem lookUp_this {length : Tether} (here : AtHome home (some length) machine record)
    (token : Token) : ∃ found, home = some found ∧
      Step.lookUp thisName (.lexical length.distance) token machine =
        .finished (.object found.receiver) machine := by
  obtain ⟨found, isHome, _, scope, reached, anchored⟩ := here.reaches length rfl
  refine ⟨found, isHome, ?_⟩
  simp only [Step.lookUp, Heap.lookUp?, Environment.getAt?, reached, Option.bind_some,
    anchored.this]

/-- Where code of a subclass is at home, `super` starts from the superclass of its home. -/
theorem superParts_atHome {length : Tether} (here : AtHome home (some length) machine record)
    (subclass : length.subclass = true) (line : Nat) :
    ∃ parent receiver classObject, home = some ⟨some parent, receiver⟩ ∧
      Step.superParts line (.lexical (length.distance + 1)) machine =
        .finished (parent, receiver) machine ∧
      machine.heap.classes[parent]? = some classObject := by
  obtain ⟨found, isHome, same, scope, reached, anchored⟩ := here.reaches length rfl
  rw [subclass] at same
  obtain ⟨parent, extended⟩ := Option.isSome_iff_exists.mp same.symm
  obtain ⟨outer, lies, _, held⟩ := anchored.super parent extended
  have made : parent < machine.heap.classes.size := here.housed.slots outer superName _ held
  refine ⟨parent, found.receiver, _, ?_, ?_, Array.getElem?_eq_getElem made⟩
  · rw [isHome, ← extended]
  · -- One further out than the scope that binds `this` is the one around it.
    have further := Environment.ancestor?_succ reached lies
    simp only [Step.superParts, Heap.lookUp?, Environment.getAt?, further, reached,
      Option.bind_some, held, anchored.this]

theorem superProperty_eq {line : Nat} {binding : Binding} {method : Name} {parent : ClassId}
    {receiver : InstanceId}
    (parts : Step.superParts line binding machine = .finished (parent, receiver) machine) :
    superProperty line binding method machine record =
      match machine.heap.findMethod? method.text parent with
      | some found => (bindMethod found receiver >>= fun bound => Pure.pure (.function bound))
          machine record
      | none => ⟨.failed ⟨.undefinedSuperclassProperty method.text (machine.heap.className parent),
          method.token⟩ machine, record⟩ := by
  change Chronicle.bind (lift (Step.superParts line binding)) _ machine record = _
  simp only [Chronicle.bind, lift, parts]
  change Chronicle.bind (lift (Step.readHeap _)) _ machine record = _
  simp only [Chronicle.bind, lift, Step.readHeap]
  cases machine.heap.findMethod? method.text parent <;> rfl

/-- In code of a subclass, `super` comes to what it should, and that is told. -/
theorem superProperty_tells {length : Tether} (here : AtHome home (some length) machine record)
    (subclass : length.subclass = true) (line : Nat) (method : Name) :
    (superProperty line (.lexical (length.distance + 1)) method machine record).Tells machine record
        (fun value heap belongings => value.Known heap belongings) ∧
      ∃ parent receiver, home = some ⟨some parent, receiver⟩ ∧
        SuperOutcome machine parent receiver method
          (superProperty line (.lexical (length.distance + 1)) method machine record).outcome := by
  obtain ⟨parent, receiver, classObject, isHome, parts, made⟩ := superParts_atHome here subclass line
  rw [superProperty_eq parts]
  cases searched : machine.heap.findMethod? method.text parent with
  | some found =>
    obtain ⟨superclass, listed⟩ := here.housed.findMethod? searched
    refine ⟨?_, parent, receiver, isHome, ?_⟩
    · exact tells_bind here (tells_bindMethod here listed) fun bound _ _ _ there ⟨known, _⟩ =>
        ⟨there.stay, _, known, trivial⟩
    · exact .found (here.housed.findMethod?_eq_some_iff.mp searched)
        (here.housed.binds_bindMethod listed receiver)
  | none =>
    refine ⟨here.stay, parent, receiver, isHome, ?_⟩
    have named : machine.heap.className parent = classObject.name := by
      rw [Heap.className, made]
      rfl
    rw [named]
    refine .missing (fun found provides => ?_) made
    rw [← here.housed.findMethod?_eq_some_iff, searched] at provides
    cases provides

end Chronicle

end Lox
