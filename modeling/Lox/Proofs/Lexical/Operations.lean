import Lox.Proofs.Lexical.Follows
import Lox.Proofs.Scoping.Resolved

/-!
# Following the parts without recursion

Reading and writing a name leads to its place in one run and to its cell in the other. Everything
that is not about names is done alike in both.
-/

namespace Lox

namespace Lexical

variable {α : Type} {opens : Prop} {s : Surroundings} {moment : Moment}

/-! ## Classes and instances -/

namespace Mirror

theorem findMethod? (mirror : Mirror moment) (name : String) (classId : ClassId) :
    moment.state.findMethod? name classId = moment.machine.heap.findMethod? name classId := by
  induction classId using Nat.strongRecOn with
  | ind classId ih =>
    rw [State.findMethod?, Heap.findMethod?, mirror.classes]
    cases moment.machine.heap.classes[classId]? with
    | none => rfl
    | some classObject =>
      simp only
      cases classObject.methods.get? name with
      | some method => rfl
      | none =>
        cases classObject.superclass with
        | none => rfl
        | some superclass =>
          by_cases before : superclass < classId
          · simp only [if_pos before]
            exact ih superclass before
          · simp only [if_neg before]

theorem field? (mirror : Mirror moment) (id : InstanceId) (name : String) :
    moment.state.field? id name = moment.machine.heap.field? id name := by
  rw [State.field?, Heap.field?, mirror.instances]

theorem className (mirror : Mirror moment) (id : ClassId) :
    moment.state.className id = moment.machine.heap.className id := by
  rw [State.className, Heap.className, mirror.classes]

/-- A function is known in both runs, or in neither. -/
theorem function_cases (mirror : Mirror moment) (id : FunctionId) :
    (moment.machine.heap.functions[id]? = none ∧ moment.state.functions[id]? = none) ∨
      ∃ closure function origin, moment.machine.heap.functions[id]? = some closure ∧
        moment.state.functions[id]? = some function ∧ moment.origins[id]? = some origin ∧
          Twin moment.machine.heap.environment moment.places closure function origin := by
  cases comes : moment.origins[id]? with
  | none =>
    have beyond := List.getElem?_eq_none_iff.mp comes
    refine .inl ⟨Array.getElem?_eq_none ?_, Array.getElem?_eq_none ?_⟩
    · rw [← mirror.twins.countClosures]
      exact beyond
    · rw [← mirror.twins.countFunctions]
      exact beyond
  | some origin =>
    obtain ⟨closure, function, known, also, twin⟩ := mirror.twins.of_origin comes
    exact .inr ⟨closure, function, origin, known, also, rfl, twin⟩

theorem arity (mirror : Mirror moment) (id : FunctionId) :
    ((moment.state.functions[id]?).map (·.lambda.parameters.length)).getD 0 =
      ((moment.machine.heap.functions[id]?).map (·.lambda.parameters.length)).getD 0 := by
  obtain ⟨none, also⟩ | ⟨closure, function, _, known, also, _, twin⟩ := mirror.function_cases id
  · simp only [none, also, Option.map_none, Option.getD_none]
  · rw [known, also]
    exact twin.arity.symm

theorem shown (mirror : Mirror moment) : moment.state.shown = moment.machine.heap.shown := by
  funext value
  cases value with
  | boolean value => cases value <;> rfl
  | native id => rw [State.shown, Heap.shown, mirror.natives]
  | function id =>
    obtain ⟨none, also⟩ | ⟨closure, function, _, known, also, _, twin⟩ := mirror.function_cases id
    · simp only [State.shown, Heap.shown, none, also, Option.bind_none]
    · cases named : closure.name <;>
        simp only [State.shown, Heap.shown, known, also, Option.bind_some, twin.name, named]
  | classObject id => exact mirror.className id
  | object id =>
    simp only [State.shown, Heap.shown, mirror.instances, mirror.className]
  | _ => rfl

end Mirror

/-! ## Names -/

/-- The value of an occurrence is that of its cell, or of the global of its name. -/
theorem Standing.read? (standing : Standing s moment) (mirror : Mirror moment) (name : String) :
    moment.machine.heap.lookUp? moment.machine.frame name (s.binding name) =
      moment.state.read? name := by
  cases resolved : s.binding name with
  | global =>
    rw [State.read?, standing.covers.cell?_eq_none resolved, Heap.lookUp?,
      Environment.get?_globals]
    exact mirror.stored.globals name
  | lexical distance =>
    obtain ⟨ancestor, cell, reached, found, placed⟩ :=
      standing.covers.cell?_eq_some standing.chain resolved
    rw [State.read?, found, Heap.lookUp?, Environment.getAt?, reached]
    exact (mirror.stored.cells cell ancestor name placed).2

/-- What comes of looking a name up, wherever the runs find the value. -/
theorem follows_lookUp_of {name : String} {binding : Binding} {token : Token}
    {post : Value → Moment → Prop} (mirror : Mirror moment)
    (same : moment.machine.heap.lookUp? moment.machine.frame name binding =
      moment.state.read? name) (holds : ∀ value, post value moment) :
    Follows opens moment (Watch.lift (Step.lookUp name binding token)) (lookUp name token)
      post := by
  simp only [Follows, Watch.lift, Step.lookUp, lookUp, same]
  cases moment.state.read? name with
  | some value => exact ⟨moment.state, moment.places, rfl, mirror, .refl moment, holds value⟩
  | none => exact ⟨moment.state, moment.places, rfl, mirror, .refl moment⟩

theorem follows_lookUp {name : String} {token : Token} (standing : Standing s moment)
    (mirror : Mirror moment) :
    Follows opens moment (Watch.lift (Step.lookUp name (s.binding name) token))
      (lookUp name token) fun _ _ => True :=
  follows_lookUp_of mirror (standing.read? mirror name) fun _ => trivial

/-- A new value at a place, and in its cell. -/
theorem carries_write {name : String} {frame : FrameId} {cell : CellId} (mirror : Mirror moment)
    (value : Value) (placed : moment.places[cell]? = some (frame, name)) :
    let next : Moment := ⟨{ moment.machine with
      heap := moment.machine.heap.define frame name value }, moment.origins,
      moment.state.write cell value, moment.places⟩
    Mirror next ∧ Carries opens moment next := by
  have bound := mirror.stored.isSome placed
  have grows : moment.machine.heap.environment.Grows (moment.machine.MayGain opens)
      (moment.machine.heap.environment.define frame name value) :=
    .define (Environment.lt_size_of_slot? bound) (.inr bound)
  exact ⟨mirror.ofStored (mirror.stored.write placed) grows List.prefix_rfl,
    rfl, grows, List.prefix_rfl, fun _ => rfl⟩

theorem carries_setGlobal (mirror : Mirror moment) (name : String) (value : Value) :
    let next : Moment := ⟨{ moment.machine with
      heap := moment.machine.heap.define Heap.globals name value }, moment.origins,
      moment.state.setGlobal name value, moment.places⟩
    Mirror next ∧ Carries opens moment next := by
  have grows : moment.machine.heap.environment.Grows (moment.machine.MayGain opens)
      (moment.machine.heap.environment.define Heap.globals name value) :=
    .define mirror.stored.root (.inl (.inl rfl))
  exact ⟨mirror.ofStored mirror.stored.setGlobal grows List.prefix_rfl,
    rfl, grows, List.prefix_rfl, fun _ => rfl⟩

/-- A step that ends with a changed heap, followed by the same change of the state. -/
theorem follows_finished {step : Step α} {follower : Lexical α} {post : α → Moment → Prop}
    {result : α} {machine : Machine} {state : State} {places : List Place}
    (finishes : step moment.machine = .finished result machine)
    (follows : follower moment.state = .finished result state)
    (ends : Mirror ⟨machine, moment.origins, state, places⟩ ∧
      Carries opens moment ⟨machine, moment.origins, state, places⟩)
    (holds : post result ⟨machine, moment.origins, state, places⟩) :
    Follows opens moment (Watch.lift step) follower post := by
  simp only [Follows, Watch.lift, finishes]
  exact ⟨state, places, follows, ends.1, ends.2, holds⟩

theorem follows_assign {name : Name} {value : Value} (standing : Standing s moment)
    (mirror : Mirror moment) :
    Follows opens moment (Watch.lift (Step.assign name (s.binding name.text) value))
      (assign name value) fun _ _ => True := by
  cases resolved : s.binding name.text with
  | global =>
    have free := standing.covers.cell?_eq_none resolved
    have assigned := moment.machine.heap.assign_global moment.machine.frame name.text value
    rw [mirror.stored.globals] at assigned
    by_cases bound : (moment.state.globals.get? name.text).isSome
    · rw [if_pos bound] at assigned
      refine follows_finished (Step.assign_bound assigned) ?_ (carries_setGlobal mirror _ _) trivial
      simp only [assign, free, if_pos bound]
    · rw [if_neg bound] at assigned
      simp only [Follows, Watch.lift, Step.assign_unbound assigned, assign, free, if_neg bound]
      exact ⟨moment.state, moment.places, rfl, mirror, .refl moment⟩
  | lexical distance =>
    obtain ⟨ancestor, cell, reached, found, placed⟩ :=
      standing.covers.cell?_eq_some standing.chain resolved
    have assigned := Heap.assign_lexical value reached (mirror.stored.isSome placed)
    refine follows_finished (Step.assign_bound assigned) ?_ (carries_write mirror _ placed) trivial
    simp only [assign, found]

theorem follows_assignOrDefine {name : Name} {value : Value} (standing : Standing s moment)
    (mirror : Mirror moment) :
    Follows opens moment (Watch.lift (Step.assignOrDefine name (s.binding name.text) value))
      (assignOrDefine name value) fun _ _ => True := by
  cases resolved : s.binding name.text with
  | global =>
    have free := standing.covers.cell?_eq_none resolved
    refine follows_finished rfl ?_ (carries_setGlobal mirror _ _) trivial
    simp only [assignOrDefine, free]
  | lexical distance =>
    obtain ⟨ancestor, cell, reached, found, placed⟩ :=
      standing.covers.cell?_eq_some standing.chain resolved
    have assigned := Heap.assign_lexical value reached (mirror.stored.isSome placed)
    refine follows_finished (Step.assign_bound assigned) ?_ (carries_write mirror _ placed) trivial
    simp only [assignOrDefine, found]

/-! ## Declarations -/

/-- Both runs after a name was declared in the innermost scope. -/
def Moment.declare (moment : Moment) (name : String) (value : Value) (places : List Place) :
    Moment :=
  ⟨{ moment.machine with heap := moment.machine.heap.define moment.machine.frame name value },
    moment.origins, moment.state.declare name value, places⟩

section

variable {name : String} (value : Value)

theorem State.declare_nil {state : State} (visible : state.visible = []) :
    state.declare name value = state.setGlobal name value := by
  simp only [State.declare, visible]

theorem State.declare_held {state : State} {scope : Table CellId} {outer : Visible} {cell : CellId}
    (visible : state.visible = scope :: outer) (held : scope.get? name = some cell) :
    state.declare name value = state.write cell value := by
  simp only [State.declare, visible, held]

theorem State.declare_free {state : State} {scope : Table CellId} {outer : Visible}
    (visible : state.visible = scope :: outer) (free : scope.get? name = none) :
    state.declare name value = { state with
      cells := state.cells.push value
      visible := scope.set name state.cells.size :: outer } := by
  simp only [State.declare, visible, free]

/-- What a frame binds after a name was declared in it. -/
theorem isSome_slot?_define {env : Environment Value} {frame : FrameId} {other : String}
    (made : frame < env.size) (bound : ((env.define frame name value).slot? frame other).isSome) :
    other = name ∨ (env.slot? frame other).isSome := by
  rw [Environment.slot?_define _ _ _ _ made] at bound
  split at bound
  · next same => exact .inl same.2.symm
  · exact .inr bound

namespace Standing

variable (standing : Standing s moment) (mirror : Mirror moment)
  (proper : (s.declare name).Proper)

include standing mirror in
theorem grows_declare :
    moment.machine.heap.environment.Grows (moment.machine.MayGain True)
      (moment.machine.heap.environment.define moment.machine.frame name value) :=
  .define (standing.chain.lt_size mirror.stored.root) (.inl (.inr ⟨trivial, rfl⟩))

include standing mirror proper

/-- Outside all scopes a name is declared among the globals. -/
theorem declare_global (visible : moment.state.visible = []) :
    Mirror (moment.declare name value moment.places) ∧
      Carries True moment (moment.declare name value moment.places) ∧
        Standing (s.declare name) (moment.declare name value moment.places) := by
  have chain := standing.chain
  have covers := standing.covers
  rw [visible] at chain covers
  -- A chain without scopes ends where it starts, at the globals.
  have atGlobals : moment.machine.frame = Heap.globals := chain
  have ends : Mirror (moment.declare name value moment.places) ∧
      Carries True moment (moment.declare name value moment.places) := by
    rw [Moment.declare, State.declare_nil value visible, atGlobals]
    exact carries_setGlobal mirror name value
  have outside : (moment.declare name value moment.places).state.visible = [] := by
    simp only [Moment.declare, State.declare_nil value visible]
    exact visible
  refine ⟨ends.1, ends.2, ?_, ?_, ?_, proper⟩
  · rw [outside]
    exact chain
  · rw [outside]
    simp only [Surroundings.declare]
    cases scopes : s.scopes with
    | nil => exact .nil
    | cons names further =>
      rw [scopes] at covers
      cases covers
  · rw [outside]
    exact nofun

/-- A name that its scope holds keeps its cell. -/
theorem declare_again {scope : Table CellId} {outer : Visible} {cell : CellId}
    (visible : moment.state.visible = scope :: outer) (held : scope.get? name = some cell) :
    Mirror (moment.declare name value moment.places) ∧
      Carries True moment (moment.declare name value moment.places) ∧
        Standing (s.declare name) (moment.declare name value moment.places) := by
  have chain := standing.chain
  have covers := standing.covers
  have complete := standing.complete
  rw [visible] at chain covers complete
  have ends : Mirror (moment.declare name value moment.places) ∧
      Carries True moment (moment.declare name value moment.places) := by
    rw [Moment.declare, State.declare_held value visible held]
    exact carries_write mirror value (chain.2.1 name cell held)
  have same : (moment.declare name value moment.places).state.visible = scope :: outer := by
    simp only [Moment.declare, State.declare_held value visible held]
    exact visible
  refine ⟨ends.1, ends.2, ?_, ?_, ?_, proper⟩
  · rw [same]
    exact chain.grows (standing.grows_declare value mirror) List.prefix_rfl
  · rw [same]
    exact covers.declare_held (held ▸ rfl)
  · rw [same]
    rintro _ ⟨⟩ other bound
    obtain rfl | before := isSome_slot?_define value (chain.lt_size mirror.stored.root) bound
    · rw [held]
      rfl
    · exact complete scope rfl other before

/-- A name that its scope does not hold yet gets a new cell. The innermost frame does not bind it
yet either. -/
theorem declare_first {scope : Table CellId} {outer : Visible}
    (visible : moment.state.visible = scope :: outer) (absent : scope.get? name = none) :
    let places := moment.places ++ [(moment.machine.frame, name)]
    Mirror (moment.declare name value places) ∧
      Carries True moment (moment.declare name value places) ∧
        Standing (s.declare name) (moment.declare name value places) := by
  have chain := standing.chain
  have covers := standing.covers
  have complete := standing.complete
  rw [visible] at chain covers complete
  have made := chain.lt_size mirror.stored.root
  have grows : moment.machine.heap.environment.Grows _
      (moment.machine.heap.environment.define moment.machine.frame name value) :=
    standing.grows_declare value mirror
  have grown : moment.places <+: moment.places ++ [(moment.machine.frame, name)] :=
    List.prefix_append _ _
  -- What the innermost frame binds, its scope holds.
  have free : moment.machine.heap.environment.slot? moment.machine.frame name = none := by
    rw [← Option.not_isSome_iff_eq_none]
    intro bound
    have held := complete scope rfl name bound
    rw [absent] at held
    cases held
  have lies : (moment.places ++ [(moment.machine.frame, name)])[moment.state.cells.size]? =
      some (moment.machine.frame, name) := by
    rw [← mirror.stored.count]
    exact List.getElem?_concat_length
  simp only [Moment.declare, State.declare_free value visible absent]
  refine ⟨mirror.ofStored (mirror.stored.push value made chain.1 free) grows grown,
    ⟨rfl, grows, grown, fun closed => absurd trivial closed⟩,
    (chain.grows grows grown).set lies, covers.declare, ?_, proper⟩
  rintro _ ⟨⟩ other bound
  rw [Table.get?_set]
  split
  · rfl
  · next differs =>
    obtain same | before := isSome_slot?_define value made bound
    · exact absurd same.symm differs
    · exact complete scope rfl other before

/-- A name that is declared in both runs: in the cell that it has, or in a new one. -/
theorem declare :
    ∃ places, Mirror (moment.declare name value places) ∧
      Carries True moment (moment.declare name value places) ∧
        Standing (s.declare name) (moment.declare name value places) := by
  cases visible : moment.state.visible with
  | nil => exact ⟨_, standing.declare_global value mirror proper visible⟩
  | cons scope outer =>
    cases held : scope.get? name with
    | some cell => exact ⟨_, standing.declare_again value mirror proper visible held⟩
    | none => exact ⟨_, standing.declare_first value mirror proper visible held⟩

end Standing

end

theorem follows_declare {name : String} {value : Value} (standing : Standing s moment)
    (mirror : Mirror moment) (proper : (s.declare name).Proper) :
    Follows True moment (Watch.lift (Step.define name value)) (declare name value)
      fun _ next => Standing (s.declare name) next := by
  obtain ⟨places, mirrors, carries, stands⟩ := standing.declare value mirror proper
  exact follows_finished rfl rfl ⟨mirrors, carries⟩ stands

/-- A function is closed over the innermost frame in one run, and over what is visible in the
other. -/
theorem follows_close {name : Option String} {lambda : Lambda Unit} {isInitializer bare : Bool}
    (mirror : Mirror moment)
    (chain : Chain moment.machine.heap.environment moment.places moment.machine.frame
      moment.state.visible)
    (covers : if bare then
        ∃ outer, s.scopes = [thisName] :: outer ∧ Covers moment.state.visible outer
      else Covers moment.state.visible s.scopes)
    (initializer : isInitializer → ∃ outer, s.scopes = [thisName] :: outer)
    (proper : s.Proper) (ordinary : Ordinary lambda.written) :
    Follows opens moment (Watch.close s name lambda isInitializer bare)
      (close name lambda isInitializer) fun _ _ => True := by
  simp only [Follows, Watch.close]
  cases resolves : lambda.resolve s with
  | error _ => trivial
  | ok resolved =>
    have parameters := Lambda.parameters_of_resolve resolves
    have twin : Twin moment.machine.heap.environment moment.places
        ⟨name, resolved, moment.machine.frame, isInitializer⟩
        ⟨name, lambda, moment.state.visible, isInitializer⟩ ⟨s, lambda, bare⟩ :=
      ⟨rfl, rfl, rfl, parameters, chain, covers, initializer, proper, ordinary⟩
    refine ⟨_, moment.places, congrArg (Ending.finished · _) mirror.twins.sizes,
      { mirror with twins := mirror.twins.push twin }, ?_, trivial⟩
    exact ⟨rfl, .refl _, List.prefix_rfl, fun _ => rfl⟩

/-- A function that is no method sees what is visible here. -/
theorem follows_closeFunction {name : Option String} {lambda : Lambda Unit}
    (standing : Standing s moment) (mirror : Mirror moment) (ordinary : Ordinary lambda.written) :
    Follows opens moment (Watch.close s name lambda false false) (close name lambda false)
      fun _ _ => True :=
  follows_close mirror standing.chain standing.covers (by simp) standing.proper ordinary

/-! ## Properties -/

section

variable {env : Environment Value} {places : List Place} {cells : Array Value}
  {globals : Table Value} (receiver : Value)

/-- The scope that a method is bound in is new, so it holds nothing else. -/
theorem Stored.bound (stored : Stored env places cells globals) (frame : FrameId) :
    Stored ((env.child frame).define env.size thisName receiver)
      (places ++ [(env.size, thisName)]) (cells.push receiver) globals := by
  refine stored.child.push receiver (env.size_lt_size_child frame) (Nat.ne_of_gt stored.root) ?_
  rw [Environment.slot?_child, ← Option.not_isSome_iff_eq_none]
  -- The frame is not there yet, so it binds nothing.
  exact fun bound => absurd (Environment.lt_size_of_slot? bound) (Nat.lt_irrefl _)

/-- A bound method is closed over a new frame that binds its instance, and sees a new cell that
holds it. -/
theorem Twin.bound {closure : Closure} {function : Function} {origin : Origin}
    (twin : Twin env places closure function origin) (bare : origin.bare = true)
    (stored : Stored env places cells globals) :
    Twin ((env.child closure.frame).define env.size thisName receiver)
      (places ++ [(env.size, thisName)]) { closure with frame := env.size }
      { function with visible := Table.empty.set thisName cells.size :: function.visible }
      { origin with bare := false } := by
  obtain ⟨outer, short, covers⟩ : ∃ outer, origin.surroundings.scopes = [thisName] :: outer ∧
      Covers function.visible outer := by
    have covers := twin.covers
    rw [if_pos bare] at covers
    exact covers
  have lies : (places ++ [(env.size, thisName)])[cells.size]? = some (env.size, thisName) := by
    rw [← stored.count]
    exact List.getElem?_concat_length
  have chain := (twin.chain.child stored.root).grows (.define_child _ thisName receiver)
    (List.prefix_append places [(env.size, thisName)])
  exact
    { name := twin.name
      isInitializer := twin.isInitializer
      lambda := twin.lambda
      parameters := twin.parameters
      chain := chain.set lies
      covers := short ▸ covers.enter.declare
      initializer := twin.initializer
      proper := twin.proper
      ordinary := twin.ordinary }

end

theorem follows_bindMethod {method : FunctionId} {receiver : InstanceId} (mirror : Mirror moment) :
    Follows opens moment (Watch.bindMethod method receiver)
      (changeState (·.bindMethod method receiver)) fun bound next =>
        ∃ function visible, moment.state.functions[method]? = some function ∧
          next.state.functions[bound]? = some { function with visible := visible } := by
  simp only [Follows, Watch.bindMethod]
  cases comes : moment.origins[method]? with
  | none => trivial
  | some origin =>
    dsimp only
    cases bare : origin.bare with
    | false => trivial
    | true =>
      obtain ⟨closure, function, known, also, twin⟩ := mirror.twins.of_origin comes
      have grows : moment.machine.heap.environment.Grows (moment.machine.MayGain opens) _ :=
        .child_define closure.frame thisName (.object receiver)
      have grown : moment.places <+: moment.places ++
          [(moment.machine.heap.environment.size, thisName)] := List.prefix_append _ _
      have mirrors := mirror.twins.grows grows grown
      simp only [if_true, Heap.bindMethod, known]
      refine ⟨{ moment.state with
          cells := moment.state.cells.push (.object receiver)
          functions := moment.state.functions.push { function with
            visible := Table.empty.set thisName moment.state.cells.size :: function.visible } },
        _, ?_, { mirror with
          stored := mirror.stored.bound (.object receiver) closure.frame
          twins := mirrors.push (twin.bound (.object receiver) bare mirror.stored) },
        ⟨rfl, grows, grown, fun _ => rfl⟩,
        function, Table.empty.set thisName moment.state.cells.size :: function.visible, also, ?_⟩
      · simp only [changeState, State.bindMethod, also]
        exact congrArg (Ending.finished · _) mirror.twins.sizes
      · change (moment.state.functions.push _)[moment.machine.heap.functions.size]? = _
        rw [← mirror.twins.sizes, Array.getElem?_push_size]

/-- A method, found as such, becomes a value by being bound. -/
theorem follows_boundMethod {method : FunctionId} {receiver : InstanceId} (mirror : Mirror moment) :
    Follows opens moment
      (Watch.bindMethod method receiver >>= fun bound => pure (.function bound))
      (changeState (·.bindMethod method receiver) >>= fun bound => pure (.function bound))
      fun (_ : Value) _ => True :=
  follows_bind id (follows_bindMethod mirror) fun _ _ mirror _ _ => follows_pure mirror trivial

theorem follows_getProperty {id : InstanceId} {name : Name} (mirror : Mirror moment) :
    Follows opens moment (Watch.getProperty id name) (getProperty id name) fun _ _ => True := by
  refine follows_read (mirror.field? id name.text) ?_
  cases moment.machine.heap.field? id name.text with
  | some value => exact follows_pure mirror trivial
  | none =>
    refine follows_read ?_ ?_
    · simp only [mirror.instances, mirror.findMethod?]
    · cases (moment.machine.heap.instances[id]?).bind fun i =>
          moment.machine.heap.findMethod? name.text i.classId with
      | some method => exact follows_boundMethod mirror
      | none => exact follows_fail mirror

theorem follows_setProperty {object : Value} {name : Name} {value : Value} (mirror : Mirror moment) :
    Follows opens moment (Watch.lift (Step.setProperty object name value))
      (setProperty object name value) fun _ _ => True := by
  cases object with
  | object id =>
    refine follows_finished rfl rfl ⟨{ mirror with instances := ?_ },
      ⟨rfl, .refl _, List.prefix_rfl, fun _ => rfl⟩⟩ trivial
    simp only [State.setField, Heap.setField, mirror.instances]
  | _ => exact follows_fail mirror

/-- In a class with a superclass, the scope of the superclass is the one outside the scope of the
instance, so what `super` leads to by its distance is what the names are visible as. -/
theorem follows_superParts {line : Nat} (standing : Standing s moment) (mirror : Mirror moment)
    (subclass : s.inClass = .withSuperclass) :
    Follows opens moment (Watch.lift (Step.superParts line (s.binding superName)))
      (superParts line) fun _ _ => True := by
  -- `super` is bound one scope further out than `this`.
  obtain ⟨distance, this, super⟩ := (standing.proper subclass).binding
  have readThis := standing.read? mirror thisName
  have readSuper := standing.read? mirror superName
  change s.binding thisName = _ at this
  change s.binding superName = _ at super
  rw [this] at readThis
  rw [super] at readSuper ⊢
  -- Wherever the one run fails so does the other, and nothing has changed.
  have stays : ∀ {α : Type} {error : RuntimeError} {post : α → Moment → Prop},
      Meets opens moment post (Ending.failed error moment.state)
        (.failed error moment.machine moment.origins) :=
    ⟨moment.state, moment.places, rfl, mirror, .refl moment⟩
  simp only [Follows, Watch.lift, Step.superParts, superParts, readThis, readSuper]
  cases moment.state.read? superName with
  | none => exact stays
  | some value =>
    cases value with
    | classObject superclass =>
      dsimp only
      cases moment.state.read? thisName with
      | none => exact stays
      | some value =>
        cases value with
        | object id => exact ⟨moment.state, moment.places, rfl, mirror, .refl moment, trivial⟩
        | _ => exact stays
    | _ => exact stays

theorem follows_superProperty {line : Nat} {method : Name} (standing : Standing s moment)
    (mirror : Mirror moment) (subclass : s.inClass = .withSuperclass) :
    Follows opens moment (Watch.superProperty line (s.binding superName) method)
      (superProperty line method) fun _ _ => True := by
  refine follows_bind id (follows_superParts standing mirror subclass) ?_
  rintro ⟨superclass, id⟩ next mirror _ _
  refine follows_read (mirror.findMethod? method.text superclass) ?_
  cases next.machine.heap.findMethod? method.text superclass with
  | some found => exact follows_boundMethod mirror
  | none => exact follows_read (mirror.className superclass) (follows_fail mirror)

end Lexical

end Lox
