import Lox.Proofs.Lexical.Operations

/-!
# Following calls and declarations

A call binds its parameters in a new frame, or in new cells, inside what the function came with. A
function and a class are declared before they are made, so that they see themselves.
-/

namespace Lox

namespace Lexical

variable {α : Type} {opens : Prop} {s : Surroundings} {moment : Moment}

/-! ## Operators and native routines -/

theorem follows_ofOperands {result : Except OperandProblem Value} {token : Token}
    (mirror : Mirror moment) :
    Follows opens moment (Watch.lift (Step.ofOperands result token)) (ofOperands result token)
      fun _ _ => True := by
  cases result with
  | ok value => exact follows_pure mirror trivial
  | error problem => exact follows_fail mirror

theorem follows_checkArity {expected given : Nat} {paren : Token} (mirror : Mirror moment) :
    Follows opens moment (Watch.lift (Step.checkArity expected given paren))
      (checkArity expected given paren) fun _ next => next = moment ∧ expected = given := by
  by_cases same : expected = given
  · simp only [Step.checkArity, checkArity, if_pos same]
    exact follows_pure mirror ⟨rfl, same⟩
  · simp only [Step.checkArity, checkArity, if_neg same]
    exact follows_fail mirror

theorem follows_write {text : String} {paren : Token} (mirror : Mirror moment) :
    Follows opens moment (Watch.lift (Step.write text paren)) (writeOutput text paren)
      fun _ _ => True := by
  simp only [Follows, Watch.lift, Step.write, writeOutput, mirror.output]
  rcases moment.machine.output.write text.toUTF8 with ⟨output, _ | _⟩
  · exact ⟨_, moment.places, rfl, { mirror with output := rfl },
      ⟨rfl, .refl _, List.prefix_rfl, fun _ => rfl⟩⟩
  · exact ⟨_, moment.places, rfl, { mirror with output := rfl },
      ⟨rfl, .refl _, List.prefix_rfl, fun _ => rfl⟩, trivial⟩

theorem follows_readClock (mirror : Mirror moment) :
    Follows opens moment (Watch.lift Step.readClock) readClock fun _ _ => True := by
  refine ⟨{ moment.state with readings := moment.state.readings + 1 }, moment.places, ?_,
    { mirror with readings := congrArg (· + 1) mirror.readings },
    ⟨rfl, .refl _, List.prefix_rfl, fun _ => rfl⟩, trivial⟩
  simp only [readClock, mirror.clock, mirror.readings]

theorem follows_callNative {id : NativeId} {arguments : List Value} {paren : Token}
    (mirror : Mirror moment) :
    Follows opens moment (Watch.lift (Step.callNative id arguments paren))
      (callNative id arguments paren) fun _ _ => True := by
  rw [Step.callNative, Watch.lift_bind]
  refine follows_read (by rw [mirror.natives]) ?_
  cases moment.machine.heap.natives[id]? with
  | none => exact follows_fail mirror
  | some native =>
    rw [Watch.lift_bind]
    refine follows_bind (fun opened => opened) (follows_checkArity mirror) ?_
    intro _ next mirror _ _
    rw [Watch.lift_bind]
    refine follows_read (by rw [mirror.shown]) ?_
    cases native.routine next.machine.heap.shown arguments with
    | value value => exact follows_pure mirror trivial
    | failure message => exact follows_fail mirror
    | write text =>
      rw [Watch.lift_bind]
      exact follows_bind (fun opened => opened) (follows_write mirror) fun _ _ mirror _ _ =>
        follows_pure mirror trivial
    | readClock =>
      rw [Watch.lift_bind]
      exact follows_bind (fun opened => opened) (follows_readClock mirror) fun _ _ mirror _ _ =>
        follows_pure mirror trivial

/-! ## Functions -/

/-- The function that a bound method is sees its instance in its innermost scope. -/
theorem Twin.instance {env : Environment Value} {places : List Place} {closure : Closure}
    {function : Function} {origin : Origin} (twin : Twin env places closure function origin)
    (bound : origin.bare = false) (initializes : closure.isInitializer) :
    ∃ cell, function.visible.cell? thisName = some cell ∧
      places[cell]? = some (closure.frame, thisName) := by
  obtain ⟨outer, scopes⟩ := twin.initializer initializes
  have covers := twin.covers
  have chain := twin.chain
  -- What the method sees covers its scopes, and the innermost of those is for the instance.
  rw [if_neg (by simp [bound]), scopes] at covers
  cases visible : function.visible with
  | nil =>
    rw [visible] at covers
    cases covers
  | cons scope rest =>
    rw [visible] at covers chain
    cases covers with
    | cons same _ =>
      obtain ⟨cell, found⟩ := Option.isSome_iff_exists.mp ((same thisName).mpr (.head _))
      refine ⟨cell, ?_, chain.2.1 thisName cell found⟩
      simp only [Visible.cell?, List.findSome?_cons, found]

theorem follows_callResult {closure : Closure} {function : Function} {origin : Origin} {flow : Flow}
    (mirror : Mirror moment)
    (twin : Twin moment.machine.heap.environment moment.places closure function origin)
    (bound : origin.bare = false) :
    Follows opens moment (Watch.lift (Step.callResult closure flow)) (callResult function flow)
      fun _ _ => True := by
  simp only [Step.callResult, callResult, twin.isInitializer]
  by_cases initializes : closure.isInitializer = true
  · rw [if_pos initializes, if_pos initializes]
    obtain ⟨cell, found, placed⟩ := twin.instance bound initializes
    have same := (mirror.stored.cells cell closure.frame thisName placed).2
    refine ⟨moment.state, moment.places, ?_, mirror, .refl moment, trivial⟩
    simp only [readState, found, Option.bind_some, ← same]
    rfl
  · rw [if_neg initializes, if_neg initializes]
    cases flow with
    | normal => exact follows_pure mirror trivial
    | returns _ value => exact follows_pure mirror trivial
    | breaks _ => exact follows_fail mirror
    | continues _ => exact follows_fail mirror

/-- Parameters are declared from left to right, in the scope of the call. -/
theorem Standing.declareEach {parameters : List Name} {arguments : List Value}
    {names : List String} {outer : Scopes}
    (standing : Standing s moment) (mirror : Mirror moment) (scopes : s.scopes = names :: outer)
    (arity : parameters.length = arguments.length)
    (ordinary : ∀ parameter ∈ parameters, parameter.written.IsOrdinary) :
    ∃ places, ∃ inside : Surroundings,
      inside.scopes = ((parameters.map (·.text)).reverse ++ names) :: outer ∧
      Mirror ⟨{ moment.machine with
        heap := Step.bindParameters moment.machine.heap moment.machine.frame parameters arguments },
        moment.origins, moment.state.declareEach parameters arguments, places⟩ ∧
      Carries True moment ⟨{ moment.machine with
        heap := Step.bindParameters moment.machine.heap moment.machine.frame parameters arguments },
        moment.origins, moment.state.declareEach parameters arguments, places⟩ ∧
      Standing inside ⟨{ moment.machine with
        heap := Step.bindParameters moment.machine.heap moment.machine.frame parameters arguments },
        moment.origins, moment.state.declareEach parameters arguments, places⟩ := by
  induction parameters generalizing s moment arguments names with
  | nil => exact ⟨moment.places, s, scopes, mirror, .refl moment, standing⟩
  | cons parameter parameters ih =>
    cases arguments with
    | nil => cases arity
    | cons argument arguments =>
      obtain ⟨places, mirrors, carries, stands⟩ := standing.declare argument mirror
        (standing.proper.declare (ordinary parameter (.head _)))
      have declared : (s.declare parameter.text).scopes = (parameter.text :: names) :: outer := by
        simp only [Surroundings.declare, scopes, Scopes.declare]
      obtain ⟨further, inside, within, mirrorsRest, carriesRest, standsRest⟩ :=
        ih stands mirrors declared (Nat.succ.inj arity) fun other member =>
          ordinary other (.tail _ member)
      refine ⟨further, inside, ?_, mirrorsRest, carries.trans carriesRest, standsRest⟩
      rw [List.map_cons, List.reverse_cons, List.append_assoc]
      exact within

theorem Covers.congr {visible : Visible} {names others : List String} {outer : Scopes}
    (covers : Covers visible (names :: outer)) (same : ∀ name, name ∈ names ↔ name ∈ others) :
    Covers visible (others :: outer) := by
  cases covers with
  | cons held rest => exact .cons (fun name => (held name).trans (same name)) rest

/-- The body of a function runs where its declaration is, in both runs. -/
theorem follows_inCall {watch : Watch α} {step : Lexical α} {closure : Closure}
    {function : Function} {origin : Origin} {arguments : List Value} {paren : Token}
    (mirror : Mirror moment)
    (twin : Twin moment.machine.heap.environment moment.places closure function origin)
    (bound : origin.bare = false) (arity : closure.lambda.parameters.length = arguments.length)
    (body : ∀ entered, Mirror entered →
      Standing (origin.surroundings.enterFunction origin.lambda.parameters) entered →
        Follows True entered watch step fun _ _ => True) :
    Follows False moment (Watch.inCall closure arguments paren watch)
      (inCall function arguments paren step) fun _ _ => True := by
  have ordinary : ∀ parameter ∈ closure.lambda.parameters, parameter.written.IsOrdinary := by
    rw [twin.parameters]
    exact (Lambda.ordinary twin.ordinary).1
  have covers := twin.covers
  rw [if_neg (by simp [bound])] at covers
  have standing := Standing.enter mirror twin.chain covers twin.proper
  obtain ⟨places, inside, within, mirrors, carries, stands⟩ :=
    standing.declareEach (mirror.enter _ _) rfl arity ordinary
  have entered : Standing (origin.surroundings.enterFunction origin.lambda.parameters) _ :=
    { stands with
      covers := by
        have covers := stands.covers
        rw [within] at covers
        -- The parameters were declared one by one, which leaves the same names in another order.
        refine covers.congr fun name => ?_
        rw [List.append_nil, List.mem_reverse, twin.parameters]
      proper := twin.proper.enterFunction (twin.parameters ▸ ordinary) }
  -- Seen from the caller, binding the parameters was nothing but a new frame.
  have called := Machine.grows_back (.child _ _) (Nat.le_refl _) carries.grows
  by_cases full : Step.maximumDepth ≤ moment.machine.depth
  · have alsoFull : Step.maximumDepth ≤ moment.state.depth := mirror.depth ▸ full
    simp only [Follows, Watch.inCall, inCall, if_pos full, if_pos alsoFull]
    exact ⟨moment.state, moment.places, rfl, mirror, .refl moment⟩
  · have alsoFree : ¬Step.maximumDepth ≤ moment.state.depth := mirror.depth ▸ full
    have parameters : function.lambda.parameters = closure.lambda.parameters := by
      rw [twin.lambda, twin.parameters]
    have ran := body
      ⟨{ moment.machine with
          heap := Step.bindParameters (moment.machine.heap.addFrame closure.frame).2
            moment.machine.heap.environment.size closure.lambda.parameters arguments
          frame := moment.machine.heap.environment.size
          depth := moment.machine.depth + 1 }, moment.origins,
        { (moment.state.enter function.visible).declareEach closure.lambda.parameters arguments with
          depth := moment.state.depth + 1 }, places⟩
      { mirrors with depth := congrArg (· + 1) mirror.depth } { entered with }
    simp only [Follows, Watch.inCall, inCall, if_neg full, if_neg alsoFree, parameters]
    refine follows_around ran fun machine origins state further mirror carried => ?_
    refine ⟨{ mirror with depth := congrArg (· - 1) mirror.depth }, rfl, ?_, ?_, fun _ => rfl⟩
    · exact Machine.grows_back called (Nat.le_refl _) carried.grows
    · exact carries.places.trans carried.places

/-! ## Declarations -/

theorem follows_addInstance {classId : ClassId} (mirror : Mirror moment) :
    Follows opens moment (Watch.lift (Step.changeHeap (·.addInstance classId)))
      (changeState (·.addInstance classId))
      fun _ next => next.state.functions = moment.state.functions := by
  refine follows_change (congrArg Array.size mirror.instances) { mirror with instances := ?_ }
    ⟨rfl, .refl _, List.prefix_rfl, fun _ => rfl⟩ rfl
  simp only [State.addInstance, Heap.addInstance, mirror.instances]

theorem follows_addClass {classObject : ClassObject} (mirror : Mirror moment) :
    Follows opens moment (Watch.lift (Step.changeHeap (·.addClass classObject)))
      (changeState (·.addClass classObject)) fun _ _ => True := by
  refine follows_change (congrArg Array.size mirror.classes) { mirror with classes := ?_ }
    ⟨rfl, .refl _, List.prefix_rfl, fun _ => rfl⟩ trivial
  simp only [State.addClass, Heap.addClass, mirror.classes]

/-- Methods are made bare in one run, and without their instance being visible in the other. -/
theorem follows_closeMethods {inside : Surroundings} {methods : List (Method Unit)}
    {table : Table FunctionId} (standing : Standing inside moment) (mirror : Mirror moment)
    (scopes : s.scopes = inside.scopes) (proper : (s.enter [thisName]).Proper)
    (ordinary : Ordinary (Method.writtenEach methods)) :
    Follows False moment (Watch.closeMethods (s.enter [thisName]) table methods)
      (closeMethods table methods) fun _ _ => True := by
  induction methods generalizing moment table with
  | nil => exact follows_pure mirror trivial
  | cons method rest ih =>
    obtain ⟨name, lambda⟩ := method
    simp only [Method.writtenEach, Method.written, Ordinary.append, Ordinary.cons] at ordinary
    have covers : Covers moment.state.visible s.scopes := scopes ▸ standing.covers
    refine follows_bind id (follows_close mirror standing.chain ⟨s.scopes, rfl, covers⟩
      (fun _ => ⟨s.scopes, rfl⟩) proper ordinary.1.2.2) ?_
    intro _ next mirrors carries _
    exact ih (standing.carries mirror carries) mirrors ordinary.2

theorem follows_closeMethodsOf {parent : Option ClassId} {methods : List (Method Unit)}
    (standing : Standing s moment) (mirror : Mirror moment)
    (ordinary : Ordinary (Method.writtenEach methods)) :
    Follows False moment (Watch.closeMethodsOf s parent methods) (closeMethodsOf parent methods)
      fun _ _ => True := by
  have proper := Surroundings.proper_classBody parent s
  cases parent with
  | none => exact follows_closeMethods standing mirror rfl proper ordinary
  | some id =>
    -- What is around the class does not see the superclass, so its own class does not count here.
    have around : Standing (s.enterClass .outside) moment := { standing with proper := nofun }
    have body : Follows True (moment.enter moment.machine.frame moment.state.visible)
        (Watch.lift (Step.define superName (.classObject id)) >>= fun _ =>
          Watch.closeMethods ((s.classBody (some id)).enter [thisName]) .empty methods)
        (declare superName (.classObject id) >>= fun _ => closeMethods .empty methods)
        fun _ _ => True := by
      refine follows_bind (fun opened => opened)
        (follows_declare (around.enterScope mirror) (mirror.enter _ _) nofun) ?_
      intro _ next mirrors carries stands
      have closed : Follows False next
          (Watch.closeMethods ((s.classBody (some id)).enter [thisName]) .empty methods)
          (closeMethods .empty methods) fun _ _ => True :=
        follows_closeMethods stands mirrors rfl proper ordinary
      exact closed.weaken False.elim fun _ _ holds => holds
    exact follows_inScope body

/-- A name that is bound in the innermost frame is in its scope already. -/
theorem Standing.binding_declare {name : String} (standing : Standing s moment)
    (bound : ∀ distance, (s.declare name).binding name = .lexical distance →
      (moment.machine.heap.environment.getAt? moment.machine.frame distance name).isSome) :
    (s.declare name).binding name = s.binding name := by
  have covers := standing.covers
  have complete := standing.complete
  simp only [Surroundings.binding, Surroundings.declare] at bound ⊢
  cases scopes : s.scopes with
  | nil => rfl
  | cons names outer =>
    rw [scopes] at covers bound
    have declared : Scopes.binding (Scopes.declare name (names :: outer)) name = .lexical 0 := by
      simp [Scopes.declare, Scopes.binding_cons]
    -- Where the class is declared its name resolves to the innermost frame, so it is bound there.
    have here := bound 0 declared
    cases visible : moment.state.visible with
    | nil =>
      rw [visible] at covers
      cases covers
    | cons scope rest =>
      rw [visible] at covers complete
      cases covers with
      | cons same _ =>
        have member := (same name).mp (complete scope rfl name here)
        rw [declared, Scopes.binding_cons, if_pos (List.contains_iff_mem.mpr member)]

theorem follows_lift_bind {β γ : Type} {first : Step β} {rest : β → Step γ} {step : Lexical γ}
    {post : γ → Moment → Prop}
    (follows : Follows opens moment (Watch.lift first >>= fun result => Watch.lift (rest result))
      step post) :
    Follows opens moment (Watch.lift (first >>= rest)) step post := by
  rw [Watch.lift_bind]
  exact follows

/-- The superclass is looked up before the class is declared. If it has the name of the class, it is
another one of that name, in the same scope. -/
theorem follows_superclassOf {name : Name} {superclass : Option (Superclass Unit)}
    (standing : Standing s moment) (mirror : Mirror moment) :
    Follows False moment (Watch.superclassOf (s.declare name.text) name superclass)
      (superclassOf superclass) fun _ _ => True := by
  cases superclass with
  | none => exact follows_pure mirror trivial
  | some parent =>
    refine follows_check (follows_occurs fun bound => ?_)
    have binding : (s.declare name.text).binding parent.name.text = s.binding parent.name.text := by
      -- Only for the name of the class itself does declaring it make a difference.
      by_cases same : parent.name.text = name.text
      · rw [same] at bound ⊢
        exact standing.binding_declare bound
      · exact Scopes.binding_declare_of_ne same
    have found : Follows False moment
        (Watch.lift (Step.lookUp parent.name.text ((s.declare name.text).binding parent.name.text)
          parent.name.token))
        (lookUp parent.name.text parent.name.token) fun _ _ => True :=
      follows_lookUp_of mirror (binding ▸ standing.read? mirror parent.name.text) fun _ => trivial
    refine follows_lift_bind (follows_bind id found ?_)
    intro value next mirrors _ _
    cases value with
    | classObject id => exact follows_pure mirrors trivial
    | _ => exact follows_fail mirrors

/-- A name that is declared twice is declared. -/
theorem Standing.declare_declare {name : String}
    (standing : Standing ((s.declare name).declare name) moment)
    (proper : (s.declare name).Proper) : Standing (s.declare name) moment := by
  refine { standing with covers := ?_, proper := proper }
  have covers := standing.covers
  simp only [Surroundings.declare] at covers ⊢
  cases scopes : s.scopes with
  | nil =>
    rw [scopes] at covers
    exact covers
  | cons names outer =>
    rw [scopes] at covers
    refine covers.congr fun other => ?_
    simp

theorem follows_declareClass {name : Name} {superclass : Option (Superclass Unit)}
    {methods : List (Method Unit)} (standing : Standing s moment) (mirror : Mirror moment)
    (named : name.written.IsOrdinary) (ordinary : Ordinary (Method.writtenEach methods)) :
    Follows True moment (Watch.declareClass s name superclass methods)
      (declareClass name superclass methods) fun _ next => Standing (s.declare name.text) next := by
  have proper := standing.proper.declare named
  refine follows_bind False.elim (follows_superclassOf standing mirror) ?_
  intro parent next mirrorParent carries _
  have standing := standing.carries mirror carries
  refine follows_bind id (follows_declare standing mirrorParent proper) ?_
  intro _ afterNil mirrorNil _ standing
  refine follows_bind False.elim (follows_closeMethodsOf standing mirrorNil ordinary) ?_
  intro table afterTable mirrorTable carries _
  have standing := standing.carries mirrorNil carries
  refine follows_bind False.elim (follows_addClass mirrorTable) ?_
  intro id afterClass mirrorClass carries _
  have standing := standing.carries mirrorTable carries
  refine (follows_declare standing mirrorClass (proper.declare named)).weaken (fun _ => trivial) ?_
  exact fun _ _ declared => declared.declare_declare proper

theorem follows_declareFunction {name : Name} {lambda : Lambda Unit} (standing : Standing s moment)
    (mirror : Mirror moment) (named : name.written.IsOrdinary)
    (ordinary : Ordinary lambda.written) :
    Follows True moment (Watch.declareFunction s name lambda) (declareFunction name lambda)
      fun _ next => Standing (s.declare name.text) next := by
  have proper := standing.proper.declare named
  refine follows_bind id (follows_declare standing mirror proper) ?_
  intro _ afterNil mirrorNil _ standing
  refine follows_bind False.elim (follows_closeFunction standing mirrorNil ordinary) ?_
  intro id afterClose mirrorClose carries _
  have standing := standing.carries mirrorNil carries
  refine (follows_declare standing mirrorClose (proper.declare named)).weaken (fun _ => trivial) ?_
  exact fun _ _ declared => declared.declare_declare proper

end Lexical

end Lox
