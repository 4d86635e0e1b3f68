import Lox.Proofs.Scoping.Resolved

/-!
# Watched runs are runs

By induction on the fuel, evaluation of a resolved tree and the watched evaluation of the tree it
was resolved from agree, wherever the machine stands as the surroundings say. `Faithful` has the
statement for each of the mutual functions.
-/

namespace Lox

namespace Watch

variable {s : Surroundings} {machine : Machine} {origins : List Origin}

/-- Values that can be kept. -/
def KeepsEach (values : List Value) (_ : Machine) (origins : List Origin) : Prop :=
  ∀ value ∈ values, value.IsPlain origins

/-- What a statement leaves: a signal that can be kept, and its name declared. -/
def Leaves (s : Surroundings) (name : Option String) (flow : Flow) (machine : Machine)
    (origins : List Origin) : Prop :=
  flow.IsPlain origins ∧ Stands (s.after name) machine origins

structure Faithful (fuel : Nat) : Prop where
  evaluate : ∀ {s expr resolved machine origins}, Expr.resolve s expr = .ok resolved →
    expr.WellShaped → Stands s machine origins →
      Agrees False machine origins (evaluate fuel s expr) (Step.evaluate fuel resolved) Keeps
  evaluateEach : ∀ {s exprs resolved machine origins}, Expr.resolveEach s exprs = .ok resolved →
    Expr.WellShapedEach exprs → Stands s machine origins →
      Agrees False machine origins (evaluateEach fuel s exprs) (Step.evaluateEach fuel resolved)
        KeepsEach
  evaluateLast : ∀ {s last exprs resolved machine origins},
    Expr.resolveEach s exprs = .ok resolved → Expr.WellShapedEach exprs → last.IsPlain origins →
      Stands s machine origins →
        Agrees False machine origins (evaluateLast fuel s last exprs)
          (Step.evaluateLast fuel last resolved) Keeps
  evaluatePart : ∀ {s part resolved machine origins}, Expr.resolvePart s part = .ok resolved →
    Expr.WellShapedPart part → Stands s machine origins →
      Agrees False machine origins (evaluatePart fuel s part) (Step.evaluatePart fuel resolved)
        Keeps
  call : ∀ {callee arguments paren machine origins}, callee.IsPlain origins →
    (∀ argument ∈ arguments, argument.IsPlain origins) → machine.heap.Sound origins →
      Agrees False machine origins (call fuel callee arguments paren)
        (Step.call fuel callee arguments paren) Keeps
  construct : ∀ {classId arguments paren machine origins},
    (∀ argument ∈ arguments, argument.IsPlain origins) → machine.heap.Sound origins →
      Agrees False machine origins (construct fuel classId arguments paren)
        (Step.construct fuel classId arguments paren) Keeps
  callClosure : ∀ {closure origin arguments paren machine origins},
    Origin.Describes origin machine.heap.environment closure → origin.bare = false →
      (∀ argument ∈ arguments, argument.IsPlain origins) →
        closure.lambda.parameters.length = arguments.length → machine.heap.Sound origins →
          Agrees False machine origins (callClosure fuel closure origin arguments paren)
            (Step.callClosure fuel closure arguments paren) Keeps
  storeEach : ∀ {s value targets resolved machine origins},
    Target.resolveEach s targets = .ok resolved → Target.WellShapedEach targets →
      value.IsPlain origins → Stands s machine origins →
        Agrees False machine origins (storeEach fuel s value targets)
          (Step.storeEach fuel value resolved) fun _ _ _ => True
  execute : ∀ {s stmt resolved machine origins}, Stmt.resolve s stmt = .ok resolved →
    stmt.WellShaped → Stands s machine origins →
      Agrees stmt.declaredName?.isSome machine origins (execute fuel s stmt)
        (Step.execute fuel resolved) (Leaves s stmt.declaredName?)
  executeEach : ∀ {s stmts resolved machine origins}, Stmt.resolveEach s stmts = .ok resolved →
    Stmt.WellShapedEach stmts → Stands s machine origins →
      Agrees True machine origins (executeEach fuel s stmts) (Step.executeEach fuel resolved)
        fun flow _ later => flow.IsPlain later
  executePart : ∀ {s part resolved machine origins}, Stmt.resolvePart s part = .ok resolved →
    Stmt.WellShapedPart part → Stands s machine origins →
      Agrees (part.bind Stmt.declaredName?).isSome machine origins (executePart fuel s part)
        (Step.executePart fuel resolved) (Leaves s (part.bind Stmt.declaredName?))
  loop : ∀ {s condition increment body resolvedCondition resolvedIncrement resolvedBody machine
    origins}, Expr.resolvePart s condition = .ok resolvedCondition →
      Expr.resolvePart s increment = .ok resolvedIncrement →
        Stmt.resolve s.enterLoop body = .ok resolvedBody → Expr.WellShapedPart condition →
          Expr.WellShapedPart increment → body.WellShaped → body.declaredName? = none →
            Stands s machine origins →
              Agrees False machine origins (loop fuel s condition increment body)
                (Step.loop fuel resolvedCondition resolvedIncrement resolvedBody)
                fun flow _ later => flow.IsPlain later

variable {fuel : Nat}

/-! ## Expressions -/

theorem evaluate_faithful (faithful : Faithful fuel) {expr : Expr Unit} {resolved : Expr Binding}
    (resolves : expr.resolve s = .ok resolved) (shaped : expr.WellShaped)
    (stands : Stands s machine origins) :
    Agrees False machine origins (evaluate (fuel + 1) s expr) (Step.evaluate (fuel + 1) resolved)
      Keeps := by
  refine agrees_check stands.matched ?_
  cases expr with
  | literal value =>
    cases resolves
    exact agrees_pure stands.sound (.of_node?_eq_none value.node?_value)
  | group inner =>
    obtain ⟨_, resolvesInner, made⟩ := Except.bind_eq_ok resolves
    cases made
    exact faithful.evaluate resolvesInner shaped stands
  | unary operator line operand =>
    obtain ⟨_, resolvesOperand, made⟩ := Except.bind_eq_ok resolves
    cases made
    refine agrees_bind (faithful.evaluate resolvesOperand shaped.2 stands) ?_
    intro value after later steady plain
    exact agrees_ofOperands steady.sound fun _ => UnaryOperator.node?_apply
  | binary operator line left right =>
    obtain ⟨_, resolvesLeft, further⟩ := Except.bind_eq_ok resolves
    obtain ⟨_, resolvesRight, made⟩ := Except.bind_eq_ok further
    cases made
    obtain ⟨_, _, leftShaped, rightShaped⟩ := shaped
    refine agrees_bind (faithful.evaluate resolvesLeft leftShaped stands) ?_
    intro a afterLeft laterLeft steadyLeft _
    refine agrees_bind (faithful.evaluate resolvesRight rightShaped (stands.steady steadyLeft)) ?_
    intro b after later steady _
    exact agrees_ofOperands steady.sound fun _ => BinaryOperator.node?_apply
  | logical operator line left right =>
    obtain ⟨_, resolvesLeft, further⟩ := Except.bind_eq_ok resolves
    obtain ⟨_, resolvesRight, made⟩ := Except.bind_eq_ok further
    cases made
    obtain ⟨_, _, leftShaped, rightShaped⟩ := shaped
    refine agrees_bind (faithful.evaluate resolvesLeft leftShaped stands) ?_
    intro value after later steady plain
    by_cases decided : operator.isDecidedBy value = true
    · rw [if_pos decided, if_pos decided]
      exact agrees_pure steady.sound plain
    · rw [if_neg decided, if_neg decided]
      exact faithful.evaluate resolvesRight rightShaped (stands.steady steady)
  | comma operands =>
    obtain ⟨_, resolvesOperands, made⟩ := Except.bind_eq_ok resolves
    cases made
    exact faithful.evaluateLast resolvesOperands shaped.2 trivial stands
  | conditional line condition thenBranch elseBranch =>
    obtain ⟨_, resolvesCondition, further⟩ := Except.bind_eq_ok resolves
    obtain ⟨_, resolvesThen, further⟩ := Except.bind_eq_ok further
    obtain ⟨_, resolvesElse, made⟩ := Except.bind_eq_ok further
    cases made
    obtain ⟨_, _, _, conditionShaped, thenShaped, elseShaped⟩ := shaped
    refine agrees_bind (faithful.evaluate resolvesCondition conditionShaped stands) ?_
    intro value after later steady plain
    rcases value with _ | (_ | _) | _ | _ | _ | _ | _ | _
    case boolean.true => exact faithful.evaluate resolvesThen thenShaped (stands.steady steady)
    case boolean.false => exact faithful.evaluate resolvesElse elseShaped (stands.steady steady)
    all_goals exact agrees_fail steady.sound
  | reference name binding =>
    cases resolves
    exact agrees_occurs (stands.bound name.text) (agrees_lookUp stands.sound)
  | assign name binding value =>
    obtain ⟨_, resolvesValue, made⟩ := Except.bind_eq_ok resolves
    cases made
    refine agrees_bind (faithful.evaluate resolvesValue shaped.2 stands) ?_
    intro value afterValue laterValue steadyValue plain
    have atValue := stands.steady steadyValue
    refine agrees_occurs (atValue.bound name.text) ?_
    refine agrees_bind (agrees_assign atValue.sound plain) ?_
    intro _ after later steady _
    exact agrees_pure steady.sound (plain.mono steady.origins)
  | property object name =>
    obtain ⟨_, resolvesObject, made⟩ := Except.bind_eq_ok resolves
    cases made
    refine agrees_bind (faithful.evaluate resolvesObject shaped.2 stands) ?_
    intro value after later steady _
    cases value with
    | object id => exact agrees_getProperty steady.sound
    | _ => exact agrees_fail steady.sound
  | call callee line arguments =>
    obtain ⟨_, resolvesArguments, further⟩ := Except.bind_eq_ok resolves
    obtain ⟨_, resolvesCallee, made⟩ := Except.bind_eq_ok further
    cases made
    obtain ⟨_, calleeShaped, argumentsShaped⟩ := shaped
    refine agrees_bind (faithful.evaluateEach resolvesArguments argumentsShaped stands) ?_
    intro values afterArguments laterArguments steadyArguments plainArguments
    have atArguments := stands.steady steadyArguments
    refine agrees_bind (faithful.evaluate resolvesCallee calleeShaped atArguments) ?_
    intro value after later steady plain
    exact faithful.call plain
      (fun argument member => (plainArguments argument member).mono steady.origins) steady.sound
  | function lambda =>
    obtain ⟨_, resolvesLambda, made⟩ := Except.bind_eq_ok resolves
    cases made
    refine agrees_bind (agrees_close stands.sound resolvesLambda shaped stands.matched) ?_
    intro id after later steady known
    exact agrees_pure steady.sound ⟨_, known, rfl⟩
  | thisInstance line binding =>
    simp only [Expr.resolve] at resolves
    split at resolves
    · cases resolves
    · cases resolves
      exact agrees_occurs (stands.bound thisName) (agrees_lookUp stands.sound)
  | superMethod line binding method =>
    simp only [Expr.resolve] at resolves
    -- `super` resolves in a subclass only; out of a class and in a class without a superclass
    -- there is nothing to show.
    split at resolves
    · cases resolves
    · cases resolves
    · next subclass =>
      cases resolves
      refine agrees_inSubclass subclass ?_
      exact agrees_occurs (stands.bound superName) (agrees_superProperty stands.sound)

theorem evaluateEach_faithful (faithful : Faithful fuel) {exprs : List (Expr Unit)}
    {resolved : List (Expr Binding)} (resolves : Expr.resolveEach s exprs = .ok resolved)
    (shaped : Expr.WellShapedEach exprs) (stands : Stands s machine origins) :
    Agrees False machine origins (evaluateEach (fuel + 1) s exprs)
      (Step.evaluateEach (fuel + 1) resolved) KeepsEach := by
  cases exprs with
  | nil =>
    cases resolves
    refine agrees_pure stands.sound fun other member => ?_
    cases member
  | cons expr rest =>
    obtain ⟨_, resolvesFirst, further⟩ := Except.bind_eq_ok resolves
    obtain ⟨_, resolvesRest, made⟩ := Except.bind_eq_ok further
    cases made
    refine agrees_bind (faithful.evaluate resolvesFirst shaped.2.1 stands) ?_
    intro value afterFirst laterFirst steadyFirst plain
    have atFirst := stands.steady steadyFirst
    refine agrees_bind (faithful.evaluateEach resolvesRest shaped.2.2 atFirst) ?_
    intro values after later steady plainRest
    refine agrees_pure steady.sound fun other member => ?_
    cases member with
    | head => exact plain.mono steady.origins
    | tail _ further => exact plainRest other further

theorem evaluateLast_faithful (faithful : Faithful fuel) {last : Value} {exprs : List (Expr Unit)}
    {resolved : List (Expr Binding)} (resolves : Expr.resolveEach s exprs = .ok resolved)
    (shaped : Expr.WellShapedEach exprs) (plain : last.IsPlain origins)
    (stands : Stands s machine origins) :
    Agrees False machine origins (evaluateLast (fuel + 1) s last exprs)
      (Step.evaluateLast (fuel + 1) last resolved) Keeps := by
  cases exprs with
  | nil =>
    cases resolves
    exact agrees_pure stands.sound plain
  | cons expr rest =>
    obtain ⟨_, resolvesFirst, further⟩ := Except.bind_eq_ok resolves
    obtain ⟨_, resolvesRest, made⟩ := Except.bind_eq_ok further
    cases made
    refine agrees_bind (faithful.evaluate resolvesFirst shaped.2.1 stands) ?_
    intro value after later steady plainFirst
    exact faithful.evaluateLast resolvesRest shaped.2.2 plainFirst (stands.steady steady)

theorem evaluatePart_faithful (faithful : Faithful fuel) {part : Option (Expr Unit)}
    {resolved : Option (Expr Binding)} (resolves : Expr.resolvePart s part = .ok resolved)
    (shaped : Expr.WellShapedPart part) (stands : Stands s machine origins) :
    Agrees False machine origins (evaluatePart (fuel + 1) s part)
      (Step.evaluatePart (fuel + 1) resolved) Keeps := by
  cases part with
  | none =>
    cases resolves
    exact agrees_pure stands.sound trivial
  | some expr =>
    obtain ⟨_, resolvesExpr, made⟩ := Except.bind_eq_ok resolves
    cases made
    exact faithful.evaluate resolvesExpr shaped stands

/-! ## Calls -/

theorem call_faithful (faithful : Faithful fuel) {callee : Value} {arguments : List Value}
    {paren : Token} (callable : callee.IsPlain origins)
    (plain : ∀ argument ∈ arguments, argument.IsPlain origins)
    (sound : machine.heap.Sound origins) :
    Agrees False machine origins (call (fuel + 1) callee arguments paren)
      (Step.call (fuel + 1) callee arguments paren) Keeps := by
  cases callee with
  | native id => exact agrees_callNative sound plain
  | function id =>
    refine agrees_readHeap ?_
    cases found : machine.heap.functions[id]? with
    | none => exact agrees_fail sound
    | some closure =>
      refine agrees_bind (agrees_checkArity sound) ?_
      rintro _ _ later steady ⟨rfl, arity⟩
      obtain ⟨origin, known, described⟩ := steady.sound.functions id closure found
      -- The callee is plain, so what it comes from is not bare.
      obtain ⟨_, same, bound⟩ := callable
      cases (getElem?_grown steady.origins same).symm.trans known
      refine agrees_originOf known bound ?_
      exact faithful.callClosure described bound
        (fun argument member => (plain argument member).mono steady.origins) arity steady.sound
  | classObject id => exact faithful.construct plain sound
  | _ => exact agrees_fail sound

theorem construct_faithful (faithful : Faithful fuel) {classId : ClassId} {arguments : List Value}
    {paren : Token} (plain : ∀ argument ∈ arguments, argument.IsPlain origins)
    (sound : machine.heap.Sound origins) :
    Agrees False machine origins (construct (fuel + 1) classId arguments paren)
      (Step.construct (fuel + 1) classId arguments paren) Keeps := by
  refine agrees_readHeap ?_
  cases found : machine.heap.findMethod? initializerName classId with
  | none =>
    refine agrees_bind (agrees_checkArity sound) ?_
    rintro _ _ later steady ⟨rfl, _⟩
    refine agrees_bind (agrees_addInstance steady.sound) ?_
    intro id after latest further _
    exact agrees_pure further.sound trivial
  | some initializer =>
    refine agrees_readHeap (agrees_bind (agrees_checkArity sound) ?_)
    rintro _ machine later steady ⟨rfl, arity⟩
    refine agrees_bind (agrees_addInstance steady.sound) ?_
    intro id afterAdded laterAdded steadyAdded same
    -- A method is bare as it is found in its class, and can be called once it is bound.
    have bare := (sound.findMethod? found).mono (steady.origins.trans steadyAdded.origins)
    refine agrees_bind (agrees_bindMethod steadyAdded.sound bare) ?_
    rintro bound afterBound laterBound steadyBound ⟨⟨origin, known, callable⟩, closure, frame, its,
      holds⟩
    refine agrees_readHeap ?_
    rw [holds]
    refine agrees_originOf known callable ?_
    obtain ⟨_, also, described⟩ := steadyBound.sound.functions bound _ holds
    cases known.symm.trans also
    -- The arguments were counted against the bare method, whose declaration the bound one shares.
    rw [same] at its
    rw [its] at arity
    have grown := steady.origins.trans (steadyAdded.origins.trans steadyBound.origins)
    refine agrees_bind (faithful.callClosure described callable
      (fun argument member => (plain argument member).mono grown) arity steadyBound.sound) ?_
    intro _ after latest further _
    exact agrees_pure further.sound trivial

/-- The body runs in surroundings that bind what the resolved function has as parameters. -/
theorem callClosure_faithful (faithful : Faithful fuel) {closure : Closure} {origin : Origin}
    {arguments : List Value} {paren : Token}
    (described : origin.Describes machine.heap.environment closure) (bound : origin.bare = false)
    (plain : ∀ argument ∈ arguments, argument.IsPlain origins)
    (arity : closure.lambda.parameters.length = arguments.length)
    (sound : machine.heap.Sound origins) :
    Agrees False machine origins (callClosure (fuel + 1) closure origin arguments paren)
      (Step.callClosure (fuel + 1) closure arguments paren) Keeps := by
  obtain ⟨surroundings, ⟨parameters, statements⟩, bare⟩ := origin
  -- The lambda that was called is what the origin resolves to: the same parameters, and the body
  -- resolved.
  obtain ⟨body, resolvesBody, made⟩ := Except.bind_eq_ok described.resolved
  have same : parameters = closure.lambda.parameters :=
    congrArg Lambda.parameters (Except.ok.inj made)
  have its : body = closure.lambda.body := congrArg Lambda.body (Except.ok.inj made)
  have ran : Agrees False machine origins
      (inCall closure arguments paren (executeEach fuel
        (surroundings.enterFunction parameters) statements))
      (Step.inCall closure arguments paren (Step.executeEach fuel closure.lambda.body))
      fun flow _ later => flow.IsPlain later := by
    refine agrees_inCall sound described bound plain arity (fun entered stands => ?_)
      fun _ _ _ _ holds => holds
    rw [← same] at stands
    rw [← its]
    exact faithful.executeEach resolvesBody described.shaped stands
  refine agrees_bind ran ?_
  intro flow after later steady plainFlow
  exact agrees_callResult steady.sound plainFlow

/-! ## Statements -/

theorem storeEach_faithful (faithful : Faithful fuel) {value : Value} {targets : List (Target Unit)}
    {resolved : List (Target Binding)} (resolves : Target.resolveEach s targets = .ok resolved)
    (shaped : Target.WellShapedEach targets) (plain : value.IsPlain origins)
    (stands : Stands s machine origins) :
    Agrees False machine origins (storeEach (fuel + 1) s value targets)
      (Step.storeEach (fuel + 1) value resolved) fun _ _ _ => True := by
  cases targets with
  | nil =>
    cases resolves
    exact agrees_pure stands.sound trivial
  | cons target rest =>
    obtain ⟨_, resolvesFirst, further⟩ := Except.bind_eq_ok resolves
    obtain ⟨_, resolvesRest, made⟩ := Except.bind_eq_ok further
    cases made
    cases target with
    | name name binding =>
      cases resolvesFirst
      refine agrees_occurs (stands.bound name.text) ?_
      refine agrees_bind (agrees_assignOrDefine stands.sound plain) ?_
      intro _ after later steady _
      exact faithful.storeEach resolvesRest shaped.2 (plain.mono steady.origins)
        (stands.steady steady)
    | property object name =>
      obtain ⟨_, resolvesObject, madeFirst⟩ := Except.bind_eq_ok resolvesFirst
      cases madeFirst
      refine agrees_bind (faithful.evaluate resolvesObject shaped.1.2 stands) ?_
      intro receiver afterObject laterObject steadyObject _
      have atObject := stands.steady steadyObject
      have plain := plain.mono steadyObject.origins
      refine agrees_bind (agrees_setProperty atObject.sound plain) ?_
      intro _ after later steady _
      exact faithful.storeEach resolvesRest shaped.2 (plain.mono steady.origins)
        (atObject.steady steady)

/-- What is declared in a scope of its own is gone after it. -/
theorem agrees_inside {opens : Prop} {watch : Watch Flow} {step : Step Flow}
    (stands : Stands s machine origins)
    (body : Agrees True machine.enter origins watch step fun flow _ later => flow.IsPlain later) :
    Agrees opens machine origins (inScope watch) (Step.inScope step) (Leaves s none) := by
  have ran : Agrees False machine origins (inScope watch) (Step.inScope step) (Leaves s none) :=
    agrees_inScope body fun _ _ _ steady plain => ⟨plain, stands.steady steady.leave⟩
  exact ran.opened

theorem execute_faithful (faithful : Faithful fuel) {stmt : Stmt Unit} {resolved : Stmt Binding}
    (resolves : stmt.resolve s = .ok resolved) (shaped : stmt.WellShaped)
    (stands : Stands s machine origins) :
    Agrees stmt.declaredName?.isSome machine origins (execute (fuel + 1) s stmt)
      (Step.execute (fuel + 1) resolved) (Leaves s stmt.declaredName?) := by
  refine agrees_check stands.matched ?_
  cases stmt with
  | expression value =>
    obtain ⟨_, resolvesValue, made⟩ := Except.bind_eq_ok resolves
    cases made
    have ran := faithful.evaluate resolvesValue shaped.2 stands
    refine agrees_bind ran.opened ?_
    intro _ after later steady _
    exact agrees_pure steady.sound ⟨trivial, stands.steady steady⟩
  | varDecl name initializer =>
    obtain ⟨_, resolvesInitializer, made⟩ := Except.bind_eq_ok resolves
    cases made
    have ran := faithful.evaluatePart resolvesInitializer shaped stands
    refine agrees_bind ran.opened ?_
    intro value afterValue laterValue steadyValue plain
    have atValue := stands.steady steadyValue
    refine agrees_bind (agrees_define atValue rfl plain) ?_
    intro _ after later steady bound
    exact agrees_pure steady.sound ⟨trivial, (atValue.steady steady).declare bound⟩
  | assign targets value =>
    obtain ⟨_, resolvesValue, further⟩ := Except.bind_eq_ok resolves
    obtain ⟨_, resolvesTargets, made⟩ := Except.bind_eq_ok further
    cases made
    obtain ⟨_, targetsShaped, _, valueShaped⟩ := shaped
    have ran := faithful.evaluate resolvesValue valueShaped stands
    refine agrees_bind ran.opened ?_
    intro value afterValue laterValue steadyValue plain
    have atValue := stands.steady steadyValue
    have stored := faithful.storeEach resolvesTargets targetsShaped plain atValue
    refine agrees_bind stored.opened ?_
    intro _ after later steady _
    exact agrees_pure steady.sound ⟨trivial, atValue.steady steady⟩
  | set object name value =>
    obtain ⟨_, resolvesObject, further⟩ := Except.bind_eq_ok resolves
    obtain ⟨_, resolvesValue, made⟩ := Except.bind_eq_ok further
    cases made
    obtain ⟨_, objectShaped, _, valueShaped⟩ := shaped
    have ran := faithful.evaluate resolvesObject objectShaped stands
    refine agrees_bind ran.opened ?_
    intro receiver afterObject laterObject steadyObject _
    have atObject := stands.steady steadyObject
    cases receiver with
    | object id =>
      have ranValue := faithful.evaluate resolvesValue valueShaped atObject
      refine agrees_bind ranValue.opened ?_
      intro value afterValue laterValue steadyValue plain
      have atValue := atObject.steady steadyValue
      refine agrees_bind (agrees_setProperty atValue.sound plain) ?_
      intro _ after later steady _
      exact agrees_pure steady.sound ⟨trivial, atValue.steady steady⟩
    | _ => exact agrees_fail atObject.sound
  | block body =>
    obtain ⟨_, resolvesBody, made⟩ := Except.bind_eq_ok resolves
    cases made
    exact agrees_inside stands (faithful.executeEach resolvesBody shaped stands.enter)
  | branch condition thenBranch elseBranch =>
    obtain ⟨_, resolvesCondition, further⟩ := Except.bind_eq_ok resolves
    obtain ⟨_, resolvesThen, further⟩ := Except.bind_eq_ok further
    obtain ⟨_, resolvesElse, made⟩ := Except.bind_eq_ok further
    cases made
    obtain ⟨conditionShaped, undeclaredThen, thenShaped, undeclaredElse, elseShaped⟩ := shaped
    refine agrees_inside stands ?_
    have ran := faithful.evaluate resolvesCondition conditionShaped stands.enter
    refine agrees_bind ran.opened ?_
    intro value after later steady _
    have inside := stands.enter.steady steady
    -- Either branch is in the scope of the statement, and none of them declares a name in it, so the
    -- second one is resolved as it stands in the source.
    by_cases holds : value.isTruthy = true
    · rw [if_pos holds, if_pos holds]
      refine (faithful.execute resolvesThen thenShaped inside).weaken (fun _ => trivial) ?_
      exact fun _ _ _ _ leaves => leaves.1
    · rw [if_neg holds, if_neg holds]
      rw [undeclaredThen] at resolvesElse
      refine (faithful.executePart resolvesElse elseShaped inside).weaken (fun _ => trivial) ?_
      exact fun _ _ _ _ leaves => leaves.1
  | whileLoop condition body =>
    obtain ⟨_, resolvesCondition, further⟩ := Except.bind_eq_ok resolves
    obtain ⟨_, resolvesBody, made⟩ := Except.bind_eq_ok further
    cases made
    obtain ⟨conditionShaped, undeclared, bodyShaped⟩ := shaped
    refine agrees_inside stands (Agrees.opened ?_)
    refine faithful.loop ?_ rfl resolvesBody conditionShaped trivial bodyShaped undeclared
      stands.enter
    simp only [Expr.resolvePart, resolvesCondition]
    rfl
  | forLoop initializer condition increment body =>
    obtain ⟨_, resolvesInitializer, further⟩ := Except.bind_eq_ok resolves
    obtain ⟨_, resolvesCondition, further⟩ := Except.bind_eq_ok further
    obtain ⟨_, resolvesIncrement, further⟩ := Except.bind_eq_ok further
    obtain ⟨_, resolvesBody, made⟩ := Except.bind_eq_ok further
    cases made
    obtain ⟨_, initializerShaped, conditionShaped, incrementShaped, undeclared, bodyShaped⟩ := shaped
    refine agrees_inside stands ?_
    have ran := faithful.executePart resolvesInitializer initializerShaped stands.enter
    refine agrees_bind (ran.weaken (fun _ => trivial) fun _ _ _ _ leaves => leaves) ?_
    rintro _ after later steady ⟨_, inside⟩
    exact (faithful.loop resolvesCondition resolvesIncrement resolvesBody conditionShaped
      incrementShaped bodyShaped undeclared inside).opened
  | breakLoop line =>
    simp only [Stmt.resolve] at resolves
    split at resolves
    · cases resolves
      exact agrees_pure stands.sound ⟨trivial, stands⟩
    · cases resolves
  | continueLoop line =>
    simp only [Stmt.resolve] at resolves
    split at resolves
    · cases resolves
      exact agrees_pure stands.sound ⟨trivial, stands⟩
    · cases resolves
  | funDecl name lambda =>
    obtain ⟨_, resolvesLambda, made⟩ := Except.bind_eq_ok resolves
    cases made
    have declared := agrees_declareFunction stands resolvesLambda shaped
    refine agrees_bind (declared.weaken (fun _ => rfl) fun _ _ _ _ stands => stands) ?_
    intro _ after later steady stands
    exact agrees_pure steady.sound ⟨trivial, stands⟩
  | returnValue line value =>
    simp only [Stmt.resolve] at resolves
    split at resolves
    · obtain ⟨_, resolvesValue, made⟩ := Except.bind_eq_ok resolves
      cases made
      have ran := faithful.evaluatePart resolvesValue shaped stands
      refine agrees_bind ran.opened ?_
      intro value after later steady plain
      exact agrees_pure steady.sound ⟨plain, stands.steady steady⟩
    · cases resolves
  | classDecl name superclass methods =>
    obtain ⟨differs, closed, resolvesMethods, rfl⟩ := Stmt.resolve_classDecl resolves
    have declared := agrees_declareClass stands differs resolvesMethods shaped
    refine agrees_bind (declared.weaken (fun _ => rfl) fun _ _ _ _ stands => stands) ?_
    intro _ after later steady stands
    exact agrees_pure steady.sound ⟨trivial, stands⟩

theorem executeEach_faithful (faithful : Faithful fuel) {stmts : List (Stmt Unit)}
    {resolved : List (Stmt Binding)} (resolves : Stmt.resolveEach s stmts = .ok resolved)
    (shaped : Stmt.WellShapedEach stmts) (stands : Stands s machine origins) :
    Agrees True machine origins (executeEach (fuel + 1) s stmts)
      (Step.executeEach (fuel + 1) resolved) fun flow _ later => flow.IsPlain later := by
  cases stmts with
  | nil =>
    cases resolves
    exact agrees_pure stands.sound trivial
  | cons stmt rest =>
    obtain ⟨_, resolvesFirst, further⟩ := Except.bind_eq_ok resolves
    obtain ⟨_, resolvesRest, made⟩ := Except.bind_eq_ok further
    cases made
    have ran := faithful.execute resolvesFirst shaped.1 stands
    refine agrees_bind (ran.weaken (fun _ => trivial) fun _ _ _ _ leaves => leaves) ?_
    rintro flow after later steady ⟨plain, leaves⟩
    cases flow with
    | normal => exact faithful.executeEach resolvesRest shaped.2 leaves
    | _ => exact agrees_pure steady.sound plain

theorem executePart_faithful (faithful : Faithful fuel) {part : Option (Stmt Unit)}
    {resolved : Option (Stmt Binding)} (resolves : Stmt.resolvePart s part = .ok resolved)
    (shaped : Stmt.WellShapedPart part) (stands : Stands s machine origins) :
    Agrees (part.bind Stmt.declaredName?).isSome machine origins (executePart (fuel + 1) s part)
      (Step.executePart (fuel + 1) resolved) (Leaves s (part.bind Stmt.declaredName?)) := by
  cases part with
  | none =>
    cases resolves
    exact agrees_pure stands.sound ⟨trivial, stands⟩
  | some stmt =>
    obtain ⟨_, resolvesStmt, made⟩ := Except.bind_eq_ok resolves
    cases made
    exact faithful.execute resolvesStmt shaped stands

/-- What a loop does once its condition is known. A body that ends normally and one that is left by
`continue` go on alike, from where the round started. -/
theorem round_faithful (faithful : Faithful fuel) {condition increment : Option (Expr Unit)}
    {body : Stmt Unit} {resolvedCondition resolvedIncrement : Option (Expr Binding)}
    {resolvedBody : Stmt Binding} (holds : Bool)
    (resolvesCondition : Expr.resolvePart s condition = .ok resolvedCondition)
    (resolvesIncrement : Expr.resolvePart s increment = .ok resolvedIncrement)
    (resolvesBody : body.resolve s.enterLoop = .ok resolvedBody)
    (conditionShaped : Expr.WellShapedPart condition)
    (incrementShaped : Expr.WellShapedPart increment) (bodyShaped : body.WellShaped)
    (undeclared : body.declaredName? = none) (stands : Stands s machine origins) :
    Agrees False machine origins
      (if holds then do
        match ← execute fuel s.enterLoop body with
        | .breaks _ => pure .normal
        | .returns line value => pure (.returns line value)
        | _ =>
          let next := s.after body.declaredName?
          let _ ← evaluatePart fuel next increment
          loop fuel next condition increment body
      else pure .normal)
      (if holds then do
        match ← Step.execute fuel resolvedBody with
        | .breaks _ => pure .normal
        | .returns line value => pure (.returns line value)
        | _ =>
          let _ ← Step.evaluatePart fuel resolvedIncrement
          Step.loop fuel resolvedCondition resolvedIncrement resolvedBody
      else pure .normal)
      fun flow _ later => flow.IsPlain later := by
  cases holds with
  | false => exact agrees_pure stands.sound trivial
  | true =>
    have within : Stands s.enterLoop machine origins := ⟨stands.sound, stands.matched⟩
    have ran := faithful.execute resolvesBody bodyShaped within
    rw [undeclared] at ran ⊢
    -- A body declares nothing in the scope of its loop, so the next round starts where this one did.
    refine agrees_bind (ran.weaken nofun fun _ _ _ _ leaves => leaves) ?_
    rintro flow afterBody laterBody steadyBody ⟨plain, left⟩
    have again : Agrees False afterBody laterBody
        (evaluatePart fuel s increment >>= fun _ => loop fuel s condition increment body)
        (Step.evaluatePart fuel resolvedIncrement >>= fun _ =>
          Step.loop fuel resolvedCondition resolvedIncrement resolvedBody)
        fun flow _ later => flow.IsPlain later := by
      have next : Stands s afterBody laterBody := ⟨left.sound, left.matched⟩
      refine agrees_bind (faithful.evaluatePart resolvesIncrement incrementShaped next) ?_
      intro _ after later steady _
      exact faithful.loop resolvesCondition resolvesIncrement resolvesBody conditionShaped
        incrementShaped bodyShaped undeclared (next.steady steady)
    cases flow with
    | breaks _ => exact agrees_pure steadyBody.sound trivial
    | returns line value => exact agrees_pure steadyBody.sound plain
    | normal => exact again
    | continues _ => exact again

theorem loop_faithful (faithful : Faithful fuel) {condition increment : Option (Expr Unit)}
    {body : Stmt Unit} {resolvedCondition resolvedIncrement : Option (Expr Binding)}
    {resolvedBody : Stmt Binding}
    (resolvesCondition : Expr.resolvePart s condition = .ok resolvedCondition)
    (resolvesIncrement : Expr.resolvePart s increment = .ok resolvedIncrement)
    (resolvesBody : body.resolve s.enterLoop = .ok resolvedBody)
    (conditionShaped : Expr.WellShapedPart condition)
    (incrementShaped : Expr.WellShapedPart increment) (bodyShaped : body.WellShaped)
    (undeclared : body.declaredName? = none) (stands : Stands s machine origins) :
    Agrees False machine origins (loop (fuel + 1) s condition increment body)
      (Step.loop (fuel + 1) resolvedCondition resolvedIncrement resolvedBody)
      fun flow _ later => flow.IsPlain later := by
  cases condition with
  | none =>
    cases resolvesCondition
    exact round_faithful faithful true rfl resolvesIncrement resolvesBody trivial incrementShaped
      bodyShaped undeclared stands
  | some expr =>
    obtain ⟨_, resolvesExpr, made⟩ := Except.bind_eq_ok resolvesCondition
    cases made
    refine agrees_bind (faithful.evaluate resolvesExpr conditionShaped stands) ?_
    intro value after later steady _
    exact round_faithful faithful value.isTruthy resolvesCondition resolvesIncrement resolvesBody
      conditionShaped incrementShaped bodyShaped undeclared (stands.steady steady)

/-! ## Every amount of fuel -/

theorem faithful (fuel : Nat) : Faithful fuel := by
  induction fuel with
  | zero => constructor <;> intros <;> exact agrees_outOfFuel
  | succ fuel ih =>
    exact
      { evaluate := evaluate_faithful ih
        evaluateEach := evaluateEach_faithful ih
        evaluateLast := evaluateLast_faithful ih
        evaluatePart := evaluatePart_faithful ih
        call := call_faithful ih
        construct := construct_faithful ih
        callClosure := callClosure_faithful ih
        storeEach := storeEach_faithful ih
        execute := execute_faithful ih
        executeEach := executeEach_faithful ih
        executePart := executePart_faithful ih
        loop := loop_faithful ih }

end Watch

end Lox
