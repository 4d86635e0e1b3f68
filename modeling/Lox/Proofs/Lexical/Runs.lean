import Lox.Proofs.Lexical.Calls

/-!
# Lexical runs follow watched ones

By induction on the fuel, evaluation of a text without frames follows the watched evaluation of it,
wherever the two mirror each other and stand where the surroundings say. `Following` has the
statement for each of the mutual functions.
-/

namespace Lox

namespace Lexical

variable {α : Type} {s : Surroundings} {moment : Moment}

structure Following (fuel : Nat) : Prop where
  evaluate : ∀ {s expr moment}, Ordinary (Expr.written expr) → Standing s moment →
    Mirror moment → Follows False moment (Watch.evaluate fuel s expr) (evaluate fuel expr)
      fun _ _ => True
  evaluateEach : ∀ {s exprs moment}, Ordinary (Expr.writtenEach exprs) → Standing s moment →
    Mirror moment → Follows False moment (Watch.evaluateEach fuel s exprs)
      (evaluateEach fuel exprs) fun _ _ => True
  evaluateLast : ∀ {s last exprs moment}, Ordinary (Expr.writtenEach exprs) → Standing s moment →
    Mirror moment → Follows False moment (Watch.evaluateLast fuel s last exprs)
      (evaluateLast fuel last exprs) fun _ _ => True
  evaluatePart : ∀ {s before part moment}, Ordinary (Expr.writtenPart before part) →
    Standing s moment → Mirror moment → Follows False moment (Watch.evaluatePart fuel s part)
      (evaluatePart fuel part) fun _ _ => True
  call : ∀ {callee arguments paren moment}, Mirror moment →
    Follows False moment (Watch.call fuel callee arguments paren)
      (call fuel callee arguments paren) fun _ _ => True
  construct : ∀ {classId arguments paren moment}, Mirror moment →
    Follows False moment (Watch.construct fuel classId arguments paren)
      (construct fuel classId arguments paren) fun _ _ => True
  callFunction : ∀ {closure function origin arguments paren moment},
    Twin moment.machine.heap.environment moment.places closure function origin →
      origin.bare = false → closure.lambda.parameters.length = arguments.length →
        Mirror moment → Follows False moment (Watch.callClosure fuel closure origin arguments paren)
          (callFunction fuel function arguments paren) fun _ _ => True
  storeEach : ∀ {s value targets moment}, Ordinary (Target.writtenEach targets) →
    Standing s moment → Mirror moment → Follows False moment (Watch.storeEach fuel s value targets)
      (storeEach fuel value targets) fun _ _ => True
  execute : ∀ {s stmt moment}, Ordinary (Stmt.written stmt) → Standing s moment → Mirror moment →
    Follows True moment (Watch.execute fuel s stmt) (execute fuel stmt)
      fun _ next => Standing (s.after stmt.declaredName?) next
  executeEach : ∀ {s stmts moment}, Ordinary (Stmt.writtenEach stmts) → Standing s moment →
    Mirror moment → Follows True moment (Watch.executeEach fuel s stmts)
      (executeEach fuel stmts) fun _ _ => True
  executePart : ∀ {s part moment}, (∀ stmt ∈ part, Ordinary (Stmt.written stmt)) →
    Standing s moment → Mirror moment → Follows True moment (Watch.executePart fuel s part)
      (executePart fuel part) fun _ next => Standing (s.after (part.bind Stmt.declaredName?)) next
  loop : ∀ {s condition increment body moment},
    Ordinary (Expr.writtenPart [] condition) → Ordinary (Expr.writtenPart [] increment) →
      Ordinary (Stmt.written body) → Standing s moment → Mirror moment →
        Follows True moment (Watch.loop fuel s condition increment body)
          (loop fuel condition increment body) fun _ _ => True

variable {fuel : Nat}

/-! ## Expressions -/

theorem Expr.ordinary_writtenAfterEach {exprs : List (Expr Unit)} :
    Ordinary (Expr.writtenAfterEach exprs) ↔ Ordinary (Expr.writtenEach exprs) := by
  cases exprs with
  | nil => exact Iff.rfl
  | cons expr rest =>
    rw [Expr.writtenAfterEach_of_ne_nil (List.cons_ne_nil _ _), Ordinary.cons]
    exact and_iff_right trivial

theorem evaluate_following (following : Following fuel) {expr : Expr Unit}
    (ordinary : Ordinary expr.written) (standing : Standing s moment) (mirror : Mirror moment) :
    Follows False moment (Watch.evaluate (fuel + 1) s expr) (evaluate (fuel + 1) expr)
      fun _ _ => True := by
  refine follows_check ?_
  cases expr with
  | literal value => exact follows_pure mirror trivial
  | group inner =>
    simp only [Expr.written, Ordinary.cons, Ordinary.append] at ordinary
    exact following.evaluate ordinary.2.1 standing mirror
  | unary operator line operand =>
    simp only [Expr.written, Ordinary.cons] at ordinary
    refine follows_bind id (following.evaluate ordinary.2 standing mirror) ?_
    intro value next mirror _ _
    exact follows_ofOperands mirror
  | binary operator line left right =>
    simp only [Expr.written, Ordinary.append, Ordinary.cons] at ordinary
    refine follows_bind id (following.evaluate ordinary.1 standing mirror) ?_
    intro a afterLeft mirrorLeft carries _
    have standing := standing.carries mirror carries
    refine follows_bind id (following.evaluate ordinary.2.2 standing mirrorLeft) ?_
    intro b next mirror _ _
    exact follows_ofOperands mirror
  | logical operator line left right =>
    simp only [Expr.written, Ordinary.append, Ordinary.cons] at ordinary
    refine follows_bind id (following.evaluate ordinary.1 standing mirror) ?_
    intro value next mirrorNext carries _
    by_cases decided : operator.isDecidedBy value = true
    · rw [if_pos decided, if_pos decided]
      exact follows_pure mirrorNext trivial
    · rw [if_neg decided, if_neg decided]
      exact following.evaluate ordinary.2.2 (standing.carries mirror carries) mirrorNext
  | comma operands => exact following.evaluateLast ordinary standing mirror
  | conditional line condition thenBranch elseBranch =>
    simp only [Expr.written, Ordinary.append, Ordinary.cons] at ordinary
    obtain ⟨ordinary, _, ordinaryThen, _, ordinaryElse⟩ := ordinary
    refine follows_bind id (following.evaluate ordinary standing mirror) ?_
    intro value next mirrorNext carries _
    have standing := standing.carries mirror carries
    rcases value with _ | (_ | _) | _ | _ | _ | _ | _ | _
    case boolean.true => exact following.evaluate ordinaryThen standing mirrorNext
    case boolean.false => exact following.evaluate ordinaryElse standing mirrorNext
    all_goals exact follows_fail mirrorNext
  | reference name binding => exact follows_occurs fun _ => follows_lookUp standing mirror
  | assign name binding value =>
    simp only [Expr.written, Ordinary.cons] at ordinary
    refine follows_bind id (following.evaluate ordinary.2.2 standing mirror) ?_
    intro value afterValue mirrorValue carries _
    refine follows_occurs fun _ => ?_
    refine follows_bind id (follows_assign (standing.carries mirror carries) mirrorValue) ?_
    intro _ next mirror _ _
    exact follows_pure mirror trivial
  | property object name =>
    simp only [Expr.written, Ordinary.append] at ordinary
    refine follows_bind id (following.evaluate ordinary.1 standing mirror) ?_
    intro value next mirror _ _
    cases value with
    | object id => exact follows_getProperty mirror
    | _ => exact follows_fail mirror
  | call callee line arguments =>
    simp only [Expr.written, Ordinary.append, Ordinary.cons] at ordinary
    obtain ⟨ordinary, _, ordinaryArguments, _⟩ := ordinary
    -- The arguments are evaluated before the callee, which is written before them.
    refine follows_bind id (following.evaluateEach ordinaryArguments standing mirror) ?_
    intro values afterArguments mirrorArguments carries _
    have standing := standing.carries mirror carries
    refine follows_bind id (following.evaluate ordinary standing mirrorArguments) ?_
    intro value next mirror _ _
    exact following.call mirror
  | function lambda =>
    simp only [Expr.written, Ordinary.cons] at ordinary
    refine follows_bind id (follows_closeFunction standing mirror ordinary.2.2) ?_
    intro id next mirror _ _
    exact follows_pure mirror trivial
  | thisInstance line binding => exact follows_occurs fun _ => follows_lookUp standing mirror
  | superMethod line binding method =>
    refine follows_inSubclass fun subclass => follows_occurs fun _ => ?_
    exact follows_superProperty standing mirror subclass

theorem evaluateEach_following (following : Following fuel) {exprs : List (Expr Unit)}
    (ordinary : Ordinary (Expr.writtenEach exprs)) (standing : Standing s moment)
    (mirror : Mirror moment) :
    Follows False moment (Watch.evaluateEach (fuel + 1) s exprs) (evaluateEach (fuel + 1) exprs)
      fun _ _ => True := by
  cases exprs with
  | nil => exact follows_pure mirror trivial
  | cons expr rest =>
    rw [Expr.writtenEach, Ordinary.append, Expr.ordinary_writtenAfterEach] at ordinary
    refine follows_bind id (following.evaluate ordinary.1 standing mirror) ?_
    intro value afterFirst mirrorFirst carries _
    have standing := standing.carries mirror carries
    refine follows_bind id (following.evaluateEach ordinary.2 standing mirrorFirst) ?_
    intro values next mirror _ _
    exact follows_pure mirror trivial

theorem evaluateLast_following (following : Following fuel) {last : Value}
    {exprs : List (Expr Unit)} (ordinary : Ordinary (Expr.writtenEach exprs))
    (standing : Standing s moment) (mirror : Mirror moment) :
    Follows False moment (Watch.evaluateLast (fuel + 1) s last exprs)
      (evaluateLast (fuel + 1) last exprs) fun _ _ => True := by
  cases exprs with
  | nil => exact follows_pure mirror trivial
  | cons expr rest =>
    rw [Expr.writtenEach, Ordinary.append, Expr.ordinary_writtenAfterEach] at ordinary
    refine follows_bind id (following.evaluate ordinary.1 standing mirror) ?_
    intro value next mirrorNext carries _
    exact following.evaluateLast ordinary.2 (standing.carries mirror carries) mirrorNext

theorem evaluatePart_following (following : Following fuel) {before : List Token.Kind}
    {part : Option (Expr Unit)} (ordinary : Ordinary (Expr.writtenPart before part))
    (standing : Standing s moment) (mirror : Mirror moment) :
    Follows False moment (Watch.evaluatePart (fuel + 1) s part) (evaluatePart (fuel + 1) part)
      fun _ _ => True := by
  cases part with
  | none => exact follows_pure mirror trivial
  | some expr =>
    rw [Expr.writtenPart, Ordinary.append] at ordinary
    exact following.evaluate ordinary.2 standing mirror

/-! ## Calls -/

theorem call_following (following : Following fuel) {callee : Value} {arguments : List Value}
    {paren : Token} (mirror : Mirror moment) :
    Follows False moment (Watch.call (fuel + 1) callee arguments paren)
      (call (fuel + 1) callee arguments paren) fun _ _ => True := by
  cases callee with
  | native id => exact follows_callNative mirror
  | function id =>
    refine follows_reads ?_
    obtain ⟨none, also⟩ | ⟨closure, function, origin, known, also, comes, twin⟩ :=
      mirror.function_cases id
    · rw [none, also]
      exact follows_fail mirror
    · rw [known, also]
      have checked : Follows False moment
          (Watch.lift (Step.checkArity closure.lambda.parameters.length arguments.length paren))
          (checkArity function.lambda.parameters.length arguments.length paren) fun _ next =>
            next = moment ∧ closure.lambda.parameters.length = arguments.length := by
        rw [← twin.arity]
        exact follows_checkArity mirror
      refine follows_bind False.elim checked ?_
      rintro _ _ _ _ ⟨rfl, arity⟩
      refine follows_originOf fun other same bound => ?_
      cases same.symm.trans comes
      exact following.callFunction twin bound arity mirror
  | classObject id => exact following.construct mirror
  | _ => exact follows_fail mirror

theorem construct_following (following : Following fuel) {classId : ClassId}
    {arguments : List Value} {paren : Token} (mirror : Mirror moment) :
    Follows False moment (Watch.construct (fuel + 1) classId arguments paren)
      (construct (fuel + 1) classId arguments paren) fun _ _ => True := by
  refine follows_read (mirror.findMethod? initializerName classId) ?_
  cases moment.machine.heap.findMethod? initializerName classId with
  | none =>
    refine follows_bind id (follows_checkArity mirror) ?_
    rintro _ _ _ _ ⟨rfl, _⟩
    refine follows_bind id (follows_addInstance mirror) ?_
    intro object next mirror _ _
    exact follows_pure mirror trivial
  | some initializer =>
    refine follows_read (mirror.arity initializer) ?_
    refine follows_bind id (follows_checkArity mirror) ?_
    rintro _ _ _ _ ⟨rfl, arity⟩
    refine follows_bind id (follows_addInstance mirror) ?_
    intro object afterAdded mirrorAdded _ kept
    refine follows_bind id (follows_bindMethod mirrorAdded) ?_
    rintro bound afterBound mirrorBound _ ⟨function, visible, found, made⟩
    refine follows_reads ?_
    obtain ⟨_, none⟩ | ⟨closure, _, origin, known, also, comes, twin⟩ :=
      mirrorBound.function_cases bound
    · cases none.symm.trans made
    · cases also.symm.trans made
      rw [known, made]
      refine follows_originOf fun other same callable => ?_
      cases same.symm.trans comes
      -- The arguments were counted against the method; what is called is its bound copy.
      rw [← mirror.arity, ← kept, found] at arity
      refine follows_bind id (following.callFunction twin callable (twin.arity.trans arity)
        mirrorBound) ?_
      intro _ next mirror _ _
      exact follows_pure mirror trivial

theorem callFunction_following (following : Following fuel) {closure : Closure}
    {function : Function} {origin : Origin} {arguments : List Value} {paren : Token}
    (twin : Twin moment.machine.heap.environment moment.places closure function origin)
    (bound : origin.bare = false) (arity : closure.lambda.parameters.length = arguments.length)
    (mirror : Mirror moment) :
    Follows False moment (Watch.callClosure (fuel + 1) closure origin arguments paren)
      (callFunction (fuel + 1) function arguments paren) fun _ _ => True := by
  have ran : Follows False moment
      (Watch.inCall closure arguments paren
        (Watch.executeEach fuel (origin.surroundings.enterFunction origin.lambda.parameters)
          origin.lambda.body))
      (inCall function arguments paren (executeEach fuel function.lambda.body))
      fun _ _ => True := by
    refine follows_inCall mirror twin bound arity fun entered mirror standing => ?_
    rw [twin.lambda]
    exact following.executeEach (Lambda.ordinary twin.ordinary).2 standing mirror
  refine follows_bind id ran ?_
  intro flow next mirror carries _
  -- The result may be read out of the closure, so the two have to be twins still.
  exact follows_callResult mirror (twin.grows carries.grows carries.places) bound

/-! ## Statements -/

theorem storeEach_following (following : Following fuel) {value : Value}
    {targets : List (Target Unit)} (ordinary : Ordinary (Target.writtenEach targets))
    (standing : Standing s moment) (mirror : Mirror moment) :
    Follows False moment (Watch.storeEach (fuel + 1) s value targets)
      (storeEach (fuel + 1) value targets) fun _ _ => True := by
  cases targets with
  | nil => exact follows_pure mirror trivial
  | cons target rest =>
    rw [Target.writtenEach, Ordinary.append, Ordinary.cons] at ordinary
    obtain ⟨ordinary, _, ordinaryRest⟩ := ordinary
    cases target with
    | name name binding =>
      refine follows_occurs fun _ => ?_
      refine follows_bind id (follows_assignOrDefine standing mirror) ?_
      intro _ next mirrorNext carries _
      exact following.storeEach ordinaryRest (standing.carries mirror carries) mirrorNext
    | property object name =>
      rw [Target.written, Ordinary.append] at ordinary
      refine follows_bind id (following.evaluate ordinary.1 standing mirror) ?_
      intro receiver afterObject mirrorObject carries _
      have standing := standing.carries mirror carries
      refine follows_bind id (follows_setProperty mirrorObject) ?_
      intro _ next mirrorNext carries _
      exact following.storeEach ordinaryRest (standing.carries mirrorObject carries) mirrorNext

/-- What is declared in a scope of its own is gone after it. -/
theorem follows_inside {watch : Watch α} {step : Lexical α} (standing : Standing s moment)
    (mirror : Mirror moment)
    (body : Follows True (moment.enter moment.machine.frame moment.state.visible) watch step
      fun _ _ => True) :
    Follows True moment (Watch.inScope watch) (inScope step) fun _ next => Standing s next :=
  (follows_inScope body).stands standing mirror

theorem execute_following (following : Following fuel) {stmt : Stmt Unit}
    (ordinary : Ordinary stmt.written) (standing : Standing s moment) (mirror : Mirror moment) :
    Follows True moment (Watch.execute (fuel + 1) s stmt) (execute (fuel + 1) stmt)
      fun _ next => Standing (s.after stmt.declaredName?) next := by
  have inside := standing.enterScope mirror
  have mirrorInside := mirror.enter moment.machine.frame moment.state.visible
  refine follows_check ?_
  cases stmt with
  | expression value =>
    simp only [Stmt.written, Ordinary.append] at ordinary
    refine follows_bind False.elim (following.evaluate ordinary.1 standing mirror) ?_
    intro _ next mirrorNext carries _
    exact follows_pure mirrorNext (standing.carries mirror carries)
  | varDecl name initializer =>
    simp only [Stmt.written, Ordinary.cons, Ordinary.append] at ordinary
    obtain ⟨_, named, ordinary, _⟩ := ordinary
    refine follows_bind False.elim (following.evaluatePart ordinary standing mirror) ?_
    intro value afterValue mirrorValue carries _
    have standing := standing.carries mirror carries
    refine follows_bind id (follows_declare standing mirrorValue (standing.proper.declare named)) ?_
    intro _ next mirrorNext _ declared
    exact follows_pure mirrorNext declared
  | assign targets value =>
    simp only [Stmt.written, Ordinary.append] at ordinary
    obtain ⟨⟨ordinaryTargets, ordinary⟩, _⟩ := ordinary
    refine follows_bind False.elim (following.evaluate ordinary standing mirror) ?_
    intro value afterValue mirrorValue carries _
    have standing := standing.carries mirror carries
    refine follows_bind False.elim (following.storeEach ordinaryTargets standing mirrorValue) ?_
    intro _ next mirrorNext carries _
    exact follows_pure mirrorNext (standing.carries mirrorValue carries)
  | set object name value =>
    simp only [Stmt.written, Ordinary.append, Ordinary.cons] at ordinary
    obtain ⟨ordinary, _, _, _, ordinaryValue, _⟩ := ordinary
    refine follows_bind False.elim (following.evaluate ordinary standing mirror) ?_
    intro receiver afterObject mirrorObject carries _
    have standing := standing.carries mirror carries
    cases receiver with
    | object id =>
      refine follows_bind False.elim (following.evaluate ordinaryValue standing mirrorObject) ?_
      intro value afterValue mirrorValue carries _
      have standing := standing.carries mirrorObject carries
      refine follows_bind False.elim (follows_setProperty mirrorValue) ?_
      intro _ next mirrorNext carries _
      exact follows_pure mirrorNext (standing.carries mirrorValue carries)
    | _ => exact follows_fail mirrorObject
  | block body =>
    simp only [Stmt.written, Ordinary.cons, Ordinary.append] at ordinary
    exact follows_inside standing mirror (following.executeEach ordinary.2.1 inside mirrorInside)
  | branch condition thenBranch elseBranch =>
    simp only [Stmt.written, Ordinary.cons, Ordinary.append] at ordinary
    obtain ⟨_, _, ordinary, _, ordinaryThen, ordinaryElse⟩ := ordinary
    refine follows_inside standing mirror ?_
    refine follows_bind False.elim (following.evaluate ordinary inside mirrorInside) ?_
    intro value next mirrorNext carries _
    have inside := inside.carries mirrorInside carries
    by_cases holds : value.isTruthy = true
    · rw [if_pos holds, if_pos holds]
      refine (following.execute ordinaryThen inside mirrorNext).weaken id ?_
      exact fun _ _ _ => trivial
    · rw [if_neg holds, if_neg holds]
      have others : ∀ stmt ∈ elseBranch, Ordinary stmt.written := by
        rintro stmt ⟨⟩
        exact (Ordinary.append.mp ordinaryElse).2
      refine (following.executePart others inside mirrorNext).weaken id ?_
      exact fun _ _ _ => trivial
  | whileLoop condition body =>
    simp only [Stmt.written, Ordinary.cons, Ordinary.append] at ordinary
    obtain ⟨_, _, ordinary, _, ordinaryBody⟩ := ordinary
    exact follows_inside standing mirror
      (following.loop ordinary Ordinary.nil ordinaryBody inside mirrorInside)
  | forLoop initializer condition increment body =>
    simp only [Stmt.written, Ordinary.cons, Ordinary.append] at ordinary
    obtain ⟨_, _, ordinary, ordinaryCondition, _, ordinaryIncrement, _, ordinaryBody⟩ := ordinary
    have first : ∀ stmt ∈ initializer, Ordinary stmt.written := by
      rintro stmt ⟨⟩
      exact ordinary
    refine follows_inside standing mirror ?_
    refine follows_bind id (following.executePart first inside mirrorInside) ?_
    intro _ next mirrorNext _ inside
    exact following.loop ordinaryCondition ordinaryIncrement ordinaryBody inside mirrorNext
  | breakLoop line => exact follows_pure mirror standing
  | continueLoop line => exact follows_pure mirror standing
  | funDecl name lambda =>
    simp only [Stmt.written, Ordinary.cons] at ordinary
    obtain ⟨_, named, _, ordinary⟩ := ordinary
    refine follows_bind id (follows_declareFunction standing mirror named ordinary) ?_
    intro _ next mirrorNext _ declared
    exact follows_pure mirrorNext declared
  | returnValue line value =>
    simp only [Stmt.written, Ordinary.cons, Ordinary.append] at ordinary
    refine follows_bind False.elim (following.evaluatePart ordinary.2.1 standing mirror) ?_
    intro value next mirrorNext carries _
    exact follows_pure mirrorNext (standing.carries mirror carries)
  | classDecl name superclass methods =>
    simp only [Stmt.written, Ordinary.cons, Ordinary.append] at ordinary
    obtain ⟨_, named, _, _, ordinary, _⟩ := ordinary
    refine follows_bind id (follows_declareClass standing mirror named ordinary) ?_
    intro _ next mirrorNext _ declared
    exact follows_pure mirrorNext declared

theorem executeEach_following (following : Following fuel) {stmts : List (Stmt Unit)}
    (ordinary : Ordinary (Stmt.writtenEach stmts)) (standing : Standing s moment)
    (mirror : Mirror moment) :
    Follows True moment (Watch.executeEach (fuel + 1) s stmts) (executeEach (fuel + 1) stmts)
      fun _ _ => True := by
  cases stmts with
  | nil => exact follows_pure mirror trivial
  | cons stmt rest =>
    rw [Stmt.writtenEach, Ordinary.append] at ordinary
    refine follows_bind id (following.execute ordinary.1 standing mirror) ?_
    intro flow next mirrorNext _ standing
    cases flow with
    -- The surroundings of the rest are those that `stmt` left, with the name it declares in them.
    | normal => exact following.executeEach ordinary.2 standing mirrorNext
    | _ => exact follows_pure mirrorNext trivial

theorem executePart_following (following : Following fuel) {part : Option (Stmt Unit)}
    (ordinary : ∀ stmt ∈ part, Ordinary stmt.written) (standing : Standing s moment)
    (mirror : Mirror moment) :
    Follows True moment (Watch.executePart (fuel + 1) s part) (executePart (fuel + 1) part)
      fun _ next => Standing (s.after (part.bind Stmt.declaredName?)) next := by
  cases part with
  | none => exact follows_pure mirror standing
  | some stmt => exact following.execute (ordinary stmt rfl) standing mirror

/-- What a loop does once its condition is known. -/
theorem round_following (following : Following fuel) {condition increment : Option (Expr Unit)}
    {body : Stmt Unit} (holds : Bool) (ordinaryCondition : Ordinary (Expr.writtenPart [] condition))
    (ordinaryIncrement : Ordinary (Expr.writtenPart [] increment))
    (ordinaryBody : Ordinary body.written) (standing : Standing s moment)
    (mirror : Mirror moment) :
    Follows True moment
      (if holds then do
        match ← Watch.execute fuel s.enterLoop body with
        | .breaks _ => pure .normal
        | .returns line value => pure (.returns line value)
        | _ =>
          let next := s.after body.declaredName?
          let _ ← Watch.evaluatePart fuel next increment
          Watch.loop fuel next condition increment body
      else pure .normal)
      (if holds then do
        match ← execute fuel body with
        | .breaks _ => pure .normal
        | .returns line value => pure (.returns line value)
        | _ =>
          let _ ← evaluatePart fuel increment
          loop fuel condition increment body
      else pure .normal)
      fun _ _ => True := by
  cases holds with
  | false => exact follows_pure mirror trivial
  | true =>
    have within : Standing s.enterLoop moment := { standing with }
    refine follows_bind id (following.execute ordinaryBody within mirror) ?_
    intro flow afterBody mirrorBody _ left
    have next : Standing (s.after body.declaredName?) afterBody := by
      cases declared : body.declaredName? <;> rw [declared] at left <;> exact { left with }
    have again : Follows True afterBody
        (Watch.evaluatePart fuel (s.after body.declaredName?) increment >>= fun _ =>
          Watch.loop fuel (s.after body.declaredName?) condition increment body)
        (evaluatePart fuel increment >>= fun _ => loop fuel condition increment body)
        fun _ _ => True := by
      refine follows_bind False.elim (following.evaluatePart ordinaryIncrement next mirrorBody) ?_
      intro _ later mirrorLater carries _
      exact following.loop ordinaryCondition ordinaryIncrement ordinaryBody
        (next.carries mirrorBody carries) mirrorLater
    cases flow with
    | breaks _ => exact follows_pure mirrorBody trivial
    | returns line value => exact follows_pure mirrorBody trivial
    | normal => exact again
    | continues _ => exact again

theorem loop_following (following : Following fuel) {condition increment : Option (Expr Unit)}
    {body : Stmt Unit} (ordinaryCondition : Ordinary (Expr.writtenPart [] condition))
    (ordinaryIncrement : Ordinary (Expr.writtenPart [] increment))
    (ordinaryBody : Ordinary body.written) (standing : Standing s moment)
    (mirror : Mirror moment) :
    Follows True moment (Watch.loop (fuel + 1) s condition increment body)
      (loop (fuel + 1) condition increment body) fun _ _ => True := by
  cases condition with
  | none =>
    exact round_following following true ordinaryCondition ordinaryIncrement ordinaryBody standing
      mirror
  | some expr =>
    refine follows_bind False.elim (following.evaluate ordinaryCondition standing mirror) ?_
    intro value next mirrorNext carries _
    exact round_following following value.isTruthy ordinaryCondition ordinaryIncrement ordinaryBody
      (standing.carries mirror carries) mirrorNext

/-! ## Every amount of fuel -/

theorem following (fuel : Nat) : Following fuel := by
  induction fuel with
  | zero => constructor <;> intros <;> exact follows_outOfFuel
  | succ fuel ih =>
    exact
      { evaluate := evaluate_following ih
        evaluateEach := evaluateEach_following ih
        evaluateLast := evaluateLast_following ih
        evaluatePart := evaluatePart_following ih
        call := call_following ih
        construct := construct_following ih
        callFunction := callFunction_following ih
        storeEach := storeEach_following ih
        execute := execute_following ih
        executeEach := executeEach_following ih
        executePart := executePart_following ih
        loop := loop_following ih }

end Lexical

end Lox
