import Lox.Proofs.Jobs.Visits

/-!
# Arguments and parameters

Arguments are counted once, before a call goes into the value that it calls, and behind that no one counts
them again: parameters are bound to arguments for as long as there are both, and a native routine takes
what it finds. So the count has to be right wherever a body or a routine is entered. For a class it was
made against its initializer, which is looked up by name; and a call that is refused has changed nothing.
-/

namespace Lox

/-! ## Parameters that are bound -/

/-- The innermost scope is that of a call: each parameter holds its argument, the last one if a name is
there more than once, and nothing else is bound. -/
structure Machine.Receives (machine : Machine) (parameters : List Name) (arguments : List Value) :
    Prop where
  count : arguments.length = parameters.length
  bound : ∀ (index : Nat) (parameter : Name), parameters[index]? = some parameter →
    (∀ (later : Nat) (other : Name), index < later → parameters[later]? = some other →
      other.text ≠ parameter.text) →
        ∃ argument, arguments[index]? = some argument ∧
          machine.heap.environment.getAt? machine.frame 0 parameter.text = some argument
  others : ∀ name : String, (∀ parameter ∈ parameters, parameter.text ≠ name) →
    machine.heap.environment.getAt? machine.frame 0 name = none

namespace Step

variable {heap : Heap} {frame : FrameId} {parameters : List Name} {arguments : List Value}

/-- A name that no parameter has is bound to what it was bound to before. -/
theorem slot?_bindParameters_of_absent {name : String} (made : frame < heap.environment.size)
    (absent : ∀ parameter ∈ parameters, parameter.text ≠ name) :
    (bindParameters heap frame parameters arguments).environment.slot? frame name =
      heap.environment.slot? frame name := by
  induction parameters generalizing heap arguments with
  | nil => rfl
  | cons parameter rest ih =>
    cases arguments with
    | nil => rfl
    | cons argument others =>
      have opened : frame < (heap.define frame parameter.text argument).environment.size := by
        rw [Heap.define, Environment.size_define]
        exact made
      refine (ih opened fun other member => absent other (.tail _ member)).trans ?_
      rw [Heap.define, Environment.slot?_define _ _ _ _ made,
        if_neg fun same => absent parameter (.head _) same.2]

theorem slot?_bindParameters {index : Nat} {parameter : Name} {argument : Value}
    (made : frame < heap.environment.size) (declared : parameters[index]? = some parameter)
    (given : arguments[index]? = some argument)
    (last : ∀ (later : Nat) (other : Name), index < later → parameters[later]? = some other →
      other.text ≠ parameter.text) :
    (bindParameters heap frame parameters arguments).environment.slot? frame parameter.text =
      some argument := by
  induction parameters generalizing heap arguments index with
  | nil => cases declared
  | cons first rest ih =>
    cases arguments with
    | nil => cases given
    | cons value others =>
      have opened : frame < (heap.define frame first.text value).environment.size := by
        rw [Heap.define, Environment.size_define]
        exact made
      cases index with
      | zero =>
        cases declared
        cases given
        -- None of the parameters behind this one has its name.
        have absent : ∀ other ∈ rest, other.text ≠ parameter.text := by
          intro other member
          obtain ⟨later, found⟩ := List.mem_iff_getElem?.mp member
          exact last (later + 1) other (Nat.succ_pos later) found
        refine (slot?_bindParameters_of_absent opened absent).trans ?_
        rw [Heap.define, Environment.slot?_define _ _ _ _ made, if_pos ⟨rfl, rfl⟩]
      | succ index =>
        exact ih opened declared given fun later other behind found =>
          last (later + 1) other (Nat.succ_lt_succ behind) found

end Step

/-- The body of a function that is called with as many arguments as it has parameters. -/
theorem Machine.receives_enterCall (machine : Machine) {closure : Closure} {arguments : List Value}
    (count : arguments.length = closure.lambda.parameters.length) :
    (machine.enterCall closure arguments).Receives closure.lambda.parameters arguments := by
  let opened := (machine.heap.addFrame closure.frame).2
  have made : machine.heap.environment.size < opened.environment.size := by
    change _ < (machine.heap.environment.child closure.frame).size
    rw [Environment.size_child]
    exact Nat.lt_succ_self _
  have empty : ∀ name, opened.environment.slot? machine.heap.environment.size name = none := by
    intro name
    change (machine.heap.environment.child closure.frame).slot? _ name = none
    rw [Environment.slot?_child]
    simp [Environment.slot?, Environment.size]
  refine ⟨count, fun index parameter declared last => ?_, fun name absent => ?_⟩
  · have within : index < arguments.length := by
      rw [count]
      exact (List.getElem?_eq_some_iff.mp declared).1
    have given := List.getElem?_eq_getElem within
    exact ⟨_, given, Step.slot?_bindParameters made declared given last⟩
  · exact (Step.slot?_bindParameters_of_absent made absent).trans (empty name)

/-! ## How many arguments a value takes -/

/-- How many arguments a value takes; none if it cannot be called. -/
def Heap.arity? (heap : Heap) : Value → Option Nat
  | .native id => (heap.natives[id]?).map (·.arity)
  | .function id => (heap.functions[id]?).map (·.lambda.parameters.length)
  | .classObject id =>
    some (match heap.findMethod? initializerName id with
      | none => 0
      | some initializer =>
        ((heap.functions[initializer]?).map (·.lambda.parameters.length)).getD 0)
  | _ => none

namespace Step

variable {fuel line expected : Nat} {callee : Expr Binding} {target : Value}
  {arguments : List (Expr Binding)} {values : List Value} {paren : Token}
  {machine middle after : Machine}

theorem checkArity_of_ne {given : Nat} (mismatch : expected ≠ given) (paren : Token)
    (machine : Machine) :
    checkArity expected given paren machine =
      .failed ⟨.wrongArgumentCount expected given, paren⟩ machine := by
  rw [checkArity, if_neg mismatch]
  rfl

theorem of_changeHeap {α : Type} {f : Heap → α × Heap} {result : α}
    (ran : changeHeap f machine = .finished result after) : f machine.heap = (result, after.heap) := by
  cases ran
  rfl

theorem readHeap_bind {α β : Type} (f : Heap → α) (continuation : α → Step β) (machine : Machine) :
    (readHeap f >>= continuation) machine = continuation (f machine.heap) machine := rfl

/-- A call with another number of arguments than the value takes fails where the machine stands. -/
theorem call_of_ne (callable : machine.heap.arity? target = some expected)
    (mismatch : expected ≠ values.length) :
    call (fuel + 2) target values paren machine =
      .failed ⟨.wrongArgumentCount expected values.length, paren⟩ machine := by
  have refused := checkArity_of_ne mismatch paren machine
  cases target with
  | native id =>
    obtain ⟨native, known, rfl⟩ := Option.map_eq_some_iff.mp callable
    rw [call, callNative, readHeap_bind, known]
    exact bind_of_failed refused
  | function id =>
    obtain ⟨closure, known, rfl⟩ := Option.map_eq_some_iff.mp callable
    rw [call, readHeap_bind, known]
    exact bind_of_failed refused
  | classObject id =>
    rw [call, construct, readHeap_bind]
    obtain rfl := Option.some.inj callable
    cases found : machine.heap.findMethod? initializerName id with
    | none =>
      rw [found] at refused
      exact bind_of_failed refused
    | some initializer =>
      rw [found] at refused
      exact (readHeap_bind _ _ machine).trans (bind_of_failed refused)
  | _ => cases callable

theorem evaluate_call_of_ne {callee : Expr Binding} {arguments : List (Expr Binding)}
    (given : evaluateEach (fuel + 2) arguments machine = .finished values middle)
    (called : evaluate (fuel + 2) callee middle = .finished target after)
    (callable : after.heap.arity? target = some expected) (mismatch : expected ≠ values.length)
    (line : Nat) :
    evaluate (fuel + 3) (.call callee line arguments) machine =
      .failed ⟨.wrongArgumentCount expected values.length, Symbol.rightParen.token line⟩ after := by
  change (evaluateEach (fuel + 2) arguments >>= _) machine = _
  rw [bind_of_finished given, bind_of_finished called]
  exact call_of_ne callable mismatch

end Step

/-! ## Going into a callee -/

namespace Heap

variable {heap later : Heap}

theorem classes_bindMethod (heap : Heap) (method : FunctionId) (receiver : InstanceId) :
    (heap.bindMethod method receiver).2.classes = heap.classes := by
  unfold bindMethod
  split <;> rfl

/-- A method that is bound is the method, in a scope of its own. -/
theorem functions_bindMethod {method bound : FunctionId} {receiver : InstanceId} {closure : Closure}
    (binds : heap.bindMethod method receiver = (bound, later))
    (found : later.functions[bound]? = some closure) :
    ∃ declared, heap.functions[method]? = some declared ∧
      closure = { declared with frame := heap.environment.size } := by
  unfold bindMethod at binds
  split at binds
  · next missing =>
    cases binds
    rw [missing] at found
    cases found
  · next declared known =>
    cases binds
    refine ⟨declared, known, ?_⟩
    change (heap.functions.push _)[heap.functions.size]? = some closure at found
    rw [Array.getElem?_push, if_pos rfl] at found
    exact (Option.some.inj found).symm

end Heap

namespace Script

variable {fuel : Nat} {arguments : List Value} {paren : Token} {machine moment : Machine} {part : Job}

/-- A call goes into a body or a routine only with as many arguments as that takes. -/
theorem entry_of_call {callee : Value}
    (starts : (call fuel callee arguments paren).Starts machine part moment) :
    (∃ below closure, part = .callClosure below closure arguments paren ∧
      closure.lambda.parameters.length = arguments.length) ∨
    (∃ native, part = .perform native arguments paren ∧ native.arity = arguments.length) ∨
      ∃ below classId, part = .construct below classId arguments paren := by
  cases fuel with
  | zero => exact starts.elim
  | succ fuel =>
    cases callee with
    | native id =>
      have further := starts_readHeap_bind.mp starts
      split at further
      · exact further.elim
      · next native _ =>
        obtain ⟨same, rfl, _⟩ := starts_checkArity_bind.mp further
        exact .inr (.inl ⟨native, rfl, same⟩)
    | function id =>
      have further := starts_readHeap_bind.mp starts
      split at further
      · exact further.elim
      · next closure _ =>
        obtain ⟨same, rfl, _⟩ := starts_checkArity_bind.mp further
        exact .inl ⟨fuel, closure, rfl, same⟩
    | classObject id => exact .inr (.inr ⟨fuel, id, starts.1⟩)
    | _ => exact starts.elim

/-- A class goes into the initializer that its count of arguments comes from, bound to the new instance:
the initializer is still the one that is found once the instance is there. -/
theorem entry_of_construct {classId : ClassId}
    (starts : (construct fuel classId arguments paren).Starts machine part moment) :
    ∃ below closure initializer declared, part = .callClosure below closure arguments paren ∧
      machine.heap.findMethod? initializerName classId = some initializer ∧
      moment.heap.findMethod? initializerName classId = some initializer ∧
      machine.heap.functions[initializer]? = some declared ∧
      declared.lambda.parameters.length = arguments.length ∧
      closure = { declared with frame := machine.heap.environment.size } := by
  cases fuel with
  | zero => exact starts.elim
  | succ fuel =>
    have chosen := starts_readHeap_bind.mp starts
    split at chosen
    · obtain ⟨_, further⟩ := starts_checkArity_bind.mp chosen
      obtain ⟨_, _, _, ends⟩ := starts_step_bind.mp further
      exact ends.elim
    · next initializer found =>
      obtain ⟨counted, made⟩ := starts_checkArity_bind.mp (starts_readHeap_bind.mp chosen)
      obtain ⟨id, between, ran, further⟩ := starts_step_bind.mp made
      cases ran
      obtain ⟨bound, after, ran, last⟩ := starts_step_bind.mp further
      have binds := Step.of_changeHeap ran
      have ends := starts_readHeap_bind.mp last
      split at ends
      · exact ends.elim
      · next closure known =>
        obtain ⟨rfl, rfl⟩ | ⟨_, _, _, none⟩ := ends
        · obtain ⟨declared, declares, same⟩ := Heap.functions_bindMethod binds known
          -- Making the instance has changed no function and no class, nor has binding to it.
          have declaredBefore : machine.heap.functions[initializer]? = some declared := declares
          have classes : moment.heap.classes = machine.heap.classes := by
            have same := congrArg (fun bound => bound.2.classes) binds
            exact same.symm.trans (Heap.classes_bindMethod _ _ _)
          rw [declaredBefore] at counted
          refine ⟨fuel, closure, initializer, declared, rfl, found, ?_, declaredBefore, counted, same⟩
          rw [← found]
          exact Heap.findMethod?_of_classes classes _ _
        · exact none.elim

end Script

/-! ## Runs -/

/-- Arguments match parameters wherever the run of a job comes to. -/
structure Job.Matches (root : Job) (machine : Machine) : Prop where
  /-- Where the body of a function starts, each parameter holds its argument. -/
  bodies : ∀ {fuel : Nat} {closure : Closure} {arguments : List Value} {paren : Token}
    {moment inside : Machine} {part : Job},
    root.Visits machine (.callClosure fuel closure arguments paren) moment →
      (Job.callClosure fuel closure arguments paren).script.Starts moment part inside →
        (∃ below, part = .executeEach below closure.lambda.body) ∧
          inside.Receives closure.lambda.parameters arguments
  /-- A native routine finds every argument that it takes, and no more. -/
  routines : ∀ {native : Native} {arguments : List Value} {paren : Token} {moment : Machine},
    root.Visits machine (.perform native arguments paren) moment →
      arguments.length = native.arity ∧
        ∀ index, index < native.arity → ∃ argument, arguments[index]? = some argument
  /-- A class hands its arguments on to the initializer that they were counted for, be it its own one
  or that of a superclass. -/
  initializers : ∀ {fuel : Nat} {classId : ClassId} {arguments : List Value} {paren : Token}
    {moment inside : Machine} {part : Job},
    root.Visits machine (.construct fuel classId arguments paren) moment →
      (Job.construct fuel classId arguments paren).script.Starts moment part inside →
        ∃ below closure initializer declared, part = .callClosure below closure arguments paren ∧
          moment.heap.Provides initializerName classId initializer ∧
          moment.heap.findMethod? initializerName classId = some initializer ∧
          inside.heap.findMethod? initializerName classId = some initializer ∧
          moment.heap.functions[initializer]? = some declared ∧
          moment.heap.arity? (.classObject classId) = some arguments.length ∧
          declared.lambda.parameters.length = arguments.length ∧
          closure = { declared with frame := moment.heap.environment.size }
  /-- With another number of arguments than the value takes, a call ends the run at the parenthesis, and
  the machine is left as its operands left it. -/
  refusals : ∀ {fuel line expected : Nat} {callee : Expr Binding} {arguments : List (Expr Binding)}
    {target : Value} {values : List Value} {moment middle after : Machine},
    root.Visits machine (.evaluate (fuel + 3) (.call callee line arguments)) moment →
      Step.evaluateEach (fuel + 2) arguments moment = .finished values middle →
      Step.evaluate (fuel + 2) callee middle = .finished target after →
      after.heap.arity? target = some expected → expected ≠ values.length →
        let error : RuntimeError :=
          ⟨.wrongArgumentCount expected values.length, Symbol.rightParen.token line⟩
        Step.evaluate (fuel + 3) (.call callee line arguments) moment = .failed error after ∧
          ∃ last, root.run machine = .failed error last

namespace Job

variable {root : Job} {machine moment : Machine} {arguments : List Value} {paren : Token}

/-- Past the count of the arguments, a job that goes into a callee was started by a call or by a class. -/
theorem Visits.caller {part : Job} (visits : root.Visits machine part moment) (isRoot : root.IsRoot)
    (entry : part.kind = .callee) : ∃ holder between, root.Visits machine holder between ∧
      holder.script.Starts between part moment ∧
      ((∃ fuel callee arguments paren, holder = call fuel callee arguments paren) ∨
        ∃ fuel classId arguments paren, holder = construct fuel classId arguments paren) := by
  cases visits with
  | here => cases root <;> first | exact isRoot.elim | cases entry
  | further before starts => exact ⟨_, _, before, starts, caller_of_starts entry starts⟩

theorem Visits.count_callClosure {fuel : Nat} {closure : Closure}
    (visits : root.Visits machine (.callClosure fuel closure arguments paren) moment)
    (isRoot : root.IsRoot) : arguments.length = closure.lambda.parameters.length := by
  obtain ⟨_, between, _, starts, ⟨_, _, _, _, rfl⟩ | ⟨_, _, _, _, rfl⟩⟩ :=
    visits.caller isRoot rfl
  · obtain ⟨_, _, same, count⟩ | ⟨_, same, _⟩ | ⟨_, _, same⟩ := Script.entry_of_call starts
    · cases same
      exact count.symm
    · cases same
    · cases same
  · obtain ⟨_, _, _, _, same, _, _, _, count, closed⟩ := Script.entry_of_construct starts
    cases same
    rw [closed]
    exact count.symm

theorem Visits.count_perform {native : Native}
    (visits : root.Visits machine (.perform native arguments paren) moment)
    (isRoot : root.IsRoot) : arguments.length = native.arity := by
  obtain ⟨_, between, _, starts, ⟨_, _, _, _, rfl⟩ | ⟨_, _, _, _, rfl⟩⟩ :=
    visits.caller isRoot rfl
  · obtain ⟨_, _, same, _⟩ | ⟨_, same, count⟩ | ⟨_, _, same⟩ := Script.entry_of_call starts
    · cases same
    · cases same
      exact count.symm
    · cases same
  · obtain ⟨_, _, _, _, same, _⟩ := Script.entry_of_construct starts
    cases same

/-- In the run of a program, or of a statement, arguments match parameters at every call. -/
theorem IsRoot.arguments_match (isRoot : root.IsRoot) (machine : Machine) : root.Matches machine where
  bodies := by
    intro fuel closure arguments paren moment inside part visits starts
    have count := visits.count_callClosure isRoot
    cases fuel with
    | zero => exact starts.elim
    | succ fuel =>
      obtain ⟨_, rfl, rfl⟩ | ⟨_, _, _, none⟩ := starts
      · exact ⟨⟨fuel, rfl⟩, moment.receives_enterCall count⟩
      · exact none.elim
  routines := by
    intro native arguments paren moment visits
    have count := visits.count_perform isRoot
    exact ⟨count, fun index below => ⟨_, List.getElem?_eq_getElem (count ▸ below)⟩⟩
  initializers := by
    intro fuel classId arguments paren moment inside part visits starts
    obtain ⟨below, closure, initializer, declared, same, found, later, known, count, closed⟩ :=
      Script.entry_of_construct starts
    refine ⟨below, closure, initializer, declared, same, Heap.provides_of_findMethod? found, found,
      later, known, ?_, count, closed⟩
    simp only [Heap.arity?, found, known, Option.map_some, Option.getD_some, count]
  refusals := by
    intro fuel line expected callee arguments target values moment middle after visits given called
      callable mismatch
    have refused := Step.evaluate_call_of_ne given called callable mismatch line
    exact ⟨refused, visits.failed refused⟩

/-- `(fun (a, a) {})(nil, true)` comes to its body, and there `a` is true. -/
theorem arguments_match_twice :
    let a : Name := ⟨"a", 1⟩
    let callee : Expr Binding := .group (.function ⟨[a, a], []⟩)
    let stmt : Stmt Binding := .expression (.call callee 1 [.literal .nil, .literal (.boolean true)])
    let closure : Closure := ⟨none, ⟨[a, a], []⟩, Heap.globals, false⟩
    let entry := callClosure 6 closure [.nil, .boolean true] (Symbol.rightParen.token 1)
    let machine := Machine.initial .unlimited fun _ => .zero
    ∃ moment inside, (runTopLevel 9 [stmt]).Visits machine entry moment ∧
      entry.script.Starts moment (executeEach 5 []) inside ∧
      inside.heap.environment.getAt? inside.frame 0 "a" = some (.boolean true) := by
  intro a callee stmt closure entry machine
  let values := [Value.nil, .boolean true]
  let moment : Machine := { machine with heap := (machine.heap.addFunction closure).2 }
  let inside := moment.enterCall closure values
  have toStatement : (runTopLevel 9 [stmt]).script.Starts machine (execute 9 stmt) machine :=
    .inl ⟨rfl, rfl⟩
  have toExpression : (execute 9 stmt).script.Starts machine
      (evaluate 8 (.call callee 1 [.literal .nil, .literal (.boolean true)])) machine := .inl ⟨rfl, rfl⟩
  have toCall : (evaluate 8 (.call callee 1 [.literal .nil, .literal (.boolean true)])).script.Starts
      machine (call 7 (.function 0) values (Symbol.rightParen.token 1)) moment :=
    .inr ⟨values, machine, rfl, .inr ⟨.function 0, moment, rfl, rfl, rfl⟩⟩
  have toEntry : (call 7 (.function 0) values (Symbol.rightParen.token 1)).script.Starts moment entry
      moment := .inr ⟨some closure, moment, rfl, .inr ⟨(), moment, rfl, rfl, rfl⟩⟩
  have toBody : entry.script.Starts moment (executeEach 5 []) inside :=
    .inl ⟨by decide, rfl, rfl⟩
  have visits := (((Visits.here.further toStatement).further toExpression).further toCall).further toEntry
  have isRoot : (runTopLevel 9 [stmt]).IsRoot := trivial
  -- The second parameter of that name holds the second argument.
  have received := ((isRoot.arguments_match machine).bodies visits toBody).2
  obtain ⟨argument, given, held⟩ := received.bound 1 a rfl fun later other behind declared => by
    obtain ⟨within, _⟩ := List.getElem?_eq_some_iff.mp declared
    exact absurd within (Nat.not_lt.mpr behind)
  cases given
  exact ⟨moment, inside, visits, toBody, held⟩

end Job

end Lox
