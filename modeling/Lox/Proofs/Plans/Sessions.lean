import Lox.Proofs.Plans.Evaluation

/-!
# The dynamic context in sessions

Whatever a session does, resolved or not, and however it ends, the machine is afterwards in the
frame of the globals and in no call. On the way the depth counts the calls in progress, of which
there are never more than the most there may be, and whatever is evaluated at any moment leaves the
innermost scope, the depth and all that was made before as it found them.
-/

namespace Lox

namespace Step

variable {fuel : Nat} {machine : Machine}

theorem evaluate_keeps (expr : Expr Binding) : (evaluate fuel expr machine).Keeps machine := by
  rw [← Plan.evaluate_run]
  exact Plan.run_keeps _ machine

theorem execute_keeps (stmt : Stmt Binding) : (execute fuel stmt machine).Keeps machine := by
  rw [← Plan.execute_run]
  exact Plan.run_keeps _ machine

theorem call_keeps (callee : Value) (arguments : List Value) (paren : Token) :
    (call fuel callee arguments paren machine).Keeps machine := by
  rw [← Plan.call_run]
  exact Plan.run_keeps _ machine

theorem runTopLevel_keeps (stmts : List (Stmt Binding)) :
    (runTopLevel fuel stmts machine).Keeps machine := by
  rw [← Plan.runTopLevel_run]
  exact Plan.run_keeps _ machine

/-- Once a body has ended, its call cannot fail for want of room. -/
theorem callResult_ne_stackOverflow {closure : Closure} {flow : Flow} {paren : Token}
    {after : Machine} : callResult closure flow machine ≠ .failed ⟨.stackOverflow, paren⟩ after := by
  unfold callResult
  split
  · nofun
  · cases flow <;> nofun

/-- A call is refused, before anything is done about it, if and only if the most calls there may be
are in progress. -/
theorem callClosure_refused_iff (closure : Closure) (arguments : List Value) (paren : Token)
    (below : machine.depth ≤ maximumDepth) :
    callClosure (fuel + 1) closure arguments paren machine =
        .failed ⟨.stackOverflow, paren⟩ machine ↔
      machine.depth = maximumDepth := by
  have refused := Plan.inCall_refused_iff closure arguments paren
    (Plan.executeEach fuel closure.lambda.body) below
  rw [← refused, ← Plan.callClosure_run]
  change Step.bind (Plan.inCall _ _ _ _).run _ machine = _ ↔ _
  unfold Step.bind
  cases (Plan.inCall closure arguments paren (Plan.executeEach fuel closure.lambda.body)).run
      machine with
  | finished flow after =>
    -- A body that ended was not refused, and what its end gives is no refusal either.
    refine iff_of_false ?_ nofun
    dsimp only
    rw [Plan.callResult_run]
    exact callResult_ne_stackOverflow
  | failed error after =>
    constructor <;>
      · intro same
        cases same
        rfl
  | outOfFuel => exact iff_of_false nofun nofun

end Step

/-- What holds at a moment in so many calls, whatever comes next. -/
structure Machine.InCalls (moment : Machine) (calls : Nat) : Prop where
  depth : moment.depth = calls
  bounded : calls ≤ Step.maximumDepth
  evaluate : ∀ fuel expr, (Step.evaluate fuel expr moment).Keeps moment
  execute : ∀ fuel stmt, (Step.execute fuel stmt moment).Keeps moment
  call : ∀ fuel callee arguments paren,
    (Step.call fuel callee arguments paren moment).Keeps moment
  refused : ∀ fuel closure arguments paren,
    Step.callClosure (fuel + 1) closure arguments paren moment =
      .failed ⟨.stackOverflow, paren⟩ moment ↔ calls = Step.maximumDepth

theorem Machine.inCalls {moment : Machine} (below : moment.depth ≤ Step.maximumDepth) :
    moment.InCalls moment.depth :=
  { depth := rfl
    bounded := below
    evaluate := fun _ expr => Step.evaluate_keeps expr
    execute := fun _ stmt => Step.execute_keeps stmt
    call := fun _ callee arguments paren => Step.call_keeps callee arguments paren
    refused := fun _ closure arguments paren =>
      Step.callClosure_refused_iff closure arguments paren below }

/-! ## Sessions -/

namespace Session

/-- The machines that sessions come to: with any routines installed, after any statements were run
as a program or stepped through, their names resolved or not, and however that ended. -/
inductive Reachable : Machine → Prop where
  | initial (output : Output) (clock : Nat → Number) : Reachable (.initial output clock)
  | install {machine : Machine} (native : Native) :
      Reachable machine → Reachable (machine.install native)
  | program {machine after : Machine} {fuel : Nat} {stmts : List (Stmt Binding)}
      {diagnostics : List Diagnostic} :
      Reachable machine → machine.interpret fuel stmts = some (after, diagnostics) →
        Reachable after
  | statements {machine after : Machine} {fuel : Nat} {stmts : List (Stmt Binding)}
      {values : List StatementResult} {diagnostics : List Diagnostic} :
      Reachable machine → results fuel machine stmts = some (values, diagnostics, after) →
        Reachable after

variable {machine after : Machine} {fuel : Nat} {stmts : List (Stmt Binding)}
  {diagnostics : List Diagnostic}

theorem result_keeps (stmt : Stmt Binding) : (result fuel stmt machine).Keeps machine := by
  rw [← Plan.result_run]
  exact Plan.run_keeps _ machine

theorem interpret_keeps (ends : machine.interpret fuel stmts = some (after, diagnostics)) :
    machine.Keeps after :=
  (Step.runTopLevel_keeps stmts).of_machine? (Machine.machine?_of_interpret ends)

theorem results_keeps {values : List StatementResult}
    (ends : results fuel machine stmts = some (values, diagnostics, after)) :
    machine.Keeps after := by
  refine results_induction (.refl machine) (fun stmt _ before later keeps left => ?_) ends
  exact keeps.trans ((result_keeps stmt).of_machine? left)

namespace Reachable

/-- Whatever text a session is given, the machine afterwards is a reachable one. -/
theorem answer {mode : Mode} {source : String} {answer : Answer} (reachable : Reachable machine)
    (answered : Session.answer fuel mode source machine = some answer) :
    Reachable answer.machine := by
  simp only [Session.answer] at answered
  split at answered
  · cases answered
    exact reachable
  · split at answered
    · obtain ⟨⟨values, diagnostics, after⟩, ends, same⟩ := Option.map_eq_some_iff.mp answered
      cases same
      exact reachable.statements ends
    · obtain ⟨⟨after, diagnostics⟩, ends, same⟩ := Option.map_eq_some_iff.mp answered
      cases same
      exact reachable.program ends

theorem atRest (reachable : Reachable machine) :
    machine.frame = Heap.globals ∧ machine.depth = 0 := by
  induction reachable with
  | initial output clock => exact ⟨rfl, rfl⟩
  | install native _ ih => exact ih
  | program _ ends ih =>
    have keeps := interpret_keeps ends
    exact ⟨keeps.frame.trans ih.1, keeps.depth.trans ih.2⟩
  | statements _ ends ih =>
    have keeps := results_keeps ends
    exact ⟨keeps.frame.trans ih.1, keeps.depth.trans ih.2⟩

/-- A session always starts its next step in the frame of the globals and in no call. At every
moment of the step, which runs as its plan says, the depth counts the calls in progress, and
whatever is evaluated then keeps the context. -/
theorem context (reachable : Reachable machine) (fuel : Nat) :
    (machine.frame = Heap.globals ∧ machine.depth = 0) ∧
    (∀ stmts, (Plan.runTopLevel fuel stmts).run = Step.runTopLevel fuel stmts ∧
      ∀ {β : Type} (part : Plan β) moment calls,
        (Plan.runTopLevel fuel stmts).Visits machine part moment calls → moment.InCalls calls) ∧
    (∀ stmt, (Plan.result fuel stmt).run = Session.result fuel stmt ∧
      ∀ {β : Type} (part : Plan β) moment calls,
        (Plan.result fuel stmt).Visits machine part moment calls → moment.InCalls calls) := by
  have inCalls : ∀ {α β : Type} (plan : Plan α) (part : Plan β) moment calls,
      plan.Visits machine part moment calls → moment.InCalls calls := by
    intro α β plan part moment calls visits
    -- The depth was zero at first, so it counts the calls that the run has come into since.
    have counted := visits.depth
    rw [reachable.atRest.2, Nat.zero_add] at counted
    rw [← counted]
    exact Machine.inCalls (visits.depth_le (by rw [reachable.atRest.2]; exact Nat.zero_le _))
  exact ⟨reachable.atRest, fun stmts => ⟨Plan.runTopLevel_run fuel stmts, inCalls _⟩,
    fun stmt => ⟨Plan.result_run fuel stmt, inCalls _⟩⟩

/-- `fun f() { { nil(); } } f();` fails in a block in a call. The next program starts outside of
both. -/
theorem context_failed :
    let f : Name := ⟨"f", 1⟩
    let body : Stmt Binding := .block [.expression (.call (.literal .nil) 1 [])]
    let stmts : List (Stmt Binding) :=
      [.funDecl f ⟨[], [body]⟩, .expression (.call (.reference f .global) 1 [])]
    ∃ after diagnostics, (Machine.initial .unlimited fun _ => .zero).interpret 20 stmts =
        some (after, diagnostics) ∧ diagnostics.any Diagnostic.isRuntime = true ∧
      after.heap.environment.size = 3 ∧ after.frame = Heap.globals ∧ after.depth = 0 := by
  intro f body stmts
  have ended : ((Machine.initial .unlimited fun _ => .zero).interpret 20 stmts).map
      (fun ending => (ending.2.any Diagnostic.isRuntime, ending.1.heap.environment.size)) =
        some (true, 3) := by
    decide +kernel
  obtain ⟨⟨after, diagnostics⟩, ends, same⟩ := Option.map_eq_some_iff.mp ended
  obtain ⟨failed, made⟩ := Prod.mk.inj same
  have reachable : Reachable after := .program (.initial _ _) ends
  exact ⟨after, diagnostics, ends, failed, made, (context reachable 0).1⟩

end Reachable

end Session

end Lox
