import Lox.Proofs.Plans.Keeping

/-!
# Plans

A plan is a step written down: how it is put together from tame steps, new functions, scopes and
calls. Running a plan is a step of the machine. With the plan at hand one can also say what a run
comes to on the way, whether it ever ends or not: which part of the plan it comes to, on which
machine, and inside how many calls.
-/

namespace Lox

inductive Plan : Type → Type 1 where
  | pure {α : Type} (result : α) : Plan α
  | outOfFuel {α : Type} : Plan α
  | fail {α : Type} (problem : RuntimeProblem) (token : Token) : Plan α
  | basic {α : Type} (step : Step α) (tame : step.Tame) : Plan α
  /-- Reads a function. -/
  | function? (id : FunctionId) : Plan (Option Closure)
  /-- Makes a function, closed over the innermost scope. -/
  | close (name : Option String) (lambda : Lambda Binding) (isInitializer : Bool) : Plan FunctionId
  | bind {α β : Type} (first : Plan α) (rest : α → Plan β) : Plan β
  | inScope {α : Type} (inner : Plan α) : Plan α
  | inCall (closure : Closure) (arguments : List Value) (paren : Token) (body : Plan Flow) :
    Plan Flow

namespace Plan

variable {α β : Type}

instance : Monad Plan where
  pure := Plan.pure
  bind := Plan.bind

/-- The step that a plan is for. -/
def run : {α : Type} → Plan α → Step α
  | _, .pure result => Pure.pure result
  | _, .outOfFuel => Step.outOfFuel
  | _, .fail problem token => Step.fail problem token
  | _, .basic step _ => step
  | _, .function? id => Step.readHeap (·.functions[id]?)
  | _, .close name lambda isInitializer => Step.close name lambda isInitializer
  | _, .bind first rest => first.run >>= fun result => (rest result).run
  | _, .inScope inner => Step.inScope inner.run
  | _, .inCall closure arguments paren body => Step.inCall closure arguments paren body.run

/-! ## On the way -/

/-- A run of a plan on a machine comes to a part of the plan, at a moment when the machine is in
that state and in so many more calls than at first. -/
inductive Visits : {α β : Type} → Plan α → Machine → Plan β → Machine → Nat → Prop where
  | here {α : Type} {plan : Plan α} {machine : Machine} : Visits plan machine plan machine 0
  | first {α β γ : Type} {first : Plan α} {rest : α → Plan β} {part : Plan γ}
      {machine moment : Machine} {calls : Nat} :
      Visits first machine part moment calls → Visits (first.bind rest) machine part moment calls
  | rest {α β γ : Type} {first : Plan α} {rest : α → Plan β} {part : Plan γ} {result : α}
      {machine middle moment : Machine} {calls : Nat} :
      first.run machine = .finished result middle → Visits (rest result) middle part moment calls →
        Visits (first.bind rest) machine part moment calls
  | scope {α β : Type} {inner : Plan α} {part : Plan β} {machine moment : Machine} {calls : Nat} :
      Visits inner machine.enter part moment calls →
        Visits (inner.inScope) machine part moment calls
  | body {α : Type} {closure : Closure} {arguments : List Value} {paren : Token}
      {body : Plan Flow} {part : Plan α} {machine moment : Machine} {calls : Nat} :
      machine.depth < Step.maximumDepth →
        Visits body (machine.enterCall closure arguments) part moment calls →
          Visits (.inCall closure arguments paren body) machine part moment (calls + 1)

/-! ## Sequencing -/

theorem run_bind (first : Plan α) (rest : α → Plan β) :
    (first >>= rest).run = first.run >>= fun result => (rest result).run := rfl

end Plan

/-! ## The context after a run -/

/-- What a run leaves, if it ends, keeps the machine's context. -/
def Outcome.Keeps {α : Type} (machine : Machine) (outcome : Outcome α) : Prop :=
  outcome.Ends machine.Keeps (fun _ => True) fun _ => True

namespace Step

variable {α : Type} {machine : Machine}

theorem Tame.keeps {step : Step α} (tame : step.Tame) (machine : Machine) :
    (step machine).Keeps machine :=
  ((tame machine).mono fun _ => Machine.Reuses.keeps).weaken (fun _ _ => trivial) fun _ _ =>
    trivial

theorem bindParameters_extends (heap : Heap) (frame : FrameId) (parameters : List Name)
    (arguments : List Value) : heap.Extends (bindParameters heap frame parameters arguments) := by
  induction parameters generalizing heap arguments with
  | nil => exact .refl heap
  | cons parameter rest ih =>
    cases arguments with
    | nil => exact .refl heap
    | cons argument others =>
      have bound : heap.Extends (heap.define frame parameter.text argument) :=
        .ofEnvironment (.define _ _ _ _)
      exact bound.trans (ih _ others)

theorem holds_bindParameters {heap : Heap} {frame : FrameId} {parameters : List Name}
    {arguments : List Value} {lambda : Lambda Binding}
    (holds : (bindParameters heap frame parameters arguments).Holds lambda) :
    heap.Holds lambda := by
  induction parameters generalizing heap arguments with
  | nil => exact holds
  | cons parameter rest ih =>
    cases arguments with
    | nil => exact holds
    | cons argument others =>
      have before : (heap.define frame parameter.text argument).Holds lambda := ih holds
      exact before

theorem enterCall_extends (closure : Closure) (arguments : List Value) (machine : Machine) :
    machine.heap.Extends (machine.enterCall closure arguments).heap := by
  have opened : machine.heap.Extends (machine.heap.addFrame closure.frame).2 :=
    .ofEnvironment (.child _ _)
  exact opened.trans (bindParameters_extends _ _ _ _)

/-- The scope of a call is a new one. -/
theorem size_lt_size_enterCall (closure : Closure) (arguments : List Value) (machine : Machine) :
    machine.heap.environment.size < (machine.enterCall closure arguments).heap.environment.size := by
  have bound := (bindParameters_extends (machine.heap.addFrame closure.frame).2
    machine.heap.environment.size closure.lambda.parameters arguments).environment.size
  have opened : (machine.heap.addFrame closure.frame).2.environment.size =
      machine.heap.environment.size + 1 := Environment.size_child _ _
  exact Nat.lt_of_lt_of_le (by rw [opened]; exact Nat.lt_succ_self _) bound

end Step

/-- No function is made of a call before its body runs. -/
theorem Machine.holds_enterCall {machine : Machine} {closure : Closure} {arguments : List Value}
    {lambda : Lambda Binding}
    (holds : (machine.enterCall closure arguments).heap.Holds lambda) :
    machine.heap.Holds lambda := by
  have before : (machine.heap.addFrame closure.frame).2.Holds lambda :=
    Step.holds_bindParameters holds
  exact before

namespace Machine.Keeps

variable {machine after : Machine}

/-- A scope that was entered is left for the scope around it: no frame was moved since. -/
theorem leave (keeps : machine.enter.Keeps after) : machine.Keeps after.leave := by
  have made : machine.enter.frame < machine.enter.heap.environment.size := by
    change machine.heap.environment.size < (machine.heap.environment.child machine.frame).size
    rw [Environment.size_child]
    exact Nat.lt_succ_self _
  -- Leaving looks up the frame around the innermost one. That is still the frame that the scope was
  -- opened in: no step moves a frame that is there.
  have lies : after.heap.environment.enclosing? after.frame = some machine.frame := by
    rw [keeps.frame, keeps.heap.environment.enclosing _ made]
    change (machine.heap.environment.child machine.frame).enclosing?
      machine.heap.environment.size = _
    rw [Environment.enclosing?_child, if_pos rfl]
  have opened : machine.heap.Extends machine.enter.heap := .ofEnvironment (.child _ _)
  refine ⟨?_, keeps.depth, opened.trans keeps.heap⟩
  change (after.heap.environment.enclosing? after.frame).getD after.frame = machine.frame
  rw [lies]
  rfl

theorem leaveCall {closure : Closure} {arguments : List Value}
    (keeps : (machine.enterCall closure arguments).Keeps after) :
    machine.Keeps (machine.leaveCall after) := by
  refine ⟨rfl, ?_, (Step.enterCall_extends closure arguments machine).trans keeps.heap⟩
  change after.depth - 1 = machine.depth
  rw [keeps.depth]
  rfl

end Machine.Keeps

namespace Plan

variable {α β : Type} {machine moment : Machine} {calls : Nat}

theorem inCall_run (closure : Closure) (arguments : List Value) (paren : Token)
    (body : Plan Flow) (machine : Machine) :
    (inCall closure arguments paren body).run machine =
      if Step.maximumDepth ≤ machine.depth then .failed ⟨.stackOverflow, paren⟩ machine
      else (body.run (machine.enterCall closure arguments)).mapMachine machine.leaveCall :=
  Step.inCall_eq closure arguments paren body.run machine

/-- A call that is not refused ends as its body does, back where the function was called from. -/
theorem ends_inCall {closure : Closure} {arguments : List Value} {paren : Token} {body : Plan Flow}
    {left inner : Machine → Prop} {post : Flow → Prop} {plain : RuntimeError → Prop}
    (refused : left machine ∧ plain ⟨.stackOverflow, paren⟩)
    (ends : (body.run (machine.enterCall closure arguments)).Ends inner post plain)
    (leaves : ∀ after, inner after → left (machine.leaveCall after)) :
    ((inCall closure arguments paren body).run machine).Ends left post plain := by
  rw [inCall_run]
  split
  · exact refused
  · exact ends.mapMachine leaves

/-- However a run ends, the machine is in the scope and in the calls it was in before. -/
theorem run_keeps (plan : Plan α) (machine : Machine) : (plan.run machine).Keeps machine := by
  induction plan generalizing machine with
  | pure result => exact ⟨.refl machine, trivial⟩
  | outOfFuel => trivial
  | fail problem token => exact ⟨.refl machine, trivial⟩
  | basic step tame => exact tame.keeps machine
  | function? id => exact ⟨.refl machine, trivial⟩
  | close name lambda isInitializer => exact ⟨⟨rfl, rfl, .addFunction _ _⟩, trivial⟩
  | bind first rest ihFirst ihRest =>
    refine Step.ends_bind (ihFirst machine) fun result middle keeps _ => ?_
    exact (ihRest result middle).mono fun _ => keeps.trans
  | inScope inner ih => exact Step.ends_inScope (ih machine.enter) fun _ => Machine.Keeps.leave
  | inCall closure arguments paren body ih =>
    exact ends_inCall ⟨.refl machine, trivial⟩ (ih _) fun _ => Machine.Keeps.leaveCall

/-! ## The context during a run -/

/-- At every moment of a run the depth counts the calls that the run is in. -/
theorem Visits.depth {plan : Plan α} {part : Plan β}
    (visits : plan.Visits machine part moment calls) : moment.depth = machine.depth + calls := by
  induction visits with
  | here => rfl
  | first _ ih => exact ih
  | @rest _ _ _ first _ _ _ machine _ _ _ ran _ ih =>
    have keeps := run_keeps first machine
    rw [ran] at keeps
    rw [ih, keeps.1.depth]
  | scope _ ih => exact ih
  | body _ _ ih =>
    rw [ih]
    exact Nat.add_right_comm _ 1 _

/-- Nothing calls beyond the most calls there may be. -/
theorem Visits.depth_le {plan : Plan α} {part : Plan β}
    (visits : plan.Visits machine part moment calls) (below : machine.depth ≤ Step.maximumDepth) :
    moment.depth ≤ Step.maximumDepth := by
  induction visits with
  | here => exact below
  | first _ ih => exact ih below
  | @rest _ _ _ first _ _ _ machine _ _ _ ran _ ih =>
    have keeps := run_keeps first machine
    rw [ran] at keeps
    exact ih (keeps.1.depth ▸ below)
  | scope _ ih => exact ih below
  | body free _ ih => exact ih free

/-- A call is refused where the most calls are in progress, and nowhere else; one that is refused
has not so much as made a scope for its parameters. -/
theorem inCall_refused_iff (closure : Closure) (arguments : List Value) (paren : Token)
    (body : Plan Flow) (below : machine.depth ≤ Step.maximumDepth) :
    (inCall closure arguments paren body).run machine = .failed ⟨.stackOverflow, paren⟩ machine ↔
      machine.depth = Step.maximumDepth := by
  rw [inCall_run]
  constructor
  · intro refused
    refine Decidable.byContradiction fun free => ?_
    rw [if_neg (by omega)] at refused
    have keeps := run_keeps body (machine.enterCall closure arguments)
    cases outcome : body.run (machine.enterCall closure arguments) with
    | finished result after =>
      rw [outcome] at refused
      cases refused
    | failed error after =>
      rw [outcome] at keeps refused
      -- The scope of the call would still be there.
      have same : (machine.leaveCall after).heap = machine.heap :=
        congrArg Machine.heap (Outcome.failed.inj refused).2
      have grown := Nat.lt_of_lt_of_le (Step.size_lt_size_enterCall closure arguments machine)
        keeps.1.heap.environment.size
      rw [← same] at grown
      exact absurd grown (Nat.lt_irrefl _)
    | outOfFuel =>
      rw [outcome] at refused
      cases refused
  · intro full
    rw [if_pos (Nat.le_of_eq full.symm)]

end Plan

end Lox
