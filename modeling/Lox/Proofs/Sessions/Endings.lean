import Lox.Session

/-!
# How steps, programs and sessions end

A step that ends leaves a machine behind, with a result or with an error. A step that runs in a
scope or in a call of its own runs on another machine, and the machine that it leaves is changed
back. A program leaves the machine that its statements left, and so does each text of a session:
what every statement keeps, sessions keep.
-/

namespace Lox

/-! ## Machines that are left -/

namespace Outcome

variable {α : Type}

/-- The machine that a step leaves. -/
def machine? : Outcome α → Option Machine
  | finished _ machine => some machine
  | failed _ machine => some machine
  | outOfFuel => none

/-- What a step comes to, with a change to the machine that it leaves. -/
def mapMachine (change : Machine → Machine) : Outcome α → Outcome α
  | finished result machine => .finished result (change machine)
  | failed error machine => .failed error (change machine)
  | outOfFuel => .outOfFuel

theorem mapMachine_congr {outcome : Outcome α} {change other : Machine → Machine}
    (same : ∀ after, outcome.machine? = some after → change after = other after) :
    outcome.mapMachine change = outcome.mapMachine other := by
  cases outcome with
  | finished result after => exact congrArg _ (same after rfl)
  | failed error after => exact congrArg _ (same after rfl)
  | outOfFuel => rfl

theorem mapMachine_mapMachine (outcome : Outcome α) (change other : Machine → Machine) :
    (outcome.mapMachine change).mapMachine other =
      outcome.mapMachine fun after => other (change after) := by
  cases outcome <;> rfl

theorem machine?_mapMachine (outcome : Outcome α) (change : Machine → Machine) :
    (outcome.mapMachine change).machine? = outcome.machine?.map change := by
  cases outcome <;> rfl

end Outcome

/-! ## Scopes and calls -/

/-- The machine in the body of a function that it calls. -/
def Machine.enterCall (closure : Closure) (arguments : List Value) (machine : Machine) : Machine :=
  { machine with
    heap := Step.bindParameters (machine.heap.addFrame closure.frame).2
      machine.heap.environment.size closure.lambda.parameters arguments
    frame := machine.heap.environment.size
    depth := machine.depth + 1 }

/-- The machine back where it called a function from. -/
def Machine.leaveCall (caller : Machine) (after : Machine) : Machine :=
  { after with frame := caller.frame, depth := after.depth - 1 }

namespace Step

variable {α : Type}

theorem inScope_eq (step : Step α) (machine : Machine) :
    inScope step machine = (step machine.enter).mapMachine Machine.leave := by
  unfold inScope
  cases step machine.enter <;> rfl

theorem inCall_eq (closure : Closure) (arguments : List Value) (paren : Token) (body : Step α)
    (machine : Machine) :
    inCall closure arguments paren body machine =
      if maximumDepth ≤ machine.depth then .failed ⟨.stackOverflow, paren⟩ machine
      else (body (machine.enterCall closure arguments)).mapMachine machine.leaveCall := by
  unfold inCall
  split
  · rfl
  · simp only [Machine.enterCall, Heap.addFrame]
    cases body _ <;> rfl

end Step

/-! ## Programs and sessions -/

/-- A program that was run to its end leaves the machine that its statements left. -/
theorem Machine.machine?_of_interpret {machine after : Machine} {fuel : Nat}
    {stmts : List (Stmt Binding)} {diagnostics : List Diagnostic}
    (ends : machine.interpret fuel stmts = some (after, diagnostics)) :
    (Step.runTopLevel fuel stmts machine).machine? = some after := by
  simp only [Machine.interpret] at ends
  split at ends
  · next outcome =>
    cases ends
    rw [outcome]
    rfl
  · next outcome =>
    cases ends
    rw [outcome]
    rfl
  · cases ends

namespace Session

variable {machine : Machine} {fuel : Nat}

/-- What each statement that is stepped through keeps holds of the machine after all of them. -/
theorem results_induction {holds : Machine → Prop} {after : Machine} {stmts : List (Stmt Binding)}
    {values : List StatementResult} {diagnostics : List Diagnostic} (first : holds machine)
    (keeps : ∀ stmt ∈ stmts, ∀ before later, holds before →
      (result fuel stmt before).machine? = some later → holds later)
    (ends : results fuel machine stmts = some (values, diagnostics, after)) : holds after := by
  induction stmts generalizing machine values diagnostics with
  | nil =>
    cases ends
    exact first
  | cons stmt rest ih =>
    simp only [results] at ends
    split at ends
    · next outcome =>
      have onward := keeps stmt (.head _) _ _ first (congrArg Outcome.machine? outcome)
      obtain ⟨following, endsRest, same⟩ := Option.map_eq_some_iff.mp ends
      cases same
      exact ih onward (fun other member => keeps other (.tail _ member)) endsRest
    · next outcome =>
      cases ends
      exact keeps stmt (.head _) _ _ first (congrArg Outcome.machine? outcome)
    · cases ends

/-- So it is of the machine after a text, whole or stepped through, as long as running the statements of
the text as a program keeps it too. -/
theorem answer_induction (holds : Machine → Prop) {mode : Mode} {source : String} {answer : Answer}
    (first : holds machine)
    (program : ∀ stmts, prepared mode (Reading.ofSource source).statements = .ok stmts →
      ∀ after, (Step.runTopLevel fuel stmts machine).machine? = some after → holds after)
    (statement : ∀ stmts, prepared mode (Reading.ofSource source).statements = .ok stmts →
      ∀ stmt ∈ stmts, ∀ before later, holds before →
        (result fuel stmt before).machine? = some later → holds later)
    (answered : Session.answer fuel mode source machine = some answer) : holds answer.machine := by
  simp only [Session.answer] at answered
  split at answered
  · cases answered
    exact first
  · next stmts readied =>
    split at answered
    · obtain ⟨⟨values, diagnostics, after⟩, ends, same⟩ := Option.map_eq_some_iff.mp answered
      cases same
      exact results_induction first (statement stmts readied) ends
    · obtain ⟨⟨after, diagnostics⟩, ends, same⟩ := Option.map_eq_some_iff.mp answered
      cases same
      exact program stmts readied after (Machine.machine?_of_interpret ends)

end Session

end Lox
