import Lox.Proofs.Sessions.Endings

/-!
# Fuel

More fuel never changes how a run ends: with any amount of it evaluation either gives up, or ends as it
ends with every larger amount. So a program that ends has one ending, and fuel is no part of it.
-/

namespace Lox

namespace Step

variable {α β : Type}

/-! ## Steps that give up earlier -/

/-- The step ends as the other does, unless it gives up for want of fuel. -/
def Approximates (step other : Step α) : Prop :=
  ∀ machine, step machine = .outOfFuel ∨ step machine = other machine

namespace Approximates

variable {step other latest : Step α}

theorem refl (step : Step α) : step.Approximates step := fun _ => .inr rfl

theorem trans (first : step.Approximates other) (second : other.Approximates latest) :
    step.Approximates latest := by
  intro machine
  cases first machine with
  | inl gaveUp => exact .inl gaveUp
  | inr same =>
    rw [same]
    exact second machine

theorem ofOutOfFuel : Approximates Step.outOfFuel other := fun _ => .inl rfl

theorem bind {rest otherRest : α → Step β} (first : step.Approximates other)
    (further : ∀ result, (rest result).Approximates (otherRest result)) :
    (step >>= rest).Approximates (other >>= otherRest) := by
  intro machine
  change Step.bind step rest machine = _ ∨ Step.bind step rest machine =
    Step.bind other otherRest machine
  unfold Step.bind
  cases first machine with
  | inl gaveUp =>
    rw [gaveUp]
    exact .inl rfl
  | inr same =>
    rw [← same]
    cases step machine with
    | finished result after => exact further result after
    | failed error after => exact .inr rfl
    | outOfFuel => exact .inr rfl

theorem ite {condition : Prop} [Decidable condition] {absent otherAbsent : Step α}
    (present : step.Approximates other) (otherwise : absent.Approximates otherAbsent) :
    (if condition then step else absent).Approximates
      (if condition then other else otherAbsent) := by
  split
  · exact present
  · exact otherwise

/-- Steps that run on another machine, and change it back, approximate each other as they do there. -/
theorem mapMachine (approximates : step.Approximates other) (change : Machine → Machine)
    (machine : Machine) :
    (step machine).mapMachine change = .outOfFuel ∨
      (step machine).mapMachine change = (other machine).mapMachine change := by
  cases approximates machine with
  | inl gaveUp =>
    rw [gaveUp]
    exact .inl rfl
  | inr same => exact .inr (congrArg _ same)

theorem inScope (inner : step.Approximates other) :
    (Step.inScope step).Approximates (Step.inScope other) := by
  intro machine
  rw [inScope_eq, inScope_eq]
  exact inner.mapMachine Machine.leave machine.enter

theorem inCall (body : step.Approximates other) (closure : Closure) (arguments : List Value)
    (paren : Token) :
    (Step.inCall closure arguments paren step).Approximates
      (Step.inCall closure arguments paren other) := by
  intro machine
  rw [inCall_eq, inCall_eq]
  split
  · exact .inr rfl
  · exact body.mapMachine machine.leaveCall (machine.enterCall closure arguments)

/-- Steps that approximate each the next one approximate all that come later. -/
theorem of_le (steps : Nat → Step α) {fuel more : Nat}
    (next : ∀ fuel, (steps fuel).Approximates (steps (fuel + 1))) (enough : fuel ≤ more) :
    (steps fuel).Approximates (steps more) := by
  induction enough with
  | refl => exact .refl _
  | step _ ih => exact ih.trans (next _)

end Approximates

/-! ## One more unit of fuel -/

open Approximates

mutual

theorem evaluate_approximates : ∀ fuel expr,
    (evaluate fuel expr).Approximates (evaluate (fuel + 1) expr)
  | 0, _ => .ofOutOfFuel
  | fuel + 1, expr => by
    cases expr with
    | group inner => exact evaluate_approximates fuel inner
    | unary operator line operand =>
      exact .bind (evaluate_approximates fuel operand) fun _ => .refl _
    | binary operator line left right =>
      refine .bind (evaluate_approximates fuel left) fun a => ?_
      exact .bind (evaluate_approximates fuel right) fun b => .refl _
    | logical operator line left right =>
      refine .bind (evaluate_approximates fuel left) fun value => ?_
      exact .ite (.refl _) (evaluate_approximates fuel right)
    | comma operands => exact evaluateLast_approximates fuel .nil operands
    | conditional line condition thenBranch elseBranch =>
      refine .bind (evaluate_approximates fuel condition) fun value => ?_
      split
      · exact evaluate_approximates fuel thenBranch
      · exact evaluate_approximates fuel elseBranch
      · exact .refl _
    | assign name binding value =>
      exact .bind (evaluate_approximates fuel value) fun _ => .refl _
    | property object name => exact .bind (evaluate_approximates fuel object) fun _ => .refl _
    | call callee line arguments =>
      refine .bind (evaluateEach_approximates fuel arguments) fun values => ?_
      refine .bind (evaluate_approximates fuel callee) fun value => ?_
      exact call_approximates fuel value values _
    | literal | reference | function | thisInstance | superMethod => exact .refl _

theorem evaluateEach_approximates : ∀ fuel exprs,
    (evaluateEach fuel exprs).Approximates (evaluateEach (fuel + 1) exprs)
  | 0, _ => .ofOutOfFuel
  | _ + 1, [] => .refl _
  | fuel + 1, expr :: rest => by
    refine .bind (evaluate_approximates fuel expr) fun value => ?_
    exact .bind (evaluateEach_approximates fuel rest) fun values => .refl _

theorem evaluateLast_approximates : ∀ fuel last exprs,
    (evaluateLast fuel last exprs).Approximates (evaluateLast (fuel + 1) last exprs)
  | 0, _, _ => .ofOutOfFuel
  | _ + 1, _, [] => .refl _
  | fuel + 1, _, expr :: rest =>
    .bind (evaluate_approximates fuel expr) fun value => evaluateLast_approximates fuel value rest

theorem evaluatePart_approximates : ∀ fuel part,
    (evaluatePart fuel part).Approximates (evaluatePart (fuel + 1) part)
  | 0, _ => .ofOutOfFuel
  | _ + 1, none => .refl _
  | fuel + 1, some expr => evaluate_approximates fuel expr

theorem call_approximates : ∀ fuel callee arguments paren,
    (call fuel callee arguments paren).Approximates (call (fuel + 1) callee arguments paren)
  | 0, _, _, _ => .ofOutOfFuel
  | fuel + 1, callee, arguments, paren => by
    cases callee with
    | function id =>
      refine .bind (.refl _) fun found => ?_
      cases found with
      | none => exact .refl _
      | some closure =>
        exact .bind (.refl _) fun _ => callClosure_approximates fuel closure arguments paren
    | classObject id => exact construct_approximates fuel id arguments paren
    | _ => exact .refl _

theorem construct_approximates : ∀ fuel classId arguments paren,
    (construct fuel classId arguments paren).Approximates
      (construct (fuel + 1) classId arguments paren)
  | 0, _, _, _ => .ofOutOfFuel
  | fuel + 1, classId, arguments, paren => by
    refine .bind (.refl _) fun initializer? => ?_
    cases initializer? with
    | none => exact .refl _
    | some initializer =>
      refine .bind (.refl _) fun arity => .bind (.refl _) fun _ => ?_
      refine .bind (.refl _) fun id => .bind (.refl _) fun bound => .bind (.refl _) fun found => ?_
      cases found with
      | none => exact .refl _
      | some closure =>
        exact .bind (callClosure_approximates fuel closure arguments paren) fun _ => .refl _

theorem callClosure_approximates : ∀ fuel closure arguments paren,
    (callClosure fuel closure arguments paren).Approximates
      (callClosure (fuel + 1) closure arguments paren)
  | 0, _, _, _ => .ofOutOfFuel
  | fuel + 1, closure, arguments, paren => by
    refine .bind ?_ fun flow => .refl _
    exact (executeEach_approximates fuel closure.lambda.body).inCall closure arguments paren

theorem storeEach_approximates : ∀ fuel value targets,
    (storeEach fuel value targets).Approximates (storeEach (fuel + 1) value targets)
  | 0, _, _ => .ofOutOfFuel
  | _ + 1, _, [] => .refl _
  | fuel + 1, value, .name name binding :: rest =>
    .bind (.refl _) fun _ => storeEach_approximates fuel value rest
  | fuel + 1, value, .property object name :: rest => by
    refine .bind (evaluate_approximates fuel object) fun object => .bind (.refl _) fun _ => ?_
    exact storeEach_approximates fuel value rest

theorem execute_approximates : ∀ fuel stmt,
    (execute fuel stmt).Approximates (execute (fuel + 1) stmt)
  | 0, _ => .ofOutOfFuel
  | fuel + 1, stmt => by
    cases stmt with
    | expression value => exact .bind (evaluate_approximates fuel value) fun _ => .refl _
    | varDecl name initializer =>
      exact .bind (evaluatePart_approximates fuel initializer) fun _ => .refl _
    | assign targets value =>
      refine .bind (evaluate_approximates fuel value) fun value => ?_
      exact .bind (storeEach_approximates fuel value targets) fun _ => .refl _
    | set object name value =>
      refine .bind (evaluate_approximates fuel object) fun object => ?_
      cases object with
      | object id => exact .bind (evaluate_approximates fuel value) fun _ => .refl _
      | _ => exact .refl _
    | block body => exact (executeEach_approximates fuel body).inScope
    | branch condition thenBranch elseBranch =>
      refine .inScope (.bind (evaluate_approximates fuel condition) fun value => ?_)
      exact .ite (execute_approximates fuel thenBranch) (executePart_approximates fuel elseBranch)
    | whileLoop condition body =>
      exact (loop_approximates fuel (some condition) none body).inScope
    | forLoop initializer condition increment body =>
      refine .inScope (.bind (executePart_approximates fuel initializer) fun _ => ?_)
      exact loop_approximates fuel condition increment body
    | returnValue line value =>
      exact .bind (evaluatePart_approximates fuel value) fun _ => .refl _
    | breakLoop | continueLoop | funDecl | classDecl => exact .refl _

theorem executeEach_approximates : ∀ fuel stmts,
    (executeEach fuel stmts).Approximates (executeEach (fuel + 1) stmts)
  | 0, _ => .ofOutOfFuel
  | _ + 1, [] => .refl _
  | fuel + 1, stmt :: rest => by
    refine .bind (execute_approximates fuel stmt) fun flow => ?_
    cases flow with
    | normal => exact executeEach_approximates fuel rest
    | _ => exact .refl _

theorem executePart_approximates : ∀ fuel part,
    (executePart fuel part).Approximates (executePart (fuel + 1) part)
  | 0, _ => .ofOutOfFuel
  | _ + 1, none => .refl _
  | fuel + 1, some stmt => execute_approximates fuel stmt

theorem loop_approximates : ∀ fuel condition increment body,
    (loop fuel condition increment body).Approximates (loop (fuel + 1) condition increment body)
  | 0, _, _, _ => .ofOutOfFuel
  | fuel + 1, condition, increment, body => by
    have round : ∀ holds, (if holds = true then execute fuel body >>= fun
          | .breaks _ => pure .normal
          | .returns line value => pure (.returns line value)
          | _ => evaluatePart fuel increment >>= fun _ => loop fuel condition increment body
        else pure .normal : Step Flow).Approximates
        (if holds = true then execute (fuel + 1) body >>= fun
          | .breaks _ => pure .normal
          | .returns line value => pure (.returns line value)
          | _ => evaluatePart (fuel + 1) increment >>= fun _ =>
            loop (fuel + 1) condition increment body
        else pure .normal) := by
      intro holds
      refine .ite (.bind (execute_approximates fuel body) fun flow => ?_) (.refl _)
      have again := bind (evaluatePart_approximates fuel increment) fun _ =>
        loop_approximates fuel condition increment body
      cases flow with
      | normal => exact again
      | continues line => exact again
      | breaks line => exact .refl _
      | returns line value => exact .refl _
    cases condition with
    | none => exact .bind (.refl _) round
    | some expr => exact .bind (evaluate_approximates fuel expr) fun _ => .bind (.refl _) round

end

/-! ## Programs -/

theorem runTopLevel_approximates {fuel : Nat} (stmts : List (Stmt Binding)) :
    (runTopLevel fuel stmts).Approximates (runTopLevel (fuel + 1) stmts) := by
  induction stmts with
  | nil => exact .refl _
  | cons stmt rest ih =>
    refine .bind (execute_approximates fuel stmt) fun flow => ?_
    cases flow with
    | normal => exact ih
    | _ => exact .refl _

theorem result_approximates {fuel : Nat} (stmt : Stmt Binding) :
    (Session.result fuel stmt).Approximates (Session.result (fuel + 1) stmt) := by
  cases stmt with
  | expression value => exact .bind (evaluate_approximates fuel value) fun _ => .refl _
  | _ => exact .bind (execute_approximates fuel _) fun _ => .refl _

end Step

/-- A program that ends, ends in the same way with all fuel beyond what it needs. -/
theorem Machine.interpret_of_le {machine : Machine} {fuel more : Nat} {stmts : List (Stmt Binding)}
    {ending : Machine × List Diagnostic} (enough : fuel ≤ more)
    (ends : machine.interpret fuel stmts = some ending) :
    machine.interpret more stmts = some ending := by
  have approximates := Step.Approximates.of_le (fun fuel => Step.runTopLevel fuel stmts)
    (fun _ => Step.runTopLevel_approximates stmts) enough
  unfold Machine.interpret at ends ⊢
  cases approximates machine with
  | inl gaveUp =>
    rw [gaveUp] at ends
    cases ends
  | inr same => rwa [← same]

end Lox
