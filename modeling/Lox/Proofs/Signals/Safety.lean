import Lox.Proofs.Plans.Evaluation
import Lox.Proofs.Signals.Confinement

/-!
# Plans that keep signals in

A plan is safe if it makes only confined functions and calls only bodies that end as a body may,
whatever the functions that it reads, so long as they are confined. A run of a safe plan never fails
for a stray signal, and wherever it comes to a call, the body of the call ends normally or returns.
-/

namespace Lox

/-- Whether something waits for the signal, in a loop and in a function or not. -/
def Flow.Within (inLoop inFunction : Bool) : Flow → Prop
  | normal => True
  | breaks _ => inLoop = true
  | continues _ => inLoop = true
  | returns _ _ => inFunction = true

/-- Whether the body of a function may end so. -/
def Flow.EndsCall : Flow → Prop := Flow.Within false true

/-- Whether every function that was made is confined. -/
def Heap.Confined (heap : Heap) : Prop := ∀ lambda, heap.Holds lambda → lambda.Confined

namespace Plan

variable {α β : Type}

/-- Whether a run of the plan keeps signals in and ends with the postcondition, if it gives a
result. -/
def Safe : {α : Type} → Plan α → (α → Prop) → Prop
  | _, .pure result, post => post result
  | _, .outOfFuel, _ => True
  | _, .fail problem _, _ => ¬problem.IsSignal
  | _, .basic _ _, post => ∀ result, post result
  | _, .function? _, post => ∀ found, (∀ closure ∈ found, closure.lambda.Confined) → post found
  | _, .close _ lambda _, post => lambda.Confined ∧ ∀ id, post id
  | _, .bind first rest, post => first.Safe fun result => (rest result).Safe post
  | _, .inScope inner, post => inner.Safe post
  | _, .inCall _ _ _ body, post => body.Safe fun flow => flow.EndsCall ∧ post flow

namespace Safe

theorem mono {plan : Plan α} {post weaker : α → Prop} (safe : plan.Safe post)
    (weakens : ∀ result, post result → weaker result) : plan.Safe weaker := by
  induction plan with
  | pure result => exact weakens result safe
  | outOfFuel => trivial
  | fail problem token => exact safe
  | basic step tame => exact fun result => weakens result (safe result)
  | function? id => exact fun found confined => weakens found (safe found confined)
  | close name lambda isInitializer => exact ⟨safe.1, fun id => weakens id (safe.2 id)⟩
  | bind first rest ihFirst ihRest =>
    exact ihFirst safe fun result safeRest => ihRest result safeRest weakens
  | inScope inner ih => exact ih safe weakens
  | inCall closure arguments paren body ih =>
    exact ih safe fun flow ends => ⟨ends.1, weakens flow ends.2⟩

theorem bind {first : Plan α} {rest : α → Plan β} {middle : α → Prop} {post : β → Prop}
    (safe : first.Safe middle) (further : ∀ result, middle result → (rest result).Safe post) :
    (first >>= rest).Safe post := by
  change first.Safe fun result => (rest result).Safe post
  exact safe.mono further

end Safe

end Plan

/-! ## Runs of safe plans -/

/-- What a run of a safe plan comes to. -/
def Outcome.IsSafe {α : Type} (post : α → Prop) (outcome : Outcome α) : Prop :=
  outcome.Ends (·.heap.Confined) post fun error => ¬error.problem.IsSignal

theorem Machine.confined_enterCall {machine : Machine} (confined : machine.heap.Confined)
    (closure : Closure) (arguments : List Value) :
    (machine.enterCall closure arguments).heap.Confined :=
  fun lambda holds => confined lambda (Machine.holds_enterCall holds)

namespace Plan

variable {α β : Type} {machine moment : Machine} {calls : Nat}

theorem isSafe_run {plan : Plan α} {post : α → Prop} (safe : plan.Safe post)
    (confined : machine.heap.Confined) : (plan.run machine).IsSafe post := by
  induction plan generalizing machine with
  | pure result => exact ⟨confined, safe⟩
  | outOfFuel => trivial
  | fail problem token => exact ⟨confined, safe⟩
  | basic step tame =>
    refine ((tame machine).mono fun after reuses => ?_).weaken (fun result _ => safe result)
      fun _ plain => plain
    exact fun lambda holds => confined lambda (reuses.reused lambda holds)
  | function? id =>
    exact ⟨confined, safe _ fun closure found => confined _ ⟨id, closure, found, rfl⟩⟩
  | close name lambda isInitializer =>
    refine ⟨fun other holds => ?_, safe.2 _⟩
    -- The plan says of the new function what is known of the others.
    cases Heap.Holds.of_addFunction holds with
    | inl before => exact confined other before
    | inr same => exact same ▸ safe.1
  | bind first rest ihFirst ihRest =>
    exact Step.ends_bind (ihFirst safe confined) fun result middle confined safeRest =>
      ihRest result safeRest confined
  | inScope inner ih =>
    have entered : machine.enter.heap.Confined := confined
    exact Step.ends_inScope (ih safe entered) fun _ confined => confined
  | inCall closure arguments paren body ih =>
    have inside := ih safe (Machine.confined_enterCall confined closure arguments)
    -- A call that is refused fails for want of room, which is no signal.
    exact ends_inCall ⟨confined, id⟩ (inside.weaken (fun _ => And.right) fun _ => id)
      fun _ confined => confined

/-- Whatever part of a safe plan a run comes to is safe itself. -/
theorem Visits.safe {plan : Plan α} {part : Plan β} {post : α → Prop}
    (visits : plan.Visits machine part moment calls) (safe : plan.Safe post)
    (confined : machine.heap.Confined) :
    (∃ post : β → Prop, part.Safe post) ∧ moment.heap.Confined := by
  induction visits with
  | here => exact ⟨⟨post, safe⟩, confined⟩
  | first _ ih => exact ih safe confined
  | @rest _ _ _ first rest _ _ _ _ _ _ ran _ ih =>
    -- The first part ended with a result that the rest is safe for, and left the heap confined.
    have safeFirst : first.Safe fun result => (rest result).Safe post := safe
    have ended := isSafe_run safeFirst confined
    rw [ran] at ended
    exact ih ended.2 ended.1
  | scope _ ih => exact ih safe confined
  | body _ _ ih => exact ih safe (Machine.confined_enterCall confined _ _)

/-- Wherever a run comes to a call, the body of the call ends normally or returns. -/
theorem Visits.endsCall {plan : Plan α} {post : α → Prop} {closure : Closure}
    {arguments : List Value} {paren : Token} {body : Plan Flow} {flow : Flow} {after : Machine}
    (visits : plan.Visits machine (.inCall closure arguments paren body) moment calls)
    (safe : plan.Safe post) (confined : machine.heap.Confined)
    (ends : body.run (moment.enterCall closure arguments) = .finished flow after) :
    flow.EndsCall := by
  obtain ⟨⟨post, safeCall⟩, confinedThen⟩ := visits.safe safe confined
  have safeBody : body.Safe fun flow => flow.EndsCall ∧ post flow := safeCall
  have inside := isSafe_run safeBody (Machine.confined_enterCall confinedThen closure arguments)
  rw [ends] at inside
  exact inside.2.1

end Plan

end Lox
