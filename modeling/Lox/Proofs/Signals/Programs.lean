import Lox.Proofs.Lexical.Programs
import Lox.Proofs.Signals.Evaluation
import Lox.Proofs.Signals.Runs

/-!
# Signals and `super` in programs that resolve

In a program whose names were resolved no signal leaves what waits for it, and `super` is come to
only where it is bound. So no statement of the program ends otherwise than normally, no body of a
function is left by `break` or `continue`, and the errors that report such signals are never
reported.

The one half is about trees: resolving confines signals, and every function that a session ever made
comes from a tree that was resolved. The other half is about frames: a run that resolving has
prepared does not go astray, so where `super` is come to the frames match the scopes.
-/

namespace Lox

/-! ## What never happens -/

/-- A run of a plan keeps control where it belongs, among the statements of a program. -/
structure Plan.Controlled {α : Type} (plan : Plan α) (machine : Machine)
    (stmts : List (Stmt Binding)) : Prop where
  /-- Whenever a statement of the program is run, it ends normally, if it does not fail. -/
  statements : ∀ {β : Type} (part : Plan β) (moment : Machine) (calls : Nat),
    plan.Visits machine part moment calls → ∀ stmt ∈ stmts, ∀ fuel flow after,
      Step.execute fuel stmt moment = .finished flow after → flow = .normal
  /-- The body of every function that is called ends normally or returns, if it does not fail. -/
  calls : ∀ closure arguments paren body moment calls,
    plan.Visits machine (.inCall closure arguments paren body) moment calls →
      ∀ flow after, body.run (moment.enterCall closure arguments) = .finished flow after →
        flow = .normal ∨ ∃ line value, flow = .returns line value
  /-- Nothing that the run comes to fails for a signal, or for a `super` that is not bound. -/
  errors : ∀ {β : Type} (part : Plan β) (moment : Machine) (calls : Nat),
    plan.Visits machine part moment calls → ∀ error after,
      part.run moment = .failed error after → ¬error.problem.IsSignal ∧ ¬error.IsStraySuper

theorem Flow.EndsCall.cases {flow : Flow} (ends : flow.EndsCall) :
    flow = .normal ∨ ∃ line value, flow = .returns line value := by
  cases flow with
  | normal => exact .inl rfl
  | returns line value => exact .inr ⟨line, value, rfl⟩
  | breaks line | continues line => cases ends

theorem Flow.eq_normal_of_within {flow : Flow} (within : flow.Within false false) :
    flow = .normal := by
  cases flow with
  | normal => rfl
  | _ => cases within

namespace Plan

variable {α β : Type} {machine moment : Machine} {calls : Nat} {stmts : List (Stmt Binding)}

/-- An error at any moment of a run ends the run: nothing recovers from it. -/
theorem Visits.failed {plan : Plan α} {part : Plan β} {error : RuntimeError} {after : Machine}
    (visits : plan.Visits machine part moment calls)
    (fails : part.run moment = .failed error after) :
    ∃ last, plan.run machine = .failed error last := by
  induction visits with
  | here => exact ⟨after, fails⟩
  | first _ ih =>
    obtain ⟨last, failed⟩ := ih fails
    exact ⟨last, Step.bind_of_failed failed⟩
  | rest ran _ ih =>
    obtain ⟨last, failed⟩ := ih fails
    exact ⟨last, (Step.bind_of_finished ran).trans failed⟩
  | @scope _ _ inner _ machine _ _ _ ih =>
    obtain ⟨last, failed⟩ := ih fails
    refine ⟨last.leave, ?_⟩
    change Step.inScope inner.run machine = _
    rw [Step.inScope_eq, failed]
    rfl
  | @body _ _ _ _ _ _ machine _ _ free _ ih =>
    obtain ⟨last, failed⟩ := ih fails
    refine ⟨machine.leaveCall last, ?_⟩
    rw [inCall_run, if_neg (Nat.not_le_of_lt free), failed]
    rfl

theorem Safe.controlled {plan : Plan α} {post : α → Prop} (safe : plan.Safe post)
    (heap : machine.heap.Confined) (confined : ∀ stmt ∈ stmts, stmt.Confined false false)
    (bound : ∀ error after, plan.run machine = .failed error after → ¬error.IsStraySuper) :
    plan.Controlled machine stmts := by
  refine ⟨?_, ?_, ?_⟩
  · intro β part moment calls visits stmt member fuel flow after ended
    have ran := isSafe_run (execute_safe fuel (confined stmt member)) (visits.safe safe heap).2
    rw [execute_run, ended] at ran
    exact Flow.eq_normal_of_within ran.2
  · intro closure arguments paren body moment calls visits flow after ended
    exact (visits.endsCall safe heap ended).cases
  · intro β part moment calls visits error after failed
    -- The whole run ends with the error, and a safe run ends with none of these.
    obtain ⟨last, failedToo⟩ := visits.failed failed
    have ran := isSafe_run safe heap
    rw [failedToo] at ran
    exact ⟨ran.2, bound error last failedToo⟩

end Plan

/-! ## Statements of a program -/

theorem Stmt.confined_of_mem_resolveTopLevel {stmts : List (Stmt Unit)}
    {resolved : List (Stmt Binding)} (resolves : Stmt.resolveTopLevel stmts = .ok resolved) :
    ∀ stmt ∈ resolved, stmt.Confined false false := by
  intro stmt member
  obtain ⟨original, _, resolvesOriginal⟩ := Stmt.exists_of_mem_resolveTopLevel resolves member
  exact original.gives_confined stmt resolvesOriginal

theorem Ordinary.of_mem {stmts : List (Stmt Unit)} {stmt : Stmt Unit}
    (ordinary : Ordinary (Stmt.writtenEach stmts)) (member : stmt ∈ stmts) :
    Ordinary stmt.written := by
  induction stmts with
  | nil => cases member
  | cons first rest ih =>
    rw [Stmt.writtenEach, Ordinary.append] at ordinary
    cases member with
    | head => exact ordinary.1
    | tail _ further => exact ih ordinary.2 further

/-! ## Sessions -/

theorem Heap.Seated.empty : Heap.empty.Seated := by
  refine ⟨fun frame name value _ found => ?_, ?_⟩
  · cases frame <;> cases found
  · rintro lambda ⟨id, closure, found, _⟩
    cases found

theorem Heap.Seated.install {heap : Heap} {native : Native} (seated : heap.Seated) :
    (heap.install native).Seated := by
  have pushed : Heap.Seated { heap with natives := heap.natives.push native } :=
    ⟨seated.slots, seated.parameters⟩
  exact pushed.define fun inner => absurd rfl inner

section

variable {α : Type} {machine after : Machine} {origins later : List Origin} {error : RuntimeError}
  {post : α → Prop}

theorem Watched.Seated.endsIn {watched : Watched α} (seated : watched.Seated post)
    (ends : watched.EndsIn after later) :
    after.heap.Seated ∧ ∀ origin ∈ later, origin.Proper := by
  cases watched with
  | finished result machine origins =>
    obtain ⟨rfl, rfl⟩ := ends
    exact seated.1
  | failed error machine origins =>
    obtain ⟨rfl, rfl⟩ := ends
    exact seated.1
  | outOfFuel => cases ends
  | astray => cases ends

theorem Watched.Seated.failed {watched : Watched α} (seated : watched.Seated post)
    (fails : watched.outcome? = some (.failed error after)) : ¬error.IsStraySuper := by
  cases watched with
  | failed error machine origins =>
    cases fails
    exact seated.2
  | finished result machine origins => cases fails
  | outOfFuel => cases fails
  | astray => cases fails

theorem Outcome.IsSafe.machine? {outcome : Outcome α} (safe : outcome.IsSafe post)
    (left : outcome.machine? = some after) : after.heap.Confined := by
  cases outcome with
  | finished result machine =>
    cases left
    exact safe.1
  | failed error machine =>
    cases left
    exact safe.1
  | outOfFuel => cases left

end

namespace Session

/-- What holds of a machine and where its functions come from, between one program and the next. -/
structure Ready (machine : Machine) (origins : List Origin) : Prop where
  reached : Reached machine origins
  seated : machine.heap.Seated
  proper : ∀ origin ∈ origins, Origin.Proper origin
  confined : machine.heap.Confined

/-- A step that is watched, so that it keeps `super` in its seat, and planned, so that it keeps
signals in. -/
structure Guarded {α : Type} (machine : Machine) (origins : List Origin) (watch : Watch α)
    (plan : Plan α) : Prop where
  agrees : Watch.Agrees True machine origins watch plan.run fun _ _ _ => True
  seats : watch.Seats fun _ => True
  safe : plan.Safe fun _ => True

/-- The machines that sessions come to in which names are resolved, whatever text they are given: it
is run whole, or its statements are stepped through, and either may end in an error. -/
inductive Resolved : Machine → Prop where
  | initial (output : Output) (clock : Nat → Number) : Resolved (.initial output clock)
  | install {machine : Machine} {native : Native} :
      Resolved machine → native.Forwards → Resolved (machine.install native)
  | program {machine after : Machine} {tokens : List Token} {resolved : List (Stmt Binding)}
      {fuel : Nat} : Resolved machine → (∀ token ∈ tokens, token.kind.IsOrdinary) →
        Stmt.resolveTopLevel (Program.parse tokens).statements = .ok resolved →
          (Step.runTopLevel fuel resolved machine).machine? = some after → Resolved after
  | statement {machine after : Machine} {tokens : List Token} {resolved : List (Stmt Binding)}
      {stmt : Stmt Binding} {fuel : Nat} :
      Resolved machine → (∀ token ∈ tokens, token.kind.IsOrdinary) →
        Stmt.resolveTopLevel (Program.parse tokens).statements = .ok resolved → stmt ∈ resolved →
          (result fuel stmt machine).machine? = some after → Resolved after

namespace Ready

variable {machine after : Machine} {origins : List Origin} {tokens : List Token}
  {resolved : List (Stmt Binding)} {stmt : Stmt Binding} {fuel : Nat} {native : Native}

theorem initial (output : Output) (clock : Nat → Number) : Ready (.initial output clock) [] := by
  refine ⟨.initial output clock, Heap.Seated.empty.install.install.install, nofun, ?_⟩
  rintro lambda ⟨id, closure, found, _⟩
  cases found

theorem install (ready : Ready machine origins) (forwards : native.Forwards) :
    Ready (machine.install native) origins :=
  { reached := ready.reached.install forwards
    seated := ready.seated.install
    proper := ready.proper
    confined := ready.confined }

/-! A program that resolves is both watched and safe, and so are its statements. -/

section

variable (ready : Ready machine origins) (ordinary : ∀ token ∈ tokens, token.kind.IsOrdinary)
  (resolves : Stmt.resolveTopLevel (Program.parse tokens).statements = .ok resolved)

include ready ordinary resolves

theorem guarded_runTopLevel (fuel : Nat) :
    Guarded machine origins (Watch.runTopLevel fuel (Program.parse tokens).statements)
      (Plan.runTopLevel fuel resolved) := by
  refine ⟨?_, Watch.runTopLevel_seats fuel (Lexical.ordinary_parse ordinary),
    Plan.runTopLevel_safe fuel (Stmt.confined_of_mem_resolveTopLevel resolves)⟩
  rw [Plan.runTopLevel_run]
  exact Watch.agrees_runTopLevel ready.reached.stands resolves (Program.wellShaped_parse tokens)

theorem guarded_result (fuel : Nat) (member : stmt ∈ resolved) :
    ∃ original ∈ (Program.parse tokens).statements, original.resolve .topLevel = .ok stmt ∧
      Guarded machine origins (Watch.result fuel original) (Plan.result fuel stmt) := by
  obtain ⟨original, listed, resolvesOriginal⟩ := Stmt.exists_of_mem_resolveTopLevel resolves member
  refine ⟨original, listed, resolvesOriginal, ?_,
    Watch.result_seats fuel ((Lexical.ordinary_parse ordinary).of_mem listed),
    Plan.result_safe fuel (Stmt.confined_of_mem_resolveTopLevel resolves stmt member)⟩
  rw [Plan.result_run]
  exact Watch.agrees_result ready.reached.stands resolvesOriginal
    ((Program.wellShaped_parse tokens).of_mem listed)

end

section

variable {α : Type} {watch : Watch α} {plan : Plan α} (ready : Ready machine origins)
  (guarded : Guarded machine origins watch plan)

include ready guarded

/-- What a guarded step leaves is ready again, if it is a reached machine. -/
theorem next (left : (plan.run machine).machine? = some after)
    (reaches : ∀ later, (watch machine origins).EndsIn after later → Reached after later) :
    ∃ later, Ready after later := by
  obtain ⟨later, ends⟩ := guarded.agrees.endsIn left
  obtain ⟨seated, proper⟩ :=
    (guarded.seats machine origins ready.seated ready.proper).endsIn ends
  have ran := Plan.isSafe_run guarded.safe ready.confined
  exact ⟨later, reaches later ends, seated, proper, ran.machine? left⟩

theorem controlled (confined : ∀ stmt ∈ resolved, stmt.Confined false false) :
    plan.Controlled machine resolved := by
  refine guarded.safe.controlled ready.confined confined fun error after failed => ?_
  have watched := guarded.seats machine origins ready.seated ready.proper
  exact watched.failed (guarded.agrees.outcome?.trans (congrArg some failed))

end

end Ready

/-! ## Programs -/

namespace Resolved

variable {machine : Machine} {tokens : List Token} {resolved : List (Stmt Binding)}

theorem ready (session : Resolved machine) : ∃ origins, Ready machine origins := by
  induction session with
  | initial output clock => exact ⟨[], .initial output clock⟩
  | install _ forwards ih =>
    obtain ⟨origins, ready⟩ := ih
    exact ⟨origins, ready.install forwards⟩
  | program _ ordinary resolves left ih =>
    obtain ⟨origins, ready⟩ := ih
    rw [← Plan.runTopLevel_run] at left
    exact ready.next (ready.guarded_runTopLevel ordinary resolves _) left fun _ ends =>
      ready.reached.program resolves ends
  | statement _ ordinary resolves member left ih =>
    obtain ⟨origins, ready⟩ := ih
    rw [← Plan.result_run] at left
    obtain ⟨original, listed, resolvesOriginal, guarded⟩ :=
      ready.guarded_result ordinary resolves _ member
    exact ready.next guarded left fun _ ends =>
      ready.reached.statement listed resolvesOriginal ends

/-- A program that resolves keeps control, whatever was run in the session before. So does each of
its statements, when it is stepped through. -/
theorem keeps_control (session : Resolved machine)
    (ordinary : ∀ token ∈ tokens, token.kind.IsOrdinary)
    (resolves : Stmt.resolveTopLevel (Program.parse tokens).statements = .ok resolved)
    (fuel : Nat) :
    ((Plan.runTopLevel fuel resolved).run = Step.runTopLevel fuel resolved ∧
      (Plan.runTopLevel fuel resolved).Controlled machine resolved) ∧
    ∀ stmt ∈ resolved, (Plan.result fuel stmt).run = Session.result fuel stmt ∧
      (Plan.result fuel stmt).Controlled machine resolved := by
  obtain ⟨origins, ready⟩ := session.ready
  have confined := Stmt.confined_of_mem_resolveTopLevel resolves
  refine ⟨⟨Plan.runTopLevel_run fuel resolved, ?_⟩, fun stmt member =>
    ⟨Plan.result_run fuel stmt, ?_⟩⟩
  · exact ready.controlled (ready.guarded_runTopLevel ordinary resolves fuel) confined
  · obtain ⟨_, _, _, guarded⟩ := ready.guarded_result ordinary resolves fuel member
    exact ready.controlled guarded confined

/-- A method that returns, out of a loop, what the method of its superclass gives. -/
theorem keeps_control_super :
    let tokens : List Token := [⟨.keyword .kwClass, 1⟩, ⟨.identifier "A", 1⟩,
      ⟨.symbol .leftBrace, 1⟩, ⟨.identifier "m", 1⟩, ⟨.symbol .leftParen, 1⟩,
      ⟨.symbol .rightParen, 1⟩, ⟨.symbol .leftBrace, 1⟩, ⟨.keyword .kwReturn, 1⟩, ⟨.text "s", 1⟩,
      ⟨.symbol .rightBrace, 1⟩, ⟨.symbol .rightBrace, 1⟩, ⟨.keyword .kwClass, 2⟩,
      ⟨.identifier "B", 2⟩, ⟨.symbol .less, 2⟩, ⟨.identifier "A", 2⟩, ⟨.symbol .leftBrace, 2⟩,
      ⟨.identifier "m", 2⟩, ⟨.symbol .leftParen, 2⟩, ⟨.symbol .rightParen, 2⟩,
      ⟨.symbol .leftBrace, 2⟩, ⟨.keyword .kwWhile, 3⟩, ⟨.symbol .leftParen, 3⟩,
      ⟨.keyword .kwTrue, 3⟩, ⟨.symbol .rightParen, 3⟩, ⟨.keyword .kwReturn, 3⟩,
      ⟨.keyword .kwSuper, 3⟩, ⟨.symbol .dot, 3⟩, ⟨.identifier "m", 3⟩, ⟨.symbol .leftParen, 3⟩,
      ⟨.symbol .rightParen, 3⟩, ⟨.symbol .rightBrace, 4⟩, ⟨.symbol .rightBrace, 4⟩,
      ⟨.identifier "print", 5⟩, ⟨.symbol .leftParen, 5⟩, ⟨.identifier "B", 5⟩,
      ⟨.symbol .leftParen, 5⟩, ⟨.symbol .rightParen, 5⟩, ⟨.symbol .dot, 5⟩, ⟨.identifier "m", 5⟩,
      ⟨.symbol .leftParen, 5⟩, ⟨.symbol .rightParen, 5⟩, ⟨.symbol .rightParen, 5⟩,
      ⟨.endOfInput, 6⟩]
    let machine := Machine.initial .unlimited fun _ => .zero
    ∃ resolved, (∀ token ∈ tokens, token.kind.IsOrdinary) ∧
      Stmt.resolveTopLevel (Program.parse tokens).statements = .ok resolved ∧
      (Plan.runTopLevel 20 resolved).Controlled machine resolved ∧
      (machine.interpret 20 resolved).map
        (fun ending => (ending.1.output.written.data, ending.2.length)) = some ("s".toUTF8.data, 0) := by
  intro tokens machine
  have ordinary : ∀ token ∈ tokens, token.kind.IsOrdinary := by decide
  have controlled := keeps_control (.initial .unlimited fun _ => .zero) ordinary rfl 20
  exact ⟨_, ordinary, rfl, controlled.1.2, by decide +kernel⟩

/-- Whatever text is run with its names resolved, the machine afterwards is one of these. -/
theorem answer {fuel : Nat} {keepsResults : Bool} {source : String} {answer : Answer}
    (session : Resolved machine)
    (answered : Session.answer fuel ⟨true, keepsResults⟩ source machine = some answer) :
    Resolved answer.machine := by
  have ordinary : ∀ token ∈ Scan.tokens source, token.kind.IsOrdinary :=
    fun _ => Scan.isOrdinary_of_mem_tokens
  refine answer_induction Resolved session ?_ ?_ answered
  · intro stmts resolves after ran
    exact session.program ordinary resolves ran
  · intro stmts resolves stmt member before later between ran
    exact between.statement ordinary resolves member ran

end Resolved

end Session

end Lox
