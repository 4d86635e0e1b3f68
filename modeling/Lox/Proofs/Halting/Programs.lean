import Lox.Proofs.Halting.Evaluation
import Lox.Proofs.Halting.Fuel

/-!
# Programs without loops end

A program without `while` and `for` ends, however its functions call themselves and each other. Either
the calls come back, or there are too many of them at once, and that is a runtime error.

The functions of programs that ran before can still be called, so what is said here is about sessions
in which no program has a loop.
-/

namespace Lox

section

variable {α : Type} {bound fuel : Nat} {machine after : Machine}

theorem Outcome.Halts.fits {outcome : Outcome α} {post : α → Prop}
    (halts : outcome.Halts bound post) (left : outcome.machine? = some after) :
    after.heap.Fits bound := by
  cases outcome with
  | finished result machine =>
    cases left
    exact halts.1
  | failed error machine =>
    cases left
    exact halts
  | outOfFuel => cases left

theorem Step.Approximates.machine? {step other : Step α} (approximates : step.Approximates other)
    (left : (step machine).machine? = some after) : (other machine).machine? = some after := by
  cases approximates machine with
  | inl gaveUp =>
    rw [gaveUp] at left
    cases left
  | inr same => rwa [← same]

/-- Between one program and the next, no call is in progress, and every function fits a bound. -/
structure Machine.Bounded (bound : Nat) (machine : Machine) : Prop where
  fits : machine.heap.Fits bound
  atRest : machine.depth = 0

namespace Machine.Bounded

theorem mono {larger : Nat} (bounded : machine.Bounded bound) (within : bound ≤ larger) :
    machine.Bounded larger :=
  ⟨fun lambda holds => (bounded.fits lambda holds).mono within, bounded.atRest⟩

/-- A plan that ends with room for every call ends on such a machine. -/
theorem halts {plan : Plan α} {post : α → Prop} (bounded : machine.Bounded bound)
    (ends : plan.Halts bound Step.maximumDepth post) : (plan.run machine).Halts bound post :=
  Plan.run_halts ends bounded.fits (by rw [bounded.atRest, Nat.zero_add])

/-- What a plan leaves with some fuel is bounded, if with all fuel beyond some amount the plan ends:
with more fuel it leaves the same. -/
theorem next {plan : Nat → Plan α} {post : α → Prop} {enough : Nat}
    (bounded : machine.Bounded bound)
    (approximates : ∀ fuel, (plan fuel).run.Approximates (plan (fuel + 1)).run)
    (ends : ∀ fuel, enough ≤ fuel → (plan fuel).Halts bound Step.maximumDepth post)
    (left : ((plan fuel).run machine).machine? = some after) : after.Bounded bound := by
  have keeps := Plan.run_keeps (plan fuel) machine
  have more := (Step.Approximates.of_le (fun fuel => (plan fuel).run) approximates
    (Nat.le_max_left fuel enough)).machine? left
  refine ⟨(bounded.halts (ends _ (Nat.le_max_right fuel enough))).fits more, ?_⟩
  exact (keeps.of_machine? left).depth.trans bounded.atRest

end Machine.Bounded

end

/-! ## Sessions -/

namespace Session

/-- The machines that sessions come to in which no program has a loop, their names resolved or not. -/
inductive LoopFree : Machine → Prop where
  | initial (output : Output) (clock : Nat → Number) : LoopFree (.initial output clock)
  | install {machine : Machine} (native : Native) :
      LoopFree machine → LoopFree (machine.install native)
  | program {machine after : Machine} {mode : Mode} {stmts : List (Stmt Unit)}
      {ready : List (Stmt Binding)} {fuel : Nat} :
      LoopFree machine → Stmt.LoopFreeEach stmts → prepared mode stmts = .ok ready →
        (Step.runTopLevel fuel ready machine).machine? = some after → LoopFree after
  | statement {machine after : Machine} {mode : Mode} {stmts : List (Stmt Unit)}
      {ready : List (Stmt Binding)} {stmt : Stmt Binding} {fuel : Nat} :
      LoopFree machine → Stmt.LoopFreeEach stmts → prepared mode stmts = .ok ready →
        stmt ∈ ready → (result fuel stmt machine).machine? = some after → LoopFree after

namespace LoopFree

variable {machine : Machine} {mode : Mode} {stmts : List (Stmt Unit)} {ready : List (Stmt Binding)}

theorem bounded (session : LoopFree machine) : ∃ bound, machine.Bounded bound := by
  induction session with
  | initial output clock =>
    refine ⟨0, ?_, rfl⟩
    rintro lambda ⟨id, closure, found, _⟩
    cases found
  | install native _ ih =>
    obtain ⟨bound, fits, atRest⟩ := ih
    exact ⟨bound, fits, atRest⟩
  | @program machine after mode stmts ready fuel _ free prepares left ih =>
    obtain ⟨bound, bounded⟩ := ih
    rw [← Plan.runTopLevel_run] at left
    let larger := max bound (sizeOf ready)
    have ends : ∀ fuel, sizeOf ready + Plan.spare larger Step.maximumDepth ≤ fuel →
        (Plan.runTopLevel fuel ready).Halts larger Step.maximumDepth fun _ => True :=
      fun fuel enough => Plan.runTopLevel_halts (free.prepared prepares)
        ⟨Nat.le_max_right _ _, enough⟩
    refine ⟨larger, (bounded.mono (Nat.le_max_left _ _)).next (fun fuel => ?_) ends left⟩
    simp only [Plan.runTopLevel_run]
    exact Step.runTopLevel_approximates ready
  | @statement machine after mode stmts ready stmt fuel _ free prepares member left ih =>
    obtain ⟨bound, bounded⟩ := ih
    rw [← Plan.result_run] at left
    let larger := max bound (sizeOf stmt)
    have ends : ∀ fuel, sizeOf stmt + Plan.spare larger Step.maximumDepth ≤ fuel →
        (Plan.result fuel stmt).Halts larger Step.maximumDepth fun _ => True :=
      fun fuel enough => Plan.result_halts ((free.prepared prepares).of_mem member)
        ⟨Nat.le_max_right _ _, enough⟩
    refine ⟨larger, (bounded.mono (Nat.le_max_left _ _)).next (fun fuel => ?_) ends left⟩
    simp only [Plan.result_run]
    exact Step.result_approximates stmt

/-- A program without loops ends, whatever programs without loops ran in the session before it: with
all fuel beyond some amount it comes to the one ending that it has. -/
theorem interpret_ends (session : LoopFree machine) (free : Stmt.LoopFreeEach stmts)
    (prepares : prepared mode stmts = .ok ready) :
    ∃ enough ending, ∀ fuel, enough ≤ fuel → machine.interpret fuel ready = some ending := by
  obtain ⟨bound, bounded⟩ := session.bounded
  let larger := max bound (sizeOf ready)
  let enough := sizeOf ready + Plan.spare larger Step.maximumDepth
  have ends : (Plan.runTopLevel enough ready).Halts larger Step.maximumDepth fun _ => True :=
    Plan.runTopLevel_halts (free.prepared prepares) ⟨Nat.le_max_right _ _, Nat.le_refl _⟩
  have halts := (bounded.mono (Nat.le_max_left _ _)).halts ends
  rw [Plan.runTopLevel_run] at halts
  have ended : ∃ ending, machine.interpret enough ready = some ending := by
    unfold Machine.interpret
    cases outcome : Step.runTopLevel enough ready machine with
    | finished result after => exact ⟨_, rfl⟩
    | failed error after => exact ⟨_, rfl⟩
    | outOfFuel =>
      rw [outcome] at halts
      exact halts.elim
  obtain ⟨ending, ends⟩ := ended
  exact ⟨enough, ending, fun fuel more => Machine.interpret_of_le more ends⟩

/-- `class A { init() { this.next = A(); } } A();` makes instances without end, or would. -/
theorem interpret_ends_constructor :
    let a : Name := ⟨"A", 1⟩
    let make : Expr Unit := .call (.reference a ()) 1 []
    let stmts : List (Stmt Unit) :=
      [.classDecl a none [⟨⟨"init", 1⟩, ⟨[], [.set (.thisInstance 1 ()) ⟨"next", 1⟩ make]⟩⟩],
        .expression make]
    ∃ ready, prepared ⟨true, false⟩ stmts = .ok ready ∧
      ∃ enough ending, ∀ fuel, enough ≤ fuel →
        (Machine.initial .unlimited fun _ => .zero).interpret fuel ready = some ending := by
  intro a make stmts
  have free : Stmt.LoopFreeEach stmts :=
    ⟨⟨⟨⟨trivial, trivial, trivial⟩, trivial⟩, trivial⟩, ⟨trivial, trivial⟩, trivial⟩
  have prepares : prepared ⟨true, false⟩ stmts = .ok _ := rfl
  exact ⟨_, prepares, interpret_ends (.initial _ _) free prepares⟩

end LoopFree

end Session

end Lox
