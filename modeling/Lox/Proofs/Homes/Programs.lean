import Lox.Proofs.Homes.Evaluation
import Lox.Proofs.Homes.Outcomes
import Lox.Proofs.Signals.Programs

/-!
# `super` and constructors in programs that resolve

In a session in which names are resolved everything that a chronicle tells is true, of every program and
of every statement that is stepped through, and however often a program was run before: `super` is static
and keeps `this`, and calls of classes and initializers give instances.
-/

namespace Lox

/-! ## Trees and heaps to begin with -/

/-- No class is around the statements of a program, so they have no tether. -/
theorem Stmt.tethered_of_mem_resolveTopLevel {tokens : List Token} {resolved : List (Stmt Binding)}
    (ordinary : ∀ token ∈ tokens, token.kind.IsOrdinary)
    (resolves : Stmt.resolveTopLevel (Program.parse tokens).statements = .ok resolved) :
    ∀ stmt ∈ resolved, stmt.Tethered none := by
  intro stmt member
  obtain ⟨original, listed, resolvesOriginal⟩ := Stmt.exists_of_mem_resolveTopLevel resolves member
  have written := (Lexical.ordinary_parse ordinary).of_mem listed
  exact original.gives_tethered .topLevel written stmt resolvesOriginal

namespace Heap.Housed

variable {heap : Heap} {belongings : List Belonging}

theorem empty : Heap.empty.Housed [] :=
  { root := Nat.zero_lt_one
    count := rfl
    functions := nofun
    classes := nofun
    slots := by
      intro frame name value found
      cases frame <;> cases found
    fields := nofun
    natives := .empty }

theorem install {native : Native} (housed : heap.Housed belongings) (discreet : native.Discreet) :
    (heap.install native).Housed belongings := by
  have pushed : Heap.Housed { heap with natives := heap.natives.push native } belongings :=
    { housed with natives := housed.natives.install discreet }
  exact pushed.define (.define_globals _ _) trivial

theorem initial (output : Output) (clock : Nat → Number) :
    (Machine.initial output clock).heap.Housed [] :=
  List.foldlRecOn (motive := fun heap => Heap.Housed heap []) Native.standard Heap.install empty
    fun _ housed _ member => housed.install (Native.discreet_of_mem_standard member)

end Heap.Housed

namespace Session

/-! ## Sessions -/

/-- The machines that sessions come to in which names are resolved, with the record of the session so
far: of every program that was run whole and of every statement that was stepped through, whether it
ended in an error or not. -/
inductive Chronicles : Machine → Record → Prop where
  | initial (output : Output) (clock : Nat → Number) : Chronicles (.initial output clock) ⟨[], []⟩
  | install {machine : Machine} {record : Record} {native : Native} :
      Chronicles machine record → native.Discreet → Chronicles (machine.install native) record
  | program {machine after : Machine} {record : Record} {tokens : List Token}
      {resolved : List (Stmt Binding)} {fuel : Nat} :
      Chronicles machine record → (∀ token ∈ tokens, token.kind.IsOrdinary) →
        Stmt.resolveTopLevel (Program.parse tokens).statements = .ok resolved →
          (Step.runTopLevel fuel resolved machine).machine? = some after →
            Chronicles after (Chronicle.runTopLevel fuel resolved machine record).record
  | statement {machine after : Machine} {record : Record} {tokens : List Token}
      {resolved : List (Stmt Binding)} {stmt : Stmt Binding} {fuel : Nat} :
      Chronicles machine record → (∀ token ∈ tokens, token.kind.IsOrdinary) →
        Stmt.resolveTopLevel (Program.parse tokens).statements = .ok resolved → stmt ∈ resolved →
          (result fuel stmt machine).machine? = some after →
            Chronicles after (Chronicle.result fuel stmt machine record).record

end Session

namespace Chronicle

theorem onward_of_machine? {α : Type} {machine after : Machine} {record : Record}
    {told : Chronicled α} {post : α → Heap → List Belonging → Prop}
    (tells : told.Tells machine record post) (left : told.outcome.machine? = some after) :
    Onward machine record after told.record := by
  unfold Chronicled.Tells at tells
  split at tells
  · next ended =>
    rw [ended] at left
    cases left
    exact tells.1
  · next ended =>
    rw [ended] at left
    cases left
    exact tells
  · next ended =>
    rw [ended] at left
    cases left

end Chronicle

namespace Session.Chronicles

variable {machine : Machine} {record : Record} {tokens : List Token}
  {resolved : List (Stmt Binding)}

theorem atHome (session : Chronicles machine record) :
    Chronicle.AtHome none none machine record := by
  induction session with
  | initial output clock =>
    exact ⟨.initial output clock, fun _ member => absurd member List.not_mem_nil, .untethered⟩
  | install _ discreet ih => exact ⟨ih.housed.install discreet, ih.truthful, .untethered⟩
  | @program machine _ record _ resolved fuel _ ordinary resolves left ih =>
    have tells := Chronicle.runTopLevel_tells fuel
      (Stmt.tethered_of_mem_resolveTopLevel ordinary resolves) ih
    rw [← Chronicle.runTopLevel_records fuel resolved machine record] at left
    exact ih.onward (Chronicle.onward_of_machine? tells left)
  | @statement machine _ record _ _ stmt fuel _ ordinary resolves member left ih =>
    have tells := Chronicle.result_tells fuel
      (Stmt.tethered_of_mem_resolveTopLevel ordinary resolves stmt member) ih
    rw [← Chronicle.result_records fuel stmt machine record] at left
    exact ih.onward (Chronicle.onward_of_machine? tells left)

/-! ## What a chronicle tells

The first part of each statement is about a whole program, the second one about each of its statements
when it is stepped through. -/

section

variable (session : Chronicles machine record) (ordinary : ∀ token ∈ tokens, token.kind.IsOrdinary)
  (resolves : Stmt.resolveTopLevel (Program.parse tokens).statements = .ok resolved)

include session ordinary resolves

theorem truthful_runTopLevel (fuel : Nat) :
    (Chronicle.runTopLevel fuel resolved machine record).record.Truthful :=
  Chronicle.tells_truthful (Chronicle.runTopLevel_tells fuel
    (Stmt.tethered_of_mem_resolveTopLevel ordinary resolves) session.atHome)

theorem truthful_result (fuel : Nat) {stmt : Stmt Binding} (member : stmt ∈ resolved) :
    (Chronicle.result fuel stmt machine record).record.Truthful :=
  Chronicle.tells_truthful (Chronicle.result_tells fuel
    (Stmt.tethered_of_mem_resolveTopLevel ordinary resolves stmt member) session.atHome)

end

/-- In every run of a program that resolves, `super` is static and keeps `this`. The code that comes to
it is at home in one execution of the declaration of the innermost class around it. The method is the
first one of its name from the superclass upwards that this declaration came to when it was executed, and
it is bound to the instance that `this` gives in the same code. It is an error, which names the method
and that superclass, only if no class from there upwards has such a method. -/
theorem keeps_super (session : Chronicles machine record)
    (ordinary : ∀ token ∈ tokens, token.kind.IsOrdinary)
    (resolves : Stmt.resolveTopLevel (Program.parse tokens).statements = .ok resolved) (fuel : Nat) :
    ((Chronicle.runTopLevel fuel resolved machine record).outcome =
        Step.runTopLevel fuel resolved machine ∧
      ∀ event ∈ (Chronicle.runTopLevel fuel resolved machine record).record.events,
        event.KeepsSuper) ∧
    ∀ stmt ∈ resolved,
      (Chronicle.result fuel stmt machine record).outcome = result fuel stmt machine ∧
      ∀ event ∈ (Chronicle.result fuel stmt machine record).record.events, event.KeepsSuper := by
  refine ⟨⟨Chronicle.runTopLevel_records fuel resolved machine record, fun event member => ?_⟩,
    fun stmt listed => ⟨Chronicle.result_records fuel stmt machine record, fun event member => ?_⟩⟩
  · exact (session.truthful_runTopLevel ordinary resolves fuel event member).keepsSuper
  · exact (session.truthful_result ordinary resolves fuel listed event member).keepsSuper

/-- A function in a method of `B`, called on an instance of `C`, after `A` was bound to something else:
`super` is the class 0 that the declaration of `B` came to. -/
theorem keeps_super_rebound :
    let tokens : List Token := [⟨.keyword .kwClass, 1⟩, ⟨.identifier "A", 1⟩,
      ⟨.symbol .leftBrace, 1⟩, ⟨.identifier "m", 1⟩, ⟨.symbol .leftParen, 1⟩,
      ⟨.symbol .rightParen, 1⟩, ⟨.symbol .leftBrace, 1⟩, ⟨.keyword .kwReturn, 1⟩, ⟨.text "A", 1⟩,
      ⟨.symbol .rightBrace, 1⟩, ⟨.symbol .rightBrace, 1⟩, ⟨.keyword .kwClass, 2⟩,
      ⟨.identifier "B", 2⟩, ⟨.symbol .less, 2⟩, ⟨.identifier "A", 2⟩, ⟨.symbol .leftBrace, 2⟩,
      ⟨.identifier "t", 2⟩, ⟨.symbol .leftParen, 2⟩, ⟨.symbol .rightParen, 2⟩,
      ⟨.symbol .leftBrace, 2⟩, ⟨.keyword .kwFun, 2⟩, ⟨.identifier "f", 2⟩, ⟨.symbol .leftParen, 2⟩,
      ⟨.symbol .rightParen, 2⟩, ⟨.symbol .leftBrace, 2⟩, ⟨.keyword .kwReturn, 2⟩,
      ⟨.keyword .kwSuper, 2⟩, ⟨.symbol .dot, 2⟩, ⟨.identifier "m", 2⟩, ⟨.symbol .leftParen, 2⟩,
      ⟨.symbol .rightParen, 2⟩, ⟨.symbol .rightBrace, 2⟩, ⟨.keyword .kwReturn, 2⟩,
      ⟨.identifier "f", 2⟩, ⟨.symbol .leftParen, 2⟩, ⟨.symbol .rightParen, 2⟩,
      ⟨.symbol .rightBrace, 2⟩, ⟨.symbol .rightBrace, 2⟩, ⟨.keyword .kwClass, 3⟩,
      ⟨.identifier "C", 3⟩, ⟨.symbol .less, 3⟩, ⟨.identifier "B", 3⟩, ⟨.symbol .leftBrace, 3⟩,
      ⟨.identifier "m", 3⟩, ⟨.symbol .leftParen, 3⟩, ⟨.symbol .rightParen, 3⟩,
      ⟨.symbol .leftBrace, 3⟩, ⟨.keyword .kwReturn, 3⟩, ⟨.text "C", 3⟩, ⟨.symbol .rightBrace, 3⟩,
      ⟨.symbol .rightBrace, 3⟩, ⟨.identifier "A", 4⟩, ⟨.symbol .equal, 4⟩, ⟨.keyword .kwNil, 4⟩,
      ⟨.identifier "print", 5⟩, ⟨.symbol .leftParen, 5⟩, ⟨.identifier "C", 5⟩,
      ⟨.symbol .leftParen, 5⟩, ⟨.symbol .rightParen, 5⟩, ⟨.symbol .dot, 5⟩, ⟨.identifier "t", 5⟩,
      ⟨.symbol .leftParen, 5⟩, ⟨.symbol .rightParen, 5⟩, ⟨.symbol .rightParen, 5⟩, ⟨.endOfInput, 6⟩]
    let told := fun resolved => Chronicle.runTopLevel 30 resolved
      (.initial .unlimited fun _ => .zero) ⟨[], []⟩
    ∃ resolved, (∀ token ∈ tokens, token.kind.IsOrdinary) ∧
      Stmt.resolveTopLevel (Program.parse tokens).statements = .ok resolved ∧
      (∀ event ∈ (told resolved).record.events, event.KeepsSuper) ∧
      .super (some ⟨some 0, 0⟩) ⟨"m", 2⟩ ∈ (told resolved).record.events.map (·.occasion) ∧
      (told resolved).outcome.machine?.map (·.output.written.data) = some "A".toUTF8.data := by
  intro tokens told
  have ordinary : ∀ token ∈ tokens, token.kind.IsOrdinary := by decide
  have ended : ((Stmt.resolveTopLevel (Program.parse tokens).statements).toOption.bind fun resolved =>
      (told resolved).outcome.machine?.map fun after =>
        (decide (.super (some ⟨some 0, 0⟩) ⟨"m", 2⟩ ∈ (told resolved).record.events.map (·.occasion)),
          after.output.written.data)) = some (true, "A".toUTF8.data) := by
    decide +kernel
  obtain ⟨resolved, given, ran⟩ := Option.bind_eq_some_iff.mp ended
  obtain ⟨after, left, same⟩ := Option.map_eq_some_iff.mp ran
  obtain ⟨listed, written⟩ := Prod.mk.inj same
  have resolves := Except.eq_ok_of_toOption given
  have kept := keeps_super (.initial .unlimited fun _ => .zero) ordinary resolves 30
  refine ⟨resolved, ordinary, resolves, kept.1.2, of_decide_eq_true listed, ?_⟩
  rw [left]
  exact congrArg some written

/-- In every run of a program that resolves, a call of a class that does not fail gives an instance of
that very class that was not there before the call, and a call of an initializer that does not fail gives
the instance that it is bound to, whatever its body does and returns, and whichever way the initializer
was come by. -/
theorem constructs (session : Chronicles machine record)
    (ordinary : ∀ token ∈ tokens, token.kind.IsOrdinary)
    (resolves : Stmt.resolveTopLevel (Program.parse tokens).statements = .ok resolved) (fuel : Nat) :
    ((Chronicle.runTopLevel fuel resolved machine record).outcome =
        Step.runTopLevel fuel resolved machine ∧
      ∀ event ∈ (Chronicle.runTopLevel fuel resolved machine record).record.events,
        event.Constructs) ∧
    ∀ stmt ∈ resolved,
      (Chronicle.result fuel stmt machine record).outcome = result fuel stmt machine ∧
      ∀ event ∈ (Chronicle.result fuel stmt machine record).record.events, event.Constructs := by
  refine ⟨⟨Chronicle.runTopLevel_records fuel resolved machine record, fun event member => ?_⟩,
    fun stmt listed => ⟨Chronicle.result_records fuel stmt machine record, fun event member => ?_⟩⟩
  · exact (session.truthful_runTopLevel ordinary resolves fuel event member).constructs
  · exact (session.truthful_result ordinary resolves fuel listed event member).constructs

/-- An initializer that is inherited, calls that of the superclass, returns a text, and is called once
more from a variable. -/
theorem constructs_inherited :
    let tokens : List Token := [⟨.keyword .kwClass, 1⟩, ⟨.identifier "A", 1⟩,
      ⟨.symbol .leftBrace, 1⟩, ⟨.identifier "init", 1⟩, ⟨.symbol .leftParen, 1⟩,
      ⟨.symbol .rightParen, 1⟩, ⟨.symbol .leftBrace, 1⟩, ⟨.keyword .kwReturn, 1⟩, ⟨.text "r", 1⟩,
      ⟨.symbol .rightBrace, 1⟩, ⟨.symbol .rightBrace, 1⟩, ⟨.keyword .kwClass, 2⟩,
      ⟨.identifier "B", 2⟩, ⟨.symbol .less, 2⟩, ⟨.identifier "A", 2⟩, ⟨.symbol .leftBrace, 2⟩,
      ⟨.identifier "init", 2⟩, ⟨.symbol .leftParen, 2⟩, ⟨.symbol .rightParen, 2⟩,
      ⟨.symbol .leftBrace, 2⟩, ⟨.keyword .kwSuper, 2⟩, ⟨.symbol .dot, 2⟩, ⟨.identifier "init", 2⟩,
      ⟨.symbol .leftParen, 2⟩, ⟨.symbol .rightParen, 2⟩, ⟨.keyword .kwReturn, 2⟩, ⟨.text "s", 2⟩,
      ⟨.symbol .rightBrace, 2⟩, ⟨.symbol .rightBrace, 2⟩, ⟨.keyword .kwClass, 3⟩,
      ⟨.identifier "C", 3⟩, ⟨.symbol .less, 3⟩, ⟨.identifier "B", 3⟩, ⟨.symbol .leftBrace, 3⟩,
      ⟨.symbol .rightBrace, 3⟩, ⟨.keyword .kwVar, 4⟩, ⟨.identifier "c", 4⟩, ⟨.symbol .equal, 4⟩,
      ⟨.identifier "C", 4⟩, ⟨.symbol .leftParen, 4⟩, ⟨.symbol .rightParen, 4⟩, ⟨.keyword .kwVar, 4⟩,
      ⟨.identifier "again", 4⟩, ⟨.symbol .equal, 4⟩, ⟨.identifier "c", 4⟩, ⟨.symbol .dot, 4⟩,
      ⟨.identifier "init", 4⟩, ⟨.identifier "print", 5⟩, ⟨.symbol .leftParen, 5⟩,
      ⟨.identifier "again", 5⟩, ⟨.symbol .leftParen, 5⟩, ⟨.symbol .rightParen, 5⟩,
      ⟨.symbol .equalEqual, 5⟩, ⟨.identifier "c", 5⟩, ⟨.symbol .rightParen, 5⟩, ⟨.endOfInput, 6⟩]
    let told := fun resolved => Chronicle.runTopLevel 20 resolved
      (.initial .unlimited fun _ => .zero) ⟨[], []⟩
    ∃ resolved, (∀ token ∈ tokens, token.kind.IsOrdinary) ∧
      Stmt.resolveTopLevel (Program.parse tokens).statements = .ok resolved ∧
      (∀ event ∈ (told resolved).record.events, event.Constructs) ∧
      .classCall 2 ∈ (told resolved).record.events.map (·.occasion) ∧
      .functionCall (.bound initializerName ⟨some 0, 0⟩) ∈
        (told resolved).record.events.map (·.occasion) ∧
      (told resolved).outcome.machine?.map (·.output.written.data) = some "true".toUTF8.data := by
  intro tokens told
  have ordinary : ∀ token ∈ tokens, token.kind.IsOrdinary := by decide
  have ended : ((Stmt.resolveTopLevel (Program.parse tokens).statements).toOption.bind fun resolved =>
      (told resolved).outcome.machine?.map fun after =>
        (decide (.classCall 2 ∈ (told resolved).record.events.map (·.occasion) ∧
          .functionCall (.bound initializerName ⟨some 0, 0⟩) ∈
            (told resolved).record.events.map (·.occasion)),
          after.output.written.data)) = some (true, "true".toUTF8.data) := by
    decide +kernel
  obtain ⟨resolved, given, ran⟩ := Option.bind_eq_some_iff.mp ended
  obtain ⟨after, left, same⟩ := Option.map_eq_some_iff.mp ran
  obtain ⟨listed, written⟩ := Prod.mk.inj same
  have resolves := Except.eq_ok_of_toOption given
  have kept := constructs (.initial .unlimited fun _ => .zero) ordinary resolves 20
  refine ⟨resolved, ordinary, resolves, kept.1.2, (of_decide_eq_true listed).1,
    (of_decide_eq_true listed).2, ?_⟩
  rw [left]
  exact congrArg some written

/-- Whatever text is run with its names resolved, the machine afterwards has a record. -/
theorem answer {fuel : Nat} {keepsResults : Bool} {source : String} {answer : Answer}
    (session : Chronicles machine record)
    (answered : Session.answer fuel ⟨true, keepsResults⟩ source machine = some answer) :
    ∃ later, Chronicles answer.machine later := by
  have ordinary : ∀ token ∈ Scan.tokens source, token.kind.IsOrdinary :=
    fun _ => Scan.isOrdinary_of_mem_tokens
  refine answer_induction (∃ later, Chronicles · later) ⟨record, session⟩ ?_ ?_ answered
  · intro stmts resolves after ran
    exact ⟨_, session.program ordinary resolves ran⟩
  · rintro stmts resolves stmt member before after ⟨known, between⟩ ran
    exact ⟨_, between.statement ordinary resolves member ran⟩

end Session.Chronicles

end Lox
