import Lox.Proofs.Lexical.Runs
import Lox.Proofs.Scoping.Sessions

/-!
# Distances implement lexical scoping

A program whose names were resolved to distances, run on a machine with frames, comes to what its
text means: to the same output and the same errors, on the same fuel.
-/

namespace Lox

namespace Lexical

variable {moment : Moment} {fuel : Nat}

/-! ## Before a program -/

theorem Mirror.install {native : Native} (mirror : Mirror moment) :
    Mirror { moment with
      machine := moment.machine.install native
      state := moment.state.install native } := by
  have grows : moment.machine.heap.environment.Grows (fun frame => frame = Heap.globals)
      (moment.machine.heap.environment.define Heap.globals native.name
        (.native moment.machine.heap.natives.size)) :=
    .define mirror.stored.root (.inl rfl)
  have stored : Stored (moment.machine.heap.environment.define Heap.globals native.name
      (.native moment.machine.heap.natives.size)) moment.places moment.state.cells
      (moment.state.globals.set native.name (.native moment.state.natives.size)) := by
    rw [mirror.natives]
    exact mirror.stored.setGlobal
  exact { mirror with
    stored := stored
    twins := mirror.twins.grows grows List.prefix_rfl
    natives := congrArg (·.push native) mirror.natives }

/-- A machine and a state in which nothing but the standard routines is installed. -/
def Moment.initial (output : Output) (clock : Nat → Number) : Moment :=
  ⟨.initial output clock, [], .initial output clock, []⟩

theorem Mirror.initial (output : Output) (clock : Nat → Number) :
    Mirror (.initial output clock) := by
  have empty : Mirror ⟨⟨Heap.empty, Heap.globals, 0, output, clock, 0⟩, [], .empty output clock,
      []⟩ :=
    ⟨.empty, ⟨rfl, rfl, nofun⟩, rfl, rfl, rfl, rfl, rfl, rfl, rfl⟩
  exact empty.install.install.install

theorem Standing.initial (output : Output) (clock : Nat → Number) :
    Standing .topLevel (.initial output clock) :=
  ⟨rfl, .nil, nofun, Surroundings.proper_topLevel⟩

/-! ## Whole programs -/

/-- No statement at the top level leaves a name in any scope. -/
theorem follows_runTopLevel (fuel : Nat) {stmts : List (Stmt Unit)}
    (ordinary : Ordinary (Stmt.writtenEach stmts))
    (standing : Standing .topLevel moment) (mirror : Mirror moment) :
    Follows True moment (Watch.runTopLevel fuel stmts) (runTopLevel fuel stmts)
      fun _ _ => True := by
  induction stmts generalizing moment with
  | nil => exact follows_pure mirror trivial
  | cons stmt rest ih =>
    rw [Stmt.writtenEach, Ordinary.append] at ordinary
    refine follows_bind id ((following fuel).execute ordinary.1 standing mirror) ?_
    intro flow next mirrorNext _ left
    cases flow with
    | normal =>
      -- At the top level a declaration adds to the globals, which the surroundings do not list.
      have again : Standing .topLevel next := by
        cases declared : stmt.declaredName? <;> rw [declared] at left <;> exact left
      exact ih ordinary.2 again mirrorNext
    | _ => exact follows_fail mirrorNext

/-- A run that does not go astray ends as the lexical run that follows it. -/
theorem interpret_eq_of_follows {stmts : List (Stmt Unit)} {resolved : List (Stmt Binding)}
    (follows : Follows True moment (Watch.runTopLevel fuel stmts) (runTopLevel fuel stmts)
      fun _ _ => True)
    (agreed : (Watch.runTopLevel fuel stmts moment.machine moment.origins).outcome? =
      some (Step.runTopLevel fuel resolved moment.machine)) :
    (moment.machine.interpret fuel resolved).map (fun ending => (ending.1.output, ending.2)) =
      interpret fuel stmts moment.state := by
  simp only [Follows] at follows
  cases watched : Watch.runTopLevel fuel stmts moment.machine moment.origins with
  | finished result machine origins =>
    rw [watched] at follows agreed
    obtain ⟨state, places, ends, mirror, _⟩ := follows
    have output : state.output = machine.output := mirror.output
    simp only [Machine.interpret, interpret, ends, ← Option.some.inj agreed, Option.map_some,
      Machine.flush, State.flush, output]
  | failed error machine origins =>
    rw [watched] at follows agreed
    obtain ⟨state, places, ends, mirror, _⟩ := follows
    have output : state.output = machine.output := mirror.output
    simp only [Machine.interpret, interpret, ends, ← Option.some.inj agreed, Option.map_some,
      Machine.flush, State.flush, output]
  | outOfFuel =>
    rw [watched] at follows agreed
    have ends : runTopLevel fuel stmts moment.state = .outOfFuel := follows
    simp only [Machine.interpret, interpret, ends, ← Option.some.inj agreed, Option.map_none]
  | astray =>
    rw [watched] at agreed
    cases agreed

/-- The names in a program are those of the tokens it was parsed from. -/
theorem ordinary_parse {tokens : List Token}
    (ordinary : ∀ token ∈ tokens, token.kind.IsOrdinary) :
    Ordinary (Stmt.writtenEach (Program.parse tokens).statements) := by
  intro kind member
  cases kind with
  | identifier name =>
    obtain ⟨token, there, spelled⟩ := Program.named_parse member
    exact spelled ▸ ordinary token there
  | _ => trivial

theorem interpret_of_ordinary {stmts : List (Stmt Unit)} {resolved : List (Stmt Binding)}
    (ordinary : Ordinary (Stmt.writtenEach stmts)) (shaped : Stmt.WellShapedEach stmts)
    (resolves : Stmt.resolveTopLevel stmts = .ok resolved) (fuel : Nat) (output : Output)
    (clock : Nat → Number) :
    ((Machine.initial output clock).interpret fuel resolved).map
        (fun ending => (ending.1.output, ending.2)) =
      interpret fuel stmts (.initial output clock) := by
  have follows := follows_runTopLevel fuel ordinary (.initial output clock) (.initial output clock)
  refine interpret_eq_of_follows follows ?_
  exact (Watch.agrees_runTopLevel (Watch.stands_initial output clock) resolves shaped).outcome?

/-- Whatever is parsed and resolves comes to what its text means, whatever it is given to write to
and to tell the time by. On any fuel the two end alike or are both out of fuel, so the one ends if
and only if the other does. -/
theorem interpret_eq {tokens : List Token} {resolved : List (Stmt Binding)}
    (ordinary : ∀ token ∈ tokens, token.kind.IsOrdinary)
    (resolves : Stmt.resolveTopLevel (Program.parse tokens).statements = .ok resolved)
    (fuel : Nat) (output : Output) (clock : Nat → Number) :
    ((Machine.initial output clock).interpret fuel resolved).map
        (fun ending => (ending.1.output, ending.2)) =
      interpret fuel (Program.parse tokens).statements (.initial output clock) :=
  interpret_of_ordinary (ordinary_parse ordinary) (Program.wellShaped_parse tokens) resolves fuel
    output clock

/-- A function that is called after a name it reads was declared again, in the block it is in. -/
theorem interpret_eq_redeclared :
    let tokens : List Token := [⟨.keyword .kwVar, 1⟩, ⟨.identifier "a", 1⟩, ⟨.symbol .equal, 1⟩,
      ⟨.text "g", 1⟩, ⟨.symbol .leftBrace, 1⟩, ⟨.keyword .kwFun, 1⟩, ⟨.identifier "f", 1⟩,
      ⟨.symbol .leftParen, 1⟩, ⟨.symbol .rightParen, 1⟩, ⟨.symbol .leftBrace, 1⟩,
      ⟨.identifier "print", 1⟩, ⟨.symbol .leftParen, 1⟩, ⟨.identifier "a", 1⟩,
      ⟨.symbol .rightParen, 1⟩, ⟨.symbol .rightBrace, 1⟩, ⟨.keyword .kwVar, 1⟩,
      ⟨.identifier "a", 1⟩, ⟨.symbol .equal, 1⟩, ⟨.text "b", 1⟩, ⟨.identifier "f", 1⟩,
      ⟨.symbol .leftParen, 1⟩, ⟨.symbol .rightParen, 1⟩, ⟨.symbol .rightBrace, 1⟩,
      ⟨.endOfInput, 2⟩]
    let state := State.initial .unlimited fun _ => .zero
    ∃ resolved, (∀ token ∈ tokens, token.kind.IsOrdinary) ∧
      Stmt.resolveTopLevel (Program.parse tokens).statements = .ok resolved ∧
      ((Machine.initial .unlimited fun _ => .zero).interpret 20 resolved).map
          (fun ending => (ending.1.output, ending.2)) =
        interpret 20 (Program.parse tokens).statements state ∧
      (interpret 20 (Program.parse tokens).statements state).map
        (fun ending => (ending.1.written.data, ending.2.length)) = some ("g".toUTF8.data, 0) :=
  ⟨_, by decide, rfl, interpret_eq (by decide) rfl 20 _ _, by decide +kernel⟩

/-- Every source text runs as its lexical semantics has it, whatever is wrong with it. -/
theorem run_eq (fuel : Nat) (clock : Nat → Number) (output : Output) (source : String) :
    Lox.run fuel clock output source = run fuel clock output source := by
  simp only [Lox.run, run]
  cases resolves : Stmt.resolveTopLevel (Reading.ofSource source).statements with
  | error errors => rfl
  | ok resolved =>
    have ordinary : ∀ token ∈ Scan.tokens source, token.kind.IsOrdinary :=
      fun _ => Scan.isOrdinary_of_mem_tokens
    have same : ((Machine.initial output clock).interpret fuel resolved).map _ =
        interpret fuel (Reading.ofSource source).statements (.initial output clock) :=
      interpret_of_ordinary (ordinary_parse ordinary) (Program.wellShaped_parse _) resolves fuel
        output clock
    simp only [← same]
    cases (Machine.initial output clock).interpret fuel resolved <;> rfl

end Lexical

end Lox
