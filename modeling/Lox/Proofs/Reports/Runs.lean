import Lox.Run

/-!
# How a report is put together

What is reported about a text is first what was wrong in reading it, and then what was wrong with its
names or what came of running it. The status is the worst of it.
-/

namespace Lox

theorem Diagnostic.isRuntime_iff {diagnostic : Diagnostic} :
    diagnostic.isRuntime = true ↔ ∃ error, diagnostic = .runtime error := by
  cases diagnostic <;> simp [isRuntime]

/-! ## Statuses -/

namespace Status

variable {diagnostics : List Diagnostic}

theorem any_isRuntime_iff :
    diagnostics.any Diagnostic.isRuntime = true ↔ ∃ error, .runtime error ∈ diagnostics := by
  simp only [List.any_eq_true, Diagnostic.isRuntime_iff]
  constructor
  · rintro ⟨_, member, error, rfl⟩
    exact ⟨error, member⟩
  · rintro ⟨error, member⟩
    exact ⟨_, member, error, rfl⟩

theorem ofDiagnostics_eq_runtimeError_iff :
    ofDiagnostics diagnostics = .runtimeError ↔ ∃ error, .runtime error ∈ diagnostics := by
  rw [← any_isRuntime_iff]
  unfold ofDiagnostics
  split
  · exact ⟨fun _ => ‹_›, fun _ => rfl⟩
  · split <;> exact ⟨nofun, fun runtime => absurd runtime ‹_›⟩

theorem ofDiagnostics_eq_ok_iff : ofDiagnostics diagnostics = .ok ↔ diagnostics = [] := by
  cases diagnostics with
  | nil => exact ⟨fun _ => rfl, fun _ => rfl⟩
  | cons first rest =>
    unfold ofDiagnostics
    refine ⟨fun ok => ?_, nofun⟩
    split at ok <;> cases ok

theorem ofDiagnostics_eq_staticError_iff : ofDiagnostics diagnostics = .staticError ↔
    (¬∃ error, .runtime error ∈ diagnostics) ∧ diagnostics ≠ [] := by
  rw [← ofDiagnostics_eq_runtimeError_iff, ne_eq, ← ofDiagnostics_eq_ok_iff]
  cases ofDiagnostics diagnostics <;> decide

end Status

/-! ## Runs -/

namespace Machine

variable {machine after : Machine} {fuel : Nat} {stmts : List (Stmt Binding)}
  {diagnostics : List Diagnostic}

/-- The statements ran to their end or to an error, and then the output was flushed. -/
theorem interpret_eq_some_iff : machine.interpret fuel stmts = some (after, diagnostics) ↔
    (Step.runTopLevel fuel stmts machine = .finished () after ∧ diagnostics = after.flush) ∨
      ∃ error, Step.runTopLevel fuel stmts machine = .failed error after ∧
        diagnostics = .runtime error :: after.flush := by
  unfold interpret
  cases Step.runTopLevel fuel stmts machine with
  | finished result later =>
    refine ⟨fun ends => ?_, ?_⟩
    · cases ends
      exact .inl ⟨rfl, rfl⟩
    · rintro (⟨ran, rfl⟩ | ⟨error, ran, rfl⟩) <;> cases ran
      rfl
  | failed error later =>
    refine ⟨fun ends => ?_, ?_⟩
    · cases ends
      exact .inr ⟨error, rfl, rfl⟩
    · rintro (⟨ran, rfl⟩ | ⟨error, ran, rfl⟩) <;> cases ran
      rfl
  | outOfFuel => exact ⟨nofun, fun ended => by obtain ⟨ran, _⟩ | ⟨_, ran, _⟩ := ended <;> cases ran⟩

end Machine

section

variable {fuel : Nat} {clock : Nat → Number} {output : Output} {source : String}

theorem run_of_error {errors : List StaticError}
    (clash : Stmt.resolveTopLevel (Reading.ofSource source).statements = .error errors) :
    run fuel clock output source =
      some ⟨output, (Reading.ofSource source).diagnostics ++ errors.map .binding⟩ := by
  simp only [run, clash]

theorem run_of_ok {stmts : List (Stmt Binding)}
    (resolves : Stmt.resolveTopLevel (Reading.ofSource source).statements = .ok stmts) :
    run fuel clock output source = ((Machine.initial output clock).interpret fuel stmts).map
      fun (after, diagnostics) =>
        ⟨after.output, (Reading.ofSource source).diagnostics ++ diagnostics⟩ := by
  simp only [run, resolves]
  cases (Machine.initial output clock).interpret fuel stmts <;> rfl

end

end Lox
