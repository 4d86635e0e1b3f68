import Lox.Proofs.Reach.Evaluation
import Lox.Proofs.Reports.Runs
import Lox.Proofs.Writing.Limits

/-!
# Programs with limited output

A program that is run with an output that has room for so many bytes writes the first so many bytes
of what it would write otherwise. If that is all, nothing else is different; if not, the program ends
in the call of `print` or `println` whose text did not fit, with an error of the call and no other.
-/

namespace Lox

namespace Plan

variable {α : Type} {machine moment : Machine} {fuel calls : Nat} {stmts : List (Stmt Binding)}

/-- At every moment of a program the routines are those that it started with. -/
theorem Visits.natives {part : Plan α}
    (visits : (runTopLevel fuel stmts).Visits machine part moment calls) :
    moment.heap.natives = machine.heap.natives :=
  (visits.bounds (runTopLevel_stays fuel stmts) (Region.Bounds.refl (.whole machine.heap))
    fun _ => trivial).retains.natives

/-- Only printing writes. -/
theorem Crosses.prints {output : Output} {clock : Nat → Number} {limit line : Nat} {native : Native}
    (crosses : (runTopLevel fuel stmts).Crosses (.initial output clock) limit native line) :
    native = .print ∨ native = .println := by
  obtain ⟨id, arguments, text, moment, calls, visits, found, _, replied, _⟩ := crosses
  have installed : (Machine.initial output clock).heap.natives = #[.clock, .print, .println] := rfl
  rw [visits.natives, installed] at found
  match id, found with
  | 0, found =>
    cases found
    cases replied
  | 1, found =>
    cases found
    exact .inl rfl
  | 2, found =>
    cases found
    exact .inr rfl

end Plan

/-! ## Interpreting -/

namespace Machine

variable {machine after : Machine} {fuel : Nat} {stmts : List (Stmt Binding)}
  {diagnostics : List Diagnostic}

/-- What the statements write on a machine that has room for everything decides how they end with
less room. -/
theorem interpret_limitedTo (unlimited : machine.output.room = none)
    (ends : machine.interpret fuel stmts = some (after, diagnostics)) :
    ∃ more, after.output = machine.output.append more ∧ ∀ room,
      (more.size ≤ room → (machine.limitedTo room).interpret fuel stmts =
        some (after.limitedTo (room - more.size), diagnostics)) ∧
      (room < more.size → ∃ native line stopped,
        (machine.limitedTo room).interpret fuel stmts =
          some (stopped, .runtime ⟨.outputFull, Symbol.rightParen.token line⟩ :: stopped.flush) ∧
        stopped.output = ⟨machine.output.written ++ more.extract 0 room, some 0,
          machine.output.flushFails⟩ ∧
        (Plan.runTopLevel fuel stmts).Crosses machine (machine.output.written.size + room) native
          line) := by
  have truncates := (Plan.runTopLevel_writes fuel stmts).truncatesOn machine unlimited
  have left : ((Plan.runTopLevel fuel stmts).run machine).machine? = some after := by
    rw [Plan.runTopLevel_run]
    exact machine?_of_interpret ends
  obtain ⟨more, output, limits⟩ := truncates after left
  refine ⟨more, output, fun room => ⟨fun fits => ?_, fun less => ?_⟩⟩
  · have within := (limits room).within fits
    rw [Plan.runTopLevel_run] at within
    rw [interpret_eq_some_iff, within]
    obtain ⟨ran, rfl⟩ | ⟨error, ran, rfl⟩ := interpret_eq_some_iff.mp ends <;> rw [ran]
    · exact .inl ⟨rfl, rfl⟩
    · exact .inr ⟨error, rfl, rfl⟩
  · obtain ⟨native, line, stopped, failed, stoppedOutput, crosses⟩ := (limits room).beyond less
    rw [Plan.runTopLevel_run] at failed
    exact ⟨native, line, stopped, interpret_eq_some_iff.mpr (.inr ⟨_, failed, rfl⟩), stoppedOutput,
      crosses⟩

end Machine

/-! ## Whole runs -/

/-- The program of a source text comes to the first call whose text crosses the limit. -/
def CrossesLimit (fuel : Nat) (clock : Nat → Number) (flushFails : Bool) (source : String)
    (limit : Nat) (native : Native) (line : Nat) : Prop :=
  ∃ stmts, Stmt.resolveTopLevel (Reading.ofSource source).statements = .ok stmts ∧
    (Plan.runTopLevel fuel stmts).Crosses (.initial (.empty none flushFails) clock) limit native line

/-- A limit on the output cuts it off there, and does nothing else. -/
theorem run_limited {fuel : Nat} {clock : Nat → Number} {flushFails : Bool} {source : String}
    {report : Report} (runs : run fuel clock (.empty none flushFails) source = some report)
    (limit : Nat) :
    ∃ limited, run fuel clock (.empty (some limit) flushFails) source = some limited ∧
      limited.output.written = report.output.written.extract 0 limit ∧
      (report.output.written.size ≤ limit →
        limited.diagnostics = report.diagnostics ∧ limited.status = report.status) ∧
      (limit < report.output.written.size → ∃ native line,
        (native = .print ∨ native = .println) ∧
        CrossesLimit fuel clock flushFails source limit native line ∧
        limited.diagnostics = (Reading.ofSource source).diagnostics ++
          .runtime ⟨.outputFull, Symbol.rightParen.token line⟩ ::
            (if flushFails then [.host Machine.flushFailure] else []) ∧
        limited.status = .runtimeError) := by
  cases resolves : Stmt.resolveTopLevel (Reading.ofSource source).statements with
  | error errors =>
    rw [run_of_error resolves] at runs ⊢
    cases runs
    exact ⟨_, rfl, (extract_of_size_le (Nat.zero_le limit)).symm, fun _ => ⟨rfl, rfl⟩,
      fun less => absurd less (Nat.not_lt_zero limit)⟩
  | ok stmts =>
    rw [run_of_ok resolves, Option.map_eq_some_iff] at runs
    obtain ⟨⟨after, diagnostics⟩, ends, rfl⟩ := runs
    obtain ⟨more, output, limits⟩ := Machine.interpret_limitedTo rfl ends
    have written : after.output.written = more := by
      rw [output]
      exact ByteArray.empty_append
    -- Nothing is written before the program starts, so its limit is that of the output.
    have started : Machine.initial (.empty (some limit) flushFails) clock =
        (Machine.initial (.empty none flushFails) clock).limitedTo limit := rfl
    rw [run_of_ok resolves, started, written]
    by_cases fits : more.size ≤ limit
    · rw [(limits limit).1 fits]
      refine ⟨_, rfl, ?_, fun _ => ⟨rfl, rfl⟩, fun less => absurd fits (Nat.not_le_of_lt less)⟩
      rw [extract_of_size_le fits]
      exact written
    · obtain ⟨native, line, stopped, ended, stoppedOutput, crosses⟩ :=
        (limits limit).2 (Nat.lt_of_not_le fits)
      have all : (Machine.initial (.empty none flushFails) clock).output.written.size + limit =
          limit := Nat.zero_add limit
      rw [all] at crosses
      rw [ended]
      refine ⟨_, rfl, ?_, fun less => absurd less fits, fun _ =>
        ⟨native, line, crosses.prints, ⟨stmts, resolves, crosses⟩, ?_, ?_⟩⟩
      · simp only [stoppedOutput]
        exact ByteArray.empty_append
      · simp only [Machine.flush, stoppedOutput]
        rfl
      · exact Status.ofDiagnostics_eq_runtimeError_iff.mpr
          ⟨_, List.mem_append_right _ (List.mem_cons_self ..)⟩

/-- A function that has room for what it prints but not for the end of the line, in a text that ends
in a syntax error. -/
theorem run_limited_println :
    let source := "fun f() { println(true) } f() var"
    ∃ report limited, run 20 (fun _ => .zero) (.empty none false) source = some report ∧
      report.status = .staticError ∧
      run 20 (fun _ => .zero) (.empty (some 4) false) source = some limited ∧
      limited.output.written = "true".toUTF8 ∧ limited.status = .runtimeError := by
  intro source
  have ended : (run 20 (fun _ => .zero) (.empty none false) source).map (fun report =>
      (report.output.written.data, report.status)) = some ("true\n".toUTF8.data, .staticError) := by
    decide +kernel
  obtain ⟨report, runs, same⟩ := Option.map_eq_some_iff.mp ended
  obtain ⟨data, status⟩ := Prod.mk.inj same
  have written : report.output.written = "true\n".toUTF8 := ByteArray.ext data
  obtain ⟨limited, runsLimited, cut, _, overflows⟩ := run_limited runs 4
  rw [written] at cut overflows
  obtain ⟨_, _, _, _, _, failed⟩ := overflows (by decide)
  refine ⟨report, limited, runs, status, runsLimited, ?_, failed⟩
  rw [cut]
  exact ByteArray.ext (by decide +kernel)

end Lox
