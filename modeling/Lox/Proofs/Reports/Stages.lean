import Lox.CommandLine
import Lox.Proofs.Reports.Runs
import Lox.Proofs.Reports.Scanning
import Lox.Proofs.Writing.Limits

/-!
# Stages of a report

A text is scanned, parsed, resolved and run, and whatever a stage has to report comes after what the
stages before it reported. The commands stop after different stages, so what one of them reports is
where the next one begins.
-/

namespace Lox

/-! ## The flush -/

theorem Output.flushFails_write (output : Output) (bytes : ByteArray) :
    (output.write bytes).1.flushFails = output.flushFails := by
  unfold Output.write
  split
  · rfl
  · split <;> rfl

namespace Plan

variable {α : Type}

/-- What a plan leaves can be flushed if and only if it could be before. -/
def FlushesAlike (machine : Machine) (outcome : Outcome α) : Prop :=
  outcome.Ends (fun after => after.output.flushFails = machine.output.flushFails) (fun _ => True)
    fun _ => True

theorem flushesAlike_of_silent {machine : Machine} {outcome : Outcome α}
    (silent : outcome = outcome.mapMachine (·.writingTo machine.output)) :
    FlushesAlike machine outcome := by
  cases outcome with
  | finished result after => exact ⟨congrArg Output.flushFails (output_of_silent silent rfl), trivial⟩
  | failed error after => exact ⟨congrArg Output.flushFails (output_of_silent silent rfl), trivial⟩
  | outOfFuel => trivial

theorem callNative_flushesAlike (id : NativeId) (arguments : List Value) (paren : Token)
    (machine : Machine) : FlushesAlike machine (Step.callNative id arguments paren machine) := by
  obtain silent | ⟨native, text, _, _, _, writes⟩ := Step.callNative_cases id arguments paren machine
  · exact flushesAlike_of_silent (silent machine.output)
  · have same := Output.flushFails_write machine.output text.toUTF8
    refine writes machine.output ▸ ?_
    rw [Step.write_nil_eq, Machine.output_writingTo]
    cases written : machine.output.write text.toUTF8 with
    | mk output fits =>
      rw [written] at same
      cases fits with
      | true => exact ⟨same, trivial⟩
      | false => exact ⟨same, trivial⟩

theorem WritesInCalls.flushesAlike {plan : Plan α} (writes : plan.WritesInCalls) (machine : Machine) :
    FlushesAlike machine (plan.run machine) := by
  induction writes generalizing machine with
  | pure result => exact ⟨rfl, trivial⟩
  | outOfFuel => trivial
  | fail problem token => exact ⟨rfl, trivial⟩
  | silent silent => exact flushesAlike_of_silent (silent machine machine.output)
  | native id arguments line => exact callNative_flushesAlike id arguments _ machine
  | function? id => exact ⟨rfl, trivial⟩
  | close name lambda isInitializer => exact ⟨rfl, trivial⟩
  | bind _ _ ihFirst ihRest =>
    refine Step.ends_bind (ihFirst machine) fun result middle same _ => ?_
    exact (ihRest result middle).mono fun after further => further.trans same
  | inScope _ ih => exact Step.ends_inScope (ih machine.enter) fun _ same => same
  | inCall closure arguments paren _ ih =>
    exact ends_inCall ⟨rfl, trivial⟩ (ih (machine.enterCall closure arguments)) fun _ same => same

end Plan

/-- What a program leaves can be flushed if and only if it could be before. -/
theorem Machine.flush_of_runTopLevel {machine after : Machine} {fuel : Nat}
    {stmts : List (Stmt Binding)}
    (left : (Step.runTopLevel fuel stmts machine).machine? = some after) :
    after.flush = machine.flush := by
  have alike := (Plan.runTopLevel_writes fuel stmts).flushesAlike machine
  rw [Plan.runTopLevel_run] at alike
  unfold flush
  rw [alike.of_machine? left]

/-! ## Runs -/

namespace Report

/-- How the report of a text is put together: after what could not be scanned and what could not be
parsed comes either what is wrong with the names, and then nothing was run and nothing flushed, or the
error that ended the program, if there was one, and that of the flush, if it failed. -/
inductive Stages (source : String) (given : Output) : Report → Prop where
  | stopped (errors : List StaticError) : errors ≠ [] →
      Stages source given ⟨given, (Scan.errors source).map .lexical ++
        (Program.parse (Scan.tokens source)).errors.map .grammatical ++ errors.map .binding⟩
  | ran (output : Output) (failure : Option RuntimeError) :
      Stages source given ⟨output, (Scan.errors source).map .lexical ++
        (Program.parse (Scan.tokens source)).errors.map .grammatical ++
        (failure.toList.map .runtime ++
          if given.flushFails then [.host Machine.flushFailure] else [])⟩

end Report

theorem Stmt.errors_ne_nil {stmts : List (Stmt Unit)} {errors : List StaticError}
    (clash : Stmt.resolveTopLevel stmts = .error errors) : errors ≠ [] := by
  induction stmts generalizing errors with
  | nil => cases clash
  | cons stmt rest ih =>
    simp only [Stmt.resolveTopLevel] at clash
    split at clash
    · cases clash
    · next clashRest =>
      cases clash
      exact ih clashRest
    · cases clash
      exact List.cons_ne_nil _ _
    · cases clash
      exact List.cons_ne_nil _ _

theorem run_stages {fuel : Nat} {clock : Nat → Number} {output : Output} {source : String}
    {report : Report} (runs : run fuel clock output source = some report) :
    report.Stages source output := by
  cases resolves : Stmt.resolveTopLevel (Reading.ofSource source).statements with
  | error errors =>
    rw [run_of_error resolves] at runs
    cases runs
    exact .stopped errors (Stmt.errors_ne_nil resolves)
  | ok stmts =>
    rw [run_of_ok resolves, Option.map_eq_some_iff] at runs
    obtain ⟨⟨after, diagnostics⟩, ends, rfl⟩ := runs
    obtain ⟨ran, rfl⟩ | ⟨error, ran, rfl⟩ := Machine.interpret_eq_some_iff.mp ends
    · rw [Machine.flush_of_runTopLevel (congrArg Outcome.machine? ran)]
      exact .ran after.output none
    · rw [Machine.flush_of_runTopLevel (congrArg Outcome.machine? ran)]
      exact .ran after.output (some error)

/-! ## Commands -/

namespace CommandLine

/-- The command reports these diagnostics, each on lines of its own, and exits accordingly. -/
structure Transcript.Reports (transcript : Transcript) (diagnostics : List Diagnostic) : Prop where
  errors : transcript.errors = String.join (diagnostics.map fun d => d.text ++ "\n")
  exitCode : transcript.exitCode = (Status.ofDiagnostics diagnostics).exitCode

theorem listing_reports (output : String) (diagnostics : List Diagnostic) :
    (listing output diagnostics).Reports diagnostics := ⟨rfl, rfl⟩

namespace Transcript.Reports

variable {transcript : Transcript} {diagnostics : List Diagnostic}

/-- Something is reported if and only if something is written to report it. -/
theorem errors_ne_empty_iff (reports : transcript.Reports diagnostics) :
    transcript.errors ≠ "" ↔ diagnostics ≠ [] := by
  rw [reports.errors]
  cases diagnostics with
  | nil => exact ⟨fun some => absurd rfl some, fun some => absurd rfl some⟩
  | cons first rest =>
    refine ⟨fun _ => List.cons_ne_nil _ _, fun _ => ?_⟩
    rw [List.map_cons, String.join_cons, ne_eq, String.append_eq_empty_iff,
      String.append_eq_empty_iff]
    exact fun empty => absurd empty.1.2 (by decide)

theorem exitCode_ne_zero (reports : transcript.Reports diagnostics) (some : diagnostics ≠ []) :
    transcript.exitCode = 65 ∨ transcript.exitCode = 70 := by
  rw [reports.exitCode]
  cases worst : Status.ofDiagnostics diagnostics with
  | ok => exact absurd (Status.ofDiagnostics_eq_ok_iff.mp worst) some
  | staticError => exact .inl rfl
  | runtimeError => exact .inr rfl

/-- What is wrong with a text before it runs gives 65 for an exit code. -/
theorem exitCode_iff (reports : transcript.Reports diagnostics)
    (static : ¬∃ error, .runtime error ∈ diagnostics) :
    transcript.exitCode = 65 ↔ transcript.errors ≠ "" := by
  rw [reports.errors_ne_empty_iff]
  constructor
  · rintro failed rfl
    rw [reports.exitCode] at failed
    cases failed
  · intro some
    rw [reports.exitCode, Status.ofDiagnostics_eq_staticError_iff.mpr ⟨static, some⟩]
    rfl

end Transcript.Reports

theorem tokenize_reports (source : String) (json : Bool) :
    (tokenize json source).Reports ((Scan.errors source).map .lexical) := listing_reports _ _

theorem parse_reports (source : String) (json : Bool) :
    (parse json source).Reports (Reading.ofSource source).diagnostics := listing_reports _ _

theorem not_runtime_reading {source : String} :
    ¬∃ error, .runtime error ∈ (Reading.ofSource source).diagnostics := by
  rintro ⟨error, member⟩
  obtain lexical | grammatical := List.mem_append.mp member
  · obtain ⟨_, _, same⟩ := List.mem_map.mp lexical
    cases same
  · obtain ⟨_, _, same⟩ := List.mem_map.mp grammatical
    cases same

end CommandLine

/-- What was wrong in reading a text comes first. -/
theorem Report.Stages.reading_isPrefix {source : String} {given : Output} {report : Report}
    (stages : report.Stages source given) :
    (Reading.ofSource source).diagnostics <+: report.diagnostics := by
  cases stages with
  | stopped errors some => exact List.prefix_append _ _
  | ran output failure => exact List.prefix_append _ _

/-- The stages of a text, as a run reports them and as the commands do. -/
theorem stages_of_source (source : String) :
    Scan.InSourceOrder source.toList (Scan.errors source) ∧
    (∀ fuel clock output report, run fuel clock output source = some report →
      report.Stages source output ∧
      (report.status = .runtimeError ↔ ∃ error, .runtime error ∈ report.diagnostics) ∧
      (report.status = .staticError ↔
        (¬∃ error, .runtime error ∈ report.diagnostics) ∧ report.diagnostics ≠ []) ∧
      (report.status = .ok ↔ report.diagnostics = [])) ∧
    let lexical := (Scan.errors source).map Diagnostic.lexical
    let parsed := lexical ++ (Program.parse (Scan.tokens source)).errors.map .grammatical
    lexical <+: parsed ∧ ∀ json,
      (CommandLine.tokenize json source).Reports lexical ∧
      ((CommandLine.tokenize json source).exitCode = 65 ↔
        (CommandLine.tokenize json source).errors ≠ "") ∧
      (CommandLine.parse json source).Reports parsed ∧
      ((CommandLine.parse json source).exitCode = 65 ↔
        (CommandLine.parse json source).errors ≠ "") ∧
      ∀ fuel clock transcript, CommandLine.Action.run.perform fuel clock source = some transcript →
        ∃ report, run fuel clock .unlimited source = some report ∧
          transcript.Reports report.diagnostics ∧ parsed <+: report.diagnostics ∧
          ((CommandLine.parse json source).exitCode = 65 →
            transcript.exitCode = 65 ∨ transcript.exitCode = 70) := by
  refine ⟨Scan.errors_inSourceOrder source, fun fuel clock output report runs =>
    ⟨run_stages runs, Status.ofDiagnostics_eq_runtimeError_iff,
      Status.ofDiagnostics_eq_staticError_iff, Status.ofDiagnostics_eq_ok_iff⟩,
    List.prefix_append _ _, fun json => ?_⟩
  have tokenized := CommandLine.tokenize_reports source json
  have parsed := CommandLine.parse_reports source json
  have parsedExit := parsed.exitCode_iff CommandLine.not_runtime_reading
  refine ⟨tokenized, tokenized.exitCode_iff fun ⟨error, member⟩ =>
    CommandLine.not_runtime_reading ⟨error, List.mem_append_left _ member⟩, parsed, parsedExit, ?_⟩
  intro fuel clock transcript performed
  obtain ⟨report, runs, rfl⟩ := Option.map_eq_some_iff.mp performed
  -- A run reports all that a parse does, so it is no more silent than that.
  have longer := (run_stages runs).reading_isPrefix
  have reports : CommandLine.Transcript.Reports ⟨report.output.written, _, report.status.exitCode⟩
    report.diagnostics := ⟨rfl, rfl⟩
  refine ⟨report, runs, reports, longer, fun failed => reports.exitCode_ne_zero fun silent => ?_⟩
  rw [silent, List.prefix_nil] at longer
  exact parsed.errors_ne_empty_iff.mp (parsedExit.mp failed) longer

/-- A text with something wrong at every stage but one, and an output that cannot be flushed. -/
theorem stages_of_source_mixed :
    let source := "# println(true) var; nil()"
    let given : Output := .empty none true
    ∃ report transcript, run 20 (fun _ => .zero) given source = some report ∧
      report.diagnostics.length = 4 ∧ report.Stages source given ∧ report.status = .runtimeError ∧
      CommandLine.Action.run.perform 20 (fun _ => .zero) source = some transcript ∧
      (CommandLine.parse false source).exitCode = 65 ∧ transcript.exitCode = 70 := by
  intro source given
  have ended : (run 20 (fun _ => .zero) given source).map (fun report =>
      (report.diagnostics.length, report.diagnostics.any Diagnostic.isRuntime)) =
        some (4, true) := by
    decide +kernel
  have performed : (CommandLine.Action.run.perform 20 (fun _ => .zero) source).map
      (·.exitCode) = some 70 := by
    decide +kernel
  obtain ⟨report, runs, same⟩ := Option.map_eq_some_iff.mp ended
  obtain ⟨count, runtime⟩ := Prod.mk.inj same
  obtain ⟨transcript, performs, exitCode⟩ := Option.map_eq_some_iff.mp performed
  obtain ⟨_, reported, _, commands⟩ := stages_of_source source
  obtain ⟨stages, failed, _⟩ := reported _ _ _ _ runs
  obtain ⟨_, _, _, parsed, _⟩ := commands false
  exact ⟨report, transcript, runs, count, stages, failed.mpr (Status.any_isRuntime_iff.mp runtime),
    performs, parsed.mpr (by decide +kernel), exitCode⟩

end Lox
