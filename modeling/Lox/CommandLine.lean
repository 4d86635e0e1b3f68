import Lox.Run
import Lox.Text.Utf8
import Lox.Tree.Document
import Lox.Tree.Print

/-!
# The command line

```
tokenize FILE [--json]    list the tokens of a file
parse FILE [--json]       print the statements of a file
run FILE                  run a file
```

Each takes `--log` and `--log-file PATH` before the command word and after it, once on either side;
of two paths the one after it counts. With `--log`, the log file is made before the source file is
opened. What a command writes and how it ends is decided here, from the bytes of the file; opening
files is left to the program around it.
-/

namespace Lox.CommandLine

/-! ## Arguments -/

inductive Action where
  | tokenize (json : Bool)
  | parse (json : Bool)
  | run
  deriving DecidableEq, Repr

/-- What the arguments ask for. -/
structure Invocation where
  action : Action
  file : String
  /-- The log file to be made. -/
  log : Option String
  deriving DecidableEq, Repr

/-- The options that stand on one side of the command word. -/
structure Options where
  json : Bool
  log : Bool
  logFile : Option String
  deriving DecidableEq, Repr

def Options.empty : Options := ⟨false, false, none⟩

/-- Whether an argument has the form of an option. A hyphen alone names a file. -/
def isOption (argument : String) : Bool :=
  argument.startsWith "-" && argument ≠ "-"

/-- The path that is written in one with its option, as in `--log-file=PATH`. -/
def attachedPath? (argument : String) : Option String :=
  ("--log-file=".toList.isPrefixOf? argument.toList).map String.ofList

/-- The options with a path for the log file, which has to be the first one on its side. -/
def Options.nameLogFile? (options : Options) (path : String) : Option Options :=
  if options.logFile.isSome || path.isEmpty then none
  else some { options with logFile := some path }

/-- Reads options as far as they go, and gives the arguments that are left. No option is given
twice. -/
def Options.read (options : Options) : List String → Option (Options × List String)
  | [] => some (options, [])
  | "--json" :: rest => if options.json then none else read { options with json := true } rest
  | "--log" :: rest => if options.log then none else read { options with log := true } rest
  | "--log-file" :: path :: rest =>
    if isOption path then none
    else (options.nameLogFile? path).bind fun options => read options rest
  | argument :: rest =>
    match attachedPath? argument with
    | some path => (options.nameLogFile? path).bind fun options => read options rest
    | none =>
      if isOption argument && argument ≠ "--" then none else some (options, argument :: rest)

/-- Reads what stands after the command word: one file, and options on both sides of it. After two
hyphens there are no more options. -/
def Options.readWithFile (arguments : List String) : Option (Options × String) := do
  let (before, rest) ← Options.read .empty arguments
  match rest with
  | [] => none
  | ["--", file] => some (before, file)
  | file :: rest =>
    let (options, rest) ← before.read rest
    if file ≠ "--" && (rest = [] || rest = ["--"]) then some (options, file) else none

/-- The action of a command word. -/
def Action.ofCommand? (json : Bool) : String → Option Action
  | "tokenize" => some (.tokenize json)
  | "parse" => some (.parse json)
  | "run" => if json then none else some .run
  | _ => none

/-- The file that `--log` writes if no other is named. -/
def defaultLogFile : String := "app.log"

/-- The log file to be made, by the options before the command word and those after it. -/
def logFileOf (before after : Options) : Option String :=
  if before.log || after.log then some ((after.logFile.or before.logFile).getD defaultLogFile)
  else none

/-- What the arguments ask for, if they can be understood. -/
def Invocation.ofArguments? (arguments : List String) : Option Invocation := do
  let (before, rest) ← Options.read .empty arguments
  match rest with
  | [] => none
  | command :: rest =>
    let (after, file) ← Options.readWithFile rest
    let action ← Action.ofCommand? after.json command
    if before.json || file.isEmpty then none
    else some ⟨action, file, logFileOf before after⟩

/-! ## Transcripts -/

/-- What a command writes, and the code it exits with. -/
structure Transcript where
  output : ByteArray
  errors : String
  exitCode : Nat

/-- A failure before there was a source text: what could not be done, and why. -/
def failure (context cause : String) : Transcript :=
  ⟨.empty, "Error: " ++ context ++ "\n\nCaused by:\n    " ++ cause ++ "\n", 1⟩

/-- Why a file that is not there cannot be opened, and one cannot be made where there is no
directory. -/
def notFound : String := "No such file or directory (os error 2)"

def openFailure (file cause : String) : Transcript :=
  failure ("Failed to open file " ++ Text.quoted file) cause

def logFailure (path cause : String) : Transcript :=
  failure ("Failed to create " ++ Text.quoted path) cause

private def line (text : String) : String := text ++ "\n"

/-- Lists what was read of a source text; it exits with 65 if that was not all of it. -/
def listing (output : String) (diagnostics : List Diagnostic) : Transcript :=
  ⟨output.toUTF8, String.join (diagnostics.map fun d => line d.text),
    (Status.ofDiagnostics diagnostics).exitCode⟩

/-- A list of documents as one pretty document. -/
def prettyList (documents : List Json) : String :=
  line (String.ofList (Json.array documents).pretty)

def tokenize (json : Bool) (source : String) : Transcript :=
  let items := Scan.items source
  let tokens := items.filterMap Scan.Item.token?
  let output :=
    if json then prettyList (tokens.map Token.document)
    else String.join (tokens.map fun token => line token.listed)
  listing output ((items.filterMap Scan.Item.error?).map .lexical)

def parse (json : Bool) (source : String) : Transcript :=
  let reading := Reading.ofSource source
  let output :=
    if json then prettyList (Stmt.documents reading.statements)
    else String.join (reading.statements.map fun stmt => line stmt.printed)
  listing output reading.diagnostics

/-- What an action does with a source text. -/
def Action.perform (fuel : Nat) (clock : Nat → Number) (source : String) :
    Action → Option Transcript
  | tokenize json => some (CommandLine.tokenize json source)
  | parse json => some (CommandLine.parse json source)
  | run =>
    (Lox.run fuel clock .unlimited source).map fun report =>
      ⟨report.output.written, String.join (report.diagnostics.map fun d => line d.text),
        report.status.exitCode⟩

/-- What an action does with the bytes of a file. -/
def Action.performOn (fuel : Nat) (clock : Nat → Number) (bytes : ByteArray) (action : Action) :
    Option Transcript :=
  match Utf8.decode bytes with
  | .ok source => action.perform fuel clock source
  | .error error => some (failure "Source is not valid UTF-8" error.message)

end Lox.CommandLine
