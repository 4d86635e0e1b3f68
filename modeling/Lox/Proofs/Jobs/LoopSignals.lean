import Lox.Proofs.Halting.LoopFree
import Lox.Proofs.Jobs.Shapes

/-!
# What becomes of `break` and `continue`

Names need not be resolved before a program runs, and then nothing keeps `break` and `continue` in loops.
Each of them that is run leaves the statements around it one after the other, and comes to the innermost
loop that it stands in, to the end of the function body that it stands in, or to the top level. A loop
takes it. The top level, and the call that the body was run for, fail at the keyword; but an initializer
gives its instance however its body ends, so there the signal is lost.
-/

namespace Lox

/-! ## Signals -/

/-- A `break` or a `continue`, with the line that it stands on. -/
inductive LoopSignal where
  | breaks (line : Nat)
  | continues (line : Nat)

namespace LoopSignal

def stmt : LoopSignal → Stmt Binding
  | breaks line => .breakLoop line
  | continues line => .continueLoop line

/-- How statements end that the signal leaves. -/
def flow : LoopSignal → Flow
  | breaks line => .breaks line
  | continues line => .continues line

/-- The error at the keyword. -/
def error : LoopSignal → RuntimeError
  | breaks line => ⟨.outsideLoop .kwBreak, Keyword.kwBreak.token line⟩
  | continues line => ⟨.outsideLoop .kwContinue, Keyword.kwContinue.token line⟩

/-- What a loop goes on with when the signal has left its body. -/
def resume (fuel : Nat) (condition increment : Option (Expr Binding)) (body : Stmt Binding) :
    LoopSignal → Step Flow
  | breaks _ => pure .normal
  | continues _ => do
    let _ ← Step.evaluatePart fuel increment
    Step.loop fuel condition increment body

end LoopSignal

namespace Step

variable {α β : Type} {fuel : Nat} {machine after : Machine} {signal : LoopSignal}

theorem finished_of_bind {first : Step α} {rest : α → Step β} {result : β}
    (ran : (first >>= rest) machine = .finished result after) :
    ∃ value middle, first machine = .finished value middle ∧
      rest value middle = .finished result after := by
  cases outcome : first machine with
  | finished value middle =>
    rw [bind_of_finished outcome] at ran
    exact ⟨value, middle, rfl, ran⟩
  | failed error middle =>
    rw [bind_of_failed outcome] at ran
    cases ran
  | outOfFuel =>
    rw [bind_of_outOfFuel outcome] at ran
    cases ran

/-- If the step ends with a result, it is the normal one. -/
def EndsNormally (step : Step Flow) : Prop :=
  ∀ machine flow after, step machine = .finished flow after → flow = .normal

namespace EndsNormally

theorem normal : EndsNormally (pure .normal) := by
  intro machine flow after ran
  cases ran
  rfl

theorem fail (problem : RuntimeProblem) (token : Token) : EndsNormally (fail problem token) := nofun

theorem bind {first : Step α} {rest : α → Step Flow} (ends : ∀ value, EndsNormally (rest value)) :
    EndsNormally (first >>= rest) := by
  intro machine flow after ran
  obtain ⟨value, middle, _, further⟩ := finished_of_bind ran
  exact ends value middle flow after further

end EndsNormally

/-- What can be the first clause of a `for` statement ends normally. -/
theorem endsNormally_execute {stmt : Stmt Binding} (initializes : stmt.IsInitializer) (fuel : Nat) :
    EndsNormally (execute fuel stmt) := by
  cases fuel with
  | zero => exact nofun
  | succ fuel =>
    cases stmt with
    | expression value => exact .bind fun _ => .normal
    | varDecl name initializer => exact .bind fun _ => .bind fun _ => .normal
    | assign targets value => exact .bind fun _ => .bind fun _ => .normal
    | set object name value =>
      refine .bind fun target => ?_
      cases target with
      | object id => exact .bind fun _ => .bind fun _ => .normal
      | _ => exact .fail _ _
    | _ => exact initializes.elim

theorem endsNormally_executePart {initializer : Option (Stmt Binding)}
    (initializes : ∀ stmt ∈ initializer, stmt.IsInitializer) (fuel : Nat) :
    EndsNormally (executePart fuel initializer) := by
  cases fuel with
  | zero => exact nofun
  | succ fuel =>
    cases initializer with
    | none => exact .normal
    | some stmt => exact endsNormally_execute (initializes stmt rfl) fuel

theorem lookUp_of_some {name : String} {binding : Binding} {value : Value}
    (named : machine.heap.lookUp? machine.frame name binding = some value) (token : Token) :
    lookUp name binding token machine = .finished value machine := by
  rw [lookUp, named]

theorem callResult_of_signal {closure : Closure} (ordinary : closure.isInitializer = false)
    (machine : Machine) : callResult closure signal.flow machine = .failed signal.error machine := by
  unfold callResult
  rw [if_neg (Bool.eq_false_iff.mp ordinary)]
  cases signal <;> rfl

theorem callResult_of_initializer {closure : Closure} (initializes : closure.isInitializer = true)
    (flow : Flow) (machine : Machine) :
    callResult closure flow machine =
      .finished ((machine.heap.environment.getAt? closure.frame 0 thisName).getD .nil) machine := by
  unfold callResult
  rw [if_pos initializes]
  rfl

end Step

/-! ## Statements that a signal leaves -/

/-- The part is run for the whole, with nothing but statements between them: no loop and no call. -/
inductive Passage.Within (whole : Passage) (machine : Machine) : Passage → Machine → Prop where
  | here : Within whole machine whole machine
  | further {middle part : Passage} {between moment : Machine} :
      Within whole machine middle between → middle.job.script.Starts between part.job moment →
        Within whole machine part moment

namespace Passage

variable {α : Type} {whole part : Passage} {machine moment after : Machine} {signal : LoopSignal}

theorem not_starts {script : Script α} (starts : script.Starts machine part.job moment)
    (uses : script.Uses (·.passage? = none)) : False := by
  have none := uses.of_starts starts
  rw [Job.passage?_job] at none
  cases none

theorem eq_of_job (other : Passage) (same : part.job = other.job) : part = other := by
  have passages := congrArg Job.passage? same
  rw [Job.passage?_job, Job.passage?_job] at passages
  exact Option.some.inj passages

/-- A statement that the signal leaves ends by it. -/
theorem forwards_one {fuel : Nat} {stmt : Stmt Binding} (fits : stmt.WellShaped)
    (starts : (Script.execute fuel stmt).Starts machine part.job moment)
    (leaves : part.run moment = .finished signal.flow after) :
    ∃ last, Step.execute fuel stmt machine = .finished signal.flow last := by
  cases fuel with
  | zero => exact starts.elim
  | succ fuel =>
    cases stmt with
    | breakLoop | continueLoop => exact starts.elim
    | whileLoop => exact (not_starts starts rfl).elim
    | expression | returnValue => exact (not_starts starts (.bind rfl fun _ => trivial)).elim
    | funDecl | classDecl => exact (not_starts starts (.bind trivial fun _ => trivial)).elim
    | varDecl =>
      exact (not_starts starts (.bind rfl fun _ => .bind trivial fun _ => trivial)).elim
    | assign => exact (not_starts starts (.bind rfl fun _ => .bind rfl fun _ => trivial)).elim
    | set object name value =>
      refine (not_starts starts (.bind rfl fun target => ?_)).elim
      split
      · exact .bind rfl fun _ => .bind trivial fun _ => trivial
      · trivial
    | block body =>
      obtain ⟨same, rfl⟩ := starts
      obtain rfl := eq_of_job (.each fuel body) same
      exact ⟨after.leave, Step.inScope_of_finished leaves⟩
    | branch condition thenBranch elseBranch =>
      obtain early | ⟨value, middle, ran, further⟩ := starts
      · exact (not_starts early rfl).elim
      · refine ⟨after.leave, Step.inScope_of_finished ((Step.bind_of_finished ran).trans ?_)⟩
        dsimp only at further
        split at further
        · next truthy =>
          obtain ⟨same, rfl⟩ := further
          rw [if_pos truthy]
          obtain rfl := eq_of_job (.one fuel thenBranch) same
          exact leaves
        · next falsy =>
          obtain ⟨same, rfl⟩ := further
          rw [if_neg falsy]
          obtain rfl := eq_of_job (.part fuel elseBranch) same
          exact leaves
    | forLoop initializer condition increment body =>
      obtain ⟨same, rfl⟩ | ⟨_, _, _, further⟩ := starts
      · -- The first clause is no statement that a signal could leave.
        obtain rfl := eq_of_job (.part fuel initializer) same
        have normal := Step.endsNormally_executePart fits.1 fuel _ _ _ leaves
        cases signal <;> cases normal
      · exact (not_starts further rfl).elim

theorem forwards_each {fuel : Nat} {stmts : List (Stmt Binding)}
    (starts : (Script.executeEach fuel stmts).Starts machine part.job moment)
    (leaves : part.run moment = .finished signal.flow after) :
    ∃ last, Step.executeEach fuel stmts machine = .finished signal.flow last := by
  match fuel, stmts with
  | 0, _ => exact starts.elim
  | _ + 1, [] => exact starts.elim
  | fuel + 1, stmt :: rest =>
    refine ⟨after, ?_⟩
    obtain ⟨same, rfl⟩ | ⟨flow, middle, ran, further⟩ := starts
    · obtain rfl := eq_of_job (.one fuel stmt) same
      refine (Step.bind_of_finished leaves).trans ?_
      cases signal <;> rfl
    · refine (Step.bind_of_finished ran).trans ?_
      cases flow with
      | normal =>
        obtain ⟨same, rfl⟩ := further
        obtain rfl := eq_of_job (.each fuel rest) same
        exact leaves
      | _ => exact further.elim

theorem forwards (fits : whole.job.Shaped)
    (starts : whole.job.script.Starts machine part.job moment)
    (leaves : part.run moment = .finished signal.flow after) :
    ∃ last, whole.run machine = .finished signal.flow last := by
  cases whole with
  | one fuel stmt => exact forwards_one fits starts leaves
  | each fuel stmts => exact forwards_each starts leaves
  | part fuel stmt? =>
    match fuel, stmt? with
    | 0, _ => exact starts.elim
    | _ + 1, none => exact starts.elim
    | fuel + 1, some stmt =>
      obtain ⟨same, rfl⟩ := starts
      obtain rfl := eq_of_job (.one fuel stmt) same
      exact ⟨after, leaves⟩

/-- What is run within a whole is come to by the run of the whole. -/
theorem Within.visits (within : whole.Within machine part moment) :
    whole.job.Visits machine part.job moment := by
  induction within with
  | here => exact .here
  | further _ starts ih => exact .further ih starts

/-- A signal leaves everything around it, from the inside out. -/
theorem Within.leaves (within : whole.Within machine part moment) (fits : whole.job.Shaped)
    (shaped : machine.Shaped) (leaves : part.run moment = .finished signal.flow after) :
    ∃ last, whole.run machine = .finished signal.flow last := by
  induction within generalizing after with
  | here => exact ⟨after, leaves⟩
  | @further middle part between moment before starts ih =>
    -- The statement that runs the part is well-shaped, so it ends by the signal too.
    have fitsMiddle := (Job.closed_shaped.of_visits fits shaped before.visits).1
    obtain ⟨last, left⟩ := forwards fitsMiddle starts leaves
    exact ih left

end Passage

/-! ## What statements are run for -/

namespace Job

variable {holder root : Job} {part : Passage} {machine moment : Machine}

theorem eq_of_passage? {job : Job} {passage : Passage} (same : job.passage? = some passage) :
    job = passage.job := by
  cases job <;> cases same <;> rfl

/-- Around the statements that something is run within there is a job that is no statement. -/
theorem Visits.outermost (visits : root.Visits machine part.job moment) (outer : root.passage? = none) :
    ∃ (holder : Job) (between : Machine) (whole : Passage) (start : Machine),
      root.Visits machine holder between ∧ holder.passage? = none ∧
      holder.script.Starts between whole.job start ∧ whole.Within start part moment := by
  generalize same : part.job = job at visits
  induction visits generalizing part with
  | here =>
    subst same
    rw [passage?_job] at outer
    cases outer
  | @further holder _ between moment before starts ih =>
    subst same
    cases kind : holder.passage? with
    | none => exact ⟨holder, between, part, moment, before, kind, starts, .here⟩
    | some middle =>
      -- It is run for a statement, which in turn is run within the outermost one.
      obtain rfl := eq_of_passage? kind
      obtain ⟨holder, first, whole, start, visits, outer, begins, within⟩ := ih rfl
      exact ⟨holder, first, whole, start, visits, outer, begins, within.further starts⟩

end Job

namespace Script

variable {fuel : Nat} {condition increment : Option (Expr Binding)} {body : Stmt Binding}
  {part : Passage} {machine start : Machine}

theorem starts_round {holds : Bool}
    (starts : (round fuel condition increment body holds).Starts machine part.job start) :
    holds = true ∧ part = .one fuel body ∧ start = machine := by
  cases holds with
  | false => exact starts.elim
  | true =>
    obtain ⟨same, rfl⟩ | ⟨flow, middle, _, further⟩ := starts
    · exact ⟨rfl, Passage.eq_of_job _ same, rfl⟩
    · cases flow with
      | normal | continues => exact (Passage.not_starts further (.bind rfl fun _ => rfl)).elim
      | breaks | returns => exact further.elim

/-- The only statement that a loop runs itself is its body, and it takes the signal that leaves it. -/
theorem starts_loop (starts : (loop fuel condition increment body).Starts machine part.job start) :
    ∃ below, fuel = below + 1 ∧ part = .one below body ∧ ∀ (signal : LoopSignal) after,
      Step.execute below body start = .finished signal.flow after →
        Step.loop (below + 1) condition increment body machine =
          signal.resume below condition increment body after := by
  cases fuel with
  | zero => exact starts.elim
  | succ fuel =>
    refine ⟨fuel, rfl, ?_⟩
    cases condition with
    | none =>
      obtain ⟨_, rfl, rfl⟩ := starts_round starts
      refine ⟨rfl, fun signal after left => ?_⟩
      change (Step.execute fuel body >>= _) start = _
      rw [Step.bind_of_finished left]
      cases signal <;> rfl
    | some expr =>
      obtain early | ⟨value, middle, tested, further⟩ := starts
      · exact (Passage.not_starts early rfl).elim
      · obtain ⟨truthy, rfl, rfl⟩ := starts_round further
        refine ⟨rfl, fun signal after left => ?_⟩
        refine (Step.bind_of_finished tested).trans ?_
        change (if value.isTruthy = true then _ else _ : Step Flow) start = _
        rw [if_pos truthy]
        refine (Step.bind_of_finished left).trans ?_
        cases signal <;> rfl

end Script

theorem Script.starts_callClosure {fuel : Nat} {closure : Closure} {arguments : List Value}
    {paren : Token} {part : Passage} {machine start : Machine}
    (starts : (callClosure fuel closure arguments paren).Starts machine part.job start) :
    ∃ below, fuel = below + 1 ∧ machine.depth < Step.maximumDepth ∧
      part = .each below closure.lambda.body ∧ start = machine.enterCall closure arguments := by
  cases fuel with
  | zero => exact starts.elim
  | succ fuel =>
    obtain ⟨free, same, rfl⟩ | ⟨_, _, _, none⟩ := starts
    · exact ⟨fuel, rfl, free, Passage.eq_of_job _ same, rfl⟩
    · exact none.elim

theorem Script.starts_result {fuel : Nat} {stmt : Stmt Binding} {part : Passage}
    {machine start : Machine} (starts : (result fuel stmt).Starts machine part.job start) :
    part = .one fuel stmt ∧ start = machine ∧ ∀ flow after,
      Step.execute fuel stmt machine = .finished flow after →
        Session.result fuel stmt machine = .finished (.flow flow) after := by
  cases stmt with
  | expression => exact (Passage.not_starts starts (.bind rfl fun _ => trivial)).elim
  | _ =>
    obtain ⟨same, rfl⟩ | ⟨_, _, _, none⟩ := starts
    · exact ⟨Passage.eq_of_job _ same, rfl, fun _ _ ran => Step.bind_of_finished ran⟩
    · exact none.elim

theorem Step.callClosure_of_finished {fuel : Nat} {closure : Closure} {arguments : List Value}
    {machine after : Machine} {flow : Flow} (free : machine.depth < maximumDepth)
    (ran : executeEach fuel closure.lambda.body (machine.enterCall closure arguments) =
      .finished flow after) (paren : Token) :
    callClosure (fuel + 1) closure arguments paren machine =
      callResult closure flow (machine.leaveCall after) := by
  refine bind_of_finished ?_
  rw [inCall_eq, if_neg (Nat.not_le.mpr free), ran]
  rfl

/-! ## What becomes of a signal -/

/-- What becomes of a signal that a run comes to at some place. -/
inductive LoopSignal.Met (signal : LoopSignal) (root : Job) (machine : Machine) (place : Passage)
    (moment : Machine) : Prop where
  /-- The loop takes it that the signal stands in the body of, with no other loop and no call between:
  `break` ends the loop, and `continue` has it go on with the increment and the next round. -/
  | loop (fuel : Nat) (condition increment : Option (Expr Binding)) (body : Stmt Binding)
      (between start after : Machine)
      (inside : root.Visits machine (.loop (fuel + 1) condition increment body) between)
      (starts : (Job.loop (fuel + 1) condition increment body).script.Starts between
        (.execute fuel body) start)
      (within : (Passage.one fuel body).Within start place moment)
      (left : Step.execute fuel body start = .finished signal.flow after)
      (resumes : Step.loop (fuel + 1) condition increment body between =
        signal.resume fuel condition increment body after)
  /-- There is no such loop in the body of the function: the call fails at the keyword, and with it the
  run. -/
  | call (fuel : Nat) (closure : Closure) (arguments : List Value) (paren : Token)
      (between after : Machine)
      (inside : root.Visits machine (.callClosure (fuel + 1) closure arguments paren) between)
      (within : (Passage.each fuel closure.lambda.body).Within (between.enterCall closure arguments)
        place moment)
      (ordinary : closure.isInitializer = false)
      (refuses : Step.callClosure (fuel + 1) closure arguments paren between =
        .failed signal.error (between.leaveCall after))
      (fails : ∃ last, root.run machine = .failed signal.error last)
  /-- There is no such loop in the body of an initializer: the call gives the instance all the same. -/
  | initializer (fuel : Nat) (closure : Closure) (arguments : List Value) (paren : Token)
      (between after : Machine)
      (inside : root.Visits machine (.callClosure (fuel + 1) closure arguments paren) between)
      (within : (Passage.each fuel closure.lambda.body).Within (between.enterCall closure arguments)
        place moment)
      (initializes : closure.isInitializer = true)
      (gives : Step.callClosure (fuel + 1) closure arguments paren between =
        .finished ((after.heap.environment.getAt? closure.frame 0 thisName).getD .nil)
          (between.leaveCall after))
  /-- There is neither a loop nor a function around it: the run fails at the keyword. -/
  | topLevel (fuel : Nat) (stmt : Stmt Binding) (rest : List (Stmt Binding)) (between : Machine)
      (inside : root.Visits machine (.runTopLevel fuel (stmt :: rest)) between)
      (within : (Passage.one fuel stmt).Within between place moment)
      (fails : ∃ last, root.run machine = .failed signal.error last)
  /-- So it is, but in a statement that is stepped through: the signal is the result of the step. -/
  | stepped (fuel : Nat) (stmt : Stmt Binding) (after : Machine)
      (isRoot : root = .result fuel stmt)
      (within : (Passage.one fuel stmt).Within machine place moment)
      (gives : Session.result fuel stmt machine = .finished (.flow signal.flow) after)

namespace Job

variable {root : Job} {part : Passage} {machine moment between start after : Machine}
  {signal : LoopSignal}

theorem Visits.eq_of_stepped {fuel : Nat} {stmt : Stmt Binding}
    (visits : root.Visits machine (.result fuel stmt) moment) :
    root = .result fuel stmt ∧ moment = machine := by
  cases visits with
  | here => exact ⟨rfl, rfl⟩
  | further _ starts => exact absurd rfl (not_stepped_of_starts starts)

/-- Whatever a signal leaves is well-shaped, so it comes to the innermost loop, to the innermost call or
out of the program. -/
theorem Visits.met (visits : root.Visits machine part.job moment) (isRoot : root.IsRoot)
    (fits : root.Shaped) (shaped : machine.Shaped)
    (leaves : part.run moment = .finished signal.flow after) :
    signal.Met root machine part moment := by
  have outer : root.passage? = none := by
    cases root <;> first | rfl | exact isRoot.elim
  obtain ⟨holder, between, whole, start, inside, outer, starts, within⟩ := visits.outermost outer
  obtain ⟨fitsHolder, shapedBetween⟩ := closed_shaped.of_visits fits shaped inside
  obtain ⟨fitsWhole, shapedStart⟩ :=
    closed_shaped.of_visits fitsHolder shapedBetween (.further .here starts)
  obtain ⟨last, left⟩ := within.leaves fitsWhole shapedStart leaves
  -- Loops, calls and programs are what is left that starts statements and is none.
  have sub := holder.substarts.of_starts starts
  have statement : whole.job.kind = .statement := by cases whole <;> rfl
  cases holder with
  | perform => exact starts.elim
  | evaluate | evaluateEach | evaluateLast | evaluatePart | storeEach | call | construct =>
    cases statement.symm.trans sub.2
  | execute | executeEach | executePart => cases outer
  | loop fuel condition increment body =>
    obtain ⟨fuel, rfl, rfl, resumes⟩ := Script.starts_loop starts
    exact .loop fuel condition increment body between start last inside starts within left
      (resumes signal last left)
  | callClosure fuel closure arguments paren =>
    obtain ⟨fuel, rfl, free, rfl, rfl⟩ := Script.starts_callClosure starts
    have ends := Step.callClosure_of_finished free left paren
    cases kind : closure.isInitializer with
    | false =>
      rw [Step.callResult_of_signal kind] at ends
      exact .call fuel closure arguments paren between last inside within kind ends (inside.failed ends)
    | true =>
      rw [Step.callResult_of_initializer kind] at ends
      exact .initializer fuel closure arguments paren between last inside within kind ends
  | runTopLevel fuel stmts =>
    cases stmts with
    | nil => exact starts.elim
    | cons stmt rest =>
      obtain ⟨same, rfl⟩ | ⟨flow, _, _, further⟩ := starts
      · obtain rfl := Passage.eq_of_job (.one fuel stmt) same
        have fails : Step.runTopLevel fuel (stmt :: rest) start = .failed signal.error last := by
          refine (Step.bind_of_finished left).trans ?_
          cases signal <;> rfl
        exact .topLevel fuel stmt rest start inside within (inside.failed fails)
      · cases flow with
        | normal => exact (Passage.not_starts further rfl).elim
        | _ => exact further.elim
  | result fuel stmt =>
    obtain ⟨rfl, rfl⟩ := inside.eq_of_stepped
    obtain ⟨rfl, rfl, gives⟩ := Script.starts_result starts
    exact .stepped fuel stmt last rfl within (gives _ _ left)

end Job

/-- A run of a program: of all of it, or of one of its statements that is stepped through. -/
def Job.Runs (ready : List (Stmt Binding)) : Job → Prop
  | runTopLevel _ stmts => stmts = ready
  | result _ stmt => stmt ∈ ready
  | _ => False

theorem Job.Runs.shaped {root : Job} {ready : List (Stmt Binding)} (runs : root.Runs ready)
    (fits : Stmt.WellShapedEach ready) : root.IsRoot ∧ root.Shaped := by
  cases root with
  | runTopLevel fuel stmts =>
    obtain rfl : stmts = ready := runs
    exact ⟨trivial, fits⟩
  | result fuel stmt =>
    have member : stmt ∈ ready := runs
    exact ⟨trivial, fits.of_mem member⟩
  | _ => exact runs.elim

namespace Session

/-- The machines that sessions come to whose programs were parsed, whatever was wrong with the rest of
their text, and were run or stepped through, with names resolved or not. -/
inductive Parsed : Machine → Prop where
  | initial (output : Output) (clock : Nat → Number) : Parsed (.initial output clock)
  | install {machine : Machine} (native : Native) : Parsed machine → Parsed (machine.install native)
  | program {machine after : Machine} {mode : Mode} {tokens : List Token}
      {ready : List (Stmt Binding)} {fuel : Nat} :
      Parsed machine → prepared mode (Program.parse tokens).statements = .ok ready →
        (Step.runTopLevel fuel ready machine).machine? = some after → Parsed after
  | statement {machine after : Machine} {mode : Mode} {tokens : List Token}
      {ready : List (Stmt Binding)} {stmt : Stmt Binding} {fuel : Nat} :
      Parsed machine → prepared mode (Program.parse tokens).statements = .ok ready → stmt ∈ ready →
        (result fuel stmt machine).machine? = some after → Parsed after

namespace Parsed

variable {machine : Machine} {mode : Mode} {tokens : List Token} {ready : List (Stmt Binding)}

theorem shaped_ready (prepares : prepared mode (Program.parse tokens).statements = .ok ready) :
    Stmt.WellShapedEach ready :=
  (Program.wellShaped_parse tokens).prepared prepares

theorem shaped (session : Parsed machine) : machine.Shaped := by
  induction session with
  | initial output clock =>
    rintro lambda ⟨id, closure, found, _⟩
    cases found
  | install native _ ih => exact ih
  | @program machine after mode tokens ready fuel _ prepares left ih =>
    have root : (Job.runTopLevel fuel ready).Shaped := shaped_ready prepares
    exact (Job.closed_shaped.obeys root ih).of_machine? left
  | @statement machine after mode tokens ready stmt fuel _ prepares member left ih =>
    have root : (Job.result fuel stmt).Shaped := (shaped_ready prepares).of_mem member
    exact (Job.closed_shaped.obeys root ih).of_machine? left

/-- Whatever text is run or stepped through, the machine afterwards is one of these. -/
theorem answer {fuel : Nat} {source : String} {answer : Answer} (session : Parsed machine)
    (answered : Session.answer fuel mode source machine = some answer) : Parsed answer.machine :=
  answer_induction Parsed session (fun _ prepares _ ran => session.program prepares ran)
    (fun _ prepares _ member _ _ before ran => before.statement prepares member ran) answered

/-- In a program that was parsed, every `break` and every `continue` that is run is taken by the innermost
loop that it stands in, or fails the run at its keyword, unless an initializer loses it. But for that one
case, a call fails whose body ends by one, and so it never gives a value. -/
theorem meets_signals (session : Parsed machine)
    (prepares : prepared mode (Program.parse tokens).statements = .ok ready) {root : Job}
    (runs : root.Runs ready) :
    (∀ (signal : LoopSignal) level moment,
      root.Visits machine (.execute (level + 1) signal.stmt) moment →
        signal.Met root machine (.one (level + 1) signal.stmt) moment) ∧
    ∀ level closure arguments paren moment (signal : LoopSignal) after,
      root.Visits machine (.callClosure (level + 1) closure arguments paren) moment →
      moment.depth < Step.maximumDepth →
      Step.executeEach level closure.lambda.body (moment.enterCall closure arguments) =
        .finished signal.flow after →
      closure.isInitializer = false →
        Step.callClosure (level + 1) closure arguments paren moment =
          .failed signal.error (moment.leaveCall after) ∧
        ∃ last, root.run machine = .failed signal.error last := by
  obtain ⟨isRoot, fits⟩ := runs.shaped (shaped_ready prepares)
  constructor
  · intro signal level moment visits
    have leaves : Step.execute (level + 1) signal.stmt moment = .finished signal.flow moment := by
      cases signal <;> rfl
    have place : root.Visits machine (Passage.one (level + 1) signal.stmt).job moment := visits
    exact place.met isRoot fits session.shaped leaves
  · intro level closure arguments paren moment signal after visits free ran ordinary
    have ends := Step.callClosure_of_finished free ran paren
    rw [Step.callResult_of_signal ordinary] at ends
    exact ⟨ends, visits.failed ends⟩

/-- `(fun () { break })()` fails at the `break`. -/
theorem meets_signals_function :
    let tokens : List Token := [⟨.symbol .leftParen, 1⟩, ⟨.keyword .kwFun, 1⟩,
      ⟨.symbol .leftParen, 1⟩, ⟨.symbol .rightParen, 1⟩, ⟨.symbol .leftBrace, 1⟩,
      ⟨.keyword .kwBreak, 2⟩, ⟨.symbol .rightBrace, 3⟩, ⟨.symbol .rightParen, 3⟩,
      ⟨.symbol .leftParen, 3⟩, ⟨.symbol .rightParen, 3⟩, ⟨.endOfInput, 4⟩]
    let machine := Machine.initial .unlimited fun _ => .zero
    ∃ ready moment last, prepared ⟨false, false⟩ (Program.parse tokens).statements = .ok ready ∧
      (Job.runTopLevel 20 ready).Visits machine (.execute 15 (.breakLoop 2)) moment ∧
      (LoopSignal.breaks 2).Met (.runTopLevel 20 ready) machine (.one 15 (.breakLoop 2)) moment ∧
      Step.runTopLevel 20 ready machine =
        .failed ⟨.outsideLoop .kwBreak, Keyword.kwBreak.token 2⟩ last := by
  intro tokens machine
  let lambda : Lambda Binding := ⟨[], [.breakLoop 2]⟩
  let call : Expr Binding := .call (.group (.function lambda)) 3 []
  let ready : List (Stmt Binding) := [.expression call]
  let paren := Symbol.rightParen.token 3
  let closure : Closure := ⟨none, lambda, Heap.globals, false⟩
  let moment : Machine := { machine with heap := (machine.heap.addFunction closure).2 }
  let inside := moment.enterCall closure []
  have prepares : prepared ⟨false, false⟩ (Program.parse tokens).statements = .ok ready := rfl
  have toStatement : (Job.runTopLevel 20 ready).script.Starts machine (.execute 20 (.expression call))
      machine := .inl ⟨rfl, rfl⟩
  have toExpression : (Job.execute 20 (.expression call)).script.Starts machine (.evaluate 19 call)
      machine := .inl ⟨rfl, rfl⟩
  have toCall : (Job.evaluate 19 call).script.Starts machine (.call 18 (.function 0) [] paren) moment :=
    .inr ⟨[], machine, rfl, .inr ⟨.function 0, moment, rfl, rfl, rfl⟩⟩
  have toEntry : (Job.call 18 (.function 0) [] paren).script.Starts moment
      (.callClosure 17 closure [] paren) moment :=
    .inr ⟨some closure, moment, rfl, .inr ⟨(), moment, rfl, rfl, rfl⟩⟩
  have toBody : (Job.callClosure 17 closure [] paren).script.Starts moment
      (.executeEach 16 lambda.body) inside := .inl ⟨by decide, rfl, rfl⟩
  have toBreak : (Job.executeEach 16 lambda.body).script.Starts inside (.execute 15 (.breakLoop 2))
      inside := .inl ⟨rfl, rfl⟩
  have entry := (((Job.Visits.here.further toStatement).further toExpression).further toCall).further
    toEntry
  have visits := (entry.further toBody).further toBreak
  have runs : (Job.runTopLevel 20 ready).Runs ready := rfl
  obtain ⟨met, refused⟩ := meets_signals (.initial .unlimited fun _ => .zero) prepares runs
  obtain ⟨_, last, fails⟩ :=
    refused 16 closure [] paren moment (.breaks 2) inside entry (by decide) rfl rfl
  exact ⟨ready, inside, last, prepares, visits, met (.breaks 2) 14 inside visits, fails⟩

/-- `class A { init() { break } } A()` ends without any error: there is no loop, and yet the `break` that
the call of the initializer ends by is not seen again. -/
theorem meets_signals_lost :
    let tokens : List Token := [⟨.keyword .kwClass, 1⟩, ⟨.identifier "A", 1⟩, ⟨.symbol .leftBrace, 1⟩,
      ⟨.identifier "init", 1⟩, ⟨.symbol .leftParen, 1⟩, ⟨.symbol .rightParen, 1⟩,
      ⟨.symbol .leftBrace, 1⟩, ⟨.keyword .kwBreak, 1⟩, ⟨.symbol .rightBrace, 1⟩,
      ⟨.symbol .rightBrace, 1⟩, ⟨.identifier "A", 2⟩, ⟨.symbol .leftParen, 2⟩,
      ⟨.symbol .rightParen, 2⟩, ⟨.endOfInput, 3⟩]
    let machine := Machine.initial .unlimited fun _ => .zero
    ∃ ready closure paren moment inside after,
      prepared ⟨false, false⟩ (Program.parse tokens).statements = .ok ready ∧
        Stmt.LoopFreeEach ready ∧
        (Job.runTopLevel 20 ready).Visits machine (.callClosure 16 closure [] paren) moment ∧
        (Job.runTopLevel 20 ready).Visits machine (.execute 14 (.breakLoop 1)) inside ∧
        Step.executeEach 15 closure.lambda.body (moment.enterCall closure []) =
          .finished (.breaks 1) inside ∧
        Step.callClosure 16 closure [] paren moment = .finished (.object 0) after ∧
        (machine.interpret 20 ready).map (fun ending => ending.2.length) = some 0 := by
  intro tokens machine
  let lambda : Lambda Binding := ⟨[], [.breakLoop 1]⟩
  let declaration : Stmt Binding := .classDecl ⟨"A", 1⟩ none [⟨⟨"init", 1⟩, lambda⟩]
  let make : Expr Binding := .call (.reference ⟨"A", 2⟩ .global) 2 []
  let ready := [declaration, .expression make]
  let paren := Symbol.rightParen.token 2
  let initializer : Closure := ⟨some "init", lambda, Heap.globals, true⟩
  -- The machines after the declaration, with the initializer bound to the instance, and in its body.
  let heap : Heap := { machine.heap.define Heap.globals "A" .nil with
    functions := #[initializer], classes := #[⟨"A", none, Table.empty.set "init" 0⟩] }
  let second : Machine := { machine with heap := heap.define Heap.globals "A" (.classObject 0) }
  let moment : Machine := { second with heap := ((second.heap.addInstance 0).2.bindMethod 0 0).2 }
  let bound : Closure := { initializer with frame := 1 }
  let inside := moment.enterCall bound []
  have prepares : prepared ⟨false, false⟩ (Program.parse tokens).statements = .ok ready := rfl
  have free : Stmt.LoopFreeEach ready := ⟨⟨⟨trivial, trivial⟩, trivial⟩, ⟨trivial, trivial⟩, trivial⟩
  have declares : Step.execute 20 declaration machine = .finished .normal second := rfl
  have named : second.heap.lookUp? Heap.globals "A" .global = some (.classObject 0) := by decide +kernel
  have found : second.heap.findMethod? initializerName 0 = some 0 := by decide +kernel
  have refers : Step.evaluate 18 (.reference ⟨"A", 2⟩ .global) second =
      .finished (.classObject 0) second := Step.lookUp_of_some named _
  have toRest : (Job.runTopLevel 20 ready).script.Starts machine
      (.runTopLevel 20 [.expression make]) second := .inr ⟨.normal, second, declares, rfl, rfl⟩
  have toStatement : (Job.runTopLevel 20 [.expression make]).script.Starts second
      (.execute 20 (.expression make)) second := .inl ⟨rfl, rfl⟩
  have toExpression : (Job.execute 20 (.expression make)).script.Starts second (.evaluate 19 make)
      second := .inl ⟨rfl, rfl⟩
  have toCall : (Job.evaluate 19 make).script.Starts second (.call 18 (.classObject 0) [] paren)
      second := .inr ⟨[], second, rfl, .inr ⟨.classObject 0, second, refers, rfl, rfl⟩⟩
  have toClass : (Job.call 18 (.classObject 0) [] paren).script.Starts second
      (.construct 17 0 [] paren) second := ⟨rfl, rfl⟩
  have toEntry : (Job.construct 17 0 [] paren).script.Starts second (.callClosure 16 bound [] paren)
      moment := by
    refine Script.starts_readHeap_bind.mpr ?_
    rw [found]
    refine Script.starts_readHeap_bind.mpr (Script.starts_checkArity_bind.mpr ⟨rfl, ?_⟩)
    exact .inr ⟨0, _, rfl, .inr ⟨1, moment, rfl, .inr ⟨some bound, moment, rfl, .inl ⟨rfl, rfl⟩⟩⟩⟩
  have toBody : (Job.callClosure 16 bound [] paren).script.Starts moment
      (.executeEach 15 lambda.body) inside := .inl ⟨by decide, rfl, rfl⟩
  have toBreak : (Job.executeEach 15 lambda.body).script.Starts inside (.execute 14 (.breakLoop 1))
      inside := .inl ⟨rfl, rfl⟩
  have visits := (((((Job.Visits.here.further toRest).further toStatement).further toExpression).further
    toCall).further toClass).further toEntry
  have left : Step.executeEach 15 bound.lambda.body (moment.enterCall bound []) =
      .finished (.breaks 1) inside := rfl
  have shallow : moment.depth < Step.maximumDepth := by decide
  have gives := (Step.callClosure_of_finished shallow left paren).trans
    (Step.callResult_of_initializer rfl _ _)
  exact ⟨ready, bound, paren, moment, inside, moment.leaveCall inside, prepares, free, visits,
    (visits.further toBody).further toBreak, left, gives, by decide +kernel⟩

end Parsed

end Session

end Lox
