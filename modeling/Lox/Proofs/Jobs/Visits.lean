import Lox.Proofs.Jobs.Job

/-!
# What a run comes to

The jobs that the run of a job comes to, on the way, whether the run ends or not. A job that is come to
and fails lets the whole run fail for its reason. And what holds of the first job and machine, and is
handed on by every script, holds wherever the run comes to.
-/

namespace Lox

/-! ## Visits -/

/-- The run of a job on a machine comes to a job, at a moment when the machine is in that state. -/
inductive Job.Visits (root : Job) (machine : Machine) : Job → Machine → Prop where
  | here : Visits root machine root machine
  | further {holder part : Job} {between moment : Machine} :
      Visits root machine holder between → holder.script.Starts between part moment →
        Visits root machine part moment

namespace Step

variable {machine : Machine}

theorem inScope_of_finished {α : Type} {step : Step α} {result : α} {after : Machine}
    (ran : step machine.enter = .finished result after) :
    inScope step machine = .finished result after.leave := by
  rw [inScope_eq, ran]
  rfl

end Step

section

variable {α : Type} {machine moment after : Machine} {job root : Job} {error : RuntimeError}

theorem Script.Starts.failed {script : Script α} (starts : script.Starts machine job moment)
    (fails : job.run moment = .failed error after) :
    ∃ last, script.run machine = .failed error last := by
  -- Nothing catches an error: scopes and calls are only left.
  induction script generalizing machine with
  | step plain => exact starts.elim
  | job own =>
    obtain ⟨rfl, rfl⟩ := starts
    exact ⟨after, fails⟩
  | bind first rest ihFirst ihRest =>
    obtain early | ⟨result, middle, ran, late⟩ := starts
    · obtain ⟨last, failed⟩ := ihFirst early
      exact ⟨last, Step.bind_of_failed failed⟩
    · obtain ⟨last, failed⟩ := ihRest result late
      exact ⟨last, (Step.bind_of_finished ran).trans failed⟩
  | inScope inner ih =>
    obtain ⟨last, failed⟩ := ih starts
    refine ⟨last.leave, ?_⟩
    change Step.inScope inner.run machine = _
    rw [Step.inScope_eq, failed]
    rfl
  | inCall closure arguments paren body ih =>
    obtain ⟨free, inside⟩ := starts
    obtain ⟨last, failed⟩ := ih inside
    refine ⟨machine.leaveCall last, ?_⟩
    change Step.inCall closure arguments paren body.run machine = _
    rw [Step.inCall_eq, if_neg (Nat.not_le.mpr free), failed]
    rfl

/-- An error of a job that a run comes to is the error of the run. -/
theorem Job.Visits.failed (visits : root.Visits machine job moment)
    (fails : job.run moment = .failed error after) :
    ∃ last, root.run machine = .failed error last := by
  induction visits generalizing after with
  | here => exact ⟨after, fails⟩
  | @further holder part between moment _ starts ih =>
    -- The job that started it fails by it, and is nearer to the first job.
    obtain ⟨last, failed⟩ := starts.failed fails
    rw [Job.script_run] at failed
    exact ih failed

end

/-! ## Behind steps of the machine

What is behind a step is started only if the step ends with a result. -/

namespace Script

variable {α β : Type} {machine moment : Machine} {job : Job}

theorem starts_step_bind {plain : Step α} {rest : α → Script β} :
    (step plain >>= rest).Starts machine job moment ↔ ∃ result middle,
      plain machine = .finished result middle ∧ (rest result).Starts middle job moment :=
  ⟨fun starts => starts.elim False.elim id, .inr⟩

theorem starts_readHeap_bind {f : Heap → α} {rest : α → Script β} :
    (readHeap f >>= rest).Starts machine job moment ↔
      (rest (f machine.heap)).Starts machine job moment := by
  refine starts_step_bind.trans ⟨?_, fun starts => ⟨_, _, rfl, starts⟩⟩
  rintro ⟨result, middle, ran, starts⟩
  cases ran
  exact starts

theorem starts_checkArity_bind {expected given : Nat} {paren : Token} {rest : Unit → Script β} :
    (checkArity expected given paren >>= rest).Starts machine job moment ↔
      expected = given ∧ (rest ()).Starts machine job moment := by
  refine starts_step_bind.trans ⟨?_, ?_⟩
  · rintro ⟨result, middle, ran, starts⟩
    unfold Step.checkArity at ran
    split at ran
    · next same =>
      cases ran
      exact ⟨same, starts⟩
    · cases ran
  · rintro ⟨same, starts⟩
    refine ⟨(), machine, ?_, starts⟩
    rw [Step.checkArity, if_pos same]
    rfl

end Script

/-! ## What a script uses -/

/-- Whether every job in the script is one of these. -/
def Script.Uses (good : Job → Prop) : {α : Type} → Script α → Prop
  | _, .step _ => True
  | _, .job own => good own
  | _, .bind first rest => first.Uses good ∧ ∀ result, (rest result).Uses good
  | _, .inScope inner => inner.Uses good
  | _, .inCall _ _ _ body => body.Uses good

namespace Script

variable {α β : Type} {good : Job → Prop}

theorem Uses.mono {better : Job → Prop} {script : Script α} (uses : script.Uses good)
    (improves : ∀ job, good job → better job) : script.Uses better := by
  induction script with
  | step plain => trivial
  | job own => exact improves own uses
  | bind first rest ihFirst ihRest => exact ⟨ihFirst uses.1, fun result => ihRest result (uses.2 result)⟩
  | inScope inner ih => exact ih uses
  | inCall closure arguments paren body ih => exact ih uses

theorem Uses.bind {first : Script α} {rest : α → Script β} (uses : first.Uses good)
    (further : ∀ result, (rest result).Uses good) : (first >>= rest).Uses good :=
  ⟨uses, further⟩

theorem Uses.all {script : Script α} (every : ∀ job, good job) : script.Uses good := by
  induction script with
  | step plain => trivial
  | job own => exact every own
  | bind first rest ihFirst ihRest => exact ⟨ihFirst, ihRest⟩
  | inScope inner ih => exact ih
  | inCall closure arguments paren body ih => exact ih

theorem Uses.of_starts {script : Script α} {machine moment : Machine} {job : Job}
    (uses : script.Uses good) (starts : script.Starts machine job moment) : good job := by
  induction script generalizing machine with
  | step plain => exact starts.elim
  | job own => exact starts.1 ▸ uses
  | bind first rest ihFirst ihRest =>
    obtain early | ⟨result, middle, _, late⟩ := starts
    · exact ihFirst uses.1 early
    · exact ihRest result (uses.2 result) late
  | inScope inner ih => exact ih uses starts
  | inCall closure arguments paren body ih => exact ih uses starts.2

end Script

/-! ## Sorts of jobs -/

/-- One statement, several of them or one that may be missing, about to run. -/
inductive Passage where
  | one (fuel : Nat) (stmt : Stmt Binding)
  | each (fuel : Nat) (stmts : List (Stmt Binding))
  | part (fuel : Nat) (part : Option (Stmt Binding))

def Passage.job : Passage → Job
  | one fuel stmt => .execute fuel stmt
  | each fuel stmts => .executeEach fuel stmts
  | part fuel stmt? => .executePart fuel stmt?

def Passage.run : Passage → Step Flow
  | one fuel stmt => Step.execute fuel stmt
  | each fuel stmts => Step.executeEach fuel stmts
  | part fuel stmt? => Step.executePart fuel stmt?

namespace Job

def passage? : Job → Option Passage
  | execute fuel stmt => some (.one fuel stmt)
  | executeEach fuel stmts => some (.each fuel stmts)
  | executePart fuel part => some (.part fuel part)
  | _ => none

theorem passage?_job (passage : Passage) : passage.job.passage? = some passage := by
  cases passage <;> rfl

/-- What jobs work on. -/
inductive Kind where
  | expression
  /-- The value that is called: its body, its routine or its instance. -/
  | callee
  | statement
  | program
  /-- A statement that is stepped through. -/
  | stepped

def kind : Job → Kind
  | evaluate _ _ | evaluateEach _ _ | evaluateLast _ _ _ | evaluatePart _ _ | call _ _ _ _
  | storeEach _ _ _ => .expression
  | construct _ _ _ _ | callClosure _ _ _ _ | perform _ _ _ => .callee
  | execute _ _ | executeEach _ _ | executePart _ _ | loop _ _ _ _ => .statement
  | runTopLevel _ _ => .program
  | result _ _ => .stepped

/-- Where runs start: a program, or a statement that is stepped through. -/
def IsRoot : Job → Prop
  | runTopLevel _ _ | result _ _ => True
  | _ => False

/-- What a job of that rank starts on behalf of an expression, short of going into a callee. -/
def Subexpression (rank : Nat) (job : Job) : Prop := job.rank < rank ∧ job.kind = .expression

/-- What a job of that rank starts to go into a callee. -/
def Subcall (rank : Nat) (job : Job) : Prop := job.rank < rank ∧ job.kind = .callee

/-- What a job of that rank starts on behalf of a statement. -/
def Substatement (rank : Nat) (job : Job) : Prop :=
  job.rank < rank ∧ (job.kind = .expression ∨ job.kind = .statement)

/-- What a job of that rank starts on behalf of a program. -/
def Subprogram (rank : Nat) (job : Job) : Prop :=
  job.rank < rank ∧ (job.kind = .statement ∨ job.kind = .program)

end Job

namespace Script

theorem evaluate_uses (fuel : Nat) (expr : Expr Binding) :
    (evaluate fuel expr).Uses (Job.Subexpression fuel) := by
  cases fuel with
  | zero => trivial
  | succ fuel =>
    have lower : fuel < fuel + 1 := Nat.lt_succ_self fuel
    cases expr with
    | literal | reference | thisInstance | superMethod => trivial
    | function => exact ⟨trivial, fun _ => trivial⟩
    | group | comma => exact ⟨lower, rfl⟩
    | unary => exact .bind ⟨lower, rfl⟩ fun _ => trivial
    | assign => exact .bind ⟨lower, rfl⟩ fun _ => ⟨trivial, fun _ => trivial⟩
    | binary =>
      exact .bind ⟨lower, rfl⟩ fun _ => .bind ⟨lower, rfl⟩ fun _ => trivial
    | call =>
      exact .bind ⟨lower, rfl⟩ fun _ => .bind ⟨lower, rfl⟩ fun _ => ⟨lower, rfl⟩
    | logical operator line left right =>
      refine .bind ⟨lower, rfl⟩ fun value => ?_
      split
      · trivial
      · exact ⟨lower, rfl⟩
    | conditional line condition thenBranch elseBranch =>
      refine .bind ⟨lower, rfl⟩ fun value => ?_
      split
      · exact ⟨lower, rfl⟩
      · exact ⟨lower, rfl⟩
      · trivial
    | property object name =>
      refine .bind ⟨lower, rfl⟩ fun value => ?_
      split <;> trivial

theorem evaluateEach_uses (fuel : Nat) (exprs : List (Expr Binding)) :
    (evaluateEach fuel exprs).Uses (Job.Subexpression fuel) := by
  cases fuel with
  | zero => trivial
  | succ fuel =>
    have lower : fuel < fuel + 1 := Nat.lt_succ_self fuel
    cases exprs with
    | nil => trivial
    | cons => exact .bind ⟨lower, rfl⟩ fun _ => .bind ⟨lower, rfl⟩ fun _ => trivial

theorem evaluateLast_uses (fuel : Nat) (last : Value) (exprs : List (Expr Binding)) :
    (evaluateLast fuel last exprs).Uses (Job.Subexpression fuel) := by
  cases fuel with
  | zero => trivial
  | succ fuel =>
    have lower : fuel < fuel + 1 := Nat.lt_succ_self fuel
    cases exprs with
    | nil => trivial
    | cons => exact .bind ⟨lower, rfl⟩ fun _ => ⟨lower, rfl⟩

theorem evaluatePart_uses (fuel : Nat) (part : Option (Expr Binding)) :
    (evaluatePart fuel part).Uses (Job.Subexpression fuel) := by
  cases fuel with
  | zero => trivial
  | succ fuel =>
    cases part with
    | none => trivial
    | some expr => exact ⟨Nat.lt_succ_self fuel, rfl⟩

theorem call_uses (fuel : Nat) (callee : Value) (arguments : List Value) (paren : Token) :
    (call fuel callee arguments paren).Uses (Job.Subcall fuel) := by
  cases fuel with
  | zero => trivial
  | succ fuel =>
    have lower : fuel < fuel + 1 := Nat.lt_succ_self fuel
    cases callee with
    | native id =>
      refine .bind trivial fun found => ?_
      cases found with
      | none => trivial
      | some native => exact .bind trivial fun _ => ⟨Nat.succ_pos fuel, rfl⟩
    | function id =>
      refine .bind trivial fun found => ?_
      cases found with
      | none => trivial
      | some closure => exact .bind trivial fun _ => ⟨lower, rfl⟩
    | classObject id => exact ⟨lower, rfl⟩
    | _ => trivial

theorem construct_uses (fuel : Nat) (classId : ClassId) (arguments : List Value) (paren : Token) :
    (construct fuel classId arguments paren).Uses (Job.Subcall fuel) := by
  cases fuel with
  | zero => trivial
  | succ fuel =>
    refine .bind trivial fun initializer? => ?_
    cases initializer? with
    | none => exact .bind trivial fun _ => .bind trivial fun _ => trivial
    | some initializer =>
      refine .bind trivial fun arity => .bind trivial fun _ => .bind trivial fun id => ?_
      refine .bind trivial fun bound => .bind trivial fun found => ?_
      cases found with
      | none => trivial
      | some closure => exact .bind ⟨Nat.lt_succ_self fuel, rfl⟩ fun _ => trivial

theorem storeEach_uses (fuel : Nat) (value : Value) (targets : List (Target Binding)) :
    (storeEach fuel value targets).Uses (Job.Subexpression fuel) := by
  match fuel, targets with
  | 0, _ | _ + 1, [] => trivial
  | fuel + 1, .name _ _ :: _ => exact .bind trivial fun _ => ⟨Nat.lt_succ_self fuel, rfl⟩
  | fuel + 1, .property _ _ :: _ =>
    have lower : fuel < fuel + 1 := Nat.lt_succ_self fuel
    exact .bind ⟨lower, rfl⟩ fun _ => .bind trivial fun _ => ⟨lower, rfl⟩

theorem execute_uses (fuel : Nat) (stmt : Stmt Binding) :
    (execute fuel stmt).Uses (Job.Substatement fuel) := by
  cases fuel with
  | zero => trivial
  | succ fuel =>
    have lower : fuel < fuel + 1 := Nat.lt_succ_self fuel
    cases stmt with
    | breakLoop | continueLoop => trivial
    | funDecl | classDecl => exact .bind trivial fun _ => trivial
    | expression | returnValue => exact .bind ⟨lower, .inl rfl⟩ fun _ => trivial
    | varDecl => exact .bind ⟨lower, .inl rfl⟩ fun _ => .bind trivial fun _ => trivial
    | assign =>
      exact .bind ⟨lower, .inl rfl⟩ fun _ => .bind ⟨lower, .inl rfl⟩ fun _ => trivial
    | block | whileLoop => exact ⟨lower, .inr rfl⟩
    | forLoop => exact Uses.bind ⟨lower, .inr rfl⟩ fun _ => ⟨lower, .inr rfl⟩
    | set object name value =>
      refine .bind ⟨lower, .inl rfl⟩ fun object => ?_
      split
      · exact .bind ⟨lower, .inl rfl⟩ fun _ => .bind trivial fun _ => trivial
      · trivial
    | branch condition thenBranch elseBranch =>
      refine Uses.bind ⟨lower, .inl rfl⟩ fun value => ?_
      split
      · exact ⟨lower, .inr rfl⟩
      · exact ⟨lower, .inr rfl⟩

theorem executeEach_uses (fuel : Nat) (stmts : List (Stmt Binding)) :
    (executeEach fuel stmts).Uses (Job.Substatement fuel) := by
  cases fuel with
  | zero => trivial
  | succ fuel =>
    have lower : fuel < fuel + 1 := Nat.lt_succ_self fuel
    cases stmts with
    | nil => trivial
    | cons =>
      refine .bind ⟨lower, .inr rfl⟩ fun flow => ?_
      cases flow with
      | normal => exact ⟨lower, .inr rfl⟩
      | _ => trivial

theorem executePart_uses (fuel : Nat) (part : Option (Stmt Binding)) :
    (executePart fuel part).Uses (Job.Substatement fuel) := by
  cases fuel with
  | zero => trivial
  | succ fuel =>
    cases part with
    | none => trivial
    | some stmt => exact ⟨Nat.lt_succ_self fuel, .inr rfl⟩

theorem loop_uses (fuel : Nat) (condition increment : Option (Expr Binding)) (body : Stmt Binding) :
    (loop fuel condition increment body).Uses (Job.Substatement fuel) := by
  cases fuel with
  | zero => trivial
  | succ fuel =>
    have lower : fuel < fuel + 1 := Nat.lt_succ_self fuel
    have again : ∀ holds,
        (round fuel condition increment body holds).Uses (Job.Substatement (fuel + 1)) := by
      intro holds
      cases holds with
      | false => trivial
      | true =>
        refine .bind ⟨lower, .inr rfl⟩ fun flow => ?_
        cases flow with
        | normal | continues => exact .bind ⟨lower, .inl rfl⟩ fun _ => ⟨lower, .inr rfl⟩
        | breaks | returns => trivial
    cases condition with
    | none => exact again true
    | some expr => exact .bind ⟨lower, .inl rfl⟩ fun value => again value.isTruthy

theorem callClosure_uses (fuel : Nat) (closure : Closure) (arguments : List Value) (paren : Token) :
    (callClosure fuel closure arguments paren).Uses (Job.Substatement fuel) := by
  cases fuel with
  | zero => trivial
  | succ fuel => exact ⟨⟨Nat.lt_succ_self fuel, .inr rfl⟩, fun _ => trivial⟩

theorem runTopLevel_uses (fuel : Nat) (stmts : List (Stmt Binding)) :
    (runTopLevel fuel stmts).Uses (Job.Subprogram (fuel + stmts.length + 1)) := by
  cases stmts with
  | nil => trivial
  | cons stmt rest =>
    have lower : fuel < fuel + (rest.length + 1) + 1 := by omega
    refine .bind ⟨lower, .inl rfl⟩ fun flow => ?_
    cases flow with
    | normal => exact ⟨Nat.lt_succ_self (fuel + rest.length + 1), .inr rfl⟩
    | _ => trivial

theorem result_uses (fuel : Nat) (stmt : Stmt Binding) :
    (result fuel stmt).Uses (Job.Substatement (fuel + 1)) := by
  have lower : fuel < fuel + 1 := Nat.lt_succ_self fuel
  cases stmt with
  | expression => exact .bind ⟨lower, .inl rfl⟩ fun _ => trivial
  | _ => exact .bind ⟨lower, .inr rfl⟩ fun _ => trivial

end Script

namespace Job

/-- What a job starts, by what it works on itself. -/
theorem substarts (holder : Job) : holder.script.Uses fun part =>
    match holder with
    | call _ _ _ _ | construct _ _ _ _ => part.Subcall holder.rank
    | runTopLevel _ _ => part.Subprogram holder.rank
    | callClosure _ _ _ _ | execute _ _ | executeEach _ _ | executePart _ _ | loop _ _ _ _
    | result _ _ => part.Substatement holder.rank
    | _ => part.Subexpression holder.rank := by
  cases holder with
  | evaluate => exact Script.evaluate_uses _ _
  | evaluateEach => exact Script.evaluateEach_uses _ _
  | evaluateLast => exact Script.evaluateLast_uses _ _ _
  | evaluatePart => exact Script.evaluatePart_uses _ _
  | storeEach => exact Script.storeEach_uses _ _ _
  | perform => trivial
  | call => exact Script.call_uses _ _ _ _
  | construct => exact Script.construct_uses _ _ _ _
  | callClosure => exact Script.callClosure_uses _ _ _ _
  | execute => exact Script.execute_uses _ _
  | executeEach => exact Script.executeEach_uses _ _
  | executePart => exact Script.executePart_uses _ _
  | loop => exact Script.loop_uses _ _ _ _
  | runTopLevel => exact Script.runTopLevel_uses _ _
  | result => exact Script.result_uses _ _

theorem script_uses (holder : Job) : holder.script.Uses (·.rank < holder.rank) :=
  holder.substarts.mono fun part sub => by cases holder <;> exact sub.1

variable {holder part : Job} {machine moment : Machine}

/-- Only calls go into callees. -/
theorem caller_of_starts (entry : part.kind = .callee)
    (starts : holder.script.Starts machine part moment) :
    (∃ fuel callee arguments paren, holder = call fuel callee arguments paren) ∨
      ∃ fuel classId arguments paren, holder = construct fuel classId arguments paren := by
  have sub := holder.substarts.of_starts starts
  cases holder with
  | call fuel callee arguments paren => exact .inl ⟨fuel, callee, arguments, paren, rfl⟩
  | construct fuel classId arguments paren => exact .inr ⟨fuel, classId, arguments, paren, rfl⟩
  | evaluate | evaluateEach | evaluateLast | evaluatePart | storeEach | perform =>
    cases entry.symm.trans sub.2
  | callClosure | execute | executeEach | executePart | loop | runTopLevel | result =>
    rcases sub.2 with same | same <;> cases entry.symm.trans same

/-- Nothing starts a statement that is stepped through. -/
theorem not_stepped_of_starts (starts : holder.script.Starts machine part moment) :
    part.kind ≠ .stepped := by
  intro stepped
  have sub := holder.substarts.of_starts starts
  cases holder with
  | call | construct | evaluate | evaluateEach | evaluateLast | evaluatePart | storeEach | perform =>
    cases stepped.symm.trans sub.2
  | callClosure | execute | executeEach | executePart | loop | runTopLevel | result =>
    rcases sub.2 with same | same <;> cases stepped.symm.trans same

end Job

/-! ## Invariants -/

/-- What is left by a run keeps to the invariant. -/
def Outcome.Obeys {α : Type} (inv : Machine → Prop) (outcome : Outcome α) : Prop :=
  outcome.Ends inv (fun _ => True) fun _ => True

/-- From this machine on, the steps of the script keep an invariant and every job that it starts is one
of these, so long as the jobs before it kept the invariant. -/
def Script.Sound (inv : Machine → Prop) (fits : Job → Prop) : {α : Type} → Script α → Machine → Prop
  | _, .step plain, machine => (plain machine).Obeys inv
  | _, .job own, _ => fits own
  | _, .bind first rest, machine =>
    first.Sound inv fits machine ∧ ∀ result middle,
      first.run machine = .finished result middle → inv middle → (rest result).Sound inv fits middle
  | _, .inScope inner, machine => inner.Sound inv fits machine.enter
  | _, .inCall closure arguments _ body, machine =>
    body.Sound inv fits (machine.enterCall closure arguments)

theorem Outcome.Obeys.bind {α β : Type} {inv : Machine → Prop} {machine : Machine} {first : Step α}
    {rest : α → Step β} (obeys : (first machine).Obeys inv)
    (further : ∀ result middle, inv middle → (rest result middle).Obeys inv) :
    ((first >>= rest) machine).Obeys inv :=
  Step.ends_bind obeys fun result middle holds _ => further result middle holds

namespace Script.Sound

variable {α β : Type} {inv : Machine → Prop} {fits : Job → Prop} {machine : Machine}

theorem pure {result : α} (holds : inv machine) :
    (Pure.pure result : Script α).Sound inv fits machine := ⟨holds, trivial⟩

theorem outOfFuel : (Script.outOfFuel : Script α).Sound inv fits machine := trivial

theorem fail {problem : RuntimeProblem} {token : Token} (holds : inv machine) :
    (Script.fail problem token : Script α).Sound inv fits machine := ⟨holds, trivial⟩

theorem bind {first : Script α} {rest : α → Script β} (sound : first.Sound inv fits machine)
    (further : ∀ result middle, first.run machine = .finished result middle → inv middle →
      (rest result).Sound inv fits middle) : (first >>= rest).Sound inv fits machine :=
  ⟨sound, further⟩

theorem readHeap_bind {f : Heap → α} {rest : α → Script β} (holds : inv machine)
    (further : (rest (f machine.heap)).Sound inv fits machine) :
    (Script.readHeap f >>= rest).Sound inv fits machine := by
  refine ⟨⟨holds, trivial⟩, fun result middle ran _ => ?_⟩
  cases ran
  exact further

end Script.Sound

/-- Jobs of this sort keep the invariant and start jobs of this sort only. -/
structure Job.Closed (inv : Machine → Prop) (fits : Job → Prop) : Prop where
  enter : ∀ machine, inv machine → inv machine.enter
  leave : ∀ machine, inv machine → inv machine.leave
  enterCall : ∀ machine closure arguments, inv machine → inv (machine.enterCall closure arguments)
  leaveCall : ∀ caller machine, inv machine → inv (Machine.leaveCall caller machine)
  script : ∀ job machine, fits job → inv machine → job.script.Sound inv fits machine

namespace Job.Closed

variable {α : Type} {machine moment : Machine} {job root : Job} {inv : Machine → Prop}
  {fits good : Job → Prop} (closed : Job.Closed inv fits)

include closed

/-- A script keeps the invariant if the jobs that it uses do. -/
theorem obeys_of_sound {script : Script α} (sound : script.Sound inv fits machine)
    (uses : script.Uses good)
    (jobs : ∀ job : Job, good job → ∀ machine, fits job → inv machine → (job.run machine).Obeys inv)
    (holds : inv machine) : (script.run machine).Obeys inv := by
  induction script generalizing machine with
  | step plain => exact sound
  | job own => exact jobs own uses machine sound holds
  | bind first rest ihFirst ihRest =>
    have early := ihFirst sound.1 uses.1 holds
    change ((first.run >>= fun result => (rest result).run) machine).Obeys inv
    -- What follows is sound only after a result, and on a machine that kept the invariant.
    cases outcome : first.run machine with
    | finished result middle =>
      rw [outcome] at early
      rw [Step.bind_of_finished outcome]
      exact ihRest result (sound.2 result middle outcome early.1) (uses.2 result) early.1
    | failed error middle =>
      rw [outcome] at early
      rw [Step.bind_of_failed outcome]
      exact early
    | outOfFuel =>
      rw [Step.bind_of_outOfFuel outcome]
      trivial
  | inScope inner ih =>
    exact Step.ends_inScope (ih sound uses (closed.enter _ holds)) closed.leave
  | inCall closure arguments paren body ih =>
    have inside := ih sound uses (closed.enterCall _ closure arguments holds)
    change (Step.inCall closure arguments paren body.run machine).Obeys inv
    rw [Step.inCall_eq]
    split
    · exact ⟨holds, trivial⟩
    · exact inside.mapMachine fun after => closed.leaveCall machine after

/-- A run leaves a machine that keeps to the invariant, by induction on the rank. -/
theorem obeys (fit : fits job) (holds : inv machine) : (job.run machine).Obeys inv := by
  induction rank : job.rank using Nat.strongRecOn generalizing job machine with
  | ind bound ih =>
    rw [← Job.script_run]
    refine closed.obeys_of_sound (closed.script job machine fit holds) job.script_uses ?_ holds
    intro part lower between fitPart holdsBetween
    exact ih part.rank (rank ▸ lower) fitPart holdsBetween rfl

/-- What a sound script starts is of the sort, on a machine that keeps to the invariant. -/
theorem of_starts {script : Script α} (sound : script.Sound inv fits machine) (holds : inv machine)
    (starts : script.Starts machine job moment) : fits job ∧ inv moment := by
  induction script generalizing machine with
  | step plain => exact starts.elim
  | job own =>
    obtain ⟨rfl, rfl⟩ := starts
    exact ⟨sound, holds⟩
  | bind first rest ihFirst ihRest =>
    obtain early | ⟨result, middle, ran, late⟩ := starts
    · exact ihFirst sound.1 holds early
    · -- It is started behind a part that has run, and runs keep the invariant.
      have obeys := closed.obeys_of_sound sound.1 (.all fun _ => trivial)
        (fun _ (_ : True) _ => closed.obeys) holds
      rw [ran] at obeys
      exact ihRest result (sound.2 result middle ran obeys.1) obeys.1 late
  | inScope inner ih => exact ih sound (closed.enter _ holds) starts
  | inCall closure arguments paren body ih =>
    exact ih sound (closed.enterCall _ closure arguments holds) starts.2

/-- So it is of all that a run comes to. -/
theorem of_visits (fit : fits root) (holds : inv machine)
    (visits : root.Visits machine job moment) : fits job ∧ inv moment := by
  induction visits with
  | here => exact ⟨fit, holds⟩
  | @further holder part between moment _ starts ih =>
    exact closed.of_starts (closed.script holder between ih.1 ih.2) ih.2 starts

end Job.Closed

end Lox
