import Lox.Proofs.Jobs.Visits
import Lox.Proofs.Reach.Calls

/-!
# What runs do to classes and instances

A run declares classes, makes instances and sets fields, and in no other way does it touch classes and
instances. These are its deeds. The scripts of three jobs say where they are done: those of the jobs that
construct an instance, store a value into targets and execute a statement. Told like this a script is an
account. It is the same script, so what it says of deeds is said of the run itself.

A step of a script is taken as a whole: no code of the program runs inside one.
-/

namespace Lox

/-! ## Deeds -/

/-- An execution of a class declaration: the class that the name of the superclass came to, and the
methods as they are written. -/
structure Declaration where
  name : String
  superclass : Option ClassId
  methods : List (Method Binding)

inductive Deed where
  | declares (declaration : Declaration)
  | makes (classId : ClassId)
  | sets (id : InstanceId) (field : String) (value : Value)

/-- Of the methods of a name the one that is written last. -/
def Method.last? (methods : List (Method Binding)) (name : String) : Option (Method Binding) :=
  (methods.filter fun method => method.name.text == name).getLast?

namespace Deed

def declaration? : Deed → Option Declaration
  | declares declaration => some declaration
  | _ => none

def madeOf? : Deed → Option ClassId
  | makes classId => some classId
  | _ => none

/-- The value that the deed gives to a field of an instance. -/
def value? (id : InstanceId) (field : String) : Deed → Option Value
  | sets other name value => if other = id ∧ name = field then some value else none
  | _ => none

/-- The declarations among some deeds. Classes are denoted by their numbers in this order. -/
def declarations (past : List Deed) : List Declaration := past.filterMap declaration?

/-- The classes of the instances that were made. Instances are denoted by their numbers in this order. -/
def makings (past : List Deed) : List ClassId := past.filterMap madeOf?

/-- The value that was most recently set to a field of an instance, if it ever was. -/
def lastSet? (past : List Deed) (id : InstanceId) (field : String) : Option Value :=
  (past.filterMap (value? id field)).getLast?

end Deed

/-! ## Accounts -/

/-- How a job is put together, and what each of its steps does if it does not fail. -/
inductive Account : Type → Type 1 where
  | step {α : Type} (plain : Step α) (told : Machine → List Deed) : Account α
  | job (own : Job) : Account own.Result
  | bind {α β : Type} (first : Account α) (rest : α → Account β) : Account β
  | inScope {α : Type} (inner : Account α) : Account α
  | inCall (closure : Closure) (arguments : List Value) (paren : Token) (body : Account Flow) :
    Account Flow

namespace Account

variable {α β : Type}

/-- A step that does none of these things. -/
def quiet (plain : Step α) : Account α := .step plain fun _ => []

instance : Monad Account where
  pure result := quiet (pure result)
  bind := Account.bind

/-- The script that is told. -/
def script : {α : Type} → Account α → Script α
  | _, .step plain _ => .step plain
  | _, .job own => .job own
  | _, .bind first rest => .bind first.script fun result => (rest result).script
  | _, .inScope inner => .inScope inner.script
  | _, .inCall closure arguments paren body => .inCall closure arguments paren body.script

/-- A script none of whose own steps does any of these things. -/
def ofScript : {α : Type} → Script α → Account α
  | _, .step plain => quiet plain
  | _, .job own => .job own
  | _, .bind first rest => .bind (ofScript first) fun result => ofScript (rest result)
  | _, .inScope inner => .inScope (ofScript inner)
  | _, .inCall closure arguments paren body => .inCall closure arguments paren (ofScript body)

/-! ### Where deeds are done -/

def addInstance (classId : ClassId) : Account InstanceId :=
  .step (Step.changeHeap (·.addInstance classId)) fun _ => [.makes classId]

def setProperty (object : Value) (name : Name) (value : Value) : Account Unit :=
  .step (Step.setProperty object name value) fun _ =>
    match object with
    | .object id => [.sets id name.text value]
    | _ => []

def declareClass (name : Name) (superclass : Option (Superclass Binding))
    (methods : List (Method Binding)) : Account Unit :=
  .step (Step.declareClass name superclass methods) fun machine =>
    match Step.superclassOf superclass machine with
    | .finished parent _ => [.declares ⟨name.text, parent, methods⟩]
    | _ => []

def construct : Nat → ClassId → List Value → Token → Account Value
  | 0, _, _, _ => quiet Step.outOfFuel
  | fuel + 1, classId, arguments, paren => do
    match ← quiet (Step.readHeap (·.findMethod? initializerName classId)) with
    | none =>
      quiet (Step.checkArity 0 arguments.length paren)
      let id ← addInstance classId
      pure (.object id)
    | some initializer =>
      let arity ← quiet (Step.readHeap fun heap =>
        ((heap.functions[initializer]?).map (·.lambda.parameters.length)).getD 0)
      quiet (Step.checkArity arity arguments.length paren)
      let id ← addInstance classId
      let bound ← quiet (Step.changeHeap (·.bindMethod initializer id))
      match ← quiet (Step.readHeap (·.functions[bound]?)) with
      | none => pure (.object id)
      | some closure =>
        let _ ← job (.callClosure fuel closure arguments paren)
        pure (.object id)

def storeEach : Nat → Value → List (Target Binding) → Account Unit
  | 0, _, _ => quiet Step.outOfFuel
  | fuel + 1, value, targets =>
    match targets with
    | [] => pure ()
    | .name name binding :: rest => do
      quiet (Step.assignOrDefine name binding value)
      job (.storeEach fuel value rest)
    | .property object name :: rest => do
      let object ← job (.evaluate fuel object)
      setProperty object name value
      job (.storeEach fuel value rest)

def execute : Nat → Stmt Binding → Account Flow
  | fuel + 1, .set object name value => do
    match ← job (.evaluate fuel object) with
    | .object id =>
      let value ← job (.evaluate fuel value)
      setProperty (.object id) name value
      pure .normal
    | _ => quiet (Step.fail .fieldOfNonInstance name.token)
  | _ + 1, .classDecl name superclass methods => do
    declareClass name superclass methods
    pure .normal
  | fuel, stmt => ofScript (Script.execute fuel stmt)

end Account

def Job.account : (job : Job) → Account job.Result
  | construct fuel classId arguments paren => Account.construct fuel classId arguments paren
  | storeEach fuel value targets => Account.storeEach fuel value targets
  | execute fuel stmt => Account.execute fuel stmt
  | job => .ofScript job.script

/-! ### Accounts tell the scripts -/

namespace Account

variable {α β : Type}

theorem script_bind_eq {first : Account α} {rest : α → Account β} {script : Script α}
    {continuation : α → Script β} (same : first.script = script)
    (sameRest : ∀ result, (rest result).script = continuation result) :
    (first >>= rest).script = script >>= continuation := by
  change Script.bind first.script (fun result => (rest result).script) = _
  rw [same]
  exact congrArg (Script.bind script) (funext sameRest)

theorem script_ofScript (script : Script α) : (ofScript script).script = script := by
  induction script with
  | step plain => rfl
  | job own => rfl
  | bind first rest ihFirst ihRest => exact script_bind_eq ihFirst ihRest
  | inScope inner ih => exact congrArg Script.inScope ih
  | inCall closure arguments paren body ih => exact congrArg (Script.inCall closure arguments paren) ih

theorem script_construct (fuel : Nat) (classId : ClassId) (arguments : List Value) (paren : Token) :
    (construct fuel classId arguments paren).script =
      Script.construct fuel classId arguments paren := by
  cases fuel with
  | zero => rfl
  | succ fuel =>
    refine script_bind_eq rfl fun initializer? => ?_
    cases initializer? with
    | none => rfl
    | some initializer =>
      refine script_bind_eq rfl fun arity => script_bind_eq rfl fun _ => ?_
      refine script_bind_eq rfl fun id => script_bind_eq rfl fun bound => ?_
      refine script_bind_eq rfl fun found => ?_
      cases found <;> rfl

theorem script_storeEach (fuel : Nat) (value : Value) (targets : List (Target Binding)) :
    (storeEach fuel value targets).script = Script.storeEach fuel value targets := by
  match fuel, targets with
  | 0, _ | _ + 1, [] | _ + 1, .name _ _ :: _ | _ + 1, .property _ _ :: _ => rfl

theorem script_execute (fuel : Nat) (stmt : Stmt Binding) :
    (execute fuel stmt).script = Script.execute fuel stmt := by
  cases fuel with
  | zero => exact script_ofScript _
  | succ fuel =>
    cases stmt with
    | set object name value =>
      refine script_bind_eq rfl fun object => ?_
      cases object <;> rfl
    | classDecl name superclass methods => rfl
    | _ => exact script_ofScript _

end Account

theorem Job.account_script (job : Job) : job.account.script = job.script := by
  cases job with
  | construct fuel classId arguments paren => exact Account.script_construct fuel classId arguments paren
  | storeEach fuel value targets => exact Account.script_storeEach fuel value targets
  | execute fuel stmt => exact Account.script_execute fuel stmt
  | _ => exact Account.script_ofScript _

/-! ## The deeds of a run -/

/-- What a step did that ended so: what is told of it, unless it failed. -/
def Outcome.deeds {α : Type} (told : List Deed) : Outcome α → List Deed
  | finished _ _ => told
  | _ => []

/-- What a run of the account does on a machine, given what jobs do. -/
def Account.deeds (jobs : Job → Machine → List Deed) : {α : Type} → Account α → Machine → List Deed
  | _, .step plain told, machine => (plain machine).deeds (told machine)
  | _, .job own, machine => jobs own machine
  | _, .bind first rest, machine =>
    first.deeds jobs machine ++
      match first.script.run machine with
      | .finished result middle => (rest result).deeds jobs middle
      | _ => []
  | _, .inScope inner, machine => inner.deeds jobs machine.enter
  | _, .inCall closure arguments _ body, machine =>
    if Step.maximumDepth ≤ machine.depth then []
    else body.deeds jobs (machine.enterCall closure arguments)

/-- What a run of the job does, short of jobs that many levels deep. -/
def Job.deedsWithin : Nat → Job → Machine → List Deed
  | 0, _, _ => []
  | bound + 1, job, machine => job.account.deeds (deedsWithin bound) machine

/-- What a run of the job does on a machine, in the order in which it is done. Jobs have jobs of lower
rank only, so this goes deep enough. -/
def Job.deeds (job : Job) (machine : Machine) : List Deed := job.deedsWithin (job.rank + 1) machine

theorem Account.deeds_congr {α : Type} {account : Account α} {good : Job → Prop}
    {jobs others : Job → Machine → List Deed} (uses : account.script.Uses good)
    (same : ∀ job, good job → jobs job = others job) : account.deeds jobs = account.deeds others := by
  induction account with
  | step plain told => rfl
  | job own => exact same own uses
  | bind first rest ihFirst ihRest =>
    funext machine
    simp only [deeds, ihFirst uses.1]
    congr 1
    split
    · exact congrFun (ihRest _ (uses.2 _)) _
    · rfl
  | inScope inner ih => exact funext fun machine => congrFun (ih uses) machine.enter
  | inCall closure arguments paren body ih =>
    funext machine
    simp only [deeds, ih uses]

namespace Job

theorem account_uses (job : Job) : job.account.script.Uses (·.rank < job.rank) :=
  job.account_script ▸ job.script_uses

/-- However far one goes beyond the rank, the deeds are the same. -/
theorem deedsWithin_eq {job : Job} {bound : Nat} (deep : job.rank < bound) :
    job.deedsWithin bound = job.deeds := by
  induction ranked : job.rank using Nat.strongRecOn generalizing job bound with
  | ind rank ih =>
    obtain ⟨bound, rfl⟩ := Nat.exists_eq_succ_of_ne_zero (Nat.ne_zero_of_lt deep)
    refine Account.deeds_congr job.account_uses fun part lower => ?_
    have below : part.rank < rank := ranked ▸ lower
    exact (ih part.rank below (by omega) rfl).trans (ih part.rank below (by omega) rfl).symm

theorem deeds_eq (job : Job) (machine : Machine) :
    job.deeds machine = job.account.deeds deeds machine :=
  congrFun (Account.deeds_congr job.account_uses fun _ lower => deedsWithin_eq lower) machine

end Job

/-! ## On the way -/

/-- A run of the account on a machine comes to a moment when it has done these deeds. -/
inductive Account.Reaches : {α : Type} → Account α → Machine → List Deed → Machine → Prop where
  | start {α : Type} {account : Account α} {machine : Machine} : Reaches account machine [] machine
  | ended {α : Type} {account : Account α} {machine after : Machine} :
      (account.script.run machine).machine? = some after →
        Reaches account machine (account.deeds Job.deeds machine) after
  | job {own : Job} {machine moment : Machine} {deeds : List Deed} :
      Reaches own.account machine deeds moment → Reaches (.job own) machine deeds moment
  | first {α β : Type} {first : Account α} {rest : α → Account β} {machine moment : Machine}
      {deeds : List Deed} :
      Reaches first machine deeds moment → Reaches (first.bind rest) machine deeds moment
  | rest {α β : Type} {first : Account α} {rest : α → Account β} {result : α}
      {machine middle moment : Machine} {deeds : List Deed} :
      first.script.run machine = .finished result middle → Reaches (rest result) middle deeds moment →
        Reaches (first.bind rest) machine (first.deeds Job.deeds machine ++ deeds) moment
  | scope {α : Type} {inner : Account α} {machine moment : Machine} {deeds : List Deed} :
      Reaches inner machine.enter deeds moment → Reaches (inner.inScope) machine deeds moment
  | body {closure : Closure} {arguments : List Value} {paren : Token} {body : Account Flow}
      {machine moment : Machine} {deeds : List Deed} :
      machine.depth < Step.maximumDepth →
        Reaches body (machine.enterCall closure arguments) deeds moment →
          Reaches (.inCall closure arguments paren body) machine deeds moment

namespace Session

/-- The states that sessions come to, between programs and at every moment of a program or of a statement
that is stepped through, resolved or not, with all that was done since the beginning. -/
inductive Past : List Deed → Machine → Prop where
  | initial (output : Output) (clock : Nat → Number) : Past [] (.initial output clock)
  | install {past : List Deed} {machine : Machine} {native : Native} :
      Past past machine → native.Discreet → Past past (machine.install native)
  | during {past deeds : List Deed} {machine moment : Machine} {root : Job} :
      Past past machine → root.IsRoot → root.account.Reaches machine deeds moment →
        Past (past ++ deeds) moment

namespace Past

variable {past : List Deed} {machine after : Machine}

theorem of_run (reached : Past past machine) {root : Job} (isRoot : root.IsRoot)
    (leaves : (root.run machine).machine? = some after) : Past (past ++ root.deeds machine) after := by
  rw [← Job.script_run, ← Job.account_script] at leaves
  exact root.deeds_eq machine ▸ reached.during isRoot (.ended leaves)

/-- Whatever text a session is given, it leaves one of these states. -/
theorem answer {fuel : Nat} {mode : Mode} {source : String} {answer : Answer}
    (reached : Past past machine)
    (answered : Session.answer fuel mode source machine = some answer) :
    ∃ deeds, Past (past ++ deeds) answer.machine := by
  refine answer_induction (fun left => ∃ deeds, Past (past ++ deeds) left)
    ⟨[], (List.append_nil past).symm ▸ reached⟩ ?_ ?_ answered
  · intro stmts _ after leaves
    have isRoot : (Job.runTopLevel fuel stmts).IsRoot := trivial
    exact ⟨_, reached.of_run isRoot leaves⟩
  · intro stmts _ stmt _ before later ⟨deeds, onward⟩ leaves
    have isRoot : (Job.result fuel stmt).IsRoot := trivial
    exact ⟨_, List.append_assoc .. ▸ onward.of_run isRoot leaves⟩

end Past

end Session

end Lox
