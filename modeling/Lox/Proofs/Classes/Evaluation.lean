import Lox.Proofs.Classes.Accounts

/-!
# Everything that runs do is told

Whatever a job is given is there when it starts, and so is what it gives when it ends: that is gone through
for the account of each job. So the classes and instances of every state that a session comes to are what
was done to them since the beginning.
-/

namespace Lox

/-! ## The accounts of the evaluator -/

namespace Account.Ensures

variable {α : Type} {machine : Machine} {last : α → Machine → Prop}

theorem quiet {plain : Step α} {post : α → Heap → Prop} (spares : plain.Spares machine post)
    (further : ∀ result after, machine.Spares after → post result after.heap → last result after) :
    (Account.quiet plain).Ensures last machine := by
  refine fun past accounted => (spares.accounts accounted).mono (fun result after ends => ?_) fun _ ends => ends
  exact ⟨ends.1, ends.2.1, further result after ends.2.2.1 ends.2.2.2⟩

theorem pure {result : α} (holds : last result machine) :
    (Pure.pure result : Account α).Ensures last machine :=
  fun past accounted => ⟨(List.append_nil past).symm ▸ accounted, .refl _, holds⟩

theorem fail (problem : RuntimeProblem) (token : Token) :
    (Account.quiet (Step.fail problem token)).Ensures last machine :=
  fun _ accounted => ⟨accounted, .refl _⟩

theorem addInstance {classId : ClassId} {last : InstanceId → Machine → Prop}
    (there : ¬(Node.classObject classId).IsNew machine.heap)
    (further : ∀ id after, machine.heap.Retains after.heap → after.heap.Knows (.object id) → last id after) :
    (Account.addInstance classId).Ensures last machine := by
  intro past accounted
  have ends := Step.addInstance_accounts there accounted
  exact ⟨ends.1, ends.2.1, further _ _ ends.2.1 ends.2.2⟩

theorem setProperty {object value : Value} {name : Name} {last : Unit → Machine → Prop}
    (known : machine.heap.Knows object) (knows : machine.heap.Knows value)
    (further : ∀ after, machine.heap.Retains after.heap → last () after) :
    (Account.setProperty object name value).Ensures last machine := by
  intro past accounted
  cases object with
  | object id =>
    have ends := Step.setField_accounts name.text known knows accounted
    exact ⟨ends.1, ends.2.1, further _ ends.2.1⟩
  | _ => exact ⟨accounted, .refl _⟩

theorem declareClass (name : Name) (superclass : Option (Superclass Binding))
    (methods : List (Method Binding)) {last : Unit → Machine → Prop} (further : ∀ after, last () after) :
    (Account.declareClass name superclass methods).Ensures last machine := by
  refine fun past accounted => (Step.declareClass_accounts name superclass methods accounted).mono
    (fun result after ends => ?_) fun _ ends => ends
  exact ⟨ends.1, ends.2.1, further after⟩

end Account.Ensures

namespace Job

open Account

variable {machine : Machine}

theorem evaluate_ensures (fuel : Nat) (expr : Expr Binding) :
    (evaluate fuel expr).account.Ensures (fun value after => after.heap.Knows value) machine := by
  cases fuel with
  | zero => exact fun _ _ => trivial
  | succ fuel =>
    cases expr with
    | literal value => exact .pure (Heap.knows_of_node?_eq_none value.node?_value)
    | group inner => exact ⟨trivial, fun _ _ _ knows => knows⟩
    | unary operator line operand =>
      refine ⟨trivial, fun value middle _ _ => ?_⟩
      exact Ensures.quiet (.ofOperands _ fun _ => UnaryOperator.node?_apply) fun _ _ _ knows => knows
    | binary operator line left right =>
      refine ⟨trivial, fun a middle _ _ => ⟨trivial, fun b last _ _ => ?_⟩⟩
      exact Ensures.quiet (.ofOperands _ fun _ => BinaryOperator.node?_apply) fun _ _ _ knows => knows
    | logical operator line left right =>
      refine ⟨trivial, fun value middle _ knows => ?_⟩
      dsimp only
      split
      · exact Ensures.pure knows
      · exact ⟨trivial, fun _ _ _ knows => knows⟩
    | comma operands => exact ⟨Heap.knows_of_node?_eq_none rfl, fun _ _ _ knows => knows⟩
    | conditional line condition thenBranch elseBranch =>
      refine ⟨trivial, fun value middle _ _ => ?_⟩
      dsimp only
      split
      · exact ⟨trivial, fun _ _ _ knows => knows⟩
      · exact ⟨trivial, fun _ _ _ knows => knows⟩
      · exact Ensures.fail _ _
    | reference name binding => exact Ensures.quiet (.lookUp _ _ _) fun _ _ _ knows => knows
    | assign name binding value =>
      refine ⟨trivial, fun value middle _ knows => ?_⟩
      refine Ensures.quiet (.assign name binding knows) fun _ after spares _ => ?_
      exact Ensures.pure (knows.later spares.heap.retains)
    | property object name =>
      refine ⟨trivial, fun value middle _ knows => ?_⟩
      cases value with
      | object id => exact Ensures.quiet (.getProperty knows name) fun _ _ _ knows => knows
      | _ => exact Ensures.fail _ _
    | call callee line arguments =>
      refine ⟨trivial, fun values middle _ known => ⟨trivial, fun value last retains knows => ?_⟩⟩
      refine ⟨⟨knows, fun argument member => (known argument member).later retains⟩, ?_⟩
      exact fun _ _ _ knows => knows
    | function lambda =>
      refine Ensures.quiet (.close none lambda false) fun id after _ there => ?_
      exact Ensures.pure (Heap.knows_function there)
    | thisInstance line binding => exact Ensures.quiet (.lookUp _ _ _) fun _ _ _ knows => knows
    | superMethod line binding method =>
      exact Ensures.quiet (.superProperty line binding method) fun _ _ _ knows => knows

theorem evaluateEach_ensures (fuel : Nat) (exprs : List (Expr Binding)) :
    (evaluateEach fuel exprs).account.Ensures
      (fun values after => ∀ value ∈ values, after.heap.Knows value) machine := by
  cases fuel with
  | zero => exact fun _ _ => trivial
  | succ fuel =>
    cases exprs with
    | nil => exact Ensures.pure nofun
    | cons expr rest =>
      refine ⟨trivial, fun value middle _ knows => ⟨trivial, fun values after retains known => ?_⟩⟩
      refine Ensures.pure fun other member => ?_
      cases member with
      | head => exact knows.later retains
      | tail _ member => exact known other member

theorem evaluateLast_ensures (fuel : Nat) {value : Value} (exprs : List (Expr Binding))
    (knows : machine.heap.Knows value) :
    (evaluateLast fuel value exprs).account.Ensures (fun value after => after.heap.Knows value)
      machine := by
  cases fuel with
  | zero => exact fun _ _ => trivial
  | succ fuel =>
    cases exprs with
    | nil => exact Ensures.pure knows
    | cons expr rest => exact ⟨trivial, fun value middle _ knows => ⟨knows, fun _ _ _ knows => knows⟩⟩

theorem evaluatePart_ensures (fuel : Nat) (part : Option (Expr Binding)) :
    (evaluatePart fuel part).account.Ensures (fun value after => after.heap.Knows value) machine := by
  cases fuel with
  | zero => exact fun _ _ => trivial
  | succ fuel =>
    cases part with
    | none => exact Ensures.pure (Heap.knows_of_node?_eq_none rfl)
    | some expr => exact ⟨trivial, fun _ _ _ knows => knows⟩

theorem call_ensures (fuel : Nat) {callee : Value} {arguments : List Value} (paren : Token)
    (fits : (call fuel callee arguments paren).Fits machine.heap) :
    (call fuel callee arguments paren).account.Ensures (fun value after => after.heap.Knows value)
      machine := by
  obtain ⟨knows, known⟩ := fits
  cases fuel with
  | zero => exact fun _ _ => trivial
  | succ fuel =>
    cases callee with
    | native id =>
      refine Ensures.quiet (.readHeap (fun found heap => ∀ native ∈ found, native.Discreet)
        fun intact native found => intact.discreet id native found) fun found middle spares tells => ?_
      cases found with
      | none => exact Ensures.fail _ _
      | some native =>
        refine Ensures.quiet (.checkArity _ _ _) fun _ after more _ => ?_
        have retains := spares.heap.retains.trans more.heap.retains
        exact ⟨⟨tells native rfl, fun argument member => (known argument member).later retains⟩,
          fun _ _ _ knows => knows⟩
    | function id =>
      refine Ensures.quiet (.readHeap (fun found heap => ∀ closure ∈ found,
        ¬(Node.frame closure.frame).IsNew heap) fun intact closure found =>
          intact.links _ _ (.closure found)) fun found middle spares there => ?_
      cases found with
      | none => exact Ensures.fail _ _
      | some closure =>
        refine Ensures.quiet (.checkArity _ _ _) fun _ after more _ => ?_
        have retains := spares.heap.retains.trans more.heap.retains
        exact ⟨⟨fun new => there closure rfl (more.heap.retains.isNew new), fun argument member =>
          (known argument member).later retains⟩, fun _ _ _ knows => knows⟩
    | classObject id => exact ⟨⟨knows _ rfl, known⟩, fun _ _ _ knows => knows⟩
    | _ => exact Ensures.fail _ _

theorem construct_ensures (fuel : Nat) {classId : ClassId} {arguments : List Value} (paren : Token)
    (fits : (construct fuel classId arguments paren).Fits machine.heap) :
    (construct fuel classId arguments paren).account.Ensures
      (fun value after => after.heap.Knows value) machine := by
  obtain ⟨there, known⟩ := fits
  cases fuel with
  | zero => exact fun _ _ => trivial
  | succ fuel =>
    refine Ensures.quiet (.readHeap (fun found heap => ∀ method ∈ found,
      ¬(Node.function method).IsNew heap) fun intact method found => intact.findMethod? found)
      fun found first looked isThere => ?_
    cases found with
    | none =>
      refine Ensures.quiet (.checkArity _ _ _) fun _ second counted _ => ?_
      have retains := looked.heap.retains.trans counted.heap.retains
      refine Ensures.addInstance (fun new => there (retains.isNew new)) fun id third _ known => ?_
      exact Ensures.pure known
    | some initializer =>
      refine Ensures.quiet (.readHeap (fun _ _ => True) fun _ => trivial) fun arity second read _ => ?_
      refine Ensures.quiet (.checkArity _ _ _) fun _ third counted _ => ?_
      have retains := (looked.heap.retains.trans read.heap.retains).trans counted.heap.retains
      refine Ensures.addInstance (fun new => there (retains.isNew new)) fun id fourth made knows => ?_
      have method : ¬(Node.function initializer).IsNew fourth.heap := fun new =>
        isThere initializer rfl
          (((read.heap.retains.trans counted.heap.retains).trans made).isNew new)
      refine Ensures.quiet (.bindMethod method knows) fun bound fifth binds _ => ?_
      refine Ensures.quiet (.readHeap (fun found heap => ∀ closure ∈ found,
        ¬(Node.frame closure.frame).IsNew heap) fun intact closure found =>
          intact.links _ _ (.closure found)) fun found sixth again thereFrame => ?_
      have onward := binds.heap.retains.trans again.heap.retains
      cases found with
      | none => exact Ensures.pure (knows.later onward)
      | some closure =>
        refine ⟨⟨thereFrame closure rfl, fun argument member => ?_⟩, fun _ last ran _ => ?_⟩
        · exact (known argument member).later ((retains.trans made).trans onward)
        · exact Ensures.pure (knows.later (onward.trans ran))

theorem callClosure_ensures (fuel : Nat) {closure : Closure} {arguments : List Value} (paren : Token)
    (fits : (callClosure fuel closure arguments paren).Fits machine.heap) :
    (callClosure fuel closure arguments paren).account.Ensures
      (fun value after => after.heap.Knows value) machine := by
  obtain ⟨there, known⟩ := fits
  cases fuel with
  | zero => exact fun _ _ => trivial
  | succ fuel =>
    refine ⟨there, known, trivial, fun flow after _ knows => ?_⟩
    exact Ensures.quiet (.callResult closure knows) fun _ _ _ knows => knows

theorem storeEach_ensures (fuel : Nat) {value : Value} (targets : List (Target Binding))
    (knows : machine.heap.Knows value) :
    (storeEach fuel value targets).account.Ensures (fun _ _ => True) machine := by
  cases fuel with
  | zero => exact fun _ _ => trivial
  | succ fuel =>
    match targets with
    | [] => exact Ensures.pure trivial
    | .name name binding :: rest =>
      refine Ensures.quiet (.assignOrDefine name binding knows) fun _ middle spares _ => ?_
      exact ⟨knows.later spares.heap.retains, fun _ _ _ _ => trivial⟩
    | .property object name :: rest =>
      refine ⟨trivial, fun object middle retains known => ?_⟩
      have still := knows.later retains
      refine Ensures.setProperty known still fun after changed => ?_
      exact ⟨still.later changed, fun _ _ _ _ => trivial⟩

theorem execute_ensures (fuel : Nat) (stmt : Stmt Binding) :
    (execute fuel stmt).account.Ensures (fun flow after => after.heap.KnowsFlow flow) machine := by
  cases fuel with
  | zero => exact fun _ _ => trivial
  | succ fuel =>
    cases stmt with
    | expression value => exact ⟨trivial, fun _ _ _ _ => Ensures.pure trivial⟩
    | varDecl name initializer =>
      refine ⟨trivial, fun value middle _ knows => ?_⟩
      exact Ensures.quiet (.define name.text knows) fun _ _ _ _ => Ensures.pure trivial
    | assign targets value =>
      exact ⟨trivial, fun value middle _ knows => ⟨knows, fun _ _ _ _ => Ensures.pure trivial⟩⟩
    | set object name value =>
      refine ⟨trivial, fun object middle _ known => ?_⟩
      cases object with
      | object id =>
        refine ⟨trivial, fun value last retains knows => ?_⟩
        exact Ensures.setProperty (known.later retains) knows fun _ _ => Ensures.pure trivial
      | _ => exact Ensures.fail _ _
    | block body => exact ⟨trivial, fun _ _ _ knows => knows⟩
    | branch condition thenBranch elseBranch =>
      change (Account.bind _ _).Ensures _ _
      refine ⟨trivial, fun value middle _ _ => ?_⟩
      dsimp only
      split
      · exact ⟨trivial, fun _ _ _ knows => knows⟩
      · exact ⟨trivial, fun _ _ _ knows => knows⟩
    | whileLoop condition body => exact ⟨trivial, fun _ _ _ knows => knows⟩
    | forLoop initializer condition increment body =>
      exact ⟨trivial, fun _ _ _ _ => ⟨trivial, fun _ _ _ knows => knows⟩⟩
    | breakLoop line | continueLoop line => exact Ensures.pure trivial
    | funDecl name lambda =>
      exact Ensures.quiet (.declareFunction name lambda) fun _ _ _ _ => Ensures.pure trivial
    | returnValue line value => exact ⟨trivial, fun _ _ _ knows => Ensures.pure knows⟩
    | classDecl name superclass methods =>
      exact Ensures.declareClass name superclass methods fun _ => Ensures.pure trivial

theorem executeEach_ensures (fuel : Nat) (stmts : List (Stmt Binding)) :
    (executeEach fuel stmts).account.Ensures (fun flow after => after.heap.KnowsFlow flow) machine := by
  cases fuel with
  | zero => exact fun _ _ => trivial
  | succ fuel =>
    cases stmts with
    | nil => exact Ensures.pure trivial
    | cons stmt rest =>
      refine ⟨trivial, fun flow middle _ knows => ?_⟩
      cases flow with
      | normal => exact ⟨trivial, fun _ _ _ knows => knows⟩
      | _ => exact Ensures.pure knows

theorem executePart_ensures (fuel : Nat) (part : Option (Stmt Binding)) :
    (executePart fuel part).account.Ensures (fun flow after => after.heap.KnowsFlow flow) machine := by
  cases fuel with
  | zero => exact fun _ _ => trivial
  | succ fuel =>
    cases part with
    | none => exact Ensures.pure trivial
    | some stmt => exact ⟨trivial, fun _ _ _ knows => knows⟩

theorem round_ensures (fuel : Nat) (condition increment : Option (Expr Binding)) (body : Stmt Binding)
    (holds : Bool) :
    (ofScript (Script.round fuel condition increment body holds)).Ensures
      (fun flow after => after.heap.KnowsFlow flow) machine := by
  cases holds with
  | false => exact Ensures.pure trivial
  | true =>
    refine ⟨trivial, fun flow middle _ knows => ?_⟩
    cases flow with
    | breaks line => exact Ensures.pure trivial
    | returns line value => exact Ensures.pure knows
    | normal | continues => exact ⟨trivial, fun _ _ _ _ => ⟨trivial, fun _ _ _ knows => knows⟩⟩

theorem loop_ensures (fuel : Nat) (condition increment : Option (Expr Binding)) (body : Stmt Binding) :
    (loop fuel condition increment body).account.Ensures
      (fun flow after => after.heap.KnowsFlow flow) machine := by
  cases fuel with
  | zero => exact fun _ _ => trivial
  | succ fuel =>
    cases condition with
    | none => exact round_ensures fuel none increment body true
    | some expr =>
      exact ⟨trivial, fun value _ _ _ => round_ensures fuel (some expr) increment body value.isTruthy⟩

theorem runTopLevel_ensures (fuel : Nat) (stmts : List (Stmt Binding)) :
    (runTopLevel fuel stmts).account.Ensures (fun _ _ => True) machine := by
  cases stmts with
  | nil => exact Ensures.pure trivial
  | cons stmt rest =>
    refine ⟨trivial, fun flow middle _ _ => ?_⟩
    cases flow with
    | normal => exact ⟨trivial, fun _ _ _ _ => trivial⟩
    | _ => exact Ensures.fail _ _

theorem result_ensures (fuel : Nat) (stmt : Stmt Binding) :
    (result fuel stmt).account.Ensures (fun _ _ => True) machine := by
  cases stmt <;> exact ⟨trivial, fun _ _ _ _ => Ensures.pure trivial⟩

theorem account_ensures (job : Job) (fits : job.Fits machine.heap) :
    job.account.Ensures (fun result after => job.Gives after.heap result) machine := by
  cases job with
  | evaluate fuel expr => exact evaluate_ensures fuel expr
  | evaluateEach fuel exprs => exact evaluateEach_ensures fuel exprs
  | evaluateLast fuel last exprs => exact evaluateLast_ensures fuel exprs fits
  | evaluatePart fuel part => exact evaluatePart_ensures fuel part
  | call fuel callee arguments paren => exact call_ensures fuel paren fits
  | construct fuel classId arguments paren => exact construct_ensures fuel paren fits
  | callClosure fuel closure arguments paren => exact callClosure_ensures fuel paren fits
  | perform native arguments paren =>
    exact Ensures.quiet (.perform paren fits.1 fits.2) fun _ _ _ knows => knows
  | storeEach fuel value targets => exact storeEach_ensures fuel targets fits
  | execute fuel stmt => exact execute_ensures fuel stmt
  | executeEach fuel stmts => exact executeEach_ensures fuel stmts
  | executePart fuel part => exact executePart_ensures fuel part
  | loop fuel condition increment body => exact loop_ensures fuel condition increment body
  | runTopLevel fuel stmts => exact runTopLevel_ensures fuel stmts
  | result fuel stmt => exact result_ensures fuel stmt

/-! ## Runs -/

variable {past deeds : List Deed} {moment : Machine}

/-- A run that ends has told all that it did, by induction on the rank. -/
theorem tells (job : Job) (fits : job.Fits machine.heap) (accounted : machine.Accounted past) :
    (job.run machine).Tells machine (past ++ job.deeds machine) fun result after =>
      job.Gives after.heap result := by
  induction ranked : job.rank using Nat.strongRecOn generalizing job machine past with
  | ind rank ih =>
    rw [← job.script_run, ← job.account_script, job.deeds_eq]
    refine (job.account_ensures fits).tells job.account_uses ?_ accounted
    intro own lower between before fitsOwn accountedBetween
    exact ih own.rank (ranked ▸ lower) own fitsOwn accountedBetween rfl

end Job

/-- At every moment of a run all that was done is told. -/
theorem Account.Reaches.accounted {α : Type} {account : Account α} {machine moment : Machine}
    {past deeds : List Deed} {post : α → Machine → Prop}
    (reaches : account.Reaches machine deeds moment) (ensures : account.Ensures post machine)
    (accounted : machine.Accounted past) : moment.Accounted (past ++ deeds) := by
  have tells : ∀ {β : Type} {part : Account β} {post : β → Machine → Prop} {before : Machine}
      {past : List Deed}, part.Ensures post before → before.Accounted past →
        (part.script.run before).Tells before (past ++ part.deeds Job.deeds before) post :=
    fun ensures accounted => ensures.tells (.all fun _ => trivial)
      (fun own (_ : True) _ _ => own.tells) accounted
  induction reaches generalizing past with
  | start => exact (List.append_nil past).symm ▸ accounted
  | @ended _ account machine after leaves =>
    have ends := tells ensures accounted
    cases outcome : account.script.run machine with
    | finished result last | failed error last =>
      rw [outcome] at ends leaves
      cases leaves
      exact ends.1
    | outOfFuel =>
      rw [outcome] at leaves
      cases leaves
  | @job own _ _ _ _ ih => exact ih (own.account_ensures ensures.1) accounted
  | first _ ih => exact ih ensures accounted
  | @rest _ _ first rest _ machine _ _ _ ran _ ih =>
    have onward : first.Ensures (fun result middle => (rest result).Ensures _ middle) machine := ensures
    have early := tells onward accounted
    rw [ran] at early
    exact List.append_assoc .. ▸ ih early.2.2 early.1
  | scope _ ih => exact ih ensures (accounted.spares accounted.steady.enter)
  | body _ _ ih =>
    exact ih ensures.2.2 (accounted.spares (accounted.steady.enterCall ensures.1 ensures.2.1))

/-! ## Sessions -/

theorem Machine.accounted_initial (output : Output) (clock : Nat → Number) :
    (Machine.initial output clock).Accounted [] :=
  ⟨⟨Heap.intact_initial output clock, (Heap.intact_initial output clock).globals⟩,
    .nothing _ rfl rfl⟩

theorem Machine.Accounted.install {machine : Machine} {past : List Deed} {native : Native}
    (accounted : machine.Accounted past) (tells : native.Discreet) :
    (machine.install native).Accounted past := by
  refine ⟨⟨accounted.steady.intact.install tells, fun new => ?_⟩, ?_⟩
  · exact accounted.steady.inside (Heap.Intact.isNew_of_install new)
  · obtain ⟨⟨classCount, classes, older⟩, ⟨instanceCount, instances, unset⟩⟩ := accounted.made
    exact ⟨⟨classCount, classes, older⟩, ⟨instanceCount, instances, unset⟩⟩

/-- The classes and instances of every state that a session comes to are what was done to them. -/
theorem Session.Past.accounted {past : List Deed} {machine : Machine} (reached : Past past machine) :
    machine.Accounted past := by
  induction reached with
  | initial output clock => exact Machine.accounted_initial output clock
  | install _ tells ih => exact ih.install tells
  | @during _ _ _ _ root _ isRoot reaches ih =>
    have fits : ∀ heap, root.Fits heap := by
      intro heap
      cases root with
      | runTopLevel | result => trivial
      | _ => exact isRoot.elim
    exact reaches.accounted (root.account_ensures (fits _)) ih

end Lox
