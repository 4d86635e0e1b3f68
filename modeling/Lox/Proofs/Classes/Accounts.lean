import Lox.Proofs.Classes.Annals

/-!
# Accounts are true

Whatever a run does to classes and instances is among the deeds that are told of it. An account ensures
something of its result if its steps, one after the other, leave a heap that the deeds so far have made,
and start no job with a value that is not there. That is shown once for the accounts in general, up to
every moment that a run comes to, and then for the account of each job.
-/

namespace Lox

/-- The machine is steady, and its classes and instances are what the deeds made. -/
structure Machine.Accounted (machine : Machine) (past : List Deed) : Prop where
  steady : machine.Steady
  made : machine.heap.IsMadeBy past

section

variable {machine after : Machine} {past : List Deed}

theorem Machine.Accounted.spares (accounted : machine.Accounted past) (spares : machine.Spares after) :
    after.Accounted past :=
  ⟨spares.steady, accounted.made.spares spares.heap⟩

/-! ## How steps end -/

variable {α β : Type}

/-- How a step ends that was taken when these things had been done, and that did these things, unless it
failed. -/
def Outcome.Accounts (before : Machine) (past told : List Deed) (post : α → Machine → Prop)
    (outcome : Outcome α) : Prop :=
  outcome.Meets
    (fun result after =>
      after.Accounted (past ++ told) ∧ before.heap.Retains after.heap ∧ post result after)
    fun after => after.Accounted past ∧ before.heap.Retains after.heap

theorem Step.Spares.accounts {step : Step α} {post : α → Heap → Prop} (spares : step.Spares machine post)
    (accounted : machine.Accounted past) :
    (step machine).Accounts machine past [] fun result after =>
      machine.Spares after ∧ post result after.heap := by
  refine (spares accounted.steady).mono (fun result after ends => ?_) fun after ends => ?_
  · exact ⟨(List.append_nil past).symm ▸ accounted.spares ends.1, ends.1.heap.retains, ends⟩
  · exact ⟨accounted.spares ends, ends.heap.retains⟩

/-! ## Steps that do deeds -/

namespace Step

theorem addInstance_accounts {classId : ClassId} (there : ¬(Node.classObject classId).IsNew machine.heap)
    (accounted : machine.Accounted past) :
    (Step.changeHeap (·.addInstance classId) machine).Accounts machine past [.makes classId]
      fun id after => after.heap.Knows (.object id) := by
  have retains := Heap.Retains.addInstance machine.heap classId
  refine ⟨⟨⟨accounted.steady.intact.addInstance there, fun new => ?_⟩, accounted.made.addInstance there⟩,
    retains, Heap.knows_object (Heap.there_addInstance _ _)⟩
  exact accounted.steady.inside (retains.isNew new)

theorem setField_accounts {id : InstanceId} (name : String) {value : Value}
    (known : machine.heap.Knows (.object id)) (knows : machine.heap.Knows value)
    (accounted : machine.Accounted past) :
    (Step.changeHeap (fun heap => ((), heap.setField id name value)) machine).Accounts machine past
      [.sets id name value] fun _ _ => True := by
  have retains := Heap.Retains.setField machine.heap id name value
  refine ⟨⟨⟨accounted.steady.intact.setField id name knows, fun new => ?_⟩,
    accounted.made.setField (known _ rfl)⟩, retains, trivial⟩
  exact accounted.steady.inside (retains.isNew new)

theorem addClass_accounts {declaration : Declaration} {table : Table FunctionId}
    (there : ∀ parent ∈ declaration.superclass, ¬(Node.classObject parent).IsNew machine.heap)
    (tabulates : machine.heap.Tabulates declaration.methods table) (accounted : machine.Accounted past) :
    (Step.changeHeap (·.addClass ⟨declaration.name, declaration.superclass, table⟩) machine).Accounts
      machine past [.declares declaration] fun id after => ¬(Node.classObject id).IsNew after.heap := by
  have retains := Heap.Retains.addClass machine.heap ⟨declaration.name, declaration.superclass, table⟩
  let classObject : ClassObject := ⟨declaration.name, declaration.superclass, table⟩
  have intact : (machine.heap.addClass classObject).2.Intact :=
    accounted.steady.intact.addClass there fun _ _ => tabulates.there
  refine ⟨⟨⟨intact, fun new => ?_⟩, accounted.made.addClass there tabulates⟩, retains,
    Heap.there_addClass _ _⟩
  exact accounted.steady.inside (retains.isNew new)

/-- The methods that were closed so far, and those to come. -/
theorem Spares.closeMethods {methods done : List (Method Binding)} {table : Table FunctionId}
    (tabulates : machine.heap.Tabulates done table) :
    (Step.closeMethods table methods).Spares machine fun table heap =>
      heap.Tabulates (done ++ methods) table := by
  induction methods generalizing machine done table with
  | nil => exact pure ((List.append_nil done).symm ▸ tabulates)
  | cons method rest ih =>
    let closure : Closure := ⟨some method.name.text, method.lambda, machine.frame,
      method.name.text == initializerName⟩
    have closed : (Step.close (some method.name.text) method.lambda
        (method.name.text == initializerName)).Spares machine fun id heap =>
          heap.functions[id]? = some closure :=
      fun steady => ⟨.ofHeap steady (steady.intact.addFunction _ steady.inside), Array.getElem?_push_size⟩
    refine bind closed fun id middle spares found => ?_
    have isOf : closure.IsOf method := ⟨rfl, rfl, rfl⟩
    have onward := (tabulates.mono spares.heap.retains.grown).set found isOf
    exact List.append_cons done method rest ▸ ih onward

theorem Spares.closeMethodsOf {superclass : Option ClassId} (methods : List (Method Binding))
    (there : ∀ parent ∈ superclass, ¬(Node.classObject parent).IsNew machine.heap) :
    (Step.closeMethodsOf superclass methods).Spares machine fun table heap =>
      heap.Tabulates methods table := by
  cases superclass with
  | none => exact closeMethods (.empty _)
  | some parent =>
    refine fun steady => inScope (bind (define _ ?_) fun _ _ _ _ => closeMethods (.empty _)) steady
    exact (Heap.knows_classObject (there parent rfl)).later steady.enter.heap.retains

theorem declareClass_accounts (name : Name) (superclass : Option (Superclass Binding))
    (methods : List (Method Binding)) (accounted : machine.Accounted past) :
    (Step.declareClass name superclass methods machine).Accounts machine past
      (match Step.superclassOf superclass machine with
        | .finished parent _ => [.declares ⟨name.text, parent, methods⟩]
        | _ => []) fun _ _ => True := by
  have early := Spares.superclassOf superclass accounted.steady
  unfold Step.declareClass
  cases outcome : Step.superclassOf superclass machine with
  | outOfFuel =>
    rw [bind_of_outOfFuel outcome]
    trivial
  | failed error first =>
    rw [outcome] at early
    rw [bind_of_failed outcome]
    exact ⟨accounted.spares early, early.heap.retains⟩
  | finished parent first =>
    rw [outcome] at early
    rw [bind_of_finished outcome]
    obtain ⟨looked, there⟩ := early
    have spared : ∀ last, first.Spares last → last.Accounted past ∧ machine.heap.Retains last.heap :=
      fun last spares =>
        ⟨(accounted.spares looked).spares spares, looked.heap.retains.trans spares.heap.retains⟩
    -- The name is bound and the methods are closed before there is a class.
    refine meets_bind ((Spares.define name.text (Heap.knows_of_node?_eq_none rfl) looked.steady).mono
      (fun _ _ ends => ends) spared) fun _ second ⟨bound, _⟩ => ?_
    have thereBound : ∀ id ∈ parent, ¬(Node.classObject id).IsNew second.heap :=
      fun id extended new => there id extended (bound.heap.retains.isNew new)
    refine meets_bind ((Spares.closeMethodsOf methods thereBound bound.steady).mono
      (fun _ _ ends => ends) fun last spares => spared last (bound.trans spares))
      fun table third ⟨closed, tabulates⟩ => ?_
    have thereClosed : ∀ id ∈ parent, ¬(Node.classObject id).IsNew third.heap :=
      fun id extended new => thereBound id extended (closed.heap.retains.isNew new)
    obtain ⟨before, grown⟩ := spared third (bound.trans closed)
    let declaration : Declaration := ⟨name.text, parent, methods⟩
    have added : (Step.changeHeap (·.addClass ⟨name.text, parent, table⟩) third).Accounts third past
        [.declares declaration] fun id after => ¬(Node.classObject id).IsNew after.heap :=
      addClass_accounts thereClosed tabulates before
    refine meets_bind (added.mono (fun _ _ ends => ends) fun _ ends =>
      ⟨ends.1, grown.trans ends.2⟩) fun id fourth ⟨made, retains, known⟩ => ?_
    have last := (Spares.define name.text (Heap.knows_classObject known) made.steady).1
    exact ⟨made.spares last, (grown.trans retains).trans last.heap.retains, trivial⟩

end Step

end

/-! ## What jobs are given and what they give -/

namespace Job

/-- What the job is given is there. -/
def Fits (heap : Heap) : Job → Prop
  | evaluateLast _ last _ => heap.Knows last
  | call _ callee arguments _ => heap.Knows callee ∧ ∀ argument ∈ arguments, heap.Knows argument
  | construct _ classId arguments _ =>
    ¬(Node.classObject classId).IsNew heap ∧ ∀ argument ∈ arguments, heap.Knows argument
  | callClosure _ closure arguments _ =>
    ¬(Node.frame closure.frame).IsNew heap ∧ ∀ argument ∈ arguments, heap.Knows argument
  | perform native arguments _ => native.Discreet ∧ ∀ argument ∈ arguments, heap.Knows argument
  | storeEach _ value _ => heap.Knows value
  | _ => True

/-- What the job gives is there. -/
def Gives (heap : Heap) : (job : Job) → job.Result → Prop
  | evaluateEach _ _, values => ∀ value ∈ values, heap.Knows value
  | evaluate _ _, value | evaluateLast _ _ _, value | evaluatePart _ _, value | call _ _ _ _, value
  | construct _ _ _ _, value | callClosure _ _ _ _, value | perform _ _ _, value => heap.Knows value
  | execute _ _, flow | executeEach _ _, flow | executePart _ _, flow | loop _ _ _ _, flow =>
    heap.KnowsFlow flow
  | storeEach _ _ _, _ | runTopLevel _ _, _ | result _ _, _ => True

end Job

/-! ## Accounts -/

/-- How a run ends that was begun before: all that was done is told. -/
def Outcome.Tells {α : Type} (before : Machine) (past : List Deed) (post : α → Machine → Prop)
    (outcome : Outcome α) : Prop :=
  outcome.Meets
    (fun result after => after.Accounted past ∧ before.heap.Retains after.heap ∧ post result after)
    fun after => after.Accounted past ∧ before.heap.Retains after.heap

theorem Outcome.Accounts.tells {α : Type} {before : Machine} {past told : List Deed}
    {post : α → Machine → Prop} {outcome : Outcome α} (accounts : outcome.Accounts before past told post) :
    outcome.Tells before (past ++ outcome.deeds told) post := by
  cases outcome with
  | finished result after => exact accounts
  | failed error after => exact (List.append_nil past).symm ▸ accounts
  | outOfFuel => trivial

/-- What is told of a run tells of the whole when the machine is brought back to where it was. -/
theorem Outcome.Tells.mapMachine {α : Type} {before entered : Machine} {past : List Deed}
    {inner post : α → Machine → Prop} {outcome : Outcome α} {back : Machine → Machine}
    (tells : outcome.Tells entered past inner)
    (leaves : ∀ {after : Machine}, after.Accounted past → entered.heap.Retains after.heap →
      (back after).Accounted past ∧ before.heap.Retains (back after).heap)
    (weakens : ∀ result after, inner result after → post result (back after)) :
    (outcome.mapMachine back).Tells before past post :=
  Meets.mapMachine tells
    (fun result after ends =>
      have left := leaves ends.1 ends.2.1
      ⟨left.1, left.2, weakens result after ends.2.2⟩)
    fun _ ends => leaves ends.1 ends.2

namespace Account

variable {α β : Type} {machine moment : Machine} {past deeds : List Deed}

/-- From this machine on, every step of the account is told truly and every job is given what is there, so
long as the steps and the jobs before it were; and then a result meets the postcondition. -/
def Ensures : {α : Type} → Account α → (α → Machine → Prop) → Machine → Prop
  | _, .step plain told, post, machine => ∀ past, machine.Accounted past →
      (plain machine).Accounts machine past (told machine) post
  | _, .job own, post, machine => own.Fits machine.heap ∧
      ∀ result after, machine.heap.Retains after.heap → own.Gives after.heap result → post result after
  | _, .bind first rest, post, machine =>
      first.Ensures (fun result middle => (rest result).Ensures post middle) machine
  | _, .inScope inner, post, machine =>
      inner.Ensures (fun result after => post result after.leave) machine.enter
  | _, .inCall closure arguments _ body, post, machine =>
      ¬(Node.frame closure.frame).IsNew machine.heap ∧
        (∀ argument ∈ arguments, machine.heap.Knows argument) ∧
          body.Ensures (fun flow after => post flow (machine.leaveCall after))
            (machine.enterCall closure arguments)

/-- A run of the account that ends has told all that it did, if the jobs that it uses do. -/
theorem Ensures.tells {account : Account α} {post : α → Machine → Prop} {good : Job → Prop}
    (ensures : account.Ensures post machine) (uses : account.script.Uses good)
    (jobs : ∀ own : Job, good own → ∀ machine past, own.Fits machine.heap → machine.Accounted past →
      (own.run machine).Tells machine (past ++ own.deeds machine) fun result after =>
        own.Gives after.heap result)
    (accounted : machine.Accounted past) :
    (account.script.run machine).Tells machine (past ++ account.deeds Job.deeds machine) post := by
  induction account generalizing machine past with
  | step plain told => exact (ensures past accounted).tells
  | job own =>
    have ends := jobs own uses machine past ensures.1 accounted
    change (own.run machine).Tells _ _ _
    refine ends.mono (fun result after ends => ?_) fun after ends => ends
    exact ⟨ends.1, ends.2.1, ensures.2 result after ends.2.1 ends.2.2⟩
  | bind first rest ihFirst ihRest =>
    have early := ihFirst ensures uses.1 accounted
    change ((first.script.run >>= fun result => (rest result).script.run) machine).Tells _ _ _
    simp only [Account.deeds]
    cases outcome : first.script.run machine with
    | finished result middle =>
      rw [outcome] at early
      rw [Step.bind_of_finished outcome]
      obtain ⟨between, retains, onward⟩ := early
      have late := ihRest result onward (uses.2 result) between
      rw [List.append_assoc] at late
      refine late.mono (fun value after ends => ?_) fun after ends => ?_
      · exact ⟨ends.1, retains.trans ends.2.1, ends.2.2⟩
      · exact ⟨ends.1, retains.trans ends.2⟩
    | failed error middle =>
      rw [outcome] at early
      rw [Step.bind_of_failed outcome, List.append_nil]
      exact early
    | outOfFuel =>
      rw [Step.bind_of_outOfFuel outcome]
      trivial
  | inScope inner ih =>
    have entered := accounted.steady.enter
    have inside := ih ensures uses (accounted.spares entered)
    have leaves : ∀ {after : Machine} {past : List Deed}, after.Accounted past →
        machine.enter.heap.Retains after.heap →
          after.leave.Accounted past ∧ machine.heap.Retains after.leave.heap :=
      fun left retains => ⟨left.spares left.steady.leave, entered.heap.retains.trans retains⟩
    change (Step.inScope inner.script.run machine).Tells _ _ _
    rw [Step.inScope_eq]
    exact inside.mapMachine leaves fun _ _ holds => holds
  | inCall closure arguments paren body ih =>
    obtain ⟨present, known, ensuresBody⟩ := ensures
    have entered := accounted.steady.enterCall present known
    have inside := ih ensuresBody uses (accounted.spares entered)
    have leaves : ∀ {after : Machine} {past : List Deed}, after.Accounted past →
        (machine.enterCall closure arguments).heap.Retains after.heap →
          (machine.leaveCall after).Accounted past ∧ machine.heap.Retains after.heap := by
      intro after past left retains
      have kept := entered.heap.retains.trans retains
      exact ⟨⟨⟨left.steady.intact, fun new => accounted.steady.inside (kept.isNew new)⟩, left.made⟩, kept⟩
    change (Step.inCall closure arguments paren body.script.run machine).Tells _ _ _
    rw [Step.inCall_eq]
    simp only [Account.deeds]
    split
    · exact (List.append_nil past).symm ▸ ⟨accounted, .refl _⟩
    · exact inside.mapMachine leaves fun _ _ holds => holds

end Account

end Lox
