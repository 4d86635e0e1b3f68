import Lox.Proofs.Halting.LoopFree
import Lox.Proofs.Plans.Evaluation

/-!
# Plans that end

Most steps end at once, whatever the machine. A plan ends if every step in it does, and if the bodies
of the functions that it calls do, with one call less left to make: where none is left, the call is
refused, and that is an end too. So a plan is shown to end in a given room for calls, for functions that
are free of loops and not larger than a bound.
-/

namespace Lox

/-! ## Steps that end at once -/

namespace Step

variable {α β : Type}

/-- The step never gives up for want of fuel. -/
def Total (step : Step α) : Prop := ∀ machine, step machine ≠ .outOfFuel

namespace Total

theorem pure (result : α) : Total (Pure.pure result) := nofun

theorem fail (problem : RuntimeProblem) (token : Token) : Total (fail problem token : Step α) :=
  nofun

theorem bind {step : Step α} {continuation : α → Step β} (first : step.Total)
    (second : ∀ result, (continuation result).Total) : (step >>= continuation).Total := by
  intro machine
  change Step.bind step continuation machine ≠ _
  unfold Step.bind
  cases outcome : step machine with
  | finished result after => exact second result after
  | failed error after => exact nofun
  | outOfFuel => exact absurd outcome (first machine)

theorem ofOperands (result : Except OperandProblem α) (token : Token) :
    Total (ofOperands result token) := by
  cases result with
  | ok value => exact pure value
  | error problem => exact fail _ _

/-! ### The heap -/

theorem readHeap (f : Heap → α) : Total (readHeap f) := nofun

theorem changeHeap (f : Heap → α × Heap) : Total (changeHeap f) := nofun

theorem define (name : String) (value : Value) : Total (define name value) := nofun

/-! ### Names -/

theorem lookUp (name : String) (binding : Binding) (token : Token) :
    Total (lookUp name binding token) := by
  intro machine
  unfold Step.lookUp
  split <;> nofun

theorem assign (name : Name) (binding : Binding) (value : Value) :
    Total (assign name binding value) := by
  have frame : Total innermost := nofun
  refine bind frame fun frame => bind (changeHeap _) fun bound => ?_
  split
  · exact pure ()
  · exact fail _ _

theorem assignOrDefine (name : Name) (binding : Binding) (value : Value) :
    Total (assignOrDefine name binding value) := by
  cases binding with
  | global => exact changeHeap fun heap => ((), heap.define Heap.globals name.text value)
  | lexical distance => exact assign name _ value

theorem superclassOf (superclass : Option (Superclass Binding)) :
    Total (superclassOf superclass) := by
  cases superclass with
  | none => exact pure none
  | some parent =>
    refine bind (lookUp _ _ _) fun value => ?_
    split
    · exact pure _
    · exact fail _ _

/-! ### Properties -/

theorem getProperty (id : InstanceId) (name : Name) : Total (getProperty id name) := by
  intro machine gaveUp
  unfold Step.getProperty at gaveUp
  split at gaveUp
  · cases gaveUp
  · split at gaveUp <;> cases gaveUp

theorem setProperty (object : Value) (name : Name) (value : Value) :
    Total (setProperty object name value) := by
  cases object with
  | object id => exact changeHeap fun heap => ((), heap.setField id name.text value)
  | _ => exact fail _ _

theorem superProperty (line : Nat) (binding : Binding) (method : Name) :
    Total (superProperty line binding method) := by
  have parts : Total (superParts line binding) := by
    intro machine
    unfold superParts
    repeat' split
    all_goals nofun
  refine bind parts fun (superclass, id) => bind (readHeap _) fun found => ?_
  split
  · exact bind (changeHeap _) fun _ => pure _
  · exact bind (readHeap _) fun _ => fail _ _

/-! ### Calls -/

theorem checkArity (expected given : Nat) (paren : Token) :
    Total (checkArity expected given paren) := by
  unfold Step.checkArity
  split
  · exact pure ()
  · exact fail _ _

theorem write (text : String) (paren : Token) : Total (write text paren) := by
  intro machine
  unfold Step.write
  split <;> nofun

theorem callNative (id : NativeId) (arguments : List Value) (paren : Token) :
    Total (callNative id arguments paren) := by
  have clock : Total readClock := nofun
  refine bind (readHeap _) fun native? => ?_
  split
  · exact fail _ _
  · refine bind (checkArity _ _ _) fun _ => bind (readHeap _) fun reply => ?_
    split
    · exact pure _
    · exact fail _ _
    · exact bind (write _ _) fun _ => pure _
    · exact bind clock fun _ => pure _

end Total

end Step

/-! ## Plans that end in some room -/

/-- Whether the function is free of loops and no larger than a bound. -/
structure Lambda.Fits (bound : Nat) (lambda : Lambda Binding) : Prop where
  loopFree : lambda.LoopFree
  small : sizeOf lambda ≤ bound

theorem Lambda.Fits.mono {bound larger : Nat} {lambda : Lambda Binding} (fits : lambda.Fits bound)
    (within : bound ≤ larger) : lambda.Fits larger :=
  ⟨fits.loopFree, Nat.le_trans fits.small within⟩

/-- Whether every function that was made fits. -/
def Heap.Fits (bound : Nat) (heap : Heap) : Prop := ∀ lambda, heap.Holds lambda → lambda.Fits bound

/-- What a step comes to that ends and makes only functions that fit. -/
def Outcome.Halts {α : Type} (bound : Nat) (post : α → Prop) : Outcome α → Prop
  | finished result after => after.heap.Fits bound ∧ post result
  | failed _ after => after.heap.Fits bound
  | outOfFuel => False

theorem Outcome.Halts.mapMachine {α : Type} {bound : Nat} {post : α → Prop} {outcome : Outcome α}
    {change : Machine → Machine} (halts : outcome.Halts bound post)
    (same : ∀ after, (change after).heap = after.heap) : (outcome.mapMachine change).Halts bound post := by
  cases outcome with
  | finished result after =>
    refine ⟨?_, halts.2⟩
    rw [same]
    exact halts.1
  | failed error after =>
    change (change after).heap.Fits bound
    rw [same]
    exact halts
  | outOfFuel => exact halts

namespace Plan

variable {α β : Type} {bound room : Nat}

/-- Whether the plan ends with room for so many calls, whatever the functions that it reads, so long as
they fit; with a result that meets the postcondition, if with any. -/
def Halts (bound : Nat) : {α : Type} → Nat → Plan α → (α → Prop) → Prop
  | _, _, .pure result, post => post result
  | _, _, .outOfFuel, _ => False
  | _, _, .fail _ _, _ => True
  | _, _, .basic step _, post => step.Total ∧ ∀ result, post result
  | _, _, .function? _, post =>
    ∀ found, (∀ closure ∈ found, closure.lambda.Fits bound) → post found
  | _, _, .close _ lambda _, post => lambda.Fits bound ∧ ∀ id, post id
  | _, room, .bind first rest, post =>
    first.Halts bound room fun result => (rest result).Halts bound room post
  | _, room, .inScope inner, post => inner.Halts bound room post
  | _, 0, .inCall _ _ _ _, _ => True
  | _, room + 1, .inCall _ _ _ body, post => body.Halts bound room post

namespace Halts

theorem mono {plan : Plan α} {post weaker : α → Prop} (halts : plan.Halts bound room post)
    (weakens : ∀ result, post result → weaker result) : plan.Halts bound room weaker := by
  induction plan generalizing room with
  | pure result => exact weakens result halts
  | outOfFuel => exact halts
  | fail problem token => trivial
  | basic step tame => exact ⟨halts.1, fun result => weakens result (halts.2 result)⟩
  | function? id => exact fun found fits => weakens found (halts found fits)
  | close name lambda isInitializer => exact ⟨halts.1, fun id => weakens id (halts.2 id)⟩
  | bind first rest ihFirst ihRest =>
    exact ihFirst halts fun result haltsRest => ihRest result haltsRest weakens
  | inScope inner ih => exact ih halts weakens
  | inCall closure arguments paren body ih =>
    cases room with
    | zero => trivial
    | succ room => exact ih halts weakens

theorem basic {step : Step α} {tame : step.Tame} (total : step.Total) :
    (Plan.basic step tame).Halts bound room fun _ => True :=
  ⟨total, fun _ => trivial⟩

theorem bind {first : Plan α} {rest : α → Plan β} {post : β → Prop}
    (halts : first.Halts bound room fun _ => True)
    (further : ∀ result, (rest result).Halts bound room post) :
    (first >>= rest).Halts bound room post := by
  change first.Halts bound room fun result => (rest result).Halts bound room post
  exact halts.mono fun result _ => further result

end Halts

/-! ### Runs -/

variable {machine : Machine}

/-- A plan that ends in the room that is left on a machine ends when it is run on it. -/
theorem run_halts {plan : Plan α} {post : α → Prop} (halts : plan.Halts bound room post)
    (fits : machine.heap.Fits bound) (left : machine.depth + room = Step.maximumDepth) :
    (plan.run machine).Halts bound post := by
  induction plan generalizing machine room with
  | pure result => exact ⟨fits, halts⟩
  | outOfFuel => exact halts.elim
  | fail problem token => exact fits
  | basic step tame =>
    have ends := tame machine
    change (step machine).Halts bound post
    cases outcome : step machine with
    | finished result after =>
      rw [outcome] at ends
      exact ⟨fun lambda holds => fits lambda (ends.1.reused lambda holds), halts.2 result⟩
    | failed error after =>
      rw [outcome] at ends
      exact fun lambda holds => fits lambda (ends.1.reused lambda holds)
    | outOfFuel => exact absurd outcome (halts.1 machine)
  | function? id => exact ⟨fits, halts _ fun closure found => fits _ ⟨id, closure, found, rfl⟩⟩
  | close name lambda isInitializer =>
    refine ⟨fun other holds => ?_, halts.2 _⟩
    cases Heap.Holds.of_addFunction holds with
    | inl before => exact fits other before
    | inr same => exact same ▸ halts.1
  | bind first rest ihFirst ihRest =>
    have ends := ihFirst halts fits left
    have keeps := run_keeps first machine
    change (Step.bind first.run (fun result => (rest result).run) machine).Halts bound post
    unfold Step.bind
    cases outcome : first.run machine with
    | finished result middle =>
      rw [outcome] at ends keeps
      -- The first part came back from every call that it made, so the rest has the same room.
      exact ihRest result ends.2 ends.1 (keeps.1.depth ▸ left)
    | failed error middle =>
      rw [outcome] at ends
      exact ends
    | outOfFuel =>
      rw [outcome] at ends
      exact ends.elim
  | inScope inner ih =>
    have entered : machine.enter.heap.Fits bound := fits
    have ends := ih halts entered left
    change (Step.inScope inner.run machine).Halts bound post
    rw [Step.inScope_eq]
    exact ends.mapMachine fun _ => rfl
  | inCall closure arguments paren body ih =>
    rw [inCall_run]
    cases room with
    | zero =>
      have full : Step.maximumDepth ≤ machine.depth := Nat.le_of_eq left.symm
      rw [if_pos full]
      exact fits
    | succ room =>
      have free : ¬Step.maximumDepth ≤ machine.depth := by omega
      rw [if_neg free]
      have entered : (machine.enterCall closure arguments).heap.Fits bound :=
        fun lambda holds => fits lambda (Machine.holds_enterCall holds)
      have counted : (machine.enterCall closure arguments).depth + room = Step.maximumDepth :=
        (Nat.succ_add_eq_add_succ _ _).trans left
      exact (ih halts entered counted).mapMachine fun _ => rfl

end Plan

end Lox
