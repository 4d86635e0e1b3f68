import Lox.Proofs.Plans.Sessions
import Lox.Proofs.Reach.Evaluation

/-!
# What a call touches

A function does not see the scope that it is called from. So what a call can change is what it can
reach: from the callee, from the arguments, and from the globals. Everything else in the heap is after
the call what it was before, however the call ends; and the links to enclosing frames and the classes
are so even where they can be reached.

What is reached is a region of the heap, and a call stays in every region of what it is given.
-/

namespace Lox

/-! ## Native routines -/

/-- A routine gives back nothing with a place in the heap but what it was given. -/
def Native.Discreet (native : Native) : Prop :=
  ∀ shown arguments value, native.routine shown arguments = .value value →
    value.node?.isSome → value ∈ arguments

/-- The standard routines give back no such value at all. -/
theorem Native.discreet_of_mem_standard {native : Native} (member : native ∈ standard) :
    native.Discreet := by
  obtain rfl | rfl | rfl : native = clock ∨ native = print ∨ native = println := by
    simpa [standard] using member
  all_goals
    intro shown arguments value replied
    cases replied

def Heap.Discreet (heap : Heap) : Prop :=
  ∀ (id : NativeId) (native : Native), heap.natives[id]? = some native → native.Discreet

namespace Heap.Discreet

variable {heap : Heap}

theorem empty : Heap.empty.Discreet := fun _ _ found => nomatch found

theorem install {native : Native} (discreet : heap.Discreet) (tells : native.Discreet) :
    (heap.install native).Discreet := by
  intro id other found
  change (heap.natives.push native)[id]? = some other at found
  rw [Array.getElem?_push] at found
  split at found
  · cases found
    exact tells
  · exact discreet id other found

theorem initial (output : Output) (clock : Nat → Number) :
    (Machine.initial output clock).heap.Discreet :=
  List.foldlRecOn Native.standard Heap.install empty fun _ discreet _ member =>
    discreet.install (Native.discreet_of_mem_standard member)

end Heap.Discreet

/-! ## The region of what is reached -/

/-- What some values reach in a heap, with whatever is made later. -/
def Region.reached (heap : Heap) (discreet : heap.Discreet) (roots : List Value) : Region heap :=
  { Holds := fun node => heap.Reaches roots node ∨ node.IsNew heap
    globals := .inl .globals
    new := fun _ new => .inr new
    closed := fun _ _ leads held =>
      .inl (held.elim (.step leads) fun new => absurd new leads.not_isNew)
    natives := fun id native found shown arguments value replied held node denotes =>
      have given := discreet id native found shown arguments value replied
        (Option.isSome_iff_exists.mpr ⟨node, denotes⟩)
      held value given node denotes }

/-- The second heap is what became of the first when nothing was touched but what some values reach:
every other frame and every other instance is as it was. No frame was moved, and no class changed,
whether it is reached or not. -/
structure Heap.TouchedFrom (heap : Heap) (roots : List Value) (after : Heap) : Prop where
  frames : ∀ id, id < heap.environment.size → ¬heap.Reaches roots (.frame id) →
    after.environment.frames[id]? = heap.environment.frames[id]?
  instances : ∀ id, id < heap.instances.size → ¬heap.Reaches roots (.object id) →
    after.instances[id]? = heap.instances[id]?
  enclosing : ∀ id, id < heap.environment.size →
    after.environment.enclosing? id = heap.environment.enclosing? id
  classes : ∀ id, id < heap.classes.size → after.classes[id]? = heap.classes[id]?

theorem Region.Bounds.touchedFrom {heap after : Heap} {discreet : heap.Discreet}
    {roots : List Value} (bounds : (Region.reached heap discreet roots).Bounds after) :
    heap.TouchedFrom roots after := by
  refine ⟨fun id made unreached => ?_, fun id made unreached => ?_,
    bounds.retains.grown.environment.enclosing, fun id made => ?_⟩
  · exact bounds.frames id fun held => held.elim unreached (Nat.not_le_of_lt made)
  · exact bounds.instances id fun held => held.elim unreached (Nat.not_le_of_lt made)
  · have found := Array.getElem?_eq_getElem made
    rw [bounds.retains.classes id _ found, found]

/-! ## Sessions -/

namespace Session

/-- The machines that occur in sessions, between programs and at every moment of a program or of a
statement that is stepped through, resolved or not. -/
inductive Occurs : Machine → Prop where
  | initial (output : Output) (clock : Nat → Number) : Occurs (.initial output clock)
  | install {machine : Machine} {native : Native} :
      Occurs machine → native.Discreet → Occurs (machine.install native)
  | program {machine after : Machine} {fuel : Nat} {stmts : List (Stmt Binding)} :
      Occurs machine → (Step.runTopLevel fuel stmts machine).machine? = some after → Occurs after
  | statement {machine after : Machine} {fuel : Nat} {stmt : Stmt Binding} :
      Occurs machine → (result fuel stmt machine).machine? = some after → Occurs after
  | duringProgram {machine moment : Machine} {fuel : Nat} {stmts : List (Stmt Binding)} {α : Type}
      {part : Plan α} {calls : Nat} :
      Occurs machine → (Plan.runTopLevel fuel stmts).Visits machine part moment calls →
        Occurs moment
  | duringStatement {machine moment : Machine} {fuel : Nat} {stmt : Stmt Binding} {α : Type}
      {part : Plan α} {calls : Nat} :
      Occurs machine → (Plan.result fuel stmt).Visits machine part moment calls → Occurs moment

namespace Occurs

variable {machine after : Machine}

/-- Only installing adds a routine. -/
theorem discreet (occurs : Occurs machine) : machine.heap.Discreet := by
  have kept : ∀ {before later : Heap}, before.Retains later → before.Discreet → later.Discreet := by
    intro before later retains discreet id native found
    exact discreet id native (retains.natives ▸ found)
  induction occurs with
  | initial output clock =>
    exact .initial output clock
  | install _ tells ih => exact ih.install tells
  | @program machine _ fuel stmts _ left ih =>
    have ends := Plan.ends_run (Plan.runTopLevel_stays fuel stmts)
      (Region.Bounds.refl (.whole machine.heap)) fun _ => trivial
    rw [Plan.runTopLevel_run] at ends
    exact kept (ends.of_machine? left).retains ih
  | @statement machine _ fuel stmt _ left ih =>
    have ends := Plan.ends_run (Plan.result_stays fuel stmt)
      (Region.Bounds.refl (.whole machine.heap)) fun _ => trivial
    rw [Plan.result_run] at ends
    exact kept (ends.of_machine? left).retains ih
  | @duringProgram machine _ fuel stmts _ _ _ _ visits ih =>
    exact kept (visits.bounds (Plan.runTopLevel_stays fuel stmts)
      (Region.Bounds.refl (.whole machine.heap)) fun _ => trivial).retains ih
  | @duringStatement machine _ fuel stmt _ _ _ _ visits ih =>
    exact kept (visits.bounds (Plan.result_stays fuel stmt)
      (Region.Bounds.refl (.whole machine.heap)) fun _ => trivial).retains ih

/-- A call touches only what it can reach from the callee, the arguments and the globals, whatever is
called at whatever moment of a session, and whether the call gives a value or fails. -/
theorem call_touchedFrom (occurs : Occurs machine) {fuel : Nat} {callee : Value}
    {arguments : List Value} {paren : Token}
    (leaves : (Step.call fuel callee arguments paren machine).machine? = some after) :
    machine.heap.TouchedFrom (callee :: arguments) after.heap := by
  let region := Region.reached machine.heap occurs.discreet (callee :: arguments)
  have has : ∀ value ∈ callee :: arguments, region.Has value :=
    fun value member node denotes => .inl (.root member denotes)
  -- A call is not framed: the scope that it is made from need not be reached.
  have stays : (Plan.call fuel callee arguments paren).Stays region False region.Has :=
    Plan.call_stays fuel (has callee (.head _))
      (fun argument member => has argument (.tail _ member)) paren
  have ends := Plan.ends_run stays (Region.Bounds.refl region) False.elim
  rw [Plan.call_run] at ends
  exact (ends.of_machine? leaves).touchedFrom

/-- `{ var a = true; } fun f() { b = nil; }` and then a call of `f`, which makes a global of `b`. -/
theorem call_touchedFrom_global :
    let f : Name := ⟨"f", 1⟩
    let b : Name := ⟨"b", 1⟩
    let stmts : List (Stmt Binding) :=
      [.block [.varDecl ⟨"a", 1⟩ (some (.literal (.boolean true)))],
        .funDecl f ⟨[], [.assign [.name b .global] (.literal .nil)]⟩]
    ∃ machine after,
      (Step.runTopLevel 20 stmts (.initial .unlimited fun _ => .zero)).machine? = some machine ∧
      (Step.call 10 (.function 0) [] f.token machine).machine? = some after ∧
      machine.heap.environment.slot? Heap.globals b.text = none ∧
      after.heap.environment.slot? Heap.globals b.text = some .nil ∧
      machine.heap.TouchedFrom [.function 0] after.heap := by
  intro f b stmts
  have ended : ((Step.runTopLevel 20 stmts (.initial .unlimited fun _ => .zero)).machine?.bind
      fun machine => (Step.call 10 (.function 0) [] f.token machine).machine?.map fun after =>
        (machine.heap.environment.slot? Heap.globals b.text,
          after.heap.environment.slot? Heap.globals b.text)) = some (none, some .nil) := by
    decide +kernel
  obtain ⟨machine, ran, called⟩ := Option.bind_eq_some_iff.mp ended
  obtain ⟨after, leaves, same⟩ := Option.map_eq_some_iff.mp called
  obtain ⟨absent, bound⟩ := Prod.mk.inj same
  have occurs : Occurs machine := .program (.initial _ _) ran
  exact ⟨machine, after, ran, leaves, absent, bound, occurs.call_touchedFrom leaves⟩

/-- Whatever text a session is given, it leaves one of these machines. -/
theorem answer {fuel : Nat} {mode : Mode} {source : String} {answer : Answer}
    (occurs : Occurs machine) (answered : Session.answer fuel mode source machine = some answer) :
    Occurs answer.machine :=
  answer_induction Occurs occurs (fun _ _ _ ran => occurs.program ran)
    (fun _ _ _ _ _ _ before ran => before.statement ran) answered

end Occurs

end Session

end Lox
