import Lox.Proofs.Homes.Events

/-!
# Chronicles that tell the truth

The contract of a chronicle: started where the heap is housed and the record truthful, by code that is at
home, it leaves the heap housed and the record truthful, and it leaves every home where it was. Here are
the rules for sequencing and scopes, and the contracts of the steps that evaluation is made of.
-/

namespace Lox

namespace Chronicle

variable {α β : Type} {home : Option Home} {tether : Option Tether} {machine middle : Machine}
  {record next : Record}

/-! ## Before and after -/

/-- The code that goes on here is at home, as far as its tether needs it. -/
structure AtHome (home : Option Home) (tether : Option Tether) (machine : Machine)
    (record : Record) : Prop where
  housed : machine.heap.Housed record.belongings
  truthful : record.Truthful
  reaches : Home.Reaches home tether machine.heap.environment machine.frame

/-- What has become of a machine and its record. -/
structure Onward (machine : Machine) (record : Record) (after : Machine) (later : Record) : Prop where
  housed : after.heap.Housed later.belongings
  truthful : later.Truthful
  keeps : machine.Keeps after
  retains : machine.heap.Retains after.heap
  secures : machine.heap.environment.Secures after.heap.environment
  grown : record.belongings <+: later.belongings

namespace Onward

variable {after : Machine} {later : Record}

theorem trans (first : Onward machine record middle next) (second : Onward middle next after later) :
    Onward machine record after later :=
  ⟨second.housed, second.truthful, first.keeps.trans second.keeps,
    first.retains.trans second.retains, first.secures.trans second.secures,
    first.grown.trans second.grown⟩

theorem known {value : Value} (onward : Onward machine record middle next)
    (known : value.Known machine.heap record.belongings) :
    value.Known middle.heap next.belongings :=
  known.later onward.retains onward.grown

end Onward

namespace AtHome

theorem onward (here : AtHome home tether machine record)
    (onward : Onward machine record middle next) : AtHome home tether middle next := by
  refine ⟨onward.housed, onward.truthful, ?_⟩
  rw [onward.keeps.frame]
  exact here.reaches.later onward.secures

theorem stay (here : AtHome home tether machine record) : Onward machine record machine record :=
  ⟨here.housed, here.truthful, .refl machine, .refl _, .refl _, List.prefix_refl _⟩

/-- Changes to the heap alone, which make no function. -/
theorem change {heap : Heap} (here : AtHome home tether machine record)
    (housed : heap.Housed record.belongings) (retains : machine.heap.Retains heap)
    (secures : machine.heap.environment.Secures heap.environment) :
    Onward machine record { machine with heap := heap } record :=
  ⟨housed, here.truthful, ⟨rfl, rfl, retains.grown⟩, retains, secures, List.prefix_refl _⟩

end AtHome

end Chronicle

/-! ## Contracts -/

/-- However the step ended, the record is truthful. Unless it gave up, what has become of the machine is
in order, and a result meets the postcondition. -/
def Chronicled.Tells {α : Type} (machine : Machine) (record : Record)
    (post : α → Heap → List Belonging → Prop) (told : Chronicled α) : Prop :=
  match told.outcome with
  | .finished result after => Chronicle.Onward machine record after told.record ∧
      post result after.heap told.record.belongings
  | .failed _ after => Chronicle.Onward machine record after told.record
  | .outOfFuel => told.record.Truthful

namespace Chronicle

variable {α β : Type} {home : Option Home} {tether : Option Tether} {machine middle : Machine}
  {record next : Record} {post : α → Heap → List Belonging → Prop}

theorem tells_truthful {told : Chronicled α} (tells : told.Tells machine record post) :
    told.record.Truthful := by
  unfold Chronicled.Tells at tells
  split at tells
  · exact tells.1.truthful
  · exact tells.truthful
  · exact tells

theorem tells_finished {told : Chronicled α} {result : α} {after : Machine}
    (tells : told.Tells machine record post) (ended : told.outcome = .finished result after) :
    post result after.heap told.record.belongings := by
  unfold Chronicled.Tells at tells
  rw [ended] at tells
  exact tells.2

theorem tells_mono {told : Chronicled α} {weaker : α → Heap → List Belonging → Prop}
    (tells : told.Tells machine record post)
    (weakens : ∀ result after, Onward machine record after told.record →
      post result after.heap told.record.belongings →
        weaker result after.heap told.record.belongings) : told.Tells machine record weaker := by
  unfold Chronicled.Tells at tells ⊢
  split at tells
  · exact ⟨tells.1, weakens _ _ tells.1 tells.2⟩
  · exact tells
  · exact tells

/-- What is told from some moment on is told from any moment before it. -/
theorem tells_from {told : Chronicled α} (onward : Onward machine record middle next)
    (tells : told.Tells middle next post) : told.Tells machine record post := by
  unfold Chronicled.Tells at tells ⊢
  split at tells
  · exact ⟨onward.trans tells.1, tells.2⟩
  · exact onward.trans tells
  · exact tells

theorem tells_outOfFuel (here : AtHome home tether machine record) :
    ((outOfFuel : Chronicle α) machine record).Tells machine record post := here.truthful

theorem tells_fail (here : AtHome home tether machine record) (problem : RuntimeProblem)
    (token : Token) :
    (lift (Step.fail problem token : Step α) machine record).Tells machine record post := here.stay

/-- What follows goes on from where the first part ended, where the code is at home still. -/
theorem tells_bind {first : Chronicle α} {rest : α → Chronicle β}
    {last : β → Heap → List Belonging → Prop} (here : AtHome home tether machine record)
    (tells : (first machine record).Tells machine record post)
    (further : ∀ result {middle next}, Onward machine record middle next →
      AtHome home tether middle next → post result middle.heap next.belongings →
        (rest result middle next).Tells middle next last) :
    ((first >>= rest) machine record).Tells machine record last := by
  change (Chronicle.bind first rest machine record).Tells machine record last
  unfold Chronicled.Tells at tells
  unfold Chronicle.bind
  split at tells
  · next result after ended =>
    simp only [ended]
    obtain ⟨onward, holds⟩ := tells
    exact tells_from onward (further _ onward (here.onward onward) holds)
  · next ended =>
    simp only [ended]
    exact tells
  · next ended =>
    simp only [ended]
    exact tells

theorem lift_bind (first : Step α) (rest : α → Step β) :
    lift (first >>= rest) = lift first >>= fun result => lift (rest result) := by
  funext machine record
  change lift (Step.bind first rest) machine record =
    Chronicle.bind (lift first) (fun result => lift (rest result)) machine record
  simp only [lift, Step.bind, Chronicle.bind]
  cases first machine <;> rfl

/-- An event is told truly if what it notes is told truly and the event is true. -/
theorem tells_noting {occasion : Occasion} {inner : Chronicle Value}
    {post : Value → Heap → List Belonging → Prop}
    (tells : (inner machine record).Tells machine record post)
    (truthful : Event.Truthful ⟨occasion, machine, (inner machine record).outcome⟩) :
    (noting occasion inner machine record).Tells machine record post := by
  have written : Record.Truthful (noting occasion inner machine record).record := by
    intro event member
    cases List.mem_append.mp member with
    | inl before => exact tells_truthful tells event before
    | inr new =>
      cases List.mem_singleton.mp new
      exact truthful
  have same : (noting occasion inner machine record).outcome = (inner machine record).outcome := rfl
  unfold Chronicled.Tells at tells ⊢
  rw [same]
  split at tells
  · exact ⟨{ tells.1 with truthful := written }, tells.2⟩
  · exact { tells with truthful := written }
  · exact written

/-! ## Scopes -/

/-- What is told of an inner run is told of the whole when the machine is brought back to where it was,
which leaves the heap as it is. -/
theorem tells_mapMachine {told : Chronicled α} {entered : Machine} {back : Machine → Machine}
    (tells : told.Tells entered record post) (heap : ∀ after, (back after).heap = after.heap)
    (returns : ∀ {after later}, Onward entered record after later →
      Onward machine record (back after) later) :
    Chronicled.Tells machine record post ⟨told.outcome.mapMachine back, told.record⟩ := by
  obtain ⟨outcome, later⟩ := told
  cases outcome with
  | finished result after =>
    refine ⟨returns tells.1, ?_⟩
    rw [heap]
    exact tells.2
  | failed error after => exact returns tells
  | outOfFuel => exact tells

theorem tells_inScope {inner : Chronicle α} (here : AtHome home tether machine record)
    (tells : AtHome home (tether.map .longer) machine.enter record →
      (inner machine.enter record).Tells machine.enter record post) :
    (inScope inner machine record).Tells machine record post := by
  have opened : machine.heap.Retains machine.enter.heap := .ofEnvironment (.child _ _)
  have secures : machine.heap.environment.Secures machine.enter.heap.environment := .child _ _
  have entered : AtHome home (tether.map .longer) machine.enter record :=
    ⟨here.housed.addFrame machine.frame, here.truthful, here.reaches.child⟩
  exact tells_mapMachine (tells entered) (fun _ => rfl) fun onward =>
    ⟨onward.housed, onward.truthful, onward.keeps.leave, opened.trans onward.retains,
      secures.trans onward.secures, onward.grown⟩

/-- The body of a function is come to in a scope inside the function's own frame, where the function
is at home. -/
theorem tells_inCall {closure : Closure} {arguments : List Value} {paren : Token}
    {body : Chronicle Flow} {callee : Option Home} {length : Option Tether}
    {post : Flow → Heap → List Belonging → Prop} (here : AtHome home tether machine record)
    (tethered : closure.lambda.Tethered length)
    (reaches : Home.Reaches callee length machine.heap.environment closure.frame)
    (known : ∀ argument ∈ arguments, argument.Known machine.heap record.belongings)
    (tells : ∀ entered, AtHome callee (length.map .longer) entered record →
      (body entered record).Tells entered record post) :
    (inCall closure arguments paren body machine record).Tells machine record post := by
  let entered := machine.enterCall closure arguments
  have opened := here.housed.addFrame closure.frame
  obtain ⟨housed, bound⟩ := opened.bindParameters machine.heap.environment.size tethered.parts.1 known
  have secures : machine.heap.environment.Secures entered.heap.environment :=
    (Environment.Secures.child _ closure.frame).trans bound
  have retains : machine.heap.Retains entered.heap :=
    (Plan.bounds_enterCall arguments (Region.Bounds.refl (.whole machine.heap)) trivial
      fun _ _ _ _ => trivial).1.retains
  -- The caller's home plays no part: the body is evaluated inside the frame of the callee.
  have atHome : AtHome callee (length.map .longer) entered record :=
    ⟨housed, here.truthful, reaches.child.later bound⟩
  unfold inCall
  split
  · exact here.stay
  · exact tells_mapMachine (tells entered atHome) (fun _ => rfl) fun onward =>
      ⟨onward.housed, onward.truthful, onward.keeps.leaveCall, retains.trans onward.retains,
        secures.trans onward.secures, onward.grown⟩

end Chronicle

end Lox
