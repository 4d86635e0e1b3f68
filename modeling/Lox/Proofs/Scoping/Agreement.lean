import Lox.Proofs.Scoping.Invariant
import Lox.Proofs.Sessions.Endings

/-!
# Agreement of watched steps

A watched step agrees with a step of the machine if it is never astray and ends as the step does.
Whatever either does to the heap keeps it sound, and comes back to the innermost scope it started
from. Agreement is shown along the sequencing of steps, as contracts are: what the first step leaves
is what the next one may rely on.
-/

namespace Lox

/-- The frames that may gain names while a step runs: that of the globals, and that of the innermost
scope if the step declares names in it. New frames are not counted. -/
def Machine.MayGain (opens : Prop) (machine : Machine) (frame : FrameId) : Prop :=
  frame = Heap.globals ∨ opens ∧ frame = machine.frame

namespace Machine

variable {machine entered after : Machine} {gaining : FrameId → Prop}

/-- What was done in a new frame, and names declared there, are nothing to the frames before. -/
theorem grows_back
    (grows : machine.heap.environment.Grows (machine.MayGain False) entered.heap.environment)
    (new : machine.heap.environment.size ≤ entered.frame)
    (further : entered.heap.environment.Grows (entered.MayGain True) after.heap.environment) :
    machine.heap.environment.Grows (machine.MayGain False) after.heap.environment := by
  refine grows.trans further ?_
  rintro other old (global | ⟨_, same⟩)
  · exact .inl global
  · exact absurd old (Nat.not_lt.mpr (same ▸ new))

/-- A scope that was entered is left for the scope around it. -/
theorem frame_leave
    (grows : machine.enter.heap.environment.Grows gaining after.heap.environment)
    (frame : after.frame = machine.enter.frame) : after.leave.frame = machine.frame := by
  have lies : after.heap.environment.enclosing? after.frame = some machine.frame := by
    rw [frame]
    change after.heap.environment.enclosing? machine.heap.environment.size = _
    rw [grows.enclosing _ (Environment.size_lt_size_child _ _)]
    change (machine.heap.environment.child machine.frame).enclosing? _ = _
    rw [Environment.enclosing?_child, if_pos rfl]
  change (after.heap.environment.enclosing? after.frame).getD after.frame = machine.frame
  rw [lies]
  rfl

end Machine

def Watched.mapMachine {α : Type} (change : Machine → Machine) : Watched α → Watched α
  | finished result machine origins => .finished result (change machine) origins
  | failed error machine origins => .failed error (change machine) origins
  | outOfFuel => .outOfFuel
  | astray => .astray

namespace Watch

variable {α β : Type} {opens : Prop} {s : Surroundings} {machine after last : Machine}
  {origins later latest : List Origin}

/-! ## What every step keeps -/

structure Steady (opens : Prop) (machine : Machine) (origins : List Origin) (after : Machine)
    (later : List Origin) : Prop where
  sound : after.heap.Sound later
  frame : after.frame = machine.frame
  grows : machine.heap.environment.Grows (machine.MayGain opens) after.heap.environment
  origins : origins <+: later

namespace Steady

theorem refl (sound : machine.heap.Sound origins) : Steady opens machine origins machine origins :=
  ⟨sound, rfl, .refl _, List.prefix_rfl⟩

theorem trans (first : Steady opens machine origins after later)
    (second : Steady opens after later last latest) :
    Steady opens machine origins last latest := by
  refine ⟨second.sound, second.frame.trans first.frame, first.grows.trans second.grows ?_,
    first.origins.trans second.origins⟩
  rintro frame _ (global | ⟨opened, same⟩)
  · exact .inl global
  · exact .inr ⟨opened, same.trans first.frame⟩

theorem mono {wider : Prop} (steady : Steady opens machine origins after later)
    (widens : opens → wider) : Steady wider machine origins after later := by
  refine ⟨steady.sound, steady.frame, steady.grows.mono ?_, steady.origins⟩
  rintro frame (global | ⟨opened, same⟩)
  · exact .inl global
  · exact .inr ⟨widens opened, same⟩

end Steady

/-- The machine stands where the surroundings say: its heap is sound and its frames match the
scopes. -/
structure Stands (s : Surroundings) (machine : Machine) (origins : List Origin) : Prop where
  sound : machine.heap.Sound origins
  matched : machine.heap.environment.Matches machine.frame s.scopes

theorem Stands.steady (stands : Stands s machine origins)
    (steady : Steady opens machine origins after later) : Stands s after later := by
  refine ⟨steady.sound, ?_⟩
  rw [steady.frame]
  exact stands.matched.grows steady.grows

/-! ## Agreement -/

def Agrees (opens : Prop) (machine : Machine) (origins : List Origin) (watch : Watch α)
    (step : Step α) (post : α → Machine → List Origin → Prop) : Prop :=
  match step machine with
  | .finished result after => ∃ later, watch machine origins = .finished result after later ∧
      Steady opens machine origins after later ∧ post result after later
  | .failed error after => ∃ later, watch machine origins = .failed error after later ∧
      Steady opens machine origins after later
  | .outOfFuel => watch machine origins = .outOfFuel

section

variable {watch : Watch α} {step : Step α} {post : α → Machine → List Origin → Prop}

theorem agrees_outOfFuel : Agrees opens machine origins (outOfFuel : Watch α) Step.outOfFuel post :=
  rfl

theorem agrees_pure {result : α} (sound : machine.heap.Sound origins)
    (holds : post result machine origins) :
    Agrees opens machine origins (pure result) (pure result) post :=
  ⟨origins, rfl, .refl sound, holds⟩

theorem agrees_fail {problem : RuntimeProblem} {token : Token}
    (sound : machine.heap.Sound origins) :
    Agrees opens machine origins (lift (Step.fail problem token)) (Step.fail problem token)
      post :=
  ⟨origins, rfl, .refl sound⟩

theorem Agrees.weaken {wider : Prop} {stronger : α → Machine → List Origin → Prop}
    (agrees : Agrees opens machine origins watch step stronger) (widens : opens → wider)
    (weakens : ∀ result after later, Steady opens machine origins after later →
      stronger result after later → post result after later) :
    Agrees wider machine origins watch step post := by
  simp only [Agrees] at agrees ⊢
  cases outcome : step machine with
  | finished result after =>
    rw [outcome] at agrees
    obtain ⟨later, watched, steady, holds⟩ := agrees
    exact ⟨later, watched, steady.mono widens, weakens result after later steady holds⟩
  | failed error after =>
    rw [outcome] at agrees
    obtain ⟨later, watched, steady⟩ := agrees
    exact ⟨later, watched, steady.mono widens⟩
  | outOfFuel =>
    rw [outcome] at agrees
    exact agrees

/-- A step that declares nothing may run where names are declared. -/
theorem Agrees.opened (agrees : Agrees False machine origins watch step post) :
    Agrees opens machine origins watch step post :=
  agrees.weaken False.elim fun _ _ _ _ holds => holds

/-- A step that makes no functions. -/
theorem agrees_lift
    (finishes : ∀ result after, step machine = .finished result after →
      Steady opens machine origins after origins ∧ post result after origins)
    (fails : ∀ error after, step machine = .failed error after →
      Steady opens machine origins after origins) :
    Agrees opens machine origins (lift step) step post := by
  simp only [Agrees, lift]
  cases outcome : step machine with
  | finished result after => exact ⟨origins, rfl, finishes result after outcome⟩
  | failed error after => exact ⟨origins, rfl, fails error after outcome⟩
  | outOfFuel => rfl

/-- A step that changes the heap, and gives a result. -/
theorem agrees_changeHeap {f : Heap → α × Heap} (sound : (f machine.heap).2.Sound origins)
    (grows : machine.heap.environment.Grows (machine.MayGain opens) (f machine.heap).2.environment)
    (holds : post (f machine.heap).1 { machine with heap := (f machine.heap).2 } origins) :
    Agrees opens machine origins (lift (Step.changeHeap f)) (Step.changeHeap f) post :=
  ⟨origins, rfl, ⟨sound, rfl, grows, List.prefix_rfl⟩, holds⟩

end

section

variable {watch : Watch α} {step : Step α} {watched : α → Watch β} {steps : α → Step β}
  {middle : α → Machine → List Origin → Prop} {post : β → Machine → List Origin → Prop}

theorem agrees_bind (first : Agrees opens machine origins watch step middle)
    (second : ∀ result after later, Steady opens machine origins after later →
      middle result after later → Agrees opens after later (watched result) (steps result) post) :
    Agrees opens machine origins (watch >>= watched) (step >>= steps) post := by
  change Agrees opens machine origins (Watch.bind watch watched) (Step.bind step steps) post
  simp only [Agrees, Watch.bind, Step.bind] at first ⊢
  cases outcome : step machine with
  | finished result after =>
    rw [outcome] at first
    obtain ⟨later, watchedFirst, steady, holds⟩ := first
    have rest := second result after later steady holds
    simp only [Agrees] at rest
    simp only [watchedFirst]
    cases furtherOutcome : steps result after with
    | finished final last =>
      rw [furtherOutcome] at rest
      obtain ⟨latest, watchedRest, steadyRest, holdsRest⟩ := rest
      exact ⟨latest, watchedRest, steady.trans steadyRest, holdsRest⟩
    | failed error last =>
      rw [furtherOutcome] at rest
      obtain ⟨latest, watchedRest, steadyRest⟩ := rest
      exact ⟨latest, watchedRest, steady.trans steadyRest⟩
    | outOfFuel =>
      rw [furtherOutcome] at rest
      exact rest
  | failed error after =>
    rw [outcome] at first
    obtain ⟨later, watchedFirst, steady⟩ := first
    simp only [watchedFirst]
    exact ⟨later, rfl, steady⟩
  | outOfFuel =>
    rw [outcome] at first
    simp only [first]

theorem agrees_readHeap {f : Heap → α}
    (further : Agrees opens machine origins (watched (f machine.heap)) (steps (f machine.heap))
      post) :
    Agrees opens machine origins (lift (Step.readHeap f) >>= watched) (Step.readHeap f >>= steps)
      post :=
  further

/-! ## What only the watched step does -/

variable {step : Step β}

theorem agrees_check {scopes : Scopes} {rest : Unit → Watch β}
    (matched : machine.heap.environment.Matches machine.frame scopes)
    (further : Agrees opens machine origins (rest ()) step post) :
    Agrees opens machine origins (check scopes >>= rest) step post := by
  have passes : check scopes machine origins = .finished () machine origins := if_pos matched
  change Agrees opens machine origins (Watch.bind (check scopes) rest) step post
  simp only [Agrees, Watch.bind, passes] at further ⊢
  exact further

/-- A name that resolves to a scope is bound there, by the matching of frames and scopes. -/
theorem agrees_occurs {name : String} {rest : Unit → Watch β}
    (bound : ∀ distance, s.binding name = .lexical distance →
      ∃ ancestor, machine.heap.environment.ancestor? machine.frame distance = some ancestor ∧
        ancestor ≠ Heap.globals ∧ (machine.heap.environment.slot? ancestor name).isSome)
    (further : Agrees opens machine origins (rest ()) step post) :
    Agrees opens machine origins (occurs s name >>= rest) step post := by
  have passes : occurs s name machine origins = .finished () machine origins := by
    simp only [occurs]
    cases resolved : s.binding name with
    | global => rfl
    | lexical distance =>
      obtain ⟨ancestor, found, _, held⟩ := bound distance resolved
      -- Reading and assigning walk to the same frame, which binds the name.
      simp [Environment.getAt?, Environment.assignAt, found, held]
  change Agrees opens machine origins (Watch.bind (occurs s name) rest) step post
  simp only [Agrees, Watch.bind, passes] at further ⊢
  exact further

theorem Stands.bound (stands : Stands s machine origins) (name : String) (distance : Nat)
    (resolved : s.binding name = .lexical distance) :
    ∃ ancestor, machine.heap.environment.ancestor? machine.frame distance = some ancestor ∧
      ancestor ≠ Heap.globals ∧ (machine.heap.environment.slot? ancestor name).isSome :=
  stands.matched.ancestor? resolved

theorem agrees_inSubclass {rest : Unit → Watch β} (subclass : s.inClass = .withSuperclass)
    (further : Agrees opens machine origins (rest ()) step post) :
    Agrees opens machine origins (inSubclass s >>= rest) step post := by
  have passes : inSubclass s machine origins = .finished () machine origins := if_pos subclass
  change Agrees opens machine origins (Watch.bind (inSubclass s) rest) step post
  simp only [Agrees, Watch.bind, passes] at further ⊢
  exact further

theorem agrees_originOf {id : FunctionId} {origin : Origin} {rest : Origin → Watch β}
    (known : origins[id]? = some origin) (bound : origin.bare = false)
    (further : Agrees opens machine origins (rest origin) step post) :
    Agrees opens machine origins (originOf id >>= rest) step post := by
  have passes : originOf id machine origins = .finished origin machine origins := by
    simp only [originOf, known, bound]
    rfl
  change Agrees opens machine origins (Watch.bind (originOf id) rest) step post
  simp only [Agrees, Watch.bind, passes] at further ⊢
  exact further

end

/-! ## Scopes -/

section

variable {watch : Watch α} {step : Step α} {inner post : α → Machine → List Origin → Prop}

theorem Stands.enter (stands : Stands s machine origins) :
    Stands (s.enter []) machine.enter origins :=
  ⟨stands.sound.addFrame, stands.matched.child stands.sound.root⟩

/-- What was done in a new frame, seen from the frame that one comes back to. -/
theorem Steady.back {entered back : Machine}
    (grows : machine.heap.environment.Grows (machine.MayGain False) entered.heap.environment)
    (new : machine.heap.environment.size ≤ entered.frame)
    (steady : Steady True entered origins after later) (heap : back.heap = after.heap)
    (frame : back.frame = machine.frame) : Steady False machine origins back later := by
  refine ⟨?_, frame, ?_, steady.origins⟩
  · rw [heap]
    exact steady.sound
  · rw [heap]
    exact Machine.grows_back grows new steady.grows

theorem Steady.leave (steady : Steady True machine.enter origins after later) :
    Steady False machine origins after.leave later :=
  .back (Environment.Grows.child _ _) (Nat.le_refl _) steady rfl
    (Machine.frame_leave steady.grows steady.frame)

theorem around_eq {before change : Machine → Machine} :
    watch.around before change machine origins =
      (watch (before machine) origins).mapMachine change := by
  simp only [around]
  cases watch (before machine) origins <;> rfl

/-- Both steps run on another machine, and change it back however they end. -/
theorem agrees_around {entered : Machine} {change : Machine → Machine} {outside : Watch α}
    {outer : Step α} (body : Agrees True entered origins watch step inner)
    (watches : outside machine origins = (watch entered origins).mapMachine change)
    (runs : outer machine = (step entered).mapMachine change)
    (back : ∀ left later, Steady True entered origins left later →
      Steady False machine origins (change left) later)
    (weakens : ∀ result left later, Steady True entered origins left later →
      inner result left later → post result (change left) later) :
    Agrees False machine origins outside outer post := by
  simp only [Agrees, watches, runs] at body ⊢
  cases outcome : step entered with
  | finished result left =>
    rw [outcome] at body
    obtain ⟨later, watched, steady, holds⟩ := body
    rw [watched]
    exact ⟨later, rfl, back left later steady, weakens result left later steady holds⟩
  | failed error left =>
    rw [outcome] at body
    obtain ⟨later, watched, steady⟩ := body
    rw [watched]
    exact ⟨later, rfl, back left later steady⟩
  | outOfFuel =>
    rw [outcome] at body
    rw [body]
    rfl

theorem agrees_inScope (body : Agrees True machine.enter origins watch step inner)
    (weakens : ∀ result after later, Steady True machine.enter origins after later →
      inner result after later → post result after.leave later) :
    Agrees False machine origins (inScope watch) (Step.inScope step) post :=
  agrees_around body around_eq (Step.inScope_eq step machine)
    (fun _ _ steady => steady.leave) weakens

end

end Watch

end Lox
