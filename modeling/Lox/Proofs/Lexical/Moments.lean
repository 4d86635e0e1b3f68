import Lox.Proofs.Lexical.Mirror
import Lox.Proofs.Scoping.Agreement

/-!
# Moments of two runs

A watched run and a lexical one, side by side. At every moment they mirror each other: what the
frames hold is what the cells hold, every function is closed over frames that stand for what was
visible to it, and everything else is the same.
-/

namespace Lox

namespace Lexical

/-! ## Functions -/

/-- A closure and a lexical function that come from one declaration. -/
structure Twin (env : Environment Value) (places : List Place) (closure : Closure)
    (function : Function) (origin : Origin) : Prop where
  name : function.name = closure.name
  isInitializer : function.isInitializer = closure.isInitializer
  lambda : function.lambda = origin.lambda
  parameters : closure.lambda.parameters = origin.lambda.parameters
  chain : Chain env places closure.frame function.visible
  /-- A bare method is short of the scope of its instance. -/
  covers : if origin.bare then
      ∃ outer, origin.surroundings.scopes = [thisName] :: outer ∧ Covers function.visible outer
    else Covers function.visible origin.surroundings.scopes
  initializer : closure.isInitializer → ∃ outer, origin.surroundings.scopes = [thisName] :: outer
  proper : origin.surroundings.Proper
  ordinary : Ordinary origin.lambda.written

structure Twins (env : Environment Value) (places : List Place) (closures : Array Closure)
    (functions : Array Function) (origins : List Origin) : Prop where
  countClosures : origins.length = closures.size
  countFunctions : origins.length = functions.size
  twin : ∀ (id : FunctionId) (closure : Closure) (function : Function) (origin : Origin),
    closures[id]? = some closure → functions[id]? = some function → origins[id]? = some origin →
      Twin env places closure function origin

section

variable {env later : Environment Value} {places further : List Place} {closures : Array Closure}
  {functions : Array Function} {origins : List Origin} {closure : Closure} {function : Function}
  {origin : Origin} {gaining : FrameId → Prop}

theorem Twin.grows (twin : Twin env places closure function origin) (grows : env.Grows gaining later)
    (grown : places <+: further) : Twin later further closure function origin :=
  { twin with chain := twin.chain.grows grows grown }

theorem Twin.arity (twin : Twin env places closure function origin) :
    closure.lambda.parameters.length = function.lambda.parameters.length := by
  rw [twin.lambda, twin.parameters]

theorem Twins.grows (twins : Twins env places closures functions origins)
    (grows : env.Grows gaining later) (grown : places <+: further) :
    Twins later further closures functions origins :=
  ⟨twins.countClosures, twins.countFunctions, fun id closure function origin known also comes =>
    (twins.twin id closure function origin known also comes).grows grows grown⟩

theorem Twins.sizes (twins : Twins env places closures functions origins) :
    functions.size = closures.size :=
  twins.countFunctions.symm.trans twins.countClosures

/-- Every function has its twin. -/
theorem Twins.of_origin {id : FunctionId} (twins : Twins env places closures functions origins)
    (comes : origins[id]? = some origin) :
    ∃ closure function, closures[id]? = some closure ∧ functions[id]? = some function ∧
      Twin env places closure function origin := by
  have inside := (List.getElem?_eq_some_iff.mp comes).1
  obtain ⟨closure, known⟩ : ∃ closure, closures[id]? = some closure :=
    ⟨_, Array.getElem?_eq_getElem (twins.countClosures ▸ inside)⟩
  obtain ⟨function, also⟩ : ∃ function, functions[id]? = some function :=
    ⟨_, Array.getElem?_eq_getElem (twins.countFunctions ▸ inside)⟩
  exact ⟨_, _, known, also, twins.twin id _ _ origin known also comes⟩

theorem Twins.push (twins : Twins env places closures functions origins)
    (twin : Twin env places closure function origin) :
    Twins env places (closures.push closure) (functions.push function) (origins ++ [origin]) := by
  refine ⟨?_, ?_, fun id otherClosure otherFunction otherOrigin known also comes => ?_⟩
  · simp [twins.countClosures]
  · simp [twins.countFunctions]
  · by_cases new : id = origins.length
    · subst new
      rw [List.getElem?_append_right (Nat.le_refl _), Nat.sub_self] at comes
      rw [twins.countClosures, Array.getElem?_push_size] at known
      rw [twins.countFunctions, Array.getElem?_push_size] at also
      cases comes
      cases known
      cases also
      exact twin
    · rw [Array.getElem?_push, if_neg (twins.countClosures ▸ new)] at known
      rw [Array.getElem?_push, if_neg (twins.countFunctions ▸ new)] at also
      -- The others keep their numbers on all three sides.
      have old : id < origins.length := by
        rw [twins.countClosures]
        exact (Array.getElem?_eq_some_iff.mp known).1
      rw [List.getElem?_append_left old] at comes
      exact twins.twin id otherClosure otherFunction otherOrigin known also comes

end

/-! ## Moments -/

/-- The states of the two runs, and where the cells of the one lie in the frames of the other. -/
structure Moment where
  machine : Machine
  origins : List Origin
  state : State
  places : List Place

/-- The two states stand for the same thing, up to what is visible. -/
structure Mirror (moment : Moment) : Prop where
  stored : Stored moment.machine.heap.environment moment.places moment.state.cells
    moment.state.globals
  twins : Twins moment.machine.heap.environment moment.places moment.machine.heap.functions
    moment.state.functions moment.origins
  classes : moment.state.classes = moment.machine.heap.classes
  instances : moment.state.instances = moment.machine.heap.instances
  natives : moment.state.natives = moment.machine.heap.natives
  depth : moment.state.depth = moment.machine.depth
  output : moment.state.output = moment.machine.output
  clock : moment.state.clock = moment.machine.clock
  readings : moment.state.readings = moment.machine.readings

/-- What a step leads from and to. Only if it is open may it declare names. -/
structure Carries (opens : Prop) (before after : Moment) : Prop where
  frame : after.machine.frame = before.machine.frame
  grows : before.machine.heap.environment.Grows (before.machine.MayGain opens)
    after.machine.heap.environment
  places : before.places <+: after.places
  visible : ¬opens → after.state.visible = before.state.visible

/-- The two runs are where the surroundings say. The innermost frame holds no name that its scope
does not. -/
structure Standing (s : Surroundings) (moment : Moment) : Prop where
  chain : Chain moment.machine.heap.environment moment.places moment.machine.frame
    moment.state.visible
  covers : Covers moment.state.visible s.scopes
  complete : ∀ scope ∈ moment.state.visible.head?, ∀ name,
    (moment.machine.heap.environment.slot? moment.machine.frame name).isSome →
      (scope.get? name).isSome
  proper : s.Proper

variable {opens opened : Prop} {s : Surroundings} {moment next last : Moment}

namespace Carries

theorem refl (moment : Moment) : Carries opens moment moment :=
  ⟨rfl, .refl _, List.prefix_rfl, fun _ => rfl⟩

theorem trans (first : Carries opens moment next) (second : Carries opens next last) :
    Carries opens moment last := by
  refine ⟨second.frame.trans first.frame, first.grows.trans second.grows ?_,
    first.places.trans second.places, fun closed =>
      (second.visible closed).trans (first.visible closed)⟩
  rintro frame _ (global | ⟨opened, same⟩)
  · exact .inl global
  · exact .inr ⟨opened, same.trans first.frame⟩

theorem mono (carries : Carries opened moment next) (widens : opened → opens) :
    Carries opens moment next := by
  refine ⟨carries.frame, carries.grows.mono ?_, carries.places, fun closed =>
    carries.visible fun opened => closed (widens opened)⟩
  rintro frame (global | ⟨opened, same⟩)
  · exact .inl global
  · exact .inr ⟨widens opened, same⟩

end Carries

/-- A step that declares nothing stays where it is. -/
theorem Standing.carries (standing : Standing s moment) (mirror : Mirror moment)
    (carries : Carries False moment next) : Standing s next := by
  have same := carries.visible id
  refine ⟨?_, ?_, fun scope front name bound => ?_, standing.proper⟩
  · rw [same, carries.frame]
    exact standing.chain.grows carries.grows carries.places
  · rw [same]
    exact standing.covers
  · rw [same] at front
    rw [carries.frame] at bound
    have made := standing.chain.lt_size mirror.stored.root
    refine standing.complete scope front name (carries.grows.gained _ name made ?_ bound)
    rintro (global | ⟨opened, _⟩)
    · have chain := standing.chain
      cases visible : moment.state.visible with
      | nil =>
        rw [visible] at front
        cases front
      | cons scope outer =>
        rw [visible] at chain
        exact chain.1 global
    · exact opened

/-! ## Changing both sides -/

/-- The frames of the one and the cells of the other change, and nothing else. -/
theorem Mirror.ofStored {machine : Machine} {origins : List Origin} {state : State}
    {places further : List Place} {environment : Environment Value} {cells : Array Value}
    {globals : Table Value} {frame : FrameId} {visible : Visible} {gaining : FrameId → Prop}
    (mirror : Mirror ⟨machine, origins, state, places⟩)
    (stored : Stored environment further cells globals)
    (grows : machine.heap.environment.Grows gaining environment) (grown : places <+: further) :
    Mirror ⟨{ machine with
        heap := { machine.heap with environment := environment }, frame := frame }, origins,
      { state with cells := cells, globals := globals, visible := visible }, further⟩ :=
  { mirror with stored := stored, twins := mirror.twins.grows grows grown }

end Lexical

end Lox
