import Lox.Proofs.Lexical.Runs
import Lox.Proofs.Signals.Seats

/-!
# `super` is never astray

A watched run comes to `super` only in a subclass, and with frames that match the scopes. There the
nearest scope that holds `super` is the one just outside the nearest scope that holds `this`, so
where frames are seated the superclass and the instance are both found.
-/

namespace Lox

/-- A function whose declaration has ordinary names only, with `super` visible in it if its class
has a superclass. -/
structure Origin.Proper (origin : Origin) : Prop where
  ordinary : Ordinary origin.lambda.written
  proper : origin.surroundings.Proper

/-- What is left is seated, with functions from proper origins, and what went wrong is no stray
`super`. -/
def Watched.Seated {α : Type} (post : α → Prop) : Watched α → Prop
  | finished result after later =>
    (after.heap.Seated ∧ ∀ origin ∈ later, origin.Proper) ∧ post result
  | failed error after later =>
    (after.heap.Seated ∧ ∀ origin ∈ later, origin.Proper) ∧ ¬error.IsStraySuper
  | _ => True

/-- Heaps are seated or not whatever becomes of the rest of the machine. -/
theorem Watched.Seated.mapMachine {α : Type} {watched : Watched α} {post : α → Prop}
    {change : Machine → Machine} (seated : watched.Seated post)
    (same : ∀ machine, (change machine).heap = machine.heap) :
    (watched.mapMachine change).Seated post := by
  cases watched with
  | finished result after later =>
    refine ⟨⟨?_, seated.1.2⟩, seated.2⟩
    rw [same]
    exact seated.1.1
  | failed error after later =>
    refine ⟨⟨?_, seated.1.2⟩, seated.2⟩
    rw [same]
    exact seated.1.1
  | outOfFuel => trivial
  | astray => trivial

theorem Surroundings.Proper.after {s : Surroundings} {stmt : Stmt Unit} (proper : s.Proper)
    (ordinary : Ordinary stmt.written) : (s.after stmt.declaredName?).Proper := by
  cases stmt with
  | varDecl name _ | funDecl name _ | classDecl name _ _ =>
    simp only [Stmt.written, Ordinary.cons] at ordinary
    exact proper.declare ordinary.2.1
  | _ => exact proper

namespace Watch

variable {α β : Type} {s : Surroundings}

/-! ## Contracts -/

/-- A watched step that keeps heaps seated and origins proper, and does not fail for a stray
`super`. -/
def Seats (watch : Watch α) (post : α → Prop) : Prop :=
  ∀ machine origins, machine.heap.Seated → (∀ origin ∈ origins, Origin.Proper origin) →
    (watch machine origins).Seated post

namespace Seats

variable {post : α → Prop}

theorem outOfFuel : Seats (Watch.outOfFuel : Watch α) post := fun _ _ _ _ => trivial

theorem pure {result : α} (holds : post result) : Seats (Pure.pure result) post :=
  fun _ _ seated proper => ⟨⟨seated, proper⟩, holds⟩

theorem lift {step : Step α} (seats : step.Seats post) : Seats (Watch.lift step) post := by
  intro machine origins seated proper
  have ended := seats machine seated
  unfold Watch.lift
  cases outcome : step machine with
  | finished result after =>
    rw [outcome] at ended
    exact ⟨⟨ended.1, proper⟩, ended.2⟩
  | failed error after =>
    rw [outcome] at ended
    exact ⟨⟨ended.1, proper⟩, ended.2⟩
  | outOfFuel => trivial

theorem bind {first : Watch α} {rest : α → Watch β} {last : β → Prop} (seats : first.Seats post)
    (further : ∀ result, post result → (rest result).Seats last) : (first >>= rest).Seats last := by
  intro machine origins seated proper
  have ended := seats machine origins seated proper
  change (Watch.bind first rest machine origins).Seated last
  unfold Watch.bind
  cases outcome : first machine origins with
  | finished result middle later =>
    rw [outcome] at ended
    exact further result ended.2 middle later ended.1.1 ended.1.2
  | failed error middle later =>
    rw [outcome] at ended
    exact ended
  | outOfFuel => trivial
  | astray => trivial

theorem fail {problem : RuntimeProblem} {token : Token}
    (plain : ¬RuntimeError.IsStraySuper ⟨problem, token⟩) :
    Seats (Watch.lift (Step.fail problem token)) post :=
  lift (.fail plain)

theorem readHeap (f : Heap → α) : Seats (Watch.lift (Step.readHeap f)) fun _ => True :=
  lift (.readHeap fun _ _ => trivial)

/-! ### What is watched -/

theorem check (scopes : Scopes) : Seats (Watch.check scopes) fun _ => True := by
  intro machine origins seated proper
  unfold Watch.check
  split
  · exact ⟨⟨seated, proper⟩, trivial⟩
  · trivial

theorem occurs_cases (s : Surroundings) (name : String) (machine : Machine)
    (origins : List Origin) : Watch.occurs s name machine origins = .astray ∨
      Watch.occurs s name machine origins = .finished () machine origins := by
  unfold Watch.occurs
  split
  · exact .inr rfl
  · split
    · exact .inr rfl
    · exact .inl rfl

theorem occurs (s : Surroundings) (name : String) :
    Seats (Watch.occurs s name) fun _ => True := by
  intro machine origins seated proper
  obtain astray | found := occurs_cases s name machine origins
  · rw [astray]
    trivial
  · rw [found]
    exact ⟨⟨seated, proper⟩, trivial⟩

theorem originOf (id : FunctionId) : Seats (Watch.originOf id) Origin.Proper := by
  intro machine origins seated proper
  unfold Watch.originOf
  split
  · next origin found =>
    split
    · trivial
    · exact ⟨⟨seated, proper⟩, proper origin (List.mem_of_getElem? found)⟩
  · trivial

/-! ### Functions -/

theorem close {lambda : Lambda Unit} (proper : s.Proper) (ordinary : Ordinary lambda.written)
    (name : Option String) (isInitializer bare : Bool) :
    Seats (Watch.close s name lambda isInitializer bare) fun _ => True := by
  intro machine origins seated properAll
  unfold Watch.close
  split
  · trivial
  · next resolved resolves =>
    have parameters : ∀ parameter ∈ resolved.parameters, parameter.written.IsOrdinary := by
      rw [Lambda.parameters_of_resolve resolves]
      exact (Lambda.ordinary ordinary).1
    refine ⟨⟨seated.addFunction parameters, List.forall_mem_append.mpr ⟨properAll, ?_⟩⟩, trivial⟩
    exact List.forall_mem_singleton.mpr ⟨ordinary, proper⟩

theorem bindMethod (method : FunctionId) (receiver : InstanceId) :
    Seats (Watch.bindMethod method receiver) fun _ => True := by
  intro machine origins seated proper
  unfold Watch.bindMethod
  split
  · trivial
  · next origin found =>
    split
    · have known := proper origin (List.mem_of_getElem? found)
      refine ⟨⟨seated.bindMethod method receiver, List.forall_mem_append.mpr ⟨proper, ?_⟩⟩, trivial⟩
      exact List.forall_mem_singleton.mpr ⟨known.ordinary, known.proper⟩
    · trivial

theorem getProperty (receiver : InstanceId) (name : Name) :
    Seats (Watch.getProperty receiver name) fun _ => True := by
  refine bind (readHeap _) fun field _ => ?_
  split
  · exact pure trivial
  · refine bind (readHeap _) fun method _ => ?_
    split
    · exact bind (bindMethod _ _) fun _ _ => pure trivial
    · exact fail id

theorem closeMethods {methods : List (Method Unit)} (table : Table FunctionId)
    (proper : (s.enter [thisName]).Proper) (ordinary : Ordinary (Method.writtenEach methods)) :
    Seats (Watch.closeMethods (s.enter [thisName]) table methods) fun _ => True := by
  induction methods generalizing table with
  | nil => exact pure trivial
  | cons method rest ih =>
    obtain ⟨name, lambda⟩ := method
    simp only [Method.writtenEach, Method.written, Ordinary.append, Ordinary.cons] at ordinary
    exact bind (close proper ordinary.1.2.2 _ _ _) fun id _ => ih _ ordinary.2

/-! ### Scopes -/

theorem inScope {watch : Watch α} (seats : watch.Seats post) :
    Seats (Watch.inScope watch) post := by
  intro machine origins seated proper
  have inside := seats machine.enter origins (seated.addFrame machine.frame) proper
  rw [Watch.inScope, around_eq]
  exact inside.mapMachine fun _ => rfl

theorem inCall {watch : Watch α} {closure : Closure} {arguments : List Value} {paren : Token}
    (ordinary : ∀ parameter ∈ closure.lambda.parameters, parameter.written.IsOrdinary)
    (seats : watch.Seats post) : Seats (Watch.inCall closure arguments paren watch) post := by
  intro machine origins seated proper
  unfold Watch.inCall
  split
  · exact ⟨⟨seated, proper⟩, id⟩
  · have entered : (machine.enterCall closure arguments).heap.Seated :=
      (seated.addFrame closure.frame).bindParameters ordinary
    have inside := seats (machine.enterCall closure arguments) origins entered proper
    dsimp only
    rw [around_eq]
    exact inside.mapMachine fun _ => rfl

/-! ### Declarations -/

theorem closeMethodsOf {methods : List (Method Unit)} (superclass : Option ClassId)
    (ordinary : Ordinary (Method.writtenEach methods)) :
    Seats (Watch.closeMethodsOf s superclass methods) fun _ => True := by
  have proper := Surroundings.proper_classBody superclass s
  cases superclass with
  | none => exact closeMethods _ proper ordinary
  | some id =>
    -- The scope of a subclass is where `super` gets its seat.
    have fits : (Value.classObject id).Fits superName :=
      ⟨fun _ => ⟨id, rfl⟩, fun same => absurd same (by decide)⟩
    exact inScope (bind (lift (.define fits)) fun _ _ => closeMethods _ proper ordinary)

theorem superclassOf (name : Name) (superclass : Option (Superclass Unit)) :
    Seats (Watch.superclassOf s name superclass) fun _ => True := by
  cases superclass with
  | none => exact pure trivial
  | some parent =>
    refine bind (check _) fun _ _ => bind (occurs _ _) fun _ _ => ?_
    exact lift (.superclassOf _)

theorem declareClass {name : Name} {methods : List (Method Unit)}
    (superclass : Option (Superclass Unit)) (named : name.written.IsOrdinary)
    (ordinary : Ordinary (Method.writtenEach methods)) :
    Seats (Watch.declareClass s name superclass methods) fun _ => True := by
  have define : ∀ value, Seats (Watch.lift (Step.define name.text value)) fun _ => True :=
    fun value => lift (.define (Value.fits_of_ordinary named value))
  refine bind (superclassOf _ _) fun parent _ => bind (define _) fun _ _ => ?_
  refine bind (closeMethodsOf parent ordinary) fun table _ => ?_
  exact bind (lift (.addClass _)) fun id _ => define _

theorem declareFunction {name : Name} {lambda : Lambda Unit} (proper : s.Proper)
    (named : name.written.IsOrdinary) (ordinary : Ordinary lambda.written) :
    Seats (Watch.declareFunction s name lambda) fun _ => True := by
  have define : ∀ value, Seats (Watch.lift (Step.define name.text value)) fun _ => True :=
    fun value => lift (.define (Value.fits_of_ordinary named value))
  refine bind (define _) fun _ _ => ?_
  exact bind (close (proper.declare named) ordinary _ _ _) fun id _ => define _

/-! ### `super` -/

/-- Where the frames match the scopes of a subclass, the superclass and the instance are found. -/
theorem superParts_finished {machine : Machine} (line : Nat) (seated : machine.heap.Seated)
    (matched : machine.heap.environment.Matches machine.frame s.scopes)
    (visible : s.scopes.SuperVisible) : ∃ superclass receiver,
      Step.superParts line (s.binding superName) machine =
        .finished (superclass, receiver) machine := by
  obtain ⟨distance, this, super⟩ := visible.binding
  -- Neither frame is that of the globals, and each binds what its scope holds. So what they bind
  -- `super` and `this` to is seated.
  obtain ⟨outer, foundOuter, outerInner, held⟩ := matched.ancestor? super
  obtain ⟨inner, foundInner, innerInner, heldThis⟩ := matched.ancestor? this
  obtain ⟨value, valued⟩ := Option.isSome_iff_exists.mp held
  obtain ⟨superclass, rfl⟩ := (seated.slots outer superName value outerInner valued).super rfl
  obtain ⟨value, valuedThis⟩ := Option.isSome_iff_exists.mp heldThis
  obtain ⟨receiver, rfl⟩ := (seated.slots inner thisName value innerInner valuedThis).this rfl
  refine ⟨superclass, receiver, ?_⟩
  have bound : s.binding superName = .lexical (distance + 1) := super
  simp only [Step.superParts, bound, Heap.lookUp?, Environment.getAt?, foundOuter, foundInner,
    Option.bind_some, valued, valuedThis]

/-- A method of the superclass, once the superclass and the instance are found. -/
theorem superclassMethod (superclass : ClassId) (receiver : InstanceId) (method : Name) :
    Seats (Watch.lift (Step.readHeap (·.findMethod? method.text superclass)) >>= fun
      | some found => Watch.bindMethod found receiver >>= fun bound =>
          Pure.pure (Value.function bound)
      | none => Watch.lift (Step.readHeap (·.className superclass)) >>= fun className =>
          Watch.lift (Step.fail (.undefinedSuperclassProperty method.text className) method.token))
      fun _ => True := by
  refine bind (readHeap _) fun found _ => ?_
  split
  · exact bind (bindMethod _ _) fun _ _ => pure trivial
  · exact bind (readHeap _) fun className _ => fail id

/-- A step that only looks at the machine, and may be astray. -/
theorem looks {first : Watch α} {rest : α → Watch β} {last : β → Prop} {machine : Machine}
    {origins : List Origin} (ends : first machine origins = .astray ∨
      ∃ result, first machine origins = .finished result machine origins ∧
        (rest result machine origins).Seated last) :
    ((first >>= rest) machine origins).Seated last := by
  change (Watch.bind first rest machine origins).Seated last
  unfold Watch.bind
  obtain astray | ⟨result, ended, seated⟩ := ends
  · rw [astray]
    trivial
  · rw [ended]
    exact seated

/-- In a subclass the frames that match the scopes have the superclass and the instance. -/
theorem superMethod (proper : s.Proper) (line : Nat) (method : Name) :
    Seats (Watch.check s.scopes >>= fun _ => Watch.inSubclass s >>= fun _ =>
      Watch.occurs s superName >>= fun _ =>
        Watch.superProperty line (s.binding superName) method) fun _ => True := by
  intro machine origins seated properAll
  refine looks ?_
  by_cases matched : machine.heap.environment.Matches machine.frame s.scopes
  case neg => exact .inl (if_neg matched)
  refine .inr ⟨(), if_pos matched, looks ?_⟩
  by_cases subclass : s.inClass = .withSuperclass
  case neg => exact .inl (if_neg subclass)
  refine .inr ⟨(), if_pos subclass, ?_⟩
  -- So the run stands in a method of a subclass, on frames that match its scopes.
  obtain ⟨superclass, receiver, found⟩ :=
    superParts_finished line seated matched (proper subclass)
  have property : (Watch.superProperty line (s.binding superName) method machine origins).Seated
      fun _ => True := by
    refine looks (.inr ⟨(superclass, receiver), ?_, ?_⟩)
    · simp only [Watch.lift, found]
    · exact superclassMethod superclass receiver method machine origins seated properAll
  obtain astray | bound := occurs_cases s superName machine origins
  · exact looks (.inl astray)
  · exact looks (.inr ⟨(), bound, property⟩)

end Seats

end Watch

end Lox
