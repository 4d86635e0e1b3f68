import Lox.Proofs.Lexical.Moments

/-!
# Lexical steps that follow watched ones

A lexical step follows a watched step if it ends as that one does, with the states mirroring each
other again. Where the watched run is astray nothing is asked of the lexical one. As with agreement,
this is shown along the sequencing of steps.
-/

namespace Lox

namespace Lexical

variable {α β : Type} {opens opened : Prop} {s : Surroundings} {moment next : Moment}

/-- A lexical step that started at a moment ends as the watched step does. -/
def Meets (opens : Prop) (moment : Moment) (post : α → Moment → Prop) (ending : Ending α) :
    Watched α → Prop
  | .finished result machine origins => ∃ state places,
      ending = .finished result state ∧ Mirror ⟨machine, origins, state, places⟩ ∧
        Carries opens moment ⟨machine, origins, state, places⟩ ∧
          post result ⟨machine, origins, state, places⟩
  | .failed error machine origins => ∃ state places,
      ending = .failed error state ∧ Mirror ⟨machine, origins, state, places⟩ ∧
        Carries opens moment ⟨machine, origins, state, places⟩
  | .outOfFuel => ending = .outOfFuel
  | .astray => True

def Follows (opens : Prop) (moment : Moment) (watch : Watch α) (step : Lexical α)
    (post : α → Moment → Prop) : Prop :=
  Meets opens moment post (step moment.state) (watch moment.machine moment.origins)

section

variable {watch : Watch α} {step : Lexical α} {post : α → Moment → Prop}

theorem Meets.trans {ending : Ending α} {watched : Watched α} (carries : Carries opens moment next)
    (meets : Meets opens next post ending watched) : Meets opens moment post ending watched := by
  cases watched with
  | finished result machine origins =>
    obtain ⟨state, places, ends, mirror, further, holds⟩ := meets
    exact ⟨state, places, ends, mirror, carries.trans further, holds⟩
  | failed error machine origins =>
    obtain ⟨state, places, ends, mirror, further⟩ := meets
    exact ⟨state, places, ends, mirror, carries.trans further⟩
  | outOfFuel => exact meets
  | astray => trivial

theorem Follows.weaken {stronger : α → Moment → Prop}
    (follows : Follows opened moment watch step stronger) (widens : opened → opens)
    (weakens : ∀ result next, stronger result next → post result next) :
    Follows opens moment watch step post := by
  simp only [Follows] at follows ⊢
  cases outcome : watch moment.machine moment.origins with
  | finished result machine origins =>
    rw [outcome] at follows
    obtain ⟨state, places, ends, mirror, carries, holds⟩ := follows
    exact ⟨state, places, ends, mirror, carries.mono widens, weakens _ _ holds⟩
  | failed error machine origins =>
    rw [outcome] at follows
    obtain ⟨state, places, ends, mirror, carries⟩ := follows
    exact ⟨state, places, ends, mirror, carries.mono widens⟩
  | outOfFuel =>
    rw [outcome] at follows
    exact follows
  | astray => trivial

/-- After a step that declares nothing the two runs are where they were. -/
theorem Follows.stands (follows : Follows False moment watch step post) (standing : Standing s moment)
    (mirror : Mirror moment) :
    Follows opens moment watch step fun _ next => Standing s next := by
  simp only [Follows] at follows ⊢
  cases outcome : watch moment.machine moment.origins with
  | finished result machine origins =>
    rw [outcome] at follows
    obtain ⟨state, places, ends, mirrors, carries, _⟩ := follows
    exact ⟨state, places, ends, mirrors, carries.mono False.elim, standing.carries mirror carries⟩
  | failed error machine origins =>
    rw [outcome] at follows
    obtain ⟨state, places, ends, mirrors, carries⟩ := follows
    exact ⟨state, places, ends, mirrors, carries.mono False.elim⟩
  | outOfFuel =>
    rw [outcome] at follows
    exact follows
  | astray => trivial

theorem follows_outOfFuel : Follows opens moment (Watch.outOfFuel : Watch α) outOfFuel post := rfl

theorem follows_pure {result : α} (mirror : Mirror moment) (holds : post result moment) :
    Follows opens moment (pure result) (pure result) post :=
  ⟨moment.state, moment.places, rfl, mirror, .refl moment, holds⟩

theorem follows_fail {problem : RuntimeProblem} {token : Token} (mirror : Mirror moment) :
    Follows opens moment (Watch.lift (Step.fail problem token)) (fail problem token) post :=
  ⟨moment.state, moment.places, rfl, mirror, .refl moment⟩

/-- A step that changes the heap, followed by the same change of the state. -/
theorem follows_change {f : Heap → α × Heap} {g : State → α × State}
    (same : (g moment.state).1 = (f moment.machine.heap).1) {places : List Place}
    (mirror : Mirror ⟨{ moment.machine with heap := (f moment.machine.heap).2 }, moment.origins,
      (g moment.state).2, places⟩)
    (carries : Carries opens moment ⟨{ moment.machine with heap := (f moment.machine.heap).2 },
      moment.origins, (g moment.state).2, places⟩)
    (holds : post (f moment.machine.heap).1 ⟨{ moment.machine with
      heap := (f moment.machine.heap).2 }, moment.origins, (g moment.state).2, places⟩) :
    Follows opens moment (Watch.lift (Step.changeHeap f)) (changeState g) post := by
  refine ⟨(g moment.state).2, places, ?_, mirror, carries, holds⟩
  simp only [changeState, same]

end

section

variable {watch : Watch α} {step : Lexical α} {watched : α → Watch β} {steps : α → Lexical β}
  {middle : α → Moment → Prop} {post : β → Moment → Prop}

theorem follows_bind (widens : opened → opens) (first : Follows opened moment watch step middle)
    (second : ∀ result next, Mirror next → Carries opened moment next → middle result next →
      Follows opens next (watched result) (steps result) post) :
    Follows opens moment (watch >>= watched) (step >>= steps) post := by
  change Meets opens moment post (Lexical.bind step steps moment.state)
    (Watch.bind watch watched moment.machine moment.origins)
  simp only [Follows] at first
  simp only [Lexical.bind, Watch.bind]
  cases outcome : watch moment.machine moment.origins with
  | finished result machine origins =>
    rw [outcome] at first
    obtain ⟨state, places, ends, mirror, carries, holds⟩ := first
    rw [ends]
    exact .trans (carries.mono widens) (second result _ mirror carries holds)
  | failed error machine origins =>
    rw [outcome] at first
    obtain ⟨state, places, ends, mirror, carries⟩ := first
    rw [ends]
    exact ⟨state, places, rfl, mirror, carries.mono widens⟩
  | outOfFuel =>
    rw [outcome] at first
    rw [show step moment.state = .outOfFuel from first]
    rfl
  | astray => trivial

/-- Reading changes nothing in either run. -/
theorem follows_reads {γ : Type} {f : Heap → α} {g : State → γ} {steps : γ → Lexical β}
    (further : Follows opens moment (watched (f moment.machine.heap)) (steps (g moment.state))
      post) :
    Follows opens moment (Watch.lift (Step.readHeap f) >>= watched) (readState g >>= steps) post :=
  further

/-- What is read from the heap can be read from the state. -/
theorem follows_read {f : Heap → α} {g : State → α} (same : g moment.state = f moment.machine.heap)
    (further : Follows opens moment (watched (f moment.machine.heap))
      (steps (f moment.machine.heap)) post) :
    Follows opens moment (Watch.lift (Step.readHeap f) >>= watched) (readState g >>= steps)
      post :=
  follows_reads (same ▸ further)

/-! ## What only the watched step does -/

variable {step : Lexical β}

theorem follows_passes {guard : Watch α} {rest : α → Watch β} {result : α}
    (passes : guard moment.machine moment.origins =
      .finished result moment.machine moment.origins)
    (further : Follows opens moment (rest result) step post) :
    Follows opens moment (guard >>= rest) step post := by
  change Meets opens moment post (step moment.state)
    (Watch.bind guard rest moment.machine moment.origins)
  simp only [Watch.bind, passes]
  exact further

theorem follows_astray {guard : Watch α} {rest : α → Watch β}
    (strays : guard moment.machine moment.origins = .astray) :
    Follows opens moment (guard >>= rest) step post := by
  change Meets opens moment post (step moment.state)
    (Watch.bind guard rest moment.machine moment.origins)
  simp only [Watch.bind, strays]
  trivial

theorem follows_check {scopes : Scopes} {rest : Unit → Watch β}
    (further : Follows opens moment (rest ()) step post) :
    Follows opens moment (Watch.check scopes >>= rest) step post := by
  by_cases matched : moment.machine.heap.environment.Matches moment.machine.frame scopes
  · exact follows_passes (if_pos matched) further
  · exact follows_astray (if_neg matched)

theorem follows_inSubclass {rest : Unit → Watch β}
    (further : s.inClass = .withSuperclass → Follows opens moment (rest ()) step post) :
    Follows opens moment (Watch.inSubclass s >>= rest) step post := by
  by_cases subclass : s.inClass = .withSuperclass
  · exact follows_passes (if_pos subclass) (further subclass)
  · exact follows_astray (if_neg subclass)

/-- Where an occurrence is resolved to a scope, its name is bound there. -/
theorem follows_occurs {name : String} {rest : Unit → Watch β}
    (further : (∀ distance, s.binding name = .lexical distance →
      (moment.machine.heap.environment.getAt? moment.machine.frame distance name).isSome) →
        Follows opens moment (rest ()) step post) :
    Follows opens moment (Watch.occurs s name >>= rest) step post := by
  cases resolved : s.binding name with
  | global =>
    have passes : Watch.occurs s name moment.machine moment.origins =
        .finished () moment.machine moment.origins := by
      simp only [Watch.occurs, resolved]
    -- Such a name resolves to no scope at all.
    refine follows_passes passes (further fun distance other => ?_)
    cases resolved.symm.trans other
  | lexical distance =>
    by_cases bound : (moment.machine.heap.environment.getAt? moment.machine.frame distance
        name).isSome && (moment.machine.heap.environment.assignAt moment.machine.frame distance
          name .nil).1
    · have passes : Watch.occurs s name moment.machine moment.origins =
          .finished () moment.machine moment.origins := by
        simp only [Watch.occurs, resolved, if_pos bound]
      refine follows_passes passes (further fun other same => ?_)
      cases resolved.symm.trans same
      exact (Bool.and_eq_true_iff.mp bound).1
    · refine follows_astray ?_
      simp only [Watch.occurs, resolved, if_neg bound]

theorem follows_originOf {id : FunctionId} {rest : Origin → Watch β}
    (further : ∀ origin, moment.origins[id]? = some origin → origin.bare = false →
      Follows opens moment (rest origin) step post) :
    Follows opens moment (Watch.originOf id >>= rest) step post := by
  cases known : moment.origins[id]? with
  | none =>
    refine follows_astray ?_
    simp only [Watch.originOf, known]
  | some origin =>
    cases bare : origin.bare with
    | true =>
      refine follows_astray ?_
      simp only [Watch.originOf, known, bare, if_true]
    | false =>
      have passes : Watch.originOf id moment.machine moment.origins =
          .finished origin moment.machine moment.origins := by
        simp only [Watch.originOf, known, bare, Bool.false_eq_true, if_false]
      exact follows_passes passes (further origin known bare)

end

/-! ## Scopes -/

/-- Both runs in a new scope, inside a frame and what it stands for. -/
def Moment.enter (moment : Moment) (frame : FrameId) (visible : Visible) : Moment :=
  ⟨{ moment.machine with
      heap := (moment.machine.heap.addFrame frame).2
      frame := moment.machine.heap.environment.size }, moment.origins,
    moment.state.enter visible, moment.places⟩

theorem Mirror.enter (mirror : Mirror moment) (frame : FrameId) (visible : Visible) :
    Mirror (moment.enter frame visible) := by
  have grows : moment.machine.heap.environment.Grows (fun _ => False)
      (moment.machine.heap.environment.child frame) := .child _ _
  exact { mirror with
    stored := mirror.stored.child
    twins := mirror.twins.grows grows List.prefix_rfl }

theorem Standing.enter {frame : FrameId} {visible : Visible} (mirror : Mirror moment)
    (chain : Chain moment.machine.heap.environment moment.places frame visible)
    (covers : Covers visible s.scopes) (proper : s.Proper) :
    Standing (s.enter []) (moment.enter frame visible) := by
  refine ⟨chain.child mirror.stored.root, covers.enter, ?_, proper.enter⟩
  intro scope _ name bound
  change ((moment.machine.heap.environment.child frame).slot?
    moment.machine.heap.environment.size name).isSome at bound
  rw [Environment.slot?_child] at bound
  -- The frame is new, so nothing was bound in it.
  exact absurd (Environment.lt_size_of_slot? bound) (Nat.lt_irrefl _)

/-- In a new scope inside the innermost one. -/
theorem Standing.enterScope (standing : Standing s moment) (mirror : Mirror moment) :
    Standing (s.enter []) (moment.enter moment.machine.frame moment.state.visible) :=
  .enter mirror standing.chain standing.covers standing.proper

/-- Back from a scope: its frame is left, and what was visible before is visible again. -/
theorem Carries.leave {machine : Machine} {origins : List Origin} {state : State}
    {places : List Place}
    (carries : Carries True (moment.enter moment.machine.frame moment.state.visible)
      ⟨machine, origins, state, places⟩) :
    Carries False moment
      ⟨machine.leave, origins, { state with visible := moment.state.visible }, places⟩ :=
  ⟨Machine.frame_leave carries.grows carries.frame,
    Machine.grows_back (Environment.Grows.child _ _) (Nat.le_refl _) carries.grows, carries.places,
    fun _ => rfl⟩

/-- What is changed before a step is changed back in both runs. -/
theorem follows_around {watch : Watch α} {step : Lexical α} {inner : α → Moment → Prop}
    {before after : Machine → Machine} {entering leaving : State → State} {places : List Place}
    (body : Follows True
      ⟨before moment.machine, moment.origins, entering moment.state, places⟩ watch step inner)
    (back : ∀ machine origins state further, Mirror ⟨machine, origins, state, further⟩ →
      Carries True ⟨before moment.machine, moment.origins, entering moment.state, places⟩
        ⟨machine, origins, state, further⟩ →
      Mirror ⟨after machine, origins, leaving state, further⟩ ∧
        Carries False moment ⟨after machine, origins, leaving state, further⟩) :
    Follows False moment (watch.around before after) (step.around entering leaving)
      fun _ _ => True := by
  simp only [Follows, Watch.around, around] at body ⊢
  cases outcome : watch (before moment.machine) moment.origins with
  | finished result machine origins =>
    rw [outcome] at body
    obtain ⟨state, further, ends, mirror, carries, _⟩ := body
    rw [ends]
    obtain ⟨mirrors, carried⟩ := back machine origins state further mirror carries
    exact ⟨_, further, rfl, mirrors, carried, trivial⟩
  | failed error machine origins =>
    rw [outcome] at body
    obtain ⟨state, further, ends, mirror, carries⟩ := body
    rw [ends]
    obtain ⟨mirrors, carried⟩ := back machine origins state further mirror carries
    exact ⟨_, further, rfl, mirrors, carried⟩
  | outOfFuel =>
    rw [outcome] at body
    rw [show step (entering moment.state) = .outOfFuel from body]
    rfl
  | astray => trivial

theorem follows_inScope {watch : Watch α} {step : Lexical α} {inner : α → Moment → Prop}
    (body : Follows True (moment.enter moment.machine.frame moment.state.visible) watch step
      inner) :
    Follows False moment (Watch.inScope watch) (inScope step) fun _ _ => True :=
  follows_around body fun _ _ _ _ mirror carries => ⟨{ mirror with }, carries.leave⟩

end Lexical

end Lox
