import Lox.Proofs.Plans.Evaluation
import Lox.Proofs.Reach.Regions

/-!
# Steps and plans that stay in a region

A step stays in a region if it leaves every heap within the bounds of the region in which it finds
it, whatever becomes of it, and if its result is from the region. Most steps are taken in a scope
and reach everything from there, so that scope has to be in the region; but a call can be made from
anywhere, since a function does not see where it is called.
-/

namespace Lox

variable {start : Heap} {region : Region start}

/-! ## Steps -/

namespace Step

variable {α β : Type}

/-- Whether the step stays in the region. If it is `framed`, the innermost scope has to be in the
region. -/
def Stays (region : Region start) (framed : Prop) (step : Step α) (post : α → Prop) : Prop :=
  ∀ machine, region.Bounds machine.heap → (framed → region.Holds (.frame machine.frame)) →
    (step machine).Ends (fun after => region.Bounds after.heap) post fun _ => True

namespace Stays

variable {framed : Prop} {post : α → Prop}

theorem pure {result : α} (holds : post result) : Stays region framed (Pure.pure result) post :=
  fun _ bounds _ => ⟨bounds, holds⟩

theorem fail (problem : RuntimeProblem) (token : Token) :
    Stays region framed (Step.fail problem token) post :=
  fun _ bounds _ => ⟨bounds, trivial⟩

/-- What follows the first part of a primitive step does not look at the scope any more. -/
theorem bind {first : Step α} {rest : α → Step β} {last : β → Prop}
    (stays : first.Stays region framed post)
    (further : ∀ result, post result → (rest result).Stays region False last) :
    (first >>= rest).Stays region framed last :=
  fun machine bounds inside => ends_bind (stays machine bounds inside)
    fun result middle boundsMiddle holds => further result holds middle boundsMiddle False.elim

/-! ### The heap -/

theorem readHeap (post : α → Prop) {f : Heap → α} (reads : ∀ heap : Heap, region.Bounds heap → post (f heap)) :
    Stays region framed (Step.readHeap f) post :=
  fun _ bounds _ => ⟨bounds, reads _ bounds⟩

theorem changeHeap (post : α → Prop) {f : Heap → α × Heap} (changes : ∀ heap : Heap, region.Bounds heap →
    region.Bounds (f heap).2 ∧ post (f heap).1) : Stays region framed (Step.changeHeap f) post :=
  fun machine bounds _ => changes machine.heap bounds

theorem innermost : Stays region True Step.innermost fun frame => region.Holds (.frame frame) :=
  fun _ bounds inside => ⟨bounds, inside trivial⟩

theorem define (name : String) {value : Value} (has : region.Has value) :
    Stays region True (Step.define name value) fun _ => True :=
  fun _ bounds inside => ⟨bounds.define name (inside trivial) has, trivial⟩

theorem addClass {classObject : ClassObject}
    (superclass : ∀ id ∈ classObject.superclass, region.Holds (.classObject id))
    (methods : ∀ name method, classObject.methods.get? name = some method →
      region.Holds (.function method)) :
    Stays region framed (Step.changeHeap (·.addClass classObject)) fun id =>
      region.Holds (.classObject id) :=
  changeHeap _ fun _ bounds =>
    ⟨bounds.addClass superclass methods, bounds.new (Nat.le_refl _)⟩

theorem addInstance {classId : ClassId} (inside : region.Holds (.classObject classId)) :
    Stays region framed (Step.changeHeap (·.addInstance classId)) fun id =>
      region.Holds (.object id) :=
  changeHeap _ fun _ bounds => ⟨bounds.addInstance inside, bounds.new (Nat.le_refl _)⟩

theorem bindMethod {method : FunctionId} {receiver : InstanceId}
    (inside : region.Holds (.function method)) (bound : region.Holds (.object receiver)) :
    Stays region framed (Step.changeHeap (·.bindMethod method receiver)) fun id =>
      region.Holds (.function id) :=
  changeHeap _ fun _ bounds => bounds.bindMethod inside bound

/-! ### Names -/

theorem lookUp (name : String) (binding : Binding) (token : Token) :
    Stays region True (Step.lookUp name binding token) region.Has := by
  intro machine bounds inside
  unfold Step.lookUp
  cases found : machine.heap.lookUp? machine.frame name binding with
  | some value => exact ⟨bounds, bounds.lookUp? (inside trivial) found⟩
  | none => exact ⟨bounds, trivial⟩

theorem assign (name : Name) (binding : Binding) {value : Value} (has : region.Has value) :
    Stays region True (Step.assign name binding value) fun _ => True := by
  refine bind innermost fun frame inside => ?_
  refine bind (changeHeap (fun _ => True) fun heap bounds =>
    ⟨bounds.assign inside has binding, trivial⟩) fun bound _ => ?_
  split
  · exact pure trivial
  · exact fail _ _

theorem assignOrDefine (name : Name) (binding : Binding) {value : Value} (has : region.Has value) :
    Stays region True (Step.assignOrDefine name binding value) fun _ => True := by
  cases binding with
  | global => exact fun _ bounds _ => ⟨bounds.define name.text region.globals has, trivial⟩
  | lexical distance => exact assign name _ has

theorem superclassOf (superclass : Option (Superclass Binding)) :
    Stays region True (Step.superclassOf superclass) fun found =>
      ∀ id ∈ found, region.Holds (.classObject id) := by
  cases superclass with
  | none => exact pure nofun
  | some parent =>
    refine bind (lookUp _ _ _) fun value has => ?_
    split
    · next id =>
      refine pure fun other same => ?_
      cases same
      exact has _ rfl
    · exact fail _ _

/-! ### Properties -/

theorem getProperty {id : InstanceId} (inside : region.Holds (.object id)) (name : Name) :
    Stays region framed (Step.getProperty id name) region.Has := by
  intro machine bounds _
  unfold Step.getProperty
  cases held : machine.heap.field? id name.text with
  | some value => exact ⟨bounds, bounds.field? inside held⟩
  | none =>
    dsimp only
    cases found : (machine.heap.instances[id]?).bind fun i =>
        machine.heap.findMethod? name.text i.classId with
    | some method =>
      obtain ⟨i, there, isMethod⟩ := Option.bind_eq_some_iff.mp found
      have ofClass := bounds.closed _ _ (.ofClass there) inside
      have bound := bounds.bindMethod (bounds.findMethod? ofClass isMethod) inside
      refine ⟨bound.1, ?_⟩
      rintro node ⟨⟩
      exact bound.2
    | none => exact ⟨bounds, trivial⟩

theorem setProperty {object : Value} (inside : region.Has object) (name : Name) {value : Value}
    (has : region.Has value) :
    Stays region framed (Step.setProperty object name value) fun _ => True := by
  cases object with
  | object id => exact fun _ bounds _ => ⟨bounds.setField (inside _ rfl) has, trivial⟩
  | _ => exact fail _ _

theorem superParts (line : Nat) (binding : Binding) :
    Stays region True (Step.superParts line binding) fun parts =>
      region.Holds (.classObject parts.1) ∧ region.Holds (.object parts.2) := by
  intro machine bounds inside
  unfold Step.superParts
  cases binding with
  | global => exact ⟨bounds, trivial⟩
  | lexical distance =>
    dsimp only
    split
    · next superclass found =>
      cases distance with
      | zero => exact ⟨bounds, trivial⟩
      | succ inner =>
        dsimp only
        split
        · next id foundThis =>
          exact ⟨bounds, bounds.lookUp? (inside trivial) found _ rfl,
            bounds.lookUp? (inside trivial) foundThis _ rfl⟩
        · exact ⟨bounds, trivial⟩
    · exact ⟨bounds, trivial⟩

theorem superProperty (line : Nat) (binding : Binding) (method : Name) :
    Stays region True (Step.superProperty line binding method) region.Has := by
  refine bind (superParts line binding) fun (superclass, receiver) ⟨inside, bound⟩ => ?_
  refine bind (readHeap (fun found => ∀ id ∈ found, region.Holds (.function id))
    fun heap bounds id found => bounds.findMethod? inside found) fun found held => ?_
  split
  · next id =>
    refine bind (bindMethod (held id rfl) bound) fun function made => pure ?_
    rintro node ⟨⟩
    exact made
  · exact bind (readHeap (fun _ => True) fun _ _ => trivial) fun _ _ => fail _ _

/-! ### Calls -/

theorem checkArity (expected given : Nat) (paren : Token) :
    Stays region framed (Step.checkArity expected given paren) fun _ => True := by
  unfold Step.checkArity
  split
  · exact pure trivial
  · exact fail _ _

theorem write (text : String) (paren : Token) :
    Stays region framed (Step.write text paren) fun _ => True := by
  intro machine bounds _
  unfold Step.write
  split
  · exact ⟨bounds, trivial⟩
  · exact ⟨bounds, trivial⟩

theorem callNative (id : NativeId) {arguments : List Value} (paren : Token)
    (has : ∀ argument ∈ arguments, region.Has argument) :
    Stays region framed (Step.callNative id arguments paren) region.Has := by
  refine bind (readHeap (fun found => ∀ native ∈ found, ∀ shown value,
    native.routine shown arguments = .value value → region.Has value) ?_) fun found keeps => ?_
  · intro heap bounds native found shown value replied
    rw [bounds.retains.natives] at found
    exact region.natives id native found shown arguments value replied has
  · split
    · exact fail _ _
    · next native =>
      refine bind (checkArity _ _ _) fun _ _ => ?_
      refine bind (readHeap (fun reply => ∀ value, reply = .value value → region.Has value)
        fun heap _ value replied => keeps native rfl _ value replied) fun reply given => ?_
      split
      · exact pure (given _ rfl)
      · exact fail _ _
      · exact bind (write _ _) fun _ _ => pure nofun
      · have clock : Stays region False Step.readClock fun _ => True :=
          fun _ bounds _ => ⟨bounds, trivial⟩
        exact bind clock fun _ _ => pure nofun

end Stays

end Step

/-! ## Plans -/

namespace Plan

variable {α β : Type}

/-- Whether a run of the plan stays in the region, and a result of it meets the postcondition. -/
def Stays (region : Region start) : {α : Type} → Prop → Plan α → (α → Prop) → Prop
  | _, _, .pure result, post => post result
  | _, _, .outOfFuel, _ => True
  | _, _, .fail _ _, _ => True
  | _, framed, .basic step _, post => step.Stays region framed post
  | _, _, .function? id, post => region.Holds (.function id) ∧
      ∀ found, (∀ closure ∈ found, region.Holds (.frame closure.frame)) → post found
  | _, framed, .close _ _ _, post => framed ∧ ∀ id, region.Holds (.function id) → post id
  | _, framed, .bind first rest, post =>
      first.Stays region framed fun result => (rest result).Stays region framed post
  | _, framed, .inScope inner, post => framed ∧ inner.Stays region True post
  | _, _, .inCall closure arguments _ body, post => region.Holds (.frame closure.frame) ∧
      (∀ argument ∈ arguments, region.Has argument) ∧ body.Stays region True post

namespace Stays

variable {framed : Prop}

theorem mono {plan : Plan α} {post weaker : α → Prop} (stays : plan.Stays region framed post)
    (weakens : ∀ result, post result → weaker result) : plan.Stays region framed weaker := by
  induction plan generalizing framed with
  | pure result => exact weakens result stays
  | outOfFuel => trivial
  | fail problem token => trivial
  | basic step tame =>
    exact fun machine bounds inside =>
      (stays machine bounds inside).weaken weakens fun _ _ => trivial
  | function? id => exact ⟨stays.1, fun found frames => weakens found (stays.2 found frames)⟩
  | close name lambda isInitializer =>
    exact ⟨stays.1, fun id inside => weakens id (stays.2 id inside)⟩
  | bind first rest ihFirst ihRest =>
    exact ihFirst stays fun result staysRest => ihRest result staysRest weakens
  | inScope inner ih => exact ⟨stays.1, ih stays.2 weakens⟩
  | inCall closure arguments paren body ih =>
    exact ⟨stays.1, stays.2.1, ih stays.2.2 weakens⟩

theorem bind {first : Plan α} {rest : α → Plan β} {middle : α → Prop} {post : β → Prop}
    (stays : first.Stays region framed middle)
    (further : ∀ result, middle result → (rest result).Stays region framed post) :
    (first >>= rest).Stays region framed post := by
  change first.Stays region framed fun result => (rest result).Stays region framed post
  exact stays.mono further

end Stays

/-! ### Runs of plans -/

variable {framed : Prop} {machine moment : Machine} {calls : Nat}

/-- The machine in the body of a function: the scope of the call is new. -/
theorem bounds_enterCall {closure : Closure} (arguments : List Value)
    (bounds : region.Bounds machine.heap) (inside : region.Holds (.frame closure.frame))
    (has : ∀ argument ∈ arguments, region.Has argument) :
    region.Bounds (machine.enterCall closure arguments).heap ∧
      region.Holds (.frame (machine.enterCall closure arguments).frame) := by
  have fresh : region.Holds (.frame machine.heap.environment.size) := bounds.new (Nat.le_refl _)
  exact ⟨(bounds.addFrame inside).bindParameters fresh has, fresh⟩

theorem ends_run {plan : Plan α} {post : α → Prop} (stays : plan.Stays region framed post)
    (bounds : region.Bounds machine.heap) (inside : framed → region.Holds (.frame machine.frame)) :
    (plan.run machine).Ends (fun after => region.Bounds after.heap) post fun _ => True := by
  induction plan generalizing machine framed with
  | pure result => exact ⟨bounds, stays⟩
  | outOfFuel => trivial
  | fail problem token => exact ⟨bounds, trivial⟩
  | basic step tame => exact stays machine bounds inside
  | function? id =>
    refine ⟨bounds, stays.2 _ fun closure found => ?_⟩
    exact bounds.closed _ _ (.closure found) stays.1
  | close name lambda isInitializer =>
    exact ⟨bounds.addFunction (inside stays.1), stays.2 _ (bounds.new (Nat.le_refl _))⟩
  | bind first rest ihFirst ihRest =>
    have keeps := run_keeps first machine
    have ends := ihFirst stays bounds inside
    change (Step.bind first.run (fun result => (rest result).run) machine).Ends _ _ _
    unfold Step.bind
    cases outcome : first.run machine with
    | finished result middle =>
      rw [outcome] at keeps ends
      -- The first part left the scope that the rest goes on in.
      exact ihRest result ends.2 ends.1 (keeps.1.frame ▸ inside)
    | failed error middle =>
      rw [outcome] at ends
      exact ends
    | outOfFuel => trivial
  | inScope inner ih =>
    have entered : region.Bounds machine.enter.heap := bounds.addFrame (inside stays.1)
    have fresh : region.Holds (.frame machine.enter.frame) := bounds.new (Nat.le_refl _)
    exact Step.ends_inScope (ih stays.2 entered fun _ => fresh) fun _ left => left
  | inCall closure arguments paren body ih =>
    have entered := bounds_enterCall arguments bounds stays.1 stays.2.1
    exact ends_inCall ⟨bounds, trivial⟩ (ih stays.2.2 entered.1 fun _ => entered.2)
      fun _ left => left

/-- At every moment of a run the heap is within bounds. -/
theorem Visits.bounds {plan : Plan α} {part : Plan β} {post : α → Prop}
    (visits : plan.Visits machine part moment calls) (stays : plan.Stays region framed post)
    (bounds : region.Bounds machine.heap) (inside : framed → region.Holds (.frame machine.frame)) :
    region.Bounds moment.heap := by
  induction visits generalizing framed with
  | here => exact bounds
  | first _ ih => exact ih stays bounds inside
  | @rest _ _ _ first rest _ _ machine _ _ _ ran _ ih =>
    have keeps := run_keeps first machine
    have staysFirst : first.Stays region framed fun result =>
      (rest result).Stays region framed post := stays
    have ends := ends_run staysFirst bounds inside
    rw [ran] at keeps ends
    exact ih ends.2 ends.1 (keeps.1.frame ▸ inside)
  | scope _ ih =>
    exact ih stays.2 (bounds.addFrame (inside stays.1)) fun _ => bounds.new (Nat.le_refl _)
  | body _ _ ih =>
    have entered := bounds_enterCall _ bounds stays.1 stays.2.1
    exact ih stays.2.2 entered.1 fun _ => entered.2

end Plan

end Lox
