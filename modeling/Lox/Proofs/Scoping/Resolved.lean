import Lox.Proofs.Scoping.Operations

/-!
# Agreement of declarations

Functions are made where they are declared, with the trees that their declarations resolve to. A
class declares itself before its superclass and its methods are resolved, and is bound in two
steps: to nil before its methods are made, and to itself after that.
-/

namespace Lox

theorem Except.eq_ok_of_toOption {ε α : Type} {outcome : Except ε α} {result : α}
    (given : outcome.toOption = some result) : outcome = .ok result := by
  cases outcome with
  | ok value =>
    cases given
    rfl
  | error problem => cases given

/-- What two resolvings in sequence gave. -/
theorem Except.bind_eq_ok {ε α β : Type} {first : Except ε α} {rest : α → Except ε β} {result : β}
    (made : first >>= rest = .ok result) : ∃ value, first = .ok value ∧ rest value = .ok result := by
  cases first with
  | error problem => cases made
  | ok value => exact ⟨value, rfl, made⟩

theorem Scopes.binding_declare_of_ne {scopes : Scopes} {name other : String} (differs : other ≠ name) :
    (scopes.declare name).binding other = scopes.binding other := by
  cases scopes with
  | nil => rfl
  | cons innermost outer =>
    simp only [Scopes.declare, Scopes.binding_cons, List.contains_cons, beq_iff_eq, differs,
      Bool.or_eq_true, false_or]

/-- Resolving leaves the parameters of a function alone. -/
theorem Lambda.parameters_of_resolve {s : Surroundings} {lambda : Lambda Unit}
    {resolved : Lambda Binding} (resolves : lambda.resolve s = .ok resolved) :
    resolved.parameters = lambda.parameters := by
  obtain ⟨parameters, body⟩ := lambda
  obtain ⟨body, _, made⟩ := Except.bind_eq_ok resolves
  cases made
  rfl

/-- A class that resolves does not inherit from itself, and its methods resolve in its body. -/
theorem Stmt.resolve_classDecl {s : Surroundings} {name : Name}
    {superclass : Option (Superclass Unit)} {methods : List (Method Unit)}
    {resolved : Stmt Binding}
    (resolves : (Stmt.classDecl name superclass methods).resolve s = .ok resolved) :
    (∀ parent ∈ superclass, parent.name.text ≠ name.text) ∧
      ∃ closed, Method.resolveEach ((s.declare name.text).classBody superclass) methods =
          .ok closed ∧
        resolved = .classDecl name (superclass.map fun parent =>
          ⟨parent.name, (s.declare name.text).binding parent.name.text⟩) closed := by
  cases superclass with
  | none =>
    obtain ⟨closed, resolvesMethods, made⟩ := Except.bind_eq_ok resolves
    cases made
    exact ⟨by simp, closed, resolvesMethods, rfl⟩
  | some parent =>
    obtain ⟨parent, ⟨⟩⟩ := parent
    simp only [Stmt.resolve] at resolves
    split at resolves
    · cases resolves
    · next differs =>
      obtain ⟨closed, resolvesMethods, made⟩ := Except.bind_eq_ok resolves
      cases made
      refine ⟨fun other same => ?_, closed, resolvesMethods, rfl⟩
      cases same
      exact differs

namespace Watch

variable {opens : Prop} {s : Surroundings} {machine : Machine} {origins : List Origin}

theorem Stands.declare {name : String} (stands : Stands s machine origins)
    (bound : (machine.heap.environment.slot? machine.frame name).isSome) :
    Stands (s.declare name) machine origins :=
  ⟨stands.sound, stands.matched.declare bound⟩

/-- A function is closed where its declaration is resolved. -/
theorem agrees_close {name : Option String} {lambda : Lambda Unit} {resolved : Lambda Binding}
    {isInitializer bare : Bool} (sound : machine.heap.Sound origins)
    (resolves : lambda.resolve s = .ok resolved) (shaped : lambda.WellShaped)
    (placed : Origin.Places ⟨s, lambda, bare⟩ machine.heap.environment machine.frame) :
    Agrees opens machine origins (close s name lambda isInitializer bare)
      (Step.close name resolved isInitializer)
      fun id _ later => later[id]? = some ⟨s, lambda, bare⟩ := by
  refine ⟨origins ++ [⟨s, lambda, bare⟩], ?_, ⟨sound.addFunction ⟨resolves, shaped, placed⟩, rfl,
    .refl _, List.prefix_append _ _⟩, ?_⟩
  · simp only [close, resolves]
    rfl
  · change (origins ++ _)[machine.heap.functions.size]? = _
    rw [← sound.count, List.getElem?_append_right (Nat.le_refl _), Nat.sub_self]
    rfl

/-- Every method is made bare, inside the scope that is going to bind its instance. -/
theorem agrees_closeMethods {methods : List (Method Unit)} {resolved : List (Method Binding)}
    {table : Table FunctionId} (stands : Stands s machine origins)
    (resolves : Method.resolveEach s methods = .ok resolved)
    (shaped : Method.WellShapedEach methods)
    (bare : ∀ name method, table.get? name = some method → IsBare origins method) :
    Agrees opens machine origins (closeMethods (s.enter [thisName]) table methods)
      (Step.closeMethods table resolved) fun table _ later =>
        ∀ name method, table.get? name = some method → IsBare later method := by
  induction methods generalizing machine origins table resolved with
  | nil =>
    cases resolves
    exact agrees_pure stands.sound bare
  | cons method rest ih =>
    obtain ⟨name, lambda⟩ := method
    obtain ⟨first, resolvesFirst, further⟩ := Except.bind_eq_ok resolves
    obtain ⟨others, resolvesRest, made⟩ := Except.bind_eq_ok further
    obtain ⟨resolvedLambda, resolvesLambda, madeFirst⟩ := Except.bind_eq_ok resolvesFirst
    cases made
    cases madeFirst
    -- The method resolves in a scope for its instance that no frame stands for yet.
    have placed : Origin.Places ⟨s.enter [thisName], lambda, true⟩ machine.heap.environment
        machine.frame := ⟨s.scopes, rfl, stands.matched⟩
    refine agrees_bind (agrees_close stands.sound resolvesLambda shaped.1 placed) ?_
    intro id after later steady known
    refine ih (stands.steady steady) resolvesRest shaped.2 fun other method held => ?_
    rw [Table.get?_set] at held
    split at held
    · cases held
      exact ⟨_, known, rfl⟩
    · exact (bare other method held).mono steady.origins

theorem agrees_closeMethodsOf {parent : Option ClassId} {methods : List (Method Unit)}
    {resolved : List (Method Binding)} (stands : Stands s machine origins)
    (resolves : Method.resolveEach (s.classBody parent) methods = .ok resolved)
    (shaped : Method.WellShapedEach methods) :
    Agrees False machine origins (closeMethodsOf s parent methods)
      (Step.closeMethodsOf parent resolved) fun table _ later =>
        ∀ name method, table.get? name = some method → IsBare later method := by
  cases parent with
  | none => exact agrees_closeMethods ⟨stands.sound, stands.matched⟩ resolves shaped nofun
  | some id =>
    have entered : Stands ((s.enterClass .withSuperclass).enter []) machine.enter origins :=
      ⟨stands.enter.sound, stands.enter.matched⟩
    refine agrees_inScope (agrees_bind (agrees_define entered trivial trivial) ?_)
      fun _ _ _ _ bare => bare
    intro _ after later steady bound
    exact agrees_closeMethods ((entered.steady steady).declare bound) resolves shaped nofun

theorem agrees_addClass {classObject : ClassObject} (sound : machine.heap.Sound origins)
    (bare : ∀ name method, classObject.methods.get? name = some method → IsBare origins method) :
    Agrees opens machine origins (lift (Step.changeHeap (·.addClass classObject)))
      (Step.changeHeap (·.addClass classObject)) fun _ _ _ => True :=
  agrees_changeHeap (sound.addClass bare) (.refl _) trivial

/-- The superclass is looked up in a frame that does not bind the class yet; that is not the name
looked up. -/
theorem agrees_superclassOf {name : Name} {superclass : Option (Superclass Unit)}
    (stands : Stands s machine origins)
    (differs : ∀ parent ∈ superclass, parent.name.text ≠ name.text) :
    Agrees opens machine origins (superclassOf (s.declare name.text) name superclass)
      (Step.superclassOf (superclass.map fun parent =>
        ⟨parent.name, (s.declare name.text).binding parent.name.text⟩))
      fun parent _ _ => parent.isSome = superclass.isSome := by
  cases superclass with
  | none => exact agrees_pure stands.sound rfl
  | some parent =>
    have differs := differs parent rfl
    refine agrees_check ?_ (agrees_occurs (fun distance resolved => ?_) ?_)
    · exact stands.matched.declare_without name.text
    · refine stands.bound parent.name.text distance ?_
      -- Having declared the class changes nothing about another name.
      rw [← resolved]
      exact (Scopes.binding_declare_of_ne differs).symm
    · refine agrees_lift_bind (agrees_bind (agrees_lookUp stands.sound) ?_)
      intro value after later steady _
      cases value with
      | classObject id => exact agrees_pure steady.sound rfl
      | _ => exact agrees_fail steady.sound

theorem agrees_declareClass {name : Name} {superclass : Option (Superclass Unit)}
    {methods : List (Method Unit)} {resolved : List (Method Binding)}
    (stands : Stands s machine origins)
    (differs : ∀ parent ∈ superclass, parent.name.text ≠ name.text)
    (resolves : Method.resolveEach ((s.declare name.text).classBody superclass) methods =
      .ok resolved)
    (shaped : Method.WellShapedEach methods) :
    Agrees True machine origins (declareClass s name superclass methods)
      (Step.declareClass name (superclass.map fun parent =>
        ⟨parent.name, (s.declare name.text).binding parent.name.text⟩) resolved)
      fun _ after later => Stands (s.declare name.text) after later := by
  refine agrees_bind (agrees_superclassOf stands differs) ?_
  intro parent afterParent laterParent steadyParent present
  have atParent := stands.steady steadyParent
  refine agrees_bind (agrees_define atParent trivial trivial) ?_
  intro _ afterNil laterNil steadyNil bound
  have declared := (atParent.steady steadyNil).declare bound
  -- The superclass that was found is one if and only if one was written down.
  have sameBody : (s.declare name.text).classBody parent =
      (s.declare name.text).classBody superclass := by
    cases parent <;> cases superclass <;> first | rfl | cases present
  have resolvesParent : Method.resolveEach ((s.declare name.text).classBody parent) methods =
      .ok resolved := sameBody ▸ resolves
  have closed := agrees_closeMethodsOf declared resolvesParent shaped
  refine agrees_bind closed.opened ?_
  intro table afterTable laterTable steadyTable bare
  have atTable := declared.steady steadyTable
  refine agrees_bind (agrees_addClass atTable.sound bare) ?_
  intro id afterClass laterClass steadyClass _
  have atClass := atTable.steady steadyClass
  refine Agrees.weaken (agrees_define atClass trivial trivial) (fun opened => opened) ?_
  intro _ after later steady _
  exact atClass.steady steady

theorem agrees_declareFunction {name : Name} {lambda : Lambda Unit} {resolved : Lambda Binding}
    (stands : Stands s machine origins)
    (resolves : lambda.resolve (s.declare name.text) = .ok resolved)
    (shaped : lambda.WellShaped) :
    Agrees True machine origins (declareFunction s name lambda)
      (Step.declareFunction name resolved)
      fun _ after later => Stands (s.declare name.text) after later := by
  refine agrees_bind (agrees_define stands trivial trivial) ?_
  intro _ afterNil laterNil steadyNil bound
  have declared := (stands.steady steadyNil).declare bound
  refine agrees_bind (agrees_close declared.sound resolves shaped declared.matched) ?_
  intro id afterClose laterClose steadyClose known
  have atClose := declared.steady steadyClose
  refine Agrees.weaken (agrees_define atClose trivial ⟨_, known, rfl⟩) (fun opened => opened) ?_
  intro _ after later steady _
  exact atClose.steady steady

end Watch

end Lox
