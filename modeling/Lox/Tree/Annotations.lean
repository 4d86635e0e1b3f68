import Lox.Tree.Map

/-!
# What is known of occurrences

The annotations of a tree, one for each occurrence of a name, in the order in which resolving comes to
them: the arguments of a call before its callee, an assigned value before the names it is stored in.
-/

namespace Lox

variable {β γ : Type}

/-! ## Annotations -/

mutual

def Expr.annotations : Expr β → List β
  | .literal _ => []
  | .group inner => inner.annotations
  | .unary _ _ operand => operand.annotations
  | .binary _ _ left right => left.annotations ++ right.annotations
  | .logical _ _ left right => left.annotations ++ right.annotations
  | .comma operands => Expr.annotationsEach operands
  | .conditional _ condition thenBranch elseBranch =>
    condition.annotations ++ (thenBranch.annotations ++ elseBranch.annotations)
  | .reference _ mark => [mark]
  | .assign _ mark value => value.annotations ++ [mark]
  | .property object _ => object.annotations
  | .call callee _ arguments => Expr.annotationsEach arguments ++ callee.annotations
  | .function lambda => lambda.annotations
  | .thisInstance _ mark => [mark]
  | .superMethod _ mark _ => [mark]

def Expr.annotationsEach : List (Expr β) → List β
  | [] => []
  | expr :: rest => expr.annotations ++ Expr.annotationsEach rest

def Expr.annotationsPart : Option (Expr β) → List β
  | none => []
  | some expr => expr.annotations

def Target.annotations : Target β → List β
  | .name _ mark => [mark]
  | .property object _ => object.annotations

def Target.annotationsEach : List (Target β) → List β
  | [] => []
  | target :: rest => target.annotations ++ Target.annotationsEach rest

def Stmt.annotations : Stmt β → List β
  | .expression value => value.annotations
  | .varDecl _ initializer => Expr.annotationsPart initializer
  | .assign targets value => value.annotations ++ Target.annotationsEach targets
  | .set object _ value => object.annotations ++ value.annotations
  | .block body => Stmt.annotationsEach body
  | .branch condition thenBranch elseBranch =>
    condition.annotations ++ (thenBranch.annotations ++ Stmt.annotationsPart elseBranch)
  | .whileLoop condition body => condition.annotations ++ body.annotations
  | .forLoop initializer condition increment body =>
    Stmt.annotationsPart initializer ++ (Expr.annotationsPart condition ++
      (Expr.annotationsPart increment ++ body.annotations))
  | .breakLoop _ => []
  | .continueLoop _ => []
  | .funDecl _ lambda => lambda.annotations
  | .returnValue _ value => Expr.annotationsPart value
  | .classDecl _ none methods => Method.annotationsEach methods
  | .classDecl _ (some ⟨_, mark⟩) methods => mark :: Method.annotationsEach methods

def Stmt.annotationsEach : List (Stmt β) → List β
  | [] => []
  | stmt :: rest => stmt.annotations ++ Stmt.annotationsEach rest

def Stmt.annotationsPart : Option (Stmt β) → List β
  | none => []
  | some stmt => stmt.annotations

def Lambda.annotations : Lambda β → List β
  | ⟨_, body⟩ => Stmt.annotationsEach body

def Method.annotations : Method β → List β
  | ⟨_, lambda⟩ => lambda.annotations

def Method.annotationsEach : List (Method β) → List β
  | [] => []
  | method :: rest => method.annotations ++ Method.annotationsEach rest

end

/-! ## Maps that agree

Two maps that agree on the annotations of a tree make the same tree of it. -/

section

variable {f g : β → γ}

theorem agree_left {first second : List β} (same : ∀ a ∈ first ++ second, f a = g a) :
    ∀ a ∈ first, f a = g a :=
  fun a member => same a (List.mem_append_left _ member)

theorem agree_right {first second : List β} (same : ∀ a ∈ first ++ second, f a = g a) :
    ∀ a ∈ second, f a = g a :=
  fun a member => same a (List.mem_append_right _ member)

mutual

theorem Expr.map_congr : (expr : Expr β) → (∀ a ∈ expr.annotations, f a = g a) →
    expr.map f = expr.map g
  | .literal _, _ => rfl
  | .group inner, same => congrArg Expr.group (inner.map_congr same)
  | .unary _ _ operand, same => congrArg (Expr.unary _ _) (operand.map_congr same)
  | .binary operator line left right, same => by
    rw [Expr.map, left.map_congr (agree_left same), right.map_congr (agree_right same)]
    rfl
  | .logical operator line left right, same => by
    rw [Expr.map, left.map_congr (agree_left same), right.map_congr (agree_right same)]
    rfl
  | .comma operands, same => congrArg Expr.comma (Expr.mapEach_congr operands same)
  | .conditional _ condition thenBranch elseBranch, same => by
    rw [Expr.map, condition.map_congr (agree_left same),
      thenBranch.map_congr (agree_left (agree_right same)),
      elseBranch.map_congr (agree_right (agree_right same))]
    rfl
  | .reference name mark, same =>
    congrArg (Expr.reference name) (same mark (.head _))
  | .assign name mark value, same => by
    rw [Expr.map, value.map_congr (agree_left same), agree_right same mark (.head _)]
    rfl
  | .property object name, same => congrArg (Expr.property · name) (object.map_congr same)
  | .call callee line arguments, same => by
    rw [Expr.map, Expr.mapEach_congr arguments (agree_left same),
      callee.map_congr (agree_right same)]
    rfl
  | .function lambda, same => congrArg Expr.function (lambda.map_congr same)
  | .thisInstance line mark, same =>
    congrArg (Expr.thisInstance line) (same mark (.head _))
  | .superMethod line mark method, same =>
    congrArg (Expr.superMethod line · method) (same mark (.head _))

theorem Expr.mapEach_congr : (exprs : List (Expr β)) →
    (∀ a ∈ Expr.annotationsEach exprs, f a = g a) → Expr.mapEach f exprs = Expr.mapEach g exprs
  | [], _ => rfl
  | expr :: rest, same => by
    rw [Expr.mapEach, expr.map_congr (agree_left same), Expr.mapEach_congr rest (agree_right same)]
    rfl

theorem Expr.mapPart_congr : (part : Option (Expr β)) →
    (∀ a ∈ Expr.annotationsPart part, f a = g a) → Expr.mapPart f part = Expr.mapPart g part
  | none, _ => rfl
  | some expr, same => congrArg some (expr.map_congr same)

theorem Target.map_congr : (target : Target β) → (∀ a ∈ target.annotations, f a = g a) →
    target.map f = target.map g
  | .name name mark, same => congrArg (Target.name name) (same mark (.head _))
  | .property object name, same => congrArg (Target.property · name) (object.map_congr same)

theorem Target.mapEach_congr : (targets : List (Target β)) →
    (∀ a ∈ Target.annotationsEach targets, f a = g a) →
      Target.mapEach f targets = Target.mapEach g targets
  | [], _ => rfl
  | target :: rest, same => by
    rw [Target.mapEach, target.map_congr (agree_left same), Target.mapEach_congr rest (agree_right same)]
    rfl

theorem Stmt.map_congr : (stmt : Stmt β) → (∀ a ∈ stmt.annotations, f a = g a) →
    stmt.map f = stmt.map g
  | .expression value, same => congrArg Stmt.expression (value.map_congr same)
  | .varDecl name initializer, same =>
    congrArg (Stmt.varDecl name) (Expr.mapPart_congr initializer same)
  | .assign targets value, same => by
    rw [Stmt.map, value.map_congr (agree_left same), Target.mapEach_congr targets (agree_right same)]
    rfl
  | .set object name value, same => by
    rw [Stmt.map, object.map_congr (agree_left same), value.map_congr (agree_right same)]
    rfl
  | .block body, same => congrArg Stmt.block (Stmt.mapEach_congr body same)
  | .branch condition thenBranch elseBranch, same => by
    rw [Stmt.map, condition.map_congr (agree_left same),
      thenBranch.map_congr (agree_left (agree_right same)),
      Stmt.mapPart_congr elseBranch (agree_right (agree_right same))]
    rfl
  | .whileLoop condition body, same => by
    rw [Stmt.map, condition.map_congr (agree_left same), body.map_congr (agree_right same)]
    rfl
  | .forLoop initializer condition increment body, same => by
    have sameInside := agree_right same
    have sameLast := agree_right sameInside
    rw [Stmt.map, Stmt.mapPart_congr initializer (agree_left same),
      Expr.mapPart_congr condition (agree_left sameInside),
      Expr.mapPart_congr increment (agree_left sameLast), body.map_congr (agree_right sameLast)]
    rfl
  | .breakLoop _, _ => rfl
  | .continueLoop _, _ => rfl
  | .funDecl name lambda, same => congrArg (Stmt.funDecl name) (lambda.map_congr same)
  | .returnValue line value, same =>
    congrArg (Stmt.returnValue line) (Expr.mapPart_congr value same)
  | .classDecl name none methods, same =>
    congrArg (Stmt.classDecl name none) (Method.mapEach_congr methods same)
  | .classDecl name (some ⟨parent, mark⟩) methods, same => by
    have sameMethods := Method.mapEach_congr methods fun a member => same a (.tail _ member)
    have sameParent := same mark (.head _)
    simp only [Stmt.map, Option.map, Superclass.map, sameParent, sameMethods]

theorem Stmt.mapEach_congr : (stmts : List (Stmt β)) →
    (∀ a ∈ Stmt.annotationsEach stmts, f a = g a) → Stmt.mapEach f stmts = Stmt.mapEach g stmts
  | [], _ => rfl
  | stmt :: rest, same => by
    rw [Stmt.mapEach, stmt.map_congr (agree_left same), Stmt.mapEach_congr rest (agree_right same)]
    rfl

theorem Stmt.mapPart_congr : (part : Option (Stmt β)) →
    (∀ a ∈ Stmt.annotationsPart part, f a = g a) → Stmt.mapPart f part = Stmt.mapPart g part
  | none, _ => rfl
  | some stmt, same => congrArg some (stmt.map_congr same)

theorem Lambda.map_congr : (lambda : Lambda β) → (∀ a ∈ lambda.annotations, f a = g a) →
    lambda.map f = lambda.map g
  | ⟨parameters, body⟩, same => congrArg (Lambda.mk parameters) (Stmt.mapEach_congr body same)

theorem Method.map_congr : (method : Method β) → (∀ a ∈ method.annotations, f a = g a) →
    method.map f = method.map g
  | ⟨name, lambda⟩, same => congrArg (Method.mk name) (lambda.map_congr same)

theorem Method.mapEach_congr : (methods : List (Method β)) →
    (∀ a ∈ Method.annotationsEach methods, f a = g a) →
      Method.mapEach f methods = Method.mapEach g methods
  | [], _ => rfl
  | method :: rest, same => by
    rw [Method.mapEach, method.map_congr (agree_left same), Method.mapEach_congr rest (agree_right same)]
    rfl

end

/-! The other way round, maps that make the same tree agree on its annotations. -/

mutual

theorem Expr.agree_of_map : (expr : Expr β) → expr.map f = expr.map g →
    ∀ a ∈ expr.annotations, f a = g a
  | .literal _, _ => List.forall_mem_nil _
  | .group inner, same => inner.agree_of_map (Expr.group.inj same)
  | .unary _ _ operand, same => operand.agree_of_map (Expr.unary.inj same).2.2
  | .binary _ _ left right, same => by
    obtain ⟨_, _, sameLeft, sameRight⟩ := Expr.binary.inj same
    exact List.forall_mem_append.mpr ⟨left.agree_of_map sameLeft, right.agree_of_map sameRight⟩
  | .logical _ _ left right, same => by
    obtain ⟨_, _, sameLeft, sameRight⟩ := Expr.logical.inj same
    exact List.forall_mem_append.mpr ⟨left.agree_of_map sameLeft, right.agree_of_map sameRight⟩
  | .comma operands, same => Expr.agree_of_mapEach operands (Expr.comma.inj same)
  | .conditional _ condition thenBranch elseBranch, same => by
    obtain ⟨_, sameCondition, sameThen, sameElse⟩ := Expr.conditional.inj same
    exact List.forall_mem_append.mpr ⟨condition.agree_of_map sameCondition,
      List.forall_mem_append.mpr
        ⟨thenBranch.agree_of_map sameThen, elseBranch.agree_of_map sameElse⟩⟩
  | .reference _ _, same => List.forall_mem_singleton.mpr (Expr.reference.inj same).2
  | .assign _ _ value, same => by
    obtain ⟨_, here, sameValue⟩ := Expr.assign.inj same
    exact List.forall_mem_append.mpr
      ⟨value.agree_of_map sameValue, List.forall_mem_singleton.mpr here⟩
  | .property object _, same => object.agree_of_map (Expr.property.inj same).1
  | .call callee _ arguments, same => by
    obtain ⟨sameCallee, _, sameArguments⟩ := Expr.call.inj same
    exact List.forall_mem_append.mpr
      ⟨Expr.agree_of_mapEach arguments sameArguments, callee.agree_of_map sameCallee⟩
  | .function lambda, same => lambda.agree_of_map (Expr.function.inj same)
  | .thisInstance _ _, same => List.forall_mem_singleton.mpr (Expr.thisInstance.inj same).2
  | .superMethod _ _ _, same => List.forall_mem_singleton.mpr (Expr.superMethod.inj same).2.1

theorem Expr.agree_of_mapEach : (exprs : List (Expr β)) →
    Expr.mapEach f exprs = Expr.mapEach g exprs → ∀ a ∈ Expr.annotationsEach exprs, f a = g a
  | [], _ => List.forall_mem_nil _
  | expr :: rest, same => by
    obtain ⟨here, further⟩ := List.cons.inj same
    exact List.forall_mem_append.mpr ⟨expr.agree_of_map here, Expr.agree_of_mapEach rest further⟩

theorem Expr.agree_of_mapPart : (part : Option (Expr β)) →
    Expr.mapPart f part = Expr.mapPart g part → ∀ a ∈ Expr.annotationsPart part, f a = g a
  | none, _ => List.forall_mem_nil _
  | some expr, same => expr.agree_of_map (Option.some.inj same)

theorem Target.agree_of_map : (target : Target β) → target.map f = target.map g →
    ∀ a ∈ target.annotations, f a = g a
  | .name _ _, same => List.forall_mem_singleton.mpr (Target.name.inj same).2
  | .property object _, same => object.agree_of_map (Target.property.inj same).1

theorem Target.agree_of_mapEach : (targets : List (Target β)) →
    Target.mapEach f targets = Target.mapEach g targets →
      ∀ a ∈ Target.annotationsEach targets, f a = g a
  | [], _ => List.forall_mem_nil _
  | target :: rest, same => by
    obtain ⟨here, further⟩ := List.cons.inj same
    exact List.forall_mem_append.mpr
      ⟨target.agree_of_map here, Target.agree_of_mapEach rest further⟩

theorem Stmt.agree_of_map : (stmt : Stmt β) → stmt.map f = stmt.map g →
    ∀ a ∈ stmt.annotations, f a = g a
  | .expression value, same => value.agree_of_map (Stmt.expression.inj same)
  | .varDecl _ initializer, same => Expr.agree_of_mapPart initializer (Stmt.varDecl.inj same).2
  | .assign targets value, same => by
    obtain ⟨sameTargets, sameValue⟩ := Stmt.assign.inj same
    exact List.forall_mem_append.mpr
      ⟨value.agree_of_map sameValue, Target.agree_of_mapEach targets sameTargets⟩
  | .set object _ value, same => by
    obtain ⟨sameObject, _, sameValue⟩ := Stmt.set.inj same
    exact List.forall_mem_append.mpr ⟨object.agree_of_map sameObject, value.agree_of_map sameValue⟩
  | .block body, same => Stmt.agree_of_mapEach body (Stmt.block.inj same)
  | .branch condition thenBranch elseBranch, same => by
    obtain ⟨sameCondition, sameThen, sameElse⟩ := Stmt.branch.inj same
    exact List.forall_mem_append.mpr ⟨condition.agree_of_map sameCondition,
      List.forall_mem_append.mpr
        ⟨thenBranch.agree_of_map sameThen, Stmt.agree_of_mapPart elseBranch sameElse⟩⟩
  | .whileLoop condition body, same => by
    obtain ⟨sameCondition, sameBody⟩ := Stmt.whileLoop.inj same
    exact List.forall_mem_append.mpr
      ⟨condition.agree_of_map sameCondition, body.agree_of_map sameBody⟩
  | .forLoop initializer condition increment body, same => by
    obtain ⟨sameInitializer, sameCondition, sameIncrement, sameBody⟩ := Stmt.forLoop.inj same
    exact List.forall_mem_append.mpr ⟨Stmt.agree_of_mapPart initializer sameInitializer,
      List.forall_mem_append.mpr ⟨Expr.agree_of_mapPart condition sameCondition,
        List.forall_mem_append.mpr
          ⟨Expr.agree_of_mapPart increment sameIncrement, body.agree_of_map sameBody⟩⟩⟩
  | .breakLoop _, _ => List.forall_mem_nil _
  | .continueLoop _, _ => List.forall_mem_nil _
  | .funDecl _ lambda, same => lambda.agree_of_map (Stmt.funDecl.inj same).2
  | .returnValue _ value, same => Expr.agree_of_mapPart value (Stmt.returnValue.inj same).2
  | .classDecl _ none methods, same => Method.agree_of_mapEach methods (Stmt.classDecl.inj same).2.2
  | .classDecl _ (some ⟨_, _⟩) methods, same => by
    obtain ⟨_, sameSuperclass, sameMethods⟩ := Stmt.classDecl.inj same
    have here := (Superclass.mk.inj (Option.some.inj sameSuperclass)).2
    exact List.forall_mem_cons.mpr ⟨here, Method.agree_of_mapEach methods sameMethods⟩

theorem Stmt.agree_of_mapEach : (stmts : List (Stmt β)) →
    Stmt.mapEach f stmts = Stmt.mapEach g stmts → ∀ a ∈ Stmt.annotationsEach stmts, f a = g a
  | [], _ => List.forall_mem_nil _
  | stmt :: rest, same => by
    obtain ⟨here, further⟩ := List.cons.inj same
    exact List.forall_mem_append.mpr ⟨stmt.agree_of_map here, Stmt.agree_of_mapEach rest further⟩

theorem Stmt.agree_of_mapPart : (part : Option (Stmt β)) →
    Stmt.mapPart f part = Stmt.mapPart g part → ∀ a ∈ Stmt.annotationsPart part, f a = g a
  | none, _ => List.forall_mem_nil _
  | some stmt, same => stmt.agree_of_map (Option.some.inj same)

theorem Lambda.agree_of_map : (lambda : Lambda β) → lambda.map f = lambda.map g →
    ∀ a ∈ lambda.annotations, f a = g a
  | ⟨_, body⟩, same => Stmt.agree_of_mapEach body (Lambda.mk.inj same).2

theorem Method.agree_of_map : (method : Method β) → method.map f = method.map g →
    ∀ a ∈ method.annotations, f a = g a
  | ⟨_, lambda⟩, same => lambda.agree_of_map (Method.mk.inj same).2

theorem Method.agree_of_mapEach : (methods : List (Method β)) →
    Method.mapEach f methods = Method.mapEach g methods →
      ∀ a ∈ Method.annotationsEach methods, f a = g a
  | [], _ => List.forall_mem_nil _
  | method :: rest, same => by
    obtain ⟨here, further⟩ := List.cons.inj same
    exact List.forall_mem_append.mpr
      ⟨method.agree_of_map here, Method.agree_of_mapEach rest further⟩

end

end

end Lox
