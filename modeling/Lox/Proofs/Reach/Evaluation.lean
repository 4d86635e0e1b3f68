import Lox.Proofs.Reach.Stays

/-!
# Evaluation stays in a region

Whatever is evaluated in a scope of a region stays in the region, and so does every call of a value
that is in it. Nothing about the program matters for this, so every plan of the evaluator is shown to
stay; the functions of the evaluator call each other, so they are shown together, by recursion on the
fuel.
-/

namespace Lox

variable {start : Heap} {region : Region start}

/-- What a statement ends with is from the region. -/
def Flow.IsFrom (region : Region start) : Flow → Prop
  | returns _ value => region.Has value
  | _ => True

namespace Plan

variable {framed : Prop}

/-! ## Parts without recursion -/

theorem ofOperands_stays {result : Except OperandProblem Value} (token : Token)
    (data : ∀ value, result = .ok value → value.node? = none) :
    (ofOperands result token).Stays region framed region.Has := by
  cases result with
  | ok value => exact Step.Stays.pure (Region.has_of_node?_eq_none (data value rfl))
  | error problem => exact Step.Stays.fail _ _

theorem callResult_stays {closure : Closure} (inside : region.Holds (.frame closure.frame))
    {flow : Flow} (isFrom : flow.IsFrom region) :
    (callResult closure flow).Stays region framed region.Has := by
  unfold callResult
  split
  · refine Step.Stays.readHeap _ fun heap bounds => ?_
    cases found : heap.environment.getAt? closure.frame 0 thisName with
    | none => exact nofun
    | some value => exact bounds.slot inside found
  · cases flow with
    | normal => exact nofun
    | returns line value => exact isFrom
    | breaks line | continues line => trivial

/-- The methods that were closed so far, and those to come. -/
theorem closeMethods_stays {methods : List (Method Binding)} {table : Table FunctionId}
    (inside : ∀ name method, table.get? name = some method → region.Holds (.function method)) :
    (closeMethods table methods).Stays region True fun table =>
      ∀ name method, table.get? name = some method → region.Holds (.function method) := by
  induction methods generalizing table with
  | nil => exact inside
  | cons method rest ih =>
    refine ⟨trivial, fun id made => ih fun name other held => ?_⟩
    rw [Table.get?_set] at held
    split at held
    · cases held
      exact made
    · exact inside name other held

theorem closeMethodsOf_stays {superclass : Option ClassId} (methods : List (Method Binding))
    (inside : ∀ id ∈ superclass, region.Holds (.classObject id)) :
    (closeMethodsOf superclass methods).Stays region True fun table =>
      ∀ name method, table.get? name = some method → region.Holds (.function method) := by
  cases superclass with
  | none => exact closeMethods_stays nofun
  | some id =>
    have has : region.Has (.classObject id) := by
      rintro node ⟨⟩
      exact inside id rfl
    exact ⟨trivial, .bind (Step.Stays.define superName has) fun _ _ => closeMethods_stays nofun⟩

theorem declareClass_stays (name : Name) (superclass : Option (Superclass Binding))
    (methods : List (Method Binding)) :
    (declareClass name superclass methods).Stays region True fun _ => True := by
  refine .bind (Step.Stays.superclassOf superclass) fun parent inside => ?_
  refine .bind (Step.Stays.define _ nofun) fun _ _ => ?_
  refine .bind (closeMethodsOf_stays methods inside) fun table held => ?_
  refine .bind (Step.Stays.addClass inside held) fun id made => Step.Stays.define _ ?_
  rintro node ⟨⟩
  exact made

theorem declareFunction_stays (name : Name) (lambda : Lambda Binding) :
    (declareFunction name lambda).Stays region True fun _ => True := by
  refine .bind (Step.Stays.define _ nofun) fun _ _ => ⟨trivial, fun id made => ?_⟩
  refine Step.Stays.define _ ?_
  rintro node ⟨⟩
  exact made

/-! ## Expressions and statements -/

mutual

theorem evaluate_stays : ∀ fuel expr, (evaluate fuel expr).Stays region True region.Has
  | 0, _ => trivial
  | fuel + 1, expr => by
    cases expr with
    | literal value => exact Region.has_of_node?_eq_none value.node?_value
    | group inner => exact evaluate_stays fuel inner
    | unary operator line operand =>
      refine .bind (evaluate_stays fuel operand) fun value _ => ?_
      exact ofOperands_stays _ fun _ => UnaryOperator.node?_apply
    | binary operator line left right =>
      refine .bind (evaluate_stays fuel left) fun a _ => ?_
      refine .bind (evaluate_stays fuel right) fun b _ => ?_
      exact ofOperands_stays _ fun _ => BinaryOperator.node?_apply
    | logical operator line left right =>
      refine .bind (evaluate_stays fuel left) fun value has => ?_
      split
      · exact has
      · exact evaluate_stays fuel right
    | comma operands =>
      have none : region.Has .nil := nofun
      exact evaluateLast_stays fuel none operands
    | conditional line condition thenBranch elseBranch =>
      refine .bind (evaluate_stays fuel condition) fun value _ => ?_
      split
      · exact evaluate_stays fuel thenBranch
      · exact evaluate_stays fuel elseBranch
      · trivial
    | reference name binding => exact Step.Stays.lookUp _ _ _
    | assign name binding value =>
      refine .bind (evaluate_stays fuel value) fun value has => ?_
      exact .bind (Step.Stays.assign _ _ has) fun _ _ => has
    | property object name =>
      refine .bind (evaluate_stays fuel object) fun value has => ?_
      split
      · exact Step.Stays.getProperty (has _ rfl) name
      · trivial
    | call callee line arguments =>
      refine .bind (evaluateEach_stays fuel arguments) fun values has => ?_
      refine .bind (evaluate_stays fuel callee) fun value hasCallee => ?_
      exact call_stays fuel hasCallee has _
    | function lambda =>
      refine ⟨trivial, fun id made => ?_⟩
      rintro node ⟨⟩
      exact made
    | thisInstance line binding => exact Step.Stays.lookUp _ _ _
    | superMethod line binding method => exact Step.Stays.superProperty _ _ _

theorem evaluateEach_stays : ∀ fuel exprs,
    (evaluateEach fuel exprs).Stays region True fun values => ∀ value ∈ values, region.Has value
  | 0, _ => trivial
  | _ + 1, [] => nofun
  | fuel + 1, expr :: rest => by
    refine .bind (evaluate_stays fuel expr) fun value has => ?_
    exact .bind (evaluateEach_stays fuel rest) fun values hasRest =>
      List.forall_mem_cons.mpr ⟨has, hasRest⟩

theorem evaluateLast_stays : ∀ fuel {last}, region.Has last → ∀ exprs,
    (evaluateLast fuel last exprs).Stays region True region.Has
  | 0, _, _, _ => trivial
  | _ + 1, _, has, [] => has
  | fuel + 1, _, _, expr :: rest =>
    .bind (evaluate_stays fuel expr) fun _ has => evaluateLast_stays fuel has rest

theorem evaluatePart_stays : ∀ fuel part, (evaluatePart fuel part).Stays region True region.Has
  | 0, _ => trivial
  | _ + 1, none => nofun
  | fuel + 1, some expr => evaluate_stays fuel expr

/-- A call stays in every region of the callee and the arguments, from whatever scope it is made. -/
theorem call_stays : ∀ fuel {framed callee arguments}, region.Has callee →
    (∀ argument ∈ arguments, region.Has argument) → ∀ paren,
      (call fuel callee arguments paren).Stays region framed region.Has
  | 0, _, _, _, _, _, _ => trivial
  | fuel + 1, framed, callee, arguments, inside, has, paren => by
    cases callee with
    | native id => exact Step.Stays.callNative id paren has
    | function id =>
      refine ⟨inside _ rfl, fun found frames => ?_⟩
      cases found with
      | none => trivial
      | some closure =>
        refine .bind (Step.Stays.checkArity _ _ _) fun _ _ => ?_
        exact callClosure_stays fuel (frames closure rfl) has paren
    | classObject id => exact construct_stays fuel (inside _ rfl) has paren
    | _ => trivial

theorem construct_stays : ∀ fuel {framed classId arguments},
    region.Holds (.classObject classId) → (∀ argument ∈ arguments, region.Has argument) →
      ∀ paren, (construct fuel classId arguments paren).Stays region framed region.Has
  | 0, _, _, _, _, _, _ => trivial
  | fuel + 1, framed, classId, arguments, inside, has, paren => by
    have given : ∀ id, region.Holds (.object id) → region.Has (.object id) := by
      rintro id made node ⟨⟩
      exact made
    refine .bind (Step.Stays.readHeap (fun found => ∀ id ∈ found, region.Holds (.function id))
      fun heap bounds id found => bounds.findMethod? inside found) fun initializer? held => ?_
    cases initializer? with
    | none =>
      refine .bind (Step.Stays.checkArity _ _ _) fun _ _ => ?_
      exact .bind (Step.Stays.addInstance inside) fun id made => given id made
    | some initializer =>
      refine .bind (Step.Stays.readHeap (fun _ => True) fun _ _ => trivial) fun _ _ => ?_
      refine .bind (Step.Stays.checkArity _ _ _) fun _ _ => ?_
      refine .bind (Step.Stays.addInstance inside) fun id made => ?_
      refine .bind (Step.Stays.bindMethod (held _ rfl) made) fun bound boundIn => ?_
      refine ⟨boundIn, fun found frames => ?_⟩
      cases found with
      | none => exact given id made
      | some closure =>
        exact .bind (callClosure_stays fuel (frames closure rfl) has paren) fun _ _ =>
          given id made

theorem callClosure_stays : ∀ fuel {framed closure arguments},
    region.Holds (.frame closure.frame) → (∀ argument ∈ arguments, region.Has argument) →
      ∀ paren, (callClosure fuel closure arguments paren).Stays region framed region.Has
  | 0, _, _, _, _, _, _ => trivial
  | fuel + 1, framed, closure, arguments, inside, has, paren => by
    have body := executeEach_stays fuel closure.lambda.body
    exact ⟨inside, has, body.mono fun flow isFrom => callResult_stays inside isFrom⟩

theorem storeEach_stays : ∀ fuel {value}, region.Has value → ∀ targets,
    (storeEach fuel value targets).Stays region True fun _ => True
  | 0, _, _, _ => trivial
  | _ + 1, _, _, [] => trivial
  | fuel + 1, _, has, .name _ _ :: rest =>
    .bind (Step.Stays.assignOrDefine _ _ has) fun _ _ => storeEach_stays fuel has rest
  | fuel + 1, _, has, .property object name :: rest => by
    refine .bind (evaluate_stays fuel object) fun object inside => ?_
    refine .bind (Step.Stays.setProperty inside name has) fun _ _ => ?_
    exact storeEach_stays fuel has rest

theorem execute_stays : ∀ fuel stmt, (execute fuel stmt).Stays region True (Flow.IsFrom region)
  | 0, _ => trivial
  | fuel + 1, stmt => by
    cases stmt with
    | expression value => exact .bind (evaluate_stays fuel value) fun _ _ => trivial
    | varDecl name initializer =>
      refine .bind (evaluatePart_stays fuel initializer) fun value has => ?_
      exact .bind (Step.Stays.define _ has) fun _ _ => trivial
    | assign targets value =>
      refine .bind (evaluate_stays fuel value) fun value has => ?_
      exact .bind (storeEach_stays fuel has targets) fun _ _ => trivial
    | set object name value =>
      refine .bind (evaluate_stays fuel object) fun object inside => ?_
      split
      · refine .bind (evaluate_stays fuel value) fun value has => ?_
        exact .bind (Step.Stays.setProperty inside name has) fun _ _ => trivial
      · trivial
    | block body => exact ⟨trivial, executeEach_stays fuel body⟩
    | branch condition thenBranch elseBranch =>
      refine ⟨trivial, .bind (evaluate_stays fuel condition) fun value _ => ?_⟩
      split
      · exact execute_stays fuel thenBranch
      · exact executePart_stays fuel elseBranch
    | whileLoop condition body => exact ⟨trivial, loop_stays fuel _ _ body⟩
    | forLoop initializer condition increment body =>
      refine ⟨trivial, .bind (executePart_stays fuel initializer) fun _ _ => ?_⟩
      exact loop_stays fuel condition increment body
    | breakLoop line | continueLoop line => trivial
    | funDecl name lambda => exact .bind (declareFunction_stays name lambda) fun _ _ => trivial
    | returnValue line value => exact .bind (evaluatePart_stays fuel value) fun _ has => has
    | classDecl name superclass methods =>
      exact .bind (declareClass_stays name superclass methods) fun _ _ => trivial

theorem executeEach_stays : ∀ fuel stmts,
    (executeEach fuel stmts).Stays region True (Flow.IsFrom region)
  | 0, _ => trivial
  | _ + 1, [] => trivial
  | fuel + 1, stmt :: rest => by
    refine .bind (execute_stays fuel stmt) fun flow isFrom => ?_
    cases flow with
    | normal => exact executeEach_stays fuel rest
    | _ => exact isFrom

theorem executePart_stays : ∀ fuel part,
    (executePart fuel part).Stays region True (Flow.IsFrom region)
  | 0, _ => trivial
  | _ + 1, none => trivial
  | fuel + 1, some stmt => execute_stays fuel stmt

theorem loop_stays : ∀ fuel condition increment body,
    (loop fuel condition increment body).Stays region True (Flow.IsFrom region)
  | 0, _, _, _ => trivial
  | fuel + 1, condition, increment, body => by
    have round : ∀ holds, (if holds = true then execute fuel body >>= fun
          | .breaks _ => pure .normal
          | .returns line value => pure (.returns line value)
          | _ => evaluatePart fuel increment >>= fun _ => loop fuel condition increment body
        else pure .normal : Plan Flow).Stays region True (Flow.IsFrom region) := by
      intro holds
      split
      · refine .bind (execute_stays fuel body) fun flow isFrom => ?_
        have again := Stays.bind (evaluatePart_stays fuel increment) fun _ _ =>
          loop_stays fuel condition increment body
        cases flow with
        | normal => exact again
        | continues line => exact again
        | breaks line => trivial
        | returns line value => exact isFrom
      · trivial
    cases condition with
    | none => exact round true
    | some expr => exact .bind (evaluate_stays fuel expr) fun value _ => round value.isTruthy

end

/-! ## Programs -/

theorem runTopLevel_stays (fuel : Nat) (stmts : List (Stmt Binding)) :
    (runTopLevel fuel stmts).Stays region True fun _ => True := by
  induction stmts with
  | nil => trivial
  | cons stmt rest ih =>
    refine .bind (execute_stays fuel stmt) fun flow _ => ?_
    cases flow with
    | normal => exact ih
    | _ => trivial

theorem result_stays (fuel : Nat) (stmt : Stmt Binding) :
    (result fuel stmt).Stays region True fun _ => True := by
  cases stmt with
  | expression value => exact .bind (evaluate_stays fuel value) fun _ _ => trivial
  | _ => exact .bind (execute_stays fuel _) fun _ _ => trivial

end Plan

end Lox
