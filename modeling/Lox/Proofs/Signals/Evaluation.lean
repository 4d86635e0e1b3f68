import Lox.Proofs.Signals.Safety

/-!
# Evaluation keeps signals in

The plan of every confined expression and statement is safe, and a statement ends with no signal but
one that something waits for. The functions of the evaluator call each other, so they are shown
together, by recursion on the fuel.
-/

namespace Lox.Plan

variable {α : Type}

/-! ## Parts without recursion -/

theorem safe_basic {step : Step α} {tame : step.Tame} :
    (basic step tame).Safe fun _ => True :=
  fun _ => trivial

theorem callResult_safe (closure : Closure) {flow : Flow} (ends : flow.EndsCall) :
    (callResult closure flow).Safe fun _ => True := by
  unfold callResult
  split
  · exact safe_basic
  · cases flow with
    | normal | returns line value => trivial
    -- These are the signals that a body does not end with.
    | breaks line | continues line => cases ends

theorem closeMethods_safe {methods : List (Method Binding)} (table : Table FunctionId)
    (confined : Method.ConfinedEach methods) : (closeMethods table methods).Safe fun _ => True := by
  induction methods generalizing table with
  | nil => trivial
  | cons method rest ih =>
    obtain ⟨name, lambda⟩ := method
    exact ⟨confined.1, fun id => ih _ confined.2⟩

theorem closeMethodsOf_safe {methods : List (Method Binding)} (superclass : Option ClassId)
    (confined : Method.ConfinedEach methods) :
    (closeMethodsOf superclass methods).Safe fun _ => True := by
  cases superclass with
  | none => exact closeMethods_safe _ confined
  | some id => exact .bind safe_basic fun _ _ => closeMethods_safe _ confined

theorem declareClass_safe {methods : List (Method Binding)} (name : Name)
    (superclass : Option (Superclass Binding)) (confined : Method.ConfinedEach methods) :
    (declareClass name superclass methods).Safe fun _ => True := by
  refine .bind safe_basic fun parent _ => .bind safe_basic fun _ _ => ?_
  refine .bind (closeMethodsOf_safe parent confined) fun table _ => ?_
  exact .bind safe_basic fun id _ => safe_basic

theorem declareFunction_safe {lambda : Lambda Binding} (name : Name) (confined : lambda.Confined) :
    (declareFunction name lambda).Safe fun _ => True := by
  refine .bind safe_basic fun _ _ => ?_
  exact ⟨confined, fun id => safe_basic⟩

/-! ## Expressions and statements -/

mutual

theorem evaluate_safe : ∀ fuel {expr}, Expr.Confined expr →
    (evaluate fuel expr).Safe fun _ => True
  | 0, _, _ => trivial
  | fuel + 1, expr, confined => by
    cases expr with
    | literal value => trivial
    | group inner =>
      have inner : inner.Confined := confined
      exact evaluate_safe fuel inner
    | unary operator line operand =>
      have operand : operand.Confined := confined
      exact .bind (evaluate_safe fuel operand) fun _ _ => safe_basic
    | binary operator line left right =>
      obtain ⟨left, right⟩ := confined
      refine .bind (evaluate_safe fuel left) fun a _ => ?_
      exact .bind (evaluate_safe fuel right) fun b _ => safe_basic
    | logical operator line left right =>
      obtain ⟨left, right⟩ := confined
      refine .bind (evaluate_safe fuel left) fun value _ => ?_
      split
      · trivial
      · exact evaluate_safe fuel right
    | comma operands =>
      have operands : Expr.ConfinedEach operands := confined
      exact evaluateLast_safe fuel _ operands
    | conditional line condition thenBranch elseBranch =>
      obtain ⟨condition, thenBranch, elseBranch⟩ := confined
      refine .bind (evaluate_safe fuel condition) fun value _ => ?_
      split
      · exact evaluate_safe fuel thenBranch
      · exact evaluate_safe fuel elseBranch
      · exact id
    | reference name binding => exact safe_basic
    | assign name binding value =>
      have value : value.Confined := confined
      refine .bind (evaluate_safe fuel value) fun _ _ => ?_
      exact .bind safe_basic fun _ _ => trivial
    | property object name =>
      have object : object.Confined := confined
      refine .bind (evaluate_safe fuel object) fun value _ => ?_
      split
      · exact safe_basic
      · exact id
    | call callee line arguments =>
      obtain ⟨arguments, callee⟩ := confined
      refine .bind (evaluateEach_safe fuel arguments) fun values _ => ?_
      exact .bind (evaluate_safe fuel callee) fun value _ => call_safe fuel value values _
    | function lambda => exact ⟨confined, fun _ => trivial⟩
    | thisInstance line binding => exact safe_basic
    | superMethod line binding method => exact safe_basic

theorem evaluateEach_safe : ∀ fuel {exprs}, Expr.ConfinedEach exprs →
    (evaluateEach fuel exprs).Safe fun _ => True
  | 0, _, _ => trivial
  | _ + 1, [], _ => trivial
  | fuel + 1, _ :: _, ⟨expr, rest⟩ => by
    refine .bind (evaluate_safe fuel expr) fun value _ => ?_
    exact .bind (evaluateEach_safe fuel rest) fun values _ => trivial

theorem evaluateLast_safe : ∀ fuel last {exprs}, Expr.ConfinedEach exprs →
    (evaluateLast fuel last exprs).Safe fun _ => True
  | 0, _, _, _ => trivial
  | _ + 1, _, [], _ => trivial
  | fuel + 1, _, _ :: _, ⟨expr, rest⟩ =>
    .bind (evaluate_safe fuel expr) fun value _ => evaluateLast_safe fuel value rest

theorem evaluatePart_safe : ∀ fuel {part}, Expr.ConfinedPart part →
    (evaluatePart fuel part).Safe fun _ => True
  | 0, _, _ => trivial
  | _ + 1, none, _ => trivial
  | fuel + 1, some expr, confined => by
    have expr : expr.Confined := confined
    exact evaluate_safe fuel expr

theorem call_safe : ∀ fuel callee arguments paren,
    (call fuel callee arguments paren).Safe fun _ => True
  | 0, _, _, _ => trivial
  | fuel + 1, callee, arguments, paren => by
    cases callee with
    | native id => exact safe_basic
    | function id =>
      -- What is read out of the heap as a function was confined when it was made.
      intro found confined
      cases found with
      | none => exact fun signal => signal
      | some closure =>
        refine .bind safe_basic fun _ _ => ?_
        exact callClosure_safe fuel (confined closure rfl) arguments paren
    | classObject id => exact construct_safe fuel id arguments paren
    | _ => exact id

theorem construct_safe : ∀ fuel classId arguments paren,
    (construct fuel classId arguments paren).Safe fun _ => True
  | 0, _, _, _ => trivial
  | fuel + 1, classId, arguments, paren => by
    refine .bind safe_basic fun initializer? _ => ?_
    cases initializer? with
    | none =>
      refine .bind safe_basic fun _ _ => ?_
      exact .bind safe_basic fun id _ => trivial
    | some initializer =>
      refine .bind safe_basic fun arity _ => .bind safe_basic fun _ _ => ?_
      refine .bind safe_basic fun id _ => .bind safe_basic fun bound _ => ?_
      intro found confined
      cases found with
      | none => trivial
      | some closure =>
        refine .bind (callClosure_safe fuel (confined closure rfl) arguments paren) fun _ _ => ?_
        trivial

theorem callClosure_safe : ∀ fuel {closure}, closure.lambda.Confined → ∀ arguments paren,
    (callClosure fuel closure arguments paren).Safe fun _ => True
  | 0, _, _, _, _ => trivial
  | fuel + 1, closure, confined, arguments, paren => by
    -- The body stands in no loop, so it ends normally or with a return.
    have body := executeEach_safe fuel confined.body
    exact body.mono fun flow ends => ⟨ends, callResult_safe closure ends⟩

theorem storeEach_safe : ∀ fuel value {targets}, Target.ConfinedEach targets →
    (storeEach fuel value targets).Safe fun _ => True
  | 0, _, _, _ => trivial
  | _ + 1, _, [], _ => trivial
  | fuel + 1, value, .name _ _ :: _, ⟨_, rest⟩ =>
    .bind safe_basic fun _ _ => storeEach_safe fuel value rest
  | fuel + 1, value, .property object _ :: _, ⟨confined, rest⟩ => by
    have object : object.Confined := confined
    refine .bind (evaluate_safe fuel object) fun object _ => .bind safe_basic fun _ _ => ?_
    exact storeEach_safe fuel value rest

theorem execute_safe : ∀ fuel {inLoop inFunction stmt}, Stmt.Confined inLoop inFunction stmt →
    (execute fuel stmt).Safe (Flow.Within inLoop inFunction)
  | 0, _, _, _, _ => trivial
  | fuel + 1, inLoop, inFunction, stmt, confined => by
    cases stmt with
    | expression value =>
      have value : value.Confined := confined
      exact .bind (evaluate_safe fuel value) fun _ _ => trivial
    | varDecl name initializer =>
      have initializer : Expr.ConfinedPart initializer := confined
      refine .bind (evaluatePart_safe fuel initializer) fun value _ => ?_
      exact .bind safe_basic fun _ _ => trivial
    | assign targets value =>
      obtain ⟨value, targets⟩ := confined
      refine .bind (evaluate_safe fuel value) fun value _ => ?_
      exact .bind (storeEach_safe fuel value targets) fun _ _ => trivial
    | set object name value =>
      obtain ⟨object, value⟩ := confined
      refine .bind (evaluate_safe fuel object) fun object _ => ?_
      split
      · refine .bind (evaluate_safe fuel value) fun value _ => ?_
        exact .bind safe_basic fun _ _ => trivial
      · exact id
    | block body =>
      have body : Stmt.ConfinedEach inLoop inFunction body := confined
      exact executeEach_safe fuel body
    | branch condition thenBranch elseBranch =>
      obtain ⟨condition, thenBranch, elseBranch⟩ := confined
      refine Safe.bind (evaluate_safe fuel condition) fun value _ => ?_
      split
      · exact execute_safe fuel thenBranch
      · exact executePart_safe fuel elseBranch
    | whileLoop condition body =>
      obtain ⟨condition, body⟩ := confined
      exact loop_safe fuel inLoop condition trivial body
    | forLoop initializer condition increment body =>
      obtain ⟨initializer, condition, increment, body⟩ := confined
      refine Safe.bind (executePart_safe fuel initializer) fun _ _ => ?_
      exact loop_safe fuel inLoop condition increment body
    | breakLoop line => exact confined
    | continueLoop line => exact confined
    | funDecl name lambda =>
      have lambda : lambda.Confined := confined
      exact .bind (declareFunction_safe name lambda) fun _ _ => trivial
    | returnValue line value =>
      obtain ⟨inside, value⟩ := confined
      exact .bind (evaluatePart_safe fuel value) fun _ _ => inside
    | classDecl name superclass methods =>
      have methods : Method.ConfinedEach methods := confined
      exact .bind (declareClass_safe name superclass methods) fun _ _ => trivial

theorem executeEach_safe : ∀ fuel {inLoop inFunction stmts},
    Stmt.ConfinedEach inLoop inFunction stmts →
      (executeEach fuel stmts).Safe (Flow.Within inLoop inFunction)
  | 0, _, _, _, _ => trivial
  | _ + 1, _, _, [], _ => trivial
  | fuel + 1, _, _, _ :: _, ⟨stmt, rest⟩ => by
    refine .bind (execute_safe fuel stmt) fun flow within => ?_
    cases flow with
    | normal => exact executeEach_safe fuel rest
    | _ => exact within

theorem executePart_safe : ∀ fuel {inLoop inFunction part},
    Stmt.ConfinedPart inLoop inFunction part →
      (executePart fuel part).Safe (Flow.Within inLoop inFunction)
  | 0, _, _, _, _ => trivial
  | _ + 1, _, _, none, _ => trivial
  | fuel + 1, inLoop, inFunction, some stmt, confined => by
    have stmt : stmt.Confined inLoop inFunction := confined
    exact execute_safe fuel stmt

/-- The loop itself waits for what its body leaves it by, unless that is a return. -/
theorem loop_safe : ∀ fuel inLoop {inFunction condition increment body},
    Expr.ConfinedPart condition → Expr.ConfinedPart increment →
      Stmt.Confined true inFunction body →
        (loop fuel condition increment body).Safe (Flow.Within inLoop inFunction)
  | 0, _, _, _, _, _, _, _, _ => trivial
  | fuel + 1, inLoop, inFunction, condition, increment, body, conditionIn, incrementIn, bodyIn => by
    have round : ∀ holds, (if holds = true then execute fuel body >>= fun
          | .breaks _ => pure .normal
          | .returns line value => pure (.returns line value)
          | _ => evaluatePart fuel increment >>= fun _ => loop fuel condition increment body
        else pure .normal : Plan Flow).Safe (Flow.Within inLoop inFunction) := by
      intro holds
      split
      · refine .bind (execute_safe fuel bodyIn) fun flow within => ?_
        -- Every signal that the body may end with, but a return, is for this loop and no other.
        have again := Safe.bind (evaluatePart_safe fuel incrementIn) fun _ _ =>
          loop_safe fuel inLoop conditionIn incrementIn bodyIn
        cases flow with
        | normal => exact again
        | continues line => exact again
        | breaks line => trivial
        | returns line value => exact within
      · trivial
    cases condition with
    | none => exact round true
    | some expr => exact .bind (evaluate_safe fuel conditionIn) fun value _ => round value.isTruthy

end

/-! ## Programs -/

theorem runTopLevel_safe (fuel : Nat) {stmts : List (Stmt Binding)}
    (confined : ∀ stmt ∈ stmts, stmt.Confined false false) :
    (runTopLevel fuel stmts).Safe fun _ => True := by
  induction stmts with
  | nil => trivial
  | cons stmt rest ih =>
    refine .bind (execute_safe fuel (confined stmt (.head _))) fun flow within => ?_
    cases flow with
    | normal => exact ih fun other member => confined other (.tail _ member)
    | _ => cases within

theorem result_safe (fuel : Nat) {stmt : Stmt Binding} (confined : stmt.Confined false false) :
    (result fuel stmt).Safe fun _ => True := by
  cases stmt with
  | expression value =>
    have value : value.Confined := confined
    exact .bind (evaluate_safe fuel value) fun _ _ => trivial
  | _ => exact .bind (execute_safe fuel confined) fun _ _ => trivial

end Lox.Plan
