import Lox.Proofs.Writing.Silence

/-!
# Evaluation writes in calls

All that evaluation writes is written by native routines, each called at the closing parenthesis of a
call in the program. Everything else that it is put together from is silent.
-/

namespace Lox.Plan

variable {α β : Type}

/-- The plan is silent but for calls of native routines at closing parentheses. -/
inductive WritesInCalls : {α : Type} → Plan α → Prop where
  | pure {α : Type} (result : α) : WritesInCalls (.pure result)
  | outOfFuel {α : Type} : WritesInCalls (.outOfFuel : Plan α)
  | fail {α : Type} (problem : RuntimeProblem) (token : Token) :
      WritesInCalls (.fail problem token : Plan α)
  | silent {α : Type} {step : Step α} {tame : step.Tame} :
      step.Silent → WritesInCalls (.basic step tame)
  | native (id : NativeId) (arguments : List Value) (line : Nat) :
      WritesInCalls (callNative id arguments (Symbol.rightParen.token line))
  | function? (id : FunctionId) : WritesInCalls (.function? id)
  | close (name : Option String) (lambda : Lambda Binding) (isInitializer : Bool) :
      WritesInCalls (.close name lambda isInitializer)
  | bind {α β : Type} {first : Plan α} {rest : α → Plan β} :
      WritesInCalls first → (∀ result, WritesInCalls (rest result)) →
        WritesInCalls (first >>= rest)
  | inScope {α : Type} {inner : Plan α} : WritesInCalls inner → WritesInCalls (.inScope inner)
  | inCall (closure : Closure) (arguments : List Value) (paren : Token) {body : Plan Flow} :
      WritesInCalls body → WritesInCalls (.inCall closure arguments paren body)

namespace WritesInCalls

theorem ite {condition : Prop} [Decidable condition] {plan other : Plan α}
    (present : plan.WritesInCalls) (absent : other.WritesInCalls) :
    (if condition then plan else other).WritesInCalls := by
  split
  · exact present
  · exact absent

theorem readHeap (f : Heap → α) : (Plan.readHeap f).WritesInCalls := .silent (.readHeap f)

theorem define (name : String) (value : Value) : (Plan.define name value).WritesInCalls :=
  .silent (.define name value)

theorem checkArity (expected given : Nat) (paren : Token) :
    (Plan.checkArity expected given paren).WritesInCalls := .silent (.checkArity expected given paren)

end WritesInCalls

/-! ## Parts without recursion -/

theorem callResult_writes (closure : Closure) (flow : Flow) :
    (callResult closure flow).WritesInCalls := by
  refine .ite (.readHeap _) ?_
  cases flow with
  | normal => exact .pure _
  | returns line value => exact .pure _
  | breaks line => exact .fail _ _
  | continues line => exact .fail _ _

theorem closeMethods_writes (table : Table FunctionId) (methods : List (Method Binding)) :
    (closeMethods table methods).WritesInCalls := by
  induction methods generalizing table with
  | nil => exact .pure _
  | cons method rest ih => exact .bind (.close _ _ _) fun id => ih _

theorem closeMethodsOf_writes (superclass : Option ClassId) (methods : List (Method Binding)) :
    (closeMethodsOf superclass methods).WritesInCalls := by
  cases superclass with
  | none => exact closeMethods_writes _ _
  | some id => exact .inScope (.bind (.define _ _) fun _ => closeMethods_writes _ _)

theorem declareClass_writes (name : Name) (superclass : Option (Superclass Binding))
    (methods : List (Method Binding)) : (declareClass name superclass methods).WritesInCalls := by
  refine .bind (.silent (.superclassOf superclass)) fun parent => .bind (.define _ _) fun _ => ?_
  refine .bind (closeMethodsOf_writes parent methods) fun table => ?_
  exact .bind (.silent (.changeHeap _)) fun id => .define _ _

theorem declareFunction_writes (name : Name) (lambda : Lambda Binding) :
    (declareFunction name lambda).WritesInCalls :=
  .bind (.define _ _) fun _ => .bind (.close _ _ _) fun _ => .define _ _

/-! ## Expressions and statements -/

mutual

theorem evaluate_writes : ∀ fuel expr, (evaluate fuel expr).WritesInCalls
  | 0, _ => .outOfFuel
  | fuel + 1, expr => by
    cases expr with
    | literal value => exact .pure _
    | group inner => exact evaluate_writes fuel inner
    | unary operator line operand =>
      exact .bind (evaluate_writes fuel operand) fun _ => .silent (.ofOperands _ _)
    | binary operator line left right =>
      refine .bind (evaluate_writes fuel left) fun a => ?_
      exact .bind (evaluate_writes fuel right) fun b => .silent (.ofOperands _ _)
    | logical operator line left right =>
      refine .bind (evaluate_writes fuel left) fun value => ?_
      exact .ite (.pure _) (evaluate_writes fuel right)
    | comma operands => exact evaluateLast_writes fuel .nil operands
    | conditional line condition thenBranch elseBranch =>
      refine .bind (evaluate_writes fuel condition) fun value => ?_
      match value with
      | .boolean true => exact evaluate_writes fuel thenBranch
      | .boolean false => exact evaluate_writes fuel elseBranch
      | .nil | .number _ | .text _ | .native _ | .function _ | .classObject _ | .object _ =>
        exact .fail _ _
    | reference name binding => exact .silent (.lookUp _ _ _)
    | assign name binding value =>
      refine .bind (evaluate_writes fuel value) fun value => ?_
      exact .bind (.silent (.assign _ _ _)) fun _ => .pure _
    | property object name =>
      refine .bind (evaluate_writes fuel object) fun value => ?_
      cases value with
      | object id => exact .silent (.getProperty _ _)
      | _ => exact .fail _ _
    | call callee line arguments =>
      refine .bind (evaluateEach_writes fuel arguments) fun values => ?_
      refine .bind (evaluate_writes fuel callee) fun value => ?_
      exact call_writes fuel value values line
    | function lambda => exact .bind (.close _ _ _) fun _ => .pure _
    | thisInstance line binding => exact .silent (.lookUp _ _ _)
    | superMethod line binding method => exact .silent (.superProperty _ _ _)

theorem evaluateEach_writes : ∀ fuel exprs, (evaluateEach fuel exprs).WritesInCalls
  | 0, _ => .outOfFuel
  | _ + 1, [] => .pure _
  | fuel + 1, expr :: rest => by
    refine .bind (evaluate_writes fuel expr) fun value => ?_
    exact .bind (evaluateEach_writes fuel rest) fun values => .pure _

theorem evaluateLast_writes : ∀ fuel last exprs, (evaluateLast fuel last exprs).WritesInCalls
  | 0, _, _ => .outOfFuel
  | _ + 1, _, [] => .pure _
  | fuel + 1, _, expr :: rest =>
    .bind (evaluate_writes fuel expr) fun value => evaluateLast_writes fuel value rest

theorem evaluatePart_writes : ∀ fuel part, (evaluatePart fuel part).WritesInCalls
  | 0, _ => .outOfFuel
  | _ + 1, none => .pure _
  | fuel + 1, some expr => evaluate_writes fuel expr

/-- The call of an expression is made at its closing parenthesis, whatever is called. -/
theorem call_writes : ∀ fuel callee arguments line,
    (call fuel callee arguments (Symbol.rightParen.token line)).WritesInCalls
  | 0, _, _, _ => .outOfFuel
  | fuel + 1, callee, arguments, line => by
    cases callee with
    | native id => exact .native id arguments line
    | function id =>
      refine .bind (.function? id) fun found => ?_
      cases found with
      | none => exact .fail _ _
      | some closure =>
        exact .bind (.checkArity _ _ _) fun _ => callClosure_writes fuel closure arguments _
    | classObject id => exact construct_writes fuel id arguments _
    | _ => exact .fail _ _

theorem construct_writes : ∀ fuel classId arguments paren,
    (construct fuel classId arguments paren).WritesInCalls
  | 0, _, _, _ => .outOfFuel
  | fuel + 1, classId, arguments, paren => by
    refine .bind (.readHeap _) fun initializer? => ?_
    cases initializer? with
    | none =>
      exact .bind (.checkArity _ _ _) fun _ => .bind (.silent (.changeHeap _)) fun _ => .pure _
    | some initializer =>
      refine .bind (.readHeap _) fun arity => .bind (.checkArity _ _ _) fun _ => ?_
      refine .bind (.silent (.changeHeap _)) fun id => .bind (.silent (.changeHeap _)) fun bound => ?_
      refine .bind (.function? bound) fun found => ?_
      cases found with
      | none => exact .pure _
      | some closure =>
        exact .bind (callClosure_writes fuel closure arguments paren) fun _ => .pure _

theorem callClosure_writes : ∀ fuel closure arguments paren,
    (callClosure fuel closure arguments paren).WritesInCalls
  | 0, _, _, _ => .outOfFuel
  | fuel + 1, closure, arguments, paren => by
    have body := executeEach_writes fuel closure.lambda.body
    exact .bind (.inCall closure arguments paren body) fun flow => callResult_writes closure flow

theorem storeEach_writes : ∀ fuel value targets, (storeEach fuel value targets).WritesInCalls
  | 0, _, _ => .outOfFuel
  | _ + 1, _, [] => .pure _
  | fuel + 1, value, .name name binding :: rest =>
    .bind (.silent (.assignOrDefine _ _ _)) fun _ => storeEach_writes fuel value rest
  | fuel + 1, value, .property object name :: rest => by
    refine .bind (evaluate_writes fuel object) fun object => ?_
    exact .bind (.silent (.setProperty _ _ _)) fun _ => storeEach_writes fuel value rest

theorem execute_writes : ∀ fuel stmt, (execute fuel stmt).WritesInCalls
  | 0, _ => .outOfFuel
  | fuel + 1, stmt => by
    cases stmt with
    | expression value => exact .bind (evaluate_writes fuel value) fun _ => .pure _
    | varDecl name initializer =>
      refine .bind (evaluatePart_writes fuel initializer) fun value => ?_
      exact .bind (.define _ _) fun _ => .pure _
    | assign targets value =>
      refine .bind (evaluate_writes fuel value) fun value => ?_
      exact .bind (storeEach_writes fuel value targets) fun _ => .pure _
    | set object name value =>
      refine .bind (evaluate_writes fuel object) fun object => ?_
      cases object with
      | object id =>
        refine .bind (evaluate_writes fuel value) fun value => ?_
        exact .bind (.silent (.setProperty _ _ _)) fun _ => .pure _
      | _ => exact .fail _ _
    | block body => exact .inScope (executeEach_writes fuel body)
    | branch condition thenBranch elseBranch =>
      refine .inScope (.bind (evaluate_writes fuel condition) fun value => ?_)
      exact .ite (execute_writes fuel thenBranch) (executePart_writes fuel elseBranch)
    | whileLoop condition body => exact .inScope (loop_writes fuel (some condition) none body)
    | forLoop initializer condition increment body =>
      refine .inScope (.bind (executePart_writes fuel initializer) fun _ => ?_)
      exact loop_writes fuel condition increment body
    | breakLoop line => exact .pure _
    | continueLoop line => exact .pure _
    | funDecl name lambda => exact .bind (declareFunction_writes name lambda) fun _ => .pure _
    | returnValue line value => exact .bind (evaluatePart_writes fuel value) fun _ => .pure _
    | classDecl name superclass methods =>
      exact .bind (declareClass_writes name superclass methods) fun _ => .pure _

theorem executeEach_writes : ∀ fuel stmts, (executeEach fuel stmts).WritesInCalls
  | 0, _ => .outOfFuel
  | _ + 1, [] => .pure _
  | fuel + 1, stmt :: rest => by
    refine .bind (execute_writes fuel stmt) fun flow => ?_
    cases flow with
    | normal => exact executeEach_writes fuel rest
    | _ => exact .pure _

theorem executePart_writes : ∀ fuel part, (executePart fuel part).WritesInCalls
  | 0, _ => .outOfFuel
  | _ + 1, none => .pure _
  | fuel + 1, some stmt => execute_writes fuel stmt

theorem loop_writes : ∀ fuel condition increment body,
    (loop fuel condition increment body).WritesInCalls
  | 0, _, _, _ => .outOfFuel
  | fuel + 1, condition, increment, body => by
    have round : ∀ holds, (if holds = true then execute fuel body >>= fun
          | .breaks _ => Pure.pure .normal
          | .returns line value => Pure.pure (.returns line value)
          | _ => evaluatePart fuel increment >>= fun _ => loop fuel condition increment body
        else Pure.pure .normal : Plan Flow).WritesInCalls := by
      intro holds
      refine .ite (.bind (execute_writes fuel body) fun flow => ?_) (.pure _)
      have again : (evaluatePart fuel increment >>= fun _ =>
          loop fuel condition increment body).WritesInCalls :=
        .bind (evaluatePart_writes fuel increment) fun _ => loop_writes fuel condition increment body
      cases flow with
      | normal => exact again
      | continues line => exact again
      | breaks line => exact .pure _
      | returns line value => exact .pure _
    cases condition with
    | none => exact .bind (.pure true) round
    | some expr => exact .bind (evaluate_writes fuel expr) fun _ => .bind (.pure _) round

end

/-! ## Programs -/

theorem runTopLevel_writes (fuel : Nat) (stmts : List (Stmt Binding)) :
    (runTopLevel fuel stmts).WritesInCalls := by
  induction stmts with
  | nil => exact .pure _
  | cons stmt rest ih =>
    refine .bind (execute_writes fuel stmt) fun flow => ?_
    cases flow with
    | normal => exact ih
    | _ => exact .fail _ _

end Lox.Plan
