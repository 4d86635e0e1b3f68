import Lox.Proofs.Halting.Plans

/-!
# Evaluation without loops ends

Without loops, every function of the evaluator calls the others on smaller parts of the program only,
but for the bodies of the functions that are called. Such a body can be anything, of any function; but
it is no larger than a bound, and there is room for one call less in it. So the fuel that is enough is
the size of what is evaluated, and for each call that there is room for as much as the largest body
takes.
-/

namespace Lox.Plan

variable {bound room fuel : Nat}

/-! ## What is enough -/

/-- What the calls in some room can take, on top of the size of what makes them: each of them the steps
to the body of its function, and a body. -/
def spare (bound : Nat) : Nat → Nat
  | 0 => 3
  | room + 1 => spare bound room + bound + 3

/-- A part of a program of this size is within the bound, and the fuel is enough for it. -/
structure Affords (bound room fuel size : Nat) : Prop where
  small : size ≤ bound
  enough : size + spare bound room ≤ fuel

namespace Affords

variable {size inner : Nat}

/-- Fuel that is enough is enough for a smaller part with one unit less. -/
theorem part (affords : Affords bound room (fuel + 1) size) (smaller : inner < size) :
    Affords bound room fuel inner :=
  ⟨Nat.le_of_lt (Nat.lt_of_lt_of_le smaller affords.small),
    Nat.le_of_lt_succ (Nat.lt_of_lt_of_le (Nat.add_lt_add_right smaller _) affords.enough)⟩

theorem mono (affords : Affords bound room fuel size) (within : inner ≤ size) :
    Affords bound room fuel inner :=
  ⟨Nat.le_trans within affords.small,
    Nat.le_trans (Nat.add_le_add_right within _) affords.enough⟩

theorem not_zero (affords : Affords bound room 0 size) : False := by
  have enough := affords.enough
  cases room <;> simp [spare] at enough

/-- There is fuel left for the steps that lead to a body. -/
theorem spare_le (affords : Affords bound room (fuel + 1) size) (positive : 0 < size) :
    spare bound room ≤ fuel := by
  have enough := affords.enough
  omega

end Affords

/-! ## Parts without recursion -/

theorem callResult_halts (closure : Closure) (flow : Flow) :
    (callResult closure flow).Halts bound room fun _ => True := by
  unfold callResult
  split
  · exact .basic (.readHeap _)
  · cases flow <;> trivial

theorem closeMethods_halts {methods : List (Method Binding)} (table : Table FunctionId)
    (free : Method.LoopFreeEach methods) (small : sizeOf methods ≤ bound) :
    (closeMethods table methods).Halts bound room fun _ => True := by
  induction methods generalizing table with
  | nil => trivial
  | cons method rest ih =>
    obtain ⟨name, lambda⟩ := method
    have sizes : sizeOf lambda ≤ bound ∧ sizeOf rest ≤ bound := by
      simp only [List.cons.sizeOf_spec, Method.mk.sizeOf_spec] at small
      omega
    exact ⟨⟨free.1, sizes.1⟩, fun id => ih _ free.2 sizes.2⟩

theorem declareClass_halts {methods : List (Method Binding)} (name : Name)
    (superclass : Option (Superclass Binding)) (free : Method.LoopFreeEach methods)
    (small : sizeOf methods ≤ bound) :
    (declareClass name superclass methods).Halts bound room fun _ => True := by
  have define : ∀ name value, (define name value).Halts bound room fun _ => True :=
    fun name value => .basic (.define name value)
  refine .bind (.basic (.superclassOf superclass)) fun parent => ?_
  refine .bind (define _ _) fun _ => .bind ?_ fun table => ?_
  · cases parent with
    | none => exact closeMethods_halts _ free small
    | some id => exact .bind (define _ _) fun _ => closeMethods_halts _ free small
  · exact .bind (.basic (.changeHeap _)) fun id => define _ _

theorem declareFunction_halts {lambda : Lambda Binding} (name : Name)
    (fits : lambda.Fits bound) :
    (declareFunction name lambda).Halts bound room fun _ => True := by
  have define : ∀ value, (define name.text value).Halts bound room fun _ => True :=
    fun value => .basic (.define name.text value)
  exact .bind (define _) fun _ => ⟨fits, fun id => define _⟩

/-! ## Expressions and statements -/

mutual

theorem evaluate_halts {bound : Nat} : ∀ fuel {room : Nat} {expr : Expr Binding}, expr.LoopFree →
    Affords bound room fuel (sizeOf expr) →
      (evaluate fuel expr).Halts bound room fun _ => True
  | 0, _, _, _, affords => affords.not_zero.elim
  | fuel + 1, room, expr, free, affords => by
    cases expr with
    | literal value => trivial
    | group inner => exact evaluate_halts fuel free (affords.part (by simp))
    | unary operator line operand =>
      refine .bind (evaluate_halts fuel free (affords.part (by simp +arith))) fun value => ?_
      exact .basic (.ofOperands _ _)
    | binary operator line left right =>
      refine .bind (evaluate_halts fuel free.1 (affords.part (by simp +arith))) fun a => ?_
      refine .bind (evaluate_halts fuel free.2 (affords.part (by simp +arith))) fun b => ?_
      exact .basic (.ofOperands _ _)
    | logical operator line left right =>
      refine .bind (evaluate_halts fuel free.1 (affords.part (by simp +arith))) fun value => ?_
      split
      · trivial
      · exact evaluate_halts fuel free.2 (affords.part (by simp +arith))
    | comma operands => exact evaluateLast_halts fuel _ free (affords.part (by simp))
    | conditional line condition thenBranch elseBranch =>
      refine .bind (evaluate_halts fuel free.1 (affords.part (by simp +arith))) fun value => ?_
      split
      · exact evaluate_halts fuel free.2.1 (affords.part (by simp +arith))
      · exact evaluate_halts fuel free.2.2 (affords.part (by simp +arith))
      · trivial
    | reference name binding => exact .basic (.lookUp _ _ _)
    | assign name binding value =>
      refine .bind (evaluate_halts fuel free (affords.part (by simp +arith))) fun value => ?_
      exact .bind (.basic (.assign _ _ _)) fun _ => trivial
    | property object name =>
      refine .bind (evaluate_halts fuel free (affords.part (by simp +arith))) fun value => ?_
      split
      · exact .basic (.getProperty _ _)
      · trivial
    | call callee line arguments =>
      refine .bind (evaluateEach_halts fuel free.1 (affords.part (by simp +arith))) fun values => ?_
      refine .bind (evaluate_halts fuel free.2 (affords.part (by simp +arith))) fun value => ?_
      exact call_halts fuel value values _ (affords.spare_le (by simp +arith))
    | function lambda =>
      -- Nothing of it runs now; its size is what later calls of it are charged for.
      have smaller : Affords bound room fuel (sizeOf lambda) := affords.part (by simp)
      exact ⟨⟨free, smaller.small⟩, fun _ => trivial⟩
    | thisInstance line binding => exact .basic (.lookUp _ _ _)
    | superMethod line binding method => exact .basic (.superProperty _ _ _)

theorem evaluateEach_halts {bound : Nat} : ∀ fuel {room : Nat} {exprs : List (Expr Binding)},
    Expr.LoopFreeEach exprs → Affords bound room fuel (sizeOf exprs) →
      (evaluateEach fuel exprs).Halts bound room fun _ => True
  | 0, _, _, _, affords => affords.not_zero.elim
  | _ + 1, _, [], _, _ => trivial
  | fuel + 1, _, expr :: rest, free, affords => by
    refine .bind (evaluate_halts fuel free.1 (affords.part (by simp +arith))) fun value => ?_
    refine .bind (evaluateEach_halts fuel free.2 (affords.part (by simp +arith))) fun values => ?_
    trivial

theorem evaluateLast_halts {bound : Nat} : ∀ fuel {room : Nat} {exprs : List (Expr Binding)} last,
    Expr.LoopFreeEach exprs → Affords bound room fuel (sizeOf exprs) →
      (evaluateLast fuel last exprs).Halts bound room fun _ => True
  | 0, _, _, _, _, affords => affords.not_zero.elim
  | _ + 1, _, [], _, _, _ => trivial
  | fuel + 1, _, expr :: rest, _, free, affords => by
    refine .bind (evaluate_halts fuel free.1 (affords.part (by simp +arith))) fun value => ?_
    exact evaluateLast_halts fuel value free.2 (affords.part (by simp +arith))

theorem evaluatePart_halts {bound : Nat} : ∀ fuel {room : Nat} {part : Option (Expr Binding)},
    Expr.LoopFreePart part → Affords bound room fuel (sizeOf part) →
      (evaluatePart fuel part).Halts bound room fun _ => True
  | 0, _, _, _, affords => affords.not_zero.elim
  | _ + 1, _, none, _, _ => trivial
  | fuel + 1, _, some _, free, affords => evaluate_halts fuel free (affords.part (by simp))

theorem call_halts {bound : Nat} : ∀ fuel {room : Nat} callee arguments paren,
    spare bound room ≤ fuel →
      (call fuel callee arguments paren).Halts bound room fun _ => True
  | 0, room, _, _, _, enough => by cases room <;> simp [spare] at enough
  | fuel + 1, room, callee, arguments, paren, enough => by
    cases callee with
    | native id => exact .basic (.callNative _ _ _)
    | function id =>
      intro found fits
      cases found with
      | none => trivial
      | some closure =>
        refine .bind (.basic (.checkArity _ _ _)) fun _ => ?_
        exact callClosure_halts fuel arguments paren (fits closure rfl) (Nat.le_succ_of_le enough)
    | classObject id => exact construct_halts fuel id arguments paren enough
    | _ => trivial

theorem construct_halts {bound : Nat} : ∀ fuel {room : Nat} classId arguments paren,
    spare bound room ≤ fuel + 1 →
      (construct fuel classId arguments paren).Halts bound room fun _ => True
  | 0, room, _, _, _, enough => by cases room <;> simp [spare] at enough
  | fuel + 1, room, classId, arguments, paren, enough => by
    have arity : ∀ expected, (checkArity expected arguments.length paren).Halts bound room
        fun _ => True := fun _ => .basic (.checkArity _ _ _)
    have made : (addInstance classId).Halts bound room fun _ => True :=
      .basic (.changeHeap _)
    refine .bind (.basic (.readHeap _)) fun initializer? => ?_
    cases initializer? with
    | none => exact .bind (arity _) fun _ => .bind made fun _ => trivial
    | some initializer =>
      refine .bind (.basic (.readHeap _)) fun expected => ?_
      refine .bind (arity _) fun _ => .bind made fun id => ?_
      refine .bind (.basic (.changeHeap _)) fun bound found fits => ?_
      cases found with
      | none => trivial
      | some closure =>
        exact .bind (callClosure_halts fuel arguments paren (fits closure rfl) enough)
          fun _ => trivial

theorem callClosure_halts {bound : Nat} : ∀ fuel {room : Nat} {closure : Closure} arguments paren,
    closure.lambda.Fits bound → spare bound room ≤ fuel + 2 →
      (callClosure fuel closure arguments paren).Halts bound room fun _ => True
  | 0, room, _, _, _, _, enough => by cases room <;> simp [spare] at enough
  | fuel + 1, 0, _, _, _, _, _ => trivial
  | fuel + 1, room + 1, ⟨_, ⟨parameters, body⟩, _, _⟩, arguments, paren, fits, enough => by
    -- The body is within the bound, and the call spared the fuel for as much.
    have smaller : sizeOf body < sizeOf (Lambda.mk parameters body) := by simp +arith
    have small : sizeOf body ≤ bound := Nat.le_trans (Nat.le_of_lt smaller) fits.small
    have affords : Affords bound room fuel (sizeOf body) :=
      ⟨small, by simp only [spare] at enough; omega⟩
    exact (executeEach_halts fuel fits.loopFree affords).mono fun flow _ =>
      callResult_halts _ flow

theorem storeEach_halts {bound : Nat} : ∀ fuel {room : Nat} {targets : List (Target Binding)} value,
    Target.LoopFreeEach targets → Affords bound room fuel (sizeOf targets) →
      (storeEach fuel value targets).Halts bound room fun _ => True
  | 0, _, _, _, _, affords => affords.not_zero.elim
  | _ + 1, _, [], _, _, _ => trivial
  | fuel + 1, room, .name _ _ :: rest, value, free, affords => by
    refine .bind (.basic (.assignOrDefine _ _ _)) fun _ => ?_
    exact storeEach_halts fuel value free.2 (affords.part (by simp +arith))
  | fuel + 1, room, .property object name :: rest, value, free, affords => by
    refine .bind (evaluate_halts fuel free.1 (affords.part (by simp +arith))) fun object => ?_
    refine .bind (.basic (.setProperty _ _ _)) fun _ => ?_
    exact storeEach_halts fuel value free.2 (affords.part (by simp +arith))

theorem execute_halts {bound : Nat} : ∀ fuel {room : Nat} {stmt : Stmt Binding}, stmt.LoopFree →
    Affords bound room fuel (sizeOf stmt) →
      (execute fuel stmt).Halts bound room fun _ => True
  | 0, _, _, _, affords => affords.not_zero.elim
  | fuel + 1, room, stmt, free, affords => by
    cases stmt with
    | expression value =>
      exact .bind (evaluate_halts fuel free (affords.part (by simp))) fun _ => trivial
    | varDecl name initializer =>
      refine .bind (evaluatePart_halts fuel free (affords.part (by simp +arith))) fun value => ?_
      exact .bind (.basic (.define _ _)) fun _ => trivial
    | assign targets value =>
      refine .bind (evaluate_halts fuel free.1 (affords.part (by simp +arith))) fun value => ?_
      refine .bind (storeEach_halts fuel value free.2 (affords.part (by simp +arith))) fun _ => ?_
      trivial
    | set object name value =>
      refine .bind (evaluate_halts fuel free.1 (affords.part (by simp +arith))) fun object => ?_
      split
      · refine .bind (evaluate_halts fuel free.2 (affords.part (by simp +arith))) fun value => ?_
        exact .bind (.basic (.setProperty _ _ _)) fun _ => trivial
      · trivial
    | block body => exact executeEach_halts fuel free (affords.part (by simp))
    | branch condition thenBranch elseBranch =>
      change (_ >>= _ : Plan Flow).Halts bound room _
      refine .bind (evaluate_halts fuel free.1 (affords.part (by simp +arith))) fun value => ?_
      split
      · exact execute_halts fuel free.2.1 (affords.part (by simp +arith))
      · exact executePart_halts fuel free.2.2 (affords.part (by simp +arith))
    | whileLoop condition body => exact free.elim
    | forLoop initializer condition increment body => exact free.elim
    | breakLoop line | continueLoop line => trivial
    | funDecl name lambda =>
      have smaller : Affords bound room fuel (sizeOf lambda) := affords.part (by simp +arith)
      exact .bind (declareFunction_halts name ⟨free, smaller.small⟩) fun _ => trivial
    | returnValue line value =>
      exact .bind (evaluatePart_halts fuel free (affords.part (by simp +arith))) fun _ => trivial
    | classDecl name superclass methods =>
      have smaller : Affords bound room fuel (sizeOf methods) := affords.part (by simp +arith)
      exact .bind (declareClass_halts name superclass free smaller.small) fun _ => trivial

theorem executeEach_halts {bound : Nat} : ∀ fuel {room : Nat} {stmts : List (Stmt Binding)},
    Stmt.LoopFreeEach stmts → Affords bound room fuel (sizeOf stmts) →
      (executeEach fuel stmts).Halts bound room fun _ => True
  | 0, _, _, _, affords => affords.not_zero.elim
  | _ + 1, _, [], _, _ => trivial
  | fuel + 1, _, stmt :: rest, free, affords => by
    refine .bind (execute_halts fuel free.1 (affords.part (by simp +arith))) fun flow => ?_
    cases flow with
    | normal => exact executeEach_halts fuel free.2 (affords.part (by simp +arith))
    | _ => trivial

theorem executePart_halts {bound : Nat} : ∀ fuel {room : Nat} {part : Option (Stmt Binding)},
    Stmt.LoopFreePart part → Affords bound room fuel (sizeOf part) →
      (executePart fuel part).Halts bound room fun _ => True
  | 0, _, _, _, affords => affords.not_zero.elim
  | _ + 1, _, none, _, _ => trivial
  | fuel + 1, _, some _, free, affords => execute_halts fuel free (affords.part (by simp))

end

/-! ## Programs -/

theorem runTopLevel_halts {stmts : List (Stmt Binding)} (free : Stmt.LoopFreeEach stmts)
    (affords : Affords bound room fuel (sizeOf stmts)) :
    (runTopLevel fuel stmts).Halts bound room fun _ => True := by
  induction stmts with
  | nil => trivial
  | cons stmt rest ih =>
    refine .bind (execute_halts fuel free.1 (affords.mono (by simp +arith))) fun flow => ?_
    cases flow with
    | normal => exact ih free.2 (affords.mono (by simp +arith))
    | _ => trivial

theorem result_halts {stmt : Stmt Binding} (free : stmt.LoopFree)
    (affords : Affords bound room fuel (sizeOf stmt)) :
    (result fuel stmt).Halts bound room fun _ => True := by
  cases stmt with
  | expression value =>
    exact .bind (evaluate_halts fuel free (affords.mono (by simp))) fun _ => trivial
  | _ => exact .bind (execute_halts fuel free affords) fun _ => trivial

end Lox.Plan
