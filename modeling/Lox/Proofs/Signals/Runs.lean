import Lox.Proofs.Scoping.Sessions
import Lox.Proofs.Signals.Supers

/-!
# Watched runs keep `super` in its seat

Evaluation of a text with ordinary names keeps heaps seated, wherever the surroundings are proper.
The functions of the evaluator call each other, so they are shown together, by recursion on the
fuel.
-/

namespace Lox.Watch

/-! ## Expressions and statements -/

mutual

theorem evaluate_seats : ∀ fuel {s expr}, Surroundings.Proper s → Ordinary (Expr.written expr) →
    (evaluate fuel s expr).Seats fun _ => True
  | 0, _, _, _, _ => .outOfFuel
  | fuel + 1, s, expr, proper, ordinary => by
    cases expr with
    | superMethod line binding method => exact .superMethod proper line method
    | literal value => exact .bind (.check _) fun _ _ => .pure trivial
    | group inner =>
      simp only [Expr.written, Ordinary.cons, Ordinary.append] at ordinary
      exact .bind (.check _) fun _ _ => evaluate_seats fuel proper ordinary.2.1
    | unary operator line operand =>
      simp only [Expr.written, Ordinary.cons] at ordinary
      refine .bind (.check _) fun _ _ => .bind (evaluate_seats fuel proper ordinary.2) fun _ _ => ?_
      exact .lift (.ofOperands _ _)
    | binary operator line left right =>
      simp only [Expr.written, Ordinary.append, Ordinary.cons] at ordinary
      refine .bind (.check _) fun _ _ => .bind (evaluate_seats fuel proper ordinary.1) fun _ _ => ?_
      refine .bind (evaluate_seats fuel proper ordinary.2.2) fun _ _ => ?_
      exact .lift (.ofOperands _ _)
    | logical operator line left right =>
      simp only [Expr.written, Ordinary.append, Ordinary.cons] at ordinary
      refine .bind (.check _) fun _ _ => .bind (evaluate_seats fuel proper ordinary.1) fun _ _ => ?_
      split
      · exact .pure trivial
      · exact evaluate_seats fuel proper ordinary.2.2
    | comma operands =>
      exact .bind (.check _) fun _ _ => evaluateLast_seats fuel _ proper ordinary
    | conditional line condition thenBranch elseBranch =>
      simp only [Expr.written, Ordinary.append, Ordinary.cons] at ordinary
      obtain ⟨ordinary, _, ordinaryThen, _, ordinaryElse⟩ := ordinary
      refine .bind (.check _) fun _ _ => .bind (evaluate_seats fuel proper ordinary) fun _ _ => ?_
      split
      · exact evaluate_seats fuel proper ordinaryThen
      · exact evaluate_seats fuel proper ordinaryElse
      · exact .fail id
    | reference name binding =>
      refine .bind (.check _) fun _ _ => .bind (.occurs _ _) fun _ _ => ?_
      exact .lift (.lookUp _ _ _)
    | assign name binding value =>
      simp only [Expr.written, Ordinary.cons] at ordinary
      obtain ⟨named, _, ordinary⟩ := ordinary
      refine .bind (.check _) fun _ _ => .bind (evaluate_seats fuel proper ordinary) fun _ _ => ?_
      refine .bind (.occurs _ _) fun _ _ => .bind (.lift (.assign named _ _)) fun _ _ => ?_
      exact .pure trivial
    | property object name =>
      simp only [Expr.written, Ordinary.append] at ordinary
      refine .bind (.check _) fun _ _ => .bind (evaluate_seats fuel proper ordinary.1) fun _ _ => ?_
      split
      · exact .getProperty _ _
      · exact .fail id
    | call callee line arguments =>
      simp only [Expr.written, Ordinary.append, Ordinary.cons] at ordinary
      obtain ⟨ordinary, _, ordinaryArguments, _⟩ := ordinary
      refine .bind (.check _) fun _ _ => ?_
      refine .bind (evaluateEach_seats fuel proper ordinaryArguments) fun values _ => ?_
      refine .bind (evaluate_seats fuel proper ordinary) fun value _ => ?_
      exact call_seats fuel value values _
    | function lambda =>
      simp only [Expr.written, Ordinary.cons] at ordinary
      refine .bind (.check _) fun _ _ => .bind (.close proper ordinary.2.2 _ _ _) fun _ _ => ?_
      exact .pure trivial
    | thisInstance line binding =>
      refine .bind (.check _) fun _ _ => .bind (.occurs _ _) fun _ _ => ?_
      exact .lift (.lookUp _ _ _)

theorem evaluateEach_seats : ∀ fuel {s exprs}, Surroundings.Proper s →
    Ordinary (Expr.writtenEach exprs) → (evaluateEach fuel s exprs).Seats fun _ => True
  | 0, _, _, _, _ => .outOfFuel
  | _ + 1, _, [], _, _ => .pure trivial
  | fuel + 1, _, _ :: _, proper, ordinary => by
    rw [Expr.writtenEach, Ordinary.append, Lexical.Expr.ordinary_writtenAfterEach] at ordinary
    refine .bind (evaluate_seats fuel proper ordinary.1) fun _ _ => ?_
    exact .bind (evaluateEach_seats fuel proper ordinary.2) fun _ _ => .pure trivial

theorem evaluateLast_seats : ∀ fuel last {s exprs}, Surroundings.Proper s →
    Ordinary (Expr.writtenEach exprs) → (evaluateLast fuel s last exprs).Seats fun _ => True
  | 0, _, _, _, _, _ => .outOfFuel
  | _ + 1, _, _, [], _, _ => .pure trivial
  | fuel + 1, _, _, _ :: _, proper, ordinary => by
    rw [Expr.writtenEach, Ordinary.append, Lexical.Expr.ordinary_writtenAfterEach] at ordinary
    refine .bind (evaluate_seats fuel proper ordinary.1) fun value _ => ?_
    exact evaluateLast_seats fuel value proper ordinary.2

theorem evaluatePart_seats : ∀ fuel {s before part}, Surroundings.Proper s →
    Ordinary (Expr.writtenPart before part) → (evaluatePart fuel s part).Seats fun _ => True
  | 0, _, _, _, _, _ => .outOfFuel
  | _ + 1, _, _, none, _, _ => .pure trivial
  | fuel + 1, _, _, some _, proper, ordinary => by
    rw [Expr.writtenPart, Ordinary.append] at ordinary
    exact evaluate_seats fuel proper ordinary.2

theorem call_seats : ∀ fuel callee arguments paren,
    (call fuel callee arguments paren).Seats fun _ => True
  | 0, _, _, _ => .outOfFuel
  | fuel + 1, callee, arguments, paren => by
    cases callee with
    | native id => exact .lift (.callNative id arguments paren)
    | function callee =>
      refine .bind (.lift (.function? callee)) fun found ordinary => ?_
      split
      · exact .fail id
      · next closure =>
        refine .bind (.lift (.checkArity _ _ _)) fun _ _ => ?_
        refine .bind (.originOf callee) fun origin known => ?_
        exact callClosure_seats fuel arguments paren (ordinary closure rfl) known
    | classObject id => exact construct_seats fuel id arguments paren
    | _ => exact .fail id

theorem construct_seats : ∀ fuel classId arguments paren,
    (construct fuel classId arguments paren).Seats fun _ => True
  | 0, _, _, _ => .outOfFuel
  | fuel + 1, classId, arguments, paren => by
    refine .bind (.readHeap _) fun found _ => ?_
    split
    · refine .bind (.lift (.checkArity _ _ _)) fun _ _ => ?_
      exact .bind (.lift (.addInstance classId)) fun _ _ => .pure trivial
    · next initializer =>
      refine .bind (.readHeap _) fun arity _ => .bind (.lift (.checkArity _ _ _)) fun _ _ => ?_
      refine .bind (.lift (.addInstance classId)) fun receiver _ => ?_
      refine .bind (.bindMethod initializer receiver) fun bound _ => ?_
      refine .bind (.lift (.function? bound)) fun found ordinary => ?_
      split
      · exact .pure trivial
      · next closure =>
        refine .bind (.originOf bound) fun origin known => ?_
        refine .bind (callClosure_seats fuel arguments paren (ordinary closure rfl) known) ?_
        exact fun _ _ => .pure trivial

/-- The body is come to inside what surrounds the declaration, where `super` is if it has to be. -/
theorem callClosure_seats : ∀ fuel {closure : Closure} {origin : Origin} arguments paren,
    (∀ parameter ∈ closure.lambda.parameters, parameter.written.IsOrdinary) → origin.Proper →
      (callClosure fuel closure origin arguments paren).Seats fun _ => True
  | 0, _, _, _, _, _, _ => .outOfFuel
  | fuel + 1, closure, origin, arguments, paren, parameters, known => by
    have ordinary := Lambda.ordinary known.ordinary
    have proper := known.proper.enterFunction ordinary.1
    refine .bind (.inCall parameters (executeEach_seats fuel proper ordinary.2)) fun flow _ => ?_
    exact .lift (.callResult closure flow)

theorem storeEach_seats : ∀ fuel value {s targets}, Surroundings.Proper s →
    Ordinary (Target.writtenEach targets) → (storeEach fuel s value targets).Seats fun _ => True
  | 0, _, _, _, _, _ => .outOfFuel
  | _ + 1, _, _, [], _, _ => .pure trivial
  | fuel + 1, value, _, .name name _ :: _, proper, ordinary => by
    simp only [Target.writtenEach, Target.written, Ordinary.append, Ordinary.cons] at ordinary
    obtain ⟨⟨named, _⟩, _, ordinary⟩ := ordinary
    refine .bind (.occurs _ _) fun _ _ => .bind (.lift (.assignOrDefine named _ _)) fun _ _ => ?_
    exact storeEach_seats fuel value proper ordinary
  | fuel + 1, value, _, .property _ _ :: _, proper, ordinary => by
    simp only [Target.writtenEach, Target.written, Ordinary.append, Ordinary.cons] at ordinary
    obtain ⟨⟨ordinary, _⟩, _, ordinaryRest⟩ := ordinary
    refine .bind (evaluate_seats fuel proper ordinary) fun _ _ => ?_
    refine .bind (.lift (.setProperty _ _ _)) fun _ _ => ?_
    exact storeEach_seats fuel value proper ordinaryRest

theorem execute_seats : ∀ fuel {s stmt}, Surroundings.Proper s → Ordinary (Stmt.written stmt) →
    (execute fuel s stmt).Seats fun _ => True
  | 0, _, _, _, _ => .outOfFuel
  | fuel + 1, s, stmt, proper, ordinary => by
    refine .bind (.check _) fun _ _ => ?_
    cases stmt with
    | expression value =>
      simp only [Stmt.written, Ordinary.append] at ordinary
      exact .bind (evaluate_seats fuel proper ordinary.1) fun _ _ => .pure trivial
    | varDecl name initializer =>
      simp only [Stmt.written, Ordinary.cons, Ordinary.append] at ordinary
      obtain ⟨_, named, ordinary, _⟩ := ordinary
      refine .bind (evaluatePart_seats fuel proper ordinary) fun value _ => ?_
      refine .bind (.lift (.define (Value.fits_of_ordinary named value))) fun _ _ => ?_
      exact .pure trivial
    | assign targets value =>
      simp only [Stmt.written, Ordinary.append] at ordinary
      obtain ⟨⟨ordinaryTargets, ordinary⟩, _⟩ := ordinary
      refine .bind (evaluate_seats fuel proper ordinary) fun value _ => ?_
      exact .bind (storeEach_seats fuel value proper ordinaryTargets) fun _ _ => .pure trivial
    | set object name value =>
      simp only [Stmt.written, Ordinary.append, Ordinary.cons] at ordinary
      obtain ⟨ordinary, _, _, _, ordinaryValue, _⟩ := ordinary
      refine .bind (evaluate_seats fuel proper ordinary) fun receiver _ => ?_
      split
      · refine .bind (evaluate_seats fuel proper ordinaryValue) fun _ _ => ?_
        exact .bind (.lift (.setProperty _ _ _)) fun _ _ => .pure trivial
      · exact .fail id
    | block body =>
      simp only [Stmt.written, Ordinary.cons, Ordinary.append] at ordinary
      exact .inScope (executeEach_seats fuel proper.enter ordinary.2.1)
    | branch condition thenBranch elseBranch =>
      simp only [Stmt.written, Ordinary.cons, Ordinary.append] at ordinary
      obtain ⟨_, _, ordinary, _, ordinaryThen, ordinaryElse⟩ := ordinary
      refine .inScope (.bind (evaluate_seats fuel proper.enter ordinary) fun _ _ => ?_)
      split
      · exact execute_seats fuel proper.enter ordinaryThen
      · refine executePart_seats fuel proper.enter ?_
        rintro stmt ⟨⟩
        exact (Ordinary.append.mp ordinaryElse).2
    | whileLoop condition body =>
      simp only [Stmt.written, Ordinary.cons, Ordinary.append] at ordinary
      obtain ⟨_, _, ordinary, _, ordinaryBody⟩ := ordinary
      exact .inScope (loop_seats fuel proper.enter ordinary .nil ordinaryBody)
    | forLoop initializer condition increment body =>
      simp only [Stmt.written, Ordinary.cons, Ordinary.append] at ordinary
      obtain ⟨_, _, ordinary, ordinaryCondition, _, ordinaryIncrement, _, ordinaryBody⟩ := ordinary
      have first : ∀ stmt ∈ initializer, Ordinary stmt.written := by
        rintro stmt ⟨⟩
        exact ordinary
      -- The rest of the loop is behind what the initializer declares.
      have inside : ((s.enter []).after (initializer.bind Stmt.declaredName?)).Proper := by
        cases initializer with
        | none => exact proper.enter
        | some stmt => exact proper.enter.after (first stmt rfl)
      refine .inScope (.bind (executePart_seats fuel proper.enter first) fun _ _ => ?_)
      exact loop_seats fuel inside ordinaryCondition ordinaryIncrement ordinaryBody
    | breakLoop line => exact .pure trivial
    | continueLoop line => exact .pure trivial
    | funDecl name lambda =>
      simp only [Stmt.written, Ordinary.cons] at ordinary
      obtain ⟨_, named, _, ordinary⟩ := ordinary
      exact .bind (.declareFunction proper named ordinary) fun _ _ => .pure trivial
    | returnValue line value =>
      simp only [Stmt.written, Ordinary.cons, Ordinary.append] at ordinary
      exact .bind (evaluatePart_seats fuel proper ordinary.2.1) fun _ _ => .pure trivial
    | classDecl name superclass methods =>
      simp only [Stmt.written, Ordinary.cons, Ordinary.append] at ordinary
      obtain ⟨_, named, _, _, ordinary, _⟩ := ordinary
      exact .bind (.declareClass superclass named ordinary) fun _ _ => .pure trivial

theorem executeEach_seats : ∀ fuel {s stmts}, Surroundings.Proper s →
    Ordinary (Stmt.writtenEach stmts) → (executeEach fuel s stmts).Seats fun _ => True
  | 0, _, _, _, _ => .outOfFuel
  | _ + 1, _, [], _, _ => .pure trivial
  | fuel + 1, _, _ :: _, proper, ordinary => by
    rw [Stmt.writtenEach, Ordinary.append] at ordinary
    refine .bind (execute_seats fuel proper ordinary.1) fun flow _ => ?_
    split
    · exact executeEach_seats fuel (proper.after ordinary.1) ordinary.2
    · exact .pure trivial

theorem executePart_seats : ∀ fuel {s part}, Surroundings.Proper s →
    (∀ stmt ∈ part, Ordinary (Stmt.written stmt)) → (executePart fuel s part).Seats fun _ => True
  | 0, _, _, _, _ => .outOfFuel
  | _ + 1, _, none, _, _ => .pure trivial
  | fuel + 1, _, some stmt, proper, ordinary => execute_seats fuel proper (ordinary stmt rfl)

theorem loop_seats : ∀ fuel {s condition increment body}, Surroundings.Proper s →
    Ordinary (Expr.writtenPart [] condition) → Ordinary (Expr.writtenPart [] increment) →
      Ordinary (Stmt.written body) → (loop fuel s condition increment body).Seats fun _ => True
  | 0, _, _, _, _, _, _, _, _ => .outOfFuel
  | fuel + 1, s, condition, increment, body, proper, ordinaryCondition, ordinaryIncrement,
      ordinaryBody => by
    have round : ∀ holds, Seats (if holds = true then execute fuel s.enterLoop body >>= fun
          | .breaks _ => pure .normal
          | .returns line value => pure (.returns line value)
          | _ => evaluatePart fuel (s.after body.declaredName?) increment >>= fun _ =>
            loop fuel (s.after body.declaredName?) condition increment body
        else pure .normal) fun _ => True := by
      intro holds
      split
      · refine .bind (execute_seats fuel proper ordinaryBody) fun flow _ => ?_
        -- A body that declares a name declares it for the rounds to come.
        have next := proper.after ordinaryBody
        have again := Seats.bind (evaluatePart_seats fuel next ordinaryIncrement) fun _ _ =>
          loop_seats fuel next ordinaryCondition ordinaryIncrement ordinaryBody
        cases flow with
        | normal => exact again
        | continues line => exact again
        | breaks line => exact .pure trivial
        | returns line value => exact .pure trivial
      · exact .pure trivial
    cases condition with
    | none => exact round true
    | some expr =>
      exact .bind (evaluate_seats fuel proper ordinaryCondition) fun value _ => round value.isTruthy

end

/-! ## Programs -/

theorem runTopLevel_seats (fuel : Nat) {stmts : List (Stmt Unit)}
    (ordinary : Ordinary (Stmt.writtenEach stmts)) :
    (runTopLevel fuel stmts).Seats fun _ => True := by
  induction stmts with
  | nil => exact .pure trivial
  | cons stmt rest ih =>
    rw [Stmt.writtenEach, Ordinary.append] at ordinary
    refine .bind (execute_seats fuel Surroundings.proper_topLevel ordinary.1) fun flow _ => ?_
    split
    · exact ih ordinary.2
    all_goals exact .fail id

theorem result_seats (fuel : Nat) {stmt : Stmt Unit} (ordinary : Ordinary stmt.written) :
    (result fuel stmt).Seats fun _ => True := by
  have proper := Surroundings.proper_topLevel
  cases stmt with
  | expression value =>
    simp only [Stmt.written, Ordinary.append] at ordinary
    exact .bind (evaluate_seats fuel proper ordinary.1) fun _ _ => .pure trivial
  | _ => exact .bind (execute_seats fuel proper ordinary) fun _ _ => .pure trivial

end Lox.Watch
