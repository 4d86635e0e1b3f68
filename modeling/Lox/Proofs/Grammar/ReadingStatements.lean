import Lox.Proofs.Grammar.Inversions
import Lox.Proofs.Grammar.ReadingExpressions

/-!
# Completeness of the rules of statements

Every statement but an `if` without an `else` ends with a token of its own, so what follows matters
only to the statements that such an `if` ends.
-/

namespace Lox

open Token.Kind

namespace Reader

variable {line last fuel : Nat}

/-! ## Assignments and expressions -/

theorem yields_target (first : Target Unit) {equals : Token} {input : List Token.Kind} :
    Yields line last (target (first.expr.onLine line) equals) input (first.onLine line) input := by
  cases first <;> exact yields_pure

theorem assignments_complete (complete : Complete line last fuel) (first : Target Unit)
    (others : List (Target Unit)) (value : Expr Unit) (rest : List Token.Kind)
    (othersShaped : Target.WellShapedEach others) (othersReadable : Target.ReadableEach others)
    (tight : 2 ≤ value.tightness) (shaped : value.WellShaped) (readable : value.Readable) :
    Yields line last (assignments (fuel + 1) (first.expr.onLine line))
      (.symbol .equal :: (Target.writtenEach others ++ value.written ++ .symbol .semicolon :: rest))
      (Target.onLineEach line (first :: others), value.onLine line) (.symbol .semicolon :: rest) := by
  unfold assignments
  refine yields_advance (yields_bind (yields_target first) ?_)
  cases others with
  | nil =>
    refine yields_bind (complete.ternary value _ tight shaped readable (stops_of_none rfl)) ?_
    exact yields_nextIs_absent (by simp) yields_pure
  | cons second more =>
    simp only [Target.writtenEach, List.append_assoc, List.cons_append]
    rw [← second.written_expr]
    refine yields_bind (complete.ternary second.expr _ (by rw [second.tightness_expr]; decide)
      (Target.wellShaped_expr othersShaped.1) (Target.readable_expr othersReadable.1)
      (stops_cons rfl (by decide))) ?_
    rw [← List.append_assoc]
    exact yields_nextIs_present (yields_bind (complete.assignments second more value rest
      othersShaped.2 othersReadable.2 tight shaped readable) yields_pure)

/-- A chain of assignments stays one on another line. -/
theorem assignment_onLine {targets : List (Target Unit)} {value : Expr Unit}
    (chain : Target.IsChain targets) :
    assignment (Target.onLineEach line targets) (value.onLine line) =
      (Stmt.assign targets value).onLine line := by
  match targets with
  | [.name _ _] | .name _ _ :: _ :: _ | .property _ _ :: _ :: _ => rfl

theorem expressionStatement_complete (complete : Complete line last fuel) (stmt : Stmt Unit)
    (rest : List Token.Kind) (simple : stmt.IsSimple) (shaped : stmt.WellShaped)
    (readable : stmt.Readable) :
    Yields line last (expressionStatement (fuel + 1)) (stmt.written ++ rest) (stmt.onLine line)
      rest := by
  unfold expressionStatement
  cases stmt with
  | expression value =>
    obtain ⟨first, others, written, made, _, list, firstShaped, firstReadable, othersShaped,
      othersReadable⟩ := exists_operands value shaped.2 readable
    have stops : Stops 0 (.symbol .semicolon :: rest) := stops_of_none rfl
    simp only [Stmt.written, written, List.append_assoc, List.cons_append, List.nil_append]
    refine yields_bind (complete.ternary first _ (list shaped.1) firstShaped firstReadable
      ((stops_writtenAfterEach stops).mono (by decide))) ?_
    refine yields_nextIs_absent ((stops_writtenAfterEach stops).front_ne rfl (Nat.le_refl _)) ?_
    refine yields_bind (complete.operands _ others _ othersShaped othersReadable stops)
      (yields_terminator ?_)
    rw [made]
    exact yields_pure
  | assign targets value =>
    obtain ⟨chain, targetsShaped, tight, valueShaped⟩ := shaped
    rw [← assignment_onLine chain]
    cases targets with
    | nil => exact chain.elim
    | cons first others =>
      simp only [Stmt.written, Target.writtenEach, List.append_assoc, List.cons_append,
        List.nil_append]
      rw [← first.written_expr]
      refine yields_bind (complete.ternary first.expr _ (by rw [first.tightness_expr]; decide)
        (Target.wellShaped_expr targetsShaped.1) (Target.readable_expr readable.1.1)
        (stops_cons rfl (by decide))) ?_
      rw [← List.append_assoc]
      refine yields_nextIs_present (yields_bind (complete.assignments first others value rest
        targetsShaped.2 readable.1.2 tight valueShaped readable.2) ?_)
      exact yields_terminator yields_pure
  | set object name value =>
    obtain ⟨objectTight, objectShaped, tight, valueShaped⟩ := shaped
    have property := complete.ternary (.property object name)
      (.symbol .equal :: (value.written ++ .symbol .semicolon :: rest)) (by simp [Expr.tightness])
      ⟨objectTight, objectShaped⟩ readable.1 (stops_cons rfl (by decide))
    simp only [Expr.written, Stmt.written, List.append_assoc, List.cons_append,
      List.nil_append] at property ⊢
    refine yields_bind property (yields_nextIs_present ?_)
    refine yields_bind (complete.assignments (.property object name) [] value rest trivial trivial
      tight valueShaped readable.2) ?_
    exact yields_terminator yields_pure
  | _ => exact simple.elim

/-! ## Parts of statements -/

theorem varDecl_complete (complete : Complete line last fuel) (name : Name)
    (initializer : Option (Expr Unit)) :
    YieldsRest line last (varDecl (fuel + 1)) (.varDecl name initializer) := by
  intro rest shaped readable _
  unfold varDecl
  cases initializer with
  | none =>
    refine yields_identifier (yields_accept_absent (by simp [Expr.writtenPart]) ?_)
    exact yields_terminator yields_pure
  | some value =>
    simp only [Stmt.written, Expr.writtenPart, List.tail_cons, List.cons_append, List.append_assoc,
      List.nil_append]
    refine yields_identifier (yields_accept_present ?_)
    refine yields_bind (complete.expression value _ (Nat.zero_le _) shaped readable
      (stops_of_none rfl)) ?_
    exact yields_terminator yields_pure

theorem forInitializer_complete (complete : Complete line last fuel)
    (initializer : Option (Stmt Unit)) (rest : List Token.Kind)
    (stands : ∀ stmt ∈ initializer, stmt.IsInitializer) (shaped : Stmt.WellShapedPart initializer)
    (readable : Stmt.ReadablePart initializer) :
    Yields line last (forInitializer (fuel + 1)) (Stmt.writtenInitializer initializer ++ rest)
      (Stmt.onLinePart line initializer) rest := by
  unfold forInitializer
  cases initializer with
  | none => exact yields_next_cons (yields_advance yields_pure)
  | some stmt =>
    by_cases simple : stmt.IsSimple
    · have starts := simple.starts shaped rest
      refine yields_next fun token found => ?_
      rw [Stmt.writtenInitializer] at found ⊢
      rw [← found] at starts
      split
      · next semicolon =>
        rw [semicolon] at starts
        cases starts
      · next keyword =>
        rw [keyword] at starts
        cases starts
      · exact yields_bind (complete.expressionStatement stmt rest simple shaped readable) yields_pure
    · cases stmt with
      | varDecl name value =>
        refine yields_next_cons (yields_advance ?_)
        exact yields_bind (complete.varDecl name value rest shaped readable nofun) yields_pure
      | _ => exact absurd (stands _ rfl) simple

theorem clause_complete (complete : Complete line last fuel) (ending : Symbol)
    (expr : Option (Expr Unit)) (rest : List Token.Kind)
    (ends : ending = .semicolon ∨ ending = .rightParen) (shaped : Expr.WellShapedPart expr)
    (readable : Expr.ReadablePart expr) :
    Yields line last (clause (fuel + 1) ending) (Expr.writtenPart [] expr ++ .symbol ending :: rest)
      (Expr.onLinePart line expr) (.symbol ending :: rest) := by
  unfold clause
  cases expr with
  | none => exact yields_nextIs_present yields_pure
  | some value =>
    refine yields_nextIs_absent ?_ (yields_bind (complete.expression value _ (Nat.zero_le _) shaped
      readable ?_) yields_pure)
    · intro found
      have starts := value.starts shaped (.symbol ending :: rest)
      change front (value.written ++ .symbol ending :: rest) = .symbol ending at found
      rw [found] at starts
      obtain rfl | rfl := ends <;> cases starts
    · obtain rfl | rfl := ends <;> exact stops_of_none rfl

/-- A value on the line of its keyword is not left out. -/
theorem yields_returnsNothing {input : List Token.Kind} (starts : (front input).startsExpression) :
    Yields line last (returnsNothing line) input false input := by
  cases input with
  | nil => cases starts
  | cons kind more =>
    have noSemicolon : kind ≠ .symbol .semicolon := by
      rintro rfl
      cases starts
    have noBrace : kind ≠ .symbol .rightBrace := by
      rintro rfl
      cases starts
    have noEnd : kind ≠ .endOfInput := by
      rintro rfl
      cases starts
    refine yields_next_cons ?_
    simp only [noSemicolon, noBrace, noEnd, ne_eq, not_true_eq_false, decide_false, Bool.or_false]
    exact yields_pure

theorem returnValue_complete (complete : Complete line last fuel) (value : Option (Expr Unit)) :
    YieldsRest line last (returnValue (fuel + 1) line) (.returnValue line value) := by
  intro rest shaped readable _
  unfold returnValue
  cases value with
  -- What is left out is told by the `;` in its place.
  | none => exact yields_bind (yields_next_cons yields_pure) (yields_terminator yields_pure)
  | some expr =>
    have starts := expr.starts shaped (.symbol .semicolon :: rest)
    simp only [Stmt.written, Expr.writtenPart, List.tail_cons, List.append_assoc, List.cons_append,
      List.nil_append]
    refine yields_bind (yields_returnsNothing starts) ?_
    refine yields_bind (complete.expression expr _ (Nat.zero_le _) shaped readable
      (stops_of_none rfl)) ?_
    exact yields_terminator yields_pure

/-! ## Loops and branches -/

theorem whileLoop_complete (complete : Complete line last fuel) (condition : Expr Unit)
    (body : Stmt Unit) :
    YieldsRest line last (whileLoop (fuel + 1)) (.whileLoop condition body) := by
  intro rest shaped readable dangling
  obtain ⟨conditionShaped, undeclared, bodyShaped⟩ := shaped
  unfold whileLoop
  simp only [Stmt.written, List.tail_cons, List.cons_append, List.append_assoc]
  refine yields_expect (yields_bind (complete.expression condition _ (Nat.zero_le _) conditionShaped
    readable.1 (stops_of_none rfl)) (yields_expect ?_))
  exact yields_bind (complete.statement body rest undeclared bodyShaped readable.2 dangling)
    yields_pure

theorem forLoop_complete (complete : Complete line last fuel) (initializer : Option (Stmt Unit))
    (condition increment : Option (Expr Unit)) (body : Stmt Unit) :
    YieldsRest line last (forLoop (fuel + 1)) (.forLoop initializer condition increment body) := by
  intro rest shaped readable dangling
  obtain ⟨stands, initializerShaped, conditionShaped, incrementShaped, undeclared, bodyShaped⟩ :=
    shaped
  obtain ⟨initializerReadable, conditionReadable, incrementReadable, bodyReadable⟩ := readable
  unfold forLoop
  simp only [Stmt.written, List.tail_cons, List.cons_append, List.append_assoc]
  refine yields_expect (yields_bind (complete.forInitializer initializer _ stands initializerShaped
    initializerReadable) ?_)
  refine yields_bind (complete.clause .semicolon condition _ (.inl rfl) conditionShaped
    conditionReadable) (yields_expect ?_)
  refine yields_bind (complete.clause .rightParen increment _ (.inr rfl) incrementShaped
    incrementReadable) (yields_expect ?_)
  exact yields_bind (complete.statement body rest undeclared bodyShaped bodyReadable dangling)
    yields_pure

theorem branch_complete (complete : Complete line last fuel) (condition : Expr Unit)
    (thenBranch : Stmt Unit) (elseBranch : Option (Stmt Unit)) :
    YieldsRest line last (branch (fuel + 1)) (.branch condition thenBranch elseBranch) := by
  intro rest shaped readable dangling
  obtain ⟨conditionShaped, thenUndeclared, thenShaped, elseUndeclared, elseShaped⟩ := shaped
  obtain ⟨conditionReadable, thenReadable, elseReadable, closed⟩ := readable
  unfold branch
  cases elseBranch with
  | none =>
    have noElse := dangling trivial
    simp only [Stmt.written, Stmt.writtenPart, List.tail_cons, List.cons_append, List.append_assoc,
      List.nil_append]
    refine yields_expect (yields_bind (complete.expression condition _ (Nat.zero_le _)
      conditionShaped conditionReadable (stops_of_none rfl)) (yields_expect ?_))
    refine yields_bind (complete.statement thenBranch rest thenUndeclared thenShaped thenReadable
      fun _ => noElse) ?_
    -- An `else` that follows would be taken for one of this branch.
    refine yields_next fun token found => ?_
    rw [if_neg (by rw [found]; exact noElse)]
    exact yields_pure
  | some other =>
    simp only [Stmt.written, Stmt.writtenPart, List.tail_cons, List.cons_append, List.append_assoc,
      List.nil_append]
    refine yields_expect (yields_bind (complete.expression condition _ (Nat.zero_le _)
      conditionShaped conditionReadable (stops_of_none rfl)) (yields_expect ?_))
    refine yields_bind (complete.statement thenBranch _ thenUndeclared thenShaped thenReadable
      fun isOpen => absurd isOpen (closed rfl)) ?_
    refine yields_next_cons (yields_advance ?_)
    exact yields_bind (complete.statement other rest elseUndeclared elseShaped elseReadable dangling)
      yields_pure

theorem statement_complete (complete : Complete line last fuel) (stmt : Stmt Unit)
    (rest : List Token.Kind) (undeclared : stmt.declaredName? = none) (shaped : stmt.WellShaped)
    (readable : stmt.Readable) (dangling : stmt.EndsOpen → front rest ≠ .keyword .kwElse) :
    Yields line last (statement (fuel + 1)) (stmt.written ++ rest) (stmt.onLine line) rest := by
  unfold statement
  by_cases simple : stmt.IsSimple
  · have starts := simple.starts shaped rest
    refine yields_next fun token found => ?_
    rw [← found] at starts
    split
    case h_8 => exact complete.expressionStatement stmt rest simple shaped readable
    all_goals
      next keyword =>
      rw [keyword] at starts
      cases starts
  · cases stmt with
    | expression _ | assign _ _ | set _ _ _ => exact absurd trivial simple
    | varDecl _ _ | funDecl _ _ | classDecl _ _ _ => cases undeclared
    | block body =>
      simp only [Stmt.written, List.cons_append, List.append_assoc, List.nil_append]
      refine yields_next_cons (yields_advance ?_)
      exact yields_bind (complete.block body rest shaped readable) yields_pure
    | branch _ _ _ =>
      exact yields_next_cons (yields_advance (complete.branch _ _ _ rest shaped readable dangling))
    | whileLoop _ _ =>
      exact yields_next_cons (yields_advance (complete.whileLoop _ _ rest shaped readable dangling))
    | forLoop _ _ _ _ =>
      exact yields_next_cons (yields_advance
        (complete.forLoop _ _ _ _ rest shaped readable dangling))
    | breakLoop _ => exact yields_next_cons (yields_advance (yields_terminator yields_pure))
    | continueLoop _ => exact yields_next_cons (yields_advance (yields_terminator yields_pure))
    | returnValue _ value =>
      exact yields_next_cons (yields_advance (complete.returnValue value rest shaped readable nofun))

end Reader

end Lox
