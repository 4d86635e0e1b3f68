import Lox.Proofs.Grammar.Inversions

/-!
# Completeness of the rules of expressions

Every rule reads back what it derives, given that the rules it calls do. Operations and calls are
read one after the other, each with what has been read so far as its left operand.
-/

namespace Lox

open Token.Kind

namespace Reader

variable {line last fuel : Nat}

theorem primary_complete (complete : Complete line last fuel) (expr : Expr Unit)
    (rest : List Token.Kind) (primary : expr.IsPrimary) (shaped : expr.WellShaped)
    (readable : expr.Readable) :
    Yields line last (Reader.primary (fuel + 1)) (expr.written ++ rest) (expr.onLine line) rest := by
  unfold Reader.primary
  cases expr with
  | literal value =>
    rcases value with _ | (_ | _) | _ | _
    all_goals exact yields_next_cons (yields_advance yields_pure)
  | group inner =>
    simp only [Expr.written, List.cons_append, List.append_assoc, List.nil_append]
    refine yields_next_cons (yields_advance ?_)
    refine yields_bind (complete.expression inner _ (Nat.zero_le _) shaped readable
      (stops_of_none rfl)) ?_
    exact yields_expect yields_pure
  | reference name binding => exact yields_next_cons (yields_advance yields_pure)
  | function lambda =>
    refine yields_next_cons (yields_advance (yields_expect ?_))
    exact yields_bind (complete.functionRest _ lambda rest shaped readable) yields_pure
  | thisInstance _ binding => exact yields_next_cons (yields_advance yields_pure)
  | superMethod _ binding method =>
    exact yields_next_cons (yields_advance (yields_expect (yields_identifier yields_pure)))
  | _ => exact primary.elim

theorem arguments_complete (complete : Complete line last fuel) (count : Nat)
    (exprs : List (Expr Unit)) (rest : List Token.Kind) (some : exprs ≠ [])
    (few : count + exprs.length ≤ maximumArity) (shaped : Expr.WellShapedEach exprs)
    (readable : Expr.ReadableEach exprs) :
    Yields line last (arguments (fuel + 1) count) (Expr.writtenEach exprs ++
      .symbol .rightParen :: rest) (Expr.onLineEach line exprs) (.symbol .rightParen :: rest) := by
  cases exprs with
  | nil => exact absurd rfl some
  | cons expr others =>
    obtain ⟨tight, exprShaped, othersShaped⟩ := shaped
    rw [List.length_cons] at few
    unfold arguments
    rw [if_neg (by omega)]
    simp only [Expr.writtenEach, List.append_assoc]
    cases others with
    | nil =>
      refine yields_bind (complete.assignmentExpression expr _ tight exprShaped readable.1
        (stops_of_none rfl)) ?_
      exact yields_accept_absent (by simp [Expr.writtenAfterEach]) yields_pure
    | cons other more =>
      rw [Expr.writtenAfterEach_of_ne_nil (List.cons_ne_nil _ _), List.cons_append]
      refine yields_bind (complete.assignmentExpression expr _ tight exprShaped readable.1
        (stops_cons rfl (by decide))) ?_
      refine yields_accept_present (yields_bind (complete.arguments (count + 1) (other :: more) rest
        (List.cons_ne_nil _ _) (by omega) othersShaped readable.2) ?_)
      exact yields_pure

theorem calls_complete (complete : Complete line last fuel) (callee expr : Expr Unit)
    (kinds rest : List Token.Kind) (calls : Expr.Calls callee kinds expr) (stops : Stops 10 rest) :
    Yields line last (Reader.calls (fuel + 1) (callee.onLine line)) (kinds ++ rest)
      (expr.onLine line) rest := by
  unfold Reader.calls
  cases calls with
  | none =>
    refine yields_next fun token found => ?_
    have noCall : front rest ≠ .symbol .leftParen := stops.front_ne rfl (Nat.le_refl _)
    have noProperty : front rest ≠ .symbol .dot := stops.front_ne rfl (Nat.le_refl _)
    rw [List.nil_append] at found
    split
    · next paren => exact absurd (found.symm.trans paren) noCall
    · next dot => exact absurd (found.symm.trans dot) noProperty
    · exact yields_pure
  | @call _ _ _ arguments kinds shaped readable few further =>
    simp only [List.cons_append, List.append_assoc]
    refine yields_next_cons (yields_advance ?_)
    cases arguments with
    | nil =>
      refine yields_nextIs_present (yields_expect ?_)
      exact complete.calls _ _ _ _ further stops
    | cons argument others =>
      refine yields_nextIs_absent ?_ ?_
      · intro closing
        have starts := argument.starts shaped.2.1 (Expr.writtenAfterEach others ++
          .symbol .rightParen :: (kinds ++ rest))
        rw [Expr.writtenEach, List.append_assoc] at closing
        rw [closing] at starts
        cases starts
      · refine yields_bind (complete.arguments 0 _ _ (List.cons_ne_nil _ _)
          (by rw [Nat.zero_add]; exact few) shaped readable) ?_
        exact yields_expect (complete.calls _ _ _ _ further stops)
  | property further =>
    exact yields_next_cons (yields_advance (yields_identifier
      (complete.calls _ _ _ _ further stops)))

theorem unary_complete (complete : Complete line last fuel) :
    YieldsExpr line last 9 (unary (fuel + 1)) := by
  intro expr rest tight shaped readable stops
  unfold unary
  by_cases tighter : 10 ≤ expr.tightness
  · obtain ⟨first, kinds, split⟩ := expr.exists_splitsCalls tighter shaped readable
    rw [split.written, List.append_assoc]
    have starts := split.primary.starts (kinds ++ rest)
    refine yields_next fun token found => ?_
    rw [← found] at starts
    split
    · next bang =>
      rw [bang] at starts
      cases starts
    · next minus =>
      rw [minus] at starts
      cases starts
    · refine yields_bind (complete.primary first _ split.primary split.shaped split.readable) ?_
      exact complete.calls _ _ _ _ split.calls (stops.mono (by decide))
  · obtain ⟨operator, _, operand, rfl⟩ := Expr.eq_unary (by omega : expr.tightness = 9)
    have inner := complete.unary operand rest shaped.1 shaped.2 readable stops
    cases operator with
    | not => exact yields_next_cons (yields_advance (yields_bind inner yields_pure))
    | negate => exact yields_next_cons (yields_advance (yields_bind inner yields_pure))

theorem operand_complete (complete : Complete line last fuel) (level : Level) :
    YieldsExpr line last (level.tightness + 1) (operand (fuel + 1) level) := by
  unfold operand
  split
  case h_1 tighter found =>
    rw [← Level.tightness_tighter found]
    exact complete.leveled tighter
  case h_2 found =>
    rw [Level.tightness_tightest found]
    exact complete.unary

theorem operations_complete (complete : Complete line last fuel) (level : Level)
    (left expr : Expr Unit) (kinds rest : List Token.Kind)
    (operations : Expr.Operations level left kinds expr) (stops : Stops level.tightness rest) :
    Yields line last (Reader.operations (fuel + 1) level (left.onLine line)) (kinds ++ rest)
      (expr.onLine line) rest := by
  unfold Reader.operations
  cases operations with
  | none =>
    refine yields_next fun token found => ?_
    rw [found, List.nil_append, Level.operator?_of_stops stops]
    exact yields_pure
  | @more operator operatorLine _ right _ kinds same tight shaped readable further =>
    subst same
    simp only [List.cons_append, List.append_assoc]
    refine yields_next_cons ?_
    rw [Level.operator?_written]
    refine yields_advance (yields_bind (complete.operand _ right (kinds ++ rest) tight shaped
      readable ?_) ?_)
    · cases further with
      | none => exact stops.mono (Nat.le_succ _)
      | more same => exact stops_cons (InfixOperator.continues?_written _) (by rw [same]; omega)
    · have applied := complete.operations _ _ _ _ rest further stops
      rw [InfixOperator.onLine_apply] at applied
      exact applied

theorem leveled_complete (complete : Complete line last fuel) (level : Level) :
    YieldsExpr line last level.tightness (leveled (fuel + 1) level) := by
  intro expr rest tight shaped readable stops
  obtain ⟨first, kinds, split⟩ := expr.exists_splitsAt level tight shaped readable
  unfold leveled
  rw [split.written, List.append_assoc]
  refine yields_bind (complete.operand level first (kinds ++ rest) split.tight split.shaped
    split.readable ?_) (complete.operations _ _ _ _ rest split.operations stops)
  cases split.operations with
  | none => exact stops.mono (Nat.le_succ _)
  | more same => exact stops_cons (InfixOperator.continues?_written _) (by rw [same]; omega)

theorem ternary_complete (complete : Complete line last fuel) :
    YieldsExpr line last 2 (ternary (fuel + 1)) := by
  intro expr rest tight shaped readable stops
  unfold ternary
  by_cases tighter : 3 ≤ expr.tightness
  · refine yields_bind (complete.leveled .or expr rest tighter shaped readable
      (stops.mono (by decide))) ?_
    refine yields_next fun token _ => ?_
    exact yields_accept_absent (stops.front_ne rfl (Nat.le_refl _)) yields_pure
  · obtain ⟨_, rfl⟩ | ⟨_, _, _, rfl⟩ | ⟨_, condition, thenBranch, elseBranch, rfl⟩ :=
      Expr.loose_cases (Nat.not_le.mp tighter)
    case inl | inr.inl => simp [Expr.tightness] at tight
    obtain ⟨conditionTight, thenTight, elseTight, conditionShaped, thenShaped, elseShaped⟩ := shaped
    obtain ⟨conditionReadable, thenReadable, elseReadable⟩ := readable
    simp only [Expr.written, List.append_assoc, List.cons_append]
    refine yields_bind (complete.leveled .or condition _ conditionTight conditionShaped
      conditionReadable (stops_cons rfl (by decide))) ?_
    refine yields_next_cons (yields_accept_present (yields_nextIs_absent ?_ ?_))
    · intro colon
      have starts := thenBranch.starts thenShaped (.symbol .colon :: (elseBranch.written ++ rest))
      rw [colon] at starts
      cases starts
    · refine yields_bind (complete.ternary thenBranch _ thenTight thenShaped thenReadable
        (stops_of_none rfl)) (yields_expect ?_)
      exact yields_bind (complete.ternary elseBranch rest elseTight elseShaped elseReadable stops)
        yields_pure

theorem assignmentExpression_complete (complete : Complete line last fuel) :
    YieldsExpr line last 1 (assignmentExpression (fuel + 1)) := by
  intro expr rest tight shaped readable stops
  unfold assignmentExpression
  by_cases tighter : 2 ≤ expr.tightness
  · refine yields_bind (complete.ternary expr rest tighter shaped readable
      (stops.mono (by decide))) ?_
    refine yields_next fun token _ => ?_
    exact yields_accept_absent (stops.front_ne rfl (Nat.le_refl _)) yields_pure
  · obtain ⟨_, rfl⟩ | ⟨name, _, value, rfl⟩ | ⟨_, _, _, _, rfl⟩ :=
      Expr.loose_cases (by omega : expr.tightness < 3)
    case inl => simp [Expr.tightness] at tight
    case inr.inr => simp [Expr.tightness] at tighter
    have named := complete.ternary (.reference name ()) (.symbol .equal :: (value.written ++ rest))
      (by simp [Expr.tightness]) trivial trivial (stops_cons rfl (by decide))
    refine yields_bind named (yields_next_cons (yields_accept_present ?_))
    exact yields_bind (complete.assignmentExpression value rest shaped.1 shaped.2 readable stops)
      yields_pure

theorem furtherOperands_complete (complete : Complete line last fuel) (others : List (Expr Unit))
    (rest : List Token.Kind) (shaped : Expr.WellShapedEach others)
    (readable : Expr.ReadableEach others) (stops : Stops 0 rest) :
    Yields line last (furtherOperands (fuel + 1)) (Expr.writtenAfterEach others ++ rest)
      (Expr.onLineEach line others) rest := by
  unfold furtherOperands
  cases others with
  | nil => exact yields_accept_absent (stops.front_ne rfl (Nat.le_refl _)) yields_pure
  | cons operand more =>
    obtain ⟨tight, operandShaped, moreShaped⟩ := shaped
    simp only [Expr.writtenAfterEach, List.cons_append, List.append_assoc]
    refine yields_accept_present (yields_bind (complete.assignmentExpression operand _ tight
      operandShaped readable.1 ?_) ?_)
    · cases more with
      | nil => exact stops.mono (Nat.zero_le _)
      | cons _ _ => exact stops_cons rfl (by decide)
    · exact yields_bind (complete.furtherOperands more rest moreShaped readable.2 stops) yields_pure

theorem operands_complete (complete : Complete line last fuel) (first : Expr Unit)
    (others : List (Expr Unit)) (rest : List Token.Kind) (shaped : Expr.WellShapedEach others)
    (readable : Expr.ReadableEach others) (stops : Stops 0 rest) :
    Yields line last (operands (fuel + 1) first) (Expr.writtenAfterEach others ++ rest)
      (if others = [] then first else .comma (first :: Expr.onLineEach line others)) rest := by
  unfold operands
  cases others with
  | nil => exact yields_nextIs_absent (stops.front_ne rfl (Nat.le_refl _)) yields_pure
  | cons operand more =>
    rw [if_neg (List.cons_ne_nil _ _)]
    refine yields_nextIs_present ?_
    exact yields_bind (complete.furtherOperands _ rest shaped readable stops) yields_pure

/-- The operands of an expression, as the rules for operands take it apart: a single one, or those
that the commas are between. -/
theorem exists_operands (expr : Expr Unit) (shaped : expr.WellShaped) (readable : expr.Readable) :
    ∃ (first : Expr Unit) (others : List (Expr Unit)),
      expr.written = first.written ++ Expr.writtenAfterEach others ∧
      (if others = [] then first.onLine line
        else .comma (first.onLine line :: Expr.onLineEach line others)) = expr.onLine line ∧
      1 ≤ first.tightness ∧ (expr.IsOperandList → 2 ≤ first.tightness) ∧ first.WellShaped ∧
      first.Readable ∧ Expr.WellShapedEach others ∧ Expr.ReadableEach others := by
  by_cases tight : 1 ≤ expr.tightness
  · refine ⟨expr, [], by simp [Expr.writtenAfterEach], rfl, tight, fun list => ?_, shaped, readable,
      trivial, trivial⟩
    unfold Expr.IsOperandList at list
    split at list
    · simp [Expr.tightness] at tight
    · exact list
  · obtain ⟨operands, rfl⟩ | ⟨_, _, _, rfl⟩ | ⟨_, _, _, _, rfl⟩ :=
      Expr.loose_cases (by omega : expr.tightness < 3)
    case inr.inl | inr.inr => simp [Expr.tightness] at tight
    cases operands with
    | nil => exact absurd shaped.1 (by simp)
    | cons first rest =>
      cases rest with
      | nil => exact absurd shaped.1 (by simp)
      | cons second others =>
        obtain ⟨_, firstTight, firstShaped, othersShaped⟩ := shaped
        exact ⟨first, second :: others, rfl, rfl, firstTight, id, firstShaped, readable.1,
          othersShaped, readable.2⟩

theorem stops_writtenAfterEach {others : List (Expr Unit)} {rest : List Token.Kind}
    (stops : Stops 0 rest) : Stops 1 (Expr.writtenAfterEach others ++ rest) := by
  cases others with
  | nil => exact stops.mono (Nat.zero_le _)
  | cons _ _ => exact stops_cons rfl (by decide)

theorem expression_complete (complete : Complete line last fuel) :
    YieldsExpr line last 0 (expression (fuel + 1)) := by
  intro expr rest _ shaped readable stops
  obtain ⟨first, others, written, made, tight, _, firstShaped, firstReadable, othersShaped,
    othersReadable⟩ := exists_operands expr shaped readable
  unfold expression
  rw [written, List.append_assoc, ← made]
  refine yields_bind (complete.assignmentExpression first _ tight firstShaped firstReadable
    (stops_writtenAfterEach stops)) ?_
  exact complete.operands _ others rest othersShaped othersReadable stops

end Reader

end Lox
