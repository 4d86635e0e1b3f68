import Lox.Proofs.Grammar.Productions

/-!
# Soundness of the rules of expressions

Every rule keeps its contract, given the contracts of the rules it calls. An operator's left operand
has been taken before the rule that reads on from it is called, so what these rules take is stated
as an extension of that operand.
-/

namespace Lox

namespace Reader

variable {fuel : Nat}

theorem primary_sound (sound : Sound fuel) :
    Reads (fuel + 1) 1 (primary (fuel + 1)) (·.TakesExpr 10) := by
  intro start ends enough
  unfold primary
  apply ensures_next
  split
  case h_1 | h_2 | h_3 | h_4 | h_5 | h_6 | h_8 =>
    rename_i found
    obtain ⟨takes, shorter⟩ := Cursor.takes_advance ends found (by simp)
    exact ensures_pure takes.toReaches ⟨takes.congr rfl, shorter, Nat.le_refl _, trivial⟩
  case h_7 found =>
    obtain ⟨keyword, shorter⟩ := Cursor.takes_advance ends found (by simp)
    apply ensures_advance
    refine ensures_expect keyword.toReaches fun dotFound => ?_
    obtain ⟨dot, _⟩ := Cursor.takes_advance (keyword.ends ends) dotFound (by simp)
    have front := keyword.trans dot
    refine ensures_identifier front.toReaches fun text nameFound => ?_
    obtain ⟨name, _⟩ := Cursor.takes_advance (front.ends ends) nameFound (by simp)
    have takes := front.trans name
    refine ensures_pure takes.toReaches ⟨takes, ?_, Nat.le_refl _, trivial⟩
    omega
  case h_9 found =>
    obtain ⟨opening, shorter⟩ := Cursor.takes_advance ends found (by simp)
    apply ensures_advance
    refine ensures_bind opening.toReaches (sound.expression _ (opening.ends ends) (by omega)) ?_
    intro inner middle _ taken
    have front := opening.trans taken.toTakes
    refine ensures_expect front.toReaches fun closingFound => ?_
    obtain ⟨closing, _⟩ := Cursor.takes_advance (front.ends ends) closingFound (by simp)
    have takes := front.trans closing
    have := taken.shorter
    exact ensures_pure takes.toReaches ⟨takes, by omega, Nat.le_refl _, taken.shaped⟩
  case h_10 found =>
    obtain ⟨keyword, shorter⟩ := Cursor.takes_advance ends found (by simp)
    apply ensures_advance
    refine ensures_expect keyword.toReaches fun openingFound => ?_
    obtain ⟨opening, _⟩ := Cursor.takes_advance (keyword.ends ends) openingFound (by simp)
    have front := keyword.trans opening
    refine ensures_bind front.toReaches (sound.functionRest _ _ (front.ends ends) (by omega)) ?_
    intro lambda finish _ taken
    have takes := front.trans taken.toTakes
    have := taken.shorter
    exact ensures_pure takes.toReaches ⟨takes, by omega, Nat.le_refl _, taken.shaped⟩
  case h_11 =>
    split
    · exact ensures_fail (.refl start)
    · exact ensures_fail (.refl start)

theorem arguments_sound (sound : Sound fuel) (count : Nat) :
    Reads (fuel + 1) 17 (arguments (fuel + 1) count) fun start exprs finish =>
      start.Takes (Expr.writtenEach exprs) finish ∧ Expr.WellShapedEach exprs ∧ exprs ≠ [] := by
  intro start ends enough
  unfold arguments
  -- The count decides whether an error is recorded first; nothing is taken by that.
  have rest : ∀ here, start.Takes [] here → here.rest = start.rest →
      Ensures start here (do
        let argument ← assignmentExpression fuel
        if ← accept .comma then
          let rest ← arguments fuel (count + 1)
          pure (argument :: rest)
        else pure [argument]) fun exprs finish =>
          start.Takes (Expr.writtenEach exprs) finish ∧ Expr.WellShapedEach exprs ∧ exprs ≠ [] := by
    intro here before same
    refine ensures_bind before.toReaches
      (sound.assignmentExpression _ (before.ends ends) (by rw [same]; omega)) ?_
    intro argument middle _ taken
    have front := before.trans taken.toTakes
    have shorter := taken.shorter
    rw [same] at shorter
    refine ensures_accept (fun commaFound => ?_) (fun _ => ?_)
    · obtain ⟨comma, _⟩ := Cursor.takes_advance (front.ends ends) commaFound (by simp)
      have front := front.trans comma
      refine ensures_bind front.toReaches (sound.arguments _ _ (front.ends ends) (by omega)) ?_
      rintro arguments finish _ ⟨further, shaped, some⟩
      have takes := front.trans further
      refine ensures_pure takes.toReaches
        ⟨takes.congr ?_, ⟨taken.tight, taken.shaped, shaped⟩, List.cons_ne_nil _ _⟩
      rw [Expr.writtenEach, Expr.writtenAfterEach_of_ne_nil some]
      simp
    · refine ensures_pure front.toReaches
        ⟨front.congr ?_, ⟨taken.tight, taken.shaped, trivial⟩, List.cons_ne_nil _ _⟩
      simp [Expr.writtenEach, Expr.writtenAfterEach]
  dsimp only
  split
  · apply ensures_record
    exact rest _ (.ofErrors (.record _ _) (by simp [Cursor.record])) rfl
  · exact rest _ (.refl start) rfl

theorem calls_sound (sound : Sound fuel) (callee : Expr Unit) (shaped : callee.WellShaped)
    (tight : 10 ≤ callee.tightness) :
    Reads (fuel + 1) 1 (calls (fuel + 1) callee) (·.Extends 10 callee) := by
  intro start ends enough
  unfold calls
  apply ensures_next
  split
  case h_1 found =>
    obtain ⟨opening, shorter⟩ := Cursor.takes_advance ends found (by simp)
    apply ensures_advance
    refine ensures_unless (fun exprs finish => start.advance.Takes (Expr.writtenEach exprs) finish ∧
        Expr.WellShapedEach exprs) opening.toReaches
      (fun _ => (sound.arguments 0 _ (opening.ends ends) (by omega)).rebase (.refl _)
        fun _ _ _ taken => ⟨taken.1, taken.2.1⟩)
      (fun _ => ⟨.refl _, trivial⟩) ?_
    intro arguments middle _ taken
    have front := opening.trans taken.1
    refine ensures_expect front.toReaches fun closingFound => ?_
    obtain ⟨closing, _⟩ := Cursor.takes_advance (front.ends ends) closingFound (by simp)
    have takes := front.trans closing
    have := taken.1.length
    refine (sound.calls (.call callee _ arguments) ⟨tight, shaped, taken.2⟩ (Nat.le_refl _) _
      (takes.ends ends) (by omega)).rebase takes.toReaches fun expr finish _ more =>
        more.before takes ?_
    simp [Expr.written]
  case h_2 found =>
    obtain ⟨dot, shorter⟩ := Cursor.takes_advance ends found (by simp)
    apply ensures_advance
    refine ensures_identifier dot.toReaches fun text nameFound => ?_
    obtain ⟨name, _⟩ := Cursor.takes_advance (dot.ends ends) nameFound (by simp)
    have takes := dot.trans name
    exact (sound.calls (.property callee ⟨text, _⟩) ⟨tight, shaped⟩ (Nat.le_refl _) _
      (takes.ends ends) (by omega)).rebase takes.toReaches fun expr finish _ more =>
        more.before takes rfl
  case h_3 =>
    exact ensures_pure (.refl start) ⟨⟨[], by simp, .refl start⟩, tight, shaped⟩

theorem unary_sound (sound : Sound fuel) :
    Reads (fuel + 1) 2 (unary (fuel + 1)) (·.TakesExpr 9) := by
  intro start ends enough
  unfold unary
  apply ensures_next
  split
  case h_1 found | h_2 found =>
    obtain ⟨operator, shorter⟩ := Cursor.takes_advance ends found (by simp)
    apply ensures_advance
    refine ensures_bind operator.toReaches (sound.unary _ (operator.ends ends) (by omega)) ?_
    intro operand finish _ taken
    have takes := operator.trans taken.toTakes
    have := taken.shorter
    exact ensures_pure takes.toReaches
      ⟨takes, by omega, Nat.le_refl _, taken.tight, taken.shaped⟩
  case h_3 =>
    refine ensures_bind (.refl start) (sound.primary _ ends (by omega)) ?_
    intro callee middle reached taken
    have := taken.shorter
    refine (sound.calls callee taken.shaped taken.tight _ (reached.ends ends) (by omega)).rebase
      reached fun expr finish _ further => ?_
    have whole := taken.extend further
    exact ⟨whole.toTakes, whole.shorter, Nat.le_of_succ_le whole.tight, whole.shaped⟩

theorem operand_sound (sound : Sound fuel) (level : Level) :
    Reads (fuel + 1) (19 - 2 * level.tightness) (operand (fuel + 1) level)
      (·.TakesExpr (level.tightness + 1)) := by
  intro start ends enough
  have bounds := level.tightness_bounds
  unfold operand
  split
  case h_1 tighter found =>
    have tightness := Level.tightness_tighter found
    rw [← tightness]
    exact sound.leveled tighter start ends (by omega)
  case h_2 found =>
    rw [Level.tightness_tightest found] at enough ⊢
    exact sound.unary start ends (by omega)

theorem operations_sound (sound : Sound fuel) (level : Level) (left : Expr Unit)
    (shaped : left.WellShaped) (tight : level.tightness ≤ left.tightness) :
    Reads (fuel + 1) 1 (operations (fuel + 1) level left) (·.Extends level.tightness left) := by
  intro start ends enough
  have bounds := level.tightness_bounds
  unfold operations
  apply ensures_next
  split
  case h_1 => exact ensures_pure (.refl start) ⟨⟨[], by simp, .refl start⟩, tight, shaped⟩
  case h_2 operator found =>
    obtain ⟨rfl, spelled⟩ := Level.operator?_eq_some found
    obtain ⟨written, shorter⟩ :=
      Cursor.takes_advance ends spelled InfixOperator.written_ne_endOfInput
    apply ensures_advance
    refine ensures_bind written.toReaches
      (sound.operand _ _ (written.ends ends) (by omega)) ?_
    intro right middle _ taken
    have takes := written.trans taken.toTakes
    have := taken.shorter
    refine (sound.operations _ (operator.apply _ left right)
      (InfixOperator.wellShaped_apply tight taken.tight shaped taken.shaped)
      (Nat.le_of_eq InfixOperator.tightness_apply.symm) _ (takes.ends ends) (by omega)).rebase
        takes.toReaches fun expr finish _ further => further.before takes ?_
    exact InfixOperator.written_apply

theorem leveled_sound (sound : Sound fuel) (level : Level) :
    Reads (fuel + 1) (20 - 2 * level.tightness) (leveled (fuel + 1) level)
      (·.TakesExpr level.tightness) := by
  intro start ends enough
  have bounds := level.tightness_bounds
  unfold leveled
  refine ensures_bind (.refl start) (sound.operand level start ends (by omega)) ?_
  intro first middle reached taken
  have := taken.shorter
  exact (sound.operations level first taken.shaped (Nat.le_of_succ_le taken.tight) _
    (reached.ends ends) (by omega)).rebase reached fun expr finish _ further =>
      taken.extend further

theorem ternary_sound (sound : Sound fuel) :
    Reads (fuel + 1) 15 (ternary (fuel + 1)) (·.TakesExpr 2) := by
  intro start ends enough
  unfold ternary
  refine ensures_bind (.refl start)
    (sound.leveled .or start ends (by simp only [Level.tightness]; omega)) ?_
  intro condition middle reached taken
  have := taken.shorter
  apply ensures_next
  refine ensures_accept (fun questionFound => ?_) (fun _ => ?_)
  · obtain ⟨question, _⟩ := Cursor.takes_advance (reached.ends ends) questionFound (by simp)
    have front := taken.toTakes.trans question
    refine ensures_nextIs (fun _ => ensures_fail front.toReaches) (fun _ => ?_)
    refine ensures_bind front.toReaches (sound.ternary _ (front.ends ends) (by omega)) ?_
    intro thenBranch afterThen _ thenTaken
    have front := front.trans thenTaken.toTakes
    have := thenTaken.shorter
    refine ensures_expect front.toReaches fun colonFound => ?_
    obtain ⟨colon, _⟩ := Cursor.takes_advance (front.ends ends) colonFound (by simp)
    have front := front.trans colon
    refine ensures_bind front.toReaches (sound.ternary _ (front.ends ends) (by omega)) ?_
    intro elseBranch finish _ elseTaken
    have takes := front.trans elseTaken.toTakes
    have := elseTaken.shorter
    exact ensures_pure takes.toReaches ⟨takes.congr (by simp [Expr.written]), by omega,
      Nat.le_refl _, taken.tight, thenTaken.tight, elseTaken.tight, taken.shaped,
      thenTaken.shaped, elseTaken.shaped⟩
  · exact ensures_pure reached ⟨taken.toTakes, taken.shorter, Nat.le_of_succ_le taken.tight, taken.shaped⟩

theorem assignmentExpression_sound (sound : Sound fuel) :
    Reads (fuel + 1) 16 (assignmentExpression (fuel + 1)) (·.TakesExpr 1) := by
  intro start ends enough
  unfold assignmentExpression
  refine ensures_bind (.refl start) (sound.ternary start ends (by omega)) ?_
  intro expr middle reached taken
  have := taken.shorter
  apply ensures_next
  refine ensures_accept (fun equalFound => ?_) (fun _ => ?_)
  · obtain ⟨equal, _⟩ := Cursor.takes_advance (reached.ends ends) equalFound (by simp)
    have front := taken.toTakes.trans equal
    refine ensures_bind front.toReaches
      (sound.assignmentExpression _ (front.ends ends) (by omega)) ?_
    intro value finish _ valueTaken
    have takes := front.trans valueTaken.toTakes
    have := valueTaken.shorter
    split
    · exact ensures_pure takes.toReaches
        ⟨takes, by omega, Nat.le_refl _, valueTaken.tight, valueTaken.shaped⟩
    · exact ensures_failAt takes.toReaches
  · exact ensures_pure reached
      ⟨taken.toTakes, taken.shorter, Nat.le_of_succ_le taken.tight, taken.shaped⟩

theorem furtherOperands_sound (sound : Sound fuel) :
    Reads (fuel + 1) 1 (furtherOperands (fuel + 1)) fun start exprs finish =>
      start.Takes (Expr.writtenAfterEach exprs) finish ∧ Expr.WellShapedEach exprs ∧
        (start.next.kind = .symbol .comma → exprs ≠ []) := by
  intro start ends enough
  unfold furtherOperands
  refine ensures_accept (fun commaFound => ?_) (fun missing => ?_)
  · obtain ⟨comma, _⟩ := Cursor.takes_advance ends commaFound (by simp)
    refine ensures_bind comma.toReaches
      (sound.assignmentExpression _ (comma.ends ends) (by omega)) ?_
    intro operand middle _ taken
    have front := comma.trans taken.toTakes
    have := taken.shorter
    refine ensures_bind front.toReaches
      (sound.furtherOperands _ (front.ends ends) (by omega)) ?_
    rintro operands finish _ ⟨further, shaped, _⟩
    have takes := front.trans further
    exact ensures_pure takes.toReaches ⟨takes, ⟨taken.tight, taken.shaped, shaped⟩,
      fun _ => List.cons_ne_nil _ _⟩
  · exact ensures_pure (.refl start) ⟨.refl start, trivial, fun found => absurd found missing⟩

theorem operands_sound (sound : Sound fuel) (first : Expr Unit) (shaped : first.WellShaped)
    (tight : 1 ≤ first.tightness) :
    Reads (fuel + 1) 2 (operands (fuel + 1) first) fun start expr finish =>
      start.Extends 0 first expr finish ∧ (2 ≤ first.tightness → expr.IsOperandList) := by
  intro start ends enough
  unfold operands
  refine ensures_nextIs (fun commaFound => ?_) (fun _ => ?_)
  · refine ensures_bind (.refl start) (sound.furtherOperands start ends (by omega)) ?_
    rintro operands finish reached ⟨takes, operandsShaped, some⟩
    refine ensures_pure reached ⟨⟨⟨_, rfl, takes⟩, Nat.zero_le _, ?_, tight, shaped, operandsShaped⟩,
      id⟩
    have := List.length_pos_iff.mpr (some commaFound)
    simp only [List.length_cons]
    omega
  · exact ensures_pure (.refl start) ⟨⟨⟨[], by simp, .refl start⟩, Nat.zero_le _, shaped⟩,
      Expr.isOperandList_of_tight⟩

theorem expression_sound (sound : Sound fuel) :
    Reads (fuel + 1) 17 (expression (fuel + 1)) (·.TakesExpr 0) := by
  intro start ends enough
  unfold expression
  refine ensures_bind (.refl start) (sound.assignmentExpression start ends (by omega)) ?_
  intro first middle reached taken
  have := taken.shorter
  exact (sound.operands first taken.shaped taken.tight _ (reached.ends ends) (by omega)).rebase
    reached fun expr finish _ further => taken.extend further.1

end Reader

end Lox
