import Lox.Proofs.Grammar.Productions

/-!
# Soundness of the rules of statements

A statement is taken without its keyword by the rule it is left to. The tokens of an expression that
turns out to be the target of an assignment were taken before the equals sign was seen.
-/

namespace Lox

namespace Reader

variable {fuel : Nat}

/-- An expression that becomes a target is written as before. -/
theorem ensures_target {pending : Expr Unit} {equals : Token} {start here : Cursor}
    (reached : start.Reaches here) (shaped : pending.WellShaped) :
    Ensures start here (target pending equals) fun target finish =>
      finish = here ∧ target.written = pending.written ∧ target.WellShaped := by
  unfold target
  split
  · exact ensures_pure reached ⟨rfl, rfl, trivial⟩
  · exact ensures_pure reached ⟨rfl, rfl, shaped⟩
  · exact ensures_failAt reached

theorem assignments_sound (sound : Sound fuel) (pending : Expr Unit) (start : Cursor)
    (ends : start.Ends) (shaped : pending.WellShaped) (found : start.next.kind = .symbol .equal)
    (enough : 32 * start.rest.length + 1 ≤ fuel + 1) :
    Ensures start start (assignments (fuel + 1) pending) fun (targets, value) finish =>
      (∃ kinds, Target.writtenEach targets ++ value.written = pending.written ++ kinds ∧
        start.Takes kinds finish) ∧ targets ≠ [] ∧ Target.WellShapedEach targets ∧
          2 ≤ value.tightness ∧ value.WellShaped := by
  unfold assignments
  obtain ⟨equal, _⟩ := Cursor.takes_advance ends found (by simp)
  apply ensures_advance
  refine ensures_bind equal.toReaches (ensures_target (.refl _) shaped) ?_
  rintro target _ _ ⟨rfl, spelled, targetShaped⟩
  refine ensures_bind equal.toReaches (sound.ternary _ (equal.ends ends) (by omega)) ?_
  intro following middle _ taken
  have front := equal.trans taken.toTakes
  have := taken.shorter
  refine ensures_nextIs (fun nextFound => ?_) (fun _ => ?_)
  · refine ensures_bind front.toReaches (sound.assignments following _ (front.ends ends)
      taken.shaped nextFound (by omega)) ?_
    rintro ⟨targets, value⟩ finish _ ⟨⟨kinds, chain, takes⟩, _, targetsShaped, valueShaped⟩
    refine ensures_pure (front.toReaches.trans takes.toReaches) ⟨⟨_, ?_, front.trans takes⟩,
      List.cons_ne_nil _ _, ⟨targetShaped, targetsShaped⟩, valueShaped⟩
    rw [Target.writtenEach, List.append_assoc, List.cons_append, chain, spelled]
    simp
  · refine ensures_pure front.toReaches ⟨⟨_, ?_, front⟩, List.cons_ne_nil _ _,
      ⟨targetShaped, trivial⟩, taken.tight, taken.shaped⟩
    simp [Target.writtenEach, spelled]

/-- The statement that a chain of assignments makes. -/
theorem written_assignment (targets : List (Target Unit)) (value : Expr Unit) :
    (assignment targets value).written =
      Target.writtenEach targets ++ value.written ++ [.symbol .semicolon] := by
  unfold assignment
  split
  · simp [Stmt.written, Target.writtenEach, Target.written]
  · rfl

theorem wellShaped_assignment {targets : List (Target Unit)} {value : Expr Unit}
    (some : targets ≠ []) (targetsShaped : Target.WellShapedEach targets)
    (tight : 2 ≤ value.tightness) (shaped : value.WellShaped) :
    (assignment targets value).WellShaped ∧ (assignment targets value).IsSimple := by
  unfold assignment
  split
  · exact ⟨⟨targetsShaped.1.1, targetsShaped.1.2, tight, shaped⟩, trivial⟩
  · next several =>
    refine ⟨⟨?_, targetsShaped, tight, shaped⟩, trivial⟩
    unfold Target.IsChain
    split
    · exact some rfl
    · exact several _ _ rfl
    · trivial

theorem expressionStatement_sound (sound : Sound fuel) :
    Reads (fuel + 1) 16 (expressionStatement (fuel + 1)) fun start stmt finish =>
      start.TakesStmt stmt finish ∧ stmt.IsSimple := by
  intro start ends enough
  unfold expressionStatement
  refine ensures_bind (.refl start) (sound.ternary start ends (by omega)) ?_
  intro first middle reached taken
  have := taken.shorter
  refine ensures_nextIs (fun equalFound => ?_) (fun _ => ?_)
  · refine ensures_bind reached (sound.assignments first middle (reached.ends ends) taken.shaped
      equalFound (by omega)) ?_
    rintro ⟨targets, value⟩ after _ ⟨⟨kinds, chain, further⟩, some, targetsShaped, tight, shaped⟩
    have front := taken.toTakes.trans further
    refine ensures_terminator (front.ends ends) fun finish ended => ?_
    have takes := front.trans ended
    obtain ⟨assignmentShaped, simple⟩ := wellShaped_assignment some targetsShaped tight shaped
    refine ensures_pure takes.toReaches ⟨⟨takes.congr ?_, ?_, assignmentShaped⟩, simple⟩
    · rw [written_assignment, chain]
      simp
    · have := further.length
      have := ended.length
      omega
  · refine ensures_bind reached (sound.operands first taken.shaped
      (Nat.le_of_succ_le taken.tight) _ (reached.ends ends) (by omega)) ?_
    rintro expr after _ ⟨further, list⟩
    have whole := taken.extend further
    refine ensures_terminator (whole.ends ends) fun finish ended => ?_
    have takes := whole.toTakes.trans ended
    refine ensures_pure takes.toReaches
      ⟨⟨takes.congr (by simp [Stmt.written]), ?_, list taken.tight, whole.shaped⟩, trivial⟩
    have := whole.shorter
    have := ended.length
    omega

theorem clause_sound (sound : Sound fuel) (ending : Symbol) :
    Reads (fuel + 1) 18 (clause (fuel + 1) ending) fun start expr finish =>
      start.Takes (Expr.writtenPart [] expr) finish ∧ Expr.WellShapedPart expr := by
  intro start ends enough
  unfold clause
  refine ensures_nextIs (fun _ => ensures_pure (.refl start) ⟨.refl start, trivial⟩) (fun _ => ?_)
  refine ensures_bind (.refl start) (sound.expression start ends (by omega)) ?_
  intro expr finish reached taken
  exact ensures_pure reached ⟨taken.toTakes, taken.shaped⟩

theorem ensures_returnsNothing {line : Nat} {start here : Cursor} (reached : start.Reaches here) :
    Ensures start here (returnsNothing line) fun _ finish => here = finish :=
  ⟨reached, rfl⟩

theorem returnValue_sound (sound : Sound fuel) (line : Nat) :
    Reads (fuel + 1) 18 (returnValue (fuel + 1) line) fun start stmt finish =>
      start.TakesRest (.keyword .kwReturn) stmt finish ∧ stmt.declaredName? = none := by
  intro start ends enough
  unfold returnValue
  refine ensures_bind (.refl start) (ensures_returnsNothing (.refl start)) ?_
  rintro nothing _ _ rfl
  split
  · refine ensures_terminator ends fun finish ended => ?_
    exact ensures_pure ended.toReaches ⟨⟨⟨_, rfl, ended.congr rfl⟩, trivial⟩, rfl⟩
  · refine ensures_bind (.refl start) (sound.expression start ends (by omega)) ?_
    intro value middle reached taken
    refine ensures_terminator (reached.ends ends) fun finish ended => ?_
    have takes := taken.toTakes.trans ended
    refine ensures_pure takes.toReaches ⟨⟨⟨_, rfl, takes.congr ?_⟩, taken.shaped⟩, rfl⟩
    simp [Expr.writtenPart]

/-- A condition in parentheses, which is behind `if` as it is behind `while`. -/
theorem ensures_condition (sound : Sound fuel) {start : Cursor} {before after : Place}
    {continuation : Expr Unit → Reader β} {post : β → Cursor → Prop} (ends : start.Ends)
    (enough : 32 * start.rest.length ≤ fuel)
    (further : ∀ condition middle, condition.WellShaped → middle.rest.length < start.rest.length →
      start.Takes ([.symbol .leftParen] ++ condition.written ++ [.symbol .rightParen]) middle →
        Ensures start middle (continuation condition) post) :
    Ensures start start (expect .leftParen before >>= fun _ => expression fuel >>= fun condition =>
      expect .rightParen after >>= fun _ => continuation condition) post := by
  refine ensures_expect (.refl start) fun openingFound => ?_
  obtain ⟨opening, _⟩ := Cursor.takes_advance ends openingFound (by simp)
  refine ensures_bind opening.toReaches (sound.expression _ (opening.ends ends) (by omega)) ?_
  intro condition middle _ taken
  have front := opening.trans taken.toTakes
  have := taken.shorter
  refine ensures_expect front.toReaches fun closingFound => ?_
  obtain ⟨closing, _⟩ := Cursor.takes_advance (front.ends ends) closingFound (by simp)
  exact further condition _ taken.shaped (by omega) (front.trans closing)

theorem whileLoop_sound (sound : Sound fuel) :
    Reads (fuel + 1) 1 (whileLoop (fuel + 1)) fun start stmt finish =>
      start.TakesRest (.keyword .kwWhile) stmt finish ∧ stmt.declaredName? = none := by
  intro start ends enough
  unfold whileLoop
  refine ensures_condition sound ends (by omega) fun condition middle conditionShaped _ front => ?_
  refine ensures_bind front.toReaches (sound.statement _ (front.ends ends) (by omega)) ?_
  rintro body finish _ ⟨bodyTaken, undeclared⟩
  have takes := front.trans bodyTaken.toTakes
  refine ensures_pure takes.toReaches
    ⟨⟨⟨_, rfl, takes.congr ?_⟩, conditionShaped, undeclared, bodyTaken.shaped⟩, rfl⟩
  simp

theorem branch_sound (sound : Sound fuel) :
    Reads (fuel + 1) 1 (branch (fuel + 1)) fun start stmt finish =>
      start.TakesRest (.keyword .kwIf) stmt finish ∧ stmt.declaredName? = none := by
  intro start ends enough
  unfold branch
  refine ensures_condition sound ends (by omega) fun condition middle conditionShaped _ front => ?_
  refine ensures_bind front.toReaches (sound.statement _ (front.ends ends) (by omega)) ?_
  rintro thenBranch afterThen _ ⟨thenTaken, thenUndeclared⟩
  have front := front.trans thenTaken.toTakes
  have := thenTaken.shorter
  apply ensures_next
  split
  · next elseFound =>
    obtain ⟨keyword, _⟩ := Cursor.takes_advance (front.ends ends) elseFound (by simp)
    have front := front.trans keyword
    apply ensures_advance
    refine ensures_bind front.toReaches (sound.statement _ (front.ends ends) (by omega)) ?_
    rintro elseBranch finish _ ⟨elseTaken, elseUndeclared⟩
    have takes := front.trans elseTaken.toTakes
    refine ensures_pure takes.toReaches ⟨⟨⟨_, rfl, takes.congr ?_⟩, conditionShaped, thenUndeclared,
      thenTaken.shaped, elseUndeclared, elseTaken.shaped⟩, rfl⟩
    simp [Stmt.writtenPart]
  · refine ensures_pure front.toReaches ⟨⟨⟨_, rfl, front.congr ?_⟩, conditionShaped, thenUndeclared,
      thenTaken.shaped, rfl, trivial⟩, rfl⟩
    simp [Stmt.writtenPart]

theorem varDecl_sound (sound : Sound fuel) :
    Reads (fuel + 1) 1 (varDecl (fuel + 1)) fun start stmt finish =>
      start.TakesRest (.keyword .kwVar) stmt finish ∧ stmt.IsInitializer := by
  intro start ends enough
  unfold varDecl
  refine ensures_identifier (.refl start) fun text nameFound => ?_
  obtain ⟨name, _⟩ := Cursor.takes_advance ends nameFound (by simp)
  refine ensures_accept (fun equalFound => ?_) (fun _ => ?_)
  · obtain ⟨equal, _⟩ := Cursor.takes_advance (name.ends ends) equalFound (by simp)
    have front := name.trans equal
    refine ensures_bind front.toReaches (sound.expression _ (front.ends ends) (by omega)) ?_
    intro initializer middle _ taken
    have front := front.trans taken.toTakes
    refine ensures_terminator (front.ends ends) fun finish ended => ?_
    have takes := front.trans ended
    refine ensures_pure takes.toReaches ⟨⟨⟨_, rfl, takes.congr ?_⟩, taken.shaped⟩, trivial⟩
    simp [Expr.writtenPart, Name.written, Token.Kind.significant, Token.Kind.plain]
  · refine ensures_terminator (name.ends ends) fun finish ended => ?_
    have takes := name.trans ended
    exact ensures_pure takes.toReaches ⟨⟨⟨_, rfl, takes.congr rfl⟩, trivial⟩, trivial⟩

theorem forInitializer_sound (sound : Sound fuel) :
    Reads (fuel + 1) 17 (forInitializer (fuel + 1)) fun start initializer finish =>
      start.Takes (Stmt.writtenInitializer initializer) finish ∧
        (∀ stmt ∈ initializer, stmt.IsInitializer) ∧ Stmt.WellShapedPart initializer := by
  intro start ends enough
  unfold forInitializer
  apply ensures_next
  split
  case h_1 found =>
    obtain ⟨semicolon, _⟩ := Cursor.takes_advance ends found (by simp)
    exact ensures_advance (ensures_pure semicolon.toReaches ⟨semicolon, by simp, trivial⟩)
  case h_2 found =>
    obtain ⟨keyword, _⟩ := Cursor.takes_advance ends found (by simp)
    apply ensures_advance
    refine ensures_bind keyword.toReaches (sound.varDecl _ (keyword.ends ends) (by omega)) ?_
    rintro stmt finish _ ⟨taken, initializer⟩
    obtain ⟨kinds, spelled, takes⟩ := taken.takes
    have whole := keyword.trans takes
    refine ensures_pure whole.toReaches ⟨?_, by simpa using initializer, taken.shaped⟩
    rw [Stmt.writtenInitializer, spelled]
    exact whole
  case h_3 =>
    refine ensures_bind (.refl start) (sound.expressionStatement start ends (by omega)) ?_
    rintro stmt finish reached ⟨taken, simple⟩
    refine ensures_pure reached ⟨taken.toTakes, ?_, taken.shaped⟩
    rintro other member
    cases Option.mem_some.mp member
    exact Stmt.isInitializer_of_isSimple simple

theorem forLoop_sound (sound : Sound fuel) :
    Reads (fuel + 1) 1 (forLoop (fuel + 1)) fun start stmt finish =>
      start.TakesRest (.keyword .kwFor) stmt finish ∧ stmt.declaredName? = none := by
  intro start ends enough
  unfold forLoop
  refine ensures_expect (.refl start) fun openingFound => ?_
  obtain ⟨opening, _⟩ := Cursor.takes_advance ends openingFound (by simp)
  refine ensures_bind opening.toReaches (sound.forInitializer _ (opening.ends ends) (by omega)) ?_
  rintro initializer afterInitializer _ ⟨initializerTaken, initializers, initializerShaped⟩
  have front := opening.trans initializerTaken
  have := initializerTaken.length
  refine ensures_bind front.toReaches (sound.clause _ _ (front.ends ends) (by omega)) ?_
  rintro condition afterCondition _ ⟨conditionTaken, conditionShaped⟩
  have front := front.trans conditionTaken
  have := conditionTaken.length
  refine ensures_expect front.toReaches fun semicolonFound => ?_
  obtain ⟨semicolon, _⟩ := Cursor.takes_advance (front.ends ends) semicolonFound (by simp)
  have front := front.trans semicolon
  refine ensures_bind front.toReaches (sound.clause _ _ (front.ends ends) (by omega)) ?_
  rintro increment afterIncrement _ ⟨incrementTaken, incrementShaped⟩
  have front := front.trans incrementTaken
  have := incrementTaken.length
  refine ensures_expect front.toReaches fun closingFound => ?_
  obtain ⟨closing, _⟩ := Cursor.takes_advance (front.ends ends) closingFound (by simp)
  have front := front.trans closing
  refine ensures_bind front.toReaches (sound.statement _ (front.ends ends) (by omega)) ?_
  rintro body finish _ ⟨bodyTaken, undeclared⟩
  have takes := front.trans bodyTaken.toTakes
  refine ensures_pure takes.toReaches ⟨⟨⟨_, rfl, takes.congr ?_⟩, initializers, initializerShaped,
    conditionShaped, incrementShaped, undeclared, bodyTaken.shaped⟩, rfl⟩
  simp

theorem statement_sound (sound : Sound fuel) :
    Reads (fuel + 1) 17 (statement (fuel + 1)) fun start stmt finish =>
      start.TakesStmt stmt finish ∧ stmt.declaredName? = none := by
  intro start ends enough
  unfold statement
  apply ensures_next
  split
  case h_1 found =>
    obtain ⟨keyword, shorter⟩ := Cursor.takes_advance ends found (by simp)
    apply ensures_advance
    exact (sound.forLoop _ (keyword.ends ends) (by omega)).rebase keyword.toReaches
      fun stmt finish _ taken => ⟨taken.1.whole keyword shorter, taken.2⟩
  case h_2 found =>
    obtain ⟨keyword, shorter⟩ := Cursor.takes_advance ends found (by simp)
    apply ensures_advance
    exact (sound.branch _ (keyword.ends ends) (by omega)).rebase keyword.toReaches
      fun stmt finish _ taken => ⟨taken.1.whole keyword shorter, taken.2⟩
  case h_3 found =>
    obtain ⟨keyword, shorter⟩ := Cursor.takes_advance ends found (by simp)
    apply ensures_advance
    exact (sound.whileLoop _ (keyword.ends ends) (by omega)).rebase keyword.toReaches
      fun stmt finish _ taken => ⟨taken.1.whole keyword shorter, taken.2⟩
  case h_4 found =>
    obtain ⟨keyword, shorter⟩ := Cursor.takes_advance ends found (by simp)
    apply ensures_advance
    exact (sound.returnValue _ _ (keyword.ends ends) (by omega)).rebase keyword.toReaches
      fun stmt finish _ taken => ⟨taken.1.whole keyword shorter, taken.2⟩
  case h_5 found | h_6 found =>
    obtain ⟨keyword, shorter⟩ := Cursor.takes_advance ends found (by simp)
    apply ensures_advance
    refine ensures_terminator (keyword.ends ends) fun finish ended => ?_
    have takes := keyword.trans ended
    have := ended.length
    exact ensures_pure takes.toReaches ⟨⟨takes.congr rfl, by omega, trivial⟩, rfl⟩
  case h_7 found =>
    obtain ⟨opening, shorter⟩ := Cursor.takes_advance ends found (by simp)
    apply ensures_advance
    refine ensures_bind opening.toReaches (sound.block _ (opening.ends ends) (by omega)) ?_
    rintro body finish _ ⟨taken, _, shaped⟩
    have takes := opening.trans taken
    have := taken.length
    exact ensures_pure takes.toReaches ⟨⟨takes, by omega, shaped⟩, rfl⟩
  case h_8 =>
    exact (sound.expressionStatement start ends (by omega)).rebase (.refl start)
      fun stmt finish _ taken => ⟨taken.1, Stmt.declaredName?_of_isSimple taken.2⟩

end Reader

end Lox
