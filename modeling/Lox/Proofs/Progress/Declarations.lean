import Lox.Proofs.Progress.Steps

/-!
# Declarations and recovery

Going on after an error by index stops where the cursor resumes. So a call of `declaration` follows its
reader whether it fails or not, and it is on the trail in front of the calls inside of it.
-/

namespace Lox.Tracer

/-! ## Recovery -/

/-- Going on from an index stops where the cursor resumes, given the token before the index. -/
theorem skip_followsAt {bound fuel : Nat} {pointer : Pointer} {before : Token}
    (inRange : pointer.InRange) (enough : Token.firstEnd pointer.tokens - pointer.current < fuel)
    (found : pointer.tokens[pointer.current - 1]? = some before) :
    FollowsAt bound pointer (skip fuel pointer) (.done ()
      ⟨Cursor.skipFrom before pointer.cursor.rest, pointer.cursor.stop, pointer.errors⟩) := by
  induction fuel generalizing pointer before with
  | zero => exact absurd enough (Nat.not_lt_zero _)
  | succ fuel ih =>
    have still : pointer.cursor =
        ⟨pointer.cursor.rest, pointer.cursor.stop, pointer.errors⟩ := rfl
    unfold skip
    refine .after (.atEnd inRange) ?_
    by_cases none : pointer.cursor.rest = []
    · rw [none, List.isEmpty_nil, if_pos rfl, Cursor.skipFrom, ← none, ← still]
      exact .pure inRange ()
    · rw [List.isEmpty_eq_false_iff.mpr none, if_neg Bool.false_ne_true]
      have kind := mt inRange.next_kind_eq_iff.mp none
      have front := Cursor.rest_eq_cons pointer.cursor_ends kind
      refine .after (.previous inRange found) (.after (.next inRange) ?_)
      -- Whether a token is on a new line is seen from the one before it.
      rw [front, Cursor.skipFrom]
      split
      · rw [← front, ← still]
        exact .pure inRange ()
      · refine .after (.advance inRange none) ?_
        have onward := inRange.onward_succ none
        have within := inRange.current_lt_firstEnd none
        have rest := ih (onward.inRange inRange) (by simp only [Pointer.succ]; omega)
          inRange.getElem?_current
        rwa [pointer.cursor_succ] at rest

theorem skipAll_followsAt {bound : Nat} {pointer : Pointer} {before : Token} (inRange : pointer.InRange)
    (found : pointer.tokens[pointer.current - 1]? = some before) :
    FollowsAt bound pointer (skipAll pointer) (.done ()
      ⟨Cursor.skipFrom before pointer.cursor.rest, pointer.cursor.stop, pointer.errors⟩) := by
  have within := Pointer.firstEnd_lt inRange.ended
  have here := inRange.current
  exact skip_followsAt inRange (by omega) found

theorem advance_skipAll_followsAt {bound : Nat} {pointer : Pointer} (inRange : pointer.InRange)
    (more : pointer.cursor.rest ≠ []) :
    FollowsAt bound pointer ((advance >>= fun _ => skipAll) pointer) (.done ()
      ⟨Cursor.skipFrom pointer.cursor.next pointer.cursor.advance.rest, pointer.cursor.stop,
        pointer.errors⟩) := by
  have onward := inRange.onward_succ more
  rw [← pointer.cursor_succ]
  exact .after (.advance inRange more)
    (skipAll_followsAt (onward.inRange inRange) inRange.getElem?_current)

/-- What is left after an error in a declaration, which was called where there were tokens left. -/
theorem synchronize_followsAt {bound : Nat} {start failed : Pointer} (inRange : start.InRange)
    (more : start.cursor.rest ≠ []) (onward : start.Onward failed) :
    FollowsAt bound failed (synchronize start.current failed) (.done ()
      ⟨Cursor.resumed start.cursor.rest failed.cursor.rest, failed.cursor.stop, failed.errors⟩) := by
  have inside := onward.inRange inRange
  have sameLength : failed.cursor.rest.length ≠ start.cursor.rest.length ↔
      failed.current ≠ start.current := by
    have := inRange.current_lt_firstEnd more
    have := onward.current
    have := onward.bound
    rw [Pointer.length_rest, Pointer.length_rest, onward.tokens]
    omega
  obtain ⟨before, found⟩ := inside.exists_previous
  unfold synchronize
  refine .after (.current inside) ?_
  by_cases none : failed.cursor.rest = []
  · -- The declaration started at a token, so it has failed further on.
    have moved : failed.current ≠ start.current := by
      rw [← sameLength, none]
      exact fun same => more (List.length_eq_zero_iff.mp same.symm)
    rw [if_neg moved, none, Cursor.resumed]
    refine .after (.nextIs inside _) ?_
    rw [inside.next_kind_eq_iff.mpr none]
    obtain ⟨_, goes⟩ := GoesTo.advance_of_rest_eq_nil inside none
    refine .after goes ?_
    have rest : FollowsAt bound failed (skipAll failed) _ := skipAll_followsAt inside found
    rwa [none] at rest
  · have front := Cursor.rest_eq_cons failed.cursor_ends (mt inside.next_kind_eq_iff.mp none)
    have resumes : Cursor.resumed start.cursor.rest failed.cursor.rest =
        if failed.cursor.next.kind = .symbol .rightBrace ∧ failed.current ≠ start.current then
          failed.cursor.rest
        else Cursor.skipFrom failed.cursor.next failed.cursor.advance.rest := by
      simp only [← sameLength]
      rw [front, Cursor.resumed]
    have givesUp : FollowsAt bound failed _ _ := advance_skipAll_followsAt inside none
    rw [resumes]
    by_cases moved : failed.current = start.current
    · rw [if_pos moved, if_neg fun keeps => keeps.2 moved]
      exact .after (.pure inside _) givesUp
    · rw [if_neg moved]
      refine .after (.nextIs inside _) ?_
      by_cases closes : failed.cursor.next.kind = .symbol .rightBrace
      · -- The closing brace is a boundary, so nothing is skipped.
        have rest : FollowsAt bound failed (skipAll failed) _ := skipAll_followsAt inside found
        have stays : Cursor.skipFrom before failed.cursor.rest = failed.cursor.rest := by
          rw [front, Cursor.skipFrom, closes]
          simp [Token.Kind.isBoundary]
        rw [stays] at rest
        rw [decide_eq_true closes, if_pos ⟨closes, moved⟩]
        exact rest
      · rw [decide_eq_false closes, if_neg fun keeps => closes keeps.1]
        exact givesUp

/-! ## Declarations -/

/-- What a declaration is, failures and all, before it goes on the trail. -/
theorem declared_followsAt {bound fuel : Nat} {pointer : Pointer} (inRange : pointer.InRange)
    (more : pointer.cursor.rest ≠ [])
    (inner : FollowsAt bound pointer (declared fuel pointer) (Reader.declared fuel pointer.cursor)) :
    FollowsAt bound pointer
      (handle (declared fuel >>= fun stmt => pure (some stmt)) (fun error => do
        keep error
        synchronize pointer.current
        pure none) pointer)
      (Reader.declaration (fuel + 1) pointer.cursor) := by
  rw [Reader.declaration_succ]
  refine .handle ?_ fun error failed onward => ?_
  · refine .bind inner fun stmt middle _ onward => ?_
    exact .pure (onward.inRange inRange) _
  · have inside := onward.inRange inRange
    let kept : Pointer := { failed with errors := error :: failed.errors }
    have keeps : GoesTo (keep error) () failed kept := .keep inside error
    have onwardKept := onward.trans keeps.onward
    refine .after keeps ?_
    let recovered : Reader Unit := fun cursor =>
      .done () ⟨Cursor.resumed pointer.cursor.rest cursor.rest, cursor.stop, cursor.errors⟩
    have first : FollowsAt bound kept (synchronize pointer.current kept) (recovered kept.cursor) :=
      synchronize_followsAt inRange more onwardKept
    let nothing : Option (Stmt Unit) := none
    have whole : FollowsAt bound kept ((synchronize pointer.current >>= fun _ => pure nothing) kept)
        ((recovered >>= fun _ => pure nothing) kept.cursor) :=
      first.bind fun _ middle _ further => .pure (further.inRange (onwardKept.inRange inRange)) nothing
    exact whole

/-- A call goes on the trail in front of the calls inside of it, and it advances. -/
theorem called_followsAt {fuel : Nat} {pointer : Pointer} {tracer : Tracer (Option (Stmt Unit))}
    (inRange : pointer.InRange) (more : pointer.cursor.rest ≠ [])
    (inside : FollowsAt (pointer.current + 1) pointer (tracer pointer)
      (Reader.declaration fuel pointer.cursor)) :
    FollowsAt pointer.current pointer (called tracer pointer)
      (Reader.declaration fuel pointer.cursor) := by
  have before := inRange.current_lt_firstEnd more
  refine ⟨inside.sees, .call inRange.refl before ⟨fuel, inside.sees⟩ inside.leads,
    fun finish stopped => ?_⟩
  obtain ⟨onward, passed⟩ := inside.stops finish stopped
  have sees := inside.sees
  have own : pointer.current < finish.current ∧ Call.Advances ⟨pointer, (tracer pointer).outcome⟩ := by
    change (tracer pointer).outcome.stops? = some finish at stopped
    generalize (tracer pointer).outcome = outcome at sees stopped ⊢
    generalize read : Reader.declaration fuel pointer.cursor = parsed at sees
    cases sees with
    | done stmt stop =>
      cases stopped
      have further := onward.current_lt (Cursor.length_of_declaration pointer.cursor_ends more read)
      exact ⟨further, stmt, finish, rfl, onward, further⟩
    | failed error stop => exact absurd read Reader.declaration_ne_failed
    | outOfFuel => cases stopped
  exact ⟨onward, List.forall_mem_cons.mpr ⟨own, passed⟩⟩

theorem declaration_followsAt {fuel : Nat} {pointer : Pointer} (inRange : pointer.InRange)
    (more : pointer.cursor.rest ≠ [])
    (inner : FollowsAt (pointer.current + 1) pointer (declared fuel pointer)
      (Reader.declared fuel pointer.cursor)) :
    FollowsAt pointer.current pointer (declaration (fuel + 1) pointer)
      (Reader.declaration (fuel + 1) pointer.cursor) := by
  refine called_followsAt inRange more ?_
  exact .after (.current inRange) (declared_followsAt inRange more inner)

end Lox.Tracer
